import Polyglot.Proofs.Brackets.Ty
import Polyglot.Proofs.Outcome
import Polyglot.Proofs.Text.OneLine
import Polyglot.Ty.Python
import Polyglot.Ty.TypeScript

/-!
# Types on one line

Python and TypeScript write the texts of a literal type between quotes, where newlines are escaped.
So a newline in a written type comes from a text that the caller spelled: the name of a named type,
or a type of the caller's own.

* `Ty.spelled`, `Ty.IsFlat` : what the caller spells in a type; none of it holds a newline.
* `Ty.isLine_pythonText`, `Ty.isLine_typeScriptText` : a flat type is written on one line.
-/

set_option autoImplicit false

namespace Polyglot

open Outcome Text

/-! ## What the caller spells -/

/-- The texts that the caller gives for one language. -/
def CustomTy.texts (c : CustomTy) : Target → List String
  | .python => c.python.toList
  | .typescript => c.typescript.toList
  | .php => c.php.toList.flatMap fun s => s.doc :: s.strict.toList

namespace Ty

mutual

/-- The texts that the caller spells in a type and that one language writes. -/
def spelled (t : Target) : Ty → List String
  | .any | .str | .num | .bool | .null | .omit | .literal _ => []
  | .optional inner | .list inner | .set inner => inner.spelled t
  | .dict key value | .map key value => key.spelled t ++ value.spelled t
  | .union members => spelledAll t members
  | .callable params result => spelledAll t params ++ result.spelled t
  | .alias name _ => [name]
  | .custom spelling => spelling.texts t
  | .python text _ => [text]
  | .typescript text => [text]

def spelledAll (t : Target) : List Ty → List String
  | [] => []
  | ty :: tys => ty.spelled t ++ spelledAll t tys

end

/-- Nothing that the caller spells in the type holds a newline. -/
def IsFlat (t : Target) (ty : Ty) : Prop := ∀ s ∈ ty.spelled t, IsLine s

end Ty

/-! ## Types -/

theorem Literal.isLine_toPython (v : Literal) : IsLine v.toPython := by
  cases v with
  | bool b => cases b <;> decide
  | int n => exact isLine_int n
  | str s => exact isLine_quoted s

theorem Literal.isLine_toTypeScript (v : Literal) : IsLine v.toTypeScript := by
  cases v with
  | bool b => cases b <;> decide
  | int n => exact isLine_int n
  | str s => exact isLine_quoted s

theorem Annotation.isLine_commas {as : List Annotation} (h : ∀ a ∈ as, IsLine a.text) :
    IsLine (commas as) := by
  rw [commas, isLine_intercalate (by decide)]
  simpa using h

theorem Annotation.isLine_generic {name : String} (hname : IsLine name) {as : List Annotation}
    (h : ∀ a ∈ as, IsLine a.text) : IsLine (generic name as).text := by
  simp +decide [generic, hname, isLine_commas h]

namespace Ty

mutual

/-- The annotation for a flat type is one line. -/
theorem isLine_toPython : ∀ ty : Ty, ty.IsFlat .python → ∀ {a : Annotation},
    ty.toPython = .ok a → IsLine a.text
  | .any, _, a, h | .str, _, a, h | .num, _, a, h | .bool, _, a, h | .null, _, a, h
  | .omit, _, a, h => by
      cases h
      decide
  | .literal values, _, a, h => by
      cases h
      have hvalues : IsLine (", ".intercalate (values.values.map Literal.toPython)) := by
        rw [isLine_intercalate (by decide)]
        simp [Literal.isLine_toPython]
      simp +decide [hvalues]
  | .optional inner, hflat, a, h | .list inner, hflat, a, h | .set inner, hflat, a, h => by
      obtain ⟨i, hi, h⟩ := bind_eq_ok.1 h
      cases pure_eq_ok.1 h
      have hinner := isLine_toPython inner hflat hi
      exact Annotation.isLine_generic (by decide) (by simpa using hinner)
  | .dict key value, hflat, a, h | .map key value, hflat, a, h => by
      obtain ⟨k, hk, h⟩ := bind_eq_ok.1 h
      obtain ⟨v, hv, h⟩ := bind_eq_ok.1 h
      cases pure_eq_ok.1 h
      obtain ⟨hkey, hvalue⟩ := List.forall_mem_append.1 hflat
      have hk := isLine_toPython key hkey hk
      have hv := isLine_toPython value hvalue hv
      exact Annotation.isLine_generic (by decide) (by simp [hk, hv])
  | .union [], _, a, h => nomatch h
  | .union (ty :: tys), hflat, a, h => by
      obtain ⟨ms, hms, h⟩ := bind_eq_ok.1 h
      cases pure_eq_ok.1 h
      exact Annotation.isLine_generic (by decide) (isLine_toPythonAll (ty :: tys) hflat hms)
  | .callable params result, hflat, a, h => by
      obtain ⟨ps, hps, h⟩ := bind_eq_ok.1 h
      obtain ⟨r, hr, h⟩ := bind_eq_ok.1 h
      cases pure_eq_ok.1 h
      obtain ⟨hparams, hresult⟩ := List.forall_mem_append.1 hflat
      have hps := Annotation.isLine_commas (isLine_toPythonAll params hparams hps)
      have hr := isLine_toPython result hresult hr
      simp +decide [hps, hr]
  | .alias name _, hflat, a, h => by
      cases h
      exact hflat name (List.mem_singleton_self _)
  | .custom spelling, hflat, a, h => by
      rw [toPython] at h
      cases hpython : spelling.python with
      | none => simp [hpython] at h
      | some text =>
          simp only [hpython] at h
          cases h
          exact hflat text (by simp [spelled, CustomTy.texts, hpython])
  | .python text _, hflat, a, h => by
      cases h
      exact hflat text (List.mem_singleton_self _)
  | .typescript _, _, a, h => nomatch h

theorem isLine_toPythonAll : ∀ tys : List Ty, (∀ s ∈ spelledAll .python tys, IsLine s) →
    ∀ {as : List Annotation}, toPythonAll tys = .ok as → ∀ a ∈ as, IsLine a.text
  | [], _, as, h => by
      cases h
      simp
  | ty :: tys, hflat, as, h => by
      obtain ⟨a, ha, h⟩ := bind_eq_ok.1 h
      obtain ⟨rest, hrest, h⟩ := bind_eq_ok.1 h
      cases pure_eq_ok.1 h
      obtain ⟨hty, htys⟩ := List.forall_mem_append.1 hflat
      exact List.forall_mem_cons.2
        ⟨isLine_toPython ty hty ha, isLine_toPythonAll tys htys hrest⟩

end

/-- An annotation that is written as a string is one line, too. -/
theorem isLine_pythonText {ty : Ty} (hflat : ty.IsFlat .python) {text : String}
    (h : ty.pythonText = .ok text) : IsLine text := by
  obtain ⟨a, ha, h⟩ := bind_eq_ok.1 h
  cases pure_eq_ok.1 h
  unfold Annotation.written
  split
  · exact isLine_quoted a.text
  · exact isLine_toPython ty hflat ha

theorem isLine_of_mem_parameterNames : ∀ name ∈ parameterNames, IsLine name := by decide

/-- Names with texts behind them, as far as there are names. -/
theorem isLine_zipWith {ps : List TypeScriptTy} (h : ∀ p ∈ ps, IsLine p.text) :
    ∀ s ∈ parameterNames.zipWith (fun name p => name ++ ": " ++ p.text) ps, IsLine s := by
  intro s hs
  obtain ⟨name, hname, p, hp, rfl⟩ := exists_of_mem_zipWith hs
  simp +decide [isLine_of_mem_parameterNames name hname, h p hp]

mutual

/-- The TypeScript form of a flat type is one line. -/
theorem isLine_toTypeScript : ∀ ty : Ty, ty.IsFlat .typescript → ∀ {a : TypeScriptTy},
    ty.toTypeScript = .ok a → IsLine a.text
  | .any, _, a, h | .str, _, a, h | .num, _, a, h | .bool, _, a, h | .null, _, a, h
  | .omit, _, a, h => by
      cases h
      decide
  | .literal values, _, a, h => by
      cases h
      rw [isLine_intercalate (by decide)]
      simp [Literal.isLine_toTypeScript]
  | .optional inner, hflat, a, h | .set inner, hflat, a, h => by
      obtain ⟨i, hi, h⟩ := bind_eq_ok.1 h
      cases pure_eq_ok.1 h
      simp +decide [isLine_toTypeScript inner hflat hi]
  | .list inner, hflat, a, h => by
      obtain ⟨i, hi, h⟩ := bind_eq_ok.1 h
      cases pure_eq_ok.1 h
      have hinner := isLine_toTypeScript inner hflat hi
      cases i.closed <;> simp +decide [hinner]
  | .dict key value, hflat, a, h | .map key value, hflat, a, h => by
      obtain ⟨k, hk, h⟩ := bind_eq_ok.1 h
      obtain ⟨v, hv, h⟩ := bind_eq_ok.1 h
      cases pure_eq_ok.1 h
      obtain ⟨hkey, hvalue⟩ := List.forall_mem_append.1 hflat
      simp +decide [isLine_toTypeScript key hkey hk, isLine_toTypeScript value hvalue hv]
  | .union [], _, a, h => nomatch h
  | .union (ty :: tys), hflat, a, h => by
      obtain ⟨ms, hms, h⟩ := bind_eq_ok.1 h
      cases pure_eq_ok.1 h
      rw [isLine_intercalate (by decide)]
      simpa using isLine_toTypeScriptAll (ty :: tys) hflat hms
  | .callable params result, hflat, a, h => by
      rw [toTypeScript] at h
      split at h
      · cases h
      obtain ⟨ps, hps, h⟩ := bind_eq_ok.1 h
      obtain ⟨r, hr, h⟩ := bind_eq_ok.1 h
      cases pure_eq_ok.1 h
      obtain ⟨hparams, hresult⟩ := List.forall_mem_append.1 hflat
      have hsep : IsLine ", " := by decide
      have htyped := (isLine_intercalate hsep).2
        (isLine_zipWith (isLine_toTypeScriptAll params hparams hps))
      simp +decide [htyped, isLine_toTypeScript result hresult hr]
  | .alias name _, hflat, a, h => by
      cases h
      exact hflat name (List.mem_singleton_self _)
  | .custom spelling, hflat, a, h => by
      rw [toTypeScript] at h
      cases htypescript : spelling.typescript with
      | none => simp [htypescript] at h
      | some text =>
          simp only [htypescript] at h
          cases h
          exact hflat text (by simp [spelled, CustomTy.texts, htypescript])
  | .python _ _, _, a, h => nomatch h
  | .typescript text, hflat, a, h => by
      cases h
      exact hflat text (List.mem_singleton_self _)

theorem isLine_toTypeScriptAll : ∀ tys : List Ty, (∀ s ∈ spelledAll .typescript tys, IsLine s) →
    ∀ {as : List TypeScriptTy}, toTypeScriptAll tys = .ok as → ∀ a ∈ as, IsLine a.text
  | [], _, as, h => by
      cases h
      simp
  | ty :: tys, hflat, as, h => by
      obtain ⟨a, ha, h⟩ := bind_eq_ok.1 h
      obtain ⟨rest, hrest, h⟩ := bind_eq_ok.1 h
      cases pure_eq_ok.1 h
      obtain ⟨hty, htys⟩ := List.forall_mem_append.1 hflat
      exact List.forall_mem_cons.2
        ⟨isLine_toTypeScript ty hty ha, isLine_toTypeScriptAll tys htys hrest⟩

end

theorem isLine_typeScriptText {ty : Ty} (hflat : ty.IsFlat .typescript) {text : String}
    (h : ty.typeScriptText = .ok text) : IsLine text := by
  obtain ⟨a, ha, h⟩ := bind_eq_ok.1 h
  cases pure_eq_ok.1 h
  exact isLine_toTypeScript ty hflat ha

end Ty

end Polyglot
