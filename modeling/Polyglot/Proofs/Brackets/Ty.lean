import Polyglot.Proofs.Brackets.Spelled
import Polyglot.Proofs.Outcome

/-!
# Brackets in types

Types that the caller spells by nothing but names are well bracketed in TypeScript, and regular
types in both notations of PHP.

* `Ty.wellBracketed_toTypeScript` : types in TypeScript.
* `Ty.wellBracketed_toPhp` : types in signatures and comments of PHP.
-/

set_option autoImplicit false

namespace Polyglot

open Outcome Brackets

variable {ok : String → Bool}

theorem Literal.hides_toTypeScript (v : Literal) : Hides .typescript [] [] v.toTypeScript := by
  cases v with
  | bool b => cases b <;> exact .lit rfl
  | int n => exact .of_isSolid (isSolid_int n)
  | str s => exact Text.Quoted.hides_encode (by decide) s

theorem Literal.wellBracketed_toTypeScript (v : Literal) :
    WellBracketed .typescript v.toTypeScript := v.hides_toTypeScript.shifts

theorem Literal.wellBracketed_phpType (v : Literal) : WellBracketed .php v.phpType := by
  cases v with
  | bool _ => exact Shifts.lit (a := "bool") rfl
  | int _ => exact Shifts.lit (a := "int") rfl
  | str _ => exact Shifts.lit (a := "string") rfl

theorem LiteralSet.wellBracketed_phpTypes (values : LiteralSet) :
    ∀ s ∈ values.phpTypes, WellBracketed .php s := by
  intro s hs
  rw [phpTypes, mem_ascending] at hs
  obtain ⟨v, _, rfl⟩ := List.mem_map.1 hs
  exact v.wellBracketed_phpType

/-- Both notations of a PHP type are well bracketed. -/
structure PhpTy.AreWellBracketed (p : PhpTy) : Prop where
  strict : ∀ s ∈ p.strict, WellBracketed .php s
  doc : WellBracketed .php p.doc

namespace Ty

theorem wellBracketed_parameterName : ∀ name ∈ parameterNames, WellBracketed .typescript name := by
  have hinert : (parameterNames.all isInert) = true := by decide
  exact fun name hname => .of_isInert (List.all_eq_true.1 hinert name hname)

/-- A written parameter is one of the names with one of the types behind it. -/
theorem exists_of_mem_zipWith {names : List String} {ps : List TypeScriptTy} {s : String}
    (h : s ∈ names.zipWith (fun name p => name ++ ": " ++ p.text) ps) :
    ∃ name ∈ names, ∃ p ∈ ps, s = name ++ ": " ++ p.text := by
  rw [← List.map_uncurry_zip_eq_zipWith] at h
  obtain ⟨⟨name, p⟩, hmem, rfl⟩ := List.mem_map.1 h
  obtain ⟨hname, hp⟩ := List.of_mem_zip hmem
  exact ⟨name, hname, p, hp, rfl⟩

/-- Names in front of well-bracketed types. -/
theorem wellBracketed_zipWith {names : List String} {ps : List TypeScriptTy}
    (hnames : ∀ name ∈ names, WellBracketed .typescript name)
    (hps : ∀ p ∈ ps, WellBracketed .typescript p.text) :
    ∀ s ∈ names.zipWith (fun name p => name ++ ": " ++ p.text) ps,
      WellBracketed .typescript s := by
  intro s hs
  obtain ⟨name, hname, p, hp, rfl⟩ := exists_of_mem_zipWith hs
  exact ((hnames name hname).add rfl).wrap (hps p hp)

mutual

/-- A type that is spelled by inert names is well bracketed in TypeScript. -/
theorem wellBracketed_toTypeScript (hok : OnlyInert ok) :
    ∀ ty : Ty, ty.IsSpelled ok → ∀ {r : TypeScriptTy}, ty.toTypeScript = .ok r →
      WellBracketed .typescript r.text
  | .any, _, r, h | .str, _, r, h | .num, _, r, h | .bool, _, r, h | .null, _, r, h
  | .omit, _, r, h => by
      cases h
      exact .lit rfl
  | .literal values, _, r, h => by
      cases h
      refine .intercalate (.lit rfl) fun s hs => ?_
      obtain ⟨v, _, rfl⟩ := List.mem_map.1 hs
      exact v.wellBracketed_toTypeScript
  | .optional inner, hreg, r, h => by
      obtain ⟨i, hi, h⟩ := bind_eq_ok.1 h
      cases pure_eq_ok.1 h
      exact (wellBracketed_toTypeScript hok inner hreg hi).add rfl
  | .list inner, hreg, r, h => by
      obtain ⟨i, hi, h⟩ := bind_eq_ok.1 h
      cases pure_eq_ok.1 h
      have hinner := wellBracketed_toTypeScript hok inner hreg hi
      show WellBracketed _ (if _ then _ else _)
      split
      · exact hinner.add rfl
      · exact Shifts.lit rfl |>.wrap hinner |>.add rfl
  | .set inner, hreg, r, h => by
      obtain ⟨i, hi, h⟩ := bind_eq_ok.1 h
      cases pure_eq_ok.1 h
      have hinner := wellBracketed_toTypeScript hok inner hreg hi
      exact Shifts.lit rfl |>.wrap hinner |>.add rfl
  | .dict key value, hreg, r, h => by
      obtain ⟨k, hk, h⟩ := bind_eq_ok.1 h
      obtain ⟨v, hv, h⟩ := bind_eq_ok.1 h
      cases pure_eq_ok.1 h
      have hkey := wellBracketed_toTypeScript hok key hreg.1 hk
      have hvalue := wellBracketed_toTypeScript hok value hreg.2 hv
      exact Shifts.lit rfl |>.wrap hkey |>.add rfl |>.wrap hvalue |>.add rfl
  | .map key value, hreg, r, h => by
      obtain ⟨k, hk, h⟩ := bind_eq_ok.1 h
      obtain ⟨v, hv, h⟩ := bind_eq_ok.1 h
      cases pure_eq_ok.1 h
      have hkey := wellBracketed_toTypeScript hok key hreg.1 hk
      have hvalue := wellBracketed_toTypeScript hok value hreg.2 hv
      exact Shifts.lit rfl |>.wrap hkey |>.add rfl |>.wrap hvalue |>.add rfl
  | .union [], _, r, h => nomatch h
  | .union (ty :: tys), hreg, r, h => by
      obtain ⟨ms, hms, h⟩ := bind_eq_ok.1 h
      cases pure_eq_ok.1 h
      refine .intercalate (.lit rfl) fun s hs => ?_
      obtain ⟨m, hm, rfl⟩ := List.mem_map.1 hs
      exact wellBracketed_toTypeScriptAll hok (ty :: tys) hreg hms m hm
  | .callable params result, hreg, r, h => by
      rw [toTypeScript] at h
      split at h
      · cases h
      obtain ⟨ps, hps, h⟩ := bind_eq_ok.1 h
      obtain ⟨res, hres, h⟩ := bind_eq_ok.1 h
      cases pure_eq_ok.1 h
      have hparams := wellBracketed_zipWith wellBracketed_parameterName
        (wellBracketed_toTypeScriptAll hok params hreg.1 hps)
      have hresult := wellBracketed_toTypeScript hok result hreg.2 hres
      exact Shifts.lit rfl |>.wrap (.intercalate (.lit rfl) hparams) |>.add rfl |>.wrap hresult
  | .alias name base, hreg, r, h => by
      cases h
      exact .of_isInert (hok name hreg)
  | .custom _, hreg, _, _ | .python _ _, hreg, _, _ | .typescript _, hreg, _, _ => hreg.elim

theorem wellBracketed_toTypeScriptAll (hok : OnlyInert ok) :
    ∀ tys : List Ty, AllSpelled ok tys → ∀ {rs : List TypeScriptTy}, toTypeScriptAll tys = .ok rs →
      ∀ r ∈ rs, WellBracketed .typescript r.text
  | [], _, rs, h => by
      cases h
      exact fun r hr => nomatch hr
  | ty :: tys, hreg, rs, h => by
      obtain ⟨r, hr, h⟩ := bind_eq_ok.1 h
      obtain ⟨rest, hrest, h⟩ := bind_eq_ok.1 h
      cases pure_eq_ok.1 h
      intro r' hr'
      rcases List.mem_cons.1 hr' with rfl | hr'
      · exact wellBracketed_toTypeScript hok ty hreg.1 hr
      · exact wellBracketed_toTypeScriptAll hok tys hreg.2 hrest r' hr'

end

/-- The text of a spelled type in TypeScript code. -/
theorem IsSpelled.wellBracketed_typeScriptText (hok : OnlyInert ok) {ty : Ty}
    (hty : ty.IsSpelled ok) {text : String} (h : ty.typeScriptText = .ok text) :
    WellBracketed .typescript text := by
  obtain ⟨r, hr, h⟩ := bind_eq_ok.1 h
  cases pure_eq_ok.1 h
  exact wellBracketed_toTypeScript hok ty hty hr

theorem IsRegular.wellBracketed_toTypeScript {ty : Ty} (hreg : ty.IsRegular) {r : TypeScriptTy}
    (h : ty.toTypeScript = .ok r) : WellBracketed .typescript r.text :=
  Ty.wellBracketed_toTypeScript (fun _ => id) ty (hreg.isSpelled ty) h

theorem wellBracketed_typeScriptText {ty : Ty} (hreg : ty.IsRegular) {text : String}
    (h : ty.typeScriptText = .ok text) : WellBracketed .typescript text :=
  IsSpelled.wellBracketed_typeScriptText (fun _ => id) (hreg.isSpelled ty) h

/-! ## PHP -/

/-- The element type of a list or dict in comments. -/
theorem wellBracketed_arrayDoc {p : PhpTy} (hp : p.AreWellBracketed) :
    WellBracketed .php (if p.closed then p.doc ++ "[]" else "mixed") := by
  split
  · exact hp.doc.add rfl
  · exact .lit rfl

/-- The strict type of all values that are held in arrays. -/
theorem wellBracketed_array : ∀ s ∈ some "array", WellBracketed .php s := by
  rintro s ⟨⟩
  exact .lit rfl

mutual

/-- A regular type is well bracketed in both notations of PHP. -/
theorem wellBracketed_toPhp : ∀ ty : Ty, ty.IsRegular → ∀ {r : PhpTy},
    ty.toPhp = .ok r → r.AreWellBracketed
  | .any, _, r, h | .null, _, r, h | .callable _ _, _, r, h => by
      cases h
      exact ⟨fun _ => nofun, .lit rfl⟩
  | .str, _, r, h | .num, _, r, h | .bool, _, r, h | .map _ _, _, r, h => by
      cases h
      refine ⟨?_, .lit rfl⟩
      rintro s ⟨⟩
      exact .lit rfl
  | .omit, _, r, h | .set _, _, r, h => nomatch h
  | .literal values, _, r, h => by
      have hplain := values.wellBracketed_phpTypes
      rw [toPhp] at h
      split at h
      · cases h
      · rename_i only hvalues
        cases h
        have honly := hplain only (hvalues ▸ List.mem_singleton_self only)
        refine ⟨?_, honly⟩
        rintro s ⟨⟩
        exact honly
      · cases h
        refine ⟨?_, .intercalate (.lit rfl) hplain⟩
        rintro s ⟨⟩
        exact .lit rfl
  | .optional inner, hreg, r, h => by
      obtain ⟨i, hi, h⟩ := bind_eq_ok.1 h
      cases pure_eq_ok.1 h
      exact ⟨fun _ => nofun,
        (Shifts.lit rfl).wrap (wellBracketed_toPhp inner hreg hi).doc⟩
  | .list inner, hreg, r, h => by
      obtain ⟨i, hi, h⟩ := bind_eq_ok.1 h
      cases pure_eq_ok.1 h
      exact ⟨wellBracketed_array, wellBracketed_arrayDoc (wellBracketed_toPhp inner hreg hi)⟩
  | .dict key value, hreg, r, h => by
      obtain ⟨v, hv, h⟩ := bind_eq_ok.1 h
      cases pure_eq_ok.1 h
      exact ⟨wellBracketed_array, wellBracketed_arrayDoc (wellBracketed_toPhp value hreg.2 hv)⟩
  | .union [], _, r, h => nomatch h
  | .union (ty :: tys), hreg, r, h => by
      obtain ⟨ms, hms, h⟩ := bind_eq_ok.1 h
      cases pure_eq_ok.1 h
      refine ⟨fun _ => nofun, .intercalate (.lit rfl) fun s hs => ?_⟩
      obtain ⟨m, hm, rfl⟩ := List.mem_map.1 hs
      exact (wellBracketed_toPhpAll (ty :: tys) hreg hms m hm).doc
  | .alias name base, hreg, r, h => wellBracketed_toPhp base hreg.2 h
  | .custom _, hreg, _, _ | .python _ _, hreg, _, _ | .typescript _, hreg, _, _ => hreg.elim

theorem wellBracketed_toPhpAll : ∀ tys : List Ty, AllRegular tys →
    ∀ {rs : List PhpTy}, toPhpAll tys = .ok rs → ∀ r ∈ rs, r.AreWellBracketed
  | [], _, rs, h => by
      cases h
      exact fun r hr => nomatch hr
  | ty :: tys, hreg, rs, h => by
      obtain ⟨r, hr, h⟩ := bind_eq_ok.1 h
      obtain ⟨rest, hrest, h⟩ := bind_eq_ok.1 h
      cases pure_eq_ok.1 h
      intro r' hr'
      rcases List.mem_cons.1 hr' with rfl | hr'
      · exact wellBracketed_toPhp ty hreg.1 hr
      · exact wellBracketed_toPhpAll tys hreg.2 hrest r' hr'

end

/-- A comment that states a regular type. -/
theorem wellBracketed_phpVarComment {ty : Ty} (hreg : ty.IsRegular) {text : String}
    (h : ty.phpVarComment = .ok text) : WellBracketed .php text := by
  obtain ⟨r, hr, h⟩ := bind_eq_ok.1 h
  cases pure_eq_ok.1 h
  exact Shifts.lit rfl |>.wrap (wellBracketed_toPhp ty hreg hr).doc |>.add rfl

end Ty

end Polyglot
