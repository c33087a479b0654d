import Polyglot.Proofs.Brackets.Expr
import Polyglot.Proofs.Brackets.Layout
import Polyglot.Proofs.Stmt.Return

/-!
# Brackets in statements without a body

The lines of a regular statement without a body are well bracketed.

* `Plain.wellBracketed_toTypeScript`, `Plain.wellBracketed_toPhp` : one statement.
* `Plain.wellBracketed_toTypeScriptAll`, `Plain.wellBracketed_toPhpAll` : several statements.
-/

set_option autoImplicit false

namespace Polyglot

open Outcome Brackets

/-- Every class that can be raised is a name. -/
theorem Raise.IsRegular.isInert_classFor {r : Raise} (hreg : r.IsRegular) (t : Target) :
    isInert (r.classFor t) = true := by
  have hdefault : isInert t.exceptionClass = true := by
    cases t <;> decide
  unfold Raise.classFor
  cases hown : r.classes.get t with
  | some name => exact hreg.classes t name hown
  | none =>
      cases hany : r.anyClass with
      | some name => exact hreg.anyClass name hany
      | none => exact hdefault

theorem DictBuilder.IsRegular.ty {b : DictBuilder} (hreg : b.IsRegular) : b.ty.IsRegular :=
  ⟨trivial, hreg.valueType⟩

/-! ## TypeScript -/

/-- An expression that may be absent, behind a separator that is well bracketed. -/
theorem Expr.wellBracketed_typeScriptSuffix {separator : String}
    (hs : WellBracketed .typescript separator) {value : Option Expr}
    (hreg : ∀ e ∈ value, e.IsRegular) {text : String}
    (h : Expr.typeScriptSuffix separator value = .ok text) : WellBracketed .typescript text := by
  cases value with
  | none =>
      cases h
      exact .empty
  | some e =>
      obtain ⟨v, hv, h⟩ := bind_eq_ok.1 h
      cases pure_eq_ok.1 h
      exact Shifts.wrap hs (wellBracketed_typeScriptText (hreg e rfl) hv)

/-- A type that may be absent, behind a separator that is well bracketed. -/
theorem Ty.wellBracketed_typeScriptSuffix {separator : String}
    (hs : WellBracketed .typescript separator) {ty : Option Ty} (hreg : ∀ x ∈ ty, x.IsRegular)
    {text : String} (h : Ty.typeScriptSuffix separator ty = .ok text) :
    WellBracketed .typescript text := by
  cases ty with
  | none =>
      cases h
      exact .empty
  | some x =>
      obtain ⟨v, hv, h⟩ := bind_eq_ok.1 h
      cases pure_eq_ok.1 h
      exact Shifts.wrap hs (wellBracketed_typeScriptText (hreg x rfl) hv)

theorem Report.wellBracketed_toTypeScript {r : Report} (hreg : ∀ e, r = .value e → e.IsRegular)
    {text : String} (h : r.toTypeScript = .ok text) : WellBracketed .typescript text := by
  cases r with
  | text s =>
      cases h
      exact Text.Quoted.wellBracketed_encode (by decide) s
  | value e => exact Expr.wellBracketed_typeScriptText (hreg e rfl) h

theorem Assignment.wellBracketed_toTypeScript {a : Assignment} (hreg : a.IsRegular)
    {ls : List Layout} (h : a.toTypeScript = .ok ls) : Layout.WellBracketed .typescript ls := by
  cases a with
  | assign target value =>
      obtain ⟨tt, ht, h⟩ := bind_eq_ok.1 h
      obtain ⟨v, hv, h⟩ := bind_eq_ok.1 h
      cases pure_eq_ok.1 h
      have htarget := Expr.wellBracketed_typeScriptText hreg.1 ht
      have hvalue := Expr.wellBracketed_typeScriptText hreg.2 hv
      exact .single (htarget.add rfl |>.wrap hvalue |>.add rfl)
  | declare name ty value =>
      obtain ⟨typed, ha, h⟩ := bind_eq_ok.1 h
      obtain ⟨v, hv, h⟩ := bind_eq_ok.1 h
      cases pure_eq_ok.1 h
      have hty := Ty.wellBracketed_typeScriptSuffix (.lit rfl) hreg.2.1 ha
      have hvalue := Expr.wellBracketed_typeScriptSuffix (.lit rfl) hreg.2.2 hv
      exact .single (Shifts.lit rfl |>.wrap (.of_isInert hreg.1) |>.wrap hty |>.wrap hvalue
        |>.add rfl)

theorem BuilderEntry.wellBracketed_typeScriptPair {e : BuilderEntry} (hreg : e.value.IsRegular)
    {text : String} (h : e.typeScriptPair = .ok text) : WellBracketed .typescript text := by
  obtain ⟨v, hv, h⟩ := bind_eq_ok.1 h
  cases pure_eq_ok.1 h
  have hkey := Text.Quoted.wellBracketed_encode (t := .typescript) (by decide) e.key
  exact hkey.add rfl |>.wrap (Expr.wellBracketed_typeScriptText hreg hv)

theorem BuilderEntry.wellBracketed_typeScriptGuard {name : String} (hname : isInert name = true)
    {e : BuilderEntry} (hreg : e.value.IsRegular) {ls : List Layout}
    (h : e.typeScriptGuard name = .ok ls) : Layout.WellBracketed .typescript ls := by
  obtain ⟨test, ht, h⟩ := bind_eq_ok.1 h
  obtain ⟨v, hv, h⟩ := bind_eq_ok.1 h
  cases pure_eq_ok.1 h
  have htest := Expr.wellBracketed_typeScriptText (e := .supplied e.value) hreg ht
  have hvalue := Expr.wellBracketed_typeScriptText hreg hv
  have hkey := Text.Quoted.wellBracketed_encode (t := .typescript) (by decide) e.key
  have hset : WellBracketed .typescript
      (name ++ "[" ++ Text.Quoted.encode e.key ++ "] = " ++ v ++ ";") :=
    (WellBracketed.of_isInert hname).add rfl |>.wrap hkey |>.add rfl |>.wrap hvalue |>.add rfl
  exact .line (Shifts.lit rfl |>.wrap htest |>.add rfl)
    (.nest ((Layout.WellBracketed.single hset).shifts _) (.line (.lit rfl) .nil))

theorem DictBuilder.wellBracketed_toTypeScript {b : DictBuilder} (hreg : b.IsRegular)
    {ls : List Layout} (h : b.toTypeScript = .ok ls) : Layout.WellBracketed .typescript ls := by
  obtain ⟨pairs, hpairs, h⟩ := bind_eq_ok.1 h
  obtain ⟨ty, hty, h⟩ := bind_eq_ok.1 h
  obtain ⟨guards, hguards, h⟩ := bind_eq_ok.1 h
  cases pure_eq_ok.1 h
  have hp : ∀ p ∈ pairs, WellBracketed .typescript p :=
    forall_mem_of_mapM_eq_ok hpairs fun e he p hp =>
      e.wellBracketed_typeScriptPair (hreg.values e (List.mem_of_mem_filter he)) hp
  have hg : ∀ g ∈ guards, Layout.WellBracketed .typescript g :=
    forall_mem_of_mapM_eq_ok hguards fun e he g hg =>
      e.wellBracketed_typeScriptGuard hreg.name (hreg.values e (List.mem_of_mem_filter he)) hg
  have hguarded := Layout.WellBracketed.flatten hg
  have htype := Ty.wellBracketed_typeScriptText hreg.ty hty
  exact .line (Shifts.lit rfl |>.wrap (.of_isInert hreg.name) |>.add rfl |>.wrap htype |>.add rfl
    |>.wrap (.intercalate (.lit rfl) hp) |>.add rfl) hguarded

theorem Interface.wellBracketed_toTypeScript {i : Interface} (hreg : i.IsRegular)
    {ls : List Layout} (h : i.toTypeScript = .ok ls) : Layout.WellBracketed .typescript ls := by
  obtain ⟨properties, hp, h⟩ := bind_eq_ok.1 h
  cases pure_eq_ok.1 h
  have hlines : ∀ l ∈ properties, Layout.WellBracketed .typescript [l] := by
    refine forall_mem_of_mapM_eq_ok hp fun p hmem l hl => ?_
    obtain ⟨ty, hty, hl⟩ := bind_eq_ok.1 hl
    cases pure_eq_ok.1 hl
    have htype := Ty.wellBracketed_typeScriptText (hreg.types p hmem) hty
    exact .single ((WellBracketed.of_isInert (hreg.names p hmem)).add rfl |>.wrap htype |>.add rfl)
  have hexport : WellBracketed .typescript (if i.isExported then "export " else "") := by
    split <;> exact .lit rfl
  have hname := WellBracketed.of_isInert (t := .typescript) hreg.name
  exact .line (hexport.add rfl |>.wrap hname |>.add rfl)
    (.nest ((Layout.WellBracketed.of_forall hlines).shifts _) (.line (.lit rfl) .nil))

/-- The lines of a regular statement without a body are well bracketed in TypeScript. -/
theorem Plain.wellBracketed_toTypeScript {p : Plain} (hreg : p.IsRegular) {ls : List Layout}
    (h : p.toTypeScript = .ok ls) : Layout.WellBracketed .typescript ls := by
  cases p with
  | blank =>
      cases h
      exact .blank
  | comment _ | snippet _ => exact hreg.elim
  | expr e =>
      obtain ⟨v, hv, h⟩ := bind_eq_ok.1 h
      cases pure_eq_ok.1 h
      exact .single ((Expr.wellBracketed_typeScriptText hreg hv).add rfl)
  | raise r =>
      obtain ⟨m, hm, h⟩ := bind_eq_ok.1 h
      cases pure_eq_ok.1 h
      have hclass := WellBracketed.of_isInert (t := .typescript) (hreg.isInert_classFor .typescript)
      have hreport := r.report.wellBracketed_toTypeScript hreg.value hm
      exact .single (Shifts.lit rfl |>.wrap hclass |>.add rfl |>.wrap hreport |>.add rfl)
  | ret value =>
      by_cases homit : value.isOmit = true
      · cases Expr.eq_omit_of_isOmit homit
        cases h
        exact .single (.lit rfl)
      · rw [toTypeScript_ret (by simpa using homit)] at h
        obtain ⟨v, hv, h⟩ := bind_eq_ok.1 h
        cases pure_eq_ok.1 h
        exact .single (Shifts.lit rfl |>.wrap (Expr.wellBracketed_typeScriptText hreg hv)
          |>.add rfl)
  | assign a => exact a.wellBracketed_toTypeScript hreg h
  | append list value =>
      obtain ⟨l, hl, h⟩ := bind_eq_ok.1 h
      obtain ⟨v, hv, h⟩ := bind_eq_ok.1 h
      cases pure_eq_ok.1 h
      have hlist := Code.wellBracketed_base (hreg.1.wellBracketed_toTypeScript hl)
      have hvalue := Expr.wellBracketed_typeScriptText hreg.2 hv
      exact .single (hlist.add rfl |>.wrap hvalue |>.add rfl)
  | build b => exact b.wellBracketed_toTypeScript hreg h
  | interface i => exact i.wellBracketed_toTypeScript hreg h

/-- Lines of statements that are well bracketed each. -/
theorem Plain.wellBracketed_toTypeScriptAll {ps : List Plain}
    (hps : ∀ p ∈ ps, ∀ ls, p.toTypeScript = .ok ls → Layout.WellBracketed .typescript ls)
    {ls : List Layout} (h : Plain.toTypeScriptAll ps = .ok ls) :
    Layout.WellBracketed .typescript ls := by
  obtain ⟨lss, hlss, h⟩ := bind_eq_ok.1 h
  cases pure_eq_ok.1 h
  exact .flatten (forall_mem_of_mapM_eq_ok hlss hps)

/-! ## PHP -/

/-- An expression that may be absent, behind a separator that is well bracketed. -/
theorem Expr.wellBracketed_phpSuffix {separator : String} (hs : WellBracketed .php separator)
    {value : Option Expr} (hreg : ∀ e ∈ value, e.IsRegular) {text : String}
    (h : Expr.phpSuffix separator value = .ok text) : WellBracketed .php text := by
  cases value with
  | none =>
      cases h
      exact .empty
  | some e =>
      obtain ⟨v, hv, h⟩ := bind_eq_ok.1 h
      cases pure_eq_ok.1 h
      exact Shifts.wrap hs (wellBracketed_phpText (hreg e rfl) hv)

theorem Report.wellBracketed_toPhp {r : Report} (hreg : ∀ e, r = .value e → e.IsRegular)
    {text : String} (h : r.toPhp = .ok text) : WellBracketed .php text := by
  cases r with
  | text s =>
      cases h
      exact Text.SingleQuoted.wellBracketed_encode s
  | value e => exact Expr.wellBracketed_phpText (hreg e rfl) h

/-- The setting of a variable by name. -/
theorem wellBracketed_phpSet {name v : String} (hname : isInert name = true)
    (hv : WellBracketed .php v) : WellBracketed .php ("$" ++ name ++ " = " ++ v ++ ";") :=
  Shifts.lit rfl |>.wrap (.of_isInert hname) |>.add rfl |>.wrap hv |>.add rfl

theorem Assignment.wellBracketed_toPhp {a : Assignment} (hreg : a.IsRegular) {ls : List Layout}
    (h : a.toPhp = .ok ls) : Layout.WellBracketed .php ls := by
  cases a with
  | assign target value =>
      obtain ⟨tt, ht, h⟩ := bind_eq_ok.1 h
      obtain ⟨v, hv, h⟩ := bind_eq_ok.1 h
      cases pure_eq_ok.1 h
      have htarget := Expr.wellBracketed_phpText hreg.1 ht
      have hvalue := Expr.wellBracketed_phpText hreg.2 hv
      exact .single (htarget.add rfl |>.wrap hvalue |>.add rfl)
  | declare name ty value =>
      cases value with
      | none => cases ty <;> cases h
      | some value =>
          cases ty with
          | none =>
              obtain ⟨v, hv, h⟩ := bind_eq_ok.1 h
              cases pure_eq_ok.1 h
              exact .single (wellBracketed_phpSet hreg.1
                (Expr.wellBracketed_phpText (hreg.2.2 value rfl) hv))
          | some ty =>
              obtain ⟨comment, hc, h⟩ := bind_eq_ok.1 h
              obtain ⟨v, hv, h⟩ := bind_eq_ok.1 h
              cases pure_eq_ok.1 h
              have hcomment := Ty.wellBracketed_phpVarComment (hreg.2.1 ty rfl) hc
              exact .line hcomment (.line (wellBracketed_phpSet hreg.1
                (Expr.wellBracketed_phpText (hreg.2.2 value rfl) hv)) .nil)

theorem BuilderEntry.wellBracketed_phpPair {e : BuilderEntry} (hreg : e.value.IsRegular)
    {text : String} (h : e.phpPair = .ok text) : WellBracketed .php text := by
  obtain ⟨v, hv, h⟩ := bind_eq_ok.1 h
  cases pure_eq_ok.1 h
  have hkey := Text.SingleQuoted.wellBracketed_encode (t := .php) e.key
  exact hkey.add rfl |>.wrap (Expr.wellBracketed_phpText hreg hv)

theorem DictBuilder.wellBracketed_toPhp {b : DictBuilder} (hreg : b.IsRegular) {ls : List Layout}
    (h : b.toPhp = .ok ls) : Layout.WellBracketed .php ls := by
  rw [toPhp] at h
  split at h
  · cases h
  obtain ⟨comment, hc, h⟩ := bind_eq_ok.1 h
  obtain ⟨pairs, hpairs, h⟩ := bind_eq_ok.1 h
  cases pure_eq_ok.1 h
  have hp : ∀ p ∈ pairs, WellBracketed .php p :=
    forall_mem_of_mapM_eq_ok hpairs fun e he p hp => e.wellBracketed_phpPair (hreg.values e he) hp
  have hcomment := Ty.wellBracketed_phpVarComment hreg.ty hc
  exact .line hcomment (.line (Shifts.lit rfl |>.wrap (.of_isInert hreg.name) |>.add rfl
    |>.wrap (.intercalate (.lit rfl) hp) |>.add rfl) .nil)

theorem Interface.wellBracketed_toPhp {i : Interface} (hreg : i.IsRegular) {ls : List Layout}
    (h : i.toPhp = .ok ls) : Layout.WellBracketed .php ls := by
  unfold Interface.toPhp at h
  split at h
  · cases h
    exact .line (Shifts.lit rfl |>.wrap (.of_isInert hreg.name) |>.add rfl) (.line (.lit rfl) .nil)
  · cases h

/-- The lines of a regular statement without a body are well bracketed in PHP. -/
theorem Plain.wellBracketed_toPhp {p : Plain} (hreg : p.IsRegular) {ls : List Layout}
    (h : p.toPhp = .ok ls) : Layout.WellBracketed .php ls := by
  cases p with
  | blank =>
      cases h
      exact .blank
  | comment _ | snippet _ => exact hreg.elim
  | expr e =>
      obtain ⟨v, hv, h⟩ := bind_eq_ok.1 h
      cases pure_eq_ok.1 h
      exact .single ((Expr.wellBracketed_phpText hreg hv).add rfl)
  | raise r =>
      obtain ⟨m, hm, h⟩ := bind_eq_ok.1 h
      cases pure_eq_ok.1 h
      have hclass := WellBracketed.of_isInert (t := .php) (hreg.isInert_classFor .php)
      have hreport := r.report.wellBracketed_toPhp hreg.value hm
      exact .single (Shifts.lit rfl |>.wrap hclass |>.add rfl |>.wrap hreport |>.add rfl)
  | ret value =>
      by_cases homit : value.isOmit = true
      · cases Expr.eq_omit_of_isOmit homit
        cases h
        exact .single (.lit rfl)
      · rw [toPhp_ret (by simpa using homit)] at h
        obtain ⟨v, hv, h⟩ := bind_eq_ok.1 h
        cases pure_eq_ok.1 h
        exact .single (Shifts.lit rfl |>.wrap (Expr.wellBracketed_phpText hreg hv) |>.add rfl)
  | assign a => exact a.wellBracketed_toPhp hreg h
  | append list value =>
      obtain ⟨l, hl, h⟩ := bind_eq_ok.1 h
      obtain ⟨v, hv, h⟩ := bind_eq_ok.1 h
      cases pure_eq_ok.1 h
      have hlist := Code.wellBracketed_base (hreg.1.wellBracketed_toPhp hl)
      have hvalue := Expr.wellBracketed_phpText hreg.2 hv
      exact .single (hlist.add rfl |>.wrap hvalue |>.add rfl)
  | build b => exact b.wellBracketed_toPhp hreg h
  | interface i => exact i.wellBracketed_toPhp hreg h

/-- Lines of statements that are well bracketed each. -/
theorem Plain.wellBracketed_toPhpAll {ps : List Plain}
    (hps : ∀ p ∈ ps, ∀ ls, p.toPhp = .ok ls → Layout.WellBracketed .php ls)
    {ls : List Layout} (h : Plain.toPhpAll ps = .ok ls) : Layout.WellBracketed .php ls := by
  obtain ⟨lss, hlss, h⟩ := bind_eq_ok.1 h
  cases pure_eq_ok.1 h
  exact .flatten (forall_mem_of_mapM_eq_ok hlss hps)

end Polyglot
