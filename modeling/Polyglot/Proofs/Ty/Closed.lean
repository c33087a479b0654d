import Polyglot.Proofs.Brackets.Operand
import Polyglot.Proofs.Ty.Expressible

/-!
# Closed types

A TypeScript type comes with a flag that says whether it is closed. Lists and branded types are
written with a suffix right behind a closed type: every space, bar and arrow in it is inside of some
bracket or string literal, so the suffix takes hold of the whole type. Around an open type they
write brackets.

* `Ty.passes_toTypeScript` : inside of a bracket nothing divides the text of a type, and outside
  nothing divides the text of a closed type.
* `Ty.operand_typeScriptAlias` : what the brand is put on.
* `Ty.isUndivided_of_closed` : **closed types are written without divisions**, and what is written
  behind them takes hold of all of them.
-/

set_option autoImplicit false

namespace Polyglot

open Outcome TypeText

theorem Literal.passes_toTypeScript (fs : List Bracket) (v : Literal) :
    Passes fs fs v.toTypeScript := by
  cases v with
  | bool b => cases b <;> exact .lit rfl
  | int n => exact .of_isPlain (isPlain_int n)
  | str s => exact .quoted fs s

namespace Ty

theorem isPlain_of_mem_parameterNames : ∀ name ∈ parameterNames, isPlain name = true := by decide

/-- Constants with bars between them, inside of some bracket or just one of them. -/
theorem passes_literal {vs : List Literal} {fs : List Bracket} (h : fs ≠ [] ∨ vs.length = 1) :
    Passes fs fs (" | ".intercalate (vs.map Literal.toTypeScript)) := by
  rcases h with h | h
  · obtain ⟨f, below, rfl⟩ := List.exists_cons_of_ne_nil h
    refine .intercalate (.lit rfl) fun s hs => ?_
    obtain ⟨v, -, rfl⟩ := List.mem_map.1 hs
    exact v.passes_toTypeScript _
  · obtain ⟨v, rfl⟩ := List.length_eq_one_iff.1 h
    exact v.passes_toTypeScript fs

mutual

/-- Nothing divides the text of a type that is written inside of some bracket, or that is closed. -/
theorem passes_toTypeScript : ∀ ty : Ty, ty.IsSpelled isPlain → ∀ {r : TypeScriptTy},
    ty.toTypeScript = .ok r → ∀ {fs : List Bracket}, fs ≠ [] ∨ r.closed = true →
      Passes fs fs r.text
  | .any, _, r, h, fs, _ | .str, _, r, h, fs, _ | .num, _, r, h, fs, _ | .bool, _, r, h, fs, _
  | .null, _, r, h, fs, _ | .omit, _, r, h, fs, _ => by
      cases h
      exact .lit rfl
  | .literal values, _, r, h, fs, hfs => by
      cases h
      exact passes_literal (hfs.imp_right fun hclosed => eq_of_beq hclosed)
  | .optional inner, hty, r, h, fs, hfs => by
      obtain ⟨i, hi, h⟩ := bind_eq_ok.1 h
      cases pure_eq_ok.1 h
      have hdeep := hfs.resolve_right nofun
      obtain ⟨f, below, rfl⟩ := List.exists_cons_of_ne_nil hdeep
      exact (passes_toTypeScript inner hty hi (.inl hdeep)).add rfl
  | .list inner, hty, r, h, fs, _ => by
      obtain ⟨i, hi, h⟩ := bind_eq_ok.1 h
      cases pure_eq_ok.1 h
      show Passes fs fs (if _ then _ else _)
      split
      · rename_i hclosed
        exact (passes_toTypeScript inner hty hi (.inr hclosed)).add rfl
      · have hinner := passes_toTypeScript inner hty hi (.inl (List.cons_ne_nil .angle fs))
        exact Passes.lit rfl |>.append hinner |>.add rfl
  | .set inner, hty, r, h, fs, _ => by
      obtain ⟨i, hi, h⟩ := bind_eq_ok.1 h
      cases pure_eq_ok.1 h
      have hinner := passes_toTypeScript inner hty hi (.inl (List.cons_ne_nil .angle fs))
      exact Passes.lit rfl |>.append hinner |>.add rfl
  | .dict key value, hty, r, h, fs, _ => by
      obtain ⟨k, hk, h⟩ := bind_eq_ok.1 h
      obtain ⟨v, hv, h⟩ := bind_eq_ok.1 h
      cases pure_eq_ok.1 h
      have hkey := passes_toTypeScript key hty.1 hk (.inl (List.cons_ne_nil .square (.curly :: fs)))
      have hvalue := passes_toTypeScript value hty.2 hv (.inl (List.cons_ne_nil .curly fs))
      exact Passes.lit rfl |>.append hkey |>.add rfl |>.append hvalue |>.add rfl
  | .map key value, hty, r, h, fs, _ => by
      obtain ⟨k, hk, h⟩ := bind_eq_ok.1 h
      obtain ⟨v, hv, h⟩ := bind_eq_ok.1 h
      cases pure_eq_ok.1 h
      have hkey := passes_toTypeScript key hty.1 hk (.inl (List.cons_ne_nil .angle fs))
      have hvalue := passes_toTypeScript value hty.2 hv (.inl (List.cons_ne_nil .angle fs))
      exact Passes.lit rfl |>.append hkey |>.add rfl |>.append hvalue |>.add rfl
  | .union [], _, _, h, _, _ => nomatch h
  | .union (ty :: tys), hty, r, h, fs, hfs => by
      obtain ⟨ms, hms, h⟩ := bind_eq_ok.1 h
      cases pure_eq_ok.1 h
      have hdeep := hfs.resolve_right nofun
      obtain ⟨f, below, rfl⟩ := List.exists_cons_of_ne_nil hdeep
      refine .intercalate (.lit rfl) fun s hs => ?_
      obtain ⟨m, hm, rfl⟩ := List.mem_map.1 hs
      exact passes_toTypeScriptAll (ty :: tys) hty hms hdeep m hm
  | .callable params result, hty, r, h, fs, hfs => by
      rw [toTypeScript] at h
      split at h
      · cases h
      obtain ⟨ps, hps, h⟩ := bind_eq_ok.1 h
      obtain ⟨res, hres, h⟩ := bind_eq_ok.1 h
      cases pure_eq_ok.1 h
      have hdeep := hfs.resolve_right nofun
      obtain ⟨f, below, rfl⟩ := List.exists_cons_of_ne_nil hdeep
      have hparams : ∀ s ∈ parameterNames.zipWith (fun name p => name ++ ": " ++ p.text) ps,
          Passes (.round :: f :: below) (.round :: f :: below) s := by
        intro s hs
        obtain ⟨name, hname, p, hp, rfl⟩ := exists_of_mem_zipWith hs
        have hfirst : Passes (.round :: f :: below) (.round :: f :: below) name :=
          .of_isPlain (isPlain_of_mem_parameterNames name hname)
        exact (hfirst.add rfl).append
          (passes_toTypeScriptAll params hty.1 hps (List.cons_ne_nil _ _) p hp)
      have hresult := passes_toTypeScript result hty.2 hres (.inl hdeep)
      exact Passes.lit rfl |>.append (.intercalate (.lit rfl) hparams) |>.add rfl |>.append hresult
  | .alias name _, hty, r, h, fs, _ => by
      cases h
      exact .of_isPlain hty
  | .custom _, hty, _, _, _, _ | .python _ _, hty, _, _, _, _ | .typescript _, hty, _, _, _, _ =>
      hty.elim

theorem passes_toTypeScriptAll : ∀ tys : List Ty, AllSpelled isPlain tys →
    ∀ {rs : List TypeScriptTy}, toTypeScriptAll tys = .ok rs → ∀ {fs : List Bracket}, fs ≠ [] →
      ∀ r ∈ rs, Passes fs fs r.text
  | [], _, rs, h, _, _ => by
      cases h
      exact fun r hr => nomatch hr
  | ty :: tys, hty, rs, h, fs, hfs => by
      obtain ⟨r, hr, h⟩ := bind_eq_ok.1 h
      obtain ⟨rest, hrest, h⟩ := bind_eq_ok.1 h
      cases pure_eq_ok.1 h
      exact List.forall_mem_cons.2 ⟨passes_toTypeScript ty hty.1 hr (.inl hfs),
        passes_toTypeScriptAll tys hty.2 hrest hfs⟩

end

/-! ## What is written behind a type -/

/-- An open type in parentheses is undivided. -/
theorem passes_parenthesized {ty : Ty} (hty : ty.IsSpelled isPlain) {r : TypeScriptTy}
    (h : ty.toTypeScript = .ok r) : Passes [] [] (Code.parenthesized r.text) := by
  have hinner := passes_toTypeScript ty hty h (.inl (List.cons_ne_nil .round []))
  exact Passes.lit rfl |>.append hinner |>.add rfl

/-- The beginning of the declaration of a named type. -/
theorem endsDivided_typeScriptAlias {name : String} (hname : isPlain name = true)
    (isExported : Bool) :
    EndsDivided ((if isExported then "export " else "") ++ "type " ++ name ++ " = ") := by
  have hfront : EndsDivided ((if isExported then "export " else "") ++ "type ") := by
    cases isExported <;> exact fun _ => rfl
  exact hfront.append (.of_isPlain hname) fun _ => rfl

/-- The brand is put on all of the base of a named type, which is parenthesized if it is open. -/
theorem operand_typeScriptAlias {ty : Ty} (hty : ty.IsSpelled isPlain) {r : TypeScriptTy}
    (h : ty.toTypeScript = .ok r) {name : String} (hname : isPlain name = true)
    (isExported : Bool) :
    ∃ front base, Script.typeScriptAlias ⟨name, ty, isExported⟩ =
        .ok (.line (front ++ base ++ " & \x7breadonly brand: unique symbol\x7d;")) ∧
      base = (if r.closed then r.text else Code.parenthesized r.text) ∧
      operand? (front ++ base) = some base := by
  refine ⟨(if isExported then "export " else "") ++ "type " ++ name ++ " = ", _, ?_, rfl, ?_⟩
  · rw [Script.typeScriptAlias, h]
    rfl
  · refine operand?_append (.inr (endsDivided_typeScriptAlias hname isExported)) ?_
    cases hclosed : r.closed with
    | true => exact passes_toTypeScript ty hty h (.inr hclosed)
    | false => exact passes_parenthesized hty h

/-- A type that TypeScript writes holds no type that only Python has. -/
theorem isSpelled_of_toTypeScript {ty : Ty} {ok : String → Bool} {r : TypeScriptTy}
    (hnodes : ∀ node : Ty, node.WrittenIn .typescript ty →
      node.SpellsName ok ∨ ∃ text quoted, node = .python text quoted)
    (h : ty.toTypeScript = .ok r) : ty.IsSpelled ok := by
  refine (isSpelled_iff_written (t := .typescript) Target.noConfusion).2 fun node hnode => ?_
  refine (hnodes node hnode).resolve_right ?_
  rintro ⟨text, quoted, rfl⟩
  exact (renders_iff_written ty .typescript).1 ⟨r, h⟩ _ hnode Target.noConfusion

/-- **Closed types are undivided.** Of all types in which the caller spells nothing for TypeScript
but the names of named types: the text of a closed one has no space, no bar and no arrow outside of
all brackets and string literals, and all of these are closed in it. So an array suffix behind it
takes hold of all of it, as does the brand of a named type; a type that is open is written in
brackets by both. -/
theorem isUndivided_of_closed {ty : Ty} {r : TypeScriptTy}
    (hnodes : ∀ node : Ty, node.WrittenIn .typescript ty →
      node.SpellsName isPlain ∨ ∃ text quoted, node = .python text quoted)
    (h : ty.toTypeScript = .ok r) :
    (r.closed = true → IsUndivided r.text ∧ operand? r.text = some r.text) ∧
    (Ty.list ty).toTypeScript =
      .ok ⟨if r.closed then r.text ++ "[]" else "Array<" ++ r.text ++ ">", false⟩ ∧
    ∀ (name : String) (isExported : Bool), isPlain name = true →
      ∃ front base, Script.typeScriptAlias ⟨name, ty, isExported⟩ =
          .ok (.line (front ++ base ++ " & \x7breadonly brand: unique symbol\x7d;")) ∧
        base = (if r.closed then r.text else Code.parenthesized r.text) ∧
        operand? (front ++ base) = some base := by
  have hty : ty.IsSpelled isPlain := isSpelled_of_toTypeScript hnodes h
  refine ⟨fun hclosed => ?_, ?_, fun name isExported hname =>
    operand_typeScriptAlias hty h hname isExported⟩
  · have hpasses : Passes [] [] r.text := passes_toTypeScript ty hty h (.inr hclosed)
    have hoperand := operand?_append (.inl rfl) hpasses
    rw [String.empty_append] at hoperand
    exact ⟨hpasses.isUndivided, hoperand⟩
  · rw [toTypeScript, h]
    rfl

/-- A dict of functions that may give null, with a bar in its keys, is closed; the function type is
not. -/
theorem isUndivided_dict :
    let function : Ty := .callable [.alias "Id" .any] (.optional .num)
    let dict : Ty := .dict (.literal (.ofList [.str "a | b => ']"])) function
    let text := "\x7b[k: \"a | b => ']\"]: (a: Id) => number | null\x7d"
    dict.toTypeScript = .ok ⟨text, true⟩ ∧
      IsUndivided text ∧ operand? text = some text ∧
      (Ty.list dict).toTypeScript = .ok ⟨text ++ "[]", false⟩ ∧
      (Ty.list function).toTypeScript = .ok ⟨"Array<(a: Id) => number | null>", false⟩ ∧
      ∃ front base, Script.typeScriptAlias ⟨"Ids", function, true⟩ =
          .ok (.line (front ++ base ++ " & \x7breadonly brand: unique symbol\x7d;")) ∧
        base = "((a: Id) => number | null)" ∧ operand? (front ++ base) = some base := by
  intro function dict text
  have hname : isPlain "Id" = true := isPlain_of_isIdentifier (by decide)
  have hfunction : function.IsSpelled isPlain := ⟨⟨hname, trivial⟩, trivial⟩
  have hdict : dict.IsSpelled isPlain := ⟨trivial, hfunction⟩
  have htext : dict.toTypeScript = .ok ⟨text, true⟩ := rfl
  have hopen : function.toTypeScript = .ok ⟨"(a: Id) => number | null", false⟩ := rfl
  have hnames {ty : Ty} (hty : ty.IsSpelled isPlain) : ∀ node : Ty,
      node.WrittenIn .typescript ty →
        node.SpellsName isPlain ∨ ∃ text quoted, node = .python text quoted :=
    fun node hnode => .inl ((isSpelled_iff_written Target.noConfusion).1 hty node hnode)
  obtain ⟨hundivided, hlist, -⟩ := isUndivided_of_closed (hnames hdict) htext
  obtain ⟨-, hlists, halias⟩ := isUndivided_of_closed (hnames hfunction) hopen
  obtain ⟨hwhole, hoperand⟩ := hundivided rfl
  exact ⟨htext, hwhole, hoperand, hlist, hlists, halias "Ids" true (by decide)⟩

end Ty

end Polyglot
