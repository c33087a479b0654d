import Polyglot.Proofs.Brackets.Ty
import Polyglot.Proofs.Name

/-!
# Unions and function types

A union is written with a bar between its members, and what may be null as a union with it. The
result of a function type reaches as far to the right as there is more of a type. So a function type
that a union begins with takes the other members into its result.

* `Ty.leading`, `Ty.trailing` : the member that a type is written with first, and the others.
* `Ty.text_eq_callable_iff` : **which unions have the text of a function type.**
-/

set_option autoImplicit false

namespace Polyglot

open Outcome Brackets

/-! ## Texts in parentheses -/

/-- Behind a well-bracketed text, there is nothing for a parenthesis to close. -/
theorem Brackets.run_eq_none_of_paren {t : Target} {cs ds : List Char}
    (h : run t ⟨.code, []⟩ cs = some ⟨.code, []⟩) : run t ⟨.code, []⟩ (cs ++ ')' :: ds) = none := by
  rw [run_append, h]
  rfl

/-- A well-bracketed text ends in front of the parenthesis that closes what is open around it. -/
theorem WellBracketed.append_paren_inj {t : Target} {a b x y : String} (ha : WellBracketed t a)
    (hb : WellBracketed t b) (h : a ++ ")" ++ x = b ++ ")" ++ y) : a = b ∧ x = y := by
  rw [WellBracketed, Shifts] at ha hb
  have hlists : a.toList ++ ')' :: x.toList = b.toList ++ ')' :: y.toList := by
    simpa using congrArg String.toList h
  have hsame : a.toList = b.toList := by
    rcases List.append_eq_append_iff.1 hlists with ⟨cs, hlonger, hx⟩ | ⟨cs, hlonger, hx⟩
    · cases cs with
      | nil => simpa using hlonger.symm
      | cons c cs =>
          obtain ⟨rfl, -⟩ := List.cons.inj hx
          rw [hlonger, run_eq_none_of_paren ha] at hb
          cases hb
    · cases cs with
      | nil => simpa using hlonger
      | cons c cs =>
          obtain ⟨rfl, -⟩ := List.cons.inj hx
          rw [hlonger, run_eq_none_of_paren hb] at ha
          cases ha
  rw [hsame] at hlists
  have hrest := (List.cons.inj (List.append_cancel_left hlists)).2
  exact ⟨String.toList_inj.1 hsame, String.toList_inj.1 hrest⟩

namespace Ty

/-! ## Members of unions -/

/-- The member that a type is written with first, which is no union itself. -/
def leading : Ty → Ty
  | .optional inner => inner.leading
  | .union (member :: _) => member.leading
  | ty => ty

/-- The members that are written behind the first one. -/
def trailing : Ty → List Ty
  | .optional inner => inner.trailing ++ [.null]
  | .union (member :: members) => member.trailing ++ members
  | _ => []

theorem trailing_eq_nil {ty : Ty} (hoptional : ∀ inner, ty ≠ .optional inner)
    (hunion : ∀ member members, ty ≠ .union (member :: members)) : ty.trailing = [] := by
  unfold trailing
  split
  · exact absurd rfl (hoptional _)
  · exact absurd rfl (hunion _ _)
  · rfl

/-- Whether the type is a union of at least two members, or may be null. -/
def IsJoined : Ty → Prop
  | .optional _ | .union (_ :: _ :: _) => True
  | _ => False

theorem IsJoined.trailing_ne_nil {ty : Ty} (h : ty.IsJoined) : ty.trailing ≠ [] := by
  unfold IsJoined at h
  split at h
  · rw [trailing]
    simp
  · rw [trailing]
    simp
  · exact h.elim

/-- The texts of members behind the first one, each with its bar. -/
def bars (texts : List String) : String := String.join (texts.map (" | " ++ ·))

theorem bars_append (ss ss' : List String) : bars (ss ++ ss') = bars ss ++ bars ss' := by
  rw [bars, List.map_append, String.join_append]
  rfl

theorem bars_cons (s : String) (ss : List String) : bars (s :: ss) = " | " ++ s ++ bars ss := by
  rw [bars, List.map_cons, String.join_cons]
  rfl

theorem intercalate_eq_bars (s : String) (ss : List String) :
    " | ".intercalate (s :: ss) = s ++ bars ss := by
  induction ss generalizing s with
  | nil => simp [bars]
  | cons s' ss ih =>
      rw [String.intercalate_cons_of_ne_nil (by simp), ih, bars_cons]
      simp only [String.append_assoc]

theorem toTypeScriptAll_append {tys tys' : List Ty} {rs rs' : List TypeScriptTy}
    (h : toTypeScriptAll tys = .ok rs) (h' : toTypeScriptAll tys' = .ok rs') :
    toTypeScriptAll (tys ++ tys') = .ok (rs ++ rs') := by
  induction tys generalizing rs with
  | nil =>
      cases h
      exact h'
  | cons ty tys ih =>
      obtain ⟨r, hr, h⟩ := bind_eq_ok.1 h
      obtain ⟨rest, hrest, h⟩ := bind_eq_ok.1 h
      cases pure_eq_ok.1 h
      rw [List.cons_append, toTypeScriptAll, hr, ok_bind, ih hrest]
      rfl

/-- The texts of the members stand one behind the other. -/
theorem exists_leading (ty : Ty) : ∀ {r : TypeScriptTy}, ty.toTypeScript = .ok r →
    ∃ l rest, ty.leading.toTypeScript = .ok l ∧ toTypeScriptAll ty.trailing = .ok rest ∧
      r.text = l.text ++ bars (rest.map TypeScriptTy.text) := by
  fun_induction leading ty with
  | case1 inner ih =>
      intro r h
      obtain ⟨i, hi, h⟩ := bind_eq_ok.1 h
      cases pure_eq_ok.1 h
      obtain ⟨l, rest, hl, hrest, htext⟩ := ih hi
      have hnull : toTypeScriptAll [.null] = .ok [⟨"null", true⟩] := rfl
      refine ⟨l, rest ++ [⟨"null", true⟩], hl, ?_, ?_⟩
      · rw [trailing]
        exact toTypeScriptAll_append hrest hnull
      · have hbar : bars ["null"] = " | null" := rfl
        rw [htext, List.map_append, bars_append, String.append_assoc]
        exact congrArg (l.text ++ ·) (congrArg (bars (rest.map TypeScriptTy.text) ++ ·) hbar.symm)
  | case2 member members ih =>
      intro r h
      obtain ⟨ms, hms, h⟩ := bind_eq_ok.1 h
      cases pure_eq_ok.1 h
      obtain ⟨m, hm, hms⟩ := bind_eq_ok.1 hms
      obtain ⟨rest, hrest, hms⟩ := bind_eq_ok.1 hms
      cases pure_eq_ok.1 hms
      obtain ⟨l, inner, hl, hinner, htext⟩ := ih hm
      refine ⟨l, inner ++ rest, hl, ?_, ?_⟩
      · rw [trailing]
        exact toTypeScriptAll_append hinner hrest
      · rw [List.map_cons, intercalate_eq_bars, htext, List.map_append, bars_append,
          String.append_assoc]
  | case3 ty hoptional hunion =>
      intro r h
      refine ⟨r, [], h, ?_, by simp [bars]⟩
      rw [trailing_eq_nil hoptional hunion]
      rfl

/-! ## Function types -/

/-- The parameters of a function type as they are written. -/
def parameterList (params : List Ty) : Except Error String := do
  if parameterNames.length < params.length then
    throw (.invalid (.tooManyParameters parameterNames.length))
  let ps ← toTypeScriptAll params
  return ", ".intercalate (parameterNames.zipWith (fun name p => name ++ ": " ++ p.text) ps)

/-- A function type is written as its parameters and its result. -/
theorem callable_eq_ok {params : List Ty} {result : Ty} {text : String} :
    (Ty.callable params result).typeScriptText = .ok text ↔
      ∃ ps res, parameterList params = .ok ps ∧ result.typeScriptText = .ok res ∧
        text = "(" ++ ps ++ ")" ++ (" => " ++ res) := by
  unfold typeScriptText parameterList
  rw [toTypeScript]
  by_cases hmany : parameterNames.length < params.length
  · rw [if_pos hmany, if_pos hmany]
    exact ⟨nofun, fun ⟨_, _, h, _⟩ => nomatch h⟩
  · rw [if_neg hmany, if_neg hmany]
    refine ⟨fun h => ?_, fun ⟨ps, res, hps, hres, htext⟩ => ?_⟩
    · obtain ⟨f, hf, h⟩ := bind_eq_ok.1 h
      obtain ⟨ts, hts, hf⟩ := bind_eq_ok.1 hf
      obtain ⟨r, hr, hf⟩ := bind_eq_ok.1 hf
      cases pure_eq_ok.1 hf
      cases pure_eq_ok.1 h
      refine ⟨_, r.text, by rw [hts]; rfl, by rw [hr]; rfl, ?_⟩
      simp only [String.append_assoc]
      rfl
    · obtain ⟨ts, hts, hps⟩ := bind_eq_ok.1 hps
      obtain ⟨r, hr, hres⟩ := bind_eq_ok.1 hres
      cases pure_eq_ok.1 hps
      cases pure_eq_ok.1 hres
      rw [hts, hr, htext]
      simp only [ok_bind, String.append_assoc]
      rfl

theorem wellBracketed_parameterList {params : List Ty} (hparams : AllSpelled isIdentifier params)
    {ps : String} (h : parameterList params = .ok ps) : WellBracketed .typescript ps := by
  unfold parameterList at h
  split at h
  · cases h
  · obtain ⟨ts, hts, h⟩ := bind_eq_ok.1 h
    cases pure_eq_ok.1 h
    exact .intercalate (.lit rfl) (wellBracketed_zipWith wellBracketed_parameterName
      (wellBracketed_toTypeScriptAll onlySolid_isIdentifier.inert params hparams hts))

/-! ## Types that do not begin with a parenthesis -/

/-- The text does not begin with a parenthesis. -/
def NoParen (s : String) : Prop := s.toList.head? ≠ some '('

instance (s : String) : Decidable (NoParen s) :=
  inferInstanceAs (Decidable (s.toList.head? ≠ some '('))

theorem NoParen.append {a b : String} (ha : NoParen a) (hb : NoParen b) : NoParen (a ++ b) := by
  rw [NoParen, String.toList_append]
  cases h : a.toList with
  | nil => exact hb
  | cons c cs =>
      rw [NoParen, h] at ha
      exact ha

/-- The first character of a text decides. -/
theorem NoParen.of_head {s : String} {c : Char} {cs : List Char} (hs : s.toList = c :: cs)
    (hc : c ≠ '(') : NoParen s := by
  rw [NoParen, hs]
  simpa using hc

/-- A text that begins with another one. -/
theorem NoParen.append_left {a : String} (ha : NoParen a) (hne : a ≠ "") (b : String) :
    NoParen (a ++ b) := by
  rw [NoParen, String.toList_append, List.head?_append_of_ne_nil _ (by simpa using hne)]
  exact ha

theorem noParen_of_isIdentifier {name : String} (h : isIdentifier name = true) : NoParen name := by
  obtain ⟨c, cs, hname, hc⟩ := exists_letter_of_isIdentifier h
  refine .of_head hname ?_
  rintro rfl
  exact absurd hc (by decide)

theorem noParen_bars (ss : List String) : NoParen (bars ss) := by
  cases ss with
  | nil => decide
  | cons s ss =>
      rw [bars_cons, String.append_assoc]
      exact NoParen.append_left (by decide) (by decide) _

theorem noParen_literal (v : Literal) : NoParen v.toTypeScript := by
  cases v with
  | bool b => cases b <;> decide
  | int n =>
      intro hhead
      have hmem : '(' ∈ (toString n).toList := List.mem_of_mem_head? hhead
      rcases isDigit_of_mem_int hmem with h | h <;> exact absurd h (by decide)
  | str s =>
      have hchars : (Text.Quoted.encode s).toList = Text.Quoted.encodeChars s.toList :=
        String.toList_ofList
      refine .of_head hchars ?_
      rcases Text.Quoted.mark_eq s.toList with h | h <;> rw [h] <;> decide

theorem noParen_literals (vs : List Literal) :
    NoParen (" | ".intercalate (vs.map Literal.toTypeScript)) := by
  cases vs with
  | nil => decide
  | cons v vs =>
      rw [List.map_cons, intercalate_eq_bars]
      exact (noParen_literal v).append (noParen_bars _)

/-- Neither a function type nor a union. -/
def IsPlain : Ty → Prop
  | .callable _ _ | .optional _ | .union _ => False
  | _ => True

theorem isPlain_of_closed {ty : Ty} {r : TypeScriptTy} (h : ty.toTypeScript = .ok r)
    (hclosed : r.closed = true) : ty.IsPlain := by
  cases ty with
  | optional inner =>
      obtain ⟨_, _, h⟩ := bind_eq_ok.1 h
      cases pure_eq_ok.1 h
      cases hclosed
  | union members =>
      cases members with
      | nil => cases h
      | cons member members =>
          obtain ⟨_, _, h⟩ := bind_eq_ok.1 h
          cases pure_eq_ok.1 h
          cases hclosed
  | callable params result =>
      rw [toTypeScript] at h
      split at h
      · cases h
      obtain ⟨_, _, h⟩ := bind_eq_ok.1 h
      obtain ⟨_, _, h⟩ := bind_eq_ok.1 h
      cases pure_eq_ok.1 h
      cases hclosed
  | _ => trivial

/-- What is written first is no union. -/
theorem leading_isPlain_or_callable {ty : Ty} {r : TypeScriptTy}
    (h : ty.leading.toTypeScript = .ok r) :
    ty.leading.IsPlain ∨ ∃ params result, ty.leading = .callable params result := by
  fun_induction leading ty with
  | case1 inner ih | case2 member members ih => exact ih h
  | case3 ty hoptional hunion =>
      cases ty with
      | callable params result => exact .inr ⟨params, result, rfl⟩
      | optional inner => exact absurd rfl (hoptional inner)
      | union members =>
          cases members with
          | nil => cases h
          | cons member members => exact absurd rfl (hunion member members)
      | _ => exact .inl trivial

/-- Only function types begin with a parenthesis. -/
theorem noParen_toTypeScript : ∀ ty : Ty, ty.IsSpelled isIdentifier → ty.IsPlain →
    ∀ {r : TypeScriptTy}, ty.toTypeScript = .ok r → NoParen r.text
  | .any, _, _, r, h | .str, _, _, r, h | .num, _, _, r, h | .bool, _, _, r, h
  | .null, _, _, r, h | .omit, _, _, r, h => by
      cases h
      decide
  | .literal values, _, _, r, h => by
      cases h
      exact noParen_literals values.values
  | .list inner, hty, _, r, h => by
      obtain ⟨i, hi, h⟩ := bind_eq_ok.1 h
      cases pure_eq_ok.1 h
      show NoParen (if _ then _ else _)
      split
      · rename_i hclosed
        exact (noParen_toTypeScript inner hty (isPlain_of_closed hi hclosed) hi).append (by decide)
      · exact ((NoParen.append_left (by decide) (by decide) _).append_left (by simp) _)
  | .set inner, _, _, r, h => by
      obtain ⟨i, _, h⟩ := bind_eq_ok.1 h
      cases pure_eq_ok.1 h
      rw [String.append_assoc]
      exact NoParen.append_left (by decide) (by decide) _
  | .dict key value, _, _, r, h | .map key value, _, _, r, h => by
      obtain ⟨k, _, h⟩ := bind_eq_ok.1 h
      obtain ⟨v, _, h⟩ := bind_eq_ok.1 h
      cases pure_eq_ok.1 h
      simp only [String.append_assoc]
      exact NoParen.append_left (by decide) (by decide) _
  | .alias name _, hty, _, r, h => by
      cases h
      exact noParen_of_isIdentifier hty
  | .custom _, hty, _, _, _ | .python _ _, hty, _, _, _ | .typescript _, hty, _, _, _ => hty.elim

/-! ## Unions that are read as function types -/

theorem AllSpelled.append {ok : String → Bool} {tys tys' : List Ty} (h : AllSpelled ok tys)
    (h' : AllSpelled ok tys') : AllSpelled ok (tys ++ tys') :=
  allSpelled_iff.2 (List.forall_mem_append.2 ⟨allSpelled_iff.1 h, allSpelled_iff.1 h'⟩)

theorem IsSpelled.members {ok : String → Bool} {ty : Ty} (h : ty.IsSpelled ok) :
    ty.leading.IsSpelled ok ∧ AllSpelled ok ty.trailing := by
  fun_induction leading ty with
  | case1 inner ih =>
      obtain ⟨hleading, htrailing⟩ := ih h
      rw [trailing]
      exact ⟨hleading, htrailing.append ⟨trivial, trivial⟩⟩
  | case2 member members ih =>
      obtain ⟨hleading, htrailing⟩ := ih h.1
      rw [trailing]
      exact ⟨hleading, htrailing.append h.2⟩
  | case3 ty hoptional hunion =>
      rw [trailing_eq_nil hoptional hunion]
      exact ⟨h, trivial⟩

/-- A union that begins with a function type has the text of the function type whose result is a
union with the other members. -/
theorem typeScriptText_of_leading {ty : Ty} {params : List Ty} {result : Ty}
    (hleading : ty.leading = .callable params result) {text : String}
    (htext : ty.typeScriptText = .ok text) :
    ∃ ps res, parameterList params = .ok ps ∧
      (Ty.union (result :: ty.trailing)).typeScriptText = .ok res ∧
      text = "(" ++ ps ++ ")" ++ (" => " ++ res) := by
  obtain ⟨r, hr, htext⟩ := bind_eq_ok.1 htext
  cases pure_eq_ok.1 htext
  obtain ⟨l, rest, hl, hrest, hbars⟩ := exists_leading ty hr
  have hfunction : (Ty.callable params result).typeScriptText = .ok l.text := by
    rw [typeScriptText, ← hleading, hl]
    rfl
  obtain ⟨ps, res, hps, hres, hltext⟩ := callable_eq_ok.1 hfunction
  refine ⟨ps, res ++ bars (rest.map TypeScriptTy.text), hps, ?_, ?_⟩
  · obtain ⟨m, hm, hres⟩ := bind_eq_ok.1 hres
    cases pure_eq_ok.1 hres
    rw [typeScriptText, toTypeScript, toTypeScriptAll, hm, ok_bind, hrest]
    · rw [← intercalate_eq_bars]
      rfl
    · simp
  · rw [hbars, hltext]
    simp only [String.append_assoc]

/-- A type whose text begins with a parenthesis begins with a function type. -/
theorem exists_leading_callable {ty : Ty} (hty : ty.IsSpelled isIdentifier) {text : String}
    (htext : ty.typeScriptText = .ok text) (hparen : ¬NoParen text) :
    ∃ params result, ty.leading = .callable params result := by
  obtain ⟨r, hr, htext⟩ := bind_eq_ok.1 htext
  cases pure_eq_ok.1 htext
  obtain ⟨l, rest, hl, -, hbars⟩ := exists_leading ty hr
  refine (leading_isPlain_or_callable hl).resolve_left fun hplain => hparen ?_
  rw [hbars]
  exact (noParen_toTypeScript _ hty.members.1 hplain hl).append (noParen_bars _)

/-- The function types that have the text of a type: they have the parameters of the function type
that it begins with, and for a result the union of its result with the other members. -/
theorem callable_text_iff {ty : Ty} (hty : ty.IsSpelled isIdentifier) {text : String}
    (htext : ty.typeScriptText = .ok text) {params : List Ty} {result : Ty}
    (hfunction : (Ty.callable params result).IsSpelled isIdentifier) :
    (Ty.callable params result).typeScriptText = .ok text ↔
      ∃ ps res shown, ty.leading = .callable ps res ∧ parameterList ps = .ok shown ∧
        parameterList params = .ok shown ∧
        (Ty.union (res :: ty.trailing)).typeScriptText = result.typeScriptText := by
  refine ⟨fun h => ?_, fun ⟨ps, res, shown, hleading, hps, hparams, hresult⟩ => ?_⟩
  · obtain ⟨shown, last, hshown, hlast, htextEq⟩ := callable_eq_ok.1 h
    have hparen : ¬NoParen text := by
      rw [htextEq, NoParen]
      simp
    obtain ⟨ps, res, hleading⟩ := exists_leading_callable hty htext hparen
    obtain ⟨shown', union, hshown', hunion, htextEq'⟩ := typeScriptText_of_leading hleading htext
    have hspelled := hty.members.1
    rw [hleading] at hspelled
    -- Both texts go on behind the parenthesis that closes their parameters.
    have hsame : shown ++ ")" ++ (" => " ++ last) = shown' ++ ")" ++ (" => " ++ union) := by
      have hboth := htextEq.symm.trans htextEq'
      simp only [String.append_assoc] at hboth ⊢
      simpa using hboth
    obtain ⟨rfl, hresult⟩ := WellBracketed.append_paren_inj
      (wellBracketed_parameterList hfunction.1 hshown)
      (wellBracketed_parameterList hspelled.1 hshown') hsame
    refine ⟨ps, res, shown, hleading, hshown', hshown, ?_⟩
    rw [hunion, hlast]
    simpa using hresult.symm
  · obtain ⟨shown', union, hshown', hunion, htextEq⟩ := typeScriptText_of_leading hleading htext
    cases hps.symm.trans hshown'
    exact callable_eq_ok.2 ⟨shown, union, hparams, hresult ▸ hunion, htextEq⟩

/-- **Which unions have the text of a function type**, of all types that the caller spells by
nothing but identifiers. A union of several types, or one that may be null, has the text of a
function type just if it begins with a function type: of any such type with the same parameters
whose result is written as the union of the result with the other members. -/
theorem text_eq_callable_iff {ty : Ty} (hty : ty.IsSpelled isIdentifier) (hjoined : ty.IsJoined)
    {text : String} (htext : ty.typeScriptText = .ok text) :
    ty.trailing ≠ [] ∧
      ((∃ params result, (Ty.callable params result).IsSpelled isIdentifier ∧
        (Ty.callable params result).typeScriptText = .ok text) ↔
          ∃ params result, ty.leading = .callable params result) ∧
      ∀ params result, (Ty.callable params result).IsSpelled isIdentifier →
        ((Ty.callable params result).typeScriptText = .ok text ↔
          ∃ ps res shown, ty.leading = .callable ps res ∧ parameterList ps = .ok shown ∧
            parameterList params = .ok shown ∧
            (Ty.union (res :: ty.trailing)).typeScriptText = result.typeScriptText) := by
  refine ⟨hjoined.trailing_ne_nil, ⟨fun ⟨params, result, hfunction, h⟩ => ?_,
    fun ⟨params, result, hleading⟩ => ?_⟩, fun _ _ => callable_text_iff hty htext⟩
  · obtain ⟨ps, res, _, hleading, _⟩ := (callable_text_iff hty htext hfunction).1 h
    exact ⟨ps, res, hleading⟩
  · obtain ⟨shown, union, hshown, hunion, htextEq⟩ := typeScriptText_of_leading hleading htext
    obtain ⟨hspelled, htrailing⟩ := hty.members
    rw [hleading] at hspelled
    exact ⟨params, .union (result :: ty.trailing), ⟨hspelled.1, hspelled.2, htrailing⟩,
      callable_eq_ok.2 ⟨shown, union, hshown, hunion, htextEq⟩⟩

/-- A list of functions that may be null has a text of its own. -/
theorem text_ne_callable_of_list :
    let ty : Ty := .optional (.list (.callable [.str] .bool))
    ty.IsSpelled isIdentifier ∧ ty.IsJoined ∧
      ty.typeScriptText = .ok "Array<(a: string) => boolean> | null" ∧
      ¬∃ params result, (Ty.callable params result).IsSpelled isIdentifier ∧
        (Ty.callable params result).typeScriptText =
          .ok "Array<(a: string) => boolean> | null" := by
  intro ty
  have hty : ty.IsSpelled isIdentifier := ⟨⟨trivial, trivial⟩, trivial⟩
  have htext : ty.typeScriptText = .ok "Array<(a: string) => boolean> | null" := rfl
  obtain ⟨-, hiff, -⟩ := text_eq_callable_iff hty trivial htext
  refine ⟨hty, trivial, htext, fun h => ?_⟩
  obtain ⟨params, result, hleading⟩ := hiff.1 h
  have hlist : ty.leading = .list (.callable [.str] .bool) := by simp [ty, leading]
  rw [hlist] at hleading
  cases hleading

/-- A function that may be null is written as one whose result may be, and a union that begins with
a function as one whose result is a union. -/
theorem text_eq_of_leading_callable :
    (Ty.optional (.callable [] .num)).typeScriptText = .ok "() => number | null" ∧
      (Ty.callable [] (.optional .num)).typeScriptText = .ok "() => number | null" ∧
      (Ty.union [.callable [.str] .bool, .str]).typeScriptText =
        .ok "(a: string) => boolean | string" ∧
      (Ty.callable [.str] (.union [.bool, .str])).typeScriptText =
        .ok "(a: string) => boolean | string" :=
  ⟨rfl, rfl, rfl, rfl⟩

end Ty

end Polyglot
