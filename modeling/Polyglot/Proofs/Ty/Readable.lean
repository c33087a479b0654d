import Polyglot.Proofs.Brackets.Spelled
import Polyglot.Proofs.Expr.Spelling
import Polyglot.Proofs.Ty.Annotation

/-!
# Annotations determine their types

No two types of this library are written as the same annotation. An annotation begins with a word
that says how it goes on, and what stands in its brackets can be told apart member by member: no
member is written like the beginning of another one, if something stands behind it that ends it.

* `Text.IsReadable` : a member of a family of texts that can be told apart from all others.
* `Text.eq_of_items` : from members to lists of them in brackets.
* `Literal.isReadable_of_spelled` : constants.
* `Ty.View` : an annotation as its first word and the rest; the word says which shape the rest has.
* `Ty.isReadable` : annotations.
* `Ty.eq_of_pythonText_eq` : **types with the same annotation are the same**, in quotes or not.
-/

set_option autoImplicit false

namespace Polyglot

open Outcome

/-! ## Texts that can be told apart -/

namespace Text

open Token

variable {α : Type} {R : α → String → Prop} {r r' : List Char}

/-- Where `R` says which members have which texts, the text of the member is not the beginning of
another member's text: if the same characters begin with both, with something behind them that ends
them, the members are the same and so is what stands behind them. -/
def IsReadable (R : α → String → Prop) (a : α) : Prop :=
  ∀ ⦃b : α⦄ ⦃s s' : String⦄ ⦃r r' : List Char⦄, R a s → R b s' → Ends r → Ends r' →
    s.toList ++ r = s'.toList ++ r' → a = b ∧ r = r'

/-- What stands behind a member of a list in square brackets: more members, and the bracket. -/
def behind (r : List Char) : List String → List Char
  | [] => ']' :: r
  | s :: ss => ',' :: ' ' :: (s.toList ++ behind r ss)

theorem ends_behind (r : List Char) (ss : List String) : Ends (behind r ss) := by
  cases ss <;> exact ends_cons rfl

theorem intercalate_append_bracket (s : String) (ss : List String) (r : List Char) :
    (", ".intercalate (s :: ss)).toList ++ ']' :: r = s.toList ++ behind r ss := by
  induction ss generalizing s with
  | nil => rw [String.intercalate_singleton, behind]
  | cons s' ss ih =>
      rw [String.intercalate_cons_of_ne_nil (List.cons_ne_nil _ _), String.toList_append,
        List.append_assoc, ih, behind]
      simp

theorem eq_of_behind {as : List α} (has : ∀ a ∈ as, IsReadable R a) :
    ∀ {bs : List α} {ss ss' : List String}, List.Forall₂ R as ss → List.Forall₂ R bs ss' →
      behind r ss = behind r' ss' → as = bs ∧ r = r' := by
  induction as with
  | nil =>
      intro bs ss ss' hss hss' h
      cases hss
      cases hss' with
      | nil => exact ⟨rfl, (List.cons.inj h).2⟩
      | cons => exact absurd (List.cons.inj h).1 (by decide)
  | cons a as ih =>
      intro bs ss ss' hss hss' h
      cases hss with
      | cons hs hss =>
          cases hss' with
          | nil => exact absurd (List.cons.inj h).1 (by decide)
          | cons hs' hss' =>
              have hitems := (List.cons.inj (List.cons.inj h).2).2
              obtain ⟨rfl, hbehind⟩ := has a (List.mem_cons_self ..) hs hs' (ends_behind r _)
                (ends_behind r' _) hitems
              obtain ⟨rfl, hr⟩ := ih (fun a' ha' => has a' (List.mem_cons_of_mem _ ha')) hss hss'
                hbehind
              exact ⟨rfl, hr⟩

/-- Lists in brackets can be told apart if their members can, and if no member's text begins with
the bracket. -/
theorem eq_of_items (hfirst : ∀ a s, R a s → ∃ c cs, s.toList = c :: cs ∧ c ≠ ']') {as bs : List α}
    (has : ∀ a ∈ as, IsReadable R a) {ss ss' : List String} (hss : List.Forall₂ R as ss)
    (hss' : List.Forall₂ R bs ss')
    (h : (", ".intercalate ss).toList ++ ']' :: r = (", ".intercalate ss').toList ++ ']' :: r') :
    as = bs ∧ r = r' := by
  cases hss with
  | nil =>
      cases hss' with
      | nil => exact ⟨rfl, by simpa using h⟩
      | @cons b s' _ _ hs' _ =>
          obtain ⟨c, cs, hchars, hc⟩ := hfirst b s' hs'
          rw [intercalate_append_bracket, hchars] at h
          exact absurd (List.cons.inj h).1.symm hc
  | @cons a s as ss hs hss =>
      cases hss' with
      | nil =>
          obtain ⟨c, cs, hchars, hc⟩ := hfirst a s hs
          rw [intercalate_append_bracket, hchars] at h
          exact absurd (List.cons.inj h).1 hc
      | @cons b s' bs ss' hs' hss' =>
          rw [intercalate_append_bracket, intercalate_append_bracket] at h
          exact eq_of_behind has (.cons hs hss) (.cons hs' hss')
            (congrArg (',' :: ' ' :: ·) h)

/-- Two texts that begin with a word each begin with the same one, if something ends the words. -/
theorem eq_of_words {w w' : String} (hw : isIdentifier w = true) (hw' : isIdentifier w' = true)
    (hr : Ends r) (hr' : Ends r') (h : w.toList ++ r = w'.toList ++ r') : w = w' ∧ r = r' := by
  constructor
  · rw [← String.toList_inj, ← takeWhile_word hw hr, ← takeWhile_word hw' hr', h]
  · rw [← dropWhile_word hw hr, ← dropWhile_word hw' hr', h]

theorem toList_brackets (s : String) (r : List Char) :
    ("[" ++ s ++ "]").toList ++ r = '[' :: (s.toList ++ ']' :: r) := by
  simp

end Text

open Text

/-! ## Constants -/

namespace Literal

theorem toList_toPython (v : Literal) : v.toPython.toList = (v.token .python).spelled .python := by
  cases v with
  | bool b => cases b <;> rfl
  | int n => rfl
  | str s => exact String.toList_ofList

theorem isProper_token (v : Literal) (t : Target) : (v.token t).IsProper := by
  cases v with
  | bool b => cases t <;> cases b <;> exact ⟨by decide, by decide⟩
  | int n | str s => trivial

theorem token_injective {t : Target} {v v' : Literal} (h : v.token t = v'.token t) : v = v' := by
  cases v with
  | bool b =>
      cases t <;> cases b <;> rcases v' with (_ | _) | _ | _ <;> simp_all [token, Target.boolWord]
  | int n | str s => rcases v' with (_ | _) | _ | _ <;> simp_all [token]

/-- Constants can be told apart where they are written as tokens of a language. -/
theorem isReadable_of_spelled {t : Target} {write : Literal → String}
    (hwrite : ∀ v : Literal, (write v).toList = (v.token t).spelled t) (v : Literal) :
    IsReadable (fun v s => s = write v) v := by
  rintro v' _ _ r r' rfl rfl hr hr' h
  rw [hwrite, hwrite] at h
  have hnext := Token.next_spelled t (v.isProper_token t) (r := r) fun _ => hr
  rw [h, Token.next_spelled t (v'.isProper_token t) fun _ => hr'] at hnext
  obtain ⟨htoken, hrest⟩ := Prod.mk.inj (Option.some.inj hnext)
  exact ⟨(token_injective htoken).symm, hrest.symm⟩

theorem isReadable (v : Literal) : IsReadable (fun (v : Literal) s => s = v.toPython) v :=
  isReadable_of_spelled toList_toPython v

theorem annotates_values (values : LiteralSet) :
    List.Forall₂ (fun (v : Literal) s => s = v.toPython) values.values
      (values.values.map toPython) := by
  rw [List.forall₂_map_right_iff, List.forall₂_same]
  exact fun _ _ => rfl

theorem exists_first (v : Literal) (s : String) (h : s = v.toPython) :
    ∃ c cs, s.toList = c :: cs ∧ c ≠ ']' := by
  subst h
  cases v with
  | bool b =>
      cases b
      · exact ⟨'F', ['a', 'l', 's', 'e'], rfl, by decide⟩
      · exact ⟨'T', ['r', 'u', 'e'], rfl, by decide⟩
  | int n =>
      have hbracket : ∀ c ∈ n.repr.toList, c ≠ ']' := by
        rintro c hc rfl
        rcases isDigit_of_mem_int hc with h | h <;> exact absurd h (by decide)
      obtain ⟨c, cs, -, h | h⟩ := Token.exists_digits n
      · exact ⟨c, cs, h, hbracket c (h ▸ List.mem_cons_self ..)⟩
      · exact ⟨'-', c :: cs, h, by decide⟩
  | str s =>
      refine ⟨_, _, String.toList_ofList, ?_⟩
      rcases Quoted.mark_eq s.toList with h | h <;> rw [h] <;> decide

end Literal

theorem LiteralSet.eq_of_values {values values' : LiteralSet} (h : values.values = values'.values) :
    values = values' := by
  cases values
  cases h
  rfl

namespace Ty

variable {ty : Ty} {s : String}

/-! ## Types of this library -/

/-- Nothing in the type is spelled by the caller, not even the name of a named type. -/
def IsBuiltIn (ty : Ty) : Prop := ty.IsSpelled fun _ => false

theorem IsBuiltIn.of_mem_parts (h : ty.IsBuiltIn) {part : Ty} (hpart : part ∈ ty.parts .python) :
    part.IsBuiltIn :=
  ((isSpelled_iff_parts Target.noConfusion).1 h).2 part hpart

/-! ## Annotations, word by word -/

/-- The text is the annotation of a type of this library. -/
def Annotates (ty : Ty) (s : String) : Prop :=
  ty.IsBuiltIn ∧ ∃ quoted, ty.toPython = .ok ⟨s, quoted⟩

theorem annotates_of_mapM {tys : List Ty} {as : List Annotation} (h : tys.mapM toPython = .ok as)
    (hbuilt : ∀ ty ∈ tys, ty.IsBuiltIn) : List.Forall₂ Annotates tys (as.map Annotation.text) := by
  rw [List.forall₂_map_right_iff]
  exact forall₂_of_mapM_eq_ok h fun ty hty a ha => ⟨hbuilt ty hty, a.quoted, ha⟩

/-- How an annotation goes on behind its first word. -/
inductive Shape where
  | word
  | constants
  | arguments
  | function

/-- The first word of an annotation that is nothing but a name, and the rest of the name. -/
def name? : Ty → Option (String × String)
  | .any => some ("Any", "")
  | .str => some ("str", "")
  | .num => some ("int", "")
  | .bool => some ("bool", "")
  | .null => some ("None", "")
  | .omit => some ("builtins", ".ellipsis")
  | .literal _ | .optional _ | .list _ | .set _ | .dict _ _ | .map _ _ | .union _ | .callable _ _
  | .alias _ _ | .custom _ | .python _ _ | .typescript _ => none

/-- The type whose name begins with the word, and the rest of the name. -/
def named? : String → Option (Ty × String)
  | "Any" => some (.any, "")
  | "str" => some (.str, "")
  | "int" => some (.num, "")
  | "bool" => some (.bool, "")
  | "None" => some (.null, "")
  | "builtins" => some (.omit, ".ellipsis")
  | _ => none

theorem named?_of_name {w tail : String} (h : ty.name? = some (w, tail)) :
    named? w = some (ty, tail) := by
  cases ty <;> cases h <;> rfl

/-- The generic type with the given name and parts. -/
def applied? : String → List Ty → Option Ty
  | "Optional", [inner] => some (.optional inner)
  | "List", [inner] => some (.list inner)
  | "Set", [inner] => some (.set inner)
  | "Dict", [key, value] => some (.dict key value)
  | "Mapping", [key, value] => some (.map key value)
  | "Union", members => some (.union members)
  | _, _ => none

theorem applied?_of_genericName {name : String} (h : ty.genericName? = some name) :
    applied? name (ty.parts .python) = some ty := by
  cases ty <;> cases h <;> rfl

/-- A type with the first word of its annotation and what stands behind that word. -/
inductive View : Shape → Ty → String → String → Prop
  | word {ty : Ty} {w tail : String} : ty.name? = some (w, tail) → View .word ty w tail
  | constants (values : LiteralSet) :
      View .constants (.literal values) "Literal"
        ("[" ++ ", ".intercalate (values.values.map Literal.toPython) ++ "]")
  | arguments {ty : Ty} {name : String} {ss : List String} :
      ty.genericName? = some name → List.Forall₂ Annotates (ty.parts .python) ss →
        View .arguments ty name ("[" ++ ", ".intercalate ss ++ "]")
  | function {params : List Ty} {result : Ty} {ss : List String} {s : String} :
      List.Forall₂ Annotates params ss → Annotates result s →
        View .function (.callable params result) "Callable"
          ("[[" ++ ", ".intercalate ss ++ "], " ++ s ++ "]")

/-- The shape that goes with a first word. -/
def Shape.of (w : String) : Shape :=
  if w = "Literal" then .constants
  else if w = "Callable" then .function
  else if w ∈ ["Optional", "List", "Set", "Dict", "Mapping", "Union"] then .arguments
  else .word

/-- Every annotation has a view. -/
theorem Annotates.exists_view (h : Annotates ty s) :
    ∃ shape w tail, View shape ty w tail ∧ s = w ++ tail := by
  obtain ⟨hbuilt, quoted, h⟩ := h
  cases ty with
  | any | str | num | bool | null | «omit» =>
      cases h
      exact ⟨_, _, _, .word rfl, rfl⟩
  | literal values =>
      cases h
      exact ⟨_, _, _, .constants values, by simp [← String.append_assoc]⟩
  | optional | list | set | dict | map | union =>
      obtain ⟨args, hargs, ha⟩ := toPython_generic rfl h
      cases ha
      refine ⟨_, _, _, .arguments rfl (annotates_of_mapM hargs fun _ => hbuilt.of_mem_parts), ?_⟩
      simp only [String.append_assoc]
      rfl
  | callable params result =>
      obtain ⟨ps, r, hps, hr, ha⟩ := toPython_callable h
      cases ha
      have hparams : ∀ ty ∈ params, ty.IsBuiltIn := allSpelled_iff.1 hbuilt.1
      refine ⟨_, _, _, .function (annotates_of_mapM hps hparams) ⟨hbuilt.2, r.quoted, hr⟩, ?_⟩
      simp only [← String.append_assoc]
      rfl
  | «alias» => cases hbuilt
  | custom | python | typescript => exact hbuilt.elim

namespace View

variable {shape : Shape} {w tail : String}

theorem isIdentifier (h : View shape ty w tail) : isIdentifier w = true := by
  cases h with
  | constants | function => decide
  | word hname | arguments hname _ => cases ty <;> cases hname <;> decide

/-- The first word says how the annotation goes on. -/
theorem shape_eq (h : View shape ty w tail) : shape = .of w := by
  cases h with
  | constants | function => rfl
  | word hname | arguments hname _ => cases ty <;> cases hname <;> rfl

/-- The first word ends where the rest begins. -/
theorem ends (h : View shape ty w tail) {r : List Char} (hr : Token.Ends r) :
    Token.Ends (tail.toList ++ r) := by
  cases h with
  | word hname =>
      cases ty with
      | «omit» =>
          cases hname
          exact Token.ends_cons rfl
      | _ => cases hname <;> exact hr
  | constants | arguments | function =>
      simp only [String.append_assoc, String.toList_append, List.append_assoc]
      exact Token.ends_cons rfl

end View

theorem Annotates.exists_letter (h : Annotates ty s) :
    ∃ c cs, s.toList = c :: cs ∧ isLetter c = true := by
  obtain ⟨_, w, tail, hview, rfl⟩ := h.exists_view
  obtain ⟨c, cs, hw, hc⟩ := exists_letter_of_isIdentifier hview.isIdentifier
  exact ⟨c, cs ++ tail.toList, by rw [String.toList_append, hw]; rfl, hc⟩

/-- No annotation begins with a bracket. -/
theorem exists_first (ty : Ty) (s : String) (h : Annotates ty s) :
    ∃ c cs, s.toList = c :: cs ∧ c ≠ ']' := by
  obtain ⟨c, cs, hs, hc⟩ := h.exists_letter
  refine ⟨c, cs, hs, ?_⟩
  rintro rfl
  exact absurd hc (by decide)

/-! ## Types with the same annotation -/

/-- Annotations can be told apart, and so can what stands behind them. -/
theorem isReadable (ty : Ty) : IsReadable Annotates ty := by
  induction ty using induction_on_parts .python with
  | step ty ih =>
      intro b s s' r r' hs hs' hr hr' htext
      obtain ⟨shape, w, tail, hview, rfl⟩ := hs.exists_view
      obtain ⟨shape', w', tail', hview', rfl⟩ := hs'.exists_view
      rw [String.toList_append, String.toList_append, List.append_assoc, List.append_assoc] at htext
      obtain ⟨rfl, hrest⟩ := eq_of_words hview.isIdentifier hview'.isIdentifier (hview.ends hr)
        (hview'.ends hr') htext
      -- The first word is the same, and so is the shape of what stands behind it.
      obtain rfl : shape = shape' := hview.shape_eq.trans hview'.shape_eq.symm
      cases hview with
      | word hname =>
          cases hview' with
          | word hname' =>
              have hsame := named?_of_name hname
              rw [named?_of_name hname'] at hsame
              cases hsame
              exact ⟨rfl, List.append_cancel_left hrest⟩
      | constants values =>
          cases hview' with
          | constants values' =>
              rw [toList_brackets, toList_brackets] at hrest
              obtain ⟨hvalues, rfl⟩ := eq_of_items Literal.exists_first
                (fun v _ => v.isReadable) (Literal.annotates_values values)
                (Literal.annotates_values values') (List.cons.inj hrest).2
              exact ⟨congrArg Ty.literal (LiteralSet.eq_of_values hvalues), rfl⟩
      | arguments hname hss =>
          cases hview' with
          | arguments hname' hss' =>
              rw [toList_brackets, toList_brackets] at hrest
              obtain ⟨hparts, rfl⟩ := eq_of_items exists_first ih hss hss' (List.cons.inj hrest).2
              have hsame := applied?_of_genericName hname
              rw [hparts, applied?_of_genericName hname'] at hsame
              exact ⟨(Option.some.inj hsame).symm, rfl⟩
      | @function params result ss last hss hlast =>
          cases hview' with
          | @function params' result' ss' last' hss' hlast' =>
              have hchars (X t : String) (r : List Char) :
                  ("[[" ++ X ++ "], " ++ t ++ "]").toList ++ r =
                    '[' :: '[' :: (X.toList ++ ']' :: ',' :: ' ' :: (t.toList ++ ']' :: r)) := by
                simp
              rw [hchars, hchars] at hrest
              have hparams : ∀ part ∈ params, IsReadable Annotates part := fun part hpart =>
                ih part (by simp [parts, hpart])
              obtain ⟨rfl, hbehind⟩ := eq_of_items exists_first hparams hss hss'
                (List.cons.inj (List.cons.inj hrest).2).2
              have hresult := (List.cons.inj (List.cons.inj hbehind).2).2
              obtain ⟨rfl, hend⟩ := ih result (by simp [parts]) hlast hlast'
                (Token.ends_cons rfl) (Token.ends_cons rfl) hresult
              exact ⟨rfl, (List.cons.inj hend).2⟩

/-- An annotation that is written as a string is not written like one that is not. -/
theorem text_eq_of_written_eq {b : Ty} {p q : Annotation} (hp : Annotates ty p.text)
    (hq : Annotates b q.text) (h : p.written = q.written) : p.text = q.text := by
  have hquote (s s' : String) (hs' : ∃ c cs, s'.toList = c :: cs ∧ isLetter c = true) :
      Quoted.encode s ≠ s' := by
    obtain ⟨c, cs, hchars, hc⟩ := hs'
    rintro rfl
    rw [Quoted.encode, String.toList_ofList, Quoted.encodeChars] at hchars
    rw [← (List.cons.inj hchars).1] at hc
    rcases Quoted.mark_eq s.toList with hmark | hmark <;> rw [hmark] at hc <;>
      exact absurd hc (by decide)
  unfold Annotation.written at h
  cases hpq : p.quoted <;> cases hqq : q.quoted <;> simp only [hpq, hqq, if_true] at h
  · exact h
  · exact absurd h.symm (hquote _ _ hp.exists_letter)
  · exact absurd h (hquote _ _ hq.exists_letter)
  · exact Quoted.encode_injective h

/-- **Annotations determine types.** Two types in which nothing is spelled by the caller, and which
are written as the same annotation, are the same type. -/
theorem eq_of_pythonText_eq {a b : Ty} (ha : a.IsBuiltIn) (hb : b.IsBuiltIn) {text : String}
    (hatext : a.pythonText = .ok text) (hbtext : b.pythonText = .ok text) : a = b := by
  obtain ⟨p, hp, hatext⟩ := bind_eq_ok.1 hatext
  obtain ⟨q, hq, hbtext⟩ := bind_eq_ok.1 hbtext
  have hap : Annotates a p.text := ⟨ha, p.quoted, hp⟩
  have hbq : Annotates b q.text := ⟨hb, q.quoted, hq⟩
  have hsame : p.text = q.text :=
    text_eq_of_written_eq hap hbq ((pure_eq_ok.1 hatext).trans (pure_eq_ok.1 hbtext).symm)
  exact (isReadable a hap hbq Token.ends_nil Token.ends_nil (by rw [hsame])).1

/-- The values of a literal type may be given in any order and more than once, and may hold what
annotations are made of. -/
theorem eq_of_shuffled_values :
    let a : Ty := .callable [.literal (.ofList [.str "a, ']", .int (-1), .str "\"it's\""])]
      (.union [.omit, .null])
    let b : Ty := .callable
      [.literal (.ofList [.str "\"it's\"", .str "a, ']", .int (-1), .str "\"it's\""])]
      (.union [.omit, .null])
    (∃ text, a.pythonText = .ok text ∧ b.pythonText = .ok text) ∧ a = b := by
  intro a b
  have hab : ∃ text, a.pythonText = .ok text ∧ b.pythonText = .ok text := ⟨_, rfl, rfl⟩
  obtain ⟨text, ha, hb⟩ := hab
  have hbuilt : a.IsBuiltIn ∧ b.IsBuiltIn :=
    ⟨⟨⟨trivial, trivial⟩, trivial, trivial, trivial⟩, ⟨trivial, trivial⟩, trivial, trivial, trivial⟩
  exact ⟨⟨text, ha, hb⟩, eq_of_pythonText_eq hbuilt.1 hbuilt.2 ha hb⟩

end Ty

end Polyglot
