import Mathlib.Data.Prod.Lex
import Mathlib.Data.String.Basic
import Mathlib.Tactic.TFAE
import Polyglot.Proofs.Ascending
import Polyglot.Proofs.Ty.Blank
import Polyglot.Proofs.Ty.Readable

/-!
# Types of constants

The values of a literal type form a set. They are kept in one order without repetitions, so the set
alone decides how the type is written, and in Python and TypeScript the type shows its set.

* `Literal.Precedes`, `Literal.sortKey` : the order of constants, and what they are sorted by.
* `Literal.lt_iff_precedes`, `Literal.sortKey_lt_sortKey` : all three say the same.
* `Text.eq_of_intercalate` : texts with a separator between them can be told apart.
* `LiteralSet.eq_of_texts_eq` : sets of constants are read off their types.
* `LiteralSet.ofList_canonical` : **sets of constants have one form**.
-/

set_option autoImplicit false

namespace Polyglot

/-! ## The order of constants -/

namespace Literal

/-- `true` stands before `false`, truth values before integers and integers before texts. Integers
ascend; texts are compared code point by code point. -/
inductive Precedes : Literal → Literal → Prop
  | bool : Precedes (.bool true) (.bool false)
  | boolInt (b : Bool) (n : Int) : Precedes (.bool b) (.int n)
  | boolStr (b : Bool) (s : String) : Precedes (.bool b) (.str s)
  | int {m n : Int} (h : m < n) : Precedes (.int m) (.int n)
  | intStr (n : Int) (s : String) : Precedes (.int n) (.str s)
  | str {s s' : String} (h : List.Lex (fun c d => c.toNat < d.toNat) s.toList s'.toList) :
      Precedes (.str s) (.str s')

/-- What constants are sorted by: their kind, then their place among truth values and integers, then
the text. -/
def sortKey : Literal → ℕ ×ₗ ℤ ×ₗ String
  | .bool b => toLex (0, toLex (if b then 0 else 1, ""))
  | .int n => toLex (1, toLex (n, ""))
  | .str s => toLex (2, toLex (0, s))

theorem lex_toNat_iff {s s' : String} :
    List.Lex (fun c d => c.toNat < d.toNat) s.toList s'.toList ↔ s < s' := by
  have hchar : (fun c d : Char => c.toNat < d.toNat) = fun c d => c < d := by
    funext c d
    exact propext UInt32.lt_iff_toNat_lt.symm
  rw [hchar]
  exact Iff.rfl

theorem lt_iff_precedes {a b : Literal} : a < b ↔ a.Precedes b := by
  rw [lt_iff]
  constructor
  · intro h
    cases a <;> cases b
    case bool.bool a b =>
      cases a <;> cases b
      case true.false => exact .bool
      all_goals cases h
    case bool.int => exact .boolInt _ _
    case bool.str => exact .boolStr _ _
    case int.int => exact .int (of_decide_eq_true h)
    case int.str => exact .intStr _ _
    case str.str => exact .str (lex_toNat_iff.2 (of_decide_eq_true h))
    all_goals cases h
  · rintro (_ | _ | _ | h | _ | h)
    case int => exact decide_eq_true h
    case str => exact decide_eq_true (lex_toNat_iff.1 h)
    all_goals rfl

theorem sortKey_lt_sortKey (a b : Literal) : a.sortKey < b.sortKey ↔ a < b := by
  rw [lt_iff]
  cases a <;> cases b
  case bool.bool a b => cases a <;> cases b <;> simp [sortKey, before, Prod.Lex.toLex_lt_toLex]
  all_goals simp [sortKey, before, Prod.Lex.toLex_lt_toLex]

instance : IsStrictTotalOrder Literal (· < ·) where
  irrefl := Literal.lt_irrefl
  trans _ _ _ := Literal.lt_trans
  trichotomous _ _ hab hba := Decidable.byContradiction fun hne => hba (Literal.lt_of_not_lt hab hne)

end Literal

/-! ## Texts with a separator between them -/

namespace Text

open Token

variable {α : Type} {write : α → String} {as bs : List α}

/-- A separator and a text, for every text. -/
def separated (sep : List Char) (ss : List String) : List Char := ss.flatMap (sep ++ ·.toList)

theorem separated_cons (sep : List Char) (s : String) (ss : List String) :
    separated sep (s :: ss) = sep ++ (s.toList ++ separated sep ss) := by
  rw [separated, List.flatMap_cons, List.append_assoc, separated]

/-- Separators between texts are separators behind the first one. -/
theorem toList_intercalate_cons (sep s : String) (ss : List String) :
    (sep.intercalate (s :: ss)).toList = s.toList ++ separated sep.toList ss := by
  induction ss generalizing s with
  | nil => simp [separated]
  | cons s' ss ih =>
      rw [String.intercalate_cons_of_ne_nil (List.cons_ne_nil _ _), String.toList_append,
        String.toList_append, ih, separated_cons, List.append_assoc]

/-- Texts behind separators can be told apart, if the texts can and a separator ends what stands in
front of it. -/
theorem eq_of_separated {c : Char} {cs : List Char} (hc : isWordChar c = false)
    (hwrite : ∀ a, IsReadable (fun a s => s = write a) a)
    (h : separated (c :: cs) (as.map write) = separated (c :: cs) (bs.map write)) : as = bs := by
  have hends (ss : List String) : Ends (separated (c :: cs) ss) := by
    cases ss with
    | nil => exact ends_nil
    | cons s ss =>
        rw [separated_cons]
        exact ends_cons hc
  induction as generalizing bs with
  | nil =>
      cases bs with
      | nil => rfl
      | cons b bs =>
          rw [List.map_cons, separated_cons] at h
          exact absurd h.symm (List.cons_ne_nil _ _)
  | cons a as ih =>
      cases bs with
      | nil =>
          rw [List.map_cons, separated_cons] at h
          exact absurd h (List.cons_ne_nil _ _)
      | cons b bs =>
          rw [List.map_cons, List.map_cons, separated_cons, separated_cons] at h
          obtain ⟨rfl, hrest⟩ := hwrite a rfl rfl (hends _) (hends _) (List.append_cancel_left h)
          rw [ih hrest]

/-- Texts with separators between them can be told apart if none of them is empty, too. -/
theorem eq_of_intercalate {sep : String} {c : Char} {cs : List Char} (hsep : sep.toList = c :: cs)
    (hc : isWordChar c = false) (hne : ∀ a, write a ≠ "")
    (hwrite : ∀ a, IsReadable (fun a s => s = write a) a)
    (h : sep.intercalate (as.map write) = sep.intercalate (bs.map write)) : as = bs := by
  have hchars := congrArg String.toList h
  have hempty (a : α) (r : List Char) : (write a).toList ++ r ≠ [] := by
    intro hnil
    exact hne a (String.toList_eq_nil_iff.1 (List.append_eq_nil_iff.1 hnil).1)
  cases as with
  | nil =>
      cases bs with
      | nil => rfl
      | cons b bs =>
          rw [List.map_cons, toList_intercalate_cons] at hchars
          exact absurd hchars.symm (hempty b _)
  | cons a as =>
      cases bs with
      | nil =>
          rw [List.map_cons, toList_intercalate_cons] at hchars
          exact absurd hchars (hempty a _)
      | cons b bs =>
          rw [List.map_cons, List.map_cons, toList_intercalate_cons, toList_intercalate_cons,
            hsep] at hchars
          have hlist : separated (c :: cs) ((a :: as).map write) =
              separated (c :: cs) ((b :: bs).map write) := by
            rw [List.map_cons, List.map_cons, separated_cons, separated_cons, hchars]
          exact eq_of_separated hc hwrite hlist

end Text

/-! ## Types and their sets -/

theorem Literal.toList_toTypeScript (v : Literal) :
    v.toTypeScript.toList = (v.token .typescript).spelled .typescript := by
  cases v with
  | bool b => cases b <;> rfl
  | int n => rfl
  | str s => exact String.toList_ofList

namespace LiteralSet

open Text

/-- In Python and TypeScript a set of constants is read off its type. -/
theorem eq_of_texts_eq {t : Target} (ht : t ≠ .php) {values values' : LiteralSet}
    (h : (Ty.literal values).texts t = (Ty.literal values').texts t) : values = values' := by
  apply eq_of_values
  cases t with
  | python =>
      have htext : "Literal[" ++ ", ".intercalate (values.values.map Literal.toPython) ++ "]" =
          "Literal[" ++ ", ".intercalate (values'.values.map Literal.toPython) ++ "]" :=
        List.singleton_inj.1 (Except.ok.inj h)
      rw [String.append_left_inj, String.append_right_inj] at htext
      have hsep : ", ".toList = [',', ' '] := rfl
      exact eq_of_intercalate hsep rfl Literal.toPython_ne_empty Literal.isReadable htext
  | typescript =>
      have htext : " | ".intercalate (values.values.map Literal.toTypeScript) =
          " | ".intercalate (values'.values.map Literal.toTypeScript) :=
        List.singleton_inj.1 (Except.ok.inj h)
      have hsep : " | ".toList = [' ', '|', ' '] := rfl
      exact eq_of_intercalate hsep rfl Literal.toTypeScript_ne_empty
        (Literal.isReadable_of_spelled Literal.toList_toTypeScript) htext
  | php => exact absurd rfl ht

theorem ofList_eq_ofList_iff {vs ws : List Literal} :
    ofList vs = ofList ws ↔ ∀ v, v ∈ vs ↔ v ∈ ws := by
  rw [← ascending_eq_ascending_iff]
  constructor
  · intro h
    exact congrArg values h
  · intro h
    exact eq_of_values h

/-- PHP has one plain type for each kind of constants, and writes those that occur. -/
theorem mem_phpTypes_ofList {vs : List Literal} {s : String} : s ∈ (ofList vs).phpTypes ↔
    (∃ b, .bool b ∈ vs) ∧ s = "bool" ∨ (∃ n, .int n ∈ vs) ∧ s = "int" ∨
      (∃ x, .str x ∈ vs) ∧ s = "string" := by
  rw [phpTypes, mem_ascending, List.mem_map]
  constructor
  · rintro ⟨v, hv, rfl⟩
    rw [mem_ofList] at hv
    cases v with
    | bool b => exact .inl ⟨⟨b, hv⟩, rfl⟩
    | int n => exact .inr (.inl ⟨⟨n, hv⟩, rfl⟩)
    | str x => exact .inr (.inr ⟨⟨x, hv⟩, rfl⟩)
  · rintro (⟨⟨b, hv⟩, rfl⟩ | ⟨⟨n, hv⟩, rfl⟩ | ⟨⟨x, hv⟩, rfl⟩)
    · exact ⟨_, mem_ofList.2 hv, rfl⟩
    · exact ⟨_, mem_ofList.2 hv, rfl⟩
    · exact ⟨_, mem_ofList.2 hv, rfl⟩

/-- **Sets of constants have one form.** A set is made by sorting constants and dropping those that
stand behind themselves. Its members are the constants that it was made from, in strictly ascending
order, and there are as many as there are different constants. Sets that were made from the same
constants are equal, are written as the same literal type in all languages, and can be told from
other sets by their type in Python and in TypeScript. The plain PHP types of the members ascend
strictly, and are those of the kinds that occur. -/
theorem ofList_canonical (vs : List Literal) :
    (ofList vs).values = (vs.mergeSort fun a b => a.sortKey ≤ b.sortKey).destutter (· ≠ ·) ∧
    ((ofList vs).values.Pairwise Literal.Precedes ∧ ∀ v, v ∈ (ofList vs).values ↔ v ∈ vs) ∧
    (∀ ws : List Literal, [
      ofList vs = ofList ws,
      (∀ v, v ∈ vs ↔ v ∈ ws),
      (∀ t, (Ty.literal (ofList vs)).texts t = (Ty.literal (ofList ws)).texts t),
      (∃ t ≠ .php, (Ty.literal (ofList vs)).texts t = (Ty.literal (ofList ws)).texts t)].TFAE) ∧
    (ofList vs).size = vs.toFinset.card ∧
    (ofList vs).phpTypes.Pairwise (· < ·) ∧
    ∀ s, s ∈ (ofList vs).phpTypes ↔ (∃ b, .bool b ∈ vs) ∧ s = "bool" ∨
      (∃ n, .int n ∈ vs) ∧ s = "int" ∨ (∃ x, .str x ∈ vs) ∧ s = "string" := by
  refine ⟨ascending_eq_destutter_mergeSort Literal.sortKey Literal.sortKey_lt_sortKey vs,
    ⟨(pairwise_ascending vs).imp Literal.lt_iff_precedes.1, fun v => mem_ofList⟩, fun ws => ?_,
    length_ascending vs, pairwise_ascending _, fun s => mem_phpTypes_ofList⟩
  tfae_have 1 ↔ 2 := ofList_eq_ofList_iff
  tfae_have 1 → 3 := by
    intro hsets t
    rw [hsets]
  tfae_have 3 → 4 := by
    intro htexts
    exact ⟨.python, Target.noConfusion, htexts .python⟩
  tfae_have 4 → 1 := by
    rintro ⟨t, ht, htexts⟩
    exact eq_of_texts_eq ht htexts
  tfae_finish

/-- Texts are compared by their code points, whatever the units in which they are stored. -/
example : (ofList [.str "😀", .int 0, .str "\uff61", .bool false, .str "", .bool true,
    .int (-9223372036854775808), .str "\uff61"]).values =
    [.bool true, .bool false, .int (-9223372036854775808), .int 0, .str "", .str "\uff61",
      .str "😀"] := by
  decide

end LiteralSet

end Polyglot
