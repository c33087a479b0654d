import Polyglot.Proofs.Expr.Token

/-!
# Identifiers in a text

The identifiers in a text are its longest runs of word characters, less those that begin with a
digit. They are found piece by piece where the pieces do not run into each other.

* `Text.identifiers` : the identifiers, in order and with repetitions.
* `Text.identifiers_between` : what stands between two pieces, and is not made of word characters,
  keeps them apart.
* `Text.identifiers_self`, `Text.identifiers_int` : an identifier and a number.
-/

set_option autoImplicit false

namespace Polyglot.Text

/-- The longest runs of word characters that are identifiers. -/
def identifiersOf (cs : List Char) : List String :=
  ((cs.splitOnP fun c => !isWordChar c).map String.ofList).filter isIdentifier

/-- The identifiers in a text, in order. -/
def identifiers (s : String) : List String := identifiersOf s.toList

/-- The text has characters, and none of them is a word character. -/
def IsGap (s : String) : Prop := s ≠ "" ∧ ∀ c ∈ s.toList, isWordChar c = false

-- The characters of the text are looked at, not all characters there are.
instance (s : String) : Decidable (IsGap s) :=
  @instDecidableAnd _ _ inferInstance (List.decidableBAll _ s.toList)

theorem identifiersOf_append_cons {c : Char} (hc : isWordChar c = false) (cs ds : List Char) :
    identifiersOf (cs ++ c :: ds) = identifiersOf cs ++ identifiersOf ds := by
  rw [identifiersOf, List.splitOnP_append_cons cs ds (by simp [hc]), List.map_append,
    List.filter_append]
  rfl

@[simp] theorem identifiers_empty : identifiers "" = [] := rfl

/-- Characters of a gap belong to no identifier. -/
theorem identifiersOf_gap {cs : List Char} (hcs : ∀ c ∈ cs, isWordChar c = false) (ds : List Char) :
    identifiersOf (cs ++ ds) = identifiersOf ds := by
  induction cs with
  | nil => rfl
  | cons c cs ih =>
      have hc := identifiersOf_append_cons (hcs c (List.mem_cons_self ..)) [] (cs ++ ds)
      rw [List.cons_append, ← ih fun d hd => hcs d (List.mem_cons_of_mem _ hd)]
      exact hc

/-- A gap keeps the identifiers on its two sides apart. -/
theorem identifiers_between {gap : String} (hgap : IsGap gap) (a b : String) :
    identifiers (a ++ gap ++ b) = identifiers a ++ identifiers b := by
  have hne : gap.toList ≠ [] := fun h => hgap.1 (String.toList_eq_nil_iff.1 h)
  obtain ⟨c, cs, hchars⟩ := List.exists_cons_of_ne_nil hne
  have hall := hgap.2
  rw [hchars] at hall
  rw [identifiers, String.toList_append, String.toList_append, List.append_assoc, hchars,
    List.cons_append, identifiersOf_append_cons (hall c (List.mem_cons_self ..)),
    identifiersOf_gap fun d hd => hall d (List.mem_cons_of_mem _ hd)]
  rfl

/-- A gap at the end of a text changes nothing. -/
theorem identifiers_append_gap {gap : String} (hgap : IsGap gap) (a : String) :
    identifiers (a ++ gap) = identifiers a := by
  have h := identifiers_between hgap a ""
  rwa [String.append_empty, identifiers_empty, List.append_nil] at h

theorem identifiers_intercalate {sep : String} (hsep : IsGap sep) (ss : List String) :
    identifiers (sep.intercalate ss) = ss.flatMap identifiers := by
  induction ss with
  | nil => rfl
  | cons s ss ih =>
      by_cases hnil : ss = []
      · simp [hnil]
      · rw [String.intercalate_cons_of_ne_nil hnil, identifiers_between hsep, ih,
          List.flatMap_cons]

/-- A run of word characters is the only one in itself. -/
theorem identifiersOf_run {cs : List Char} (h : ∀ c ∈ cs, isWordChar c = true) :
    identifiersOf cs = [String.ofList cs].filter isIdentifier := by
  rw [identifiersOf, List.splitOnP_eq_singleton fun c hc => by simp [h c hc]]
  rfl

theorem identifiers_self {s : String} (h : isIdentifier s = true) : identifiers s = [s] := by
  rw [identifiers, identifiersOf_run (isWordChar_of_mem h), String.ofList_toList]
  simp [h]

/-- A number has no identifier in it. -/
theorem identifiers_int (n : Int) : identifiers (toString n) = [] := by
  obtain ⟨d, ds, hdigits, hchars⟩ := Token.exists_digits n
  have hrun : identifiersOf (d :: ds) = [] := by
    have hletter : isLetter d = false := by
      cases h : isLetter d with
      | false => rfl
      | true =>
          have hd := hdigits d (List.mem_cons_self ..)
          rw [Token.not_isDigit_of_isLetter h] at hd
          cases hd
    rw [identifiersOf_run fun c hc => Token.isWordChar_of_isDigit (hdigits c hc)]
    simp [isIdentifier, hletter]
  show identifiersOf n.repr.toList = []
  rcases hchars with h | h
  · rw [h, hrun]
  · rw [h]
    exact (identifiersOf_append_cons (c := '-') rfl [] (d :: ds)).trans hrun

end Polyglot.Text
