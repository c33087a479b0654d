/-!
# Strictly ascending lists

A list of values without order or multiplicity is written out as the one strictly ascending list
with the same members. Values under keys are kept in a list of pairs whose keys ascend.

* `mem_ascending` : nothing is lost and nothing is added.
* `ascending_pairwise` : the result is strictly ascending.
-/

set_option autoImplicit false

namespace Polyglot

variable {α : Type} [LT α] [DecidableLT α]

/-- Puts a value at its place in an ascending list; a value that is there already stays single. -/
def insertAscending [DecidableEq α] (a : α) : List α → List α
  | [] => [a]
  | b :: bs => if a < b then a :: b :: bs else if a = b then b :: bs else b :: insertAscending a bs

/-- The strictly ascending list of the values of a list. -/
def ascending [DecidableEq α] (xs : List α) : List α := xs.foldr insertAscending []

/-- Changes the value under a key, in a list of pairs whose keys ascend. A key that is not there yet
gets its place among the others, with a value that is changed from the given one. -/
def updateEntry {β : Type} [DecidableEq α] (key : α) (fresh : β) (change : β → β) :
    List (α × β) → List (α × β)
  | [] => [(key, change fresh)]
  | entry :: entries =>
    if key < entry.1 then (key, change fresh) :: entry :: entries
    else if key = entry.1 then (entry.1, change entry.2) :: entries
    else entry :: updateEntry key fresh change entries

section

variable [DecidableEq α]

theorem mem_insertAscending {a x : α} {xs : List α} :
    x ∈ insertAscending a xs ↔ x = a ∨ x ∈ xs := by
  induction xs with
  | nil => simp [insertAscending]
  | cons b bs ih => grind [insertAscending]

theorem mem_ascending {x : α} {xs : List α} : x ∈ ascending xs ↔ x ∈ xs := by
  induction xs with
  | nil => simp [ascending]
  | cons a as ih =>
      have h : ascending (a :: as) = insertAscending a (ascending as) := rfl
      rw [h, mem_insertAscending, ih, List.mem_cons]

/-- Insertion keeps a list strictly ascending, in any order that is transitive and total. -/
theorem insertAscending_pairwise (trans : ∀ {a b c : α}, a < b → b < c → a < c)
    (total : ∀ {a b : α}, ¬a < b → a ≠ b → b < a) {a : α} {xs : List α}
    (h : xs.Pairwise (· < ·)) : (insertAscending a xs).Pairwise (· < ·) := by
  induction xs with
  | nil => simp [insertAscending]
  | cons b bs ih =>
      obtain ⟨hb, hbs⟩ := List.pairwise_cons.1 h
      unfold insertAscending
      split
      next hab =>
        refine List.pairwise_cons.2 ⟨fun x hx => ?_, h⟩
        rcases List.mem_cons.1 hx with rfl | hx
        · exact hab
        · exact trans hab (hb x hx)
      next hab =>
        split
        next => exact h
        next hne =>
          refine List.pairwise_cons.2 ⟨fun x hx => ?_, ih hbs⟩
          rcases mem_insertAscending.1 hx with rfl | hx
          · exact total hab hne
          · exact hb x hx

/-- The result is strictly ascending, in any order that is transitive and total. -/
theorem ascending_pairwise (trans : ∀ {a b c : α}, a < b → b < c → a < c)
    (total : ∀ {a b : α}, ¬a < b → a ≠ b → b < a) (xs : List α) :
    (ascending xs).Pairwise (· < ·) := by
  induction xs with
  | nil => exact List.Pairwise.nil
  | cons a as ih => exact insertAscending_pairwise trans total ih

end

end Polyglot
