import Mathlib.Data.Finset.Card
import Mathlib.Data.List.Destutter
import Mathlib.Data.List.Sort
import Polyglot.Ascending

/-!
# Ascending lists are canonical

The strictly ascending list of the values of a list is the only one with these members, so it stands
for their set: it depends on nothing else, is as long as the set is large, and does not depend on
how it is made.

* `ascending_eq_iff` : the list is the only one that ascends strictly and has these members.
* `ascending_eq_ascending_iff`, `length_ascending` : the list stands for the set.
* `ascending_eq_destutter_mergeSort` : sorting by a key and dropping repetitions makes the list.
* `pairwise_updateEntry`, `forall_mem_updateEntry`, `exists_mem_updateEntry` : what a change under a
  key keeps and adds.
-/

set_option autoImplicit false

namespace Polyglot

variable {α : Type} [LT α]

theorem gt_of_not_lt_of_ne [IsStrictTotalOrder α (· < ·)] {a b : α} (hab : ¬a < b) (hne : a ≠ b) :
    b < a := by
  rcases trichotomous_of (· < ·) a b with h | h | h
  · exact absurd h hab
  · exact absurd h hne
  · exact h

variable [DecidableLT α] [DecidableEq α]

section

variable [IsStrictTotalOrder α (· < ·)]

theorem pairwise_insertAscending (a : α) {xs : List α} (h : xs.Pairwise (· < ·)) :
    (insertAscending a xs).Pairwise (· < ·) :=
  insertAscending_pairwise (fun hab hbc => trans_of (· < ·) hab hbc) gt_of_not_lt_of_ne h

theorem pairwise_ascending (xs : List α) : (ascending xs).Pairwise (· < ·) :=
  ascending_pairwise (fun hab hbc => trans_of (· < ·) hab hbc) gt_of_not_lt_of_ne xs

/-- The list of the values of a list is the only one that ascends strictly and has these members. -/
theorem ascending_eq_iff {xs l : List α} :
    ascending xs = l ↔ l.Pairwise (· < ·) ∧ ∀ a, a ∈ l ↔ a ∈ xs := by
  constructor
  · rintro rfl
    exact ⟨pairwise_ascending xs, fun a => mem_ascending⟩
  · intro ⟨hl, hmem⟩
    refine (pairwise_ascending xs).eq_of_mem_iff hl fun a => ?_
    rw [mem_ascending, hmem]

/-- Order and multiplicity make no difference. -/
theorem ascending_eq_ascending_iff {as bs : List α} :
    ascending as = ascending bs ↔ ∀ a, a ∈ as ↔ a ∈ bs := by
  rw [ascending_eq_iff, and_iff_right (pairwise_ascending bs)]
  simp only [mem_ascending]
  exact forall_congr' fun a => Iff.comm

/-- The list holds each value once. -/
theorem length_ascending (xs : List α) : (ascending xs).length = xs.toFinset.card := by
  have hset : xs.toFinset = (ascending xs).toFinset := by
    ext a
    rw [List.mem_toFinset, List.mem_toFinset, mem_ascending]
  rw [hset, List.toFinset_card_of_nodup (pairwise_ascending xs).nodup]

/-- Where an order is the order of a key, sorting by the key puts equal values side by side, and the
list is what is left when a value is dropped that stands behind itself. -/
theorem ascending_eq_destutter_mergeSort {β : Type} [LinearOrder β] (key : α → β)
    (hkey : ∀ a b, key a < key b ↔ a < b) (xs : List α) :
    ascending xs = (xs.mergeSort fun a b => key a ≤ key b).destutter (· ≠ ·) := by
  have hinjective : Function.Injective key := by
    intro a b hab
    rcases trichotomous_of (· < ·) a b with h | h | h
    · exact absurd hab ((hkey a b).2 h).ne
    · exact h
    · exact absurd hab.symm ((hkey b a).2 h).ne
  have hantisymm : Std.Antisymm (fun a b => key a ≤ key b) :=
    ⟨fun a b hab hba => hinjective (hab.antisymm hba)⟩
  have htotal : Std.Total (fun a b => key a ≤ key b) := ⟨fun a b => le_total (key a) (key b)⟩
  have htrans : IsTrans α (fun a b => key a ≤ key b) := ⟨fun _ _ _ hab hbc => hab.trans hbc⟩
  have hsorted := List.pairwise_mergeSort' (fun a b => key a ≤ key b) xs
  rw [hsorted.destutter_eq_dedup, ascending_eq_iff]
  refine ⟨?_, fun a => by rw [List.mem_dedup, List.mem_mergeSort]⟩
  -- a sorted list in which no value is repeated ascends strictly
  refine ((hsorted.sublist (List.dedup_sublist _)).and (List.nodup_dedup _)).imp ?_
  rintro a b ⟨hle, hne⟩
  exact (hkey a b).1 (hle.lt_of_ne fun h => hne (hinjective h))

end

/-! ## Values under ascending keys -/

section

variable {β : Type} {key : α} {fresh : β} {change : β → β} {entries : List (α × β)}

theorem map_fst_updateEntry (key : α) (fresh : β) (change : β → β) (entries : List (α × β)) :
    (updateEntry key fresh change entries).map Prod.fst =
      insertAscending key (entries.map Prod.fst) := by
  induction entries with
  | nil => rfl
  | cons entry entries ih =>
      unfold updateEntry
      rw [List.map_cons, insertAscending]
      split
      next => rfl
      next =>
        split
        next => rfl
        next => rw [List.map_cons, ih]

/-- The keys keep ascending. -/
theorem pairwise_updateEntry [IsStrictTotalOrder α (· < ·)]
    (h : entries.Pairwise fun a b => a.1 < b.1) :
    (updateEntry key fresh change entries).Pairwise fun a b => a.1 < b.1 := by
  have hkeys : (entries.map Prod.fst).Pairwise (· < ·) := List.pairwise_map.2 h
  have hupdated := pairwise_insertAscending key hkeys
  rw [← map_fst_updateEntry key fresh change] at hupdated
  exact List.pairwise_map.1 hupdated

/-- What holds of all values still does if the change keeps it. -/
theorem forall_mem_updateEntry {P : β → Prop} (hfresh : P (change fresh))
    (hchange : ∀ v, P v → P (change v)) (h : ∀ entry ∈ entries, P entry.2) :
    ∀ entry ∈ updateEntry key fresh change entries, P entry.2 := by
  induction entries with
  | nil => exact List.forall_mem_singleton.2 hfresh
  | cons entry entries ih =>
      obtain ⟨hentry, hentries⟩ := List.forall_mem_cons.1 h
      unfold updateEntry
      split
      next => exact List.forall_mem_cons.2 ⟨hfresh, h⟩
      next =>
        split
        next => exact List.forall_mem_cons.2 ⟨hchange _ hentry, hentries⟩
        next => exact List.forall_mem_cons.2 ⟨hentry, ih hentries⟩

/-- What a value holds that a change adds to, under the key or under another one. -/
theorem exists_mem_updateEntry {k : α} {R : β → Prop} {added : Prop} (hfresh : ¬R fresh)
    (hchange : ∀ v, R (change v) ↔ added ∨ R v) :
    (∃ v, (k, v) ∈ updateEntry key fresh change entries ∧ R v) ↔
      (k = key ∧ added) ∨ ∃ v, (k, v) ∈ entries ∧ R v := by
  induction entries with
  | nil => simp [updateEntry, hchange, hfresh]
  | cons entry entries ih =>
      obtain ⟨key', value⟩ := entry
      unfold updateEntry
      split
      next => simp [or_and_right, exists_or, and_assoc, hchange, hfresh]
      next =>
        split
        next heq =>
          subst heq
          simp only [List.mem_cons, Prod.mk.injEq, or_and_right, exists_or, and_assoc,
            exists_and_left, exists_eq_left, hchange]
          tauto
        next =>
          simp only [List.mem_cons, or_and_right, exists_or, ih]
          exact or_left_comm

end

end Polyglot
