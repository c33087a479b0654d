import Mathlib.Data.String.Basic
import Polyglot.Import
import Polyglot.Proofs.Ascending

/-!
# Listing requirements module by module

In PHP the names of a module are collected in a list, in the order in which they are met, and sorted
when all of them are known. Each step keeps the modules ascending and no name twice, so what is
listed in the end is the strictly ascending list of the requirements.

* `ImportUses.Lists` : which uses hold each requirement once.
* `ImportUses.Lists.add`, `ImportUses.Lists.addAll` : what a step and a run keep.
* `ImportUses.requirements_addAll` : **what is listed** is the ascending list.
-/

set_option autoImplicit false

namespace Polyglot

namespace Import

/-! ## The order of requirements -/

theorem nameBefore_irrefl (n : Option String) : nameBefore n n = false := by
  cases n with
  | none => rfl
  | some name => exact decide_eq_false (String.lt_irrefl name)

protected theorem lt_irrefl (i : Import) : ¬i < i := by
  rw [lt_iff, nameBefore_irrefl]
  rintro (h | ⟨_, h⟩)
  · exact String.lt_irrefl _ h
  · cases h

theorem nameBefore_asymm {a b : Option String} (h : nameBefore a b = true) :
    nameBefore b a = false :=
  Bool.eq_false_iff.2 fun hba => by
    have haa := nameBefore_trans h hba
    rw [nameBefore_irrefl] at haa
    cases haa

/-- A name that stands before another one stands before all that do not stand before that one. -/
theorem nameBefore_of_before_of_not {a b c : Option String} (h : nameBefore a b = true)
    (hcb : ¬nameBefore c b = true) : nameBefore a c = true := by
  by_cases hbc : b = c
  · exact hbc ▸ h
  · exact nameBefore_trans h (nameBefore_of_not hcb (Ne.symm hbc))

instance : IsStrictTotalOrder Import (· < ·) where
  irrefl := Import.lt_irrefl
  trans _ _ _ := Import.lt_trans
  trichotomous _ _ hab hba := Decidable.byContradiction fun hne => hba (Import.lt_of_not_lt hab hne)

end Import

namespace ImportUses

open Import

/-! ## One requirement, and several -/

/-- The uses hold every requirement, and no module has a name twice. -/
structure Lists (uses : ImportUses) (is : List Import) : Prop where
  mem : ∀ m n, (∃ ns, (m, ns) ∈ uses ∧ n ∈ ns) ↔ ⟨m, n⟩ ∈ is
  modules_ascending : uses.Pairwise fun a b => a.1 < b.1
  names_nodup : ∀ use ∈ uses, use.2.Nodup

namespace Lists

variable {uses : ImportUses} {is : List Import}

theorem empty : Lists [] [] where
  mem _ _ := iff_of_false (fun ⟨_, hmem, _⟩ => List.not_mem_nil hmem) List.not_mem_nil
  modules_ascending := .nil
  names_nodup := List.forall_mem_nil _

/-- Uses to which a requirement is added hold it, too. -/
theorem add (h : uses.Lists is) (i : Import) : (uses.add i).Lists (is ++ [i]) where
  mem m n := by
    have hadded : (∃ ns, (m, ns) ∈ uses.add i ∧ n ∈ ns) ↔
        (m = i.module ∧ n = i.name) ∨ ∃ ns, (m, ns) ∈ uses ∧ n ∈ ns :=
      exists_mem_updateEntry List.not_mem_nil fun ns => by
        split
        next hmem =>
          exact ⟨.inr, fun hn => hn.elim (fun heq => heq ▸ List.contains_iff_mem.1 hmem) id⟩
        next => rw [List.mem_append, List.mem_singleton, or_comm]
    rw [hadded, h.mem, List.mem_append, List.mem_singleton, or_comm]
    cases i
    rw [Import.mk.injEq]
  modules_ascending := pairwise_updateEntry h.modules_ascending
  names_nodup := by
    refine forall_mem_updateEntry (P := List.Nodup) ?_ (fun ns hns => ?_) h.names_nodup
    · simp
    · split
      next => exact hns
      next hnew => exact hns.append (List.nodup_singleton _) (by simpa using hnew)

/-- Uses to which requirements are added hold all of them. -/
theorem addAll (h : uses.Lists is) (js : List Import) : (uses.addAll js).Lists (is ++ js) := by
  induction js generalizing uses is with
  | nil =>
      rw [List.append_nil]
      exact h
  | cons i js ih =>
      have hrest := ih (h.add i)
      rw [List.append_assoc] at hrest
      exact hrest

end Lists

/-! ## The order in which they are listed -/

theorem mem_sorted {n : Option String} {ns : List (Option String)} : n ∈ sorted ns ↔ n ∈ ns :=
  List.mem_mergeSort

/-- Names that are sorted and of which none stands twice ascend strictly. -/
theorem pairwise_sorted {ns : List (Option String)} (h : ns.Nodup) :
    (sorted ns).Pairwise fun a b => nameBefore a b = true := by
  have hsorted : (sorted ns).Pairwise fun a b => (!nameBefore b a) = true := by
    refine List.pairwise_mergeSort (fun a b c hab hbc => ?_) (fun a b => ?_) ns
    · rw [Bool.not_eq_true', ← Bool.not_eq_true] at *
      exact fun hca => hbc (nameBefore_of_before_of_not hca hab)
    · cases hba : nameBefore b a with
      | false => rfl
      | true => rw [nameBefore_asymm hba]; rfl
  have hnodup : (sorted ns).Nodup := (List.mergeSort_perm _ _).nodup_iff.2 h
  refine (hsorted.and hnodup).imp fun {a b} hab => ?_
  exact nameBefore_of_not (by simpa using hab.1) hab.2.symm

namespace Lists

variable {uses : ImportUses} {is : List Import}

theorem mem_requirements (h : uses.Lists is) (i : Import) : i ∈ uses.requirements ↔ i ∈ is := by
  rw [← h.mem i.module i.name, requirements]
  simp only [List.mem_flatMap, List.mem_map, mem_sorted]
  constructor
  · rintro ⟨⟨m, ns⟩, huse, n, hn, rfl⟩
    exact ⟨ns, huse, hn⟩
  · rintro ⟨ns, huse, hn⟩
    exact ⟨(i.module, ns), huse, i.name, hn, rfl⟩

/-- Module by module, and within a module name by name. -/
theorem pairwise_requirements (h : uses.Lists is) : uses.requirements.Pairwise (· < ·) := by
  refine List.pairwise_flatMap.2 ⟨fun use huse => ?_, h.modules_ascending.imp fun {a b} hab => ?_⟩
  · refine List.pairwise_map.2 ((pairwise_sorted (h.names_nodup use huse)).imp fun {a b} hab => ?_)
    exact lt_iff.2 (.inr ⟨rfl, hab⟩)
  · intro i hi j hj
    obtain ⟨n, -, rfl⟩ := List.mem_map.1 hi
    obtain ⟨n', -, rfl⟩ := List.mem_map.1 hj
    exact lt_iff.2 (.inl hab)

end Lists

/-- **What is listed** is the strictly ascending list of what was required. -/
theorem requirements_addAll (is : List Import) : (addAll [] is).requirements = ascending is := by
  have h := Lists.empty.addAll is
  exact (ascending_eq_iff.2 ⟨h.pairwise_requirements, h.mem_requirements⟩).symm

/-- Nothing is listed just if nothing was met. -/
theorem isEmpty_requirements_addAll (is : List Import) :
    (addAll [] is).requirements.isEmpty = (addAll [] is).isEmpty := by
  cases is with
  | nil => rfl
  | cons i is =>
      have hmem := (Lists.empty.addAll (i :: is)).mem_requirements i
      have hlisted : i ∈ (addAll [] (i :: is)).requirements := hmem.2 List.mem_cons_self
      cases huses : addAll [] (i :: is) with
      | nil => rw [huses] at hlisted; cases hlisted
      | cons use uses =>
          rw [huses] at hlisted
          exact List.isEmpty_eq_false_iff.2 (List.ne_nil_of_mem hlisted)

end ImportUses

end Polyglot
