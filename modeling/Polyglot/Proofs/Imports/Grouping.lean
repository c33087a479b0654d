import Mathlib.Data.List.Dedup
import Mathlib.Data.String.Basic
import Polyglot.Import
import Polyglot.Proofs.Ascending

/-!
# Grouping requirements

Requirements are put into groups one after the other: a whole module to the whole modules, a name to
the names of its module. Each step keeps the groups ascending and adds the requirement if it is not
there, so after any number of steps the groups hold what was required, and no other groups do.

* `ImportGroups.Lists` : which groups hold each requirement once, in ascending order.
* `ImportGroups.Lists.add`, `ImportGroups.Lists.addAll` : what a step and a run keep.
* `ImportGroups.Lists.mem_names_iff`, `ImportGroups.Lists.unique` : groups are determined by what
  they list.
* `ImportGroups.requirements` : the requirements that groups hold.
* `Import.grouped_canonical` : **grouping drops repetitions and sorts**, and does nothing else.
-/

set_option autoImplicit false

namespace Polyglot

/-- The groups hold every requirement once, in strictly ascending order. -/
structure ImportGroups.Lists (g : ImportGroups) (is : List Import) : Prop where
  mem_modules : ∀ m, m ∈ g.modules ↔ .whole m ∈ is
  modules_ascending : g.modules.Pairwise (· < ·)
  mem_names : ∀ m n, (∃ ns, (m, ns) ∈ g.names ∧ n ∈ ns) ↔ .named m n ∈ is
  groups_ascending : g.names.Pairwise fun a b => a.1 < b.1
  names_ascending : ∀ group ∈ g.names, group.2 ≠ [] ∧ group.2.Pairwise (· < ·)

/-- Requirements are grouped into groups that list them. -/
theorem Import.lists_grouped (is : List Import) : (grouped is).Lists is where
  mem_modules _ := mem_wholeModules
  modules_ascending := pairwise_ascending _
  mem_names m n := by
    constructor
    · rintro ⟨ns, hns, hn⟩
      obtain ⟨m', _, h⟩ := List.mem_map.1 hns
      obtain ⟨rfl, rfl⟩ := Prod.mk.inj h
      exact mem_namesFrom.1 hn
    · intro h
      exact ⟨_, List.mem_map.2 ⟨m, mem_namedModules.2 ⟨n, h⟩, rfl⟩, mem_namesFrom.2 h⟩
  groups_ascending := List.pairwise_map.2 (pairwise_ascending _)
  names_ascending group hgroup := by
    obtain ⟨m, hm, rfl⟩ := List.mem_map.1 hgroup
    obtain ⟨n, hn⟩ := mem_namedModules.1 hm
    exact ⟨List.ne_nil_of_mem (mem_namesFrom.2 hn), pairwise_ascending _⟩

namespace ImportGroups

/-- The requirements that the groups hold, in the order in which they are listed. -/
def requirements (g : ImportGroups) : List Import :=
  g.modules.map .whole ++ g.names.flatMap fun group => group.2.map (.named group.1)

/-! ## One requirement, and several -/

namespace Lists

variable {g g' : ImportGroups} {is : List Import}

/-- Groups to which a requirement is added list the requirement, too. -/
theorem add (h : g.Lists is) (i : Import) : (g.add i).Lists (is ++ [i]) := by
  obtain ⟨module, name⟩ := i
  cases name with
  | none =>
      refine ⟨fun m => ?_, ?_, fun m n => ?_, h.groups_ascending, h.names_ascending⟩
      · show m ∈ insertAscending module g.modules ↔ _
        rw [mem_insertAscending, h.mem_modules, List.mem_append, List.mem_singleton, or_comm]
        simp [Import.whole]
      · exact pairwise_insertAscending module h.modules_ascending
      · show (∃ ns, (m, ns) ∈ g.names ∧ n ∈ ns) ↔ _
        rw [h.mem_names, List.mem_append, List.mem_singleton]
        simp [Import.named]
  | some name =>
      refine ⟨fun m => ?_, h.modules_ascending, fun m n => ?_, ?_, ?_⟩
      · show m ∈ g.modules ↔ _
        rw [h.mem_modules, List.mem_append, List.mem_singleton]
        simp [Import.whole]
      · have hadded : (∃ ns, (m, ns) ∈ updateEntry module [] (insertAscending name) g.names ∧
            n ∈ ns) ↔ (m = module ∧ n = name) ∨ ∃ ns, (m, ns) ∈ g.names ∧ n ∈ ns :=
          exists_mem_updateEntry List.not_mem_nil fun ns => mem_insertAscending
        show (∃ ns, (m, ns) ∈ updateEntry module [] (insertAscending name) g.names ∧ n ∈ ns) ↔ _
        rw [hadded, h.mem_names, List.mem_append, List.mem_singleton, or_comm]
        simp [Import.named]
      · exact pairwise_updateEntry h.groups_ascending
      · have hsingle : insertAscending name [] ≠ [] ∧ (insertAscending name []).Pairwise (· < ·) :=
          ⟨List.cons_ne_nil _ _, List.pairwise_singleton _ _⟩
        have hinsert (ns : List String) (hns : ns ≠ [] ∧ ns.Pairwise (· < ·)) :
            insertAscending name ns ≠ [] ∧ (insertAscending name ns).Pairwise (· < ·) :=
          ⟨List.ne_nil_of_mem (mem_insertAscending.2 (.inl rfl)),
            pairwise_insertAscending name hns.2⟩
        exact forall_mem_updateEntry (P := fun ns => ns ≠ [] ∧ ns.Pairwise (· < ·)) hsingle hinsert
          h.names_ascending

/-- Groups to which requirements are added list all of them. -/
theorem addAll (h : g.Lists is) (js : List Import) : (g.addAll js).Lists (is ++ js) := by
  induction js generalizing g is with
  | nil =>
      rw [List.append_nil]
      exact h
  | cons i js ih =>
      have hrest := ih (h.add i)
      rw [List.append_assoc] at hrest
      exact hrest

theorem empty : ImportGroups.empty.Lists [] where
  mem_modules _ := iff_of_false List.not_mem_nil List.not_mem_nil
  modules_ascending := .nil
  mem_names _ _ := iff_of_false (fun ⟨_, hmem, _⟩ => List.not_mem_nil hmem) List.not_mem_nil
  groups_ascending := .nil
  names_ascending := List.forall_mem_nil _

/-! ## What groups list -/

/-- No module has two groups. -/
theorem nodup_fst (h : g.Lists is) : (g.names.map Prod.fst).Nodup :=
  (List.pairwise_map.2 h.groups_ascending).nodup

/-- The names in a group are the ones that are required from its module. -/
theorem mem_iff_of_mem_names (h : g.Lists is) {m : String} {ns : List String}
    (hgroup : (m, ns) ∈ g.names) (n : String) : n ∈ ns ↔ .named m n ∈ is := by
  constructor
  · intro hn
    exact (h.mem_names m n).1 ⟨ns, hgroup, hn⟩
  · intro hn
    obtain ⟨ns', hgroup', hn'⟩ := (h.mem_names m n).2 hn
    obtain ⟨-, rfl⟩ := Prod.mk.inj (List.inj_on_of_nodup_map h.nodup_fst hgroup hgroup' rfl)
    exact hn'

/-- A group is a module with the ascending list of the names that are required from it, if there are
any. -/
theorem mem_names_iff (h : g.Lists is) (m : String) (ns : List String) :
    (m, ns) ∈ g.names ↔ ns ≠ [] ∧ ns.Pairwise (· < ·) ∧ ∀ n, n ∈ ns ↔ .named m n ∈ is := by
  constructor
  · intro hgroup
    obtain ⟨hne, hascending⟩ := h.names_ascending _ hgroup
    exact ⟨hne, hascending, h.mem_iff_of_mem_names hgroup⟩
  · rintro ⟨hne, hascending, hmem⟩
    obtain ⟨n, hn⟩ := List.exists_mem_of_ne_nil ns hne
    obtain ⟨ns', hgroup, -⟩ := (h.mem_names m n).2 ((hmem n).1 hn)
    have hsame : ns' = ns := by
      refine (h.names_ascending _ hgroup).2.eq_of_mem_iff hascending fun n => ?_
      rw [h.mem_iff_of_mem_names hgroup, hmem]
    exact hsame ▸ hgroup

/-- A module has a group if some name is required from it. -/
theorem mem_map_fst (h : g.Lists is) (m : String) :
    m ∈ g.names.map Prod.fst ↔ ∃ n, .named m n ∈ is := by
  constructor
  · intro hm
    obtain ⟨⟨m, ns⟩, hgroup, rfl⟩ := List.mem_map.1 hm
    obtain ⟨n, hn⟩ := List.exists_mem_of_ne_nil ns (h.names_ascending _ hgroup).1
    exact ⟨n, (h.mem_names m n).1 ⟨ns, hgroup, hn⟩⟩
  · rintro ⟨n, hn⟩
    obtain ⟨ns, hgroup, -⟩ := (h.mem_names m n).2 hn
    exact List.mem_map.2 ⟨_, hgroup, rfl⟩

/-- Order and multiplicity of the requirements make no difference. -/
theorem congr {js : List Import} (h : g.Lists is) (hmem : ∀ i, i ∈ is ↔ i ∈ js) : g.Lists js where
  mem_modules m := (h.mem_modules m).trans (hmem _)
  modules_ascending := h.modules_ascending
  mem_names m n := (h.mem_names m n).trans (hmem _)
  groups_ascending := h.groups_ascending
  names_ascending := h.names_ascending

/-- Groups that list the same requirements are the same. -/
theorem unique (h : g.Lists is) (h' : g'.Lists is) : g = g' := by
  have hirrefl : Std.Irrefl fun a b : String × List String => a.1 < b.1 :=
    ⟨fun a => lt_irrefl a.1⟩
  have hantisymm : Std.Antisymm fun a b : String × List String => a.1 < b.1 :=
    ⟨fun a b hab hba => absurd (lt_trans hab hba) (lt_irrefl a.1)⟩
  have hmodules : g.modules = g'.modules :=
    h.modules_ascending.eq_of_mem_iff h'.modules_ascending fun m => by
      rw [h.mem_modules, h'.mem_modules]
  have hnames : g.names = g'.names :=
    h.groups_ascending.eq_of_mem_iff h'.groups_ascending fun group => by
      rw [h.mem_names_iff, h'.mem_names_iff]
  cases g
  cases g'
  cases hmodules
  cases hnames
  rfl

/-! ## Requirements read back -/

/-- The groups hold the requirements that they list. -/
theorem mem_requirements (h : g.Lists is) (i : Import) : i ∈ g.requirements ↔ i ∈ is := by
  obtain ⟨module, name⟩ := i
  rw [requirements, List.mem_append, List.mem_map, List.mem_flatMap]
  cases name with
  | none =>
      rw [or_iff_left]
      · simp [Import.whole, h.mem_modules]
      · rintro ⟨group, -, hname⟩
        obtain ⟨n, -, hn⟩ := List.mem_map.1 hname
        cases hn
  | some name =>
      rw [or_iff_right]
      · rw [← Import.named, ← h.mem_names]
        simp [Import.named]
      · rintro ⟨m, -, hm⟩
        cases hm

/-- The groups hold no requirement twice. -/
theorem nodup_requirements (h : g.Lists is) : g.requirements.Nodup := by
  have hmodules : (g.modules.map Import.whole).Nodup :=
    h.modules_ascending.nodup.map fun m m' hm => (Import.mk.inj hm).1
  have hnames : (g.names.flatMap fun group => group.2.map (Import.named group.1)).Nodup := by
    refine List.nodup_flatMap.2 ⟨fun group hgroup => ?_, ?_⟩
    · refine (h.names_ascending group hgroup).2.nodup.map fun n n' hn => ?_
      exact Option.some.inj (Import.mk.inj hn).2
    · refine h.groups_ascending.imp fun {a b} hab i ha hb => ?_
      obtain ⟨n, -, rfl⟩ := List.mem_map.1 ha
      obtain ⟨n', -, hn'⟩ := List.mem_map.1 hb
      exact hab.ne (Import.mk.inj hn').1.symm
  refine hmodules.append hnames fun i hwhole hnamed => ?_
  obtain ⟨m, -, rfl⟩ := List.mem_map.1 hwhole
  obtain ⟨group, -, hgroup⟩ := List.mem_flatMap.1 hnamed
  obtain ⟨n, -, hn⟩ := List.mem_map.1 hgroup
  cases hn

theorem isEmpty_iff (h : g.Lists is) : g.isEmpty = true ↔ is = [] := by
  constructor
  · intro hempty
    obtain ⟨hmodules, hnames⟩ := Bool.and_eq_true_iff.1 hempty
    have hnone : g.requirements = [] := by
      rw [requirements, List.isEmpty_iff.1 hmodules, List.isEmpty_iff.1 hnames]
      rfl
    refine List.eq_nil_iff_forall_not_mem.2 fun i hi => ?_
    rw [← h.mem_requirements, hnone] at hi
    exact List.not_mem_nil hi
  · rintro rfl
    rw [h.unique empty]
    rfl

end Lists

end ImportGroups

theorem ImportGroups.addAll_empty (is : List Import) : empty.addAll is = Import.grouped is :=
  (Lists.empty.addAll is).unique (Import.lists_grouped is)

namespace Import

open ImportGroups

/-- The grouped form depends on the set of requirements alone. -/
theorem grouped_eq_of_mem_iff {is js : List Import} (h : ∀ i, i ∈ is ↔ i ∈ js) :
    grouped is = grouped js :=
  ((lists_grouped is).congr h).unique (lists_grouped js)

/-- **Grouping drops repetitions and sorts.** Requirements that are put into groups one after the
other come to the groups of all of them. The modules that are required as a whole ascend. The
modules from which some name is required ascend, too, each with the ascending list of these names,
which is not empty. Two lists of requirements come to the same groups if and only if they have the
same members, and to empty groups if there is nothing in them. What the groups hold is the list
without repetitions, in another order, and comes to the same groups again. -/
theorem grouped_canonical (is : List Import) :
    ImportGroups.empty.addAll is = grouped is ∧
    ((grouped is).modules.Pairwise (· < ·) ∧ ∀ m, m ∈ (grouped is).modules ↔ whole m ∈ is) ∧
    ((grouped is).names.Pairwise (fun a b => a.1 < b.1) ∧
      (∀ m, m ∈ (grouped is).names.map Prod.fst ↔ ∃ n, named m n ∈ is) ∧
      ∀ m ns, (m, ns) ∈ (grouped is).names ↔
        ns ≠ [] ∧ ns.Pairwise (· < ·) ∧ ∀ n, n ∈ ns ↔ named m n ∈ is) ∧
    (∀ js, grouped is = grouped js ↔ ∀ i, i ∈ is ↔ i ∈ js) ∧
    ((grouped is).isEmpty = true ↔ is = []) ∧
    (grouped is).requirements.Perm is.dedup ∧
    grouped (grouped is).requirements = grouped is := by
  have h : (grouped is).Lists is := lists_grouped is
  refine ⟨?_, ⟨h.modules_ascending, h.mem_modules⟩,
    ⟨h.groups_ascending, h.mem_map_fst, h.mem_names_iff⟩, fun js => ⟨fun hsame i => ?_, ?_⟩,
    h.isEmpty_iff, ?_, ?_⟩
  · exact ImportGroups.addAll_empty is
  · rw [← h.mem_requirements, hsame, (lists_grouped js).mem_requirements]
  · exact grouped_eq_of_mem_iff
  · rw [List.perm_ext_iff_of_nodup h.nodup_requirements is.nodup_dedup]
    intro i
    rw [h.mem_requirements, List.mem_dedup]
  · exact grouped_eq_of_mem_iff h.mem_requirements

example : grouped [.named "typing" "Union", .whole "abc", .named "typing" "List",
    .named "module1" "Foo", .named "typing" "List", .whole "abc"] =
    ⟨["abc"], [("module1", ["Foo"]), ("typing", ["List", "Union"])]⟩ := by
  decide

end Import

end Polyglot
