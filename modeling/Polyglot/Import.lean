import Polyglot.Ascending
import Polyglot.Target

/-!
# Import requirements

What a piece of code needs from other modules, and the form in which a file lists it. Requirements
are collected as they are met, with repetitions; order and multiplicity are settled once per file.

* `Import.lt_trans`, `Import.lt_of_not_lt` : requirements are totally ordered.
* `mem_wholeModules`, `mem_namedModules`, `mem_namesFrom` : the grouped form holds exactly what was
  required.
-/

set_option autoImplicit false

namespace Polyglot

/-- One requirement: a whole module, or one name in connection with it. In PHP the name is the
alias given to the module, elsewhere it is the symbol taken from it. -/
structure Import where
  module : String
  name : Option String
  deriving DecidableEq, Repr

namespace Import

def whole (module : String) : Import := ⟨module, none⟩

def named (module name : String) : Import := ⟨module, some name⟩

/-- The given names of a module, or the module itself if no name is given. -/
def each (module : String) (names : List String) : List Import :=
  if names.isEmpty then [whole module] else names.map (named module)

/-- No name before any name, and names by code points. -/
def nameBefore : Option String → Option String → Bool
  | none, some _ => true
  | some a, some b => decide (a < b)
  | _, none => false

/-- By module; within a module the module itself comes first and its names follow. -/
def before (a b : Import) : Bool :=
  decide (a.module < b.module) || (a.module = b.module && nameBefore a.name b.name)

instance : LT Import := ⟨fun a b => a.before b = true⟩

instance : DecidableLT Import := fun a b => inferInstanceAs (Decidable (a.before b = true))

theorem lt_iff {a b : Import} :
    a < b ↔ a.module < b.module ∨ (a.module = b.module ∧ nameBefore a.name b.name = true) := by
  show a.before b = true ↔ _
  simp [before]

theorem nameBefore_trans {a b c : Option String} (hab : nameBefore a b = true)
    (hbc : nameBefore b c = true) : nameBefore a c = true := by
  cases a <;> cases b <;> cases c
  case some.some.some =>
    exact decide_eq_true (String.lt_trans (of_decide_eq_true hab) (of_decide_eq_true hbc))
  all_goals simp_all [nameBefore]

theorem nameBefore_of_not {a b : Option String} (h : ¬nameBefore a b = true) (hne : a ≠ b) :
    nameBefore b a = true := by
  cases a <;> cases b
  case some.some a b =>
    have hab : b ≤ a := fun hlt => h (decide_eq_true hlt)
    refine decide_eq_true (Decidable.byContradiction fun hba => hne ?_)
    rw [String.le_antisymm hba hab]
  all_goals simp_all [nameBefore]

protected theorem lt_trans {a b c : Import} (hab : a < b) (hbc : b < c) : a < c := by
  rw [lt_iff] at *
  rcases hab with hab | ⟨hab, hab'⟩ <;> rcases hbc with hbc | ⟨hbc, hbc'⟩
  · exact .inl (String.lt_trans hab hbc)
  · exact .inl (hbc ▸ hab)
  · exact .inl (hab ▸ hbc)
  · exact .inr ⟨hab.trans hbc, nameBefore_trans hab' hbc'⟩

/-- Of two different requirements one stands before the other. -/
protected theorem lt_of_not_lt {a b : Import} (h : ¬a < b) (hne : a ≠ b) : b < a := by
  rw [lt_iff] at *
  by_cases hm : a.module = b.module
  · have hn : a.name ≠ b.name := fun hn => hne (by cases a; cases b; simp_all)
    exact .inr ⟨hm.symm, nameBefore_of_not (fun hlt => h (.inr ⟨hm, hlt⟩)) hn⟩
  · exact .inl (Decidable.byContradiction fun hba =>
      hm (String.le_antisymm hba fun hlt => h (.inl hlt)))

end Import

/-- Requirements of code that is written for several languages, each for one of them. -/
abbrev Requests := List (Target × Import)

/-- The requirements for one language, in the order in which they were made. -/
def Requests.for (rs : Requests) (t : Target) : List Import :=
  (rs.filter fun r => r.1 = t).map Prod.snd

/-- The form in which a file lists its imports: modules that are imported as a whole, and modules
with the names taken from them. -/
structure ImportGroups where
  modules : List String
  names : List (String × List String)
  deriving DecidableEq, Repr

namespace ImportGroups

def isEmpty (g : ImportGroups) : Bool := g.modules.isEmpty && g.names.isEmpty

def empty : ImportGroups := ⟨[], []⟩

/-- Adds a requirement: a whole module to the modules, a name to the names of its module. -/
def add (g : ImportGroups) (i : Import) : ImportGroups :=
  match i.name with
  | none => { g with modules := insertAscending i.module g.modules }
  | some name => { g with names := updateEntry i.module [] (insertAscending name) g.names }

def addAll (g : ImportGroups) (is : List Import) : ImportGroups := is.foldl add g

end ImportGroups

/-- Modules with the names under which they are used, each in the order in which they were met. -/
abbrev ImportUses := List (String × List (Option String))

namespace ImportUses

/-- Adds a requirement: its name behind those of its module, unless it is one of them. -/
def add (uses : ImportUses) (i : Import) : ImportUses :=
  let added (names : List (Option String)) :=
    if names.contains i.name then names else names ++ [i.name]
  updateEntry i.module [] added uses

def addAll (uses : ImportUses) (is : List Import) : ImportUses := is.foldl add uses

/-- The names under which a module is used, in the order in which they are listed. -/
def sorted (names : List (Option String)) : List (Option String) :=
  names.mergeSort fun a b => !Import.nameBefore b a

/-- The requirements in the order in which they are listed, module by module. -/
def requirements (uses : ImportUses) : List Import :=
  uses.flatMap fun use => (sorted use.2).map (Import.mk use.1)

end ImportUses

namespace Import

/-- The modules required as a whole. -/
def wholeModules (is : List Import) : List String :=
  ascending (is.filterMap fun i => if i.name.isNone then some i.module else none)

/-- The modules from which some name is required. -/
def namedModules (is : List Import) : List String :=
  ascending (is.filterMap fun i => if i.name.isSome then some i.module else none)

/-- The names required from one module. -/
def namesFrom (is : List Import) (module : String) : List String :=
  ascending (is.filterMap fun i => if i.module = module then i.name else none)

/-- The requirements without repetitions, sorted by module and within a module by name. -/
def grouped (is : List Import) : ImportGroups where
  modules := wholeModules is
  names := (namedModules is).map fun m => (m, namesFrom is m)

theorem mem_wholeModules {is : List Import} {m : String} :
    m ∈ wholeModules is ↔ whole m ∈ is := by
  rw [wholeModules, mem_ascending, List.mem_filterMap]
  constructor
  · rintro ⟨⟨m', n⟩, h, hm⟩
    cases n <;> simp_all [whole]
  · exact fun h => ⟨_, h, rfl⟩

theorem mem_namedModules {is : List Import} {m : String} :
    m ∈ namedModules is ↔ ∃ n, named m n ∈ is := by
  rw [namedModules, mem_ascending, List.mem_filterMap]
  constructor
  · rintro ⟨⟨m', n⟩, h, hm⟩
    cases n with
    | none => simp at hm
    | some n => exact ⟨n, by simp_all [named]⟩
  · rintro ⟨n, h⟩
    exact ⟨_, h, rfl⟩

theorem mem_namesFrom {is : List Import} {m n : String} :
    n ∈ namesFrom is m ↔ named m n ∈ is := by
  rw [namesFrom, mem_ascending, List.mem_filterMap]
  constructor
  · rintro ⟨⟨m', n'⟩, h, hm⟩
    by_cases hmm : m' = m <;> simp_all [named]
  · exact fun h => ⟨_, h, by simp [named]⟩

end Import

end Polyglot
