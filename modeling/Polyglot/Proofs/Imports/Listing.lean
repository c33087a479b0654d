import Polyglot.Proofs.Imports.Agreement
import Polyglot.Proofs.Imports.Grouping
import Polyglot.Proofs.Imports.Uses
import Polyglot.Proofs.Script.Sections

/-!
# What an import section lists

An import section depends on nothing but the set of requirements, and lists each of them once in
strictly ascending order.

* `Import.AreListed` : which lists of requirements are complete, free of repetitions and ascending.
* `Script.isImportSection` : what stands in the section.
* `Script.layout_eq_of_adds` : scripts whose requirements agree.
-/

set_option autoImplicit false

namespace Polyglot

/-! ## Lists of requirements -/

/-- The list holds every requirement once, ascending by module; within a module the one without a
name comes first, and then the names ascend. -/
structure Import.AreListed (uses is : List Import) : Prop where
  mem : ∀ i, i ∈ uses ↔ i ∈ is
  ascending : uses.Pairwise fun i j => i.module < j.module ∨ i.module = j.module ∧
    (i.name = none ∧ j.name ≠ none ∨ ∃ a b, i.name = some a ∧ j.name = some b ∧ a < b)

namespace Import

theorem areListed_ascending (is : List Import) : AreListed (Polyglot.ascending is) is where
  mem _ := mem_ascending
  ascending := by
    refine (pairwise_ascending is).imp fun {i j} h => ?_
    rcases lt_iff.1 h with h | ⟨hm, hn⟩
    · exact .inl h
    refine .inr ⟨hm, ?_⟩
    cases hi : i.name <;> cases hj : j.name <;> simp_all [nameBefore]

end Import

/-- What an import section has to hold: every requirement once, in strictly ascending order. Python
and TypeScript list whole modules and then, on one line for each module, names; PHP has a line for
each requirement. -/
inductive IsImportSection (is : List Import) : Target → List Layout → Prop
  | python {g : ImportGroups} (h : g.Lists is) :
      IsImportSection is .python
        (Script.paragraph (g.modules.map fun m => .line ("import " ++ m)) ++
          Script.paragraph (g.names.map fun n =>
            .line ("from " ++ n.1 ++ " import " ++ ", ".intercalate n.2)))
  | typescript {g : ImportGroups} (h : g.Lists is) :
      IsImportSection is .typescript
        (Script.paragraph (g.modules.map (fun m =>
            .line ("import " ++ Text.Quoted.encode m ++ ";")) ++
          g.names.map fun n => .line ("import \x7b" ++ ", ".intercalate n.2 ++ "\x7d from " ++
            Text.Quoted.encode n.1 ++ ";")))
  | php {uses : List Import} (h : Import.AreListed uses is) :
      IsImportSection is .php (Script.paragraph (uses.map fun i =>
        .line ("use " ++ i.module ++ (match i.name with
          | none => ""
          | some name => " as " ++ name) ++ ";")))

namespace Script

variable {t : Target} {is js : List Import}

/-- The import section of a file lists its requirements. -/
theorem isImportSection (is : List Import) (t : Target) :
    IsImportSection is t (importSection is t) := by
  cases t with
  | python => exact .python (ImportGroups.Lists.empty.addAll is)
  | typescript => exact .typescript (ImportGroups.Lists.empty.addAll is)
  | php =>
      have hline : ∀ i : Import, phpUse i = .line ("use " ++ i.module ++ (match i.name with
          | none => ""
          | some name => " as " ++ name) ++ ";") := by
        rintro ⟨m, n⟩
        cases n <;> simp [phpUse, String.append_assoc]
      rw [importSection, phpImports, ImportUses.requirements_addAll,
        List.map_congr_left fun i _ => hline i]
      exact .php (Import.areListed_ascending is)

/-- The import section depends on the set of requirements alone. -/
theorem importSection_eq (h : ∀ i, i ∈ is ↔ i ∈ js) : importSection is t = importSection js t := by
  cases t with
  | python | typescript =>
      simp only [importSection, ImportGroups.addAll_empty, Import.grouped_eq_of_mem_iff h]
  | php =>
      simp only [importSection, phpImports, ImportUses.requirements_addAll,
        ascending_eq_ascending_iff.2 h]

/-- Two scripts whose requirements agree and that are the same around the import section are written
the same. -/
theorem layout_eq_of_adds {s s' : Script} {o : Options} (hhead : s.head o t = s'.head o t)
    (hrest : s.rest t = s'.rest t) (h : Import.Adds [] (s.imports t) (s'.imports t)) :
    s.layout t o = s'.layout t o := by
  rw [layout_eq_sections, layout_eq_sections, hhead, hrest]
  generalize s.imports t = x at h
  generalize s'.imports t = x' at h
  cases h with
  | error e => rfl
  | @ok is js hmem =>
      have hsection : importSection is t = importSection js t :=
        importSection_eq fun i => by simp [hmem]
      simp only [Outcome.ok_bind, hsection]

end Script

end Polyglot
