import Polyglot.Proofs.Blocks.Splice

/-!
# Counting code

Python counts the statements of a body that are code, those in blocks included. None is if, with
the blocks spliced, the body has only blank lines, comments and code that is left out on purpose.

* `Body.codeCount` : the count; `Body.hasCode_eq_false_iff` : the body has code unless it is zero.
* `Body.IsSilent`, `Body.codeCount_eq_zero_iff` : when it is zero.
-/

set_option autoImplicit false

namespace Polyglot

mutual

/-- How many statements of a body are code in Python. -/
def Body.codeCount : Body → Nat
  | ⟨_, stmts⟩ => Stmt.codeCountAll stmts

/-- How many statements a statement counts for: a block for those in it. -/
def Stmt.codeCount : Stmt → Nat
  | .plain p => if p.hasCode then 1 else 0
  | .block body => body.codeCount
  | .conditional _ _ _ | .forEach _ _ _ | .forEntries _ _ _ _ | .attempt _ _ | .function _
  | .classDef _ _ => 1

def Stmt.codeCountAll : List Stmt → Nat
  | [] => 0
  | s :: ss => s.codeCount + Stmt.codeCountAll ss

end

/-- A blank line, a comment, or code that Python leaves out on purpose. -/
inductive Stmt.IsSilent : Stmt → Prop
  | blank : IsSilent (.plain .blank)
  | comment (text : String) : IsSilent (.plain (.comment text))
  | omitted {codes : PerTarget Snippet} : codes.python = .omitted →
      IsSilent (.plain (.snippet codes))

/-- With its blocks spliced, the body has no other statements than blank lines, comments and code
that Python leaves out on purpose. -/
def Body.IsSilent (b : Body) : Prop := ∀ s ∈ b.spliced.stmts, s.IsSilent

theorem Plain.isSilent_iff (p : Plain) : (Stmt.plain p).IsSilent ↔ p.hasCode = false := by
  constructor
  · rintro (_ | _ | @⟨⟨python, typescript, php⟩, hcodes⟩)
    · rfl
    · rfl
    · cases hcodes
      rfl
  · intro h
    cases p with
    | blank => exact .blank
    | comment text => exact .comment text
    | snippet codes =>
        obtain ⟨python, typescript, php⟩ := codes
        cases python with
        | omitted => exact .omitted rfl
        | missing | code => cases h
    | expr | raise | ret | assign | append | build | interface => cases h

/-! ## Whether there is code -/

mutual

/-- A body has code unless its count is zero. -/
theorem Body.hasCode_eq_false_iff : ∀ b : Body, b.hasCode = false ↔ b.codeCount = 0
  | ⟨_, stmts⟩ => Stmt.anyCode_eq_false_iff stmts

theorem Stmt.hasCode_eq_false_iff : ∀ s : Stmt, s.hasCode = false ↔ s.codeCount = 0
  | .plain p => by
      rw [Stmt.hasCode, Stmt.codeCount]
      cases p.hasCode <;> simp
  | .block body => Body.hasCode_eq_false_iff body
  | .conditional _ _ _ | .forEach _ _ _ | .forEntries _ _ _ _ | .attempt _ _ | .function _
  | .classDef _ _ => by simp [Stmt.hasCode, Stmt.codeCount]

theorem Stmt.anyCode_eq_false_iff :
    ∀ ss : List Stmt, Stmt.anyCode ss = false ↔ Stmt.codeCountAll ss = 0
  | [] => by simp [Stmt.anyCode, Stmt.codeCountAll]
  | s :: ss => by
      rw [Stmt.anyCode, Stmt.codeCountAll, Bool.or_eq_false_iff, Stmt.hasCode_eq_false_iff s,
        Stmt.anyCode_eq_false_iff ss, Nat.add_eq_zero_iff]

end

/-! ## When there is none -/

theorem Body.forall_mem_append {a b : Body} {P : Stmt → Prop} :
    (∀ s ∈ (a ++ b).stmts, P s) ↔ (∀ s ∈ a.stmts, P s) ∧ ∀ s ∈ b.stmts, P s :=
  List.forall_mem_append

mutual

/-- The count of a body is zero if all that it holds, with blocks spliced, is silent, and only
then. -/
theorem Body.codeCount_eq_zero_iff : ∀ b : Body, b.codeCount = 0 ↔ b.IsSilent
  | ⟨_, stmts⟩ => Stmt.codeCountAll_eq_zero_iff stmts

theorem Stmt.codeCount_eq_zero_iff :
    ∀ s : Stmt, s.codeCount = 0 ↔ ∀ s' ∈ s.spliced.stmts, s'.IsSilent
  | .plain p => by
      rw [Stmt.spliced, Body.single, List.forall_mem_singleton, p.isSilent_iff, Stmt.codeCount]
      cases p.hasCode <;> simp
  | .block body => Body.codeCount_eq_zero_iff body
  | .conditional _ _ _ | .forEach _ _ _ | .forEntries _ _ _ _ | .attempt _ _ | .function _
  | .classDef _ _ => by
      rw [Stmt.spliced, Body.single, List.forall_mem_singleton, Stmt.codeCount]
      exact iff_of_false Nat.one_ne_zero nofun

theorem Stmt.codeCountAll_eq_zero_iff :
    ∀ ss : List Stmt, Stmt.codeCountAll ss = 0 ↔ ∀ s ∈ (Stmt.splicedAll ss).stmts, s.IsSilent
  | [] => iff_of_true rfl nofun
  | s :: ss => by
      rw [Stmt.codeCountAll, Nat.add_eq_zero_iff, Stmt.codeCount_eq_zero_iff s,
        Stmt.codeCountAll_eq_zero_iff ss, Stmt.splicedAll, Body.forall_mem_append]

end

end Polyglot
