import Polyglot.Proofs.Aliases.Ty
import Polyglot.Proofs.Retyping.Stmt
import Polyglot.Proofs.Writer.Script
import Polyglot.Script.Output

/-!
# PHP sees through named types

A script without its named types is the script in which every one of them is replaced by its base,
and none is declared. PHP makes the same file of both, or fails with the same error.

* `Script.unaliased` : the script without named types.
* `Script.write_unaliased` : PHP does not see the difference.
-/

set_option autoImplicit false

namespace Polyglot

theorem Ty.keepsPhp_unaliased : KeepsPhp unaliased := ⟨toPhp_unaliased, imports_unaliased⟩

/-- The body with every named type in it replaced by its base. -/
def Body.unaliased (b : Body) : Body := b.mapTypes Ty.unaliased

namespace Script

/-- The script with every named type in it replaced by its base, and with none of its own. -/
def unaliased (s : Script) : Script where
  body := s.body.unaliased
  comments := s.comments
  aliases := []

theorem imports_unaliased (s : Script) : s.unaliased.imports .php = s.imports .php := by
  rw [imports, unaliased, Body.unaliased, Body.needs_mapTypes Ty.keepsPhp_unaliased, imports]
  rfl

theorem toPhp_unaliased (s : Script) (phpNamespace : Option String) :
    s.unaliased.toPhp phpNamespace = s.toPhp phpNamespace := by
  have hbody : s.unaliased.body.toPhp = s.body.toPhp :=
    Body.toPhp_mapTypes Ty.keepsPhp_unaliased s.body
  simp only [toPhp, imports_unaliased, hbody]
  rfl

/-- No named type is left in the body: its types are those of the script without their names. -/
theorem isAliasFree_of_mem_heldTypes_unaliased (s : Script) {ty : Ty}
    (h : ty ∈ s.unaliased.body.heldTypes) : ty.IsAliasFree := by
  rw [unaliased, Body.unaliased, Body.heldTypes_mapTypes] at h
  obtain ⟨ty', -, rfl⟩ := List.mem_map.1 h
  exact Ty.isAliasFree_unaliased ty'

/-- **PHP sees through named types.** Without its named types, declared or standing anywhere in a
type of its tree, a script has the same PHP text, or fails with the same error. -/
theorem write_unaliased (s : Script) (o : Options) :
    s.unaliased.aliases = [] ∧
      s.unaliased.body.heldTypes = s.body.heldTypes.map Ty.unaliased ∧
      (∀ ty ∈ s.unaliased.body.heldTypes, ty.IsAliasFree) ∧
      s.unaliased.write .php o = s.write .php o ∧ s.unaliased.source .php o = s.source .php o := by
  have hwrite : s.unaliased.write .php o = s.write .php o := by
    rw [write_eq, layout, toPhp_unaliased, write_eq, layout]
  refine ⟨rfl, Body.heldTypes_mapTypes Ty.unaliased s.body,
    fun ty => isAliasFree_of_mem_heldTypes_unaliased s, hwrite, ?_⟩
  rw [source, hwrite, source]

end Script

end Polyglot
