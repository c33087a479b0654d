import Polyglot.Proofs.Blocks.Splice
import Polyglot.Proofs.Imports.Listing
import Polyglot.Proofs.Imports.Requests
import Polyglot.Proofs.Writer.Script

/-!
# Scripts with spliced blocks

Splicing moves the import requests of a block in front of requirements that were met before it, so
the requirements of a script come in another order. They agree as a set, and the first error is the
same one; nothing else in a file depends on them.

* `Body.adds_spliced` : a body needs what it needs with its blocks spliced.
* `Script.write_spliced` : a script is written as if its blocks were spliced.
-/

set_option autoImplicit false

namespace Polyglot

open Outcome Import

theorem Import.Adds.trans {x y z : Except Error (List Import)} (h : Adds [] x y)
    (h' : Adds [] y z) : Adds [] x z := by
  cases h with
  | error e => exact h'
  | ok h =>
      cases h' with
      | ok h' => exact .ok fun i => by simp [h', h]

namespace Body

theorem needs_single (t : Target) (s : Stmt) : (single s).needs t = s.imports t := by
  show (do
    let rest ← (do
      let here ← s.imports t
      let rest ← Except.ok []
      return here ++ rest)
    return [] ++ rest) = s.imports t
  cases s.imports t with
  | error e => rfl
  | ok is =>
      show Except.ok ([] ++ (is ++ [])) = Except.ok is
      rw [List.nil_append, List.append_nil]

theorem needs_requests_append (t : Target) (rs : Requests) (b : Body) :
    (⟨rs, []⟩ ++ b : Body).needs t = (do
      let is ← b.needs t
      return rs.for t ++ is) := by
  obtain ⟨rs', ss⟩ := b
  show (do
    let rest ← Stmt.importsAll t ss
    return Requests.for (rs ++ rs') t ++ rest) = _
  rw [needs, Requests.for_append]
  cases Stmt.importsAll t ss with
  | error e => rfl
  | ok is =>
      show Except.ok (rs.for t ++ rs'.for t ++ is) = Except.ok (rs.for t ++ (rs'.for t ++ is))
      rw [List.append_assoc]

/-- Bodies behind each other need what each of them needs, in whatever order. -/
theorem adds_append (t : Target) (a b : Body) :
    Adds [] (do
      let is ← a.needs t
      let js ← b.needs t
      return is ++ js) ((a ++ b).needs t) := by
  obtain ⟨rs, ss⟩ := a
  obtain ⟨rs', ss'⟩ := b
  show Adds [] _ (do
    let rest ← Stmt.importsAll t (ss ++ ss')
    return Requests.for (rs ++ rs') t ++ rest)
  rw [needs, needs, Stmt.importsAll_append, Requests.for_append]
  cases Stmt.importsAll t ss with
  | error e => exact .error e
  | ok is =>
      cases Stmt.importsAll t ss' with
      | error e => exact .error e
      | ok js =>
          refine .ok fun i => ?_
          simp only [List.mem_append, List.not_mem_nil, false_or]
          tauto

end Body

mutual

/-- A body needs what it needs with its blocks spliced. -/
theorem Body.adds_spliced (t : Target) : ∀ b : Body, Adds [] (b.needs t) (b.spliced.needs t)
  | ⟨imports, stmts⟩ => by
      rw [Body.spliced, Body.needs_requests_append]
      exact (Stmt.adds_splicedAll t stmts).prepend (Requests.for imports t)

theorem Function.adds_spliced (t : Target) :
    ∀ f : Function, Adds [] (f.imports t) (f.spliced.imports t)
  | ⟨signature, body⟩ => (Body.adds_spliced t body).prepend (signature.imports t)

theorem Function.adds_splicedAll (t : Target) : ∀ fs : List Function,
    Adds [] (Function.importsAll t fs) (Function.importsAll t (Function.splicedAll fs))
  | [] => .refl _
  | f :: fs => (Function.adds_spliced t f).append (Function.adds_splicedAll t fs)

theorem Branches.adds_spliced (t : Target) :
    ∀ bs : Branches, Adds [] (bs.imports t) (bs.spliced.imports t)
  | .done => .refl _
  | .otherwise body => Body.adds_spliced t body
  | .elseIf test body rest =>
      (Body.adds_spliced t body).prepend_append (test.imports t) (Branches.adds_spliced t rest)

theorem Handlers.adds_spliced (t : Target) :
    ∀ hs : Handlers, Adds [] (hs.imports t) (hs.spliced.imports t)
  | .done => .refl _
  | .cleanup body => Body.adds_spliced t body
  | .handler _ body rest => (Body.adds_spliced t body).append (Handlers.adds_spliced t rest)

/-- A statement needs what is needed by what stands in its place. -/
theorem Stmt.adds_spliced (t : Target) :
    ∀ s : Stmt, Adds [] (s.imports t) (s.spliced.needs t)
  | .plain p => by
      rw [Stmt.spliced, Body.needs_single]
      exact .refl _
  | .conditional test body branches => by
      rw [Stmt.spliced, Body.needs_single]
      exact (Body.adds_spliced t body).prepend_append (test.imports t)
        (Branches.adds_spliced t branches)
  | .forEach _ iterable body | .forEntries _ _ iterable body => by
      rw [Stmt.spliced, Body.needs_single]
      exact (Body.adds_spliced t body).prepend (iterable.imports t)
  | .attempt body handlers => by
      rw [Stmt.spliced, Body.needs_single]
      exact (Body.adds_spliced t body).append (Handlers.adds_spliced t handlers)
  | .function f => by
      rw [Stmt.spliced, Body.needs_single]
      exact Function.adds_spliced t f
  | .classDef c methods => by
      rw [Stmt.spliced, Body.needs_single]
      exact (Adds.refl (c.ownImports t)).append (Function.adds_splicedAll t methods)
  | .block body => Body.adds_spliced t body

theorem Stmt.adds_splicedAll (t : Target) : ∀ ss : List Stmt,
    Adds [] (Stmt.importsAll t ss) ((Stmt.splicedAll ss).needs t)
  | [] => .refl _
  | s :: ss =>
      ((Stmt.adds_spliced t s).append (Stmt.adds_splicedAll t ss)).trans
        (Body.adds_append t s.spliced (Stmt.splicedAll ss))

end

namespace Script

def spliced (s : Script) : Script := { s with body := s.body.spliced }

/-- **Blocks.** A script in which abstract functions have no statements is written the same with
every block spliced into the body around it, at any depth, or fails with the same error. -/
theorem write_spliced (t : Target) (o : Options) (s : Script) (h : s.body.HasBareAbstracts) :
    s.spliced.body.IsFlat ∧ s.spliced.write t o = s.write t o := by
  have hhead : s.head o t = s.spliced.head o t := by
    cases t <;> rfl
  have hrest : s.rest t = s.spliced.rest t :=
    (rest_eq_of_alike (by rfl) (s.body.alike_spliced h) t).symm
  have himports : Adds [] (s.imports t) (s.spliced.imports t) :=
    (s.body.adds_spliced t).append (.refl (.ok (s.aliasImports t)))
  refine ⟨s.body.isFlat_spliced, ?_⟩
  rw [write_eq, ← layout_eq_of_adds hhead hrest himports, write_eq]

/-- Blocks in blocks, with requests of their own: one around a function whose body holds nothing but
a comment in a block, one in the arm of a `try`, and an abstract method beside them. -/
def boxed : Script where
  body := ⟨[(.python, .whole "os")],
    [.block ⟨[(.python, .named "sys" "argv")],
      [.function ⟨.function "idle" none, ⟨[], [.block ⟨[], [.plain (.comment "nothing")]⟩]⟩⟩,
        .block ⟨[(.python, .whole "abc")],
          [.attempt ⟨[], [.block ⟨[], []⟩]⟩
            (.cleanup ⟨[], [.block ⟨[], [.plain (.ret .omit)]⟩]⟩)]⟩]⟩,
      .classDef (Class.new "Shape")
        [⟨{ Signature.method "area" (some .num) with isAbstract := true }, ⟨[], []⟩⟩]]⟩
  comments := ["boxes"]
  aliases := []

set_option maxRecDepth 4000 in
theorem write_spliced_boxed :
    boxed.spliced.body.IsFlat ∧ boxed.spliced.write .python .default = .ok
      ("\"\"\"\nboxes\n\"\"\"\nimport abc\nimport os\n\nfrom sys import argv\n\n\n" ++
        "def idle(\n) -> None:\n    # nothing\n    pass\n" ++
        "try:\n    pass\nfinally:\n    return\n" ++
        "class Shape:\n\n    @abc.abstractmethod\n    def area(\n        self,\n    ) -> int:\n" ++
        "        ...\n\n") := by
  have hidle : Body.HasBareAbstracts ⟨[], [.block ⟨[], [.plain (.comment "nothing")]⟩]⟩ :=
    ⟨⟨trivial, trivial⟩, trivial⟩
  have hattempt : Stmt.HasBareAbstracts (.attempt ⟨[], [.block ⟨[], []⟩]⟩
      (.cleanup ⟨[], [.block ⟨[], [.plain (.ret .omit)]⟩]⟩)) :=
    ⟨⟨trivial, trivial⟩, ⟨trivial, trivial⟩, trivial⟩
  have harea : Function.HasBareAbstracts
      ⟨{ Signature.method "area" (some .num) with isAbstract := true }, ⟨[], []⟩⟩ :=
    ⟨fun _ => rfl, trivial⟩
  have h := write_spliced .python .default boxed
    ⟨⟨⟨nofun, hidle⟩, ⟨hattempt, trivial⟩, trivial⟩, ⟨harea, trivial⟩, trivial⟩
  refine ⟨h.1, h.2.trans ?_⟩
  rw [write_eq]
  rfl

end Script

end Polyglot
