import Polyglot.Proofs.Layout.Depth
import Polyglot.Proofs.Stmt.Render
import Polyglot.Proofs.Writer.Php
import Polyglot.Proofs.Writer.Python
import Polyglot.Proofs.Writer.TypeScript

/-!
# Writing at a depth

Whatever a writer is asked to do, it appends a layout at its depth and stays where it is: a tree of
operations, and a body of statements that is written in one language. So what is written at one
depth is what is written at depth zero, with indentation.

* `Writer.runAll_eq` : what a tree of operations appends.
* `Writer.writeBody_eq` : what is appended for a body.
* `Writer.indents_runAll_and_writeBody` : **depth.**
-/

set_option autoImplicit false

namespace Polyglot.Writer

open Outcome Text

/-! ## Trees of operations -/

mutual

/-- The layout that an operation writes. -/
def Op.layout : Op → Layout
  | .line0 text => .line text
  | .line1 text => .nest [.line text]
  | .blank => .blank
  | .nest ops => .nest (Op.layoutAll ops)

def Op.layoutAll : List Op → List Layout
  | [] => []
  | op :: ops => op.layout :: Op.layoutAll ops

end

mutual

/-- An operation appends its layout to the buffer and leaves the rest of the writer alone. -/
theorem run_eq : ∀ (op : Op) (w : Writer), w.run op = w.append [op.layout]
  | .line0 text, w => w.line0_eq text
  | .line1 text, w => w.line1_eq text
  | .blank, w => w.blank_eq
  | .nest ops, w => by rw [run, runAll_eq ops, resume_append, Op.layout]

/-- Operations append their layouts to the buffer and leave the rest of the writer alone. -/
theorem runAll_eq : ∀ (ops : List Op) (w : Writer), w.runAll ops = w.append (Op.layoutAll ops)
  | [], w => w.append_nil.symm
  | op :: ops, w => by
      rw [runAll, run_eq op w, runAll_eq ops, append_append, Op.layoutAll, List.singleton_append]

end

/-! ## Bodies -/

/-- Writes a body in one language. -/
def writeBody (w : Writer) (t : Target) (b : Body) : Except Error Writer :=
  match t with
  | .python => do
    let (_, w) ← b.writePython.run w
    return w
  | .typescript => do
    let (_, w) ← b.writeTypeScript.run w
    return w
  | .php => do
    let (_, w) ← b.writePhp.run w
    return w

/-- The layout of a body is appended to the buffer, if it has one. -/
theorem writeBody_eq (w : Writer) (t : Target) (b : Body) : w.writeBody t b = (do
    let ls ← b.layout t
    return w.append ls) := by
  cases t with
  | python =>
      rw [writeBody, b.writes_python, bind_assoc]
      rfl
  | typescript =>
      rw [writeBody, b.writes_typeScript, bind_assoc]
      rfl
  | php =>
      rw [writeBody, b.writes_php, bind_assoc]
      rfl

/-! ## Depth -/

/-- The writer ends where it began, but for the text that it has appended: the other text with the
indentation of the writer in front of each of its lines, empty or ended by a newline. -/
structure Appends (w w' : Writer) (atZero : String) : Prop where
  same : w' = { w with out := w.out ++ indentLines (times w.depth w.indent) atZero }
  isClosed : IsClosed (indentLines (times w.depth w.indent) atZero)

/-- A layout at any depth is the layout at depth zero, with indentation. -/
theorem appends_append (w : Writer) (h : '\n' ∉ w.indent.toList) (ls : List Layout) :
    Appends w (w.append ls) ((new w.indent 0).append ls).out := by
  have hzero : ((new w.indent 0).append ls).out = Layout.writeAll w.indent 0 ls :=
    String.empty_append
  have hdeep : Layout.writeAll w.indent w.depth ls =
      indentLines (times w.depth w.indent) ((new w.indent 0).append ls).out := by
    rw [hzero]
    exact Layout.writeAll_add h w.depth 0 _
  constructor
  · rw [append, hdeep]
  · rw [← hdeep]
    exact Layout.isClosed_writeAll w.indent w.depth _

/-- **Depth.** A writer at any depth fails on a body like a writer at depth zero, and writes what
that one writes with its own indentation in front of every line that is not empty. So it does with
any tree of operations. Its depth stays the same. -/
theorem indents_runAll_and_writeBody (w : Writer) (h : '\n' ∉ w.indent.toList) :
    (∀ (t : Target) (b : Body),
      (∀ e, w.writeBody t b = .error e ↔ (new w.indent 0).writeBody t b = .error e) ∧
      ∀ w₀, (new w.indent 0).writeBody t b = .ok w₀ →
        ∃ w', w.writeBody t b = .ok w' ∧ Appends w w' w₀.out ∧ w'.depth = w.depth) ∧
    ∀ ops : List Op, Appends w (w.runAll ops) ((new w.indent 0).runAll ops).out ∧
      (w.runAll ops).depth = w.depth := by
  refine ⟨fun t b => ?_, fun ops => ?_⟩
  · rw [writeBody_eq, writeBody_eq]
    cases b.layout t with
    | error e => exact ⟨fun _ => Iff.rfl, nofun⟩
    | ok ls =>
        refine ⟨fun e => ⟨nofun, nofun⟩, fun w₀ hw₀ => ⟨w.append ls, rfl, ?_, rfl⟩⟩
        cases pure_eq_ok.1 hw₀
        exact appends_append w h ls
  · rw [runAll_eq, runAll_eq]
    exact ⟨appends_append w h _, rfl⟩

/-- A conditional with nothing but a comment of three lines in it. -/
def remarked : Body :=
  ⟨[], [.conditional (.literal (.bool true)) ⟨[], [.plain (.comment "a\n\nb")]⟩ .done]⟩

theorem indents_remarked :
    (∃ w', Writer.writeBody ⟨"x\n", "  ", 2⟩ .python remarked = .ok w' ∧
      Appends ⟨"x\n", "  ", 2⟩ w' "if True:\n  # a\n  #\n  # b\n  pass\n\n" ∧ w'.depth = 2) ∧
      (runAll ⟨"x\n", "  ", 2⟩ [.line0 "a\n\nb", .nest [.blank, .line1 "c"]]).out =
        "x\n    a\n\n    b\n\n        c\n" := by
  have hindent : '\n' ∉ "  ".toList := by decide
  have h := indents_runAll_and_writeBody ⟨"x\n", "  ", 2⟩ hindent
  have hops := (h.2 [.line0 "a\n\nb", .nest [.blank, .line1 "c"]]).1.same
  refine ⟨(h.1 .python remarked).2 ⟨_, "  ", 0⟩ rfl, ?_⟩
  rw [hops]
  rfl

end Polyglot.Writer
