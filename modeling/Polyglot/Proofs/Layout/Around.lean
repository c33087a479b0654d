import Polyglot.Proofs.Layout.Depth
import Polyglot.Stmt.Braced

/-!
# Lines around lines

Lines in which something is left open stand somewhere in a layout. What is written for the layout is
written around them, and does not depend on what is left open.

* `Layout.Kept` : properties of such lines that other lines around them do not touch.
* `Layout.HasAt` : the lines stand so many levels deeper, between texts of whole lines.
* `Layout.kept_hasAt` : that is kept.
-/

set_option autoImplicit false

namespace Polyglot.Layout

open Text

variable {ι : Type}

/-- A property of lines in which something is left open so many levels deeper. It holds of the lines
with others before or behind them, and of the lines one level deeper. -/
structure Kept (P : Nat → (ι → List Layout) → Prop) : Prop where
  append_left {n : Nat} {F : ι → List Layout} : P n F → ∀ ls, P n fun i => ls ++ F i
  append_right {n : Nat} {F : ι → List Layout} : P n F → ∀ ls, P n fun i => F i ++ ls
  nest {n : Nat} {F : ι → List Layout} : P n F → P (n + 1) fun i => [.nest (F i)]

namespace Kept

variable {P : Nat → (ι → List Layout) → Prop} {n : Nat} {F : ι → List Layout}

/-- Lines one level deeper, behind a line and in front of others. -/
theorem between (hP : Kept P) (h : P n F) (line : Layout) (ls : List Layout) :
    P (n + 1) fun i => line :: .nest (F i) :: ls :=
  hP.append_left (hP.append_right (hP.nest h) ls) [line]

/-- A group of lines among groups of lines. -/
theorem flatten (hP : Kept P) (h : P n F) (before after : List (List Layout)) :
    P n fun i => (before ++ F i :: after).flatten := by
  simp only [List.flatten_append, List.flatten_cons]
  exact hP.append_left (hP.append_right h _) _

/-- A group of lines among groups between empty lines. -/
theorem spaced (hP : Kept P) (h : P n F) (started : Bool) (before after : List (List Layout)) :
    P n fun i => Layout.spaced started (before ++ F i :: after) := by
  induction before generalizing started with
  | nil => exact hP.append_right (hP.append_left h _) _
  | cons group rest ih => exact hP.append_left (ih true) _

end Kept

/-- The lines are written with the given ones `n` levels deeper, at any depth and with any
indentation. Before them stand whole lines, and what stands around them is always the same. -/
def HasAt (G : ι → List Layout) (n : Nat) (F : ι → List Layout) : Prop :=
  ∀ indent depth, ∃ before after, IsClosed before ∧
    ∀ i, writeAll indent depth (F i) = before ++ writeAll indent (depth + n) (G i) ++ after

theorem HasAt.self (G : ι → List Layout) : HasAt G 0 G := fun _ _ =>
  ⟨"", "", .inl rfl, fun i => by simp⟩

theorem kept_hasAt (G : ι → List Layout) : Kept (HasAt G) where
  append_left {n F} h ls indent depth := by
    obtain ⟨before, after, hclosed, hF⟩ := h indent depth
    refine ⟨writeAll indent depth ls ++ before, after,
      (isClosed_writeAll indent depth ls).append hclosed, fun i => ?_⟩
    simp only [writeAll_append, hF, String.append_assoc]
  append_right {n F} h ls indent depth := by
    obtain ⟨before, after, hclosed, hF⟩ := h indent depth
    refine ⟨before, after ++ writeAll indent depth ls, hclosed, fun i => ?_⟩
    simp only [writeAll_append, hF, String.append_assoc]
  nest {n F} h indent depth := by
    obtain ⟨before, after, hclosed, hF⟩ := h indent (depth + 1)
    refine ⟨before, after, hclosed, fun i => ?_⟩
    rw [writeAll, write_nest, writeAll_nil, String.append_empty, hF, Nat.add_right_comm,
      Nat.add_assoc]

end Polyglot.Layout
