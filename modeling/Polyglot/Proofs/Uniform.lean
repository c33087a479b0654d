import Polyglot.Error
import Polyglot.Proofs.Outcome

/-!
# Computations in which something is left open

A part of a program is left open: a text, a list of texts. What is computed for the program either
fails whatever stands there, or always has a result, and the results have one form.

* `Uniform` : such computations; `Uniform.bind` and `Uniform.const_bind` go through them step by
  step.
* `Uniform.mapM` : a list with one member in which something is left open.
* `Uniform.with` : what else is known of every result.
-/

set_option autoImplicit false

namespace Polyglot

open Outcome

variable {ι α β : Type} {P : (ι → α) → Prop} {Q : (ι → β) → Prop}

/-- A computation that fails with one error whatever is left open, or always has a result, and the
results are of a certain form. -/
def Uniform (P : (ι → α) → Prop) (f : ι → Except Error α) : Prop :=
  (∃ e, ∀ i, f i = .error e) ∨ ∃ g, P g ∧ ∀ i, f i = .ok (g i)

namespace Uniform

theorem error (e : Error) : Uniform P fun _ => .error e := .inl ⟨e, fun _ => rfl⟩

theorem ok {g : ι → α} (h : P g) : Uniform P fun i => .ok (g i) := .inr ⟨g, h, fun _ => rfl⟩

theorem pure {g : ι → α} (h : P g) : Uniform P fun i => Pure.pure (g i) := .ok h

/-- A step that depends on what is left open, followed by one that depends on it through the
first. -/
theorem bind {f : ι → Except Error α} {k : α → Except Error β} (hf : Uniform P f)
    (hk : ∀ g, P g → Uniform Q fun i => k (g i)) : Uniform Q fun i => f i >>= k := by
  rcases hf with ⟨e, he⟩ | ⟨g, hg, hok⟩
  · exact .inl ⟨e, fun i => by simp only [he i, error_bind]⟩
  · have heq : (fun i => f i >>= k) = fun i => k (g i) := by
      funext i
      rw [hok i, ok_bind]
    rw [heq]
    exact hk g hg

/-- A step that depends on nothing in front of one that does. -/
theorem const_bind (x : Except Error α) {k : α → ι → Except Error β}
    (hk : ∀ a, Uniform Q (k a)) : Uniform Q fun i => x >>= fun a => k a i := by
  cases x with
  | error e => exact .inl ⟨e, fun _ => rfl⟩
  | ok a => exact hk a

/-- What holds of every result, beside the form of the results. -/
theorem «with» {f : ι → Except Error α} (hf : Uniform P f) {R : α → Prop}
    (hR : ∀ i a, f i = .ok a → R a) : Uniform (fun g => P g ∧ ∀ i, R (g i)) f := by
  rcases hf with herror | ⟨g, hg, hok⟩
  · exact .inl herror
  · exact .inr ⟨g, ⟨hg, fun i => hR i (g i) (hok i)⟩, hok⟩

end Uniform

/-- Lists that differ in one member only, and that one is of a certain form. -/
def AtMember (P : (ι → α) → Prop) (as : ι → List α) : Prop :=
  ∃ before a after, P a ∧ ∀ i, as i = before ++ a i :: after

/-- The results for the members of a list, one of which depends on what is left open. -/
theorem Uniform.mapM {γ : Type} {k : γ → Except Error α} {x : ι → γ}
    (hx : Uniform P fun i => k (x i)) (before after : List γ) :
    Uniform (AtMember P) fun i => (before ++ x i :: after).mapM k := by
  simp only [List.mapM_append, List.mapM_cons]
  refine .const_bind _ fun pre => .bind (P := AtMember P) ?_ fun g hg => ?_
  · refine .bind hx fun g hg => .const_bind _ fun post => ?_
    exact .pure ⟨[], g, post, hg, fun _ => rfl⟩
  · obtain ⟨before', a, after', ha, hg⟩ := hg
    exact .pure ⟨pre ++ before', a, after', ha, fun i => by simp only [hg i, List.append_assoc]⟩

end Polyglot
