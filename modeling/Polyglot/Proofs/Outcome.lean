import Mathlib.Data.List.Forall2

/-!
# Results of computations that may fail

How a computation in `Except` came to its result: every step before the last one had a result, too.

* `bind_eq_ok`, `pure_eq_ok` : one step.
* `mem_of_mapM_eq_ok`, `forall_mem_of_mapM_eq_ok`, `forall₂_of_mapM_eq_ok`,
  `exists_map_of_mapM_eq_ok`, `exists_mapM_eq_ok`, `exists_of_mapM_map` : the same step for every
  member of a list.
* `collect_append` : results that are put one after the other.
* `Ensures` : what holds of the result if there is one; `Ensures.bind` goes through a step.
* `FailsWith` : what holds of the error if there is one.
* `Succeeds` : whether there is a result at all; `succeeds_bind`, `succeeds_bind_pure` say when.
-/

set_option autoImplicit false

namespace Polyglot.Outcome

variable {ε α β : Type}

@[simp] theorem ok_bind (a : α) (f : α → Except ε β) : (Except.ok a >>= f) = f a := rfl

@[simp] theorem error_bind (e : ε) (f : α → Except ε β) : (Except.error e >>= f) = .error e := rfl

theorem bind_eq_ok {x : Except ε α} {f : α → Except ε β} {b : β} :
    (x >>= f) = .ok b ↔ ∃ a, x = .ok a ∧ f a = .ok b := by
  cases x with
  | error e =>
      refine ⟨fun h => ?_, fun ⟨a, h, _⟩ => ?_⟩
      · cases h
      · cases h
  | ok a =>
      refine ⟨fun h => ⟨a, rfl, h⟩, fun ⟨a', h, hf⟩ => ?_⟩
      cases h
      exact hf

theorem pure_eq_ok {a b : α} : (pure a : Except ε α) = .ok b ↔ a = b := by
  refine ⟨fun h => ?_, fun h => ?_⟩
  · cases h
    rfl
  · rw [h]
    rfl

/-- The result for a member of a list is among the results for the list. -/
theorem mem_of_mapM_eq_ok {f : α → Except ε β} {as : List α} {bs : List β}
    (h : as.mapM f = .ok bs) {a : α} (ha : a ∈ as) {b : β} (hb : f a = .ok b) : b ∈ bs := by
  induction as generalizing bs with
  | nil => exact nomatch ha
  | cons first rest ih =>
      rw [List.mapM_cons] at h
      obtain ⟨b', hb', h⟩ := bind_eq_ok.1 h
      obtain ⟨bs', hbs, h⟩ := bind_eq_ok.1 h
      cases pure_eq_ok.1 h
      rcases List.mem_cons.1 ha with rfl | ha
      · rw [hb] at hb'
        cases hb'
        exact List.mem_cons_self ..
      · exact List.mem_cons_of_mem _ (ih hbs ha)

/-- What holds of the result for every member holds of every result. -/
theorem forall_mem_of_mapM_eq_ok {f : α → Except ε β} {P : β → Prop} :
    ∀ {as : List α} {bs : List β}, as.mapM f = .ok bs →
      (∀ a ∈ as, ∀ b, f a = .ok b → P b) → ∀ b ∈ bs, P b := by
  intro as
  induction as with
  | nil =>
      intro bs h _ b hb
      rw [List.mapM_nil, pure_eq_ok] at h
      subst h
      exact nomatch hb
  | cons a as ih =>
      intro bs h hf b hb
      rw [List.mapM_cons, bind_eq_ok] at h
      obtain ⟨b₁, hb₁, h⟩ := h
      obtain ⟨bs', hbs, h⟩ := bind_eq_ok.1 h
      cases pure_eq_ok.1 h
      rcases List.mem_cons.1 hb with rfl | hb
      · exact hf a (List.mem_cons_self ..) b hb₁
      · exact ih hbs (fun a' ha' => hf a' (List.mem_cons_of_mem _ ha')) b hb

/-- What holds of every member and its result holds all along the list and the results. -/
theorem forall₂_of_mapM_eq_ok {f : α → Except ε β} {P : α → β → Prop} :
    ∀ {as : List α} {bs : List β}, as.mapM f = .ok bs →
      (∀ a ∈ as, ∀ b, f a = .ok b → P a b) → List.Forall₂ P as bs := by
  intro as
  induction as with
  | nil =>
      intro bs h _
      cases h
      exact .nil
  | cons a as ih =>
      intro bs h hf
      rw [List.mapM_cons, bind_eq_ok] at h
      obtain ⟨b, hb, h⟩ := h
      obtain ⟨bs', hbs, h⟩ := bind_eq_ok.1 h
      cases pure_eq_ok.1 h
      exact .cons (hf a (List.mem_cons_self ..) b hb)
        (ih hbs fun a' ha' => hf a' (List.mem_cons_of_mem _ ha'))

/-- Results that can be read as the images of descriptions, one description for each member. -/
theorem exists_map_of_mapM_eq_ok {γ : Type} {f : α → Except ε β} {R : α → γ → Prop} {g : γ → β}
    {as : List α} {bs : List β} (h : as.mapM f = .ok bs)
    (hf : ∀ a ∈ as, ∀ b, f a = .ok b → ∃ c, R a c ∧ b = g c) :
    ∃ cs, List.Forall₂ R as cs ∧ bs = cs.map g := by
  have hdescribed := forall₂_of_mapM_eq_ok h hf
  clear h hf
  induction hdescribed with
  | nil => exact ⟨[], .nil, rfl⟩
  | cons hb _ ih =>
      obtain ⟨c, hc, rfl⟩ := hb
      obtain ⟨cs, hcs, rfl⟩ := ih
      exact ⟨c :: cs, .cons hc hcs, rfl⟩

/-- Results of one kind for the members make a list of such results. -/
theorem exists_mapM_eq_ok {f : α → Except ε β} {P : α → β → Prop} :
    ∀ {as : List α}, (∀ a ∈ as, ∃ b, f a = .ok b ∧ P a b) →
      ∃ bs, as.mapM f = .ok bs ∧ List.Forall₂ P as bs := by
  intro as
  induction as with
  | nil => exact fun _ => ⟨[], rfl, .nil⟩
  | cons a as ih =>
      intro h
      obtain ⟨b, hb, hp⟩ := h a (List.mem_cons_self ..)
      obtain ⟨bs, hbs, hps⟩ := ih fun a' ha' => h a' (List.mem_cons_of_mem _ ha')
      refine ⟨b :: bs, ?_, .cons hp hps⟩
      rw [List.mapM_cons, hb, hbs]
      rfl

/-- A change of the members that no result depends on. -/
theorem mapM_map_of_eq {f : α → α} {g : α → Except ε β} (h : ∀ a, g (f a) = g a) (as : List α) :
    (as.map f).mapM g = as.mapM g := by
  induction as with
  | nil => rfl
  | cons a as ih => rw [List.map_cons, List.mapM_cons, List.mapM_cons, h, ih]

/-- A change of the members that goes through to the results. -/
theorem mapM_map_of_eq_map {f : α → α} {g : α → Except ε β} {f' : β → β}
    (h : ∀ a, g (f a) = (g a).map f') (as : List α) :
    (as.map f).mapM g = (as.mapM g).map (List.map f') := by
  induction as with
  | nil => rfl
  | cons a as ih =>
      rw [List.map_cons, List.mapM_cons, List.mapM_cons, h, ih]
      cases g a with
      | error e => rfl
      | ok b => cases as.mapM g <;> rfl

/-- Results that are changed one by one are the changed results. -/
theorem exists_of_mapM_map {γ : Type} {g : α → Except ε β} {f : β → γ} {as : List α} {cs : List γ}
    (h : (as.mapM fun a => (g a).map f) = .ok cs) : ∃ bs, as.mapM g = .ok bs ∧ cs = bs.map f := by
  induction as generalizing cs with
  | nil =>
      cases h
      exact ⟨[], rfl, rfl⟩
  | cons a as ih =>
      rw [List.mapM_cons] at h
      obtain ⟨c, hc, h⟩ := bind_eq_ok.1 h
      obtain ⟨rest, hrest, h⟩ := bind_eq_ok.1 h
      cases pure_eq_ok.1 h
      obtain ⟨bs, hbs, rfl⟩ := ih hrest
      cases hb : g a with
      | error e =>
          rw [hb] at hc
          cases hc
      | ok b =>
          rw [hb] at hc
          cases hc
          refine ⟨b :: bs, ?_, rfl⟩
          rw [List.mapM_cons, hb, hbs]
          rfl

/-- A computation that puts the results for the members of a list one after the other does so for a
list behind another one. -/
theorem collect_append (f : α → Except ε (List β)) (collect : List α → Except ε (List β))
    (hnil : collect [] = .ok [])
    (hcons : ∀ a as, collect (a :: as) = (do
      let here ← f a
      let rest ← collect as
      return here ++ rest)) (as as' : List α) :
    collect (as ++ as') = (do
      let here ← collect as
      let rest ← collect as'
      return here ++ rest) := by
  induction as with
  | nil =>
      rw [List.nil_append, hnil, ok_bind]
      cases collect as' <;> rfl
  | cons a as ih =>
      rw [List.cons_append, hcons, hcons, ih]
      cases f a with
      | error e => rfl
      | ok here => cases collect as with
        | error e => rfl
        | ok rest => cases collect as' with
          | error e => rfl
          | ok rest' => simp only [ok_bind, pure, Except.pure, List.append_assoc]

/-! ## What holds of a result -/

/-- Whatever the computation gives is of a certain kind. -/
def Ensures (P : α → Prop) (x : Except ε α) : Prop := ∀ a, x = .ok a → P a

namespace Ensures

variable {P : β → Prop}

theorem ok {b : β} (h : P b) : Ensures P (.ok b : Except ε β) := by
  intro _ hb
  cases hb
  exact h

theorem error (e : ε) : Ensures P (.error e : Except ε β) := nofun

theorem bind {x : Except ε α} {f : α → Except ε β} (h : ∀ a, x = .ok a → Ensures P (f a)) :
    Ensures P (x >>= f) := by
  intro b hb
  obtain ⟨a, ha, hb⟩ := bind_eq_ok.1 hb
  exact h a ha b hb

end Ensures

/-! ## What holds of an error -/

/-- Whatever error the computation reports is of a certain kind. -/
def FailsWith (P : ε → Prop) (x : Except ε α) : Prop := ∀ e, x = .error e → P e

namespace FailsWith

variable {P : ε → Prop}

theorem ok (a : α) : FailsWith P (.ok a : Except ε α) := nofun

theorem error {e : ε} (h : P e) : FailsWith P (.error e : Except ε α) := by
  intro _ he
  cases he
  exact h

theorem bind {x : Except ε α} {f : α → Except ε β} (hx : FailsWith P x)
    (hf : ∀ a, x = .ok a → FailsWith P (f a)) : FailsWith P (x >>= f) := by
  cases x with
  | error e => exact .error (hx e rfl)
  | ok a => exact hf a rfl

end FailsWith

/-! ## Success -/

/-- The computation has a result. -/
def Succeeds (x : Except ε α) : Prop := ∃ a, x = .ok a

@[simp] theorem succeeds_ok (a : α) : Succeeds (.ok a : Except ε α) := ⟨a, rfl⟩

@[simp] theorem succeeds_pure (a : α) : Succeeds (pure a : Except ε α) := ⟨a, rfl⟩

@[simp] theorem not_succeeds_error (e : ε) : ¬Succeeds (.error e : Except ε α) := nofun

/-- A computation without a result has an error. -/
theorem not_succeeds_iff {x : Except ε α} : ¬Succeeds x ↔ ∃ e, x = .error e := by
  cases x with
  | error e => exact iff_of_true (not_succeeds_error e) ⟨e, rfl⟩
  | ok a => exact iff_of_false (not_not_intro (succeeds_ok a)) nofun

/-- A computation in two steps has a result if both steps have one, where the second step has one
whatever the first one gives or never. -/
theorem succeeds_bind {x : Except ε α} {f : α → Except ε β} {p : Prop}
    (h : ∀ a, Succeeds (f a) ↔ p) : Succeeds (x >>= f) ↔ Succeeds x ∧ p := by
  cases x with
  | error e => exact ⟨fun hx => (not_succeeds_error e hx).elim,
      fun hx => (not_succeeds_error e hx.1).elim⟩
  | ok a => rw [ok_bind, h a, and_iff_right (succeeds_ok a)]

theorem succeeds_bind_pure {x : Except ε α} {f : α → β} :
    Succeeds (x >>= fun a => pure (f a)) ↔ Succeeds x :=
  (succeeds_bind fun a => iff_true_intro (succeeds_pure (f a))).trans (and_iff_left trivial)

end Polyglot.Outcome
