import Polyglot.Proofs.Parameters.Taken
import Polyglot.Proofs.Ty.Alternatives

/-!
# Types of parameters

A parameter can be declared to accept null, or to be left out. Its type is widened by what it is
declared to accept, and nothing that its type accepted is lost. A parameter that can be left out
defaults to the sentinel unless another default is given; the sentinel is no default for any other.

* `ParamSpec.alternatives_widened` : what the type accepts.
* `ParamSpec.fails_iff_omitDefault` : which descriptions stand for no parameter.
* `ParamSpec.alternatives_of_build` : **what widened types and built parameters accept.**
-/

set_option autoImplicit false

namespace Polyglot.ParamSpec

open Ty

variable {s : ParamSpec} {p : Param}

/-- The type accepts what it is declared to accept, and what it accepted before. -/
theorem alternatives_widened (s : ParamSpec) :
    s.widened.alternatives = s.ty.alternatives ∪ (if s.nullable then {.null} else ∅) ∪
      if s.omittable then {.omit} else ∅ := by
  obtain ⟨name, ty, default, nullable, omittable⟩ := s
  cases nullable <;> cases omittable <;>
    simp [widened, alternatives_orNull, alternatives_orOmit, Finset.insert_comm]

/-- The only descriptions that are refused are those with the sentinel as the default of a parameter
that cannot be left out. -/
theorem fails_iff_omitDefault (s : ParamSpec) :
    (∃ e, s.build = .error e) ↔ s.default = some .omit ∧ s.omittable = false := by
  obtain ⟨name, ty, default, nullable, omittable⟩ := s
  cases omittable with
  | true => cases default <;> simp [build]
  | false =>
      cases default with
      | none => simp [build]
      | some e => cases e <;> simp [build]

theorem hasOmittable_of_build (h : s.build = .ok p) (homittable : s.omittable = true) :
    p.ty.hasOmittable = true := by
  rw [eq_described_of_build h, described, widened, if_pos homittable]
  exact hasOmittable_orOmit _

/-- The default is the one that is given, or the sentinel if the parameter can be left out. -/
theorem default_of_build (h : s.build = .ok p) :
    p.default = s.default.or (if s.omittable then some .omit else none) := by
  rw [eq_described_of_build h, described]
  cases s.omittable <;> cases s.default <;> rfl

/-- **What widened types and built parameters accept.** For every type, widening by null, by the
sentinel or by further types adds the alternatives of just these, keeps all others, and keeps the
sentinel where it is accepted. For every description of a parameter, building fails exactly if the
sentinel is the default of a parameter that cannot be left out; otherwise the type has exactly the
alternatives of the given one, null if that is declared and the sentinel's type if the parameter can
be left out, and the default is the one that is given or, if it can be left out, the sentinel. -/
theorem alternatives_of_build :
    (∀ (ty : Ty) (extra : List Ty),
      ty.orNull.alternatives = insert .null ty.alternatives ∧
      ty.orOmit.alternatives = insert .omit ty.alternatives ∧
      (ty.widen extra).alternatives = ty.alternatives ∪ extra.toFinset.biUnion alternatives ∧
      ty.orOmit.hasOmittable = true ∧
      (ty.hasOmittable = true →
        ty.orNull.hasOmittable = true ∧ (ty.widen extra).hasOmittable = true) ∧
      ty.orNull.orOmit.alternatives = ty.orOmit.orNull.alternatives) ∧
    ∀ s : ParamSpec,
      ((∃ e, s.build = .error e) ↔ s.default = some .omit ∧ s.omittable = false) ∧
      ∀ p, s.build = .ok p →
        p.name = s.name ∧
        p.ty.alternatives = s.ty.alternatives ∪ (if s.nullable then {.null} else ∅) ∪
          (if s.omittable then {.omit} else ∅) ∧
        (s.omittable = true → p.ty.hasOmittable = true) ∧
        p.default = s.default.or (if s.omittable then some .omit else none) := by
  constructor
  · intro ty extra
    refine ⟨alternatives_orNull ty, alternatives_orOmit ty, alternatives_widen ty extra,
      hasOmittable_orOmit ty, fun h => ⟨hasOmittable_orNull h, hasOmittable_widen h extra⟩, ?_⟩
    rw [alternatives_orOmit, alternatives_orNull, alternatives_orNull, alternatives_orOmit,
      Finset.insert_comm]
  · intro s
    refine ⟨fails_iff_omitDefault s, fun p h => ⟨?_, ?_, hasOmittable_of_build h,
      default_of_build h⟩⟩
    · rw [eq_described_of_build h, described]
    · rw [eq_described_of_build h]
      exact alternatives_widened s

/-- A parameter that already accepts null and the sentinel, both below other types, is declared to
accept them once more. -/
theorem alternatives_of_page :
    let ty : Ty := .union [.optional .str, .omit]
    let s : ParamSpec := ⟨"page", ty, none, true, true⟩
    let p : Param := ⟨"page", .union [.optional .str, .omit, .null, .omit], some .omit⟩
    ty.hasOmittable = true ∧ (ty.widen [.optional .num]).hasOmittable = true ∧
      (ty.widen [.optional .num]).alternatives = {.null, .str, .omit, .num} ∧
      s.build = .ok p ∧ p.ty.alternatives = {.null, .str, .omit} ∧ p.ty.hasOmittable = true ∧
      (∃ e, ({ s with default := some .omit, omittable := false } : ParamSpec).build =
        .error e) := by
  intro ty s p
  have homittable : ty.hasOmittable = true := rfl
  have hbuild : s.build = .ok p := rfl
  obtain ⟨-, -, hwiden, -, hkept, -⟩ := alternatives_of_build.1 ty [.optional .num]
  obtain ⟨-, halternatives, haccepts, -⟩ := (alternatives_of_build.2 s).2 p hbuild
  refine ⟨homittable, (hkept homittable).2, ?_, hbuild, ?_, haccepts rfl,
    (alternatives_of_build.2 _).1.2 ⟨rfl, rfl⟩⟩
  · rw [hwiden]
    decide
  · rw [halternatives]
    decide

end Polyglot.ParamSpec
