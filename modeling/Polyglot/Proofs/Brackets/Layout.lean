import Polyglot.Layout
import Polyglot.Proofs.Brackets.Text

/-!
# Brackets in layouts

A layout is scanned as the same lines without indentation: a line is indented behind a newline only,
and there neither an escape nor the opening of a field is under way.

* `Layout.run_writeLine` : the lines of one text, also when a string literal goes on over them.
* `Layout.Shifts` : what a scan of written lines does, at any depth and with any indentation.
* `Layout.Shifts.line`, `Layout.Shifts.nest`, `Layout.Shifts.append` : how layouts are put together.
-/

set_option autoImplicit false

namespace Polyglot

open Brackets

variable {t : Target} {fs gs hs : List Frame}

/-- Whether a line can be indented by the text. -/
def IsIndentation (indent : String) : Prop := ∀ c ∈ indent.toList, IsIndent c

namespace Layout

/-- Lines that stand in the file as `Layout.write` puts them there, at any depth, take the scan from
the open brackets `fs` to `gs`. -/
structure Shifts (t : Target) (fs gs : List Frame) (ls : List Layout) : Prop where
  written : ∀ {indent : String}, IsIndentation indent → ∀ depth : Nat,
    Brackets.Shifts t fs gs (writeAll indent depth ls)

/-- Lines that leave the open brackets as they are. -/
def WellBracketed (t : Target) (ls : List Layout) : Prop := Shifts t [] [] ls

/-! ## Lines -/

theorem isIndent_of_mem_times {indent : String} (h : IsIndentation indent) (n : Nat) :
    ∀ c ∈ (Text.times n indent).toList, IsIndent c := by
  intro c hc
  rw [Text.times, String.toList_join, List.mem_flatMap] at hc
  obtain ⟨s, hs, hc⟩ := hc
  obtain ⟨_, rfl⟩ := List.mem_replicate.1 hs
  exact h c hc

/-- The indentation of one line is passed over. -/
theorem run_indented {indent : String} (h : IsIndentation indent) (depth : Nat) (text : String)
    {s : State} (hs : s.IsCalm) (rest : List Char) :
    run t s ((indented indent depth text).toList ++ rest) =
      run t s (text.toList ++ '\n' :: rest) := by
  unfold indented
  by_cases htext : text = ""
  · rw [if_pos htext, htext]
    rfl
  · rw [if_neg htext]
    simp only [String.toList_append, List.append_assoc]
    rw [run_indent hs (isIndent_of_mem_times h depth)]
    rfl

/-- Behind a newline the scan is calm. -/
theorem isCalm_of_run_newline {s s' : State} {cs : List Char}
    (h : run t s (cs ++ ['\n']) = some s') : s'.IsCalm := by
  rw [run_append] at h
  obtain ⟨s₁, _, h⟩ := Option.bind_eq_some_iff.1 h
  rw [run_cons] at h
  obtain ⟨s₂, hstep, h⟩ := Option.bind_eq_some_iff.1 h
  cases h
  exact step_newline_isCalm hstep

/-- Lines that are indented each are scanned as the lines with newlines between them. -/
theorem run_indentedAll {indent : String} (h : IsIndentation indent) (depth : Nat) :
    ∀ {parts : List (List Char)}, parts ≠ [] → ∀ {s : State}, s.IsCalm →
      run t s (String.join ((parts.map String.ofList).map (indented indent depth))).toList =
        run t s (['\n'].intercalate parts ++ ['\n'])
  | [], hne, _, _ => absurd rfl hne
  | [p], _, s, hs => by
      simp only [List.map_cons, List.map_nil, String.join_cons, String.join_nil,
        String.toList_append, String.toList_empty, List.intercalate_singleton]
      rw [run_indented h depth _ hs, String.toList_ofList]
  | p :: q :: qs, _, s, hs => by
      have hrest := @run_indentedAll _ h depth (q :: qs) (List.cons_ne_nil _ _)
      generalize hwritten : String.join (((q :: qs).map String.ofList).map
        (indented indent depth)) = written at hrest
      rw [List.map_cons, List.map_cons, String.join_cons, hwritten, String.toList_append,
        run_indented h depth _ hs, String.toList_ofList, List.intercalate_cons_cons]
      have hl : p ++ '\n' :: written.toList = (p ++ ['\n']) ++ written.toList := by simp
      rw [hl, List.append_assoc (p ++ ['\n']), run_append, run_append t s (p ++ ['\n'])]
      -- Both scans come to the same calm state behind the first newline.
      cases hfirst : run t s (p ++ ['\n']) with
      | none => rfl
      | some s' => exact hrest (isCalm_of_run_newline hfirst)

/-- The lines of one text are scanned as the text and a newline. -/
theorem run_writeLine {indent : String} (h : IsIndentation indent) (depth : Nat) (text : String)
    {s : State} (hs : s.IsCalm) :
    run t s ((Layout.line text).write indent depth).toList = run t s (text.toList ++ ['\n']) := by
  have hparts := run_indentedAll (t := t) h depth (List.splitOn_ne_nil '\n' text.toList) hs
  rw [List.intercalate_splitOn] at hparts
  exact hparts

/-! ## Layouts behind each other -/

namespace Shifts

variable {ls ks : List Layout} {text : String}

theorem nil : Shifts t fs fs [] := ⟨fun _ _ => .lit rfl⟩

theorem append (hl : Shifts t fs gs ls) (hk : Shifts t gs hs ks) : Shifts t fs hs (ls ++ ks) := by
  refine ⟨fun h depth => ?_⟩
  rw [writeAll_append]
  exact (hl.written h depth).append (hk.written h depth)

/-- A layout is scanned the same inside of more open brackets. -/
theorem under (hl : Shifts t fs gs ls) (below : List Frame) :
    Shifts t (fs ++ below) (gs ++ below) ls := ⟨fun h depth => (hl.written h depth).under below⟩

/-- A line and what follows it. -/
theorem line (htext : Brackets.Shifts t fs gs text) (hl : Shifts t gs hs ls) :
    Shifts t fs hs (.line text :: ls) := by
  refine ⟨fun {indent} h depth => ?_⟩
  have hline : Brackets.Shifts t fs gs ((Layout.line text).write indent depth) := by
    rw [Brackets.Shifts, run_writeLine h depth text (s := ⟨.code, fs⟩) trivial, run_append, htext]
    rfl
  exact hline.append (hl.written h depth)

/-- A nested group and what follows it. -/
theorem nest {body : List Layout} (hbody : Shifts t fs gs body) (hl : Shifts t gs hs ls) :
    Shifts t fs hs (.nest body :: ls) := by
  refine ⟨fun {indent} h depth => ?_⟩
  have hnest : Brackets.Shifts t fs gs ((Layout.nest body).write indent depth) :=
    hbody.written h (depth + 1)
  exact hnest.append (hl.written h depth)

end Shifts

namespace WellBracketed

variable {ls : List Layout} {text : String}

/-- Lines that leave the open brackets as they are can stand anywhere in code. -/
theorem shifts (h : WellBracketed t ls) (fs : List Frame) : Shifts t fs fs ls := h.under fs

theorem single (h : Polyglot.WellBracketed t text) : WellBracketed t [.line text] :=
  Shifts.line h .nil

theorem blank : WellBracketed t [Layout.blank] := single .empty

theorem append {ks : List Layout} (hl : WellBracketed t ls) (hk : WellBracketed t ks) :
    WellBracketed t (ls ++ ks) := Shifts.append hl hk

theorem flatten {lss : List (List Layout)} (h : ∀ ls ∈ lss, WellBracketed t ls) :
    WellBracketed t lss.flatten := by
  induction lss with
  | nil => exact .nil
  | cons ls lss ih =>
      rw [List.flatten_cons]
      exact append (h ls (List.mem_cons_self ..))
        (ih fun ls' hls' => h ls' (List.mem_cons_of_mem _ hls'))

/-- Lines that are well bracketed each. -/
theorem of_forall {ls : List Layout} (h : ∀ l ∈ ls, WellBracketed t [l]) : WellBracketed t ls := by
  induction ls with
  | nil => exact .nil
  | cons l ls ih =>
      exact append (h l (List.mem_cons_self ..))
        (ih fun l' hl' => h l' (List.mem_cons_of_mem _ hl'))

end WellBracketed

end Layout

end Polyglot
