import Polyglot.Layout
import Polyglot.Proofs.Outcome
import Polyglot.Stmt.Comment
import Polyglot.Writer

/-!
# What is appended to a buffer

Whatever is done with a writer appends a layout to its buffer, at the depth of the writer, and leaves
the rest of it alone. Code is followed step by step, with the lines that stand in the buffer already:
the layout of the whole is put together from the layouts of the steps.

* `Writer.append` : the writer with a layout appended.
* `Writes` : what code appends and gives back, or its error.
* `Follows` : the same behind lines that are already there, with one rule for each kind of step.
-/

set_option autoImplicit false

namespace Polyglot

open Outcome Text

namespace Writer

/-- The writer with a layout in its buffer, at its depth. -/
def append (w : Writer) (ls : List Layout) : Writer :=
  { w with out := w.out ++ Layout.writeAll w.indent w.depth ls }

@[simp] theorem append_nil (w : Writer) : w.append [] = w := by
  rw [append, Layout.writeAll_nil, String.append_empty]

@[simp] theorem append_append (w : Writer) (ls ls' : List Layout) :
    (w.append ls).append ls' = w.append (ls ++ ls') := by
  simp only [append, Layout.writeAll_append, String.append_assoc]

theorem push_eq (w : Writer) (depth : Nat) (line : String) :
    w.push depth line = { w with out := w.out ++ Layout.indented w.indent depth line } := by
  rw [push, Layout.indented]
  by_cases h : line = ""
  · rw [if_pos h, if_pos h]
  · rw [if_neg h, if_neg h, String.append_assoc, String.append_assoc, String.append_assoc]

theorem lineAt_eq (w : Writer) (depth : Nat) (text : String) :
    w.lineAt depth text =
      { w with out := w.out ++ (Layout.line text).write w.indent depth } := by
  rw [lineAt, Layout.write]
  generalize lines text = ls
  induction ls generalizing w with
  | nil => rw [List.map_nil, String.join_nil, String.append_empty, List.foldl_nil]
  | cons l ls ih =>
      rw [List.foldl_cons, ih, push_eq, List.map_cons, String.join_cons, String.append_assoc]

theorem line0_eq (w : Writer) (text : String) : w.line0 text = w.append [.line text] := by
  rw [line0, lineAt_eq, append, Layout.writeAll, Layout.writeAll_nil, String.append_empty]

theorem line1_eq (w : Writer) (text : String) :
    w.line1 text = w.append [.nest [.line text]] := by
  simp only [line1, lineAt_eq, append, Layout.writeAll, Layout.write_nest, String.append_empty]

theorem blank_eq (w : Writer) : w.blank = w.append [.blank] := by
  have h : Layout.writeAll w.indent w.depth [.blank] = "\n" := rfl
  rw [append, h, blank]

/-- What a nested writer appends is a nested layout. -/
theorem resume_append (w : Writer) (ls : List Layout) :
    w.resume (w.deeper.append ls) = w.append [.nest ls] := by
  simp only [resume, append, deeper, Layout.writeAll, Layout.write_nest, String.append_empty]

theorem append_nest_nil (w : Writer) : w.append [.nest []] = w := by
  rw [← resume_append, append_nil]
  rfl

/-- One nested layout is written like two, one behind the other. -/
theorem append_nest_append (w : Writer) (ls ls' : List Layout) :
    w.append [.nest (ls ++ ls')] = w.append [.nest ls, .nest ls'] := by
  simp only [append, Layout.writeAll, Layout.write_nest, Layout.writeAll_append,
    String.append_empty]

end Writer

variable {α β γ : Type}

/-- Behind lines that are written already, the code goes on until the lines of the layout are
written, and gives back a value; or it fails like the layout. -/
def Follows (before : List Layout) (code : WriteM α) (a : α) (x : Except Error (List Layout)) :
    Prop :=
  ∀ w : Writer, code.run (w.append before) = (do
    let ls ← x
    return (a, w.append ls))

/-- The code writes the lines of the layout and gives back a value, or fails like the layout. -/
def Writes (code : WriteM α) (a : α) (x : Except Error (List Layout)) : Prop :=
  ∀ w : Writer, code.run w = (do
    let ls ← x
    return (a, w.append ls))

namespace Writes

variable {code : WriteM α} {a : α} {x : Except Error (List Layout)}

theorem congr {y : Except Error (List Layout)} (h : Writes code a x) (hxy : x = y) :
    Writes code a y := hxy ▸ h

theorem of_run {ls : List Layout} (h : ∀ w : Writer, code.run w = .ok (a, w.append ls)) :
    Writes code a (.ok ls) := h

theorem line0 (text : String) : Writes (WriteM.line0 text) () (.ok [.line text]) :=
  of_run fun w => w.line0_eq text ▸ rfl

theorem line1 (text : String) : Writes (WriteM.line1 text) () (.ok [.nest [.line text]]) :=
  of_run fun w => w.line1_eq text ▸ rfl

theorem blankLine : Writes WriteM.blankLine () (.ok [.blank]) :=
  of_run fun w => w.blank_eq ▸ rfl

/-- A nested writer writes what is nested in the layout, and its depth is forgotten. -/
theorem nested (h : Writes code a x) :
    Writes (WriteM.nested code) a (do
      let ls ← x
      return [.nest ls]) := by
  intro w
  have hcode : code w.deeper = (do
      let ls ← x
      return (a, w.deeper.append ls)) := h w.deeper
  show WriteM.nested code w = _
  rw [WriteM.nested, hcode]
  cases x with
  | error e => rfl
  | ok ls =>
      exact congrArg (fun w => (.ok (a, w) : Except Error (α × Writer))) (w.resume_append ls)

/-- What is nested may be made of a result. -/
theorem nestedOf {y : Except Error γ} {f : γ → List Layout} (h : Writes code a (do
      let c ← y
      return f c)) : Writes (WriteM.nested code) a (do
      let c ← y
      return [.nest (f c)]) := by
  have hnested := h.nested
  rw [bind_assoc] at hnested
  exact hnested

theorem when {code : WriteM Unit} {ls : List Layout} (h : Writes code () (.ok ls))
    (condition : Bool) :
    Writes (WriteM.when condition code) () (.ok (if condition then ls else [])) := by
  cases condition with
  | true => exact h
  | false => exact of_run fun w => w.append_nil.symm ▸ rfl

end Writes

namespace Follows

variable {before : List Layout} {a : α} {b : β}

/-! ### How code ends -/

theorem pure {ls : List Layout} (h : before = ls) : Follows before (pure a) a (.ok ls) := by
  intro w
  rw [h]
  rfl

theorem throw (e : Error) : Follows before (throw e : WriteM α) a (.error e) := fun _ => rfl

/-- A last step that writes what is made of a result. Other lines may be written the same. -/
theorem lastAlike {code : WriteM α} {x : Except Error γ} {f g : γ → List Layout}
    (hcode : Writes code a (do
      let c ← x
      return f c))
    (h : ∀ c, x = .ok c → ∀ w : Writer, (w.append before).append (f c) = w.append (g c)) :
    Follows before code a (do
      let c ← x
      return g c) := by
  intro w
  rw [hcode]
  cases hx : x with
  | error e => rfl
  | ok c => exact congrArg (fun w => (.ok (a, w) : Except Error (α × Writer))) (h c hx w)

/-- A last step that writes what is made of a result. -/
theorem lastOf {code : WriteM α} {x : Except Error γ} {f : γ → List Layout}
    {y : γ → Except Error (List Layout)} (hcode : Writes code a (do
      let c ← x
      return f c)) (h : ∀ c, x = .ok c → y c = .ok (before ++ f c)) :
    Follows before code a (x >>= y) := by
  intro w
  rw [hcode]
  cases hx : x with
  | error e => rfl
  | ok c =>
      rw [ok_bind, ok_bind, h c hx, ok_bind, ← Writer.append_append]
      rfl

/-- A last step that writes. -/
theorem last {code : WriteM α} {x : Except Error (List Layout)}
    {y : List Layout → Except Error (List Layout)} (hcode : Writes code a x)
    (h : ∀ ls, x = .ok ls → y ls = .ok (before ++ ls)) : Follows before code a (x >>= y) := by
  rw [← bind_pure x] at hcode
  exact lastOf hcode h

/-- A last step that writes given lines. -/
theorem lastLines {code : WriteM α} {ls ls' : List Layout} (hcode : Writes code a (.ok ls))
    (h : before ++ ls = ls') : Follows before code a (.ok ls') :=
  last (y := fun _ => .ok ls') hcode fun _ hls => by rw [← Except.ok.inj hls, h]

/-- A last step that writes nested lines. -/
theorem lastNested {code : WriteM α} {x : Except Error (List Layout)}
    {y : List Layout → Except Error (List Layout)} (hcode : Writes code a x)
    (h : ∀ ls, x = .ok ls → y ls = .ok (before ++ [.nest ls])) :
    Follows before (WriteM.nested code) a (x >>= y) :=
  lastOf hcode.nested h

/-! ### Steps -/

/-- A step that does not write. -/
theorem lift {x : Except Error γ} {next : γ → WriteM α} {y : γ → Except Error (List Layout)}
    (h : ∀ c, x = .ok c → Follows before (next c) a (y c)) :
    Follows before (liftM x >>= next) a (x >>= y) := by
  intro w
  cases hx : x with
  | error e => rfl
  | ok c => exact h c hx w

/-- A step that writes what is made of a result. -/
theorem stepOf {code : WriteM β} {x : Except Error γ} {f : γ → List Layout} {next : β → WriteM α}
    {y : γ → Except Error (List Layout)} (hcode : Writes code b (do
      let c ← x
      return f c)) (h : ∀ c, x = .ok c → Follows (before ++ f c) (next b) a (y c)) :
    Follows before (code >>= next) a (x >>= y) := by
  intro w
  rw [StateT.run_bind, hcode]
  cases hx : x with
  | error e => rfl
  | ok c =>
      have hnext := h c hx w
      rw [← Writer.append_append] at hnext
      exact hnext

/-- A step that writes. -/
theorem step {code : WriteM β} {x : Except Error (List Layout)} {next : β → WriteM α}
    {y : List Layout → Except Error (List Layout)} (hcode : Writes code b x)
    (h : ∀ ls, x = .ok ls → Follows (before ++ ls) (next b) a (y ls)) :
    Follows before (code >>= next) a (x >>= y) := by
  rw [← bind_pure x] at hcode
  exact stepOf hcode h

/-- A step that writes given lines. -/
theorem lines {code : WriteM β} {ls : List Layout} {next : β → WriteM α}
    {y : Except Error (List Layout)} (hcode : Writes code b (.ok ls))
    (h : Follows (before ++ ls) (next b) a y) : Follows before (code >>= next) a y :=
  step (y := fun _ => y) hcode fun _ hls => Except.ok.inj hls ▸ h

/-- A step that writes nested lines, made of a result. -/
theorem nestedOf {code : WriteM β} {x : Except Error γ} {f : γ → List Layout}
    {next : β → WriteM α} {y : γ → Except Error (List Layout)} (hcode : Writes code b (do
      let c ← x
      return f c)) (h : ∀ c, x = .ok c → Follows (before ++ [.nest (f c)]) (next b) a (y c)) :
    Follows before (WriteM.nested code >>= next) a (x >>= y) :=
  stepOf hcode.nestedOf h

/-- A step that writes nested lines. -/
theorem nested {code : WriteM β} {x : Except Error (List Layout)} {next : β → WriteM α}
    {y : List Layout → Except Error (List Layout)} (hcode : Writes code b x)
    (h : ∀ ls, x = .ok ls → Follows (before ++ [.nest ls]) (next b) a (y ls)) :
    Follows before (WriteM.nested code >>= next) a (x >>= y) :=
  stepOf hcode.nested h

end Follows

namespace Writes

theorem of_follows {code : WriteM α} {a : α} {x : Except Error (List Layout)}
    (h : Follows [] code a x) : Writes code a x := by
  intro w
  rw [← h w, Writer.append_nil]

/-- What the code gives back is of no use. -/
theorem returning {code : WriteM β} {b : β} {x : Except Error (List Layout)}
    (h : Writes code b x) (a : α) : Writes (code >>= fun _ => pure a) a x := by
  intro w
  rw [StateT.run_bind, h]
  cases x <;> rfl

/-! ### Loops -/

/-- A loop over code for each member of a list. -/
theorem forM {f : γ → WriteM Unit} {g : γ → Except Error (List Layout)}
    (h : ∀ c, Writes (f c) () (g c)) : ∀ cs : List γ, Writes (cs.forM f) () (do
      let lss ← cs.mapM g
      return lss.flatten)
  | [] => .of_follows (.pure rfl)
  | c :: cs => by
      have hloop : (c :: cs).forM f = f c >>= fun _ => cs.forM f := rfl
      have hlines : (do
          let lss ← (c :: cs).mapM g
          return lss.flatten) = (do
          let here ← g c
          let rest ← (do
            let lss ← cs.mapM g
            return lss.flatten : Except Error (List Layout))
          return here ++ rest) := by
        simp only [List.mapM_cons, bind_assoc, pure_bind, List.flatten_cons]
      rw [hloop, hlines]
      exact .of_follows (.step (h c) fun here _ => .last (forM h cs) fun rest _ => rfl)

/-- A loop over code for one line for each member of a list. -/
theorem forM_line {f : γ → WriteM Unit} {g : γ → Except Error Layout}
    (h : ∀ c, Writes (f c) () (do
      let l ← g c
      return [l])) (cs : List γ) : Writes (cs.forM f) () (cs.mapM g) := by
  have hlines : (do
      let lss ← cs.mapM fun c => do
        let l ← g c
        return [l]
      return lss.flatten) = cs.mapM g := by
    induction cs with
    | nil => rfl
    | cons c cs ih =>
        simp only [List.mapM_cons, bind_assoc, pure_bind, List.flatten_cons] at ih ⊢
        rw [← ih]
        simp only [bind_assoc, pure_bind, List.singleton_append]
  exact hlines ▸ forM h cs

/-- A loop over code that does not fail. -/
theorem forM_flatMap {f : γ → WriteM Unit} {g : γ → List Layout}
    (h : ∀ c, Writes (f c) () (.ok (g c))) :
    ∀ cs : List γ, Writes (cs.forM f) () (.ok (cs.flatMap g))
  | [] => .of_follows (.pure rfl)
  | c :: cs => by
      have hloop : (c :: cs).forM f = f c >>= fun _ => cs.forM f := rfl
      rw [hloop]
      exact .of_follows <| .lines (h c) <| .lastLines (forM_flatMap h cs) rfl

/-- A loop over given lines. -/
theorem forM_line0 (f : γ → String) (cs : List γ) :
    Writes (cs.forM fun c => WriteM.line0 (f c)) () (.ok (cs.map fun c => .line (f c))) := by
  rw [List.map_eq_flatMap]
  exact forM_flatMap (fun c => line0 (f c)) cs

/-- A loop over code for one nested line for each member of a list. -/
theorem forM_nested {f : γ → WriteM Unit} {g : γ → Except Error Layout}
    (h : ∀ c, Writes (f c) () (do
      let l ← g c
      return [.nest [l]])) : ∀ cs : List γ, Writes (cs.forM f) () (do
      let ls ← cs.mapM g
      return [.nest ls])
  | [] => of_run fun w => w.append_nest_nil.symm ▸ rfl
  | c :: cs => by
      have hloop : (c :: cs).forM f = f c >>= fun _ => cs.forM f := rfl
      rw [hloop, List.mapM_cons]
      simp only [bind_assoc, pure_bind]
      refine .of_follows <| .stepOf (h c) fun l _ => .lastAlike (forM_nested h cs) fun ls _ w => ?_
      rw [List.nil_append, w.append_append]
      exact (w.append_nest_append [l] ls).symm

/-! ### Comments -/

theorem marked (marker text : String) :
    Writes (WriteM.marked marker text) () (.ok (Layout.marked marker text)) :=
  forM_line0 _ _

theorem docString (texts : List String) :
    Writes (WriteM.docString texts) () (.ok (Layout.docString texts)) := by
  cases texts with
  | nil => exact .of_follows (.pure rfl)
  | cons text texts =>
      exact .of_follows <| .lines (.line0 _) <| .lines (forM_line0 id _) <|
        .lastLines (.line0 _) (by rw [List.nil_append]; rfl)

theorem docBlock (texts : List String) :
    Writes (WriteM.docBlock texts) () (.ok (Layout.docBlock texts)) := by
  cases texts with
  | nil => exact .of_follows (.pure rfl)
  | cons text texts =>
      exact .of_follows <| .lines (.line0 _) <| .lines (forM_line0 Layout.docLine _) <|
        .lastLines (.line0 _) rfl

end Writes

end Polyglot
