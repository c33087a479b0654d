import Polyglot.Proofs.Building.Invariants
import Polyglot.Proofs.Building.Refused
import Polyglot.Proofs.Properties.Wiring

/-!
# How often a property gets a value

A property asks for one value: its argument, or else its default, if it has either. The constructor
stores an argument whatever stands beside the declaration, and outside of Python a constant default
stands there even if there is an argument.

* `Property.asked`, `Property.replaced` : the value that a property asks for, and the constant that
  is replaced by the argument.
* `Property.writes_eq` : a property gets these values and no others.
* `Class.filter_writes` : what a class writes for one of its properties is what the property gets.
* `Class.writes_of_layout` : **the values in any class that is built and can be written.**
-/

set_option autoImplicit false

namespace Polyglot

variable {t : Target}

namespace Property

/-- The value that a property asks for: an argument if it takes one, and else its default, if it has
one. A constant stands beside the declaration where the language has values there. -/
def asked (t : Target) (p : Property) : List (Write Expr) :=
  match p.initarg, p.default with
  | true, _ => [⟨p.name, .constructor, p.argument⟩]
  | false, none => []
  | false, some e =>
    [⟨p.name, if t ≠ .python ∧ e.isLiteral = true then .declaration else .constructor, e⟩]

/-- The constant that stands beside the declaration of a property that takes an argument. -/
def replaced (t : Target) (p : Property) : List (Write Expr) :=
  if t ≠ .python ∧ p.initarg = true then
    p.literalDefault?.toList.map (⟨p.name, .declaration, ·⟩)
  else []

/-- All values that a property gets in one language. -/
def writes (t : Target) (p : Property) : List (Write Expr) :=
  (p.initial? t).toList ++ (p.stored?.toList ++ (p.storedDefault? t).toList)

theorem length_asked (p : Property) :
    (p.asked t).length = if p.initarg || p.default.isSome then 1 else 0 := by
  rw [asked]
  cases p.initarg <;> cases p.default <;> rfl

theorem length_replaced (p : Property) :
    (p.replaced t).length =
      if t ≠ .python ∧ p.initarg = true ∧ p.literalDefault?.isSome = true then 1 else 0 := by
  rw [replaced]
  by_cases h : t ≠ .python ∧ p.initarg = true
  · rw [if_pos h]
    cases p.literalDefault? <;> simp [h]
  · rw [if_neg h, if_neg fun h' => h ⟨h'.1, h'.2.1⟩]
    rfl

/-- **A property gets the value that it asks for**, behind the constant that is replaced by it, if
there is one. -/
theorem writes_eq (p : Property) : p.writes t = p.replaced t ++ p.asked t := by
  obtain ⟨name, ty, default, initarg, observable, readonly⟩ := p
  cases t with
  | python => cases initarg <;> cases default <;> rfl
  | typescript | php =>
      cases default with
      | none => cases initarg <;> rfl
      | some e =>
          cases h : e.isLiteral <;> cases initarg <;>
            simp [writes, initial?, stored?, storedDefault?, assignedDefault?, literalDefault?,
              replaced, asked, Option.filter_some, h]

/-! ## One property among others -/

variable {ps : List Property} {p : Property}

theorem filter_name (hnames : (ps.map name).Nodup) (hp : p ∈ ps) :
    ps.filter (·.name = p.name) = [p] := by
  induction ps with
  | nil => cases hp
  | cons q ps ih =>
      rw [List.map_cons, List.nodup_cons] at hnames
      rcases List.mem_cons.1 hp with rfl | hp
      · -- No other property has the name.
        have hrest : ps.filter (·.name = p.name) = [] :=
          List.filter_eq_nil_iff.2 fun q hq heq =>
            hnames.1 (List.mem_map.2 ⟨q, hq, of_decide_eq_true heq⟩)
        rw [List.filter_cons_of_pos (by simp), hrest]
      · have hne : q.name ≠ p.name := fun heq =>
          hnames.1 (List.mem_map.2 ⟨p, hp, heq.symm⟩)
        rw [List.filter_cons_of_neg (by simpa using hne), ih hnames.2 hp]

/-- Where each property has at most one value and under its own name, the values under the name of
a property are its own. -/
theorem filter_filterMap (hnames : (ps.map name).Nodup) (hp : p ∈ ps)
    {f : Property → Option (Write Expr)} (hf : ∀ q, ∀ w ∈ f q, w.property = q.name) :
    (ps.filterMap f).filter (·.property = p.name) = (f p).toList := by
  have hown (q : Property) : (f q).filter (·.property = p.name) =
      if decide (q.name = p.name) then f q else none := by
    cases hq : f q with
    | none => split <;> rfl
    | some w =>
        rw [Option.filter_some, hf q w hq]
  rw [List.filter_filterMap, List.filterMap_congr fun q _ => hown q, ← List.filterMap_filter,
    filter_name hnames hp]
  cases hvalue : f p <;> simp [hvalue]

theorem property_initial (q : Property) : ∀ w ∈ q.initial? t, w.property = q.name := by
  intro w hw
  cases t with
  | python => cases hw
  | typescript | php =>
      obtain ⟨e, -, rfl⟩ := Option.map_eq_some_iff.1 hw
      rfl

theorem property_stored (q : Property) : ∀ w ∈ q.stored?, w.property = q.name := by
  intro w hw
  rw [stored?] at hw
  split at hw <;> cases hw
  rfl

theorem property_storedDefault (q : Property) :
    ∀ w ∈ q.storedDefault? t, w.property = q.name := by
  intro w hw
  obtain ⟨e, -, rfl⟩ := Option.map_eq_some_iff.1 hw
  rfl

end Property

namespace Class

variable {c : Class}

/-- What a class writes for one of its properties is what the property gets. -/
theorem filter_writes (hnames : (c.properties.map Property.name).Nodup) {p : Property}
    (hp : p ∈ c.properties) :
    (c.writes t).filter (·.property = p.name) = p.writes t := by
  rw [writes, stored, List.filter_append, List.filter_append,
    Property.filter_filterMap hnames hp Property.property_initial,
    Property.filter_filterMap hnames hp Property.property_stored,
    Property.filter_filterMap hnames hp Property.property_storedDefault, Property.writes]

/-- A class writes values for its own properties only. -/
theorem exists_mem_properties {w : Write Expr} (hw : w ∈ c.writes t) :
    ∃ p ∈ c.properties, w.property = p.name := by
  have hmem {f : Property → Option (Write Expr)} (hf : ∀ q, ∀ w ∈ f q, w.property = q.name)
      (hw : w ∈ c.properties.filterMap f) : ∃ p ∈ c.properties, w.property = p.name := by
    obtain ⟨p, hp, hpw⟩ := List.mem_filterMap.1 hw
    exact ⟨p, hp, hf p w hpw⟩
  rw [writes, stored, List.mem_append, List.mem_append] at hw
  rcases hw with hw | hw | hw
  · exact hmem Property.property_initial hw
  · exact hmem Property.property_stored hw
  · exact hmem Property.property_storedDefault hw

/-! ## Written classes -/

/-- The written values for a property are the texts of what the property gets. -/
theorem IsWired.writesTo {w : Wiring} (hw : c.IsWired t w)
    (hnames : (c.properties.map Property.name).Nodup) {p : Property} (hp : p ∈ c.properties) :
    List.Forall₂ (Write.IsText t) (p.replaced t ++ p.asked t) (w.writesTo p.name) := by
  rw [← p.writes_eq, ← filter_writes hnames hp]
  refine List.rel_filter (fun x y hxy => ?_) hw.written
  change decide (x.property = p.name) = true ↔ decide (y.property = p.name) = true
  rw [hxy.1]

theorem IsWired.length_writesTo {w : Wiring} (hw : c.IsWired t w)
    (hnames : (c.properties.map Property.name).Nodup) {p : Property} (hp : p ∈ c.properties) :
    (w.writesTo p.name).length =
      if t ≠ .python ∧ p.initarg = true ∧ p.literalDefault?.isSome = true then 2
      else if p.initarg || p.default.isSome then 1 else 0 := by
  rw [← (hw.writesTo hnames hp).length_eq, List.length_append, p.length_replaced, p.length_asked]
  by_cases h : t ≠ .python ∧ p.initarg = true ∧ p.literalDefault?.isSome = true
  · rw [if_pos h, if_pos h, h.2.1]
    rfl
  · rw [if_neg h, if_neg h, Nat.zero_add]

theorem IsWired.exists_mem_properties {w : Wiring} (hw : c.IsWired t w) {x : Write String}
    (hx : x ∈ w.writes) : ∃ p ∈ c.properties, x.property = p.name := by
  have hnames : List.Forall₂ Eq ((c.writes t).map Write.property) (w.writes.map Write.property) :=
    List.forall₂_map_left_iff.2
      (List.forall₂_map_right_iff.2 (hw.written.imp fun _ _ h => h.1.symm))
  rw [List.forall₂_eq_eq_eq] at hnames
  obtain ⟨y, hy, hyx⟩ := List.mem_map.1 (hnames ▸ List.mem_map_of_mem hx)
  exact hyx ▸ Class.exists_mem_properties hy

theorem wellBuilt_run {c : Class} (h : c.WellBuilt) (es : List Edit) : (c.run es).WellBuilt := by
  induction es generalizing c with
  | nil => exact h
  | cons e es ih => exact ih (wellBuilt_edit h e)

/-- **The values for properties** of a class that was built by any edits, in any language in which
it can be written. A property gets the value that it asks for, one if it takes an argument or has a
default; a constant default of an argument stands beside the declaration as well, but not in
Python. -/
theorem writes_of_layout (name : String) (es : List Edit) {methods : List Function}
    {ls : List Layout} (h : (Stmt.classDef ((new name).run es) methods).layout t = .ok ls) :
    let c := (new name).run es
    ∃ w ms, c.IsWired t w ∧ Function.layoutAll methods t = .ok ms ∧ ls = c.text t w ms ∧
      (∀ p ∈ c.properties,
        List.Forall₂ (Write.IsText t) (p.replaced t ++ p.asked t) (w.writesTo p.name) ∧
        (w.writesTo p.name).length =
          if t ≠ .python ∧ p.initarg = true ∧ p.literalDefault?.isSome = true then 2
          else if p.initarg || p.default.isSome then 1 else 0) ∧
      ∀ x ∈ w.writes, ∃ p ∈ c.properties, x.property = p.name := by
  intro c
  have hnames : (c.properties.map Property.name).Nodup :=
    (wellBuilt_run (wellBuilt_new name) es).properties
  obtain ⟨w, ms, hw, hms, hls⟩ := exists_wiring h
  exact ⟨w, ms, hw, hms, hls,
    fun p hp => ⟨hw.writesTo hnames hp, hw.length_writesTo hnames hp⟩,
    fun x hx => hw.exists_mem_properties hx⟩

/-- A counter that begins at a constant gets its value beside the declaration, and nowhere else. -/
theorem writes_of_counter :
    let count : Property := ⟨"count", .num, some (.literal (.int 0)), false, false, false⟩
    let c := (new "Counter").run [.property count]
    count ∈ c.properties ∧ ∃ ls w ms, (Stmt.classDef c []).layout .typescript = .ok ls ∧
      ls = c.text .typescript w ms ∧ (w.writesTo "count").length = 1 := by
  intro count c
  have hcount : count ∈ c.properties := List.mem_singleton.2 rfl
  obtain ⟨ls, hls⟩ : ∃ ls, (Stmt.classDef c []).layout .typescript = .ok ls := ⟨_, rfl⟩
  obtain ⟨w, ms, -, -, htext, hwrites, -⟩ := writes_of_layout "Counter" [.property count] hls
  exact ⟨hcount, ls, w, ms, hls, htext, (hwrites count hcount).2⟩

/-- A constant default of an argument is written in TypeScript twice: beside the declaration and as
the argument's default, which the constructor stores. -/
theorem argument_with_constant_written_twice :
    let start : Property := ⟨"start", .num, some (.literal (.int 3)), true, false, false⟩
    let c := (new "Counter").run [.property start]
    let w : Wiring := ⟨[⟨start, "number", some "3"⟩],
      some ([.line "public constructor(", .nest [.line "start: number = 3,"], .line ") \x7b"],
        [.store "start" "start"])⟩
    (Stmt.classDef c []).layout .typescript = .ok (c.text .typescript w []) ∧
      c.text .typescript w [] = [.line "class Counter \x7b",
        .nest [.line "public start: number = 3;", .blank, .line "public constructor(",
          .nest [.line "start: number = 3,"], .line ") \x7b", .nest [.line "this.start = start;"],
          .line "\x7d"], .line "\x7d"] ∧
      (w.writesTo "start").length = 2 ∧ (start.asked .typescript).length = 1 :=
  ⟨rfl, rfl, rfl, rfl⟩

end Class

end Polyglot
