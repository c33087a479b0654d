import Mathlib.Data.List.Induction
import Mathlib.Logic.Function.Basic
import Polyglot.Proofs.Access.Fallback
import Polyglot.Proofs.Stmt.Render

/-!
# What the construction of a dict leaves in its variable

The pairs that are always there are written as a literal, and the pairs that may be left out as
assignments behind it, each with a test whether its value was supplied. So a pair that may be left
out is put in behind all others, wherever it was added.

* `Dict.put` : what putting in one pair does to a dict.
* `Program`, `Program.run?` : the statements that are written, and what they leave in the variable.
* `DictBuilder.described` : the dict that the pairs describe in the order in which they were added.
* `DictBuilder.overtaking?` : the pair that is left in the place of the last one under its key.
* `DictBuilder.entries_of_layout` : **what the statements leave under each key.**

What a type checker says of a key that stands twice in a literal is left aside.
-/

set_option autoImplicit false

namespace Polyglot.Construction

open Outcome Lookup

variable {t : Target}

/-! ## Dicts -/

/-- A dict when the program runs. A bare one has lost its prototype; only TypeScript has prototypes.
-/
structure Dict where
  entries : String → Option Value
  bare : Bool

/-- The name of the prototype of a TypeScript object, as long as it has one. -/
def prototypeKey : String := "__proto__"

namespace Dict

def new : Dict := ⟨fun _ => none, false⟩

/-- A key stands for the prototype and not for an entry. -/
def IsReserved (t : Target) (d : Dict) (key : String) : Prop :=
  t = .typescript ∧ key = prototypeKey ∧ d.bare = false

instance (t : Target) (d : Dict) (key : String) : Decidable (d.IsReserved t key) :=
  instDecidableAnd

/-- Puts in a pair, over what was there under its key. As the prototype, an object is taken over,
null takes away the one that there was, and other values change nothing. -/
def put (t : Target) (d : Dict) (pair : String × Value) : Dict :=
  if d.IsReserved t pair.1 then { d with bare := pair.2.isNull }
  else { d with entries := Function.update d.entries pair.1 (some pair.2) }

def putAll (t : Target) (d : Dict) (pairs : List (String × Value)) : Dict := pairs.foldl (put t) d

variable {d : Dict} {key : String} {pair : String × Value}

theorem putAll_cons (d : Dict) (pair : String × Value) (pairs : List (String × Value)) :
    d.putAll t (pair :: pairs) = (d.put t pair).putAll t pairs := rfl

theorem put_of_reserved (h : d.IsReserved t pair.1) :
    d.put t pair = { d with bare := pair.2.isNull } := if_pos h

theorem put_of_not_reserved (h : ¬d.IsReserved t pair.1) :
    d.put t pair = { d with entries := Function.update d.entries pair.1 (some pair.2) } := if_neg h

theorem not_isReserved (ht : t ≠ .typescript) : ¬d.IsReserved t key := fun h => ht h.1

/-- A key that stands for an entry does so from then on. -/
theorem not_isReserved_put (h : ¬d.IsReserved t key) (pair : String × Value) :
    ¬(d.put t pair).IsReserved t key := by
  by_cases hpair : d.IsReserved t pair.1
  · -- The pair has another key, as its own is reserved.
    rintro ⟨ht, rfl, -⟩
    exact h ⟨ht, rfl, hpair.2.2⟩
  · rwa [put_of_not_reserved hpair]

theorem entries_put (h : ¬d.IsReserved t key) :
    (d.put t pair).entries key = if pair.1 = key then some pair.2 else d.entries key := by
  by_cases hpair : d.IsReserved t pair.1
  · have hne : pair.1 ≠ key := fun heq => h (heq ▸ hpair)
    rw [put_of_reserved hpair, if_neg hne]
  · rw [put_of_not_reserved hpair]
    exact (Function.update_apply ..).trans (if_congr eq_comm rfl rfl)

/-- The last pair under a key is what is stored there. -/
theorem entries_putAll (h : ¬d.IsReserved t key) (pairs : List (String × Value)) :
    (d.putAll t pairs).entries key =
      ((pairs.filter (·.1 = key)).getLast?.map Prod.snd).or (d.entries key) := by
  induction pairs generalizing d with
  | nil => rfl
  | cons pair pairs ih =>
      rw [putAll_cons, ih (not_isReserved_put h pair), entries_put h, List.filter_cons]
      by_cases hpair : pair.1 = key
      · rw [if_pos hpair, if_pos (decide_eq_true hpair), List.getLast?_cons]
        cases (pairs.filter (·.1 = key)).getLast? <;> rfl
      · rw [if_neg hpair, if_neg (by simpa using hpair)]

/-- While the object has a prototype, nothing is stored under the name of the prototype. -/
theorem entries_putAll_prototypeKey (h : d.bare = false) (pairs : List (String × Value)) :
    (d.putAll .typescript pairs).entries prototypeKey =
      (((pairs.filter (·.1 = prototypeKey)).dropWhile fun pair =>
        !pair.2.isNull).tail.getLast?.map Prod.snd).or (d.entries prototypeKey) := by
  induction pairs generalizing d with
  | nil => rfl
  | cons pair pairs ih =>
      rw [putAll_cons, List.filter_cons]
      by_cases hpair : pair.1 = prototypeKey
      · have hreserved : d.IsReserved .typescript pair.1 := ⟨rfl, hpair, h⟩
        rw [put_of_reserved hreserved, if_pos (decide_eq_true hpair), List.dropWhile_cons]
        cases hnull : pair.2.isNull with
        | false => exact ih rfl
        | true =>
            have hbare : ¬IsReserved .typescript { d with bare := true } prototypeKey := nofun
            exact entries_putAll hbare pairs
      · have hreserved : ¬d.IsReserved .typescript pair.1 := fun h => hpair h.2.1
        have hentry : (d.put .typescript pair).entries prototypeKey = d.entries prototypeKey := by
          rw [put_of_not_reserved hreserved]
          exact Function.update_of_ne (Ne.symm hpair) ..
        have hbare : (d.put .typescript pair).bare = false := by
          rw [put_of_not_reserved hreserved]
          exact h
        rw [ih hbare, hentry, if_neg (by simpa using hpair)]

end Dict

/-! ## Programs -/

/-- A pair with the code of its value. -/
structure Pair where
  key : String
  value : Expr
  code : Code

/-- The statements that construct a dict: its type as it is declared, in PHP in a comment, the pairs
of the literal, and the pairs that are assigned if their values were supplied. -/
structure Program where
  name : String
  ty : String
  literal : List Pair
  guarded : List Pair

namespace Pair

/-- The pair of a literal as it is written. -/
def print (t : Target) (p : Pair) : String :=
  match t with
  | .python | .typescript => Text.Quoted.encode p.key ++ ": " ++ p.code.text
  | .php => Text.SingleQuoted.encode p.key ++ " => " ++ p.code.text

/-- The assignment of a pair behind the test whether its value was supplied. PHP has none. -/
def printGuarded (t : Target) (name : String) (p : Pair) : List Layout :=
  match t with
  | .python =>
    let test := "not isinstance(" ++ p.code.text ++ ", type(...))"
    [.line ("if " ++ test ++ ":"),
      .nest [.line (name ++ "[" ++ Text.Quoted.encode p.key ++ "] = " ++ p.code.text)]]
  | .typescript =>
    let test := "typeof " ++ p.code.base ++ " !== 'undefined'"
    [.line ("if (" ++ test ++ ") \x7b"),
      .nest [.line (name ++ "[" ++ Text.Quoted.encode p.key ++ "] = " ++ p.code.text ++ ";")],
      .line "\x7d"]
  | .php => []

/-- A written pair is one of the pairs of a builder. -/
def IsOf (t : Target) (e : BuilderEntry) (p : Pair) : Prop :=
  p.key = e.key ∧ p.value = e.value ∧ e.value.render t = .ok p.code

/-- What the pair is when the program runs. -/
def eval (values : Expr → Value) (p : Pair) : String × Value := (p.key, values p.value)

end Pair

namespace Program

/-- The lines of the program. -/
def print (t : Target) (g : Program) : List Layout :=
  let pairs := ", ".intercalate (g.literal.map (·.print t))
  let declaration : List Layout := match t with
    | .python => [.line (g.name ++ ": " ++ g.ty ++ " = \x7b" ++ pairs ++ "\x7d")]
    | .typescript => [.line ("let " ++ g.name ++ ": " ++ g.ty ++ " = \x7b" ++ pairs ++ "\x7d;")]
    | .php => [.line g.ty, .line ("$" ++ g.name ++ " = [" ++ pairs ++ "];")]
  declaration ++ g.guarded.flatMap (·.printGuarded t g.name)

/-- A literal of TypeScript names the prototype at most once, or the program is refused. -/
def IsRefused (t : Target) (g : Program) : Prop :=
  t = .typescript ∧ 1 < (g.literal.filter (·.key = prototypeKey)).length

instance (t : Target) (g : Program) : Decidable (g.IsRefused t) := instDecidableAnd

/-- Runs one of the tests and the assignment behind it. -/
def assign (t : Target) (values : Expr → Value) (d : Dict) (p : Pair) : Dict :=
  if (values p.value).isOmitted then d else d.put t (p.eval values)

/-- What the program leaves in the variable, where the expressions have the given values. -/
def run? (t : Target) (values : Expr → Value) (g : Program) : Option Dict :=
  if g.IsRefused t then none
  else some (g.guarded.foldl (assign t values)
    (Dict.new.putAll t (g.literal.map (·.eval values))))

/-- A program that writes the pairs of a builder. PHP has no sentinel to test for. -/
structure IsOf (t : Target) (b : DictBuilder) (g : Program) : Prop where
  name : g.name = b.name
  literal : List.Forall₂ (Pair.IsOf t) b.fixed g.literal
  guarded : List.Forall₂ (Pair.IsOf t) b.guarded g.guarded
  php : t = .php → b.guarded = []

end Program

end Polyglot.Construction

namespace Polyglot.DictBuilder

open Outcome Lookup Construction

variable {t : Target} (b : DictBuilder) (values : Expr → Value) (key : String)

/-! ## What the pairs describe -/

/-- The dict that the pairs describe: in the order in which they were added, each is put in unless
it may be left out and its value was not supplied. -/
def described : String → Option Value :=
  b.entries.foldl (fun dict e =>
    if e.allowOmit && (values e.value).isOmitted then dict
    else Function.update dict e.key (some (values e.value))) fun _ => none

/-- The pairs that are there when the program runs, in the order in which they were added. -/
def present : List BuilderEntry :=
  b.entries.filter fun e => !(e.allowOmit && (values e.value).isOmitted)

/-- The same pairs in the order in which they are put in. -/
def written : List BuilderEntry :=
  (b.present values).filter (fun e => !e.allowOmit) ++ (b.present values).filter (·.allowOmit)

/-- The pairs under a key. -/
def atKey (key : String) (es : List BuilderEntry) : List BuilderEntry := es.filter (·.key = key)

/-- The last of the pairs that could have been left out, if the last pair of all could not. -/
def behindFixed? (es : List BuilderEntry) : Option BuilderEntry :=
  (es.getLast?.filter fun e => !e.allowOmit).bind fun _ => (es.filter (·.allowOmit)).getLast?

/-- The pair that takes the place of the last one under a key: it may be left out, which the last
one may not, so it is put in behind that. -/
def overtaking? : Option BuilderEntry := behindFixed? (atKey key (b.present values))

/-- The pair that is stored under the name of the prototype: the last one that is put in behind a
null, which took the prototype away. -/
def besidePrototype? : Option BuilderEntry :=
  ((atKey prototypeKey (b.written values)).dropWhile fun e =>
    !(values e.value).isNull).tail.getLast?

/-- What is stored under a key where that is not what the pairs describe. -/
def deviation (t : Target) : Option (Option Value) :=
  let overtaken := (b.overtaking? values key).map fun e => some (values e.value)
  match t with
  | .python => overtaken
  | .typescript =>
    if key = prototypeKey then some ((b.besidePrototype? values).map fun e => values e.value)
    else overtaken
  | .php => none

variable {b values key}

/-! ### The order of the pairs -/

/-- If those that could have been left out are put behind the others, one of them becomes the last
of all unless there is none. -/
theorem getLast?_reordered (es : List BuilderEntry) :
    (es.filter (fun e => !e.allowOmit) ++ es.filter (·.allowOmit)).getLast? =
      (behindFixed? es).or es.getLast? := by
  induction es using List.reverseRecOn with
  | nil => rfl
  | append_singleton es last =>
      rw [behindFixed?, List.getLast?_concat, List.filter_append, List.filter_append]
      cases hlast : last.allowOmit with
      | true => simp [hlast, Option.filter_some]
      | false => simp [hlast, Option.filter_some, List.getLast?_cons]

/-! ### Pairs when the program runs -/

def evalAll (values : Expr → Value) (es : List BuilderEntry) : List (String × Value) :=
  es.map fun e => (e.key, values e.value)

theorem filter_evalAll (key : String) (es : List BuilderEntry) :
    (evalAll values es).filter (·.1 = key) = evalAll values (atKey key es) := List.filter_map

theorem getLast?_evalAll (es : List BuilderEntry) :
    (evalAll values es).getLast?.map Prod.snd = es.getLast?.map fun e => values e.value := by
  rw [evalAll, List.getLast?_map, Option.map_map]
  rfl

/-- The pairs describe the dict that they make if they are put in as they were added. -/
theorem described_eq_putAll :
    b.described values = (Dict.new.putAll .python (evalAll values (b.present values))).entries := by
  rw [described, Dict.putAll, evalAll, List.foldl_map, present, List.foldl_filter]
  change b.entries.foldl _ Dict.new.entries = _
  refine List.foldl_hom Dict.entries fun d e => ?_
  cases e.allowOmit && (values e.value).isOmitted <;> rfl

theorem described_eq :
    b.described values key =
      (atKey key (b.present values)).getLast?.map fun e => values e.value := by
  have hreserved : ¬Dict.new.IsReserved .python key := Dict.not_isReserved (by decide)
  rw [described_eq_putAll, Dict.entries_putAll hreserved, filter_evalAll, getLast?_evalAll]
  exact Option.or_none

/-- The pairs of the literal, and behind them those whose values were supplied. -/
theorem written_eq :
    b.written values = b.fixed ++ b.guarded.filter fun e => !(values e.value).isOmitted := by
  rw [written, present, fixed, guarded, List.filter_filter, List.filter_filter, List.filter_filter]
  congr 1
  · exact List.filter_congr fun e _ => by cases e.allowOmit <;> rfl
  · exact List.filter_congr fun e _ => by cases e.allowOmit <;> simp

/-! ## What a program leaves -/

section Run

variable {g : Program} {es : List BuilderEntry} {ps : List Pair}

theorem map_eval (h : List.Forall₂ (Pair.IsOf t) es ps) :
    ps.map (·.eval values) = evalAll values es := by
  induction h with
  | nil => rfl
  | cons hp _ ih =>
      obtain ⟨hkey, hvalue, -⟩ := hp
      rw [List.map_cons, ih, Pair.eval, hkey, hvalue]
      rfl

/-- The assignments put in the pairs whose values were supplied. -/
theorem foldl_assign (h : List.Forall₂ (Pair.IsOf t) es ps) (d : Dict) :
    ps.foldl (Program.assign t values) d =
      d.putAll t (evalAll values (es.filter fun e => !(values e.value).isOmitted)) := by
  induction h generalizing d with
  | nil => rfl
  | @cons e p es ps hp _ ih =>
      obtain ⟨hkey, hvalue, -⟩ := hp
      rw [List.foldl_cons, ih, Program.assign, Pair.eval, hkey, hvalue, List.filter_cons]
      cases (values e.value).isOmitted <;> rfl

/-- A program is refused for the pairs that are always there. -/
theorem isRefused_iff (h : g.IsOf t b) :
    g.IsRefused t ↔ t = .typescript ∧ 1 < (atKey prototypeKey b.fixed).length := by
  have hfilter : List.Forall₂ (Pair.IsOf t) (atKey prototypeKey b.fixed)
      (g.literal.filter (·.key = prototypeKey)) :=
    List.rel_filter (fun e p hp => by simp [hp.1]) h.literal
  rw [Program.IsRefused, hfilter.length_eq]

theorem run?_eq (h : g.IsOf t b) :
    g.run? t values =
      if g.IsRefused t then none
      else some (Dict.new.putAll t (evalAll values (b.written values))) := by
  rw [Program.run?, map_eval h.literal, foldl_assign h.guarded, written_eq, evalAll, evalAll,
    evalAll, List.map_append, Dict.putAll, Dict.putAll, Dict.putAll, List.foldl_append]

/-- The last pair that is put in under a key is the one that is described, or overtakes it. -/
theorem getLast?_atKey_written :
    (atKey key (b.written values)).getLast?.map (fun e => values e.value) =
      ((b.overtaking? values key).map fun e => values e.value).or (b.described values key) := by
  have hcomm (p : BuilderEntry → Bool) (es : List BuilderEntry) :
      atKey key (es.filter p) = (atKey key es).filter p := by
    rw [atKey, atKey, List.filter_filter, List.filter_filter]
    exact List.filter_congr fun e _ => Bool.and_comm _ _
  have hwritten : atKey key (b.written values) =
      (atKey key (b.present values)).filter (fun e => !e.allowOmit) ++
        (atKey key (b.present values)).filter (·.allowOmit) := by
    rw [written, ← hcomm, ← hcomm]
    exact List.filter_append ..
  rw [hwritten, getLast?_reordered, ← overtaking?, described_eq, Option.map_or]

theorem overtaking?_of_guarded_nil (h : b.guarded = []) : b.overtaking? values key = none := by
  have hnone : (atKey key (b.present values)).filter (·.allowOmit) = [] :=
    List.filter_eq_nil_iff.2 fun e he =>
      List.filter_eq_nil_iff.1 h e (List.mem_of_mem_filter (List.mem_of_mem_filter he))
  rw [overtaking?, behindFixed?, hnone]
  exact Option.bind_fun_none _

/-- What a program leaves under a key, if it runs. -/
theorem entries_of_run? (h : g.IsOf t b) {d : Dict} (hd : g.run? t values = some d) :
    d.entries key = (b.deviation values key t).getD (b.described values key) := by
  rw [run?_eq h] at hd
  split at hd
  · cases hd
  cases hd
  have hentry (hreserved : ¬Dict.new.IsReserved t key) :
      (Dict.new.putAll t (evalAll values (b.written values))).entries key =
        ((b.overtaking? values key).map fun e => some (values e.value)).getD
          (b.described values key) := by
    rw [Dict.entries_putAll hreserved, filter_evalAll, getLast?_evalAll, getLast?_atKey_written]
    cases b.overtaking? values key <;> exact Option.or_none
  cases t with
  | python => exact hentry (Dict.not_isReserved (by decide))
  | typescript =>
      by_cases hkey : key = prototypeKey
      · subst hkey
        have hdrop (es : List BuilderEntry) :
            ((evalAll values es).dropWhile fun pair => !pair.2.isNull).tail =
              evalAll values ((es.dropWhile fun e => !(values e.value).isNull).tail) := by
          rw [evalAll, List.dropWhile_map, ← List.map_tail]
          rfl
        rw [Dict.entries_putAll_prototypeKey rfl, filter_evalAll, hdrop, getLast?_evalAll]
        exact Option.or_none
      · rw [deviation, if_neg hkey]
        exact hentry fun hreserved => hkey hreserved.2.1
  | php =>
      have hphp := hentry (Dict.not_isReserved (by decide))
      rwa [overtaking?_of_guarded_nil (h.php rfl)] at hphp

end Run

/-! ## The text of a construction -/

/-- Pairs that are written around the code of their values. -/
theorem exists_pairs {α : Type} {write : BuilderEntry → Except Error α} {print : Pair → α}
    (hwrite : ∀ e : BuilderEntry,
      write e = e.value.render t >>= fun c => pure (print ⟨e.key, e.value, c⟩))
    {es : List BuilderEntry} {as : List α} (h : es.mapM write = .ok as) :
    ∃ ps, List.Forall₂ (Pair.IsOf t) es ps ∧ as = ps.map print := by
  refine exists_map_of_mapM_eq_ok h fun e _ a ha => ?_
  rw [hwrite] at ha
  obtain ⟨c, hc, ha⟩ := bind_eq_ok.1 ha
  cases pure_eq_ok.1 ha
  exact ⟨⟨e.key, e.value, c⟩, ⟨rfl, rfl, hc⟩, rfl⟩

theorem pythonPair_eq (e : BuilderEntry) :
    e.pythonPair = e.value.render .python >>= fun c =>
      pure ((Pair.mk e.key e.value c).print .python) := by
  rw [BuilderEntry.pythonPair, Expr.pythonText, Expr.render]
  cases e.value.toPython <;> rfl

theorem pythonGuard_eq (name : String) (e : BuilderEntry) :
    e.pythonGuard name = e.value.render .python >>= fun c =>
      pure ((Pair.mk e.key e.value c).printGuarded .python name) := by
  rw [BuilderEntry.pythonGuard, Expr.pythonText, Expr.pythonText, Expr.toPython, Expr.render]
  cases e.value.toPython with
  | error e => rfl
  | ok c =>
      have htest : "not " ++ Code.callText "isinstance" [c.text, "type(...)"] =
          "not isinstance(" ++ c.text ++ ", type(...))" :=
        String.toList_inj.1 (by simp [Code.callText])
      simp only [ok_bind, pure_bind, htest]
      rfl

theorem typeScriptPair_eq (e : BuilderEntry) :
    e.typeScriptPair = e.value.render .typescript >>= fun c =>
      pure ((Pair.mk e.key e.value c).print .typescript) := by
  rw [BuilderEntry.typeScriptPair, Expr.typeScriptText, Expr.render]
  cases e.value.toTypeScript <;> rfl

theorem typeScriptGuard_eq (name : String) (e : BuilderEntry) :
    e.typeScriptGuard name = e.value.render .typescript >>= fun c =>
      pure ((Pair.mk e.key e.value c).printGuarded .typescript name) := by
  rw [BuilderEntry.typeScriptGuard, Expr.typeScriptText, Expr.typeScriptText, Expr.toTypeScript,
    Expr.render]
  cases e.value.toTypeScript <;> rfl

theorem phpPair_eq (e : BuilderEntry) :
    e.phpPair = e.value.render .php >>= fun c =>
      pure ((Pair.mk e.key e.value c).print .php) := by
  rw [BuilderEntry.phpPair, Expr.phpText, Expr.render]
  cases e.value.toPhp <;> rfl

/-- A construction is written as a program with the pairs of the builder. -/
theorem exists_program {ls : List Layout} (h : (Stmt.plain (.build b)).layout t = .ok ls) :
    ∃ g : Program, g.IsOf t b ∧ ls = g.print t := by
  cases t with
  | python =>
      obtain ⟨pairs, hpairs, h⟩ := bind_eq_ok.1 h
      obtain ⟨ty, -, h⟩ := bind_eq_ok.1 h
      obtain ⟨guards, hguards, h⟩ := bind_eq_ok.1 h
      cases pure_eq_ok.1 h
      obtain ⟨literal, hliteral, rfl⟩ := exists_pairs (t := .python) pythonPair_eq hpairs
      obtain ⟨guarded, hguarded, rfl⟩ :=
        exists_pairs (t := .python) (pythonGuard_eq b.name) hguards
      exact ⟨⟨b.name, ty, literal, guarded⟩, ⟨rfl, hliteral, hguarded, nofun⟩, rfl⟩
  | typescript =>
      obtain ⟨pairs, hpairs, h⟩ := bind_eq_ok.1 h
      obtain ⟨ty, -, h⟩ := bind_eq_ok.1 h
      obtain ⟨guards, hguards, h⟩ := bind_eq_ok.1 h
      cases pure_eq_ok.1 h
      obtain ⟨literal, hliteral, rfl⟩ := exists_pairs (t := .typescript) typeScriptPair_eq hpairs
      obtain ⟨guarded, hguarded, rfl⟩ :=
        exists_pairs (t := .typescript) (typeScriptGuard_eq b.name) hguards
      exact ⟨⟨b.name, ty, literal, guarded⟩, ⟨rfl, hliteral, hguarded, nofun⟩, rfl⟩
  | php =>
      change b.toPhp = .ok ls at h
      cases hguarded : b.guarded with
      | cons e es =>
          rw [DictBuilder.toPhp, hguarded] at h
          cases h
      | nil =>
          rw [DictBuilder.toPhp, hguarded] at h
          obtain ⟨comment, -, h⟩ := bind_eq_ok.1 h
          obtain ⟨pairs, hpairs, h⟩ := bind_eq_ok.1 h
          cases pure_eq_ok.1 h
          have hfixed : b.fixed = b.entries :=
            List.filter_eq_self.2 fun e he => by
              have hnone := List.filter_eq_nil_iff.1 hguarded e he
              simpa using hnone
          rw [← hfixed] at hpairs
          obtain ⟨literal, hliteral, rfl⟩ := exists_pairs (t := .php) phpPair_eq hpairs
          exact ⟨⟨b.name, comment, literal, []⟩,
            ⟨rfl, hliteral, hguarded ▸ .nil, fun _ => hguarded⟩, rfl⟩

/-- **What the construction of a dict leaves under each key.** Whatever pairs were added and
whichever of their values are the sentinel: the statements leave the dict that the pairs describe in
the order in which they were added, but for a pair that may be left out and is not, in front of the
last one under its key if that is always there, and but for the name of the prototype in TypeScript.
PHP leaves the dict that is described. -/
theorem entries_of_layout {b : DictBuilder} {ls : List Layout}
    (h : (Stmt.plain (.build b)).layout t = .ok ls) (values : Expr → Value) :
    ∃ g : Program, g.IsOf t b ∧ ls = g.print t ∧
      (g.run? t values = none ↔
        t = .typescript ∧ 1 < (atKey prototypeKey b.fixed).length) ∧
      ∀ d, g.run? t values = some d → ∀ key,
        d.entries key = (b.deviation values key t).getD (b.described values key) := by
  obtain ⟨g, hg, hls⟩ := exists_program h
  refine ⟨g, hg, hls, ?_, fun d hd key => entries_of_run? hg hd⟩
  rw [run?_eq hg, ← isRefused_iff hg]
  by_cases hrefused : g.IsRefused t
  · exact iff_of_true (if_pos hrefused) hrefused
  · rw [if_neg hrefused]
    exact iff_of_false nofun hrefused

/-- A pair that may be left out replaces one that was added in front of it, if its value was
supplied. -/
theorem entries_of_optional_pairs :
    let b := (((DictBuilder.mk "d" .any []).addPair "k" (.literal (.int 1)) false).addPair "k"
      (.var "a" none) true).addPair "n" (.var "b" none) true
    let values : Expr → Value
      | .var "a" _ => .int 7
      | .var "b" _ => .omitted
      | _ => .int 1
    ∃ ls, (Stmt.plain (.build b)).layout .typescript = .ok ls ∧
      ∃ g : Program, ls = g.print .typescript ∧ g.run? .typescript values ≠ none ∧
        ∀ d, g.run? .typescript values = some d →
          d.entries "k" = some (.int 7) ∧ d.entries "n" = none := by
  intro b values
  obtain ⟨ls, hls⟩ : ∃ ls, (Stmt.plain (.build b)).layout .typescript = .ok ls := ⟨_, rfl⟩
  obtain ⟨g, -, hprint, hrefused, hentries⟩ := entries_of_layout hls values
  refine ⟨ls, hls, g, hprint, fun hnone => ?_, fun d hd => ?_⟩
  · exact absurd (hrefused.1 hnone).2 (by decide)
  · exact ⟨hentries d hd "k", hentries d hd "n"⟩

/-- A pair that may be left out replaces one that was added behind it, too. -/
theorem entries_of_overtaken_pair :
    let b := ((DictBuilder.mk "d" .any []).addPair "k" (.var "a" none) true).addPair "k"
      (.literal (.int 1)) false
    let values : Expr → Value
      | .var _ _ => .int 7
      | _ => .int 1
    let g : Program := ⟨"d", "Dict[str, Any]", [⟨"k", .literal (.int 1), ⟨"1", .literal⟩⟩],
      [⟨"k", .var "a" none, ⟨"a", .literal⟩⟩]⟩
    (Stmt.plain (.build b)).layout .python = .ok (g.print .python) ∧
      g.print .python = [.line "d: Dict[str, Any] = \x7b'k': 1\x7d",
        .line "if not isinstance(a, type(...)):", .nest [.line "d['k'] = a"]] ∧
      (g.run? .python values).map (·.entries "k") = some (some (.int 7)) ∧
      b.described values "k" = some (.int 1) :=
  ⟨rfl, rfl, rfl, rfl⟩

end Polyglot.DictBuilder
