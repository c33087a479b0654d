import Polyglot.Proofs.Expr.Spelling

/-!
# Reading core expressions

A reader that goes through tokens from left to right and builds the expression back. It knows
nothing of the output language: words decide between constants, variables and calls, and brackets
decide what belongs together.

* `readExpr` : reads one expression and gives the tokens behind it.
* `Expr.reads` : the tokens of a core expression are read back to it, without its static types.
-/

set_option autoImplicit false

namespace Polyglot

namespace Expr

/-- The negation of an expression; two negations cancel. -/
def inverted : Expr → Expr
  | .not operand => operand
  | e => .not e

/-- What a word alone stands for. -/
def ofWord (s : String) : Expr :=
  if s = "True" ∨ s = "true" then .literal (.bool true)
  else if s = "False" ∨ s = "false" then .literal (.bool false)
  else if s = "None" ∨ s = "null" then .null
  else .var s none

/-- What a word with arguments stands for: a conversion to a truth value is left out. -/
def ofCall (s : String) (args : List Expr) : Expr :=
  match args with
  | [e] => if s = "bool" then e else .call s false [e] []
  | _ => .call s false args []

end Expr

/-! ## The reader

The first argument bounds the depth of the recursion. -/

mutual

/-- Reads an operand, and a comparison or a logical combination that it begins. -/
def readExpr : Nat → List Token → Option (Expr × List Token)
  | 0, _ => none
  | n + 1, ts =>
    match readOperand n ts with
    | none => none
    | some (e, .mark (.comparison op negated) :: ts) =>
      (readOperand n ts).map fun p => (.compare op negated e p.1, p.2)
    | some (e, .mark (.junction op) :: ts) =>
      (readJoined n op ts).map fun p => (.junction op (e :: p.1), p.2)
    | some p => some p

/-- Reads an atom or something in brackets, and the selectors behind it. -/
def readOperand : Nat → List Token → Option (Expr × List Token)
  | 0, _ => none
  | n + 1, .mark .negation :: ts => (readOperand n ts).map fun p => (p.1.inverted, p.2)
  | n + 1, .mark .opens :: ts =>
    match readExpr n ts with
    | some (e, .mark .closes :: ts) => readSelectors n e ts
    | _ => none
  | n + 1, .mark .opensList :: ts =>
    match readItems n .closesList ts with
    | some (es, ts) => readSelectors n (.list es .any) ts
    | none => none
  | n + 1, .mark .sigil :: .word s :: ts => readSelectors n (.var s none) ts
  | n + 1, .word s :: .mark .opens :: ts =>
    match readItems n .closes ts with
    | some (es, ts) => readSelectors n (.ofCall s es) ts
    | none => none
  | n + 1, .word s :: ts => readSelectors n (.ofWord s) ts
  | n + 1, .number i :: ts => readSelectors n (.literal (.int i)) ts
  | n + 1, .text s :: ts => readSelectors n (.literal (.str s)) ts
  | _ + 1, _ => none

/-- Reads selectors, subscripts and method calls behind an expression. -/
def readSelectors : Nat → Expr → List Token → Option (Expr × List Token)
  | 0, _, _ => none
  | n + 1, e, .mark .selector :: .word s :: .mark .opens :: ts =>
    match readItems n .closes ts with
    | some (es, ts) => readSelectors n (.apply (.prop e s .any) false es []) ts
    | none => none
  | n + 1, e, .mark .selector :: .word s :: ts => readSelectors n (.prop e s .any) ts
  | n + 1, e, .mark .opensList :: ts =>
    match readExpr n ts with
    | some (key, .mark .closesList :: ts) => readSelectors n (.item .position e key) ts
    | _ => none
  | _ + 1, e, ts => some (e, ts)

/-- Reads expressions with commas between them, and the mark that closes them. -/
def readItems : Nat → Mark → List Token → Option (List Expr × List Token)
  | 0, _, _ => none
  | n + 1, stop, ts =>
    match readExpr n ts with
    | some (e, .mark m :: rest) =>
      if m = stop then some ([e], rest)
      else if m = .comma then (readItems n stop rest).map fun p => (e :: p.1, p.2)
      else none
    | some _ => none
    | none =>
      match ts with
      | .mark m :: rest => if m = stop then some ([], rest) else none
      | _ => none

/-- Reads the further operands of a logical combination. -/
def readJoined : Nat → Junction → List Token → Option (List Expr × List Token)
  | 0, _, _ => none
  | n + 1, op, ts =>
    match readOperand n ts with
    | none => none
    | some (e, .mark (.junction op') :: rest) =>
      if op' = op then (readJoined n op rest).map fun p => (e :: p.1, p.2) else none
    | some (e, rest) => some ([e], rest)

end

/-! ## What may follow -/

/-- Behind a name, no argument list follows. -/
def NoCall (ts : List Token) : Prop := ∀ r, ts ≠ .mark .opens :: r

/-- Behind an operand, neither an argument list nor a selector follows. -/
def EndsOperand (ts : List Token) : Prop :=
  ts = [] ∨ ∃ m r, ts = .mark m :: r ∧ m ≠ .opens ∧ m ≠ .opensList ∧ m ≠ .selector

/-- Behind a whole expression, nothing follows or a mark that closes it. -/
def Stops (ts : List Token) : Prop :=
  ts = [] ∨ ∃ m r, ts = .mark m :: r ∧ (m = .closes ∨ m = .closesList ∨ m = .comma)

theorem Stops.endsOperand {ts : List Token} (h : Stops ts) : EndsOperand ts := by
  rcases h with rfl | ⟨m, r, rfl, hm⟩
  · exact .inl rfl
  · refine .inr ⟨m, r, rfl, ?_⟩
    rcases hm with rfl | rfl | rfl <;> decide

theorem EndsOperand.noCall {ts : List Token} (h : EndsOperand ts) : NoCall ts := by
  rintro r rfl
  rcases h with h | ⟨m, r', h, hm, -⟩
  · cases h
  · cases h
    exact hm rfl

theorem noCall_mark {m : Mark} (hm : m ≠ .opens) (ts : List Token) : NoCall (.mark m :: ts) := by
  rintro r h
  cases h
  exact hm rfl

theorem readSelectors_end {n : Nat} {ts : List Token} (h : EndsOperand ts) (e : Expr) :
    readSelectors (n + 1) e ts = some (e, ts) := by
  rcases h with rfl | ⟨m, r, rfl, h1, h2, h3⟩
  · rw [readSelectors]
    · simp
    · simp
    · simp
  · cases m with
    | opens => exact absurd rfl h1
    | opensList => exact absurd rfl h2
    | selector => exact absurd rfl h3
    | _ => rfl

theorem readOperand_group {n : Nat} {e : Expr} {ts r : List Token}
    (h : readExpr (n + 1) ts = some (e, .mark .closes :: r)) (hr : EndsOperand r) :
    readOperand (n + 2) (.mark .opens :: ts) = some (e, r) := by
  rw [readOperand, h]
  exact readSelectors_end hr e

theorem readSelectors_word {n : Nat} {e : Expr} {s : String} {ts : List Token} (h : NoCall ts) :
    readSelectors (n + 1) e (.mark .selector :: .word s :: ts) =
      readSelectors n (.prop e s .any) ts := by
  rw [readSelectors]
  exact fun r hr => h r hr

theorem readOperand_word {n : Nat} {s : String} {ts : List Token} (h : NoCall ts) :
    readOperand (n + 1) (.word s :: ts) = readSelectors n (.ofWord s) ts := by
  rw [readOperand]
  exact fun r hr => h r hr

/-- Nothing begins with a mark that closes. -/
theorem readExpr_closing (n : Nat) {m : Mark} (hm : m = .closes ∨ m = .closesList)
    (ts : List Token) : readExpr n (.mark m :: ts) = none := by
  cases n with
  | zero => rfl
  | succ n =>
      cases n with
      | zero => rfl
      | succ n => rcases hm with rfl | rfl <;> rfl

/-! ## Reading back -/

namespace Expr

/-- How the tokens of an expression are read, with enough depth: an expression that needs no
parentheses is read up to its last selector, and any expression as a whole. -/
structure Reads (t : Target) (e : Expr) : Prop where
  tight : e.isLoose t = false → ∃ j ≤ 2 * sizeOf e, ∀ k r, 4 * sizeOf e ≤ k + j → NoCall r →
    readOperand (k + j) (e.tokens t ++ r) = readSelectors k e.untyped r
  whole : ∀ n r, 4 * sizeOf e + 1 ≤ n → Stops r →
    readExpr n (e.tokens t ++ r) = some (e.untyped, r)

theorem sizeOf_pos (e : Expr) : 1 ≤ sizeOf e := by
  cases e <;> simp <;> omega

/-- Parentheses make an operand of every expression. -/
theorem Reads.operand {t : Target} {e : Expr} (h : Reads t e) :
    ∃ j ≤ 2 * sizeOf e, ∀ k r, 4 * sizeOf e + 2 ≤ k + j → NoCall r →
      readOperand (k + j) (e.operand t ++ r) = readSelectors k e.untyped r := by
  have hpos := sizeOf_pos e
  cases hl : e.isLoose t with
  | false =>
      obtain ⟨j, hj, hread⟩ := h.tight hl
      refine ⟨j, hj, fun k r hk hr => ?_⟩
      simpa [Expr.operand, Token.grouped, hl] using hread k r (by omega) hr
  | true =>
      refine ⟨1, by omega, fun k r hk hr => ?_⟩
      have hstop : Stops (.mark .closes :: r) := .inr ⟨_, _, rfl, .inl rfl⟩
      have hread := h.whole k (.mark .closes :: r) (by omega) hstop
      simp [Expr.operand, Token.grouped, hl, readOperand, hread]

/-- An operand is read up to a mark that ends it. -/
theorem Reads.operand_end {t : Target} {e : Expr} (h : Reads t e) {n : Nat} {r : List Token}
    (hn : 4 * sizeOf e + 2 ≤ n) (hr : EndsOperand r) :
    readOperand n (e.operand t ++ r) = some (e.untyped, r) := by
  obtain ⟨j, hj, hread⟩ := h.operand
  obtain ⟨k, rfl⟩ : ∃ k, n = (k + 1) + j := ⟨n - j - 1, by omega⟩
  rw [hread (k + 1) r hn hr.noCall, readSelectors_end hr]

/-- An expression that needs no parentheses is read as a whole if it is read up to its last
selector. -/
theorem Reads.of_tight {t : Target} {e : Expr} {j : Nat} (hj : j ≤ 2 * sizeOf e)
    (hread : ∀ k r, 4 * sizeOf e ≤ k + j → NoCall r →
      readOperand (k + j) (e.tokens t ++ r) = readSelectors k e.untyped r) : Reads t e where
  tight _ := ⟨j, hj, hread⟩
  whole n r hn hr := by
    have hpos := sizeOf_pos e
    obtain ⟨k, rfl⟩ : ∃ k, n = (k + 1) + j + 1 := ⟨n - j - 2, by omega⟩
    have hoperand := hread (k + 1) r (by omega) hr.endsOperand.noCall
    rw [readSelectors_end hr.endsOperand] at hoperand
    rw [readExpr, hoperand]
    rcases hr with rfl | ⟨m, r', rfl, rfl | rfl | rfl⟩ <;> rfl

theorem Reads.of_loose {t : Target} {e : Expr} (hl : e.isLoose t = true)
    (hwhole : ∀ n r, 4 * sizeOf e + 1 ≤ n → Stops r →
      readExpr n (e.tokens t ++ r) = some (e.untyped, r)) : Reads t e where
  tight h := by
    rw [hl] at h
    cases h
  whole := hwhole

/-- Expressions with commas between them are read up to the mark that closes them. -/
theorem readItems_tokens {t : Target} {stop : Mark} (hstop : stop = .closes ∨ stop = .closesList) :
    ∀ {es : List Expr}, (∀ e ∈ es, Reads t e) → ∀ n r, 4 * sizeOf es + 2 ≤ n →
      readItems n stop ([Token.mark .comma].intercalate (tokensAll t es) ++ .mark stop :: r) =
        some (untypedAll es, r) := by
  have hcomma : Mark.comma ≠ stop := by rcases hstop with rfl | rfl <;> decide
  have hclose (r : List Token) : Stops (.mark stop :: r) := by
    refine .inr ⟨_, _, rfl, ?_⟩
    rcases hstop with rfl | rfl
    · exact .inl rfl
    · exact .inr (.inl rfl)
  intro es
  induction es with
  | nil =>
      intro _ n r hn
      obtain ⟨m, rfl⟩ : ∃ m, n = m + 1 := ⟨n - 1, by omega⟩
      simp [tokensAll, untypedAll, readItems, readExpr_closing m hstop]
  | cons e es ih =>
      intro h n r hn
      obtain ⟨m, rfl⟩ : ∃ m, n = m + 1 := ⟨n - 1, by omega⟩
      rw [List.cons.sizeOf_spec] at hn
      have he := (h e (List.mem_cons_self ..)).whole
      cases es with
      | nil =>
          have hread := he m (.mark stop :: r) (by omega) (hclose r)
          simp [tokensAll, untypedAll, readItems, hread]
      | cons e' es =>
          have hes := ih (fun e'' h' => h e'' (List.mem_cons_of_mem _ h')) m r (by omega)
          have hread := he m (.mark .comma :: ([Token.mark .comma].intercalate
            (tokensAll t (e' :: es)) ++ .mark stop :: r)) (by omega)
            (.inr ⟨_, _, rfl, .inr (.inr rfl)⟩)
          rw [tokensAll, untypedAll, tokensAll, List.intercalate_cons_cons, ← tokensAll,
            List.append_assoc, List.append_assoc, List.singleton_append]
          simp [readItems, hread, hcomma, hes]

/-- Operands with an operator between them are read up to a mark that closes the expression. -/
theorem readJoined_tokens {t : Target} (op : Junction) : ∀ {e : Expr} {es : List Expr},
    (∀ e' ∈ e :: es, Reads t e') → ∀ n r, 4 * sizeOf (e :: es) + 2 ≤ n → Stops r →
      readJoined n op ([Token.mark (.junction op)].intercalate (operandsAll t (e :: es)) ++ r) =
        some (untypedAll (e :: es), r) := by
  intro e es
  induction es generalizing e with
  | nil =>
      intro h n r hn hr
      obtain ⟨m, rfl⟩ : ∃ m, n = m + 1 := ⟨n - 1, by omega⟩
      rw [List.cons.sizeOf_spec] at hn
      have hread := (h e (List.mem_cons_self ..)).operand_end (n := m) (by omega) hr.endsOperand
      rw [operandsAll, operandsAll, List.intercalate_singleton, ← Expr.operand, readJoined, hread]
      rcases hr with rfl | ⟨m, r', rfl, rfl | rfl | rfl⟩ <;> rfl
  | cons e' es ih =>
      intro h n r hn hr
      obtain ⟨m, rfl⟩ : ∃ m, n = m + 1 := ⟨n - 1, by omega⟩
      rw [List.cons.sizeOf_spec] at hn
      have hes := ih (fun e'' h' => h e'' (List.mem_cons_of_mem _ h')) m r (by omega) hr
      have hread := (h e (List.mem_cons_self ..)).operand_end (n := m)
        (r := .mark (.junction op) :: ([Token.mark (.junction op)].intercalate
          (operandsAll t (e' :: es)) ++ r)) (by omega) (.inr ⟨_, _, rfl, by simp⟩)
      rw [operandsAll, untypedAll, operandsAll, List.intercalate_cons_cons, ← operandsAll,
        ← Expr.operand, List.append_assoc, List.append_assoc, List.singleton_append, readJoined,
        hread]
      simp [hes]

/-- A logical combination of operands is read as one expression. -/
theorem readExpr_joined {t : Target} (op : Junction) {a b : Expr} {es : List Expr}
    (h : ∀ e ∈ a :: b :: es, Reads t e) {n : Nat} {r : List Token}
    (hn : 4 * sizeOf (a :: b :: es) ≤ n) (hr : Stops r) :
    readExpr n ([Token.mark (.junction op)].intercalate (operandsAll t (a :: b :: es)) ++ r) =
      some (.junction op (untypedAll (a :: b :: es)), r) := by
  obtain ⟨m, rfl⟩ : ∃ m, n = m + 1 := by
    rw [List.cons.sizeOf_spec] at hn
    exact ⟨n - 1, by omega⟩
  have hes := readJoined_tokens op (fun e h' => h e (List.mem_cons_of_mem _ h')) m r
    (by simp only [List.cons.sizeOf_spec] at hn ⊢; omega) hr
  have hread := (h a (List.mem_cons_self ..)).operand_end (n := m)
    (r := .mark (.junction op) :: ([Token.mark (.junction op)].intercalate
      (operandsAll t (b :: es)) ++ r))
    (by simp only [List.cons.sizeOf_spec] at hn ⊢; omega) (.inr ⟨_, _, rfl, by simp⟩)
  rw [operandsAll, untypedAll, operandsAll, List.intercalate_cons_cons, ← operandsAll,
    ← Expr.operand, List.append_assoc, List.append_assoc, List.singleton_append, readExpr, hread]
  simp [hes]

theorem ofWord_eq_var {s : String} (h : IsName s) : ofWord s = .var s none := by
  have hfree := h.free
  simp only [reservedWords, List.mem_cons, not_or] at hfree
  simp [ofWord, hfree]

theorem ofCall_eq_call {s : String} (h : IsName s) (args : List Expr) :
    ofCall s args = .call s false args [] := by
  unfold ofCall
  split
  · rw [if_neg h.ne_bool]
  · rfl

theorem inverted_eq_not {e : Expr} (h : e.foldsNegation = false) :
    e.untyped.inverted = .not e.untyped := by
  rw [← foldsNegation_untyped] at h
  cases he : e.untyped with
  | not _ =>
      rw [he] at h
      cases h
  | _ => rfl

/-- Arguments in parentheses are read up to the mark that closes them. -/
theorem readItems_arguments {t : Target} {args : List Expr} (h : ∀ e ∈ args, Reads t e) {n : Nat}
    (hn : 4 * sizeOf args + 2 ≤ n) (r : List Token) :
    readItems n .closes ([Token.mark .comma].intercalate (tokensAll t args) ++
      .mark .closes :: r) = some (untypedAll args, r) :=
  readItems_tokens (.inl rfl) h n r hn

mutual

/-- The tokens of a core expression are read back to it. -/
theorem reads (t : Target) : ∀ e : Expr, e.IsCore → Reads t e
  | .literal value, _ => by
      refine Reads.of_tight (j := 1) (by simp; omega) fun k r _ hr => ?_
      cases value with
      | bool b =>
          rw [tokens, List.singleton_append, Literal.token, readOperand_word hr]
          cases t <;> cases b <;> rfl
      | int n => rfl
      | str s => rfl
  | .null, _ => by
      refine Reads.of_tight (j := 1) (by simp) fun k r _ hr => ?_
      rw [tokens, List.singleton_append, readOperand_word hr]
      cases t <;> rfl
  | .var name _, hname => by
      refine Reads.of_tight (j := 1) (by simp; omega) fun k r _ hr => ?_
      have hword : readOperand (k + 1) (.word name :: r) = readSelectors k (.var name none) r := by
        rw [readOperand_word hr, ofWord_eq_var hname]
      cases t with
      | php => rfl
      | _ => exact hword
  | .prop owner name ty, hcore => by
      obtain ⟨j, hj, howner⟩ := (reads t owner hcore.1).operand
      refine Reads.of_tight (j := j + 1) (by simp; omega) fun k r hk hr => ?_
      have hread := howner (k + 1) (.mark .selector :: .word name :: r)
        (by simp at hk ⊢; omega) (noCall_mark (by decide) _)
      rw [show k + (j + 1) = k + 1 + j by omega, tokens, ← Expr.operand, List.append_assoc]
      exact hread.trans (readSelectors_word hr)
  | .item .position target key, hcore => by
      obtain ⟨j, hj, htarget⟩ := (reads t target hcore.1).operand
      refine Reads.of_tight (j := j + 1) (by simp; omega) fun k r hk hr => ?_
      simp only [item.sizeOf_spec] at hk
      have hkey := (reads t key hcore.2).whole k (.mark .closesList :: r) (by omega)
        (.inr ⟨_, _, rfl, .inr (.inl rfl)⟩)
      have hread := htarget (k + 1) (.mark .opensList :: (key.tokens t ++ .mark .closesList :: r))
        (by omega) (noCall_mark (by decide) _)
      rw [show k + (j + 1) = k + 1 + j by omega, tokens, ← Expr.operand, List.append_assoc,
        List.cons_append, List.append_assoc, List.singleton_append, hread, readSelectors, hkey]
      rfl
  | .list items inner, hcore => by
      refine Reads.of_tight (j := 1) (by simp; omega) fun k r hk hr => ?_
      simp only [list.sizeOf_spec] at hk
      have hitems := readItems_tokens (.inr rfl) (areRead t items hcore) k r (by omega)
      rw [tokens, List.cons_append, List.append_assoc, List.singleton_append, readOperand, hitems,
        untyped]
  | .call callee false args [], hcore => by
      refine Reads.of_tight (j := 1) (by simp; omega) fun k r hk hr => ?_
      simp only [call.sizeOf_spec] at hk
      have hargs := readItems_arguments (areRead t args hcore.2) (n := k) (by omega) r
      rw [tokens, List.cons_append, List.cons_append, List.append_assoc, List.singleton_append,
        readOperand, hargs, untyped]
      simp only [ofCall_eq_call hcore.1, untypedNamed]
  | .apply (.prop owner name ty) false args [], hcore => by
      obtain ⟨j, hj, howner⟩ := (reads t owner hcore.1).operand
      refine Reads.of_tight (j := j + 1) (by simp; omega) fun k r hk hr => ?_
      simp only [apply.sizeOf_spec, prop.sizeOf_spec] at hk
      have hargs := readItems_arguments (areRead t args hcore.2.2) (n := k) (by omega) r
      have hread := howner (k + 1) (.mark .selector :: .word name :: .mark .opens ::
        ([Token.mark .comma].intercalate (tokensAll t args) ++ .mark .closes :: r))
        (by omega) (noCall_mark (by decide) _)
      have hprop : (Expr.prop owner name ty).tokens t =
          owner.operand t ++ [.mark .selector, .word name] := rfl
      have hloose : (Expr.prop owner name ty).isLoose t = false := rfl
      rw [show k + (j + 1) = k + 1 + j by omega, tokens, hloose, hprop]
      simp only [Token.grouped, Bool.false_eq_true, if_false, List.append_assoc, List.cons_append,
        List.nil_append]
      rw [hread, readSelectors, hargs]
      rfl
  | .compare op negated left right, hcore => by
      refine Reads.of_loose rfl fun n r hn hr => ?_
      simp only [compare.sizeOf_spec] at hn
      obtain ⟨m, rfl⟩ : ∃ m, n = m + 1 := ⟨n - 1, by omega⟩
      have hleft := (reads t left hcore.1).operand_end (n := m)
        (r := .mark (.comparison op negated) :: (right.operand t ++ r)) (by omega)
        (.inr ⟨_, _, rfl, by simp⟩)
      have hright := (reads t right hcore.2).operand_end (n := m) (by omega) hr.endsOperand
      rw [tokens, ← Expr.operand, ← Expr.operand, List.append_assoc, List.cons_append, readExpr,
        hleft]
      simp [hright, untyped]
  | .junction op (first :: second :: rest), hcore => by
      have hall : ∀ e ∈ first :: second :: rest, Reads t e := by
        intro e hmem
        rcases List.mem_cons.1 hmem with heq | hmem
        · exact heq ▸ reads t first hcore.1
        rcases List.mem_cons.1 hmem with heq | hmem
        · exact heq ▸ reads t second hcore.2.1
        · exact areRead t rest hcore.2.2 e hmem
      have hclose (r : List Token) : Stops (.mark .closes :: r) := .inr ⟨_, _, rfl, .inl rfl⟩
      cases t with
      | python =>
          refine Reads.of_tight (j := 1) (by simp; omega) fun k r hk hr => ?_
          simp only [junction.sizeOf_spec] at hk
          obtain ⟨m, rfl⟩ : ∃ m, k = m + 1 := ⟨k - 1, by omega⟩
          have hread := readExpr_joined op hall (n := m) (by omega) (hclose r)
          rw [tokens, List.append_assoc, List.append_assoc]
          simp [Target.junctionOpening, Target.junctionClosing, readOperand, readItems, hread,
            ofCall, untyped]
      | typescript =>
          refine Reads.of_loose rfl fun n r hn hr => ?_
          simp only [junction.sizeOf_spec] at hn
          obtain ⟨m, rfl⟩ : ∃ m, n = m + 1 + 4 := ⟨n - 5, by
            simp only [List.cons.sizeOf_spec] at hn; omega⟩
          have hread := readExpr_joined op hall (n := m + 1)
            (by simp only [List.cons.sizeOf_spec] at hn ⊢; omega) (hclose r)
          have hgroup := readOperand_group hread hr.endsOperand
          rw [tokens, List.append_assoc, List.append_assoc]
          simp only [Target.junctionOpening, Target.junctionClosing, List.cons_append,
            List.nil_append]
          rw [readExpr, readOperand, readOperand, hgroup]
          rcases hr with rfl | ⟨m, r', rfl, rfl | rfl | rfl⟩ <;> rfl
      | php =>
          refine Reads.of_loose rfl fun n r hn hr => ?_
          simp only [junction.sizeOf_spec] at hn
          have hread := readExpr_joined op hall (n := n) (by omega) hr
          rw [tokens, List.append_assoc, List.append_assoc]
          simpa [Target.junctionOpening, Target.junctionClosing, untyped] using hread
  | .not operand, hcore => by
      refine Reads.of_loose rfl fun n r hn hr => ?_
      simp only [not.sizeOf_spec] at hn
      obtain ⟨m, rfl⟩ : ∃ m, n = m + 2 := ⟨n - 2, by omega⟩
      have hread := (reads t operand hcore.2).operand_end (n := m) (by omega) hr.endsOperand
      rw [tokens, ← Expr.operand, List.cons_append, readExpr, readOperand, hread, Option.map_some,
        inverted_eq_not hcore.1, untyped]
      rcases hr with rfl | ⟨m, r', rfl, rfl | rfl | rfl⟩ <;> rfl

theorem areRead (t : Target) : ∀ es : List Expr, AllCore es → ∀ e ∈ es, Reads t e
  | [], _, _, h => by cases h
  | e :: es, hcore, e', he' => by
      rcases List.mem_cons.1 he' with heq | he'
      · exact heq ▸ reads t e hcore.1
      · exact areRead t es hcore.2 e' he'

end

end Expr

end Polyglot
