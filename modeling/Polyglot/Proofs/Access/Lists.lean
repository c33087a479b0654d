import Polyglot.Proofs.Brackets.Expr

/-!
# Argument lists in code

A parenthesis that is opened outside of all brackets and string literals, with something in front of
it, begins an argument list. What a word `new` stands in front of is a chain of such lists and of
selectors, possibly behind more of these words.

* `Brackets.fronts` : what stands in front of the parentheses outside of all brackets.
* `Brackets.Opens` : code with a number of such parentheses.
* `Creation.callees`, `Creation.read` : the callees that the code behind a word `new` can be read
  with, and the one that a language reads.
* `Creation.IsCallee` : code behind a word `new`, with its own words `new` and its other calls.
* `Creation.IsCallee.read_iff` : it is read as the callee just if it has no other calls.
-/

set_option autoImplicit false

namespace Polyglot

open Outcome

variable {t : Target}

namespace Brackets

/-! ## Parentheses outside of all brackets -/

/-- What stands in front of each parenthesis that is opened outside of all brackets and string
literals, from left to right. -/
def fronts (t : Target) : State → List Char → List (List Char)
  | _, [] => []
  | s, c :: cs =>
    (if s = ⟨.code, []⟩ ∧ c = '(' then [[]] else []) ++
      (step t s c).elim [] fun s' => (fronts t s' cs).map (c :: ·)

theorem fronts_cons {s s' : State} {c : Char} (h : step t s c = some s') (cs : List Char) :
    fronts t s (c :: cs) = (if s = ⟨.code, []⟩ ∧ c = '(' then [[]] else []) ++
      (fronts t s' cs).map (c :: ·) := by
  rw [fronts, h]
  rfl

/-- A character that is no parenthesis outside of all brackets. -/
theorem fronts_cons_of_ne {s s' : State} {c : Char} (h : step t s c = some s')
    (hc : s ≠ ⟨.code, []⟩ ∨ c ≠ '(') (cs : List Char) :
    fronts t s (c :: cs) = (fronts t s' cs).map (c :: ·) := by
  have hno : ¬(s = ⟨.code, []⟩ ∧ c = '(') := fun hboth => hc.elim (· hboth.1) (· hboth.2)
  rw [fronts_cons h, if_neg hno, List.nil_append]

theorem fronts_paren (cs : List Char) :
    fronts t ⟨.code, []⟩ ('(' :: cs) =
      [] :: (fronts t ⟨.code, [.round]⟩ cs).map ('(' :: ·) := rfl

/-- A front stands at the beginning, with a parenthesis behind it. -/
theorem exists_of_mem_fronts {front cs : List Char} : ∀ {s : State}, front ∈ fronts t s cs →
    ∃ after, cs = front ++ '(' :: after := by
  induction cs generalizing front with
  | nil => exact nofun
  | cons c cs ih =>
      intro s h
      rw [fronts] at h
      rcases List.mem_append.1 h with h | h
      · split at h
        · rename_i hparen
          cases List.mem_singleton.1 h
          exact ⟨cs, by rw [hparen.2]; rfl⟩
        · cases h
      · cases hstep : step t s c with
        | none =>
            rw [hstep] at h
            cases h
        | some s' =>
            rw [hstep] at h
            obtain ⟨front', hfront', rfl⟩ := List.mem_map.1 h
            obtain ⟨after, hafter⟩ := ih hfront'
            exact ⟨after, by rw [hafter]; rfl⟩

theorem fronts_append {cs : List Char} : ∀ {s s' : State}, run t s cs = some s' →
    ∀ ds, fronts t s (cs ++ ds) = fronts t s cs ++ (fronts t s' ds).map (cs ++ ·) := by
  induction cs with
  | nil =>
      intro s s' h ds
      cases h
      exact (List.map_id (fronts t s ds)).symm
  | cons c cs ih =>
      intro s s' h ds
      rw [run_cons] at h
      obtain ⟨s₁, hstep, hrun⟩ := Option.bind_eq_some_iff.1 h
      rw [List.cons_append, fronts_cons hstep, fronts_cons hstep, ih hrun, List.map_append,
        List.map_map, List.append_assoc]
      rfl

theorem fronts_eq_nil_of_not_mem {cs : List Char} (h : '(' ∉ cs) (s : State) :
    fronts t s cs = [] := by
  refine List.eq_nil_iff_forall_not_mem.2 fun front hfront => ?_
  obtain ⟨after, rfl⟩ := exists_of_mem_fronts hfront
  exact h (by simp)

/-- Nothing is outside of all brackets if a bracket is open below. -/
theorem fronts_under {cs : List Char} : ∀ {s s' : State}, run t s cs = some s' →
    ∀ (f : Frame) (below : List Frame), fronts t (s.under (f :: below)) cs = [] := by
  induction cs with
  | nil => exact fun _ _ _ => rfl
  | cons c cs ih =>
      intro s s' h f below
      rw [run_cons] at h
      obtain ⟨s₁, hstep, hrun⟩ := Option.bind_eq_some_iff.1 h
      have hdeep : s.under (f :: below) ≠ ⟨.code, []⟩ := by
        intro heq
        have hstack : s.stack ++ f :: below = [] := congrArg State.stack heq
        exact nomatch (List.append_eq_nil_iff.1 hstack).2
      rw [fronts_cons_of_ne (step_under hstep (f :: below)) (.inl hdeep), ih hrun]
      rfl

/-- Characters in a string literal that are written one by one. -/
theorem fronts_flatMap {s : State} {escape : Char → List Char}
    (hrun : ∀ c, hiddenRun t s (escape c) = some s) (h : ∀ c, fronts t s (escape c) = [])
    (cs : List Char) : fronts t s (cs.flatMap escape) = [] := by
  induction cs with
  | nil => rfl
  | cons c cs ih =>
      rw [List.flatMap_cons, fronts_append (run_of_hiddenRun (hrun c)), h, ih]
      rfl

/-- Inside of a literal, the first character opens nothing. -/
theorem fronts_inside {q : Quote} {fs : List Frame} {cs : List Char} (h : '(' ∉ cs.tail) :
    fronts t ⟨.inside q, fs⟩ cs = [] := by
  cases cs with
  | nil => rfl
  | cons c cs =>
      have hstep : step t ⟨.inside q, fs⟩ c = some ⟨insideStep q c, fs⟩ := rfl
      have htail : '(' ∉ cs := h
      rw [fronts_cons_of_ne hstep (.inl (by simp)), fronts_eq_nil_of_not_mem htail]
      rfl

/-- A literal whose characters open nothing. -/
theorem fronts_literal {q : Quote} (hq : quote? t q.char = some q) {cs : List Char}
    (hcs : hiddenRun t ⟨.inside q, []⟩ cs = some ⟨.inside q, []⟩)
    (h : fronts t ⟨.inside q, []⟩ cs = []) :
    fronts t ⟨.code, []⟩ (q.char :: (cs ++ [q.char])) = [] := by
  have hopen : step t ⟨.code, []⟩ q.char = some ⟨.inside q, []⟩ := by rw [step, codeStep, hq]
  have hquote : q.char ≠ '(' := by cases q <;> decide
  rw [fronts_cons_of_ne hopen (.inr hquote), fronts_append (run_of_hiddenRun hcs), h,
    fronts_inside List.not_mem_nil]
  rfl

/-! ## Code with parentheses outside of all brackets -/

/-- Code that hides its operators, with `n` parentheses outside of all brackets. -/
structure Opens (t : Target) (n : Nat) (text : String) : Prop where
  hides : Hides t [] [] text
  count : (fronts t ⟨.code, []⟩ text.toList).length = n

namespace Opens

variable {a : String}

/-- Code that opens nothing. -/
theorem none (h : Hides t [] [] a) (hfronts : fronts t ⟨.code, []⟩ a.toList = []) :
    Opens t 0 a := ⟨h, by rw [hfronts]; rfl⟩

/-- Code without parentheses. -/
theorem of_not_mem (h : Hides t [] [] a) (hparen : '(' ∉ a.toList) : Opens t 0 a :=
  none h (fronts_eq_nil_of_not_mem hparen _)

theorem of_isSolid (h : isSolid a = true) : Opens t 0 a := by
  refine of_not_mem (.of_isSolid h) fun hmem => ?_
  rw [isSolid, List.all_eq_true] at h
  exact absurd (h _ hmem) (by decide)

theorem of_isIdentifier (h : isIdentifier a = true) : Opens t 0 a :=
  of_isSolid (onlySolid_isIdentifier a h)

/-- Well-bracketed code in brackets. -/
theorem enclosed {b s d : String} {c : Char} {f : Frame} (hb : b.toList = [c])
    (hopen : hiddenStep t ⟨.code, []⟩ c = some ⟨.code, [f]⟩) (hs : WellBracketed t s)
    (hclose : hiddenRun t ⟨.code, [f]⟩ d.toList = some ⟨.code, []⟩) (hparen : '(' ∉ d.toList) :
    Opens t (if c = '(' then 1 else 0) (b ++ s ++ d) := by
  have hhides : Hides t [] [f] b := by
    rw [Hides, hb, hiddenRun_cons, hopen]
    rfl
  refine ⟨(hhides.inside hs).add hclose, ?_⟩
  have hinner : fronts t ⟨.code, [f]⟩ s.toList = [] := fronts_under hs f []
  have hrun : run t ⟨.code, [f]⟩ s.toList = some ⟨.code, [f]⟩ := run_under hs [f]
  have htext : (b ++ s ++ d).toList = c :: (s.toList ++ d.toList) := by
    rw [String.toList_append, String.toList_append, hb]
    rfl
  rw [htext, fronts_cons (step_of_hiddenStep hopen), fronts_append hrun, hinner,
    fronts_eq_nil_of_not_mem hparen]
  by_cases hround : c = '('
  · simp [hround]
  · simp [hround]

/-- Arguments, or whatever else stands in parentheses. -/
theorem parens {s : String} (hs : WellBracketed t s) : Opens t 1 ("(" ++ s ++ ")") :=
  enclosed (b := "(") (c := '(') (d := ")") (f := .round) rfl rfl hs rfl (by decide)

theorem square {s : String} (hs : WellBracketed t s) : Opens t 0 ("[" ++ s ++ "]") :=
  enclosed (b := "[") (c := '[') (d := "]") (f := .square) rfl rfl hs rfl (by decide)

theorem curly {s : String} (hs : WellBracketed t s) : Opens t 0 ("\x7b" ++ s ++ "\x7d") :=
  enclosed (b := "\x7b") (c := '\x7b') (d := "\x7d") (f := .curly) rfl rfl hs rfl (by decide)

end Opens

end Brackets

/-! ## String literals -/

namespace Text

open Brackets

theorem Quoted.not_mem_tail_escape {quote : Char} (hquote : quote ≠ '(') (c : Char) :
    '(' ∉ (escape quote c).tail := by
  have hhex (n : Nat) (hn : n < 256) : '(' ∉ hex2 n := by
    have hdigit : ∀ d < 16, '(' ≠ Nat.digitChar d := by decide
    have hhigh := hdigit (n / 16) (by omega)
    have hlow := hdigit (n % 16) (by omega)
    simp [hex2, hhigh, hlow]
  unfold escape
  split_ifs with h₁ h₂ h₃ h₄ hmark hcontrol
  · decide
  · decide
  · decide
  · decide
  · rw [hmark]
    simpa using hquote.symm
  · simpa using hhex c.toNat (toNat_lt_of_isControl hcontrol)
  · exact List.not_mem_nil

theorem Quoted.opens_encode (ht : t ≠ .php) (s : String) : Opens t 0 (encode s) := by
  refine .none (hides_encode ht s) ?_
  obtain ⟨q, hback, hparen, hmark, hq⟩ : ∃ q : Quote, q ≠ .backtick ∧ q.char ≠ '(' ∧
      mark s.toList = q.char ∧ quote? t q.char = some q := by
    rcases mark_eq s.toList with h | h
    · exact ⟨.double, by decide, by decide, h, by simp [quote?, Quote.char, ht]⟩
    · exact ⟨.single, by decide, by decide, h, rfl⟩
  rw [encode, String.toList_ofList, encodeChars, hmark]
  have hfronts := fronts_flatMap (t := t) (s := ⟨.inside q, []⟩) (hiddenRun_escape hback)
    (fun c => fronts_inside (not_mem_tail_escape hparen c)) s.toList
  exact fronts_literal hq (hiddenRun_flatMap (hiddenRun_escape hback) s.toList) hfronts

theorem SingleQuoted.not_mem_tail_escape (c : Char) : '(' ∉ (escape c).tail := by
  unfold escape
  split_ifs
  · decide
  · decide
  · exact List.not_mem_nil

theorem SingleQuoted.opens_encode (s : String) : Opens t 0 (encode s) := by
  refine .none (hides_encode s) ?_
  have hfronts := fronts_flatMap (t := t) (s := ⟨.inside .single, []⟩) hiddenRun_escape
    (fun c => fronts_inside (not_mem_tail_escape c)) s.toList
  rw [encode, String.toList_ofList, encodeChars]
  exact fronts_literal (q := .single) rfl (hiddenRun_flatMap hiddenRun_escape s.toList) hfronts

theorem Template.not_mem_tail_escape (c : Char) : '(' ∉ (escape c).tail := by
  unfold escape
  split_ifs
  · decide
  · decide
  · decide
  · decide
  · decide
  · decide
  · exact List.not_mem_nil

theorem Template.fronts_encode (s : String) :
    fronts t ⟨.inside .backtick, []⟩ (encode s).toList = [] := by
  rw [encode, String.toList_ofList]
  exact fronts_flatMap hiddenRun_escape (fun c => fronts_inside (not_mem_tail_escape c)) s.toList

/-- The code of a field is inside of its braces. -/
theorem Template.fronts_field {s : String} (h : WellBracketed .typescript s) :
    fronts .typescript ⟨.inside .backtick, []⟩ ("$\x7b" ++ s ++ "\x7d").toList = [] := by
  have hopen : run .typescript ⟨.inside .backtick, []⟩ "$\x7b".toList =
      some ⟨.code, [.field]⟩ := rfl
  have hinner : fronts .typescript ⟨.code, [.field]⟩ s.toList = [] := fronts_under h .field []
  have hrun : run .typescript ⟨.code, [.field]⟩ s.toList = some ⟨.code, [.field]⟩ :=
    run_under h [.field]
  rw [String.toList_append, String.toList_append, List.append_assoc, fronts_append hopen,
    fronts_append hrun, hinner]
  rfl

/-- Pieces between backticks. -/
theorem Template.opens {ss : List String} (hpieces : ∀ s ∈ ss, IsPiece s)
    (h : ∀ s ∈ ss, fronts .typescript ⟨.inside .backtick, []⟩ s.toList = []) :
    Opens .typescript 0 ("\x60" ++ String.join ss ++ "\x60") := by
  refine .none (hides hpieces []) ?_
  have hjoin : fronts .typescript ⟨.inside .backtick, []⟩ (String.join ss).toList = [] := by
    induction ss with
    | nil => rfl
    | cons s ss ih =>
        have hs := run_of_hiddenRun (hpieces s (List.mem_cons_self ..) [])
        rw [String.join_cons, String.toList_append, fronts_append hs, h s (List.mem_cons_self ..),
          ih (fun s' hs' => hpieces s' (List.mem_cons_of_mem _ hs'))
            fun s' hs' => h s' (List.mem_cons_of_mem _ hs')]
        rfl
  rw [String.toList_append, String.toList_append, List.append_assoc]
  exact fronts_literal (q := .backtick) rfl (isPiece_join hpieces []) hjoin

end Text

/-- No piece of a template literal opens anything outside of its fields. -/
theorem Part.fronts_toTypeScriptAll {ok : String → Bool} (hok : OnlyInert ok) {ps : List Part}
    (hspell : Part.AllSpelled ok .typescript ps) {ss : List String}
    (h : Part.toTypeScriptAll ps = .ok ss) :
    ∀ s ∈ ss, Brackets.fronts .typescript ⟨.inside .backtick, []⟩ s.toList = [] := by
  induction ps generalizing ss with
  | nil =>
      cases h
      exact List.forall_mem_nil _
  | cons p ps ih =>
      cases p with
      | chars text =>
          obtain ⟨rest, hrest, h⟩ := bind_eq_ok.1 h
          cases pure_eq_ok.1 h
          exact List.forall_mem_cons.2 ⟨Text.Template.fronts_encode text, ih hspell hrest⟩
      | value e =>
          obtain ⟨c, hc, h⟩ := bind_eq_ok.1 h
          obtain ⟨rest, hrest, h⟩ := bind_eq_ok.1 h
          cases pure_eq_ok.1 h
          have hcode := Expr.wellBracketed_toTypeScript hok e hspell.2.1 hc
          exact List.forall_mem_cons.2
            ⟨Text.Template.fronts_field hcode, ih hspell.2.2 hrest⟩

/-! ## Callees behind a word `new` -/

namespace Creation

open Brackets

/-- The number of words `new` that a text begins with, and what stands behind them. -/
def splitNew : List Char → Nat × List Char
  | 'n' :: 'e' :: 'w' :: ' ' :: cs => ((splitNew cs).1 + 1, (splitNew cs).2)
  | cs => (0, cs)

/-- What stands in front of each argument list, from left to right. A parenthesis at the beginning
opens none. -/
def beforeLists (t : Target) (cs : List Char) : List (List Char) :=
  (fronts t ⟨.code, []⟩ cs).filter (· ≠ [])

theorem beforeLists_append {cs : List Char} (hrun : run t ⟨.code, []⟩ cs = some ⟨.code, []⟩)
    (hne : cs ≠ []) (ds : List Char) :
    beforeLists t (cs ++ ds) = beforeLists t cs ++ (fronts t ⟨.code, []⟩ ds).map (cs ++ ·) := by
  have hbehind : ∀ front ∈ (fronts t ⟨.code, []⟩ ds).map (cs ++ ·), front ≠ [] := by
    intro front hfront
    obtain ⟨_, _, rfl⟩ := List.mem_map.1 hfront
    simp [hne]
  rw [beforeLists, fronts_append hrun, List.filter_append, beforeLists]
  congr 1
  exact List.filter_eq_self.2 fun front hfront => by simpa using hbehind front hfront

/-- Code behind a number of words `new`. -/
def behindNew (news : Nat) (cs : List Char) : String := Text.times news "new " ++ .ofList cs

theorem behindNew_append (news : Nat) (cs ds : List Char) :
    behindNew news (cs ++ '(' :: ds) = behindNew news cs ++ "(" ++ .ofList ds := by
  rw [← String.toList_inj]
  simp [behindNew]

/-- The callees that the code behind a word `new` can be read with: what stands in front of its
argument lists, from left to right. A parenthesis that the code begins with, or that it goes on with
behind more words `new`, encloses what is constructed and is no argument list. -/
def callees (t : Target) (text : String) : List String :=
  let split := splitNew text.toList
  (beforeLists t split.2).map (behindNew split.1)

/-- The callee that a language reads behind a word `new`. Each word `new` in front of the callee
takes an argument list before it does. -/
def read (t : Target) (text : String) : Option String :=
  (callees t text)[(splitNew text.toList).1]?

/-- Code that stands as a callee behind a word `new`: it begins with so many words `new`, and has
besides an argument list for each of them so many others. -/
def IsCallee (t : Target) (news calls : Nat) (text : String) : Prop :=
  ∃ rest, text = Text.times news "new " ++ rest ∧ rest ≠ "" ∧ Hides t [] [] rest ∧
    (beforeLists t rest.toList).length = news + calls

namespace IsCallee

variable {k m n : Nat} {a b : String}

theorem of_opens (h : Opens t 0 a) (ha : a ≠ "") : IsCallee t 0 0 a := by
  refine ⟨a, String.empty_append.symm, ha, h.hides, ?_⟩
  rw [beforeLists, List.length_eq_zero_iff.1 h.count]
  rfl

theorem parenthesized {s : String} (h : WellBracketed t s) :
    IsCallee t 0 0 (Code.parenthesized s) := by
  have hopens : Opens t 1 (Code.parenthesized s) := .parens h
  refine ⟨_, String.empty_append.symm, ?_, hopens.hides, ?_⟩
  · intro hempty
    have := congrArg String.toList hempty
    simp [Code.parenthesized] at this
  · obtain ⟨front, hfronts⟩ := List.length_eq_one_iff.1 hopens.count
    have hmem : [] ∈ fronts t ⟨.code, []⟩ (Code.parenthesized s).toList := by
      have htext : (Code.parenthesized s).toList = '(' :: (s ++ ")").toList := by
        simp [Code.parenthesized]
      rw [htext, fronts_paren]
      exact List.mem_cons_self ..
    rw [hfronts, List.mem_singleton] at hmem
    rw [beforeLists, hfronts, ← hmem]
    rfl

/-- A callee with more code behind it. -/
theorem append (ha : IsCallee t k m a) (hb : Opens t n b) : IsCallee t k (m + n) (a ++ b) := by
  obtain ⟨rest, rfl, hrest, hhides, hcount⟩ := ha
  refine ⟨rest ++ b, String.append_assoc .., ?_, hhides.append hb.hides, ?_⟩
  · simp [hrest]
  · rw [String.toList_append, beforeLists_append hhides.shifts (by simpa using hrest),
      List.length_append, List.length_map, hcount, hb.count, Nat.add_assoc]

/-- The call of a callee. -/
theorem call (ha : IsCallee t k m a) {args : String} (hargs : WellBracketed t args) :
    IsCallee t k (m + 1) (a ++ "(" ++ args ++ ")") := by
  have hcall := ha.append (.parens hargs)
  rwa [← String.append_assoc, ← String.append_assoc] at hcall

/-- The creation of an object by a callee. -/
theorem new (ha : IsCallee t k m a) {args : String} (hargs : WellBracketed t args) :
    IsCallee t (k + 1) m ("new " ++ a ++ "(" ++ args ++ ")") := by
  obtain ⟨rest, htext, hrest, hhides, hcount⟩ := ha.call hargs
  refine ⟨rest, ?_, hrest, hhides, ?_⟩
  · have hnews : Text.times (k + 1) "new " ++ rest = "new " ++ (Text.times k "new " ++ rest) := by
      rw [Text.times_succ, String.append_assoc]
    rw [hnews, ← htext]
    simp only [String.append_assoc]
  · rw [hcount]
    omega

/-- Behind its words `new`, a callee does not begin with another one. -/
theorem splitNew_eq {cs : List Char} {s : State} (h : hiddenRun t ⟨.code, []⟩ cs = some s)
    (ds : List Char) : splitNew (cs ++ '(' :: ds) = (0, cs ++ '(' :: ds) := by
  unfold splitNew
  split
  · rename_i rest heq
    rcases cs with _ | ⟨c₁, _ | ⟨c₂, _ | ⟨c₃, _ | ⟨c₄, cs⟩⟩⟩⟩
    · cases heq
    · cases heq
    · cases heq
    · cases heq
    · cases heq
      have hnone : hiddenRun t ⟨.code, []⟩ ("new".toList ++ ' ' :: cs) = none :=
        hiddenRun_eq_none rfl (by decide)
      exact absurd (h.symm.trans hnone) (by simp)
  · rfl

theorem splitNew_times (k : Nat) (s : String) :
    splitNew (Text.times k "new " ++ s).toList =
      (k + (splitNew s.toList).1, (splitNew s.toList).2) := by
  induction k with
  | zero => simp
  | succ k ih =>
      have htext : (Text.times (k + 1) "new " ++ s).toList =
          'n' :: 'e' :: 'w' :: ' ' :: (Text.times k "new " ++ s).toList := by
        rw [Text.times_succ, String.append_assoc, String.toList_append]
        rfl
      rw [htext, splitNew, ih]
      simp only [Prod.mk.injEq, and_true]
      omega

/-- The ways to read a callee with arguments behind it: up to one of its own argument lists, up to
these arguments, and beyond. -/
theorem exists_callees (ha : IsCallee t k m a) (args : String) :
    (splitNew (a ++ "(" ++ args).toList).1 = k ∧
      ∃ shorter longer, callees t (a ++ "(" ++ args) = shorter ++ a :: longer ∧
        shorter.length = k + m ∧ (∀ b ∈ shorter, ∃ after, a = b ++ "(" ++ after) ∧
        ∀ b ∈ longer, ∃ after, b = a ++ "(" ++ after := by
  obtain ⟨rest, rfl, hrest, hhides, hcount⟩ := ha
  have hsplit : splitNew (Text.times k "new " ++ rest ++ "(" ++ args).toList =
      (k, rest.toList ++ '(' :: args.toList) := by
    have hnone := splitNew_eq hhides args.toList
    have htext : (rest ++ ("(" ++ args)).toList = rest.toList ++ '(' :: args.toList := by simp
    rw [String.append_assoc, String.append_assoc, splitNew_times, htext, hnone]
    rfl
  refine ⟨by rw [hsplit], ?_⟩
  have hcallees : callees t (Text.times k "new " ++ rest ++ "(" ++ args) =
      (beforeLists t rest.toList).map (behindNew k) ++
        behindNew k rest.toList ::
          (fronts t ⟨.code, [.round]⟩ args.toList).map
            fun front => behindNew k (rest.toList ++ '(' :: front) := by
    rw [callees, hsplit]
    simp only
    rw [beforeLists_append hhides.shifts (by simpa using hrest), fronts_paren, List.map_append,
      List.map_cons, List.append_nil, List.map_map, List.map_cons, List.map_map]
    rfl
  have hself : behindNew k rest.toList = Text.times k "new " ++ rest := by
    rw [behindNew, String.ofList_toList]
  rw [hself] at hcallees
  refine ⟨_, _, hcallees, by rw [List.length_map, hcount], fun b hb => ?_, fun b hb => ?_⟩
  · obtain ⟨front, hfront, rfl⟩ := List.mem_map.1 hb
    obtain ⟨after, hafter⟩ := exists_of_mem_fronts (List.mem_filter.1 hfront).1
    exact ⟨.ofList after, by rw [← hself, hafter, behindNew_append]⟩
  · obtain ⟨front, _, rfl⟩ := List.mem_map.1 hb
    exact ⟨.ofList front, by rw [← hself, behindNew_append]⟩

/-- Among the members of a list, one that does not occur twice is found by its place. -/
theorem getElem?_append_cons_iff {xs ys : List String} {x : String} (hxs : x ∉ xs) (hys : x ∉ ys)
    (i : Nat) : (xs ++ x :: ys)[i]? = some x ↔ i = xs.length := by
  refine ⟨fun h => ?_, fun h => by simp [h]⟩
  rcases Nat.lt_trichotomy i xs.length with hlt | heq | hgt
  · rw [List.getElem?_append_left hlt] at h
    exact absurd (List.mem_of_getElem? h) hxs
  · exact heq
  · obtain ⟨j, rfl⟩ := Nat.exists_eq_add_of_lt hgt
    rw [List.getElem?_append_right (by omega)] at h
    have hindex : xs.length + j + 1 - xs.length = j + 1 := by omega
    rw [hindex, List.getElem?_cons_succ] at h
    exact absurd (List.mem_of_getElem? h) hys

theorem ne_append_paren (a after : String) : a ≠ a ++ "(" ++ after := by
  intro h
  have hlength := congrArg String.length h
  have hparen : "(".length = 1 := rfl
  rw [String.length_append, String.length_append, hparen] at hlength
  omega

/-- **Which callee is read.** The first of all argument lists belongs to the callee just if it has
no words `new` and no calls of its own. A language reads the callee just if it has no calls, and
reads what stands in front of one of them otherwise. -/
theorem read_iff (ha : IsCallee t k m a) (args : String) :
    ((callees t (a ++ "(" ++ args)).head? = some a ↔ k = 0 ∧ m = 0) ∧
      (read t (a ++ "(" ++ args) = some a ↔ m = 0) ∧
      (m ≠ 0 → ∃ b after, read t (a ++ "(" ++ args) = some b ∧ a = b ++ "(" ++ after) := by
  obtain ⟨hnews, shorter, longer, hcallees, hlength, hshorter, hlonger⟩ :=
    ha.exists_callees args
  have hnotShorter : a ∉ shorter := by
    intro hmem
    obtain ⟨after, h⟩ := hshorter a hmem
    exact ne_append_paren a after h
  have hnotLonger : a ∉ longer := by
    intro hmem
    obtain ⟨after, h⟩ := hlonger a hmem
    exact ne_append_paren a after h
  have hindex := getElem?_append_cons_iff hnotShorter hnotLonger
  refine ⟨?_, ?_, fun hm => ?_⟩
  · rw [List.head?_eq_getElem?, hcallees, hindex, hlength]
    omega
  · rw [read, hnews, hcallees, hindex, hlength]
    omega
  · have hlt : k < shorter.length := by omega
    obtain ⟨after, hafter⟩ := hshorter shorter[k] (List.getElem_mem hlt)
    refine ⟨shorter[k], after, ?_, hafter⟩
    rw [read, hnews, hcallees, List.getElem?_append_left hlt, List.getElem?_eq_getElem hlt]

example : callees .typescript "new A(x).b(y)" = ["new A", "new A(x).b"] := by decide

end IsCallee

end Creation

end Polyglot
