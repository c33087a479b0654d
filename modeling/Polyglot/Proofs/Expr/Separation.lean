import Polyglot.Proofs.Expr.Spelling

/-!
# Separation of tokens

The tokens of a core expression do not run into each other: behind every word and every number
stands a mark that ends it. So the code of the expression determines the tokens.

* `Expr.joins_tokens` : tokens may go on behind an expression if they end its last word.
* `Expr.tokens_eq_of_text_eq` : code that is equal has equal tokens.
-/

set_option autoImplicit false

namespace Polyglot

namespace Token

theorem ends_mark (t : Target) {m : Mark} (h : m ≠ .negation) (ts : List Token) :
    Ends (chars t (.mark m :: ts)) := by
  have hfirst : ∀ m ∈ Mark.all, m = .negation ∨
      ((m.spelled t).head?.any fun c => !isWordChar c) = true := by
    cases t <;> decide +kernel
  rcases hfirst m (Mark.mem_all m) with rfl | hany
  · exact absurd rfl h
  · obtain ⟨c, hc, hword⟩ := Option.any_eq_true _ _ |>.1 hany
    rw [Bool.not_eq_true'] at hword
    obtain ⟨s, hs⟩ : ∃ s, m.spelled t = c :: s := List.head?_eq_some_iff.1 hc
    rw [chars_cons, spelled, hs]
    exact ends_cons hword

theorem separate_mark {t : Target} {m : Mark} {ts : List Token} :
    Separate t (.mark m :: ts) ↔ Separate t ts := by
  simp [Separate, IsProper, Runs]

theorem separate_word {t : Target} {s : String} {ts : List Token} (hs : isIdentifier s = true)
    (hne : s ≠ "not") (h : Separate t ts) (he : Ends (chars t ts)) :
    Separate t (.word s :: ts) := ⟨⟨hs, hne⟩, fun _ => he, h⟩

theorem separate_name {t : Target} {s : String} {ts : List Token} (hs : IsName s)
    (h : Separate t ts) (he : Ends (chars t ts)) : Separate t (.word s :: ts) :=
  separate_word hs.identifier hs.ne_not h he

/-- Whether tokens may stand in front of others that end a word. -/
def Joins (t : Target) (as : List Token) : Prop :=
  ∀ ts, Separate t ts → Ends (chars t ts) → Separate t (as ++ ts)

theorem Joins.before_mark {t : Target} {as : List Token} (h : Joins t as) {m : Mark}
    (hm : m ≠ .negation) {ts : List Token} (hts : Separate t ts) :
    Separate t (as ++ .mark m :: ts) :=
  h _ (separate_mark.2 hts) (ends_mark t hm ts)

theorem Joins.grouped {t : Target} {as : List Token} (h : Joins t as) (parenthesized : Bool) :
    Joins t (grouped parenthesized as) := by
  intro ts hts he
  cases parenthesized with
  | false => exact h ts hts he
  | true =>
      simp only [Token.grouped, if_true, List.cons_append, List.append_assoc, List.nil_append,
        separate_mark]
      exact h.before_mark (by decide) hts

theorem joins_intercalate {t : Target} {m : Mark} (hm : m ≠ .negation) :
    ∀ {ass : List (List Token)}, (∀ as ∈ ass, Joins t as) →
      Joins t ([Token.mark m].intercalate ass) := by
  intro ass
  induction ass with
  | nil => exact fun _ ts h _ => h
  | cons as ass ih =>
      intro has ts h he
      have hhead := has as (List.mem_cons_self ..)
      cases ass with
      | nil => simpa using hhead ts h he
      | cons as' ass =>
          have hrest := ih (fun as' h' => has as' (List.mem_cons_of_mem _ h')) ts h he
          rw [List.intercalate_cons_cons, List.append_assoc, List.append_assoc]
          exact hhead.before_mark hm hrest

end Token

open Token

namespace Expr

theorem joins_tokensAll {t : Target} {es : List Expr} (h : ∀ e ∈ es, Joins t (e.tokens t)) :
    Joins t ([Token.mark .comma].intercalate (tokensAll t es)) := by
  refine joins_intercalate (by decide) ?_
  rw [tokensAll_eq_map]
  intro as has
  obtain ⟨e, he, rfl⟩ := List.mem_map.1 has
  exact h e he

theorem joins_operandsAll {t : Target} (op : Junction) {es : List Expr}
    (h : ∀ e ∈ es, Joins t (e.tokens t)) :
    Joins t ([Token.mark (.junction op)].intercalate (operandsAll t es)) := by
  refine joins_intercalate (by simp) ?_
  rw [operandsAll_eq_map]
  intro as has
  obtain ⟨e, he, rfl⟩ := List.mem_map.1 has
  exact (h e he).grouped _

mutual

/-- The tokens of a core expression do not run into each other, nor into what ends them. -/
theorem joins_tokens (t : Target) : ∀ e : Expr, e.IsCore → Joins t (e.tokens t)
  | .literal value, _, ts, h, he => by
      cases value with
      | bool b =>
          refine separate_word ?_ ?_ h he
          · cases t <;> cases b <;> decide
          · cases t <;> cases b <;> decide
      | int n => exact ⟨trivial, fun _ => he, h⟩
      | str s => exact ⟨trivial, fun h => h.elim, h⟩
  | .null, _, ts, h, he => by
      refine separate_word ?_ ?_ h he
      · cases t <;> decide
      · cases t <;> decide
  | .var name _, hname, ts, h, he => by
      have hword := separate_name hname h he
      cases t with
      | php => exact separate_mark.2 hword
      | _ => exact hword
  | .prop owner name _, hcore, ts, h, he => by
      have howner := (joins_tokens t owner hcore.1).grouped (owner.isLoose t)
      have hword := howner.before_mark (m := .selector) (by decide) (separate_name hcore.2 h he)
      simpa [tokens] using hword
  | .item .position target key, hcore, ts, h, he => by
      have htarget := (joins_tokens t target hcore.1).grouped (target.isLoose t)
      have hkey := (joins_tokens t key hcore.2).before_mark (m := .closesList) (by decide) h
      have hitem := htarget.before_mark (m := .opensList) (by decide) hkey
      simpa [tokens] using hitem
  | .list items _, hcore, ts, h, he => by
      have hitems := (joins_tokensAll (areJoined t items hcore)).before_mark (m := .closesList)
        (by decide) h
      simpa [tokens, separate_mark] using hitems
  | .call callee false args [], hcore, ts, h, he => by
      have hargs := (joins_tokensAll (areJoined t args hcore.2)).before_mark (m := .closes)
        (by decide) h
      refine separate_name hcore.1 ?_ (ends_mark t (by decide) _)
      simpa [separate_mark] using hargs
  | .apply (.prop owner name ty) false args [], hcore, ts, h, he => by
      have hargs := (joins_tokensAll (areJoined t args hcore.2.2)).before_mark (m := .closes)
        (by decide) h
      have hword := separate_name hcore.2.1 (separate_mark (m := .opens).2 hargs)
        (ends_mark t (by decide) _)
      have howner := (joins_tokens t owner hcore.1).grouped (owner.isLoose t)
      have hcallee := howner.before_mark (m := .selector) (by decide) hword
      simpa [tokens, isLoose, grouped] using hcallee
  | .compare op negated left right, hcore, ts, h, he => by
      have hleft := (joins_tokens t left hcore.1).grouped (left.isLoose t)
      have hright := (joins_tokens t right hcore.2).grouped (right.isLoose t) ts h he
      have hcompare := hleft.before_mark (m := .comparison op negated) (by simp) hright
      simpa [tokens] using hcompare
  | .junction op (first :: second :: rest), hcore, ts, h, he => by
      have hall : ∀ e ∈ first :: second :: rest, Joins t (e.tokens t) := by
        intro e hmem
        rcases List.mem_cons.1 hmem with heq | hmem
        · exact heq ▸ joins_tokens t first hcore.1
        rcases List.mem_cons.1 hmem with heq | hmem
        · exact heq ▸ joins_tokens t second hcore.2.1
        · exact areJoined t rest hcore.2.2 e hmem
      have hjoined := joins_operandsAll op hall
      rw [tokens, List.append_assoc, List.append_assoc]
      cases t with
      | python =>
          refine separate_word (by decide) (by decide) ?_ (ends_mark _ (by decide) _)
          exact separate_mark.2 (hjoined.before_mark (m := .closes) (by decide) h)
      | typescript =>
          refine separate_mark.2 (separate_mark.2 (separate_mark.2 ?_))
          exact hjoined.before_mark (m := .closes) (by decide) h
      | php => exact hjoined ts h he
  | .not operand, hcore, ts, h, he =>
      separate_mark.2 ((joins_tokens t operand hcore.2).grouped _ ts h he)

theorem areJoined (t : Target) : ∀ es : List Expr, AllCore es → ∀ e ∈ es, Joins t (e.tokens t)
  | [], _, _, h => by cases h
  | e :: es, hcore, e', he' => by
      rcases List.mem_cons.1 he' with heq | he'
      · exact heq ▸ joins_tokens t e hcore.1
      · exact areJoined t es hcore.2 e' he'

end

/-- Code that is equal has equal tokens. -/
theorem tokens_eq_of_text_eq {t : Target} {e₁ e₂ : Expr} (h₁ : e₁.IsCore) (h₂ : e₂.IsCore)
    {c₁ c₂ : Code} (r₁ : e₁.render t = .ok c₁) (r₂ : e₂.render t = .ok c₂)
    (h : c₁.text = c₂.text) : e₁.tokens t = e₂.tokens t := by
  have htext {e : Expr} {c : Code} (hcore : e.IsCore) (hr : e.render t = .ok c) :
      c.text.toList = chars t (e.tokens t) := by
    obtain ⟨c', hc', hs⟩ := isShown t e hcore
    rw [hr] at hc'
    cases hc'
    exact hs.text
  have hseparate {e : Expr} (hcore : e.IsCore) : Separate t (e.tokens t) := by
    have hjoins := joins_tokens t e hcore [] trivial ends_nil
    rwa [List.append_nil] at hjoins
  refine chars_injective t (hseparate h₁) (hseparate h₂) ?_
  rw [← htext h₁ r₁, ← htext h₂ r₂, h]

end Expr

end Polyglot
