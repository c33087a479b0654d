import Mathlib.Data.List.Infix
import Polyglot.Proofs.Precedence.Tight
import Polyglot.Proofs.Text.Indented

/-!
# Honest tags

Whoever puts code in front of a selector looks at its tag and not at its text. A tag is honest if
code that is left alone there has no operator that would take hold of a part of it only.

* `operators` : the operators that the code of an expression can be made with.
* `Code.IsHonest` : code whose text is what its tag says.
* `Code.TagHolds.isHonest` : well-bracketed code that is as tight as its tag says.
* `Expr.isHonest_render` : **expressions have honest tags in every language.**
-/

set_option autoImplicit false

namespace Polyglot

open Brackets

variable {t : Target} {ok : String → Bool}

/-- Behind the characters, code goes on outside of all brackets and string literals. -/
def Brackets.IsTopLevel (t : Target) (before : List Char) : Prop :=
  run t ⟨.code, []⟩ before = some ⟨.code, []⟩

/-! ## Operators -/

/-- The comparisons of a language as they stand between their operands. -/
def comparisonOperators (operator : Comparison → Bool → String) : List String :=
  [Comparison.eq, .lt, .gt].flatMap fun op =>
    [operator op false ++ " ", operator op true ++ " "]

/-- The binary operators, the parts of conditional expressions and the words and signs in front of
operands, each with the space behind it if there is one. -/
def operators : Target → List String
  | .python =>
    comparisonOperators Comparison.pythonOperator ++
      [Junction.and.pythonOperator, Junction.or.pythonOperator, "is ", "if ", "else ", "not ",
        "await "]
  | .typescript =>
    comparisonOperators Comparison.typeScriptOperator ++
      [Junction.and.typeScriptOperator, Junction.or.typeScriptOperator, "as ", "? ", ": ", "!",
        "typeof ", "await "]
  | .php =>
    comparisonOperators Comparison.phpOperator ++
      [Junction.and.phpOperator, Junction.or.phpOperator, "?? ", ". ", "!"]

/-- An operator ends in a mark, and is not mistaken for the word `new`. -/
theorem operators_marked : ∀ op ∈ operators t, isInert op = true ∧
    op.toList.getLast? ∈ marks.map some ∧
    ¬"new ".toList <:+ op.toList ∧ ¬op.toList <:+ "new ".toList := by
  cases t <;> decide

/-- No operator stands in tight code outside of all brackets and string literals. -/
theorem Brackets.Tight.not_isTopLevel {text : String} (htight : Tight t [] text) {op : String}
    (hop : op ∈ operators t) {before after : List Char}
    (htext : text.toList = before ++ (op.toList ++ after)) : ¬IsTopLevel t before := by
  intro htop
  obtain ⟨hinert, hlast, hlonger, hshorter⟩ := operators_marked op hop
  obtain ⟨mark, hmark, hlast⟩ := List.mem_map.1 hlast
  obtain ⟨word, hword⟩ := List.getLast?_eq_some_iff.1 hlast.symm
  have hrun : run t ⟨.code, []⟩ (before ++ word) = some ⟨.code, []⟩ := by
    have hwordInert : isInert (.ofList word) = true := by
      rw [isInert, hword, List.all_append, Bool.and_eq_true] at hinert
      rw [isInert, String.toList_ofList]
      exact hinert.1
    have hword : WellBracketed t (.ofList word) := .of_isInert hwordInert
    rw [WellBracketed, Shifts, String.toList_ofList] at hword
    rw [run_append, htop]
    exact hword
  have hsplit : text.toList = before ++ word ++ mark :: after := by
    rw [htext, hword, List.append_assoc, List.append_assoc]
    rfl
  -- The mark is one behind words `new`, so the operator or the last of them ends in the other.
  obtain ⟨-, n, hn⟩ := htight.marks_before hmark hsplit hrun
  have hend : op.toList <:+ (Text.times n "new ").toList :=
    ⟨before, by rw [hword, ← List.append_assoc, hn]⟩
  cases n with
  | zero =>
      have hnil : before ++ word ++ [mark] = [] := hn
      exact absurd hnil (by simp)
  | succ n =>
      have hnew : "new ".toList <:+ (Text.times (n + 1) "new ").toList := by
        refine ⟨(Text.times n "new ").toList, ?_⟩
        rw [Text.times_add, String.toList_append]
        rfl
      exact (List.suffix_or_suffix_of_suffix hnew hend).elim hlonger hshorter

/-! ## Tags -/

/-- Code whose text is what its tag says. An atom or an access has no space outside of all brackets
and string literals, but for those of the words `new` at its beginning, and code that is left alone
in front of a selector has no operator there. -/
structure Code.IsHonest (t : Target) (c : Code) : Prop where
  wellBracketed : WellBracketed t c.text
  spaces : c.tag = .literal ∨ c.tag = .access → ∀ {before after : List Char},
    c.text.toList = before ++ ' ' :: after → IsTopLevel t before →
      t = .typescript ∧ ∃ n, before ++ [' '] = (Text.times n "new ").toList
  operators : c.base = c.text → ∀ op ∈ operators t, ∀ {before after : List Char},
    c.text.toList = before ++ (op.toList ++ after) → ¬IsTopLevel t before

namespace Code

/-- Code is left alone in front of a selector exactly if its tag is tight. -/
theorem base_eq_text {c : Code} : c.base = c.text ↔ c.tag.rank ≤ Precedence.access.rank := by
  rw [base]
  by_cases h : Precedence.access.rank < c.tag.rank
  · rw [if_pos h]
    refine ⟨fun hparens => ?_, fun hrank => absurd h (Nat.not_lt.2 hrank)⟩
    have hlength : (parenthesized c.text).length = 1 + c.text.length + 1 := by
      rw [parenthesized, String.length_append, String.length_append]
      rfl
    rw [hparens] at hlength
    omega
  · rw [if_neg h]
    exact iff_of_true rfl (Nat.le_of_not_lt h)

/-- Well-bracketed code that is as tight as its tag says is honest. -/
theorem TagHolds.isHonest {c : Code} (htag : c.TagHolds t) (hbrackets : WellBracketed t c.text) :
    c.IsHonest t where
  wellBracketed := hbrackets
  spaces := by
    intro hatom before after htext htop
    have hrank : c.tag.rank ≤ Precedence.access.rank := by
      rcases hatom with h | h
      · rw [h]
        decide
      · rw [h]
    exact (htag hrank).marks_before (List.mem_cons_self ..) htext htop
  operators := fun hbase _ hop _ _ htext => (htag (base_eq_text.1 hbase)).not_isTopLevel hop htext

end Code

namespace Expr

theorem wellBracketed_render (hok : OnlySolid ok) {e : Expr} (h : e.IsSpelled ok t) {c : Code}
    (hc : e.render t = .ok c) : WellBracketed t c.text := by
  cases t with
  | python => exact wellBracketed_toPython hok.inert e h hc
  | typescript => exact wellBracketed_toTypeScript hok.inert e h hc
  | php => exact wellBracketed_toPhp hok.inert e h hc

theorem tagHolds_render (hok : OnlySolid ok) {e : Expr} (h : e.IsSpelled ok t) {c : Code}
    (hc : e.render t = .ok c) : c.TagHolds t := by
  cases t with
  | python => exact tagHolds_toPython hok e hc h
  | typescript => exact tagHolds_toTypeScript hok e hc h
  | php => exact tagHolds_toPhp hok e hc h

/-- **Expressions have honest tags in every language**, if the caller spells nothing in them but
names without brackets, quotes, spaces and exclamation marks. Identifiers are such names, by
`onlySolid_isIdentifier`. -/
theorem isHonest_render (hok : OnlySolid ok) {e : Expr} (h : e.IsSpelled ok t) {c : Code}
    (hc : e.render t = .ok c) : c.IsHonest t :=
  (tagHolds_render hok h hc).isHonest (wellBracketed_render hok h hc)

/-- A method of a new object, with an operator among the arguments of either call. -/
def methodOfNew : Expr :=
  .callMethod (.call "Foo" true [.junction .and [.var "a" none, .var "b" none]] []) "bar"
    [.cast (.alias "Id" .str) (.var "x" none)]

theorem isHonest_methodOfNew :
    methodOfNew.render .typescript = .ok ⟨"new Foo(!!(a && b)).bar((x as Id))", .access⟩ ∧
      Code.IsHonest .typescript ⟨"new Foo(!!(a && b)).bar((x as Id))", .access⟩ := by
  have hspell : methodOfNew.IsSpelled isIdentifier .typescript :=
    ⟨⟨⟨rfl, ⟨⟨rfl, rfl, trivial⟩, trivial⟩, trivial, nofun⟩, rfl⟩, ⟨⟨rfl, rfl⟩, trivial⟩, trivial,
      nofun⟩
  exact ⟨rfl, isHonest_render onlySolid_isIdentifier hspell rfl⟩

end Expr

end Polyglot
