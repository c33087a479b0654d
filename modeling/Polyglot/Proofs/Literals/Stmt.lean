import Polyglot.Proofs.Literals.Expr
import Polyglot.Proofs.Literals.Inset
import Polyglot.Proofs.Stmt.Around
import Polyglot.Proofs.Stmt.Return

/-!
# Literals in statements

A PHP statement around a text is written with the literal of the text at a fixed place. On the way
there the literal is inset by the indentation of its line, which is what the writer of lines puts
into every text.

* `Layout.HasLiteralAt`, `Layout.kept_hasLiteralAt` : lines with the literal so many levels deeper,
  also among other lines.
* `Plain.Context.uniform_toPhp` : statements without a body.
* `Stmt.Context.uniform_toPhp` : statements around a text, at any depth.
* `Stmt.Context.read_literal` : **what is read at the place of the text.**
-/

set_option autoImplicit false

namespace Polyglot

open Outcome Text

/-! ## Lines -/

namespace Layout

/-- Lines that are written with the literal of a text on a line that stands `n` levels deeper. The
literal is inset by the indentation of that line, and what stands around it is the same for all
texts. -/
def HasLiteralAt (n : Nat) (F : String → List Layout) : Prop :=
  ∀ indent depth, ∃ before after, ∀ s, writeAll indent depth (F s) =
    before ++ inset (times (depth + n) indent) (SingleQuoted.encode s) ++ after

namespace HasLiteralAt

variable {n : Nat} {F : String → List Layout}

theorem line {T : String → String} (h : HasLiteral T) :
    HasLiteralAt 0 fun s => [.line (T s)] := by
  intro indent depth
  obtain ⟨a, b, hT⟩ := h
  obtain ⟨before, after, hlines⟩ := exists_indentLines_encode (times depth indent) a b
  refine ⟨before, after ++ "\n", fun s => ?_⟩
  simp only [writeAll, write_line, hT, hlines]
  simp only [String.append_empty, String.append_assoc, Nat.add_zero]

end HasLiteralAt

theorem kept_hasLiteralAt : Kept HasLiteralAt where
  append_left {n F} h ls indent depth := by
    obtain ⟨before, after, hF⟩ := h indent depth
    refine ⟨writeAll indent depth ls ++ before, after, fun s => ?_⟩
    simp only [writeAll_append, hF, String.append_assoc]
  append_right {n F} h ls indent depth := by
    obtain ⟨before, after, hF⟩ := h indent depth
    refine ⟨before, after ++ writeAll indent depth ls, fun s => ?_⟩
    simp only [writeAll_append, hF, String.append_assoc]
  nest {n F} h indent depth := by
    obtain ⟨before, after, hF⟩ := h indent (depth + 1)
    refine ⟨before, after, fun s => ?_⟩
    rw [writeAll, write_nest, writeAll_nil, String.append_empty, hF, Nat.add_right_comm,
      Nat.add_assoc]

end Layout

/-! ## Statements without a body -/

namespace Expr.Context

theorem isOmit_fill (C : Context) (s : String) : (C.fill s).isOmit = false := by
  obtain ⟨layers, site⟩ := C
  cases layers with
  | nil => cases site <;> rfl
  | cons layer layers => cases layer <;> rfl

theorem uniform_phpText (C : Context) : Uniform HasLiteral fun s => (C.fill s).phpText :=
  .bind C.uniform_toPhp fun _ hc => .pure hc.text

end Expr.Context

namespace DictBuilder

/-- The construction of a dict in PHP, where no pair may be left out. -/
theorem toPhp_eq (b : DictBuilder) : b.toPhp =
    if b.entries.any BuilderEntry.allowOmit then .error (.notSupported .omittableEntries .php)
    else do
      let comment ← b.ty.phpVarComment
      let pairs ← b.entries.mapM BuilderEntry.phpPair
      return [.line comment,
        .line ("$" ++ b.name ++ " = [" ++ ", ".intercalate pairs ++ "];")] := by
  have hguarded : (!b.guarded.isEmpty) = b.entries.any BuilderEntry.allowOmit := by
    rw [Bool.eq_iff_iff, Bool.not_eq_true', ← Bool.not_eq_true, List.isEmpty_iff, guarded,
      List.filter_eq_nil_iff, List.any_eq_true]
    simp
  rw [toPhp, hguarded]
  cases b.entries.any BuilderEntry.allowOmit <;> rfl

/-- One pair among the pairs of a dict under construction. -/
theorem uniform_toPhp (x : String → BuilderEntry) {allowOmit : Bool}
    (hallow : ∀ s, (x s).allowOmit = allowOmit) (hx : Uniform HasLiteral fun s => (x s).phpPair)
    (name : String) (valueType : Ty) (before after : List BuilderEntry) :
    Uniform (Layout.HasLiteralAt 0) fun s =>
      (DictBuilder.mk name valueType (before ++ x s :: after)).toPhp := by
  simp only [toPhp_eq, List.any_append, List.any_cons, hallow, ty]
  split
  · exact .error _
  · refine .const_bind _ fun comment => .bind (hx.mapM before after) fun pairs hpairs => .pure ?_
    have hall := HasLiteral.intercalate_of_atMember hpairs ", "
    have hline := Layout.HasLiteralAt.line
      ((hall.append_left ("$" ++ name ++ " = [")).append_right "];")
    exact Layout.kept_hasLiteralAt.append_left hline [.line comment]

end DictBuilder

theorem Plain.Context.uniform_toPhp (P : Context) :
    Uniform (Layout.HasLiteralAt 0) fun s => (P.fill s).toPhp := by
  cases P with
  | expr C => exact .bind C.uniform_phpText fun _ hT => .pure (.line (hT.append_right _))
  | ret C =>
      simp only [fill, toPhp_ret (C.isOmit_fill _)]
      exact .bind C.uniform_phpText fun _ hT =>
        .pure (.line ((hT.append_left _).append_right _))
  | raiseText anyClass classes =>
      simp only [fill, toPhp, Raise.classFor, Report.toPhp]
      exact .ok (.line ((HasLiteral.encode.append_left _).append_right _))
  | raise C anyClass classes =>
      simp only [fill, toPhp, Raise.classFor, Report.toPhp]
      exact .bind C.uniform_phpText fun _ hT => .pure (.line ((hT.append_left _).append_right _))
  | assignTo C value =>
      exact .bind C.uniform_phpText fun _ hT => .const_bind _ fun v =>
        .pure (.line (((hT.append_right _).append_right _).append_right _))
  | assign target C =>
      exact .const_bind _ fun t => .bind C.uniform_phpText fun _ hT =>
        .pure (.line ((hT.append_left _).append_right _))
  | declare name ty C =>
      cases ty with
      | none =>
          exact .bind C.uniform_phpText fun _ hT =>
            .pure (.line ((hT.append_left _).append_right _))
      | some ty =>
          exact .const_bind _ fun comment => .bind C.uniform_phpText fun _ hT =>
            .pure (Layout.kept_hasLiteralAt.append_left
              (.line ((hT.append_left _).append_right _)) [.line comment])
  | appendTo C value =>
      exact .bind C.uniform_toPhp fun _ hC => .const_bind _ fun v =>
        .pure (.line (((hC.base.append_right _).append_right _).append_right _))
  | append list C =>
      exact .const_bind _ fun l => .bind C.uniform_phpText fun _ hT =>
        .pure (.line ((hT.append_left _).append_right _))
  | buildKey name valueType before value allowOmit after =>
      refine DictBuilder.uniform_toPhp (fun s => ⟨s, value, allowOmit⟩) (fun _ => rfl) ?_ name
        valueType before after
      simp only [BuilderEntry.phpPair]
      exact .const_bind _ fun v =>
        .pure ((HasLiteral.encode.append_right _).append_right _)
  | build name valueType before key C allowOmit after =>
      refine DictBuilder.uniform_toPhp (fun s => ⟨key, C.fill s, allowOmit⟩) (fun _ => rfl) ?_ name
        valueType before after
      simp only [BuilderEntry.phpPair]
      exact .bind C.uniform_phpText fun _ hT => .pure (hT.append_left _)

/-! ## Statements -/

namespace Stmt

theorem Site.uniform_toPhp (site : Site) :
    Uniform (Layout.HasLiteralAt 0) fun s => (site.fill s).toPhp := by
  cases site with
  | plain P => exact P.uniform_toPhp
  | test C body branches =>
      refine .bind C.uniform_phpText fun _ hT => .const_bind _ fun inner =>
        .const_bind _ fun others => .pure ?_
      exact Layout.kept_hasLiteralAt.append_right (.line ((hT.append_left _).append_right _)) _
  | elseIfTest first body arms C armBody rest =>
      have harm : Uniform (Layout.HasLiteralAt 0) fun s =>
          (Branches.elseIf (C.fill s) armBody rest).toPhp := by
        refine .bind C.uniform_phpText fun _ hT => .const_bind _ fun inner =>
          .const_bind _ fun others => .pure ?_
        exact Layout.kept_hasLiteralAt.append_right (.line ((hT.append_left _).append_right _)) _
      exact uniform_conditional_toPhp Layout.kept_hasLiteralAt harm first body arms
  | forEach name C body =>
      refine .bind C.uniform_phpText fun _ hT => .const_bind _ fun inner => .pure ?_
      exact Layout.kept_hasLiteralAt.append_right
        (.line ((((hT.append_left _).append_right _).append_right _).append_right _)) _
  | forEntries key value C body =>
      refine .bind C.uniform_phpText fun _ hT => .const_bind _ fun inner => .pure ?_
      exact Layout.kept_hasLiteralAt.append_right
        (.line ((((hT.append_left _).append_right _).append_right _).append_right _)) _

/-- **Statements around a text**: either none of them can be written, or they are written with the
literal of the text. -/
theorem Context.uniform_toPhp (C : Context) :
    Uniform (Layout.HasLiteralAt C.depth) fun s => (C.fill s).toPhp := by
  obtain ⟨layers, site⟩ := C
  induction layers with
  | nil => exact site.uniform_toPhp
  | cons layer layers ih =>
      have hlayer := layer.uniform_toPhp Layout.kept_hasLiteralAt ih
      rw [Nat.add_comm] at hlayer
      exact hlayer

/-- **The literal of a text in a statement**, wherever the text stands in it, at any depth and with
any indentation. Either the statement cannot be written, whatever the text is, or the literal of the
text stands at a fixed place of what is written, inset by the indentation of its line. Read there,
it gives the text if the text is one line or if its line is not indented; where the indentation
holds nothing that is escaped, it gives the inset text, which is the text in no other case. -/
theorem Context.read_literal (C : Context) (indent : String) (depth : Nat) :
    let p := times (depth + C.depth) indent
    (∃ e, ∀ s, (C.fill s).toPhp = .error e) ∨ ∃ before after, ∀ s, ∃ ls,
      (C.fill s).toPhp = .ok ls ∧
      Layout.writeAll indent depth ls = before ++ inset p (SingleQuoted.encode s) ++ after ∧
      ('\n' ∉ s.toList ∨ depth + C.depth = 0 ∨ indent = "" →
        SingleQuoted.read (inset p (SingleQuoted.encode s) ++ after).toList =
          some (s.toList, after.toList)) ∧
      ('\'' ∉ indent.toList ∧ '\\' ∉ indent.toList →
        SingleQuoted.read (inset p (SingleQuoted.encode s) ++ after).toList =
          some ((inset p s).toList, after.toList)) ∧
      (inset p s = s ↔ '\n' ∉ s.toList ∨ depth + C.depth = 0 ∨ indent = "") := by
  intro p
  have hempty : p = "" ↔ depth + C.depth = 0 ∨ indent = "" := times_eq_empty_iff
  rcases C.uniform_toPhp with herror | ⟨F, hF, hok⟩
  · exact .inl herror
  · obtain ⟨before, after, hwritten⟩ := hF indent depth
    refine .inr ⟨before, after, fun s => ⟨F s, hok s, hwritten s, ?_⟩⟩
    obtain ⟨hsame, hinset⟩ := SingleQuoted.read_inset p s after
    rw [← hempty]
    exact ⟨hsame, fun h => hinset ⟨not_mem_times h.1 _, not_mem_times h.2 _⟩, inset_eq_self_iff⟩

/-- A text with a quote that a method returns. -/
theorem Context.read_literal_of_method :
    let C : Context := ⟨[.method (.new "Pet") [] (.method "sound" (some .str)) ⟨[], [], []⟩ []],
      .plain (.ret ⟨[], .constant⟩)⟩
    C.depth = 2 ∧ ∃ ls before literal after, (C.fill "it's").toPhp = .ok ls ∧
      Layout.writeAll "    " 0 ls = before ++ literal ++ after ∧
      SingleQuoted.read (literal ++ after).toList = some ("it's".toList, after.toList) := by
  intro C
  refine ⟨rfl, ?_⟩
  rcases C.read_literal "    " 0 with ⟨e, he⟩ | ⟨before, after, hall⟩
  · cases he "it's"
  · obtain ⟨ls, hls, hwritten, hread, -, -⟩ := hall "it's"
    exact ⟨ls, before, _, after, hls, hwritten, hread (.inl (by decide))⟩

/-- A text of two lines that is returned from a branch is another text in the written program. -/
theorem Context.literal_of_two_lines :
    let C : Context := ⟨[.conditional (.literal (.bool true)) ⟨[], [], []⟩ .done],
      .plain (.ret ⟨[], .constant⟩)⟩
    (C.fill "a\nb").toPhp = .ok [.line "if (true) \x7b", .nest [.line "return 'a\nb';"],
        .line "\x7d", .blank] ∧
      Layout.writeAll "    " 0 [.line "if (true) \x7b", .nest [.line "return 'a\nb';"],
        .line "\x7d", .blank] =
          "if (true) \x7b\n    return " ++ "'a\n    b';\n\x7d\n\n" ∧
      SingleQuoted.read "'a\n    b';\n\x7d\n\n".toList =
        some ("a\n    b".toList, ";\n\x7d\n\n".toList) :=
  ⟨rfl, by decide, by decide⟩

end Stmt

end Polyglot
