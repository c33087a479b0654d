import Polyglot.Script.Output

/-!
# All ways to write a script

The text of a script, a handle, a file and the writer of a language agree on the text and on the
errors, and an error leaves nothing behind.

* `Script.PlainEntries`, `Script.PrettyEntries` : what the ways give, without and with a request for
  formatting.
* `Script.saveWith_of_error` : a file that cannot be rendered is not touched, whichever programs the
  system has.
* `Script.entries_agree` : **every script, every language, all options.**
-/

set_option autoImplicit false

namespace Polyglot

/-! ## Formatters -/

namespace Programs

/-- A program that is not installed does nothing and does not succeed. -/
def Lacks (ps : Programs) (program : String) : Prop := ∀ args f, ps program args f = (f, false)

theorem lacks_none (program : String) : none.Lacks program := fun _ _ => rfl

/-- Without the program that sorts imports, the file stays as it was written. -/
theorem formatPython_of_lacks {ps : Programs} (h : ps.Lacks "isort") (f : File) :
    ps.formatPython f = (f, .error (.formatter "isort")) := by
  have hformat : ps.format "isort" [] f = (f, .error (.formatter "isort")) := by
    rw [format, h]
    rfl
  rw [formatPython, hformat]

end Programs

namespace Script

variable {ps : Programs} {f : File} {received : String} {s : Script} {t : Target} {o : Options}

/-! ## The writer of a language -/

/-- A request for formatting does not change what the writer gives. -/
theorem write_pretty (s : Script) (t : Target) (o : Options) (pretty : Bool) :
    s.write t { o with pretty } = s.write t o := by
  cases t <;> rfl

/-- The extension of a language leads to its writer. -/
theorem writeAs?_extension (s : Script) (t : Target) (o : Options) :
    s.writeAs? t.extension o = some (s.write t o) := by
  rw [writeAs?, Target.ofLanguage?_extension, Option.map_some]

/-! ## Without a request for formatting -/

theorem source_of_plain (h : o.pretty = false) : s.source t o = s.write t o := by
  rw [source, h]
  exact if_neg Bool.false_ne_true

theorem sendTo_of_plain (h : o.pretty = false) :
    s.sendTo received t o = match s.write t o with
      | .error e => (received, .error e)
      | .ok text => (received ++ text, .ok ()) := by
  rw [sendTo, h]
  exact if_neg Bool.false_ne_true

/-! ## Files -/

/-- The request is refused for all languages but one before anything is rendered. -/
theorem saveWith_of_unsupported (hpretty : o.pretty = true) (ht : t ≠ .python) :
    s.saveWith ps f t o = (f, .error (.notYetSupported (.prettyFile t))) :=
  if_pos ⟨hpretty, ht⟩

/-- A script that cannot be rendered leaves the file alone. -/
theorem saveWith_of_error (hsupported : ¬(o.pretty ∧ t ≠ .python)) {e : Error}
    (h : s.write t o = .error e) : s.saveWith ps f t o = (f, .error e) := by
  rw [saveWith, if_neg hsupported, h]

/-- A script that can be rendered is in the file before any program is called. -/
theorem saveWith_of_ok (hsupported : ¬(o.pretty ∧ t ≠ .python)) (hf : f.writable = true)
    {text : String} (h : s.write t o = .ok text) :
    s.saveWith ps f t o =
      if o.pretty then ps.formatPython { f with content := some text }
      else ({ f with content := some text }, .ok ()) := by
  rw [saveWith, if_neg hsupported, h]
  exact if_pos hf

/-! ## All ways together -/

/-- What the ways to write a script give if nothing is to be formatted: the writer that the
extension leads to gives what the script gives, and the handle and the file receive the same text,
or are not touched on the same error. -/
structure PlainEntries (ps : Programs) (f : File) (received : String) (s : Script) (t : Target)
    (o : Options) : Prop where
  writer : s.writeAs? t.extension o = some (s.source t o)
  text : ∀ text, s.source t o = .ok text →
    s.sendTo received t o = (received ++ text, .ok ()) ∧
      s.saveWith ps f t o = ({ f with content := some text }, .ok ())
  error : ∀ e, s.source t o = .error e →
    s.sendTo received t o = (received, .error e) ∧ s.saveWith ps f t o = (f, .error e)

/-- What the ways to write a script give if the file is to be formatted and no formatter is
installed. All languages but one are refused before anything is rendered. The file holds the text of
the writer when the formatter is found to be missing, and is not touched if the writer gives an
error. -/
structure PrettyEntries (ps : Programs) (f : File) (received : String) (s : Script) (t : Target)
    (o : Options) : Prop where
  source : s.source t o = .error (.notYetSupported .prettySource)
  handle : s.sendTo received t o = (received, .error (.notYetSupported .prettyHandle))
  unsupported : t ≠ .python →
    s.saveWith ps f t o = (f, .error (.notYetSupported (.prettyFile t)))
  text : t = .python → ∀ text, s.writeAs? t.extension o = some (.ok text) →
    s.saveWith ps f t o = ({ f with content := some text }, .error (.formatter "isort"))
  error : t = .python → ∀ e, s.writeAs? t.extension o = some (.error e) →
    s.saveWith ps f t o = (f, .error e)

theorem plainEntries (hf : f.writable = true) (hpretty : o.pretty = false) :
    PlainEntries ps f received s t o := by
  have hsource := source_of_plain (s := s) (t := t) hpretty
  have hsupported : ¬(o.pretty ∧ t ≠ .python) := by simp [hpretty]
  constructor
  case writer => rw [writeAs?_extension, hsource]
  case text =>
    intro text htext
    rw [hsource] at htext
    constructor
    · rw [sendTo_of_plain hpretty, htext]
    · rw [saveWith_of_ok hsupported hf htext, hpretty]
      exact if_neg Bool.false_ne_true
  case error =>
    intro e herror
    rw [hsource] at herror
    constructor
    · rw [sendTo_of_plain hpretty, herror]
    · exact saveWith_of_error hsupported herror

theorem prettyEntries (hisort : ps.Lacks "isort") (hf : f.writable = true)
    (hpretty : o.pretty = true) : PrettyEntries ps f received s t o := by
  have hsupported (ht : t = .python) : ¬(o.pretty ∧ t ≠ .python) := fun h => h.2 ht
  constructor
  case source => exact if_pos hpretty
  case handle => exact if_pos hpretty
  case unsupported => exact saveWith_of_unsupported hpretty
  case text =>
    intro ht text htext
    rw [writeAs?_extension, Option.some_inj] at htext
    rw [saveWith_of_ok (hsupported ht) hf htext, if_pos hpretty,
      Programs.formatPython_of_lacks hisort]
  case error =>
    intro ht e herror
    rw [writeAs?_extension, Option.some_inj] at herror
    exact saveWith_of_error (hsupported ht) herror

/-- **All ways to write a script agree**, and an error leaves no text in the handle and the file as
it was, if the file can be written and the system has no formatters. -/
theorem entries_agree (ps : Programs) (f : File) (received : String) (s : Script) (t : Target)
    (o : Options) (hisort : ps.Lacks "isort") (hf : f.writable = true) :
    (o.pretty = false → PlainEntries ps f received s t o) ∧
      (o.pretty = true → PrettyEntries ps f received s t o ∧
        s.writeAs? t.extension o = some (s.source t { o with pretty := false })) := by
  refine ⟨plainEntries hf, fun hpretty => ⟨prettyEntries hisort hf hpretty, ?_⟩⟩
  -- The writer of a request for formatting is the one of the request for plain text.
  rw [source_of_plain rfl, write_pretty, writeAs?_extension]

/-- One comment: a handle receives the PHP file, and an old file becomes the Python file before the
formatter is found to be missing. -/
theorem entries_of_comment :
    (Script.empty.addComment "Generated.").sendTo "" .php .default =
        ("<?php\n\n// Generated.\n\n", .ok ()) ∧
      (Script.empty.addComment "Generated.").saveWith .none ⟨true, some "old"⟩ .python
          { Options.default with pretty := true } =
        (⟨true, some "\"\"\"\nGenerated.\n\"\"\"\n"⟩, .error (.formatter "isort")) := by
  have hplain := (entries_agree .none ⟨true, none⟩ "" (Script.empty.addComment "Generated.") .php
    .default (Programs.lacks_none _) rfl).1 rfl
  have hpretty := (entries_agree .none ⟨true, some "old"⟩ ""
    (Script.empty.addComment "Generated.") .python { Options.default with pretty := true }
    (Programs.lacks_none _) rfl).2 rfl
  exact ⟨(hplain.text _ rfl).1, hpretty.1.text rfl _ rfl⟩

end Script

end Polyglot
