import Polyglot.Proofs.Brackets.Imports
import Polyglot.Proofs.Brackets.Stmt
import Polyglot.Proofs.Imports.Grouping
import Polyglot.Proofs.Writer.Script

/-!
# Well-bracketed files

A regular script that is written in TypeScript or PHP is written as a well-bracketed text: every
bracket is closed by its counterpart and every string literal ends, whatever the strings hold and
however deep the lines are indented.

* `Script.wellBracketed_layout` : the lines of the file.
* `Script.wellBracketed_write` : the text of the file.
-/

set_option autoImplicit false

namespace Polyglot

open Outcome Brackets

variable {t : Target}

namespace Script

theorem wellBracketed_paragraph {ls : List Layout} (h : Layout.WellBracketed t ls) :
    Layout.WellBracketed t (paragraph ls) := by
  unfold paragraph
  split
  · exact .nil
  · exact h.append Layout.WellBracketed.blank

/-! ## TypeScript -/

/-- The import lines of a TypeScript file; modules are string literals. -/
theorem wellBracketed_typeScriptImports {is : List Import} (h : ∀ i ∈ is, i.IsRegular .typescript) :
    Layout.WellBracketed .typescript (typeScriptImports (ImportGroups.empty.addAll is)) := by
  rw [ImportGroups.addAll_empty]
  refine wellBracketed_paragraph (.append ?_ ?_)
  · refine .of_forall fun l hl => ?_
    obtain ⟨m, _, rfl⟩ := List.mem_map.1 hl
    have hmodule := Text.Quoted.wellBracketed_encode (t := .typescript) (by decide) m
    exact .single (Shifts.lit rfl |>.wrap hmodule |>.add rfl)
  · refine .of_forall fun l hl => ?_
    obtain ⟨group, hgroup, rfl⟩ := List.mem_map.1 hl
    obtain ⟨m, _, rfl⟩ := List.mem_map.1 hgroup
    have hmodule := Text.Quoted.wellBracketed_encode (t := .typescript) (by decide) m
    have hnames : ∀ n ∈ Import.namesFrom is m, WellBracketed .typescript n := fun n hn =>
      .of_isInert ((h _ (Import.mem_namesFrom.1 hn)).name n rfl)
    exact .single (Shifts.lit rfl |>.wrap (.intercalate (.lit rfl) hnames) |>.add rfl
      |>.wrap hmodule |>.add rfl)

theorem wellBracketed_typeScriptAlias {a : Alias} (hname : isInert a.name = true)
    (hbase : a.base.IsRegular) {l : Layout} (h : typeScriptAlias a = .ok l) :
    Layout.WellBracketed .typescript [l] := by
  obtain ⟨ty, hty, h⟩ := bind_eq_ok.1 h
  cases pure_eq_ok.1 h
  have htype := hbase.wellBracketed_toTypeScript hty
  have hclosed : WellBracketed .typescript
      (if ty.closed then ty.text else Code.parenthesized ty.text) := by
    split
    · exact htype
    · exact Code.wellBracketed_parenthesized htype
  have hexport : WellBracketed .typescript (if a.isExported then "export " else "") := by
    split <;> exact .lit rfl
  exact .single (hexport.add rfl |>.wrap (.of_isInert hname) |>.add rfl |>.wrap hclosed
    |>.add rfl)

theorem wellBracketed_toTypeScript {s : Script} (hs : s.IsRegular) {ls : List Layout}
    (h : s.toTypeScript = .ok ls) : Layout.WellBracketed .typescript ls := by
  obtain ⟨needs, hneeds, h⟩ := bind_eq_ok.1 h
  obtain ⟨aliases, ha, h⟩ := bind_eq_ok.1 h
  obtain ⟨body, hb, h⟩ := bind_eq_ok.1 h
  cases pure_eq_ok.1 h
  obtain ⟨own, hown, hneeds⟩ := bind_eq_ok.1 hneeds
  cases pure_eq_ok.1 hneeds
  have hnone : s.aliasImports .typescript = [] :=
    List.flatMap_eq_nil_iff.2 fun a ha => a.base.imports_eq_nil (by decide) (hs.aliases a ha).2
  have himports := Body.isRegular_of_mem_needs (by decide) s.body hs.body hown
  have haliases : ∀ l ∈ aliases, Layout.WellBracketed .typescript [l] :=
    forall_mem_of_mapM_eq_ok ha fun a hmem _ hl =>
      wellBracketed_typeScriptAlias (hs.aliases a hmem).1 (hs.aliases a hmem).2 hl
  have hbody := Body.wellBracketed_toTypeScript s.body hs.body hb
  rw [hs.comments, hnone, List.append_nil]
  exact ((wellBracketed_typeScriptImports himports).append
    (wellBracketed_paragraph (.of_forall haliases))).append hbody

/-! ## PHP -/

theorem wellBracketed_phpUse {i : Import} (h : i.IsRegular .php) :
    Layout.WellBracketed .php [phpUse i] := by
  have hmodule := WellBracketed.of_isInert (t := .php) (h.module rfl)
  unfold phpUse
  split
  · exact .single (Shifts.lit rfl |>.wrap hmodule |>.add rfl)
  · rename_i name hname
    have halias := WellBracketed.of_isInert (t := .php) (h.name name hname)
    exact .single (Shifts.lit rfl |>.wrap hmodule |>.add rfl |>.wrap halias |>.add rfl)

theorem wellBracketed_toPhp {s : Script} (hs : s.IsRegular) {phpNamespace : Option String}
    (hspace : ∀ name ∈ phpNamespace, isInert name = true) {ls : List Layout}
    (h : s.toPhp phpNamespace = .ok ls) : Layout.WellBracketed .php ls := by
  obtain ⟨needs, hneeds, h⟩ := bind_eq_ok.1 h
  obtain ⟨body, hb, h⟩ := bind_eq_ok.1 h
  cases pure_eq_ok.1 h
  obtain ⟨own, hown, hneeds⟩ := bind_eq_ok.1 hneeds
  cases pure_eq_ok.1 hneeds
  have himports := Body.isRegular_of_mem_needs (by decide) s.body hs.body hown
  have huses : ∀ l ∈ (ImportUses.addAll [] (own ++ s.aliasImports .php)).requirements.map phpUse,
      Layout.WellBracketed .php [l] := by
    rw [ImportUses.requirements_addAll]
    intro l hl
    obtain ⟨i, hi, rfl⟩ := List.mem_map.1 hl
    exact wellBracketed_phpUse (himports i (by simpa [aliasImports] using mem_ascending.1 hi))
  have hopen : Layout.WellBracketed .php [.line "<?php", .blank] :=
    .line (.lit rfl) Layout.WellBracketed.blank
  have hbody := Body.wellBracketed_toPhp s.body hs.body hb
  rw [hs.comments]
  refine (((hopen.append (wellBracketed_paragraph .nil)).append (wellBracketed_paragraph ?_)).append
    (wellBracketed_paragraph (.of_forall huses))).append hbody
  cases phpNamespace with
  | none => exact .nil
  | some name => exact .single (Shifts.lit rfl |>.wrap (.of_isInert (hspace name rfl)) |>.add rfl)

/-! ## Files -/

/-- The lines of a regular script are well bracketed. -/
theorem wellBracketed_layout (ht : t ≠ .python) {s : Script} {o : Options} (hs : s.IsRegular)
    (ho : o.AreRegular) {ls : List Layout} (h : s.layout t o = .ok ls) :
    Layout.WellBracketed t ls := by
  cases t with
  | python => exact absurd rfl ht
  | typescript => exact wellBracketed_toTypeScript hs h
  | php => exact wellBracketed_toPhp hs ho.phpNamespace h

/-- **Well-bracketed output.** A regular script that is written in TypeScript or PHP is written as a
text in which every bracket is closed by its counterpart and every string literal ends. -/
theorem wellBracketed_write (ht : t ≠ .python) {s : Script} {o : Options} (hs : s.IsRegular)
    (ho : o.AreRegular) {text : String} (h : s.write t o = .ok text) : WellBracketed t text := by
  rw [write_eq] at h
  obtain ⟨ls, hls, h⟩ := bind_eq_ok.1 h
  cases pure_eq_ok.1 h
  exact (wellBracketed_layout ht hs ho hls).written ho.indent 0

/-- A call that may fail, with a text and a key that are full of brackets and quotes. -/
def guardedLog : Script where
  body := ⟨[(.typescript, .named "./log" "log")],
    [.attempt
      ⟨[], [.plain (.expr (.call "log" false
        [.text [.chars "$\x7bit's", .value (.dict [("\x7d", .null)] .any)]] []))]⟩
      (.handler ⟨some "e", ⟨none, some "Fault", some "App\\Fault"⟩⟩ ⟨[], []⟩ .done)]⟩
  comments := []
  aliases := []

theorem isRegular_guardedLog : guardedLog.IsRegular := by
  have hlog : isInert "log" = true := by decide
  have hrequests : guardedLog.body.imports.AreRegular := by
    intro r hr
    rw [List.mem_singleton.1 hr]
    refine ⟨nofun, ?_⟩
    rintro name ⟨⟩
    exact hlog
  have harm : Catch.IsRegular ⟨some "e", ⟨none, some "Fault", some "App\\Fault"⟩⟩ := by
    refine ⟨?_, fun t => ?_⟩
    · rintro name ⟨⟩
      decide
    · cases t <;> rintro name ⟨⟩ <;> decide
  refine ⟨⟨hrequests, ⟨?_, harm, ?_, trivial⟩, trivial⟩, nofun, rfl⟩
  · exact ⟨nofun, ⟨hlog, ⟨⟨⟨trivial, trivial⟩, trivial⟩, trivial⟩, trivial, nofun⟩, trivial⟩
  · exact ⟨nofun, trivial⟩

theorem areRegular_default : Options.default.AreRegular := by
  refine ⟨fun c hc => .inl ?_, nofun⟩
  simpa [Options.default] using hc

set_option maxRecDepth 4000 in
theorem wellBracketed_guardedLog :
    WellBracketed .typescript ("import \x7blog\x7d from './log';\n\ntry \x7b\n" ++
        "    log(\x60\\$\x7bit's$\x7b\x7b'\x7d': null\x7d\x7d\x60);\n\x7d catch (e) \x7b\n" ++
        "    if (e instanceof Fault) \x7b\n    \x7d\n    throw e;\n\x7d\n") ∧
      WellBracketed .php ("<?php\n\ntry \x7b\n    log('$\x7bit\\'s' . ['\x7d' => null]);\n" ++
        "\x7d catch (App\\Fault $e) \x7b\n\x7d\n") :=
  ⟨wellBracketed_write (by decide) isRegular_guardedLog areRegular_default rfl,
    wellBracketed_write (by decide) isRegular_guardedLog areRegular_default rfl⟩

end Script

end Polyglot
