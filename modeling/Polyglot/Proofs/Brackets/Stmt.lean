import Polyglot.Proofs.Brackets.Class
import Polyglot.Proofs.Handlers.Dispatch

/-!
# Brackets in statements

The lines of a regular statement are well bracketed. Arms of conditionals and handlers start with a
line that closes the brace of the arm before them, and leave their own brace open.

* `CatchClause.shifts_tests` : the chain of tests that stands for handlers in TypeScript.
* `Dispatch.isRegular_ofCatches` : what the chain is made from.
* `Stmt.wellBracketed_toTypeScript`, `Stmt.wellBracketed_toPhp` : statements, by induction.
-/

set_option autoImplicit false

namespace Polyglot

open Outcome Brackets

/-! ## Handlers in TypeScript -/

/-- Whether the variable and the classes of a dispatch are names. -/
structure Dispatch.IsRegular (d : Dispatch) : Prop where
  var : ∀ name ∈ d.var, isInert name = true
  classes : ∀ name ∈ d.classes, isInert name = true

namespace Dispatch

/-- A regular handler keeps a dispatch regular. -/
theorem isRegular_add {d d' : Dispatch} {arm : Catch} (hd : d.IsRegular) (harm : arm.IsRegular)
    (h : d.add arm = .ok d') : d'.IsRegular := by
  obtain ⟨_, _, rfl⟩ := add_eq_ok.1 h
  refine ⟨fun name hname => ?_, fun name hname => ?_⟩
  · rcases Option.or_eq_some_iff.1 hname with hname | ⟨_, hname⟩
    · exact hd.var name hname
    · exact harm.var name hname
  · rcases List.mem_append.1 hname with hname | hname
    · exact hd.classes name hname
    · exact harm.classes .typescript name (Option.mem_toList.1 hname)

/-- Regular handlers amount to a regular dispatch. -/
theorem isRegular_foldlM {d d' : Dispatch} {arms : List Catch} (hd : d.IsRegular)
    (harms : ∀ arm ∈ arms, arm.IsRegular) (h : arms.foldlM add d = .ok d') : d'.IsRegular := by
  induction arms generalizing d with
  | nil =>
      cases h
      exact hd
  | cons arm arms ih =>
      rw [List.foldlM_cons] at h
      obtain ⟨d₁, hadd, h⟩ := bind_eq_ok.1 h
      exact ih (isRegular_add hd (harms arm (List.mem_cons_self ..)) hadd)
        (fun a ha => harms a (List.mem_cons_of_mem _ ha)) h

theorem isRegular_ofCatches {d : Dispatch} {arms : List Catch}
    (harms : ∀ arm ∈ arms, arm.IsRegular) (h : ofCatches arms = .ok d) : d.IsRegular :=
  isRegular_foldlM ⟨by simp, by simp⟩ harms h

end Dispatch

/-- Whether the variable and the classes of a clause are names, and there is a handler for the
first class. -/
def CatchClause.Fits (bodies : List (List Layout)) : CatchClause → Prop
  | .absent => True
  | .single var => ∀ name ∈ var, isInert name = true
  | .chain var classes =>
    isInert var = true ∧ (∀ name ∈ classes, isInert name = true) ∧ classes ≠ [] ∧ bodies ≠ []

/-- The clause for regular handlers fits their bodies. -/
theorem Dispatch.fits_clause {d : Dispatch} {arms : List Catch}
    (harms : ∀ arm ∈ arms, arm.IsRegular) (hd : ofCatches arms = .ok d) {clause : CatchClause}
    (h : d.clause = .ok clause) {bodies : List (List Layout)}
    (hlength : bodies.length = arms.length) : clause.Fits bodies := by
  have hreg := isRegular_ofCatches harms hd
  unfold Dispatch.clause at h
  by_cases hclasses : d.classes = []
  · rw [hclasses] at h
    cases h
    split
    · exact hreg.var
    · trivial
  · rw [if_neg (by simpa using hclasses)] at h
    cases hvar : d.var with
    | none =>
        rw [hvar] at h
        cases h
    | some var =>
        rw [hvar] at h
        cases h
        refine ⟨hreg.var var hvar, hreg.classes, hclasses, ?_⟩
        rintro rfl
        -- Without handlers no class is tested.
        rw [List.eq_nil_of_length_eq_zero hlength.symm] at hd
        cases hd
        exact hclasses rfl

namespace CatchClause

/-- The line of a test behind what is written in front of it. -/
theorem shifts_test {fs gs : List Frame} {keyword var name : String}
    (hkeyword : Brackets.Shifts .typescript fs gs keyword) (hvar : isInert var = true)
    (hname : isInert name = true) :
    Brackets.Shifts .typescript fs (.curly :: gs)
      (keyword ++ "if (" ++ var ++ " instanceof " ++ name ++ ") \x7b") :=
  hkeyword.add rfl |>.wrap (.of_isInert hvar) |>.add rfl |>.wrap (.of_isInert hname) |>.add rfl

/-- The tests after the first close the brace that is open, whatever the chain ends with. -/
theorem shifts_tests {var : String} (hvar : isInert var = true) :
    ∀ {names : List String} {bodies : List (List Layout)},
      (∀ name ∈ names, isInert name = true) →
      (∀ b ∈ bodies, Layout.WellBracketed .typescript b) →
      Layout.Shifts .typescript [.curly] [] (tests var "\x7d else " names bodies)
  | name :: names, body :: bodies, hnames, hbodies => by
      have hrest := shifts_tests hvar (fun n hn => hnames n (List.mem_cons_of_mem _ hn))
        (fun b hb => hbodies b (List.mem_cons_of_mem _ hb))
      have hbody := hbodies body (List.mem_cons_self ..)
      exact .line (shifts_test (.lit rfl) hvar (hnames name (List.mem_cons_self ..)))
        (.nest (hbody.shifts _) hrest)
  | [], last :: _, _, hbodies =>
      .line (.lit rfl) (.nest ((hbodies last (List.mem_cons_self ..)).shifts _)
        (.line (.lit rfl) .nil))
  | [], [], _, _ | _ :: _, [], _, _ =>
      .line (.lit rfl) (.line (Shifts.lit rfl |>.wrap (.of_isInert hvar) |>.add rfl) .nil)

/-- The clause stands between two braces: it closes one and leaves one open. -/
theorem shifts_toTypeScript {clause : CatchClause} {bodies : List (List Layout)}
    (hfits : clause.Fits bodies) (hbodies : ∀ b ∈ bodies, Layout.WellBracketed .typescript b) :
    Layout.Shifts .typescript [.curly] [.curly] (clause.toTypeScript bodies) := by
  have hall := Layout.WellBracketed.flatten hbodies
  cases clause with
  | absent => exact .nil
  | single var =>
      cases var with
      | none => exact .line (.lit rfl) (.nest (hall.shifts _) .nil)
      | some var =>
          exact .line (Shifts.lit rfl |>.wrap (.of_isInert (hfits var rfl)) |>.add rfl)
            (.nest (hall.shifts _) .nil)
  | chain var classes =>
      obtain ⟨hvar, hclasses, hsome, hbody⟩ := hfits
      obtain ⟨name, names, rfl⟩ := List.exists_cons_of_ne_nil hsome
      obtain ⟨body, rest, rfl⟩ := List.exists_cons_of_ne_nil hbody
      have htests := shifts_tests hvar (fun n hn => hclasses n (List.mem_cons_of_mem _ hn))
        (fun b hb => hbodies b (List.mem_cons_of_mem _ hb))
      have hfirst : Brackets.Shifts .typescript [] [.curly]
          ("" ++ "if (" ++ var ++ " instanceof " ++ name ++ ") \x7b") :=
        shifts_test (.lit rfl) hvar (hclasses name (List.mem_cons_self ..))
      have hchain : Layout.WellBracketed .typescript
          (tests var "" (name :: names) (body :: rest)) :=
        .line hfirst (.nest ((hbodies body (List.mem_cons_self ..)).shifts _) htests)
      exact .line (Shifts.lit rfl |>.wrap (.of_isInert hvar) |>.add rfl)
        (.nest (hchain.shifts _) .nil)

end CatchClause

namespace Handlers

theorem isRegular_of_mem_catches : ∀ {hs : Handlers}, hs.AreRegular →
    ∀ arm ∈ hs.catches, arm.IsRegular
  | .done, _, arm, harm | .cleanup _, _, arm, harm => nomatch harm
  | .handler first _ rest, hreg, arm, harm => by
      rcases List.mem_cons.1 harm with rfl | harm
      · exact hreg.1
      · exact isRegular_of_mem_catches hreg.2.2 arm harm

end Handlers

/-- The head of a loop. -/
theorem shifts_typeScriptLoop {bound source : String} (hbound : WellBracketed .typescript bound)
    (hsource : WellBracketed .typescript source) :
    Brackets.Shifts .typescript [] [.curly]
      ("for (let " ++ bound ++ " of " ++ source ++ ") \x7b") :=
  Shifts.lit rfl |>.wrap hbound |>.add rfl |>.wrap hsource |>.add rfl

/-! ## Statements in TypeScript -/

/-- A line that opens a brace, a nested body, and the line that closes the brace. -/
theorem Layout.wellBracketed_braced {t : Target} {head : String}
    (hhead : Brackets.Shifts t [] [.curly] head) {inner rest : List Layout}
    (hinner : Layout.WellBracketed t inner) (hrest : Layout.Shifts t [.curly] [] rest) :
    Layout.WellBracketed t (.line head :: .nest inner :: rest) :=
  .line hhead (.nest (hinner.shifts _) hrest)

/-- The last line of a statement with bodies, and the empty line behind it. -/
theorem Layout.shifts_end {t : Target} :
    Layout.Shifts t [.curly] [] [.line "\x7d", Layout.blank] :=
  .line (.lit rfl) Layout.WellBracketed.blank

mutual

theorem Body.wellBracketed_toTypeScript : ∀ b : Body, b.IsRegular → ∀ {ls : List Layout},
    b.toTypeScript = .ok ls → Layout.WellBracketed .typescript ls
  | ⟨_, stmts⟩, hreg, _, h => Stmt.wellBracketed_toTypeScriptAll stmts hreg.2 h

theorem Function.wellBracketed_toTypeScript : ∀ f : Function, f.IsRegular →
    ∀ {ls : List Layout}, f.toTypeScript = .ok ls → Layout.WellBracketed .typescript ls
  | ⟨signature, body⟩, hreg, ls, h => by
      obtain ⟨_, _, h⟩ := bind_eq_ok.1 h
      obtain ⟨head, hhead, h⟩ := bind_eq_ok.1 h
      obtain ⟨inner, hinner, h⟩ := bind_eq_ok.1 h
      cases pure_eq_ok.1 h
      have hbody := Body.wellBracketed_toTypeScript body hreg.2 hinner
      exact (Signature.shifts_typeScriptHead hreg.1 hhead).append
        (signature.shifts_bracedBody hbody)

theorem Function.wellBracketed_toTypeScriptAll : ∀ fs : List Function, Function.AllRegular fs →
    ∀ {lss : List (List Layout)}, Function.toTypeScriptAll fs = .ok lss →
      ∀ ls ∈ lss, Layout.WellBracketed .typescript ls
  | [], _, lss, h => by
      cases h
      exact fun ls hls => nomatch hls
  | f :: fs, hreg, lss, h => by
      obtain ⟨here, hhere, h⟩ := bind_eq_ok.1 h
      obtain ⟨rest, hrest, h⟩ := bind_eq_ok.1 h
      cases pure_eq_ok.1 h
      intro ls hls
      rcases List.mem_cons.1 hls with rfl | hls
      · exact Function.wellBracketed_toTypeScript f hreg.1 hhere
      · exact Function.wellBracketed_toTypeScriptAll fs hreg.2 hrest ls hls

/-- Every arm closes the brace of the arm before it and leaves its own open. -/
theorem Branches.shifts_toTypeScript : ∀ bs : Branches, bs.AreRegular → ∀ {ls : List Layout},
    bs.toTypeScript = .ok ls → Layout.Shifts .typescript [.curly] [.curly] ls
  | .done, _, ls, h => by
      cases h
      exact .nil
  | .otherwise body, hreg, ls, h => by
      obtain ⟨inner, hinner, h⟩ := bind_eq_ok.1 h
      cases pure_eq_ok.1 h
      have hbody := Body.wellBracketed_toTypeScript body hreg hinner
      exact .line (.lit rfl) (.nest (hbody.shifts _) .nil)
  | .elseIf test body rest, hreg, ls, h => by
      obtain ⟨c, hc, h⟩ := bind_eq_ok.1 h
      obtain ⟨inner, hinner, h⟩ := bind_eq_ok.1 h
      obtain ⟨others, hothers, h⟩ := bind_eq_ok.1 h
      cases pure_eq_ok.1 h
      have htest := Expr.wellBracketed_typeScriptText hreg.1 hc
      have hbody := Body.wellBracketed_toTypeScript body hreg.2.1 hinner
      exact .line (Shifts.lit rfl |>.wrap htest |>.add rfl)
        (.nest (hbody.shifts _) (Branches.shifts_toTypeScript rest hreg.2.2 hothers))

/-- The bodies of handlers, which are put into a clause, and the arm that runs in any case. -/
theorem Handlers.shifts_toTypeScript : ∀ hs : Handlers, hs.AreRegular →
    ∀ {bodies : List (List Layout)} {after : List Layout}, hs.toTypeScript = .ok (bodies, after) →
      (∀ b ∈ bodies, Layout.WellBracketed .typescript b) ∧
        Layout.Shifts .typescript [.curly] [.curly] after
  | .done, _, bodies, after, h => by
      cases h
      exact ⟨fun _ => nofun, .nil⟩
  | .cleanup body, hreg, bodies, after, h => by
      obtain ⟨inner, hinner, h⟩ := bind_eq_ok.1 h
      cases pure_eq_ok.1 h
      have hbody := Body.wellBracketed_toTypeScript body hreg hinner
      exact ⟨fun _ => nofun, .line (.lit rfl) (.nest (hbody.shifts _) .nil)⟩
  | .handler arm body rest, hreg, bodies, after, h => by
      obtain ⟨inner, hinner, h⟩ := bind_eq_ok.1 h
      obtain ⟨others, hothers, h⟩ := bind_eq_ok.1 h
      cases pure_eq_ok.1 h
      have hbody := Body.wellBracketed_toTypeScript body hreg.2.1 hinner
      obtain ⟨hrest, hafter⟩ := Handlers.shifts_toTypeScript rest hreg.2.2 hothers
      refine ⟨fun b hb => ?_, hafter⟩
      rcases List.mem_cons.1 hb with rfl | hb
      · exact hbody
      · exact hrest b hb

/-- The lines of a regular statement are well bracketed in TypeScript. -/
theorem Stmt.wellBracketed_toTypeScript : ∀ s : Stmt, s.IsRegular → ∀ {ls : List Layout},
    s.toTypeScript = .ok ls → Layout.WellBracketed .typescript ls
  | .plain p, hreg, _, h => p.wellBracketed_toTypeScript hreg h
  | .conditional test body branches, hreg, ls, h => by
      obtain ⟨c, hc, h⟩ := bind_eq_ok.1 h
      obtain ⟨inner, hinner, h⟩ := bind_eq_ok.1 h
      obtain ⟨others, hothers, h⟩ := bind_eq_ok.1 h
      cases pure_eq_ok.1 h
      have htest := Expr.wellBracketed_typeScriptText hreg.1 hc
      have hbody := Body.wellBracketed_toTypeScript body hreg.2.1 hinner
      have hbranches := Branches.shifts_toTypeScript branches hreg.2.2 hothers
      exact Layout.wellBracketed_braced (Shifts.lit rfl |>.wrap htest |>.add rfl) hbody
        (hbranches.append Layout.shifts_end)
  | .forEach name iterable body, hreg, ls, h => by
      obtain ⟨c, hc, h⟩ := bind_eq_ok.1 h
      obtain ⟨inner, hinner, h⟩ := bind_eq_ok.1 h
      cases pure_eq_ok.1 h
      have hiterable := Expr.wellBracketed_typeScriptText hreg.2.1 hc
      have hbody := Body.wellBracketed_toTypeScript body hreg.2.2 hinner
      exact Layout.wellBracketed_braced
        (shifts_typeScriptLoop (.of_isInert hreg.1) hiterable) hbody Layout.shifts_end
  | .forEntries key value iterable body, hreg, ls, h => by
      obtain ⟨i, hi, h⟩ := bind_eq_ok.1 h
      obtain ⟨inner, hinner, h⟩ := bind_eq_ok.1 h
      cases pure_eq_ok.1 h
      have hiterable := hreg.2.2.1.wellBracketed_toTypeScript hi
      have hbody := Body.wellBracketed_toTypeScript body hreg.2.2.2 hinner
      have hvalue := WellBracketed.of_isInert (t := .typescript) hreg.2.1
      refine Layout.wellBracketed_braced (shifts_typeScriptLoop ?_ ?_) hbody Layout.shifts_end
      · cases key with
        | none => exact hvalue
        | some key =>
            have hkey := WellBracketed.of_isInert (t := .typescript) (hreg.1 key rfl)
            exact Shifts.lit rfl |>.wrap hkey |>.add rfl |>.wrap hvalue |>.add rfl
      · cases key <;> cases iterable.isMap
        · exact Shifts.lit rfl |>.wrap hiterable |>.add rfl
        · exact (Code.wellBracketed_base hiterable).add rfl
        · exact Shifts.lit rfl |>.wrap hiterable |>.add rfl
        · exact hiterable
  | .attempt body handlers, hreg, ls, h => by
      obtain ⟨_, _, h⟩ := bind_eq_ok.1 h
      obtain ⟨d, hd, h⟩ := bind_eq_ok.1 h
      obtain ⟨inner, hinner, h⟩ := bind_eq_ok.1 h
      obtain ⟨clause, hclause, h⟩ := bind_eq_ok.1 h
      obtain ⟨others, hothers, h⟩ := bind_eq_ok.1 h
      cases pure_eq_ok.1 h
      have hbody := Body.wellBracketed_toTypeScript body hreg.1 hinner
      obtain ⟨hbodies, hafter⟩ := Handlers.shifts_toTypeScript handlers hreg.2 hothers
      have hfits := Dispatch.fits_clause (Handlers.isRegular_of_mem_catches hreg.2) hd hclause
        (Handlers.length_toTypeScript hothers)
      have harms := (CatchClause.shifts_toTypeScript hfits hbodies).append hafter
      exact Layout.wellBracketed_braced (.lit rfl) hbody
        (harms.append (.line (.lit rfl) .nil))
  | .function f, hreg, _, h => Function.wellBracketed_toTypeScript f hreg h
  | .classDef c methods, hreg, ls, h => by
      obtain ⟨properties, hp, h⟩ := bind_eq_ok.1 h
      obtain ⟨constructor, hk, h⟩ := bind_eq_ok.1 h
      obtain ⟨ms, hms, h⟩ := bind_eq_ok.1 h
      cases pure_eq_ok.1 h
      have hproperties : ∀ p ∈ properties, Layout.WellBracketed .typescript p :=
        forall_mem_of_mapM_eq_ok hp fun p hmem _ hl =>
          Class.wellBracketed_typeScriptProperty (hreg.1.properties p hmem) hl
      have hgroups : ∀ g ∈ constructor ++ ms, Layout.WellBracketed .typescript g := by
        intro g hg
        rcases List.mem_append.1 hg with hg | hg
        · exact Class.wellBracketed_typeScriptConstructor hreg.1 hk g hg
        · exact Function.wellBracketed_toTypeScriptAll methods hreg.2 hms g hg
      exact Class.wellBracketed_around hreg.1 (Class.shifts_typeScriptHead hreg.1) hproperties
        hgroups (!c.properties.isEmpty)
  | .block body, hreg, _, h => Body.wellBracketed_toTypeScript body hreg h

theorem Stmt.wellBracketed_toTypeScriptAll : ∀ ss : List Stmt, Stmt.AllRegular ss →
    ∀ {ls : List Layout}, Stmt.toTypeScriptAll ss = .ok ls → Layout.WellBracketed .typescript ls
  | [], _, ls, h => by
      cases h
      exact .nil
  | s :: ss, hreg, ls, h => by
      obtain ⟨here, hhere, h⟩ := bind_eq_ok.1 h
      obtain ⟨rest, hrest, h⟩ := bind_eq_ok.1 h
      cases pure_eq_ok.1 h
      exact (Stmt.wellBracketed_toTypeScript s hreg.1 hhere).append
        (Stmt.wellBracketed_toTypeScriptAll ss hreg.2 hrest)

end

/-! ## Statements in PHP -/

/-- The line of a handler, between the brace before it and its own. -/
theorem Catch.shifts_phpHead {arm : Catch} (hreg : arm.IsRegular) :
    Brackets.Shifts .php [.curly] [.curly]
      ("\x7d catch (" ++ arm.classes.php.getD (Target.exceptionClass .php) ++ " $" ++
        arm.var.getD "_" ++ ") \x7b") := by
  have hclass : isInert (arm.classes.php.getD (Target.exceptionClass .php)) = true := by
    cases hc : arm.classes.php with
    | none => exact (by decide : isInert (Target.exceptionClass .php) = true)
    | some name => exact hreg.classes .php name hc
  have hvar : isInert (arm.var.getD "_") = true := by
    cases hv : arm.var with
    | none => exact (by decide : isInert "_" = true)
    | some name => exact hreg.var name hv
  exact Shifts.lit rfl |>.wrap (.of_isInert hclass) |>.add rfl |>.wrap (.of_isInert hvar)
    |>.add rfl

/-- The head of a loop. -/
theorem shifts_phpLoop {source bound : String} (hsource : WellBracketed .php source)
    (hbound : WellBracketed .php bound) :
    Brackets.Shifts .php [] [.curly] ("foreach (" ++ source ++ " as " ++ bound ++ ") \x7b") :=
  Shifts.lit rfl |>.wrap hsource |>.add rfl |>.wrap hbound |>.add rfl

mutual

theorem Body.wellBracketed_toPhp : ∀ b : Body, b.IsRegular → ∀ {ls : List Layout},
    b.toPhp = .ok ls → Layout.WellBracketed .php ls
  | ⟨_, stmts⟩, hreg, _, h => Stmt.wellBracketed_toPhpAll stmts hreg.2 h

theorem Function.wellBracketed_toPhp : ∀ f : Function, f.IsRegular →
    ∀ {ls : List Layout}, f.toPhp = .ok ls → Layout.WellBracketed .php ls
  | ⟨signature, body⟩, hreg, ls, h => by
      obtain ⟨_, _, h⟩ := bind_eq_ok.1 h
      obtain ⟨head, hhead, h⟩ := bind_eq_ok.1 h
      obtain ⟨inner, hinner, h⟩ := bind_eq_ok.1 h
      cases pure_eq_ok.1 h
      have hbody := Body.wellBracketed_toPhp body hreg.2 hinner
      exact (Signature.shifts_phpHead hreg.1 hhead).append (signature.shifts_bracedBody hbody)

theorem Function.wellBracketed_toPhpAll : ∀ fs : List Function, Function.AllRegular fs →
    ∀ {lss : List (List Layout)}, Function.toPhpAll fs = .ok lss →
      ∀ ls ∈ lss, Layout.WellBracketed .php ls
  | [], _, lss, h => by
      cases h
      exact fun ls hls => nomatch hls
  | f :: fs, hreg, lss, h => by
      obtain ⟨here, hhere, h⟩ := bind_eq_ok.1 h
      obtain ⟨rest, hrest, h⟩ := bind_eq_ok.1 h
      cases pure_eq_ok.1 h
      intro ls hls
      rcases List.mem_cons.1 hls with rfl | hls
      · exact Function.wellBracketed_toPhp f hreg.1 hhere
      · exact Function.wellBracketed_toPhpAll fs hreg.2 hrest ls hls

/-- Every arm closes the brace of the arm before it and leaves its own open. -/
theorem Branches.shifts_toPhp : ∀ bs : Branches, bs.AreRegular → ∀ {ls : List Layout},
    bs.toPhp = .ok ls → Layout.Shifts .php [.curly] [.curly] ls
  | .done, _, ls, h => by
      cases h
      exact .nil
  | .otherwise body, hreg, ls, h => by
      obtain ⟨inner, hinner, h⟩ := bind_eq_ok.1 h
      cases pure_eq_ok.1 h
      have hbody := Body.wellBracketed_toPhp body hreg hinner
      exact .line (.lit rfl) (.nest (hbody.shifts _) .nil)
  | .elseIf test body rest, hreg, ls, h => by
      obtain ⟨c, hc, h⟩ := bind_eq_ok.1 h
      obtain ⟨inner, hinner, h⟩ := bind_eq_ok.1 h
      obtain ⟨others, hothers, h⟩ := bind_eq_ok.1 h
      cases pure_eq_ok.1 h
      have htest := Expr.wellBracketed_phpText hreg.1 hc
      have hbody := Body.wellBracketed_toPhp body hreg.2.1 hinner
      exact .line (Shifts.lit rfl |>.wrap htest |>.add rfl)
        (.nest (hbody.shifts _) (Branches.shifts_toPhp rest hreg.2.2 hothers))

/-- Every arm closes the brace of the arm before it and leaves its own open. -/
theorem Handlers.shifts_toPhp : ∀ hs : Handlers, hs.AreRegular → ∀ {ls : List Layout},
    hs.toPhp = .ok ls → Layout.Shifts .php [.curly] [.curly] ls
  | .done, _, ls, h => by
      cases h
      exact .nil
  | .cleanup body, hreg, ls, h => by
      obtain ⟨inner, hinner, h⟩ := bind_eq_ok.1 h
      cases pure_eq_ok.1 h
      have hbody := Body.wellBracketed_toPhp body hreg hinner
      exact .line (.lit rfl) (.nest (hbody.shifts _) .nil)
  | .handler arm body rest, hreg, ls, h => by
      obtain ⟨inner, hinner, h⟩ := bind_eq_ok.1 h
      obtain ⟨others, hothers, h⟩ := bind_eq_ok.1 h
      cases pure_eq_ok.1 h
      have hbody := Body.wellBracketed_toPhp body hreg.2.1 hinner
      exact .line (Catch.shifts_phpHead hreg.1)
        (.nest (hbody.shifts _) (Handlers.shifts_toPhp rest hreg.2.2 hothers))

/-- The lines of a regular statement are well bracketed in PHP. -/
theorem Stmt.wellBracketed_toPhp : ∀ s : Stmt, s.IsRegular → ∀ {ls : List Layout},
    s.toPhp = .ok ls → Layout.WellBracketed .php ls
  | .plain p, hreg, _, h => p.wellBracketed_toPhp hreg h
  | .conditional test body branches, hreg, ls, h => by
      obtain ⟨c, hc, h⟩ := bind_eq_ok.1 h
      obtain ⟨inner, hinner, h⟩ := bind_eq_ok.1 h
      obtain ⟨others, hothers, h⟩ := bind_eq_ok.1 h
      cases pure_eq_ok.1 h
      have htest := Expr.wellBracketed_phpText hreg.1 hc
      have hbody := Body.wellBracketed_toPhp body hreg.2.1 hinner
      have hbranches := Branches.shifts_toPhp branches hreg.2.2 hothers
      exact Layout.wellBracketed_braced (Shifts.lit rfl |>.wrap htest |>.add rfl) hbody
        (hbranches.append Layout.shifts_end)
  | .forEach name iterable body, hreg, ls, h => by
      obtain ⟨c, hc, h⟩ := bind_eq_ok.1 h
      obtain ⟨inner, hinner, h⟩ := bind_eq_ok.1 h
      cases pure_eq_ok.1 h
      have hiterable := Expr.wellBracketed_phpText hreg.2.1 hc
      have hbody := Body.wellBracketed_toPhp body hreg.2.2 hinner
      have hname := WellBracketed.of_isInert (t := .php) hreg.1
      exact Layout.wellBracketed_braced (Shifts.lit rfl |>.wrap hiterable |>.add rfl |>.wrap hname
        |>.add rfl) hbody Layout.shifts_end
  | .forEntries key value iterable body, hreg, ls, h => by
      obtain ⟨c, hc, h⟩ := bind_eq_ok.1 h
      obtain ⟨inner, hinner, h⟩ := bind_eq_ok.1 h
      cases pure_eq_ok.1 h
      have hiterable := Expr.wellBracketed_phpText hreg.2.2.1 hc
      have hbody := Body.wellBracketed_toPhp body hreg.2.2.2 hinner
      have hvalue := WellBracketed.of_isInert (t := .php) hreg.2.1
      refine Layout.wellBracketed_braced (shifts_phpLoop hiterable ?_) hbody Layout.shifts_end
      cases key with
      | none => exact (Shifts.lit rfl).wrap hvalue
      | some key =>
          have hkey := WellBracketed.of_isInert (t := .php) (hreg.1 key rfl)
          exact Shifts.lit rfl |>.wrap hkey |>.add rfl |>.wrap hvalue
  | .attempt body handlers, hreg, ls, h => by
      obtain ⟨_, _, h⟩ := bind_eq_ok.1 h
      obtain ⟨inner, hinner, h⟩ := bind_eq_ok.1 h
      obtain ⟨others, hothers, h⟩ := bind_eq_ok.1 h
      cases pure_eq_ok.1 h
      have hbody := Body.wellBracketed_toPhp body hreg.1 hinner
      have hhandlers := Handlers.shifts_toPhp handlers hreg.2 hothers
      exact Layout.wellBracketed_braced (.lit rfl) hbody
        (hhandlers.append (.line (.lit rfl) .nil))
  | .function f, hreg, _, h => Function.wellBracketed_toPhp f hreg h
  | .classDef c methods, hreg, ls, h => by
      obtain ⟨properties, hp, h⟩ := bind_eq_ok.1 h
      obtain ⟨constructor, hk, h⟩ := bind_eq_ok.1 h
      obtain ⟨ms, hms, h⟩ := bind_eq_ok.1 h
      cases pure_eq_ok.1 h
      have hproperties : ∀ p ∈ properties, Layout.WellBracketed .php p :=
        forall_mem_of_mapM_eq_ok hp fun p hmem _ hl =>
          Class.wellBracketed_phpProperty (hreg.1.properties p hmem) hl
      have hgroups : ∀ g ∈ constructor ++ ms, Layout.WellBracketed .php g := by
        intro g hg
        rcases List.mem_append.1 hg with hg | hg
        · exact Class.wellBracketed_phpConstructor hreg.1 hk g hg
        · exact Function.wellBracketed_toPhpAll methods hreg.2 hms g hg
      exact Class.wellBracketed_around hreg.1 (Class.shifts_phpHead hreg.1) hproperties hgroups
        (!c.properties.isEmpty)
  | .block body, hreg, _, h => Body.wellBracketed_toPhp body hreg h

theorem Stmt.wellBracketed_toPhpAll : ∀ ss : List Stmt, Stmt.AllRegular ss →
    ∀ {ls : List Layout}, Stmt.toPhpAll ss = .ok ls → Layout.WellBracketed .php ls
  | [], _, ls, h => by
      cases h
      exact .nil
  | s :: ss, hreg, ls, h => by
      obtain ⟨here, hhere, h⟩ := bind_eq_ok.1 h
      obtain ⟨rest, hrest, h⟩ := bind_eq_ok.1 h
      cases pure_eq_ok.1 h
      exact (Stmt.wellBracketed_toPhp s hreg.1 hhere).append
        (Stmt.wellBracketed_toPhpAll ss hreg.2 hrest)

end

end Polyglot
