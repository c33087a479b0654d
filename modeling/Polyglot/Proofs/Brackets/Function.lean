import Polyglot.Proofs.Brackets.Plain

/-!
# Brackets in signatures

The head of a function opens the brace that its body closes, except for an abstract function, which
has no body.

* `Signature.shifts_typeScriptHead`, `Signature.shifts_phpHead` : the head.
* `Signature.shifts_bracedBody` : the body and its end.
-/

set_option autoImplicit false

namespace Polyglot

open Outcome Brackets

variable {t : Target}

namespace Signature

/-- What the head of a function leaves open. -/
def openFrames (s : Signature) : List Frame := if s.isAbstract then [] else [.curly]

/-- The end of the line behind the parameters. -/
theorem shifts_headEnd (s : Signature) :
    Brackets.Shifts t [] s.openFrames (if s.isAbstract then ";" else " \x7b") := by
  unfold openFrames
  cases s.isAbstract <;> exact .lit rfl

/-- The body of a function closes what its head leaves open. -/
theorem shifts_bracedBody (s : Signature) {inner : List Layout}
    (hinner : Layout.WellBracketed t inner) :
    Layout.Shifts t s.openFrames [] (s.bracedBody inner) := by
  unfold openFrames bracedBody
  cases s.isAbstract with
  | true => exact .nil
  | false => exact .nest (hinner.shifts _) (.line (.lit rfl) .nil)

/-- The lines from the name of a function to the end of its head. -/
theorem shifts_head (s : Signature) {words : List String}
    (hwords : ∀ w ∈ words, WellBracketed t w) {name : String} (hname : WellBracketed t name)
    {params : List Layout} (hparams : Layout.WellBracketed t params) {result : String}
    (hresult : WellBracketed t result) :
    Layout.Shifts t [] s.openFrames
      [.line (" ".intercalate words ++ " " ++ name ++ "("), .nest params,
        .line (")" ++ result ++ (if s.isAbstract then ";" else " \x7b"))] := by
  have hline : Brackets.Shifts t [] [.round] (" ".intercalate words ++ " " ++ name ++ "(") :=
    (WellBracketed.intercalate (.lit rfl) hwords).add rfl |>.wrap hname |>.add rfl
  exact .line hline (.nest (hparams.shifts _)
    (.line ((Shifts.lit rfl |>.wrap hresult).append s.shifts_headEnd) .nil))

/-! ## TypeScript -/

theorem wellBracketed_typeScriptModifiers (s : Signature) :
    ∀ w ∈ s.typeScriptModifiers, WellBracketed .typescript w := by
  have hinert : (s.typeScriptModifiers.all isInert) = true := by
    unfold typeScriptModifiers
    cases s.isAsync <;> cases s.isAbstract <;> cases s.isStatic <;> cases s.isMethod <;> decide
  exact fun w hw => .of_isInert (List.all_eq_true.1 hinert w hw)

theorem wellBracketed_typeScriptResult {s : Signature} (hreg : s.IsRegular) {text : String}
    (h : s.typeScriptResult = .ok text) : WellBracketed .typescript text := by
  have htyped : ∀ {result : String}, WellBracketed .typescript result → WellBracketed .typescript
      (": " ++ (if s.isAsync then "Promise<" ++ result ++ ">" else result)) := by
    intro result hresult
    refine Shifts.wrap (.lit rfl) ?_
    split
    · exact Shifts.lit rfl |>.wrap hresult |>.add rfl
    · exact hresult
  unfold typeScriptResult at h
  split at h
  · cases h
    exact .empty
  · cases hty : s.result with
    | none =>
        rw [hty] at h
        cases h
        exact htyped (.lit rfl)
    | some ty =>
        rw [hty] at h
        obtain ⟨result, hr, h⟩ := bind_eq_ok.1 h
        cases pure_eq_ok.1 h
        exact htyped (Ty.wellBracketed_typeScriptText (hreg.result ty hty) hr)

/-- A parameter with its type and its default. -/
theorem wellBracketed_typeScriptParam {p : Param} (hreg : p.IsRegular) {l : Layout}
    (h : p.toTypeScript = .ok l) : Layout.WellBracketed .typescript [l] := by
  obtain ⟨ty, hty, h⟩ := bind_eq_ok.1 h
  obtain ⟨default, hd, h⟩ := bind_eq_ok.1 h
  cases pure_eq_ok.1 h
  have htype := Ty.wellBracketed_typeScriptText hreg.ty hty
  have hdefault := Expr.wellBracketed_typeScriptSuffix (.lit rfl) hreg.default hd
  exact .single ((WellBracketed.of_isInert hreg.name).add rfl |>.wrap htype |>.wrap hdefault
    |>.add rfl)

/-- The head of a regular function in TypeScript. -/
theorem shifts_typeScriptHead {s : Signature} (hreg : s.IsRegular) {ls : List Layout}
    (h : s.typeScriptHead = .ok ls) : Layout.Shifts .typescript [] s.openFrames ls := by
  obtain ⟨_, _, h⟩ := bind_eq_ok.1 h
  obtain ⟨params, hp, h⟩ := bind_eq_ok.1 h
  obtain ⟨result, hr, h⟩ := bind_eq_ok.1 h
  cases pure_eq_ok.1 h
  have hparams : ∀ l ∈ params, Layout.WellBracketed .typescript [l] :=
    forall_mem_of_mapM_eq_ok hp fun p hmem l hl =>
      wellBracketed_typeScriptParam (hreg.params p (List.mem_append_left _ hmem)) hl
  have hname : WellBracketed .typescript (if s.isConstructor then "constructor" else s.name) := by
    split
    · exact .lit rfl
    · exact .of_isInert hreg.name
  rw [hreg.docstring, hreg.typeScriptDecorators]
  exact s.shifts_head s.wellBracketed_typeScriptModifiers hname (.of_forall hparams)
    (wellBracketed_typeScriptResult hreg hr)

/-! ## PHP -/

theorem wellBracketed_phpModifiers (s : Signature) :
    ∀ w ∈ s.phpModifiers, WellBracketed .php w := by
  have hinert : (s.phpModifiers.all isInert) = true := by
    unfold phpModifiers
    cases s.isAbstract <;> cases s.isStatic <;> cases s.isMethod <;> decide
  exact fun w hw => .of_isInert (List.all_eq_true.1 hinert w hw)

theorem wellBracketed_phpResult {s : Signature} (hreg : s.IsRegular) {text : String}
    (h : s.phpResult = .ok text) : WellBracketed .php text := by
  unfold phpResult at h
  split at h
  · cases h
    exact .empty
  · cases hty : s.result with
    | none =>
        rw [hty] at h
        cases h
        exact .empty
    | some ty =>
        rw [hty] at h
        obtain ⟨p, hp, h⟩ := bind_eq_ok.1 h
        cases pure_eq_ok.1 h
        have hstrict := (Ty.wellBracketed_toPhp ty (hreg.result ty hty) hp).strict
        cases hs : p.strict with
        | none => exact .empty
        | some strict => exact Shifts.wrap (.lit rfl) (hstrict strict hs)

/-- A parameter with its strict type and its default. -/
theorem wellBracketed_phpParam {p : Param} (hreg : p.IsRegular) {text : String}
    (h : p.toPhp = .ok text) : WellBracketed .php text := by
  obtain ⟨ty, hty, h⟩ := bind_eq_ok.1 h
  obtain ⟨default, hd, h⟩ := bind_eq_ok.1 h
  cases pure_eq_ok.1 h
  have hstrict := (Ty.wellBracketed_toPhp p.ty hreg.ty hty).strict
  have hdefault := Expr.wellBracketed_phpSuffix (.lit rfl) hreg.default hd
  have hvar : ∀ {typed : String}, WellBracketed .php typed →
      WellBracketed .php (typed ++ "$" ++ p.name ++ default) := fun htyped =>
    htyped.add rfl |>.wrap (.of_isInert hreg.name) |>.wrap hdefault
  refine hvar ?_
  cases hs : ty.strict with
  | none => exact .empty
  | some strict => exact (hstrict strict hs).add rfl

theorem wellBracketed_phpParams : ∀ {ps : List String}, (∀ p ∈ ps, WellBracketed .php p) →
    Layout.WellBracketed .php (Layout.phpParams ps)
  | [], _ => .nil
  | [p], h => .single (h p (List.mem_singleton_self p))
  | p :: q :: ps, h => by
      have hrest := @wellBracketed_phpParams (q :: ps) fun x hx => h x (List.mem_cons_of_mem _ hx)
      exact .line ((h p (List.mem_cons_self ..)).add rfl) hrest

/-- The head of a regular function in PHP. -/
theorem shifts_phpHead {s : Signature} (hreg : s.IsRegular) {ls : List Layout}
    (h : s.phpHead = .ok ls) : Layout.Shifts .php [] s.openFrames ls := by
  obtain ⟨_, _, h⟩ := bind_eq_ok.1 h
  obtain ⟨params, hp, h⟩ := bind_eq_ok.1 h
  obtain ⟨result, hr, h⟩ := bind_eq_ok.1 h
  cases pure_eq_ok.1 h
  have hparams : ∀ p ∈ params, WellBracketed .php p :=
    forall_mem_of_mapM_eq_ok hp fun p hmem text htext =>
      wellBracketed_phpParam (hreg.params p (List.mem_append_left _ hmem)) htext
  have hname : WellBracketed .php (if s.isConstructor then "__construct" else s.name) := by
    split
    · exact .lit rfl
    · exact .of_isInert hreg.name
  rw [hreg.docstring]
  exact s.shifts_head s.wellBracketed_phpModifiers hname (wellBracketed_phpParams hparams)
    (wellBracketed_phpResult hreg hr)

end Signature

end Polyglot
