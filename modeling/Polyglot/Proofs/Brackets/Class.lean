import Polyglot.Proofs.Brackets.Function
import Polyglot.Proofs.Stmt.Constructor

/-!
# Brackets in classes

A regular class is well bracketed if its methods are. The constructor follows from the properties:
its statements are regular, except for the call of the parent's constructor.

* `Class.isRegular_constructor` : the signature of the constructor.
* `Class.mem_constructor_body` : the statements of the constructor.
* `Class.wellBracketed_around` : a class around its properties, constructor and methods.
-/

set_option autoImplicit false

namespace Polyglot

open Outcome Brackets

variable {t : Target}

theorem Property.IsRegular.expr {p : Property} (hreg : p.IsRegular) : p.expr.IsRegular := hreg.name

/-- A constant default stands beside the declaration of the property. -/
theorem Property.IsRegular.literalDefault {p : Property} (hreg : p.IsRegular) :
    ∀ e ∈ p.literalDefault?, e.IsRegular := by
  intro e he
  exact hreg.default e (Option.eq_some_of_filter_eq_some he)

theorem Property.IsRegular.assignedDefault {p : Property} (hreg : p.IsRegular) :
    ∀ e ∈ p.assignedDefault? t, e.IsRegular := by
  intro e he
  unfold Property.assignedDefault? at he
  split at he
  · cases he
  · cases t with
    | python => exact hreg.default e he
    | typescript | php => exact hreg.default e (Option.eq_some_of_filter_eq_some he)

theorem Property.IsRegular.param {p : Property} (hreg : p.IsRegular) {q : Param}
    (h : p.param = .ok q) : q.IsRegular := by
  have hparam : q = ⟨p.name, p.ty, p.default⟩ := by
    unfold Property.param ParamSpec.build at h
    cases hd : p.default with
    | none =>
        rw [hd] at h
        cases h
        rfl
    | some e =>
        rw [hd] at h
        cases e <;> cases h <;> rfl
  subst hparam
  exact ⟨hreg.name, hreg.ty, hreg.default⟩

namespace Class

/-- The constructor of a regular class has a regular signature. -/
theorem isRegular_constructor {c : Class} (hreg : c.IsRegular) (ht : t ≠ .python)
    {k : Constructor} (h : c.constructor t = .ok (some k)) : k.signature.IsRegular := by
  obtain ⟨params, hp, hsignature, _⟩ := exists_of_constructor h
  have hparams : ∀ q ∈ params, q.IsRegular :=
    forall_mem_of_mapM_eq_ok hp fun p hmem q hq =>
      (hreg.properties p (List.mem_of_mem_filter hmem)).param hq
  have hforwarded : c.forwardedParams t = [] := by
    cases t with
    | python => exact absurd rfl ht
    | typescript | php => rfl
  have hname : isInert "__construct" = true := by decide
  rw [hsignature, hforwarded, List.append_nil]
  refine ⟨hname, fun _ => nofun, fun q hq => ?_, rfl, rfl⟩
  exact hparams q (by simpa [Signature.constructor, Signature.params, Signature.method,
    Signature.function] using hq)

/-- A statement of the constructor calls the parent, or is regular. -/
theorem mem_constructor_body {c : Class} (hreg : c.IsRegular) {k : Constructor}
    (h : c.constructor t = .ok (some k)) {p : Plain} (hp : p ∈ k.body) :
    p ∈ c.parentCall? t ∨ p.IsRegular := by
  obtain ⟨_, _, _, hbody⟩ := exists_of_constructor h
  rcases hbody p hp with hparent | hargument | hdefault
  · exact .inl hparent
  · obtain ⟨q, hq, rfl⟩ := List.mem_map.1 hargument
    have hqreg := hreg.properties q (List.mem_of_mem_filter hq)
    exact .inr ⟨hqreg.expr, hqreg.name⟩
  · obtain ⟨q, hq, hs⟩ := List.mem_filterMap.1 hdefault
    obtain ⟨e, he, rfl⟩ := Option.map_eq_some_iff.1 hs
    have hqreg := hreg.properties q hq
    exact .inr ⟨hqreg.expr, hqreg.assignedDefault e he⟩

end Class

/-- Groups of lines with empty lines between them. -/
theorem Layout.wellBracketed_spaced {groups : List (List Layout)}
    (h : ∀ g ∈ groups, Layout.WellBracketed t g) (started : Bool) :
    Layout.WellBracketed t (Layout.spaced started groups) := by
  induction groups generalizing started with
  | nil => exact .nil
  | cons g groups ih =>
      have hblank : Layout.WellBracketed t (if started then [blank] else []) := by
        cases started
        · exact .nil
        · exact .blank
      exact (hblank.append (h g (List.mem_cons_self ..))).append
        (ih (fun g' hg' => h g' (List.mem_cons_of_mem _ hg')) true)

namespace Class

/-- The line above the members of a class. -/
theorem shifts_head {words name parent : String} (hwords : WellBracketed t words)
    (hname : isInert name = true) (hparent : WellBracketed t parent) :
    Brackets.Shifts t [] [.curly] (words ++ "class " ++ name ++ parent ++ " \x7b") :=
  hwords.add rfl |>.wrap (.of_isInert hname) |>.wrap hparent |>.add rfl

/-- The members of a regular class between its head and its end. -/
theorem wellBracketed_around {c : Class} (hreg : c.IsRegular) {head : String}
    (hhead : Brackets.Shifts t [] [.curly] head) {properties groups : List (List Layout)}
    (hproperties : ∀ p ∈ properties, Layout.WellBracketed t p)
    (hgroups : ∀ g ∈ groups, Layout.WellBracketed t g) (started : Bool) :
    Layout.WellBracketed t (Layout.docBlock c.docstring ++
      [.line head,
        .nest (properties.flatten ++ Layout.spaced started groups ++
          c.remarks.map fun r => .line ("// " ++ r)),
        .line "\x7d"]) := by
  have hmembers : Layout.WellBracketed t (properties.flatten ++ Layout.spaced started groups) :=
    (Layout.WellBracketed.flatten hproperties).append (Layout.wellBracketed_spaced hgroups started)
  rw [hreg.docstring, hreg.remarks, List.map_nil, List.append_nil]
  exact .line hhead (.nest (hmembers.shifts _) (.line (.lit rfl) .nil))

/-! ## TypeScript -/

theorem shifts_typeScriptHead {c : Class} (hreg : c.IsRegular) :
    Brackets.Shifts .typescript [] [.curly] c.typeScriptHead := by
  have hexport : WellBracketed .typescript (if c.isExported then "export " else "") := by
    split <;> exact .lit rfl
  have habstract : WellBracketed .typescript (if c.isAbstract then "abstract " else "") := by
    split <;> exact .lit rfl
  refine shifts_head (hexport.wrap habstract) hreg.name ?_
  cases hp : c.typeScriptParent with
  | none => exact .empty
  | some parent => exact Shifts.wrap (.lit rfl) (.of_isInert (hreg.typeScriptParent parent hp))

theorem wellBracketed_typeScriptProperty {p : Property} (hreg : p.IsRegular) {ls : List Layout}
    (h : typeScriptProperty p = .ok ls) : Layout.WellBracketed .typescript ls := by
  obtain ⟨ty, hty, h⟩ := bind_eq_ok.1 h
  obtain ⟨default, hd, h⟩ := bind_eq_ok.1 h
  cases pure_eq_ok.1 h
  have hobservable : Layout.WellBracketed .typescript
      (if p.observable then [.blank, .line "@observable"] else []) := by
    split
    · exact .line (.lit rfl) (.line (.lit rfl) .nil)
    · exact .nil
  have haccess : WellBracketed .typescript (if p.readonly then "readonly " else "public ") := by
    split <;> exact .lit rfl
  have htype := Ty.wellBracketed_typeScriptText hreg.ty hty
  have hdefault := Expr.wellBracketed_typeScriptSuffix (.lit rfl) hreg.literalDefault hd
  exact hobservable.append (.line (haccess.wrap (.of_isInert hreg.name) |>.add rfl |>.wrap htype
    |>.wrap hdefault |>.add rfl) .nil)

/-- The call of the parent's constructor. -/
theorem wellBracketed_typeScriptParentCall {c : Class} {p : Plain}
    (hp : p ∈ c.parentCall? .typescript) {ls : List Layout} (h : p.toTypeScript = .ok ls) :
    Layout.WellBracketed .typescript ls := by
  obtain ⟨_, _, rfl⟩ := Option.map_eq_some_iff.1 hp
  cases h
  exact .single (.lit rfl)

theorem wellBracketed_typeScriptConstructor {c : Class} (hreg : c.IsRegular)
    {groups : List (List Layout)} (h : c.typeScriptConstructor = .ok groups) :
    ∀ g ∈ groups, Layout.WellBracketed .typescript g := by
  obtain ⟨k, hk, h⟩ := bind_eq_ok.1 h
  cases k with
  | none =>
      cases h
      exact fun g hg => nomatch hg
  | some k =>
      obtain ⟨lines, hlines, h⟩ := bind_eq_ok.1 h
      cases pure_eq_ok.1 h
      obtain ⟨head, hhead, hlines⟩ := bind_eq_ok.1 hlines
      obtain ⟨inner, hinner, hlines⟩ := bind_eq_ok.1 hlines
      cases pure_eq_ok.1 hlines
      have hbody : ∀ p ∈ k.body, ∀ ls, p.toTypeScript = .ok ls →
          Layout.WellBracketed .typescript ls := by
        intro p hp ls hls
        rcases mem_constructor_body hreg hk hp with hparent | hplain
        · exact wellBracketed_typeScriptParentCall hparent hls
        · exact p.wellBracketed_toTypeScript hplain hls
      have hsignature := isRegular_constructor hreg (by decide) hk
      intro g hg
      rw [List.mem_singleton.1 hg]
      exact (Signature.shifts_typeScriptHead hsignature hhead).append
        (k.signature.shifts_bracedBody (Plain.wellBracketed_toTypeScriptAll hbody hinner))

/-! ## PHP -/

theorem shifts_phpHead {c : Class} (hreg : c.IsRegular) :
    Brackets.Shifts .php [] [.curly] c.phpHead := by
  have habstract : WellBracketed .php (if c.isAbstract then "abstract " else "") := by
    split <;> exact .lit rfl
  refine shifts_head habstract hreg.name ?_
  cases hp : c.phpParent with
  | none => exact .empty
  | some parent => exact Shifts.wrap (.lit rfl) (.of_isInert (hreg.phpParent parent hp))

theorem wellBracketed_phpProperty {p : Property} (hreg : p.IsRegular) {ls : List Layout}
    (h : phpProperty p = .ok ls) : Layout.WellBracketed .php ls := by
  obtain ⟨comment, hc, h⟩ := bind_eq_ok.1 h
  obtain ⟨default, hd, h⟩ := bind_eq_ok.1 h
  cases pure_eq_ok.1 h
  have hcomment := Ty.wellBracketed_phpVarComment hreg.ty hc
  have hdefault := Expr.wellBracketed_phpSuffix (.lit rfl) hreg.literalDefault hd
  exact .line hcomment (.line (Shifts.lit rfl |>.wrap (.of_isInert hreg.name) |>.wrap hdefault
    |>.add rfl) .nil)

/-- The call of the parent's constructor. -/
theorem wellBracketed_phpParentCall {c : Class} {p : Plain} (hp : p ∈ c.parentCall? .php)
    {ls : List Layout} (h : p.toPhp = .ok ls) : Layout.WellBracketed .php ls := by
  obtain ⟨_, _, rfl⟩ := Option.map_eq_some_iff.1 hp
  cases h
  exact .single (.lit rfl)

theorem wellBracketed_phpConstructor {c : Class} (hreg : c.IsRegular)
    {groups : List (List Layout)} (h : c.phpConstructor = .ok groups) :
    ∀ g ∈ groups, Layout.WellBracketed .php g := by
  obtain ⟨k, hk, h⟩ := bind_eq_ok.1 h
  cases k with
  | none =>
      cases h
      exact fun g hg => nomatch hg
  | some k =>
      obtain ⟨lines, hlines, h⟩ := bind_eq_ok.1 h
      cases pure_eq_ok.1 h
      obtain ⟨head, hhead, hlines⟩ := bind_eq_ok.1 hlines
      obtain ⟨inner, hinner, hlines⟩ := bind_eq_ok.1 hlines
      cases pure_eq_ok.1 hlines
      have hbody : ∀ p ∈ k.body, ∀ ls, p.toPhp = .ok ls → Layout.WellBracketed .php ls := by
        intro p hp ls hls
        rcases mem_constructor_body hreg hk hp with hparent | hplain
        · exact wellBracketed_phpParentCall hparent hls
        · exact p.wellBracketed_toPhp hplain hls
      have hsignature := isRegular_constructor hreg (by decide) hk
      intro g hg
      rw [List.mem_singleton.1 hg]
      exact (Signature.shifts_phpHead hsignature hhead).append
        (k.signature.shifts_bracedBody (Plain.wellBracketed_toPhpAll hbody hinner))

end Class

end Polyglot
