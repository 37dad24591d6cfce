import WireTypes.Proofs.AlikeConstants
import WireTypes.Proofs.Nodes

/-!
# Skipped members

A skipped member leaves no trace in an output: not its name, its type or its comments, nor the fact
that there is one.

* `toExpr_withoutSkipped`: the expression of a shape is that of the shape without skipped members
  (`Shape.withoutSkipped`), at any depth.
* `generate_eq_of_sameButSkipped`: sections that are the same without skipped members have the same
  output, errors included.
-/

set_option autoImplicit false

namespace WireTypes

/-! ## Shapes without skipped members -/

mutual

/-- A shape without the skipped members of its records, at any depth. -/
def Shape.withoutSkipped : Shape → Shape
  | .record members => .record (Shape.keptMembers members)
  | .map key value => .map key.withoutSkipped value.withoutSkipped
  | .sequence elem => .sequence elem.withoutSkipped
  | .optional inner => .optional inner.withoutSkipped
  | .pointer inner => .pointer inner.withoutSkipped
  | .primitive p => .primitive p
  | .named name => .named name
  | .unresolved name => .unresolved name
termination_by structural s => s

/-- The members that are not skipped, in order. -/
def Shape.keptMembers : List (Member Shape) → List (Member Shape)
  | [] => []
  | m :: rest => (Shape.keptMember? m).toList ++ Shape.keptMembers rest
termination_by structural members => members

/-- A member unless it is skipped, without skipped members inside its type. -/
def Shape.keptMember? : Member Shape → Option (Member Shape)
  | ⟨type, goName, rename, mayMiss, readonly, skip, override, doc, comment⟩ =>
    if skip then none
    else
      some ⟨type.withoutSkipped, goName, rename, mayMiss, readonly, skip, override, doc, comment⟩
termination_by structural m => m

end

/-- A type without the skipped members in its body. -/
def TypeDecl.withoutSkipped (d : TypeDecl) : TypeDecl :=
  { d with body := d.body.withoutSkipped }

/-- A constant without the skipped members in its type. -/
def ConstDecl.withoutSkipped (d : ConstDecl) : ConstDecl :=
  { d with type := d.type.withoutSkipped }

/-- An item without skipped members. -/
def Item.withoutSkipped : Item → Item
  | .type d => .type d.withoutSkipped
  | .const d => .const d.withoutSkipped
  | .emit text => .emit text

/-- A section without skipped members. -/
def Section.withoutSkipped (s : Section) : Section :=
  { s with items := s.items.map Item.withoutSkipped }

/-- Sections that differ in skipped members only: in what they are, and in whether and where there
are any. -/
def SameButSkipped (sections sections' : List Section) : Prop :=
  sections.map Section.withoutSkipped = sections'.map Section.withoutSkipped

theorem Shape.isByte_withoutSkipped (s : Shape) : s.withoutSkipped.isByte = s.isByte := by
  cases s with
  | _ => rfl

theorem Shape.typeName?_withoutSkipped (s : Shape) :
    s.withoutSkipped = s ∨ s.typeName? = none ∧ s.withoutSkipped.typeName? = none := by
  cases s with
  | primitive _ | named _ | unresolved _ => exact .inl rfl
  | _ => exact .inr ⟨rfl, rfl⟩

end WireTypes

namespace WireTypes.Code

variable {o : Options} {package : String}

/-! ## Expressions -/

theorem toProperty?_of_skip (ctx : Context) {m : Member Shape} (h : m.skip = true) (depth : Nat) :
    toProperty? ctx m depth = .ok none := by
  obtain ⟨type, goName, rename, optional, readonly, skip, override, doc, comment⟩ := m
  rw [toProperty?.eq_def]
  simp only at h
  subst h
  rfl

/-- A member that is kept has the property that it has without what is skipped inside its type. -/
theorem toProperty?_kept {ctx : Context} {m m' : Member Shape} {depth : Nat}
    (h : toExpr ctx m.type.withoutSkipped depth = toExpr ctx m.type depth)
    (hkept : Shape.keptMember? m = some m') :
    toProperty? ctx m' depth = toProperty? ctx m depth := by
  obtain ⟨type, goName, rename, optional, readonly, skip, override, doc, comment⟩ := m
  rw [Shape.keptMember?.eq_def] at hkept
  simp only [Option.ite_none_left_eq_some, Option.some.injEq] at hkept
  obtain ⟨-, rfl⟩ := hkept
  rw [toProperty?.eq_def, toProperty?.eq_def]
  simp only [h]

theorem toProperties_keptMembers {ctx : Context} {ms : List (Member Shape)} {depth : Nat}
    (h : ∀ m ∈ ms, toExpr ctx m.type.withoutSkipped depth = toExpr ctx m.type depth) :
    toProperties ctx (Shape.keptMembers ms) depth = toProperties ctx ms depth := by
  induction ms with
  | nil => rfl
  | cons m rest ih =>
    have hrest := ih fun m hm => h m (List.mem_cons_of_mem _ hm)
    rw [Shape.keptMembers]
    cases hkept : Shape.keptMember? m with
    | none =>
      have hskip : m.skip = true := by
        rw [Shape.keptMember?.eq_def] at hkept
        simpa using hkept
      rw [toProperties, toProperty?_of_skip ctx hskip]
      exact hrest
    | some m' =>
      rw [Option.toList_some, List.singleton_append, toProperties, toProperties,
        toProperty?_kept (h m List.mem_cons_self) hkept, hrest]

theorem toExpr_withoutSkipped (ctx : Context) (s : Shape) (depth : Nat) :
    toExpr ctx s.withoutSkipped depth = toExpr ctx s depth := by
  induction s generalizing depth with
  | primitive _ | named _ | unresolved _ => rfl
  | map key value ihk ihv => rw [Shape.withoutSkipped, toExpr, toExpr, ihk, ihv]
  | sequence elem ih => rw [Shape.withoutSkipped, toExpr, toExpr, Shape.isByte_withoutSkipped, ih]
  | optional inner ih => rw [Shape.withoutSkipped, toExpr, toExpr, ih]
  | pointer inner ih => rw [Shape.withoutSkipped, toExpr, toExpr, ih]
  | record members ih =>
    rw [Shape.withoutSkipped, toExpr, toExpr,
      toProperties_keptMembers fun m hm => ih m hm (depth + 1)]

/-! ## Declarations -/

theorem renderTypeBody_withoutSkipped (ctx : Context) (d : TypeDecl) :
    renderTypeBody ctx d.withoutSkipped = renderTypeBody ctx d := by
  obtain ⟨name, kind, body, heritage, doc, comment, location⟩ := d
  have hinterface : renderTypeBody ctx
        ⟨name, .struct, body.withoutSkipped, heritage, doc, comment, location⟩ =
      renderTypeBody ctx ⟨name, .struct, body, heritage, doc, comment, location⟩ := by
    cases body with
    | record members =>
      have hmembers : toProperties ctx (Shape.keptMembers members) 1 = toProperties ctx members 1 :=
        toProperties_keptMembers fun m _ => toExpr_withoutSkipped ctx m.type 1
      unfold renderTypeBody
      simp only [Shape.withoutSkipped, hmembers]
    | _ => rfl
  rcases kind with _ | _ | _
  · exact hinterface
  · unfold renderTypeBody TypeDecl.withoutSkipped
    simp only
    rw [toExpr_withoutSkipped]
  · exact hinterface

theorem renderType_withoutSkipped (d : TypeDecl) :
    renderType o package d.withoutSkipped = renderType o package d := by
  have hbody := renderTypeBody_withoutSkipped { options := o, package, decl := d.name } d
  unfold renderType
  unfold TypeDecl.withoutSkipped at hbody ⊢
  rw [hbody]

theorem alike_withoutSkipped (d : ConstDecl) :
    ConstDecl.Alike Eq o o package d d.withoutSkipped where
  name := rfl
  value := rfl
  type := d.type.typeName?_withoutSkipped
  expr _ := .of_eq (fun _ => rfl) (toExpr_withoutSkipped _ d.type 0).symm
  check _ := .refl (fun _ => rfl) (fun _ => rfl) _
  doc _ := rfl
  comment := rfl

/-! ## Outputs -/

theorem generate_withoutSkipped (options : Options) (sections : List Section) :
    generate options (sections.map Section.withoutSkipped) = generate options sections := by
  have hsections : List.Forall₂ (Section.Beside (fun _ d d' => d' = d.withoutSkipped)
      (fun _ d d' => d' = d.withoutSkipped)) sections (sections.map Section.withoutSkipped) := by
    refine Section.beside_map (fun _ => rfl) fun s _ item _ => ?_
    cases item with
    | type d => exact .type rfl
    | const d => exact .const rfl
    | emit text => exact .emit text
  have htaken : TakenNames.ofSections (sections.map Section.withoutSkipped) =
      TakenNames.ofSections sections := by
    refine ofSections_eq ?_ ?_ hsections
    · rintro package d _ rfl
      rfl
    · rintro package d _ rfl
      rfl
  refine (generate_agree (fun _ => rfl) rfl rfl htaken (fun package => ?_) ?_ hsections).eq.symm
  · refine constsInStep_of_alike ⟨rfl, rfl, rfl⟩ (fun _ => rfl) ?_ _
    rintro d _ rfl
    exact alike_withoutSkipped d
  · rintro package d _ rfl
    exact .of_eq (fun _ => rfl) (renderType_withoutSkipped d).symm

/-- Sections that differ in skipped members only have the same output, or fail alike. -/
theorem generate_eq_of_sameButSkipped (options : Options) {sections sections' : List Section}
    (h : SameButSkipped sections sections') :
    generate options sections = generate options sections' := by
  calc generate options sections
      = generate options (sections.map Section.withoutSkipped) :=
        (generate_withoutSkipped options sections).symm
    _ = generate options (sections'.map Section.withoutSkipped) := by rw [h]
    _ = generate options sections' := generate_withoutSkipped options sections'

/-- A type with a skipped member of a type that cannot be mapped, and with a map whose keys are
records; `extra` are further members of these. -/
def accountSections (extra : List (Member Shape)) : List Section :=
  let keys : Shape := .record (.plain "Region" (.primitive .string) :: extra)
  let members : List (Member Shape) :=
    [.plain "Email" (.primitive .string),
      { Member.plain "Password" (.unresolved "") with
        skip := true, rename := some "-", comment := some "never shown" },
      .plain "Limits" (.map keys (.sequence (.record (extra ++ [.plain "Low" (.primitive .int)]))))]
  [⟨"auth", "account.go", [
    .type ⟨"Account", .struct, .record members, [], none, none, ⟨"account.go", none, 1⟩⟩]⟩]

theorem accountSections_same :
    let secret : Member Shape :=
      { Member.plain "Secret" (.map (.named "") (.named "")) with skip := true }
    SameButSkipped (accountSections []) (accountSections [secret, secret]) ∧
      generate {} (accountSections []) = generate {} (accountSections [secret, secret]) ∧
      (generate {} (accountSections [])).isOk := by
  intro secret
  have h : SameButSkipped (accountSections []) (accountSections [secret, secret]) := rfl
  exact ⟨h, generate_eq_of_sameButSkipped {} h, by decide +kernel⟩

end WireTypes.Code
