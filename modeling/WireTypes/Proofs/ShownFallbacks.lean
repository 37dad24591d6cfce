import WireTypes.Proofs.Nodes
import WireTypes.Proofs.ShownComments

/-!
# Fallbacks that are shown

A name that nothing answers, and that has no rule, is written as the fallback with the name in a
comment. `Shape.shownNames` has the names that come up for this in an expression; those in keys of
maps, in skipped members and in members that ask for a type of their own do not. `Scattered` is the
relation between a text and what stands in it in order.

* `toExpr_fallbacks`: the expression of a shape has a fallback for each of these names, in order.
-/

set_option autoImplicit false

namespace WireTypes

mutual

/-- The names in a shape that nothing answers, once for every time that they come up where they are
shown, in order. -/
def Shape.shownNames : Shape → List String
  | .unresolved name => [name]
  | .record members => Shape.shownNamesOfMembers members
  | .map _ value => value.shownNames
  | .sequence elem => elem.shownNames
  | .optional inner => inner.shownNames
  | .pointer inner => inner.shownNames
  | .primitive _ | .named _ => []
termination_by structural s => s

/-- The names in the types of members. -/
def Shape.shownNamesOfMembers : List (Member Shape) → List String
  | [] => []
  | m :: rest => Shape.shownNamesOfMember m ++ Shape.shownNamesOfMembers rest
termination_by structural members => members

/-- The names in the type of a member, unless it is skipped or another type is written. -/
def Shape.shownNamesOfMember : Member Shape → List String
  | ⟨type, _, _, _, _, skip, override, _, _⟩ =>
    if skip || override.isSome then [] else type.shownNames
termination_by structural m => m

end

namespace Code

/-- The pieces stand in the text one after the other. -/
inductive Scattered : List String → String → Prop
  | nil (text : String) : Scattered [] text
  | cons {pieces : List String} {rest : String} (before piece : String)
      (h : Scattered pieces rest) : Scattered (piece :: pieces) (before ++ piece ++ rest)

namespace Scattered

variable {pieces pieces' : List String} {text text' : String}

theorem single (text : String) : Scattered [text] text := by
  have h := Scattered.cons "" text (.nil "")
  rwa [String.empty_append, String.append_empty] at h

theorem after (before : String) (h : Scattered pieces text) :
    Scattered pieces (before ++ text) := by
  cases h with
  | nil => exact .nil _
  | cons gap piece h =>
    rw [← String.append_assoc, ← String.append_assoc]
    exact .cons (before ++ gap) piece h

theorem append (h : Scattered pieces text) (h' : Scattered pieces' text') :
    Scattered (pieces ++ pieces') (text ++ text') := by
  induction h with
  | nil text => exact h'.after text
  | cons before piece _ ih =>
    rw [String.append_assoc]
    exact .cons before piece ih

theorem before (h : Scattered pieces text) (rest : String) : Scattered pieces (text ++ rest) := by
  have happend := h.append (.nil rest)
  rwa [List.append_nil] at happend

theorem exists_of_mem {piece : String} (h : Scattered pieces text) (hpiece : piece ∈ pieces) :
    ∃ before after, text = before ++ piece ++ after := by
  induction h with
  | nil => cases hpiece
  | cons gap first _ ih =>
    rcases List.mem_cons.1 hpiece with rfl | hpiece
    · exact ⟨_, _, rfl⟩
    · obtain ⟨before, after, rfl⟩ := ih hpiece
      exact ⟨gap ++ first ++ before, after, by simp only [String.append_assoc]⟩

end Scattered

/-- The fallback, followed by a name in a comment. -/
def notedFallback (options : Options) (name : String) : String :=
  options.fallback ++ " /* " ++ .ofList (Comment.escapeClosing name.toList) ++ " */"

/-- The fallbacks for those of some names that have no rule. -/
def Context.fallbacks (ctx : Context) (names : List String) : List String :=
  (names.filter fun name => (ctx.options.overrides.get? name).isNone).map
    (notedFallback ctx.options)

variable {ctx : Context} {depth : Nat}

theorem Context.fallbacks_append (ctx : Context) (names names' : List String) :
    ctx.fallbacks (names ++ names') = ctx.fallbacks names ++ ctx.fallbacks names' := by
  simp only [fallbacks, List.filter_append, List.map_append]

/-! ## Members -/

/-- The fallbacks in the type of a property stand in its lines. -/
theorem render_scattered {pieces : List String} (options : Options) (depth : Nat) (p : Property)
    (h : Scattered pieces p.type.text) : Scattered pieces (p.render options depth) := by
  unfold Property.render
  exact (((h.after _).before _).before _).before _

theorem toProperty?_fallbacks {m : Member Shape} {p : Option Property}
    (h : ∀ e, toExpr ctx m.type depth = .ok e → Scattered (ctx.fallbacks m.type.shownNames) e.text)
    (hp : toProperty? ctx m depth = .ok p) :
    Scattered (ctx.fallbacks (Shape.shownNamesOfMember m))
      (renderProperties ctx.options depth p.toList) := by
  obtain ⟨type, goName, rename, optional, readonly, skip, override, doc, comment⟩ := m
  rw [Shape.shownNamesOfMember.eq_def]
  cases skip with
  | true => exact .nil _
  | false =>
    cases override with
    | some expr => exact .nil _
    | none =>
      rw [toProperty?.eq_def] at hp
      obtain ⟨e, he, hp⟩ := bind_eq_ok.1 hp
      cases hp
      rw [Option.toList_some, renderProperties_singleton]
      exact render_scattered ctx.options depth _ (h e he)

theorem toProperties_fallbacks {ms : List (Member Shape)} {ps : List Property}
    (h : ∀ m ∈ ms, ∀ e, toExpr ctx m.type depth = .ok e →
      Scattered (ctx.fallbacks m.type.shownNames) e.text)
    (hps : toProperties ctx ms depth = .ok ps) :
    Scattered (ctx.fallbacks (Shape.shownNamesOfMembers ms))
      (renderProperties ctx.options depth ps) := by
  induction ms generalizing ps with
  | nil => exact .nil _
  | cons m rest ih =>
    rw [toProperties_cons] at hps
    obtain ⟨p, hp, hps⟩ := bind_eq_ok.1 hps
    obtain ⟨more, hmore, hps⟩ := bind_eq_ok.1 hps
    cases hps
    rw [Shape.shownNamesOfMembers, Context.fallbacks_append, renderProperties_append]
    exact (toProperty?_fallbacks (h m List.mem_cons_self) hp).append
      (ih (fun m hm => h m (List.mem_cons_of_mem _ hm)) hmore)

/-! ## Expressions -/

theorem unresolvedExpr_fallbacks {name : String} {e : Expr} (h : unresolvedExpr ctx name = .ok e) :
    Scattered (ctx.fallbacks [name]) e.text := by
  unfold unresolvedExpr at h
  split at h
  · cases h
  · split at h
    · rename_i expr hrule
      have hnone : ctx.fallbacks [name] = [] := by simp [Context.fallbacks, hrule]
      rw [hnone]
      exact .nil _
    · rename_i hrule
      have hone : ctx.fallbacks [name] = [notedFallback ctx.options name] := by
        simp [Context.fallbacks, hrule]
      rw [hone]
      cases h
      exact .single _

theorem scattered_mapExpr (key : Expr) {value : Expr} {pieces : List String}
    (h : Scattered pieces value.text) : Scattered pieces (mapExpr key value).text :=
  ((h.before " | ").before "undefined").after _ |>.before _

theorem scattered_operand {e : Expr} {pieces : List String} (h : Scattered pieces e.text) :
    Scattered pieces e.operand := by
  unfold Expr.operand
  split
  · exact (h.after "(").before ")"
  · exact h

theorem scattered_pointerExpr {e : Expr} {pieces : List String} (h : Scattered pieces e.text) :
    Scattered pieces (pointerExpr e).text := by
  unfold pointerExpr
  split
  · exact h
  · exact (h.before " | ").before "null"

/-- A byte is no name. -/
theorem shownNames_of_isByte {s : Shape} (h : s.isByte) : s.shownNames = [] := by
  cases s with
  | primitive => rfl
  | _ => cases h

theorem toExpr_scattered {s : Shape} {e : Expr} (h : toExpr ctx s depth = .ok e) :
    Scattered (ctx.fallbacks s.shownNames) e.text := by
  induction s generalizing depth e with
  | primitive | named => exact .nil _
  | unresolved name =>
    rw [toExpr] at h
    exact unresolvedExpr_fallbacks h
  | map key value _ ih =>
    rw [toExpr] at h
    obtain ⟨key, -, h⟩ := bind_eq_ok.1 h
    obtain ⟨value, hvalue, h⟩ := bind_eq_ok.1 h
    cases h
    exact scattered_mapExpr key (ih hvalue)
  | sequence elem ih =>
    rw [toExpr] at h
    rw [Shape.shownNames]
    split at h
    · rename_i hbyte
      rw [shownNames_of_isByte hbyte]
      exact .nil _
    · obtain ⟨elem, helem, h⟩ := bind_eq_ok.1 h
      cases h
      exact (scattered_operand (ih helem)).before "[]"
  | pointer inner ih =>
    rw [toExpr] at h
    obtain ⟨inner, hinner, h⟩ := bind_eq_ok.1 h
    cases h
    exact scattered_pointerExpr (ih hinner)
  | optional inner ih =>
    rw [toExpr] at h
    obtain ⟨inner, hinner, h⟩ := bind_eq_ok.1 h
    cases h
    exact ((ih hinner).before " | ").before "undefined"
  | record members ih =>
    rw [toExpr] at h
    obtain ⟨ps, hps, h⟩ := bind_eq_ok.1 h
    cases h
    have hmembers := toProperties_fallbacks (fun m hm _ he => ih m hm he) hps
    exact ((hmembers.after _).before _).before _

/-- The expression of a shape has the fallback, with the name in a comment, for every name that
nothing answers and that has no rule, wherever it comes up outside of keys of maps, skipped members
and members with a type of their own. If there are several, they follow one another in the order of
the names. -/
theorem toExpr_fallbacks {s : Shape} {e : Expr} (h : toExpr ctx s depth = .ok e) :
    (∀ name ∈ s.shownNames, ctx.options.overrides.get? name = none → ∃ before after, e.text =
      before ++ (ctx.options.fallback ++ " /* " ++ .ofList (Comment.escapeClosing name.toList) ++
        " */") ++ after) ∧
    Scattered (ctx.fallbacks s.shownNames) e.text := by
  have hscattered := toExpr_scattered h
  refine ⟨fun name hname hrule => hscattered.exists_of_mem ?_, hscattered⟩
  refine List.mem_map.2 ⟨name, List.mem_filter.2 ⟨hname, ?_⟩, rfl⟩
  rw [hrule, Option.isNone_none]

/-- A visit: a name with a rule, one that comes up twice, one that would close a comment, and
members whose types are not shown. -/
def visitShape : Shape :=
  let time := Shape.unresolved "time.Time"
  .map (.unresolved "geo.Place") (.optional (.record [
    Member.plain "ID" (.pointer (.unresolved "uuid.UUID")),
    { Member.plain "Times" (.sequence (.pointer time)) with doc := some "From and to." },
    { Member.plain "Raw" (.unresolved "raw.Data") with skip := true },
    { Member.plain "Code" (.unresolved "raw.Code") with override := some "string" },
    Member.plain "Log" (.record [Member.plain "At" time, Member.plain "By" (.unresolved "a*/b")])]))

theorem visitShape_fallbacks :
    let ctx : Context :=
      { options := { overrides := ⟨[("uuid.UUID", "string")], by simp⟩ }, package := "p",
        decl := "Visit" }
    let pieces := ["unknown /* time.Time */", "unknown /* time.Time */", "unknown /* a*\\/b */"]
    visitShape.shownNames = ["uuid.UUID", "time.Time", "time.Time", "a*/b"] ∧
    ctx.fallbacks visitShape.shownNames = pieces ∧
    ∃ e, toExpr ctx visitShape 0 = .ok e ∧ Scattered pieces e.text ∧
      e.text = "\x7b [key: string]: \x7b\n  ID: string | null;\n" ++
        "  /**\n   * From and to.\n   */\n  Times: (unknown /* time.Time */ | null)[];\n" ++
        "  Code: string;\n  Log: \x7b\n" ++
        "    At: unknown /* time.Time */;\n    By: unknown /* a*\\/b */;\n  \x7d;\n" ++
        "\x7d | undefined | undefined \x7d" := by
  intro ctx pieces
  have hfallbacks : ctx.fallbacks visitShape.shownNames = pieces := by decide +kernel
  obtain ⟨e, he⟩ := exists_of_isOk (x := toExpr ctx visitShape 0) (by decide +kernel)
  have htext : (toExpr ctx visitShape 0).toOption.map Expr.text = some e.text := by rw [he]; rfl
  have hscattered := (toExpr_fallbacks he).2
  rw [hfallbacks] at hscattered
  refine ⟨by decide +kernel, hfallbacks, e, he, hscattered, ?_⟩
  exact Option.some_inj.1 (htext.symm.trans (by decide +kernel))

end Code

end WireTypes
