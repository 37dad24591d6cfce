import WireTypes.Code.Mapping
import WireTypes.Proofs.ExprFlags
import WireTypes.Proofs.Names
import WireTypes.Proofs.Nodes
import WireTypes.Proofs.Properties

/-!
# Flags of mapped shapes

The flags of the expression of a shape describe its text, whatever is inside: by induction on the
shape every expression is `Sound` (`sound_toExpr`). User text is where it can go wrong. The options
have to fit (`Fits`): the fallback, which is annotated without being classified, must be a single
alternative other than `null`, and a rule must spell its `null` without comments.
`describes_iff_fits` says that this is exactly what is needed.
-/

set_option autoImplicit false

namespace WireTypes.Code

variable {ctx : Context}

/-! ## What is asked of shapes and options -/

/-- The expression of a rule that answers a name. -/
def Context.Answers (ctx : Context) (name expr : String) : Prop :=
  ctx.options.overrides.get? name = some expr ∨ ctx.localRule? name = some expr

/-- The expressions of the user are balanced. -/
structure Context.Balanced (ctx : Context) : Prop where
  fallback : IsBalanced ctx.options.fallback.toList
  rules : ∀ name expr, ctx.options.overrides.get? name = some expr → IsBalanced expr.toList

/-- The flags of all expressions of the user are right where they are used. -/
structure Fits (ctx : Context) : Prop where
  fallback : alternatives ctx.options.fallback = [ctx.options.fallback.toList]
  notNull : ¬IsNull ctx.options.fallback.toList
  rules : ∀ name expr, IsDotted name → ctx.Answers name expr → SpellsNull expr

/-- A node of a shape from which an expression is made: names are dotted identifiers, `null` is no
reference unless a rule answers it, and the members of a record have no comments and balanced
expressions. -/
def AdmissibleNode (ctx : Context) : Shape → Prop
  | .named name => IsDotted name ∧ (name = "null" → (ctx.localRule? name).isSome)
  | .unresolved name => IsDotted name
  | .record members => ∀ m ∈ members, m.doc = none ∧ m.comment = none ∧
      ∀ expr, m.override = some expr → IsBalanced expr.toList
  | _ => True

/-- All nodes of a shape are admissible. -/
def Admissible (ctx : Context) (s : Shape) : Prop := ∀ n ∈ s.nodes, AdmissibleNode ctx n

theorem admissible_leaf {s : Shape} (hs : s.nodes = [s]) (h : AdmissibleNode ctx s) :
    Admissible ctx s := by
  intro n hn
  rw [hs, List.mem_singleton] at hn
  exact hn ▸ h

theorem Admissible.member {members : List (Member Shape)} (h : Admissible ctx (.record members))
    {m : Member Shape} (hm : m ∈ members) : Admissible ctx m.type :=
  fun n hn => h n (Shape.nodes_subset_of_mem hm hn)

theorem Context.Balanced.answer (h : ctx.Balanced) {name expr : String}
    (ha : ctx.Answers name expr) : IsBalanced expr.toList := by
  rcases ha with ha | ha
  · exact h.rules _ _ ha
  · rcases Option.or_eq_some_iff.1 ha with ha | ⟨-, ha⟩
    · exact h.rules _ _ ha
    · exact h.rules _ _ ha

/-! ## Leaves -/

theorem sound_primitiveExpr (hb : ctx.Balanced) (hf : Fits ctx) (p : Package.Primitive) :
    Sound (primitiveExpr ctx.options p) := by
  have hfallback : Sound (.ofText ctx.options.fallback) := by
    refine sound_ofText hb.fallback fun ⟨p, hp, hnull⟩ => ?_
    rw [hf.fallback, List.mem_singleton] at hp
    exact absurd (hp ▸ hnull) hf.notNull
  cases p with
  | any => exact hfallback
  | _ =>
    exact sound_simple ExprKind.noConfusion (fun _ => ⟨rfl, rfl⟩) (by decide)

theorem sound_named {name : String} (h : IsDotted name) (hne : name ≠ "null") :
    Sound (.simple name .named) := by
  refine sound_simple ExprKind.noConfusion h.spans fun hnull => hne ?_
  rw [IsNull, bareIn_of_not_mem h.slash_not_mem (fun _ => Scope.noConfusion),
    Text.trim_eq_self fun _ => h.isBlank] at hnull
  exact String.toList_inj.1 hnull

theorem escapeClosing_eq_self {cs : List Char} (h : '*' ∉ cs) :
    Comment.escapeClosing cs = cs := by
  induction cs with
  | nil => rfl
  | cons c cs ih =>
    rw [List.mem_cons, not_or] at h
    rw [Comment.escapeClosing, ih h.2]
    rintro _ rfl
    exact absurd rfl h.1

/-- The note that follows the fallback for a name. -/
def note (name : String) : List Char :=
  [' '] ++ '/' :: '*' :: (' ' :: name.toList ++ [' '] ++ ['*', '/'])

theorem toList_fallbackExpr (options : Options) {name : String} (h : IsDotted name) :
    (fallbackExpr options name).text.toList = options.fallback.toList ++ note name := by
  have hopen : (" /* " : String).toList = [' ', '/', '*', ' '] := rfl
  have hclose : (" */" : String).toList = [' ', '*', '/'] := rfl
  simp only [fallbackExpr, Expr.simple, String.toList_append, String.toList_ofList,
    escapeClosing_eq_self h.star_not_mem, hopen, hclose]
  simp [note]

theorem meet_note (t : List Char) (name : String) : Meet t (note name) := fun _ h => nomatch h

/-- A note is in one piece, and a blank apart from comments. -/
theorem spans_note {name : String} (h : IsDotted name) (d : Nat) :
    Spans (.code d) (note name) (.code d) ∧ bareIn (.code d) (note name) = [' '] := by
  have hstar : '*' ∉ ' ' :: name.toList ++ [' '] := by
    simpa using h.star_not_mem
  obtain ⟨hspans, hbare⟩ := spans_comment (not_commentEnd_of_not_mem hstar) d
  have hmeet : Meet [' '] ('/' :: '*' :: (' ' :: name.toList ++ [' '] ++ ['*', '/'])) :=
    fun hl => absurd hl (by decide)
  have hblank : Spans (.code d) [' '] (.code d) := ⟨rfl, rfl⟩
  refine ⟨hblank.append trivial hspans hmeet, ?_⟩
  rw [note, bareIn_append (s := .code d) trivial hblank.after hmeet]
  exact congrArg ([' '] ++ ·) hbare

/-- The alternatives of an annotated fallback are those of the fallback, the last with its note. -/
theorem alternatives_fallbackExpr (hb : ctx.Balanced) {name : String} (h : IsDotted name) :
    (alternatives (fallbackExpr ctx.options name).text).length =
      (alternatives ctx.options.fallback).length := by
  rw [alternatives, toList_fallbackExpr _ h,
    alternativesIn_append (s := .code 0) trivial (hb.fallback 0) (meet_note _ name),
    (spans_note h 0).1.whole]
  have hlength := length_glue (alternativesIn_ne_nil (.code 0) ctx.options.fallback.toList)
    (List.cons_ne_nil (note name) [])
  simpa [alternatives] using hlength

theorem isNull_fallbackExpr (hb : ctx.Balanced) {name : String} (h : IsDotted name) :
    IsNull (fallbackExpr ctx.options name).text.toList ↔ IsNull ctx.options.fallback.toList := by
  rw [IsNull, toList_fallbackExpr _ h,
    bareIn_append (s := .code 0) trivial (hb.fallback 0) (meet_note _ name), (spans_note h 0).2,
    Text.trim_append_blank]
  rfl

theorem sound_fallbackExpr (hb : ctx.Balanced) (hf : Fits ctx) {name : String} (h : IsDotted name) :
    Sound (fallbackExpr ctx.options name) := by
  refine sound_simple ExprKind.noConfusion (fun d => ?_) ?_
  · show Spans _ (fallbackExpr ctx.options name).text.toList _
    rw [toList_fallbackExpr _ h]
    exact (spans_of_isBalanced hb.fallback hf.fallback d).append trivial (spans_note h d).1
      (meet_note _ name)
  · exact fun hnull => hf.notNull ((isNull_fallbackExpr hb h).1 hnull)

theorem sound_namedExpr (hb : ctx.Balanced) (hf : Fits ctx) {name : String} {e : Expr}
    (hname : AdmissibleNode ctx (.named name)) (h : namedExpr ctx name = .ok e) : Sound e := by
  unfold namedExpr at h
  split at h
  · cases h
  · cases hrule : ctx.localRule? name with
    | some expr =>
      rw [hrule] at h
      cases h
      exact sound_ofText (hb.answer (.inr hrule)) (hf.rules _ _ hname.1 (.inr hrule))
    | none =>
      rw [hrule] at h
      cases h
      refine sound_named hname.1 fun hnull => ?_
      have hsome := hname.2 hnull
      rw [hrule] at hsome
      cases hsome

theorem sound_unresolvedExpr (hb : ctx.Balanced) (hf : Fits ctx) {name : String} {e : Expr}
    (hname : IsDotted name) (h : unresolvedExpr ctx name = .ok e) : Sound e := by
  unfold unresolvedExpr at h
  split at h
  · cases h
  · cases hrule : ctx.options.overrides.get? name with
    | some expr =>
      rw [hrule] at h
      cases h
      exact sound_ofText (hb.answer (.inl hrule)) (hf.rules _ _ hname (.inl hrule))
    | none =>
      rw [hrule] at h
      cases h
      exact sound_fallbackExpr hb hf hname

/-! ## Composite expressions -/

theorem sound_mapExpr {key value : Expr} (hk : IsBalanced key.text.toList) (hv : Sound value) :
    Sound (mapExpr key value) := by
  have hkey : IsBalanced (if key.canIndex then key.text else "string").toList := by
    split
    · exact hk
    · exact fun _ => rfl
  have hvalue := hv.orElse_undefined.balanced
  refine sound_simple ExprKind.noConfusion (fun d => ?_) ?_
  · have hopen : Spans (.code d) "\x7b [key: ".toList (.code (d + 2)) := ⟨rfl, rfl⟩
    have hmid : Spans (.code (d + 2)) "]: ".toList (.code (d + 1)) := ⟨rfl, rfl⟩
    have hclose : Spans (.code (d + 1)) " \x7d".toList (.code d) := ⟨rfl, rfl⟩
    simp only [String.toList_append, List.append_assoc]
    refine hopen.append trivial ?_ fun hl => absurd hl (by decide)
    refine (hkey.spans (d + 1)).append trivial ?_ fun _ h => nomatch h
    refine hmid.append trivial ?_ fun hl => absurd hl (by decide)
    exact (hvalue.spans d).append trivial hclose fun _ h => nomatch h
  · simp only [String.toList_append, List.append_assoc]
    exact not_isNull_of_head (c := '\x7b') (by decide) (by decide) (by decide)

/-- The operand of a postfix operator is in one piece. -/
theorem Sound.spans_operand {e : Expr} (h : Sound e) (d : Nat) :
    Spans (.code d) e.operand.toList (.code d) := by
  unfold Expr.operand
  split
  · have hopen : Spans (.code d) "(".toList (.code (d + 1)) := ⟨rfl, rfl⟩
    have hclose : Spans (.code (d + 1)) ")".toList (.code d) := ⟨rfl, rfl⟩
    simp only [String.toList_append, List.append_assoc]
    refine hopen.append trivial ?_ fun hl => absurd hl (by decide)
    exact (h.balanced.spans d).append trivial hclose fun _ h => nomatch h
  · rename_i hk
    exact spans_of_isBalanced h.balanced (alternatives_eq fun hmany => hk (h.union.2 hmany)) d

theorem Sound.sequence {e : Expr} (h : Sound e) : Sound (.simple (e.operand ++ "[]") .other) := by
  have hmeet : Meet e.operand.toList "[]".toList := fun _ h => nomatch h
  refine sound_simple ExprKind.noConfusion (fun d => ?_) ?_
  · rw [String.toList_append]
    exact (h.spans_operand d).append trivial ⟨rfl, rfl⟩ hmeet
  · rw [String.toList_append]
    refine not_isNull_of_mem (c := ']') ?_ (by decide) (by decide)
    rw [bareIn_append (s := .code 0) trivial (h.spans_operand 0).after hmeet]
    exact List.mem_append_right _ (by decide)

theorem Sound.pointer {e : Expr} (h : Sound e) :
    Sound (pointerExpr e) ∧ nulls (pointerExpr e).text = max 1 (nulls e.text) := by
  unfold pointerExpr
  split
  · rename_i hnull
    have hpos := nulls_pos.2 (h.nullable.1 hnull)
    exact ⟨h, by omega⟩
  · rename_i hnull
    have hzero : ¬0 < nulls e.text := fun hpos => hnull (h.nullable.2 (nulls_pos.1 hpos))
    obtain ⟨hsound, hnulls⟩ := h.orElse_null
    exact ⟨hsound, by omega⟩

/-! ## Records -/

theorem Meet.of_plain {t u : List Char} (h : t.all isPlain) : Meet t u :=
  fun hl => absurd (List.all_eq_true.1 h _ (List.mem_of_getLast? hl)) (by decide)

theorem isBalanced_plain {t : List Char} (h : t.all isPlain) : IsBalanced t :=
  .of_spans (spans_plain h)

theorem isPlain_indentation {depth width : Nat} :
    (Comment.indentation depth width).toList.all isPlain := by
  rw [Comment.indentation, Text.spaces, String.toList_ofList, List.all_eq_true]
  intro c hc
  rw [List.eq_of_mem_replicate hc]
  decide

/-- What is asked of a property: a name as properties have it, a balanced type, and no comments. -/
structure Property.Clean (p : Property) : Prop where
  name : ∃ n, p.name = propertyName n
  type : IsBalanced p.type.text.toList
  doc : p.doc = none
  comment : p.comment = none

theorem isBalanced_render_append {options : Options} {depth : Nat} {p : Property} (h : p.Clean)
    {u : List Char} (hu : IsBalanced u) :
    IsBalanced ((p.render options depth).toList ++ u) := by
  obtain ⟨n, hn⟩ := h.name
  have hreadonly : (if p.readonly then "readonly " else "").toList.all isPlain := by
    split <;> rfl
  have hoptional : (if p.optional then "?" else "").toList.all isPlain := by
    split <;> rfl
  have hname : IsBalanced (propertyName n).toList := .of_spans (spans_propertyName n)
  have hcolon : (": " : String).toList.all isPlain := rfl
  have hend : (";" : String).toList.all isPlain := rfl
  have hline : ("\n" : String).toList.all isPlain := rfl
  simp only [Property.render, h.doc, h.comment, hn, Comment.docBlock?, Comment.inline?,
    String.empty_append, String.append_empty, String.toList_append, List.append_assoc]
  refine (isBalanced_plain isPlain_indentation).append ?_ (.of_plain isPlain_indentation)
  refine (isBalanced_plain hreadonly).append ?_ (.of_plain hreadonly)
  refine hname.append ?_ fun _ => by split <;> exact fun h => nomatch h
  refine (isBalanced_plain hoptional).append ?_ (.of_plain hoptional)
  refine (isBalanced_plain hcolon).append ?_ (.of_plain hcolon)
  refine h.type.append ?_ fun _ h => nomatch h
  refine (isBalanced_plain hend).append ?_ (.of_plain hend)
  exact (isBalanced_plain hline).append hu (.of_plain hline)

theorem isBalanced_renderProperties_append {options : Options} {depth : Nat} {ps : List Property}
    (h : ∀ p ∈ ps, p.Clean) {u : List Char} (hu : IsBalanced u) :
    IsBalanced ((renderProperties options depth ps).toList ++ u) := by
  induction ps with
  | nil =>
    rw [renderProperties, List.map_nil, String.join_nil]
    exact hu
  | cons p ps ih =>
    obtain ⟨hp, hps⟩ := List.forall_mem_cons.1 h
    rw [renderProperties, List.map_cons, String.join_cons, String.toList_append,
      List.append_assoc]
    exact isBalanced_render_append hp (ih hps)

theorem sound_recordExpr {options : Options} {depth : Nat} {ps : List Property}
    (h : ∀ p ∈ ps, p.Clean) : Sound (recordExpr options depth ps) := by
  have hinner : IsBalanced ((renderProperties options (depth + 1) ps).toList ++
      (Comment.indentation depth options.indent).toList) :=
    isBalanced_renderProperties_append h (isBalanced_plain isPlain_indentation)
  refine sound_simple ExprKind.noConfusion (fun d => ?_) ?_
  · have hopen : Spans (.code d) "\x7b\n".toList (.code (d + 1)) := ⟨rfl, rfl⟩
    have hclose : Spans (.code (d + 1)) "\x7d".toList (.code d) := ⟨rfl, rfl⟩
    simp only [String.toList_append, List.append_assoc]
    refine hopen.append trivial ?_ fun hl => absurd hl (by decide)
    rw [← List.append_assoc]
    exact (hinner.spans d).append trivial hclose fun _ h => nomatch h
  · simp only [String.toList_append, List.append_assoc]
    exact not_isNull_of_head (c := '\x7b') (by decide) (by decide) (by decide)

/-! ## Shapes -/

/-- The property of a member has its comments, and the type that it asks for or that of its
shape. -/
theorem toProperty?_eq_ok {m : Member Shape} {depth : Nat} {p : Property}
    (h : toProperty? ctx m depth = .ok (some p)) :
    (∃ n, p.name = propertyName n) ∧ p.doc = m.doc ∧ p.comment = m.comment ∧
      ((∃ expr, m.override = some expr ∧ p.type = .ofText expr) ∨
        toExpr ctx m.type depth = .ok p.type) := by
  obtain ⟨-, type, htype, rfl⟩ := toProperty?_eq_some_iff.1 h
  refine ⟨⟨_, rfl⟩, rfl, rfl, ?_⟩
  unfold memberType at htype
  split at htype
  · rename_i expr hexpr
    cases htype
    exact .inl ⟨expr, hexpr, rfl⟩
  · exact .inr htype

/-- Under options that fit, the flags of every mapped shape describe its text. -/
theorem sound_toExpr (hb : ctx.Balanced) (hf : Fits ctx) {s : Shape} (hs : Admissible ctx s)
    {depth : Nat} {e : Expr} (h : toExpr ctx s depth = .ok e) : Sound e := by
  -- `Sound` carries the balance of the text along: without it the text of an inner expression could
  -- be cut in two by what an outer one adds
  induction s generalizing depth e with
  | primitive p =>
    rw [toExpr] at h
    cases h
    exact sound_primitiveExpr hb hf p
  | named name =>
    rw [toExpr] at h
    exact sound_namedExpr hb hf (hs _ (Shape.self_mem_nodes _)) h
  | unresolved name =>
    rw [toExpr] at h
    exact sound_unresolvedExpr hb hf (hs _ (Shape.self_mem_nodes _)) h
  | map key value ihk ihv =>
    have hsub := (List.forall_mem_cons.1 hs).2
    rw [toExpr] at h
    obtain ⟨k, hk, h⟩ := bind_eq_ok.1 h
    obtain ⟨v, hv, h⟩ := bind_eq_ok.1 h
    cases h
    exact sound_mapExpr (ihk (fun n hn => hsub n (List.mem_append_left _ hn)) hk).balanced
      (ihv (fun n hn => hsub n (List.mem_append_right _ hn)) hv)
  | sequence elem ih =>
    rw [toExpr] at h
    split at h
    · cases h
      exact sound_simple ExprKind.noConfusion (fun _ => ⟨rfl, rfl⟩) (by decide)
    · obtain ⟨e, he, h⟩ := bind_eq_ok.1 h
      cases h
      exact (ih (List.forall_mem_cons.1 hs).2 he).sequence
  | pointer inner ih =>
    rw [toExpr] at h
    obtain ⟨e, he, h⟩ := bind_eq_ok.1 h
    cases h
    exact (ih (List.forall_mem_cons.1 hs).2 he).pointer.1
  | optional inner ih =>
    rw [toExpr] at h
    obtain ⟨e, he, h⟩ := bind_eq_ok.1 h
    cases h
    exact (ih (List.forall_mem_cons.1 hs).2 he).orElse_undefined
  | record members ih =>
    rw [toExpr] at h
    obtain ⟨ps, hps, h⟩ := bind_eq_ok.1 h
    cases h
    refine sound_recordExpr fun p hp => ?_
    obtain ⟨m, hm, hp⟩ := exists_member_of_mem hps hp
    obtain ⟨hname, hdoc, hcomment, htype⟩ := toProperty?_eq_ok hp
    obtain ⟨hmdoc, hmcomment, hoverride⟩ := hs _ (Shape.self_mem_nodes _) m hm
    refine ⟨hname, ?_, hdoc.trans hmdoc, hcomment.trans hmcomment⟩
    rcases htype with ⟨expr, hexpr, htype⟩ | htype
    · rw [htype]
      exact hoverride expr hexpr
    · exact (ih m hm (hs.member hm) htype).balanced

/-! ## The options that fit -/

theorem toExpr_unresolved_rule {name expr : String} (hne : name ≠ "")
    (h : ctx.options.overrides.get? name = some expr) (depth : Nat) :
    toExpr ctx (.unresolved name) depth = .ok (.ofText expr) := by
  have hempty : name.isEmpty = false := by simpa using hne
  rw [toExpr, unresolvedExpr, hempty, h]
  rfl

theorem toExpr_unresolved_fallback {name : String} (hne : name ≠ "")
    (h : ctx.options.overrides.get? name = none) (depth : Nat) :
    toExpr ctx (.unresolved name) depth = .ok (fallbackExpr ctx.options name) := by
  have hempty : name.isEmpty = false := by simpa using hne
  rw [toExpr, unresolvedExpr, hempty, h]
  rfl

theorem toExpr_named_rule {name expr : String} (hne : name ≠ "")
    (h : ctx.localRule? name = some expr) (depth : Nat) :
    toExpr ctx (.named name) depth = .ok (.ofText expr) := by
  have hempty : name.isEmpty = false := by simpa using hne
  rw [toExpr, namedExpr, hempty, h]
  rfl

/-- There are names without a rule. -/
theorem exists_unruled (ctx : Context) :
    ∃ name, IsDotted name ∧ ctx.options.overrides.get? name = none := by
  obtain ⟨name, hname, hfresh⟩ := exists_fresh (ctx.options.overrides.rules.map Prod.fst)
  refine ⟨name, hname, List.lookup_eq_none_iff.2 fun rule hrule => ?_⟩
  rw [bne_iff_ne]
  rintro rfl
  exact hfresh (List.mem_map_of_mem hrule)

/-- If the flags of all references are right, the options fit. -/
theorem fits_of_describes (hb : ctx.Balanced)
    (h : ∀ s, Admissible ctx s → ∀ depth e, toExpr ctx s depth = .ok e → Describes e) :
    Fits ctx := by
  -- a name without a rule gets the fallback, whose flags are then right
  obtain ⟨name, hname, hnone⟩ := exists_unruled ctx
  have hd : Describes (fallbackExpr ctx.options name) :=
    h (.unresolved name) (admissible_leaf rfl hname) 0 _
      (toExpr_unresolved_fallback hname.ne_empty hnone 0)
  have hone : ¬1 < (alternatives (fallbackExpr ctx.options name).text).length :=
    fun hmany => nomatch hd.union.2 hmany
  refine ⟨?_, ?_, ?_⟩
  · rw [alternatives_fallbackExpr hb hname] at hone
    exact alternatives_eq hone
  · intro hnull
    have hflag : (fallbackExpr ctx.options name).nullable := by
      refine hd.nullable.2 ⟨_, ?_, (isNull_fallbackExpr hb hname).2 hnull⟩
      rw [alternatives_eq hone]
      exact List.mem_singleton_self _
    cases hflag
  · rintro name expr hname (hrule | hrule)
    · rw [← describes_ofText_iff]
      exact h (.unresolved name) (admissible_leaf rfl hname) 0 _
        (toExpr_unresolved_rule hname.ne_empty hrule 0)
    · rw [← describes_ofText_iff]
      refine h (.named name) (admissible_leaf rfl ⟨hname, fun _ => ?_⟩) 0 _
        (toExpr_named_rule hname.ne_empty hrule 0)
      rw [hrule]
      rfl

/-- The flags of the expression of a shape describe its text. In a sequence it is in parentheses
exactly if it is a union, and a pointer to it has one `null` more only if it has none. -/
structure Faithful (ctx : Context) (s : Shape) (depth : Nat) (e : Expr) : Prop
    extends Describes e where
  sequence : s.isByte = false → toExpr ctx (.sequence s) depth = .ok (.simple
    ((if 1 < (alternatives e.text).length then "(" ++ e.text ++ ")" else e.text) ++ "[]") .other)
  pointer : ∃ e', toExpr ctx (.pointer s) depth = .ok e' ∧
    nulls e'.text = max 1 (nulls e.text)

theorem faithful_of_sound {s : Shape} {depth : Nat} {e : Expr}
    (he : toExpr ctx s depth = .ok e) (h : Sound e) : Faithful ctx s depth e := by
  refine ⟨h.toDescribes, fun hbyte => ?_, pointerExpr e, ?_, h.pointer.2⟩
  · rw [toExpr, hbyte, he, ← if_congr h.union rfl rfl]
    rfl
  · rw [toExpr, he]
    rfl

/-- With balanced user text, the flags of mapped shapes describe their texts exactly when the
options fit: the fallback is a single alternative other than `null`, and rules spell their `null`
without comments. A reference to a type of the name `null` is wrong unless a rule answers it. -/
theorem describes_iff_fits (hb : ctx.Balanced) :
    ((∀ s, Admissible ctx s → ∀ depth e, toExpr ctx s depth = .ok e → Faithful ctx s depth e) ↔
      Fits ctx) ∧
    (ctx.localRule? "null" = none →
      ∀ depth, ∃ e, toExpr ctx (.named "null") depth = .ok e ∧ ¬Describes e) := by
  refine ⟨⟨fun h => ?_, fun hf s hs depth e he => ?_⟩, fun hnone depth => ?_⟩
  · exact fits_of_describes hb fun s hs depth e he => (h s hs depth e he).toDescribes
  · exact faithful_of_sound he (sound_toExpr hb hf hs he)
  · refine ⟨.simple "null" .named, ?_, fun hd => ?_⟩
    · rw [toExpr, namedExpr, hnone]
      rfl
    · have hflag := hd.nullable.2 ⟨"null".toList, List.mem_singleton_self _, by decide⟩
      cases hflag

/-- Options without rules, and with a fallback. -/
def fallbackContext (fallback : String) : Context :=
  { options := { fallback }, package := "p", decl := "D" }

theorem fallbackContext_faithful :
    ∃ e, toExpr (fallbackContext "unknown") (.unresolved "time.Time") 0 = .ok e ∧
      Faithful (fallbackContext "unknown") (.unresolved "time.Time") 0 e := by
  have hb : (fallbackContext "unknown").Balanced := ⟨fun _ => rfl, fun _ _ h => nomatch h⟩
  have hf : Fits (fallbackContext "unknown") := by
    refine ⟨rfl, by decide, fun name expr _ h => ?_⟩
    rcases h with h | h
    · cases h
    · cases h
  have hs : Admissible (fallbackContext "unknown") (.unresolved "time.Time") :=
    admissible_leaf rfl (by unfold AdmissibleNode IsDotted; decide +kernel)
  exact ⟨_, rfl, (describes_iff_fits hb).1.2 hf _ hs 0 _ rfl⟩

/-- A fallback with a `null` is not seen as a union once it is annotated. -/
theorem fallbackContext_misses_null :
    (fallbackContext "string | null").options.validate = .ok ⟨⟩ ∧
      (fallbackContext "string | null").Balanced ∧
      ∃ e, toExpr (fallbackContext "string | null") (.unresolved "time.Time") 0 = .ok e ∧
        e.kind ≠ .union ∧ 1 < (alternatives e.text).length ∧
        e.nullable = false ∧ ∃ p ∈ alternatives e.text, IsNull p := by
  refine ⟨(exists_of_isOk (by decide +kernel)).choose_spec, ⟨fun _ => rfl, fun _ _ h => nomatch h⟩,
    fallbackExpr (fallbackContext "string | null").options "time.Time", rfl,
    ExprKind.noConfusion, ?_, rfl, ?_⟩
  · decide +kernel
  · decide +kernel

end WireTypes.Code
