import WireTypes.Package
import WireTypes.Shape

/-!
# Shapes all the way down

Induction over type expressions and over shapes, where the hypothesis for a struct or a record
speaks of the types of all its fields; and `Shape.nodes`, the shapes that a shape is made of.
-/

set_option autoImplicit false

namespace WireTypes

/-! ## Induction -/

@[elab_as_elim, induction_eliminator]
theorem Package.TypeExpr.induct {motive : TypeExpr → Prop}
    (basic : ∀ name, motive (.basic name))
    (named : ∀ package name, motive (.named package name))
    (pointer : ∀ elem, motive elem → motive (.pointer elem))
    (slice : ∀ elem, motive elem → motive (.slice elem))
    (array : ∀ elem length, motive elem → motive (.array elem length))
    (map : ∀ key value, motive key → motive value → motive (.map key value))
    (struct : ∀ fields, (∀ f ∈ fields, motive f.type) → motive (.struct fields))
    (interface : ∀ methods embeds, motive (.interface methods embeds))
    (func : motive .func)
    (chan : ∀ elem, motive elem → motive (.chan elem)) (e : TypeExpr) : motive e :=
  @TypeExpr.rec motive (fun fields => ∀ f ∈ fields, motive f.type) (fun _ => True)
    (fun f => motive f.type) basic named pointer slice array map struct
    (fun methods embeds _ => interface methods embeds) func chan
    (fun _ h => nomatch h) (fun _ _ hf hs => List.forall_mem_cons.2 ⟨hf, hs⟩) trivial
    (fun _ _ _ _ => trivial) (fun _ _ _ _ _ h => h) e

@[elab_as_elim, induction_eliminator]
theorem Shape.induct {motive : Shape → Prop}
    (primitive : ∀ p, motive (.primitive p))
    (named : ∀ name, motive (.named name))
    (unresolved : ∀ name, motive (.unresolved name))
    (record : ∀ members, (∀ m ∈ members, motive m.type) → motive (.record members))
    (map : ∀ key value, motive key → motive value → motive (.map key value))
    (sequence : ∀ elem, motive elem → motive (.sequence elem))
    (optional : ∀ inner, motive inner → motive (.optional inner))
    (pointer : ∀ inner, motive inner → motive (.pointer inner)) (s : Shape) : motive s :=
  @Shape.rec motive (fun members => ∀ m ∈ members, motive m.type) (fun m => motive m.type)
    primitive named unresolved record map sequence optional pointer
    (fun _ h => nomatch h) (fun _ _ hm hs => List.forall_mem_cons.2 ⟨hm, hs⟩)
    (fun _ _ _ _ _ _ _ _ _ h => h) s

/-! ## Nodes -/

mutual

/-- A shape and all shapes inside it, those of skipped members included. -/
def Shape.nodes : Shape → List Shape
  | .record members => .record members :: Shape.nodesOfMembers members
  | .map key value => .map key value :: (key.nodes ++ value.nodes)
  | .sequence elem => .sequence elem :: elem.nodes
  | .optional inner => .optional inner :: inner.nodes
  | .pointer inner => .pointer inner :: inner.nodes
  | s => [s]
termination_by structural s => s

/-- The nodes of the types of members, in order. -/
def Shape.nodesOfMembers : List (Member Shape) → List Shape
  | [] => []
  | m :: rest => Shape.nodesOfMember m ++ Shape.nodesOfMembers rest
termination_by structural members => members

/-- The nodes of the type of a member. -/
def Shape.nodesOfMember : Member Shape → List Shape
  | ⟨type, _, _, _, _, _, _, _, _⟩ => type.nodes
termination_by structural m => m

end

namespace Shape

theorem nodesOfMembers_eq (members : List (Member Shape)) :
    nodesOfMembers members = members.flatMap fun m => m.type.nodes := by
  induction members with
  | nil => rfl
  | cons m rest ih => rw [nodesOfMembers, nodesOfMember.eq_def, ih, List.flatMap_cons]

theorem nodes_record (members : List (Member Shape)) :
    (Shape.record members).nodes =
      .record members :: members.flatMap fun m => m.type.nodes := by
  rw [nodes, nodesOfMembers_eq]

/-- The nodes of a member are nodes of its record. -/
theorem nodes_subset_of_mem {members : List (Member Shape)} {m : Member Shape} (hm : m ∈ members) :
    m.type.nodes ⊆ (Shape.record members).nodes := by
  intro n hn
  rw [nodes_record]
  exact List.mem_cons_of_mem _ (List.mem_flatMap.2 ⟨m, hm, hn⟩)

theorem self_mem_nodes (s : Shape) : s ∈ s.nodes := by
  cases s <;> simp [nodes]

end Shape

end WireTypes
