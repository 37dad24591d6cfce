import Mathlib.Data.List.Basic
import WireTypes.FileTree

/-!
# What writing does to a tree

* `content?_put`: a file that is put changes the content at its own place only.
* `saved_of_save`: a saved file is where its path leads afterwards; no other file has changed, and
  directories are only added (`Grows`), so that paths lead where they led (`Grows.place?`).
* `steps_eq_of_descends`: paths that only go down lead to one place only by the same steps, since
  a tree has no links.
-/

set_option autoImplicit false

namespace WireTypes.FileTree

variable {t t' t'' : FileTree} {p q : Path} {place : Place} {content : String}

/-! ## Contents -/

theorem lookup_map_replace (files : List (Place × String)) (place other : Place)
    (content : String) :
    (files.map fun f => if f.1 = place then (place, content) else f).lookup other =
      if other = place then (files.lookup other).map fun _ => content else files.lookup other := by
  induction files with
  | nil => simp
  | cons f rest ih =>
    rw [List.map_cons, List.lookup_cons, List.lookup_cons, ih]
    by_cases hf : f.1 = place
    · rw [if_pos hf]
      by_cases hother : other = place
      · simp [hother, hf]
      · have hne : (other == f.1) = false := by simpa [hf] using hother
        have hne' : (other == place) = false := by simpa using hother
        simp only [hne, hne']
    · rw [if_neg hf]
      by_cases hother : other = place
      · have hne : (other == f.1) = false := by
          rw [hother]
          exact beq_false_of_ne (Ne.symm hf)
        simp only [hne]
      · simp [hother]

theorem content?_put (t : FileTree) (place : Place) (content : String) (other : Place) :
    (t.put place content).content? other =
      if other = place then some content else t.content? other := by
  unfold put
  split
  · rename_i hsome
    obtain ⟨old, hold⟩ := Option.isSome_iff_exists.1 hsome
    rw [content?] at hold
    simp only [content?, lookup_map_replace]
    by_cases hother : other = place
    · rw [if_pos hother, if_pos hother, hother, hold]
      rfl
    · rw [if_neg hother, if_neg hother]
  · rename_i hnone
    rw [Option.not_isSome_iff_eq_none, content?] at hnone
    simp only [content?, List.lookup_append]
    by_cases hother : other = place
    · rw [if_pos hother, hother, hnone]
      simp
    · have hne : (other == place) = false := by simpa using hother
      simp [List.lookup_cons, hne, hother]

/-! ## Growth -/

/-- The tree `t'` starts paths where `t` does, and has its directories. -/
structure Grows (t t' : FileTree) : Prop where
  start : t'.start = t.start
  dirs : t.dirs ⊆ t'.dirs

theorem Grows.refl (t : FileTree) : t.Grows t := ⟨rfl, List.Subset.refl _⟩

theorem Grows.trans (h : t.Grows t') (h' : t'.Grows t'') : t.Grows t'' :=
  ⟨h'.start.trans h.start, List.Subset.trans h.dirs h'.dirs⟩

theorem grows_put (t : FileTree) (place : Place) (content : String) :
    t.Grows (t.put place content) := by
  unfold put
  split
  · exact ⟨rfl, List.Subset.refl _⟩
  · exact ⟨rfl, List.Subset.refl _⟩

theorem Grows.hasDir (h : t.Grows t') (hd : t.hasDir place) : t'.hasDir place := by
  simp only [FileTree.hasDir, Bool.or_eq_true, List.contains_iff_mem] at hd ⊢
  exact hd.imp_right fun hm => h.dirs hm

theorem Grows.follow (h : t.Grows t') {s : Path.Step} {base : Place}
    (hf : t.follow base s = some place) : t'.follow base s = some place := by
  cases s with
  | root => exact hf
  | here =>
    simp only [FileTree.follow, Option.ite_none_right_eq_some] at hf ⊢
    exact ⟨h.hasDir hf.1, hf.2⟩
  | up =>
    simp only [FileTree.follow, Option.ite_none_right_eq_some] at hf ⊢
    exact ⟨h.hasDir hf.1, hf.2⟩
  | name s =>
    simp only [FileTree.follow, Option.ite_none_right_eq_some] at hf ⊢
    exact ⟨h.hasDir hf.1, hf.2⟩

theorem Grows.followAll (h : t.Grows t') {steps : List Path.Step} {base : Place}
    (hf : steps.foldlM t.follow base = some place) : steps.foldlM t'.follow base = some place := by
  induction steps generalizing base with
  | nil => exact hf
  | cons s rest ih =>
    rw [List.foldlM_cons] at hf ⊢
    obtain ⟨next, hnext, hf⟩ := Option.bind_eq_some_iff.1 hf
    exact Option.bind_eq_some_iff.2 ⟨next, h.follow hnext, ih hf⟩

/-- A path that leads somewhere leads there also when directories are added. -/
theorem Grows.place? (h : t.Grows t') (hp : t.place? p = some place) :
    t'.place? p = some place := by
  unfold FileTree.place? at hp ⊢
  split at hp
  · cases hp
  · rename_i hne
    rw [if_neg hne, h.start]
    exact h.followAll hp

/-! ## Saving -/

theorem makeDirs_grows (steps : List Path.Step) (t : FileTree) (place : Place) :
    t.Grows (t.makeDirs place steps).tree ∧ (t.makeDirs place steps).tree.files = t.files := by
  induction steps generalizing t place with
  | nil => exact ⟨.refl t, rfl⟩
  | cons s rest ih =>
    cases s with
    | root => exact ih t []
    | here => exact ih t place
    | up => exact ih t place.dropLast
    | name s =>
      rw [makeDirs]
      split
      · exact ih t _
      · split
        · exact ⟨.refl t, rfl⟩
        · obtain ⟨hgrows, hfiles⟩ := ih { t with dirs := t.dirs ++ [place ++ [s]] } (place ++ [s])
          have hadded : t.Grows { t with dirs := t.dirs ++ [place ++ [s]] } :=
            ⟨rfl, List.subset_append_left _ _⟩
          exact ⟨hadded.trans hgrows, hfiles⟩

theorem write_done (h : (t.write p content).done) :
    ∃ place, t.place? p = some place ∧ p.namesDirectory = false ∧
      (t.write p content).tree = t.put place content := by
  unfold write at h ⊢
  cases hp : t.place? p with
  | none =>
    rw [hp] at h
    cases h
  | some place =>
    simp only [hp] at h ⊢
    split at h
    · cases h
    · rename_i hfree
      simp only [Bool.or_eq_true, not_or, Bool.not_eq_true] at hfree
      refine ⟨place, rfl, hfree.1, ?_⟩
      rw [hfree.1, hfree.2]
      rfl

/-- `t'` is `t` with a file where `p` leads. -/
structure Saved (t t' : FileTree) (p : Path) (content : String) : Prop where
  grows : t.Grows t'
  notDir : p.namesDirectory = false
  content? : ∃ place, t'.place? p = some place ∧
    ∀ other, t'.content? other = if other = place then some content else t.content? other

theorem saved_of_write {made : FileTree} (hgrows : t.Grows made) (hfiles : made.files = t.files)
    (h : (made.write p content).done) : t.Saved (made.write p content).tree p content := by
  obtain ⟨place, hplace, hname, htree⟩ := write_done h
  rw [htree]
  refine ⟨hgrows.trans (grows_put _ _ _), hname, place, (grows_put _ _ _).place? hplace, ?_⟩
  intro other
  rw [content?_put, FileTree.content?, FileTree.content?, hfiles]

/-- A file that is saved is where its path leads, and no other file has changed. -/
theorem saved_of_save (h : t.save p content = (t', none)) : t.Saved t' p content := by
  unfold save at h
  cases habove : p.parent?.filter fun q => !q.text.isEmpty with
  | none =>
    simp only [habove, if_true, Prod.mk.injEq, ite_eq_left_iff, reduceCtorEq, imp_false,
      Bool.not_eq_true, Bool.not_eq_false] at h
    rw [← h.1]
    exact saved_of_write (.refl t) rfl h.2
  | some q =>
    simp only [habove] at h
    split at h
    · simp only [Prod.mk.injEq, ite_eq_left_iff, reduceCtorEq, imp_false, Bool.not_eq_true,
        Bool.not_eq_false] at h
      obtain ⟨hgrows, hfiles⟩ := makeDirs_grows q.steps t t.start
      rw [← h.1]
      exact saved_of_write hgrows hfiles h.2
    · cases congrArg Prod.snd h

end WireTypes.FileTree

namespace WireTypes

/-! ## Paths that only go down -/

/-- All steps of a path are names. -/
def Path.Descends (p : Path) : Prop := ∀ s ∈ p.steps, ∃ name, s = .name name

instance (s : Path.Step) : Decidable (∃ name, s = .name name) :=
  match s with
  | .name name => isTrue ⟨name, rfl⟩
  | .root | .here | .up => isFalse fun ⟨_, h⟩ => nomatch h

instance (p : Path) : Decidable p.Descends :=
  inferInstanceAs (Decidable (∀ s ∈ p.steps, ∃ name, s = .name name))

namespace FileTree

variable {t : FileTree} {p q : Path} {place : Place}

theorem map_name_of_followAll {steps : List Path.Step} (hs : ∀ s ∈ steps, ∃ name, s = .name name)
    {base : Place} (h : steps.foldlM t.follow base = some place) :
    place.map Path.Step.name = base.map .name ++ steps := by
  induction steps generalizing base with
  | nil =>
    cases h
    rw [List.append_nil]
  | cons s rest ih =>
    rw [List.foldlM_cons] at h
    obtain ⟨next, hnext, h⟩ := Option.bind_eq_some_iff.1 h
    obtain ⟨name, rfl⟩ := hs s List.mem_cons_self
    simp only [follow, Option.ite_none_right_eq_some] at hnext
    cases hnext.2
    rw [ih (fun s hs' => hs s (List.mem_cons_of_mem _ hs')) h]
    simp

theorem map_name_of_descends (hp : p.Descends) (h : t.place? p = some place) :
    place.map Path.Step.name = t.start.map .name ++ p.steps := by
  unfold place? at h
  split at h
  · cases h
  · exact map_name_of_followAll hp h

theorem steps_eq_of_descends (hp : p.Descends) (hq : q.Descends) (h : t.place? p = some place)
    (h' : t.place? q = some place) : p.steps = q.steps := by
  have heq := (map_name_of_descends hp h).symm.trans (map_name_of_descends hq h')
  exact List.append_cancel_left heq

end FileTree

end WireTypes
