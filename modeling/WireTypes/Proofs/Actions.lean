import WireTypes.Action
import WireTypes.Proofs.InPlace
import WireTypes.Proofs.Outputs

/-!
# Commands that fail before they write

`Looks x f`: the steps `x` change nothing and come to what `f` makes of the files. Looking is kept
by sequences and traversals, and every step of a command before the last one only looks; so a
command `Follows` its plan.

* `perform_eq_run`: step by step, a command line does what its plan says.
* `exists_planGenerate_iff`: when there is a plan for a settings file.
* `perform_untouched`: a command that fails for any reason but writing has done nothing.
-/

set_option autoImplicit false

namespace WireTypes.Command

open CommandLine (Invocation RenderRequest)
open InPlace (runAt runAt_lift runAt_get runAt_modify runAt_bind)

namespace Action

variable {α β : Type} {w : World}

/-! ## Looking -/

/-- The steps change nothing, and come to what `f` works out from the files. -/
def Looks (x : Action α) (f : Files → Except CommandError α) : Prop :=
  ∀ w, runAt w x = (w, f w.tree.view)

theorem looks_look (f : Files → Except CommandError α) : Looks (look f) f := by
  intro w
  rw [look, runAt_bind, runAt_get]
  exact runAt_lift w _

theorem looks_lift (x : Except CommandError α) : Looks (liftM x) fun _ => x :=
  fun w => runAt_lift w x

theorem looks_pure (a : α) : Looks (pure a) fun _ => pure a := fun _ => rfl

/-- Steps after some that only look. -/
theorem runAt_bind_of_looks {x : Action α} {f : Files → Except CommandError α} (hx : Looks x f)
    (g : α → Action β) :
    runAt w (x >>= g) =
      match f w.tree.view with
      | .ok a => runAt w (g a)
      | .error e => (w, .error e) := by
  rw [runAt_bind, hx w]
  cases f w.tree.view with
  | ok a => rfl
  | error e => rfl

theorem Looks.bind {x : Action α} {f : Files → Except CommandError α} {g : α → Action β}
    {k : α → Files → Except CommandError β} (hx : Looks x f) (hg : ∀ a, Looks (g a) (k a)) :
    Looks (x >>= g) fun files => f files >>= fun a => k a files := by
  intro w
  rw [runAt_bind_of_looks hx]
  show _ = (w, f w.tree.view >>= fun a => k a w.tree.view)
  cases f w.tree.view with
  | ok a => exact hg a w
  | error e => rfl

theorem Looks.mapM {g : α → Action β} {k : α → Files → Except CommandError β}
    (hg : ∀ a, Looks (g a) (k a)) (xs : List α) :
    Looks (xs.mapM g) fun files => xs.mapM fun a => k a files := by
  induction xs with
  | nil => exact looks_pure []
  | cons a xs ih =>
    simp only [List.mapM_cons]
    exact (hg a).bind fun b => ih.bind fun bs => looks_pure (b :: bs)

theorem Looks.foldlM {g : β → α → Action β} {k : β → α → Files → Except CommandError β}
    (hg : ∀ b a, Looks (g b a) (k b a)) (xs : List α) (b : β) :
    Looks (xs.foldlM g b) fun files => xs.foldlM (fun b a => k b a files) b := by
  induction xs generalizing b with
  | nil => exact looks_pure b
  | cons a xs ih =>
    simp only [List.foldlM_cons]
    exact (hg b a).bind fun b => ih b

/-! ## Delivering -/

/-- The world after the files of a plan are saved and its text is printed. -/
def delivered (w : World) (plan : Plan) : World × Except CommandError PUnit :=
  let (tree, unwritten) := saveAll w.tree plan.files
  (⟨tree, w.stdout ++ plan.stdout⟩,
    match unwritten with
    | none => .ok ⟨⟩
    | some p => .error (plan.fault p))

theorem runAt_save (fault : Path → CommandError) (path : Path) (text : String) :
    runAt w (save fault path text) =
      match w.tree.save path text with
      | (tree, none) => ({ w with tree }, .ok ⟨⟩)
      | (tree, some p) => ({ w with tree }, .error (fault p)) := by
  rw [save, runAt_bind, runAt_get]
  dsimp only
  rcases w.tree.save path text with ⟨tree, _ | p⟩
  · rfl
  · rfl

/-- The steps work out a plan and deliver it. -/
def Follows (x : Action PUnit) (f : Files → Except CommandError Plan) : Prop :=
  ∀ w, runAt w x =
    match f w.tree.view with
    | .ok plan => delivered w plan
    | .error e => (w, .error e)

theorem Looks.follows {x : Action α} {f : Files → Except CommandError α} {g : α → Action PUnit}
    {k : α → Files → Except CommandError Plan} (hx : Looks x f) (hg : ∀ a, Follows (g a) (k a)) :
    Follows (x >>= g) fun files => f files >>= fun a => k a files := by
  intro w
  rw [runAt_bind_of_looks hx]
  dsimp only
  cases f w.tree.view with
  | ok a => exact hg a w
  | error e => rfl

theorem follows_print (text : String) : Follows (print text) fun _ => pure (.print text) :=
  fun w => runAt_modify w _

theorem follows_save (path : Path) (text : String) :
    Follows (save (fun p => .failed (.inaccessible p)) path text) fun _ =>
      pure (.save path text) := by
  intro w
  have hstdout : w.stdout ++ (Plan.save path text).stdout = w.stdout := String.append_empty
  rw [runAt_save]
  show _ = delivered w (.save path text)
  simp only [delivered, Plan.files, saveAll, hstdout]
  rcases w.tree.save path text with ⟨tree, _ | p⟩
  · rfl
  · rfl

theorem follows_saveAll (outputs : List (Path × String)) :
    Follows (forM outputs fun (path, text) => save .unwritable path text) fun _ =>
      pure (.saveAll outputs) := by
  have hstdout (s : String) (outputs : List (Path × String)) :
      s ++ (Plan.saveAll outputs).stdout = s := String.append_empty
  intro w
  show _ = delivered w (.saveAll outputs)
  -- each output is saved in the tree that those before it leave
  induction outputs generalizing w with
  | nil =>
    simp only [delivered, Plan.files, saveAll, hstdout]
    rfl
  | cons o rest ih =>
    rw [List.forM_cons, runAt_bind, runAt_save]
    simp only [delivered, Plan.files, saveAll, hstdout] at ih ⊢
    rcases w.tree.save o.1 o.2 with ⟨tree, _ | p⟩
    · exact ih _
    · rfl

/-! ## Commands -/

theorem follows_generate (settings : Path) :
    Follows (generate settings) (planGenerate · settings) := by
  refine (looks_look _).follows fun entries => (looks_lift _).follows fun options => ?_
  -- the plan goes on inside the match on collisions, so this one step is taken in a world
  intro w
  rw [runAt_bind_of_looks (looks_look _)]
  dsimp only
  cases collision? w.tree.view [] entries with
  | some c => rfl
  | none =>
    have houtputs := Looks.mapM (fun p : Entry × Options => looks_look (renderEntry · p.1 p.2))
      (entries.zip options)
    exact houtputs.follows follows_saveAll w

theorem follows_render (args : RenderRequest) : Follows (render args) (planRender · args) := by
  refine (looks_lift _).follows fun options => (looks_lift _).follows fun target => ?_
  have hinputs := Looks.foldlM (fun (target : Target) p =>
    (looks_look (loadInput · p)).bind fun packages => looks_lift (addAll target packages))
    args.inputs target
  refine hinputs.follows fun target => (looks_lift _).follows fun code => ?_
  cases args.output with
  | some path => exact follows_save path code
  | none => exact follows_print code

theorem follows_ofArgs (args : List String) :
    Follows (ofArgs args) fun files =>
      match CommandLine.parse? args with
      | none => throw .usage
      | some invocation => plan files invocation := by
  unfold ofArgs
  rcases CommandLine.parse? args with _ | ⟨settings⟩ | ⟨request⟩
  · exact fun w => rfl
  · exact follows_generate settings
  · exact follows_render request

end Action

/-- Step by step, a command line does what its plan says. -/
theorem perform_eq_run (t : FileTree) (args : List String) : perform t args = run t args := by
  unfold perform run
  rw [Action.follows_ofArgs]
  dsimp only
  cases CommandLine.parse? args with
  | none => rfl
  | some invocation =>
    dsimp only
    cases plan t.view invocation with
    | error e => rfl
    | ok plan =>
      have hstdout : "" ++ plan.stdout = plan.stdout := String.empty_append
      simp only [Action.delivered, deliver, hstdout]
      rcases saveAll t plan.files with ⟨tree, _ | p⟩
      · rfl
      · rfl

/-! ## What can fail -/

/-- All there is to plan: the settings can be loaded, every entry has an output, and no two outputs
take the same steps. -/
def Complete (files : Files) (settings : Path) : Prop :=
  ∃ entries, loadSettings files settings = .ok entries ∧
    (∀ e ∈ entries, ∃ o, Delivers files e o) ∧ entries.Pairwise (Apart files)

variable {files : Files}

theorem exists_planGenerate_iff {settings : Path} :
    (∃ plan, planGenerate files settings = .ok plan) ↔ Complete files settings := by
  constructor
  · rintro ⟨plan, h⟩
    obtain ⟨entries, outputs, hentries, hdelivers, happart, -⟩ := planGenerate_eq_ok h
    refine ⟨entries, hentries, fun e he => ?_, happart⟩
    obtain ⟨o, -, ho⟩ := exists_of_forall₂ hdelivers he
    exact ⟨o, ho⟩
  · rintro ⟨entries, hentries, hdelivers, happart⟩
    obtain ⟨options, hoptions⟩ : ∃ options, entries.mapM Entry.options = .ok options := by
      refine (FailsWith.mapM fun e he => .of_ok ?_).exists_ok
      obtain ⟨o, ho⟩ := hdelivers e he
      obtain ⟨options, hoptions, -⟩ := ho.code
      exact ⟨options, hoptions⟩
    obtain ⟨outputs, houtputs⟩ :
        ∃ outputs, (entries.zip options).mapM (fun p => renderEntry files p.1 p.2) =
          .ok outputs := by
      refine (FailsWith.mapM fun p hp => .of_ok ?_).exists_ok
      obtain ⟨o, ho⟩ := hdelivers p.1 (List.of_mem_zip hp).1
      obtain ⟨options', hoptions', hrender⟩ := ho.code
      have hown : p.1.options = .ok p.2 := List.forall₂_zip (mapM_eq_ok.1 hoptions) hp
      cases hown.symm.trans hoptions'
      exact ⟨o, hrender⟩
    rw [planGenerate_eq hentries hoptions, collision?_nil.2 happart]
    dsimp only
    rw [houtputs]
    exact ⟨_, rfl⟩

theorem IsInputError.not_writeError {e : CommandError} (h : IsInputError e) : ¬IsWriteError e := by
  rintro ⟨p, rfl⟩
  obtain ⟨cause, h⟩ | ⟨path, h⟩ := h
  · cases h
  · cases h

theorem loadSettings_not_writeError (settings : Path) :
    FailsWith (¬IsWriteError ·) (loadSettings files settings) := by
  rintro e he ⟨p, rfl⟩
  unfold loadSettings at he
  split at he
  · cases he
  · split at he
    · cases he
    · split at he
      · cases he
      · cases he

theorem planGenerate_not_writeError (settings : Path) :
    FailsWith (¬IsWriteError ·) (planGenerate files settings) := by
  refine (loadSettings_not_writeError settings).bind fun entries _ => ?_
  refine ((lift_inputError _).mono fun _ h => h.not_writeError).bind fun options _ => ?_
  dsimp only
  split
  · rintro e he ⟨p, rfl⟩
    cases he
  · refine FailsWith.bind (.mapM fun p _ => ?_) fun _ _ => .pure _
    exact (renderEntry_inputError p.1 p.2).mono fun _ h => h.not_writeError

/-- Nothing was changed, and nothing printed. -/
structure Outcome.Untouched (o : Outcome) (t : FileTree) : Prop where
  tree : o.tree = t
  stdout : o.stdout = ""

variable {t : FileTree} {args : List String}

theorem run_generate_untouched {settings : Path}
    (hargs : CommandLine.parse? args = some (.generate settings)) :
    (¬Complete t.view settings → ∃ e, (run t args).error = some e ∧ ¬IsWriteError e) ∧
      ∀ e, (run t args).error = some e → ¬IsWriteError e →
        ¬Complete t.view settings ∧ (run t args).Untouched t := by
  rw [← exists_planGenerate_iff]
  cases hplan : planGenerate t.view settings with
  | error e =>
    rw [run_eq_of_error hargs hplan]
    refine ⟨fun _ => ⟨e, rfl, planGenerate_not_writeError settings e hplan⟩, fun _ _ _ => ?_⟩
    exact ⟨fun ⟨_, h⟩ => (nomatch h), rfl, rfl⟩
  | ok plan =>
    obtain ⟨_, outputs, -, -, -, rfl⟩ := planGenerate_eq_ok hplan
    rw [run_eq_of_ok hargs hplan]
    exact ⟨fun h => absurd ⟨_, rfl⟩ h, fun e he h => absurd (deliver_writeError outputs he) h⟩

/-- A plan for rendered documents is one text, for the output file if there is one. -/
theorem planRender_eq_ok {request : RenderRequest} {planned : Plan}
    (h : planRender files request = .ok planned) :
    ∃ code, planned = match request.output with
      | some path => .save path code
      | none => .print code := by
  obtain ⟨options, -, h⟩ := bind_eq_ok.1 h
  obtain ⟨target, -, h⟩ := bind_eq_ok.1 h
  obtain ⟨target, -, h⟩ := bind_eq_ok.1 h
  obtain ⟨code, -, h⟩ := bind_eq_ok.1 h
  exact ⟨code, (Except.ok.inj h).symm⟩

theorem run_render_untouched {request : RenderRequest}
    (hargs : CommandLine.parse? args = some (.render request)) {e : CommandError}
    (he : (run t args).error = some e) :
    planRender t.view request = .error e ∧ (run t args).Untouched t ∨
      ∃ path code p, request.output = some path ∧
        planRender t.view request = .ok (.save path code) ∧ e = .failed (.inaccessible p) := by
  cases hplan : planRender t.view request with
  | error e' =>
    rw [run_eq_of_error hargs hplan] at he ⊢
    cases he
    exact .inl ⟨rfl, rfl, rfl⟩
  | ok planned =>
    rw [run_eq_of_ok hargs hplan] at he
    obtain ⟨code, rfl⟩ := planRender_eq_ok hplan
    obtain ⟨p, hp, rfl⟩ := Option.map_eq_some_iff.1 he
    cases houtput : request.output with
    | some path => exact .inr ⟨path, code, p, rfl, rfl, rfl⟩
    | none =>
      -- printing writes no file
      rw [houtput] at hp
      cases hp

/-- Step by step, a command line does what its plan says. When the settings of `generate` cannot be
loaded, an entry at any position has no output or two outputs take the same steps, the command fails
with an error that is not about writing; after every such error the tree is as it was. `render`
fails before anything is changed or printed, or its text is complete and the output cannot be
written. A command line that is not understood does nothing. -/
theorem perform_untouched (t : FileTree) (args : List String) :
    perform t args = run t args ∧
    (∀ settings, CommandLine.parse? args = some (.generate settings) →
      (¬Complete t.view settings →
        ∃ e, (perform t args).error = some e ∧ ¬IsWriteError e) ∧
      ∀ e, (perform t args).error = some e → ¬IsWriteError e →
        ¬Complete t.view settings ∧ (perform t args).Untouched t) ∧
    (∀ request, CommandLine.parse? args = some (.render request) →
      ∀ e, (perform t args).error = some e →
        planRender t.view request = .error e ∧ (perform t args).Untouched t ∨
          ∃ path code p, request.output = some path ∧
            planRender t.view request = .ok (.save path code) ∧
            e = .failed (.inaccessible p)) ∧
    (CommandLine.parse? args = none →
      (perform t args).error = some .usage ∧ (perform t args).Untouched t) := by
  rw [perform_eq_run]
  refine ⟨rfl, fun settings hargs => run_generate_untouched hargs,
    fun request hargs e he => run_render_untouched hargs he, fun hargs => ?_⟩
  have hrun : run t args = { stdout := "", tree := t, error := some .usage } := by
    unfold run
    rw [hargs]
    rfl
  rw [hrun]
  exact ⟨rfl, rfl, rfl⟩

/-- A settings file with two packages, of which the second is not there. -/
def missingPackage : FileTree :=
  .ofEntries ["w"]
    [(["gots.yaml"], "packages:\n  - path: a.json\n    output_path: out/a.ts\n  - path: b.json\n"),
      (["a.json"], "\x7b\"package\": \"a\", \"files\": []\x7d")] []

theorem missingPackage_untouched :
    (perform missingPackage ["generate"]).error = some (.failed (.inaccessible ⟨"b.json"⟩)) ∧
      (perform missingPackage ["generate"]).Untouched missingPackage ∧
      (perform missingPackage ["render", "a.json", "b.json"]).error =
        some (.failed (.inaccessible ⟨"b.json"⟩)) ∧
      (perform missingPackage ["render", "a.json", "b.json"]).Untouched missingPackage ∧
      (perform missingPackage ["explain"]).Untouched missingPackage := by
  have hgenerate : (run missingPackage ["generate"]).error =
      some (.failed (.inaccessible ⟨"b.json"⟩)) := by decide +kernel
  have hrender : (run missingPackage ["render", "a.json", "b.json"]).error =
      some (.failed (.inaccessible ⟨"b.json"⟩)) := by decide +kernel
  have hrequest : ∃ request,
      CommandLine.parse? ["render", "a.json", "b.json"] = some (.render request) ∧
        request.output = none := ⟨_, rfl, rfl⟩
  obtain ⟨request, hargs, houtput⟩ := hrequest
  obtain ⟨hrunGenerate, hkept, -⟩ := perform_untouched missingPackage ["generate"]
  obtain ⟨hrunRender, -, hfails, -⟩ :=
    perform_untouched missingPackage ["render", "a.json", "b.json"]
  obtain ⟨-, -, -, hunknown⟩ := perform_untouched missingPackage ["explain"]
  rw [← hrunGenerate] at hgenerate
  rw [← hrunRender] at hrender
  refine ⟨hgenerate, ((hkept ⟨"gots.yaml"⟩ rfl).2 _ hgenerate ?_).2, hrender, ?_,
    (hunknown rfl).2⟩
  · rintro ⟨p, h⟩
    cases h
  · rcases hfails request hargs _ hrender with ⟨-, hkept⟩ | ⟨path, _, _, hsome, -⟩
    · exact hkept
    · rw [houtput] at hsome
      cases hsome

end WireTypes.Command
