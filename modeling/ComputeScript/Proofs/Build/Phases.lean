import ComputeScript.Builder
import ComputeScript.Proofs.Compile.Stages

/-!
# The phases of a build

A build first configures its compiler and links the script (`Builder.begin`), and then compiles
(`Builder.finish`).  `Building.exec` is what a step of a build comes to in given states; the lemmas
here say it of the phases, so that nothing else looks into them.  `Builder.Begins` lists the ways in
which the first one can go, whatever the sink is.
-/

namespace ComputeScript

/-! ### Steps of a build -/

namespace Building

variable {ω τ α β : Type}

/-- What a step of a build comes to, and the states that it leaves. -/
def exec (x : Building τ (StateM ω) α) (script : Script) (b : Builder) (t : τ) (w : ω) :
    Except BuildError α × Script × Builder × τ × ω :=
  let ((((result, script), b), t), w) := (((x.run.run script).run b).run t).run w
  (result, script, b, t, w)

variable {x : Building τ (StateM ω) α} {f : α → Building τ (StateM ω) β} {script script' : Script}
  {b b' : Builder} {t t' : τ} {w w' : ω}

theorem exec_bind_of_ok {a : α} (h : x.exec script b t w = (.ok a, script', b', t', w')) :
    exec (x >>= f) script b t w = (f a).exec script' b' t' w' := by
  rcases hx : (((x.run.run script).run b).run t).run w with ⟨⟨⟨⟨result, s⟩, c⟩, u⟩, v⟩
  simp only [exec, hx, Prod.mk.injEq] at h
  obtain ⟨rfl, rfl, rfl, rfl, rfl⟩ := h
  unfold exec
  rw [ExceptT.run_bind, StateT.run_bind, StateT.run_bind, StateT.run_bind, StateT.run_bind, hx]
  rfl

theorem exec_bind_of_error {e : BuildError}
    (h : x.exec script b t w = (.error e, script', b', t', w')) :
    exec (x >>= f) script b t w = (.error e, script', b', t', w') := by
  rcases hx : (((x.run.run script).run b).run t).run w with ⟨⟨⟨⟨result, s⟩, c⟩, u⟩, v⟩
  simp only [exec, hx, Prod.mk.injEq] at h
  obtain ⟨rfl, rfl, rfl, rfl, rfl⟩ := h
  unfold exec
  rw [ExceptT.run_bind, StateT.run_bind, StateT.run_bind, StateT.run_bind, StateT.run_bind, hx]
  rfl

theorem exec_getThe_builder :
    exec (getThe Builder : Building τ (StateM ω) Builder) script b t w =
      (.ok b, script, b, t, w) := rfl

theorem exec_getThe_script :
    exec (getThe Script : Building τ (StateM ω) Script) script b t w =
      (.ok script, script, b, t, w) := rfl

/-- A computation that sees the sink and the world. -/
theorem exec_liftM {act : StateT τ (StateM ω) α} {a : α}
    (h : (act.run t).run w = ((a, t'), w')) :
    exec (liftM act) script b t w = (.ok a, script, b, t', w') :=
  congrArg (fun r : (α × τ) × ω => (Except.ok r.1.1, script, b, r.1.2, r.2)) h

/-- A computation that sees the world. -/
theorem exec_liftM_world {act : StateM ω α} {a : α} (h : act.run w = (a, w')) :
    exec (liftM act) script b t w = (.ok a, script, b, t, w') :=
  congrArg (fun r : α × ω => (Except.ok r.1, script, b, t, r.2)) h

end Building

namespace Builder

/-! ### Two phases -/

section

variable {τ : Type} {m : Type → Type} [Monad m] [Files m]

/-- What a build does before it compiles.  It answers with the compiler that it will use. -/
def begin (triple : String) (fileType : FileType) : Building τ m Compiler := do
  match (← getThe Builder).configure (configFor (← getThe Script) triple fileType) with
  | .error e => throw (.compile e)
  | .ok b =>
    set b
    if b.linking then link
    return b.compiler

/-- What a build does with its compiler. -/
def finish (sink : Sink (StateT τ m)) (c : Compiler) : Building τ m Unit := do
  let compile : Compiling Script (StateT τ m) Unit :=
    c.compile (.script ExportTable.entryPoints) sink
  let (result, script) ← (compile.run.run (← getThe Script) : StateT τ m _)
  set script
  match result with
  | .ok () => return
  | .error e => throw (.compile e)

theorem buildInto_eq [LawfulMonad m] (triple : String) (fileType : FileType)
    (sink : Sink (StateT τ m)) :
    buildInto triple fileType sink = begin triple fileType >>= finish sink := by
  unfold buildInto begin
  simp only [bind_assoc]
  refine bind_congr fun b => bind_congr fun script => ?_
  rcases b.configure (configFor script triple fileType) with e | b
  · refine ExceptT.ext ?_
    simp
  · simp only [bind_assoc]
    refine bind_congr fun _ => ?_
    split
    · rw [bind_assoc]
      refine bind_congr fun _ => ?_
      rw [pure_bind]
      rfl
    · rw [pure_bind]
      rfl

end

/-! ### Configuring -/

variable {b b₁ : Builder} {config : Config}

/-- A builder that configures itself shows the configuration, and is the same otherwise. -/
theorem of_configure (h : b.configure config = .ok b₁) :
    b₁.config = some config ∧ b₁.compiler.machine.isSome ∧
      b₁ = { b with compiler := { b.compiler with machine := b₁.compiler.machine }
                    config := some config } := by
  unfold configure Compiler.configure at h
  split_ifs at h with hcached
  · cases h
    refine ⟨hcached.1, hcached.2, ?_⟩
    rw [← hcached.1]
  · rcases hcreate : Machine.create config with e | machine <;> rw [hcreate] at h <;> cases h
    exact ⟨rfl, rfl, rfl⟩

theorem configure_eq_self (hconfig : b.config = some config) (h : b.compiler.machine.isSome) :
    b.configure config = .ok b :=
  if_pos ⟨hconfig, h⟩

/-! ### Finishing -/

variable {ω τ : Type} {script : Script} {t : τ} {w w' : ω}

theorem exec_finish {sink : Sink (StateT τ (StateM ω))} {c : Compiler}
    {result : Except CompileError Unit} {script' : Script} {t' : τ}
    (h : (((c.compile (.script ExportTable.entryPoints) sink).run.run script).run t).run w =
      (((result, script'), t'), w')) :
    (finish sink c).exec script b t w = (result.mapError .compile, script', b, t', w') := by
  rw [finish, Building.exec_bind_of_ok Building.exec_getThe_script,
    Building.exec_bind_of_ok (Building.exec_liftM h)]
  rcases result with e | ⟨⟩ <;> rfl

/-! ### Linking -/

variable [Files (StateM ω)] {libraries : List Library}

/-- The libraries that the builder has or loads. -/
def loaded (b : Builder) : StateM ω (Except LoadError (List Library)) :=
  match b.libraries with
  | some libraries => return .ok libraries
  | none => loadFrom b.root

theorem exec_load_of_error {e : LoadError} (h : b.loaded.run w = (.error e, w')) :
    (load : Building τ (StateM ω) _).exec script b t w = (.error (.load e), script, b, t, w') := by
  rcases b with ⟨root, compiler, config, _ | libraries, linking⟩
  · rw [load, Building.exec_bind_of_ok Building.exec_getThe_builder]
    exact Building.exec_bind_of_ok (Building.exec_liftM_world h)
  · cases h

theorem exec_load_of_ok (h : b.loaded.run w = (.ok libraries, w')) :
    (load : Building τ (StateM ω) _).exec script b t w =
      (.ok libraries, script, { b with libraries := some libraries }, t, w') := by
  rcases b with ⟨root, compiler, config, _ | kept, linking⟩
  · rw [load, Building.exec_bind_of_ok Building.exec_getThe_builder]
    exact Building.exec_bind_of_ok (Building.exec_liftM_world h)
  · cases h
    rfl

theorem exec_link_of_error {e : LoadError} (h : b.loaded.run w = (.error e, w')) :
    (link : Building τ (StateM ω) Unit).exec script b t w =
      (.error (.load e), script, b, t, w') := by
  rw [link, Building.exec_bind_of_error (exec_load_of_error h)]

theorem exec_link_of_ok (h : b.loaded.run w = (.ok libraries, w')) :
    (link : Building τ (StateM ω) Unit).exec script b t w =
      match Library.select? libraries script.library with
      | none =>
        (.error (.noLibrary (script.library.getD Library.defaultName)), script,
          { b with libraries := some libraries }, t, w')
      | some library =>
        (.ok (), script.link library, { b with libraries := some libraries }, t, w') := by
  rw [link, Building.exec_bind_of_ok (exec_load_of_ok h),
    Building.exec_bind_of_ok Building.exec_getThe_script]
  dsimp only
  rcases Library.select? libraries script.library with _ | library <;> rfl

/-! ### Beginning -/

variable {triple : String} {fileType : FileType}

theorem exec_begin_of_error {e : CompileError}
    (h : b.configure (configFor script triple fileType) = .error e) :
    (begin triple fileType : Building τ (StateM ω) _).exec script b t w =
      (.error (.compile e), script, b, t, w) := by
  rw [begin, Building.exec_bind_of_ok Building.exec_getThe_builder,
    Building.exec_bind_of_ok Building.exec_getThe_script, h]
  rfl

theorem exec_begin_of_ok (h : b.configure (configFor script triple fileType) = .ok b₁) :
    (begin triple fileType : Building τ (StateM ω) _).exec script b t w =
      if b₁.linking then
        match (link : Building τ (StateM ω) Unit).exec script b₁ t w with
        | (.error e, rest) => (.error e, rest)
        | (.ok (), rest) => (.ok b₁.compiler, rest)
      else (.ok b₁.compiler, script, b₁, t, w) := by
  have hset : (set b₁ : Building τ (StateM ω) PUnit).exec script b t w =
      (.ok ⟨⟩, script, b₁, t, w) := rfl
  rw [begin, Building.exec_bind_of_ok Building.exec_getThe_builder,
    Building.exec_bind_of_ok Building.exec_getThe_script, h]
  dsimp only
  rw [Building.exec_bind_of_ok hset]
  split_ifs
  · rcases hlink : (link : Building τ (StateM ω) Unit).exec script b₁ t w with
      ⟨e | ⟨⟩, script', b', t', w'⟩
    · rw [Building.exec_bind_of_error hlink]
    · rw [Building.exec_bind_of_ok hlink]
      rfl
  · rfl

/-- The ways in which a build can go until it compiles: what it answers, and the script, the builder
and the world that it leaves. -/
inductive Begins (triple : String) (fileType : FileType) (script : Script) (b : Builder) (w : ω) :
    Except BuildError Compiler → Script → Builder → ω → Prop where
  | unconfigured {e : CompileError}
      (hconfigure : b.configure (configFor script triple fileType) = .error e) :
      Begins triple fileType script b w (.error (.compile e)) script b w
  | unlinked {b₁ : Builder}
      (hconfigure : b.configure (configFor script triple fileType) = .ok b₁)
      (hoff : b₁.linking = false) :
      Begins triple fileType script b w (.ok b₁.compiler) script b₁ w
  | unloaded {b₁ : Builder} {e : LoadError} {w' : ω}
      (hconfigure : b.configure (configFor script triple fileType) = .ok b₁)
      (hon : b₁.linking = true) (hloaded : b₁.loaded.run w = (.error e, w')) :
      Begins triple fileType script b w (.error (.load e)) script b₁ w'
  | unselected {b₁ : Builder} {libraries : List Library} {w' : ω}
      (hconfigure : b.configure (configFor script triple fileType) = .ok b₁)
      (hon : b₁.linking = true) (hloaded : b₁.loaded.run w = (.ok libraries, w'))
      (hselect : Library.select? libraries script.library = none) :
      Begins triple fileType script b w
        (.error (.noLibrary (script.library.getD Library.defaultName))) script
        { b₁ with libraries := some libraries } w'
  | linked {b₁ : Builder} {libraries : List Library} {library : Library} {w' : ω}
      (hconfigure : b.configure (configFor script triple fileType) = .ok b₁)
      (hon : b₁.linking = true) (hloaded : b₁.loaded.run w = (.ok libraries, w'))
      (hselect : Library.select? libraries script.library = some library) :
      Begins triple fileType script b w (.ok b₁.compiler) (script.link library)
        { b₁ with libraries := some libraries } w'

theorem Begins.exec {result : Except BuildError Compiler} {script' : Script} {b' : Builder}
    (h : Begins triple fileType script b w result script' b' w') (t : τ) :
    (begin triple fileType : Building τ (StateM ω) _).exec script b t w =
      (result, script', b', t, w') := by
  cases h with
  | unconfigured hconfigure => exact exec_begin_of_error hconfigure
  | unlinked hconfigure hoff => rw [exec_begin_of_ok hconfigure, hoff]; rfl
  | unloaded hconfigure hon hloaded =>
    rw [exec_begin_of_ok hconfigure, if_pos hon, exec_link_of_error hloaded]
  | unselected hconfigure hon hloaded hselect =>
    rw [exec_begin_of_ok hconfigure, if_pos hon, exec_link_of_ok hloaded, hselect]
  | linked hconfigure hon hloaded hselect =>
    rw [exec_begin_of_ok hconfigure, if_pos hon, exec_link_of_ok hloaded, hselect]

/-- What a build does before it compiles is the same for every sink, and leaves its state alone. -/
theorem exists_begins (triple : String) (fileType : FileType) (script : Script) (b : Builder)
    (w : ω) :
    ∃ result script' b' w', Begins triple fileType script b w result script' b' w' ∧
      ∀ (τ : Type) (t : τ), (begin triple fileType : Building τ (StateM ω) _).exec script b t w =
        (result, script', b', t, w') := by
  suffices h : ∃ result script' b' w', Begins triple fileType script b w result script' b' w' by
    obtain ⟨_, _, _, _, hbegins⟩ := h
    exact ⟨_, _, _, _, hbegins, fun τ t => hbegins.exec t⟩
  rcases hconfigure : b.configure (configFor script triple fileType) with e | b₁
  · exact ⟨_, _, _, _, .unconfigured hconfigure⟩
  rcases hlinking : b₁.linking
  · exact ⟨_, _, _, _, .unlinked hconfigure hlinking⟩
  rcases hloaded : b₁.loaded.run w with ⟨e | libraries, w'⟩
  · exact ⟨_, _, _, _, .unloaded hconfigure hlinking hloaded⟩
  rcases hselect : Library.select? libraries script.library with _ | library
  · exact ⟨_, _, _, _, .unselected hconfigure hlinking hloaded hselect⟩
  · exact ⟨_, _, _, _, .linked hconfigure hlinking hloaded hselect⟩

theorem begins_of_exec {result : Except BuildError Compiler} {script' : Script} {b' : Builder}
    {t' : τ} (h : (begin triple fileType).exec script b t w = (result, script', b', t', w')) :
    Begins triple fileType script b w result script' b' w' ∧ t' = t := by
  obtain ⟨_, _, _, _, hbegins, hexec⟩ := exists_begins triple fileType script b w
  cases (hexec τ t).symm.trans h
  exact ⟨hbegins, rfl⟩

end Builder

end ComputeScript
