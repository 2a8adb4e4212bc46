import ComputeScript.Command
import ComputeScript.Proofs.Build.Files
import ComputeScript.Proofs.Files.Directories

/-!
# What a command does to the files

A command reads its script, makes a directory, builds into its output file, and may run what it has
written.  Reading and running change nothing, and making directories changes no file, so the files
change with the build or not at all, whatever the file system refuses (`Command.execute_spec`).
-/

namespace ComputeScript

namespace Library

/-- With more directories, the same libraries are loaded from a directory that was there before. -/
theorem loadedFrom_of_gains {d d' : Disk} (h : d.root.entryAt?.Gains d'.root.entryAt?)
    (hd : d.root.Distinct) (hd' : d'.root.Distinct) {root : Option Path}
    (hroot : ∀ path, root = some path → (d.tree path).isSome) :
    loadedFrom root d' = loadedFrom root d := by
  cases root with
  | none => rfl
  | some path =>
    obtain ⟨t, ht⟩ := Option.isSome_iff_exists.1 (hroot path rfl)
    obtain ⟨t', ht', hgains⟩ := Disk.tree_of_gains h ht
    have hfiles := hgains.files_eq (Disk.distinct_of_tree hd ht) (Disk.distinct_of_tree hd' ht') []
    rw [loadedFrom, loadedFrom, ht, ht']
    dsimp only
    rw [loadTree, loadTree, hfiles]

end Library

/-- Whether it goes wrong after the output file was written. -/
def CommandError.ofRun : CommandError → Bool
  | noOutput _ => true
  | run _ => true
  | _ => false

namespace Command

/-- A step of a command on a disk. -/
abbrev Step (α : Type) : Type := ExceptT CommandError (StateM Disk) α

variable (c : Command) (d : Disk)

/-! ### The steps of a command -/

theorem run_step_lift {α : Type} {act : StateM Disk α} {a : α} {d d' : Disk}
    (h : act.run d = (a, d')) : (liftM act : Step α).run.run d = pure (.ok a, d') :=
  congrArg (fun r : α × Disk => (Except.ok r.1, r.2)) h

/-- Reading the script changes nothing. -/
theorem run_source (stdin : Bytes) :
    ∃ result, (c.source (pure stdin) : Step String).run.run d = pure (result, d) ∧
      ∀ e, result = .error e → e.ofRun = false := by
  rcases hinput : c.input with _ | path <;> simp only [source, hinput]
  · have hstdin : (liftM (pure stdin : StateM Disk Bytes) : Step Bytes).run.run d =
        pure (.ok stdin, d) := run_step_lift rfl
    rw [run_run_bind_of_ok hstdin]
    cases Library.textOf stdin with
    | ok text => exact ⟨.ok text, rfl, fun _ h => nomatch h⟩
    | error e => exact ⟨.error (.inputNotText none), rfl, by rintro e ⟨⟩; rfl⟩
  · have hread : (liftM (Files.read path : StateM Disk _) : Step _).run.run d =
        pure (.ok (d.read path), d) := run_step_lift rfl
    rw [run_run_bind_of_ok hread]
    cases d.read path with
    | none => exact ⟨.error (.noInput path), rfl, by rintro e ⟨⟩; rfl⟩
    | some bytes =>
      dsimp only
      rw [pure_bind]
      cases Library.textOf bytes with
      | ok text => exact ⟨.ok text, rfl, fun _ h => nomatch h⟩
      | error e => exact ⟨.error (.inputNotText (some path)), rfl, by rintro e ⟨⟩; rfl⟩

/-- Making the directory changes no file. -/
theorem run_makeDirectory :
    ∃ result made, (c.makeDirectory : Step Unit).run.run d = pure (result, made) ∧
      d.root.entryAt?.Gains made.root.entryAt? ∧ (d.root.Distinct → made.root.Distinct) ∧
      ∀ e, result = .error e → e.ofRun = false := by
  unfold makeDirectory
  dsimp only
  split_ifs with hempty
  · exact ⟨.ok (), d, rfl, .refl _, id, fun _ h => nomatch h⟩
  rcases hmake : d.alter fun root => root.makeDirs c.output.parent with ⟨done, made⟩
  have hrun : (liftM (Files.makeDirs c.output.parent : StateM Disk _) : Step _).run.run d =
      pure (.ok done, made) := run_step_lift hmake
  have hgains : d.root.entryAt?.Gains made.root.entryAt? ∧
      (d.root.Distinct → made.root.Distinct) := by
    obtain ⟨-, hroot⟩ | hmade := Disk.alter_cases hmake
    · rw [hroot]
      exact ⟨.refl _, id⟩
    · rw [show made.root = (d.root.makeDirs c.output.parent).2 by rw [hmade]]
      exact ⟨Tree.gains_makeDirs d.root _, fun h => h.makeDirs _⟩
  rw [run_run_bind_of_ok hrun]
  cases done with
  | true => exact ⟨.ok (), made, rfl, hgains.1, hgains.2, fun _ h => nomatch h⟩
  | false =>
    exact ⟨.error (.noDirectory c.output.parent), made, rfl, hgains.1, hgains.2,
      by rintro e ⟨⟩; rfl⟩

/-- The build fails and changes no file, or it replaces the output file. -/
theorem run_build (script : Script) :
    ∃ result now, (c.build script : Step Unit).run.run d = pure (result, now) ∧
      ((∃ e, result = .error e ∧ e.ofRun = false) ∧ now.root.entryAt? = d.root.entryAt? ∨
        ∃ bytes, result = .ok () ∧
          ((c.builder.buildBytes script c.target c.fileType : StateM Disk _).run d).1.1 =
            .ok bytes ∧
          d.root.entryAt?.Replaced (d.root.place? c.output) (some bytes) now.root.entryAt?) := by
  rcases hbuild : (c.builder.buildFile script c.target c.fileType c.output : StateM Disk _).run d
    with ⟨⟨result, script', b'⟩, now⟩
  have hrun := run_step_lift hbuild
  rw [build, run_run_bind_of_ok hrun]
  obtain ⟨⟨e, rfl⟩, hnow⟩ | ⟨bytes, rfl, hbytes, hnow⟩ := Builder.buildFile_cases hbuild
  · exact ⟨_, now, rfl, .inl ⟨⟨_, rfl, rfl⟩, hnow⟩⟩
  · exact ⟨.ok (), now, rfl, .inr ⟨bytes, rfl, by rw [hbytes], hnow⟩⟩

/-- Running the output changes nothing. -/
theorem run_runOutput (fuel : Nat) :
    ∃ result, (c.runOutput fuel : Step String).run.run d = pure (result, d) ∧
      ∀ e, result = .error e → e.ofRun = true := by
  have hread : (liftM (Files.read c.output : StateM Disk _) : Step _).run.run d =
      pure (.ok (d.read c.output), d) := run_step_lift rfl
  rw [runOutput, run_run_bind_of_ok hread]
  cases d.read c.output with
  | none => exact ⟨.error (.noOutput c.output), rfl, by rintro e ⟨⟩; rfl⟩
  | some bytes =>
    dsimp only
    cases runRoot fuel bytes with
    | ok value => exact ⟨_, rfl, fun _ h => nomatch h⟩
    | error e => exact ⟨.error (.run e), rfl, by rintro e ⟨⟩; rfl⟩

/-! ### All steps -/

/-- The script that a command reads is built to some bytes, on the disk with its new directory. -/
structure Built (stdin : Bytes) (text : String) (script : Script) (made : Disk) (bytes : Bytes) :
    Prop where
  source : (c.source (pure stdin) : Step String).run.run d = pure (.ok text, d)
  read : Script.read text = .ok script
  makeDirectory : (c.makeDirectory : Step Unit).run.run d = pure (.ok (), made)
  build : ((c.builder.buildBytes script c.target c.fileType : StateM Disk _).run made).1.1 =
    .ok bytes

/-- A command fails before it runs anything, and then nothing is new but directories, or it comes to
replace the output file by what its script is built to. -/
theorem execute_cases (fuel : Nat) (stdin : Bytes) :
    ∃ answer now, (c.execute fuel (pure stdin) : Step String).run.run d = pure (answer, now) ∧
      ((∃ e, answer = .error e ∧ e.ofRun = false) ∧ d.root.entryAt?.Gains now.root.entryAt? ∨
        (∀ e, answer = .error e → e.ofRun = true) ∧ ∃ text script made bytes,
          c.Built d stdin text script made bytes ∧
          made.root.entryAt?.Replaced (made.root.place? c.output) (some bytes)
            now.root.entryAt?) := by
  obtain ⟨text | text, hsource, hfault⟩ := c.run_source d stdin
  · exact ⟨_, d, run_run_bind_of_error hsource _, .inl ⟨⟨_, rfl, hfault _ rfl⟩, .refl _⟩⟩
  rw [execute, run_run_bind_of_ok hsource]
  rcases hread : Script.read text with e | script
  · exact ⟨.error (.read e), d, rfl, .inl ⟨⟨_, rfl, rfl⟩, .refl _⟩⟩
  dsimp only
  obtain ⟨e | ⟨⟩, made, hmake, hgains, -, hfault⟩ := c.run_makeDirectory d
  · exact ⟨_, made, run_run_bind_of_error hmake _, .inl ⟨⟨_, rfl, hfault _ rfl⟩, hgains⟩⟩
  rw [run_run_bind_of_ok hmake]
  obtain ⟨result, now, hbuild, hcases⟩ := c.run_build made script
  obtain ⟨⟨e, rfl, he⟩, hnow⟩ | ⟨bytes, rfl, hbytes, hreplaced⟩ := hcases
  · exact ⟨_, now, run_run_bind_of_error hbuild _, .inl ⟨⟨_, rfl, he⟩, hnow ▸ hgains⟩⟩
  rw [run_run_bind_of_ok hbuild]
  have hbuilt : c.Built d stdin text script made bytes := ⟨hsource, hread, hmake, hbytes⟩
  split_ifs
  · obtain ⟨answer, hrun, hofRun⟩ := c.run_runOutput now fuel
    exact ⟨answer, now, hrun, .inr ⟨hofRun, text, script, made, bytes, hbuilt, hreplaced⟩⟩
  · have hok (e : CommandError) (h : .ok "" = Except.error e) : e.ofRun = true := nomatch h
    exact ⟨.ok "", now, rfl, .inr ⟨hok, text, script, made, bytes, hbuilt, hreplaced⟩⟩

/-- A command that fails before it runs anything leaves every file as it was, and no other one.
Otherwise its output file, and no other one, is replaced by the bytes to which a builder with its
settings builds the script, and is that whatever the run comes to.  These bytes are those of a build
on the disk with the new directories, or on the disk as it was if libraries could be loaded from
there. -/
theorem execute_spec (fuel : Nat) (c : Command) (stdin : Bytes) (d : Disk) :
    let run := (c.execute fuel (pure stdin) : Step String).run.run d
    let answer := run.1
    let now := run.2
    (∀ e, answer = .error e → e.ofRun = false →
      (∀ place bytes, now.root.entryAt? place = some (.file bytes) ↔
        d.root.entryAt? place = some (.file bytes)) ∧
      ∀ bytes, d.read c.output = some bytes → now.read c.output = some bytes) ∧
    ((∀ e, answer = .error e → e.ofRun = true) → ∃ text script made bytes,
      c.Built d stdin text script made bytes ∧
      (d.root.Distinct → (∀ path, c.libraries = some path → (d.tree path).isSome) →
        ((c.builder.buildBytes script c.target c.fileType : StateM Disk _).run d).1.1 =
          .ok bytes) ∧
      now.read c.output = some bytes ∧
      ∃ place, now.root.place? c.output = some place ∧ ∀ other, other ≠ place → ∀ bytes,
        now.root.entryAt? other = some (.file bytes) ↔
          d.root.entryAt? other = some (.file bytes)) := by
  intro run answer now
  obtain ⟨answer', now', hrun, hcases⟩ := c.execute_cases d fuel stdin
  have hpair : (answer', now') = (answer, now) := hrun.symm
  obtain ⟨rfl, rfl⟩ := Prod.mk.inj hpair
  obtain ⟨⟨e, he, hfault⟩, hgains⟩ | ⟨hofRun, text, script, made, bytes, hbuilt, hreplaced⟩ :=
    hcases
  · exact ⟨fun _ _ _ => ⟨hgains.file_iff, fun _ => Disk.read_of_gains hgains⟩,
      fun h => absurd (h e he) (by rw [hfault]; decide)⟩
  refine ⟨fun e he hfault => absurd (hofRun e he) (by rw [hfault]; decide), fun _ => ?_⟩
  obtain ⟨_, _, hmake, hgains, hdistinct, -⟩ := c.run_makeDirectory d
  obtain ⟨-, rfl⟩ := Prod.mk.inj (hbuilt.makeDirectory.symm.trans hmake)
  obtain ⟨place, hplace, -, hnow⟩ := id hreplaced
  refine ⟨text, script, made, bytes, hbuilt, fun hd hroot => ?_, ?_, place, ?_,
    fun other hother bytes => ?_⟩
  -- the build saw more directories than there were before, but no other files
  · rw [← hbuilt.build]
    refine congrArg Prod.fst (Builder.run_buildBytes_congr script c.target c.fileType ?_).symm
    exact Library.loadedFrom_of_gains hgains hd (hdistinct hd) hroot
  · rw [Disk.read_eq, Disk.read_of_replaced hreplaced (fun _ => Iff.rfl), Option.some_or]
  · rw [← hplace]
    exact Tree.place?_congr hreplaced.sameDirs c.output
  · rw [← hgains.file_iff, hnow, Function.update_of_ne hother]

/-- A command that replaces a file by the listing of the script at its standard input. -/
def lister : Command := { output := "a", target := "wasm32", fileType := .assembly }

/-- A disk with that file, which may refuse to have it replaced. -/
def single (refused : Bool) : Disk where
  root := .dir [("a", .file [1])]
  refuses := fun _ => refused

/-- If nothing can be staged, the old file stays; otherwise it is replaced by the listing. -/
theorem execute_spec_lister :
    let after (refused : Bool) := ((lister.execute 0 (pure (utf8 "global @g = 1 export var g")) :
      Step String).run.run (single refused)).2
    (after true).read "a" = some [1] ∧ ∃ script bytes,
      ((lister.builder.buildBytes script "wasm32" .assembly : StateM Disk _).run
        (single false)).1.1 = .ok bytes ∧
      (after false).read "a" = some bytes := by
  constructor
  · have hanswer : ((lister.execute 0 (pure (utf8 "global @g = 1 export var g")) :
        Step String).run.run (single true)).1 =
          .error (.build "script" "wasm32" (.compile .prepareSink)) := by
      decide +kernel
    exact ((execute_spec 0 lister _ (single true)).1 _ hanswer rfl).2 [1] (by decide +kernel)
  · have hanswer : ((lister.execute 0 (pure (utf8 "global @g = 1 export var g")) :
        Step String).run.run (single false)).1 = .ok "" := by
      decide +kernel
    have hdistinct : (single false).root.Distinct :=
      .dir (by decide) (List.forall_mem_singleton.2 (.file [1]))
    obtain ⟨text, script, made, bytes, -, hbytes, hafter, -⟩ :=
      (execute_spec 0 lister _ (single false)).2 fun e he => nomatch hanswer.symm.trans he
    exact ⟨script, bytes, hbytes hdistinct nofun, hafter⟩

end Command

end ComputeScript
