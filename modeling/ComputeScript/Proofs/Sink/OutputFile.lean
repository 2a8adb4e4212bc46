import ComputeScript.Proofs.Files.Staging
import ComputeScript.Sink

/-!
# Output files are replaced at once

An output file is prepared and written in any order, and any operation of the file system may be
refused.  One call either writes an artifact, which then replaces what the destination held, or
leaves all files as they are, apart from the staged file, which is there exactly while the output
file is ready (`Shows.perform`).  So after any calls the file system shows what it showed at first,
with the last artifact that was written at the destination, and dropping the output file leaves no
staged file (`replaced_at_once`).
-/

namespace ComputeScript

/-- A view after some bytes, if there are any, replaced what is at a place, which is no
directory. -/
def Tree.View.Replaced (before : View) (place? : Option (List String)) (bytes? : Option Bytes)
    (after : View) : Prop :=
  match bytes? with
  | none => after = before
  | some bytes =>
    ∃ place, place? = some place ∧ before place ≠ some .dir ∧
      after = Function.update before place (some (.file bytes))

namespace Tree.View.Replaced

variable {before middle after : View} {place? : Option (List String)}
  {bytes? later? : Option Bytes}

theorem sameDirs (h : before.Replaced place? bytes? after) : SameDirs after before := by
  match bytes?, h with
  | none, h => rw [show after = before from h]; exact fun _ => Iff.rfl
  | some _, ⟨_, _, hfree, hafter⟩ => rw [hafter]; exact .update hfree (by simp)

theorem trans (h : before.Replaced place? bytes? middle)
    (hlater : middle.Replaced place? later? after) :
    before.Replaced place? (later?.or bytes?) after := by
  match later?, hlater with
  | none, hlater => rwa [show after = middle from hlater, Option.none_or]
  | some bytes, ⟨place, hplace, hfree, hafter⟩ =>
    have hbefore := mt (h.sameDirs place).2 hfree
    refine ⟨place, hplace, hbefore, ?_⟩
    match bytes?, h with
    | none, h => rw [hafter, show middle = before from h]
    | some _, ⟨_, hplace', _, hmiddle⟩ =>
      obtain rfl := Option.some.inj (hplace.symm.trans hplace')
      rw [hafter, hmiddle, Function.update_idem]

/-- At the place that was replaced, the new bytes are read. -/
theorem read (h : before.Replaced place? bytes? after) :
    after.read place? = bytes?.or (before.read place?) := by
  match bytes?, h with
  | none, h => rw [show after = before from h, Option.none_or]
  | some bytes, ⟨place, hplace, _, hafter⟩ =>
    rw [hplace, View.read, Option.bind_some, hafter, Function.update_self]
    rfl

end Tree.View.Replaced

namespace Disk

/-- A path reads as the last bytes that replaced what it leads to. -/
theorem read_of_replaced {d d' : Disk} {path : Path} {bytes? : Option Bytes} {after : Tree.View}
    (h : d.root.entryAt?.Replaced (d.root.place? path) bytes? after)
    (hdirs : Tree.SameDirs d'.root.entryAt? after) :
    after.read (d'.root.place? path) = bytes?.or (d.read path) := by
  have hplace : d'.root.place? path = d.root.place? path :=
    Tree.place?_congr (fun q => (hdirs q).trans (h.sameDirs q)) path
  rw [read_eq, ← h.read, hplace]

end Disk

namespace Sink.OutputFile

open ComputeScript.Tree (View)

/-! ### Calls -/

/-- A call to an output file. -/
inductive Call where
  | prepare
  | write (bytes : Bytes)
  deriving DecidableEq, Repr

/-- The answer of a call. -/
abbrev Answer := Except SinkFault Unit

/-- The artifact that a call has written, according to its answer. -/
def Call.written? : Call → Answer → Option Bytes
  | write bytes, .ok _ => some bytes
  | _, _ => none

/-- The last artifact that some calls have written. -/
def written : List (Call × Answer) → Option Bytes
  | [] => none
  | (call, answer) :: log => (written log).or (call.written? answer)

section

variable {m : Type → Type} [Monad m] [Files m]

def Call.perform : Call → OutputFile → m (Answer × OutputFile)
  | prepare, f => f.prepare
  | write bytes, f => f.write bytes

/-- Performs calls one after the other and records their answers. -/
def performAll : List Call → OutputFile → m (List (Call × Answer) × OutputFile)
  | [], f => return ([], f)
  | call :: calls, f => do
    let (answer, f) ← call.perform f
    let (log, f) ← performAll calls f
    return ((call, answer) :: log, f)

end

/-! ### What the operations do to a disk -/

theorem run_drop (f : OutputFile) (d : Disk) :
    (f.drop : StateM Disk OutputFile).run d =
      match f.staged with
      | some staged => ({ f with staged := none }, { d with root := d.root.remove staged })
      | none => (f, d) := by
  unfold drop
  cases f.staged <;> rfl

theorem run_prepare (f : OutputFile) (d : Disk) :
    (f.prepare : StateM Disk _).run d =
      if f.status = .ready then ((.ok (), f), d)
      else
        match d.stage f.directory with
        | (some staged, d) =>
          let dropped := (f.drop : StateM Disk OutputFile).run d
          ((.ok (), { dropped.1 with status := .ready, staged := some staged }), dropped.2)
        | (none, d) => ((.error .system, { f with status := .failed }), d) := by
  unfold prepare
  split_ifs
  · rfl
  · have hstage : (Files.stage f.directory : StateM Disk _).run d = d.stage f.directory := rfl
    rw [StateT.run_bind, hstage]
    rcases d.stage f.directory with ⟨_ | _, d⟩ <;> rfl

theorem run_deliver (staged target : Path) (bytes : Bytes) (d : Disk) :
    (deliver staged target bytes : StateM Disk Bool).run d =
      match d.change fun root => root.put? staged bytes with
      | (false, d) => (false, d)
      | (true, d) =>
        match d.change some with
        | (false, d) => (false, d)
        | (true, d) => d.rename staged target := by
  have hfill : (Files.fill staged bytes : StateM Disk Bool).run d =
      d.change fun root => root.put? staged bytes := rfl
  unfold deliver
  rw [StateT.run_bind, hfill]
  rcases d.change (fun root => root.put? staged bytes) with ⟨_ | _, d⟩
  · rfl
  · have hflush : (Files.flush staged : StateM Disk Bool).run d = d.change some := rfl
    show (StateT.run (do if ← (Files.flush staged : StateM Disk Bool) then _ else _) d : Id _) = _
    rw [StateT.run_bind, hflush]
    dsimp only
    rcases d.change some with ⟨_ | _, d⟩ <;> rfl

theorem run_write (bytes : Bytes) (f : OutputFile) (d : Disk) :
    (f.write bytes : StateM Disk _).run d =
      match f.staged with
      | none => ((.error .notPrepared, f), d)
      | some staged =>
        match (deliver staged f.path bytes : StateM Disk Bool).run d with
        | (true, d) => ((.ok (), { f with status := .finalized, staged := none }), d)
        | (false, d) =>
          ((.error .system, { f with status := .failed, staged := none }),
            { d with root := d.root.remove staged }) := by
  unfold write
  cases f.staged with
  | none => rfl
  | some staged =>
    dsimp only
    rw [StateT.run_bind]
    rcases (deliver staged f.path bytes : StateM Disk Bool).run d with ⟨_ | _, d⟩ <;> rfl

theorem run_performAll_cons (call : Call) (calls : List Call) (f : OutputFile) (d : Disk) :
    (performAll (call :: calls) f : StateM Disk _).run d =
      let first := (call.perform f : StateM Disk _).run d
      let others := (performAll calls first.1.2 : StateM Disk _).run first.2
      (((call, first.1.1) :: others.1.1, others.1.2), others.2) := rfl

/-- Delivering a staged file replaces the destination, or leaves a staged file of some bytes. -/
theorem deliver_cases {staged target : Path} {bytes old : Bytes} {d d' : Disk} {view : View}
    {done : Bool} (h : d.root.StagedBeside view staged old)
    (hrun : (deliver staged target bytes : StateM Disk Bool).run d = (done, d')) :
    (done = true ∧ view.Replaced (d.root.place? target) (some bytes) d'.root.entryAt?) ∨
      (done = false ∧ ∃ left, d'.root.StagedBeside view staged left) := by
  rw [run_deliver] at hrun
  rcases hfill : d.change fun root => root.put? staged bytes with ⟨filled, d₁⟩
  rw [hfill] at hrun
  obtain ⟨rfl, hroot⟩ | ⟨rfl, hput⟩ := Disk.change_cases hfill
  · obtain ⟨rfl, rfl⟩ := Prod.mk.inj hrun
    exact .inr ⟨rfl, old, hroot ▸ h⟩
  have h₁ := h.put hput
  rcases hflush : d₁.change some with ⟨flushed, d₂⟩
  simp only [hflush] at hrun
  obtain ⟨rfl, hroot⟩ | ⟨rfl, hroot⟩ := Disk.change_cases hflush
  · obtain ⟨rfl, rfl⟩ := Prod.mk.inj hrun
    exact .inr ⟨rfl, bytes, hroot ▸ h₁⟩
  obtain hroot := Option.some.inj hroot
  have h₂ : d₂.root.StagedBeside view staged bytes := hroot ▸ h₁
  obtain ⟨rfl, hroot'⟩ | ⟨rfl, hrename⟩ := Disk.change_cases hrun
  · exact .inr ⟨rfl, bytes, hroot' ▸ h₂⟩
  · rw [h₂.find?] at hrename
    obtain ⟨place, hplace, hfree, hroot'⟩ := h₂.rename hrename
    refine .inl ⟨rfl, place, ?_, hfree, hroot'⟩
    rw [← hplace]
    exact Tree.place?_congr (fun q => (h.sameDirs q).trans (h₂.sameDirs q).symm) target

/-! ### What a call keeps -/

/-- Apart from the staged file, which there is exactly while the output file is ready, a tree is as
a view shows it. -/
inductive Shows (f : OutputFile) (view : View) (root : Tree) : Prop
  | idle (hstatus : f.status ≠ .ready) (hstaged : f.staged = none) (hroot : root.entryAt? = view)
  | ready (hstatus : f.status = .ready) (staged : Path) (hstaged : f.staged = some staged)
      (bytes : Bytes) (hroot : root.StagedBeside view staged bytes)

namespace Shows

variable {f f' : OutputFile} {view : View} {d d' : Disk} {answer : Answer}

theorem sameDirs {root : Tree} (h : f.Shows view root) : Tree.SameDirs root.entryAt? view := by
  cases h with
  | idle _ _ hroot => rw [hroot]; exact fun _ => Iff.rfl
  | ready _ _ _ _ hroot => exact hroot.sameDirs

/-- A path reads as shown, if something is, or if it is not named like a staged file. -/
theorem read {path : Path} (h : f.Shows view d.root)
    (hpath : (∀ n, path.fields.getLast? ≠ some (Disk.stagedName n)) ∨
      (view.read (d.root.place? path)).isSome) :
    d.read path = view.read (d.root.place? path) := by
  rw [Disk.read_eq]
  cases h with
  | idle _ _ hroot => rw [hroot]
  | ready _ _ _ _ hroot => exact hroot.read_place? hpath

/-- Dropping an output file leaves what was shown. -/
theorem drop {g : OutputFile} (h : f.Shows view d.root)
    (hrun : (f.drop : StateM Disk OutputFile).run d = (g, d')) :
    g.staged = none ∧ d'.root.entryAt? = view := by
  rw [run_drop] at hrun
  cases h with
  | idle _ hstaged hroot =>
    rw [hstaged] at hrun
    obtain ⟨rfl, rfl⟩ := Prod.mk.inj hrun
    exact ⟨hstaged, hroot⟩
  | ready _ staged hstaged bytes hroot =>
    rw [hstaged] at hrun
    obtain ⟨rfl, rfl⟩ := Prod.mk.inj hrun
    exact ⟨rfl, hroot.remove⟩

theorem prepare (h : f.Shows view d.root)
    (hrun : (f.prepare : StateM Disk _).run d = ((answer, f'), d')) :
    f'.path = f.path ∧ f'.Shows view d'.root := by
  rw [run_prepare] at hrun
  cases h with
  | ready hstatus staged hstaged bytes hroot =>
    rw [if_pos hstatus] at hrun
    cases hrun
    exact ⟨rfl, .ready hstatus staged hstaged bytes hroot⟩
  | idle hstatus hstaged hroot =>
    rw [if_neg hstatus] at hrun
    rcases hstage : d.stage f.directory with ⟨staged?, d₁⟩
    rw [hstage] at hrun
    obtain ⟨rfl, hroot₁⟩ | ⟨staged, rfl, hroot₁⟩ := Disk.stage_cases hstage
    · cases hrun
      exact ⟨rfl, .idle (by simp) hstaged (by rw [hroot₁, hroot])⟩
    · simp only [run_drop, hstaged] at hrun
      cases hrun
      exact ⟨rfl, .ready rfl staged rfl [] (hroot ▸ hroot₁)⟩

theorem write {bytes : Bytes} (h : f.Shows view d.root)
    (hrun : (f.write bytes : StateM Disk _).run d = ((answer, f'), d')) :
    f'.path = f.path ∧ ∃ after,
      view.Replaced (d.root.place? f.path) ((Call.write bytes).written? answer) after ∧
        f'.Shows after d'.root := by
  rw [run_write] at hrun
  cases h with
  | idle hstatus hstaged hroot =>
    rw [hstaged] at hrun
    cases hrun
    exact ⟨rfl, view, rfl, .idle hstatus hstaged hroot⟩
  | ready hstatus staged hstaged old hroot =>
    rw [hstaged] at hrun
    rcases hdeliver : (deliver staged f.path bytes : StateM Disk Bool).run d with ⟨done, d₁⟩
    simp only [hdeliver] at hrun
    obtain ⟨rfl, hreplaced⟩ | ⟨rfl, left, hleft⟩ := deliver_cases hroot hdeliver
    · cases hrun
      exact ⟨rfl, _, hreplaced, .idle (by simp) rfl rfl⟩
    · cases hrun
      exact ⟨rfl, view, rfl, .idle (by simp) rfl hleft.remove⟩

/-- A call replaces the file at the destination by the artifact that it wrote, and changes no file
if it wrote none. -/
theorem perform {call : Call} (h : f.Shows view d.root)
    (hrun : (call.perform f : StateM Disk _).run d = ((answer, f'), d')) :
    f'.path = f.path ∧ ∃ after,
      view.Replaced (d.root.place? f.path) (call.written? answer) after ∧
        f'.Shows after d'.root := by
  cases call with
  | prepare =>
    obtain ⟨hpath, hshows⟩ := h.prepare hrun
    exact ⟨hpath, view, rfl, hshows⟩
  | write bytes => exact h.write hrun

theorem performAll {calls : List Call} {log : List (Call × Answer)} (h : f.Shows view d.root)
    (hrun : (performAll calls f : StateM Disk _).run d = ((log, f'), d')) :
    log.map Prod.fst = calls ∧ ∃ after,
      view.Replaced (d.root.place? f.path) (written log) after ∧ f'.Shows after d'.root := by
  induction calls generalizing f d view log with
  | nil =>
    cases hrun
    exact ⟨rfl, view, rfl, h⟩
  | cons call calls ih =>
    rw [run_performAll_cons] at hrun
    rcases hcall : (call.perform f : StateM Disk _).run d with ⟨⟨answer, f₁⟩, d₁⟩
    rcases hrest : (OutputFile.performAll calls f₁ : StateM Disk _).run d₁ with ⟨⟨log₁, f₂⟩, d₂⟩
    simp only [hcall, hrest] at hrun
    cases hrun
    obtain ⟨hpath, middle, hmiddle, hshows⟩ := h.perform hcall
    obtain ⟨hlog, after, hafter, hshows'⟩ := ih hshows hrest
    have hplace : d₁.root.place? f₁.path = d.root.place? f.path := by
      rw [hpath]
      refine Tree.place?_congr (fun q => ?_) f.path
      exact (hshows.sameDirs q).trans ((hmiddle.sameDirs q).trans (h.sameDirs q).symm)
    rw [hplace] at hafter
    exact ⟨congrArg _ hlog, after, hmiddle.trans hafter, hshows'⟩

end Shows

/-! ### What any calls keep -/

/-- Whatever is called, and whatever the file system refuses, the files are those from before with
the last artifact that was written at the destination.  Besides there is a staged file, exactly
while the output file is ready, and none once the output file is dropped.  So the destination reads
as that artifact, or as it did before; only a destination that holds nothing, and has the name of a
staged file, could be read as the staged file meanwhile. -/
theorem replaced_at_once (path : Path) (disk : Disk) (calls : List Call) :
    let run := (performAll calls { path } : StateM Disk _).run disk
    let log := run.1.1
    let file := run.1.2
    let now := run.2
    let dropped := (file.drop : StateM Disk OutputFile).run now
    log.map Prod.fst = calls ∧
      (∃ after, disk.root.entryAt?.Replaced (disk.root.place? path) (written log) after ∧
        file.Shows after now.root ∧
        dropped.1.staged = none ∧ dropped.2.root.entryAt? = after) ∧
      ((∀ n, path.fields.getLast? ≠ some (Disk.stagedName n)) ∨
          ((written log).or (disk.read path)).isSome →
        now.read path = (written log).or (disk.read path)) ∧
      dropped.2.read path = (written log).or (disk.read path) := by
  intro run log file now dropped
  have hstart : Shows { path } disk.root.entryAt? disk.root := .idle (by simp) rfl rfl
  obtain ⟨hlog, after, hafter, hshows⟩ := hstart.performAll (show _ = ((log, file), now) from rfl)
  obtain ⟨hstaged, hdropped⟩ := hshows.drop (show _ = (dropped.1, dropped.2) from rfl)
  refine ⟨hlog, ⟨after, hafter, hshows, hstaged, hdropped⟩, fun hpath => ?_, ?_⟩
  · have hread := Disk.read_of_replaced hafter hshows.sameDirs
    rw [← hread] at hpath ⊢
    exact hshows.read hpath
  · rw [Disk.read_eq, hdropped]
    exact Disk.read_of_replaced hafter (hdropped ▸ fun _ => Iff.rfl)

/-- A second artifact needs another preparation, and a refused renaming leaves the first. -/
example :
    let run := (performAll [.write [1], .prepare, .write [2], .write [3], .prepare, .write [4]]
      { path := "a" } : StateM Disk _).run { refuses := fun n => n == 7 }
    run.1.1.map (fun (_, answer) => answer.toBool) = [false, true, true, false, true, false] ∧
      run.2.read "a" = some [2] := by
  decide +kernel

end Sink.OutputFile

end ComputeScript
