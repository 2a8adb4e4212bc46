import ComputeScript.Proofs.Sink.Turns

/-!
# How far a sink has come

A sink that is touched by nothing but compilations goes through few phases: it is fresh, then
prepared, and then it has taken an artifact or has failed for good (`Sink.Phase`).  `Sink.Course`
says of predicates for the phases that the calls of a compilation lead from one to the next, and
that whatever else happens in the world keeps each of them.  Streams and output files have such
predicates (`Stream.course`, `OutputFile.course`), also where they are a part of a larger world
(`Sink.LivesIn`).
-/

namespace ComputeScript

namespace Sink

variable {ω σ : Type}

/-- How far a sink has come. -/
inductive Phase where
  /-- it was asked for nothing but its state -/
  | fresh
  | prepared
  /-- it could not be prepared -/
  | refused
  /-- it has taken an artifact -/
  | took (artifact : Bytes)
  /-- an artifact could not be written -/
  | lost (artifact : Bytes)

namespace Phase

/-- Whether a sink in this phase can still take an artifact. -/
def isOpen : Phase → Bool
  | fresh => true
  | prepared => true
  | _ => false

/-- The state that a file in this phase reports. -/
def status : Phase → SinkState
  | fresh => .unprepared
  | prepared => .ready
  | took _ => .finalized
  | refused => .failed
  | lost _ => .failed

/-- What a destination holds in this phase that held `original` at first. -/
def content (original : Option Bytes) : Phase → Option Bytes
  | took artifact => some artifact
  | _ => original

theorem isOpen_status (phase : Phase) : phase.status.isOpen = phase.isOpen := by
  cases phase <;> rfl

/-- Until it takes an artifact, a sink leaves its destination alone. -/
theorem content_eq {phase : Phase} (h : phase.isOpen = true ∨ phase = .refused)
    (original : Option Bytes) : phase.content original = original := by
  cases phase with
  | fresh | prepared | refused | lost => rfl
  | took => rcases h with h | h <;> cases h

end Phase

/-- The phases of a sink in a world in which others may do what `others` says. -/
structure Course (sink : Sink (StateM ω)) (others : ω → ω → Prop) (At : Phase → ω → Prop) :
    Prop where
  refl : ∀ w, others w w
  others : ∀ {phase w w'}, At phase w → others w w' → At phase w'
  state : ∀ {phase w}, At phase w →
    (sink.state.run w).1.isOpen = phase.isOpen ∧ At phase (sink.state.run w).2
  prepare : ∀ {phase w}, At phase w → phase.isOpen = true →
    match sink.prepare.run.run w with
    | (.ok (), w') => At .prepared w'
    | (.error _, w') => At .refused w'
  write : ∀ {w} bytes, At .prepared w →
    match (sink.write bytes).run.run w with
    | (.ok (), w') => At (.took bytes) w'
    | (.error _, w') => At (.lost bytes) w'

/-- A sink acts on a part of the world as another one does that has nothing else. -/
structure LivesIn (sink : Sink (StateM ω)) (part : ω → σ) (inner : Sink (StateM σ)) : Prop where
  state : ∀ w, Prod.map id part (sink.state.run w) = inner.state.run (part w)
  prepare : ∀ w, Prod.map id part (sink.prepare.run.run w) = inner.prepare.run.run (part w)
  write : ∀ bytes w,
    Prod.map id part ((sink.write bytes).run.run w) = (inner.write bytes).run.run (part w)

theorem livesIn_self (sink : Sink (StateM ω)) : sink.LivesIn id sink :=
  ⟨fun _ => rfl, fun _ => rfl, fun _ _ => rfl⟩

/-- The phases of a part of the world. -/
theorem Course.of_livesIn {sink : Sink (StateM ω)} {part : ω → σ} {inner : Sink (StateM σ)}
    {others : σ → σ → Prop} {At : Phase → σ → Prop} (hlives : sink.LivesIn part inner)
    (h : inner.Course others At) :
    sink.Course (fun w w' => others (part w) (part w')) fun phase w => At phase (part w) where
  refl w := h.refl (part w)
  others := h.others
  state {phase w} hat := by
    have hstate := h.state hat
    rw [← hlives.state w] at hstate
    exact hstate
  prepare {phase w} hat hopen := by
    have hprepare := h.prepare hat hopen
    rw [← hlives.prepare w] at hprepare
    rcases hrun : sink.prepare.run.run w with ⟨_ | ⟨⟩, w'⟩ <;> rw [hrun] at hprepare <;>
      exact hprepare
  write {w} bytes hat := by
    have hwrite := h.write bytes hat
    rw [← hlives.write bytes w] at hwrite
    rcases hrun : (sink.write bytes).run.run w with ⟨_ | ⟨⟩, w'⟩ <;> rw [hrun] at hwrite <;>
      exact hwrite

/-! ### Streams -/

namespace Stream

variable {τ : Type} (w : Writer τ Id) (writer : τ)

/-- A stream in a phase, whose writer was `writer` at first. -/
def Stands : Phase → Stream τ → Prop
  | .fresh, s => s = { writer }
  | .prepared, s => s = { writer }
  | .refused, _ => False
  | .took bytes, s =>
    (handOver w bytes writer).1 = .ok () ∧ s = ⟨.finalized, (handOver w bytes writer).2⟩
  | .lost bytes, s =>
    (handOver w bytes writer).1.isOk = false ∧ s = ⟨.failed, (handOver w bytes writer).2⟩

theorem course : (stream w).Course (fun s s' => s' = s) (Stands w writer) where
  refl _ := rfl
  others hat hsame := hsame ▸ hat
  state {phase s} hat := by
    refine ⟨?_, hat⟩
    show s.status.isOpen = phase.isOpen
    cases phase with
    | fresh | prepared => rw [show s = _ from hat]; rfl
    | refused => exact hat.elim
    | took bytes | lost bytes => rw [hat.2]; rfl
  prepare {phase s} hat hopen := by
    show Stands w writer .prepared s
    cases phase with
    | fresh | prepared => exact hat
    | _ => cases hopen
  write {s} bytes hat := by
    obtain rfl : s = { writer } := hat
    have hrun := perform_write w bytes { writer }
    rw [perform] at hrun
    rw [hrun]
    rcases hanswer : (handOver w bytes writer).1 with fault | ⟨⟩
    · exact ⟨by rw [hanswer]; rfl, rfl⟩
    · exact ⟨hanswer, rfl⟩

end Stream

/-! ### Output files -/

end Sink

namespace Sink.OutputFile

open ComputeScript.Tree (View)

/-- An output file in a phase, with a path that read as `original` at first. -/
structure Stands (path : Path) (original : Option Bytes) (phase : Phase) (x : OutputFile × Disk) :
    Prop where
  path_eq : x.1.path = path
  status : x.1.status = phase.status
  shows : ∃ view, x.1.Shows view x.2.root ∧
    view.read (x.2.root.place? path) = phase.content original

/-- To a path, one disk is like another. -/
structure LikeAt (d d' : Disk) (path : Path) : Prop where
  place : d'.root.place? path = d.root.place? path
  entry : ∀ place, d.root.place? path = some place →
    d'.root.entryAt? place = d.root.entryAt? place

/-- An output file and its disk after something else has happened, which has spared the file, its
destination and its staged file. -/
structure Spared (x x' : OutputFile × Disk) : Prop where
  file : x'.1 = x.1
  destination : LikeAt x.2 x'.2 x.1.path
  staged : ∀ staged, x.1.staged = some staged → LikeAt x.2 x'.2 staged

theorem LikeAt.read {d d' : Disk} {path : Path} (h : LikeAt d d' path) :
    View.read d'.root.entryAt? (d'.root.place? path) =
      View.read d.root.entryAt? (d.root.place? path) := by
  rw [h.place]
  rcases hplace : d.root.place? path with _ | place
  · rfl
  · rw [View.read, View.read, Option.bind_some, Option.bind_some, h.entry place hplace]

variable {path : Path} {original : Option Bytes} {phase : Phase} {x x' : OutputFile × Disk}

/-- Where the staged file is still there, the rest of a disk is still a view without it. -/
theorem stagedBeside_of_likeAt {d d' : Disk} {view : View} {staged : Path} {bytes : Bytes}
    (hroot : d.root.StagedBeside view staged bytes) (hstaged : LikeAt d d' staged)
    (hdestination : LikeAt d d' path) :
    ∃ view', d'.root.StagedBeside view' staged bytes ∧
      view'.read (d'.root.place? path) = view.read (d.root.place? path) := by
  obtain ⟨place, n, hplace, hlast, hfree, hentries⟩ := hroot
  have hfile : d'.root.entryAt? place = some (.file bytes) := by
    rw [hstaged.entry place hplace, hentries, Function.update_self]
  refine ⟨Function.update d'.root.entryAt? place none,
    ⟨place, n, by rw [hstaged.place, hplace], hlast, Function.update_self .., ?_⟩, ?_⟩
  · rw [Function.update_idem, ← hfile, Function.update_eq_self]
  · rw [hdestination.place]
    rcases hpath : d.root.place? path with _ | other
    · rfl
    · rw [View.read, View.read, Option.bind_some, Option.bind_some]
      by_cases hother : other = place
      · rw [hother, Function.update_self, hfree]
      · rw [Function.update_of_ne hother, hdestination.entry other hpath, hentries,
          Function.update_of_ne hother]

theorem Stands.others (h : Stands path original phase x) (hspared : Spared x x') :
    Stands path original phase x' := by
  obtain ⟨f, d⟩ := x
  obtain ⟨f', d'⟩ := x'
  obtain ⟨rfl, hstatus, view, hshows, hread⟩ := h
  obtain ⟨hfile, hdestination, hstaged⟩ := hspared
  obtain rfl : f' = f := hfile
  refine ⟨rfl, hstatus, ?_⟩
  cases hshows with
  | idle hidle hnone hroot =>
    refine ⟨_, .idle hidle hnone rfl, ?_⟩
    rw [hdestination.read, hroot, hread]
  | ready hready staged hsome bytes hroot =>
    obtain ⟨view', hroot', hread'⟩ :=
      stagedBeside_of_likeAt hroot (hstaged staged hsome) hdestination
    exact ⟨view', .ready hready staged hsome bytes hroot', hread'.trans hread⟩

/-- What is read at the destination does not change while the directories are the same. -/
theorem Stands.of_shows {f : OutputFile} {d d' : Disk} {view : View}
    (hdirs : Tree.SameDirs d'.root.entryAt? d.root.entryAt?) (hstatus : f.status = phase.status)
    (hshows : f.Shows view d'.root)
    (hread : view.read (d.root.place? f.path) = phase.content original) :
    Stands f.path original phase (f, d') :=
  ⟨rfl, hstatus, view, hshows, by rw [Tree.place?_congr hdirs, hread]⟩

/-- A preparation that is answered with success leaves a file ready, and failed otherwise. -/
theorem status_of_prepare {f f' : OutputFile} {d d' : Disk} {answer : Answer}
    (hrun : (f.prepare : StateM Disk _).run d = ((answer, f'), d')) :
    f'.status = if answer.isOk then .ready else .failed := by
  rw [run_prepare] at hrun
  split_ifs at hrun with hready
  · cases hrun
    exact hready
  · rcases hstage : d.stage f.directory with ⟨_ | staged, d₁⟩ <;> rw [hstage] at hrun <;>
      cases hrun <;> rfl

theorem Stands.prepare (h : Stands path original phase x) (hopen : phase.isOpen = true)
    {answer : Answer} (hrun : (x.1.prepare : StateM Disk _).run x.2 = ((answer, x'.1), x'.2)) :
    Stands path original (if answer.isOk then .prepared else .refused) x' := by
  obtain ⟨f, d⟩ := x
  obtain ⟨f', d'⟩ := x'
  obtain ⟨rfl, -, view, hshows, hread⟩ := h
  obtain ⟨hpath, hshows'⟩ := hshows.prepare hrun
  rw [← show f'.path = f.path from hpath]
  refine .of_shows (d := d) ?_ ?_ hshows' ?_
  · exact fun q => (hshows'.sameDirs q).trans (hshows.sameDirs q).symm
  · rw [status_of_prepare hrun]
    split_ifs <;> rfl
  · rw [hpath, hread, Phase.content_eq (.inl hopen)]
    split_ifs <;> rfl

/-- A write to a file that is ready leaves it finalized, or failed. -/
theorem status_of_write {f f' : OutputFile} {d d' : Disk} {bytes : Bytes} {answer : Answer}
    (hstaged : f.staged.isSome) (hrun : (f.write bytes : StateM Disk _).run d = ((answer, f'), d')) :
    f'.status = .ofResult answer := by
  obtain ⟨staged, hstaged⟩ := Option.isSome_iff_exists.1 hstaged
  rw [run_write, hstaged] at hrun
  dsimp only at hrun
  rcases hdeliver : (deliver staged f.path bytes : StateM Disk Bool).run d with ⟨_ | _, d₁⟩ <;>
    rw [hdeliver] at hrun <;> cases hrun <;> rfl

theorem Stands.write {bytes : Bytes} (h : Stands path original .prepared x) {answer : Answer}
    (hrun : (x.1.write bytes : StateM Disk _).run x.2 = ((answer, x'.1), x'.2)) :
    Stands path original (if answer.isOk then .took bytes else .lost bytes) x' := by
  obtain ⟨f, d⟩ := x
  obtain ⟨f', d'⟩ := x'
  obtain ⟨rfl, hstatus, view, hshows, hread⟩ := h
  obtain ⟨hpath, after, hafter, hshows'⟩ := hshows.write hrun
  have hstaged : f.staged.isSome := by
    cases hshows with
    | idle hidle => exact absurd hstatus hidle
    | ready _ staged hstaged => rw [hstaged]; rfl
  rw [← show f'.path = f.path from hpath]
  refine .of_shows (d := d) ?_ ?_ hshows' ?_
  · exact fun q => (hshows'.sameDirs q).trans ((hafter.sameDirs q).trans (hshows.sameDirs q).symm)
  · rw [status_of_write hstaged hrun]
    rcases answer with _ | ⟨⟩ <;> rfl
  · rw [hpath, hafter.read, show view.read (d.root.place? f.path) = original from hread]
    rcases answer with _ | ⟨⟩ <;> rfl

/-- An output file goes through the phases. -/
theorem course (path : Path) (original : Option Bytes) :
    onDisk.Course Spared (Stands path original) where
  refl x := ⟨rfl, ⟨rfl, fun _ _ => rfl⟩, fun _ _ => ⟨rfl, fun _ _ => rfl⟩⟩
  others := Stands.others
  state {phase x} hat := by
    refine ⟨?_, hat⟩
    rw [← phase.isOpen_status, ← hat.status]
    rfl
  prepare {phase x} hat hopen := by
    rcases hrun : (x.1.prepare : StateM Disk _).run x.2 with ⟨⟨answer, f'⟩, d'⟩
    have hstands : Stands path original _ (f', d') := hat.prepare hopen hrun
    rw [run_onDisk_prepare hrun]
    rcases answer with _ | ⟨⟩ <;> exact hstands
  write {x} bytes hat := by
    rcases hrun : (x.1.write bytes : StateM Disk _).run x.2 with ⟨⟨answer, f'⟩, d'⟩
    have hstands : Stands path original _ (f', d') := hat.write hrun
    rw [run_onDisk_write hrun]
    rcases answer with _ | ⟨⟩ <;> exact hstands

theorem stands_fresh (path : Path) (disk : Disk) :
    Stands path (disk.read path) .fresh ({ path }, disk) :=
  ⟨rfl, rfl, _, .idle (by simp) rfl rfl, (disk.read_eq path).symm⟩

/-- A path reads as `content`, and also once the output file is dropped.  Only where that is nothing,
a file that is staged under the name of the path could be read meanwhile. -/
structure Holds (path : Path) (content : Option Bytes) (x : OutputFile × Disk) : Prop where
  now : (∀ n, path.fields.getLast? ≠ some (Disk.stagedName n)) ∨ content.isSome →
    x.2.read path = content
  dropped : ((x.1.drop : StateM Disk OutputFile).run x.2).2.read path = content

theorem Stands.holds (h : Stands path original phase x) :
    Holds path (phase.content original) x := by
  obtain ⟨f, d⟩ := x
  obtain ⟨rfl, -, view, hshows, hread⟩ := h
  rcases hrun : (f.drop : StateM Disk OutputFile).run d with ⟨g, d'⟩
  obtain ⟨-, hdropped⟩ := hshows.drop hrun
  refine ⟨fun hpath => ?_, ?_⟩
  · rw [← hread] at hpath ⊢
    exact hshows.read hpath
  · rw [hrun, Disk.read_eq, hdropped, ← hread]
    refine congrArg view.read (Tree.place?_congr (fun q => ?_) f.path)
    rw [hdropped]
    exact (hshows.sameDirs q).symm

/-! ### What is needed to deliver -/

/-- The next operations of a file system are not refused, so many of them. -/
def Grants (d : Disk) (count : Nat) : Prop :=
  ∀ n < count, d.refuses (d.clock + n) = false

/-- A path leads somewhere, and to no directory. -/
def TakesFile (d : Disk) (path : Path) : Prop :=
  ∃ place, d.root.place? path = some place ∧ d.root.entryAt? place ≠ some .dir

/-- A staged file is delivered if nothing is refused and nothing is in the way. -/
theorem deliver_of_granted {staged target : Path} {bytes old : Bytes} {d : Disk} {view : View}
    (h : d.root.StagedBeside view staged old) (hgrants : Grants d 3)
    (htakes : TakesFile d target) :
    ((deliver staged target bytes : StateM Disk Bool).run d).1 = true := by
  obtain ⟨place, hplace, hfree⟩ := htakes
  obtain ⟨root, hput⟩ : ∃ root, d.root.put? staged bytes = some root := by
    obtain ⟨place, _, hstaged, -, -, hroot⟩ := h
    exact Tree.exists_put?_iff.2 ⟨place, hstaged, by simp [hroot]⟩
  have hfilled := h.put hput
  obtain ⟨root', hrename⟩ : ∃ root', (root.remove staged).put? target bytes = some root' := by
    have hdirs : Tree.SameDirs (root.remove staged).entryAt? d.root.entryAt? := by
      rw [hfilled.remove]
      exact fun q => (h.sameDirs q).symm
    refine Tree.exists_put?_iff.2 ⟨place, by rw [Tree.place?_congr hdirs, hplace], ?_⟩
    exact mt (hdirs place).1 hfree
  rw [run_deliver, Disk.change_of_granted (hgrants 0 (by decide)) hput]
  dsimp only
  rw [Disk.change_of_granted (hgrants 1 (by decide)) rfl]
  dsimp only
  rw [Disk.rename, Disk.change_of_granted (hgrants 2 (by decide)) (?_ : _ = some root')]
  rw [hfilled.find?]
  exact hrename

theorem Stands.write_isOk (h : Stands path original .prepared x) (hgrants : Grants x.2 3)
    (htakes : TakesFile x.2 path) (bytes : Bytes) :
    ((x.1.write bytes : StateM Disk _).run x.2).1.1 = .ok () := by
  obtain ⟨f, d⟩ := x
  obtain ⟨rfl, hstatus, view, hshows, -⟩ := h
  cases hshows with
  | idle hidle => exact absurd hstatus hidle
  | ready _ staged hstaged old hroot =>
    have hdeliver : ((deliver staged f.path bytes : StateM Disk Bool).run d).1 = true :=
      deliver_of_granted hroot hgrants htakes
    rw [run_write, hstaged]
    dsimp only at hdeliver ⊢
    generalize (deliver staged f.path bytes : StateM Disk Bool).run d = r at hdeliver
    obtain ⟨_ | _, d'⟩ := r
    · cases hdeliver
    · rfl

end Sink.OutputFile

end ComputeScript
