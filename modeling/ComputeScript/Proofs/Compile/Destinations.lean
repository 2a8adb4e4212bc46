import ComputeScript.Proofs.Compile.Deliveries
import ComputeScript.Proofs.Compile.Preservation

/-!
# What streams and files hold in the end

A stream or an output file that nothing but compilations touch gets at most one artifact
(`delivered_at_most_once`).  Of a writer it is assumed that it appends what it is given, or the
beginning of it where it fails (`Writer.Appends`); of what else happens in the world, that it spares
the sink.
-/

namespace ComputeScript

variable {ω σ τ : Type}

/-- Of what a writer is given, all is appended to what it has received, or where it fails only the
beginning. -/
structure Writer.Appends (w : Writer τ Id) (received : τ → Bytes) : Prop where
  put : ∀ bytes writer,
    match (w.put bytes).run.run writer with
    | (.ok (), writer') => received writer' = received writer ++ bytes
    | (.error _, writer') => ∃ sent, sent <+: bytes ∧ received writer' = received writer ++ sent
  flush : ∀ writer, received (w.flush.run.run writer).2 = received writer

namespace Sink

/-- The sink is open and has a preparation that succeeds, and after that it takes every artifact
that is granted. -/
def CanDeliver (sink : Sink (StateM ω)) (granted : Bytes → Prop) (holds : Bytes → ω → Prop)
    (w : ω) : Prop :=
  (sink.state.run w).1.isOpen ∧
    ∃ prepared, sink.prepare.run.run (sink.state.run w).2 = (.ok (), prepared) ∧
      ∀ artifact, granted artifact →
        ∃ w', (sink.write artifact).run.run prepared = (.ok (), w') ∧ holds artifact w'

theorem eq_of_map_id_eq {part : ω → σ} {α : Type} {r : α × ω} {a : α} {s : σ}
    (h : Prod.map id part r = (a, s)) : ∃ w, r = (a, w) ∧ part w = s := by
  obtain ⟨a', w⟩ := r
  cases h
  exact ⟨w, rfl, rfl⟩

theorem LivesIn.canDeliver {sink : Sink (StateM ω)} {part : ω → σ} {inner : Sink (StateM σ)}
    {granted : Bytes → Prop} {holds : Bytes → σ → Prop} {w : ω} (hlives : sink.LivesIn part inner)
    (h : inner.CanDeliver granted holds (part w)) :
    sink.CanDeliver granted (fun artifact w => holds artifact (part w)) w := by
  obtain ⟨hopen, s, hprepare, hwrite⟩ := h
  rcases hasked : inner.state.run (part w) with ⟨state, asked⟩
  rw [hasked] at hopen hprepare
  obtain ⟨w₁, hstate, rfl⟩ := eq_of_map_id_eq ((hlives.state w).trans hasked)
  obtain ⟨w₂, hprepared, rfl⟩ := eq_of_map_id_eq ((hlives.prepare w₁).trans hprepare)
  rw [CanDeliver, hstate]
  refine ⟨hopen, w₂, hprepared, fun artifact hgranted => ?_⟩
  obtain ⟨s, hrun, hholds⟩ := hwrite artifact hgranted
  obtain ⟨w₃, hwritten, rfl⟩ := eq_of_map_id_eq ((hlives.write artifact w₂).trans hrun)
  exact ⟨w₃, hwritten, hholds⟩

/-! ### Streams -/

namespace Stream

variable {w : Writer τ Id} {received : τ → Bytes}

/-- A writer receives an artifact as far as it does not fail. -/
theorem received_handOver (h : w.Appends received) (bytes : Bytes) (writer : τ) :
    match handOver w bytes writer with
    | (.ok (), writer') => received writer' = received writer ++ bytes
    | (.error _, writer') =>
      ∃ sent, sent <+: bytes ∧ received writer' = received writer ++ sent := by
  have hput := h.put bytes writer
  rcases hrun : (w.put bytes).run.run writer with ⟨fault | ⟨⟩, writer₁⟩ <;> rw [hrun] at hput
  · have hfailed : handOver w bytes writer = (.error fault, writer₁) :=
      run_run_bind_of_error (m := Id) hrun _
    rw [hfailed]
    exact hput
  · have hflush := h.flush writer₁
    have hdone : handOver w bytes writer = w.flush.run.run writer₁ :=
      run_run_bind_of_ok (m := Id) hrun _
    rw [hdone]
    rcases hrun' : w.flush.run.run writer₁ with ⟨fault | ⟨⟩, writer₂⟩ <;> rw [hrun'] at hflush
    · exact ⟨bytes, List.prefix_rfl, hflush.trans hput⟩
    · exact hflush.trans hput

/-- What the writer of a stream has received, that had received something before. -/
def destination (sink : Sink (StateM ω)) (part : ω → Stream τ) (w : Writer τ Id)
    (received : τ → Bytes) (writer : τ) : Destination ω where
  able := sink.CanDeliver (fun artifact => (handOver w artifact writer).1 = .ok ())
    fun artifact x => received (part x).writer = received writer ++ artifact
  untouched x := (part x).writer = writer
  holds artifact x := received (part x).writer = received writer ++ artifact
  spoilt artifact x :=
    ∃ sent, sent <+: artifact ∧ received (part x).writer = received writer ++ sent

theorem canDeliver (h : w.Appends received) (writer : τ) :
    (stream w).CanDeliver (fun artifact => (handOver w artifact writer).1 = .ok ())
      (fun artifact s => received s.writer = received writer ++ artifact) { writer } := by
  refine ⟨rfl, { writer }, rfl, fun artifact hgranted => ?_⟩
  dsimp only at hgranted ⊢
  have hreceived := received_handOver h artifact writer
  have hrun := perform_write w artifact { writer }
  rw [Sink.perform] at hrun
  rcases hanswer : handOver w artifact writer with ⟨_, writer'⟩
  rw [hanswer] at hgranted hreceived hrun
  obtain rfl := hgranted
  exact ⟨_, hrun, hreceived⟩

theorem shown {sink : Sink (StateM ω)} {part : ω → Stream τ}
    (hlives : sink.LivesIn part (stream w)) (h : w.Appends received) (writer : τ) :
    Phase.Shown (fun phase x => Stands w writer phase (part x))
      (destination sink part w received writer) where
  able {x} hat := by
    have hcan := canDeliver h writer
    rw [← show part x = { writer } from hat] at hcan
    exact hlives.canDeliver hcan
  untouched {phase x} hat hphase := by
    cases phase with
    | fresh | prepared => exact congrArg Stream.writer hat
    | refused => exact hat.elim
    | took | lost => rcases hphase with h | h <;> cases h
  holds {x bytes} hat := by
    obtain ⟨hok, hpart⟩ := hat
    have hreceived := received_handOver h bytes writer
    rcases hanswer : handOver w bytes writer with ⟨_, writer'⟩
    rw [hanswer] at hok hpart hreceived
    obtain rfl := hok
    show received (part x).writer = _
    rw [hpart]
    exact hreceived
  spoilt {x bytes} hat := by
    obtain ⟨hfailed, hpart⟩ := hat
    have hreceived := received_handOver h bytes writer
    rcases hanswer : handOver w bytes writer with ⟨fault | _, writer'⟩ <;>
      rw [hanswer] at hfailed hpart hreceived
    · show ∃ sent, sent <+: bytes ∧ received (part x).writer = _
      rw [hpart]
      exact hreceived
    · cases hfailed

end Stream

/-! ### Output files -/

namespace OutputFile

/-- What the path of an output file reads as, that read as `original` before.  An artifact is
granted if the file system refuses no operation and the path leads to no directory. -/
def destinationAt (sink : Sink (StateM ω)) (part : ω → OutputFile × Disk) (path : Path)
    (original : Option Bytes) : Destination ω where
  able x := sink.CanDeliver (fun _ => Grants (part x).2 3 ∧ TakesFile (part x).2 path)
    (fun artifact x' => Holds path (some artifact) (part x')) x
  untouched x := Holds path original (part x)
  holds artifact x := Holds path (some artifact) (part x)
  spoilt _ x := Holds path original (part x)

variable {path : Path} {original : Option Bytes} {x : OutputFile × Disk}

theorem Stands.canDeliver (h : Stands path original .prepared x) :
    onDisk.CanDeliver (fun _ => Grants x.2 3 ∧ TakesFile x.2 path)
      (fun artifact x' => Holds path (some artifact) x') x := by
  have hready : x.1.status = .ready := h.status
  refine ⟨?_, x, ?_, fun artifact ⟨hgrants, htakes⟩ => ?_⟩
  · show x.1.status.isOpen
    rw [hready]
    rfl
  · refine run_onDisk_prepare ?_
    rw [run_prepare, if_pos hready]
  · have hok := h.write_isOk hgrants htakes artifact
    rcases hrun : (x.1.write artifact : StateM Disk _).run x.2 with ⟨⟨answer, f'⟩, d'⟩
    rw [hrun] at hok
    obtain rfl : answer = .ok () := hok
    have hstands : Stands path original _ (f', d') := h.write hrun
    exact ⟨(f', d'), run_onDisk_write hrun, hstands.holds⟩

theorem shown {sink : Sink (StateM ω)} {part : ω → OutputFile × Disk}
    (hlives : sink.LivesIn part onDisk) (path : Path) (original : Option Bytes) :
    Phase.Shown (fun phase x => Stands path original phase (part x))
      (destinationAt sink part path original) where
  able hat := hlives.canDeliver hat.canDeliver
  untouched hat hphase := by
    rw [← Phase.content_eq hphase original]
    exact hat.holds
  holds hat := hat.holds
  spoilt hat := hat.holds

end OutputFile

/-! ### Both -/

theorem LivesIn.part_state {sink : Sink (StateM ω)} {part : ω → σ} {inner : Sink (StateM σ)}
    (h : sink.LivesIn part inner) (hinner : ∀ s, (inner.state.run s).2 = s) (w : ω) :
    part (sink.state.run w).2 = part w := by
  rw [← hinner (part w), ← h.state w]
  rfl

/-- Into a stream that is touched by nothing else, compilations deliver at most one artifact, and
so they do into an output file.  Whatever fails, those before it leave the sink able to take an
artifact, those after it are refused, and what is there in the end is that artifact, or what was
there before, or of a stream the beginning of one artifact. -/
theorem delivered_at_most_once :
    (∀ (ω τ : Type) (sink : Sink (StateM ω)) (part : ω → Stream τ) (writer : Writer τ Id)
      (received : τ → Bytes) (jobs : List (Job ω)) (w : ω) (start : τ),
      sink.LivesIn part (stream writer) → writer.Appends received →
      (∀ job ∈ jobs, job.hooks.Within fun x x' => part x' = part x) →
      part w = { writer := start } →
        DeliversOnce sink part (Stream.destination sink part writer received start) jobs w) ∧
    ∀ (ω : Type) (sink : Sink (StateM ω)) (part : ω → OutputFile × Disk) (jobs : List (Job ω))
      (w : ω) (path : Path) (disk : Disk),
      sink.LivesIn part OutputFile.onDisk →
      (∀ job ∈ jobs, job.hooks.Within fun x x' => OutputFile.Spared (part x) (part x')) →
      part w = ({ path }, disk) →
        DeliversOnce sink part (OutputFile.destinationAt sink part path (disk.read path)) jobs
          w := by
  constructor
  · intro ω τ sink part writer received jobs w start hlives happends hhooks hstart
    have hcourse := Course.of_livesIn hlives (Stream.course writer start)
    have hfresh : Stream.Stands writer start .fresh (part w) := hstart
    exact hcourse.deliversOnce (hlives.part_state fun _ => rfl)
      (Stream.shown hlives happends start) hhooks hfresh rfl
  · intro ω sink part jobs w path disk hlives hhooks hstart
    have hcourse := Course.of_livesIn hlives (OutputFile.course path (disk.read path))
    have hfresh : OutputFile.Stands path (disk.read path) .fresh (part w) :=
      hstart ▸ OutputFile.stands_fresh path disk
    exact hcourse.deliversOnce (hlives.part_state fun _ => rfl)
      (OutputFile.shown hlives path (disk.read path)) hhooks hfresh rfl

/-- Compilations of a script about whose exports nothing is said, and twice of one that can be
compiled. -/
def attempts : List (Job ω) :=
  let machine := Compiler.sampleCompiler.machine.get rfl
  let hooks := .script ExportTable.entryPoints
  [{ machine, hooks, script := { module := { id := "bare" } } },
   { machine, hooks, script := Compiler.sample },
   { machine, hooks, script := Compiler.sample }]

theorem delivered_at_most_once_attempts :
    (reports (stream (memory (m := Id))) attempts { writer := [] }).map Report.result =
        [.error (.hook ⟨.lto, .beforeAdd⟩), .ok (), .error .usedSink] ∧
      DeliversOnce (stream (memory (m := Id))) id
        (Stream.destination (stream memory) id memory id []) attempts { writer := [] } ∧
      (reports OutputFile.onDisk attempts ({ path := "a" }, {})).map Report.result =
        [.error (.hook ⟨.lto, .beforeAdd⟩), .ok (), .error .usedSink] ∧
      DeliversOnce OutputFile.onDisk id (OutputFile.destinationAt OutputFile.onDisk id "a" none)
        attempts ({ path := "a" }, {}) := by
  refine ⟨by decide +kernel, ?_, by decide +kernel, ?_⟩
  · refine delivered_at_most_once.1 _ _ _ id memory id attempts _ [] (livesIn_self _)
      ⟨fun _ _ => rfl, fun _ => rfl⟩ ?_ rfl
    simp only [attempts, List.forall_mem_cons]
    have h := Hooks.within_script (fun x x' : Stream Bytes => id x' = id x) (fun _ => rfl)
      ExportTable.entryPoints
    exact ⟨h, h, h, fun _ hj => absurd hj List.not_mem_nil⟩
  · refine delivered_at_most_once.2 _ _ id attempts _ "a" {} (livesIn_self _) ?_ rfl
    simp only [attempts, List.forall_mem_cons]
    have h := Hooks.within_script
      (fun x x' : OutputFile × Disk => OutputFile.Spared (id x) (id x'))
      (OutputFile.course "a" none).refl ExportTable.entryPoints
    exact ⟨h, h, h, fun _ hj => absurd hj List.not_mem_nil⟩

end Sink

end ComputeScript
