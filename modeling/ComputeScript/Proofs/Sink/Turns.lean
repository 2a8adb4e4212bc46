import ComputeScript.Proofs.Sink.OutputFile
import Mathlib.Data.List.Basic

/-!
# What the state of a sink tells

Calls to a sink come turn after turn, and the state that the sink reports should tell what has
happened: a call that fails leaves it failed, and a sink that is no longer open stays as it is and
takes nothing more (`Sink.TellsHistory`).  Turn by turn that is `Turn.Told`, on which everything
rests (`tellsHistory_iff_forall_told`).  Streams and output files do not look at their state in
every call, so it does not tell their history after every sequence of calls: it does exactly if no
call comes out of turn (`tellsHistory_iff`).
-/

namespace ComputeScript.Sink

open OutputFile (Call Answer)

variable {σ τ δ : Type}

/-! ### Calls to any sink -/

/-- A sink with a state of its own, as a sink whose state also holds all that it acts on. -/
def flat (sink : Sink (StateT τ (StateM σ))) : Sink (StateM (τ × σ)) where
  state := fun (t, s) =>
    let ((state, t), s) := (sink.state.run t).run s
    (state, (t, s))
  prepare := ExceptT.mk fun (t, s) =>
    let ((answer, t), s) := (sink.prepare.run.run t).run s
    (answer, (t, s))
  write bytes := ExceptT.mk fun (t, s) =>
    let ((answer, t), s) := ((sink.write bytes).run.run t).run s
    (answer, (t, s))

/-- The state that a sink reports. -/
def status (sink : Sink (StateM σ)) (s : σ) : SinkState :=
  (sink.state.run s).1

/-- Makes a call. -/
def perform (sink : Sink (StateM σ)) : Call → σ → Answer × σ
  | .prepare, s => sink.prepare.run.run s
  | .write bytes, s => (sink.write bytes).run.run s

/-- A call, what it answered, and what it found and left. -/
structure Turn (σ : Type) where
  before : σ
  call : Call
  answer : Answer
  after : σ

/-- Makes calls one after the other. -/
def turns (sink : Sink (StateM σ)) : List Call → σ → List (Turn σ)
  | [], _ => []
  | call :: calls, s =>
    let (answer, s') := sink.perform call s
    ⟨s, call, answer, s'⟩ :: turns sink calls s'

/-- What a sink reports and holds is the same in two states. -/
def Same (sink : Sink (StateM σ)) (held : σ → δ) (s s' : σ) : Prop :=
  sink.status s' = sink.status s ∧ held s' = held s

/-- The state that a sink reports tells the history of some calls: after one that failed it is
failed, and once the sink is not open any more, neither its state nor what it holds changes. -/
structure TellsHistory (sink : Sink (StateM σ)) (held : σ → δ) (calls : List Call) (s : σ) :
    Prop where
  failed : ∀ x ∈ sink.turns calls s, x.answer.isOk = false → sink.status x.after = .failed
  closed : (sink.turns calls s).Pairwise fun x y =>
    (sink.status x.after).isOpen = false → sink.Same held x.after y.after

/-- The state tells what happened in one turn. -/
structure Turn.Told (sink : Sink (StateM σ)) (held : σ → δ) (x : Turn σ) : Prop where
  failed : x.answer.isOk = false → sink.status x.after = .failed
  closed : (sink.status x.before).isOpen = false → sink.Same held x.before x.after

section

variable {sink : Sink (StateM σ)} {held : σ → δ} {calls : List Call} {s : σ}

theorem Same.trans {s s' s'' : σ} (h : sink.Same held s s') (h' : sink.Same held s' s'') :
    sink.Same held s s'' :=
  ⟨h'.1.trans h.1, h'.2.trans h.2⟩

/-- What every turn keeps, all turns keep: a sink that is closed is the same after each of them. -/
theorem same_of_forall_told (h : ∀ x ∈ sink.turns calls s, x.Told sink held)
    (hclosed : (sink.status s).isOpen = false) :
    ∀ x ∈ sink.turns calls s, sink.Same held s x.after := by
  induction calls generalizing s with
  | nil => exact fun x hx => absurd hx List.not_mem_nil
  | cons call calls ih =>
    obtain ⟨hfirst, hrest⟩ := List.forall_mem_cons.1 h
    have hsame := hfirst.closed hclosed
    refine List.forall_mem_cons.2 ⟨hsame, fun x hx => hsame.trans (ih hrest ?_ x hx)⟩
    exact hsame.1 ▸ hclosed

theorem tellsHistory_of_forall_told (h : ∀ x ∈ sink.turns calls s, x.Told sink held) :
    sink.TellsHistory held calls s := by
  refine ⟨fun x hx => (h x hx).failed, ?_⟩
  induction calls generalizing s with
  | nil => exact .nil
  | cons call calls ih =>
    obtain ⟨-, hrest⟩ := List.forall_mem_cons.1 h
    exact .cons (fun x hx hclosed => same_of_forall_told hrest hclosed x hx) (ih hrest)

/-- The first turn finds what was there at the start, and every other one what the turn before it
has left. -/
theorem TellsHistory.told (h : sink.TellsHistory held calls s)
    (hstart : (sink.status s).isOpen = false →
      ∀ x ∈ sink.turns calls s, sink.Same held s x.after) :
    ∀ x ∈ sink.turns calls s, x.Told sink held := by
  obtain ⟨hfailed, hclosed⟩ := h
  induction calls generalizing s with
  | nil => exact fun x hx => absurd hx List.not_mem_nil
  | cons call calls ih =>
    obtain ⟨hfirst, hfailed⟩ := List.forall_mem_cons.1 hfailed
    obtain ⟨hnext, hclosed⟩ := List.pairwise_cons.1 hclosed
    refine List.forall_mem_cons.2 ⟨⟨hfirst, fun h => hstart h _ List.mem_cons_self⟩, ?_⟩
    exact ih (fun h x hx => hnext x hx h) hfailed hclosed

/-- From an open sink on, the state tells a history if it tells what happened in every turn. -/
theorem tellsHistory_iff_forall_told (hopen : (sink.status s).isOpen = true) :
    sink.TellsHistory held calls s ↔ ∀ x ∈ sink.turns calls s, x.Told sink held :=
  ⟨fun h => h.told fun hclosed => Bool.noConfusion (hopen.symm.trans hclosed),
    tellsHistory_of_forall_told⟩

/-- An invariant of the calls to a sink holds before every turn. -/
theorem before_of_mem_turns {P : σ → Prop} (hstep : ∀ call s, P s → P (sink.perform call s).2)
    (hs : P s) : ∀ x ∈ sink.turns calls s, P x.before ∧ sink.perform x.call x.before =
      (x.answer, x.after) := by
  induction calls generalizing s with
  | nil => exact fun x hx => absurd hx List.not_mem_nil
  | cons call calls ih => exact List.forall_mem_cons.2 ⟨⟨hs, rfl⟩, ih (hstep call s hs)⟩

instance [DecidableEq δ] : Decidable (sink.TellsHistory held calls s) :=
  have : DecidableRel fun s s' => sink.Same held s s' :=
    fun _ _ => inferInstanceAs (Decidable (_ ∧ _))
  decidable_of_iff
    ((∀ x ∈ sink.turns calls s, x.answer.isOk = false → sink.status x.after = .failed) ∧
      (sink.turns calls s).Pairwise fun x y =>
        (sink.status x.after).isOpen = false → sink.Same held x.after y.after)
    ⟨fun h => ⟨h.1, h.2⟩, fun h => ⟨h.failed, h.closed⟩⟩

end

/-! ### Streams -/

namespace Stream

variable {ω : Type} (w : Writer ω Id)

/-- Writes an artifact and flushes. -/
def handOver (bytes : Bytes) (writer : ω) : Answer × ω :=
  ((do w.put bytes; w.flush : ExceptT SinkFault (StateT ω Id) Unit).run.run writer : Id _)

theorem perform_write (bytes : Bytes) (s : Stream ω) :
    (stream w).perform (.write bytes) s =
      ((handOver w bytes s.writer).1,
        ⟨.ofResult (handOver w bytes s.writer).1, (handOver w bytes s.writer).2⟩) := rfl

/-- A write to a stream that has taken an artifact or has failed, and to which its writer answers
otherwise than before, or not without a change. -/
def OutOfTurn (x : Turn (Stream ω)) : Prop :=
  ∃ bytes, x.call = .write bytes ∧ x.before.status.isOpen = false ∧
    let (answer, writer) := handOver w bytes x.before.writer
    SinkState.ofResult answer ≠ x.before.status ∨ writer ≠ x.before.writer

theorem told_iff {before after : Stream ω} {call : Call} {answer : Answer}
    (h : (stream w).perform call before = (answer, after)) :
    Turn.Told (stream w) Stream.writer ⟨before, call, answer, after⟩ ↔
      ¬OutOfTurn w ⟨before, call, answer, after⟩ := by
  cases call with
  | prepare =>
    cases h
    exact iff_of_true ⟨nofun, fun _ => ⟨rfl, rfl⟩⟩ fun ⟨_, hcall, _⟩ => nomatch hcall
  | write bytes =>
    obtain ⟨rfl, rfl⟩ := Prod.mk.inj ((perform_write w bytes before).symm.trans h)
    have hfailed (h : (handOver w bytes before.writer).1.isOk = false) :
        SinkState.ofResult (handOver w bytes before.writer).1 = .failed := by
      revert h
      rcases (handOver w bytes before.writer).1 with _ | _
      · exact fun _ => rfl
      · exact nofun
    constructor
    · rintro ⟨-, hclosed⟩ ⟨_, ⟨⟩, hbefore, hchange⟩
      obtain ⟨hstatus, hwriter⟩ := hclosed hbefore
      exact hchange.elim (absurd hstatus) (absurd hwriter)
    · intro hturn
      refine ⟨hfailed, fun hbefore => ?_⟩
      by_contra hchange
      exact hturn ⟨bytes, rfl, hbefore, not_and_or.1 hchange⟩

end Stream

/-! ### Output files -/

namespace OutputFile

/-- Output files with the disk that they are on. -/
def onDisk : Sink (StateM (OutputFile × Disk)) :=
  flat (outputFile : Sink (StateT OutputFile (StateM Disk)))

theorem onDisk_perform (call : Call) (f : OutputFile) (d : Disk) :
    onDisk.perform call (f, d) =
      let r := (call.perform f : StateM Disk _).run d
      (r.1.1, r.1.2, r.2) := by
  cases call <;> rfl

theorem run_onDisk_prepare {f f' : OutputFile} {d d' : Disk} {answer : Answer}
    (h : (f.prepare : StateM Disk _).run d = ((answer, f'), d')) :
    onDisk.prepare.run.run (f, d) = (answer, (f', d')) :=
  congrArg (fun r : (Answer × OutputFile) × Disk => (r.1.1, (r.1.2, r.2))) h

theorem run_onDisk_write {f f' : OutputFile} {d d' : Disk} {bytes : Bytes} {answer : Answer}
    (h : (f.write bytes : StateM Disk _).run d = ((answer, f'), d')) :
    (onDisk.write bytes).run.run (f, d) = (answer, (f', d')) :=
  congrArg (fun r : (Answer × OutputFile) × Disk => (r.1.1, (r.1.2, r.2))) h

/-- A write before any preparation or after another artifact, or the preparation of a file that has
taken an artifact, or of one that has failed if now a file can be staged. -/
def OutOfTurn (x : Turn (OutputFile × Disk)) : Prop :=
  let (file, disk) := x.before
  match x.call with
  | .write _ => file.status = .unprepared ∨ file.status = .finalized
  | .prepare =>
    file.status = .finalized ∨ file.status = .failed ∧ (disk.stage file.directory).1.isSome

/-- The bytes at the destination. -/
def destination (x : OutputFile × Disk) : Option Bytes :=
  x.2.read x.1.path

variable {f f' : OutputFile} {d d' : Disk} {view : Tree.View} {answer : Answer}

/-- If no file can be staged, the state of a file tells that unless it has taken an artifact. -/
theorem told_prepare_refused_iff (hstage : d.stage f.directory = (none, d')) :
    Turn.Told onDisk destination
        ⟨(f, d), .prepare, .error .system, ({ f with status := .failed }, d')⟩ ↔
      f.status ≠ .finalized := by
  have hroot : d'.root = d.root := by
    obtain ⟨-, hroot⟩ | ⟨_, hsome, -⟩ := Disk.stage_cases hstage
    · exact hroot
    · cases hsome
  have hread : d'.read f.path = d.read f.path := by rw [Disk.read_eq, Disk.read_eq, hroot]
  constructor
  · rintro ⟨-, hclosed⟩ hdone
    have hsame := (hclosed (by show f.status.isOpen = false; rw [hdone]; rfl)).1
    cases hsame.trans hdone
  · refine fun hdone => ⟨fun _ => rfl, fun hclosed => ⟨?_, hread⟩⟩
    have hclosed : f.status.isOpen = false := hclosed
    show SinkState.failed = f.status
    cases hf : f.status with
    | unprepared | ready =>
      rw [hf] at hclosed
      cases hclosed
    | finalized => exact absurd hf hdone
    | failed => rfl

/-- If a file can be staged, that is told of a file that was open. -/
theorem told_prepare_staged_iff {staged : Path} (hstatus : f.status ≠ .ready) :
    Turn.Told onDisk destination
        ⟨(f, d), .prepare, .ok (), ({ f with status := .ready, staged := some staged }, d')⟩ ↔
      ¬f.status.isOpen = false := by
  constructor
  · rintro ⟨-, htold⟩ hclosed
    exact hstatus (htold hclosed).1.symm
  · exact fun hopen => ⟨nofun, fun hclosed => absurd hclosed hopen⟩

theorem told_prepare_iff (hshows : f.Shows view d.root)
    (h : (f.prepare : StateM Disk _).run d = ((answer, f'), d')) :
    Turn.Told onDisk destination ⟨(f, d), .prepare, answer, (f', d')⟩ ↔
      ¬OutOfTurn ⟨(f, d), .prepare, answer, (f', d')⟩ := by
  rw [run_prepare] at h
  cases hshows with
  | ready hstatus =>
    rw [if_pos hstatus] at h
    cases h
    refine iff_of_true ⟨nofun, fun _ => ⟨rfl, rfl⟩⟩ ?_
    simp [OutOfTurn, hstatus]
  | idle hstatus hstaged =>
    rw [if_neg hstatus] at h
    rcases hstage : d.stage f.directory with ⟨_ | staged, d₁⟩ <;> rw [hstage] at h
    · cases h
      rw [told_prepare_refused_iff hstage]
      simp [OutOfTurn, hstage]
    · simp only [run_drop, hstaged] at h
      cases h
      rw [told_prepare_staged_iff hstatus]
      simp only [OutOfTurn, hstage, Option.isSome_some, and_true]
      cases f.status <;> simp [SinkState.isOpen]

theorem told_write_iff {bytes : Bytes} (hshows : f.Shows view d.root)
    (h : (f.write bytes : StateM Disk _).run d = ((answer, f'), d')) :
    Turn.Told onDisk destination ⟨(f, d), .write bytes, answer, (f', d')⟩ ↔
      ¬OutOfTurn ⟨(f, d), .write bytes, answer, (f', d')⟩ := by
  rw [run_write] at h
  cases hshows with
  | ready hstatus staged hstaged =>
    rw [hstaged] at h
    refine iff_of_true ⟨?_, fun hclosed => ?_⟩ ?_
    · rcases hdeliver : (deliver staged f.path bytes : StateM Disk Bool).run d with ⟨_ | _, d₁⟩ <;>
        simp only [hdeliver] at h <;> cases h
      · exact fun _ => rfl
      · exact nofun
    · rw [show onDisk.status (f, d) = .ready from hstatus] at hclosed
      cases hclosed
    · simp [OutOfTurn, hstatus]
  | idle hstatus hstaged =>
    rw [hstaged] at h
    cases h
    constructor
    · rintro ⟨hfailed, -⟩
      have hfailed : f.status = .failed := hfailed rfl
      simp [OutOfTurn, hfailed]
    · intro hturn
      obtain ⟨hfresh, hdone⟩ := not_or.1 hturn
      refine ⟨fun _ => ?_, fun _ => ⟨rfl, rfl⟩⟩
      show f.status = .failed
      rcases hf : f.status
      · exact absurd hf hfresh
      · exact absurd hf hstatus
      · exact absurd hf hdone
      · rfl

theorem told_iff {call : Call} (hshows : f.Shows view d.root)
    (h : (call.perform f : StateM Disk _).run d = ((answer, f'), d')) :
    Turn.Told onDisk destination ⟨(f, d), call, answer, (f', d')⟩ ↔
      ¬OutOfTurn ⟨(f, d), call, answer, (f', d')⟩ := by
  cases call with
  | prepare => exact told_prepare_iff hshows h
  | write bytes => exact told_write_iff hshows h

/-- Apart from a staged file, there is no more on the disk than some view shows. -/
def Settled (x : OutputFile × Disk) : Prop :=
  ∃ view, x.1.Shows view x.2.root

theorem settled_perform (call : Call) (x : OutputFile × Disk) (h : Settled x) :
    Settled (onDisk.perform call x).2 := by
  obtain ⟨f, d⟩ := x
  obtain ⟨view, hshows⟩ := h
  rw [onDisk_perform]
  obtain ⟨-, after, -, hafter⟩ := hshows.perform (show _ = ((_, _), _) from rfl)
  exact ⟨after, hafter⟩

end OutputFile

/-! ### Both kinds of sinks -/

/-- The state of a stream or of an output file tells the history of any calls, whatever fails,
exactly if none of them comes out of turn. -/
theorem tellsHistory_iff {ω : Type} (w : Writer ω Id) (writer : ω) (path : Path) (disk : Disk)
    (calls : List Call) :
    ((stream w).TellsHistory Stream.writer calls { writer } ↔
        ∀ x ∈ (stream w).turns calls { writer }, ¬Stream.OutOfTurn w x) ∧
      (OutputFile.onDisk.TellsHistory OutputFile.destination calls ({ path }, disk) ↔
        ∀ x ∈ OutputFile.onDisk.turns calls ({ path }, disk), ¬OutputFile.OutOfTurn x) := by
  constructor
  · rw [tellsHistory_iff_forall_told rfl]
    refine forall₂_congr fun x hx => Stream.told_iff w ?_
    exact (before_of_mem_turns (P := fun _ => True) (fun _ _ _ => trivial) trivial x hx).2
  · rw [tellsHistory_iff_forall_told rfl]
    refine forall₂_congr fun x hx => ?_
    have hstart : OutputFile.Settled ({ path }, disk) := ⟨_, .idle (by simp) rfl rfl⟩
    obtain ⟨⟨view, hshows⟩, hcall⟩ := before_of_mem_turns OutputFile.settled_perform hstart x hx
    obtain ⟨⟨f, d⟩, call, answer, ⟨f', d'⟩⟩ := x
    refine OutputFile.told_iff hshows ?_
    rw [OutputFile.onDisk_perform] at hcall
    generalize (call.perform f : StateM Disk _).run d = r at hcall
    cases hcall
    rfl

/-- A stream takes a second artifact, an output file that was never prepared does not fail, and one
that has taken an artifact can be prepared again and replaced. -/
theorem not_tellsHistory :
    ¬(stream (memory (m := Id))).TellsHistory Stream.writer [.write [1], .write [2]]
        { writer := [] } ∧
      ¬OutputFile.onDisk.TellsHistory OutputFile.destination [.write [1]] ({ path := "a" }, {}) ∧
      ¬OutputFile.onDisk.TellsHistory OutputFile.destination
        [.prepare, .write [1], .prepare, .write [2]] ({ path := "a" }, {}) := by
  decide +kernel

end ComputeScript.Sink
