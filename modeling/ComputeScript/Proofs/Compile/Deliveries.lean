import ComputeScript.Proofs.Compile.History
import ComputeScript.Proofs.Sink.Course

/-!
# One sink for many compilations

Compilations of all kinds go into one sink, one after the other (`reports`), and nothing else
touches it: their hooks and passes do to the world only what others than the sink may do
(`Hooks.Within`).  A compilation leads a sink from phase to phase (`Sink.Course.report_cases`), so
there is at most one that delivers its artifact or spoils the sink; those before it leave the sink
prepared, and those after it are refused (`Sink.Course.deliversOnce`).
-/

namespace ComputeScript

open Event

variable {ω : Type}

/-! ### What hooks and passes leave alone -/

/-- What the pass does to the world is what others than the sink may do. -/
def Pass.Within (others : ω → ω → Prop) (p : Pass (StateM ω)) : Prop :=
  ∀ module w, others w ((p.run.run.run module).run w).2

/-- What the hooks do to the world, and what the passes do that they add, is what others than the
sink may do. -/
def Hooks.Within (others : ω → ω → Prop) (hooks : Hooks (StateM ω)) : Prop :=
  ∀ point machine (piece : Workpiece (StateM ω)) w, (∀ p ∈ piece.passes, p.Within others) →
    let ((_, piece'), w') := ((hooks.call point machine).run.run piece).run w
    others w w' ∧ ∀ p ∈ piece'.passes, p.Within others

/-- Whether an event is a call to the sink. -/
def Event.usesSink : Event → Bool
  | query => true
  | prepare => true
  | write _ => true
  | _ => false

theorem Event.usesSink_eq_false {e : Event} (hquery : e ≠ query) (hprepare : e ≠ prepare)
    (hwrite : ∀ bytes, e ≠ write bytes) : e.usesSink = false := by
  cases e with
  | query => exact absurd rfl hquery
  | prepare => exact absurd rfl hprepare
  | write bytes => exact absurd rfl (hwrite bytes)
  | verify | hook | add | pass => rfl

/-- Whether it is a sink that is to blame. -/
def CompileError.ofSink : CompileError → Bool
  | usedSink => true
  | prepareSink => true
  | writeSink => true
  | _ => false

section

variable {others : ω → ω → Prop} {hooks : Hooks (StateM ω)} {machine : Machine}
  {sink : Sink (StateM ω)} {x : Situation ω} {e : Event}

theorem Machine.within_of_mem_stagePasses (hrefl : ∀ w, others w w) {stage : Stage}
    {passes : List (Pass (StateM ω))} (h : machine.stagePasses stage = .ok passes) :
    ∀ p ∈ passes, p.Within others := by
  refine forall_mem_stagePasses h ?_ ?_ ?_ <;> intro module w
  · rw [Pass.run_fold]
    exact hrefl w
  · rw [Pass.run_eliminate]
    exact hrefl w
  · rw [Pass.run_emitter]
    exact hrefl w

/-- An event that is no call to the sink does what others may do. -/
theorem Event.within_perform (hrefl : ∀ w, others w w) (hhooks : hooks.Within others)
    (hpasses : ∀ p ∈ x.passes, p.Within others) (he : e.usesSink = false) :
    others x.world (e.perform hooks machine sink x).2.world ∧
      ∀ p ∈ (e.perform hooks machine sink x).2.passes, p.Within others := by
  cases e with
  | query | prepare | write => cases he
  | verify => exact ⟨hrefl _, hpasses⟩
  | hook point =>
    refine hhooks point machine ⟨x.script, if point.moment = .beforeAdd then [] else x.passes⟩ _ ?_
    split_ifs
    · exact fun p hp => absurd hp List.not_mem_nil
    · exact hpasses
  | add stage =>
    rw [perform]
    rcases hadded : machine.stagePasses (m := StateM ω) stage with error | passes
    · exact ⟨hrefl _, hpasses⟩
    · exact ⟨hrefl _, List.forall_mem_append.2
        ⟨hpasses, Machine.within_of_mem_stagePasses hrefl hadded⟩⟩
  | pass stage index =>
    rcases hp : x.passes[index]? with _ | p
    · rw [perform, hp]
      exact ⟨hrefl _, hpasses⟩
    · rw [perform_pass _ _ _ hp]
      exact ⟨hpasses p (List.mem_of_getElem? hp) _ _, hpasses⟩

/-- Hooks that see nothing of the world leave it alone. -/
theorem Hooks.within_of_pure (hrefl : ∀ w, others w w)
    (h : ∀ point machine (piece : Workpiece (StateM ω)), (∀ p ∈ piece.passes, p.Within others) →
      ∃ result piece', (hooks.call point machine).run.run piece = pure (result, piece') ∧
        ∀ p ∈ piece'.passes, p.Within others) : hooks.Within others := by
  intro point machine piece w hpasses
  obtain ⟨result, piece', hrun, hpasses'⟩ := h point machine piece hpasses
  rw [hrun]
  exact ⟨hrefl w, hpasses'⟩

variable (others) in
theorem Hooks.within_script (hrefl : ∀ w, others w w) (entryPoints : List String) :
    (Hooks.script (m := StateM ω) entryPoints).Within others := by
  refine within_of_pure hrefl ?_
  rintro ⟨stage, moment⟩ machine piece hpasses
  cases stage <;> cases moment
  case lto.beforeAdd =>
    rcases hexports : piece.script.exports with _ | table
    · exact ⟨_, piece, run_hide_of_none entryPoints machine hexports, hpasses⟩
    · refine ⟨_, _, run_hide_of_some entryPoints machine hexports, ?_⟩
      refine List.forall_mem_append.2 ⟨hpasses, List.forall_mem_singleton.2 fun module w => ?_⟩
      rw [Pass.run_internalize]
      exact hrefl w
  case lto.beforeExecute =>
    rcases hexports : piece.script.exports with _ | table
    · exact ⟨_, piece, run_run_bind_of_error (run_requireExports_of_none _ hexports) _, hpasses⟩
    · have hrun := run_expand_of_some machine hexports
      rcases hexpand : piece.script.module.expandFor machine table.kernels with fault | module <;>
        rw [hexpand] at hrun <;> exact ⟨_, _, hrun, hpasses⟩
  all_goals exact ⟨_, piece, rfl, hpasses⟩

/-- Where an event that is no call to the sink fails, the sink is not to blame. -/
theorem Event.ofSink_of_perform {error : CompileError} (he : e.usesSink = false)
    (h : (e.perform hooks machine sink x).1 = .error error) : error.ofSink = false := by
  rw [error_eq_fault hooks machine sink h, ← he]
  cases e <;> rfl

end

/-! ### One compilation -/

namespace Sink.Course

variable {others : ω → ω → Prop} {At : Phase → ω → Prop} {hooks : Hooks (StateM ω)}
  {machine : Machine} {sink : Sink (StateM ω)} {x y : Situation ω}
  {result : Except CompileError Bytes}

theorem of_query (h : sink.Course others At) {phase : Phase} (hat : At phase x.world)
    (hperform : Event.query.perform hooks machine sink x = (result, y)) :
    (result = if phase.isOpen then .ok [] else .error .usedSink) ∧
      y = { x with world := (sink.state.run x.world).2 } := by
  obtain ⟨hopen, -⟩ := h.state hat
  rw [← hopen]
  rw [Event.perform] at hperform
  cases hperform
  exact ⟨rfl, rfl⟩

theorem of_prepare (h : sink.Course others At) {phase : Phase} (hat : At phase x.world)
    (hopen : phase.isOpen = true)
    (hperform : Event.prepare.perform hooks machine sink x = (result, y)) :
    y.passes = x.passes ∧ ((result = .ok [] ∧ At .prepared y.world) ∨
      (result = .error .prepareSink ∧ At .refused y.world)) := by
  have hprepare := h.prepare hat hopen
  rw [Event.perform] at hperform
  rcases hrun : sink.prepare.run.run x.world with ⟨_ | ⟨⟩, world⟩ <;>
    rw [hrun] at hprepare hperform <;> cases hperform
  · exact ⟨rfl, .inr ⟨rfl, hprepare⟩⟩
  · exact ⟨rfl, .inl ⟨rfl, hprepare⟩⟩

theorem of_write (h : sink.Course others At) {bytes : Bytes} (hat : At .prepared x.world)
    (hperform : (Event.write bytes).perform hooks machine sink x = (result, y)) :
    (result = .ok [] ∧ At (.took bytes) y.world) ∨
      (result = .error .writeSink ∧ At (.lost bytes) y.world) := by
  have hwrite := h.write bytes hat
  rw [Event.perform] at hperform
  rcases hrun : (sink.write bytes).run.run x.world with ⟨_ | ⟨⟩, world⟩ <;>
    rw [hrun] at hwrite hperform <;> cases hperform
  · exact .inr ⟨rfl, hwrite⟩
  · exact .inl ⟨rfl, hwrite⟩

/-- An event that is no call to the sink leaves it in its phase, and is not its fault. -/
theorem of_quiet (h : sink.Course others At) (hhooks : hooks.Within others) {e : Event}
    (hquiet : e.usesSink = false) (hpasses : ∀ p ∈ x.passes, p.Within others) {phase : Phase}
    (hat : At phase x.world) (hperform : e.perform hooks machine sink x = (result, y)) :
    At phase y.world ∧ (∀ p ∈ y.passes, p.Within others) ∧
      ∀ error, result = .error error → error.ofSink = false := by
  have hwithin : others x.world (e.perform hooks machine sink x).2.world ∧ _ :=
    within_perform h.refl hhooks hpasses hquiet
  rw [hperform] at hwithin
  obtain ⟨hothers, hpasses'⟩ := hwithin
  refine ⟨h.others hat hothers, hpasses', fun error herror => ?_⟩
  exact ofSink_of_perform hquiet ((congrArg Prod.fst hperform).trans herror)

/-- What a last event comes to that finds the sink prepared: it is the write of an artifact, or it
leaves the sink as it is, which is then not to blame. -/
inductive Last (At : Phase → ω → Prop) (r : Record ω) : Prop
  | quiet (hevent : ∀ bytes, r.event ≠ .write bytes) (hat : At .prepared r.after.world)
      (hblame : ∀ e, r.result = .error e → e.ofSink = false)
  | written (bytes : Bytes) (hevent : r.event = .write bytes) (hresult : r.result = .ok [])
      (hat : At (.took bytes) r.after.world)
  | spoilt (bytes : Bytes) (hevent : r.event = .write bytes)
      (hresult : r.result = .error .writeSink) (hat : At (.lost bytes) r.after.world)

/-- All events that come before the write leave a prepared sink prepared. -/
theorem last_of_recorded (h : sink.Course others At) (hhooks : hooks.Within others)
    {records : List (Record ω)} (hat : At .prepared x.world)
    (hpasses : ∀ p ∈ x.passes, p.Within others)
    (hrecorded : Recorded hooks machine sink x records)
    (hasked : ∀ r ∈ records, r.event ≠ .query ∧ r.event ≠ .prepare)
    (hunbroken : ∀ r ∈ records.dropLast, ∀ bytes, r.event ≠ .write bytes) {r : Record ω}
    (hlast : records.getLast? = some r) : Last At r := by
  induction records generalizing x with
  | nil => cases hlast
  | cons first rest ih =>
    obtain ⟨hperform, hrest⟩ := hrecorded
    obtain ⟨hfirst, hasked⟩ := List.forall_mem_cons.1 hasked
    by_cases hwrite : ∃ bytes, first.event = .write bytes
    · obtain ⟨bytes, hevent⟩ := hwrite
      have hnil : rest = [] := by
        by_contra hne
        obtain ⟨next, rest, rfl⟩ := List.exists_cons_of_ne_nil hne
        exact hunbroken first List.mem_cons_self bytes hevent
      subst hnil
      obtain rfl : first = r := Option.some.inj hlast
      rw [hevent] at hperform
      rcases h.of_write hat hperform with ⟨hresult, hafter⟩ | ⟨hresult, hafter⟩
      · exact .written bytes hevent hresult hafter
      · exact .spoilt bytes hevent hresult hafter
    · have hquiet := usesSink_eq_false hfirst.1 hfirst.2 (not_exists.1 hwrite)
      obtain ⟨hafter, hpasses', hblame⟩ := h.of_quiet hhooks hquiet hpasses hat hperform
      cases rest with
      | nil =>
        obtain rfl : first = r := Option.some.inj hlast
        exact .quiet (not_exists.1 hwrite) hafter hblame
      | cons next rest =>
        rw [List.dropLast_cons_cons] at hunbroken
        rw [List.getLast?_cons_cons] at hlast
        exact ih hafter hpasses' hrest hasked (List.forall_mem_cons.1 hunbroken).2 hlast

end Sink.Course

namespace Event

/-- The sink is asked for its state and prepared first, and only then. -/
theorem exists_order_eq_cons (lto : Bool) (count : Stage → Nat) (artifact : Bytes) :
    ∃ events, order lto count artifact = query :: prepare :: events ∧
      ∀ e ∈ events, e ≠ query ∧ e ≠ prepare := by
  have hstage {stage : Stage} {n : Nat} : ∀ e ∈ ofStage stage n, e ≠ query ∧ e ≠ prepare := by
    intro e he
    constructor <;> rintro rfl <;> cases stage?_of_mem_ofStage he
  refine ⟨verify :: ((if lto then ofStage .lto (count .lto) else []) ++
    (ofStage .codegen (count .codegen) ++ [write artifact])), rfl, ?_⟩
  refine List.forall_mem_cons.2 ⟨⟨nofun, nofun⟩, List.forall_mem_append.2 ⟨?_, ?_⟩⟩
  · split_ifs
    · exact hstage
    · exact fun e he => absurd he List.not_mem_nil
  · exact List.forall_mem_append.2 ⟨hstage, List.forall_mem_singleton.2 ⟨nofun, nofun⟩⟩

end Event

/-! ### Many compilations -/

/-- A compilation that is to be made: a compiler that has a machine, with its hooks, and a
script. -/
structure Job (ω : Type) where
  machine : Machine
  lto : Bool := true
  hooks : Hooks (StateM ω)
  script : Script

/-- A compilation that was made: what it came to, and how it found and left the world. -/
structure Report (ω : Type) where
  job : Job ω
  before : ω
  result : Except CompileError Unit
  script : Script
  after : ω

/-- Makes a compilation. -/
def Job.run (sink : Sink (StateM ω)) (job : Job ω) (w : ω) : Report ω :=
  let compiler : Compiler := { machine := some job.machine, lto := job.lto }
  let ((result, script), after) := ((compiler.compile job.hooks sink).run.run job.script).run w
  ⟨job, w, result, script, after⟩

/-- Makes compilations one after the other. -/
def reports (sink : Sink (StateM ω)) : List (Job ω) → ω → List (Report ω)
  | [], _ => []
  | job :: jobs, w =>
    let r := job.run sink w
    r :: reports sink jobs r.after

/-- The world after some compilations. -/
def worldAfter (sink : Sink (StateM ω)) : List (Job ω) → ω → ω
  | [], w => w
  | job :: jobs, w => worldAfter sink jobs (job.run sink w).after

namespace Report

/-- The records tell what happened in the compilation. -/
def Tells (sink : Sink (StateM ω)) (r : Report ω) (records : List (Record ω)) : Prop :=
  ∃ count artifact, IsHistory r.job.hooks r.job.machine sink r.job.lto r.job.script r.before count
    artifact records r.result r.script r.after

/-- Whether the compilation has used the sink up. -/
def isDecisive (r : Report ω) : Bool :=
  match r.result with
  | .ok () => true
  | .error .writeSink => true
  | .error .prepareSink => true
  | .error _ => false

/-- The compilation did nothing but ask for the state of the sink. -/
structure Refused (sink : Sink (StateM ω)) (r : Report ω) : Prop where
  result : r.result = .error .usedSink
  script : r.script = r.job.script
  after : r.after = (sink.state.run r.before).2
  asked : ∃ records, r.Tells sink records ∧ records.map Record.event = [.query]

end Report

/-- What can be said of a sink as a destination. -/
structure Destination (ω : Type) where
  /-- a compilation can still deliver its artifact -/
  able : ω → Prop
  /-- it holds what it held before all compilations -/
  untouched : ω → Prop
  /-- it holds an artifact -/
  holds : Bytes → ω → Prop
  /-- it holds what is left where an artifact could not be written -/
  spoilt : Bytes → ω → Prop

/-- Compilations into one sink deliver at most one artifact.  After one that has used the sink up,
all are refused, and change nothing that the sink is a part of. -/
structure DeliversOnce {σ : Type} (sink : Sink (StateM ω)) (part : ω → σ) (d : Destination ω)
    (jobs : List (Job ω)) (w : ω) : Prop where
  refused : (reports sink jobs w).Pairwise fun r r' => r.isDecisive →
    r'.Refused sink ∧ part r'.after = part r'.before
  /-- until then, those that fail do so for other reasons, and leave the sink able -/
  able : ∀ r ∈ (reports sink jobs w).takeWhile fun r => !r.isDecisive,
    (∃ e, r.result = .error e ∧ e.ofSink = false) ∧ d.able r.after
  /-- in the end the destination holds what the one that succeeded has emitted -/
  delivered : ∀ r ∈ reports sink jobs w, r.result = .ok () →
    ∃ records, r.Tells sink records ∧ d.holds (emitted .codegen records) (worldAfter sink jobs w)
  once : ((reports sink jobs w).filter fun r => r.result.isOk).length ≤ 1
  /-- if none has succeeded, it holds what it held, or what is left of one artifact -/
  undelivered : (∀ r ∈ reports sink jobs w, r.result ≠ .ok ()) →
    d.untouched (worldAfter sink jobs w) ∨
      ∃ r ∈ reports sink jobs w, r.result = .error .writeSink ∧ ∃ records,
        r.Tells sink records ∧ d.spoilt (emitted .codegen records) (worldAfter sink jobs w)

theorem Job.tells_run (sink : Sink (StateM ω)) (job : Job ω) (w : ω) :
    ∃ records, (job.run sink w).Tells sink records := by
  obtain ⟨count, artifact, records, h⟩ := @exists_isHistory ω job.hooks job.machine sink
    { machine := some job.machine, lto := job.lto } rfl job.script w
  exact ⟨records, count, artifact, h⟩

namespace Sink.Course

variable {others : ω → ω → Prop} {At : Phase → ω → Prop} {sink : Sink (StateM ω)} {job : Job ω}
  {phase : Phase} {w : ω}

/-- What a compilation comes to that finds the sink open. -/
inductive Came (sink : Sink (StateM ω)) (At : Phase → ω → Prop) (r : Report ω) : Prop
  | undecided (e : CompileError) (hresult : r.result = .error e) (hblame : e.ofSink = false)
      (hat : At .prepared r.after)
  | unprepared (hresult : r.result = .error .prepareSink) (hat : At .refused r.after)
  | delivered (hresult : r.result = .ok ()) (records : List (Record ω))
      (htells : r.Tells sink records) (hat : At (.took (emitted .codegen records)) r.after)
  | spoilt (hresult : r.result = .error .writeSink) (records : List (Record ω))
      (htells : r.Tells sink records) (hat : At (.lost (emitted .codegen records)) r.after)

/-- What a compilation comes to whose last event finds the sink prepared. -/
theorem Last.came {r : Report ω} {records : List (Record ω)} {last : Record ω}
    (htells : r.Tells sink records) (hlast : records.getLast? = some last) (h : Last At last) :
    Came sink At r := by
  obtain ⟨count, artifact, hhistory⟩ := id htells
  obtain ⟨_, hlast', hresult, -, hafter⟩ := hhistory.last
  obtain rfl := Option.some.inj (hlast.symm.trans hlast')
  have hmem := List.mem_of_getLast? hlast
  cases h with
  | quiet hevent hat hblame =>
    rcases hlastresult : last.result with e | bytes <;> rw [hlastresult] at hresult
    · exact .undecided e hresult.symm (hblame e hlastresult) (hafter ▸ hat)
    · exact absurd (hhistory.event_of_ok hresult.symm hlast) (hevent artifact)
  | written bytes hevent hok hat =>
    rw [hok] at hresult
    rw [hhistory.written last hmem bytes hevent, hafter] at hat
    exact .delivered hresult.symm records htells hat
  | spoilt bytes hevent herror hat =>
    rw [herror] at hresult
    rw [hhistory.written last hmem bytes hevent, hafter] at hat
    exact .spoilt hresult.symm records htells hat

/-- The history of a compilation that finds the sink open begins with its state and its
preparation, which may fail; whatever happens then leads to the last event. -/
theorem came_of_isHistory (h : sink.Course others At) {r : Report ω}
    (hhooks : r.job.hooks.Within others) (hat : At phase r.before) (hopen : phase.isOpen = true)
    {records : List (Record ω)} (htells : r.Tells sink records) : Came sink At r := by
  obtain ⟨count, artifact, hhistory⟩ := id htells
  obtain ⟨last, hlast, hresult, -, hafter⟩ := hhistory.last
  obtain ⟨events, horder, hasked⟩ := Event.exists_order_eq_cons r.job.lto count artifact
  have hordered := hhistory.ordered
  have hrecorded := hhistory.recorded
  have hunbroken := hhistory.unbroken
  have hfailed (hevent : last.event ≠ .write artifact) : r.result ≠ .ok () := fun hok =>
    hevent (hhistory.event_of_ok hok hlast)
  have hcame : Last At last → Came sink At r := Last.came htells hlast
  rw [horder] at hordered
  rcases records with _ | ⟨first, _ | ⟨second, rest⟩⟩
  · cases hlast
  · obtain ⟨hfirst, -⟩ := List.cons_prefix_cons.1 hordered
    obtain rfl : first = last := Option.some.inj hlast
    rw [Recorded, hfirst] at hrecorded
    obtain ⟨hok, -⟩ := h.of_query hat hrecorded.1
    rw [hok, hopen] at hresult
    exact absurd hresult.symm (hfailed (by rw [hfirst]; nofun))
  · obtain ⟨hfirst, hordered⟩ := List.cons_prefix_cons.1 hordered
    obtain ⟨hsecond, hordered⟩ := List.cons_prefix_cons.1 hordered
    rw [Recorded, Recorded, hfirst, hsecond] at hrecorded
    obtain ⟨hquery, hprepare, hrecorded⟩ := hrecorded
    obtain ⟨-, hafterquery⟩ := h.of_query hat hquery
    have hasked' : At phase first.after.world := hafterquery ▸ (h.state hat).2
    obtain ⟨hpasses, ⟨hok, hprepared⟩ | ⟨herror, hrefused⟩⟩ := h.of_prepare hasked' hopen hprepare
    · rcases rest with _ | ⟨third, rest⟩
      · obtain rfl : second = last := Option.some.inj hlast
        rw [hok] at hresult
        exact absurd hresult.symm (hfailed (by rw [hsecond]; nofun))
      · refine hcame (h.last_of_recorded hhooks hprepared ?_ hrecorded ?_ ?_ hlast)
        · rw [hpasses, hafterquery]
          exact fun p hp => absurd hp List.not_mem_nil
        · exact fun r hr => hasked _ (hordered.subset (List.mem_map_of_mem hr))
        · exact fun r hr => (hunbroken r (List.mem_cons_of_mem _ (List.mem_cons_of_mem _ hr))).2
    · rcases rest with _ | ⟨third, rest⟩
      · obtain rfl : second = last := Option.some.inj hlast
        rw [herror] at hresult
        exact .unprepared hresult.symm (hafter ▸ hrefused)
      · have hok := (hunbroken second (List.mem_cons_of_mem _ List.mem_cons_self)).1
        rw [herror] at hok
        cases hok

/-- A compilation that finds the sink closed is refused. -/
theorem refused_of_isHistory (h : sink.Course others At) {r : Report ω} (hat : At phase r.before)
    (hclosed : phase.isOpen = false) {records : List (Record ω)}
    (htells : r.Tells sink records) : r.Refused sink := by
  obtain ⟨count, artifact, hhistory⟩ := id htells
  obtain ⟨last, hlast, hresult, hscript, hafter⟩ := hhistory.last
  obtain ⟨events, horder, -⟩ := Event.exists_order_eq_cons r.job.lto count artifact
  have hordered := hhistory.ordered
  have hrecorded := hhistory.recorded
  have hunbroken := hhistory.unbroken
  rw [horder] at hordered
  rcases records with _ | ⟨first, rest⟩
  · cases hlast
  obtain ⟨hfirst, hordered⟩ := List.cons_prefix_cons.1 hordered
  rw [Recorded, hfirst] at hrecorded
  obtain ⟨hrefused, hafterquery⟩ := h.of_query hat hrecorded.1
  rw [hclosed] at hrefused
  rcases rest with _ | ⟨second, rest⟩
  · obtain rfl : first = last := Option.some.inj hlast
    rw [hrefused] at hresult
    rw [hafterquery] at hscript hafter
    exact ⟨hresult.symm, hscript.symm, hafter.symm, [first], htells, by rw [← hfirst]; rfl⟩
  · have hok := (hunbroken first List.mem_cons_self).1
    rw [hrefused] at hok
    cases hok

end Sink.Course

/-! ### What they deliver -/

namespace DeliversOnce

variable {σ : Type} {sink : Sink (StateM ω)} {part : ω → σ} {d : Destination ω} {job : Job ω}
  {jobs : List (Job ω)} {w : ω}

/-- A compilation that fails for another reason, and then some others. -/
theorem cons_undecided {e : CompileError} (hresult : (job.run sink w).result = .error e)
    (hblame : e.ofSink = false) (hable : d.able (job.run sink w).after)
    (h : DeliversOnce sink part d jobs (job.run sink w).after) :
    DeliversOnce sink part d (job :: jobs) w := by
  have hundecided : (job.run sink w).isDecisive = false := by
    rw [Report.isDecisive, hresult]
    cases e with
    | prepareSink | writeSink => cases hblame
    | _ => rfl
  refine ⟨?_, ?_, ?_, ?_, fun hnone => ?_⟩ <;> rw [reports]
  · refine List.pairwise_cons.2 ⟨fun r' _ hdecisive => ?_, h.refused⟩
    rw [hundecided] at hdecisive
    cases hdecisive
  · rw [List.takeWhile_cons_of_pos (by rw [hundecided]; rfl)]
    exact List.forall_mem_cons.2 ⟨⟨⟨e, hresult, hblame⟩, hable⟩, h.able⟩
  · refine List.forall_mem_cons.2 ⟨fun hok => ?_, h.delivered⟩
    rw [hresult] at hok
    cases hok
  · rw [List.filter_cons_of_neg (by rw [hresult]; exact Bool.false_ne_true)]
    exact h.once
  · rw [reports] at hnone
    refine (h.undelivered (List.forall_mem_cons.1 hnone).2).imp_right ?_
    rintro ⟨r, hr, hspoilt⟩
    exact ⟨r, List.mem_cons_of_mem _ hr, hspoilt⟩

/-- A compilation that uses the sink up, and then others, which are refused. -/
theorem cons_decisive (hdecisive : (job.run sink w).isDecisive)
    (hrest : ∀ r ∈ reports sink jobs (job.run sink w).after,
      r.Refused sink ∧ part r.after = part r.before)
    (hdelivered : (job.run sink w).result = .ok () → ∃ records,
      (job.run sink w).Tells sink records ∧
        d.holds (emitted .codegen records) (worldAfter sink (job :: jobs) w))
    (hundelivered : (job.run sink w).result ≠ .ok () →
      d.untouched (worldAfter sink (job :: jobs) w) ∨
        (job.run sink w).result = .error .writeSink ∧ ∃ records,
          (job.run sink w).Tells sink records ∧
            d.spoilt (emitted .codegen records) (worldAfter sink (job :: jobs) w)) :
    DeliversOnce sink part d (job :: jobs) w := by
  have hfailed : ∀ r ∈ reports sink jobs (job.run sink w).after, r.result ≠ .ok () := by
    intro r hr hok
    cases hok.symm.trans (hrest r hr).1.result
  refine ⟨?_, ?_, ?_, ?_, fun hnone => ?_⟩ <;> rw [reports]
  · refine List.pairwise_cons.2 ⟨fun r hr _ => hrest r hr, ?_⟩
    exact List.pairwise_of_forall_mem_list fun _ _ r hr _ => hrest r hr
  · rw [List.takeWhile_cons_of_neg (by rw [hdecisive]; exact Bool.false_ne_true)]
    exact fun r hr => absurd hr List.not_mem_nil
  · exact List.forall_mem_cons.2 ⟨hdelivered, fun r hr hok => absurd hok (hfailed r hr)⟩
  · have hnone : (reports sink jobs (job.run sink w).after).filter (fun r => r.result.isOk) = [] :=
      List.filter_eq_nil_iff.2 fun r hr => by
        rw [(hrest r hr).1.result]
        exact Bool.false_ne_true
    rw [List.filter_cons, hnone]
    split_ifs <;> simp
  · rw [reports] at hnone
    exact (hundelivered (List.forall_mem_cons.1 hnone).1).imp_right fun hspoilt =>
      ⟨_, List.mem_cons_self, hspoilt⟩

end DeliversOnce

namespace Sink

/-- What the phases of a sink say of it as a destination. -/
structure Phase.Shown (At : Phase → ω → Prop) (d : Destination ω) : Prop where
  able : ∀ {w}, At .prepared w → d.able w
  untouched : ∀ {phase w}, At phase w → phase.isOpen = true ∨ phase = .refused → d.untouched w
  holds : ∀ {w bytes}, At (.took bytes) w → d.holds bytes w
  spoilt : ∀ {w bytes}, At (.lost bytes) w → d.spoilt bytes w

namespace Course

variable {σ : Type} {others : ω → ω → Prop} {At : Phase → ω → Prop} {sink : Sink (StateM ω)}
  {part : ω → σ} {d : Destination ω} {jobs : List (Job ω)} {phase : Phase} {w : ω}

/-- All compilations that find the sink closed are refused, and it stays as it is. -/
theorem refused_of_mem_reports (h : sink.Course others At)
    (hpart : ∀ w, part (sink.state.run w).2 = part w) (jobs : List (Job ω)) (hat : At phase w)
    (hclosed : phase.isOpen = false) :
    (∀ r ∈ reports sink jobs w, r.Refused sink ∧ part r.after = part r.before) ∧
      At phase (worldAfter sink jobs w) := by
  induction jobs generalizing w with
  | nil => exact ⟨fun r hr => absurd hr List.not_mem_nil, hat⟩
  | cons job jobs ih =>
    obtain ⟨records, htells⟩ := job.tells_run sink w
    have hrefused : (job.run sink w).Refused sink :=
      h.refused_of_isHistory (show At phase (job.run sink w).before from hat) hclosed htells
    have hafter : (job.run sink w).after = (sink.state.run w).2 := hrefused.after
    obtain ⟨hrest, hend⟩ := ih (hafter ▸ (h.state hat).2)
    refine ⟨List.forall_mem_cons.2 ⟨⟨hrefused, ?_⟩, hrest⟩, hend⟩
    rw [hafter, hpart]
    rfl

/-- Compilations that leave a sink to one another deliver at most one artifact. -/
theorem deliversOnce (h : sink.Course others At) (hpart : ∀ w, part (sink.state.run w).2 = part w)
    (hshown : Phase.Shown At d) (hhooks : ∀ job ∈ jobs, job.hooks.Within others)
    (hat : At phase w) (hopen : phase.isOpen = true) : DeliversOnce sink part d jobs w := by
  induction jobs generalizing w phase with
  | nil =>
    refine ⟨.nil, ?_, ?_, Nat.zero_le _, fun _ => .inl (hshown.untouched hat (.inl hopen))⟩ <;>
      exact fun r hr => absurd hr List.not_mem_nil
  | cons job jobs ih =>
    obtain ⟨hjob, hhooks⟩ := List.forall_mem_cons.1 hhooks
    obtain ⟨records, htells⟩ := job.tells_run sink w
    have hcame := h.came_of_isHistory (show (job.run sink w).job.hooks.Within others from hjob)
      (show At phase (job.run sink w).before from hat) hopen htells
    cases hcame with
    | undecided e hresult hblame hafter =>
      exact .cons_undecided hresult hblame (hshown.able hafter) (ih hhooks hafter rfl)
    | unprepared hresult hafter =>
      obtain ⟨hrest, hend⟩ := h.refused_of_mem_reports hpart jobs hafter rfl
      refine .cons_decisive (by rw [Report.isDecisive, hresult]) hrest (fun hok => ?_) fun _ => ?_
      · cases hresult.symm.trans hok
      · exact .inl (hshown.untouched hend (.inr rfl))
    | delivered hresult records htells hafter =>
      obtain ⟨hrest, hend⟩ := h.refused_of_mem_reports hpart jobs hafter rfl
      refine .cons_decisive (by rw [Report.isDecisive, hresult]) hrest (fun _ => ?_) fun hne => ?_
      · exact ⟨records, htells, hshown.holds hend⟩
      · exact absurd hresult hne
    | spoilt hresult records htells hafter =>
      obtain ⟨hrest, hend⟩ := h.refused_of_mem_reports hpart jobs hafter rfl
      refine .cons_decisive (by rw [Report.isDecisive, hresult]) hrest (fun hok => ?_) fun _ => ?_
      · cases hresult.symm.trans hok
      · exact .inr ⟨hresult, records, htells, hshown.spoilt hend⟩

end Course

end Sink

end ComputeScript
