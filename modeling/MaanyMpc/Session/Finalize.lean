import MaanyMpc.Session.Continue
import MaanyMpc.Session.Destroy

/-! # Finalizing too early

`Finalize` waits for the worker before it looks whether there is anything to hand out.
While it waits its caller brings no frame and sets no message, so it returns exactly if
the worker gets along with what it has. -/

namespace MaanyMpc

open Transition

variable {α φ β : Type}

/-- The caller is inside `Finalize`. -/
def CallerPc.InFinalize (pc : CallerPc φ) : Prop :=
  ∃ fmt, pc = .ensuring fmt ∨ pc = .parkedEnsure fmt ∨ pc = .finalizing fmt

@[simp] theorem CallerPc.inFinalize_notified (pc : CallerPc φ) :
    pc.notified.InFinalize ↔ pc.InFinalize := by
  cases pc <;> simp [notified, InFinalize]

/-- The two threads proceed on their own: no spurious wake-up and no `SetMessage` from
a third one. -/
def OnTheirOwn (_ : State α φ) : Action φ → Prop
  | .worker | .caller => True
  | _ => False

/-- Caller and worker wait for each other. -/
def State.FinalizeHangs (s : State α φ) : Prop :=
  (∃ fmt, s.caller = .parkedEnsure fmt) ∧ s.worker.Parked

/-- A Finalize in progress returns or throws under every schedule. -/
def SessionImpl.FinalizeEnds (impl : SessionImpl α φ β) (s : State α φ) : Prop :=
  s.caller.InFinalize → impl.machine.Inevitable OnTheirOwn (fun t => t.caller = .idle) s

/-- The worker's own way leads to a wait for a message that is not set or for a frame that is
not queued. -/
def SessionImpl.Hungry (impl : SessionImpl α φ β) (s : State α φ) : Prop :=
  match s.worker with
  | .awaitMessage | .parkedMessage =>
    match impl.worker with
    | .protocol _ => False
    | .awaitMessage sign =>
      s.messageReady = true → (sign (toMem s.message)).starves s.inboundQueue = true
  | pc => pc.remaining.starves s.inboundQueue = true

/-- `Finalize` is called when the worker has all it needs. -/
def SessionImpl.FinalizesInTime (impl : SessionImpl α φ β) (s : State α φ) : Action φ → Prop
  | .finalize _ => ¬ impl.Hungry s
  | _ => True

/-! ## What waiting threads wait for -/

structure WaitsAgree (s : State α φ) : Prop where
  frame : ∀ next, s.worker = .parkedReceive next → s.inboundQueue = []
  message : s.worker = .parkedMessage → s.messageReady = false
  /-- a parked Finalize has not missed the worker's exit -/
  exit : ∀ fmt, s.caller = .parkedEnsure fmt → s.worker ≠ .exited

section Step

variable {impl : SessionImpl α φ β} {s s' : State α φ} {a : Action φ} {es : List (Event β)}

theorem Step.exit (h : Step impl s a s' es) (done : s.workerDone = true ↔ s.worker.Done)
    (hs : ∀ fmt, s.caller = .parkedEnsure fmt → s.worker ≠ .exited) :
    ∀ fmt, s'.caller = .parkedEnsure fmt → s'.worker ≠ .exited := by
  cases h <;> simp_all [State.announce, State.fail, State.pushInbound, State.abort, State.destroy,
    WorkerPc.Done]

theorem WaitsAgree.step (hs : WaitsAgree s) (flags : FlagsAgree s) (h : Step impl s a s' es) :
    WaitsAgree s' where
  frame := h.frame hs.frame
  message := h.unset hs.message
  exit := h.exit flags.done_iff hs.exit

/-- In Finalize a session has not been stopped, unless by its worker's failure. -/
theorem FlagsAgree.live (flags : FlagsAgree s) (finalizing : s.caller.InFinalize)
    (active : ¬ s.worker.Over) : s.fatal = none ∧ s.aborted = false := by
  have fatal : s.fatal = none := by
    by_contra failed
    exact active (flags.fatal_over failed)
  refine ⟨fatal, ?_⟩
  by_contra aborted
  rcases flags.aborted_cause (by simpa using aborted) with failed | freed
  · exact failed fatal
  · obtain ⟨fmt, pc | pc | pc⟩ := finalizing <;> simp [State.freed, pc] at freed

/-- What the worker needs does not change on its way. -/
theorem Step.hungry_iff (h : Step impl s a s' es) (flags : FlagsAgree s)
    (finalizing : s.caller.InFinalize) (own : OnTheirOwn s a) :
    impl.Hungry s' ↔ impl.Hungry s := by
  have live := flags.live finalizing
  obtain ⟨fmt, caller⟩ := finalizing
  cases h with
  | messageTaken pc members start ready =>
      simp [SessionImpl.Hungry, pc, start, ready, WorkerPc.remaining]
  | lostWaiting pc gone | lostRunning pc gone =>
      rcases caller with at_ | at_ | at_ <;> simp [State.freed, at_] at gone
  | messageAborted pc members start ready stop =>
      obtain ⟨fatal, aborted⟩ := live (by simp [pc, WorkerPc.Over])
      simp [fatal, aborted] at stop
  | messageParked pc members start ready => simp [SessionImpl.Hungry, pc, start]
  | enteredFailed pc members stop | wokenFailed pc stop =>
      obtain ⟨fatal, aborted⟩ := live (by simp [pc, WorkerPc.Over])
      simp [fatal, aborted] at stop
  | enteredTaken pc members fatal aborted queue | wokenTaken pc fatal aborted queue =>
      simp [SessionImpl.Hungry, pc, queue, WorkerPc.remaining]
  | sendStored pc | sendNotified pc | enteredParked pc | wokenParked pc | published pc
  | failed pc | quiet pc | left pc | doneSet pc | exited pc =>
      simp [SessionImpl.Hungry, pc, WorkerPc.remaining, WorkerPc.notified, State.announce,
        State.fail]
  | snapshotEmpty pc | snapshotMessage pc | pushed pc | stepThrew pc | stepCollected pc
  | stepDone pc | stepContinued pc | stepParked pc | aborting pc | joined pc =>
      simp [pc] at caller
  | ensureThrew | ensurePassed | ensureParked | finalized | finalizeRefused => exact Iff.rfl
  | _ => exact own.elim

/-- Nobody but the caller of a Finalize makes its worker hungry. -/
theorem Step.sated (h : Step impl s a s' es) (flags : FlagsAgree s)
    (finalizing : s.caller.InFinalize) (sated : ¬ impl.Hungry s) : ¬ impl.Hungry s' := by
  by_cases own : OnTheirOwn s a
  · rwa [h.hungry_iff flags finalizing own]
  · obtain ⟨fmt, caller⟩ := finalizing
    cases h with
    | wokeReceive pc => simpa [SessionImpl.Hungry, pc, WorkerPc.remaining] using sated
    | wokeMessage pc => simpa [SessionImpl.Hungry, pc] using sated
    | wokeStep | wokeEnsure | messageMissing | messageRefused => exact sated
    | stepCalled pc | finalizeCalled pc | destroyed pc => simp [pc] at caller
    | messageAccepted start live ready =>
        cases pc : s.worker <;>
          simp_all [SessionImpl.Hungry, WorkerPc.messageNotified, WorkerPc.remaining]
    | _ => exact (own trivial).elim

/-- Only a call of Finalize enters it. -/
theorem Step.finalize_cases (h : Step impl s a s' es) (finalizing : s'.caller.InFinalize) :
    s.caller.InFinalize ∨ ∃ fmt, a = .finalize fmt := by
  cases h with
  | finalizeCalled => exact .inr ⟨_, rfl⟩
  | ensurePassed pc | ensureParked pc => exact .inl ⟨_, .inl pc⟩
  | wokeEnsure pc => exact .inl ⟨_, .inr (.inl pc)⟩
  | sendNotified | enteredTaken | enteredParked | enteredFailed | failed | left | exited =>
      exact .inl (by simpa [State.announce, State.fail] using finalizing)
  | pushed | aborting | destroyed =>
      simp [State.pushInbound, State.abort, State.destroy, CallerPc.notified,
        CallerPc.InFinalize] at finalizing
  | snapshotEmpty | snapshotMessage | stepThrew | stepCollected | stepDone | stepContinued
  | stepParked | ensureThrew | finalized | finalizeRefused | joined | wokeStep | stepCalled =>
      simp [CallerPc.InFinalize] at finalizing
  | _ => exact .inl finalizing

/-! ## The way to the end -/

/-- The steps of a program that these frames feed. -/
def Program.walkLength {ρ : Type} : Program ρ → List Bytes → ℕ
  | finish _, _ => 0
  | send _ next, frames => next.walkLength frames + 2
  | receive _, [] => 0
  | receive next, frame :: frames => (next (some (toMem frame))).walkLength frames + 1

/-- What a worker that has all it needs still has to do. -/
def SessionImpl.walkLeft (impl : SessionImpl α φ β) (s : State α φ) : ℕ :=
  match s.worker with
  | .exited | .lost => 0
  | .doneSet => 1
  | .returned => 2
  | .leaving => 3
  | .running program => program.walkLength s.inboundQueue + 4
  | .sent next => next.walkLength s.inboundQueue + 5
  | .parkedReceive next | .wokenReceive next =>
    (Program.receive next).walkLength s.inboundQueue + 4
  | .awaitMessage | .parkedMessage =>
    match impl.worker with
    | .protocol _ => 0
    | .awaitMessage sign => (sign (toMem s.message)).walkLength s.inboundQueue + 5

/-- What the caller has to do before it waits or returns. -/
def CallerPc.toWait : CallerPc φ → ℕ
  | .ensuring _ => 1
  | _ => 0

/-- A Finalize whose worker will come to its end. -/
structure Ending (impl : SessionImpl α φ β) (s : State α φ) : Prop where
  finalizing : s.caller.InFinalize
  sated : ¬ impl.Hungry s
  flags : FlagsAgree s
  waits : WaitsAgree s
  start : s.worker.AwaitsMessage → ∃ sign, impl.worker = .awaitMessage sign

/-- What remains of a Finalize; a notification costs the worker more than the caller gains. -/
def SessionImpl.finalizeLeft (impl : SessionImpl α φ β) (s : State α φ) : ℕ :=
  2 * impl.walkLeft s + s.caller.toWait

theorem CallerPc.toWait_le (pc : CallerPc φ) : pc.toWait ≤ 1 := by
  cases pc <;> simp [toWait]

/-- A step of the worker brings it closer to its exit. -/
theorem Ending.walk_lt (hs : Ending impl s) (h : Step impl s .worker s' es) :
    impl.walkLeft s' < impl.walkLeft s := by
  have live := hs.flags.live hs.finalizing
  cases h with
  | messageTaken pc members start ready => simp [SessionImpl.walkLeft, pc, start]
  | lostWaiting pc gone | lostRunning pc gone =>
      obtain ⟨fmt, at_ | at_ | at_⟩ := hs.finalizing <;> simp [State.freed, at_] at gone
  | messageAborted pc members start ready stop =>
      obtain ⟨fatal, aborted⟩ := live (by simp [pc, WorkerPc.Over])
      simp [fatal, aborted] at stop
  | messageParked pc members start ready =>
      exact (hs.sated (by simp [SessionImpl.Hungry, pc, start, ready])).elim
  | enteredFailed pc members stop | wokenFailed pc stop =>
      obtain ⟨fatal, aborted⟩ := live (by simp [pc, WorkerPc.Over])
      simp [fatal, aborted] at stop
  | enteredParked pc _ _ _ queue | wokenParked pc _ _ queue =>
      refine (hs.sated ?_).elim
      simp [SessionImpl.Hungry, pc, queue, WorkerPc.remaining, Program.starves]
  | enteredTaken pc members fatal aborted queue | wokenTaken pc fatal aborted queue =>
      simp [SessionImpl.walkLeft, pc, queue, Program.walkLength]
  | sendStored pc | sendNotified pc | published pc | failed pc | quiet pc | left pc | doneSet pc
  | exited pc =>
      simp [SessionImpl.walkLeft, pc, WorkerPc.notified, State.fail, Program.walkLength]

/-- A step of the worker leaves the caller inside. -/
theorem Step.worker_stays (h : Step impl s .worker s' es) (finalizing : s.caller.InFinalize) :
    s'.caller.InFinalize := by
  cases h <;> simpa [State.announce, State.fail] using finalizing

/-- A step of the caller ends the Finalize or brings it closer to its wait. -/
theorem Step.caller_stays (h : Step impl s .caller s' es) (finalizing : s.caller.InFinalize) :
    s'.caller = .idle ∧ (s.fatal ≠ none ∨ ∃ fmt, s.caller = .finalizing fmt) ∨
      s'.caller.InFinalize ∧ impl.walkLeft s' = impl.walkLeft s ∧
        s'.caller.toWait < s.caller.toWait := by
  obtain ⟨fmt, caller⟩ := finalizing
  cases h with
  | ensureThrew pc fatal => exact .inl ⟨rfl, .inl (by simp [fatal])⟩
  | finalized pc | finalizeRefused pc => exact .inl ⟨rfl, .inr ⟨_, pc⟩⟩
  | ensurePassed pc => exact .inr ⟨⟨_, .inr (.inr rfl)⟩, rfl, by simp [pc, CallerPc.toWait]⟩
  | ensureParked pc => exact .inr ⟨⟨_, .inr (.inl rfl)⟩, rfl, by simp [pc, CallerPc.toWait]⟩
  | _ => simp_all

theorem Ending.step (hs : Ending impl s) (own : OnTheirOwn s a) (h : Step impl s a s' es) :
    s'.caller = .idle ∨ Ending impl s' ∧ impl.finalizeLeft s' < impl.finalizeLeft s := by
  have next : s'.caller.InFinalize → Ending impl s' := fun finalizing =>
    { finalizing
      sated := h.sated hs.flags hs.finalizing hs.sated
      flags := hs.flags.step h
      waits := hs.waits.step hs.flags h
      start := fun awaits => hs.start (h.awaits_cases awaits).1 }
  cases a with
  | worker =>
      refine .inr ⟨next (h.worker_stays hs.finalizing), ?_⟩
      have lower := hs.walk_lt h
      have bound := s'.caller.toWait_le
      simp only [SessionImpl.finalizeLeft]
      omega
  | caller =>
      rcases h.caller_stays hs.finalizing with ⟨idle, _⟩ | ⟨finalizing, same, lower⟩
      · exact .inl idle
      · refine .inr ⟨next finalizing, ?_⟩
        simp only [SessionImpl.finalizeLeft, same]
        omega
  | _ => exact own.elim

/-- A parked worker lacks something that only the caller could supply. -/
theorem WaitsAgree.hungry (waits : WaitsAgree s)
    (start : s.worker.AwaitsMessage → ∃ sign, impl.worker = .awaitMessage sign)
    (parked : s.worker.Parked) : impl.Hungry s := by
  rcases parked with pc | ⟨next, pc⟩
  · obtain ⟨sign, given⟩ := start (.inr pc)
    simp [SessionImpl.Hungry, pc, given, waits.message pc]
  · simp [SessionImpl.Hungry, pc, WorkerPc.remaining, waits.frame next pc, Program.starves]

theorem Ending.enabled (hs : Ending impl s) :
    ∃ a r, OnTheirOwn s a ∧ impl.machine.step s a = some r := by
  obtain ⟨fmt, pc | pc | pc⟩ := hs.finalizing
  · exact ⟨.caller, s.ensureWorkerFinished fmt, trivial, by
      change s.callerStep impl = _
      simp [State.callerStep, pc]⟩
  · have unparked : ¬ s.worker.Parked := fun parked => hs.sated (hs.waits.hungry hs.start parked)
    obtain ⟨r, moves⟩ := worker_enabled hs.start unparked (hs.waits.exit fmt pc) fun lost => by
      simpa [State.freed, pc] using hs.flags.lost_freed lost
    exact ⟨.worker, r, trivial, moves⟩
  · exact ⟨.caller, s.finalize impl fmt, trivial, by
      change s.callerStep impl = _
      simp [State.callerStep, pc]⟩

end Step

/-! ## Whole runs -/

section Run

variable {impl : SessionImpl α φ β} {taken : List (State α φ × Action φ)}
  {es emitted : List (Event β)} {s s' : State α φ} {a : Action φ}

theorem run_waitsAgree (run : impl.machine.Run taken es s) : WaitsAgree s := by
  refine run.history_invariant (fun _ _ s => WaitsAgree s) ?_ ?_
  · have start : impl.machine.init.caller = .idle := rfl
    have queue : impl.machine.init.inboundQueue = [] := rfl
    have unset : impl.machine.init.messageReady = false := rfl
    exact ⟨fun _ _ => queue, fun _ => unset, by simp [start]⟩
  · intro _ _ _ _ _ _ hrun waits hstep
    exact waits.step (run_flagsAgree hrun) ((step_iff ..).mp hstep)

/-- A Finalize whose worker is hungry gets nowhere. -/
structure Stalled (impl : SessionImpl α φ β) (s : State α φ) : Prop where
  finalizing : s.caller.InFinalize
  hungry : impl.Hungry s
  flags : FlagsAgree s
  past : ∀ fmt, s.caller = .finalizing fmt → s.Succeeded

theorem Stalled.step (hs : Stalled impl s) (own : OnTheirOwn s a) (h : Step impl s a s' emitted) :
    Stalled impl s' := by
  have active : ¬ s.worker.Over := by
    rintro (pc | pc | pc) <;>
      simpa [SessionImpl.Hungry, pc, WorkerPc.remaining] using hs.hungry
  obtain ⟨fatal, _⟩ := hs.flags.live hs.finalizing active
  have unfinished : ¬ s.Succeeded :=
    fun succeeded => active (hs.flags.done_iff.mp succeeded.2).ended
  have finalizing : s'.caller.InFinalize := by
    cases a with
    | worker => exact h.worker_stays hs.finalizing
    | caller =>
        rcases h.caller_stays hs.finalizing with ⟨_, failed | ⟨fmt, pc⟩⟩ | ⟨stays, _⟩
        · exact (failed fatal).elim
        · exact (unfinished (hs.past fmt pc)).elim
        · exact stays
    | _ => exact own.elim
  refine ⟨finalizing, (h.hungry_iff hs.flags hs.finalizing own).mpr hs.hungry, hs.flags.step h, ?_⟩
  intro fmt pc
  rcases h.finalizing_cases pc with before | succeeded
  · exact (unfinished (hs.past fmt before)).elim
  · exact (unfinished succeeded).elim

/-- A Finalize in progress comes to its end exactly if the worker has all it needs. -/
theorem finalizeEnds_iff (run : impl.machine.Run taken es s) (finalizing : s.caller.InFinalize) :
    impl.FinalizeEnds s ↔ ¬ impl.Hungry s := by
  constructor
  · intro ends hungry
    have away : ∀ t, Stalled impl t → ¬ t.caller = .idle := by
      rintro t ⟨⟨fmt, caller⟩, _⟩ idle
      simp [idle] at caller
    refine (ends finalizing).not_of_closed away ?_
      ⟨finalizing, hungry, run_flagsAgree run, (run_replyFlags run).finalizing⟩
    intro t a t' emitted ht own hstep
    exact ht.step own ((step_iff ..).mp hstep)
  · intro sated _
    refine Machine.inevitable_of_descent OnTheirOwn (Ending impl) _ impl.finalizeLeft ?_ ?_
      ⟨finalizing, sated, run_flagsAgree run, run_waitsAgree run, run_awaits run⟩
    · exact fun t ht _ => ht.enabled
    · intro t a t' emitted ht _ own hstep
      exact ht.step own ((step_iff ..).mp hstep)

/-- All Finalizes of a run come to their ends exactly when each is called in time. -/
theorem run_finalizeEnds_iff (run : impl.machine.Run taken es s) :
    Machine.Throughout impl.FinalizeEnds taken s ↔
      Machine.Meets impl.FinalizesInTime taken := by
  refine run.throughout_iff impl.FinalizesInTime impl.FinalizeEnds ?_ ?_
  · rintro ⟨fmt, caller⟩
    rcases caller with caller | caller | caller <;> cases caller
  · intro taken es s a s' emitted run _ before hstep
    have next := run.next hstep
    have h := (step_iff ..).mp hstep
    constructor
    · intro ends
      cases h with
      | @finalizeCalled fmt pc => exact (finalizeEnds_iff next ⟨fmt, .inl rfl⟩).mp ends
      | _ => trivial
    · intro inTime finalizing
      refine (finalizeEnds_iff next finalizing).mpr ?_ finalizing
      rcases h.finalize_cases finalizing with already | ⟨fmt, rfl⟩
      · exact h.sated (run_flagsAgree run) already
          ((finalizeEnds_iff run already).mp before.2)
      · cases h with
        | finalizeCalled => exact inTime

/-- What a Finalize of its own accord replies. -/
theorem Step.reply (h : Step impl s a s' emitted) {e : Event β} (he : e ∈ emitted) :
    (∀ err, e = .finalizeRefused err → ∃ fmt, (impl.finalize fmt s.ready).1 = .error err) ∧
      ∀ value, e = .finalizeReturned value → ∃ fmt, (impl.finalize fmt s.ready).1 = .ok value := by
  cases h with
  | finalized pc result =>
      obtain rfl := List.mem_singleton.mp he
      refine ⟨by simp, ?_⟩
      rintro _ ⟨⟩
      exact ⟨_, by rw [result]⟩
  | finalizeRefused pc result =>
      obtain rfl := List.mem_singleton.mp he
      refine ⟨?_, by simp⟩
      rintro _ ⟨⟩
      exact ⟨_, by rw [result]⟩
  | _ => simp_all

/-- Every reply of the run that `finalize` gives satisfies what all of its replies satisfy. -/
theorem run_replies (P : Except Error β → Prop)
    (replies : ∀ fmt ready, P (impl.finalize fmt ready).1) (run : impl.machine.Run taken es s) :
    (∀ err, .finalizeRefused err ∈ es → P (.error err)) ∧
      ∀ value, .finalizeReturned value ∈ es → P (.ok value) := by
  have each : ∀ e ∈ es, (∀ err, e = .finalizeRefused err → P (.error err)) ∧
      ∀ value, e = .finalizeReturned value → P (.ok value) := by
    refine run.guarded_events (fun _ _ => True) (fun _ => True) _ trivial ?_ (fun _ _ => trivial)
    intro s a s' emitted _ _ hstep
    refine ⟨trivial, ?_⟩
    intro e he
    obtain ⟨refused, returned⟩ := ((step_iff ..).mp hstep).reply he
    constructor
    · intro err same
      obtain ⟨fmt, result⟩ := refused err same
      exact result ▸ replies fmt s.ready
    · intro value same
      obtain ⟨fmt, result⟩ := returned value same
      exact result ▸ replies fmt s.ready
  exact ⟨fun err mem => (each _ mem).1 err rfl, fun value mem => (each _ mem).2 value rfl⟩

end Run

/-! ## The sessions of the bridge -/

/-- If it is an error then one of state. -/
def IsStateError : Except Error β → Prop
  | .ok _ => True
  | .error err => err.code = .protocolState

section Sessions

variable {Point Paillier : Type} (cb : Ecdsa2pc Point Paillier)

theorem DkgSessionImpl.finalize_stateError (d : DkgSessionImpl) (fmt : Unit)
    (ready : Option (KeyFor Point Paillier d.party d.curve)) :
    IsStateError ((d.session cb).finalize fmt ready).1 := by
  cases ready with
  | none => rfl
  | some key => trivial

theorem RefreshSessionImpl.finalize_stateError (r : RefreshSessionImpl Point Paillier)
    (fmt : Unit) (ready : Option (KeyFor Point Paillier r.party r.keypair.key.curve)) :
    IsStateError ((r.session cb).finalize fmt ready).1 := by
  cases ready with
  | none => rfl
  | some key =>
      rw [(r.finalizesOnce cb).ready]
      trivial

/-- Only the device's session ever hands out a signature. -/
theorem SignSessionImpl.finalize_stateError (g : SignSessionImpl Point Paillier)
    (fmt : SigFormat) (ready : Option Signature) :
    IsStateError ((g.session cb).finalize fmt ready).1 ∧
      ∀ value, ((g.session cb).finalize fmt ready).1 = .ok value → g.party = .p1 := by
  simp only [SignSessionImpl.session]
  split
  next other => exact ⟨rfl, by simp⟩
  next device =>
    have party : g.party = .p1 := by simpa using device
    refine ⟨?_, fun _ _ => party⟩
    split
    · rfl
    · split
      · rfl
      · trivial

/-- Exactly as long as `Finalize` is not called before the worker has all it needs, every
Finalize returns or throws; what it refuses, it refuses with `ProtocolState`; it returns a
value only after the worker has succeeded, and a signature only to the device. -/
theorem session_finalize_ends :
    (∀ (d : DkgSessionImpl) taken es s, (d.session cb).machine.Run taken es s →
      (Machine.Throughout (d.session cb).FinalizeEnds taken s ↔
        Machine.Meets (d.session cb).FinalizesInTime taken) ∧
      (∀ err, .finalizeRefused err ∈ es → err.code = .protocolState) ∧
      ∀ value, .finalizeReturned value ∈ es → s.Succeeded) ∧
    (∀ (r : RefreshSessionImpl Point Paillier) taken es s,
      (r.session cb).machine.Run taken es s →
      (Machine.Throughout (r.session cb).FinalizeEnds taken s ↔
        Machine.Meets (r.session cb).FinalizesInTime taken) ∧
      (∀ err, .finalizeRefused err ∈ es → err.code = .protocolState) ∧
      ∀ value, .finalizeReturned value ∈ es → s.Succeeded) ∧
    ∀ (g : SignSessionImpl Point Paillier) taken es s, (g.session cb).machine.Run taken es s →
      (Machine.Throughout (g.session cb).FinalizeEnds taken s ↔
        Machine.Meets (g.session cb).FinalizesInTime taken) ∧
      (∀ err, .finalizeRefused err ∈ es → err.code = .protocolState) ∧
      ∀ value, .finalizeReturned value ∈ es → s.Succeeded ∧ g.party = .p1 := by
  refine ⟨?_, ?_, ?_⟩
  · intro d taken es s run
    exact ⟨run_finalizeEnds_iff run, (run_replies IsStateError (d.finalize_stateError cb) run).1,
      (run_replyFlags run).returned⟩
  · intro r taken es s run
    exact ⟨run_finalizeEnds_iff run, (run_replies IsStateError (r.finalize_stateError cb) run).1,
      (run_replyFlags run).returned⟩
  · intro g taken es s run
    refine ⟨run_finalizeEnds_iff run, ?_, ?_⟩
    · exact (run_replies IsStateError (fun fmt ready => (g.finalize_stateError cb fmt ready).1)
        run).1
    · intro value returned
      refine ⟨(run_replyFlags run).returned value returned, ?_⟩
      exact (run_replies (fun reply => ∀ value, reply = .ok value → g.party = .p1)
        (fun fmt ready => (g.finalize_stateError cb fmt ready).2) run).2 value returned value rfl

end Sessions

/-! ## A signature asked for without a message -/

/-- The worker waits for `SetMessage`, and the caller in Finalize for the worker. -/
def deviceSignHanging : State Signature SigFormat :=
  { (deviceSign.session instantDkg).init with
    worker := .parkedMessage
    caller := .parkedEnsure .der }

theorem unset_message_hangs_finalize :
    ¬ ∀ (g : SignSessionImpl Unit Unit) taken es s,
      (g.session instantDkg).machine.Run taken es s → ¬ s.FinalizeHangs := by
  intro h
  obtain ⟨taken, run, _⟩ := Machine.reach_of_trace
    (show (deviceSign.session instantDkg).machine.trace (fun _ _ => True)
      (deviceSign.session instantDkg).machine.init
      [.worker, .finalize .der, .caller] = some ([], deviceSignHanging) from rfl)
  exact h deviceSign taken _ _ run ⟨⟨.der, rfl⟩, .inl rfl⟩

/-- The message is set; the worker has not even picked it up. -/
def deviceSignSet : State Signature SigFormat :=
  { (deviceSign.session instantDkg).init with
    message := [1]
    messageReady := true }

theorem session_finalize_ends_set :
    (deviceSign.session instantDkg).FinalizeEnds
      { deviceSignSet with caller := .ensuring .der } := by
  have set : (deviceSign.session instantDkg).machine.Run
      [((deviceSign.session instantDkg).init, .setMessage (some [1]))]
      [.messageAccepted [1]] deviceSignSet := .next .start rfl
  have run := set.next (show (deviceSign.session instantDkg).machine.step deviceSignSet
    (.finalize .der) = some ({ deviceSignSet with caller := .ensuring .der }, []) from rfl)
  refine (((session_finalize_ends instantDkg).2.2 _ _ _ _ run).1.mpr ?_).2
  rintro p (_ | ⟨_, _ | ⟨_, ⟨⟩⟩⟩)
  · trivial
  · exact fun hungry => nomatch hungry rfl

end MaanyMpc
