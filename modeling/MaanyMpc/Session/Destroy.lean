import MaanyMpc.Session.Outcome
import MaanyMpc.Session.Progress

/-! # Destroying a session

A destructor first destroys the members of its class. `~AsyncSession` then aborts the session,
notifies `cv_` and joins the worker. A worker that comes back to a destroyed member is lost,
and one that waits for `SetMessage` tests `aborted_`, but waits on `message_cv_`. -/

namespace MaanyMpc

open Transition

variable {α φ β : Type}

/-- The worker waits on a condition variable. -/
def WorkerPc.Parked (pc : WorkerPc α) : Prop :=
  pc = parkedMessage ∨ ∃ next, pc = parkedReceive next

/-- A parked thread resumes only after a notification. -/
def NotifiedOnly (_ : State α φ) : Action φ → Prop
  | .wakeWorker | .wakeCaller => False
  | _ => True

/-- The worker function returns at once, and publishes nothing. -/
def Program.Quits (program : Program (WorkerExit α)) : Prop :=
  (WorkerPc.running program).needsMembers = false

/-- Inside `OnReceive`: whichever way the call can end, the worker quits. -/
def State.ReceiveQuits (s : State α φ) (next : Option Bytes → Program (WorkerExit α)) : Prop :=
  (next none).Quits ∧ (s.aborted = false →
    ∀ msg rest, s.inboundQueue = msg :: rest → (next (some (toMem msg))).Quits)

/-- The worker does not come to a member any more, nor does it wait for `SetMessage`. -/
def State.Detached (s : State α φ) : Prop :=
  match s.worker with
  | .awaitMessage | .parkedMessage | .lost => False
  | .running program => program.Quits
  | .sent next => next.Quits
  | .parkedReceive next | .wokenReceive next => s.ReceiveQuits next
  | .leaving | .returned | .doneSet | .exited => True

/-- What a detached worker still has to do. -/
def WorkerPc.workLeft : WorkerPc α → ℕ
  | .doneSet => 1
  | .returned => 2
  | .leaving => 3
  | .running _ => 4
  | .sent _ | .parkedReceive _ => 5
  | .wokenReceive _ => 6
  | .awaitMessage | .parkedMessage | .exited | .lost => 0

/-- What destructor and worker still have to do up to the join. -/
def State.workLeft (s : State α φ) : ℕ :=
  match s.caller with
  | .destroying => s.worker.workLeft + 2
  | _ => s.worker.workLeft

/-- A session being freed, whose worker can leave. -/
structure Leaving (s : State α φ) : Prop where
  freeing : s.caller = .destroying ∨ s.caller = .joining ∧ s.aborted = true ∧ ¬ s.worker.Parked
  detached : s.Detached

section Step

variable {impl : SessionImpl α φ β} {s s' : State α φ} {a : Action φ} {es : List (Event β)}

theorem Step.frame (h : Step impl s a s' es)
    (hs : ∀ next, s.worker = .parkedReceive next → s.inboundQueue = []) :
    ∀ next, s'.worker = .parkedReceive next → s'.inboundQueue = [] := by
  cases h <;> simp_all [State.announce, State.fail, State.pushInbound, State.abort, State.destroy]

theorem Leaving.freed (hs : Leaving s) : s.freed = true := by
  rcases hs.freeing with pc | ⟨pc, _⟩
  · simp [State.freed, pc]
  · simp [State.freed, pc]

/-- Once a session is being freed, the destructor goes its way. -/
theorem Step.freeing_cases (h : Step impl s a s' es) (freed : s.freed = true) :
    (s.worker = .exited ∧ s'.caller = .destroyed) ∨ s'.caller = s.caller ∨
      s.caller = .destroying ∧ s' = s.abort := by
  cases h with
  | joined pc exited => exact .inl ⟨exited, rfl⟩
  | aborting pc => exact .inr (.inr ⟨pc, rfl⟩)
  | pushed | stepCalled | finalizeCalled | destroyed => simp_all [State.freed]
  | _ =>
      refine .inr (.inl ?_)
      cases pc : s.caller <;> simp_all [State.freed, State.fail, CallerPc.notified]

/-- A worker that is detached stays so. -/
theorem Step.detached_mono (h : Step impl s a s' es) (freed : s.freed = true)
    (detached : s.Detached) : s'.Detached := by
  cases h with
  | messageTaken _ live | messageAborted _ live | messageParked _ live | sendStored _ live
  | enteredTaken _ live | enteredParked _ live | enteredFailed _ live | published _ live
  | messageAccepted _ live =>
      rw [freed] at live
      cases live
  | lostWaiting pc => simp [State.Detached, pc] at detached
  | lostRunning pc _ needs =>
      simp only [State.Detached, pc, Program.Quits] at detached
      rw [needs] at detached
      cases detached
  | wokeMessage pc => simp [State.Detached, pc] at detached
  | sendNotified pc =>
      simp only [State.Detached, pc] at detached
      exact detached
  | wokenTaken pc fatal live queue =>
      simp only [State.Detached, pc] at detached
      exact detached.2 live _ _ queue
  | wokenFailed pc =>
      simp only [State.Detached, pc] at detached
      exact detached.1
  | wokenParked pc | wokeReceive pc =>
      simp only [State.Detached, pc] at detached
      exact detached
  | failed | quiet | left | doneSet | exited => exact trivial
  | pushed pc => simp [State.freed, pc] at freed
  | aborting pc =>
      cases at_ : s.worker with
      | parkedReceive next | wokenReceive next =>
          simp only [State.Detached, at_] at detached
          simp only [State.Detached, State.abort, State.notifyAll_worker, at_, WorkerPc.notified]
          exact ⟨detached.1, fun live => Bool.noConfusion live⟩
      | _ =>
          rw [State.Detached, at_] at detached
          rw [State.Detached, State.abort, State.notifyAll_worker, at_]
          exact detached
  | _ => exact detached

/-- An aborted session parks nobody. -/
theorem Step.unparked (h : Step impl s a s' es) (aborted : s.aborted = true)
    (unparked : ¬ s.worker.Parked) : ¬ s'.worker.Parked := by
  cases h <;> simp_all [State.fail, State.pushInbound, State.abort, State.destroy,
    WorkerPc.Parked]

theorem Leaving.step (hs : Leaving s) (h : Step impl s a s' es) :
    s'.caller = .destroyed ∨ Leaving s' := by
  have detached := h.detached_mono hs.freed hs.detached
  rcases h.freeing_cases hs.freed with ⟨_, ended⟩ | same | ⟨pc, rfl⟩
  · exact .inl ended
  · refine .inr ⟨?_, detached⟩
    rw [same]
    refine hs.freeing.imp id ?_
    rintro ⟨pc, aborted, unparked⟩
    exact ⟨pc, h.aborted_mono aborted, h.unparked aborted unparked⟩
  · refine .inr ⟨.inr ⟨?_, rfl, ?_⟩, detached⟩
    · simp [State.abort, CallerPc.notified]
    · rintro (parked | ⟨next, parked⟩)
      · simp [State.Detached, parked] at detached
      · simp [State.abort] at parked

/-- Every step of a session that is being freed brings its end closer. -/
theorem Leaving.work_lt (hs : Leaving s) (h : Step impl s a s' es) (notified : NotifiedOnly s a) :
    s'.caller = .destroyed ∨ s'.workLeft < s.workLeft := by
  have freed := hs.freed
  have detached := hs.detached
  cases h with
  | joined => exact .inl rfl
  | aborting pc =>
      refine .inr ?_
      cases at_ : s.worker <;>
        simp [State.workLeft, State.abort, pc, at_, WorkerPc.notified, CallerPc.notified,
          WorkerPc.workLeft]
  | wokeReceive | wokeMessage | wokeStep | wokeEnsure => exact notified.elim
  | sendNotified pc | wokenTaken pc | wokenParked pc | wokenFailed pc | quiet pc | failed pc
  | left pc | doneSet pc | exited pc =>
      refine .inr ?_
      rcases hs.freeing with at_ | ⟨at_, _⟩ <;>
        simp [State.workLeft, State.fail, pc, at_, WorkerPc.notified, CallerPc.notified,
          WorkerPc.workLeft]
  | lostWaiting pc => simp [State.Detached, pc] at detached
  | lostRunning pc _ needs =>
      simp only [State.Detached, pc, Program.Quits] at detached
      rw [needs] at detached
      cases detached
  | _ => simp_all [State.freed]

/-- A worker that is not parked can move until it has exited. -/
theorem worker_enabled (start : s.worker.AwaitsMessage → ∃ sign, impl.worker = .awaitMessage sign)
    (unparked : ¬ s.worker.Parked) (running : s.worker ≠ .exited) (found : s.worker ≠ .lost) :
    ∃ r, impl.machine.step s .worker = some r := by
  change ∃ r, impl.step s .worker = some r
  simp only [SessionImpl.step]
  split
  · exact ⟨_, rfl⟩
  cases pc : s.worker with
  | awaitMessage =>
      obtain ⟨sign, given⟩ := start (.inl pc)
      exact ⟨s.takeMessage sign, by simp [State.workerStep, pc, given]⟩
  | parkedMessage => exact (unparked (.inl pc)).elim
  | parkedReceive next => exact (unparked (.inr ⟨next, pc⟩)).elim
  | running program => cases program <;> simp [State.workerStep, pc]
  | exited => exact (running pc).elim
  | lost => exact (found pc).elim
  | _ => simp [State.workerStep, pc]

theorem Leaving.enabled (hs : Leaving s) :
    ∃ a r, NotifiedOnly s a ∧ impl.machine.step s a = some r := by
  rcases hs.freeing with pc | ⟨pc, _, unparked⟩
  · exact ⟨.caller, _, trivial, (Step.aborting pc).execution⟩
  · by_cases exited : s.worker = .exited
    · exact ⟨.caller, _, trivial, (Step.joined pc exited).execution⟩
    · have detached := hs.detached
      obtain ⟨r, moves⟩ : ∃ r, impl.machine.step s .worker = some r :=
        worker_enabled
          (by rintro (waiting | waiting) <;> simp [State.Detached, waiting] at detached) unparked
          exited fun lost => by simp [State.Detached, lost] at detached
      exact ⟨.worker, r, trivial, moves⟩

theorem Leaving.completes (hs : Leaving s) :
    impl.machine.Inevitable NotifiedOnly (fun t => t.caller = .destroyed) s := by
  refine Machine.inevitable_of_descent NotifiedOnly Leaving _ State.workLeft ?_ ?_ hs
  · exact fun t ht _ => ht.enabled
  · intro t a t' emitted ht _ notified hstep
    have h := (step_iff ..).mp hstep
    rcases ht.step h with ended | leaving
    · exact .inl ended
    · exact (ht.work_lt h notified).imp id fun lower => ⟨leaving, lower⟩

/-! ## No way out -/

/-- A session being freed whose worker is going to come to a destroyed member, or has, or
waits where nobody notifies it. -/
structure Doomed (s : State α φ) : Prop where
  freeing : s.caller = .destroying ∨ s.caller = .joining
  worker : s.worker.AwaitsMessage ∨ s.worker = .lost ∨
    (∃ program, (s.worker = .running program ∨ s.worker = .sent program) ∧ ¬ program.Quits) ∨
    s.aborted = true ∧ ∃ next, (s.worker = .parkedReceive next ∨ s.worker = .wokenReceive next) ∧
      ¬ (next none).Quits

theorem Doomed.freed (hs : Doomed s) : s.freed = true := by
  rcases hs.freeing with pc | pc <;> simp [State.freed, pc]

/-- The worker of a doomed session does not get out. -/
theorem Doomed.stays (hs : Doomed s) (h : Step impl s a s' es) (notified : NotifiedOnly s a) :
    s'.worker.AwaitsMessage ∨ s'.worker = .lost ∨
      (∃ program, (s'.worker = .running program ∨ s'.worker = .sent program) ∧ ¬ program.Quits) ∨
      s'.aborted = true ∧ ∃ next,
        (s'.worker = .parkedReceive next ∨ s'.worker = .wokenReceive next) ∧
          ¬ (next none).Quits := by
  have freed := hs.freed
  have trapped := hs.worker
  cases h with
  | messageTaken _ live | messageAborted _ live | messageParked _ live | sendStored _ live
  | enteredTaken _ live | enteredParked _ live | enteredFailed _ live | published _ live
  | messageAccepted _ live =>
      rw [freed] at live
      cases live
  | lostWaiting | lostRunning => exact .inr (.inl rfl)
  | sendNotified pc =>
      refine .inr (.inr (.inl ?_))
      simpa [pc, WorkerPc.AwaitsMessage] using trapped
  | wokenFailed pc =>
      refine .inr (.inr (.inl ?_))
      simp [pc, WorkerPc.AwaitsMessage] at trapped
      simpa using trapped.2
  | wokenTaken pc fatal live | wokenParked pc fatal live =>
      simp [pc, WorkerPc.AwaitsMessage, live] at trapped
  | wokeReceive | wokeMessage | wokeStep | wokeEnsure => exact notified.elim
  | failed pc | quiet pc =>
      simp only [pc, WorkerPc.AwaitsMessage] at trapped
      simp [Program.Quits, WorkerPc.needsMembers] at trapped
  | left pc | doneSet pc | exited pc => simp [pc, WorkerPc.AwaitsMessage] at trapped
  | pushed pc => simp [State.freed, pc] at freed
  | aborting pc =>
      rcases trapped with awaits | lost | ⟨program, at_, goes⟩ | ⟨_, next, at_, goes⟩
      · exact .inl (by simpa [State.abort, WorkerPc.AwaitsMessage] using awaits)
      · exact .inr (.inl (by simp [State.abort, lost, WorkerPc.notified]))
      · refine .inr (.inr (.inl ⟨program, ?_, goes⟩))
        rcases at_ with at_ | at_ <;> simp [State.abort, at_, WorkerPc.notified]
      · refine .inr (.inr (.inr ⟨rfl, next, .inr ?_, goes⟩))
        rcases at_ with at_ | at_ <;> simp [State.abort, at_, WorkerPc.notified]
  | _ => exact trapped

theorem Doomed.not_exited (hs : Doomed s) : s.worker ≠ .exited := by
  intro exited
  have trapped := hs.worker
  simp [exited, WorkerPc.AwaitsMessage] at trapped

theorem Doomed.step (hs : Doomed s) (h : Step impl s a s' es) (notified : NotifiedOnly s a) :
    Doomed s' where
  freeing := by
    rcases h.freeing_cases hs.freed with ⟨exited, _⟩ | same | ⟨_, rfl⟩
    · exact (hs.not_exited exited).elim
    · rw [same]
      exact hs.freeing
    · exact .inr (by simp [State.abort, CallerPc.notified])
  worker := hs.stays h notified

/-- Nobody but the destructor starts to free the session. -/
theorem Step.freed_cases (h : Step impl s a s' es) (freed : s'.freed = true) :
    s.freed = true ∨ a = .destroy ∧ s' = s.destroy := by
  cases h with
  | destroyed pc => exact .inr ⟨rfl, rfl⟩
  | aborting pc | joined pc => exact .inl (by simp [State.freed, pc])
  | sendNotified | enteredTaken | enteredParked | enteredFailed | failed | left | exited =>
      cases pc : s.caller <;>
        simp_all [State.freed, State.announce, State.fail, CallerPc.notified]
  | _ => simp_all [State.freed, State.pushInbound, CallerPc.notified]

end Step

/-! ## Whole runs -/

section Run

variable {impl : SessionImpl α φ β} {taken : List (State α φ × Action φ)}
  {es emitted : List (Event β)} {s s' : State α φ} {a : Action φ}

end Run

section Sessions

variable {Point Paillier : Type} (cb : Ecdsa2pc Point Paillier)

end Sessions

/-! ## A session freed before its message is set -/

def deviceSign : SignSessionImpl Unit Unit where
  keypair := deviceKeypair
  opts := ⟨.ecdsa2p, [], []⟩
  party := .p1
  party_eq := rfl
  scheme_eq := rfl

end MaanyMpc
