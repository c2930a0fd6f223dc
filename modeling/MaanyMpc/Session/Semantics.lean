import MaanyMpc.Session.AsyncSession

/-! # Rules of a session

One rule for each thing a step of a session can do. The rules say what the executable
step does without mentioning its tests, and `step_iff` says that they say all of it. -/

namespace MaanyMpc

variable {α φ β : Type}

namespace WorkerPc

@[simp] theorem notified_parkedReceive (next : Option Bytes → Program (WorkerExit α)) :
    (parkedReceive next).notified = wokenReceive next := rfl

@[simp] theorem notified_eq_self {pc : WorkerPc α} (h : ∀ next, pc ≠ parkedReceive next) :
    pc.notified = pc := by
  cases pc with
  | parkedReceive next => exact (h next rfl).elim
  | _ => rfl

@[simp] theorem notified_eq_iff {pc pc' : WorkerPc α} (hp : ∀ next, pc' ≠ parkedReceive next)
    (hw : ∀ next, pc' ≠ wokenReceive next) : pc.notified = pc' ↔ pc = pc' := by
  cases pc with
  | parkedReceive next =>
      exact ⟨fun h => (hw next h.symm).elim, fun h => (hp next h.symm).elim⟩
  | _ => rfl

@[simp] theorem notified_ne_parkedReceive (pc : WorkerPc α)
    (next : Option Bytes → Program (WorkerExit α)) : pc.notified ≠ parkedReceive next := by
  cases pc <;> simp [notified]

@[simp] theorem notified_eq_wokenReceive {pc : WorkerPc α}
    {next : Option Bytes → Program (WorkerExit α)} :
    pc.notified = wokenReceive next ↔ pc = parkedReceive next ∨ pc = wokenReceive next := by
  cases pc <;> simp [notified]

@[simp] theorem messageNotified_ne_parkedMessage (pc : WorkerPc α) :
    pc.messageNotified ≠ parkedMessage := by
  cases pc <;> simp [messageNotified]

@[simp] theorem messageNotified_eq_awaitMessage {pc : WorkerPc α} :
    pc.messageNotified = awaitMessage ↔ pc = awaitMessage ∨ pc = parkedMessage := by
  cases pc <;> simp [messageNotified]

@[simp] theorem messageNotified_parkedMessage :
    (parkedMessage : WorkerPc α).messageNotified = awaitMessage := rfl

@[simp] theorem messageNotified_eq_self {pc : WorkerPc α} (h : pc ≠ parkedMessage) :
    pc.messageNotified = pc := by
  cases pc with
  | parkedMessage => exact (h rfl).elim
  | _ => rfl

@[simp] theorem messageNotified_eq_iff {pc pc' : WorkerPc α} (hp : pc' ≠ parkedMessage)
    (hw : pc' ≠ awaitMessage) : pc.messageNotified = pc' ↔ pc = pc' := by
  cases pc with
  | parkedMessage => exact ⟨fun h => (hw h.symm).elim, fun h => (hp h.symm).elim⟩
  | _ => rfl

/-- The worker function has returned. -/
def Over (pc : WorkerPc α) : Prop := pc = returned ∨ pc = doneSet ∨ pc = exited

/-- The thread has set `worker_done_`. -/
def Done (pc : WorkerPc α) : Prop := pc = doneSet ∨ pc = exited

theorem Done.ended {pc : WorkerPc α} (h : pc.Done) : pc.Over := .inr h

/-- The worker waits inside `OnReceive`. -/
def InReceive (pc : WorkerPc α) : Prop :=
  ∃ next, pc = parkedReceive next ∨ pc = wokenReceive next

/-- The worker waits for `SetMessage`. -/
def AwaitsMessage (pc : WorkerPc α) : Prop :=
  pc = awaitMessage ∨ pc = parkedMessage

instance (pc : WorkerPc α) : Decidable pc.InReceive := by
  cases pc with
  | parkedReceive next => exact .isTrue ⟨next, .inl rfl⟩
  | wokenReceive next => exact .isTrue ⟨next, .inr rfl⟩
  | _ => exact .isFalse (by simp [InReceive])

instance (pc : WorkerPc α) : Decidable pc.AwaitsMessage := by
  cases pc with
  | awaitMessage => exact .isTrue (.inl rfl)
  | parkedMessage => exact .isTrue (.inr rfl)
  | _ => exact .isFalse (by simp [AwaitsMessage])

end WorkerPc

namespace CallerPc

@[simp] theorem notified_ne_parkedStep (pc : CallerPc φ) (waitSnapshot : UInt64) :
    pc.notified ≠ parkedStep waitSnapshot := by
  cases pc <;> simp [notified]

@[simp] theorem notified_ne_parkedEnsure (pc : CallerPc φ) (fmt : φ) :
    pc.notified ≠ parkedEnsure fmt := by
  cases pc <;> simp [notified]

@[simp] theorem notified_eq_stepLoop {pc : CallerPc φ} {waitSnapshot : UInt64} :
    pc.notified = stepLoop waitSnapshot ↔
      pc = stepLoop waitSnapshot ∨ pc = parkedStep waitSnapshot := by
  cases pc <;> simp [notified]

@[simp] theorem notified_eq_stepPushing {pc : CallerPc φ} {msg : Bytes} {waitSnapshot : UInt64} :
    pc.notified = stepPushing msg waitSnapshot ↔ pc = stepPushing msg waitSnapshot := by
  cases pc <;> simp [notified]

@[simp] theorem notified_eq_joining {pc : CallerPc φ} :
    pc.notified = joining ↔ pc = joining := by
  cases pc <;> simp [notified]

@[simp] theorem notified_eq_finalizing {pc : CallerPc φ} {fmt : φ} :
    pc.notified = finalizing fmt ↔ pc = finalizing fmt := by
  cases pc <;> simp [notified]

end CallerPc

namespace State

@[simp] theorem notifyAll_workerDone (s : State α φ) :
    s.notifyAll.workerDone = s.workerDone := rfl

@[simp] theorem notifyAll_aborted (s : State α φ) :
    s.notifyAll.aborted = s.aborted := rfl

@[simp] theorem notifyAll_waitingForInbound (s : State α φ) :
    s.notifyAll.waitingForInbound = s.waitingForInbound := rfl

@[simp] theorem notifyAll_inboundQueue (s : State α φ) :
    s.notifyAll.inboundQueue = s.inboundQueue := rfl

@[simp] theorem notifyAll_outbound (s : State α φ) :
    s.notifyAll.outbound = s.outbound := rfl

@[simp] theorem notifyAll_fatal (s : State α φ) :
    s.notifyAll.fatal = s.fatal := rfl

@[simp] theorem notifyAll_waitRequestId (s : State α φ) :
    s.notifyAll.waitRequestId = s.waitRequestId := rfl

@[simp] theorem notifyAll_message (s : State α φ) :
    s.notifyAll.message = s.message := rfl

@[simp] theorem notifyAll_messageReady (s : State α φ) :
    s.notifyAll.messageReady = s.messageReady := rfl

@[simp] theorem notifyAll_ready (s : State α φ) :
    s.notifyAll.ready = s.ready := rfl

@[simp] theorem notifyAll_worker (s : State α φ) :
    s.notifyAll.worker = s.worker.notified := rfl

@[simp] theorem notifyAll_caller (s : State α φ) :
    s.notifyAll.caller = s.caller.notified := rfl

/-- `OnReceive` up to its wait: the request is announced and the caller is notified. -/
def announce (s : State α φ) : State α φ :=
  notifyAll { s with waitingForInbound := true, waitRequestId := s.waitRequestId + 1 }

end State

def Event.ReturnsDone (e : Event β) : Prop :=
  ∃ outbound, e = .stepReturned ⟨.done, outbound⟩

/-- The rules. Each is named after what it does, and its premises are what the step
found under the lock. -/
inductive Step (impl : SessionImpl α φ β) :
    State α φ → Action φ → State α φ → List (Event β) → Prop where
  | messageTaken {s sign} (pc : s.worker = .awaitMessage)
      (members : s.freed = false) (start : impl.worker = .awaitMessage sign)
      (ready : s.messageReady = true) :
      Step impl s .worker { s with message := [], messageReady := false,
                                   worker := .running (sign (toMem s.message)) }
        [.signStarted (toMem s.message)]
  | messageAborted {s sign} (pc : s.worker = .awaitMessage)
      (members : s.freed = false) (start : impl.worker = .awaitMessage sign)
      (ready : s.messageReady = false) (stop : (s.fatal.isSome || s.aborted) = true) :
      Step impl s .worker { s with worker := .returned } []
  | messageParked {s sign} (pc : s.worker = .awaitMessage)
      (members : s.freed = false) (start : impl.worker = .awaitMessage sign)
      (ready : s.messageReady = false) (live : (s.fatal.isSome || s.aborted) = false) :
      Step impl s .worker { s with worker := .parkedMessage } []
  | sendStored {s msg next} (pc : s.worker = .running (.send msg next))
      (members : s.freed = false) :
      Step impl s .worker { s with outbound := some (toMem msg), worker := .sent next }
        [.sent (toMem msg)]
  | sendNotified {s next} (pc : s.worker = .sent next) :
      Step impl s .worker (State.notifyAll { s with worker := .running next }) []
  | enteredTaken {s next msg rest} (pc : s.worker = .running (.receive next))
      (members : s.freed = false) (fatal : s.fatal = none) (aborted : s.aborted = false)
      (queue : s.inboundQueue = msg :: rest) :
      Step impl s .worker { s.announce with inboundQueue := rest, waitingForInbound := false,
                                            worker := .running (next (some (toMem msg))) }
        [.received (toMem msg)]
  | enteredParked {s next} (pc : s.worker = .running (.receive next))
      (members : s.freed = false) (fatal : s.fatal = none) (aborted : s.aborted = false)
      (queue : s.inboundQueue = []) :
      Step impl s .worker { s.announce with worker := .parkedReceive next } []
  | enteredFailed {s next} (pc : s.worker = .running (.receive next))
      (members : s.freed = false) (stop : s.fatal ≠ none ∨ s.aborted = true) :
      Step impl s .worker { s.announce with worker := .running (next none) } []
  | wokenTaken {s next msg rest} (pc : s.worker = .wokenReceive next)
      (fatal : s.fatal = none) (aborted : s.aborted = false)
      (queue : s.inboundQueue = msg :: rest) :
      Step impl s .worker { s with inboundQueue := rest, waitingForInbound := false,
                                   worker := .running (next (some (toMem msg))) }
        [.received (toMem msg)]
  | wokenParked {s next} (pc : s.worker = .wokenReceive next)
      (fatal : s.fatal = none) (aborted : s.aborted = false) (queue : s.inboundQueue = []) :
      Step impl s .worker { s with worker := .parkedReceive next } []
  | wokenFailed {s next} (pc : s.worker = .wokenReceive next)
      (stop : s.fatal ≠ none ∨ s.aborted = true) :
      Step impl s .worker { s with worker := .running (next none) } []
  | published {s value} (pc : s.worker = .running (.finish (.publish value)))
      (members : s.freed = false) :
      Step impl s .worker { s with ready := some value, worker := .leaving } []
  | failed {s err} (pc : s.worker = .running (.finish (.fail err))) :
      Step impl s .worker (s.fail err) []
  | quiet {s} (pc : s.worker = .running (.finish .quiet)) :
      Step impl s .worker { s with worker := .leaving } []
  | lostWaiting {s} (pc : s.worker = .awaitMessage) (gone : s.freed = true) :
      Step impl s .worker { s with worker := .lost } []
  | lostRunning {s program} (pc : s.worker = .running program) (gone : s.freed = true)
      (needs : (WorkerPc.running program).needsMembers = true) :
      Step impl s .worker { s with worker := .lost } []
  | left {s} (pc : s.worker = .leaving) :
      Step impl s .worker (State.notifyAll { s with worker := .returned }) []
  | doneSet {s} (pc : s.worker = .returned) :
      Step impl s .worker { s with workerDone := true, worker := .doneSet } []
  | exited {s} (pc : s.worker = .doneSet) :
      Step impl s .worker (State.notifyAll { s with worker := .exited }) []
  | snapshotEmpty {s} (pc : s.caller = .stepEntered none) :
      Step impl s .caller { s with caller := .stepLoop s.waitRequestId } []
  | snapshotMessage {s msg} (pc : s.caller = .stepEntered (some msg)) :
      Step impl s .caller { s with caller := .stepPushing msg s.waitRequestId } []
  | pushed {s msg waitSnapshot} (pc : s.caller = .stepPushing msg waitSnapshot) :
      Step impl s .caller (s.pushInbound msg waitSnapshot) [.supplied msg]
  | stepThrew {s waitSnapshot err} (pc : s.caller = .stepLoop waitSnapshot)
      (fatal : s.fatal = some err) :
      Step impl s .caller { s with caller := .idle } [.stepThrew err]
  | stepCollected {s waitSnapshot data} (pc : s.caller = .stepLoop waitSnapshot)
      (fatal : s.fatal = none) (outbound : s.outbound = some data) :
      Step impl s .caller { s with outbound := none, caller := .idle }
        [.stepReturned ⟨if s.workerDone then .done else .continue, some data⟩]
  | stepDone {s waitSnapshot} (pc : s.caller = .stepLoop waitSnapshot)
      (fatal : s.fatal = none) (outbound : s.outbound = none) (done : s.workerDone = true) :
      Step impl s .caller { s with caller := .idle } [.stepReturned ⟨.done, none⟩]
  | stepContinued {s waitSnapshot} (pc : s.caller = .stepLoop waitSnapshot)
      (fatal : s.fatal = none) (outbound : s.outbound = none) (done : s.workerDone = false)
      (waiting : s.waitingForInbound = true) (later : waitSnapshot < s.waitRequestId) :
      Step impl s .caller { s with caller := .idle } [.stepReturned ⟨.continue, none⟩]
  | stepParked {s waitSnapshot} (pc : s.caller = .stepLoop waitSnapshot)
      (fatal : s.fatal = none) (outbound : s.outbound = none) (done : s.workerDone = false)
      (stale : s.waitingForInbound = true → ¬ waitSnapshot < s.waitRequestId) :
      Step impl s .caller { s with caller := .parkedStep waitSnapshot } []
  | ensureThrew {s fmt err} (pc : s.caller = .ensuring fmt) (fatal : s.fatal = some err) :
      Step impl s .caller { s with caller := .idle } [.finalizeThrew err]
  | ensurePassed {s fmt} (pc : s.caller = .ensuring fmt) (fatal : s.fatal = none)
      (done : s.workerDone = true) :
      Step impl s .caller { s with caller := .finalizing fmt } []
  | ensureParked {s fmt} (pc : s.caller = .ensuring fmt) (fatal : s.fatal = none)
      (done : s.workerDone = false) :
      Step impl s .caller { s with caller := .parkedEnsure fmt } []
  | finalized {s fmt value ready} (pc : s.caller = .finalizing fmt)
      (result : impl.finalize fmt s.ready = (.ok value, ready)) :
      Step impl s .caller { s with ready := ready, caller := .idle } [.finalizeReturned value]
  | finalizeRefused {s fmt err ready} (pc : s.caller = .finalizing fmt)
      (result : impl.finalize fmt s.ready = (.error err, ready)) :
      Step impl s .caller { s with ready := ready, caller := .idle } [.finalizeRefused err]
  | aborting {s} (pc : s.caller = .destroying) :
      Step impl s .caller s.abort []
  | joined {s} (pc : s.caller = .joining) (worker : s.worker = .exited) :
      Step impl s .caller { s with caller := .destroyed } []
  | wokeReceive {s next} (pc : s.worker = .parkedReceive next) :
      Step impl s .wakeWorker { s with worker := .wokenReceive next } []
  | wokeMessage {s} (pc : s.worker = .parkedMessage) :
      Step impl s .wakeWorker { s with worker := .awaitMessage } []
  | wokeStep {s waitSnapshot} (pc : s.caller = .parkedStep waitSnapshot) :
      Step impl s .wakeCaller { s with caller := .stepLoop waitSnapshot } []
  | wokeEnsure {s fmt} (pc : s.caller = .parkedEnsure fmt) :
      Step impl s .wakeCaller { s with caller := .ensuring fmt } []
  | stepCalled {s inbound} (pc : s.caller = .idle) :
      Step impl s (.step inbound) { s with caller := .stepEntered inbound } []
  | finalizeCalled {s fmt} (pc : s.caller = .idle) :
      Step impl s (.finalize fmt) { s with caller := .ensuring fmt } []
  | messageMissing {s sign msg} (start : impl.worker = .awaitMessage sign)
      (live : s.freed = false) (missing : msg = none ∨ msg = some []) :
      Step impl s (.setMessage msg) s [.messageRefused ⟨.invalidArgument, "message required"⟩]
  | messageRefused {s sign byte rest} (start : impl.worker = .awaitMessage sign)
      (live : s.freed = false) (ready : s.messageReady = true) :
      Step impl s (.setMessage (some (byte :: rest))) s
        [.messageRefused ⟨.protocolState, "message already set"⟩]
  | messageAccepted {s sign byte rest} (start : impl.worker = .awaitMessage sign)
      (live : s.freed = false) (ready : s.messageReady = false) :
      Step impl s (.setMessage (some (byte :: rest)))
        { s with message := byte :: rest, messageReady := true,
                 worker := s.worker.messageNotified } [.messageAccepted (byte :: rest)]
  | destroyed {s} (pc : s.caller = .idle) :
      Step impl s .destroy s.destroy []

namespace Step

variable {impl : SessionImpl α φ β} {s s' : State α φ} {a : Action φ} {es : List (Event β)}

theorem execution (h : Step impl s a s' es) : impl.step s a = some (s', es) := by
  cases h with
  | enteredFailed pc stop =>
      cases hf : s.fatal <;> cases ha : s.aborted <;> simp_all [SessionImpl.step,
        State.workerStep, State.onReceive, State.awaitInbound, State.announce]
  | wokenFailed pc stop =>
      cases hf : s.fatal <;> cases ha : s.aborted <;> simp_all [SessionImpl.step,
        State.workerStep, State.awaitInbound, WorkerPc.needsMembers]
  | stepParked pc fatal outbound done stale =>
      cases hw : s.waitingForInbound <;> simp_all [SessionImpl.step, State.callerStep,
        State.awaitStep]
  | messageMissing start live missing =>
      rcases missing with rfl | rfl <;> simp [SessionImpl.step, start, live, State.setMessage]
  | lostWaiting pc gone => simp [SessionImpl.step, pc, gone, WorkerPc.needsMembers]
  | lostRunning pc gone needs => simp [SessionImpl.step, pc, gone, needs]
  | _ => simp_all [SessionImpl.step, State.workerStep, State.callerStep, State.takeMessage,
      State.onSend, State.onReceive, State.awaitInbound, State.announce, State.finish,
      State.awaitStep, State.ensureWorkerFinished, State.finalize, State.setMessage,
      State.wakeWorker, State.wakeCaller, State.destroy, WorkerPc.needsMembers]

theorem length_le_one (h : Step impl s a s' es) : es.length ≤ 1 := by
  cases h <;> simp

/-- An event of a step is its only one. -/
theorem eq_singleton {before after : List (Event β)} {e : Event β}
    (h : Step impl s a s' (before ++ e :: after)) : before = [] ∧ after = [] := by
  have bound := h.length_le_one
  simp only [List.length_append, List.length_cons] at bound
  exact ⟨List.eq_nil_of_length_eq_zero (by omega), List.eq_nil_of_length_eq_zero (by omega)⟩

/-- The fall-through of `awaitInbound`: neither waiting nor taking means stopped. -/
private theorem stopped_of_not_waiting
    (waiting : s.fatal = none → s.aborted = false → s.inboundQueue = [] → False)
    (taking : ∀ msg rest, s.fatal = none → s.aborted = false →
      s.inboundQueue = msg :: rest → False) : s.fatal ≠ none ∨ s.aborted = true := by
  cases hf : s.fatal with
  | some err => simp
  | none =>
      cases ha : s.aborted with
      | true => simp
      | false =>
          cases hq : s.inboundQueue with
          | nil => exact (waiting hf ha hq).elim
          | cons msg rest => exact (taking msg rest hf ha hq).elim

theorem of_workerStep (members : s.freed = true → s.worker.needsMembers = false)
    (h : s.workerStep impl = some (s', es)) : Step impl s .worker s' es := by
  have kept {pc : WorkerPc α} (at_ : s.worker = pc) (needs : pc.needsMembers = true) :
      s.freed = false := by
    by_contra gone
    have := members (by simpa using gone)
    rw [at_, needs] at this
    cases this
  unfold State.workerStep at h
  split at h
  next pc =>
    split at h
    · cases h
    next sign start =>
      simp only [Option.some.injEq] at h
      unfold State.takeMessage at h
      split at h
      next ready => cases h; exact .messageTaken pc (kept pc rfl) start ready
      next ready =>
        have ready : s.messageReady = false := by simpa using ready
        split at h
        next stop => cases h; exact .messageAborted pc (kept pc rfl) start ready stop
        next live =>
          cases h; exact .messageParked pc (kept pc rfl) start ready (by simpa using live)
  next exit pc =>
    cases exit with
    | publish value => cases h; exact .published pc (kept pc rfl)
    | fail err => cases h; exact .failed pc
    | quiet => cases h; exact .quiet pc
  next msg next pc => cases h; exact .sendStored pc (kept pc rfl)
  next next pc =>
    simp only [State.onReceive, State.awaitInbound, Option.some.injEq] at h
    split at h
    next fatal aborted queue =>
      cases h; exact .enteredParked pc (kept pc rfl) fatal aborted queue
    next fatal aborted queue =>
      cases h; exact .enteredTaken pc (kept pc rfl) fatal aborted queue
    next waiting taking =>
      cases h; exact .enteredFailed pc (kept pc rfl) (stopped_of_not_waiting waiting taking)
  next next pc => cases h; exact .sendNotified pc
  next next pc =>
    simp only [State.awaitInbound, Option.some.injEq] at h
    split at h
    next fatal aborted queue => cases h; exact .wokenParked pc fatal aborted queue
    next fatal aborted queue => cases h; exact .wokenTaken pc fatal aborted queue
    next waiting taking =>
      cases h; exact .wokenFailed pc (stopped_of_not_waiting waiting taking)
  next pc => cases h; exact .left pc
  next pc => cases h; exact .doneSet pc
  next pc => cases h; exact .exited pc
  all_goals cases h

theorem of_awaitStep {waitSnapshot : UInt64} (pc : s.caller = .stepLoop waitSnapshot)
    (h : s.awaitStep waitSnapshot = (s', es)) : Step impl s .caller s' es := by
  unfold State.awaitStep at h
  split at h
  next err fatal => cases h; exact .stepThrew pc fatal
  next fatal =>
    split at h
    next data outbound => cases h; exact .stepCollected pc fatal outbound
    next outbound =>
      split at h
      next done => cases h; exact .stepDone pc fatal outbound done
      next done =>
        have done : s.workerDone = false := by simpa using done
        split at h
        next waiting =>
          simp only [Bool.and_eq_true, decide_eq_true_eq] at waiting
          cases h; exact .stepContinued pc fatal outbound done waiting.1 waiting.2
        next stale =>
          cases h; exact .stepParked pc fatal outbound done (by simpa using stale)

theorem of_callerStep (h : s.callerStep impl = some (s', es)) : Step impl s .caller s' es := by
  unfold State.callerStep at h
  split at h
  next pc => cases h; exact .snapshotEmpty pc
  next msg pc => cases h; exact .snapshotMessage pc
  next msg waitSnapshot pc => cases h; exact .pushed pc
  next waitSnapshot pc => exact of_awaitStep pc (by simpa using h)
  next fmt pc =>
    simp only [State.ensureWorkerFinished, Option.some.injEq] at h
    split at h
    next err fatal => cases h; exact .ensureThrew pc fatal
    next fatal =>
      split at h
      next done => cases h; exact .ensurePassed pc fatal done
      next done => cases h; exact .ensureParked pc fatal (by simpa using done)
  next fmt pc =>
    simp only [State.finalize, Option.some.injEq] at h
    cases result : impl.finalize fmt s.ready with
    | mk reply ready =>
        cases reply with
        | ok value => simp only [result] at h; cases h; exact .finalized pc result
        | error err => simp only [result] at h; cases h; exact .finalizeRefused pc result
  next pc => cases h; exact .aborting pc
  next pc =>
    split at h
    next worker => cases h; exact .joined pc worker
    · cases h
  all_goals cases h

theorem of_setMessage {msg : Option Bytes} {sign : Bytes → Program (WorkerExit α)}
    (start : impl.worker = .awaitMessage sign) (live : s.freed = false)
    (h : s.setMessage msg = (s', es)) : Step impl s (.setMessage msg) s' es := by
  unfold State.setMessage at h
  split at h
  · cases h; exact .messageMissing start live (.inl rfl)
  · cases h; exact .messageMissing start live (.inr rfl)
  next bytes hne =>
    cases bytes with
    | nil => exact (hne rfl).elim
    | cons byte rest =>
        split at h
        next ready => cases h; exact .messageRefused start live ready
        next ready => cases h; exact .messageAccepted start live (by simpa using ready)

theorem of_needsMembers (gone : s.freed = true) (needs : s.worker.needsMembers = true) :
    Step impl s .worker { s with worker := .lost } [] := by
  cases pc : s.worker with
  | awaitMessage => exact .lostWaiting pc gone
  | running program => exact .lostRunning pc gone (by rw [← pc]; exact needs)
  | _ => simp [pc, WorkerPc.needsMembers] at needs

theorem of_execution (h : impl.step s a = some (s', es)) : Step impl s a s' es := by
  cases a with
  | worker =>
      simp only [SessionImpl.step] at h
      split at h
      next lost =>
        rw [Bool.and_eq_true] at lost
        cases h
        exact of_needsMembers lost.1 lost.2
      next members =>
        refine of_workerStep (fun gone => ?_) h
        simpa [gone] using members
  | caller => exact of_callerStep h
  | wakeWorker =>
      simp only [SessionImpl.step, State.wakeWorker] at h
      split at h <;> cases h
      next pc => exact .wokeReceive pc
      next pc => exact .wokeMessage pc
  | wakeCaller =>
      simp only [SessionImpl.step, State.wakeCaller] at h
      split at h <;> cases h
      next pc => exact .wokeStep pc
      next pc => exact .wokeEnsure pc
  | step inbound =>
      simp only [SessionImpl.step] at h
      split at h <;> cases h
      next pc => exact .stepCalled pc
  | finalize fmt =>
      simp only [SessionImpl.step] at h
      split at h <;> cases h
      next pc => exact .finalizeCalled pc
  | setMessage msg =>
      simp only [SessionImpl.step] at h
      split at h
      · cases h
      next sign start =>
        split at h
        · cases h
        next live => exact of_setMessage start (by simpa using live) (by simpa using h)
  | destroy =>
      simp only [SessionImpl.step] at h
      split at h <;> cases h
      next pc => exact .destroyed pc

end Step

theorem step_iff (impl : SessionImpl α φ β) (s s' : State α φ) (a : Action φ)
    (es : List (Event β)) : impl.machine.step s a = some (s', es) ↔ Step impl s a s' es :=
  ⟨Step.of_execution, Step.execution⟩

end MaanyMpc
