import MaanyMpc.Session.Inbound
import MaanyMpc.Session.Outbound
import Mathlib.Algebra.Order.BigOperators.Group.Finset
import Mathlib.Logic.Function.Basic

/-! # Several Steps at a time

Each `dkgStep` and `signStep` of the addon runs on a thread of its own, so that one session can be
in many Steps. What a thread does under the lock is what the only caller does; a notification
reaches all of them. -/

namespace MaanyMpc

open Transition

variable {α φ β : Type}

/-! ## The threads -/

/-- The caller of `session` is not used. -/
structure SharedSession (α φ : Type) where
  session : State α φ
  callers : ℕ → CallerPc φ

/-- What the worker does, a call of `SetMessage`, and what the threads do. -/
inductive SharedAction where
  | worker
  | wakeWorker
  | setMessage (msg : Option Bytes)
  | caller (i : ℕ)
  | wakeCaller (i : ℕ)
  | step (i : ℕ) (inbound : Option Bytes)

namespace SharedAction

def thread : SharedAction → Option ℕ
  | .worker | .wakeWorker | .setMessage _ => none
  | .caller i | .wakeCaller i | .step i _ => some i

/-- For whoever does it. -/
def action : SharedAction → Action φ
  | .worker => .worker
  | .wakeWorker => .wakeWorker
  | .setMessage msg => .setMessage msg
  | .caller _ => .caller
  | .wakeCaller _ => .wakeCaller
  | .step _ inbound => .step inbound

end SharedAction

/-- The section calls `cv_.notify_all()`, or it is that call. -/
def State.notifies (s : State α φ) : Action φ → Bool
  | .worker =>
    match s.worker with
    | .running (.receive _) | .running (.finish (.fail _)) | .sent _ | .leaving | .doneSet => true
    | _ => false
  | .caller =>
    match s.caller with
    | .stepPushing .. | .destroying => true
    | _ => false
  | _ => false

namespace SharedSession

/-- The session as it is to one of the threads. -/
def seenBy (s : SharedSession α φ) (i : ℕ) : State α φ := { s.session with caller := s.callers i }

def woken (s : SharedSession α φ) (notifies : Bool) (j : ℕ) : CallerPc φ :=
  if notifies then (s.callers j).notified else s.callers j

end SharedSession

/-- The session while it lives. -/
def SessionImpl.shared (impl : SessionImpl α φ β) :
    Machine (SharedSession α φ) SharedAction (Option ℕ × Event β) where
  init := ⟨impl.init, fun _ => .idle⟩
  step s a :=
    match a.thread with
    | none =>
      (impl.step s.session a.action).map fun r =>
        (⟨r.1, s.woken (s.session.notifies a.action)⟩, r.2.map (none, ·))
    | some i =>
      (impl.step (s.seenBy i) a.action).map fun r =>
        (⟨{ r.1 with caller := .idle },
          Function.update (s.woken ((s.seenBy i).notifies a.action)) i r.1.caller⟩,
          r.2.map (some i, ·))

/-- A step of the worker, and a step of a thread. -/
inductive SharedStep (impl : SessionImpl α φ β) (s : SharedSession α φ) :
    SharedAction → SharedSession α φ → List (Option ℕ × Event β) → Prop where
  | session {a t es} (thread : a.thread = none) (h : Step impl s.session a.action t es) :
      SharedStep impl s a ⟨t, s.woken (s.session.notifies a.action)⟩ (es.map (none, ·))
  | caller {a i t es} (thread : a.thread = some i) (h : Step impl (s.seenBy i) a.action t es) :
      SharedStep impl s a
        ⟨{ t with caller := .idle },
          Function.update (s.woken ((s.seenBy i).notifies a.action)) i t.caller⟩
        (es.map (some i, ·))

theorem shared_step {impl : SessionImpl α φ β} {s s' : SharedSession α φ} {a : SharedAction}
    {es : List (Option ℕ × Event β)} (h : impl.shared.step s a = some (s', es)) :
    SharedStep impl s a s' es := by
  simp only [SessionImpl.shared] at h
  cases thread : a.thread with
  | none =>
      simp only [thread, Option.map_eq_some_iff, Prod.mk.injEq] at h
      obtain ⟨r, hstep, rfl, rfl⟩ := h
      exact .session thread ((step_iff ..).mp hstep)
  | some i =>
      simp only [thread, Option.map_eq_some_iff, Prod.mk.injEq] at h
      obtain ⟨r, hstep, rfl, rfl⟩ := h
      exact .caller thread ((step_iff ..).mp hstep)

/-- The step of the session that a recorded step is. -/
def soloStep (p : SharedSession α φ × SharedAction) : State α φ × Action φ :=
  (p.2.thread.elim p.1.session p.1.seenBy, p.2.action)

/-- The events of the worker and of all threads. -/
def allEvents (es : List (Option ℕ × Event β)) : List (Event β) := es.map Prod.snd

def threadEvents (i : ℕ) (es : List (Option ℕ × Event β)) : List (Event β) :=
  es.filterMap fun e => if e.1 = some i then some e.2 else none

/-- The messages that the thread has called Steps with, in call order. -/
def passedBy (i : ℕ) (taken : List (SharedSession α φ × SharedAction)) : List Bytes :=
  taken.filterMap fun p => if p.2.thread = some i then (p.2.action : Action φ).inbound? else none

@[simp] theorem allEvents_append (es fs : List (Option ℕ × Event β)) :
    allEvents (es ++ fs) = allEvents es ++ allEvents fs :=
  List.map_append

@[simp] theorem allEvents_tagged (thread : Option ℕ) (es : List (Event β)) :
    allEvents (es.map (thread, ·)) = es := by
  simp [allEvents, Function.comp_def]

@[simp] theorem threadEvents_append (i : ℕ) (es fs : List (Option ℕ × Event β)) :
    threadEvents i (es ++ fs) = threadEvents i es ++ threadEvents i fs :=
  List.filterMap_append

theorem threadEvents_tagged (i : ℕ) (thread : Option ℕ) (es : List (Event β)) :
    threadEvents i (es.map (thread, ·)) = if thread = some i then es else [] := by
  by_cases own : thread = some i
  · simp [threadEvents, own, List.filterMap_map]
  · simp [threadEvents, own, List.filterMap_map]

theorem passedBy_append_singleton (i : ℕ) (taken : List (SharedSession α φ × SharedAction))
    (s : SharedSession α φ) (a : SharedAction) :
    passedBy i (taken ++ [(s, a)]) =
      passedBy i taken ++
        if a.thread = some i then (a.action : Action φ).inbound?.toList else [] := by
  by_cases own : a.thread = some i
  · cases h : (a.action : Action φ).inbound? <;> simp [passedBy, List.filterMap_append, own, h]
  · simp [passedBy, List.filterMap_append, own]

section Step

variable {impl : SessionImpl α φ β} {s s' : SharedSession α φ} {a : SharedAction}
  {es : List (Option ℕ × Event β)}

theorem soloStep_fst (s : SharedSession α φ) (a : SharedAction) :
    (soloStep (s, a)).1 = { s.session with caller := (soloStep (s, a)).1.caller } := by
  cases thread : a.thread with
  | none => simp [soloStep, thread]
  | some i => simp [soloStep, thread, SharedSession.seenBy]

/-- What a step does to the session, whoever takes it. -/
theorem SharedStep.solo (h : SharedStep impl s a s' es) :
    ∃ t, Step impl (soloStep (s, a)).1 (soloStep (s, a)).2 t (allEvents es) ∧
      s'.session = { t with caller := s'.session.caller } := by
  cases h with
  | @session t es thread h =>
      refine ⟨t, ?_, rfl⟩
      simpa [soloStep, thread] using h
  | @caller i t es thread h =>
      refine ⟨t, ?_, rfl⟩
      simpa [soloStep, thread] using h

@[simp] theorem woken_entering (s : SharedSession α φ) (notifies : Bool) (i : ℕ) :
    (s.woken notifies i).entering = (s.callers i).entering := by
  cases notifies with
  | true => exact CallerPc.entering_notified _
  | false => rfl

/-- Only a push adds to the queue, only a receive takes from it. -/
theorem SharedStep.queue_eq (h : SharedStep impl s a s' es) :
    s.session.inboundQueue ++ suppliedFrames (allEvents es) =
      (taking? (soloStep (s, a)).1 (soloStep (s, a)).2).toList ++ s'.session.inboundQueue := by
  obtain ⟨t, h, same⟩ := h.solo
  have law := h.queue_eq
  rw [same]
  rw [soloStep_fst] at law ⊢
  exact law

theorem SharedStep.received_eq (h : SharedStep impl s a s' es) :
    receivedFrames (allEvents es) =
      (taking? (soloStep (s, a)).1 (soloStep (s, a)).2).toList.map toMem := by
  obtain ⟨t, h, _⟩ := h.solo
  exact h.received_eq

/-- Each thread pushes what it was called with. -/
theorem SharedStep.entering_eq (h : SharedStep impl s a s' es) (i : ℕ) :
    ((s.callers i).entering ++
        if a.thread = some i then (a.action : Action φ).inbound?.toList else []) =
      suppliedFrames (threadEvents i es) ++ (s'.callers i).entering := by
  cases h with
  | session thread h => simp [thread, threadEvents_tagged, suppliedFrames]
  | @caller j t es thread h =>
      by_cases own : i = j
      · subst own
        simpa [thread, threadEvents_tagged, SharedSession.seenBy] using h.entering_eq
      · simp [thread, threadEvents_tagged, suppliedFrames, own, Ne.symm own]

/-- A Step that compares with this request number would find nothing to report, unless the worker
is about to notify it. -/
def Unreported (s : State α φ) (waitSnapshot : UInt64) : Prop :=
  s.fatal = none ∧ ((∃ next, s.worker = .sent next) ∨ s.worker = .doneSet ∨
    s.workerDone = false ∧ s.outbound = none ∧
      (s.waitingForInbound = true → ¬ waitSnapshot < s.waitRequestId))

/-- What does not notify gives no parked Step anything to report. -/
theorem Step.unreported {s t : State α φ} {a : Action φ} {es : List (Event β)}
    (h : Step impl s a t es) (silent : s.notifies a = false) {waitSnapshot : UInt64}
    (unreported : Unreported s waitSnapshot) : Unreported t waitSnapshot := by
  cases h with
  | stepCollected pc fatal outbound =>
      obtain ⟨alive, due | due | ⟨_, free, _⟩⟩ := unreported
      · exact ⟨alive, .inl due⟩
      · exact ⟨alive, .inr (.inl due)⟩
      · cases outbound.symm.trans free
  | _ => simp_all [State.notifies, Unreported, State.destroy]

/-- A Step parks with nothing to report. -/
theorem Step.unreported_of_parked {s t : State α φ} {es : List (Event β)}
    (h : Step impl s .caller t es) {waitSnapshot : UInt64}
    (parked : t.caller = .parkedStep waitSnapshot) : Unreported t waitSnapshot := by
  cases h <;> simp_all [Unreported, State.pushInbound, State.abort]

/-- What the parked Steps rely on. -/
def Attending (s : SharedSession α φ) : Prop :=
  ∀ i waitSnapshot, s.callers i = .parkedStep waitSnapshot → Unreported s.session waitSnapshot

theorem woken_eq_parkedStep {s : SharedSession α φ} {notifies : Bool} {i : ℕ}
    {waitSnapshot : UInt64} (h : s.woken notifies i = .parkedStep waitSnapshot) :
    notifies = false ∧ s.callers i = .parkedStep waitSnapshot := by
  cases notifies with
  | true => exact absurd h (CallerPc.notified_ne_parkedStep _ _)
  | false => exact ⟨rfl, h⟩

theorem Attending.step (attending : Attending s) (h : SharedStep impl s a s' es) :
    Attending s' := by
  intro j waitSnapshot parked
  cases h with
  | session thread h =>
      obtain ⟨silent, parked⟩ := woken_eq_parkedStep parked
      exact h.unreported silent (attending j waitSnapshot parked)
  | @caller i t es thread h =>
      by_cases own : j = i
      · subst own
        simp only [Function.update_self] at parked
        cases a with
        | caller k => exact h.unreported_of_parked parked
        | wakeCaller k =>
            simp only [SharedAction.action] at h
            cases h <;> simp at parked
        | step k inbound =>
            simp only [SharedAction.action] at h
            cases h
            simp at parked
        | _ => cases thread
      · simp only [Function.update_of_ne own] at parked
        obtain ⟨silent, parked⟩ := woken_eq_parkedStep parked
        exact h.unreported (s := s.seenBy i) silent (attending j waitSnapshot parked)

end Step

section Run

variable {impl : SessionImpl α φ β} {taken : List (SharedSession α φ × SharedAction)}
  {es : List (Option ℕ × Event β)} {s : SharedSession α φ}

/-- Taken and queued messages are the pushed ones, and each thread pushes what it is called
with. -/
theorem run_shared_inbound (run : impl.shared.Run taken es s) :
    takenFrames (taken.map soloStep) ++ s.session.inboundQueue =
        suppliedFrames (allEvents es) ∧
      receivedFrames (allEvents es) = (takenFrames (taken.map soloStep)).map toMem ∧
      ∀ i, suppliedFrames (threadEvents i es) ++ (s.callers i).entering = passedBy i taken := by
  refine run.history_invariant (fun taken es s =>
    takenFrames (taken.map soloStep) ++ s.session.inboundQueue =
        suppliedFrames (allEvents es) ∧
      receivedFrames (allEvents es) = (takenFrames (taken.map soloStep)).map toMem ∧
      ∀ i, suppliedFrames (threadEvents i es) ++ (s.callers i).entering = passedBy i taken)
    ⟨rfl, rfl, fun _ => rfl⟩ ?_
  rintro taken es s a s' emitted _ ⟨queue, received, threads⟩ hstep
  have hstep := shared_step hstep
  have takes : takenFrames ((taken ++ [(s, a)]).map soloStep) =
      takenFrames (taken.map soloStep) ++
        (taking? (soloStep (s, a)).1 (soloStep (s, a)).2).toList := by
    rw [List.map_append, List.map_singleton]
    exact takenFrames_append_singleton ..
  refine ⟨?_, ?_, ?_⟩
  · rw [takes, List.append_assoc, ← hstep.queue_eq, ← List.append_assoc, queue,
      allEvents_append, suppliedFrames_append]
  · rw [takes, List.map_append, allEvents_append, receivedFrames_append, received,
      hstep.received_eq]
  · intro i
    calc suppliedFrames (threadEvents i (es ++ emitted)) ++ (s'.callers i).entering
        = suppliedFrames (threadEvents i es) ++
            (suppliedFrames (threadEvents i emitted) ++ (s'.callers i).entering) := by simp
      _ = passedBy i taken ++
            if a.thread = some i then (a.action : Action φ).inbound?.toList else [] := by
            rw [← hstep.entering_eq, ← List.append_assoc, threads]
      _ = passedBy i (taken ++ [(s, a)]) := (passedBy_append_singleton ..).symm

/-- However many Steps a session is in, the worker receives every message that was pushed once and
in the order of the pushes, if and only if no message is taken whose size an `int` cannot hold; and
each thread pushes the messages of its own calls in call order. -/
theorem shared_inbound_iff (run : impl.shared.Run taken es s) :
    (receivedFrames (allEvents es) ++ s.session.inboundQueue = suppliedFrames (allEvents es) ↔
        Machine.Meets TakesShort (taken.map soloStep)) ∧
      ∀ i, suppliedFrames (threadEvents i es) ++ (s.callers i).entering = passedBy i taken := by
  obtain ⟨queue, received, threads⟩ := run_shared_inbound run
  refine ⟨?_, threads⟩
  rw [meets_takesShort_iff, received, ← queue, List.append_left_inj]

theorem run_sharedLedger (run : impl.shared.Run taken es s) :
    SlotLedger (taken.map soloStep) (allEvents es) s.session := by
  refine run.history_invariant (fun taken es s =>
    SlotLedger (taken.map soloStep) (allEvents es) s.session) ⟨fun _ => rfl, by simp⟩ ?_
  intro taken es s a s' emitted _ ledger hstep
  obtain ⟨t, h, same⟩ := (shared_step hstep).solo
  have solo : SlotLedger (taken.map soloStep) (allEvents es) (soloStep (s, a)).1 := by
    rw [soloStep_fst]
    exact ⟨ledger.balanced, ledger.short⟩
  have next := solo.step h
  rw [List.map_append, List.map_singleton, allEvents_append, same]
  exact ⟨next.balanced, next.short⟩

/-- However many Steps collect them, each message the worker sends is returned by one Step or is
still in the slot, in the order in which it was sent, if and only if every `OnSend` has found the
slot empty. -/
theorem shared_outbound_iff (run : impl.shared.Run taken es s) :
    collectedMessages (allEvents es) ++ s.session.outbound.toList = sentMessages (allEvents es) ↔
      Machine.Meets SendsIntoFreeSlot (taken.map soloStep) := by
  have ledger := run_sharedLedger run
  refine ⟨fun balanced => ?_, ledger.balanced⟩
  by_contra overwritten
  have short := ledger.short overwritten
  rw [← balanced, List.length_append] at short
  exact short.false

theorem run_attending (run : impl.shared.Run taken es s) : Attending s := by
  refine run.invariant (fun _ s => Attending s) (fun i waitSnapshot parked => ?_) ?_
  · cases parked
  · intro _ _ _ _ _ attending hstep
    exact attending.step (shared_step hstep)

/-- No wake-up is lost, however many Steps are parked: the next section of the worker notifies
them all, or a Step that looked again would park again. -/
theorem shared_wakeups (run : impl.shared.Run taken es s) {i : ℕ} {waitSnapshot : UInt64}
    (parked : s.callers i = .parkedStep waitSnapshot) :
    s.session.notifies .worker = true ∨
      (s.seenBy i).awaitStep waitSnapshot = ((s.seenBy i, []) : State α φ × List (Event β)) := by
  obtain ⟨alive, ⟨next, due⟩ | due | ⟨done, free, stale⟩⟩ := run_attending run i waitSnapshot parked
  · exact .inl (by simp [State.notifies, due])
  · exact .inl (by simp [State.notifies, due])
  · have again : ¬ ((s.session.waitingForInbound &&
        decide (waitSnapshot < s.session.waitRequestId)) = true) := by
      simpa using stale
    refine .inr ?_
    simp only [State.awaitStep, SharedSession.seenBy, alive, free, done, parked, if_neg again]
    rfl

end Run

/-! ## After the worker -/

/-- The sections that are left of a Step that does not park. -/
def CallerPc.sections : CallerPc φ → ℕ
  | .stepEntered none => 2
  | .stepEntered (some _) => 3
  | .stepPushing .. => 2
  | .stepLoop _ => 1
  | _ => 0

/-- The worker is gone, and the threads below `n` finish their Steps. -/
structure Closing (n : ℕ) (s : SharedSession α φ) : Prop where
  exited : s.session.worker = .exited
  done : s.session.workerDone = true
  running : ∀ i, s.callers i = .idle ∨ 0 < (s.callers i).sections
  bounded : ∀ i, n ≤ i → s.callers i = .idle

section Closing

variable {impl : SessionImpl α φ β} {s s' : SharedSession α φ} {es : List (Option ℕ × Event β)}
  {n : ℕ}

/-- Without a worker a section ends its Step or leaves one section less. -/
theorem Step.closing {t t' : State α φ} {es : List (Event β)} (h : Step impl t .caller t' es)
    (exited : t.worker = .exited) (done : t.workerDone = true) (left : 0 < t.caller.sections) :
    t'.worker = .exited ∧ t'.workerDone = true ∧ t'.caller.sections < t.caller.sections ∧
      (t'.caller = .idle ∨ 0 < t'.caller.sections) := by
  cases h <;> simp_all [CallerPc.sections, State.pushInbound, CallerPc.notified]

theorem exists_section (impl : SessionImpl α φ β) {i : ℕ} (left : 0 < (s.callers i).sections) :
    ∃ r, impl.shared.step s (.caller i) = some r := by
  have enabled : (impl.step (s.seenBy i) .caller).isSome := by
    simp only [SessionImpl.step, State.callerStep, SharedSession.seenBy]
    cases pc : s.callers i with
    | stepEntered inbound => cases inbound <;> rfl
    | stepPushing msg waitSnapshot | stepLoop waitSnapshot => rfl
    | _ => simp [pc, CallerPc.sections] at left
  rw [← Option.isSome_iff_exists]
  simpa [SessionImpl.shared, SharedAction.thread, SharedAction.action] using enabled

theorem woken_eq_self {notifies : Bool} (running : ∀ i, s.callers i = .idle ∨
    0 < (s.callers i).sections) (j : ℕ) : s.woken notifies j = s.callers j := by
  have awake : (s.callers j).notified = s.callers j := by
    have step := running j
    cases pc : s.callers j <;> simp_all [CallerPc.notified, CallerPc.sections]
  cases notifies with
  | true => exact awake
  | false => rfl

theorem Closing.step {i : ℕ} (closing : Closing n s) (h : SharedStep impl s (.caller i) s' es) :
    Closing n s' ∧ (s'.callers i).sections < (s.callers i).sections ∧
      ∀ j, j ≠ i → s'.callers j = s.callers j := by
  cases h with
  | session thread h => cases thread
  | @caller k t es thread h =>
      cases thread
      have left : 0 < (s.callers i).sections := by
        refine (closing.running i).resolve_left fun idle => ?_
        simp only [SharedAction.action] at h
        cases h <;> simp_all [SharedSession.seenBy]
      obtain ⟨exited, done, fewer, running⟩ := h.closing closing.exited closing.done left
      have others (notifies : Bool) (j : ℕ) (other : j ≠ i) :
          Function.update (s.woken notifies) i t.caller j = s.callers j := by
        rw [Function.update_of_ne other, woken_eq_self closing.running]
      refine ⟨⟨exited, done, fun j => ?_, fun j above => ?_⟩, ?_, others _⟩
      · by_cases own : j = i
        · subst own
          simpa using running
        · simp only [others _ j own]
          exact closing.running j
      · have other : j ≠ i := by
          rintro rfl
          simp [closing.bounded j above, CallerPc.sections] at left
        simp only [others _ j other]
        exact closing.bounded j above
      · simpa [SharedSession.seenBy] using fewer

/-- A thread is in no call or in a Step. -/
def CallerPc.InStep (pc : CallerPc φ) : Prop :=
  pc = .idle ∨ 0 < pc.sections ∨ ∃ waitSnapshot, pc = .parkedStep waitSnapshot

/-- What the threads are at, and that few of them have been used. -/
structure Stepping (s : SharedSession α φ) : Prop where
  done_iff : s.session.workerDone = true ↔ s.session.worker.Done
  inStep : ∀ i, (s.callers i).InStep
  bounded : ∃ n, ∀ i, n ≤ i → s.callers i = .idle

theorem CallerPc.InStep.notified {pc : CallerPc φ} (h : pc.InStep) : pc.notified.InStep := by
  cases pc <;> simp_all [CallerPc.InStep, CallerPc.notified, CallerPc.sections]

theorem woken_inStep {notifies : Bool} {i : ℕ} (h : (s.callers i).InStep) :
    (s.woken notifies i).InStep := by
  cases notifies with
  | true => exact h.notified
  | false => exact h

theorem woken_idle {notifies : Bool} {i : ℕ} (h : s.callers i = .idle) :
    s.woken notifies i = .idle := by
  cases notifies <;> simp [SharedSession.woken, h, CallerPc.notified]

theorem Step.inStep {t t' : State α φ} {a : SharedAction} {es : List (Event β)} {i : ℕ}
    (h : Step impl t a.action t' es) (thread : a.thread = some i) (inStep : t.caller.InStep) :
    t'.caller.InStep := by
  cases a with
  | caller k =>
      simp only [SharedAction.action] at h
      cases h with
      | ensureThrew pc | ensurePassed pc | ensureParked pc | finalized pc | finalizeRefused pc
      | aborting pc | joined pc => simp [pc, CallerPc.InStep, CallerPc.sections] at inStep
      | _ => simp [CallerPc.InStep, CallerPc.sections, State.pushInbound, CallerPc.notified]
  | wakeCaller k =>
      simp only [SharedAction.action] at h
      cases h with
      | wokeStep pc => exact .inr (.inl (by simp [CallerPc.sections]))
      | wokeEnsure pc => simp [pc, CallerPc.InStep, CallerPc.sections] at inStep
  | step k inbound =>
      simp only [SharedAction.action] at h
      cases h
      exact .inr (.inl (by cases inbound <;> simp [CallerPc.sections]))
  | _ => cases thread

theorem Stepping.step {a : SharedAction} (stepping : Stepping s)
    (h : SharedStep impl s a s' es) : Stepping s' := by
  obtain ⟨done_iff, inStep, n, bounded⟩ := stepping
  cases h with
  | session thread h =>
      exact ⟨h.workerDone_iff done_iff, fun i => woken_inStep (inStep i),
        n, fun i above => woken_idle (bounded i above)⟩
  | @caller i t es thread h =>
      refine ⟨h.workerDone_iff done_iff, fun j => ?_, max n (i + 1), fun j above => ?_⟩
      · by_cases own : j = i
        · subst own
          simpa using h.inStep thread (inStep j)
        · simpa [Function.update_of_ne own] using woken_inStep (inStep j)
      · have other : j ≠ i := by omega
        simpa [Function.update_of_ne other] using woken_idle (bounded j (by omega))

/-- Once the worker is gone no Step is left hanging: in whatever order the threads run, all come to
their end. -/
theorem shared_steps_end {taken : List (SharedSession α φ × SharedAction)}
    (run : impl.shared.Run taken es s) (exited : s.session.worker = .exited) :
    impl.shared.Inevitable (fun _ a => ∃ i, a = .caller i) (fun s => ∀ i, s.callers i = .idle)
      s := by
  have stepping : Stepping s := by
    refine run.invariant (fun _ s => Stepping s) ?_ ?_
    · have started : ¬ impl.worker.entry.Done := by
        cases impl.worker <;> simp [Worker.entry, WorkerPc.Done]
      exact ⟨iff_of_false Bool.false_ne_true started, fun _ => .inl rfl, 0, fun _ _ => rfl⟩
    · intro _ _ _ _ _ stepping hstep
      exact stepping.step (shared_step hstep)
  have done : s.session.workerDone = true := stepping.done_iff.mpr (.inr exited)
  obtain ⟨n, bounded⟩ := stepping.bounded
  have closing : Closing n s := by
    refine ⟨exited, done, fun i => ?_, bounded⟩
    obtain idle | left | ⟨waitSnapshot, parked⟩ := stepping.inStep i
    · exact .inl idle
    · exact .inr left
    · obtain ⟨_, ⟨next, due⟩ | due | ⟨undone, _⟩⟩ := run_attending run i waitSnapshot parked
      · cases exited.symm.trans due
      · cases exited.symm.trans due
      · cases done.symm.trans undone
  refine Machine.inevitable_of_descent _ (Closing n) _
    (fun s => ∑ i ∈ Finset.range n, (s.callers i).sections) ?_ ?_ closing
  · intro s closing busy
    obtain ⟨i, step⟩ := not_forall.mp busy
    obtain ⟨r, hstep⟩ := exists_section impl ((closing.running i).resolve_left step)
    exact ⟨.caller i, r, ⟨i, rfl⟩, hstep⟩
  · rintro s a s' emitted closing _ ⟨i, rfl⟩ hstep
    obtain ⟨closing', fewer, others⟩ := closing.step (shared_step hstep)
    have below : i < n := by
      by_contra above
      simp [closing.bounded i (not_lt.mp above), CallerPc.sections] at fewer
    refine .inr ⟨closing', Finset.sum_lt_sum (fun j _ => ?_) ⟨i, by simpa using below, fewer⟩⟩
    by_cases own : j = i
    · exact own ▸ fewer.le
    · rw [others j own]

end Closing

/-! ## Two threads -/

/-- The second thread pushes before the first. -/
theorem shared_inbound_iff_overtakes : ∃ taken s,
    readsTwice.shared.Run taken
      [(some 1, .supplied [2]), (some 0, .supplied [1]), (none, .received [2]),
        (none, .received [1])] s ∧
      s.session.inboundQueue = [] := by
  obtain ⟨taken, s, run, meets⟩ := Machine.run_of_trace
    (show (readsTwice.shared.trace
      (fun s a => TakesShort (soloStep (s, a)).1 (soloStep (s, a)).2) readsTwice.shared.init
      [.step 0 (some [1]), .step 1 (some [2]), .caller 0, .caller 1, .caller 1, .caller 0,
        .worker, .worker]).map Prod.fst = some _ from rfl)
  have received := (shared_inbound_iff run).1.mpr (List.forall_mem_map.mpr meets)
  exact ⟨taken, s, run, List.append_right_eq_self.mp received⟩

/-- Each thread collects one of the two messages. -/
theorem shared_outbound_iff_shared : ∃ taken s,
    twoSends.shared.Run taken
      [(none, .sent [1]), (some 1, .stepReturned ⟨.continue, some [1]⟩), (none, .sent [2]),
        (some 0, .stepReturned ⟨.continue, some [2]⟩)] s ∧
      s.session.outbound = none := by
  obtain ⟨taken, s, run, meets⟩ := Machine.run_of_trace
    (show (twoSends.shared.trace
      (fun s a => SendsIntoFreeSlot (soloStep (s, a)).1 (soloStep (s, a)).2) twoSends.shared.init
      [.step 0 none, .step 1 none, .caller 0, .caller 0, .caller 1, .worker, .caller 1, .worker,
        .worker, .worker, .caller 0]).map Prod.fst = some _ from rfl)
  refine ⟨taken, s, run, ?_⟩
  have balanced := (shared_outbound_iff run).mpr (List.forall_mem_map.mpr meets)
  exact Option.toList_eq_nil_iff.mp (List.append_right_eq_self.mp balanced)

/-- Both threads are parked when the worker has sent. -/
theorem shared_wakeups_sent : ∃ taken es s,
    twoSends.shared.Run taken es s ∧ s.callers 0 = .parkedStep 0 ∧ s.callers 1 = .parkedStep 0 ∧
      (s.session.notifies .worker = true ∨
        (s.seenBy 1).awaitStep 0 = ((s.seenBy 1, []) : State Unit Unit × List (Event Unit))) := by
  obtain ⟨taken, run, _⟩ := Machine.reach_of_trace
    (show twoSends.shared.trace (fun _ _ => True) twoSends.shared.init
      [.step 0 none, .step 1 none, .caller 0, .caller 0, .caller 1, .caller 1, .worker] =
        some (_, _) from rfl)
  exact ⟨taken, _, _, run, rfl, rfl, shared_wakeups run rfl⟩

/-- Two Steps are under way when the worker exits. -/
theorem shared_steps_end_two : ∃ taken es s,
    twoSends.shared.Run taken es s ∧ s.callers 0 = .stepLoop 0 ∧
      s.callers 1 = .stepEntered (some [1]) ∧
      twoSends.shared.Inevitable (fun _ a => ∃ i, a = .caller i)
        (fun s => ∀ i, s.callers i = .idle) s := by
  obtain ⟨taken, run, _⟩ := Machine.reach_of_trace
    (show twoSends.shared.trace (fun _ _ => True) twoSends.shared.init
      [.step 0 none, .step 1 (some [1]), .caller 0, .caller 0, .worker, .worker, .worker, .worker,
        .worker, .worker, .worker, .worker] = some (_, _) from rfl)
  exact ⟨taken, _, _, run, rfl, rfl, shared_steps_end run rfl⟩

end MaanyMpc
