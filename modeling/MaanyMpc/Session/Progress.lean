import MaanyMpc.Session.Failure

/-! # Steps that return

A Step parks when it finds nothing to report. Whether somebody will wake it depends on
the request number it read before its first section: a worker that was already waiting
at that moment announces nothing further. -/

namespace MaanyMpc

variable {α φ β : Type}

/-- A Step past its push, which compares with this request number. -/
def CallerPc.Decides (pc : CallerPc φ) (waitSnapshot : UInt64) : Prop :=
  pc = .stepLoop waitSnapshot ∨ pc = .parkedStep waitSnapshot

/-- A Step that has read this request number. -/
def CallerPc.Holds (pc : CallerPc φ) (waitSnapshot : UInt64) : Prop :=
  (∃ msg, pc = .stepPushing msg waitSnapshot) ∨ pc.Decides waitSnapshot

/-- The worker is parked and only the caller could help it. -/
def State.WorkerBlocked (s : State α φ) : Prop :=
  (∃ next, s.worker = .parkedReceive next) ∧ s.inboundQueue = [] ∨ s.worker = .parkedMessage

/-- Caller and worker wait for each other. -/
def State.Deadlocked (s : State α φ) : Prop :=
  (∃ waitSnapshot, s.caller = .parkedStep waitSnapshot) ∧ s.WorkerBlocked ∧
    s.aborted = false ∧ s.fatal = none

/-- The worker has nothing left to do but to wait for a frame, and has told so before. -/
def State.Starved (s : State α φ) : Prop :=
  s.worker.InReceive ∧ s.inboundQueue = [] ∧ s.outbound = none

/-- A Step ends by throwing the worker's failure or by returning Continue. -/
def Event.Reports (e : Event β) : Prop :=
  (∃ err, e = .stepThrew err) ∨ ∃ outbound, e = .stepReturned ⟨.continue, outbound⟩

/-- What the worker has to be doing when a Step reads its request number: it does not wait
for `SetMessage`, and a Step without a frame does not find it starved. -/
def SnapshotSafe (s : State α φ) (inbound : Option Bytes) : Prop :=
  (s.worker.AwaitsMessage → s.messageReady = true) ∧ (inbound = none → ¬ s.Starved)

instance (s : State α φ) : Decidable s.Starved :=
  inferInstanceAs (Decidable (_ ∧ _ ∧ _))

instance (s : State α φ) (inbound : Option Bytes) : Decidable (SnapshotSafe s inbound) :=
  inferInstanceAs (Decidable ((_ → _) ∧ (_ → ¬ _)))

/-- Every Step starts at a safe moment, and the request counter does not wrap. -/
def StepsSafely (s : State α φ) : Action φ → Prop
  | .caller => ∀ inbound, s.caller = .stepEntered inbound → SnapshotSafe s inbound
  | .worker => (∃ next, s.worker = .running (.receive next)) →
      s.waitRequestId.toNat + 1 < UInt64.size
  | _ => True

instance (s : State α φ) (a : Action φ) : Decidable (StepsSafely s a) := by
  cases a with
  | caller =>
      cases hc : s.caller with
      | stepEntered inbound =>
          exact decidable_of_iff (SnapshotSafe s inbound) (by simp [StepsSafely, hc])
      | _ => exact .isTrue (by simp [StepsSafely, hc])
  | worker =>
      cases hw : s.worker with
      | running program =>
          cases program with
          | receive next =>
              exact decidable_of_iff (s.waitRequestId.toNat + 1 < UInt64.size)
                (by simp [StepsSafely, hw])
          | _ => exact .isTrue (by simp [StepsSafely, hw])
      | _ => exact .isTrue (by simp [StepsSafely, hw])
  | _ => exact .isTrue trivial

/-! ## The invariant -/

/-- What a Step in progress can rely on. -/
structure Attended (s : State α φ) : Prop where
  /-- its request number is not from the future -/
  snapshot_le : ∀ w, s.caller.Holds w → w ≤ s.waitRequestId
  /-- the worker it would wait for has asked again since -/
  asked : ∀ w, s.caller.Decides w → s.Starved →
    s.waitingForInbound = true ∧ w < s.waitRequestId
  message : ∀ w, s.caller.Holds w → s.worker.AwaitsMessage → s.messageReady = true
  unset : s.worker = .parkedMessage → s.messageReady = false
  /-- no wake-up is lost: a parked Step has nothing to report unless a notification is due -/
  parked : ∀ w, s.caller = .parkedStep w → (∃ next, s.worker = .sent next) ∨
    s.worker = .doneSet ∨
    s.outbound = none ∧ (s.waitingForInbound = true → ¬ w < s.waitRequestId)

section Step

variable {impl : SessionImpl α φ β} {s s' : State α φ} {a : Action φ} {es : List (Event β)}

theorem lt_request_succ {w id : UInt64} (hw : w ≤ id) (fits : id.toNat + 1 < UInt64.size) :
    w < id + 1 := by
  have hsucc : (id + 1).toNat = id.toNat + 1 := by
    rw [UInt64.toNat_add]
    exact Nat.mod_eq_of_lt fits
  rw [UInt64.lt_iff_toNat_lt, hsucc]
  have := UInt64.le_iff_toNat_le.mp hw
  omega

theorem Step.request_cases (h : Step impl s a s' es) :
    s'.waitRequestId = s.waitRequestId ∨
      a = .worker ∧ (∃ next, s.worker = .running (.receive next)) ∧
        s'.waitRequestId = s.waitRequestId + 1 := by
  cases h with
  | enteredTaken pc | enteredParked pc | enteredFailed pc => exact .inr ⟨rfl, ⟨_, pc⟩, rfl⟩
  | _ => exact .inl rfl

/-- A Step gets its request number from its first section only. -/
theorem Step.holds_cases {w : UInt64} (h : Step impl s a s' es) (hw : s'.caller.Holds w) :
    s.caller.Holds w ∨
      a = .caller ∧ (∃ inbound, s.caller = .stepEntered inbound) ∧ w = s.waitRequestId := by
  cases h <;> simp_all [State.announce, State.fail, State.pushInbound, State.abort, State.destroy,
    CallerPc.Holds, CallerPc.Decides]

theorem Attended.step_snapshot_le (hs : Attended s) (safe : StepsSafely s a)
    (h : Step impl s a s' es) : ∀ w, s'.caller.Holds w → w ≤ s'.waitRequestId := by
  intro w hw
  have hle : w ≤ s.waitRequestId := by
    rcases h.holds_cases hw with held | ⟨_, _, rfl⟩
    · exact hs.snapshot_le w held
    · exact UInt64.le_refl _
  rcases h.request_cases with same | ⟨rfl, entering, next⟩
  · rwa [same]
  · rw [next]
    exact UInt64.le_of_lt (lt_request_succ hle (safe entering))

theorem Attended.step_message (hs : Attended s) (safe : StepsSafely s a)
    (h : Step impl s a s' es) :
    ∀ w, s'.caller.Holds w → s'.worker.AwaitsMessage → s'.messageReady = true := by
  intro w hw awaits
  obtain ⟨awaited, keeps⟩ := h.awaits_cases awaits
  apply keeps
  rcases h.holds_cases hw with held | ⟨rfl, ⟨inbound, entered⟩, _⟩
  · exact hs.message w held awaited
  · exact (safe inbound entered).1 awaited

theorem Step.unset (h : Step impl s a s' es)
    (hs : s.worker = .parkedMessage → s.messageReady = false) :
    s'.worker = .parkedMessage → s'.messageReady = false := by
  cases h <;> simp_all [State.announce, State.fail, State.pushInbound, State.abort, State.destroy]

/-- How a Step can come to face a starved worker. -/
theorem Step.starved_cases {w : UInt64} (h : Step impl s a s' es) (hw : s'.caller.Decides w)
    (starved : s'.Starved) :
    s.caller.Decides w ∧ s.Starved ∧ s'.waitingForInbound = s.waitingForInbound ∧
        s'.waitRequestId = s.waitRequestId ∨
      a = .caller ∧ s.caller = .stepEntered none ∧ s.Starved ∨
      a = .worker ∧ s.caller.Decides w ∧ (∃ next, s.worker = .running (.receive next)) ∧
        s'.waitingForInbound = true ∧ s'.waitRequestId = s.waitRequestId + 1 := by
  obtain ⟨receiving, queue, outbound⟩ := starved
  cases h <;> simp_all [State.announce, State.fail, State.pushInbound, State.abort, State.destroy,
    CallerPc.Decides, WorkerPc.InReceive, State.Starved]

theorem Attended.step_asked (hs : Attended s) (safe : StepsSafely s a)
    (h : Step impl s a s' es) :
    ∀ w, s'.caller.Decides w → s'.Starved →
      s'.waitingForInbound = true ∧ w < s'.waitRequestId := by
  intro w hw starved
  rcases h.starved_cases hw starved with ⟨held, was, waiting, request⟩ |
    ⟨rfl, entered, was⟩ | ⟨rfl, held, entering, waiting, request⟩
  · rw [waiting, request]
    exact hs.asked w held was
  · exact ((safe none entered).2 rfl was).elim
  · rw [request]
    exact ⟨waiting, lt_request_succ (hs.snapshot_le w (.inr held)) (safe entering)⟩

theorem Attended.step_parked (hs : Attended s) (h : Step impl s a s' es) :
    ∀ w, s'.caller = .parkedStep w → (∃ next, s'.worker = .sent next) ∨
      s'.worker = .doneSet ∨
      s'.outbound = none ∧ (s'.waitingForInbound = true → ¬ w < s'.waitRequestId) := by
  have old := hs.parked
  cases h <;> simp_all [State.announce, State.fail, State.pushInbound, State.abort, State.destroy]

theorem Attended.step (hs : Attended s) (safe : StepsSafely s a) (h : Step impl s a s' es) :
    Attended s' where
  snapshot_le := hs.step_snapshot_le safe h
  asked := hs.step_asked safe h
  message := hs.step_message safe h
  unset := h.unset hs.unset
  parked := hs.step_parked h

end Step

/-! ## Whole runs -/

section Run

variable {impl : SessionImpl α φ β} {taken : List (State α φ × Action φ)}
  {es : List (Event β)} {s : State α φ}

theorem run_attended (run : impl.machine.Run taken es s)
    (meets : Transition.Machine.Meets StepsSafely taken) : Attended s := by
  refine run.guarded_invariant StepsSafely (fun _ s => Attended s) ?_ ?_ meets
  · have start : impl.machine.init.caller = .idle := rfl
    have unset : impl.machine.init.messageReady = false := rfl
    constructor <;> simp [start, unset, CallerPc.Holds, CallerPc.Decides]
  · intro _ _ _ _ _ hs safe hstep
    exact hs.step safe ((step_iff ..).mp hstep)

theorem Attended.not_deadlocked (hs : Attended s) : ¬ s.Deadlocked := by
  rintro ⟨⟨w, parked⟩, blocked, _, _⟩
  have holds : s.caller.Holds w := .inr (.inr parked)
  rcases blocked with ⟨⟨next, receiving⟩, queue⟩ | waiting
  · obtain ⟨outbound, stale⟩ : s.outbound = none ∧
        (s.waitingForInbound = true → ¬ w < s.waitRequestId) := by
      rcases hs.parked w parked with ⟨_, sent⟩ | done | quiet
      · simp [receiving] at sent
      · simp [receiving] at done
      · exact quiet
    obtain ⟨asked, later⟩ := hs.asked w (.inr parked) ⟨⟨next, .inl receiving⟩, queue, outbound⟩
    exact stale asked later
  · have ready := hs.message w holds (.inr waiting)
    rw [hs.unset waiting] at ready
    cases ready

/-- A Step that finds the worker blocked has something to report. -/
theorem Attended.reports (hs : Attended s) (hdone : s.workerDone = true ↔ s.worker.Done)
    {w : UInt64} (pc : s.caller = .stepLoop w) (blocked : s.WorkerBlocked) :
    ∃ s' e, impl.machine.step s .caller = some (s', [e]) ∧ e.Reports := by
  have unfinished : s.workerDone = false := by
    rw [← Bool.not_eq_true, hdone]
    rcases blocked with ⟨⟨next, receiving⟩, _⟩ | waiting
    · simp [receiving, WorkerPc.Done]
    · simp [waiting, WorkerPc.Done]
  rcases Option.eq_none_or_eq_some s.fatal with fatal | ⟨err, fatal⟩
  · rcases Option.eq_none_or_eq_some s.outbound with outbound | ⟨data, outbound⟩
    · rcases blocked with ⟨⟨next, receiving⟩, queue⟩ | waiting
      · obtain ⟨asked, later⟩ := hs.asked w (.inl pc) ⟨⟨next, .inl receiving⟩, queue, outbound⟩
        exact ⟨_, _, (Step.stepContinued pc fatal outbound unfinished asked later).execution,
          .inr ⟨none, rfl⟩⟩
      · have ready := hs.message w (.inr (.inl pc)) (.inr waiting)
        rw [hs.unset waiting] at ready
        cases ready
    · exact ⟨_, _, (Step.stepCollected pc fatal outbound).execution,
        .inr ⟨some data, by simp [unfinished]⟩⟩
  · exact ⟨_, _, (Step.stepThrew pc fatal).execution, .inl ⟨err, rfl⟩⟩

/-- As long as every Step starts at a safe moment, caller and worker never wait for each
other, and a Step that meets a blocked worker returns at once. -/
theorem step_never_deadlocks (run : impl.machine.Run taken es s)
    (meets : Transition.Machine.Meets StepsSafely taken) :
    ¬ s.Deadlocked ∧ ∀ waitSnapshot, s.caller = .stepLoop waitSnapshot → s.WorkerBlocked →
      ∃ s' e, impl.machine.step s .caller = some (s', [e]) ∧ e.Reports :=
  ⟨(run_attended run meets).not_deadlocked, fun _ pc blocked =>
    (run_attended run meets).reports (run_flagsAgree run).done_iff pc blocked⟩

/-! ## Steps that start at an unsafe moment -/

/-- Only a signing worker ever waits for a message. -/
theorem run_awaits (run : impl.machine.Run taken es s) :
    s.worker.AwaitsMessage → ∃ sign, impl.worker = .awaitMessage sign := by
  refine run.invariant
    (fun _ s => s.worker.AwaitsMessage → ∃ sign, impl.worker = .awaitMessage sign) ?_ ?_
  · intro awaits
    have entry : impl.machine.init.worker = impl.worker.entry := rfl
    rw [entry] at awaits
    cases hw : impl.worker with
    | protocol program => simp [hw, Worker.entry, WorkerPc.AwaitsMessage] at awaits
    | awaitMessage sign => exact ⟨sign, rfl⟩
  · intro _ _ _ _ _ before hstep awaits
    exact before (((step_iff ..).mp hstep).awaits_cases awaits).1

/-- There is nothing that a Step could report, and the session has not been stopped. -/
def State.NothingToReport (s : State α φ) : Prop :=
  s.outbound = none ∧ s.workerDone = false ∧ s.aborted = false ∧ s.fatal = none

/-- A Step that starts at an unsafe moment has nothing to report. -/
theorem run_nothingToReport (run : impl.machine.Run taken es s) {inbound : Option Bytes}
    (entered : s.caller = .stepEntered inbound) (early : ¬ SnapshotSafe s inbound) :
    s.NothingToReport := by
  have flags := run_flagsAgree run
  have position : s.worker.AwaitsMessage ∨ s.worker.InReceive ∧ s.outbound = none := by
    simp only [SnapshotSafe, not_and_or, Classical.not_imp, not_not] at early
    rcases early with ⟨awaits, _⟩ | ⟨_, receiving, _, outbound⟩
    · exact .inl awaits
    · exact .inr ⟨receiving, outbound⟩
  have active : ¬ s.worker.Over := by
    rcases position with (awaits | awaits) | ⟨⟨next, receiving | receiving⟩, _⟩ <;>
      simp_all [WorkerPc.Over]
  have fatal : s.fatal = none := by
    by_contra failed
    exact active (flags.fatal_over failed)
  refine ⟨?_, ?_, ?_, fatal⟩
  · rcases position with awaits | ⟨_, outbound⟩
    · exact (flags.untouched awaits).1
    · exact outbound
  · rw [← Bool.not_eq_true, flags.done_iff]
    exact fun done => active done.ended
  · rw [← Bool.not_eq_true]
    intro aborted
    rcases flags.aborted_cause aborted with failed | freed
    · exact failed fatal
    · simp [State.freed, entered] at freed

/-- One more step that emits nothing. -/
theorem extend_quiet {a : Action φ} {s' : State α φ} (run : impl.machine.Run taken es s)
    (h : Step impl s a s' []) : impl.machine.Run (taken ++ [(s, a)]) es s' := by
  have next := run.next h.execution
  rwa [List.append_nil] at next

/-- Once the worker is blocked, a Step that has read its request number parks for good. -/
theorem deadlocks_of_loop (run : impl.machine.Run taken es s) {waitSnapshot : UInt64}
    (pc : s.caller = .stepLoop waitSnapshot) (quiet : s.NothingToReport) (blocked : s.WorkerBlocked)
    (stale : s.waitingForInbound = true → ¬ waitSnapshot < s.waitRequestId) :
    ∃ more s', impl.machine.Run (taken ++ more) es s' ∧ s'.Deadlocked := by
  obtain ⟨outbound, unfinished, aborted, fatal⟩ := quiet
  exact ⟨_, _, extend_quiet run (.stepParked pc fatal outbound unfinished stale),
    ⟨waitSnapshot, rfl⟩, blocked, aborted, fatal⟩

/-- A worker that waits without success parks. -/
theorem parks_of_receiving (run : impl.machine.Run taken es s) (quiet : s.NothingToReport)
    (receiving : s.worker.InReceive) (queue : s.inboundQueue = []) :
    ∃ more next, impl.machine.Run (taken ++ more) es { s with worker := .parkedReceive next } := by
  obtain ⟨next, parked | woken⟩ := receiving
  · refine ⟨[], next, ?_⟩
    rwa [List.append_nil, ← parked]
  · exact ⟨_, next, extend_quiet run
      (.wokenParked woken quiet.2.2.2 quiet.2.2.1 queue)⟩

theorem parks_of_awaiting (run : impl.machine.Run taken es s) (quiet : s.NothingToReport)
    (live : s.freed = false) (awaits : s.worker.AwaitsMessage)
    (unset : s.messageReady = false) :
    ∃ more, impl.machine.Run (taken ++ more) es { s with worker := .parkedMessage } := by
  obtain ⟨sign, start⟩ := run_awaits run awaits
  rcases awaits with waiting | parked
  · refine ⟨_, extend_quiet run (.messageParked waiting live start unset ?_)⟩
    simp [quiet.2.2.1, quiet.2.2.2]
  · refine ⟨[], ?_⟩
    rwa [List.append_nil, ← parked]

/-- The condition is needed: from every reachable Step that starts at an unsafe moment, caller
and worker can run into a deadlock on their own. -/
theorem early_start_deadlocks (run : impl.machine.Run taken es s) {inbound : Option Bytes}
    (entered : s.caller = .stepEntered inbound) (early : ¬ SnapshotSafe s inbound) :
    ∃ more events s', impl.machine.Run (taken ++ more) events s' ∧ s'.Deadlocked := by
  have quiet := run_nothingToReport run entered early
  simp only [SnapshotSafe, not_and_or, Classical.not_imp, not_not, Bool.not_eq_true]
    at early
  rcases early with ⟨awaits, unset⟩ | ⟨rfl, receiving, queue, outbound⟩
  · have live : s.freed = false := by simp [State.freed, entered]
    obtain ⟨more, parked⟩ := parks_of_awaiting run quiet live awaits unset
    have unasked := ((run_flagsAgree run).untouched awaits).2
    cases inbound with
    | none =>
        have looping := extend_quiet parked (.snapshotEmpty entered)
        obtain ⟨rest, s', stuck, deadlocked⟩ := deadlocks_of_loop looping rfl quiet (.inr rfl)
          (by simp [unasked])
        rw [List.append_assoc, List.append_assoc] at stuck
        exact ⟨_, _, s', stuck, deadlocked⟩
    | some msg =>
        have pushing := extend_quiet parked (.snapshotMessage entered)
        have looping := pushing.next ((step_iff ..).mpr (.pushed rfl))
        obtain ⟨rest, s', stuck, deadlocked⟩ := deadlocks_of_loop looping rfl quiet (.inr rfl)
          (by simp [State.pushInbound, unasked])
        rw [List.append_assoc, List.append_assoc, List.append_assoc] at stuck
        exact ⟨_, _, s', stuck, deadlocked⟩
  · obtain ⟨more, next, parked⟩ := parks_of_receiving run quiet receiving queue
    have looping := extend_quiet parked (.snapshotEmpty entered)
    obtain ⟨rest, s', stuck, deadlocked⟩ := deadlocks_of_loop looping rfl quiet
      (.inl ⟨⟨next, rfl⟩, queue⟩) (by simp)
    rw [List.append_assoc, List.append_assoc] at stuck
    exact ⟨_, _, s', stuck, deadlocked⟩

end Run

/-! ## A worker that asks first -/

def asksOnce : SessionImpl Unit Unit Unit where
  worker := .protocol (.receive fun _ => .finish (.publish ()))
  finalize _ ready := (.ok (), ready)

/-- The worker has asked before the Step without a frame read its request number. -/
def asksOnceStuck : State Unit Unit :=
  { asksOnce.init with
    worker := .parkedReceive fun _ => .finish (.publish ())
    caller := .parkedStep 1
    waitingForInbound := true
    waitRequestId := 1 }

theorem early_request_deadlocks :
    ¬ ∀ taken es s, asksOnce.machine.Run taken es s → ¬ s.Deadlocked := by
  intro h
  obtain ⟨taken, run, _⟩ := Transition.Machine.reach_of_trace
    (show asksOnce.machine.trace (fun _ _ => True) asksOnce.machine.init
      [.worker, .step none, .caller, .caller] = some ([], asksOnceStuck) from rfl)
  exact h taken _ _ run ⟨⟨1, rfl⟩, .inl ⟨⟨_, rfl⟩, rfl⟩, rfl, rfl⟩

/-- The same worker, asking after the Step has begun. -/
theorem step_never_deadlocks_late_request :
    ∃ taken s, asksOnce.machine.Run taken [] s ∧ s.WorkerBlocked ∧ ¬ s.Deadlocked := by
  obtain ⟨taken, run, meets⟩ := Transition.Machine.reach_of_trace
    (show asksOnce.machine.trace StepsSafely asksOnce.machine.init
      [.step none, .caller, .worker] =
        some ([], { asksOnceStuck with caller := .stepLoop 0 }) from rfl)
  exact ⟨taken, _, run, .inl ⟨⟨_, rfl⟩, rfl⟩, (step_never_deadlocks run meets).1⟩

end MaanyMpc
