import MaanyMpc.Session.Continue

/-! # The inbound queue

`AwaitStep` appends to `inbound_queue_`, `OnReceive` takes from its front and hands the
worker a `mem_t` of what it took. A message that a Step was called with is in its entry
section, in the queue, or with the worker, but an `int` may be too small for its size. -/

namespace MaanyMpc

variable {α φ β : Type}

def Event.received? : Event β → Option Bytes
  | .received msg => some msg
  | _ => none

/-- The messages that `OnReceive` has handed to the worker, in order. -/
def receivedFrames (es : List (Event β)) : List Bytes := es.filterMap Event.received?

@[simp] theorem receivedFrames_append (es fs : List (Event β)) :
    receivedFrames (es ++ fs) = receivedFrames es ++ receivedFrames fs :=
  List.filterMap_append

/-- The message a Step is called with. -/
def Action.inbound? : Action φ → Option Bytes
  | .step inbound => inbound
  | _ => none

/-- The messages that Steps were called with, in call order. -/
def passedFrames (taken : List (State α φ × Action φ)) : List Bytes :=
  taken.filterMap fun p => p.2.inbound?

theorem passedFrames_append_singleton (taken : List (State α φ × Action φ)) (s : State α φ)
    (a : Action φ) :
    passedFrames (taken ++ [(s, a)]) = passedFrames taken ++ a.inbound?.toList := by
  cases h : a.inbound? <;> simp [passedFrames, List.filterMap_append, h]

/-- The message of a Step that has not reached the push of `AwaitStep` yet. -/
def CallerPc.entering : CallerPc φ → List Bytes
  | .stepEntered inbound => inbound.toList
  | .stepPushing inbound _ => [inbound]
  | _ => []

@[simp] theorem CallerPc.entering_notified (pc : CallerPc φ) :
    pc.notified.entering = pc.entering := by
  cases pc <;> rfl

/-- The frame that the worker's next section takes from the queue. -/
def State.taking? (s : State α φ) : Option Bytes :=
  match s.worker with
  | .running (.receive _) =>
    if s.freed || s.aborted || s.fatal.isSome then none else s.inboundQueue.head?
  | .wokenReceive _ => if s.aborted || s.fatal.isSome then none else s.inboundQueue.head?
  | _ => none

/-- The frame that an action takes from the queue. -/
def taking? (s : State α φ) : Action φ → Option Bytes
  | .worker => s.taking?
  | _ => none

/-- The frames that the worker has taken from the queue, in order. -/
def takenFrames (taken : List (State α φ × Action φ)) : List Bytes :=
  taken.filterMap fun p => taking? p.1 p.2

theorem takenFrames_append_singleton (taken : List (State α φ × Action φ)) (s : State α φ)
    (a : Action φ) :
    takenFrames (taken ++ [(s, a)]) = takenFrames taken ++ (taking? s a).toList := by
  cases h : taking? s a <;> simp [takenFrames, List.filterMap_append, h]

/-- A frame that is taken from the queue has a size that an `int` can hold. -/
def TakesShort (s : State α φ) (a : Action φ) : Prop :=
  ∀ frame, taking? s a = some frame → frame.length < 2 ^ 31

instance (s : State α φ) (a : Action φ) : Decidable (TakesShort s a) :=
  match h : taking? s a with
  | none => .isTrue fun frame taken => by rw [h] at taken; cases taken
  | some frame => decidable_of_iff (frame.length < 2 ^ 31) (by simp [TakesShort, h])

/-- What the worker has received is what the Steps were called with, in order, up to what is
in the queue and with the Step being entered. -/
def InboundInOrder (taken : List (State α φ × Action φ)) (es : List (Event β))
    (s : State α φ) : Prop :=
  receivedFrames es <+: passedFrames taken ∧
    passedFrames taken = receivedFrames es ++ s.inboundQueue ++ s.caller.entering ∧
    (s.caller.entering = [] → passedFrames taken = receivedFrames es ++ s.inboundQueue)

section Step

variable {impl : SessionImpl α φ β} {s s' : State α φ} {a : Action φ} {es : List (Event β)}

/-- Only a push adds to the queue, at its end; only a receive takes from it, at its front. -/
theorem Step.queue_eq (h : Step impl s a s' es) :
    s.inboundQueue ++ suppliedFrames es = (taking? s a).toList ++ s'.inboundQueue := by
  cases h with
  | enteredFailed pc members stop | wokenFailed pc stop =>
      rcases stop with fatal | aborted
      · simp [taking?, State.taking?, pc, Option.isSome_iff_ne_none.mpr fatal, State.announce,
          suppliedFrames]
      · simp [taking?, State.taking?, pc, aborted, State.announce, suppliedFrames]
  | @lostRunning program pc gone =>
      cases program <;> simp [taking?, State.taking?, pc, gone, suppliedFrames]
  | _ => simp_all [taking?, State.taking?, State.announce, State.fail, State.pushInbound,
      State.abort, State.destroy, suppliedFrames, Event.supplied?, List.filterMap_cons]

/-- The worker is handed the `mem_t` of what is taken. -/
theorem Step.received_eq (h : Step impl s a s' es) :
    receivedFrames es = (taking? s a).toList.map toMem := by
  cases h with
  | enteredFailed pc members stop | wokenFailed pc stop =>
      rcases stop with fatal | aborted
      · simp [taking?, State.taking?, pc, Option.isSome_iff_ne_none.mpr fatal, receivedFrames]
      · simp [taking?, State.taking?, pc, aborted, receivedFrames]
  | @lostRunning program pc gone =>
      cases program <;> simp [taking?, State.taking?, pc, gone, receivedFrames]
  | _ => simp_all [taking?, State.taking?, receivedFrames, Event.received?,
      List.filterMap_cons]

/-- What a step takes over from its caller it keeps in the entry section or pushes. -/
theorem Step.entering_eq (h : Step impl s a s' es) :
    s.caller.entering ++ a.inbound?.toList = suppliedFrames es ++ s'.caller.entering := by
  cases h with
  | snapshotEmpty pc | snapshotMessage pc | pushed pc | stepCalled pc | stepThrew pc
  | stepCollected pc | stepDone pc | stepContinued pc | stepParked pc | ensureThrew pc
  | ensurePassed pc | ensureParked pc | finalized pc | finalizeRefused pc | joined pc
  | wokeStep pc | wokeEnsure pc | finalizeCalled pc | destroyed pc | aborting pc =>
      simp [pc, State.pushInbound, State.abort, State.destroy, suppliedFrames, Event.supplied?,
        Action.inbound?, CallerPc.entering, CallerPc.notified]
  | _ => simp [State.announce, State.fail, suppliedFrames, Event.supplied?, Action.inbound?,
      List.filterMap_cons]

/-- A step that hands the worker nothing leaves every queued message in its place. -/
theorem Step.queue_prefix (h : Step impl s a s' es) (idle : receivedFrames es = []) :
    s.inboundQueue <+: s'.inboundQueue := by
  have law := h.queue_eq
  rw [h.received_eq, List.map_eq_nil_iff] at idle
  rw [idle, List.nil_append] at law
  exact ⟨suppliedFrames es, law⟩

/-- A Step that throws leaves the queue as it is. -/
theorem Step.queue_of_threw (h : Step impl s a s' es) {err : Error}
    (threw : .stepThrew err ∈ es) : s'.inboundQueue = s.inboundQueue := by
  cases h with
  | stepThrew pc fatal => rfl
  | _ => simp at threw

end Step

section Run

variable {impl : SessionImpl α φ β} {taken : List (State α φ × Action φ)}
  {es : List (Event β)} {s : State α φ}

/-- Taken, queued and entering messages account for everything passed to Step. -/
theorem run_inbound_ledger (run : impl.machine.Run taken es s) :
    takenFrames taken ++ s.inboundQueue ++ s.caller.entering = passedFrames taken := by
  refine run.history_invariant (fun taken _ s =>
    takenFrames taken ++ s.inboundQueue ++ s.caller.entering = passedFrames taken) rfl ?_
  intro taken es s a s' emitted _ ledger hstep
  have hstep := (step_iff ..).mp hstep
  calc takenFrames (taken ++ [(s, a)]) ++ s'.inboundQueue ++ s'.caller.entering
      = takenFrames taken ++ ((taking? s a).toList ++ s'.inboundQueue) ++
          s'.caller.entering := by simp [takenFrames_append_singleton]
    _ = takenFrames taken ++ s.inboundQueue ++
          (suppliedFrames emitted ++ s'.caller.entering) := by simp [← hstep.queue_eq]
    _ = passedFrames taken ++ a.inbound?.toList := by
          rw [← hstep.entering_eq, ← List.append_assoc, ledger]
    _ = passedFrames (taken ++ [(s, a)]) := (passedFrames_append_singleton ..).symm

theorem run_received (run : impl.machine.Run taken es s) :
    receivedFrames es = (takenFrames taken).map toMem := by
  refine run.history_invariant (fun taken es _ =>
    receivedFrames es = (takenFrames taken).map toMem) rfl ?_
  intro taken es s a s' emitted _ received hstep
  rw [receivedFrames_append, takenFrames_append_singleton, List.map_append, received,
    ((step_iff ..).mp hstep).received_eq]

theorem meets_takesShort_iff (taken : List (State α φ × Action φ)) :
    Transition.Machine.Meets TakesShort taken ↔
      (takenFrames taken).map toMem = takenFrames taken := by
  have each : (takenFrames taken).map toMem = takenFrames taken ↔
      ∀ frame ∈ takenFrames taken, frame.length < 2 ^ 31 := by
    calc (takenFrames taken).map toMem = takenFrames taken
        ↔ (takenFrames taken).map toMem = (takenFrames taken).map id := by rw [List.map_id]
      _ ↔ ∀ frame ∈ takenFrames taken, toMem frame = frame := List.map_inj_left
      _ ↔ _ := forall₂_congr fun frame _ => toMem_eq_self_iff
  rw [each]
  constructor
  · intro meets frame mem
    obtain ⟨p, hp, takes⟩ := List.mem_filterMap.mp mem
    exact meets p hp frame takes
  · intro short p hp frame takes
    exact short frame (List.mem_filterMap.mpr ⟨p, hp, takes⟩)

/-- Where every message that a Step is called with fits, the worker receives what is taken. -/
theorem run_received_ledger (run : impl.machine.Run taken es s)
    (short : ∀ msg ∈ passedFrames taken, msg.length < 2 ^ 31) :
    receivedFrames es ++ s.inboundQueue ++ s.caller.entering = passedFrames taken := by
  have ledger := run_inbound_ledger run
  have kept : (takenFrames taken).map toMem = (takenFrames taken).map id := by
    refine List.map_congr_left fun frame mem => toMem_eq_self_iff.mpr (short frame ?_)
    rw [← ledger, List.append_assoc]
    exact List.mem_append_left _ mem
  rw [run_received run, kept, List.map_id, ledger]

/-- At every moment the worker has received a prefix of the messages passed to Step, and what
is missing is the queue, and in front of its push the message of the Step being entered: exactly
as long as no frame is taken whose size an `int` cannot hold. No step takes a message out of
the queue without handing it to the worker, least of all a Step that throws or an `OnReceive`
that fails. -/
theorem inbound_in_order_iff (run : impl.machine.Run taken es s) :
    (InboundInOrder taken es s ↔ Transition.Machine.Meets TakesShort taken) ∧
      ∀ a s' emitted, impl.machine.step s a = some (s', emitted) →
        (receivedFrames emitted = [] → s.inboundQueue <+: s'.inboundQueue) ∧
          ∀ err, .stepThrew err ∈ emitted → s'.inboundQueue = s.inboundQueue := by
  have ledger := run_inbound_ledger run
  refine ⟨?_, ?_⟩
  · rw [meets_takesShort_iff, ← run_received run]
    constructor
    · rintro ⟨-, account, -⟩
      rw [← ledger] at account
      simpa using account.symm
    · intro kept
      rw [← kept] at ledger
      refine ⟨⟨s.inboundQueue ++ s.caller.entering, by rw [← ledger, List.append_assoc]⟩,
        ledger.symm, fun idle => ?_⟩
      rw [← ledger, idle, List.append_nil]
  · intro a s' emitted hstep
    have hstep := (step_iff ..).mp hstep
    exact ⟨hstep.queue_prefix, fun err => hstep.queue_of_threw⟩

end Run

/-! ## Two messages and a third -/

/-- A worker that reads two messages and fails. -/
def readsTwice : SessionImpl Unit Unit Unit where
  worker := .protocol (.receive fun _ => .receive fun _ =>
    .finish (.fail ⟨.general, "refused"⟩))
  finalize _ ready := (.ok (), ready)

/-- The worker takes the first frame, whatever it is. -/
theorem readsTwice_receives (frame : Bytes) :
    ∃ taken s, readsTwice.machine.Run taken [.supplied frame, .received (toMem frame)] s ∧
      passedFrames taken = [frame] := by
  have run := (((Transition.Machine.Run.start (M := readsTwice.machine)).next
    (a := .step (some frame)) rfl).next (a := .caller) rfl).next (a := .caller) rfl
  exact ⟨_, _, run.next (a := .worker) rfl, rfl⟩

/-- Of a message of 2^31 bytes the worker is handed none. -/
theorem long_message_truncated :
    ¬ ∀ taken es s, readsTwice.machine.Run taken es s → InboundInOrder taken es s := by
  intro h
  obtain ⟨taken, s, run, passed⟩ := readsTwice_receives (List.replicate (2 ^ 31) 0)
  have order := (h taken _ s run).1
  rw [passed] at order
  have received : receivedFrames [(.supplied (List.replicate (2 ^ 31) 0) : Event Unit),
      .received (toMem (List.replicate (2 ^ 31) 0))] =
      [toMem (List.replicate (2 ^ 31) 0)] := rfl
  rw [received, List.cons_prefix_cons, toMem_eq_self_iff, List.length_replicate] at order
  omega

/-- Three messages, the second one empty; the third is passed to a Step that throws, and
stays behind the two that were received. -/
theorem inbound_in_order_iff_reads_twice :
    ∃ taken es s, readsTwice.machine.Run taken es s ∧ InboundInOrder taken es s ∧
      receivedFrames es = [[1], []] ∧ s.inboundQueue = [[2]] := by
  obtain ⟨taken, run, meets⟩ := Transition.Machine.reach_of_trace
    (show readsTwice.machine.trace TakesShort readsTwice.machine.init
      [.step (some [1]), .caller, .caller, .worker, .worker, .caller, .step (some []), .caller,
        .caller, .worker, .worker, .caller, .step (some [2]), .caller, .caller, .caller] =
        some _ from rfl)
  exact ⟨taken, _, _, run, (inbound_in_order_iff run).1.mpr meets, rfl, rfl⟩

end MaanyMpc
