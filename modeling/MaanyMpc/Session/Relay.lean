import MaanyMpc.Bridge.CApi
import MaanyMpc.Coordinator.DualDkg
import MaanyMpc.Session.Inbound
import MaanyMpc.Session.Outbound

/-! # The relay

Two sessions behind the Node binding, and the drivers' way of carrying messages between them:
a frame received from the transport, or none, is passed to `dkgStep` or `signStep`, and the
`outMsg` of the result is sent to the other party. `maany_mpc_dkg_step` and
`maany_mpc_sign_step` are the same around `Step`, and so are the two steps of the binding. -/

namespace MaanyMpc

open Transition

variable {φ β : Type}

/-! ## The C API -/

/-- The inbound message of `maany_mpc_dkg_step`, from a pointer that may be null. Nothing if the
buffer is refused. -/
def stepInbound : Option Buf → Option (Option Bytes)
  | none => some none
  | some inPeerMsg =>
    if inPeerMsg.len ≠ 0 then (copyInBuffer inPeerMsg).map some else some (some [])

/-- `out_msg` and `result`. -/
def stepOutput (output : StepOutput) : Buf × StepState :=
  (match output.outbound with
    | none => .null 0
    | some bytes => copyOutBuffer bytes,
   output.state)

/-! ## The Node binding -/

/-- `JsDkgStep` up to the work item. -/
def jsStep (inPeerMsg : Option Bytes) : Bytes :=
  match inPeerMsg with
  | none => []
  | some data => data

/-- What `DkgStepExecute` passes to the C API. -/
def stepExecute (inbound : Bytes) : Option Buf :=
  if inbound ≠ [] then some (.bytes inbound) else none

/-- What it keeps of the outbound buffer. -/
def stepExecuted : Buf → Bytes
  | .null _ => []
  | .bytes data => data

/-- `DkgStepComplete`. -/
def stepComplete (outbound : Bytes) (state : StepState) : StepResult where
  outMsg := if outbound ≠ [] then some outbound else none
  done := state == .done

/-- From the argument of `dkgStep` to the argument of `Step`. -/
def stepArgument (inPeerMsg : Option Bytes) : Option (Option Bytes) :=
  stepInbound (stepExecute (jsStep inPeerMsg))

/-- From the output of `Step` to what `dkgStep` resolves to. -/
def stepResult (output : StepOutput) : StepResult :=
  stepComplete (stepExecuted (stepOutput output).1) (stepOutput output).2

/-! ## Two sessions and a transport -/

variable {α : Participant → Type}

structure RelayState (α : Participant → Type) (φ : Type) where
  sessions : (p : Participant) → State (α p) φ
  transport : InMemoryTransport

inductive RelayAction (φ : Type) where
  /-- anything but a call of `Step` -/
  | session (participant : Participant) (action : Action φ)
  /-- `receive`, and a call of `dkgStep` with the answer -/
  | step (participant : Participant)

/-- The payload that the driver sends for an event of the session. -/
def Event.outMsg? : Event β → Option Bytes
  | .stepReturned out => (stepResult out).outMsg
  | _ => none

namespace RelayState

/-- Which session makes which move, and what it leaves of the transport. -/
def call (s : RelayState α φ) : RelayAction φ → Option (Participant × Action φ × InMemoryTransport)
  | .session _ (.step _) => none
  | .session participant action => some (participant, action, s.transport)
  | .step participant =>
    let (inPeerMsg, transport) := s.transport.receive participant
    (stepArgument inPeerMsg).map fun inbound => (participant, .step inbound, transport)

end RelayState

/-- The driver sends each `outMsg` to the other party. -/
def InMemoryTransport.relay (t : InMemoryTransport) (participant : Participant)
    (es : List (Event β)) : InMemoryTransport :=
  (es.filterMap Event.outMsg?).foldl (fun t payload => t.send ⟨participant.other, payload⟩) t

def relay (impl : (p : Participant) → SessionImpl (α p) φ β) :
    Machine (RelayState α φ) (RelayAction φ) (Participant × Event β) where
  init := ⟨fun p => (impl p).init, .new⟩
  step s a :=
    match s.call a with
    | none => none
    | some (p, action, transport) =>
      ((impl p).machine.step (s.sessions p) action).map fun r =>
        (⟨Function.update s.sessions p r.1, transport.relay p r.2⟩, r.2.map fun e => (p, e))

/-! ## What the messages go through -/

theorem stepArgument_eq (inPeerMsg : Option Bytes) :
    stepArgument inPeerMsg = some (inPeerMsg.filter (· ≠ [])) := by
  cases inPeerMsg with
  | none => rfl
  | some data => cases data <;> rfl

theorem stepResult_outMsg (output : StepOutput) :
    (stepResult output).outMsg = output.outbound.filter (· ≠ []) := by
  obtain ⟨state, outbound⟩ := output
  cases outbound with
  | none => rfl
  | some data => cases data <;> rfl

/-- Of an optional message nothing is lost but the empty one. -/
theorem filter_ne_nil_eq_self {message : Option Bytes} :
    message.filter (· ≠ []) = message ↔ message ≠ some [] := by
  cases message with
  | none => simp
  | some data => cases data <;> simp [Option.filter]

theorem outMsgs_eq (es : List (Event β)) :
    es.filterMap Event.outMsg? = (collectedMessages es).filter (· ≠ []) := by
  induction es with
  | nil => rfl
  | cons e es ih =>
      have first : e.outMsg? = e.collected?.filter (· ≠ []) := by
        cases e with
        | stepReturned out => exact stepResult_outMsg out
        | _ => rfl
      cases collected : e.collected? with
      | none => simpa [first, collected, collectedMessages, List.filterMap_cons] using ih
      | some data =>
          cases data <;>
            simpa [first, collected, collectedMessages, List.filterMap_cons, Option.filter] using ih

namespace InMemoryTransport

theorem relay_queues_other (t : InMemoryTransport) (p : Participant) (es : List (Event β)) :
    (t.relay p es).queues p.other =
      t.queues p.other ++ (collectedMessages es).filter (· ≠ []) := by
  rw [← outMsgs_eq]
  unfold relay
  induction es.filterMap Event.outMsg? generalizing t with
  | nil => simp
  | cons payload rest ih =>
      rw [List.foldl_cons, ih]
      simp [send]

theorem relay_queues_self (t : InMemoryTransport) (p : Participant) (es : List (Event β)) :
    (t.relay p es).queues p = t.queues p := by
  unfold relay
  induction es.filterMap Event.outMsg? generalizing t with
  | nil => rfl
  | cons payload rest ih =>
      rw [List.foldl_cons, ih]
      cases p <;> simp [send, Participant.other]

end InMemoryTransport

/-! ## Each session on its own -/

/-- The steps of one session. -/
def ownSteps (p : Participant) (taken : List (RelayState α φ × RelayAction φ)) :
    List (State (α p) φ × Action φ) :=
  taken.filterMap fun (s, a) =>
    match s.call a with
    | none => none
    | some (q, action, _) => if q = p then some (s.sessions p, action) else none

def ownEvents (p : Participant) (es : List (Participant × Event β)) : List (Event β) :=
  es.filterMap fun e => if e.1 = p then some e.2 else none

@[simp] theorem ownEvents_append (p : Participant) (es fs : List (Participant × Event β)) :
    ownEvents p (es ++ fs) = ownEvents p es ++ ownEvents p fs :=
  List.filterMap_append

@[simp] theorem ownEvents_map_self (p : Participant) (es : List (Event β)) :
    ownEvents p (es.map fun e => (p, e)) = es := by
  simp [ownEvents, List.filterMap_map]

theorem ownEvents_map_of_ne {p q : Participant} (other : q ≠ p) (es : List (Event β)) :
    ownEvents p (es.map fun e => (q, e)) = [] := by
  simp [ownEvents, other]

variable {impl : (p : Participant) → SessionImpl (α p) φ β} {s s' : RelayState α φ}
  {a : RelayAction φ} {es emitted : List (Participant × Event β)}
  {taken : List (RelayState α φ × RelayAction φ)}

/-- What a step consists of. -/
theorem relay_step_cases (h : (relay impl).step s a = some (s', emitted)) :
    ∃ q action transport t fs, s.call a = some (q, action, transport) ∧
      (impl q).machine.step (s.sessions q) action = some (t, fs) ∧
      s'.sessions = Function.update s.sessions q t ∧ s'.transport = transport.relay q fs ∧
      emitted = fs.map fun e => (q, e) := by
  simp only [relay] at h
  split at h
  · cases h
  next q action transport called =>
    obtain ⟨⟨t, fs⟩, stepped, result⟩ := Option.map_eq_some_iff.mp h
    obtain ⟨rfl, rfl⟩ := Prod.mk.inj result
    exact ⟨q, action, transport, t, fs, called, stepped, rfl, rfl, rfl⟩

theorem ownSteps_append_self {q : Participant} {action : Action φ} {transport : InMemoryTransport}
    (called : s.call a = some (q, action, transport)) :
    ownSteps q (taken ++ [(s, a)]) = ownSteps q taken ++ [(s.sessions q, action)] := by
  simp [ownSteps, called]

theorem ownSteps_append_of_ne {p q : Participant} (other : q ≠ p) {action : Action φ}
    {transport : InMemoryTransport} (called : s.call a = some (q, action, transport)) :
    ownSteps p (taken ++ [(s, a)]) = ownSteps p taken := by
  simp [ownSteps, called, other]

/-- In a run of the two sessions each is on a run of its own. -/
theorem run_own (run : (relay impl).Run taken es s) (p : Participant) :
    (impl p).machine.Run (ownSteps p taken) (ownEvents p es) (s.sessions p) := by
  induction run with
  | start => exact .start
  | next _ hstep ih =>
      obtain ⟨q, action, transport, t, fs, called, stepped, sessions, _, rfl⟩ :=
        relay_step_cases hstep
      rw [sessions]
      by_cases own : q = p
      · subst own
        rw [ownSteps_append_self called, ownEvents_append, ownEvents_map_self,
          Function.update_self]
        exact ih.next stepped
      · rw [ownSteps_append_of_ne own called, ownEvents_append, ownEvents_map_of_ne own,
          List.append_nil, Function.update_of_ne (Ne.symm own)]
        exact ih

/-! ## On the way -/

/-- The frame that a step takes from the transport. -/
structure Fetched (s : RelayState α φ) (q : Participant) (action : Action φ)
    (transport : InMemoryTransport) (frame : Option Bytes) : Prop where
  queue : s.transport.queues q = frame.toList ++ transport.queues q
  others : transport.queues q.other = s.transport.queues q.other
  passed : action.inbound? = frame.filter (· ≠ [])

theorem call_fetched {q : Participant} {action : Action φ} {transport : InMemoryTransport}
    (called : s.call a = some (q, action, transport)) :
    ∃ frame, Fetched s q action transport frame := by
  cases a with
  | session p action =>
      refine ⟨none, ?_⟩
      cases action with
      | step inbound => simp [RelayState.call] at called
      | _ =>
          cases called
          exact ⟨rfl, rfl, rfl⟩
  | step p =>
      simp only [RelayState.call, stepArgument_eq, Option.map_some, Option.some.injEq,
        Prod.mk.injEq] at called
      obtain ⟨rfl, rfl, rfl⟩ := called
      refine ⟨(s.transport.receive p).1, ?_, ?_, rfl⟩
      · unfold InMemoryTransport.receive
        cases waiting : s.transport.queues p <;> simp [waiting]
      · unfold InMemoryTransport.receive
        cases waiting : s.transport.queues p <;> cases p <;> simp [Participant.other]

/-- What the peer's `Step` has been called with and what is in its queue are, in order, the
messages that were collected from a party, without the empty ones. -/
theorem run_in_transit (run : (relay impl).Run taken es s) (p : Participant) :
    passedFrames (ownSteps p.other taken) ++ s.transport.queues p.other =
      (collectedMessages (ownEvents p es)).filter (· ≠ []) := by
  induction run with
  | start => rfl
  | @next taken es s a s' emitted _ hstep ih =>
      obtain ⟨q, action, transport, t, fs, called, _, _, relayed, rfl⟩ := relay_step_cases hstep
      obtain ⟨frame, queue, others, passed⟩ := call_fetched called
      rw [relayed]
      by_cases own : q = p
      · -- a move of the sender
        subst own
        have peer : q ≠ q.other := by cases q <;> simp [Participant.other]
        rw [ownSteps_append_of_ne peer called, InMemoryTransport.relay_queues_other, others,
          ← List.append_assoc, ih, ownEvents_append, ownEvents_map_self, collectedMessages_append,
          List.filter_append]
      · -- a move of the receiver
        have peer : q = p.other := by cases p <;> cases q <;> simp_all [Participant.other]
        subst peer
        have nonempty : frame ≠ some [] := by
          rintro rfl
          rw [queue] at ih
          have mem : [] ∈ (collectedMessages (ownEvents p es)).filter (· ≠ []) := by
            rw [← ih]
            simp
          simp at mem
        rw [ownSteps_append_self called, passedFrames_append_singleton, passed,
          filter_ne_nil_eq_self.mpr nonempty, InMemoryTransport.relay_queues_self,
          List.append_assoc, ← queue, ih, ownEvents_append, ownEvents_map_of_ne own,
          List.append_nil]

/-! ## What survives -/

/-- Every message passed to a party's `OnSend` has been handed to the peer's worker or is on its
way there, in order: in the peer's queue, with the Step it is entering, in the transport or in
the party's outbound slot. -/
def Survive (es : List (Participant × Event β)) (s : RelayState α φ) : Prop :=
  ∀ p, sentMessages (ownEvents p es) =
    receivedFrames (ownEvents p.other es) ++ (s.sessions p.other).inboundQueue ++
      (s.sessions p.other).caller.entering ++ s.transport.queues p.other ++
      (s.sessions p).outbound.toList

/-- A Step does not find an empty message in the outbound slot. -/
def CollectsNonempty {α : Type} (s : State α φ) : Action φ → Prop
  | .caller => ∀ waitSnapshot, s.caller = .stepLoop waitSnapshot → s.fatal = none →
      s.outbound ≠ some []
  | _ => True

instance {α : Type} (s : State α φ) (a : Action φ) : Decidable (CollectsNonempty s a) :=
  match a with
  | .caller =>
    match pc : s.caller with
    | .stepLoop _ =>
      decidable_of_iff (s.fatal = none → s.outbound ≠ some []) (by simp [CollectsNonempty, pc])
    | .idle | .stepEntered _ | .stepPushing .. | .parkedStep _ | .ensuring _ | .parkedEnsure _
    | .finalizing _ | .destroying | .joining | .destroyed =>
      .isTrue (by simp [CollectsNonempty, pc])
  | .worker | .wakeWorker | .wakeCaller | .step _ | .finalize _ | .setMessage _ | .destroy =>
    .isTrue trivial

/-- The session that moves overwrites no message and gives out no empty one. -/
def Carries (s : RelayState α φ) (a : RelayAction φ) : Prop :=
  ∀ q action transport, s.call a = some (q, action, transport) →
    SendsIntoFreeSlot (s.sessions q) action ∧ CollectsNonempty (s.sessions q) action

instance (s : RelayState α φ) (a : RelayAction φ) : Decidable (Carries s a) :=
  match called : s.call a with
  | none => .isTrue (by simp [Carries, called])
  | some (q, action, _) =>
    decidable_of_iff
      (SendsIntoFreeSlot (s.sessions q) action ∧ CollectsNonempty (s.sessions q) action)
      (by simp [Carries, called])

theorem Step.collects_iff {α : Type} {impl : SessionImpl α φ β} {s s' : State α φ} {a : Action φ}
    {es : List (Event β)} (h : Step impl s a s' es) :
    (∀ m ∈ collectedMessages es, m ≠ []) ↔ CollectsNonempty s a := by
  cases h with
  | stepCollected pc fatal outbound =>
      simp [collectedMessages, Event.collected?, CollectsNonempty, pc, fatal, outbound]
  | _ =>
      simp_all [collectedMessages, Event.collected?, CollectsNonempty, List.filterMap_cons]

theorem run_collects_iff {α : Type} {impl : SessionImpl α φ β}
    {taken : List (State α φ × Action φ)} {es : List (Event β)} {s : State α φ}
    (run : impl.machine.Run taken es s) :
    (∀ m ∈ collectedMessages es, m ≠ []) ↔ Machine.Meets CollectsNonempty taken := by
  induction run with
  | start => simp [collectedMessages]
  | next _ hstep ih =>
      rw [collectedMessages_append, List.forall_mem_append, ih,
        ((step_iff ..).mp hstep).collects_iff, Machine.meets_append_singleton]

theorem meets_carries_iff (taken : List (RelayState α φ × RelayAction φ)) :
    Machine.Meets Carries taken ↔ ∀ p, Machine.Meets SendsIntoFreeSlot (ownSteps p taken) ∧
      Machine.Meets CollectsNonempty (ownSteps p taken) := by
  induction taken using List.reverseRecOn with
  | nil => simp [ownSteps]
  | append_singleton taken last ih =>
      obtain ⟨s, a⟩ := last
      rw [Machine.meets_append_singleton, ih]
      cases called : s.call a with
      | none =>
          have same (p : Participant) : ownSteps p (taken ++ [(s, a)]) = ownSteps p taken := by
            simp [ownSteps, called]
          simp [same, Carries, called]
      | some call =>
          obtain ⟨q, action, transport⟩ := call
          have carries : Carries s a ↔ SendsIntoFreeSlot (s.sessions q) action ∧
              CollectsNonempty (s.sessions q) action := by
            simp [Carries, called]
          rw [carries]
          constructor
          · rintro ⟨before, now⟩ p
            by_cases own : q = p
            · subst own
              rw [ownSteps_append_self called, Machine.meets_append_singleton,
                Machine.meets_append_singleton]
              exact ⟨⟨(before q).1, now.1⟩, (before q).2, now.2⟩
            · rw [ownSteps_append_of_ne own called]
              exact before p
          · intro after
            have mine := after q
            rw [ownSteps_append_self called, Machine.meets_append_singleton,
              Machine.meets_append_singleton] at mine
            refine ⟨?_, mine.1.2, mine.2.2⟩
            intro p
            by_cases own : q = p
            · subst own
              exact ⟨mine.1.1, mine.2.1⟩
            · have other := after p
              rwa [ownSteps_append_of_ne own called] at other

/-- What a session is called with came out of the other one's slot, and fits. -/
theorem run_passed_short (run : (relay impl).Run taken es s) (p : Participant) :
    ∀ msg ∈ passedFrames (ownSteps p.other taken), msg.length < 2 ^ 31 := by
  intro msg mem
  have collected : msg ∈ (collectedMessages (ownEvents p es)).filter (· ≠ []) := by
    rw [← run_in_transit run p]
    exact List.mem_append_left _ mem
  exact run_collected_short (run_own run p) msg (List.mem_of_mem_filter collected)

/-- What has arrived or is on its way, as far as the outbound slot. -/
theorem run_survivors (run : (relay impl).Run taken es s) (p : Participant) :
    receivedFrames (ownEvents p.other es) ++ (s.sessions p.other).inboundQueue ++
        (s.sessions p.other).caller.entering ++ s.transport.queues p.other =
      (collectedMessages (ownEvents p es)).filter (· ≠ []) := by
  rw [run_received_ledger (run_own run p.other) (run_passed_short run p), run_in_transit run p]

/-- Nothing is lost in a run exactly as long as no `OnSend` overwrites a message and no Step
takes an empty one out of the slot. -/
theorem run_survive_iff (run : (relay impl).Run taken es s) :
    Survive es s ↔ Machine.Meets Carries taken := by
  rw [meets_carries_iff]
  refine forall_congr' fun p => ?_
  have ledger := run_slotLedger (run_own run p)
  rw [run_survivors run p, ← run_collects_iff (run_own run p)]
  constructor
  · intro all
    have shorter := List.length_filter_le (· ≠ []) (collectedMessages (ownEvents p es))
    have length := congrArg List.length all
    rw [List.length_append] at length
    have free : Machine.Meets SendsIntoFreeSlot (ownSteps p taken) := by
      by_contra overwritten
      have short := ledger.short overwritten
      omega
    refine ⟨free, ?_⟩
    have balanced := congrArg List.length (ledger.balanced free)
    rw [List.length_append] at balanced
    have kept : (collectedMessages (ownEvents p es)).filter (· ≠ []) =
        collectedMessages (ownEvents p es) :=
      List.filter_sublist.eq_of_length (by omega)
    intro m mem
    simpa using List.filter_eq_self.mp kept m mem
  · rintro ⟨free, nonempty⟩
    rw [List.filter_eq_self.mpr (by simpa using nonempty), ledger.balanced free]

/-- The binding tells an empty message from none in neither direction, and all other messages
from none in both; so a run loses nothing exactly as long as no empty message is taken out of
an outbound slot and none is overwritten there. -/
theorem messages_survive_iff (impl : (p : Participant) → SessionImpl (α p) φ β) :
    (∀ output, (stepResult output).outMsg = output.outbound ↔ output.outbound ≠ some []) ∧
      (∀ inPeerMsg, stepArgument inPeerMsg = some inPeerMsg ↔ inPeerMsg ≠ some []) ∧
      ∀ taken es s, (relay impl).Run taken es s →
        (Survive es s ↔ Machine.Meets Carries taken) := by
  refine ⟨?_, ?_, fun _ _ _ run => run_survive_iff run⟩
  · intro output
    rw [stepResult_outMsg, filter_ne_nil_eq_self]
  · intro inPeerMsg
    rw [stepArgument_eq, Option.some.injEq, filter_ne_nil_eq_self]

/-! ## One message -/

/-- The device says one thing, the server listens. -/
def oneMessage (msg : Bytes) : Participant → SessionImpl Unit Unit Unit
  | .device => ⟨.protocol (.send msg (.finish .quiet)), fun _ ready => (.ok (), ready)⟩
  | .server => ⟨.protocol (.receive fun _ => .finish .quiet), fun _ ready => (.ok (), ready)⟩

/-- The device's step hands out an empty message, which is not sent. -/
theorem empty_message_lost :
    ¬ ∀ (impl : Participant → SessionImpl Unit Unit Unit) taken es s,
      (relay impl).Run taken es s → Survive es s := by
  intro survive
  obtain ⟨taken, run, _⟩ := Machine.reach_of_trace
    (show (relay (oneMessage [])).trace (fun _ _ => True) (relay (oneMessage [])).init
      [.session .device .worker, .step .device, .session .device .caller,
        .session .device .caller] =
        some ([(.device, .sent []), (.device, .stepReturned ⟨.continue, some []⟩)], _) from rfl)
  have lost := survive _ _ _ _ run .device
  revert lost
  decide

/-- A message of one byte arrives at the server's worker. -/
theorem messages_survive_iff_one_byte : ∃ s : RelayState (fun _ => Unit) Unit,
    Survive [(.device, .sent [1]), (.device, .stepReturned ⟨.continue, some [1]⟩),
      (.server, .supplied [1]), (.server, (.received [1] : Event Unit))] s := by
  obtain ⟨taken, run, carries⟩ := Machine.reach_of_trace
    (show (relay (oneMessage [1])).trace Carries (relay (oneMessage [1])).init
      [.session .device .worker, .step .device, .session .device .caller,
        .session .device .caller, .step .server, .session .server .caller,
        .session .server .caller, .session .server .worker] = some (_, _) from rfl)
  exact ⟨_, ((messages_survive_iff (oneMessage [1])).2.2 _ _ _ run).mpr carries⟩

end MaanyMpc
