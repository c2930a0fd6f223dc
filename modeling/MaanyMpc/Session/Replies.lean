import MaanyMpc.Session.Handle
import MaanyMpc.Session.Outcome

/-! # What a failing step keeps

A step looks for a place for the outbound message, and asks for memory for it, after `Step` has
taken the message out of the session. -/

namespace MaanyMpc

open Transition

variable {α φ β : Type}

def HandleEvent.output? : HandleEvent β → Option StepOutput
  | .session (.stepReturned output) => some output
  | _ => none

/-- `out_msg` and `result` of a step that returns OK. -/
def HandleEvent.reply? : HandleEvent β → Option (Buf × StepState)
  | .stepReturned .ok outMsg result => some (outMsg, result)
  | _ => none

/-- What `Step` has returned, in order. -/
def stepOutputs (es : List (HandleEvent β)) : List StepOutput :=
  es.filterMap HandleEvent.output?

/-- What the steps have returned to their caller, in order. -/
def stepReplies (es : List (HandleEvent β)) : List (Buf × StepState) :=
  es.filterMap HandleEvent.reply?

@[simp] theorem stepOutputs_append (es fs : List (HandleEvent β)) :
    stepOutputs (es ++ fs) = stepOutputs es ++ stepOutputs fs :=
  List.filterMap_append

@[simp] theorem stepReplies_append (es fs : List (HandleEvent β)) :
    stepReplies (es ++ fs) = stepReplies es ++ stepReplies fs :=
  List.filterMap_append

/-- The message that the caller's next section takes out of the slot. -/
def State.collecting (s : State α φ) : Option Bytes :=
  match s.caller, s.fatal with
  | .stepLoop _, none => s.outbound
  | _, _ => none

def Handle.collecting (h : Handle α φ) : HandleAction φ → Option Bytes
  | .session .caller => h.session.bind State.collecting
  | _ => none

/-- A step that takes a message out of the session has a place for it, and memory unless it is
empty. -/
def StepDelivers (h : Handle α φ) (a : HandleAction φ) : Prop :=
  ∀ data ∈ h.collecting a, h.outMsg = true ∧ (data = [] ∨ h.malloc = true)

instance (h : Handle α φ) (a : HandleAction φ) : Decidable (StepDelivers h a) :=
  inferInstanceAs (Decidable (∀ data ∈ h.collecting a, _))

/-- A step called with what it needs, and not interrupted, returns this message. -/
def Handle.Hands (impl : SessionImpl α φ β) (wrapper : FinalizeWrapper β) (h : Handle α φ)
    (data : Bytes) : Prop :=
  ∀ call : StepArgs, call.pointers = true → call.inbound ≠ none → call.outMsg = true →
    call.malloc = true →
    ∃ n events h' result, (handle impl wrapper).trace (fun _ _ => True) h
        (.step call :: List.replicate n (.session .caller)) = some (events, h') ∧
      .stepReturned .ok (copyOutBuffer data) result ∈ events

/-- No step that has returned an error has lost a message. -/
structure KeepsMessages (impl : SessionImpl α φ β) (wrapper : FinalizeWrapper β)
    (taken : List (Handle α φ × HandleAction φ)) (es : List (HandleEvent β)) (h : Handle α φ) :
    Prop where
  /-- everything that `Step` has returned, a step has returned with OK -/
  returned : stepReplies es = (stepOutputs es).map stepOutput
  /-- what waits in the session, a later step returns -/
  waiting : ∀ s data, h.session = some s → s.caller = .idle → s.fatal = none →
    s.outbound = some data → h.Hands impl wrapper data
  /-- the messages that got into the session are there or have been taken once, in order, and
  the worker has what its `mem_t` holds of those -/
  inbound : ∀ s, h.session = some s →
    takenFrames (sessionMoves taken) ++ s.inboundQueue ++ s.caller.entering =
        passedFrames (sessionMoves taken) ∧
      receivedFrames (sessionEvents es) = (takenFrames (sessionMoves taken)).map toMem
  /-- a step that fails without an output has not touched the session, unless that has failed -/
  refused : ∀ a h' emitted status, (handle impl wrapper).step h a = some (h', emitted) →
    .stepRefused status ∈ emitted → h' = h ∨ ∃ s err, h.session = some s ∧ s.fatal = some err

/-! ## After `Step` -/

/-- With a place and memory for the message a step passes on what `Step` has returned. -/
theorem finishStep_delivers {outMsg malloc : Bool} {output : StepOutput}
    (delivers : ∀ data ∈ output.outbound, outMsg = true ∧ (data = [] ∨ malloc = true)) :
    finishStep outMsg malloc output = (.ok, stepOutput output) := by
  obtain ⟨state, outbound⟩ := output
  cases outbound with
  | none => rfl
  | some data =>
      obtain ⟨rfl, memory⟩ := delivers data rfl
      rcases memory with rfl | rfl
      · rfl
      · simp [finishStep, stepOutput]

/-- Without them it fails. -/
theorem finishStep_fails {outMsg malloc : Bool} {output : StepOutput}
    (fails : ¬ ∀ data ∈ output.outbound, outMsg = true ∧ (data = [] ∨ malloc = true)) :
    (finishStep outMsg malloc output).1 ≠ .ok := by
  obtain ⟨state, outbound⟩ := output
  cases outbound with
  | none => simp at fails
  | some data =>
      cases data <;> cases outMsg <;> cases malloc <;>
        simp [finishStep, tryCopyOutBuffer] at fails ⊢

/-! ## One step -/

section Step

variable {impl : SessionImpl α φ β} {wrapper : FinalizeWrapper β}

/-- Only a Step that returns takes a message out of the slot. -/
theorem Step.output_cases {s s' : State α φ} {a : Action φ} {es : List (Event β)}
    (h : Step impl s a s' es) :
    (∃ output, a = .caller ∧ es = [.stepReturned output] ∧ output.outbound = s.collecting) ∨
      (∀ output, .stepReturned output ∉ es) ∧ (a = .caller → s.collecting = none) := by
  cases h with
  | stepCollected pc fatal outbound =>
      exact .inl ⟨_, rfl, rfl, by simp [State.collecting, pc, fatal, outbound]⟩
  | stepDone pc fatal outbound | stepContinued pc fatal outbound =>
      exact .inl ⟨_, rfl, rfl, by simp [State.collecting, pc, fatal, outbound]⟩
  | stepThrew pc fatal | stepParked pc fatal =>
      exact .inr ⟨by simp, fun _ => by simp_all [State.collecting]⟩
  | snapshotEmpty pc | snapshotMessage pc | pushed pc | ensureThrew pc | ensurePassed pc
  | ensureParked pc | finalized pc | finalizeRefused pc | aborting pc | joined pc =>
      exact .inr ⟨by simp, fun _ => by simp [State.collecting, pc]⟩
  | _ => exact .inr ⟨by simp, by simp⟩

variable {h h' : Handle α φ} {a : HandleAction φ} {emitted : List (HandleEvent β)}

/-- What a step of a handle adds to the outputs and to the replies. -/
inductive ReplyEffect (h : Handle α φ) (a : HandleAction φ) (emitted : List (HandleEvent β)) :
    Prop where
  | delivered (output : StepOutput) (delivers : StepDelivers h a)
      (outputs : stepOutputs emitted = [output])
      (replies : stepReplies emitted = [stepOutput output])
  | dropped (output : StepOutput) (fails : ¬ StepDelivers h a)
      (outputs : stepOutputs emitted = [output]) (replies : stepReplies emitted = [])
  | silent (delivers : StepDelivers h a) (outputs : stepOutputs emitted = [])
      (replies : stepReplies emitted = [])

theorem StepDelivers.of_collecting (idle : h.collecting a = none) : StepDelivers h a := by
  intro data mem
  rw [idle] at mem
  cases mem

/-- Where the session returns no output, the call returns none. -/
theorem Handle.answered_silent (wrapper : FinalizeWrapper β) (h : Handle α φ) (s : State α φ)
    {es : List (Event β)} (silent : ∀ output, .stepReturned output ∉ es) :
    stepOutputs (h.answered wrapper s es).2 = [] ∧
      stepReplies (h.answered wrapper s es).2 = [] := by
  unfold Handle.answered
  split
  next output => exact (silent output (.head _)).elim
  · exact ⟨rfl, rfl⟩
  · exact ⟨rfl, rfl⟩
  · exact ⟨rfl, rfl⟩
  · exact ⟨rfl, rfl⟩
  · refine ⟨List.filterMap_eq_nil_iff.mpr ?_, List.filterMap_eq_nil_iff.mpr ?_⟩
    · intro e mem
      obtain ⟨e, inside, rfl⟩ := List.mem_map.mp mem
      cases e with
      | stepReturned output => exact (silent output inside).elim
      | _ => rfl
    · intro e mem
      obtain ⟨e, _, rfl⟩ := List.mem_map.mp mem
      rfl

theorem HandleStep.replyEffect (hstep : HandleStep impl wrapper h a h' emitted) :
    ReplyEffect h a emitted := by
  cases hstep with
  | refused still e refusal same events =>
      subst events
      cases a with
      | session action => cases refusal
      | step call | finalize call =>
          cases refusal
          exact .silent (.of_collecting rfl) rfl rfl
  | moved s action s' es move held step state events =>
      rcases step.output_cases with ⟨output, rfl, rfl, collected⟩ | ⟨silent, idle⟩
      · obtain rfl := Handle.caller_of_move move
        have collecting : h.collecting (.session .caller) = output.outbound := by
          simp [Handle.collecting, held, collected]
        have delivers : StepDelivers h (.session .caller) ↔
            ∀ data ∈ output.outbound, h.outMsg = true ∧ (data = [] ∨ h.malloc = true) := by
          rw [StepDelivers, collecting]
        have outputs : stepOutputs emitted = [output] := by
          rw [events]
          rfl
        by_cases given : StepDelivers h (.session .caller)
        · refine .delivered output given outputs ?_
          have whole := finishStep_delivers (delivers.mp given)
          rw [events]
          simp only [Handle.answered, Handle.keep, whole]
          rfl
        · refine .dropped output given outputs ?_
          have failed := finishStep_fails (mt delivers.mpr given)
          rw [events]
          simp only [Handle.answered, Handle.keep, stepReplies]
          cases status : (finishStep h.outMsg h.malloc output).1 with
          | ok => exact (failed status).elim
          | _ => simp [HandleEvent.reply?]
      · obtain ⟨outputs, replies⟩ := (h.keep a).answered_silent wrapper s' silent
        rw [← events] at outputs replies
        refine .silent (.of_collecting ?_) outputs replies
        cases a with
        | session action' =>
            cases action' with
            | caller =>
                have same : s = s ∧ Action.caller = action := by
                  simpa [Handle.move, held] using move
                simp [Handle.collecting, held, idle same.2.symm]
            | _ => rfl
        | step call | finalize call => rfl

/-- A step that fails before or in `Step` leaves the handle alone, or finds the session failed. -/
theorem HandleStep.refused_cases (hstep : HandleStep impl wrapper h a h' emitted)
    {status : MaanyMpcError} (refused : .stepRefused status ∈ emitted) :
    h' = h ∨ ∃ s err, h.session = some s ∧ s.fatal = some err := by
  cases hstep with
  | refused still e refusal same events => exact .inl same
  | moved s action s' es move held step state events =>
      right
      rw [events] at refused
      unfold Handle.answered at refused
      split at refused
      case h_2 err =>
          exact ⟨s, err, held, step.answers (.stepThrew err) (.head _)⟩
      all_goals simp at refused

/-- The last section of a step that finds a message. -/
theorem Handle.collects (impl : SessionImpl α φ β) (wrapper : FinalizeWrapper β) {s : State α φ}
    {waitSnapshot : UInt64} {data : Bytes} (pc : s.caller = .stepLoop waitSnapshot)
    (alive : s.fatal = none) (outbound : s.outbound = some data) :
    ∃ h' result, (handle impl wrapper).trace (fun _ _ => True) ⟨some s, true, true⟩
        [.session .caller] =
      some ([.session (.stepReturned ⟨result, some data⟩),
        .stepReturned .ok (copyOutBuffer data) result], h') := by
  have step : (handle impl wrapper).step ⟨some s, true, true⟩ (.session .caller) =
      some (Handle.answered wrapper ⟨some s, true, true⟩
        { s with outbound := none, caller := .idle }
        [.stepReturned ⟨if s.workerDone then .done else .continue, some data⟩]) :=
    handle_caller rfl (.stepCollected pc alive outbound)
  simp only [Handle.answered, finishStep, tryCopyOutBuffer_true] at step
  exact ⟨_, if s.workerDone then .done else .continue,
    Machine.trace_cons (r := ([], _)) trivial step rfl⟩

/-- The caller's sections of a step, from its call to its return. -/
theorem Handle.hands (impl : SessionImpl α φ β) (wrapper : FinalizeWrapper β) {s : State α φ}
    {data : Bytes} (held : h.session = some s) (idle : s.caller = .idle)
    (alive : s.fatal = none) (outbound : s.outbound = some data) :
    h.Hands impl wrapper data := by
  rintro ⟨_, inPeerMsg, _, copyIn, _⟩ rfl given rfl rfl
  obtain ⟨inbound, given⟩ := Option.ne_none_iff_exists'.mp given
  have move : h.move (.step ⟨true, inPeerMsg, true, copyIn, true⟩) = some (s, .step inbound) := by
    simp [Handle.move, held, given]
  have called : (handle impl wrapper).step h (.step ⟨true, inPeerMsg, true, copyIn, true⟩) =
      some (⟨some { s with caller := .stepEntered inbound }, true, true⟩, []) :=
    handle_moves move (.stepCalled idle)
  cases inbound with
  | none =>
      have entered : (handle impl wrapper).step
          ⟨some { s with caller := .stepEntered none }, true, true⟩ (.session .caller) =
          some (⟨some { s with caller := .stepLoop s.waitRequestId }, true, true⟩, []) :=
        handle_caller rfl (.snapshotEmpty (s := { s with caller := .stepEntered none }) rfl)
      obtain ⟨h', result, last⟩ := Handle.collects impl wrapper
        (s := { s with caller := .stepLoop s.waitRequestId }) rfl alive outbound
      have events := Machine.trace_cons trivial called (Machine.trace_cons trivial entered last)
      exact ⟨2, _, h', result, events, by simp⟩
  | some msg =>
      have entered : (handle impl wrapper).step
          ⟨some { s with caller := .stepEntered (some msg) }, true, true⟩ (.session .caller) =
          some (⟨some { s with caller := .stepPushing msg s.waitRequestId }, true, true⟩, []) :=
        handle_caller rfl
          (.snapshotMessage (s := { s with caller := .stepEntered (some msg) }) rfl)
      have pushed : (handle impl wrapper).step
          ⟨some { s with caller := .stepPushing msg s.waitRequestId }, true, true⟩
          (.session .caller) =
          some (⟨some (s.pushInbound msg s.waitRequestId), true, true⟩,
            [.session (.supplied msg)]) :=
        handle_caller rfl (.pushed (s := { s with caller := .stepPushing msg s.waitRequestId }) rfl)
      obtain ⟨h', result, last⟩ := Handle.collects impl wrapper
        (s := s.pushInbound msg s.waitRequestId) rfl alive outbound
      have events := Machine.trace_cons trivial called (Machine.trace_cons trivial entered
        (Machine.trace_cons trivial pushed last))
      exact ⟨3, _, h', result, events, by simp⟩

end Step

/-! ## Whole runs -/

/-- The replies are the outputs, unless one has been dropped; then there are fewer. -/
structure ReplyLedger (taken : List (Handle α φ × HandleAction φ)) (es : List (HandleEvent β)) :
    Prop where
  all : Machine.Meets StepDelivers taken → stepReplies es = (stepOutputs es).map stepOutput
  bound : (stepReplies es).length ≤ (stepOutputs es).length
  short : ¬ Machine.Meets StepDelivers taken → (stepReplies es).length < (stepOutputs es).length

section Run

variable {impl : SessionImpl α φ β} {wrapper : FinalizeWrapper β} {h : Handle α φ}
  {es : List (HandleEvent β)} {taken : List (Handle α φ × HandleAction φ)}

theorem ReplyLedger.step {a : HandleAction φ} {emitted : List (HandleEvent β)}
    (ledger : ReplyLedger taken es) (effect : ReplyEffect h a emitted) :
    ReplyLedger (taken ++ [(h, a)]) (es ++ emitted) := by
  obtain ⟨all, bound, short⟩ := ledger
  cases effect with
  | delivered output delivers outputs replies =>
      constructor
      · intro meets
        simp [all ((Machine.meets_append_singleton ..).mp meets).1, outputs, replies]
      · simpa [outputs, replies] using bound
      · intro fails
        simpa [outputs, replies] using short (Machine.not_meets_of_append_singleton fails delivers)
  | dropped output fails outputs replies =>
      constructor
      · intro meets
        exact (fails ((Machine.meets_append_singleton ..).mp meets).2).elim
      · simp only [stepReplies_append, stepOutputs_append, List.length_append, outputs, replies]
        simp only [List.length_nil, List.length_singleton]
        omega
      · intro _
        simp only [stepReplies_append, stepOutputs_append, List.length_append, outputs, replies]
        simp only [List.length_nil, List.length_singleton]
        omega
  | silent delivers outputs replies =>
      constructor
      · intro meets
        simp [all ((Machine.meets_append_singleton ..).mp meets).1, outputs, replies]
      · simpa [outputs, replies] using bound
      · intro fails
        simpa [outputs, replies] using short (Machine.not_meets_of_append_singleton fails delivers)

theorem run_replyLedger (run : (handle impl wrapper).Run taken es h) : ReplyLedger taken es := by
  refine run.history_invariant (fun taken es _ => ReplyLedger taken es) ?_ ?_
  · exact ⟨fun _ => rfl, le_rfl, fun fails => (fails (Machine.meets_nil _)).elim⟩
  · intro _ _ _ _ _ _ _ ledger hstep
    exact ledger.step (handle_step_cases hstep).replyEffect

theorem keepsMessages_iff (run : (handle impl wrapper).Run taken es h) :
    KeepsMessages impl wrapper taken es h ↔ Machine.Meets StepDelivers taken := by
  have ledger := run_replyLedger run
  constructor
  · intro keeps
    by_contra fails
    have short := ledger.short fails
    rw [keeps.returned, List.length_map] at short
    exact short.false
  · intro meets
    refine ⟨ledger.all meets, ?_, ?_, ?_⟩
    · intro s data held idle alive outbound
      exact Handle.hands impl wrapper held idle alive outbound
    · intro s held
      obtain ⟨t, own, same⟩ := run_session run
      rw [same s held]
      exact ⟨run_inbound_ledger own, run_received own⟩
    · intro a h' emitted status hstep refused
      exact (handle_step_cases hstep).refused_cases refused

end Run

/-! ## The handles of the bridge -/

/-- The steps of a key generation, a refresh or a signature lose nothing when they fail if and
only if each that takes a message out of the session can hand it over. -/
theorem steps_keep_messages_iff {Point Paillier : Type} (cb : Ecdsa2pc Point Paillier) :
    (∀ (d : DkgSessionImpl) taken es h,
      (handle (d.session cb) (dkgFinalize _)).Run taken es h →
      (KeepsMessages (d.session cb) (dkgFinalize _) taken es h ↔
        Machine.Meets StepDelivers taken)) ∧
    (∀ (r : RefreshSessionImpl Point Paillier) taken es h,
      (handle (r.session cb) (dkgFinalize _)).Run taken es h →
      (KeepsMessages (r.session cb) (dkgFinalize _) taken es h ↔
        Machine.Meets StepDelivers taken)) ∧
    ∀ (g : SignSessionImpl Point Paillier) taken es h,
      (handle (g.session cb) signFinalize).Run taken es h →
      (KeepsMessages (g.session cb) signFinalize taken es h ↔ Machine.Meets StepDelivers taken) :=
  ⟨fun _ _ _ _ run => keepsMessages_iff run, fun _ _ _ _ run => keepsMessages_iff run,
    fun _ _ _ _ run => keepsMessages_iff run⟩

/-! ## A protocol that speaks first -/

/-- The key is there after one message to the peer and one from it. -/
def talkingDkg : Ecdsa2pc Unit Unit :=
  { instantDkg with
    dkg role curve :=
      .send [1] (.receive fun _ => instantDkg.dkg role curve) }

/-- A step without a place for the message takes it and drops it. -/
theorem step_drops_message :
    ¬ ∀ taken es h, (handle (deviceDkg.session talkingDkg) (dkgFinalize _)).Run taken es h →
      KeepsMessages (deviceDkg.session talkingDkg) (dkgFinalize _) taken es h := by
  intro keeps
  obtain ⟨taken, h, run, _⟩ := Machine.run_of_trace
    (show ((handle (deviceDkg.session talkingDkg) (dkgFinalize _)).trace (fun _ _ => True)
      (handle (deviceDkg.session talkingDkg) (dkgFinalize _)).init
      [.session .worker, .step ⟨true, some (.bytes [9]), false, true, true⟩, .session .caller,
        .session .caller, .session .caller]).map Prod.fst =
      some [.session (.sent [1]), .session (.supplied [9]),
        .session (.stepReturned ⟨.continue, some [1]⟩),
        .stepReturned .invalidArg (.null 0) .continue] from rfl)
  have lost := (keeps _ _ _ run).returned
  simp [stepReplies, stepOutputs, HandleEvent.reply?, HandleEvent.output?,
    List.filterMap_cons] at lost

/-- The same step with a place and memory for it. -/
theorem steps_keep_messages_iff_talking : ∃ taken h,
    KeepsMessages (deviceDkg.session talkingDkg) (dkgFinalize _) taken
      [.session (.sent [1]), .session (.supplied [9]),
        .session (.stepReturned ⟨.continue, some [1]⟩),
        .stepReturned .ok (.bytes [1]) .continue] h := by
  obtain ⟨taken, h, run, meets⟩ := Machine.run_of_trace
    (show ((handle (deviceDkg.session talkingDkg) (dkgFinalize _)).trace StepDelivers
      (handle (deviceDkg.session talkingDkg) (dkgFinalize _)).init
      [.session .worker, .step ⟨true, some (.bytes [9]), true, true, true⟩, .session .caller,
        .session .caller, .session .caller]).map Prod.fst =
      some [.session (.sent [1]), .session (.supplied [9]),
        .session (.stepReturned ⟨.continue, some [1]⟩),
        .stepReturned .ok (.bytes [1]) .continue] from rfl)
  exact ⟨taken, h, ((steps_keep_messages_iff talkingDkg).1 deviceDkg _ _ _ run).mpr meets⟩

end MaanyMpc
