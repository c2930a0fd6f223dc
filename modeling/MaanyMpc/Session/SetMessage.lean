import MaanyMpc.Session.Continue

/-! # The message of a signing session

`message_ready_` is set by `SetMessage` and reset when the worker picks the message up.
The check for a second message reads the same flag, so it only sees the time in between.
What is signed is the `mem_t` of the message, whose size is an `int`. -/

namespace MaanyMpc

variable {α φ β : Type}

def Event.accepted? : Event β → Option Bytes
  | .messageAccepted msg => some msg
  | _ => none

/-- What a `SetMessage` may do after an accepted one; other events are not concerned. -/
def Event.LateRefusal : Event β → Prop
  | .messageAccepted _ => False
  | .messageRefused err => err.code = .protocolState
  | _ => True

/-- After an accepted `SetMessage` every later one throws `ProtocolState`. -/
def RefusesLater (es : List (Event β)) : Prop :=
  es.Pairwise fun d e => d.accepted? ≠ none → e.LateRefusal

/-- At most one message is accepted, and no other is signed. -/
def OneMessage (es : List (Event β)) : Prop :=
  RefusesLater es ∧ ∀ msg, .signStarted msg ∈ es → .messageAccepted msg ∈ es

/-- `SetMessage` is called while the worker still waits for the message, and with a
message if one is pending. -/
def CallsBeforePickup (s : State α φ) : Action φ → Prop
  | .setMessage msg => s.worker.AwaitsMessage ∧
      (s.messageReady = true → msg ≠ none ∧ msg ≠ some [])
  | _ => True

instance (s : State α φ) (a : Action φ) : Decidable (CallsBeforePickup s a) :=
  match a with
  | .setMessage _ => inferInstanceAs (Decidable (_ ∧ (_ → _ ∧ _)))
  | .worker | .caller | .wakeWorker | .wakeCaller | .step _ | .finalize _ | .destroy =>
    inferInstanceAs (Decidable True)

/-- The worker's next section picks the message up. -/
def State.PicksUp (s : State α φ) : Prop :=
  s.worker = .awaitMessage ∧ s.freed = false ∧ s.messageReady = true

/-- The message that is picked up has a size that an `int` can hold. -/
def PicksUpInFull (s : State α φ) : Action φ → Prop
  | .worker => s.PicksUp → s.message.length < 2 ^ 31
  | _ => True

instance (s : State α φ) : Decidable s.PicksUp :=
  match pc : s.worker with
  | .awaitMessage =>
      decidable_of_iff (s.freed = false ∧ s.messageReady = true) (by simp [State.PicksUp, pc])
  | .parkedMessage | .running _ | .sent _ | .parkedReceive _ | .wokenReceive _ | .leaving
  | .returned | .doneSet | .exited | .lost =>
      .isFalse (by simp [State.PicksUp, pc])

instance (s : State α φ) (a : Action φ) : Decidable (PicksUpInFull s a) :=
  match a with
  | .worker => inferInstanceAs (Decidable (_ → _))
  | .caller | .wakeWorker | .wakeCaller | .step _ | .finalize _ | .setMessage _ | .destroy =>
    inferInstanceAs (Decidable True)

/-! ## One step -/

/-- What a step has to do with messages. -/
inductive MessageEffect (impl : SessionImpl α φ β) (s : State α φ) :
    Action φ → State α φ → List (Event β) → Prop where
  | missing {msg sign} (start : impl.worker = .awaitMessage sign) (live : s.freed = false)
      (empty : msg = none ∨ msg = some []) :
      MessageEffect impl s (.setMessage msg) s
        [.messageRefused ⟨.invalidArgument, "message required"⟩]
  | refused {msg sign} (start : impl.worker = .awaitMessage sign) (live : s.freed = false)
      (given : msg ≠ []) (ready : s.messageReady = true) :
      MessageEffect impl s (.setMessage (some msg)) s
        [.messageRefused ⟨.protocolState, "message already set"⟩]
  | accepted {msg sign} (start : impl.worker = .awaitMessage sign) (live : s.freed = false)
      (given : msg ≠ []) (ready : s.messageReady = false) :
      MessageEffect impl s (.setMessage (some msg))
        { s with message := msg, messageReady := true, worker := s.worker.messageNotified }
        [.messageAccepted msg]
  | pickedUp {s'} (picks : s.PicksUp) (begun : ¬ s'.worker.AwaitsMessage)
      (reset : s'.messageReady = false) :
      MessageEffect impl s .worker s' [.signStarted (toMem s.message)]
  | unrelated {a s' es} (noCall : ∀ msg, a ≠ .setMessage msg)
      (noPick : a = .worker → ¬ s.PicksUp)
      (quiet : ∀ e ∈ es, e.accepted? = none ∧ e.signed? = none ∧ e.LateRefusal)
      (ready : s'.messageReady = s.messageReady) (message : s'.message = s.message)
      (awaits : s'.worker.AwaitsMessage → s.worker.AwaitsMessage)
      (leaves : s.worker.AwaitsMessage → s'.worker.AwaitsMessage ∨ s.freed = true ∨
        s.messageReady = false ∧ (s.fatal ≠ none ∨ s.aborted = true)) :
      MessageEffect impl s a s' es

theorem Step.messageEffect {impl : SessionImpl α φ β} {s s' : State α φ} {a : Action φ}
    {es : List (Event β)} (h : Step impl s a s' es) : MessageEffect impl s a s' es := by
  cases h with
  | messageMissing start live empty => exact .missing start live empty
  | messageRefused start live ready => exact .refused start live (by simp) ready
  | messageAccepted start live ready => exact .accepted start live (by simp) ready
  | messageTaken pc members start ready =>
      exact .pickedUp ⟨pc, members, ready⟩ (by simp [WorkerPc.AwaitsMessage]) rfl
  | messageAborted pc members start ready stop =>
      refine .unrelated (by simp) (by simp [State.PicksUp, ready]) (by simp) rfl rfl
        (by simp [WorkerPc.AwaitsMessage]) ?_
      intro _
      exact .inr (.inr ⟨ready, by simpa [Option.isSome_iff_ne_none] using stop⟩)
  | _ =>
      refine .unrelated (by simp) ?_ ?_ rfl rfl ?_ ?_
      · simp_all [State.PicksUp]
      · simp [Event.accepted?, Event.signed?, Event.LateRefusal]
      · simp_all [WorkerPc.AwaitsMessage, State.fail, State.pushInbound, State.abort,
          State.destroy]
      · simp_all [WorkerPc.AwaitsMessage, State.fail, State.pushInbound, State.abort,
          State.destroy]

/-! ## Whole runs -/

theorem refusesLater_append_quiet {es quiet : List (Event β)}
    (h : ∀ e ∈ quiet, e.accepted? = none ∧ e.LateRefusal) :
    RefusesLater (es ++ quiet) ↔ RefusesLater es := by
  unfold RefusesLater
  rw [List.pairwise_append]
  constructor
  · exact fun hp => hp.1
  · intro hp
    refine ⟨hp, ?_, fun _ _ e he _ => (h e he).2⟩
    apply List.pairwise_of_forall_mem_list
    intro d hd _ _ accepted
    exact (accepted (h d hd).1).elim

theorem refusesLater_append_singleton {es : List (Event β)} {e : Event β} :
    RefusesLater (es ++ [e]) ↔
      RefusesLater es ∧ ((∃ d ∈ es, d.accepted? ≠ none) → e.LateRefusal) := by
  unfold RefusesLater
  simp only [List.pairwise_append, List.pairwise_singleton, List.mem_singleton, forall_eq,
    true_and]
  constructor
  · rintro ⟨hp, late⟩
    exact ⟨hp, fun ⟨d, hd, accepted⟩ => late d hd accepted⟩
  · rintro ⟨hp, late⟩
    exact ⟨hp, fun d hd accepted => late ⟨d, hd, accepted⟩⟩

/-- How the message flags, the worker's position and the calls made so far belong
together. -/
structure MessageLedger (impl : SessionImpl α φ β) (taken : List (State α φ × Action φ))
    (es : List (Event β)) (s : State α φ) : Prop where
  unset : s.worker.AwaitsMessage → s.messageReady = false → ∀ e ∈ es, e.accepted? = none
  pending : s.messageReady = true → .messageAccepted s.message ∈ es
  begun : ∀ sign, impl.worker = .awaitMessage sign → ¬ s.worker.AwaitsMessage →
    s.freed = false → ∃ e ∈ es, e.accepted? ≠ none
  /-- a message pending after the pick-up is a second one -/
  second : s.freed = false → ¬ s.worker.AwaitsMessage → s.messageReady = true →
    ¬ RefusesLater es
  signed : Transition.Machine.Meets PicksUpInFull taken →
    ∀ msg, .signStarted msg ∈ es → .messageAccepted msg ∈ es
  /-- of a message that does not fit only a part is signed -/
  cut : ¬ Transition.Machine.Meets PicksUpInFull taken →
    ∃ msg, 2 ^ 31 ≤ msg.length ∧ .messageAccepted msg ∈ es ∧ .signStarted (toMem msg) ∈ es
  calls : Transition.Machine.Meets CallsBeforePickup taken ↔ RefusesLater es

section Run

variable {impl : SessionImpl α φ β} {taken : List (State α φ × Action φ)}
  {es emitted : List (Event β)} {s s' : State α φ} {a : Action φ}

/-- Where no message has been accepted yet. -/
theorem MessageLedger.waiting_iff (ledger : MessageLedger impl taken es s)
    {sign : Bytes → Program (WorkerExit α)} (start : impl.worker = .awaitMessage sign)
    (live : s.freed = false) :
    s.worker.AwaitsMessage ∧ s.messageReady = false ↔ ¬ ∃ e ∈ es, e.accepted? ≠ none := by
  constructor
  · rintro ⟨awaits, ready⟩ ⟨e, he, accepted⟩
    exact accepted (ledger.unset awaits ready e he)
  · intro none
    have awaits : s.worker.AwaitsMessage := by
      by_contra begun
      exact none (ledger.begun sign start begun live)
    refine ⟨awaits, ?_⟩
    by_contra ready
    exact none ⟨_, ledger.pending (by simpa using ready), by simp [Event.accepted?]⟩

/-- An aborted worker that still waits for its message belongs to a session being freed. -/
theorem FlagsAgree.freed_of_stopped (flags : FlagsAgree s) (awaits : s.worker.AwaitsMessage)
    (stop : s.fatal ≠ none ∨ s.aborted = true) : s.freed = true := by
  have fatal : s.fatal = none := by
    by_contra some
    have ended := flags.fatal_over some
    rcases awaits with h | h <;> simp [h, WorkerPc.Over] at ended
  rcases stop with some | aborted
  · exact (some fatal).elim
  · rcases flags.aborted_cause aborted with some | freed
    · exact (some fatal).elim
    · exact freed

theorem MessageLedger.step_unset (ledger : MessageLedger impl taken es s)
    (h : MessageEffect impl s a s' emitted) :
    s'.worker.AwaitsMessage → s'.messageReady = false →
      ∀ e ∈ es ++ emitted, e.accepted? = none := by
  intro awaits unready e mem
  rcases List.mem_append.mp mem with he | he
  · cases h with
    | missing | refused => exact ledger.unset awaits unready e he
    | accepted => cases unready
    | pickedUp _ begun => exact (begun awaits).elim
    | unrelated _ _ _ ready _ was =>
        rw [ready] at unready
        exact ledger.unset (was awaits) unready e he
  · cases h with
    | missing | refused => simp_all [Event.accepted?]
    | accepted => cases unready
    | pickedUp _ begun => exact (begun awaits).elim
    | unrelated _ _ quiet => exact (quiet e he).1

theorem MessageLedger.step_pending (ledger : MessageLedger impl taken es s)
    (h : MessageEffect impl s a s' emitted) :
    s'.messageReady = true → .messageAccepted s'.message ∈ es ++ emitted := by
  intro set
  cases h with
  | missing | refused => exact List.mem_append_left _ (ledger.pending set)
  | accepted => simp
  | pickedUp _ _ reset =>
      rw [reset] at set
      cases set
  | unrelated _ _ _ ready message =>
      rw [message]
      rw [ready] at set
      exact List.mem_append_left _ (ledger.pending set)

theorem MessageLedger.step_begun (ledger : MessageLedger impl taken es s)
    (flags : FlagsAgree s) (freed : s.freed = true → s'.freed = true)
    (h : MessageEffect impl s a s' emitted) :
    ∀ sign, impl.worker = .awaitMessage sign → ¬ s'.worker.AwaitsMessage →
      s'.freed = false → ∃ e ∈ es ++ emitted, e.accepted? ≠ none := by
  intro sign start begun live
  have alive : s.freed = false := by
    by_contra gone
    rw [freed (by simpa using gone)] at live
    cases live
  have before : (∃ e ∈ es, e.accepted? ≠ none) → ∃ e ∈ es ++ emitted, e.accepted? ≠ none :=
    fun ⟨e, he, accepted⟩ => ⟨e, List.mem_append_left _ he, accepted⟩
  cases h with
  | missing | refused => exact before (ledger.begun sign start begun live)
  | @accepted msg =>
      exact ⟨.messageAccepted msg, by simp, by simp [Event.accepted?]⟩
  | pickedUp picks =>
      exact before ⟨_, ledger.pending picks.2.2, by simp [Event.accepted?]⟩
  | unrelated _ _ _ _ _ _ leaves =>
      apply before
      by_cases awaits : s.worker.AwaitsMessage
      · rcases leaves awaits with still | gone | ⟨_, stop⟩
        · exact (begun still).elim
        · rw [gone] at alive
          cases alive
        · rw [flags.freed_of_stopped awaits stop] at alive
          cases alive
      · exact ledger.begun sign start awaits alive

theorem MessageLedger.step_second (ledger : MessageLedger impl taken es s)
    (freed : s.freed = true → s'.freed = true) (h : MessageEffect impl s a s' emitted) :
    s'.freed = false → ¬ s'.worker.AwaitsMessage → s'.messageReady = true →
      ¬ RefusesLater (es ++ emitted) := by
  intro alive begun set later
  have live : s.freed = false := by
    by_contra gone
    rw [freed (by simpa using gone)] at alive
    cases alive
  have before : RefusesLater es := (List.pairwise_append.mp later).1
  cases h with
  | missing | refused => exact ledger.second live begun set before
  | accepted start _ given ready =>
      have was : ¬ s.worker.AwaitsMessage := by
        simpa [WorkerPc.AwaitsMessage] using begun
      exact (refusesLater_append_singleton.mp later).2 (ledger.begun _ start was live)
  | pickedUp _ _ reset =>
      rw [reset] at set
      cases set
  | unrelated _ _ _ ready _ _ leaves =>
      rw [ready] at set
      by_cases awaits : s.worker.AwaitsMessage
      · rcases leaves awaits with still | gone | ⟨unready, _⟩
        · exact begun still
        · rw [live] at gone
          cases gone
        · rw [unready] at set
          cases set
      · exact ledger.second live awaits set before

theorem MessageLedger.step_signed (ledger : MessageLedger impl taken es s)
    (h : MessageEffect impl s a s' emitted) :
    Transition.Machine.Meets PicksUpInFull (taken ++ [(s, a)]) →
      ∀ msg, .signStarted msg ∈ es ++ emitted → .messageAccepted msg ∈ es ++ emitted := by
  intro meets msg signed
  obtain ⟨before, now⟩ := (Transition.Machine.meets_append_singleton ..).mp meets
  rcases List.mem_append.mp signed with signed | signed
  · exact List.mem_append_left _ (ledger.signed before msg signed)
  · cases h with
    | missing | refused | accepted => simp at signed
    | pickedUp picks =>
        obtain rfl : msg = s.message := by
          rw [toMem_eq_self_iff.mpr (now picks)] at signed
          simpa using signed
        exact List.mem_append_left _ (ledger.pending picks.2.2)
    | unrelated _ _ quiet => cases (quiet _ signed).2.1

theorem MessageLedger.step_cut (ledger : MessageLedger impl taken es s)
    (h : MessageEffect impl s a s' emitted) :
    ¬ Transition.Machine.Meets PicksUpInFull (taken ++ [(s, a)]) →
      ∃ msg, 2 ^ 31 ≤ msg.length ∧ .messageAccepted msg ∈ es ++ emitted ∧
        .signStarted (toMem msg) ∈ es ++ emitted := by
  intro unmet
  have kept (now : PicksUpInFull s a) : ∃ msg, 2 ^ 31 ≤ msg.length ∧
      .messageAccepted msg ∈ es ++ emitted ∧ .signStarted (toMem msg) ∈ es ++ emitted := by
    obtain ⟨msg, long, accepted, signed⟩ :=
      ledger.cut (Transition.Machine.not_meets_of_append_singleton unmet now)
    exact ⟨msg, long, List.mem_append_left _ accepted, List.mem_append_left _ signed⟩
  cases h with
  | missing | refused | accepted => exact kept trivial
  | pickedUp picks =>
      by_cases fits : s.message.length < 2 ^ 31
      · exact kept fun _ => fits
      · exact ⟨s.message, by omega, List.mem_append_left _ (ledger.pending picks.2.2), by simp⟩
  | unrelated _ noPick =>
      refine kept ?_
      cases a with
      | worker => exact fun picks => (noPick rfl picks).elim
      | _ => trivial

theorem MessageLedger.step_calls (ledger : MessageLedger impl taken es s)
    (h : MessageEffect impl s a s' emitted) :
    Transition.Machine.Meets CallsBeforePickup (taken ++ [(s, a)]) ↔
      RefusesLater (es ++ emitted) := by
  rw [Transition.Machine.meets_append_singleton, ledger.calls]
  cases h with
  | @missing msg sign start live empty =>
      rw [refusesLater_append_singleton]
      refine and_congr_right fun _ => ?_
      have call : CallsBeforePickup s (.setMessage msg) ↔
          s.worker.AwaitsMessage ∧ s.messageReady = false := by
        rcases empty with rfl | rfl <;> simp [CallsBeforePickup]
      rw [call, ledger.waiting_iff start live]
      simp [Event.LateRefusal]
  | @refused msg sign start live given ready =>
      rw [refusesLater_append_singleton]
      refine and_congr_right fun before => ?_
      have awaits : s.worker.AwaitsMessage := by
        by_contra begun
        exact ledger.second live begun ready before
      simp [CallsBeforePickup, awaits, given, Event.LateRefusal]
  | @accepted msg sign start live given ready =>
      rw [refusesLater_append_singleton]
      refine and_congr_right fun _ => ?_
      have call : CallsBeforePickup s (.setMessage (some msg)) ↔
          s.worker.AwaitsMessage ∧ s.messageReady = false := by
        simp [CallsBeforePickup, given, ready]
      rw [call, ledger.waiting_iff start live]
      simp [Event.LateRefusal]
  | pickedUp =>
      rw [refusesLater_append_quiet (by simp [Event.accepted?, Event.LateRefusal])]
      simp [CallsBeforePickup]
  | unrelated noCall _ quiet =>
      rw [refusesLater_append_quiet fun e he => ⟨(quiet e he).1, (quiet e he).2.2⟩]
      cases a <;> simp_all [CallsBeforePickup]

theorem run_messageLedger (run : impl.machine.Run taken es s) :
    MessageLedger impl taken es s := by
  refine run.history_invariant (fun taken es s => MessageLedger impl taken es s) ?_ ?_
  · constructor
    · simp
    · exact fun set => nomatch set
    · intro sign start begun _
      refine (begun (.inl ?_)).elim
      change impl.worker.entry = .awaitMessage
      rw [start]
      rfl
    · exact fun _ _ set => nomatch set
    · simp
    · simp
    · simp [RefusesLater]
  · intro _ _ _ _ _ _ hrun ledger hstep
    have h := (step_iff ..).mp hstep
    exact
      { unset := ledger.step_unset h.messageEffect
        pending := ledger.step_pending h.messageEffect
        begun := ledger.step_begun (run_flagsAgree hrun) h.freed_mono h.messageEffect
        second := ledger.step_second h.freed_mono h.messageEffect
        signed := ledger.step_signed h.messageEffect
        cut := ledger.step_cut h.messageEffect
        calls := ledger.step_calls h.messageEffect }

/-- An accepted message is the only one, if later calls are refused. -/
theorem RefusesLater.unique (refuses : RefusesLater es) {msg msg' : Bytes}
    (first : .messageAccepted msg ∈ es) (second : .messageAccepted msg' ∈ es) : msg = msg' := by
  obtain ⟨before, after, rfl⟩ := List.append_of_mem first
  have pairwise := List.pairwise_append.mp refuses
  rcases List.mem_append.mp second with early | late
  · exact (pairwise.2.2 _ early (.messageAccepted msg) (by simp) (by simp [Event.accepted?])).elim
  · rcases List.mem_cons.mp late with same | late
    · exact (Event.messageAccepted.inj same).symm
    · exact ((List.pairwise_cons.mp pairwise.2.1).1 _ late (by simp [Event.accepted?])).elim

/-- A session takes one message and signs it exactly as long as nobody calls `SetMessage` once
the worker has picked the message up, or with nothing to set while it is pending, and the
message that is picked up has a size that an `int` can hold; and a `SetMessage` that throws
changes nothing. -/
theorem oneMessage_iff (run : impl.machine.Run taken es s) :
    (OneMessage es ↔ Transition.Machine.Meets CallsBeforePickup taken ∧
        Transition.Machine.Meets PicksUpInFull taken) ∧
      ∀ msg s' err, impl.machine.step s (.setMessage msg) = some (s', [.messageRefused err]) →
        s' = s := by
  have ledger := run_messageLedger run
  refine ⟨?_, ?_⟩
  · rw [ledger.calls]
    constructor
    · rintro ⟨refuses, signed⟩
      refine ⟨refuses, ?_⟩
      by_contra unmet
      obtain ⟨msg, long, accepted, cut⟩ := ledger.cut unmet
      have whole := toMem_eq_self_iff.mp (refuses.unique accepted (signed _ cut)).symm
      omega
    · rintro ⟨refuses, full⟩
      exact ⟨refuses, ledger.signed full⟩
  · intro msg s' err step
    cases (step_iff ..).mp step with
    | messageMissing => rfl
    | messageRefused => rfl

end Run

/-! ## A second message -/

/-- A signing session whose protocol sends the message it signs. -/
def signsOnce : SessionImpl Bytes Unit Bytes where
  worker := .awaitMessage fun msg => .send msg (.finish (.publish msg))
  finalize _ ready := (match ready with
    | some signature => .ok signature
    | none => .error ⟨.protocolState, "signature not ready"⟩, ready)

/-- The worker has picked up the first message, so the second is accepted as well, and is
not the one that is signed. -/
theorem second_message_accepted :
    ¬ ∀ taken es s, signsOnce.machine.Run taken es s → OneMessage es := by
  intro h
  obtain ⟨taken, s, run, _⟩ := Transition.Machine.run_of_trace
    (show (signsOnce.machine.trace (fun _ _ => True) signsOnce.machine.init
      [.setMessage (some [1]), .worker, .setMessage (some [2])]).map Prod.fst =
        some [.messageAccepted [1], .signStarted [1], .messageAccepted [2]] from rfl)
  have refuses := (h taken _ s run).1
  simp [RefusesLater, Event.accepted?, Event.LateRefusal] at refuses

/-- The second call comes before the pick-up. -/
theorem oneMessage_iff_early :
    OneMessage [.messageAccepted [1],
      .messageRefused ⟨.protocolState, "message already set"⟩,
      (.signStarted [1] : Event Bytes)] := by
  obtain ⟨taken, s, run, meets⟩ := Transition.Machine.run_of_trace
    (show (signsOnce.machine.trace (fun s a => CallsBeforePickup s a ∧ PicksUpInFull s a)
      signsOnce.machine.init
      [.setMessage (some [1]), .setMessage (some [2]), .worker]).map Prod.fst = some _ from rfl)
  exact (oneMessage_iff run).1.mpr
    ⟨fun p hp => (meets p hp).1, fun p hp => (meets p hp).2⟩

end MaanyMpc
