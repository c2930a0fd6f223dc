import MaanyMpc.Session.Failure

/-! # What Continue promises

A driver that gets Continue waits for the next frame of the peer. Whether the worker
still needs one does not depend on how far it has come: what is left of its program on
the queued frames starves exactly when the whole program starves on all frames supplied
so far. -/

namespace MaanyMpc

variable {α φ β : Type}

def Event.supplied? : Event β → Option Bytes
  | .supplied msg => some msg
  | _ => none

def Event.signed? : Event β → Option Bytes
  | .signStarted msg => some msg
  | _ => none

/-- The frames that the Steps have pushed, in order. -/
def suppliedFrames (es : List (Event β)) : List Bytes := es.filterMap Event.supplied?

/-- The messages handed to the signing protocol, in order. -/
def signedMessages (es : List (Event β)) : List Bytes := es.filterMap Event.signed?

@[simp] theorem suppliedFrames_append (es fs : List (Event β)) :
    suppliedFrames (es ++ fs) = suppliedFrames es ++ suppliedFrames fs :=
  List.filterMap_append

@[simp] theorem signedMessages_append (es fs : List (Event β)) :
    signedMessages (es ++ fs) = signedMessages es ++ signedMessages fs :=
  List.filterMap_append

/-- The protocol that the worker has been given so far. -/
def SessionImpl.protocol? (impl : SessionImpl α φ β) (es : List (Event β)) :
    Option (Program (WorkerExit α)) :=
  match impl.worker with
  | .protocol program => some program
  | .awaitMessage sign => (signedMessages es).head?.map sign

/-- What the worker has left to run; nothing before it has its message or after its end. -/
def WorkerPc.remaining : WorkerPc α → Program (WorkerExit α)
  | .running program => program
  | .sent next => next
  | .parkedReceive next | .wokenReceive next => .receive next
  | _ => .finish .quiet

@[simp] theorem WorkerPc.remaining_notified (pc : WorkerPc α) :
    pc.notified.remaining = pc.remaining := by
  cases pc <;> rfl

@[simp] theorem WorkerPc.remaining_messageNotified (pc : WorkerPc α) :
    pc.messageNotified.remaining = pc.remaining := by
  cases pc <;> rfl

/-- The worker needs a frame that has not been supplied yet. -/
def State.NeedsPeer (s : State α φ) : Prop :=
  s.worker.remaining.starves s.inboundQueue = true

section Step

variable {impl : SessionImpl α φ β} {s s' : State α φ} {a : Action φ} {es : List (Event β)}

/-- A live step of a worker that has its protocol: the frames it supplies are the only
thing that changes what the worker still needs. -/
theorem Step.starves_eq (h : Step impl s a s' es) (flags : FlagsAgree s)
    (live : s'.freed = false) (sound : s'.fatal = none) (begun : ¬ s.worker.AwaitsMessage)
    (extra : List Bytes) :
    s'.worker.remaining.starves (s'.inboundQueue ++ extra) =
      s.worker.remaining.starves (s.inboundQueue ++ (suppliedFrames es ++ extra)) := by
  have kept := h.live_before live
  have fatal := h.sound_before sound
  have alive := flags.not_aborted kept fatal
  cases h with
  | enteredFailed pc members dead | wokenFailed pc dead => simp [fatal, alive] at dead
  | failed pc => cases hf : s.fatal <;> simp [State.fail, hf] at sound
  | messageTaken pc | messageAborted pc | messageParked pc => exact (begun (.inl pc)).elim
  | lostWaiting pc gone | lostRunning pc gone =>
      rw [kept] at gone
      cases gone
  | pushed pc => simp [State.pushInbound, suppliedFrames, Event.supplied?]
  | enteredTaken pc members fatal aborted queue | wokenTaken pc fatal aborted queue =>
      simp [pc, queue, WorkerPc.remaining, suppliedFrames, Event.supplied?, List.filterMap_cons]
  | sendStored pc | enteredParked pc | sendNotified pc | wokenParked pc | published pc
  | quiet pc | left pc | doneSet pc | exited pc | wokeReceive pc | wokeMessage pc =>
      simp [pc, WorkerPc.remaining, WorkerPc.notified, State.announce, suppliedFrames,
        Event.supplied?, List.filterMap_cons]
  | _ => simp [State.abort, State.destroy, suppliedFrames, Event.supplied?, List.filterMap_cons]

theorem Step.signed_eq_nil (h : Step impl s a s' es) (begun : ¬ s.worker.AwaitsMessage) :
    signedMessages es = [] := by
  cases h with
  | messageTaken pc => exact (begun (.inl pc)).elim
  | _ => rfl

/-- The worker stops waiting for `SetMessage` by picking the message up, unless the
session fails or is freed. -/
theorem Step.started (h : Step impl s a s' es) (flags : FlagsAgree s)
    (live : s'.freed = false) (sound : s'.fatal = none) (awaited : s.worker.AwaitsMessage)
    (begun : ¬ s'.worker.AwaitsMessage) :
    ∃ sign, impl.worker = .awaitMessage sign ∧
      s'.worker.remaining = sign (toMem s.message) ∧
      es = [.signStarted (toMem s.message)] ∧ s'.inboundQueue = s.inboundQueue := by
  have kept := h.live_before live
  have fatal := h.sound_before sound
  have alive := flags.not_aborted kept fatal
  cases h with
  | messageTaken pc members start ready => exact ⟨_, start, rfl, rfl, rfl⟩
  | messageAborted pc members start ready dead => simp [alive, fatal] at dead
  | _ => simp_all [State.pushInbound, State.abort, State.destroy, WorkerPc.AwaitsMessage]

theorem Step.fresh (h : Step impl s a s' es) (awaits : s'.worker.AwaitsMessage) :
    signedMessages es = [] ∧ s'.inboundQueue = s.inboundQueue ++ suppliedFrames es := by
  cases h with
  | messageTaken pc => simp [WorkerPc.AwaitsMessage] at awaits
  | enteredTaken | wokenTaken => simp [WorkerPc.AwaitsMessage] at awaits
  | pushed pc => exact ⟨rfl, rfl⟩
  | _ => exact ⟨rfl, (List.append_nil _).symm⟩

end Step

/-- A worker that has asked and been given nothing is still in `OnReceive`. -/
theorem Step.asking (h : Step impl s a s' es) (flags : FlagsAgree s)
    (hs : s.freed = false → s.fatal = none → s.waitingForInbound = true → s.worker.InReceive)
    (live : s'.freed = false) (sound : s'.fatal = none) (asked : s'.waitingForInbound = true) :
    s'.worker.InReceive := by
  have kept := h.live_before live
  have fatal := h.sound_before sound
  have alive := flags.not_aborted kept fatal
  have before := hs kept fatal
  cases h with
  | failed pc => cases hf : s.fatal <;> simp [State.fail, hf] at sound
  | _ => simp_all [State.announce, State.pushInbound, State.abort, State.destroy,
      WorkerPc.InReceive]

/-- The worker stands where its protocol stands after the frames supplied so far. -/
structure Resumes (impl : SessionImpl α φ β) (es : List (Event β)) (s : State α φ) : Prop where
  fresh : s.worker.AwaitsMessage →
    signedMessages es = [] ∧ s.inboundQueue = suppliedFrames es
  starves_eq : s.freed = false → s.fatal = none → ¬ s.worker.AwaitsMessage →
    ∃ program, impl.protocol? es = some program ∧ ∀ extra,
      s.worker.remaining.starves (s.inboundQueue ++ extra) =
        program.starves (suppliedFrames es ++ extra)
  asking : s.freed = false → s.fatal = none → s.waitingForInbound = true → s.worker.InReceive

section Run

variable {impl : SessionImpl α φ β} {taken : List (State α φ × Action φ)}
  {es : List (Event β)} {s : State α φ}

theorem Resumes.step {a : Action φ} {s' : State α φ} {emitted : List (Event β)}
    (hs : Resumes impl es s) (flags : FlagsAgree s) (h : Step impl s a s' emitted) :
    Resumes impl (es ++ emitted) s' where
  fresh := by
    intro awaits
    obtain ⟨signed, queue⟩ := h.fresh awaits
    obtain ⟨unsigned, same⟩ := hs.fresh (h.awaits_cases awaits).1
    simp [signed, unsigned, queue, same]
  starves_eq := by
    intro live sound begun
    by_cases awaited : s.worker.AwaitsMessage
    · obtain ⟨sign, start, remaining, rfl, queue⟩ := h.started flags live sound awaited begun
      obtain ⟨unsigned, same⟩ := hs.fresh awaited
      refine ⟨sign (toMem s.message), ?_, ?_⟩
      · rw [SessionImpl.protocol?, start, signedMessages_append, unsigned]
        rfl
      · intro extra
        rw [remaining, queue, same, suppliedFrames_append]
        simp [suppliedFrames, Event.supplied?, List.filterMap_cons]
    · obtain ⟨program, given, starves⟩ :=
        hs.starves_eq (h.live_before live) (h.sound_before sound) awaited
      refine ⟨program, ?_, ?_⟩
      · rw [← given, SessionImpl.protocol?, SessionImpl.protocol?, signedMessages_append,
          h.signed_eq_nil awaited, List.append_nil]
      · intro extra
        rw [h.starves_eq flags live sound awaited, starves, suppliedFrames_append,
          List.append_assoc]
  asking := h.asking flags hs.asking

theorem run_resumes (run : impl.machine.Run taken es s) : Resumes impl es s := by
  refine run.history_invariant (fun _ es s => Resumes impl es s) ?_ ?_
  · constructor
    · exact fun _ => ⟨rfl, rfl⟩
    · intro _ _ begun
      change ¬ impl.worker.entry.AwaitsMessage at begun
      cases hw : impl.worker with
      | awaitMessage sign => exact (begun (.inl (by simp [hw, Worker.entry]))).elim
      | protocol program =>
          refine ⟨program, by simp [SessionImpl.protocol?, hw], fun extra => ?_⟩
          change impl.worker.entry.remaining.starves ([] ++ extra) = program.starves ([] ++ extra)
          simp [hw, Worker.entry, WorkerPc.remaining]
    · exact fun _ _ asked => Bool.noConfusion asked
  · intro _ _ _ _ _ _ hrun hs hstep
    exact hs.step (run_flagsAgree hrun) ((step_iff ..).mp hstep)

/-- What a Step that returns Continue has found. -/
theorem Step.continues {a : Action φ} {s' : State α φ} {emitted : List (Event β)}
    {outbound : Option Bytes} (h : Step impl s a s' emitted)
    (returned : .stepReturned ⟨.continue, outbound⟩ ∈ emitted) :
    a = .caller ∧ (∃ waitSnapshot, s.caller = .stepLoop waitSnapshot ∧ s.fatal = none ∧
      s.workerDone = false ∧ (s.outbound ≠ none ∨
        s.waitingForInbound = true ∧ waitSnapshot < s.waitRequestId)) ∧
      s'.worker = s.worker ∧ s'.inboundQueue = s.inboundQueue := by
  cases h <;> simp_all

/-- Where the section comes to return Continue. -/
theorem continues_of_section {waitSnapshot : UInt64} (pc : s.caller = .stepLoop waitSnapshot)
    (sound : s.fatal = none) (undone : s.workerDone = false)
    (found : s.outbound ≠ none ∨ s.waitingForInbound = true ∧ waitSnapshot < s.waitRequestId) :
    ∃ s' outbound, Step impl s .caller s' [.stepReturned ⟨.continue, outbound⟩] := by
  rcases Option.eq_none_or_eq_some s.outbound with empty | ⟨data, full⟩
  · rcases found with full | ⟨waiting, later⟩
    · exact (full empty).elim
    · exact ⟨_, none, .stepContinued pc sound empty undone waiting later⟩
  · have collected : Step impl s .caller { s with outbound := none, caller := .idle }
        [.stepReturned ⟨if s.workerDone then .done else .continue, some data⟩] :=
      .stepCollected pc sound full
    rw [undone] at collected
    exact ⟨_, some data, collected⟩

/-- If the section returns Continue, the worker needs a frame that is not supplied yet. -/
def ContinuesTruly (impl : SessionImpl α φ β) (s : State α φ) (a : Action φ) : Prop :=
  ∀ s' emitted outbound, impl.machine.step s a = some (s', emitted) →
    .stepReturned ⟨.continue, outbound⟩ ∈ emitted → s'.NeedsPeer

/-- The frames that the Steps have pushed answer every receive of the protocol. -/
def Answered (impl : SessionImpl α φ β) (es : List (Event β)) : Prop :=
  ∀ program, impl.protocol? es = some program → program.starves (suppliedFrames es) = false

/-- Once the frames answer every receive, a Step that comes to its section before
`worker_done_` is set, or `Fail` is called, finds the slot empty, and no request announced
after its snapshot whose frame is still in the queue. -/
def DecidesInTime (impl : SessionImpl α φ β) (es : List (Event β)) (s : State α φ) : Prop :=
  ∀ waitSnapshot, s.caller = .stepLoop waitSnapshot → s.fatal = none → s.workerDone = false →
    Answered impl es → s.outbound = none ∧
      (s.inboundQueue ≠ [] → s.waitingForInbound = true → ¬ waitSnapshot < s.waitRequestId)

/-- In a live section that the worker has touched, what is left of its program starves on the
queue unless the frames supplied so far answer everything. -/
theorem needsPeer_iff (run : impl.machine.Run taken es s) (live : s.freed = false)
    (sound : s.fatal = none) (touched : s.outbound ≠ none ∨ s.waitingForInbound = true) :
    s.NeedsPeer ↔ ¬ Answered impl es := by
  have begun : ¬ s.worker.AwaitsMessage := by
    intro awaits
    obtain ⟨empty, unasked⟩ := (run_flagsAgree run).untouched awaits
    rcases touched with full | asked
    · exact full empty
    · rw [unasked] at asked
      cases asked
  obtain ⟨program, given, starves⟩ := (run_resumes run).starves_eq live sound begun
  have same := starves []
  simp only [List.append_nil] at same
  simp [State.NeedsPeer, Answered, given, same]

theorem continuesTruly_iff (run : impl.machine.Run taken es s) (a : Action φ) :
    ContinuesTruly impl s a ↔ (a = .caller → DecidesInTime impl es s) := by
  constructor
  · rintro truly rfl waitSnapshot pc sound undone answered
    have live : s.freed = false := by simp [State.freed, pc]
    have silent (found : s.outbound ≠ none ∨
        s.waitingForInbound = true ∧ waitSnapshot < s.waitRequestId) : False := by
      obtain ⟨s', outbound, h⟩ : ∃ s' outbound,
          Step impl s .caller s' [.stepReturned ⟨.continue, outbound⟩] :=
        continues_of_section pc sound undone found
      have needs := truly s' _ outbound h.execution (.head _)
      obtain ⟨_, _, worker, queue⟩ := h.continues (.head _)
      rw [State.NeedsPeer, worker, queue] at needs
      exact (needsPeer_iff run live sound (found.imp id And.left)).mp needs answered
    refine ⟨?_, fun _ waiting later => silent (.inr ⟨waiting, later⟩)⟩
    by_contra full
    exact silent (.inl full)
  · intro inTime s' emitted outbound step returned
    obtain ⟨rfl, ⟨waitSnapshot, pc, sound, undone, found⟩, worker, queue⟩ :=
      ((step_iff ..).mp step).continues returned
    have live : s.freed = false := by simp [State.freed, pc]
    have touched : s.outbound ≠ none ∨ s.waitingForInbound = true := found.imp id And.left
    rw [State.NeedsPeer, worker, queue]
    change s.NeedsPeer
    by_cases answered : Answered impl es
    · obtain ⟨empty, stale⟩ := inTime rfl waitSnapshot pc sound undone answered
      rcases found with full | ⟨waiting, later⟩
      · exact (full empty).elim
      · -- with nothing queued the receive that waits is the one that starves
        have drained : s.inboundQueue = [] := by
          by_contra queued
          exact stale queued waiting later
        obtain ⟨next, parked | woken⟩ := (run_resumes run).asking live sound waiting
        · simp [State.NeedsPeer, parked, drained, WorkerPc.remaining, Program.starves]
        · simp [State.NeedsPeer, woken, drained, WorkerPc.remaining, Program.starves]
    · exact (needsPeer_iff run live sound touched).mpr answered

/-- Every Continue of a run tells the truth exactly when every deciding section of its Steps
is in time. -/
theorem continue_truthful_iff (run : impl.machine.Run taken es s) :
    Transition.Machine.Meets (ContinuesTruly impl) taken ↔
      ∀ first s rest es, taken = first ++ (s, .caller) :: rest →
        impl.machine.Run first es s → DecidesInTime impl es s := by
  constructor
  · intro truly first s rest es split before
    exact (continuesTruly_iff before .caller).mp (truly (s, .caller) (by simp [split])) rfl
  · rintro inTime ⟨s, a⟩ mem
    obtain ⟨first, rest, split⟩ := List.append_of_mem mem
    obtain ⟨es, before⟩ := run.before split
    refine (continuesTruly_iff before a).mpr ?_
    rintro rfl
    exact inTime first s rest es split before

end Run

/-! ## A last message -/

/-- A worker whose last act is to send. -/
def sendsLast : SessionImpl Unit Unit Unit where
  worker := .protocol (.send [1] (.finish (.publish ())))
  finalize _ ready := (.ok (), ready)

/-- The Step collects the message before the worker has set `worker_done_`, and promises
a frame that nobody will send. -/
theorem last_message_continues :
    ¬ ∀ taken es s a s' emitted outbound, sendsLast.machine.Run taken es s →
      sendsLast.machine.step s a = some (s', emitted) →
      .stepReturned ⟨.continue, outbound⟩ ∈ emitted → s'.NeedsPeer := by
  intro h
  obtain ⟨taken, run, _⟩ := Transition.Machine.reach_of_trace
    (show sendsLast.machine.trace (fun _ _ => True) sendsLast.machine.init
      [.step none, .caller, .worker] = some (_, _) from rfl)
  have needs := h _ _ _ .caller _ _ (some [1]) run rfl (.head _)
  cases needs

/-- A worker that sends and then asks. -/
def sendsFirst : SessionImpl Unit Unit Unit where
  worker := .protocol (.send [1] (.receive fun _ => .finish (.publish ())))
  finalize _ ready := (.ok (), ready)

/-- Its Step collects the message while the frame that it asks for next is missing. -/
theorem continue_truthful_iff_first :
    ∃ taken es s, sendsFirst.machine.Run taken es s ∧
      .stepReturned ⟨.continue, some [1]⟩ ∈ es ∧
      ∀ first s rest es, taken = first ++ (s, .caller) :: rest →
        sendsFirst.machine.Run first es s → DecidesInTime sendsFirst es s := by
  have run := (((Transition.Machine.Run.start (M := sendsFirst.machine)).next
    (a := .step none) rfl).next (a := .caller) rfl).next (a := .worker) rfl
  have whole := run.next (a := .caller) rfl
  refine ⟨_, _, _, whole, List.mem_append_right _ (.head _), (continue_truthful_iff whole).mp ?_⟩
  simp only [List.nil_append, List.cons_append, Transition.Machine.Meets, List.forall_mem_cons]
  refine ⟨?_, ?_, ?_, ?_, by simp⟩
  all_goals intro s' emitted outbound step returned
  all_goals cases step
  · cases returned
  · cases returned
  · simp at returned
  · rfl

end MaanyMpc
