import MaanyMpc.Session.Inbound
import MaanyMpc.Session.Outbound
import MaanyMpc.Session.Signature

/-! # What a session makes of its frames

A session adds nothing of its own to the protocol it runs: what its worker sends, whether it
fails and what Finalize returns are functions of the frames that the worker has received. -/

namespace MaanyMpc

open Transition

variable {α φ β ρ : Type}

/-! ## Programs on given frames -/

namespace Program

/-- What is sent, given the frames in order, up to a receive that none of them answers. -/
def sends : Program ρ → List Bytes → List Bytes
  | finish _, _ => []
  | send msg next, frames => toMem msg :: next.sends frames
  | receive _, [] => []
  | receive next, frame :: frames => (next (some (toMem frame))).sends frames

/-- How the program ends, if the frames are enough for it. -/
def result? : Program ρ → List Bytes → Option ρ
  | finish result, _ => some result
  | send _ next, frames => next.result? frames
  | receive _, [] => none
  | receive next, frame :: frames => (next (some (toMem frame))).result? frames

/-- More frames bring more messages. -/
theorem sends_mono (p : Program ρ) {frames all : List Bytes} (h : frames <+: all) :
    p.sends frames <+: p.sends all := by
  obtain ⟨extra, rfl⟩ := h
  induction p generalizing frames with
  | finish result => exact List.prefix_rfl
  | send msg next ih => exact List.cons_prefix_cons.mpr ⟨rfl, ih⟩
  | receive next ih =>
      cases frames with
      | nil => exact List.nil_prefix
      | cons frame frames => exact ih (some (toMem frame))

/-- More frames do not change a result. -/
theorem result?_mono {p : Program ρ} {frames all : List Bytes} (h : frames <+: all) {result : ρ}
    (ended : p.result? frames = some result) : p.result? all = some result := by
  obtain ⟨extra, rfl⟩ := h
  induction p generalizing frames with
  | finish result => exact ended
  | send msg next ih => exact ih ended
  | receive next ih =>
      cases frames with
      | nil => cases ended
      | cons frame frames => exact ih (some (toMem frame)) ended

/-- After sending and receiving this the program has `rest` left. -/
inductive Reaches (program : Program ρ) : List Bytes → List Bytes → Program ρ → Prop where
  | start : Reaches program [] [] program
  | send {sent received msg next} (h : Reaches program sent received (.send msg next)) :
      Reaches program (sent ++ [toMem msg]) received next
  | receive {sent received next} (h : Reaches program sent received (.receive next))
      (frame : Bytes) :
      Reaches program sent (received ++ [toMem frame]) (next (some (toMem frame)))

variable {program rest : Program ρ} {sent received : List Bytes}

theorem Reaches.sends_append (h : program.Reaches sent received rest) (frames : List Bytes) :
    program.sends (received ++ frames) = sent ++ rest.sends frames := by
  induction h generalizing frames with
  | start => rfl
  | send _ ih => simp [ih, sends]
  | receive _ frame ih => simp [ih, sends]

theorem Reaches.result?_append (h : program.Reaches sent received rest) (frames : List Bytes) :
    program.result? (received ++ frames) = rest.result? frames := by
  induction h generalizing frames with
  | start => rfl
  | send _ ih => exact ih frames
  | receive _ frame ih => simp [ih, result?]

/-- What has been sent by then is no more than the received frames ask for. -/
theorem Reaches.sent_below (h : program.Reaches sent received rest) :
    sent <+: program.sends received := by
  refine ⟨rest.sends [], ?_⟩
  rw [← h.sends_append, List.append_nil]

theorem Reaches.result? (h : program.Reaches sent received rest) :
    program.result? received = rest.result? [] := by
  rw [← h.result?_append, List.append_nil]

/-- A program that ends on a first part of its frames has not received any others. -/
theorem Reaches.eq_of_result (h : program.Reaches sent received rest) {frames : List Bytes}
    (first : frames <+: received) {result : ρ} (ended : program.result? frames = some result) :
    frames = received := by
  induction h with
  | start => exact List.prefix_nil.mp first
  | send _ ih => exact ih first
  | @receive sent received next h frame ih =>
      rcases List.prefix_concat_iff.mp first with whole | before
      · exact whole
      · rw [ih before, h.result?] at ended
        cases ended

end Program

/-! ## Finalize -/

def WorkerExit.failure? : WorkerExit α → Option Error
  | .fail err => some err
  | _ => none

def WorkerExit.value? : WorkerExit α → Option α
  | .publish value => some value
  | _ => none

/-- The format that Finalize is called with. -/
def Action.format? : Action φ → Option φ
  | .finalize fmt => some fmt
  | _ => none

/-- The format of the Finalize that has not ended yet. -/
def CallerPc.format? : CallerPc φ → Option φ
  | .ensuring fmt | .parkedEnsure fmt | .finalizing fmt => some fmt
  | _ => none

@[simp] theorem CallerPc.format?_notified (pc : CallerPc φ) : pc.notified.format? = pc.format? := by
  cases pc <;> rfl

/-- The formats that Finalize was called with, in call order. -/
def finalizeCalls (taken : List (State α φ × Action φ)) : List φ :=
  taken.filterMap fun p => p.2.format?

theorem finalizeCalls_append_singleton (taken : List (State α φ × Action φ)) (s : State α φ)
    (a : Action φ) :
    finalizeCalls (taken ++ [(s, a)]) = finalizeCalls taken ++ a.format?.toList := by
  cases h : a.format? <;> simp [finalizeCalls, List.filterMap_append, h]

/-- What one Finalize after the other returns, and the key that is left. -/
def SessionImpl.served (impl : SessionImpl α φ β) (ready : Option α) :
    List φ → List (Except Error β) × Option α
  | [] => ([], ready)
  | fmt :: rest =>
    ((impl.finalize fmt ready).1 :: (impl.served (impl.finalize fmt ready).2 rest).1,
      (impl.served (impl.finalize fmt ready).2 rest).2)

/-- The same behind a worker that has ended this way. -/
def SessionImpl.finalizes (impl : SessionImpl α φ β) (exit : WorkerExit α) (fmts : List φ) :
    List (Except Error β) × Option α :=
  match exit.failure? with
  | some err => (fmts.map fun _ => .error err, none)
  | none => impl.served exit.value? fmts

theorem SessionImpl.served_append (impl : SessionImpl α φ β) (ready : Option α)
    (fmts more : List φ) :
    impl.served ready (fmts ++ more) =
      ((impl.served ready fmts).1 ++ (impl.served (impl.served ready fmts).2 more).1,
        (impl.served (impl.served ready fmts).2 more).2) := by
  induction fmts generalizing ready with
  | nil => rfl
  | cons fmt rest ih => simp [served, ih]

@[simp] theorem SessionImpl.finalizes_nil (impl : SessionImpl α φ β) (exit : WorkerExit α) :
    impl.finalizes exit [] = ([], exit.value?) := by
  cases exit <;> rfl

/-- One more Finalize behind a worker that has not failed. -/
theorem SessionImpl.finalizes_append_singleton (impl : SessionImpl α φ β) {exit : WorkerExit α}
    (finished : exit.failure? = none) (fmts : List φ) (fmt : φ) :
    impl.finalizes exit (fmts ++ [fmt]) =
      ((impl.finalizes exit fmts).1 ++ [(impl.finalize fmt (impl.finalizes exit fmts).2).1],
        (impl.finalize fmt (impl.finalizes exit fmts).2).2) := by
  simp [finalizes, finished, served_append, served]

/-- One more behind a worker that has. -/
theorem SessionImpl.finalizes_append_singleton_of_failure (impl : SessionImpl α φ β)
    {exit : WorkerExit α} {err : Error} (failed : exit.failure? = some err) (fmts : List φ)
    (fmt : φ) :
    impl.finalizes exit (fmts ++ [fmt]) =
      ((impl.finalizes exit fmts).1 ++ [.error err], (impl.finalizes exit fmts).2) := by
  simp [finalizes, failed]

/-- The replies to a first part of the calls do not depend on the other calls. -/
theorem SessionImpl.finalizes_below (impl : SessionImpl α φ β) (exit : WorkerExit α)
    {fmts all : List φ} (h : fmts <+: all) :
    (impl.finalizes exit fmts).1 <+: (impl.finalizes exit all).1 := by
  unfold finalizes
  split
  · exact h.map _
  · obtain ⟨more, rfl⟩ := h
    rw [served_append]
    exact List.prefix_append _ _

/-! ## One step -/

section Step

/-- What a step does to the worker's program. -/
inductive WorkerEffect (impl : SessionImpl α φ β) (s : State α φ) (a : Action φ)
    (s' : State α φ) (es : List (Event β)) : Prop where
  | sent (msg : Bytes) (next : Program (WorkerExit α)) (pc : s.worker = .running (.send msg next))
      (after : s'.worker = .sent next) (sends : sentMessages es = [toMem msg])
      (unread : receivedFrames es = []) (unsigned : signedMessages es = [])
  | took (msg : Bytes) (next : Option Bytes → Program (WorkerExit α))
      (pc : s.worker.remaining = .receive next)
      (after : s'.worker = .running (next (some (toMem msg))))
      (unsent : sentMessages es = []) (reads : receivedFrames es = [toMem msg])
      (unsigned : signedMessages es = [])
  /-- a receive that fails, a wait for the message that is given up, or a destroyed member -/
  | stopped (pc : ¬ s.worker.Past) (stop : s.fatal ≠ none ∨ s.aborted = true ∨ s.freed = true)
  | ended (exit : WorkerExit α) (pc : s.worker = .running (.finish exit)) (past : s'.worker.Past)
      (fatal : s'.fatal = s.fatal.or exit.failure?) (ready : s'.ready = exit.value?.or s.ready)
      (caller : s'.caller.format? = s.caller.format?) (action : a = .worker) (events : es = [])
  | started (sign : Bytes → Program (WorkerExit α)) (start : impl.worker = .awaitMessage sign)
      (pc : s.worker = .awaitMessage) (after : s'.worker = .running (sign (toMem s.message)))
      (unsent : sentMessages es = []) (unread : receivedFrames es = [])
      (signs : signedMessages es = [toMem s.message])
  | kept (remaining : s'.worker.remaining = s.worker.remaining)
      (past : s'.worker.Past ↔ s.worker.Past)
      (awaits : s'.worker.AwaitsMessage ↔ s.worker.AwaitsMessage)
      (unsent : sentMessages es = []) (unread : receivedFrames es = [])
      (unsigned : signedMessages es = [])

variable {impl : SessionImpl α φ β} {s s' : State α φ} {a : Action φ} {es : List (Event β)}

@[simp] theorem WorkerPc.past_notified (pc : WorkerPc α) : pc.notified.Past ↔ pc.Past := by
  cases pc <;> simp [WorkerPc.notified, WorkerPc.Past, WorkerPc.Over]

@[simp] theorem WorkerPc.past_messageNotified (pc : WorkerPc α) :
    pc.messageNotified.Past ↔ pc.Past := by
  cases pc <;> simp [WorkerPc.messageNotified, WorkerPc.Past, WorkerPc.Over]

@[simp] theorem WorkerPc.awaitsMessage_notified (pc : WorkerPc α) :
    pc.notified.AwaitsMessage ↔ pc.AwaitsMessage := by
  cases pc <;> simp [WorkerPc.notified, WorkerPc.AwaitsMessage]

@[simp] theorem WorkerPc.awaitsMessage_messageNotified (pc : WorkerPc α) :
    pc.messageNotified.AwaitsMessage ↔ pc.AwaitsMessage := by
  cases pc <;> simp [WorkerPc.messageNotified, WorkerPc.AwaitsMessage]

theorem WorkerPc.Past.not_awaits {pc : WorkerPc α} (past : pc.Past) : ¬ pc.AwaitsMessage := by
  rcases past with rfl | rfl | rfl | rfl <;> simp [WorkerPc.AwaitsMessage]

theorem Step.workerEffect (h : Step impl s a s' es) : WorkerEffect impl s a s' es := by
  cases h with
  | sendStored pc => exact .sent _ _ pc rfl rfl rfl rfl
  | enteredTaken pc | wokenTaken pc => exact .took _ _ (by rw [pc]; rfl) rfl rfl rfl rfl
  | lostWaiting pc gone | lostRunning pc gone =>
      exact .stopped (by simp [pc, WorkerPc.Past, WorkerPc.Over]) (.inr (.inr gone))
  | enteredFailed pc members stop | wokenFailed pc stop =>
      exact .stopped (by simp [pc, WorkerPc.Past, WorkerPc.Over]) (stop.imp id .inl)
  | messageAborted pc members start ready stop =>
      refine .stopped (by simp [pc, WorkerPc.Past, WorkerPc.Over]) ?_
      cases fatal : s.fatal <;> simp_all
  | published pc | quiet pc =>
      exact .ended _ pc (.inl rfl) (by simp [WorkerExit.failure?]) rfl rfl rfl rfl
  | failed pc =>
      exact .ended _ pc (.inr (.inl rfl)) rfl rfl (CallerPc.format?_notified s.caller) rfl rfl
  | messageTaken pc members start ready => exact .started _ start pc rfl rfl rfl rfl
  | messageParked pc | enteredParked pc | sendNotified pc | wokenParked pc | left pc | doneSet pc
  | exited pc | wokeReceive pc | wokeMessage pc =>
      exact .kept (by simp [pc, WorkerPc.remaining])
        (by simp [pc, WorkerPc.Past, WorkerPc.Over])
        (by simp [pc, WorkerPc.AwaitsMessage]) rfl rfl rfl
  | pushed | aborting | messageAccepted =>
      exact .kept (by simp [State.pushInbound, State.abort])
        (by simp [State.pushInbound, State.abort])
        (by simp [State.pushInbound, State.abort]) rfl rfl rfl
  | _ => exact .kept rfl Iff.rfl Iff.rfl rfl rfl rfl

/-- What a step does to the calls of Finalize and to the key that waits for them. -/
inductive FinalizeEffect (impl : SessionImpl α φ β) (s : State α φ) (a : Action φ)
    (s' : State α φ) (es : List (Event β)) : Prop where
  | replied (fmt : φ) (pc : s.caller = .finalizing fmt) (after : s'.caller.format? = none)
      (action : a.format? = none) (replies : finalizeReplies es = [(impl.finalize fmt s.ready).1])
      (ready : s'.ready = (impl.finalize fmt s.ready).2)
  | threw (fmt : φ) (err : Error) (pc : s.caller.format? = some fmt) (fatal : s.fatal = some err)
      (after : s'.caller.format? = none) (action : a.format? = none)
      (replies : finalizeReplies es = [.error err]) (ready : s'.ready = s.ready)
  | published (value : α) (pc : s.worker = .running (.finish (.publish value)))
      (past : s'.worker.Past)
  | kept (calls : s'.caller.format?.toList = s.caller.format?.toList ++ a.format?.toList)
      (silent : finalizeReplies es = []) (ready : s'.ready = s.ready)

theorem Step.finalizeEffect (h : Step impl s a s' es) : FinalizeEffect impl s a s' es := by
  cases h with
  | finalized pc result | finalizeRefused pc result =>
      exact .replied _ pc rfl rfl (by rw [result]; rfl) (by rw [result])
  | ensureThrew pc fatal => exact .threw _ _ (by rw [pc]; rfl) fatal rfl rfl rfl rfl
  | published pc => exact .published _ pc (.inl rfl)
  | snapshotEmpty pc | snapshotMessage pc | pushed pc | stepThrew pc | stepCollected pc
  | stepDone pc | stepContinued pc | stepParked pc | ensurePassed pc | ensureParked pc
  | aborting pc | joined pc | wokeStep pc | wokeEnsure pc | stepCalled pc | finalizeCalled pc
  | destroyed pc =>
      refine .kept ?_ rfl rfl
      simp [pc, CallerPc.format?, Action.format?, State.pushInbound, State.abort, State.destroy,
        CallerPc.notified]
  | _ =>
      refine .kept ?_ rfl rfl
      simp [Action.format?, State.announce, State.fail]

theorem Step.aborted_origin (h : Step impl s a s' es) (aborted : s'.aborted = true) :
    s.aborted = true ∨ s'.worker.Past ∨ s.freed = true := by
  cases h with
  | failed pc => exact .inr (.inl (.inr (.inl rfl)))
  | aborting pc => exact .inr (.inr (by simp [State.freed, pc]))
  | _ => exact .inl aborted

end Step

/-! ## Runs -/

/-- Nobody has heard of an end of the worker. -/
structure State.Unended (calls : List φ) (es : List (Event β)) (s : State α φ) : Prop where
  fatal : s.fatal = none
  aborted : s.aborted = false
  live : s.freed = false
  ready : s.ready = none
  silent : finalizeReplies es = []
  calls : calls = s.caller.format?.toList

/-- The callers see this end of the worker. -/
structure State.EndedBy (impl : SessionImpl α φ β) (exit : WorkerExit α) (calls : List φ)
    (es : List (Event β)) (s : State α φ) : Prop where
  fatal : s.fatal = exit.failure?
  served : ∃ answered, calls = answered ++ s.caller.format?.toList ∧
    impl.finalizes exit answered = (finalizeReplies es, s.ready)

/-- The program has sent and received what was sent and received, and the callers see what has
become of it. -/
def Follows (impl : SessionImpl α φ β) (program : Program (WorkerExit α)) (calls : List φ)
    (es : List (Event β)) (s : State α φ) : Prop :=
  ∃ rest, program.Reaches (sentMessages es) (receivedFrames es) rest ∧
    (¬ s.worker.Past → rest = s.worker.remaining) ∧
    (s.worker.Past → ∃ exit, rest = .finish exit ∧ s.EndedBy impl exit calls es)

/-- The destructor runs only when the worker has ended. -/
def Spared (s : State α φ) (a : Action φ) : Prop := a = .destroy → s.worker.Past

/-- A session whose worker is not interrupted. -/
structure Uninterrupted (impl : SessionImpl α φ β) (taken : List (State α φ × Action φ))
    (es : List (Event β)) (s : State α φ) : Prop where
  unended : ¬ s.worker.Past → s.Unended (finalizeCalls taken) es
  fresh : s.worker.AwaitsMessage →
    sentMessages es = [] ∧ receivedFrames es = [] ∧ signedMessages es = []
  begun : ¬ s.worker.AwaitsMessage → ∃ program, impl.protocol? es = some program ∧
    Follows impl program (finalizeCalls taken) es s

section Run

variable {impl : SessionImpl α φ β} {program : Program (WorkerExit α)}
  {taken : List (State α φ × Action φ)} {es emitted : List (Event β)} {s s' : State α φ}
  {a : Action φ}

theorem State.Unended.not_stopped {calls : List φ} (unended : s.Unended calls es) :
    ¬ (s.fatal ≠ none ∨ s.aborted = true ∨ s.freed = true) := by
  rintro (failed | aborted | freed)
  · exact failed unended.fatal
  · rw [unended.aborted] at aborted
    cases aborted
  · rw [unended.live] at freed
    cases freed

theorem State.Unended.step (before : s.Unended (finalizeCalls taken) es)
    (finalizing : ∀ fmt, s.caller = .finalizing fmt → s.worker.Past) (spared : Spared s a)
    (h : Step impl s a s' emitted) (running : ¬ s.worker.Past) (past : ¬ s'.worker.Past) :
    s'.Unended (finalizeCalls (taken ++ [(s, a)])) (es ++ emitted) := by
  have fatal : s'.fatal = none := by
    rcases h.fatal_cases with same | ⟨err, _, rfl⟩
    · rw [same, before.fatal]
    · exact (past (.inr (.inl rfl))).elim
  have aborted : s'.aborted = false := by
    by_contra aborted
    rcases h.aborted_origin (by simpa using aborted) with old | ended | freed
    · rw [before.aborted] at old
      cases old
    · exact past ended
    · rw [before.live] at freed
      cases freed
  have live : s'.freed = false := by
    by_contra freed
    rcases h.freed_cases (by simpa using freed) with old | ⟨rfl, _⟩
    · rw [before.live] at old
      cases old
    · exact running (spared rfl)
  cases h.finalizeEffect with
  | replied fmt pc => exact (running (finalizing fmt pc)).elim
  | threw fmt err pc failed =>
      rw [before.fatal] at failed
      cases failed
  | published value pc ended => exact (past ended).elim
  | kept calls silent ready =>
      refine ⟨fatal, aborted, live, ready.trans before.ready, ?_, ?_⟩
      · rw [finalizeReplies_append, before.silent, silent, List.append_nil]
      · rw [finalizeCalls_append_singleton, before.calls, calls]

theorem State.EndedBy.step {exit : WorkerExit α}
    (before : s.EndedBy impl exit (finalizeCalls taken) es)
    (finalizing : ∀ fmt, s.caller = .finalizing fmt → s.fatal = none)
    (h : Step impl s a s' emitted) (past : s.worker.Past) :
    s'.EndedBy impl exit (finalizeCalls (taken ++ [(s, a)])) (es ++ emitted) := by
  obtain ⟨answered, calls, replies⟩ := before.served
  have fatal : s'.fatal = exit.failure? := by
    rw [← before.fatal]
    rcases h.fatal_cases with same | ⟨err, pc, _⟩
    · exact same
    · simp [pc, WorkerPc.Past, WorkerPc.Over] at past
  refine ⟨fatal, ?_⟩
  rw [finalizeCalls_append_singleton, calls, finalizeReplies_append]
  cases h.finalizeEffect with
  | replied fmt pc after action reply ready =>
      have finished : exit.failure? = none := by rw [← before.fatal, finalizing fmt pc]
      refine ⟨answered ++ [fmt], ?_, ?_⟩
      · rw [after, action, pc]
        simp [CallerPc.format?]
      · rw [impl.finalizes_append_singleton finished, replies, reply, ready]
  | threw fmt err pc failed after action reply ready =>
      refine ⟨answered ++ [fmt], ?_, ?_⟩
      · simp [pc, after, action]
      · rw [impl.finalizes_append_singleton_of_failure (before.fatal ▸ failed), replies, reply,
          ready]
  | published value pc => simp [pc, WorkerPc.Past, WorkerPc.Over] at past
  | kept formats silent ready =>
      refine ⟨answered, ?_, ?_⟩
      · rw [List.append_assoc, formats]
      · rw [replies, silent, ready, List.append_nil]

/-- The last step of the worker function. -/
theorem State.Unended.ended {exit : WorkerExit α} (before : s.Unended (finalizeCalls taken) es)
    (fatal : s'.fatal = s.fatal.or exit.failure?) (ready : s'.ready = exit.value?.or s.ready)
    (caller : s'.caller.format? = s.caller.format?) :
    s'.EndedBy impl exit (finalizeCalls (taken ++ [(s, .worker)])) es := by
  refine ⟨by rw [fatal, before.fatal, Option.none_or], [], ?_, ?_⟩
  · rw [finalizeCalls_append_singleton, before.calls, caller]
    simp [Action.format?]
  · rw [SessionImpl.finalizes_nil, before.silent, ready, before.ready, Option.or_none]

theorem Follows.step (before : Follows impl program (finalizeCalls taken) es s)
    (unended : ¬ s.worker.Past → s.Unended (finalizeCalls taken) es)
    (finalizing : ∀ fmt, s.caller = .finalizing fmt → s.fatal = none)
    (begun : ¬ s.worker.AwaitsMessage) (h : Step impl s a s' emitted) :
    Follows impl program (finalizeCalls (taken ++ [(s, a)])) (es ++ emitted) s' := by
  obtain ⟨rest, reaches, running, past⟩ := before
  by_cases ended : s.worker.Past
  · obtain ⟨exit, rfl, shown⟩ := past ended
    cases h.workerEffect with
    | sent msg next pc | ended exit pc | started sign start pc =>
        simp [pc, WorkerPc.Past, WorkerPc.Over] at ended
    | took msg next pc =>
        rcases ended with pc' | pc' | pc' | pc' <;> simp [pc', WorkerPc.remaining] at pc
    | stopped not => exact (not ended).elim
    | kept remaining same awaits unsent unread =>
        refine ⟨_, ?_, fun not => (not (same.mpr ended)).elim, fun _ =>
          ⟨exit, rfl, shown.step finalizing h ended⟩⟩
        rw [sentMessages_append, receivedFrames_append, unsent, unread, List.append_nil,
          List.append_nil]
        exact reaches
  · obtain rfl := running ended
    cases h.workerEffect with
    | sent msg next pc after sends unread =>
        rw [pc] at reaches
        refine ⟨next, ?_, fun _ => by rw [after]; rfl, fun past => ?_⟩
        · rw [sentMessages_append, receivedFrames_append, sends, unread, List.append_nil]
          exact reaches.send
        · simp [after, WorkerPc.Past, WorkerPc.Over] at past
    | took msg next pc after unsent reads =>
        rw [pc] at reaches
        refine ⟨next (some (toMem msg)), ?_, fun _ => by rw [after]; rfl, fun past => ?_⟩
        · rw [sentMessages_append, receivedFrames_append, unsent, reads, List.append_nil]
          exact reaches.receive msg
        · simp [after, WorkerPc.Past, WorkerPc.Over] at past
    | stopped not stop =>
        exact ((unended ended).not_stopped stop).elim
    | ended exit pc now fatal ready caller action events =>
        subst action events
        refine ⟨.finish exit, ?_, fun not => (not now).elim, fun _ => ⟨exit, rfl, ?_⟩⟩
        · rw [pc] at reaches
          rwa [List.append_nil]
        · rw [List.append_nil]
          exact (unended ended).ended fatal ready caller
    | started sign start pc => exact (begun (.inl pc)).elim
    | kept remaining same awaits unsent unread =>
        refine ⟨_, ?_, fun _ => remaining.symm, fun past => (ended (same.mp past)).elim⟩
        rw [sentMessages_append, receivedFrames_append, unsent, unread, List.append_nil,
          List.append_nil]
        exact reaches

/-- The start of the program, in the session that is given it at once or in the step that takes
the message up. -/
theorem follows_start (fresh : sentMessages es = [] ∧ receivedFrames es = [])
    (worker : s.worker = .running program) {calls : List φ} :
    Follows impl program calls es s := by
  refine ⟨program, ?_, fun _ => by rw [worker]; rfl, fun past => ?_⟩
  · rw [fresh.1, fresh.2]
    exact .start
  · simp [worker, WorkerPc.Past, WorkerPc.Over] at past

theorem Uninterrupted.step (before : Uninterrupted impl taken es s) (replies : ReplyFlags es s)
    (spared : Spared s a) (h : Step impl s a s' emitted) :
    Uninterrupted impl (taken ++ [(s, a)]) (es ++ emitted) s' := by
  have finalizing (fmt : φ) (pc : s.caller = .finalizing fmt) : s.fatal = none ∧ s.worker.Past :=
    ⟨(replies.finalizing fmt pc).1, (replies.finalizing fmt pc).past replies.flags⟩
  have unended (past : ¬ s'.worker.Past) :
      s'.Unended (finalizeCalls (taken ++ [(s, a)])) (es ++ emitted) := by
    have running : ¬ s.worker.Past := fun ended => past (h.past_mono ended)
    exact (before.unended running).step (fun fmt pc => (finalizing fmt pc).2) spared h running past
  by_cases awaited : s.worker.AwaitsMessage
  · obtain ⟨unsent, unread, unsigned⟩ := before.fresh awaited
    cases h.workerEffect with
    | sent msg next pc | ended exit pc => rcases awaited with pc' | pc' <;> simp [pc'] at pc
    | took msg next pc => rcases awaited with pc' | pc' <;> simp [pc', WorkerPc.remaining] at pc
    | stopped running stop =>
        exact ((before.unended running).not_stopped stop).elim
    | started sign start pc after unsent' unread' signs =>
        have begun : ¬ s'.worker.AwaitsMessage := by simp [after, WorkerPc.AwaitsMessage]
        refine ⟨unended, fun awaits => (begun awaits).elim, fun _ =>
          ⟨sign (toMem s.message), ?_, ?_⟩⟩
        · rw [SessionImpl.protocol?, start, signedMessages_append, unsigned, signs]
          rfl
        · refine follows_start ⟨?_, ?_⟩ after
          · rw [sentMessages_append, unsent, unsent', List.append_nil]
          · rw [receivedFrames_append, unread, unread', List.append_nil]
    | kept remaining past awaits unsent' unread' unsigned' =>
        refine ⟨unended, fun _ => ⟨?_, ?_, ?_⟩, fun begun => (begun (awaits.mpr awaited)).elim⟩
        · rw [sentMessages_append, unsent, unsent', List.append_nil]
        · rw [receivedFrames_append, unread, unread', List.append_nil]
        · rw [signedMessages_append, unsigned, unsigned', List.append_nil]
  · obtain ⟨program, given, follows⟩ := before.begun awaited
    refine ⟨unended, fun awaits => (awaited (h.awaits_cases awaits).1).elim, fun _ => ?_⟩
    refine ⟨program, ?_, follows.step before.unended (fun fmt pc => (finalizing fmt pc).1)
      awaited h⟩
    rw [← given, SessionImpl.protocol?, SessionImpl.protocol?, signedMessages_append,
      h.signed_eq_nil awaited, List.append_nil]

theorem run_uninterrupted (run : impl.machine.Run taken es s)
    (meets : Machine.Meets Spared taken) : Uninterrupted impl taken es s := by
  induction run with
  | start =>
      have worker : impl.machine.init.worker = impl.worker.entry := rfl
      refine ⟨fun _ => ⟨rfl, rfl, rfl, rfl, rfl, rfl⟩, fun _ => ⟨rfl, rfl, rfl⟩, fun begun => ?_⟩
      rw [worker] at begun
      cases start : impl.worker with
      | awaitMessage sign => exact (begun (.inl (by rw [start]; rfl))).elim
      | protocol program =>
          refine ⟨program, by rw [SessionImpl.protocol?, start], follows_start ⟨rfl, rfl⟩ ?_⟩
          rw [worker, start]
          rfl
  | next hrun hstep ih =>
      obtain ⟨before, now⟩ := (Machine.meets_append_singleton ..).mp meets
      exact (ih before).step (run_replyFlags hrun) now ((step_iff ..).mp hstep)

end Run

end MaanyMpc
