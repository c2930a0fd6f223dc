import MaanyMpc.Session.Failure
import MaanyMpc.Session.Sessions

/-! # Outcomes

A session either fails or finishes. Both are final: the worker stores a failure only as
its last act and never after `worker_done_` is set, and every call looks at `fatal_`
first. -/

namespace MaanyMpc

variable {α φ β : Type}

/-- The worker's failure, as a Step or a Finalize throws it. -/
def Event.threw? : Event β → Option Error
  | .stepThrew err | .finalizeThrew err => some err
  | _ => none

/-- How a Finalize ends. -/
def Event.finalizeReply? : Event β → Option (Except Error β)
  | .finalizeReturned value => some (.ok value)
  | .finalizeRefused err | .finalizeThrew err => some (.error err)
  | _ => none

/-- A Step or a Finalize ends. -/
def Event.IsReply : Event β → Prop
  | .stepReturned _ | .stepThrew _ | .finalizeReturned _ | .finalizeThrew _
  | .finalizeRefused _ => True
  | _ => False

def finalizeReplies (es : List (Event β)) : List (Except Error β) :=
  es.filterMap Event.finalizeReply?

@[simp] theorem finalizeReplies_append (es fs : List (Event β)) :
    finalizeReplies (es ++ fs) = finalizeReplies es ++ finalizeReplies fs :=
  List.filterMap_append

/-- After a Done no call reports a failure of the worker. -/
def DoneIsFinal (es : List (Event β)) : Prop :=
  ∀ before d after, es = before ++ d :: after → d.ReturnsDone →
    ∀ e ∈ after, e.threw? = none

/-- After a call has thrown the worker's failure, every call throws the same error code, and
no Finalize ever returns a value. -/
def FailureIsFinal (es : List (Event β)) : Prop :=
  ∀ before d after err, es = before ++ d :: after → d.threw? = some err →
    (∀ e ∈ after, e.IsReply → ∃ err', e.threw? = some err' ∧ err'.code = err.code) ∧
      ∀ value, .finalizeReturned value ∉ es

/-- Once a Step has returned Done, the first Finalize returns a keypair of this kind, and
every further one throws `ProtocolState`. -/
def OneKeypair (P : β → Prop) (es : List (Event β)) : Prop :=
  (∃ d ∈ es, d.ReturnsDone) → finalizeReplies es = [] ∨
    ∃ kp rest, finalizeReplies es = .ok kp :: rest ∧ P kp ∧
      ∀ reply ∈ rest, ∃ err, reply = .error err ∧ err.code = .protocolState

/-! ## One step -/

section Step

variable {impl : SessionImpl α φ β} {s s' : State α φ} {a : Action φ} {es : List (Event β)}

theorem Step.fatal_mono (h : Step impl s a s' es) {err : Error} (fatal : s.fatal = some err) :
    s'.fatal = some err := by
  rcases h.fatal_cases with same | ⟨other, _, rfl⟩
  · rw [same, fatal]
  · simp [State.fail, fatal]

/-- The worker has finished without a failure. -/
def State.Succeeded (s : State α φ) : Prop := s.fatal = none ∧ s.workerDone = true

theorem Step.succeeded_mono (h : Step impl s a s' es) (flags : FlagsAgree s)
    (succeeded : s.Succeeded) : s'.Succeeded := by
  obtain ⟨fatal, done⟩ := succeeded
  have ended := flags.done_iff.mp done
  refine ⟨?_, ?_⟩
  · rcases h.fatal_cases with same | ⟨err, pc, _⟩
    · rw [same, fatal]
    · simp [pc, WorkerPc.Done] at ended
  · cases h <;> simp_all [State.announce, State.fail, State.pushInbound, State.abort,
      State.destroy]

/-- What a call has found when it ends this way. -/
def State.Answers (s : State α φ) : Event β → Prop
  | .stepReturned ⟨.done, _⟩ => s.Succeeded
  | .stepReturned ⟨.continue, _⟩ => s.fatal = none
  | .stepThrew err | .finalizeThrew err => s.fatal = some err
  | .finalizeReturned _ | .finalizeRefused _ => ∃ fmt, s.caller = .finalizing fmt
  | _ => True

theorem Step.answers (h : Step impl s a s' es) : ∀ e ∈ es, s.Answers e := by
  cases h with
  | @stepCollected waitSnapshot data pc fatal outbound =>
      cases done : s.workerDone <;> simp [State.Answers, State.Succeeded, fatal, done]
  | _ => simp_all [State.Answers, State.Succeeded]

theorem State.Succeeded.threw_eq_none {e : Event β} (succeeded : s.Succeeded)
    (answers : s.Answers e) : e.threw? = none := by
  cases e with
  | stepThrew err | finalizeThrew err =>
      have failed : s.fatal = some err := answers
      rw [succeeded.1] at failed
      cases failed
  | _ => rfl

/-- A failed session answers every call with its failure. -/
theorem State.Answers.threw_eq {e : Event β} {err : Error} (answers : s.Answers e)
    (failed : s.fatal = some err) (finalizing : ∀ fmt, s.caller = .finalizing fmt → s.Succeeded)
    (reply : e.IsReply) : e.threw? = some err := by
  have alive : s.fatal ≠ none := by simp [failed]
  cases e with
  | stepThrew err' | finalizeThrew err' =>
      have same : s.fatal = some err' := answers
      exact same.symm.trans failed
  | stepReturned out =>
      obtain ⟨state, outbound⟩ := out
      cases state with
      | done => exact (alive answers.1).elim
      | «continue» => exact (alive answers).elim
  | finalizeReturned value | finalizeRefused err' =>
      obtain ⟨fmt, pc⟩ := answers
      exact (alive (finalizing fmt pc).1).elim
  | _ => cases reply

theorem Step.finalizing_cases (h : Step impl s a s' es) {fmt : φ}
    (pc : s'.caller = .finalizing fmt) : s.caller = .finalizing fmt ∨ s.Succeeded := by
  cases h <;> simp_all [State.announce, State.fail, State.pushInbound, State.abort, State.destroy,
    State.Succeeded]

end Step

/-! ## Whole runs -/

/-- A Finalize is past its wait, or has returned a value, only if the worker succeeded. -/
structure ReplyFlags (es : List (Event β)) (s : State α φ) : Prop where
  flags : FlagsAgree s
  finalizing : ∀ fmt, s.caller = .finalizing fmt → s.Succeeded
  returned : ∀ value, .finalizeReturned value ∈ es → s.Succeeded

section Run

variable {impl : SessionImpl α φ β} {taken : List (State α φ × Action φ)}
  {es emitted : List (Event β)} {s s' : State α φ} {a : Action φ}

theorem run_replyFlags (run : impl.machine.Run taken es s) : ReplyFlags es s := by
  refine run.history_invariant (fun _ es s => ReplyFlags es s) ?_ ?_
  · exact ⟨run_flagsAgree .start, (fun _ pc => nomatch pc), by simp⟩
  · intro _ _ _ _ _ _ hrun replies hstep
    have h := (step_iff ..).mp hstep
    refine ⟨replies.flags.step h, ?_, ?_⟩
    · intro fmt pc
      apply h.succeeded_mono replies.flags
      rcases h.finalizing_cases pc with before | succeeded
      · exact replies.finalizing fmt before
      · exact succeeded
    · intro value mem
      apply h.succeeded_mono replies.flags
      rcases List.mem_append.mp mem with before | now
      · exact replies.returned value before
      · obtain ⟨fmt, pc⟩ := h.answers _ now
        exact replies.finalizing fmt pc

theorem run_after_done_reply (run : impl.machine.Run taken es s) {before after : List (Event β)}
    {d : Event β} (split : es = before ++ d :: after) (hd : d.ReturnsDone) :
    s.Succeeded ∧ ∀ e ∈ after, e.threw? = none := by
  refine run.once (fun _ s => FlagsAgree s) Event.ReturnsDone (fun _ s => s.Succeeded)
    (fun _ e => e.threw? = none) run_flagsAgree ?_ ?_ split hd
  · intro _ s _ s' before d after flags hstep hd
    have h := (step_iff ..).mp hstep
    obtain ⟨outbound, rfl⟩ := hd
    have succeeded : s.Succeeded := h.answers (.stepReturned ⟨.done, outbound⟩) (by simp)
    refine ⟨h.succeeded_mono flags succeeded, ?_⟩
    simp [h.eq_singleton.2]
  · intro _ s _ s' emitted d flags succeeded hstep
    have h := (step_iff ..).mp hstep
    exact ⟨h.succeeded_mono flags succeeded, fun e he =>
      succeeded.threw_eq_none (h.answers e he)⟩

theorem run_doneIsFinal (run : impl.machine.Run taken es s) : DoneIsFinal es :=
  fun _ _ _ split hd => (run_after_done_reply run split hd).2

theorem run_failureIsFinal (run : impl.machine.Run taken es s) : FailureIsFinal es := by
  intro before d after err split hd
  have final := run.once ReplyFlags (fun d => d.threw? = some err)
    (fun _ s => s.fatal = some err) (fun _ e => e.IsReply → e.threw? = some err)
    run_replyFlags ?_ ?_ split hd
  · obtain ⟨failed, later⟩ := final
    refine ⟨fun e he reply => ⟨err, later e he reply, rfl⟩, ?_⟩
    intro value returned
    have succeeded := (run_replyFlags run).returned value returned
    rw [succeeded.1] at failed
    cases failed
  · intro _ s _ s' before d after _ hstep hd
    have h := (step_iff ..).mp hstep
    have answers := h.answers d (by simp)
    have failed : s.fatal = some err := by
      cases d with
      | stepThrew err' | finalizeThrew err' =>
          have same : s.fatal = some err' := answers
          rw [same]
          exact hd
      | _ => cases hd
    refine ⟨h.fatal_mono failed, ?_⟩
    simp [h.eq_singleton.2]
  · intro _ s _ s' emitted d replies failed hstep
    have h := (step_iff ..).mp hstep
    exact ⟨h.fatal_mono failed, fun e he reply =>
      (h.answers e he).threw_eq failed replies.finalizing reply⟩

end Run

/-! ## Key sessions -/

/-- A session whose worker publishes a key or fails, and whose Finalize turns the key into a
keypair once. -/
structure FinalizesOnce (impl : SessionImpl α φ β) (make : α → β) : Prop where
  worker : ∃ program, impl.worker = .protocol program ∧ program.Ends (· ≠ .quiet)
  ready : ∀ fmt key, impl.finalize fmt (some key) = (.ok (make key), none)
  used : ∀ fmt, ∃ err, err.code = .protocolState ∧
    impl.finalize fmt none = (.error err, none)

/-- Every way the worker can still end satisfies `P`. -/
def WorkerPc.Ends (P : WorkerExit α → Prop) : WorkerPc α → Prop
  | .running program => program.Ends P
  | .sent next => next.Ends P
  | .parkedReceive next | .wokenReceive next => ∀ answer, (next answer).Ends P
  | _ => True

/-- The worker function has stored its result, or has returned. -/
def WorkerPc.Past (pc : WorkerPc α) : Prop := pc = .leaving ∨ pc.Over

section Step

variable {impl : SessionImpl α φ β} {s s' : State α φ} {a : Action φ} {es : List (Event β)}

theorem WorkerPc.ends_notified {P : WorkerExit α → Prop} {pc : WorkerPc α} (ends : pc.Ends P) :
    pc.notified.Ends P := by
  cases pc with
  | parkedReceive next => exact ends
  | _ => exact ends

theorem WorkerPc.ends_messageNotified {P : WorkerExit α → Prop} {pc : WorkerPc α}
    (ends : pc.Ends P) : pc.messageNotified.Ends P := by
  cases pc with
  | parkedMessage => trivial
  | _ => exact ends

theorem Step.ends_mono {P : WorkerExit α → Prop} (h : Step impl s a s' es)
    (begun : ¬ s.worker.AwaitsMessage) (ends : s.worker.Ends P) :
    s'.worker.Ends P ∧ ¬ s'.worker.AwaitsMessage := by
  cases h with
  | messageTaken pc | messageAborted pc | messageParked pc => exact (begun (.inl pc)).elim
  | wokeMessage pc => exact (begun (.inr pc)).elim
  | enteredTaken pc | enteredFailed pc | wokenTaken pc | wokenFailed pc =>
      rw [pc] at ends
      exact ⟨ends _, by simp [WorkerPc.AwaitsMessage]⟩
  | enteredParked pc | sendStored pc | sendNotified pc | wokenParked pc | wokeReceive pc =>
      rw [pc] at ends
      exact ⟨ends, by simp [WorkerPc.AwaitsMessage]⟩
  | lostWaiting | lostRunning | published | failed | quiet | left | doneSet | exited =>
      exact ⟨trivial, by simp [WorkerPc.AwaitsMessage, State.fail]⟩
  | pushed | aborting =>
      exact ⟨WorkerPc.ends_notified ends, by simpa [WorkerPc.AwaitsMessage, State.pushInbound,
        State.abort] using begun⟩
  | messageAccepted =>
      exact ⟨WorkerPc.ends_messageNotified ends, by simpa [WorkerPc.AwaitsMessage] using begun⟩
  | _ => exact ⟨ends, begun⟩

/-- What a step does to the key that waits for Finalize. -/
inductive ReadyEffect (impl : SessionImpl α φ β) (s s' : State α φ) (es : List (Event β)) :
    Prop where
  | published (key : α) (pc : s.worker = .running (.finish (.publish key)))
      (ready : s'.ready = some key) (silent : finalizeReplies es = [])
  | quiet (pc : s.worker = .running (.finish .quiet))
  | failed (fatal : s'.fatal ≠ none)
  | replied (fmt : φ) (pc : s.caller = .finalizing fmt)
      (ready : s'.ready = (impl.finalize fmt s.ready).2)
      (replies : finalizeReplies es = [(impl.finalize fmt s.ready).1])
  | kept (ready : s'.ready = s.ready) (silent : finalizeReplies es = [])
      (past : s'.worker.Past → s.worker.Past ∨ s.worker.AwaitsMessage)

theorem Step.readyEffect (h : Step impl s a s' es) : ReadyEffect impl s s' es := by
  cases h with
  | published pc => exact .published _ pc rfl rfl
  | quiet pc => exact .quiet pc
  | failed pc => exact .failed (by cases hf : s.fatal <;> simp [State.fail, hf])
  | ensureThrew pc fatal => exact .failed (by simp [fatal])
  | finalized pc result => exact .replied _ pc (by rw [result]) (by rw [result]; rfl)
  | finalizeRefused pc result => exact .replied _ pc (by rw [result]) (by rw [result]; rfl)
  | left pc => exact .kept rfl rfl fun _ => .inl (.inl pc)
  | doneSet pc => exact .kept rfl rfl fun _ => .inl (.inr (.inl pc))
  | exited pc => exact .kept rfl rfl fun _ => .inl (.inr (.inr (.inl pc)))
  | messageAborted pc => exact .kept rfl rfl fun _ => .inr (.inl pc)
  | pushed | aborting | messageAccepted =>
      refine .kept rfl rfl fun past => .inl ?_
      simpa [WorkerPc.Past, WorkerPc.Over, State.pushInbound, State.abort] using past
  | lostWaiting | lostRunning | messageTaken | messageParked | sendStored | sendNotified
  | enteredTaken | enteredParked | enteredFailed | wokenTaken | wokenParked | wokenFailed
  | wokeReceive | wokeMessage =>
      refine .kept rfl rfl fun past => ?_
      simp [WorkerPc.Past, WorkerPc.Over] at past
  | _ => exact .kept rfl rfl .inl

end Step

/-- The keys of a session that has not failed: one is ready from its publication to the
first Finalize, none afterwards. -/
structure KeyLedger (make : α → β) (es : List (Event β)) (s : State α φ) : Prop where
  ends : s.worker.Ends (· ≠ .quiet)
  begun : ¬ s.worker.AwaitsMessage
  unused : s.fatal = none → finalizeReplies es = [] → s.worker.Past → ∃ key, s.ready = some key
  used : s.fatal = none → finalizeReplies es ≠ [] → s.Succeeded ∧ s.ready = none ∧
    ∃ key rest, finalizeReplies es = .ok (make key) :: rest ∧
      ∀ reply ∈ rest, ∃ err, reply = .error err ∧ err.code = .protocolState

section Run

variable {impl : SessionImpl α φ β} {make : α → β} {taken : List (State α φ × Action φ)}
  {es emitted : List (Event β)} {s s' : State α φ} {a : Action φ}

theorem State.Succeeded.past (succeeded : s.Succeeded) (flags : FlagsAgree s) :
    s.worker.Past :=
  .inr (flags.done_iff.mp succeeded.2).ended

theorem KeyLedger.step (once : FinalizesOnce impl make) (ledger : KeyLedger make es s)
    (replies : ReplyFlags es s) (h : Step impl s a s' emitted) :
    KeyLedger make (es ++ emitted) s' := by
  obtain ⟨ends, begun⟩ := h.ends_mono ledger.begun ledger.ends
  have before : s'.fatal = none → s.fatal = none := by
    intro fatal
    rcases Option.eq_none_or_eq_some s.fatal with alive | ⟨err, failed⟩
    · exact alive
    · rw [h.fatal_mono failed] at fatal
      cases fatal
  cases h.readyEffect with
  | published key pc ready silent =>
      have running : ¬ s.worker.Past := by simp [pc, WorkerPc.Past, WorkerPc.Over]
      refine ⟨ends, begun, fun _ _ _ => ⟨key, ready⟩, ?_⟩
      intro fatal some
      rw [finalizeReplies_append, silent, List.append_nil] at some
      exact (running ((ledger.used (before fatal) some).1.past replies.flags)).elim
  | quiet pc =>
      have loud := ledger.ends
      rw [pc] at loud
      exact (loud rfl).elim
  | failed fatal =>
      exact ⟨ends, begun, fun alive => (fatal alive).elim, fun alive => (fatal alive).elim⟩
  | kept ready silent past =>
      have same : finalizeReplies (es ++ emitted) = finalizeReplies es := by
        rw [finalizeReplies_append, silent, List.append_nil]
      refine ⟨ends, begun, ?_, ?_⟩
      · rw [same, ready]
        intro fatal none ended
        rcases past ended with ended | awaits
        · exact ledger.unused (before fatal) none ended
        · exact (ledger.begun awaits).elim
      · rw [same, ready]
        intro fatal some
        obtain ⟨succeeded, rest⟩ := ledger.used (before fatal) some
        exact ⟨h.succeeded_mono replies.flags succeeded, rest⟩
  | replied fmt pc ready reply =>
      have succeeded := replies.finalizing fmt pc
      refine ⟨ends, begun, ?_, ?_⟩
      · intro _ none
        rw [finalizeReplies_append, reply] at none
        simp at none
      · intro fatal _
        refine ⟨h.succeeded_mono replies.flags succeeded, ?_⟩
        rw [finalizeReplies_append, reply, ready]
        by_cases first : finalizeReplies es = []
        · obtain ⟨key, keyed⟩ :=
            ledger.unused succeeded.1 first (succeeded.past replies.flags)
          rw [first, keyed, once.ready]
          exact ⟨rfl, key, [], rfl, by simp⟩
        · obtain ⟨_, empty, key, rest, same, refused⟩ := ledger.used succeeded.1 first
          obtain ⟨err, code, result⟩ := once.used fmt
          rw [same, empty, result]
          refine ⟨rfl, key, rest ++ [.error err], rfl, ?_⟩
          intro reply mem
          rcases List.mem_append.mp mem with mem | mem
          · exact refused reply mem
          · exact ⟨err, by simpa using mem, code⟩

theorem run_keyLedger (once : FinalizesOnce impl make) (run : impl.machine.Run taken es s) :
    KeyLedger make es s := by
  refine run.history_invariant (fun _ es s => KeyLedger make es s) ?_ ?_
  · obtain ⟨program, given, ends⟩ := once.worker
    have worker : impl.machine.init.worker = .running program := by
      change impl.worker.entry = _
      rw [given]
      rfl
    refine ⟨?_, ?_, ?_, fun _ some => (some rfl).elim⟩
    · rw [worker]
      exact ends
    · simp [worker, WorkerPc.AwaitsMessage]
    · simp [worker, WorkerPc.Past, WorkerPc.Over]
  · intro _ _ _ _ _ _ hrun ledger hstep
    exact ledger.step once (run_replyFlags hrun) ((step_iff ..).mp hstep)

theorem run_oneKeypair (once : FinalizesOnce impl make) {P : β → Prop}
    (made : ∀ key, P (make key)) (run : impl.machine.Run taken es s) : OneKeypair P es := by
  rintro ⟨d, mem, hd⟩
  obtain ⟨before, after, split⟩ := List.append_of_mem mem
  have succeeded := (run_after_done_reply run split hd).1
  by_cases none : finalizeReplies es = []
  · exact .inl none
  · obtain ⟨_, _, key, rest, replies, refused⟩ :=
      (run_keyLedger once run).used succeeded.1 none
    exact .inr ⟨make key, rest, replies, made key, refused⟩

end Run

/-! ## The sessions of the bridge -/

section Sessions

variable {Point Paillier : Type} (cb : Ecdsa2pc Point Paillier)

theorem keyExit_ne_quiet {κ : Type} (errors : CbErrors) (location : String)
    (outcome : Outcome κ) : errors.keyExit location outcome ≠ .quiet := by
  cases outcome with
  | returned rv key =>
      by_cases success : rv = errors.success
      · simp [CbErrors.keyExit, success]
      · simp [CbErrors.keyExit, success]
  | threw exception => simp [CbErrors.keyExit]

theorem ends_keyExit {κ : Type} (errors : CbErrors) (location : String)
    (program : Program (Outcome κ)) :
    (program.map (errors.keyExit location)).Ends (· ≠ .quiet) := by
  rw [Program.ends_map]
  induction program with
  | finish outcome => exact keyExit_ne_quiet errors location outcome
  | send msg next ih => exact ih
  | receive next ih => exact ih

theorem DkgSessionImpl.finalizesOnce (d : DkgSessionImpl) :
    FinalizesOnce (d.session cb) (Keypair.ofKey d.opts.kind d.opts.scheme d.opts.curve
      d.opts.keyId d.party_eq (fromCbCurve_toCbCurve d.curve_eq)) where
  worker := ⟨_, rfl, ends_keyExit ..⟩
  ready _ _ := rfl
  used _ := ⟨_, rfl, rfl⟩

theorem RefreshSessionImpl.finalizesOnce (r : RefreshSessionImpl Point Paillier) :
    FinalizesOnce (r.session cb) (Keypair.ofKey r.keypair.kind r.keypair.scheme r.keypair.curve
      r.keypair.keyId r.party_eq r.keypair.curve_eq) where
  worker := ⟨_, rfl, ends_keyExit ..⟩
  ready _ key := by
    simp only [RefreshSessionImpl.session]
    split
    next err unsupported =>
      rw [r.keypair.curve_eq] at unsupported
      cases unsupported
    next curve supported =>
      obtain rfl : r.keypair.curve = curve := by
        rw [r.keypair.curve_eq] at supported
        exact Except.ok.inj supported
      rfl
  used _ := ⟨_, rfl, rfl⟩

/-- The outcome of a session is final: with a Done the keypair is there for the first
Finalize, with a failure there is never one. -/
theorem session_outcomes :
    (∀ (d : DkgSessionImpl) taken es s, (d.session cb).machine.Run taken es s →
      DoneIsFinal es ∧ FailureIsFinal es ∧ OneKeypair (fun kp =>
        kp.kind = d.opts.kind ∧ kp.scheme = d.opts.scheme ∧ kp.curve = d.opts.curve ∧
          kp.keyId = d.opts.keyId ∧ toParty d.opts.kind = .ok kp.key.role) es) ∧
    (∀ (r : RefreshSessionImpl Point Paillier) taken es s,
      (r.session cb).machine.Run taken es s →
      DoneIsFinal es ∧ FailureIsFinal es ∧ OneKeypair (fun kp =>
        kp.kind = r.keypair.kind ∧ kp.scheme = r.keypair.scheme ∧
          kp.curve = r.keypair.curve ∧ kp.keyId = r.keypair.keyId ∧
          toParty r.keypair.kind = .ok kp.key.role) es) ∧
    ∀ (g : SignSessionImpl Point Paillier) taken es s,
      (g.session cb).machine.Run taken es s → DoneIsFinal es ∧ FailureIsFinal es := by
  refine ⟨?_, ?_, ?_⟩
  · intro d taken es s run
    refine ⟨run_doneIsFinal run, run_failureIsFinal run, ?_⟩
    refine run_oneKeypair (d.finalizesOnce cb) ?_ run
    intro key
    exact ⟨rfl, rfl, rfl, rfl, (Keypair.ofKey ..).role_eq⟩
  · intro r taken es s run
    refine ⟨run_doneIsFinal run, run_failureIsFinal run, ?_⟩
    refine run_oneKeypair (r.finalizesOnce cb) ?_ run
    intro key
    exact ⟨rfl, rfl, rfl, rfl, (Keypair.ofKey ..).role_eq⟩
  · intro g taken es s run
    exact ⟨run_doneIsFinal run, run_failureIsFinal run⟩

end Sessions

/-! ## A key generation that succeeds -/

/-- A protocol that fills in the key at once. -/
def instantDkg : Ecdsa2pc Unit Unit where
  errors := ⟨0, 1, 2, 3, 4, fun _ => 0, 5, 6⟩
  dkg role curve := .finish (.returned 0 ⟨⟨role, curve, (), 7, 0, ()⟩, rfl, rfl⟩)
  refresh _ role curve _ := .finish (.returned 0 ⟨⟨role, curve, (), 8, 0, ()⟩, rfl, rfl⟩)
  sign _ _ _ msg := .finish (.returned 0 msg)
  fromDer _ _ := (0, 1, 1)
  orderSize _ := 32
  toBin size value := Vector.replicate size (UInt8.ofNat value.toNat)

def deviceDkg : DkgSessionImpl where
  opts := ⟨.secp256k1, .ecdsa2p, .device, ⟨Vector.replicate 32 0⟩, []⟩
  curve := .secp256k1
  party := .p1
  curve_eq := rfl
  party_eq := rfl
  scheme_eq := rfl

def deviceKeypair : Keypair Unit Unit :=
  .ofKey .device .ecdsa2p .secp256k1 ⟨Vector.replicate 32 0⟩
    deviceDkg.party_eq (rfl : fromCbCurve .secp256k1 = .ok .secp256k1)
    ⟨⟨.p1, .secp256k1, (), 7, 0, ()⟩, rfl, rfl⟩

/-- Step, then Finalize twice. -/
theorem session_outcomes_instant :
    OneKeypair (fun kp : Keypair Unit Unit => kp.kind = .device ∧ kp.scheme = .ecdsa2p ∧
        kp.curve = .secp256k1 ∧ kp.keyId = ⟨Vector.replicate 32 0⟩ ∧
        toParty .device = .ok kp.key.role)
      [.stepReturned ⟨.done, none⟩, .finalizeReturned deviceKeypair,
        .finalizeRefused ⟨.protocolState, "DKG not complete"⟩] := by
  obtain ⟨taken, s, run, _⟩ := Transition.Machine.run_of_trace
    (show ((deviceDkg.session instantDkg).machine.trace (fun _ _ => True)
      (deviceDkg.session instantDkg).machine.init
      [.worker, .worker, .worker, .step none, .caller, .caller, .finalize (), .caller, .caller,
        .finalize (), .caller, .caller]).map Prod.fst =
      some [.stepReturned ⟨.done, none⟩, .finalizeReturned deviceKeypair,
        .finalizeRefused ⟨.protocolState, "DKG not complete"⟩] from rfl)
  exact ((session_outcomes instantDkg).1 deviceDkg taken _ s run).2.2

end MaanyMpc
