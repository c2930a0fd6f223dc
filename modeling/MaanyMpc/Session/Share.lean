import MaanyMpc.Session.Handle
import MaanyMpc.Session.Outcome

/-! # The share in a handle

`maany_mpc_dkg_finalize` takes the key out of the session, drops the session, and then asks
`malloc_fn` for the handle that the caller gets the key in. -/

namespace MaanyMpc

open Transition

variable {α φ β : Type}

def HandleEvent.handedOut? : HandleEvent β → Option β
  | .finalizeReturned .ok out => out
  | _ => none

/-- What the caller has got from finalize calls that returned OK. -/
def handedOut (es : List (HandleEvent β)) : List β :=
  es.filterMap HandleEvent.handedOut?

@[simp] theorem handedOut_append (es fs : List (HandleEvent β)) :
    handedOut (es ++ fs) = handedOut es ++ handedOut fs :=
  List.filterMap_append

/-- The caller's next section takes the key out of the session. -/
def State.takesKey (s : State α φ) : Bool :=
  match s.caller with
  | .finalizing _ => s.ready.isSome
  | _ => false

def Handle.takesKey (h : Handle α φ) : HandleAction φ → Bool
  | .session .caller => h.session.any State.takesKey
  | _ => false

/-- A finalize call that takes the key finds memory for its handle. -/
def FinalizeAllocates (h : Handle α φ) (a : HandleAction φ) : Prop :=
  h.takesKey a = true → h.malloc = true

instance (h : Handle α φ) (a : HandleAction φ) : Decidable (FinalizeAllocates h a) :=
  inferInstanceAs (Decidable (_ → _))

/-- A finalize call with memory, if it is not interrupted, returns this value. -/
def Handle.Yields (impl : SessionImpl α φ β) (h : Handle α φ) (value : β) : Prop :=
  ∀ call : FinalizeArgs φ, call.pointers = true → call.malloc = true →
    ∃ h', (handle impl (dkgFinalize β)).trace (fun _ _ => True) h
        [.finalize call, .session .caller, .session .caller] =
      some ([.session (.finalizeReturned value), .finalizeReturned .ok (some value)], h')

/-- No finalize call that has returned an error has dropped the share. -/
structure KeepsShare (impl : SessionImpl α φ β) (make : α → β) (es : List (HandleEvent β))
    (h : Handle α φ) : Prop where
  /-- a handle without a session has handed the share out -/
  gone : h.session = none → ∃ key, handedOut es = [make key]
  /-- otherwise a worker that has succeeded has left a key, and a finalize call returns it -/
  held : ∀ s, h.session = some s → s.Succeeded →
    ∃ key, s.ready = some key ∧ (s.caller = .idle → h.Yields impl (make key))
  /-- a call that fails leaves the handle as it is, unless the session has failed -/
  refused : ∀ a h' emitted status, (handle impl (dkgFinalize β)).step h a = some (h', emitted) →
    .finalizeRefused status ∈ emitted → h' = h ∨ ∃ s err, h.session = some s ∧ s.fatal = some err

/-! ## One step -/

section Step

variable {impl : SessionImpl α φ β} {make : α → β}

/-- A Finalize that finds the key returns it, and only then does it return. -/
theorem Step.takesKey_cases (once : FinalizesOnce impl make) {s s' : State α φ} {a : Action φ}
    {es : List (Event β)} (h : Step impl s a s' es) :
    (∃ key, a = .caller ∧ s.takesKey = true ∧ es = [.finalizeReturned (make key)]) ∨
      (∀ value, .finalizeReturned value ∉ es) ∧ (a = .caller → s.takesKey = false) := by
  cases h with
  | @finalized fmt value ready pc result =>
      cases keyed : s.ready with
      | none =>
          obtain ⟨err, _, refused⟩ := once.used fmt
          rw [keyed, refused] at result
          cases result
      | some key =>
          rw [keyed, once.ready] at result
          obtain ⟨rfl, rfl⟩ : make key = value ∧ none = ready := by simpa using result
          exact .inl ⟨key, rfl, by simp [State.takesKey, pc, keyed], rfl⟩
  | @finalizeRefused fmt err ready pc result =>
      cases keyed : s.ready with
      | none => exact .inr ⟨by simp, fun _ => by simp [State.takesKey, pc, keyed]⟩
      | some key =>
          rw [keyed, once.ready] at result
          cases result
  | snapshotEmpty pc | snapshotMessage pc | pushed pc | stepThrew pc | stepCollected pc
  | stepDone pc | stepContinued pc | stepParked pc | ensureThrew pc | ensurePassed pc
  | ensureParked pc | aborting pc | joined pc =>
      exact .inr ⟨by simp, fun _ => by simp [State.takesKey, pc]⟩
  | _ => exact .inr ⟨by simp, by simp⟩

variable {h h' : Handle α φ} {a : HandleAction φ} {emitted : List (HandleEvent β)}

/-- What a step of a handle does to the share. -/
inductive ShareEffect (make : α → β) (h : Handle α φ) (a : HandleAction φ) (h' : Handle α φ)
    (emitted : List (HandleEvent β)) : Prop where
  | returned (key : α) (held : h.session ≠ none) (memory : h.malloc = true)
      (gone : h'.session = none) (out : handedOut emitted = [make key])
  | dropped (held : h.session ≠ none) (taken : h.takesKey a = true) (full : h.malloc = false)
      (gone : h'.session = none) (out : handedOut emitted = [])
  | kept (idle : h.takesKey a = false) (session : h'.session = none ↔ h.session = none)
      (out : handedOut emitted = [])
      (silent : ∀ value, .finalizeReturned value ∉ sessionEvents emitted)

/-- Where Finalize returns nothing, the call hands nothing out and the session stays. -/
theorem Handle.answered_keeps (wrapper : FinalizeWrapper β) (h : Handle α φ) (s : State α φ)
    {es : List (Event β)} (silent : ∀ value, .finalizeReturned value ∉ es) :
    (h.answered wrapper s es).1.session = some s ∧ handedOut (h.answered wrapper s es).2 = [] := by
  unfold Handle.answered
  split
  · exact ⟨rfl, rfl⟩
  · exact ⟨rfl, rfl⟩
  next value => exact (silent value (.head _)).elim
  · exact ⟨rfl, rfl⟩
  · exact ⟨rfl, rfl⟩
  · refine ⟨rfl, List.filterMap_eq_nil_iff.mpr ?_⟩
    intro e mem
    obtain ⟨e, _, rfl⟩ := List.mem_map.mp mem
    rfl

theorem HandleStep.shareEffect (once : FinalizesOnce impl make)
    (hstep : HandleStep impl (dkgFinalize β) h a h' emitted) :
    ShareEffect make h a h' emitted := by
  cases hstep with
  | refused still e refusal same events =>
      subst same events
      cases a with
      | session action => cases refusal
      | step call | finalize call =>
          cases refusal
          exact .kept rfl .rfl rfl (by simp [sessionEvents, HandleEvent.session?])
  | moved s action s' es move held step state events =>
      have present : h.session ≠ none := by simp [held]
      rcases step.takesKey_cases once with ⟨key, rfl, takes, rfl⟩ | ⟨silent, idle⟩
      · obtain rfl := Handle.caller_of_move move
        have gone : h'.session = none := by
          rw [state]
          rfl
        cases memory : h.malloc with
        | true =>
            refine .returned key present memory gone ?_
            simp only [events, Handle.answered, Handle.keep, dkgFinalize, memory, if_true]
            rfl
        | false =>
            refine .dropped present (by simp [Handle.takesKey, held, takes]) memory gone ?_
            simp only [events, Handle.answered, Handle.keep, dkgFinalize, memory]
            rfl
      · obtain ⟨session, out⟩ := (h.keep a).answered_keeps (dkgFinalize β) s' silent
        rw [← state] at session
        rw [← events] at out
        refine .kept ?_ (by simp [session, held]) out ?_
        · cases a with
          | session action' =>
              cases action' with
              | caller =>
                  have same : Action.caller = action := by
                    simpa [Handle.move, held] using move
                  simp [Handle.takesKey, held, idle same.symm]
              | _ => rfl
          | step call | finalize call => rfl
        · rw [events, Handle.sessionEvents_answered]
          exact silent

/-- A finalize call that fails without having the key leaves the handle alone, or finds the
session failed. -/
theorem HandleStep.finalizeRefused_cases {wrapper : FinalizeWrapper β}
    (hstep : HandleStep impl wrapper h a h' emitted)
    (ready : ∀ s fmt, h.session = some s → s.caller = .finalizing fmt → s.takesKey = true)
    (once : FinalizesOnce impl make) {status : MaanyMpcError}
    (refused : .finalizeRefused status ∈ emitted) :
    h' = h ∨ ∃ s err, h.session = some s ∧ s.fatal = some err := by
  cases hstep with
  | refused still e refusal same events => exact .inl same
  | moved s action s' es move held step state events =>
      right
      rw [events] at refused
      unfold Handle.answered at refused
      split at refused
      case h_4 err => exact ⟨s, err, held, step.answers (.finalizeThrew err) (.head _)⟩
      case h_5 err =>
        obtain ⟨fmt, pc⟩ := step.answers (.finalizeRefused err) (.head _)
        have takes := ready s fmt held pc
        rcases step.takesKey_cases once with ⟨key, _, _, events⟩ | ⟨_, idle⟩
        · cases events
        · have own : action = .caller := by
            cases step
            rfl
          rw [idle own] at takes
          cases takes
      all_goals simp at refused

/-- The three sections of a finalize call. -/
theorem Handle.yields (once : FinalizesOnce impl make) {s : State α φ} {key : α}
    (held : h.session = some s) (idle : s.caller = .idle) (succeeded : s.Succeeded)
    (ready : s.ready = some key) : h.Yields impl (make key) := by
  rintro ⟨_, fmt, _⟩ rfl rfl
  have result : impl.finalize fmt s.ready = (.ok (make key), none) := by rw [ready, once.ready]
  have finalized : (handle impl (dkgFinalize β)).step
      ⟨some { s with caller := .finalizing fmt }, h.outMsg, true⟩ (.session .caller) =
      some (⟨none, h.outMsg, true⟩, [.session (.finalizeReturned (make key)),
        .finalizeReturned .ok (some (make key))]) :=
    handle_caller rfl (.finalized (s := { s with caller := .finalizing fmt }) rfl result)
  exact ⟨_, Handle.enters_finalize held rfl idle succeeded.1 succeeded.2
    (Machine.trace_cons (r := ([], _)) trivial finalized rfl)⟩

end Step

/-! ## Whole runs -/

/-- As long as the session is there, no key has been taken out of it; when it is gone, its key
has been handed out unless a finalize call found no memory. -/
structure ShareLedger (make : α → β) (taken : List (Handle α φ × HandleAction φ))
    (es : List (HandleEvent β)) (h : Handle α φ) : Prop where
  present : h.session ≠ none → Machine.Meets FinalizeAllocates taken ∧ handedOut es = [] ∧
    ∀ value, .finalizeReturned value ∉ sessionEvents es
  gone : h.session = none → Machine.Meets FinalizeAllocates taken →
    ∃ key, handedOut es = [make key]
  lost : h.session = none → ¬ Machine.Meets FinalizeAllocates taken → handedOut es = []

section Run

variable {impl : SessionImpl α φ β} {make : α → β} {h h' : Handle α φ} {a : HandleAction φ}
  {es emitted : List (HandleEvent β)} {taken : List (Handle α φ × HandleAction φ)}

theorem ShareLedger.step (ledger : ShareLedger make taken es h)
    (effect : ShareEffect make h a h' emitted) :
    ShareLedger make (taken ++ [(h, a)]) (es ++ emitted) h' := by
  cases effect with
  | returned key held memory gone out =>
      obtain ⟨meets, none, _⟩ := ledger.present held
      have admissible : FinalizeAllocates h a := fun _ => memory
      refine ⟨fun some => (some gone).elim, ?_, ?_⟩
      · exact fun _ _ => ⟨key, by rw [handedOut_append, none, out, List.nil_append]⟩
      · intro _ fails
        exact (fails ((Machine.meets_append_singleton ..).mpr ⟨meets, admissible⟩)).elim
  | dropped held takes full gone out =>
      obtain ⟨_, none, _⟩ := ledger.present held
      refine ⟨fun some => (some gone).elim, ?_, ?_⟩
      · intro _ meets
        have memory := ((Machine.meets_append_singleton ..).mp meets).2 takes
        rw [full] at memory
        cases memory
      · exact fun _ _ => by rw [handedOut_append, none, out, List.nil_append]
  | kept idle session out silent =>
      have admissible : FinalizeAllocates h a := by
        intro takes
        rw [idle] at takes
        cases takes
      have same : handedOut (es ++ emitted) = handedOut es := by
        rw [handedOut_append, out, List.append_nil]
      refine ⟨?_, ?_, ?_⟩
      · intro some
        obtain ⟨meets, none, unfinished⟩ := ledger.present (mt session.mpr some)
        refine ⟨(Machine.meets_append_singleton ..).mpr ⟨meets, admissible⟩, same.trans none, ?_⟩
        intro value mem
        rw [sessionEvents_append] at mem
        exact (List.mem_append.mp mem).elim (unfinished value) (silent value)
      · intro gone meets
        rw [same]
        exact ledger.gone (session.mp gone) ((Machine.meets_append_singleton ..).mp meets).1
      · intro gone fails
        rw [same]
        exact ledger.lost (session.mp gone)
          (Machine.not_meets_of_append_singleton fails admissible)

theorem run_shareLedger (once : FinalizesOnce impl make)
    (run : (handle impl (dkgFinalize β)).Run taken es h) : ShareLedger make taken es h := by
  refine run.history_invariant (ShareLedger make) ?_ ?_
  · exact ⟨fun _ => ⟨Machine.meets_nil _, rfl, by simp [sessionEvents]⟩,
      (fun gone => nomatch gone), fun gone => nomatch gone⟩
  · intro _ _ _ _ _ _ _ ledger hstep
    exact ledger.step ((handle_step_cases hstep).shareEffect once)

/-- The key of a session that is still there. -/
theorem run_key_ready (once : FinalizesOnce impl make)
    (run : (handle impl (dkgFinalize β)).Run taken es h) {s : State α φ}
    (held : h.session = some s) (succeeded : s.Succeeded) : ∃ key, s.ready = some key := by
  obtain ⟨t, own, same⟩ := run_session run
  obtain rfl := same s held
  have unfinished := ((run_shareLedger once run).present (by simp [held])).2.2
  have ledger := run_keyLedger once own
  have silent : finalizeReplies (sessionEvents es) = [] := by
    by_contra some
    obtain ⟨_, _, key, rest, replies, _⟩ := ledger.used succeeded.1 some
    have first : .ok (make key) ∈ finalizeReplies (sessionEvents es) := by simp [replies]
    obtain ⟨e, mem, reply⟩ := List.mem_filterMap.mp first
    cases e with
    | finalizeReturned value => exact unfinished value mem
    | _ => cases reply
  exact ledger.unused succeeded.1 silent (succeeded.past (run_flagsAgree own))

theorem keepsShare_iff (once : FinalizesOnce impl make)
    (run : (handle impl (dkgFinalize β)).Run taken es h) :
    KeepsShare impl make es h ↔ Machine.Meets FinalizeAllocates taken := by
  have ledger := run_shareLedger once run
  constructor
  · intro keeps
    by_contra fails
    cases session : h.session with
    | none =>
        obtain ⟨key, out⟩ := keeps.gone session
        rw [ledger.lost session fails] at out
        cases out
    | some s => exact fails (ledger.present (by simp [session])).1
  · intro meets
    refine ⟨fun gone => ledger.gone gone meets, ?_, ?_⟩
    · intro s held succeeded
      obtain ⟨key, ready⟩ := run_key_ready once run held succeeded
      exact ⟨key, ready, fun idle => Handle.yields once held idle succeeded ready⟩
    · intro a h' emitted status hstep refused
      refine (handle_step_cases hstep).finalizeRefused_cases ?_ once refused
      intro s fmt held pc
      obtain ⟨t, own, same⟩ := run_session run
      obtain rfl := same s held
      have succeeded := (run_replyFlags own).finalizing fmt pc
      obtain ⟨key, ready⟩ := run_key_ready once run held succeeded
      simp [State.takesKey, pc, ready]

end Run

/-! ## The handles of the bridge -/

/-- A key generation or a refresh keeps its share with every error that a finalize call returns
if and only if each finalize call that takes the key finds memory for its handle. -/
theorem shares_kept_iff {Point Paillier : Type} (cb : Ecdsa2pc Point Paillier) :
    (∀ (d : DkgSessionImpl) taken es h,
      (handle (d.session cb) (dkgFinalize _)).Run taken es h →
      (KeepsShare (d.session cb) (Keypair.ofKey d.opts.kind d.opts.scheme d.opts.curve
          d.opts.keyId d.party_eq (fromCbCurve_toCbCurve d.curve_eq)) es h ↔
        Machine.Meets FinalizeAllocates taken)) ∧
    ∀ (r : RefreshSessionImpl Point Paillier) taken es h,
      (handle (r.session cb) (dkgFinalize _)).Run taken es h →
      (KeepsShare (r.session cb) (Keypair.ofKey r.keypair.kind r.keypair.scheme r.keypair.curve
          r.keypair.keyId r.party_eq r.keypair.curve_eq) es h ↔
        Machine.Meets FinalizeAllocates taken) :=
  ⟨fun d _ _ _ run => keepsShare_iff (d.finalizesOnce cb) run,
    fun r _ _ _ run => keepsShare_iff (r.finalizesOnce cb) run⟩

/-! ## A finalize call without memory -/

/-- The key generation has succeeded, and its key is lost with the handle that there was no
memory for. -/
theorem share_dropped :
    ¬ ∀ taken es h,
      (handle (deviceDkg.session instantDkg) (dkgFinalize _)).Run taken es h →
      KeepsShare (deviceDkg.session instantDkg) (Keypair.ofKey .device .ecdsa2p .secp256k1
        ⟨Vector.replicate 32 0⟩ rfl rfl) es h := by
  intro keeps
  obtain ⟨taken, run, _⟩ := Machine.reach_of_trace
    (show (handle (deviceDkg.session instantDkg) (dkgFinalize _)).trace (fun _ _ => True)
      (handle (deviceDkg.session instantDkg) (dkgFinalize _)).init
      [.session .worker, .session .worker, .session .worker, .finalize ⟨true, (), false⟩,
        .session .caller, .session .caller] =
      some ([.session (.finalizeReturned deviceKeypair), .finalizeReturned .memory none],
        ⟨none, false, false⟩) from rfl)
  obtain ⟨key, out⟩ := (keeps _ _ _ run).gone rfl
  cases out

/-- The first call has a null pointer; the second has memory and returns the keypair. -/
theorem shares_kept_iff_instant : ∃ h, KeepsShare (deviceDkg.session instantDkg)
    (Keypair.ofKey .device .ecdsa2p .secp256k1 ⟨Vector.replicate 32 0⟩ rfl rfl)
    [.finalizeRefused .invalidArg, .session (.finalizeReturned deviceKeypair),
      .finalizeReturned .ok (some deviceKeypair)] h := by
  obtain ⟨taken, h, run, meets⟩ := Machine.run_of_trace
    (show ((handle (deviceDkg.session instantDkg) (dkgFinalize _)).trace FinalizeAllocates
      (handle (deviceDkg.session instantDkg) (dkgFinalize _)).init
      [.session .worker, .session .worker, .session .worker, .finalize ⟨false, (), true⟩,
        .finalize ⟨true, (), true⟩, .session .caller, .session .caller]).map Prod.fst =
      some [.finalizeRefused .invalidArg, .session (.finalizeReturned deviceKeypair),
        .finalizeReturned .ok (some deviceKeypair)] from rfl)
  exact ⟨h, ((shares_kept_iff instantDkg).1 deviceDkg _ _ _ run).mpr meets⟩

end MaanyMpc
