import MaanyMpc.Backup.Secp256k1
import MaanyMpc.Library.Der
import MaanyMpc.Session.Copies
import MaanyMpc.Session.Destroy

/-! # Formats of a signature

The protocol gives the device a signature in DER, and the worker puts the two numbers in it next
to each other in 32 bytes each. `Finalize` returns the one or the other, as often as it is asked:
the value that the worker has published stays where it is. -/

namespace MaanyMpc

open Transition

variable {α φ β : Type}

/-! ## A published value that stays -/

/-- `Finalize` reads what has been published and leaves it. -/
def SessionImpl.KeepsReady (impl : SessionImpl α φ β) : Prop :=
  ∀ fmt ready, (impl.finalize fmt ready).2 = ready

/-- The worker function has done its work without a failure and has left `ready`. -/
structure State.Settled (ready : Option α) (s : State α φ) : Prop where
  past : s.worker.Past
  live : s.fatal = none
  same : s.ready = ready

section Step

variable {impl : SessionImpl α φ β} {s s' : State α φ} {a : Action φ} {es : List (Event β)}

/-- What ends a finalize call. -/
theorem Step.replied (h : Step impl s a s' es) {reply : Except Error β}
    (mem : reply ∈ finalizeReplies es) : (∃ err, s.fatal = some err) ∨
      ∃ fmt, s.caller = .finalizing fmt ∧ (impl.finalize fmt s.ready).1 = reply := by
  cases h with
  | ensureThrew pc fatal => exact .inl ⟨_, fatal⟩
  | finalized pc result =>
      rw [List.mem_singleton.mp mem]
      exact .inr ⟨_, pc, by rw [result]⟩
  | finalizeRefused pc result =>
      rw [List.mem_singleton.mp mem]
      exact .inr ⟨_, pc, by rw [result]⟩
  | _ => cases mem

theorem Step.past_mono (h : Step impl s a s' es) (past : s.worker.Past) : s'.worker.Past := by
  cases h <;> simp_all [State.pushInbound, State.abort, State.destroy, WorkerPc.Past,
    WorkerPc.Over]

theorem Step.lost_mono (h : Step impl s a s' es) (lost : s.worker = .lost) :
    s'.worker = .lost := by
  cases h <;> simp_all [State.pushInbound, State.abort, State.destroy]

theorem State.Settled.step {ready : Option α} (settled : s.Settled ready)
    (keeps : impl.KeepsReady) (h : Step impl s a s' es) : s'.Settled ready := by
  have past := settled.past
  have live : s'.fatal = s.fatal := by
    rcases h.fatal_cases with same | ⟨err, pc, _⟩
    · exact same
    · simp [pc, WorkerPc.Past, WorkerPc.Over] at past
  have same : s'.ready = s.ready := by
    cases h.readyEffect with
    | published key pc => simp [pc, WorkerPc.Past, WorkerPc.Over] at past
    | quiet pc => simp [pc, WorkerPc.Past, WorkerPc.Over] at past
    | failed fatal => exact (fatal (live.trans settled.live)).elim
    | replied fmt pc ready => rw [ready, keeps]
    | kept ready => exact ready
  exact ⟨h.past_mono past, live.trans settled.live, same.trans settled.same⟩

end Step

section Run

variable {impl : SessionImpl α φ β} {taken : List (State α φ × Action φ)} {es : List (Event β)}
  {s t : State α φ}

/-- What the worker publishes is there at the end, unless the session has been freed before. -/
theorem run_published (keeps : impl.KeepsReady) (run : impl.machine.Run taken es s)
    (mem : (t, .worker) ∈ taken) {value : α}
    (pc : t.worker = .running (.finish (.publish value))) :
    s.Settled (some value) ∨ s.worker = .lost := by
  refine run.lasting (fun s => s.Settled (some value) ∨ s.worker = .lost) ?_ mem ?_
  · rintro _ _ _ _ (settled | lost) hstep
    · exact .inl (settled.step keeps ((step_iff ..).mp hstep))
    · exact .inr (((step_iff ..).mp hstep).lost_mono lost)
  · intro _ _ s' _ before hstep
    have running : ¬ t.worker.Over := by simp [pc, WorkerPc.Over]
    have live : t.fatal = none := by
      by_contra fatal
      exact running ((run_flagsAgree before).fatal_over fatal)
    cases freed : t.freed with
    | true =>
        have gone : impl.machine.step t .worker = some ({ t with worker := .lost }, []) :=
          (step_iff ..).mpr (.lostRunning pc freed rfl)
        obtain ⟨rfl, _⟩ := Prod.mk.inj (Option.some.inj (hstep.symm.trans gone))
        exact .inr rfl
    | false =>
        have published : impl.machine.step t .worker =
            some ({ t with ready := some value, worker := .leaving }, []) :=
          (step_iff ..).mpr (.published pc freed)
        obtain ⟨rfl, _⟩ := Prod.mk.inj (Option.some.inj (hstep.symm.trans published))
        exact .inl ⟨.inl rfl, live, rfl⟩

/-- A finalize call finds what is there at the end. -/
theorem run_finalizing (keeps : impl.KeepsReady) (run : impl.machine.Run taken es s)
    {a : Action φ} (mem : (t, a) ∈ taken) {fmt : φ} (pc : t.caller = .finalizing fmt) :
    s.Settled t.ready := by
  refine run.lasting (State.Settled t.ready)
    (fun settled hstep => settled.step keeps ((step_iff ..).mp hstep)) mem ?_
  intro _ _ s' _ before hstep
  have replies := run_replyFlags before
  have succeeded := replies.finalizing fmt pc
  have settled : t.Settled t.ready := ⟨succeeded.past replies.flags, succeeded.1, rfl⟩
  exact settled.step keeps ((step_iff ..).mp hstep)

theorem run_failed (run : impl.machine.Run taken es s) {a : Action φ} (mem : (t, a) ∈ taken)
    {err : Error} (fatal : t.fatal = some err) : s.fatal = some err := by
  refine run.lasting (fun s => s.fatal = some err)
    (fun failed hstep => ((step_iff ..).mp hstep).fatal_mono failed) mem ?_
  intro _ _ s' _ _ hstep
  exact ((step_iff ..).mp hstep).fatal_mono fatal

/-- A session whose worker is lost has answered no Finalize. -/
theorem run_lost (keeps : impl.KeepsReady) (run : impl.machine.Run taken es s)
    (lost : s.worker = .lost) :
    (∀ t a, (t, a) ∈ taken → ∀ fmt, t.caller ≠ .finalizing fmt) ∧ finalizeReplies es = [] := by
  have unanswered (t : State α φ) (a : Action φ) (mem : (t, a) ∈ taken) (fmt : φ) :
      t.caller ≠ .finalizing fmt := by
    intro pc
    have past := (run_finalizing keeps run mem pc).past
    simp [lost, WorkerPc.Past, WorkerPc.Over] at past
  refine ⟨unanswered, List.eq_nil_iff_forall_not_mem.mpr fun reply mem => ?_⟩
  obtain ⟨e, event, answer⟩ := List.mem_filterMap.mp mem
  obtain ⟨⟨t, a⟩, passed, t', emitted, hstep, emits⟩ := run.step_of_event event
  have now : reply ∈ finalizeReplies emitted := List.mem_filterMap.mpr ⟨e, emits, answer⟩
  rcases ((step_iff ..).mp hstep).replied now with ⟨err, fatal⟩ | ⟨fmt, pc, _⟩
  · have ended := (run_flagsAgree run).fatal_over (by simp [run_failed run passed fatal])
    simp [lost, WorkerPc.Over] at ended
  · exact unanswered t a passed fmt pc

/-- So every answer of Finalize is made of that. -/
theorem run_replied (keeps : impl.KeepsReady) (run : impl.machine.Run taken es s)
    {ready : Option α} (settled : s.Settled ready) {reply : Except Error β}
    (mem : reply ∈ finalizeReplies es) : ∃ fmt, reply = (impl.finalize fmt ready).1 := by
  obtain ⟨e, event, answer⟩ := List.mem_filterMap.mp mem
  obtain ⟨⟨t, a⟩, passed, t', emitted, hstep, emits⟩ := run.step_of_event event
  have now : reply ∈ finalizeReplies emitted := List.mem_filterMap.mpr ⟨e, emits, answer⟩
  rcases ((step_iff ..).mp hstep).replied now with ⟨err, fatal⟩ | ⟨fmt, pc, result⟩
  · have failed := run_failed run passed fatal
    rw [settled.live] at failed
    cases failed
  · have same := (run_finalizing keeps run passed pc).same.symm.trans settled.same
    exact ⟨fmt, by rw [← result, same]⟩

end Run

/-! ## Calls of a handle -/

/-- A finalize call with this format has returned, where `malloc_fn` would give memory or not. -/
def Replied (impl : SessionImpl α φ β) (wrapper : FinalizeWrapper β)
    (taken : List (Handle α φ × HandleAction φ)) (fmt : φ) (malloc : Bool)
    (reply : MaanyMpcError × Option β) : Prop :=
  ∃ h s h' emitted, (h, .session .caller) ∈ taken ∧ h.session = some s ∧
    s.caller = .finalizing fmt ∧ h.malloc = malloc ∧
    (handle impl wrapper).step h (.session .caller) = some (h', emitted) ∧
    .finalizeReturned reply.1 reply.2 ∈ emitted

/-- The sections of a finalize call for which the session has no reason to wait. -/
def FinalizeArgs.sections (call : FinalizeArgs φ) : List (HandleAction φ) :=
  if call.pointers then [.finalize call, .session .caller, .session .caller]
  else [.finalize call]

/-- What a finalize call returns that gets `value` from the session. -/
def FinalizeArgs.reply (wrapper : FinalizeWrapper β) (call : FinalizeArgs φ) (value : β) :
    MaanyMpcError × Option β :=
  if call.pointers then wrapper.wrap call.malloc value else (.invalidArg, none)

def HandleEvent.finalizeReply? : HandleEvent β → Option (MaanyMpcError × Option β)
  | .finalizeReturned status out => some (status, out)
  | .finalizeRefused status => some (status, none)
  | _ => none

section Handle

variable {impl : SessionImpl α φ β} {wrapper : FinalizeWrapper β} {h : Handle α φ}
  {es : List (HandleEvent β)} {taken : List (Handle α φ × HandleAction φ)}

theorem mem_sessionMoves {a : HandleAction φ} {s : State α φ} {action : Action φ}
    (mem : (h, a) ∈ taken) (move : h.move a = some (s, action)) :
    (s, action) ∈ sessionMoves taken :=
  List.mem_filterMap.mpr ⟨(h, a), mem, move⟩

theorem Handle.move_caller {s : State α φ} (held : h.session = some s) :
    h.move (.session .caller) = some (s, .caller) := by
  simp [Handle.move, held]

/-- The session has found a value, and the wrapper has made the reply of it. -/
theorem Replied.value {fmt : φ} {malloc : Bool} {reply : MaanyMpcError × Option β}
    (replied : Replied impl wrapper taken fmt malloc reply) :
    ∃ s value, (s, .caller) ∈ sessionMoves taken ∧ s.caller = .finalizing fmt ∧
      (impl.finalize fmt s.ready).1 = .ok value ∧ reply = wrapper.wrap malloc value := by
  obtain ⟨h, s, h', emitted, mem, held, pc, rfl, hstep, returned⟩ := replied
  have move := Handle.move_caller held
  cases result : impl.finalize fmt s.ready with
  | mk answer ready =>
      cases answer with
      | ok value =>
          have went : (handle impl wrapper).step h (.session .caller) =
              some (h.answered wrapper _ [.finalizeReturned value]) :=
            handle_caller held (.finalized pc result)
          obtain ⟨_, rfl⟩ := Prod.mk.inj (Option.some.inj (hstep.symm.trans went))
          refine ⟨s, value, mem_sessionMoves mem move, pc, by rw [result], ?_⟩
          simp only [List.mem_cons, List.not_mem_nil, or_false, reduceCtorEq,
            false_or, HandleEvent.finalizeReturned.injEq] at returned
          exact Prod.ext returned.1 returned.2
      | error err =>
          have went : (handle impl wrapper).step h (.session .caller) =
              some (h.answered wrapper _ [.finalizeRefused err]) :=
            handle_caller held (.finalizeRefused pc result)
          obtain ⟨_, rfl⟩ := Prod.mk.inj (Option.some.inj (hstep.symm.trans went))
          simp at returned

section Calls

variable {s : State α φ} {make : φ → β}

/-- The session answers one call and is as it was. -/
theorem Handle.finalizes_once (stays : wrapper.resets = false)
    (makes : ∀ fmt, impl.finalize fmt s.ready = (.ok (make fmt), s.ready))
    (held : h.session = some s) (idle : s.caller = .idle) (succeeded : s.Succeeded)
    (call : FinalizeArgs φ) :
    ∃ emitted h', h'.session = some s ∧
      emitted.filterMap HandleEvent.finalizeReply? = [call.reply wrapper (make call.fmt)] ∧
      ∀ rest r, (handle impl wrapper).trace (fun _ _ => True) h' rest = some r →
        (handle impl wrapper).trace (fun _ _ => True) h (call.sections ++ rest) =
          some (emitted ++ r.1, r.2) := by
  obtain ⟨pointers, fmt, malloc⟩ := call
  cases pointers with
  | false =>
      have refused : (handle impl wrapper).step h (.finalize ⟨false, fmt, malloc⟩) =
          some (h, [.finalizeRefused .invalidArg]) := by
        simp [handle, Handle.move, Handle.refusal]
      exact ⟨_, h, held, rfl, fun rest r after => Machine.trace_cons trivial refused after⟩
  | true =>
      have finalized : (handle impl wrapper).step
          ⟨some { s with caller := .finalizing fmt }, h.outMsg, malloc⟩ (.session .caller) =
          some (⟨some s, h.outMsg, malloc⟩, [.session (.finalizeReturned (make fmt)),
            .finalizeReturned (wrapper.wrap malloc (make fmt)).1
              (wrapper.wrap malloc (make fmt)).2]) := by
        have same : { s with caller := .idle } = s := by rw [← idle]
        refine (handle_caller rfl (.finalized (s := { s with caller := .finalizing fmt }) rfl
          (makes fmt))).trans ?_
        simp only [Handle.answered, stays, same]
        rfl
      refine ⟨[.session (.finalizeReturned (make fmt)), .finalizeReturned
        (wrapper.wrap malloc (make fmt)).1 (wrapper.wrap malloc (make fmt)).2],
        ⟨some s, h.outMsg, malloc⟩, rfl, rfl, ?_⟩
      intro rest r after
      exact Handle.enters_finalize held rfl idle succeeded.1 succeeded.2
        (Machine.trace_cons trivial finalized after)

/-- One call after the other: each gets the value in its format. -/
theorem Handle.finalizes (stays : wrapper.resets = false)
    (makes : ∀ fmt, impl.finalize fmt s.ready = (.ok (make fmt), s.ready))
    (held : h.session = some s) (idle : s.caller = .idle) (succeeded : s.Succeeded)
    (calls : List (FinalizeArgs φ)) :
    ∃ events h', (handle impl wrapper).trace (fun _ _ => True) h
        (calls.flatMap FinalizeArgs.sections) = some (events, h') ∧ h'.session = some s ∧
      events.filterMap HandleEvent.finalizeReply? =
        calls.map fun call => call.reply wrapper (make call.fmt) := by
  induction calls generalizing h with
  | nil => exact ⟨[], h, rfl, held, rfl⟩
  | cons call calls ih =>
      obtain ⟨emitted, h', held', reply, continues⟩ :=
        h.finalizes_once stays makes held idle succeeded call
      obtain ⟨events, h'', trace, held'', replies⟩ := ih held'
      refine ⟨emitted ++ events, h'', continues _ _ trace, held'', ?_⟩
      rw [List.filterMap_append, reply, replies]
      rfl

end Calls

end Handle

/-! ## The two formats -/

/-- The signature of two numbers. -/
def Signature.ofPair (r s : ℕ) : Signature where
  der := Der.pair r s
  raw := BigEndian.encode 32 r ++ BigEndian.encode 32 s

/-- The numbers that an ECDSA signature can consist of. -/
def IsScalar (n : ℕ) : Prop := 1 ≤ n ∧ n < secp256k1Order

/-- Both formats say the same. -/
structure Signature.Agrees (sg : Signature) (r s : ℕ) : Prop where
  der : Der.pair? (sg.inFormat .der) = some (r, s)
  length : (sg.inFormat .rawRs).length = 64
  r : BigEndian.decode ((sg.inFormat .rawRs).take 32) = r
  s : BigEndian.decode ((sg.inFormat .rawRs).drop 32) = s

theorem IsScalar.fits {n : ℕ} (h : IsScalar n) : n < 256 ^ 32 :=
  h.2.trans (by norm_num [secp256k1Order])

theorem IsScalar.pair?_pair {r s : ℕ} (hr : IsScalar r) (hs : IsScalar s) :
    Der.pair? (Der.pair r s) = some (r, s) := by
  have rWidth := Der.width_le hr.fits
  have sWidth := Der.width_le hs.fits
  exact Der.pair?_pair (by omega)

theorem Signature.ofPair_agrees {r s : ℕ} (hr : IsScalar r) (hs : IsScalar s) :
    (Signature.ofPair r s).Agrees r s where
  der := hr.pair?_pair hs
  length := by simp [Signature.inFormat, Signature.ofPair]
  r := by
    have first : (Signature.ofPair r s).raw.take 32 = BigEndian.encode 32 r :=
      List.take_left' (by simp)
    simp [Signature.inFormat, first, BigEndian.decode_encode hr.fits]
  s := by
    have second : (Signature.ofPair r s).raw.drop 32 = BigEndian.encode 32 s :=
      List.drop_left' (by simp)
    simp [Signature.inFormat, second, BigEndian.decode_encode hs.fits]

theorem Signature.ofPair_ne_nil (r s : ℕ) (fmt : SigFormat) :
    (Signature.ofPair r s).inFormat fmt ≠ [] := by
  unfold Signature.inFormat
  split
  · exact Der.pair_ne_nil r s
  · exact List.ne_nil_of_length_pos (by simp [Signature.ofPair])

/-! ## The sign session -/

section Sign

variable {Point Paillier : Type}

/-- `from_der` parses the two integers, and `to_bin` writes one with zeros on the left. -/
structure Ecdsa2pc.Encodes (cb : Ecdsa2pc Point Paillier) : Prop where
  fromDer : ∀ r s : ℕ, IsScalar r → IsScalar s →
    cb.fromDer .secp256k1 (Der.pair r s) = (0, (r : ℤ), (s : ℤ))
  orderSize : cb.orderSize .secp256k1 = 32
  toBin : ∀ size n : ℕ, n < 256 ^ size → (cb.toBin size n).toList = BigEndian.encode size n

/-- In this run `sign` has returned with this signature, and the worker has gone on. -/
def SignSessionImpl.Obtains (cb : Ecdsa2pc Point Paillier) (g : SignSessionImpl Point Paillier)
    (taken : List (Handle Signature SigFormat × HandleAction SigFormat)) (der : Bytes) : Prop :=
  ∃ t, (t, .worker) ∈ sessionMoves taken ∧ t.worker = .running
    (.finish (cb.signExit g.keypair.key.curve (.returned cb.errors.success der)))

variable {cb : Ecdsa2pc Point Paillier} {g : SignSessionImpl Point Paillier}

theorem Ecdsa2pc.Encodes.signExit (encodes : cb.Encodes) {r s : ℕ} (hr : IsScalar r)
    (hs : IsScalar s) : cb.signExit .secp256k1 (.returned cb.errors.success (Der.pair r s)) =
      .publish (.ofPair r s) := by
  have size := encodes.orderSize
  have rBin := encodes.toBin (cb.orderSize .secp256k1) r (by rw [size]; exact hr.fits)
  have sBin := encodes.toBin (cb.orderSize .secp256k1) s (by rw [size]; exact hs.fits)
  simp only [Ecdsa2pc.signExit, encodes.fromDer r s hr hs, Der.pair_ne_nil, rBin, sBin, size,
    ne_eq, not_true_eq_false, if_false]
  rfl

theorem SignSessionImpl.curve_eq (g : SignSessionImpl Point Paillier) :
    g.keypair.key.curve = .secp256k1 := by
  have supported := g.keypair.curve_eq
  unfold fromCbCurve at supported
  split_ifs at supported with same
  exact same

theorem SignSessionImpl.party_eq_p1 (device : g.keypair.kind = .device) : g.party = .p1 := by
  have party := g.party_eq
  rw [device] at party
  exact (Except.ok.inj party).symm

theorem SignSessionImpl.keepsReady (cb : Ecdsa2pc Point Paillier)
    (g : SignSessionImpl Point Paillier) : (g.session cb).KeepsReady := by
  intro fmt ready
  simp only [SignSessionImpl.session]
  split
  · rfl
  · split
    · rfl
    · split <;> rfl

theorem SignSessionImpl.finalize_some (device : g.keypair.kind = .device) {sg : Signature}
    {fmt : SigFormat} (some_byte : sg.inFormat fmt ≠ []) :
    (g.session cb).finalize fmt (some sg) = (.ok (sg.inFormat fmt), some sg) := by
  have p1 := SignSessionImpl.party_eq_p1 device
  obtain ⟨byte, rest, bytes⟩ := List.exists_cons_of_ne_nil some_byte
  rw [bytes]
  unfold Signature.inFormat at bytes
  simp only [SignSessionImpl.session, p1, bytes, ne_eq, not_true_eq_false, if_false]

theorem SignSessionImpl.Obtains.settled (encodes : cb.Encodes) {r s : ℕ} (hr : IsScalar r)
    (hs : IsScalar s) {taken : List (Handle Signature SigFormat × HandleAction SigFormat)}
    {es : List (Event Bytes)} {t : State Signature SigFormat}
    (obtained : g.Obtains cb taken (Der.pair r s))
    (run : (g.session cb).machine.Run (sessionMoves taken) es t) :
    t.Settled (some (.ofPair r s)) ∨ t.worker = .lost := by
  obtain ⟨before, mem, pc⟩ := obtained
  rw [g.curve_eq, encodes.signExit hr hs] at pc
  exact run_published (g.keepsReady cb) run mem pc

/-- Once the worker of the device has a signature, its two formats agree, and every finalize
call returns the one it asks for. -/
theorem signatures_agree (cb : Ecdsa2pc Point Paillier) (encodes : cb.Encodes)
    (g : SignSessionImpl Point Paillier) (device : g.keypair.kind = .device) {r s : ℕ}
    (hr : IsScalar r) (hs : IsScalar s)
    {taken : List (Handle Signature SigFormat × HandleAction SigFormat)}
    {es : List (HandleEvent Bytes)} {h : Handle Signature SigFormat}
    (run : (handle (g.session cb) signFinalize).Run taken es h)
    (obtained : g.Obtains cb taken (Der.pair r s)) :
    (Signature.ofPair r s).Agrees r s ∧
    (∀ fmt malloc reply, Replied (g.session cb) signFinalize taken fmt malloc reply →
      reply = signFinalize.wrap malloc ((Signature.ofPair r s).inFormat fmt)) ∧
    (∀ err, .error err ∉ finalizeReplies (sessionEvents es)) ∧
    (∀ t, h.session = some t → t.caller = .idle → t.workerDone = true →
      ∀ calls : List (FinalizeArgs SigFormat), ∃ events h',
        (handle (g.session cb) signFinalize).trace (fun _ _ => True) h
          (calls.flatMap FinalizeArgs.sections) = some (events, h') ∧ h'.session = some t ∧
        events.filterMap HandleEvent.finalizeReply? = calls.map fun call =>
          call.reply signFinalize ((Signature.ofPair r s).inFormat call.fmt)) ∧
    ∀ others der raw, der ≠ raw → ∀ moves replies m,
      (signMemory others der raw (.ofPair r s)).Run moves replies m →
        ∀ reply ∈ replies, reply.Returns (.ofPair r s) := by
  obtain ⟨t, own, same⟩ := run_session run
  have found := obtained.settled encodes hr hs own
  have makes : ∀ fmt, (g.session cb).finalize fmt (some (.ofPair r s)) =
      (.ok ((Signature.ofPair r s).inFormat fmt), some (.ofPair r s)) :=
    fun fmt => SignSessionImpl.finalize_some device (Signature.ofPair_ne_nil r s fmt)
  refine ⟨Signature.ofPair_agrees hr hs, ?_, ?_, ?_, ?_⟩
  · intro fmt malloc reply replied
    obtain ⟨before, value, mem, pc, result, rfl⟩ := replied.value
    rcases found with settled | lost
    · have ready := (run_finalizing (g.keepsReady cb) own mem pc).same
      rw [← ready, settled.same, makes fmt] at result
      rw [Except.ok.inj result]
    · exact ((run_lost (g.keepsReady cb) own lost).1 _ _ mem fmt pc).elim
  · intro err mem
    rcases found with settled | lost
    · obtain ⟨fmt, answer⟩ := run_replied (g.keepsReady cb) own settled mem
      rw [makes fmt] at answer
      cases answer
    · simp [(run_lost (g.keepsReady cb) own lost).2] at mem
  · intro u held idle done calls
    obtain rfl := same u held
    have settled := found.resolve_right fun lost => by
      simpa [State.freed, idle] using (run_flagsAgree own).lost_freed lost
    refine Handle.finalizes rfl ?_ held idle ⟨settled.live, done⟩ calls
    intro fmt
    rw [settled.same, makes fmt]
  · intro others der raw apart moves replies m memory
    exact run_returns apart (Signature.ofPair_ne_nil r s) memory

end Sign

/-! ## A signature with leading zeros -/

/-- A protocol that answers every message with the same small numbers. -/
def smallSign : Ecdsa2pc Unit Unit :=
  { instantDkg with
    sign _ _ _ _ := .finish (.returned 0 (Der.pair 1 128))
    fromDer _ der :=
      match Der.pair? der with
      | some (r, s) => (0, r, s)
      | none => (3, 0, 0)
    toBin size value := BigEndian.vector size value.toNat }

theorem smallSign_encodes : smallSign.Encodes where
  fromDer r s hr hs := by simp [smallSign, hr.pair?_pair hs]
  orderSize := rfl
  toBin size n _ := by simp [smallSign]

/-- Both formats, a call without memory, and the first format again. -/
theorem signatures_agree_small : ∃ h events h',
    (handle (deviceSign.session smallSign) signFinalize).trace (fun _ _ => True) h
      ([⟨true, .der, true⟩, ⟨true, .rawRs, true⟩, ⟨true, .der, false⟩, ⟨true, .der, true⟩].flatMap
        FinalizeArgs.sections) = some (events, h') ∧
    events.filterMap HandleEvent.finalizeReply? =
      [(.ok, some [0x30, 7, 2, 1, 1, 2, 2, 0, 128]),
        (.ok, some (List.replicate 31 0 ++ 1 :: (List.replicate 31 0 ++ [128]))),
        (.memory, none), (.ok, some [0x30, 7, 2, 1, 1, 2, 2, 0, 128])] := by
  have one : IsScalar 1 := ⟨le_rfl, by norm_num [secp256k1Order]⟩
  have other : IsScalar 128 := ⟨by decide, by norm_num [secp256k1Order]⟩
  have started := Machine.Run.next (M := handle (deviceSign.session smallSign) signFinalize)
    (.next .start (a := .session (.setMessage (some [1]))) rfl) (a := .session .worker) rfl
  have signed := started.next (a := .session .worker) rfl
  have done := (signed.next (a := .session .worker) rfl).next (a := .session .worker) rfl
  obtain ⟨_, _, _, calls, _⟩ := signatures_agree smallSign smallSign_encodes deviceSign rfl one
    other done ⟨_, mem_sessionMoves (List.mem_append_left _ (List.mem_append_left _
      List.mem_concat_self)) rfl, rfl⟩
  obtain ⟨events, h', trace, _, replies⟩ := calls _ rfl rfl rfl _
  exact ⟨_, events, h', trace, replies.trans (by decide)⟩

end MaanyMpc
