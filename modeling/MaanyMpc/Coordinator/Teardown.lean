import MaanyMpc.Coordinator.Server
import MaanyMpc.Library.Lease

/-! # Teardown of sessions

The listeners that call `cleanupSession` know the id of a session and not the session. What
they find under the id is theirs as long as no other socket has taken the session over or has
made a new one. -/

namespace MaanyMpc

variable {σ V : Type}

/-! ## Contexts as leases -/

def shutdowns (events : List ServerEvent) : List CtxId :=
  events.filterMap fun
    | .contextShutdown ctx => some ctx
    | _ => none

@[simp] theorem shutdowns_append (xs ys : List ServerEvent) :
    shutdowns (xs ++ ys) = shutdowns xs ++ shutdowns ys :=
  List.filterMap_append

@[simp] theorem mem_shutdowns {ctx : CtxId} {events : List ServerEvent} :
    ctx ∈ shutdowns events ↔ .contextShutdown ctx ∈ events := by
  induction events with
  | nil => simp [shutdowns]
  | cons event events ih =>
      simp only [shutdowns] at ih
      cases event <;> simp [shutdowns, ih]

namespace Server

/-- The context of each session. -/
def leases (s : Server σ) : Lease.Table SessionKey where
  holds key := (s.sessions key).map SessionState.ctx
  next := s.contexts

theorem leases_holds {s : Server σ} {key : SessionKey} {state : SessionState}
    (h : s.sessions key = some state) : s.leases.holds key = some state.ctx := by
  simp [leases, h]

theorem leases_setSession (s : Server σ) (key : SessionKey) (state : Option SessionState) :
    (s.setSession key state).leases =
      ⟨Function.update s.leases.holds key (state.map SessionState.ctx), s.contexts⟩ := by
  simp only [leases, setSession, Lease.Table.mk.injEq, and_true]
  funext k
  by_cases same : k = key
  · subst same
    rw [Function.update_self, Function.update_self]
  · rw [Function.update_of_ne same, Function.update_of_ne same]

/-- To change a state is not to change its context. -/
theorem leases_setSession_of_ctx {s : Server σ} {key : SessionKey} {old state : SessionState}
    (known : s.sessions key = some old) (same : state.ctx = old.ctx) :
    (s.setSession key (some state)).leases = s.leases := by
  have held : s.leases.holds key = some state.ctx := by rw [same]; exact leases_holds known
  rw [leases_setSession, Option.map_some, ← held, Function.update_eq_self]
  rfl

theorem cleanupSession_of_none {s : Server σ} {key : SessionKey} (h : s.sessions key = none) :
    s.cleanupSession key = (s, []) := by
  simp [cleanupSession, h]

theorem cleanupSession_of_some {s : Server σ} {key : SessionKey} {state : SessionState}
    (h : s.sessions key = some state) :
    (s.cleanupSession key).1.leases =
        ⟨Function.update s.leases.holds key none, s.contexts⟩ ∧
      shutdowns (s.cleanupSession key).2 = [state.ctx] := by
  cases socket : state.socket.filter fun socket => s.isOpen socket with
  | none =>
      simp only [cleanupSession, h, socket]
      exact ⟨leases_setSession .., rfl⟩
  | some socket' =>
      simp only [cleanupSession, h, socket]
      exact ⟨leases_setSession .., rfl⟩

theorem attachDevice_leases (s : Server σ) (key : SessionKey) (state : SessionState)
    (socket : SocketId) (hello : Json) :
    (s.attachDevice key state socket hello).1.leases =
        ⟨Function.update s.leases.holds key (some state.ctx), s.contexts⟩ ∧
      shutdowns (s.attachDevice key state socket hello).2 = [] := by
  cases intent : mapIntent hello with
  | error err =>
      simp only [attachDevice, intent]
      exact ⟨leases_setSession .., rfl⟩
  | ok intent' =>
      simp only [attachDevice, intent]
      refine ⟨(leases_setSession ..).trans ?_, rfl⟩
      have first := leases_setSession s key (some (state.setDevice socket))
      have holds := congrArg Lease.Table.holds first
      simp only at holds
      refine congrArg (Lease.Table.mk · s.contexts) ?_
      refine (congrArg (Function.update · key _) holds).trans ?_
      rw [Function.update_idem]
      rfl

theorem registerParticipant_leases (s : Server σ) (key : SessionKey) (socket : SocketId)
    (hello : Json) :
    Lease.Change s.leases (s.registerParticipant key socket hello).1.leases [] ∧
      shutdowns (s.registerParticipant key socket hello).2 = [] := by
  cases known : s.sessions key with
  | some state =>
      obtain ⟨leases, quiet⟩ := attachDevice_leases s key state socket hello
      simp only [registerParticipant, known]
      refine ⟨?_, quiet⟩
      rw [leases, ← leases_holds known, Function.update_eq_self]
      exact .keep s.contexts le_rfl
  | none =>
      cases intent : mapIntent hello with
      | error err =>
          simp only [registerParticipant, known, intent]
          exact ⟨.keep (s.contexts + 1) (Nat.le_succ _), rfl⟩
      | ok intent' =>
          obtain ⟨leases, quiet⟩ := attachDevice_leases { s with contexts := s.contexts + 1 } key
            ⟨.new, s.contexts, none, intent', hello.get? "token", none⟩ socket hello
          simp only [registerParticipant, known, intent]
          refine ⟨?_, quiet⟩
          rw [leases]
          exact .grant key (by simp [Server.leases, known])

theorem onMessage_leases (opts : ServerOptions σ V) (s : Server σ) (socket : SocketId)
    (raw : Bytes) :
    Lease.Change s.leases (s.onMessage opts socket raw).1.leases [] ∧
      shutdowns (s.onMessage opts socket raw).2 = [] := by
  have same : Lease.Change s.leases s.leases [] := .keep s.contexts le_rfl
  unfold onMessage
  split
  · exact ⟨same, rfl⟩
  · split_ifs
    · exact ⟨same, rfl⟩
    · split
      · exact ⟨same, rfl⟩
      · exact registerParticipant_leases
          (({ s with frames := s.frames + 1 } : Server σ).updateConnection socket fun c =>
            { c with listening := false }) _ socket _
    · exact ⟨same, rfl⟩

theorem sessionOf_eq_some {s : Server σ} {key : SessionKey} {ctx : CtxId} {state : SessionState}
    (h : s.sessionOf key ctx = some state) : s.sessions key = some state :=
  (Option.filter_eq_some_iff.mp h).1

theorem onTransportMessage_leases (opts : ServerOptions σ V) (s : Server σ)
    (socket : SocketId) (key : SessionKey) (ctx : CtxId) (raw : Bytes) :
    (s.onTransportMessage opts socket key ctx raw).1.leases = s.leases ∧
      shutdowns (s.onTransportMessage opts socket key ctx raw).2 = [] := by
  unfold onTransportMessage
  simp only
  split
  · split
    · exact ⟨rfl, rfl⟩
    next state found => exact ⟨leases_setSession_of_ctx (sessionOf_eq_some found) rfl, rfl⟩
  · split <;> exact ⟨rfl, rfl⟩

theorem complete_leases (opts : ServerOptions σ V) (s : Server σ) (task : BackupTask) (now : ℤ)
    (iv : Option (Vector UInt8 12)) :
    (s.complete opts task now iv).1.leases = s.leases ∧
      shutdowns (s.complete opts task now iv).2 = [] := by
  unfold complete
  simp only
  split
  · exact ⟨rfl, rfl⟩
  · split <;> exact ⟨rfl, rfl⟩

theorem cleanupSession_leases {s s₁ : Server σ} (same : s₁.leases = s.leases)
    (key : SessionKey) :
    (∃ state, s.sessions key = some state ∧
      (s₁.cleanupSession key).1.leases =
        ⟨Function.update s.leases.holds key none, s.contexts⟩ ∧
      shutdowns (s₁.cleanupSession key).2 = [state.ctx]) ∨
    (s.sessions key = none ∧ (s₁.cleanupSession key).1.leases = s.leases ∧
      shutdowns (s₁.cleanupSession key).2 = []) := by
  have ctx : (s₁.sessions key).map SessionState.ctx = (s.sessions key).map SessionState.ctx :=
    congrFun (congrArg Lease.Table.holds same) key
  have contexts : s₁.contexts = s.contexts := congrArg Lease.Table.next same
  cases known : s.sessions key with
  | none =>
      have known₁ : s₁.sessions key = none := by simpa [known] using ctx
      rw [cleanupSession_of_none known₁]
      exact .inr ⟨rfl, same, rfl⟩
  | some state =>
      rw [known] at ctx
      obtain ⟨state₁, known₁, sameCtx⟩ := Option.map_eq_some_iff.mp ctx
      obtain ⟨leases, shut⟩ := cleanupSession_of_some known₁
      rw [same, contexts] at leases
      rw [sameCtx] at shut
      exact .inl ⟨state, rfl, leases, shut⟩

/-- Before `cleanupSession` a closing socket only leaves its transport. -/
theorem onClose_eq (s : Server σ) (socket : SocketId) (c : Connection) :
    ∃ s₁ : Server σ, s₁.leases = s.leases ∧ s.onClose socket c =
      match c.registered with
      | none => (s₁, [])
      | some key => s₁.cleanupSession key := by
  refine ⟨_, ?_, rfl⟩
  split
  · rfl
  · split
    · rfl
    next state found => exact leases_setSession_of_ctx (sessionOf_eq_some found) rfl

/-- The id under which a listener looks for a session to clean up. -/
def cleans (s : Server σ) : ServerAction → Option SessionKey
  | .close socket | .callClose socket => (s.connections socket).bind Connection.registered
  | _ => none

/-- What a step does to the contexts: it shuts down the one of the session that it cleans up,
or none. -/
theorem step_leases {opts : ServerOptions σ V} {s s' : Server σ} {a : ServerAction}
    {events : List ServerEvent} (h : Server.step opts s a = some (s', events)) :
    (∃ key state, s.cleans a = some key ∧ s.sessions key = some state ∧
      s'.leases = ⟨Function.update s.leases.holds key none, s.contexts⟩ ∧
      shutdowns events = [state.ctx]) ∨
    ((∀ key, s.cleans a = some key → s.sessions key = none) ∧
      Lease.Change s.leases s'.leases [] ∧ shutdowns events = []) := by
  have same : Lease.Change s.leases s.leases [] := .keep s.contexts le_rfl
  have noClean : ∀ key, (none : Option SessionKey) = some key → s.sessions key = none := by simp
  cases a with
  | connection socket =>
      obtain ⟨rfl, rfl⟩ := Prod.mk.inj (step_connection h)
      exact .inr ⟨noClean, same, rfl⟩
  | message socket raw =>
      refine .inr ⟨noClean, ?_⟩
      rcases step_message h with hello | idle | ⟨_, key, ctx, _, _, frame⟩
      · have changed := onMessage_leases opts s socket raw
        rw [← hello] at changed
        exact changed
      · obtain ⟨rfl, rfl⟩ := Prod.mk.inj idle
        exact ⟨same, rfl⟩
      · obtain ⟨leases, quiet⟩ := onTransportMessage_leases opts s socket key ctx raw
        rw [← frame] at leases quiet
        exact ⟨leases ▸ same, quiet⟩
  | close socket =>
      obtain ⟨c, known, closed⟩ := step_close h
      obtain ⟨s₁, leases, onClose⟩ := onClose_eq s socket c
      rw [onClose] at closed
      cases registered : c.registered with
      | none =>
          rw [registered] at closed
          obtain ⟨rfl, rfl⟩ := Prod.mk.inj closed
          exact .inr ⟨by simp [cleans, known, registered], leases ▸ same, rfl⟩
      | some key =>
          rw [registered] at closed
          change (s', events) = s₁.cleanupSession key at closed
          have cleans : s.cleans (.close socket) = some key := by
            simp [Server.cleans, known, registered]
          have cleaned := cleanupSession_leases leases key
          rw [← closed] at cleaned
          rcases cleaned with ⟨state, known, leases, shut⟩ | ⟨unknown, leases, shut⟩
          · exact .inl ⟨key, state, cleans, known, leases, shut⟩
          · exact .inr ⟨by simp [cleans, unknown], leases ▸ same, shut⟩
  | callClose socket =>
      obtain ⟨key, registered, closed⟩ := step_callClose h
      have cleaned := cleanupSession_leases (rfl : s.leases = s.leases) key
      rw [← closed] at cleaned
      rcases cleaned with ⟨state, known, leases, shut⟩ | ⟨unknown, leases, shut⟩
      · exact .inl ⟨key, state, registered, known, leases, shut⟩
      · exact .inr ⟨by simp [cleans, registered, unknown], leases ▸ same, shut⟩
  | complete task now iv =>
      obtain ⟨t, found, completed⟩ := step_complete h
      obtain ⟨leases, quiet⟩ :=
        complete_leases opts { s with tasks := s.tasks.eraseIdx task } t now iv
      rw [← completed] at leases quiet
      exact .inr ⟨noClean, leases ▸ same, quiet⟩

end Server

/-! ## Whose session is torn down -/

/-- The action is the close of the device socket of the session, or a call of the `close` of
its last `session:ready`. -/
def SessionState.ClosedBy (state : SessionState) : ServerAction → Prop
  | .close socket => state.socket = some socket
  | .callClose socket => state.registration = some socket
  | _ => False

/-- The step takes a session away, or shuts a context down, only for the session whose own
action it is. -/
def OwnTeardown (s : Server σ) (a : ServerAction) (s' : Server σ) (events : List ServerEvent) :
    Prop :=
  (∀ key state, s.sessions key = some state → state.ClosedBy a ∨
      ∃ state', s'.sessions key = some state' ∧ state'.ctx = state.ctx) ∧
    ∀ ctx, .contextShutdown ctx ∈ events →
      ∃ key state, s.sessions key = some state ∧ state.ctx = ctx ∧ state.ClosedBy a

/-- The session that is found under the id of the closing registration, if there is one, has
that socket, or that registration, as its last. -/
def ClosesCurrent (s : Server σ) (a : ServerAction) : Prop :=
  ∀ key state, s.cleans a = some key → s.sessions key = some state → state.ClosedBy a

theorem ownTeardown_iff {opts : ServerOptions σ V} {s s' : Server σ} {a : ServerAction}
    {events : List ServerEvent} (h : Server.step opts s a = some (s', events)) :
    OwnTeardown s a s' events ↔ ClosesCurrent s a := by
  rcases Server.step_leases h with
    ⟨key, state, cleans, known, leases, shut⟩ | ⟨noClean, change, quiet⟩
  · have mem : ∀ ctx, .contextShutdown ctx ∈ events ↔ ctx = state.ctx := by
      intro ctx
      rw [← mem_shutdowns, shut, List.mem_singleton]
    constructor
    · rintro ⟨sessions, _⟩ key' state' cleans' known'
      obtain rfl : key = key' := by simpa [cleans] using cleans'
      rcases sessions key state' known' with closed | ⟨state'', known'', _⟩
      · exact closed
      · have held := Server.leases_holds known''
        simp [leases] at held
    · intro current
      have closed := current key state cleans known
      refine ⟨?_, fun ctx hctx => ⟨key, state, known, ((mem ctx).mp hctx).symm, closed⟩⟩
      intro key' state' known'
      by_cases same : key' = key
      · subst same
        exact .inl (current key' state' cleans known')
      · have held : s'.leases.holds key' = some state'.ctx := by
          rw [leases]
          exact (Function.update_of_ne same ..).trans (Server.leases_holds known')
        exact .inr (Option.map_eq_some_iff.mp held)
  · refine ⟨fun _ key state cleans known => ?_, fun _ => ⟨?_, ?_⟩⟩
    · rw [noClean key cleans] at known
      cases known
    · intro key state known
      exact .inr (Option.map_eq_some_iff.mp (change.keeps (Server.leases_holds known)))
    · intro ctx hctx
      rw [← mem_shutdowns, quiet] at hctx
      cases hctx

theorem run_leases {opts : ServerOptions σ V} {storage : σ} {taken : List (Server σ × ServerAction)}
    {events : List ServerEvent} {s : Server σ}
    (run : (serverMachine opts storage).Run taken events s) :
    Lease.Sound s.leases (shutdowns events) := by
  refine run.invariant (fun events s => Lease.Sound s.leases (shutdowns events))
    (Lease.Sound.empty 0) ?_
  intro events s a s' emitted sound hstep
  rw [shutdowns_append]
  rcases Server.step_leases hstep with
    ⟨key, state, _, known, leases, shut⟩ | ⟨_, change, quiet⟩
  · rw [leases, shut]
    exact sound.release (Server.leases_holds known)
  · rw [quiet]
    exact sound.change change

/-- A run tears down sessions by their own actions only, exactly when every registration that
closes is the last one of the session it finds. No context is shut down twice, and the
context of a session is alive, in every run. -/
theorem own_teardown_iff {opts : ServerOptions σ V} {storage : σ}
    {taken : List (Server σ × ServerAction)} {events : List ServerEvent} {s : Server σ}
    (run : (serverMachine opts storage).Run taken events s) :
    ((∀ p ∈ taken, ∀ s' emitted, Server.step opts p.1 p.2 = some (s', emitted) →
        OwnTeardown p.1 p.2 s' emitted) ↔ Transition.Machine.Meets ClosesCurrent taken) ∧
      (shutdowns events).Nodup ∧
      ∀ key state, s.sessions key = some state → .contextShutdown state.ctx ∉ events := by
  have sound := run_leases run
  refine ⟨⟨?_, ?_⟩, sound.once, ?_⟩
  · intro own p hp
    obtain ⟨⟨s', emitted⟩, hstep⟩ := run.step_of_mem hp
    exact (ownTeardown_iff hstep).mp (own p hp s' emitted hstep)
  · intro meets p hp s' emitted hstep
    exact (ownTeardown_iff hstep).mpr (meets p hp)
  · intro key state known hctx
    exact sound.alive key state.ctx (Server.leases_holds known) (mem_shutdowns.mpr hctx)

/-! ## A reconnect -/

def sampleHello : Json :=
  .object [("type", .string "hello"), ("role", .string "device"), ("sessionId", .string "s")]

def sampleHelloText : Bytes :=
  utf8 "\x7b\"type\":\"hello\",\"role\":\"device\",\"sessionId\":\"s\"\x7d"

def sampleServerOptions : ServerOptions (InMemoryCoordinatorStorage Unit) Unit where
  parse raw := if raw = sampleHelloText then some sampleHello else none
  storage := memoryStorage noValues
  encryptor := PlaintextKeyEncryptor

/-- The first socket of a device closes after the device has come back on a second one. -/
theorem late_close_removes_session :
    ¬ ∀ taken events s, (serverMachine sampleServerOptions .new).Run taken events s →
      ∀ p ∈ taken, ∀ s' emitted, Server.step sampleServerOptions p.1 p.2 = some (s', emitted) →
        OwnTeardown p.1 p.2 s' emitted := by
  intro own
  obtain ⟨taken, run, _⟩ := Transition.Machine.reach_of_trace
    (show (serverMachine sampleServerOptions .new).trace (fun _ _ => True)
      (serverMachine sampleServerOptions .new).init
      [.connection 0, .message 0 sampleHelloText, .connection 1, .message 1 sampleHelloText] =
        some _ from rfl)
  have late := run.next
    (show (serverMachine sampleServerOptions .new).step _ (.close 0) = some _ from rfl)
  have sessions := (own _ _ _ late _ (List.mem_append_right _ (List.mem_singleton_self _)) _ _
    rfl).1 (.string "s") _ rfl
  rcases sessions with closed | ⟨state, known, _⟩
  · cases closed
  · cases known

/-- A device that comes and goes. -/
theorem own_teardown_iff_leaves :
    ∃ taken events s, (serverMachine sampleServerOptions .new).Run taken events s ∧
      shutdowns events = [0] ∧
      ∀ p ∈ taken, ∀ s' emitted, Server.step sampleServerOptions p.1 p.2 = some (s', emitted) →
        OwnTeardown p.1 p.2 s' emitted := by
  have connected := (Transition.Machine.Run.start
    (M := serverMachine sampleServerOptions .new)).next
    (show (serverMachine sampleServerOptions .new).step _ (.connection 0) = some _ from rfl)
  have greeted := connected.next
    (show (serverMachine sampleServerOptions .new).step _ (.message 0 sampleHelloText) = some _
      from rfl)
  have closed := greeted.next
    (show (serverMachine sampleServerOptions .new).step _ (.close 0) = some _ from rfl)
  refine ⟨_, _, _, closed, rfl, (own_teardown_iff closed).1.mpr ?_⟩
  simp only [Transition.Machine.meets_append_singleton, Transition.Machine.meets_nil, true_and]
  refine ⟨⟨?_, ?_⟩, ?_⟩
  · intro key state cleans
    cases cleans
  · intro key state cleans
    cases cleans
  · intro key state cleans known
    cases cleans
    cases known
    rfl

end MaanyMpc
