import MaanyMpc.Coordinator.Server

/-! # The handshake

The first message on a connection is parsed inside a `try`; everything that follows it is
not. A frame is handled as a whole, rejected or registered, unless it is `null` or a hello
whose intent needs a keyId that it does not have. -/

namespace MaanyMpc

variable {σ V : Type}

/-! ## Frames -/

/-- The hello of a device with a session id. -/
def IsHello (hello : Json) : Prop :=
  isText (hello.get? "type") "hello" = true ∧ isText (hello.get? "role") "device" = true ∧
    truthy? (hello.get? "sessionId") = true

/-- The text of such a hello. -/
def IsHelloFrame (opts : ServerOptions σ V) (raw : Bytes) : Prop :=
  ∃ hello, opts.parse raw = some hello ∧ IsHello hello

/-- The intent is `sign` or `refresh`, and there is no truthy keyId. -/
def LacksKeyId (hello : Json) : Prop :=
  (isText (hello.get? "intent") "sign" = true ∨ isText (hello.get? "intent") "refresh" = true) ∧
    truthy? (hello.get? "keyId") = false

/-- The frames that the handler is made for. -/
def Handled (opts : ServerOptions σ V) (raw : Bytes) : Prop :=
  match opts.parse raw with
  | none => True
  | some hello => hello.isNull = false ∧ (IsHello hello → ¬ LacksKeyId hello)

theorem filter_truthy_eq_none_iff (value : Option Json) :
    value.filter Json.truthy = none ↔ truthy? value = false := by
  cases value with
  | none => simp [truthy?]
  | some v => simp [truthy?]

theorem mapIntent_eq_error_iff (hello : Json) :
    (∃ err, mapIntent hello = .error err) ↔ LacksKeyId hello := by
  rw [LacksKeyId, ← filter_truthy_eq_none_iff]
  simp only [mapIntent]
  cases keyId : (hello.get? "keyId").filter Json.truthy with
  | none => split_ifs <;> simp_all
  | some value => split_ifs <;> simp_all

/-! ## Outcomes -/

/-- The socket is closed, and that is all. -/
structure Rejects (s : Server σ) (socket : SocketId) (s' : Server σ)
    (es : List ServerEvent) : Prop where
  events : ∃ reason, es = [.rejected socket reason]
  closed : s'.isOpen socket = false
  sessions : s'.sessions = s.sessions
  contexts : s'.contexts = s.contexts

/-- One session, an old one or a new one, has the socket, the intent and the token of the
hello, and the event says so. -/
structure Registers (s : Server σ) (socket : SocketId) (hello : Json) (s' : Server σ)
    (es : List ServerEvent) (key : SessionKey) (state : SessionState) : Prop where
  sessions : s'.sessions = Function.update s.sessions key (some state)
  socket_eq : state.socket = some socket
  bound : state.transport.sockets .device = some socket
  intent : mapIntent hello = .ok state.intent
  token : state.token = hello.get? "token"
  ready : ∃ before, es = before ++
    [.sessionReady ⟨key, state.token, state.intent, state.ctx, socket⟩]
  context : (∃ old, s.sessions key = some old ∧ state.ctx = old.ctx ∧ s'.contexts = s.contexts) ∨
    (s.sessions key = none ∧ state.ctx = s.contexts ∧ s'.contexts = s.contexts + 1)

/-- The handler does not throw, and it either rejects the frame or registers the device. -/
def HandlesAtomically (opts : ServerOptions σ V) (s : Server σ) (socket : SocketId)
    (raw : Bytes) : Prop :=
  (∀ err, .threw err ∉ (s.onMessage opts socket raw).2) ∧
    (Rejects s socket (s.onMessage opts socket raw).1 (s.onMessage opts socket raw).2 ∨
      ∃ hello key state, opts.parse raw = some hello ∧
        Registers s socket hello (s.onMessage opts socket raw).1
          (s.onMessage opts socket raw).2 key state)

namespace Server

theorem closeSocket_rejects (s : Server σ) (socket : SocketId) (reason : String) :
    Rejects s socket (s.closeSocket socket) [.rejected socket reason] where
  events := ⟨reason, rfl⟩
  closed := by cases h : s.connections socket <;> simp [isOpen, closeSocket, updateConnection, h]
  sessions := rfl
  contexts := rfl

/-- A device is attached to a session without its intent. -/
theorem attachDevice_of_error (s : Server σ) (key : SessionKey) (state : SessionState)
    (socket : SocketId) {hello : Json} {err : JsError} (h : mapIntent hello = .error err) :
    (s.attachDevice key state socket hello).1.sessions =
        Function.update s.sessions key (some (state.setDevice socket)) ∧
      (s.attachDevice key state socket hello).2 = [.threw err] := by
  simp [attachDevice, h]

theorem attachDevice_of_ok (s : Server σ) (key : SessionKey) (state : SessionState)
    (socket : SocketId) {hello : Json} {intent : SessionIntent}
    (h : mapIntent hello = .ok intent) :
    let final := { state.setDevice socket with
      intent, token := hello.get? "token", registration := some socket }
    (s.attachDevice key state socket hello).1.sessions =
        Function.update s.sessions key (some final) ∧
      (s.attachDevice key state socket hello).1.contexts = s.contexts ∧
      (s.attachDevice key state socket hello).2 =
        [.sessionReady ⟨key, hello.get? "token", intent, state.ctx, socket⟩] := by
  simp [attachDevice, h, SessionState.setDevice]

/-- Without its keyId a hello leaves something behind: an existing session has the new socket
and its old intent, or a new context belongs to no session. -/
theorem registerParticipant_of_error {s : Server σ} {key : SessionKey} {socket : SocketId}
    {hello : Json} {err : JsError} (h : mapIntent hello = .error err) :
    .threw err ∈ (s.registerParticipant key socket hello).2 ∧
      match s.sessions key with
      | some state => (s.registerParticipant key socket hello).1.sessions =
          Function.update s.sessions key (some (state.setDevice socket))
      | none => (s.registerParticipant key socket hello).1.sessions = s.sessions ∧
          (s.registerParticipant key socket hello).1.contexts = s.contexts + 1 := by
  cases known : s.sessions key with
  | some state =>
      simp only [registerParticipant, known]
      obtain ⟨sessions, events⟩ :=
        attachDevice_of_error s key state socket h
      exact ⟨by simp [events], sessions⟩
  | none => simp [registerParticipant, known, h]

theorem registerParticipant_of_ok {s : Server σ} {key : SessionKey} {socket : SocketId}
    {hello : Json} {intent : SessionIntent} (h : mapIntent hello = .ok intent) :
    (∀ err, .threw err ∉ (s.registerParticipant key socket hello).2) ∧
      ∃ state, Registers s socket hello (s.registerParticipant key socket hello).1
        (s.registerParticipant key socket hello).2 key state := by
  cases known : s.sessions key with
  | some old =>
      obtain ⟨sessions, contexts, events⟩ := attachDevice_of_ok s key old socket h
      simp only [registerParticipant, known]
      refine ⟨by simp [events], _, ⟨sessions, rfl, ?_, h, rfl, ⟨[], events⟩, ?_⟩⟩
      · simp [SessionState.setDevice, WebSocketTransport.bindSocket]
      · exact .inl ⟨old, known, rfl, contexts⟩
  | none =>
      obtain ⟨sessions, contexts, events⟩ :=
        attachDevice_of_ok { s with contexts := s.contexts + 1 } key
          ⟨.new, s.contexts, none, intent, hello.get? "token", none⟩ socket h
      simp only [registerParticipant, known, h]
      refine ⟨by simp [events], _, ⟨sessions, rfl, ?_, h, rfl,
        ⟨[.contextCreated s.contexts], by rw [events]; rfl⟩, ?_⟩⟩
      · simp [SessionState.setDevice, WebSocketTransport.bindSocket]
      · exact .inr ⟨known, rfl, contexts⟩

end Server

/-! ## The handler -/

theorem isHello_iff (hello : Json) : IsHello hello ↔
    (isText (hello.get? "type") "hello" && isText (hello.get? "role") "device") = true ∧
      ∃ sessionId, (hello.get? "sessionId").filter Json.truthy = some sessionId := by
  rw [IsHello, Bool.and_eq_true, ← Option.isSome_iff_exists, ← and_assoc]
  refine and_congr_right fun _ => ?_
  have none_iff := filter_truthy_eq_none_iff (hello.get? "sessionId")
  rw [← not_iff_not, Bool.not_eq_true, Option.not_isSome_iff_eq_none, none_iff]

/-- What the handler does with a frame, in the four cases that it has. -/
theorem onMessage_cases (opts : ServerOptions σ V) (s : Server σ) (socket : SocketId)
    (raw : Bytes) :
    (∃ reason, s.onMessage opts socket raw =
        (s.closeSocket socket, [.rejected socket reason]) ∧ ¬ IsHelloFrame opts raw ∧
        Handled opts raw) ∨
      (s.onMessage opts socket raw = (s, [.threw .typeError]) ∧ ¬ IsHelloFrame opts raw ∧
        ¬ Handled opts raw) ∨
      ∃ hello sessionId, opts.parse raw = some hello ∧ IsHello hello ∧
        (hello.get? "sessionId").filter Json.truthy = some sessionId ∧
        (Handled opts raw ↔ ¬ LacksKeyId hello) ∧
        s.onMessage opts socket raw =
          (({ s with frames := s.frames + 1 } : Server σ).updateConnection socket fun c =>
            { c with listening := false }).registerParticipant (sessionKey s.frames sessionId)
              socket hello := by
  cases parsed : opts.parse raw with
  | none =>
      exact .inl ⟨"invalid handshake payload", by simp only [Server.onMessage, parsed],
        by simp [IsHelloFrame, parsed], by simp [Handled, parsed]⟩
  | some hello =>
      have frame : IsHelloFrame opts raw ↔ IsHello hello := by simp [IsHelloFrame, parsed]
      rw [frame]
      by_cases null : hello.isNull = true
      · refine .inr (.inl ⟨by simp [Server.onMessage, parsed, null], ?_,
          by simp [Handled, parsed, null]⟩)
        cases hello with
        | null => simp [IsHello, Json.get?, isText]
        | _ => cases null
      · have handled : Handled opts raw ↔ (IsHello hello → ¬ LacksKeyId hello) := by
          simp [Handled, parsed, null]
        by_cases typed : (isText (hello.get? "type") "hello" &&
            isText (hello.get? "role") "device") = true
        · cases sessionId : (hello.get? "sessionId").filter Json.truthy with
          | none =>
              have other : ¬ IsHello hello := by simp [isHello_iff, sessionId]
              refine .inl ⟨"invalid handshake contents", ?_, other,
                handled.mpr fun h => absurd h other⟩
              simp only [Server.onMessage, parsed, null, typed, sessionId]
              rfl
          | some value =>
              have isHello : IsHello hello := (isHello_iff hello).mpr ⟨typed, value, sessionId⟩
              refine .inr (.inr ⟨hello, value, rfl, isHello, sessionId, ?_, ?_⟩)
              · rw [handled]
                exact ⟨fun h => h isHello, fun h _ => h⟩
              · simp only [Server.onMessage, parsed, null, typed, sessionId]
                rfl
        · have other : ¬ IsHello hello := fun h => typed ((isHello_iff hello).mp h).1
          refine .inl ⟨"invalid handshake contents", ?_, other,
            handled.mpr fun h => absurd h other⟩
          simp only [Server.onMessage, parsed, null, typed]
          rfl

/-- The frames on which the handler is atomic and throws nothing, in every state of the
server. -/
theorem handshake_atomic_iff (opts : ServerOptions σ V) (s : Server σ) (socket : SocketId)
    (raw : Bytes) : HandlesAtomically opts s socket raw ↔ Handled opts raw := by
  rcases onMessage_cases opts s socket raw with
    ⟨reason, result, _, handled⟩ | ⟨result, _, unhandled⟩ |
    ⟨hello, sessionId, parsed, _, _, handled, result⟩
  · refine ⟨fun _ => handled, fun _ => ?_⟩
    rw [HandlesAtomically, result]
    exact ⟨by simp, .inl (s.closeSocket_rejects socket reason)⟩
  · refine ⟨fun atomic => ?_, fun h => absurd h unhandled⟩
    rw [HandlesAtomically, result] at atomic
    exact absurd (List.mem_singleton_self _) (atomic.1 .typeError)
  · rw [handled, HandlesAtomically, result, ← mapIntent_eq_error_iff]
    constructor
    · rintro ⟨quiet, _⟩ ⟨err, failed⟩
      exact quiet err (Server.registerParticipant_of_error failed).1
    · intro passes
      cases intent : mapIntent hello with
      | error err => exact absurd ⟨err, intent⟩ passes
      | ok intent' =>
          obtain ⟨quiet, state, registers⟩ := Server.registerParticipant_of_ok intent
          -- the server that reads the frame has the sessions and the contexts of `s`
          exact ⟨quiet, .inr ⟨hello, _, state, parsed, registers.sessions,
            registers.socket_eq, registers.bound, registers.intent, registers.token,
            registers.ready, registers.context⟩⟩

/-- A client that sends the text `null` on its fresh connection. -/
theorem null_frame_throws :
    let opts : ServerOptions (InMemoryCoordinatorStorage Unit) Unit :=
      ⟨fun raw => if raw = utf8 "null" then some .null else none, memoryStorage noValues,
        PlaintextKeyEncryptor⟩
    let fresh : Server (InMemoryCoordinatorStorage Unit) :=
      { Server.init .new with
        connections := Function.update (fun _ => none) 0 (some ⟨true, false, true, none, none⟩) }
    ¬ HandlesAtomically opts fresh 0 (utf8 "null") := by
  intro opts fresh atomic
  refine atomic.1 .typeError ?_
  simp [opts, Server.onMessage, Json.isNull]

end MaanyMpc
