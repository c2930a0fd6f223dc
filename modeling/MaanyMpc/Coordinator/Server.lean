import MaanyMpc.Coordinator.BackupShare
import MaanyMpc.Coordinator.KeyEncryptor
import MaanyMpc.Library.Transition
import MaanyMpc.Transport.WebSocket

/-! # CoordinatorServer

One action is one run of an event listener: a connection, a message or the close of a socket,
a call of the `close` that a `session:ready` event has handed out, or the moment at which a
backup that waited for the encryptor reaches the storage. -/

namespace MaanyMpc

abbrev SocketId := ℕ
abbrev CtxId := ℕ

inductive SessionIntent where
  | dkg (keyId sessionIdHint : Option Json)
  | sign (keyId : Json) (sessionIdHint : Option Json)
  | refresh (keyId : Json) (sessionIdHint : Option Json)

/-- `intent.keyId`. -/
def SessionIntent.keyId : SessionIntent → Option Json
  | .dkg keyId _ => keyId
  | .sign keyId _ | .refresh keyId _ => some keyId

/-- A key of the sessions map. Primitive values are compared by value, an object is only equal
to itself. -/
inductive SessionKey where
  | bool (value : Bool)
  | number (value : JsNumber)
  | string (value : String)
  | reference (id : ℕ)
  deriving DecidableEq

/-- `fresh` is the identity of the objects of the frame that is being read. -/
def sessionKey (fresh : ℕ) : Json → SessionKey
  | .bool value => .bool value
  | .number value => .number value
  | .string value => .string value
  | .null | .array _ | .object _ => .reference fresh

/-- A session; its coordinator has no state but the transport. -/
structure SessionState where
  transport : WebSocketTransport SocketId
  ctx : CtxId
  socket : Option SocketId
  intent : SessionIntent
  token : Option Json
  /-- not a field of the source: the socket of the last `session:ready` of this state -/
  registration : Option SocketId

/-- A socket and the listeners on it. -/
structure Connection where
  /-- `readyState === WebSocket.OPEN` -/
  isOpen : Bool
  /-- the `close` event has been delivered -/
  ended : Bool
  /-- `onMessage` of `handleConnection` is attached -/
  listening : Bool
  /-- the listeners of `setSocket`, of the transport of this session and context -/
  transport : Option (SessionKey × CtxId)
  /-- the close listener of `registerParticipant`, and the `close` it has handed out -/
  registered : Option SessionKey

/-- A backup that waits for the encryptor. -/
structure BackupTask where
  socket : SocketId
  payload : Json
  draft : BackupDraft

structure Server (σ : Type) where
  connections : SocketId → Option Connection
  sessions : SessionKey → Option SessionState
  /-- contexts and frames so far, for the next identity of each -/
  contexts : ℕ
  frames : ℕ
  tasks : List BackupTask
  storage : σ

/-- What a server is made with, and what `JSON.parse` makes of the text of a frame. -/
structure ServerOptions (σ V : Type) where
  parse : Bytes → Option Json
  storage : CoordinatorStorage σ V
  encryptor : KeyEncryptor

structure SessionReadyEvent where
  sessionId : SessionKey
  token : Option Json
  intent : SessionIntent
  ctx : CtxId
  socket : SocketId

inductive BackupStatus where
  | ok
  | error (message : JsError)

inductive ServerEvent where
  | contextCreated (ctx : CtxId)
  | contextShutdown (ctx : CtxId)
  | sessionReady (event : SessionReadyEvent)
  /-- `socket.close(1002, reason)` -/
  | rejected (socket : SocketId) (reason : String)
  | closed (socket : SocketId)
  /-- an exception that leaves the listener -/
  | threw (err : JsError)
  /-- the answer to a backup, with the `keyId` it names -/
  | backupAck (socket : SocketId) (keyId : Option Json) (status : BackupStatus)

inductive ServerAction where
  | connection (socket : SocketId)
  | message (socket : SocketId) (raw : Bytes)
  | close (socket : SocketId)
  | callClose (socket : SocketId)
  /-- the encryptor answers, or rejects, and the storage is called -/
  | complete (task : ℕ) (now : ℤ) (iv : Option (Vector UInt8 12))

def mapIntent (hello : Json) : Except JsError SessionIntent :=
  let keyId := hello.get? "keyId"
  let hint := hello.get? "sessionIdHint"
  if isText (hello.get? "intent") "sign" then
    match keyId.filter Json.truthy with
    | none => .error (.error "sign intent missing keyId")
    | some keyId => .ok (.sign keyId hint)
  else if isText (hello.get? "intent") "refresh" then
    match keyId.filter Json.truthy with
    | none => .error (.error "refresh intent missing keyId")
    | some keyId => .ok (.refresh keyId hint)
  else .ok (.dkg keyId hint)

/-- `state.transport.setSocket('device', socket); state.socket = socket`. -/
def SessionState.setDevice (state : SessionState) (socket : SocketId) : SessionState :=
  { state with transport := state.transport.bindSocket .device socket, socket := some socket }

namespace Server

variable {σ V : Type}

def init (storage : σ) : Server σ where
  connections _ := none
  sessions _ := none
  contexts := 0
  frames := 0
  tasks := []
  storage := storage

def updateConnection (s : Server σ) (socket : SocketId) (f : Connection → Connection) :
    Server σ :=
  { s with connections := Function.update s.connections socket ((s.connections socket).map f) }

def setSession (s : Server σ) (key : SessionKey) (state : Option SessionState) : Server σ :=
  { s with sessions := Function.update s.sessions key state }

@[simp] theorem updateConnection_sessions (s : Server σ) (socket : SocketId)
    (f : Connection → Connection) : (s.updateConnection socket f).sessions = s.sessions := rfl

@[simp] theorem updateConnection_contexts (s : Server σ) (socket : SocketId)
    (f : Connection → Connection) : (s.updateConnection socket f).contexts = s.contexts := rfl

@[simp] theorem setSession_sessions (s : Server σ) (key : SessionKey)
    (state : Option SessionState) :
    (s.setSession key state).sessions = Function.update s.sessions key state := rfl

@[simp] theorem setSession_contexts (s : Server σ) (key : SessionKey)
    (state : Option SessionState) : (s.setSession key state).contexts = s.contexts := rfl

/-- `socket.close()`; the close event follows later. -/
def closeSocket (s : Server σ) (socket : SocketId) : Server σ :=
  s.updateConnection socket fun c => { c with isOpen := false }

/-- `state.socket.readyState === WebSocket.OPEN`. -/
def isOpen (s : Server σ) (socket : SocketId) : Bool :=
  (s.connections socket).any Connection.isOpen

def cleanupSession (s : Server σ) (key : SessionKey) : Server σ × List ServerEvent :=
  match s.sessions key with
  | none => (s, [])
  | some state =>
    let open? := state.socket.filter fun socket => s.isOpen socket
    let closing :=
      match open? with
      | some socket => (s.closeSocket socket, [ServerEvent.closed socket])
      | none => (s, [])
    (closing.1.setSession key none,
      closing.2 ++ [.contextShutdown state.ctx])

/-- `registerParticipant` from `setSocket` on. -/
def attachDevice (s : Server σ) (key : SessionKey) (state : SessionState) (socket : SocketId)
    (hello : Json) : Server σ × List ServerEvent :=
  let state := state.setDevice socket
  let s := (s.setSession key (some state)).updateConnection socket
    fun c => { c with transport := some (key, state.ctx) }
  match mapIntent hello with
  | .error err => (s, [.threw err])
  | .ok intent =>
    let token := hello.get? "token"
    let state := { state with intent, token, registration := some socket }
    ((s.setSession key (some state)).updateConnection socket
        fun c => { c with registered := some key },
      [.sessionReady ⟨key, token, intent, state.ctx, socket⟩])

/-- Only a hello of a device gets here, so the branch for the server's socket is not taken. -/
def registerParticipant (s : Server σ) (key : SessionKey) (socket : SocketId) (hello : Json) :
    Server σ × List ServerEvent :=
  match s.sessions key with
  | some state => s.attachDevice key state socket hello
  | none =>
    let ctx := s.contexts
    let s := { s with contexts := ctx + 1 }
    match mapIntent hello with
    | .error err => (s, [.contextCreated ctx, .threw err])
    | .ok intent =>
      let state : SessionState := ⟨.new, ctx, none, intent, hello.get? "token", none⟩
      let r := s.attachDevice key state socket hello
      (r.1, .contextCreated ctx :: r.2)

/-- `onMessage` of `handleConnection`. -/
def onMessage (opts : ServerOptions σ V) (s : Server σ) (socket : SocketId) (raw : Bytes) :
    Server σ × List ServerEvent :=
  match opts.parse raw with
  | none => (s.closeSocket socket, [.rejected socket "invalid handshake payload"])
  | some hello =>
    if hello.isNull then (s, [.threw .typeError])
    else if isText (hello.get? "type") "hello" && isText (hello.get? "role") "device" then
      match (hello.get? "sessionId").filter Json.truthy with
      | none => (s.closeSocket socket, [.rejected socket "invalid handshake contents"])
      | some sessionId =>
        let key := sessionKey s.frames sessionId
        let s := { s with frames := s.frames + 1 }
        (s.updateConnection socket fun c => { c with listening := false }).registerParticipant
          key socket hello
    else (s.closeSocket socket, [.rejected socket "invalid handshake contents"])

/-- The session and the context of a transport that is still registered. -/
def sessionOf (s : Server σ) (key : SessionKey) (ctx : CtxId) : Option SessionState :=
  (s.sessions key).filter fun state => decide (state.ctx = ctx)

/-- `keyId: payload.keyId ?? payload.walletId ?? null`. -/
def ackKeyId (payload : Json) : Option Json :=
  coalesce (payload.get? "keyId") (payload.get? "walletId")

/-- The message listener of `setSocket`, with `handleControlMessage` before it. -/
def onTransportMessage (opts : ServerOptions σ V) (s : Server σ) (socket : SocketId)
    (key : SessionKey) (ctx : CtxId) (raw : Bytes) : Server σ × List ServerEvent :=
  let payload := (opts.parse raw).filter fun payload =>
    isText (payload.get? "type") "backup-share"
  match payload with
  | none =>
    match s.sessionOf key ctx with
    | none => (s, [])
    | some state =>
      (s.setSession key (some { state with transport := state.transport.push .server raw }), [])
  | some payload =>
    match processBackupShare ((s.sessions key).map fun state => state.intent.keyId) payload with
    | .error err => (s, [.backupAck socket (ackKeyId payload) (.error err)])
    | .ok draft => ({ s with tasks := s.tasks ++ [⟨socket, payload, draft⟩] }, [])

/-- The listeners of a closing socket, in the order in which they were attached. -/
def onClose (s : Server σ) (socket : SocketId) (c : Connection) : Server σ × List ServerEvent :=
  let s := s.updateConnection socket fun c =>
    { c with isOpen := false, ended := true, listening := false }
  let s :=
    match c.transport with
    | none => s
    | some (key, ctx) =>
      match s.sessionOf key ctx with
      | none => s
      | some state =>
        s.setSession key (some { state with transport := state.transport.unbindSocket .device })
  match c.registered with
  | none => (s, [])
  | some key => s.cleanupSession key

/-- The end of `processBackupShare` and the answer to the device. -/
def complete (opts : ServerOptions σ V) (s : Server σ) (task : BackupTask) (now : ℤ)
    (iv : Option (Vector UInt8 12)) : Server σ × List ServerEvent :=
  let ack := ServerEvent.backupAck task.socket (ackKeyId task.payload)
  match iv with
  | none => (s, [ack (.error .typeError)])
  | some iv =>
    let record := task.draft.record (opts.encryptor.encryptShare iv task.draft.fragment)
    match opts.storage.apply s.storage now (.upsertWalletBackup record) with
    | (some _, storage) => ({ s with storage }, [ack .ok])
    | (none, storage) => ({ s with storage }, [ack (.error .typeError)])

def step (opts : ServerOptions σ V) (s : Server σ) :
    ServerAction → Option (Server σ × List ServerEvent)
  | .connection socket =>
    match s.connections socket with
    | some _ => none
    | none =>
      let c : Connection := ⟨true, false, true, none, none⟩
      some ({ s with connections := Function.update s.connections socket (some c) }, [])
  | .message socket raw =>
    match s.connections socket with
    | none => none
    | some c =>
      if c.ended then none
      else if c.listening then some (s.onMessage opts socket raw)
      else
        match c.transport with
        | none => some (s, [])
        | some (key, ctx) => some (s.onTransportMessage opts socket key ctx raw)
  | .close socket =>
    match s.connections socket with
    | none => none
    | some c => if c.ended then none else some (s.onClose socket c)
  | .callClose socket =>
    match (s.connections socket).bind Connection.registered with
    | none => none
    | some key => some (s.cleanupSession key)
  | .complete task now iv =>
    match s.tasks[task]? with
    | none => none
    | some t => some ({ s with tasks := s.tasks.eraseIdx task }.complete opts t now iv)

/-! ## What an action does -/

section Actions

variable {opts : ServerOptions σ V} {s : Server σ} {r : Server σ × List ServerEvent}
  {socket : SocketId}

theorem step_connection (h : step opts s (.connection socket) = some r) :
    r = ({ s with connections := Function.update s.connections socket
                    (some ⟨true, false, true, none, none⟩) }, []) := by
  cases known : s.connections socket with
  | some c => simp [step, known] at h
  | none => simpa [step, known, eq_comm] using h

/-- A message is a handshake, finds no listener, or is for a transport. -/
theorem step_message {raw : Bytes} (h : step opts s (.message socket raw) = some r) :
    r = s.onMessage opts socket raw ∨ r = (s, []) ∨
      ∃ c key ctx, s.connections socket = some c ∧ c.transport = some (key, ctx) ∧
        r = s.onTransportMessage opts socket key ctx raw := by
  cases known : s.connections socket with
  | none => simp [step, known] at h
  | some c =>
      by_cases ended : c.ended = true
      · simp [step, known, ended] at h
      · by_cases listening : c.listening = true
        · exact .inl (by simpa [step, known, ended, listening, eq_comm] using h)
        · cases transport : c.transport with
          | none =>
              refine .inr (.inl ?_)
              simpa [step, known, ended, listening, transport, eq_comm] using h
          | some target =>
              refine .inr (.inr ⟨c, target.1, target.2, rfl, transport, ?_⟩)
              simpa [step, known, ended, listening, transport, eq_comm] using h

theorem step_close (h : step opts s (.close socket) = some r) :
    ∃ c, s.connections socket = some c ∧ r = s.onClose socket c := by
  cases known : s.connections socket with
  | none => simp [step, known] at h
  | some c =>
      by_cases ended : c.ended = true
      · simp [step, known, ended] at h
      · exact ⟨c, rfl, by simpa [step, known, ended, eq_comm] using h⟩

theorem step_callClose (h : step opts s (.callClose socket) = some r) :
    ∃ key, (s.connections socket).bind Connection.registered = some key ∧
      r = s.cleanupSession key := by
  cases registered : (s.connections socket).bind Connection.registered with
  | none => simp [step, registered] at h
  | some key => exact ⟨key, rfl, by simpa [step, registered, eq_comm] using h⟩

theorem step_complete {task : ℕ} {now : ℤ} {iv : Option (Vector UInt8 12)}
    (h : step opts s (.complete task now iv) = some r) :
    ∃ t, s.tasks[task]? = some t ∧
      r = { s with tasks := s.tasks.eraseIdx task }.complete opts t now iv := by
  cases found : s.tasks[task]? with
  | none => simp [step, found] at h
  | some t => exact ⟨t, rfl, by simpa [step, found, eq_comm] using h⟩

end Actions

end Server

/-- The server as a machine, over a storage in any state. -/
def serverMachine {σ V : Type} (opts : ServerOptions σ V) (storage : σ) :
    Transition.Machine (Server σ) ServerAction ServerEvent where
  init := .init storage
  step := Server.step opts

end MaanyMpc
