import MaanyMpc.Bridge.Types
import Mathlib.Logic.Function.Basic

/-! # The WebSocket transports

Both coordinators have a `WebSocketTransport` with a queue and a socket for each participant.
Frames are byte strings; the conversions between their JavaScript types do not change them. -/

namespace MaanyMpc

inductive Participant where
  | device
  | server
  deriving DecidableEq, Repr

/-- `participant === 'device' ? 'server' : 'device'`. -/
def Participant.other : Participant → Participant
  | .device => .server
  | .server => .device

def Participant.name : Participant → String
  | .device => "device"
  | .server => "server"

structure TransportMessage where
  participant : Participant
  payload : Bytes

/-- The fields of both transports. -/
structure WebSocketTransport (Socket : Type) where
  queues : Participant → List Bytes
  sockets : Participant → Option Socket

namespace WebSocketTransport

variable {Socket : Type}

def new : WebSocketTransport Socket where
  queues _ := []
  sockets _ := none

/-- `this.queues[participant].push(payload)`. -/
def push (t : WebSocketTransport Socket) (participant : Participant) (payload : Bytes) :
    WebSocketTransport Socket :=
  { t with queues := Function.update t.queues participant (t.queues participant ++ [payload]) }

/-- `this.sockets[participant] = socket`. -/
def bindSocket (t : WebSocketTransport Socket) (participant : Participant) (socket : Socket) :
    WebSocketTransport Socket :=
  { t with sockets := Function.update t.sockets participant (some socket) }

/-- `delete this.sockets[participant]`. -/
def unbindSocket (t : WebSocketTransport Socket) (participant : Participant) :
    WebSocketTransport Socket :=
  { t with sockets := Function.update t.sockets participant none }

/-- `receive`, which is the same in both. -/
def receive (t : WebSocketTransport Socket) (participant : Participant) :
    Option Bytes × WebSocketTransport Socket :=
  match t.queues participant with
  | [] => (none, t)
  | payload :: rest =>
    (some payload, { t with queues := Function.update t.queues participant rest })

@[simp] theorem push_sockets (t : WebSocketTransport Socket) (participant : Participant)
    (payload : Bytes) : (t.push participant payload).sockets = t.sockets := rfl

@[simp] theorem push_queues_self (t : WebSocketTransport Socket) (participant : Participant)
    (payload : Bytes) :
    (t.push participant payload).queues participant = t.queues participant ++ [payload] :=
  Function.update_self ..

theorem push_queues_of_ne (t : WebSocketTransport Socket) {a b : Participant} (h : a ≠ b)
    (payload : Bytes) : (t.push b payload).queues a = t.queues a :=
  Function.update_of_ne h ..

theorem length_push_le (t : WebSocketTransport Socket) (a b : Participant) (payload : Bytes) :
    ((t.push b payload).queues a).length ≤ (t.queues a).length + 1 := by
  by_cases same : a = b
  · rw [same, push_queues_self, List.length_append, List.length_singleton]
  · rw [push_queues_of_ne t same]
    omega

@[simp] theorem receive_sockets (t : WebSocketTransport Socket) (participant : Participant) :
    (t.receive participant).2.sockets = t.sockets := by
  unfold receive
  split <;> rfl

/-- What `receive` takes from the queue, and what it leaves there. -/
theorem receive_queues_self (t : WebSocketTransport Socket) (participant : Participant) :
    t.queues participant = (t.receive participant).1.toList ++
      (t.receive participant).2.queues participant := by
  unfold receive
  split
  next empty => simp [empty]
  next payload rest full => simp [full]

theorem receive_queues_length_lt (t : WebSocketTransport Socket) {participant : Participant}
    (waiting : t.queues participant ≠ []) :
    ((t.receive participant).2.queues participant).length < (t.queues participant).length := by
  unfold receive
  split
  next empty => exact absurd empty waiting
  next payload rest full => simp [full]

end WebSocketTransport

variable {Socket : Type}

/-! ## coordinator-rn -/

namespace CoordinatorRn

/-- `attach` on a socket with `addEventListener`. -/
def attach (t : WebSocketTransport Socket) (participant : Participant) (socket : Socket) :
    WebSocketTransport Socket :=
  t.bindSocket participant socket

/-- The participant that `connect` attaches the socket for. -/
def connectParticipant (participant : Option Participant) : Participant :=
  participant.getD .device

/-- `connect`, once the socket has opened. -/
def connect (t : WebSocketTransport Socket) (participant : Option Participant)
    (socket : Socket) : WebSocketTransport Socket :=
  attach t (connectParticipant participant) socket

/-- The listener that `attach` installs for the participant. -/
def onMessage (participant : Participant) (t : WebSocketTransport Socket) (payload : Bytes) :
    WebSocketTransport Socket :=
  t.push participant.other payload

/-- The frame that goes out, on which socket. -/
def send (isOpen : Socket → Bool) (t : WebSocketTransport Socket) (message : TransportMessage) :
    Except String (Socket × Bytes) :=
  match t.sockets message.participant with
  | none => .error s!"No WebSocket attached for participant {message.participant.name}"
  | some socket =>
    if isOpen socket then .ok (socket, message.payload)
    else .error s!"Socket for {message.participant.name} is not open"

end CoordinatorRn

/-! ## coordinator-node -/

namespace CoordinatorNode

def setSocket (t : WebSocketTransport Socket) (participant : Participant) (socket : Socket) :
    WebSocketTransport Socket :=
  t.bindSocket participant socket

/-- The listener of `setSocket`, past the control handler. -/
def onMessage (participant : Participant) (t : WebSocketTransport Socket) (payload : Bytes) :
    WebSocketTransport Socket :=
  t.push participant.other payload

/-- The frame that goes out if there is an open socket; otherwise it is queued here. -/
def send (isOpen : Socket → Bool) (t : WebSocketTransport Socket) (message : TransportMessage) :
    Option (Socket × Bytes) × WebSocketTransport Socket :=
  match t.sockets message.participant with
  | none => (none, t.push message.participant message.payload)
  | some socket =>
    if isOpen socket then (some (socket, message.payload), t)
    else (none, t.push message.participant message.payload)

end CoordinatorNode

end MaanyMpc
