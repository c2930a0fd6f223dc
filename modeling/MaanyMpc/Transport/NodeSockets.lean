import MaanyMpc.Library.Transition
import MaanyMpc.Transport.WebSocket

/-! # The sockets of coordinator-node

`setSocket` installs a message listener and a close listener on the socket it is given, and
never removes those of the socket before. The machine below runs the transport under any order
of registrations, socket events, calls of `send` and `receive`, and answers of the control
handler. -/

namespace MaanyMpc

open Transition

/-- A message listener that waits for the control handler. -/
structure ControlTask where
  participant : Participant
  payload : Bytes
  /-- not a field of the source: the socket had been replaced when the frame arrived -/
  stale : Bool

structure NodeSockets (Socket : Type) where
  transport : WebSocketTransport Socket
  /-- the message listeners of `setSocket`, in the order of their registration -/
  listeners : List (Socket × Participant)
  /-- the close listeners that have not fired -/
  closers : List (Socket × Participant)
  /-- `socket.readyState === WebSocket.OPEN` -/
  isOpen : Socket → Bool
  tasks : List ControlTask
  /-- not a field of the source: the payloads passed to `send`, by participant -/
  sent : Participant → List Bytes
  /-- not a field of the source: the payloads written to the participant's sockets -/
  written : Participant → List Bytes

namespace NodeSockets

inductive Action (Socket : Type) where
  | setSocket (participant : Participant) (socket : Socket)
  | message (socket : Socket) (payload : Bytes)
  | close (socket : Socket)
  /-- the control handler answers the listener at this place of the list; a rejection counts
  as not handled -/
  | settle (task : Nat) (handled : Bool)
  | setReadyState (socket : Socket) (isOpen : Bool)
  | send (message : TransportMessage)
  | receive (participant : Participant)

inductive Event (Socket : Type) where
  | wrote (socket : Socket) (payload : Bytes)
  | received (payload : Option Bytes)

variable {Socket : Type} [DecidableEq Socket]

def init : NodeSockets Socket where
  transport := .new
  listeners := []
  closers := []
  isOpen _ := false
  tasks := []
  sent _ := []
  written _ := []

/-- The participants whose listeners on this socket are among the given ones. -/
def on (listeners : List (Socket × Participant)) (socket : Socket) : List Participant :=
  listeners.filterMap fun l => if l.1 = socket then some l.2 else none

/-- The sockets that have been registered for this participant. -/
def registered (s : NodeSockets Socket) (participant : Participant) : List Socket :=
  s.listeners.filterMap fun l => if l.2 = participant then some l.1 else none

/-- The socket has been registered for this participant, and another one since. -/
def ReplacedFor (s : NodeSockets Socket) (participant : Participant) (socket : Socket) : Prop :=
  socket ∈ s.registered participant ∧ (s.registered participant).getLast? ≠ some socket

def Replaced (s : NodeSockets Socket) (socket : Socket) : Prop :=
  s.ReplacedFor .device socket ∨ s.ReplacedFor .server socket

instance (s : NodeSockets Socket) (socket : Socket) : Decidable (s.Replaced socket) :=
  inferInstanceAs (Decidable ((_ ∧ _) ∨ (_ ∧ _)))

def setSocket (s : NodeSockets Socket) (participant : Participant) (socket : Socket) :
    NodeSockets Socket :=
  { s with
    transport := CoordinatorNode.setSocket s.transport participant socket
    listeners := s.listeners ++ [(socket, participant)]
    closers := s.closers ++ [(socket, participant)] }

/-- The message listeners of the socket, up to their first `await`. -/
def message (control : Bool) (s : NodeSockets Socket) (socket : Socket) (payload : Bytes) :
    NodeSockets Socket :=
  if control then
    { s with
      tasks := s.tasks ++ (on s.listeners socket).map fun participant =>
        ⟨participant, payload, decide (s.Replaced socket)⟩ }
  else
    { s with
      transport := (on s.listeners socket).foldl
        (fun t participant => CoordinatorNode.onMessage participant t payload) s.transport }

/-- The close listeners of the socket, each of which fires once. -/
def close (s : NodeSockets Socket) (socket : Socket) : NodeSockets Socket :=
  { s with
    transport := (on s.closers socket).foldl WebSocketTransport.unbindSocket s.transport
    closers := s.closers.filter fun l => l.1 ≠ socket
    isOpen := Function.update s.isOpen socket false }

def settle (s : NodeSockets Socket) (k : Nat) (handled : Bool) : Option (NodeSockets Socket) :=
  match s.tasks[k]? with
  | none => none
  | some task =>
    some { s with
      tasks := s.tasks.eraseIdx k
      transport :=
        if handled then s.transport
        else CoordinatorNode.onMessage task.participant s.transport task.payload }

def send (s : NodeSockets Socket) (message : TransportMessage) :
    NodeSockets Socket × List (Event Socket) :=
  let sent := Function.update s.sent message.participant
    (s.sent message.participant ++ [message.payload])
  match CoordinatorNode.send s.isOpen s.transport message with
  | (some (socket, payload), transport) =>
    ({ s with
        transport, sent
        written := Function.update s.written message.participant
          (s.written message.participant ++ [payload]) }, [.wrote socket payload])
  | (none, transport) => ({ s with transport, sent }, [])

def step (control : Bool) (s : NodeSockets Socket) :
    Action Socket → Option (NodeSockets Socket × List (Event Socket))
  | .setSocket participant socket => some (s.setSocket participant socket, [])
  | .message socket payload => some (s.message control socket payload, [])
  | .close socket => some (s.close socket, [])
  | .settle k handled => (s.settle k handled).map (·, [])
  | .setReadyState socket isOpen =>
    some ({ s with isOpen := Function.update s.isOpen socket isOpen }, [])
  | .send message => some (s.send message)
  | .receive participant =>
    let (payload, transport) := s.transport.receive participant
    some ({ s with transport }, [.received payload])

/-- `control` tells whether the transport was made with a control handler. -/
def machine (control : Bool) : Machine (NodeSockets Socket) (Action Socket) (Event Socket) where
  init := init
  step := step control

/-! ## Replaced sockets -/

/-- What an event on a replaced socket does at once or later: nothing to the queues and to the
sockets table. -/
def Inert (s s' : NodeSockets Socket) : Action Socket → Prop
  | .message socket _ | .close socket => s.Replaced socket → s'.transport = s.transport
  | .settle k _ =>
    ∀ task, s.tasks[k]? = some task → task.stale = true → s'.transport = s.transport
  | _ => True

/-- The step taken from this state is inert. -/
def StepsInertly (control : Bool) (s : NodeSockets Socket) (a : Action Socket) : Prop :=
  ∀ s' es, step control s a = some (s', es) → s.Inert s' a

/-- The control handler takes every frame that arrives on a replaced socket, and a replaced
socket closes, for the first time since its registration, only while its participant has no
socket. -/
def LeavesReplaced (control : Bool) (s : NodeSockets Socket) : Action Socket → Prop
  | .message socket _ => s.Replaced socket → control = true
  | .close socket =>
    s.Replaced socket → ∀ p, (socket, p) ∈ s.closers → s.transport.sockets p = none
  | .settle k handled =>
    ∀ task, s.tasks[k]? = some task → task.stale = true → handled = true
  | _ => True

end NodeSockets

namespace WebSocketTransport

variable {Socket : Type}

/-- The number of payloads in the queues. -/
def queued (t : WebSocketTransport Socket) : ℕ :=
  (t.queues .device).length + (t.queues .server).length

theorem queued_push (t : WebSocketTransport Socket) (p : Participant) (payload : Bytes) :
    (t.push p payload).queued = t.queued + 1 := by
  cases p <;> simp [queued, push] <;> omega

theorem queued_foldl (payload : Bytes) (ps : List Participant) (t : WebSocketTransport Socket) :
    (ps.foldl (fun t p => CoordinatorNode.onMessage p t payload) t).queued =
      t.queued + ps.length := by
  induction ps generalizing t with
  | nil => rfl
  | cons p ps ih =>
      rw [List.foldl_cons, ih, CoordinatorNode.onMessage, queued_push, List.length_cons]
      omega

theorem sockets_foldl (payload : Bytes) (ps : List Participant) (t : WebSocketTransport Socket) :
    (ps.foldl (fun t p => CoordinatorNode.onMessage p t payload) t).sockets = t.sockets := by
  induction ps generalizing t with
  | nil => rfl
  | cons p ps ih =>
      rw [List.foldl_cons, ih]
      rfl

theorem send_sockets (isOpen : Socket → Bool) (t : WebSocketTransport Socket)
    (message : TransportMessage) :
    (CoordinatorNode.send isOpen t message).2.sockets = t.sockets := by
  unfold CoordinatorNode.send
  split
  · rfl
  · split <;> rfl

theorem unbind_foldl (ps : List Participant) (t : WebSocketTransport Socket) :
    ps.foldl unbindSocket t =
      { t with sockets := fun p => if p ∈ ps then none else t.sockets p } := by
  induction ps generalizing t with
  | nil => simp
  | cons p ps ih =>
      rw [List.foldl_cons, ih]
      congr 1
      funext q
      by_cases later : q ∈ ps
      · simp [later]
      · by_cases now : q = p
        · simp [now, unbindSocket]
        · simp [later, now, unbindSocket]

/-- Close listeners change nothing exactly if their participants have no socket. -/
theorem unbind_foldl_eq_self (ps : List Participant) (t : WebSocketTransport Socket) :
    ps.foldl unbindSocket t = t ↔ ∀ p ∈ ps, t.sockets p = none := by
  rw [unbind_foldl]
  constructor
  · intro same p member
    have at_p := congrFun (congrArg sockets same) p
    simpa [member] using at_p.symm
  · intro unbound
    congr 1
    funext p
    by_cases member : p ∈ ps
    · simp [member, unbound p member]
    · simp [member]

end WebSocketTransport

namespace NodeSockets

variable {Socket : Type} {s s' : NodeSockets Socket}

/-! ## Live sockets -/

/-- The socket that was registered last is the participant's as long as it has not closed. -/
structure LiveSockets (s : NodeSockets Socket) : Prop where
  current : ∀ p socket, (s.registered p).getLast? = some socket → (socket, p) ∈ s.closers →
    s.transport.sockets p = some socket
  known : ∀ l ∈ s.closers, l ∈ s.listeners

theorem mem_registered {socket : Socket} {p : Participant} :
    socket ∈ s.registered p ↔ (socket, p) ∈ s.listeners := by
  simp only [registered, List.mem_filterMap, Option.ite_none_right_eq_some, Option.some.injEq]
  constructor
  · rintro ⟨⟨other, q⟩, member, rfl, rfl⟩
    exact member
  · intro member
    exact ⟨_, member, rfl, rfl⟩

theorem registered_setSocket (s : NodeSockets Socket) (p q : Participant) (socket : Socket) :
    (s.setSocket p socket).registered q =
      s.registered q ++ if p = q then [socket] else [] := by
  by_cases same : p = q
  · simp [setSocket, registered, same]
  · simp [setSocket, registered, same]

theorem LiveSockets.of_same (hs : LiveSockets s) (listeners : s'.listeners = s.listeners)
    (closers : s'.closers = s.closers) (sockets : s'.transport.sockets = s.transport.sockets) :
    LiveSockets s' where
  current := by
    simp only [registered, listeners, closers, sockets]
    exact hs.current
  known := by
    rw [listeners, closers]
    exact hs.known

theorem LiveSockets.setSocket (hs : LiveSockets s) (p : Participant) (socket : Socket) :
    LiveSockets (s.setSocket p socket) where
  current := by
    intro q last latest live
    rw [registered_setSocket] at latest
    by_cases same : p = q
    · subst same
      obtain rfl : socket = last := by simpa using latest
      simp [NodeSockets.setSocket, CoordinatorNode.setSocket, WebSocketTransport.bindSocket]
    · have was : (last, q) ∈ s.closers := by
        simpa [NodeSockets.setSocket, Ne.symm same] using live
      have bound := hs.current q last (by simpa [same] using latest) was
      simpa [NodeSockets.setSocket, CoordinatorNode.setSocket, WebSocketTransport.bindSocket,
        Function.update_of_ne (Ne.symm same)] using bound
  known := by
    intro l member
    simp only [NodeSockets.setSocket, List.mem_append] at member ⊢
    exact member.imp_left (hs.known l)

theorem send_frame (s : NodeSockets Socket) (message : TransportMessage) :
    (s.send message).1.listeners = s.listeners ∧ (s.send message).1.closers = s.closers ∧
      (s.send message).1.transport.sockets = s.transport.sockets := by
  have sockets := WebSocketTransport.send_sockets s.isOpen s.transport message
  unfold send
  split
  next result =>
    rw [result] at sockets
    exact ⟨rfl, rfl, sockets⟩
  next result =>
    rw [result] at sockets
    exact ⟨rfl, rfl, sockets⟩

theorem settle_transport {k : Nat} {handled : Bool} {task : ControlTask}
    (found : s.tasks[k]? = some task) (h : s.settle k handled = some s') :
    s'.transport = s.transport ↔ handled = true := by
  simp only [settle, found, Option.some.injEq] at h
  subst h
  cases handled with
  | true => simp
  | false =>
      have more := s.transport.queued_push task.participant.other task.payload
      constructor
      · intro same
        simp only [Bool.false_eq_true, if_false, CoordinatorNode.onMessage] at same
        rw [same] at more
        omega
      · simp

variable [DecidableEq Socket] {control : Bool} {a : Action Socket} {es : List (Event Socket)}

theorem mem_on {listeners : List (Socket × Participant)} {socket : Socket} {p : Participant} :
    p ∈ on listeners socket ↔ (socket, p) ∈ listeners := by
  simp only [on, List.mem_filterMap, Option.ite_none_right_eq_some, Option.some.injEq]
  constructor
  · rintro ⟨⟨other, q⟩, member, rfl, rfl⟩
    exact member
  · intro member
    exact ⟨_, member, rfl, rfl⟩

/-- A replaced socket still has a listener. -/
theorem Replaced.heard {socket : Socket} (replaced : s.Replaced socket) :
    on s.listeners socket ≠ [] := by
  rcases replaced with ⟨member, _⟩ | ⟨member, _⟩
  · exact List.ne_nil_of_mem (mem_on.mpr (mem_registered.mp member))
  · exact List.ne_nil_of_mem (mem_on.mpr (mem_registered.mp member))

theorem message_transport (control : Bool) (s : NodeSockets Socket) {socket : Socket}
    (heard : on s.listeners socket ≠ []) (payload : Bytes) :
    (s.message control socket payload).transport = s.transport ↔ control = true := by
  cases control with
  | true => simp [message]
  | false =>
      have more : (s.message false socket payload).transport.queued =
          s.transport.queued + (on s.listeners socket).length :=
        WebSocketTransport.queued_foldl ..
      have some : 0 < (on s.listeners socket).length := List.length_pos_iff.mpr heard
      constructor
      · intro same
        rw [same] at more
        omega
      · simp

/-- A step is inert exactly if it leaves the replaced sockets alone. -/
theorem inert_iff (h : (machine control).step s a = some (s', es)) :
    s.Inert s' a ↔ s.LeavesReplaced control a := by
  cases a with
  | message socket payload =>
      cases h
      exact forall_congr' fun replaced => message_transport control s replaced.heard payload
  | close socket =>
      cases h
      refine forall_congr' fun replaced => ?_
      have same := WebSocketTransport.unbind_foldl_eq_self (on s.closers socket) s.transport
      simp only [mem_on] at same
      exact same
  | settle k handled =>
      simp only [machine, step, Option.map_eq_some_iff, Prod.mk.injEq] at h
      obtain ⟨t, settled, rfl, rfl⟩ := h
      refine forall_congr' fun task => forall_congr' fun found => forall_congr' fun _ => ?_
      exact settle_transport found settled
  | _ => exact Iff.rfl

/-- The socket of a participant survives the close of another one. -/
theorem LiveSockets.close (hs : LiveSockets s) {socket : Socket}
    (leaves : s.Replaced socket → ∀ p, (socket, p) ∈ s.closers → s.transport.sockets p = none) :
    LiveSockets (s.close socket) where
  current := by
    intro p last latest live
    have was : (last, p) ∈ s.closers ∧ last ≠ socket := by
      simpa [NodeSockets.close] using live
    have bound := hs.current p last latest was.1
    have other : p ∉ on s.closers socket := by
      intro closing
      have registered := mem_registered.mpr (hs.known _ (mem_on.mp closing))
      have behind : (s.registered p).getLast? ≠ some socket := by
        rw [show (s.registered p).getLast? = some last from latest]
        simpa using was.2
      have replaced : s.Replaced socket := by
        cases p with
        | device => exact .inl ⟨registered, behind⟩
        | server => exact .inr ⟨registered, behind⟩
      rw [leaves replaced p (mem_on.mp closing)] at bound
      cases bound
    simpa [NodeSockets.close, WebSocketTransport.unbind_foldl, other] using bound
  known := by
    intro l member
    exact hs.known l (List.mem_filter.mp member).1

theorem LiveSockets.step (hs : LiveSockets s) (leaves : s.LeavesReplaced control a)
    (h : (machine control).step s a = some (s', es)) : LiveSockets s' := by
  cases a with
  | setSocket p socket => cases h; exact hs.setSocket p socket
  | close socket => cases h; exact hs.close leaves
  | message socket payload =>
      cases h
      cases control with
      | true => exact hs.of_same rfl rfl rfl
      | false => exact hs.of_same rfl rfl (WebSocketTransport.sockets_foldl ..)
  | settle k handled =>
      simp only [machine, step, Option.map_eq_some_iff, Prod.mk.injEq] at h
      obtain ⟨t, settled, rfl, rfl⟩ := h
      unfold settle at settled
      split at settled <;> cases settled
      exact hs.of_same rfl rfl (by cases handled <;> rfl)
  | setReadyState socket isOpen => cases h; exact hs.of_same rfl rfl rfl
  | send message =>
      simp only [machine, NodeSockets.step, Option.some.injEq] at h
      obtain rfl : (s.send message).1 = s' := congrArg Prod.fst h
      obtain ⟨listeners, closers, sockets⟩ := send_frame s message
      exact hs.of_same listeners closers sockets
  | receive p => cases h; exact hs.of_same rfl rfl (WebSocketTransport.receive_sockets ..)

section Run

variable {taken : List (NodeSockets Socket × Action Socket)}

/-- As long as replaced sockets are left alone, a participant keeps the socket that was
registered for it last until that socket closes. -/
theorem run_liveSockets (run : (machine control).Run taken es s)
    (leaves : Machine.Meets (LeavesReplaced control) taken) : LiveSockets s := by
  refine run.guarded_invariant (LeavesReplaced control) (fun _ s => LiveSockets s) ?_ ?_ leaves
  · constructor
    · intro p socket _ live
      cases live
    · intro l member
      cases member
  · intro _ _ _ _ _ hs leaves hstep
    exact hs.step leaves hstep

/-- No event on a replaced socket has an effect, in a run, exactly as long as the control handler
takes every frame from such a socket and none closes while its participant has a socket. -/
theorem replaced_inert_iff (run : (machine control).Run taken es s) :
    Machine.Meets (StepsInertly control) taken ↔ Machine.Meets (LeavesReplaced control) taken := by
  refine forall_congr' fun p => forall_congr' fun member => ?_
  obtain ⟨⟨t, emitted⟩, hstep⟩ := run.step_of_mem member
  constructor
  · exact fun inert => (inert_iff hstep).mp (inert t emitted hstep)
  · intro leaves t' emitted' hstep'
    exact (inert_iff hstep').mpr leaves

end Run

/-! ## A late close -/

/-- The device has reconnected. -/
def reconnected : NodeSockets ℕ := (init.setSocket .device 0).setSocket .device 1

theorem reconnected_run (control : Bool) :
    (machine control).Run [(init, .setSocket .device 0), (init.setSocket .device 0,
      .setSocket .device 1)] [] reconnected := by
  have first : (machine control).Run [(init, .setSocket .device 0)] []
      (init.setSocket .device 0) := .next .start rfl
  exact first.next (show (machine control).step _ (.setSocket .device 1) =
    some (reconnected, []) from rfl)

/-- The close of the socket that has been replaced removes the new one from the table. -/
theorem late_close_removes_live_socket :
    ¬ ∀ control taken es (s : NodeSockets ℕ), (machine control).Run taken es s →
      Machine.Meets (StepsInertly control) taken := by
  intro inert
  have closed := (reconnected_run false).next
    (show (machine false).step reconnected (.close 0) = some (reconnected.close 0, []) from rfl)
  have same := inert false _ _ _ closed (reconnected, .close 0) (by simp) _ _ rfl
    (show reconnected.Replaced 0 by decide)
  have removed := congrFun (congrArg WebSocketTransport.sockets same) .device
  revert removed
  decide

/-- A frame on the new socket. -/
theorem replaced_inert_iff_live_frame :
    Machine.Meets (StepsInertly false) [(init, .setSocket .device 0),
      (init.setSocket .device 0, .setSocket .device 1), (reconnected, .message 1 [7])] := by
  have frame := (reconnected_run false).next
    (show (machine false).step reconnected (.message 1 [7]) = some (_, []) from rfl)
  refine (replaced_inert_iff frame).mpr ?_
  have live : ¬ reconnected.Replaced 1 := by decide
  rintro p (_ | ⟨_, _ | ⟨_, _ | ⟨_, ⟨⟩⟩⟩⟩)
  · trivial
  · trivial
  · exact fun replaced => (live replaced).elim

end NodeSockets

end MaanyMpc
