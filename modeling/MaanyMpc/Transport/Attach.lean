import MaanyMpc.Library.Transition
import MaanyMpc.Transport.WebSocket

/-! # attach and detach

The transport of coordinator-rn listens on sockets that the application may have handlers on.
`attach` installs its listeners, saves the handlers it then finds in the properties and clears
the properties; `detach` removes the listeners and puts the saved handlers back. -/

namespace MaanyMpc

open Transition

inductive EventType where
  | message
  | close
  deriving DecidableEq

/-- A function that is called for an event: one of the application's, or the `onMessage` or
`onClose` that an `attach` has made for its participant. -/
inductive Listener where
  | app (handler : Nat)
  | own (participant : Participant) (attachment : Nat)
  deriving DecidableEq

/-- The handlers of a socket for one type of event. -/
structure EventSource where
  listeners : List Listener
  /-- `onmessage` or `onclose` -/
  property : Option Listener

namespace EventSource

/-- `attachListener`; `target` tells whether the socket has `addEventListener` and
`removeEventListener`. -/
def attachListener (target : Bool) (e : EventSource) (listener : Listener) : EventSource :=
  if target then { e with listeners := e.listeners ++ [listener] }
  else { e with property := some listener }

def detachListener (target : Bool) (e : EventSource) (listener : Listener) : EventSource :=
  if target then { e with listeners := e.listeners.erase listener }
  else if e.property = some listener then { e with property := none }
  else e

/-- The property is set to `undefined`. -/
def clear (e : EventSource) : EventSource := { e with property := none }

/-- The property is set back, unless nothing was saved. -/
def restore (e : EventSource) (original : Option Listener) : EventSource :=
  match original with
  | none => e
  | some listener => { e with property := some listener }

/-- What is called for an event of this type. -/
def called (target : Bool) (e : EventSource) : List Listener :=
  (if target then e.listeners else []) ++ e.property.toList

end EventSource

structure BoundSocket (Socket : Type) where
  socket : Socket
  /-- `onMessage` and `onClose` -/
  listener : EventType → Listener
  /-- `originalOnMessage` and `originalOnClose` -/
  original : EventType → Option Listener

structure RnSockets (Socket : Type) where
  transport : WebSocketTransport (BoundSocket Socket)
  handlers : Socket → EventType → EventSource
  /-- the number of calls of `attach` so far -/
  attachments : Nat

namespace RnSockets

inductive Action (Socket : Type) where
  | attach (participant : Participant) (socket : Socket)
  | detach (participant : Participant)
  | message (socket : Socket) (payload : Bytes)
  | close (socket : Socket)

variable {Socket : Type} [DecidableEq Socket]

/-- The application has put these handlers into the properties of its sockets, and has added
these listeners. -/
def init (app : Socket → EventType → List Nat × Option Nat) : RnSockets Socket where
  transport := .new
  handlers socket type := ⟨(app socket type).1.map .app, (app socket type).2.map .app⟩
  attachments := 0

variable (target : Socket → Bool)

def detach (s : RnSockets Socket) (participant : Participant) : RnSockets Socket :=
  match s.transport.sockets participant with
  | none => s
  | some bound =>
    { s with
      handlers := Function.update s.handlers bound.socket fun type =>
        ((s.handlers bound.socket type).detachListener (target bound.socket)
          (bound.listener type)).restore (bound.original type)
      transport := s.transport.unbindSocket participant }

/-- `attach` past its call of `detach`. -/
def bind (s : RnSockets Socket) (participant : Participant) (socket : Socket) : RnSockets Socket :=
  let listener := .own participant s.attachments
  let installed (type : EventType) :=
    (s.handlers socket type).attachListener (target socket) listener
  { transport := s.transport.bindSocket participant
      ⟨socket, fun _ => listener, fun type => (installed type).property⟩
    handlers := Function.update s.handlers socket fun type => (installed type).clear
    attachments := s.attachments + 1 }

def attach (s : RnSockets Socket) (participant : Participant) (socket : Socket) :
    RnSockets Socket :=
  bind target (s.detach target participant) participant socket

/-- The body of `onMessage`. A handler of the application does nothing to the transport. -/
def onMessage (payload : Bytes) (s : RnSockets Socket) : Listener → RnSockets Socket
  | .app _ => s
  | .own participant _ =>
    { s with transport := CoordinatorRn.onMessage participant s.transport payload }

/-- The body of `onClose`. -/
def onClose (s : RnSockets Socket) : Listener → RnSockets Socket
  | .app _ => s
  | .own participant _ => s.detach target participant

def message (s : RnSockets Socket) (socket : Socket) (payload : Bytes) : RnSockets Socket :=
  ((s.handlers socket .message).called (target socket)).foldl (onMessage payload) s

def close (s : RnSockets Socket) (socket : Socket) : RnSockets Socket :=
  ((s.handlers socket .close).called (target socket)).foldl (onClose target) s

def step (s : RnSockets Socket) : Action Socket → Option (RnSockets Socket × List Empty)
  | .attach participant socket => some (s.attach target participant socket, [])
  | .detach participant => some (s.detach target participant, [])
  | .message socket payload => some (s.message target socket payload, [])
  | .close socket => some (s.close target socket, [])

def machine (app : Socket → EventType → List Nat × Option Nat) :
    Machine (RnSockets Socket) (Action Socket) Empty where
  init := init app
  step := step target

/-! ## Consistency -/

/-- The transport's table has the socket for this participant. -/
def Attached (s : RnSockets Socket) (participant : Participant) (socket : Socket) : Prop :=
  ∃ bound, s.transport.sockets participant = some bound ∧ bound.socket = socket

instance (s : RnSockets Socket) (p : Participant) (socket : Socket) :
    Decidable (s.Attached p socket) :=
  match h : s.transport.sockets p with
  | none => .isFalse (by simp [Attached, h])
  | some bound => decidable_of_iff (bound.socket = socket) (by simp [Attached, h])

/-- A message on any socket goes to the opposite queue of each participant that the socket is
attached for, once, and to no other; a socket that is not attached has its own handlers. -/
structure Consistent (app : Socket → EventType → List Nat × Option Nat) (s : RnSockets Socket) :
    Prop where
  enqueues : ∀ socket payload p, (s.message target socket payload).transport.queues p.other =
    s.transport.queues p.other ++ if s.Attached p socket then [payload] else []
  restores : ∀ socket, (∀ p, ¬ s.Attached p socket) → ∀ type,
    (s.handlers socket type).property = (app socket type).2.map .app

/-- Only sockets with `addEventListener` and `removeEventListener` are attached. -/
def AttachesTargets (_ : RnSockets Socket) : Action Socket → Prop
  | .attach _ socket => target socket = true
  | _ => True

end RnSockets

/-! ## One type of event -/

/-- A listener of the transport for this participant. -/
def Listener.isOf (participant : Participant) : Listener → Bool
  | .app _ => false
  | .own p _ => p = participant

namespace EventSource

/-- A listener is saved or is in the property: `detach` moves it back. -/
theorem restore_perm (e : EventSource) (original : Option Listener)
    (single : e.property = none ∨ original = none) :
    (e.restore original).property.toList.Perm (e.property.toList ++ original.toList) := by
  cases original with
  | none => simp [restore]
  | some listener =>
      have empty : e.property = none := by simpa using single
      simp [restore, empty]

@[simp] theorem restore_listeners (e : EventSource) (original : Option Listener) :
    (e.restore original).listeners = e.listeners := by
  cases original <;> rfl

@[simp] theorem detachListener_target (e : EventSource) (listener : Listener) :
    e.detachListener true listener = { e with listeners := e.listeners.erase listener } := rfl

@[simp] theorem attachListener_target (e : EventSource) (listener : Listener) :
    e.attachListener true listener = { e with listeners := e.listeners ++ [listener] } := rfl

end EventSource

namespace RnSockets

variable {Socket : Type} [DecidableEq Socket] {target : Socket → Bool}
  {app : Socket → EventType → List Nat × Option Nat} {s : RnSockets Socket}

/-- The participant's entry in the table, if it is for this socket. -/
def boundTo (s : RnSockets Socket) (p : Participant) (socket : Socket) :
    Option (BoundSocket Socket) :=
  (s.transport.sockets p).filter fun bound => bound.socket = socket

/-- The handler that the participant's entry has saved from this socket. -/
def saved (s : RnSockets Socket) (p : Participant) (socket : Socket) (type : EventType) :
    List Listener :=
  ((s.boundTo p socket).bind fun bound => bound.original type).toList

theorem attached_iff {p : Participant} {socket : Socket} :
    s.Attached p socket ↔ (s.boundTo p socket).isSome = true := by
  cases bound : s.transport.sockets p with
  | none => simp [Attached, boundTo, bound]
  | some bound => simp [Attached, boundTo, bound, Option.filter]

@[simp] theorem detach_boundTo_self {p : Participant} (socket : Socket) :
    (s.detach target p).boundTo p socket = none := by
  unfold detach
  cases bound : s.transport.sockets p with
  | none => simp [boundTo, bound]
  | some bound => simp [boundTo, WebSocketTransport.unbindSocket]

theorem detach_boundTo_of_ne {p q : Participant} (other : q ≠ p) (socket : Socket) :
    (s.detach target p).boundTo q socket = s.boundTo q socket := by
  unfold detach
  cases bound : s.transport.sockets p with
  | none => rfl
  | some bound => simp [boundTo, WebSocketTransport.unbindSocket, other]

/-- What `detach` does to a socket depends on the participant's entry for that socket only. -/
theorem detach_handlers (p : Participant) (socket : Socket) (type : EventType) :
    (s.detach target p).handlers socket type = match s.boundTo p socket with
      | none => s.handlers socket type
      | some bound => ((s.handlers socket type).detachListener (target socket)
          (bound.listener type)).restore (bound.original type) := by
  unfold detach
  cases found : s.transport.sockets p with
  | none => simp [boundTo, found]
  | some bound =>
      by_cases here : bound.socket = socket
      · simp [boundTo, found, Option.filter, here]
      · simp [boundTo, found, Option.filter, here, Function.update_of_ne (Ne.symm here)]

theorem bind_boundTo_self (p : Participant) (socket other : Socket) :
    (bind target s p socket).boundTo p other = if socket = other then
      some ⟨socket, fun _ => .own p s.attachments, fun type =>
        ((s.handlers socket type).attachListener (target socket)
          (.own p s.attachments)).property⟩ else none := by
  by_cases same : socket = other
  · simp [boundTo, bind, WebSocketTransport.bindSocket, Option.filter, same]
  · simp [boundTo, bind, WebSocketTransport.bindSocket, Option.filter, same]

theorem bind_boundTo_of_ne {p q : Participant} (other : q ≠ p) (socket : Socket)
    (on : Socket) : (bind target s p socket).boundTo q on = s.boundTo q on := by
  simp [boundTo, bind, WebSocketTransport.bindSocket, Function.update_of_ne other]

theorem bind_handlers_self (p : Participant) (socket : Socket) (type : EventType) :
    (bind target s p socket).handlers socket type = ((s.handlers socket type).attachListener
      (target socket) (.own p s.attachments)).clear := by
  simp [bind]

theorem bind_handlers_of_ne (p : Participant) {socket on : Socket} (other : on ≠ socket)
    (type : EventType) : (bind target s p socket).handlers on type = s.handlers on type := by
  simp [bind, other]

/-! ## The invariant -/

/-- The transport and its sockets agree: each entry of the table has its listener on its socket,
and nothing else of the transport is there; the handler of the application is in the property
or saved, in one place. -/
structure Tidy (target : Socket → Bool) (app : Socket → EventType → List Nat × Option Nat)
    (s : RnSockets Socket) : Prop where
  targets : ∀ p socket, (s.boundTo p socket).isSome = true → target socket = true
  owned : ∀ p socket bound, s.boundTo p socket = some bound →
    ∀ type q, (bound.listener type).isOf q = decide (p = q)
  listeners : ∀ socket type p, (s.handlers socket type).listeners.filter (Listener.isOf p) =
    ((s.boundTo p socket).map fun bound => bound.listener type).toList
  handler : ∀ socket type p, ((s.handlers socket type).property.toList ++
    (s.saved p socket type ++ s.saved p.other socket type)).Perm
      (((app socket type).2.map Listener.app).toList)

theorem filter_app (p : Participant) (handlers : List Nat) :
    (handlers.map Listener.app).filter (Listener.isOf p) = [] := by
  rw [List.filter_eq_nil_iff]
  intro listener mem
  obtain ⟨handler, _, rfl⟩ := List.mem_map.mp mem
  simp [Listener.isOf]

theorem tidy_init : Tidy target app (init app) where
  targets := by simp [boundTo, init, WebSocketTransport.new]
  owned := by simp [boundTo, init, WebSocketTransport.new]
  listeners := by simp [boundTo, init, WebSocketTransport.new, filter_app]
  handler := by simp [boundTo, saved, init, WebSocketTransport.new]

/-- Past `detach` the participant has no socket. -/
theorem detach_sockets_self (p : Participant) :
    (s.detach target p).transport.sockets p = none := by
  unfold RnSockets.detach
  cases bound : s.transport.sockets p with
  | none => exact bound
  | some bound => exact Function.update_self ..

omit [DecidableEq Socket] in
variable (target s) in
/-- A message touches the queues only. -/
theorem message_same (socket : Socket) (payload : Bytes) :
    (s.message target socket payload).handlers = s.handlers ∧
      (s.message target socket payload).transport.sockets = s.transport.sockets := by
  unfold message
  induction (s.handlers socket .message).called (target socket) generalizing s with
  | nil => exact ⟨rfl, rfl⟩
  | cons listener rest ih =>
      cases listener with
      | app handler => exact ih s
      | own p attachment => exact ih (onMessage payload s (.own p attachment))

omit [DecidableEq Socket] in
/-- Each of the transport's listeners that is called enqueues the payload. -/
theorem message_queues (socket : Socket) (payload : Bytes) (p : Participant) :
    (s.message target socket payload).transport.queues p.other = s.transport.queues p.other ++
      (((s.handlers socket .message).called (target socket)).filter (Listener.isOf p)).map
        fun _ => payload := by
  unfold message
  induction (s.handlers socket .message).called (target socket) generalizing s with
  | nil => simp
  | cons listener rest ih =>
      cases listener with
      | app handler => simpa [Listener.isOf, onMessage] using ih (s := s)
      | own q attachment =>
          have later := ih (s := onMessage payload s (.own q attachment))
          rw [List.foldl_cons, later]
          by_cases same : q = p
          · simp [onMessage, CoordinatorRn.onMessage, Listener.isOf, same]
          · have others : p.other ≠ q.other := by
              cases p <;> cases q <;> simp_all [Participant.other]
            simp [onMessage, CoordinatorRn.onMessage, Listener.isOf, same,
              WebSocketTransport.push_queues_of_ne _ others]

namespace Tidy

/-- The application has one handler at most, so there is nothing in the property while an
entry has saved one. -/
theorem single (tidy : Tidy target app s) {p : Participant} {socket : Socket}
    {bound : BoundSocket Socket} (found : s.boundTo p socket = some bound) (type : EventType) :
    (s.handlers socket type).property = none ∨ bound.original type = none := by
  have one := (tidy.handler socket type p).length_eq
  have most : ((app socket type).2.map Listener.app).toList.length ≤ 1 := by
    cases (app socket type).2 <;> simp
  simp only [List.length_append, saved, found, Option.bind_some] at one
  cases held : (s.handlers socket type).property with
  | none => exact .inl rfl
  | some listener =>
      cases kept : bound.original type with
      | none => exact .inr rfl
      | some original =>
          simp only [held, kept, Option.toList_some, List.length_singleton] at one
          omega

/-- The two participants' entries in either order. -/
theorem handler_of {socket : Socket} {type : EventType} {p : Participant}
    (h : ((s.handlers socket type).property.toList ++
      (s.saved p socket type ++ s.saved p.other socket type)).Perm
        (((app socket type).2.map Listener.app).toList)) (q : Participant) :
    ((s.handlers socket type).property.toList ++
      (s.saved q socket type ++ s.saved q.other socket type)).Perm
        (((app socket type).2.map Listener.app).toList) := by
  by_cases same : q = p
  · rwa [same]
  · have swapped : q = p.other ∧ q.other = p := by
      cases p <;> cases q <;> simp_all [Participant.other]
    rw [swapped.1, swapped.2] at *
    exact (List.perm_append_comm.append_left _).trans h

theorem detach (tidy : Tidy target app s) (p : Participant) :
    Tidy target app (s.detach target p) where
  targets q socket found := by
    by_cases same : q = p
    · simp [same] at found
    · rw [detach_boundTo_of_ne same] at found
      exact tidy.targets q socket found
  owned q socket bound found := by
    by_cases same : q = p
    · simp [same] at found
    · rw [detach_boundTo_of_ne same] at found
      exact tidy.owned q socket bound found
  listeners socket type q := by
    have before := tidy.listeners socket type q
    rw [detach_handlers]
    cases found : s.boundTo p socket with
    | none =>
        by_cases same : q = p
        · simpa [same, found] using before
        · rwa [detach_boundTo_of_ne same]
    | some bound =>
        have isTarget : target socket = true := tidy.targets p socket (by simp [found])
        have own := tidy.owned p socket bound found type q
        simp only [EventSource.restore_listeners, isTarget, EventSource.detachListener_target]
        rw [← List.erase_filter, before]
        by_cases same : q = p
        · simp [same, found]
        · rw [detach_boundTo_of_ne same, ← before]
          refine List.erase_of_not_mem ?_
          simp [own, Ne.symm same]
  handler socket type := by
    refine handler_of (p := p) ?_
    have before := tidy.handler socket type p
    have others : (s.detach target p).saved p.other socket type = s.saved p.other socket type := by
      unfold saved
      rw [detach_boundTo_of_ne (by cases p <;> simp [Participant.other])]
    have mine : (s.detach target p).saved p socket type = [] := by
      simp [saved]
    rw [others, mine, detach_handlers]
    cases found : s.boundTo p socket with
    | none => simpa [saved, found] using before
    | some bound =>
        have isTarget : target socket = true := tidy.targets p socket (by simp [found])
        have moved := EventSource.restore_perm
          ((s.handlers socket type).detachListener true (bound.listener type))
          (bound.original type) (tidy.single found type)
        have all := moved.append_right (s.saved p.other socket type)
        rw [List.append_assoc] at all
        refine List.Perm.trans ?_ before
        simpa [saved, found, isTarget] using all

theorem bind (tidy : Tidy target app s) {p : Participant} {socket : Socket}
    (unbound : s.transport.sockets p = none) (isTarget : target socket = true) :
    Tidy target app (bind target s p socket) where
  targets q on found := by
    by_cases same : q = p
    · rw [same, bind_boundTo_self] at found
      by_cases here : socket = on
      · rwa [← here]
      · simp [here] at found
    · rw [bind_boundTo_of_ne same] at found
      exact tidy.targets q on found
  owned q on bound found type r := by
    by_cases same : q = p
    · rw [same, bind_boundTo_self] at found
      by_cases here : socket = on
      · simp only [here, if_true, Option.some.injEq] at found
        simp [← found, same, Listener.isOf]
      · simp [here] at found
    · rw [bind_boundTo_of_ne same] at found
      exact tidy.owned q on bound found type r
  listeners on type q := by
    have before := tidy.listeners on type q
    by_cases here : on = socket
    · subst here
      rw [bind_handlers_self, isTarget]
      by_cases same : q = p
      · have empty : s.boundTo p on = none := by simp [boundTo, unbound]
        rw [same, empty] at before
        rw [same, bind_boundTo_self]
        simp [EventSource.clear, before, Listener.isOf]
      · rw [bind_boundTo_of_ne same, ← before]
        simp [EventSource.clear, Listener.isOf, Ne.symm same]
    · rw [bind_handlers_of_ne p here, before]
      by_cases same : q = p
      · rw [same, bind_boundTo_self, if_neg (Ne.symm here)]
        simp [boundTo, unbound]
      · rw [bind_boundTo_of_ne same]
  handler on type := by
    refine handler_of (p := p) ?_
    have before := tidy.handler on type p
    have empty : s.saved p on type = [] := by simp [saved, boundTo, unbound]
    have others : (RnSockets.bind target s p socket).saved p.other on type =
        s.saved p.other on type := by
      unfold saved
      rw [bind_boundTo_of_ne (by cases p <;> simp [Participant.other])]
    rw [empty] at before
    rw [others, saved, bind_boundTo_self]
    by_cases here : on = socket
    · subst here
      rw [bind_handlers_self, isTarget]
      simpa [EventSource.clear] using before
    · rw [bind_handlers_of_ne p here, if_neg (Ne.symm here)]
      simpa using before

theorem attach (tidy : Tidy target app s) (p : Participant) {socket : Socket}
    (isTarget : target socket = true) : Tidy target app (s.attach target p socket) :=
  (tidy.detach p).bind (detach_sockets_self p) isTarget

theorem close (tidy : Tidy target app s) (socket : Socket) :
    Tidy target app (s.close target socket) := by
  unfold RnSockets.close
  induction (s.handlers socket .close).called (target socket) generalizing s with
  | nil => exact tidy
  | cons listener rest ih =>
      cases listener with
      | app handler => exact ih tidy
      | own p attachment => exact ih (tidy.detach p)

theorem message (tidy : Tidy target app s) (socket : Socket) (payload : Bytes) :
    Tidy target app (s.message target socket payload) := by
  obtain ⟨handlers, sockets⟩ := message_same target s socket payload
  have bound (p : Participant) (on : Socket) :
      (s.message target socket payload).boundTo p on = s.boundTo p on := by
    simp only [boundTo, sockets]
  constructor
  · simpa only [bound] using tidy.targets
  · simpa only [bound] using tidy.owned
  · simpa only [bound, handlers] using tidy.listeners
  · simpa only [saved, bound, handlers] using tidy.handler

theorem step (tidy : Tidy target app s) {a : Action Socket} (ok : AttachesTargets target s a)
    {s' : RnSockets Socket} {es : List Empty}
    (h : (machine target app).step s a = some (s', es)) : Tidy target app s' := by
  cases a with
  | attach p socket =>
      cases h
      exact tidy.attach p ok
  | detach p =>
      cases h
      exact tidy.detach p
  | message socket payload =>
      cases h
      exact tidy.message socket payload
  | close socket =>
      cases h
      exact tidy.close socket

/-- The transport's own listeners that a message calls. -/
theorem called (tidy : Tidy target app s) (socket : Socket) (p : Participant) :
    ((s.handlers socket .message).called (target socket)).filter (Listener.isOf p) =
      ((s.boundTo p socket).map fun bound => bound.listener .message).toList := by
  have property : (s.handlers socket .message).property.toList.filter (Listener.isOf p) = [] := by
    rw [List.filter_eq_nil_iff]
    intro listener mem
    have shown := (tidy.handler socket .message p).subset (List.mem_append_left _ mem)
    obtain ⟨handler, _, rfl⟩ :
        ∃ n, (app socket .message).2 = some n ∧ Listener.app n = listener := by
      simpa using shown
    simp [Listener.isOf]
  unfold EventSource.called
  rw [List.filter_append, property, List.append_nil]
  by_cases isTarget : target socket = true
  · rw [if_pos isTarget, tidy.listeners]
  · have unbound : s.boundTo p socket = none := by
      cases found : s.boundTo p socket with
      | none => rfl
      | some bound => exact (isTarget (tidy.targets p socket (by simp [found]))).elim
    simp [isTarget, unbound]

theorem consistent (tidy : Tidy target app s) : Consistent target app s where
  enqueues socket payload p := by
    rw [message_queues, tidy.called]
    congr 1
    by_cases attached : s.Attached p socket
    · obtain ⟨bound, found⟩ := Option.isSome_iff_exists.mp (attached_iff.mp attached)
      simp [found, attached]
    · have unbound : s.boundTo p socket = none := by
        simpa using fun h => attached (attached_iff.mpr h)
      simp [unbound, attached]
  restores socket unattached type := by
    have unsaved (p : Participant) : s.saved p socket type = [] := by
      have unbound : s.boundTo p socket = none := by
        simpa using fun h => unattached p (attached_iff.mpr h)
      simp [saved, unbound]
    have same := tidy.handler socket type .device
    rw [unsaved, unsaved, List.append_nil, List.append_nil] at same
    cases held : (app socket type).2 with
    | none => simpa [held] using same
    | some handler => simpa [held] using same

end Tidy

/-- A socket without `addEventListener` has lost its listener as soon as it is attached. -/
theorem attach_property (p : Participant) {socket : Socket} (plain : target socket ≠ true) :
    ¬ Consistent target app (s.attach target p socket) := by
  intro consistent
  have silent : ((s.attach target p socket).handlers socket .message).called (target socket) =
      [] := by
    unfold RnSockets.attach
    rw [bind_handlers_self]
    simp [EventSource.called, EventSource.clear, plain]
  have attached : (s.attach target p socket).Attached p socket :=
    ⟨_, Function.update_self .., rfl⟩
  have enqueued := consistent.enqueues socket [] p
  rw [if_pos attached] at enqueued
  unfold RnSockets.message at enqueued
  rw [silent] at enqueued
  simp at enqueued

/-! ## Every run -/

/-- All is consistent throughout a run exactly as long as every socket that is attached has
`addEventListener` and `removeEventListener`. -/
theorem sockets_consistent_iff (target : Socket → Bool)
    (app : Socket → EventType → List Nat × Option Nat)
    {taken : List (RnSockets Socket × Action Socket)} {es : List Empty} {s : RnSockets Socket}
    (run : (machine target app).Run taken es s) :
    Machine.Throughout (Consistent target app) taken s ↔
      Machine.Meets (AttachesTargets target) taken := by
  refine run.throughout_iff (AttachesTargets target) (Consistent target app)
    tidy_init.consistent ?_
  intro taken es s a s' emitted run meets _ hstep
  have tidy : Tidy target app s :=
    run.guarded_invariant (AttachesTargets target) (fun _ => Tidy target app) tidy_init
      (fun before ok h => before.step ok h) meets
  constructor
  · intro consistent
    cases a with
    | attach p socket =>
        by_contra plain
        cases hstep
        exact attach_property p plain consistent
    | _ => trivial
  · intro ok
    exact (tidy.step ok hstep).consistent

/-! ## A socket with properties only -/

/-- Detaching such a socket gives it the transport's own listener for a handler. -/
theorem detach_attach_property (p : Participant) {socket : Socket} (plain : target socket ≠ true)
    (type : EventType) :
    (((s.attach target p socket).detach target p).handlers socket type).property =
      some (.own p (s.detach target p).attachments) := by
  unfold RnSockets.attach
  rw [detach_handlers, bind_boundTo_self, if_pos rfl]
  simp [EventSource.attachListener, EventSource.restore, plain]

/-- Neither its messages nor its handlers survive. -/
theorem property_socket_inconsistent :
    ¬ ∀ (target : ℕ → Bool) (app : ℕ → EventType → List ℕ × Option ℕ) taken es s,
      (machine target app).Run taken es s → Consistent target app s := by
  intro consistent
  have attached : (machine (fun _ => false) fun _ _ => ([], some 7)).Run
      [(init fun _ _ => ([], some 7), Action.attach .device 0)] [] _ := .next .start rfl
  have enqueued := (consistent _ _ _ _ _ attached).enqueues 0 [1] .device
  revert enqueued
  decide

/-- A socket with listeners is attached, gets a message and is detached. -/
theorem sockets_consistent_iff_target :
    Machine.Throughout (Consistent (fun _ => true) fun (_ : ℕ) _ => ([], some 7))
      [(init fun _ _ => ([], some 7), Action.attach .device 0)]
      ((init fun _ _ => ([], some 7)).attach (fun _ => true) .device 0) := by
  have attached : (machine (fun _ => true) fun (_ : ℕ) _ => ([], some 7)).Run
      [(init fun _ _ => ([], some 7), Action.attach .device 0)] [] _ := .next .start rfl
  refine (sockets_consistent_iff _ _ attached).mpr ?_
  rintro _ (_ | ⟨_, ⟨⟩⟩)
  rfl

end RnSockets

end MaanyMpc
