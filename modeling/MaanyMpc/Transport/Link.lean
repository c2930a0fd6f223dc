import MaanyMpc.Library.Transition
import MaanyMpc.Transport.WebSocket

/-! # The two transports on one connection

The device connects with a participant of its choice, the server registers the socket as the
device's. Both sockets stay open, the network keeps the order of the frames, and no frame is a
control message: the control handler of the server then answers after the same number of turns
for every frame, so that the handlers push in the order in which they were called. -/

namespace MaanyMpc

structure Link where
  rn : WebSocketTransport Unit
  node : WebSocketTransport Unit
  /-- frames from the device to the server -/
  up : List Bytes
  /-- frames at the server whose handler waits for the control handler -/
  handling : List Bytes
  /-- frames from the server to the device -/
  down : List Bytes

namespace Link

inductive Action where
  | deviceSend (payload : Bytes)
  | serverSend (payload : Bytes)
  | arriveAtServer
  | handleAtServer
  | arriveAtDevice
  | serverReceive
  | deviceReceive

/-- What the parties see: their calls and results, and the frames that reach the device. -/
inductive Event where
  | deviceSent (payload : Bytes)
  | deviceThrew (payload : Bytes) (message : String)
  | serverSent (payload : Bytes)
  | reachedDevice (payload : Bytes)
  | serverReceived (payload : Option Bytes)
  | deviceReceived (payload : Option Bytes)
  deriving DecidableEq

def isOpen (_ : Unit) : Bool := true

/-- Messages are addressed as `runDkg` addresses them: to the server by the device, to the
device by the server. -/
def step (participant : Option Participant) (s : Link) : Action → Option (Link × List Event)
  | .deviceSend payload =>
    match CoordinatorRn.send isOpen s.rn ⟨.server, payload⟩ with
    | .ok (_, frame) => some ({ s with up := s.up ++ [frame] }, [.deviceSent payload])
    | .error message => some (s, [.deviceThrew payload message])
  | .serverSend payload =>
    match CoordinatorNode.send isOpen s.node ⟨.device, payload⟩ with
    | (some (_, frame), node) =>
      some ({ s with node, down := s.down ++ [frame] }, [.serverSent payload])
    | (none, node) => some ({ s with node }, [.serverSent payload])
  | .arriveAtServer =>
    match s.up with
    | [] => none
    | frame :: up => some ({ s with up, handling := s.handling ++ [frame] }, [])
  | .handleAtServer =>
    match s.handling with
    | [] => none
    | frame :: handling =>
      some ({ s with handling, node := CoordinatorNode.onMessage .device s.node frame }, [])
  | .arriveAtDevice =>
    match s.down with
    | [] => none
    | frame :: down =>
      let rn := CoordinatorRn.onMessage (CoordinatorRn.connectParticipant participant) s.rn frame
      some ({ s with down, rn }, [.reachedDevice frame])
  | .serverReceive =>
    let (payload, node) := s.node.receive .server
    some ({ s with node }, [.serverReceived payload])
  | .deviceReceive =>
    let (payload, rn) := s.rn.receive .device
    some ({ s with rn }, [.deviceReceived payload])

/-- `connect` on the device and `setSocket` on the server. -/
def machine (participant : Option Participant) :
    Transition.Machine Link Action Event where
  init := { rn := CoordinatorRn.connect .new participant (),
            node := CoordinatorNode.setSocket .new .device (), up := [], handling := [],
            down := [] }
  step := step participant

/-! ## What the parties see -/

/-- A payload that was passed to `send`, whether or not that threw. -/
def Event.deviceSent? : Event → Option Bytes
  | .deviceSent payload => some payload
  | .deviceThrew payload _ => some payload
  | _ => none

def Event.serverSent? : Event → Option Bytes
  | .serverSent payload => some payload
  | _ => none

def Event.reachedDevice? : Event → Option Bytes
  | .reachedDevice payload => some payload
  | _ => none

def Event.serverReceived? : Event → Option Bytes
  | .serverReceived payload => payload
  | _ => none

def Event.deviceReceived? : Event → Option Bytes
  | .deviceReceived payload => payload
  | _ => none

/-- Payloads that the device passed to `send`, and those that the server received. -/
def sentUp (es : List Event) : List Bytes := es.filterMap Event.deviceSent?
def receivedUp (es : List Event) : List Bytes := es.filterMap Event.serverReceived?

/-- Payloads that the server passed to `send`, those that reached the device as frames, and
those that it received. -/
def sentDown (es : List Event) : List Bytes := es.filterMap Event.serverSent?
def reachedDevice (es : List Event) : List Bytes := es.filterMap Event.reachedDevice?
def receivedDown (es : List Event) : List Bytes := es.filterMap Event.deviceReceived?

/-- What is still to come out of `receive('server')`. -/
def upTransit (s : Link) : List Bytes := s.node.queues .server ++ s.handling ++ s.up

/-- What is still to come out of `receive('device')`. -/
def downTransit (s : Link) : List Bytes := s.rn.queues .device ++ s.down

/-- What was sent has been received or is under way, in order, in either direction. -/
structure Accounted (es : List Event) (s : Link) : Prop where
  up : receivedUp es ++ s.upTransit = sentUp es
  down : receivedDown es ++ s.downTransit = sentDown es

/-- Neither party sends anything. -/
def Silent (es : List Event) : Prop :=
  ∀ e ∈ es, e.deviceSent? = none ∧ e.serverSent? = none

/-- Nothing is lost, doubled or out of order, and everything can still be received. -/
structure TwoWayFifo (participant : Option Participant) (taken : List (Link × Action))
    (es : List Event) (s : Link) : Prop extends Accounted es s where
  drains : ∃ more emitted s', (machine participant).Run (taken ++ more) (es ++ emitted) s' ∧
    Silent emitted ∧ receivedUp (es ++ emitted) = sentUp es ∧
    receivedDown (es ++ emitted) = sentDown es

/-! ## One step -/

/-- The sockets are those of `connect` and `setSocket`. -/
structure Wired (participant : Option Participant) (s : Link) : Prop where
  rn : s.rn.sockets = Function.update (fun _ => none)
    (CoordinatorRn.connectParticipant participant) (some ())
  node : s.node.sockets .device = some ()

/-- The things a step can do on open sockets. -/
inductive Effect (participant : Option Participant) (s : Link) : Link → List Event → Prop where
  | deviceSent (payload : Bytes) (named : CoordinatorRn.connectParticipant participant = .server) :
      Effect participant s { s with up := s.up ++ [payload] } [.deviceSent payload]
  | deviceThrew (payload : Bytes)
      (named : CoordinatorRn.connectParticipant participant = .device) (message : String) :
      Effect participant s s [.deviceThrew payload message]
  | serverSent (payload : Bytes) :
      Effect participant s { s with down := s.down ++ [payload] } [.serverSent payload]
  | arrivedAtServer (frame : Bytes) (up : List Bytes) (wire : s.up = frame :: up) :
      Effect participant s { s with up, handling := s.handling ++ [frame] } []
  | handledAtServer (frame : Bytes) (handling : List Bytes)
      (waiting : s.handling = frame :: handling) :
      Effect participant s { s with handling, node := s.node.push .server frame } []
  | arrivedAtDevice (frame : Bytes) (down : List Bytes) (wire : s.down = frame :: down) :
      Effect participant s
        { s with down, rn := s.rn.push (CoordinatorRn.connectParticipant participant).other frame }
        [.reachedDevice frame]
  | serverReceived :
      Effect participant s { s with node := (s.node.receive .server).2 }
        [.serverReceived (s.node.receive .server).1]
  | deviceReceived :
      Effect participant s { s with rn := (s.rn.receive .device).2 }
        [.deviceReceived (s.rn.receive .device).1]

variable {participant : Option Participant} {s s' : Link} {a : Action} {es emitted : List Event}

theorem Wired.effect (wired : Wired participant s)
    (h : step participant s a = some (s', emitted)) : Effect participant s s' emitted := by
  cases a with
  | deviceSend payload =>
      cases named : CoordinatorRn.connectParticipant participant with
      | device =>
          have missing : s.rn.sockets .server = none := by
            rw [wired.rn, named, Function.update_of_ne (by decide)]
          simp only [step, CoordinatorRn.send, missing] at h
          obtain ⟨rfl, rfl⟩ := Prod.mk.inj (Option.some.inj h)
          exact .deviceThrew payload named _
      | server =>
          have found : s.rn.sockets .server = some () := by
            rw [wired.rn, named, Function.update_self]
          simp only [step, CoordinatorRn.send, found, isOpen, if_true] at h
          obtain ⟨rfl, rfl⟩ := Prod.mk.inj (Option.some.inj h)
          exact .deviceSent payload named
  | serverSend payload =>
      simp only [step, CoordinatorNode.send, wired.node, isOpen, if_true] at h
      obtain ⟨rfl, rfl⟩ := Prod.mk.inj (Option.some.inj h)
      exact .serverSent payload
  | arriveAtServer =>
      simp only [step] at h
      split at h
      · cases h
      next frame up wire =>
        obtain ⟨rfl, rfl⟩ := Prod.mk.inj (Option.some.inj h)
        exact .arrivedAtServer frame up wire
  | handleAtServer =>
      simp only [step] at h
      split at h
      · cases h
      next frame handling waiting =>
        obtain ⟨rfl, rfl⟩ := Prod.mk.inj (Option.some.inj h)
        exact .handledAtServer frame handling waiting
  | arriveAtDevice =>
      simp only [step] at h
      split at h
      · cases h
      next frame down wire =>
        obtain ⟨rfl, rfl⟩ := Prod.mk.inj (Option.some.inj h)
        exact .arrivedAtDevice frame down wire
  | serverReceive =>
      obtain ⟨rfl, rfl⟩ := Prod.mk.inj (Option.some.inj h)
      exact .serverReceived
  | deviceReceive =>
      obtain ⟨rfl, rfl⟩ := Prod.mk.inj (Option.some.inj h)
      exact .deviceReceived

theorem Wired.step (wired : Wired participant s)
    (h : Link.step participant s a = some (s', emitted)) : Wired participant s' := by
  cases wired.effect h with
  | deviceSent | deviceThrew | serverSent | arrivedAtServer => exact ⟨wired.rn, wired.node⟩
  | handledAtServer | arrivedAtDevice => exact ⟨wired.rn, wired.node⟩
  | serverReceived => exact ⟨wired.rn, by rw [WebSocketTransport.receive_sockets, wired.node]⟩
  | deviceReceived => exact ⟨by rw [WebSocketTransport.receive_sockets, wired.rn], wired.node⟩

/-! ## Connected as the server -/

theorem filterMap_singleton (f : Event → Option Bytes) (e : Event) :
    [e].filterMap f = (f e).toList := by
  cases h : f e with
  | none => simp [h]
  | some payload => simp [h]

@[simp] theorem sentUp_append (es : List Event) (e : Event) :
    sentUp (es ++ [e]) = sentUp es ++ e.deviceSent?.toList := by
  rw [sentUp, List.filterMap_append, filterMap_singleton, sentUp]

@[simp] theorem receivedUp_append (es : List Event) (e : Event) :
    receivedUp (es ++ [e]) = receivedUp es ++ e.serverReceived?.toList := by
  rw [receivedUp, List.filterMap_append, filterMap_singleton, receivedUp]

@[simp] theorem sentDown_append (es : List Event) (e : Event) :
    sentDown (es ++ [e]) = sentDown es ++ e.serverSent?.toList := by
  rw [sentDown, List.filterMap_append, filterMap_singleton, sentDown]

@[simp] theorem reachedDevice_append (es : List Event) (e : Event) :
    reachedDevice (es ++ [e]) = reachedDevice es ++ e.reachedDevice?.toList := by
  rw [reachedDevice, List.filterMap_append, filterMap_singleton, reachedDevice]

@[simp] theorem receivedDown_append (es : List Event) (e : Event) :
    receivedDown (es ++ [e]) = receivedDown es ++ e.deviceReceived?.toList := by
  rw [receivedDown, List.filterMap_append, filterMap_singleton, receivedDown]

/-- Each step moves a payload one stage on, or leaves a direction alone. -/
theorem Accounted.step (named : CoordinatorRn.connectParticipant participant = .server)
    (accounted : Accounted es s) (h : Effect participant s s' emitted) :
    Accounted (es ++ emitted) s' := by
  have up : receivedUp es ++ s.upTransit = sentUp es := accounted.up
  have down : receivedDown es ++ s.downTransit = sentDown es := accounted.down
  cases h with
  | deviceSent payload =>
      refine ⟨?_, ?_⟩
      · simp [Event.deviceSent?, Event.serverReceived?, upTransit, ← up]
      · simpa [Event.serverSent?, Event.deviceReceived?, downTransit] using down
  | deviceThrew payload device =>
      rw [named] at device
      cases device
  | serverSent payload =>
      refine ⟨?_, ?_⟩
      · simpa [Event.deviceSent?, Event.serverReceived?, upTransit] using up
      · simp [Event.serverSent?, Event.deviceReceived?, downTransit, ← down]
  | arrivedAtServer frame rest wire =>
      refine ⟨?_, ?_⟩
      · simpa [upTransit, wire] using up
      · simpa [downTransit] using down
  | handledAtServer frame rest waiting =>
      refine ⟨?_, ?_⟩
      · simpa [upTransit, waiting] using up
      · simpa [downTransit] using down
  | arrivedAtDevice frame rest wire =>
      refine ⟨?_, ?_⟩
      · simpa [Event.deviceSent?, Event.serverReceived?, upTransit] using up
      · simpa [Event.serverSent?, Event.deviceReceived?, downTransit, named, Participant.other,
          wire] using down
  | serverReceived =>
      have queue := s.node.receive_queues_self .server
      refine ⟨?_, ?_⟩
      · simpa [Event.deviceSent?, Event.serverReceived?, upTransit, queue] using up
      · simpa [Event.serverSent?, Event.deviceReceived?, downTransit] using down
  | deviceReceived =>
      have queue := s.rn.receive_queues_self .device
      refine ⟨?_, ?_⟩
      · simpa [Event.deviceSent?, Event.serverReceived?, upTransit] using up
      · simpa [Event.serverSent?, Event.deviceReceived?, downTransit, queue] using down

/-! ## Connected as the device -/

/-- Nothing ever enters the way up, and what reaches the device goes to a queue that it does
not read. -/
structure Deaf (es : List Event) (s : Link) : Prop where
  up : s.upTransit = []
  receivedUp : Link.receivedUp es = []
  queue : s.rn.queues .device = []
  receivedDown : Link.receivedDown es = []
  down : reachedDevice es ++ s.down = sentDown es

theorem Deaf.step (named : CoordinatorRn.connectParticipant participant = .device)
    (deaf : Deaf es s) (h : Effect participant s s' emitted) : Deaf (es ++ emitted) s' := by
  obtain ⟨up, receivedUp, queue, receivedDown, down⟩ := deaf
  simp only [upTransit, List.append_eq_nil_iff] at up
  obtain ⟨⟨serverQueue, handling⟩, wire⟩ := up
  cases h with
  | deviceSent payload server =>
      rw [named] at server
      cases server
  | deviceThrew payload device message =>
      refine ⟨?_, ?_, queue, ?_, ?_⟩
      · simp [upTransit, serverQueue, handling, wire]
      · simp [Event.serverReceived?, receivedUp]
      · simp [Event.deviceReceived?, receivedDown]
      · simp [Event.reachedDevice?, Event.serverSent?, down]
  | serverSent payload =>
      refine ⟨?_, ?_, queue, ?_, ?_⟩
      · simp [upTransit, serverQueue, handling, wire]
      · simp [Event.serverReceived?, receivedUp]
      · simp [Event.deviceReceived?, receivedDown]
      · simp [Event.reachedDevice?, Event.serverSent?, ← down]
  | arrivedAtServer frame rest full =>
      rw [wire] at full
      cases full
  | handledAtServer frame rest waiting =>
      rw [handling] at waiting
      cases waiting
  | arrivedAtDevice frame rest full =>
      refine ⟨?_, ?_, ?_, ?_, ?_⟩
      · simp [upTransit, serverQueue, handling, wire]
      · simp [Event.serverReceived?, receivedUp]
      · rw [named, Participant.other, WebSocketTransport.push_queues_of_ne _ (by decide), queue]
      · simp [Event.deviceReceived?, receivedDown]
      · simp [Event.reachedDevice?, Event.serverSent?, ← down, full]
  | serverReceived =>
      have empty := s.node.receive_queues_self .server
      rw [serverQueue] at empty
      obtain ⟨nothing, left⟩ := List.append_eq_nil_iff.mp empty.symm
      refine ⟨?_, ?_, queue, ?_, ?_⟩
      · simp [upTransit, left, handling, wire]
      · simp [Event.serverReceived?, receivedUp, Option.toList_eq_nil_iff.mp nothing]
      · simp [Event.deviceReceived?, receivedDown]
      · simp [Event.reachedDevice?, Event.serverSent?, down]
  | deviceReceived =>
      have empty := s.rn.receive_queues_self .device
      rw [queue] at empty
      obtain ⟨nothing, left⟩ := List.append_eq_nil_iff.mp empty.symm
      refine ⟨?_, ?_, left, ?_, ?_⟩
      · simp [upTransit, serverQueue, handling, wire]
      · simp [Event.serverReceived?, receivedUp]
      · simp [Event.deviceReceived?, receivedDown, Option.toList_eq_nil_iff.mp nothing]
      · simp [Event.reachedDevice?, Event.serverSent?, down]

/-- As long as the server has sent nothing, and the device neither, there is nothing to lose. -/
theorem Deaf.accounted (deaf : Deaf es s) (noneUp : sentUp es = []) (noneDown : sentDown es = []) :
    Accounted es s := by
  have wire : s.down = [] := by
    have down := deaf.down
    rw [noneDown, List.append_eq_nil_iff] at down
    exact down.2
  refine ⟨?_, ?_⟩
  · rw [deaf.receivedUp, deaf.up, noneUp, List.append_nil]
  · rw [deaf.receivedDown, downTransit, deaf.queue, wire, noneDown]
    rfl

/-! ## Whole runs -/

theorem run_accounted {taken : List (Link × Action)}
    (run : (machine participant).Run taken es s)
    (named : CoordinatorRn.connectParticipant participant = .server) : Accounted es s := by
  have both : Wired participant s ∧ Accounted es s :=
    run.invariant (fun es s => Wired participant s ∧ Accounted es s)
      ⟨⟨rfl, rfl⟩, ⟨rfl, rfl⟩⟩
      fun h hstep => ⟨h.1.step hstep, h.2.step named (h.1.effect hstep)⟩
  exact both.2

theorem run_deaf {taken : List (Link × Action)} (run : (machine participant).Run taken es s)
    (named : CoordinatorRn.connectParticipant participant = .device) : Deaf es s := by
  have both : Wired participant s ∧ Deaf es s :=
    run.invariant (fun es s => Wired participant s ∧ Deaf es s)
      ⟨⟨rfl, rfl⟩, ⟨rfl, rfl, rfl, rfl, rfl⟩⟩
      fun h hstep => ⟨h.1.step hstep, h.2.step named (h.1.effect hstep)⟩
  exact both.2

/-! ## What is under way comes out -/

/-- The steps that are still needed until nothing is under way. -/
def backlog (s : Link) : Nat :=
  3 * s.up.length + 2 * s.handling.length + (s.node.queues .server).length +
    (2 * s.down.length + (s.rn.queues .device).length)

theorem Silent.sentUp_eq (silent : Silent emitted) : sentUp (es ++ emitted) = sentUp es := by
  have nothing : emitted.filterMap Event.deviceSent? = [] :=
    List.filterMap_eq_nil_iff.mpr fun e mem => (silent e mem).1
  rw [sentUp, List.filterMap_append, nothing, List.append_nil, sentUp]

theorem Silent.sentDown_eq (silent : Silent emitted) : sentDown (es ++ emitted) = sentDown es := by
  have nothing : emitted.filterMap Event.serverSent? = [] :=
    List.filterMap_eq_nil_iff.mpr fun e mem => (silent e mem).2
  rw [sentDown, List.filterMap_append, nothing, List.append_nil, sentDown]

/-- As long as something is under way, the network or a receiver can take the next step. -/
theorem exists_step_of_backlog (participant : Option Participant) {s : Link}
    (busy : s.backlog ≠ 0) :
    ∃ a s' emitted, step participant s a = some (s', emitted) ∧ Silent emitted ∧
      s'.backlog < s.backlog := by
  cases up : s.up with
  | cons frame rest =>
      refine ⟨.arriveAtServer, _, _, by rw [step, up], by simp [Silent], ?_⟩
      simp only [backlog, up, List.length_append, List.length_cons, List.length_nil]
      omega
  | nil =>
  cases handling : s.handling with
  | cons frame rest =>
      refine ⟨.handleAtServer, _, _, by rw [step, handling], by simp [Silent], ?_⟩
      simp only [backlog, CoordinatorNode.onMessage, Participant.other, handling,
        WebSocketTransport.push_queues_self, List.length_append, List.length_cons, List.length_nil]
      omega
  | nil =>
  by_cases queue : s.node.queues .server = []
  · cases down : s.down with
    | cons frame rest =>
        refine ⟨.arriveAtDevice, _, _, by rw [step, down],
          by simp [Silent, Event.deviceSent?, Event.serverSent?], ?_⟩
        have grows := s.rn.length_push_le .device
          (CoordinatorRn.connectParticipant participant).other frame
        simp only [backlog, CoordinatorRn.onMessage, down, List.length_cons]
        omega
    | nil =>
        have inbox : s.rn.queues .device ≠ [] := by
          intro empty
          simp [backlog, up, handling, queue, down, empty] at busy
        have shrinks := s.rn.receive_queues_length_lt inbox
        refine ⟨.deviceReceive, { s with rn := (s.rn.receive .device).2 }, _, rfl,
          by simp [Silent, Event.deviceSent?, Event.serverSent?], ?_⟩
        simp only [backlog]
        omega
  · have shrinks := s.node.receive_queues_length_lt queue
    refine ⟨.serverReceive, { s with node := (s.node.receive .server).2 }, _, rfl,
      by simp [Silent, Event.deviceSent?, Event.serverSent?], ?_⟩
    simp only [backlog]
    omega

/-- When a device that is connected as the server and its server stop sending, they have
received everything from each other after finitely many steps. -/
theorem run_drains {taken : List (Link × Action)} (run : (machine participant).Run taken es s)
    (named : CoordinatorRn.connectParticipant participant = .server) :
    ∃ more emitted s', (machine participant).Run (taken ++ more) (es ++ emitted) s' ∧
      Silent emitted ∧ receivedUp (es ++ emitted) = sentUp es ∧
      receivedDown (es ++ emitted) = sentDown es := by
  induction size : s.backlog using Nat.strong_induction_on generalizing taken es s with
  | _ size ih =>
      by_cases done : s.backlog = 0
      · have accounted := run_accounted run named
        simp only [backlog, Nat.add_eq_zero_iff, Nat.mul_eq_zero, List.length_eq_zero_iff] at done
        have up : s.upTransit = [] := by simp_all [upTransit]
        have down : s.downTransit = [] := by simp_all [downTransit]
        refine ⟨[], [], s, by rwa [List.append_nil, List.append_nil], by simp [Silent], ?_, ?_⟩
        · rw [List.append_nil, ← accounted.up, up, List.append_nil]
        · rw [List.append_nil, ← accounted.down, down, List.append_nil]
      · obtain ⟨a, s₁, first, hstep, quiet, less⟩ := exists_step_of_backlog participant done
        obtain ⟨more, rest, s₂, run', silent, up, down⟩ :=
          ih s₁.backlog (size ▸ less) (run.next hstep) rfl
        rw [List.append_assoc] at up down
        rw [List.append_assoc, List.append_assoc] at run'
        rw [quiet.sentUp_eq] at up
        rw [quiet.sentDown_eq] at down
        refine ⟨_, first ++ rest, s₂, run', ?_, up, down⟩
        intro e mem
        rcases List.mem_append.mp mem with mem | mem
        · exact quiet e mem
        · exact silent e mem

/-- In every run the two transports are a channel in both directions if and only if the
device has connected as the server, or nothing has been sent. -/
theorem twoWayFifo_iff {taken : List (Link × Action)}
    (run : (machine participant).Run taken es s) :
    TwoWayFifo participant taken es s ↔
      participant = some .server ∨ (sentUp es = [] ∧ sentDown es = []) := by
  have resolved : CoordinatorRn.connectParticipant participant = .server ↔
      participant = some .server := by
    cases participant with
    | none => simp [CoordinatorRn.connectParticipant]
    | some p => simp [CoordinatorRn.connectParticipant]
  cases named : CoordinatorRn.connectParticipant participant with
  | server =>
      have fifo : TwoWayFifo participant taken es s :=
        ⟨run_accounted run named, run_drains run named⟩
      simp only [fifo, true_iff]
      exact .inl (resolved.mp named)
  | device =>
      have other : participant ≠ some .server := by
        intro server
        rw [resolved.mpr server] at named
        cases named
      simp only [other, false_or]
      constructor
      · intro fifo
        obtain ⟨more, emitted, s', run', _, up, down⟩ := fifo.drains
        have deaf := run_deaf run' named
        exact ⟨by rw [← up, deaf.receivedUp], by rw [← down, deaf.receivedDown]⟩
      · rintro ⟨noneUp, noneDown⟩
        have deaf := run_deaf run named
        refine ⟨deaf.accounted noneUp noneDown, [], [], s, ?_, by simp [Silent], ?_, ?_⟩
        · rwa [List.append_nil, List.append_nil]
        · rw [List.append_nil, deaf.receivedUp, noneUp]
        · rw [List.append_nil, deaf.receivedDown, noneDown]

/-- The device connects as the server: a payload in each direction. -/
theorem twoWayFifo_iff_server : ∃ taken s,
    (machine (some .server)).Run taken [.deviceSent [1], .serverSent [2], .reachedDevice [2],
      .serverReceived (some [1]), .deviceReceived (some [2])] s ∧
    TwoWayFifo (some .server) taken [.deviceSent [1], .serverSent [2], .reachedDevice [2],
      .serverReceived (some [1]), .deviceReceived (some [2])] s := by
  obtain ⟨taken, s, run, _⟩ := Transition.Machine.run_of_trace
    (show ((machine (some .server)).trace (fun _ _ => True) (machine (some .server)).init
      [.deviceSend [1], .serverSend [2], .arriveAtServer, .handleAtServer, .arriveAtDevice,
        .serverReceive, .deviceReceive]).map Prod.fst = some [.deviceSent [1], .serverSent [2],
          .reachedDevice [2], .serverReceived (some [1]), .deviceReceived (some [2])] from rfl)
  exact ⟨taken, s, run, (twoWayFifo_iff run).mpr (.inl rfl)⟩

/-- With the default participant the first message of the device is refused, and the message
of the server is not among those that the device receives. -/
theorem default_participant_loses : ∃ taken s,
    (machine none).Run taken [.deviceThrew [1] "No WebSocket attached for participant server",
      .serverSent [2], .reachedDevice [2], .deviceReceived none] s ∧
    s.upTransit = [] ∧ s.downTransit = [] ∧
    ¬ TwoWayFifo none taken [.deviceThrew [1] "No WebSocket attached for participant server",
      .serverSent [2], .reachedDevice [2], .deviceReceived none] s := by
  obtain ⟨taken, run, _⟩ := Transition.Machine.reach_of_trace
    (show (machine none).trace (fun _ _ => True) (machine none).init
      [.deviceSend [1], .serverSend [2], .arriveAtDevice, .deviceReceive] =
      some ([.deviceThrew [1] "No WebSocket attached for participant server", .serverSent [2],
        .reachedDevice [2], .deviceReceived none], _) from rfl)
  refine ⟨taken, _, run, rfl, rfl, ?_⟩
  intro fifo
  exact absurd fifo.up (by decide)

end Link

end MaanyMpc
