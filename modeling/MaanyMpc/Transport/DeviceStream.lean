import MaanyMpc.Transport.NodeSockets

/-! # What the device is sent

`send` writes to the device's socket if there is an open one and queues the payload
otherwise. Nothing ever writes that queue to a socket, so a payload that was queued stays
behind while later ones are written. -/

namespace MaanyMpc

open Transition

namespace NodeSockets

variable {Socket : Type}

/-- There is an open socket for the participant. -/
def Connected (s : NodeSockets Socket) (participant : Participant) : Prop :=
  ∃ socket, s.transport.sockets participant = some socket ∧ s.isOpen socket = true

/-- The payloads passed to `send` beyond the number of those written. -/
def unwritten (s : NodeSockets Socket) (participant : Participant) : List Bytes :=
  (s.sent participant).drop (s.written participant).length

/-- The writes to the participant's sockets, in order, are the first of the payloads passed to
`send`. -/
def GapFree (participant : Participant) (s : NodeSockets Socket) : Prop :=
  s.written participant <+: s.sent participant

/-- A payload is sent over an open socket only if no earlier one is unwritten, or if it is the
same as the first of these. -/
def SendsNext (participant : Participant) (s : NodeSockets Socket) : Action Socket → Prop
  | .send message => message.participant = participant → s.Connected participant →
      ∀ payload, (s.unwritten participant).head? = some payload → payload = message.payload
  | _ => True

/-- A prefix extended by an element together with the whole list. -/
theorem append_prefix_append_iff {α : Type} {front whole : List α} (x : α)
    (h : front <+: whole) :
    front ++ [x] <+: whole ++ [x] ↔ ∀ y, (whole.drop front.length).head? = some y → y = x := by
  obtain ⟨rest, rfl⟩ := h
  rw [List.append_assoc, List.prefix_append_right_inj, List.drop_left]
  cases rest with
  | nil => simp
  | cons y rest => simp [eq_comm]

/-- The two ways of `send`. -/
theorem send_cases (s : NodeSockets Socket) (message : TransportMessage) :
    (s.send message).1.sent = Function.update s.sent message.participant
        (s.sent message.participant ++ [message.payload]) ∧
      (s.Connected message.participant ∧
          (s.send message).1.written = Function.update s.written message.participant
            (s.written message.participant ++ [message.payload]) ∨
        ¬ s.Connected message.participant ∧ (s.send message).1.written = s.written) := by
  unfold send CoordinatorNode.send
  cases bound : s.transport.sockets message.participant with
  | none => exact ⟨rfl, .inr ⟨by simp [Connected, bound], rfl⟩⟩
  | some socket =>
      by_cases isOpen : s.isOpen socket = true
      · simp [isOpen, Connected, bound]
      · simp [isOpen, Connected, bound]

variable {s : NodeSockets Socket} {p : Participant}

/-- A `send` leaves no gap exactly if it sends the next payload. -/
theorem send_gapFree_iff (before : GapFree p s) (message : TransportMessage) :
    GapFree p (s.send message).1 ↔ SendsNext p s (.send message) := by
  obtain ⟨sent, written⟩ := s.send_cases message
  unfold GapFree SendsNext
  rw [sent]
  by_cases mine : message.participant = p
  · subst mine
    rcases written with ⟨connected, written⟩ | ⟨disconnected, written⟩
    · rw [written]
      simp only [Function.update_self, connected, true_imp_iff]
      exact append_prefix_append_iff message.payload before
    · rw [written]
      simp only [Function.update_self, disconnected, false_imp_iff, imp_true_iff, iff_true]
      exact List.IsPrefix.trans before (List.prefix_append ..)
  · have others : (s.send message).1.written p = s.written p := by
      rcases written with ⟨_, written⟩ | ⟨_, written⟩
      · rw [written, Function.update_of_ne (Ne.symm mine)]
      · rw [written]
    rw [others, Function.update_of_ne (Ne.symm mine)]
    exact ⟨fun _ same => (mine same).elim, fun _ => before⟩

variable [DecidableEq Socket] {control : Bool} {s' : NodeSockets Socket} {a : Action Socket}
  {es : List (Event Socket)} {taken : List (NodeSockets Socket × Action Socket)}

/-- Only `send` touches the two streams. -/
theorem streams_same (h : (machine control).step s a = some (s', es))
    (other : ∀ message, a ≠ .send message) : s'.sent = s.sent ∧ s'.written = s.written := by
  cases a with
  | send message => exact (other message rfl).elim
  | message socket payload =>
      cases h
      cases control <;> exact ⟨rfl, rfl⟩
  | settle k handled =>
      simp only [machine, step, Option.map_eq_some_iff, Prod.mk.injEq] at h
      obtain ⟨t, settled, rfl, rfl⟩ := h
      unfold settle at settled
      split at settled <;> cases settled
      exact ⟨rfl, rfl⟩
  | _ =>
      cases h
      exact ⟨rfl, rfl⟩

/-- The device sees a gap-free stream throughout a run exactly as long as nothing is sent over an
open socket that is not the next unwritten payload. -/
theorem device_stream_iff (run : (machine control).Run taken es s) :
    Machine.Throughout (GapFree .device) taken s ↔
      Machine.Meets (SendsNext .device) taken := by
  refine run.throughout_iff (SendsNext .device) (GapFree .device)
    (show GapFree .device (init : NodeSockets Socket) from List.prefix_rfl) ?_
  intro taken es s a s' emitted run _ before hstep
  cases a with
  | send message =>
      simp only [machine, step, Option.some.injEq] at hstep
      obtain rfl : (s.send message).1 = s' := congrArg Prod.fst hstep
      exact send_gapFree_iff before.2 message
  | _ =>
      obtain ⟨sent, written⟩ := streams_same hstep (by simp)
      refine ⟨fun _ => trivial, fun _ => ?_⟩
      unfold GapFree
      rw [sent, written]
      exact before.2

/-! ## A message between two sockets -/

/-- One message while the device is away and one after it has connected. -/
theorem missed_message_leaves_gap :
    ¬ ∀ control taken es (s : NodeSockets ℕ), (machine control).Run taken es s →
      GapFree .device s := by
  intro gapFree
  obtain ⟨taken, run, _⟩ := Machine.reach_of_trace
    (show (machine false).trace (fun _ _ => True) (init : NodeSockets ℕ)
      [.send ⟨.device, [1]⟩, .setSocket .device 0, .setReadyState 0 true,
        .send ⟨.device, [2]⟩] = some ([.wrote 0 [2]], _) from rfl)
  have gap := gapFree false taken _ _ run
  revert gap
  unfold GapFree
  decide

/-- The device's socket, open before the first message. -/
def connected : NodeSockets ℕ :=
  { init.setSocket .device 0 with isOpen := Function.update (fun _ => false) 0 true }

theorem device_stream_iff_connected :
    GapFree .device ((connected.send ⟨.device, [1]⟩).1.send ⟨.device, [2]⟩).1 := by
  have bound : (machine false).Run [(init, .setSocket .device (0 : ℕ))] []
      (init.setSocket .device 0) := .next .start rfl
  have opened := bound.next (show (machine false).step _ (.setReadyState 0 true) =
    some (connected, []) from rfl)
  have first := opened.next (show (machine false).step _ (.send ⟨.device, [1]⟩) =
    some (connected.send ⟨.device, [1]⟩) from rfl)
  have second := first.next (show (machine false).step _ (.send ⟨.device, [2]⟩) =
    some ((connected.send ⟨.device, [1]⟩).1.send ⟨.device, [2]⟩) from rfl)
  refine ((device_stream_iff second).mpr ?_).2
  simp only [Machine.meets_append_singleton]
  refine ⟨⟨⟨?_, trivial⟩, ?_⟩, ?_⟩
  · rintro p (_ | ⟨_, ⟨⟩⟩)
    trivial
  · intro _ _ payload owed
    cases owed
  · intro _ _ payload owed
    cases owed

end NodeSockets

end MaanyMpc
