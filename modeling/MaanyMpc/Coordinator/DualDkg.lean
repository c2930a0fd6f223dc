import MaanyMpc.Library.Transition
import MaanyMpc.Transport.WebSocket

/-! # The dual-mode DKG drivers

Both coordinators can run the two parties of a key generation themselves, over one
in-memory transport. The loops of the two `runDkg` differ in one place: on an empty queue
coordinator-node steps the party without a message, coordinator-rn polls again. -/

namespace MaanyMpc

/-! ## The transport -/

structure InMemoryTransport where
  queues : Participant → List Bytes

namespace InMemoryTransport

def new : InMemoryTransport where
  queues _ := []

def send (t : InMemoryTransport) (message : TransportMessage) : InMemoryTransport where
  queues := Function.update t.queues message.participant
    (t.queues message.participant ++ [message.payload])

def receive (t : InMemoryTransport) (participant : Participant) :
    Option Bytes × InMemoryTransport :=
  match t.queues participant with
  | [] => (none, t)
  | payload :: rest => (some payload, ⟨Function.update t.queues participant rest⟩)

end InMemoryTransport

/-! ## Session automata -/

/-- What `dkgStep` resolves to. -/
structure StepResult where
  outMsg : Option Bytes
  done : Bool
  deriving DecidableEq

/-- A session behind `dkgStep`, which may be called without an inbound message. -/
structure Automaton (σ : Type) where
  start : σ
  step : σ → Option Bytes → StepResult × σ

inductive Move where
  | send (msg : Bytes)
  | receive
  deriving DecidableEq

/-- Runs the moves up to the first send, or to a receive that no queued message answers. -/
def advance : List Move → List Bytes → Option Bytes × List Move × List Bytes
  | [], queue => (none, [], queue)
  | .send msg :: moves, queue => (some msg, moves, queue)
  | .receive :: moves, _ :: queue => advance moves queue
  | .receive :: moves, [] => (none, .receive :: moves, [])

/-- A party that makes the given moves in turn. -/
def Automaton.ofMoves (moves : List Move) : Automaton (List Move × List Bytes) where
  start := (moves, [])
  step s inbound :=
    let r := advance s.1 (s.2 ++ inbound.toList)
    (⟨r.1, r.2.1.isEmpty⟩, r.2)

/-! ## The drivers -/

inductive DriverPc where
  | loop
  /-- about to test whether this party is done -/
  | turn (participant : Participant)
  /-- in `transport.receive` for this party -/
  | receiving (participant : Participant)
  /-- the loop is left -/
  | finalizing
  deriving DecidableEq

structure DriverState (σ : Participant → Type) where
  transport : InMemoryTransport
  handles : (p : Participant) → σ p
  done : Participant → Bool
  i : Nat
  pc : DriverPc

/-- A call of `dkgStep`. -/
structure StepCall where
  participant : Participant
  inbound : Option Bytes
  deriving DecidableEq

variable {σ : Participant → Type}

namespace DriverState

def init (automata : (p : Participant) → Automaton (σ p)) : DriverState σ where
  transport := .new
  handles p := (automata p).start
  done _ := false
  i := 0
  pc := .loop

/-- What follows a party's turn: the other party's, or the next iteration. -/
def endTurn (s : DriverState σ) : Participant → DriverState σ
  | .device => { s with pc := .turn .server }
  | .server => { s with pc := .loop, i := s.i + 1 }

/-- `step(participant, handle, inbound)`; its result is the done flag of the party. -/
def stepParty (automata : (p : Participant) → Automaton (σ p)) (s : DriverState σ)
    (participant : Participant) (inbound : Option Bytes) : DriverState σ :=
  let r := (automata participant).step (s.handles participant) inbound
  { s with
    transport :=
      match r.1.outMsg with
      | some payload => s.transport.send ⟨participant.other, payload⟩
      | none => s.transport
    handles := Function.update s.handles participant r.2
    done := Function.update s.done participant r.1.done }

/-- One step of the loop. `await` says what to do with the answer of `receive`: call
`dkgStep` with it, or, when it is `none`, ask again. -/
def tick (await : Option Bytes → Option (Option Bytes))
    (automata : (p : Participant) → Automaton (σ p)) (s : DriverState σ) :
    Option (DriverState σ × List StepCall) :=
  match s.pc with
  | .loop =>
    if s.i < 128 && !(s.done .device && s.done .server) then
      some ({ s with pc := .turn .device }, [])
    else some ({ s with pc := .finalizing }, [])
  | .turn participant =>
    if s.done participant then some (s.endTurn participant, [])
    else some ({ s with pc := .receiving participant }, [])
  | .receiving participant =>
    let r := s.transport.receive participant
    match await r.1 with
    | none => some ({ s with transport := r.2 }, [])
    | some inbound =>
      some ((stepParty automata { s with transport := r.2 } participant inbound).endTurn
        participant, [⟨participant, inbound⟩])
  | .finalizing => none

end DriverState

/-- The loop of `runDkg` as a machine. -/
def driver (await : Option Bytes → Option (Option Bytes))
    (automata : (p : Participant) → Automaton (σ p)) :
    Transition.Machine (DriverState σ) Unit StepCall where
  init := .init automata
  step s _ := s.tick await automata

/-- `const inbound = await opts.transport.receive(participant)`. -/
def CoordinatorNode.driver (automata : (p : Participant) → Automaton (σ p)) :
    Transition.Machine (DriverState σ) Unit StepCall :=
  MaanyMpc.driver some automata

/-- `const inbound = await waitForMessage(participant)`. -/
def CoordinatorRn.driver (automata : (p : Participant) → Automaton (σ p)) :
    Transition.Machine (DriverState σ) Unit StepCall :=
  MaanyMpc.driver (Option.map some) automata

/-- The driver leaves its loop after these calls, with the sessions in these states. -/
def Finishes (M : Transition.Machine (DriverState σ) Unit StepCall) (calls : List StepCall)
    (handles : (p : Participant) → σ p) : Prop :=
  ∃ taken s, M.Run taken calls s ∧ s.pc = .finalizing ∧ s.handles = handles

/-- The driver polls an empty queue, and however it goes on, the party whose messages go to
that queue is not stepped before the poll succeeds. -/
def Starved (M : Transition.Machine (DriverState σ) Unit StepCall) (s : DriverState σ) : Prop :=
  ∃ p, s.pc = .receiving p ∧ s.transport.queues p = [] ∧
    ∀ taken calls s', { M with init := s }.Run taken calls s' →
      ∀ call, calls.head? = some call → call.participant ≠ p.other

/-! ## coordinator-node leaves its loop -/

/-- Inside an iteration the counter is below its limit. -/
def DriverState.InLoop (s : DriverState σ) : Prop :=
  match s.pc with
  | .loop => s.i ≤ 128
  | .turn _ | .receiving _ => s.i < 128
  | .finalizing => True

/-- The steps left until the loop is left at the latest. -/
def DriverState.stepsLeft (s : DriverState σ) : ℕ :=
  match s.pc with
  | .loop => 5 * (128 - s.i) + 1
  | .turn .device => 5 * (128 - s.i)
  | .receiving .device => 5 * (128 - s.i) - 1
  | .turn .server => 5 * (128 - s.i) - 2
  | .receiving .server => 5 * (128 - s.i) - 3
  | .finalizing => 0

theorem DriverState.endTurn_descends (s : DriverState σ) {p : Participant}
    (inside : s.i < 128) :
    (s.endTurn p).InLoop ∧ (s.endTurn p).stepsLeft + (if p = .device then 2 else 4) ≤
      5 * (128 - s.i) := by
  cases p with
  | device => exact ⟨inside, by simp only [endTurn, stepsLeft, if_true]; omega⟩
  | server =>
      refine ⟨show s.i + 1 ≤ 128 from inside, ?_⟩
      simp only [endTurn, stepsLeft, reduceCtorEq, if_false]
      omega

theorem CoordinatorNode.driver_descends (automata : (p : Participant) → Automaton (σ p))
    (s : DriverState σ) (hs : s.InLoop) (running : s.pc ≠ .finalizing) :
    ∃ a s' calls, (CoordinatorNode.driver automata).step s a = some (s', calls) ∧
      s'.InLoop ∧ s'.stepsLeft < s.stepsLeft := by
  refine ⟨(), ?_⟩
  cases hpc : s.pc with
  | finalizing => exact absurd hpc running
  | loop =>
      by_cases again : s.i < 128 && !(s.done .device && s.done .server)
      · refine ⟨{ s with pc := .turn .device }, [], ?_, ?_, ?_⟩
        · simp only [CoordinatorNode.driver, MaanyMpc.driver, DriverState.tick, hpc, again, if_true]
        · simp only [Bool.and_eq_true, decide_eq_true_eq] at again
          exact again.1
        · simp [DriverState.stepsLeft, hpc]
      · refine ⟨{ s with pc := .finalizing }, [], ?_, trivial, ?_⟩
        · simp only [CoordinatorNode.driver, MaanyMpc.driver, DriverState.tick, hpc]
          rw [if_neg again]
        · simp [DriverState.stepsLeft, hpc]
  | turn p =>
      have inside : s.i < 128 := by simpa [DriverState.InLoop, hpc] using hs
      by_cases finished : s.done p
      · refine ⟨s.endTurn p, [], ?_, (s.endTurn_descends inside).1, ?_⟩
        · simp [CoordinatorNode.driver, MaanyMpc.driver, DriverState.tick, hpc, finished]
        · have bound := (s.endTurn_descends (p := p) inside).2
          cases p <;> simp [DriverState.stepsLeft, hpc] at bound ⊢ <;> omega
      · refine ⟨{ s with pc := .receiving p }, [], ?_, inside, ?_⟩
        · simp [CoordinatorNode.driver, MaanyMpc.driver, DriverState.tick, hpc, finished]
        · cases p <;> simp [DriverState.stepsLeft, hpc] <;> omega
  | receiving p =>
      have inside : s.i < 128 := by simpa [DriverState.InLoop, hpc] using hs
      let r := s.transport.receive p
      let next := DriverState.stepParty automata { s with transport := r.2 } p r.1
      have kept : next.i = s.i := rfl
      refine ⟨next.endTurn p, [⟨p, r.1⟩], ?_, (next.endTurn_descends inside).1, ?_⟩
      · simp [CoordinatorNode.driver, MaanyMpc.driver, DriverState.tick, hpc, next, r]
      · have bound := (next.endTurn_descends (p := p) inside).2
        rw [kept] at bound
        cases p <;> simp [DriverState.stepsLeft, hpc] at bound ⊢ <;> omega

/-- Whatever the two sessions do, coordinator-node comes to its `dkgFinalize` calls. -/
theorem CoordinatorNode.driver_finishes (automata : (p : Participant) → Automaton (σ p)) :
    ∃ calls handles, Finishes (CoordinatorNode.driver automata) calls handles := by
  obtain ⟨taken, calls, s, run, _, finished⟩ := Transition.Machine.Run.progress
    DriverState.InLoop (fun s => s.pc = .finalizing) DriverState.stepsLeft
    (CoordinatorNode.driver_descends automata) .start (show (0 : ℕ) ≤ 128 by decide)
  exact ⟨calls, s.handles, taken, s, run, finished, rfl⟩

/-! ## coordinator-rn never leaves its first poll -/

/-- Nothing has happened but the way to the first poll. -/
structure BeforeFirstStep (automata : (p : Participant) → Automaton (σ p))
    (calls : List StepCall) (s : DriverState σ) : Prop where
  calls_eq : calls = []
  state_eq : s = { DriverState.init automata with pc := s.pc }
  pc_mem : s.pc ∈ [.loop, .turn .device, .receiving .device]

theorem BeforeFirstStep.step {automata : (p : Participant) → Automaton (σ p)}
    {calls emitted : List StepCall} {s s' : DriverState σ}
    (before : BeforeFirstStep automata calls s)
    (hstep : (CoordinatorRn.driver automata).step s () = some (s', emitted)) :
    BeforeFirstStep automata (calls ++ emitted) s' := by
  obtain ⟨rfl, hs, hpc⟩ := before
  generalize s.pc = pc at hs hpc
  subst hs
  simp only [List.mem_cons, List.not_mem_nil, or_false] at hpc
  rcases hpc with rfl | rfl | rfl
  all_goals
    cases hstep
    exact ⟨rfl, rfl, by simp⟩

theorem CoordinatorRn.run_before_first_step {automata : (p : Participant) → Automaton (σ p)}
    {taken : List (DriverState σ × Unit)} {calls : List StepCall} {s : DriverState σ}
    (run : (CoordinatorRn.driver automata).Run taken calls s) :
    BeforeFirstStep automata calls s := by
  refine run.invariant (BeforeFirstStep automata) ⟨rfl, rfl, by simp [CoordinatorRn.driver,
    MaanyMpc.driver, DriverState.init]⟩ ?_
  intro _ _ _ _ _ before hstep
  exact before.step hstep

/-- The state in which the first poll finds nothing. -/
def firstPoll (automata : (p : Participant) → Automaton (σ p)) : DriverState σ :=
  { DriverState.init automata with pc := .receiving .device }

theorem firstPoll_reachable (automata : (p : Participant) → Automaton (σ p)) :
    ∃ taken, (CoordinatorRn.driver automata).Run taken [] (firstPoll automata) := by
  obtain ⟨taken, run, _⟩ := Transition.Machine.reach_of_trace
    (show (CoordinatorRn.driver automata).trace (fun _ _ => True)
      (CoordinatorRn.driver automata).init [(), ()] = some ([], firstPoll automata) from rfl)
  exact ⟨taken, run⟩

/-- A poll that finds nothing leads back to itself. -/
theorem firstPoll_stays {automata : (p : Participant) → Automaton (σ p)}
    {taken : List (DriverState σ × Unit)} {calls : List StepCall} {s : DriverState σ}
    (run : { CoordinatorRn.driver automata with init := firstPoll automata }.Run taken calls s) :
    calls = [] ∧ s = firstPoll automata := by
  refine run.invariant (fun calls s => calls = [] ∧ s = firstPoll automata) ⟨rfl, rfl⟩ ?_
  rintro _ _ _ _ _ ⟨rfl, rfl⟩ hstep
  cases hstep
  exact ⟨rfl, rfl⟩

theorem firstPoll_starved (automata : (p : Participant) → Automaton (σ p)) :
    Starved (CoordinatorRn.driver automata) (firstPoll automata) := by
  refine ⟨.device, rfl, rfl, ?_⟩
  intro taken calls s run call first
  rw [(firstPoll_stays run).1] at first
  cases first

/-- On no pair of sessions does coordinator-rn's dual mode get past its first poll: a starved
state is reachable, and what coordinator-node's dual mode does, its calls and the states it
leaves the two sessions in, is not what coordinator-rn's does. -/
theorem dual_mode_starves (automata : (p : Participant) → Automaton (σ p)) :
    (∃ taken calls s, (CoordinatorRn.driver automata).Run taken calls s ∧
        Starved (CoordinatorRn.driver automata) s) ∧
      ¬ ∀ calls handles, Finishes (CoordinatorRn.driver automata) calls handles ↔
        Finishes (CoordinatorNode.driver automata) calls handles := by
  constructor
  · obtain ⟨taken, run⟩ := firstPoll_reachable automata
    exact ⟨taken, [], _, run, firstPoll_starved automata⟩
  · intro same
    obtain ⟨calls, handles, finishes⟩ := CoordinatorNode.driver_finishes automata
    obtain ⟨taken, s, run, finished, _⟩ := (same calls handles).mpr finishes
    have stuck := (CoordinatorRn.run_before_first_step run).pc_mem
    simp [finished] at stuck

/-! ## A pair that completes -/

/-- The device speaks first and waits for an answer. -/
def pingPong : (p : Participant) → Automaton (List Move × List Bytes)
  | .device => .ofMoves [.send [1], .receive]
  | .server => .ofMoves [.receive, .send [2]]

/-- coordinator-node brings both parties to their end in three calls; coordinator-rn polls
the queue of the device, which only the server fills. -/
theorem ping_pong_starves :
    (∃ taken s, (CoordinatorNode.driver pingPong).Run taken
        [⟨.device, none⟩, ⟨.server, some [1]⟩, ⟨.device, some [2]⟩] s ∧
      s.pc = .finalizing ∧ (∀ p, s.done p = true)) ∧
    ¬ ∀ taken calls s, (CoordinatorRn.driver pingPong).Run taken calls s →
      ¬ Starved (CoordinatorRn.driver pingPong) s := by
  constructor
  · obtain ⟨taken, run, _⟩ := Transition.Machine.reach_of_trace
      (show (CoordinatorNode.driver pingPong).trace (fun _ _ => True)
        (CoordinatorNode.driver pingPong).init (List.replicate 10 ()) = some _ from rfl)
    exact ⟨taken, _, run, rfl, fun p => by cases p <;> rfl⟩
  · intro fine
    obtain ⟨taken, run⟩ := firstPoll_reachable pingPong
    exact fine taken [] _ run (firstPoll_starved pingPong)

end MaanyMpc
