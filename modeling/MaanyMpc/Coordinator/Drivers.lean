import MaanyMpc.Coordinator.DualDkg

/-! # Round limits

Every driver of the two coordinators steps its sessions in a loop with a fixed number of
rounds, and goes on to the same code whether the sessions have finished or the rounds are
used up. The transport is the environment here: it answers a `receive` with what it likes,
and whatever a driver awaits may reject. -/

namespace MaanyMpc

open Transition

/-- Whose sessions a driver steps. -/
inductive Driver.Mode where
  /-- both parties in turn; `waits` tells whether an empty answer is asked for again -/
  | dual (first : Participant) (waits : Bool)
  /-- one party against a remote one; `opens` tells whether a frame is awaited first -/
  | single (party : Participant) (opens : Bool)

def Driver.Mode.parties : Driver.Mode → List Participant
  | .dual first _ => [first, first.other]
  | .single party _ => [party]

structure Driver where
  mode : Driver.Mode
  /-- the number of rounds -/
  limit : Nat
  /-- the sessions it finalizes behind the loop, in order -/
  finalizes : List Participant
  within : ∀ p ∈ finalizes, p ∈ mode.parties

/-! ## The drivers of the coordinators -/

namespace CoordinatorNode

def runDkgDual : Driver where
  mode := .dual .device false
  limit := 128
  finalizes := [.device, .server]
  within := by decide

def runDkgServerOnly : Driver where
  mode := .single .server false
  limit := 256
  finalizes := [.server]
  within := by decide

def runSignDual : Driver where
  mode := .dual .server false
  limit := 128
  finalizes := [.device]
  within := by decide

/-- It resolves to `null`. -/
def runSignServerOnly : Driver where
  mode := .single .server true
  limit := 256
  finalizes := []
  within := by decide

end CoordinatorNode

namespace CoordinatorRn

def runDkgDual : Driver where
  mode := .dual .device true
  limit := 128
  finalizes := [.device, .server]
  within := by decide

def runDkgDeviceOnly : Driver where
  mode := .single .device true
  limit := 512
  finalizes := [.device]
  within := by decide

def runSign : Driver where
  mode := .dual .server false
  limit := 128
  finalizes := [.device]
  within := by decide

end CoordinatorRn

def coordinatorDrivers : List Driver :=
  [CoordinatorNode.runDkgDual, CoordinatorNode.runDkgServerOnly, CoordinatorNode.runSignDual,
    CoordinatorNode.runSignServerOnly, CoordinatorRn.runDkgDual, CoordinatorRn.runDkgDeviceOnly,
    CoordinatorRn.runSign]

/-! ## Their common loop -/

namespace Driver

inductive Pc where
  /-- awaiting the frame before the first round -/
  | opening
  | loop
  | turn (participant : Participant)
  | receiving (participant : Participant)
  | stepping (participant : Participant) (inbound : Option Bytes)
  /-- in `transport.send`, with the done flag of the step still to be looked at -/
  | sending (participant : Participant) (done : Bool)
  /-- awaiting the frame for the next round -/
  | waiting
  /-- behind the loop, with these sessions to finalize -/
  | finalizing (rest : List Participant)
  | resolved
  | rejected
  deriving DecidableEq

structure State (σ : Participant → Type) where
  handles : (p : Participant) → σ p
  /-- whether the last step of the session returned `done` -/
  done : Participant → Bool
  i : Nat
  /-- the frame for the next step of a single party -/
  inbound : Option Bytes
  pc : Pc

inductive Action where
  /-- the driver goes on, or what it awaits resolves -/
  | proceed
  /-- `transport.receive` resolves -/
  | receive (answer : Option Bytes)
  /-- what it awaits rejects, or what it calls throws -/
  | reject

inductive Event where
  | sent (message : TransportMessage)
  /-- `dkgFinalize` or `signFinalize`, with what the last step of the session returned -/
  | finalized (participant : Participant) (done : Bool)
  | resolved (done : Bool)
  | rejected

variable {σ : Participant → Type}

def init (D : Driver) (automata : (p : Participant) → Automaton (σ p)) : State σ where
  handles p := (automata p).start
  done _ := false
  i := 0
  inbound := none
  pc :=
    match D.mode with
    | .single _ true => .opening
    | _ => .loop

/-- What follows the turn of a party: the turn of the other one, or the next round. -/
def endTurn (D : Driver) (s : State σ) (participant : Participant) : State σ :=
  match D.mode with
  | .dual first _ =>
    if participant = first then { s with pc := .turn first.other }
    else { s with pc := .loop, i := s.i + 1 }
  | .single _ _ => s

/-- What follows a step of a party. -/
def afterStep (D : Driver) (s : State σ) (participant : Participant) (done : Bool) : State σ :=
  let s := { s with done := Function.update s.done participant done }
  match D.mode with
  | .dual _ _ => D.endTurn s participant
  | .single _ _ =>
    if done then { s with pc := .finalizing D.finalizes } else { s with pc := .waiting }

/-- The head of the loop. -/
def testLoop (D : Driver) (s : State σ) : State σ :=
  match D.mode with
  | .dual first _ =>
    if s.i < D.limit && !(s.done .device && s.done .server) then { s with pc := .turn first }
    else { s with pc := .finalizing D.finalizes }
  | .single party _ =>
    if s.i < D.limit then { s with pc := .stepping party s.inbound }
    else { s with pc := .finalizing D.finalizes }

def proceed (D : Driver) (automata : (p : Participant) → Automaton (σ p)) (s : State σ) :
    Option (State σ × List Event) :=
  match s.pc with
  | .loop => some (D.testLoop s, [])
  | .turn participant =>
    if s.done participant then some (D.endTurn s participant, [])
    else some ({ s with pc := .receiving participant }, [])
  | .stepping participant inbound =>
    let r := (automata participant).step (s.handles participant) inbound
    let s := { s with handles := Function.update s.handles participant r.2, inbound := none }
    match r.1.outMsg with
    | none => some (D.afterStep s participant r.1.done, [])
    | some payload =>
      some ({ s with pc := .sending participant r.1.done }, [.sent ⟨participant.other, payload⟩])
  | .sending participant done => some (D.afterStep s participant done, [])
  | .finalizing [] => some ({ s with pc := .resolved }, [.resolved (D.mode.parties.all s.done)])
  | .finalizing (participant :: rest) =>
    some ({ s with pc := .finalizing rest }, [.finalized participant (s.done participant)])
  | .opening | .receiving _ | .waiting | .resolved | .rejected => none

def receive (D : Driver) (s : State σ) (answer : Option Bytes) : Option (State σ) :=
  match s.pc, answer with
  | .opening, none | .waiting, none => some s
  | .opening, some frame => some { s with inbound := some frame, pc := .loop }
  | .waiting, some frame => some { s with inbound := some frame, pc := .loop, i := s.i + 1 }
  | .receiving participant, answer =>
    match D.mode, answer with
    | .dual _ true, none => some s
    | _, answer => some { s with pc := .stepping participant answer }
  | _, _ => none

def reject (s : State σ) : Option (State σ × List Event) :=
  match s.pc with
  | .loop | .turn _ | .resolved | .rejected => none
  | _ => some ({ s with pc := .rejected }, [.rejected])

/-- One call of the driver as a machine. -/
def machine (D : Driver) (automata : (p : Participant) → Automaton (σ p)) :
    Machine (State σ) Action Event where
  init := D.init automata
  step s
    | .proceed => D.proceed automata s
    | .receive answer => (D.receive s answer).map (·, [])
    | .reject => reject s

/-! ## What it means to stop in time -/

/-- The driver has left its loop, and has not rejected. -/
def State.Past (s : State σ) : Prop := (∃ rest, s.pc = .finalizing rest) ∨ s.pc = .resolved

/-- The last step of every session that the driver steps returned `done`. -/
def Completed (D : Driver) (s : State σ) : Prop := ∀ p ∈ D.mode.parties, s.done p = true

instance (D : Driver) (s : State σ) : Decidable (D.Completed s) :=
  inferInstanceAs (Decidable (∀ p ∈ D.mode.parties, _))

def LeavesCompleted (D : Driver) (s : State σ) : Prop := s.Past → D.Completed s

theorem completed_congr {D : Driver} {s s' : State σ} (same : s'.done = s.done) :
    D.Completed s' ↔ D.Completed s := by
  simp [Completed, same]

/-- A session is finalized, and the driver resolves, only after a `done`. -/
def Event.Finished : Event → Prop
  | .finalized _ done | .resolved done => done = true
  | _ => True

/-- When the rounds are used up the sessions have finished. -/
def WithinLimit (D : Driver) (s : State σ) : Action → Prop
  | .proceed => s.pc = .loop → s.i < D.limit ∨ D.Completed s
  | _ => True

instance (D : Driver) (s : State σ) (a : Action) : Decidable (D.WithinLimit s a) := by
  cases a with
  | proceed => exact inferInstanceAs (Decidable (s.pc = .loop → _ ∨ _))
  | _ => exact .isTrue trivial

/-- Whoever has the turn is one of the parties of the driver. -/
def OfParties (D : Driver) (s : State σ) : Prop :=
  match s.pc with
  | .turn p | .receiving p | .stepping p _ | .sending p _ => p ∈ D.mode.parties
  | .finalizing rest => ∀ p ∈ rest, p ∈ D.mode.parties
  | _ => True

section Step

variable {D : Driver} {automata : (p : Participant) → Automaton (σ p)} {s s' : State σ}
  {a : Action} {es : List Event}

theorem mem_parties_dual (first p : Participant) (waits : Bool) :
    p ∈ (Mode.dual first waits).parties := by
  cases first <;> cases p <;> simp [Mode.parties, Participant.other]

theorem endTurn_pc (D : Driver) (s : State σ) {p : Participant} (turn : s.pc = .turn p) :
    ¬ (D.endTurn s p).Past := by
  unfold endTurn
  split
  · split <;> simp [State.Past]
  · simp [State.Past, turn]

/-- A loop is left behind a step only by a single party that is done. -/
theorem afterStep_past {p : Participant} {done : Bool} (stepped : p ∈ D.mode.parties)
    (past : (D.afterStep s p done).Past) : D.Completed (D.afterStep s p done) := by
  unfold afterStep endTurn at past ⊢
  cases hm : D.mode with
  | dual first waits =>
      simp only [hm] at past
      split at past <;> simp [State.Past] at past
  | single party opens =>
      obtain rfl : p = party := by simpa [hm, Mode.parties] using stepped
      cases done with
      | false => simp [hm, State.Past] at past
      | true => simp [Completed, hm, Mode.parties]

/-- What a step does to the sessions behind the loop. -/
inductive Effect (D : Driver) (s : State σ) (a : Action) (s' : State σ) (es : List Event) :
    Prop where
  | stays (within : D.WithinLimit s a) (inside : ¬ s'.Past) (quiet : ∀ e ∈ es, e.Finished)
  | completes (within : D.WithinLimit s a) (completed : D.Completed s')
      (quiet : ∀ e ∈ es, e.Finished)
  | runsOut (acts : a = .proceed) (pc : s.pc = .loop) (spent : ¬ s.i < D.limit)
      (past : s'.Past) (same : s'.done = s.done) (quiet : es = [])
  | goesOn (within : D.WithinLimit s a) (past : s.Past) (same : s'.done = s.done)
      (replies : D.Completed s → ∀ e ∈ es, e.Finished)

theorem effect_afterStep {p : Participant} (stepped : p ∈ D.mode.parties) (done : Bool)
    (within : D.WithinLimit s a) (t : State σ) : Effect D s a (D.afterStep t p done) [] := by
  by_cases past : (D.afterStep t p done).Past
  · exact .completes within (afterStep_past stepped past) (by simp)
  · exact .stays within past (by simp)

theorem effect_testLoop (pc : s.pc = .loop) : Effect D s .proceed (D.testLoop s) [] := by
  by_cases more : s.i < D.limit
  · have within : D.WithinLimit s .proceed := fun _ => .inl more
    cases hm : D.mode with
    | dual first waits =>
        by_cases finished : s.done .device && s.done .server
        · refine .completes within ?_ (by simp)
          have both : s.done .device = true ∧ s.done .server = true := by simpa using finished
          rw [completed_congr (s := s) (by simp [testLoop, hm, finished])]
          intro p _
          cases p with
          | device => exact both.1
          | server => exact both.2
        · exact .stays within (by simp [testLoop, hm, finished, more, State.Past]) (by simp)
    | single party opens =>
        exact .stays within (by simp [testLoop, hm, more, State.Past]) (by simp)
  · refine .runsOut rfl pc more ?_ ?_ rfl
    · cases hm : D.mode <;> simp [testLoop, hm, more, State.Past]
    · cases hm : D.mode <;> simp [testLoop, hm, more]

theorem effect_proceed (parties : D.OfParties s) (h : D.proceed automata s = some (s', es)) :
    Effect D s .proceed s' es := by
  have within (inside : s.pc ≠ .loop) : D.WithinLimit s .proceed := fun pc => (inside pc).elim
  cases hpc : s.pc with
  | loop =>
      simp only [proceed, hpc, Option.some.injEq, Prod.mk.injEq] at h
      obtain ⟨rfl, rfl⟩ := h
      exact effect_testLoop hpc
  | turn p =>
      have inside := within (by simp [hpc])
      simp only [proceed, hpc] at h
      split at h <;> cases h
      · exact .stays inside (endTurn_pc D s hpc) (by simp)
      · exact .stays inside (by simp [State.Past]) (by simp)
  | stepping p inbound =>
      have inside := within (by simp [hpc])
      have stepped : p ∈ D.mode.parties := by simpa [OfParties, hpc] using parties
      simp only [proceed, hpc] at h
      split at h <;> cases h
      · exact effect_afterStep stepped _ inside _
      · exact .stays inside (by simp [State.Past]) (by simp [Event.Finished])
  | sending p done =>
      have stepped : p ∈ D.mode.parties := by simpa [OfParties, hpc] using parties
      simp only [proceed, hpc, Option.some.injEq, Prod.mk.injEq] at h
      obtain ⟨rfl, rfl⟩ := h
      exact effect_afterStep stepped done (within (by simp [hpc])) s
  | finalizing rest =>
      have past : s.Past := .inl ⟨rest, hpc⟩
      have inside := within (by simp [hpc])
      cases rest with
      | nil =>
          simp only [proceed, hpc, Option.some.injEq, Prod.mk.injEq] at h
          obtain ⟨rfl, rfl⟩ := h
          refine .goesOn inside past rfl ?_
          intro completed
          simpa [Event.Finished, Completed] using completed
      | cons p rest =>
          simp only [proceed, hpc, Option.some.injEq, Prod.mk.injEq] at h
          obtain ⟨rfl, rfl⟩ := h
          refine .goesOn inside past rfl ?_
          intro completed
          have member : p ∈ D.mode.parties := by
            have all : ∀ q ∈ p :: rest, q ∈ D.mode.parties := by
              simpa only [OfParties, hpc] using parties
            exact all p (by simp)
          simpa [Event.Finished] using completed p member
  | _ => simp [proceed, hpc] at h

theorem receive_stays {answer : Option Bytes} (h : D.receive s answer = some s') : ¬ s'.Past := by
  unfold receive at h
  split at h
  next pc => cases h; simp [State.Past, pc]
  next pc => cases h; simp [State.Past, pc]
  · cases h; simp [State.Past]
  · cases h; simp [State.Past]
  next pc =>
    split at h
    · cases h; simp [State.Past, pc]
    · cases h; simp [State.Past]
  · cases h

theorem effect (parties : D.OfParties s) (h : (D.machine automata).step s a = some (s', es)) :
    Effect D s a s' es := by
  cases a with
  | proceed => exact effect_proceed parties h
  | receive answer =>
      simp only [machine, Option.map_eq_some_iff, Prod.mk.injEq] at h
      obtain ⟨t, received, rfl, rfl⟩ := h
      exact .stays trivial (receive_stays received) (by simp)
  | reject =>
      simp only [machine, reject] at h
      split at h <;> cases h
      exact .stays trivial (by simp [State.Past]) (by simp [Event.Finished])

/-- A driver that has kept to the rule so far keeps to it exactly within its limit. -/
theorem Effect.leavesCompleted_iff (h : Effect D s a s' es) (before : D.LeavesCompleted s) :
    D.LeavesCompleted s' ↔ D.WithinLimit s a := by
  cases h with
  | stays within inside => exact ⟨fun _ => within, fun _ past => (inside past).elim⟩
  | completes within completed => exact ⟨fun _ => within, fun _ _ => completed⟩
  | goesOn within past same =>
      exact ⟨fun _ => within, fun _ _ => (completed_congr same).mpr (before past)⟩
  | runsOut acts pc spent past same =>
      subst acts
      constructor
      · intro leaves _
        exact .inr ((completed_congr same).mp (leaves past))
      · intro within _
        exact (completed_congr same).mpr ((within pc).resolve_left spent)

theorem Effect.finished (h : Effect D s a s' es) (before : D.LeavesCompleted s) :
    ∀ e ∈ es, e.Finished := by
  cases h with
  | stays _ _ quiet | completes _ _ quiet => exact quiet
  | runsOut _ _ _ _ _ quiet => simp [quiet]
  | goesOn _ past _ replies => exact replies (before past)

theorem ofParties_endTurn {p : Participant} (parties : D.OfParties s) :
    D.OfParties (D.endTurn s p) := by
  unfold endTurn
  cases hm : D.mode with
  | dual first waits =>
      by_cases turn : p = first
      · simp [turn, OfParties, hm, mem_parties_dual]
      · simp [turn, OfParties]
  | single party opens => exact parties

theorem ofParties_afterStep {p : Participant} (done : Bool) (parties : D.OfParties s) :
    D.OfParties (D.afterStep s p done) := by
  unfold afterStep
  cases hm : D.mode with
  | dual first waits => exact ofParties_endTurn parties
  | single party opens =>
      cases done with
      | true => exact D.within
      | false => trivial

theorem ofParties_testLoop : D.OfParties (D.testLoop s) := by
  unfold testLoop
  cases hm : D.mode with
  | dual first waits =>
      simp only
      split
      · simp [OfParties, hm, mem_parties_dual]
      · exact D.within
  | single party opens =>
      simp only
      split
      · simp [OfParties, hm, Mode.parties]
      · exact D.within

theorem ofParties_step (parties : D.OfParties s)
    (h : (D.machine automata).step s a = some (s', es)) : D.OfParties s' := by
  cases a with
  | proceed =>
      simp only [machine, proceed] at h
      split at h
      · cases h; exact ofParties_testLoop
      next p pc =>
        split at h <;> cases h
        · exact ofParties_endTurn parties
        · simpa [OfParties, pc] using parties
      next p inbound pc =>
        have stepped : p ∈ D.mode.parties := by simpa [OfParties, pc] using parties
        split at h <;> cases h
        · exact ofParties_afterStep _ (by simpa [OfParties, pc] using stepped)
        · exact stepped
      next p done pc => cases h; exact ofParties_afterStep done parties
      · cases h; trivial
      next p rest pc =>
        have all : ∀ q ∈ p :: rest, q ∈ D.mode.parties := by
          simpa only [OfParties, pc] using parties
        cases h
        exact fun q hq => all q (by simp [hq])
      all_goals cases h
  | receive answer =>
      simp only [machine, Option.map_eq_some_iff, Prod.mk.injEq] at h
      obtain ⟨t, received, rfl, rfl⟩ := h
      unfold receive at received
      split at received
      · cases received; exact parties
      · cases received; exact parties
      · cases received; trivial
      · cases received; trivial
      next pc =>
        split at received
        · cases received; exact parties
        · cases received; simpa [OfParties, pc] using parties
      · cases received
  | reject =>
      simp only [machine, reject] at h
      split at h <;> cases h
      trivial

end Step

/-! ## Whole runs -/

section Run

variable {D : Driver} {automata : (p : Participant) → Automaton (σ p)}
  {taken : List (State σ × Action)} {es : List Event} {s : State σ}

theorem run_ofParties (run : (D.machine automata).Run taken es s) : D.OfParties s := by
  refine run.invariant (fun _ s => D.OfParties s) ?_ fun parties hstep =>
    ofParties_step parties hstep
  change D.OfParties (D.init automata)
  unfold OfParties init
  cases D.mode with
  | dual first waits => trivial
  | single party opens => cases opens <;> trivial

theorem init_leavesCompleted : D.LeavesCompleted (D.machine automata).init := by
  change D.LeavesCompleted (D.init automata)
  unfold init
  cases hm : D.mode with
  | dual first waits => simp [LeavesCompleted, State.Past]
  | single party opens => cases opens <;> simp [LeavesCompleted, State.Past]

theorem run_leavesCompleted_iff (run : (D.machine automata).Run taken es s) :
    Machine.Throughout D.LeavesCompleted taken s ↔ Machine.Meets D.WithinLimit taken := by
  refine run.throughout_iff D.WithinLimit D.LeavesCompleted init_leavesCompleted ?_
  intro taken es s a s' emitted run _ before hstep
  exact (effect (run_ofParties run) hstep).leavesCompleted_iff before.2

theorem run_finished (run : (D.machine automata).Run taken es s)
    (within : Machine.Meets D.WithinLimit taken) : ∀ e ∈ es, e.Finished := by
  refine run.guarded_events D.WithinLimit (fun s => D.OfParties s ∧ D.LeavesCompleted s)
    Event.Finished ⟨run_ofParties .start, init_leavesCompleted⟩ ?_ within
  intro s a s' emitted before ok hstep
  have now := effect before.1 hstep
  exact ⟨⟨ofParties_step before.1 hstep, (now.leavesCompleted_iff before.2).mpr ok⟩,
    now.finished before.2⟩

end Run

end Driver

/-- A driver keeps to its finished sessions exactly as long as its rounds do not run out: it
then never gets behind its loop with an unfinished session, and finalizes, and resolves, only
after a `done`. -/
theorem drivers_finalize_finished_iff {σ : Participant → Type} (D : Driver)
    (automata : (p : Participant) → Automaton (σ p)) (taken : List (Driver.State σ × Driver.Action))
    (es : List Driver.Event) (s : Driver.State σ) (run : (D.machine automata).Run taken es s) :
    (Machine.Throughout D.LeavesCompleted taken s ↔ Machine.Meets D.WithinLimit taken) ∧
      (Machine.Throughout D.LeavesCompleted taken s → ∀ e ∈ es, e.Finished) :=
  ⟨Driver.run_leavesCompleted_iff run, fun keeps =>
    Driver.run_finished run ((Driver.run_leavesCompleted_iff run).mp keeps)⟩

/-! ## The dual-mode key generations over their own transport -/

/-- Where the loop over an in-memory transport stands, its transport left out. -/
def DriverState.forget {σ : Participant → Type} (s : DriverState σ) : Driver.State σ where
  handles := s.handles
  done := s.done
  i := s.i
  inbound := none
  pc :=
    match s.pc with
    | .loop => .loop
    | .turn p => .turn p
    | .receiving p => .receiving p
    | .finalizing => .finalizing [.device, .server]

namespace Driver

variable {σ : Participant → Type} {automata : (p : Participant) → Automaton (σ p)}

theorem forget_endTurn (D : Driver) {waits : Bool} (mode : D.mode = .dual .device waits)
    (s : DriverState σ) (p : Participant) : (s.endTurn p).forget = D.endTurn s.forget p := by
  cases p <;> simp [DriverState.forget, DriverState.endTurn, endTurn, mode, Participant.other]

/-- A step of a party, from the answer of `receive` to its end. -/
theorem step_simulated (D : Driver) {waits : Bool} (mode : D.mode = .dual .device waits)
    (s : DriverState σ) (p : Participant) (inbound : Option Bytes)
    (h : (D.machine automata).Reachable { s.forget with pc := .stepping p inbound }) :
    (D.machine automata).Reachable ((s.stepParty automata p inbound).endTurn p).forget := by
  rw [forget_endTurn D mode]
  cases outMsg : ((automata p).step (s.handles p) inbound).1.outMsg with
  | none =>
      refine h.next (show (D.machine automata).step _ .proceed = some (_, []) from ?_)
      simp [machine, proceed, afterStep, endTurn, mode, DriverState.forget,
        DriverState.stepParty, outMsg]
  | some payload =>
      have sending := h.next (show (D.machine automata).step _ .proceed = some
          (⟨Function.update s.handles p ((automata p).step (s.handles p) inbound).2, s.done, s.i,
            none, .sending p ((automata p).step (s.handles p) inbound).1.done⟩,
            [.sent ⟨p.other, payload⟩])
        by simp [machine, proceed, DriverState.forget, outMsg])
      refine sending.next (show (D.machine automata).step _ .proceed = some (_, []) from ?_)
      simp [machine, proceed, afterStep, endTurn, mode, DriverState.forget, DriverState.stepParty]

/-- What the loop does with its own transport, the driver can do with some transport. -/
theorem tick_simulated (D : Driver) {waits : Bool} (mode : D.mode = .dual .device waits)
    (limit : D.limit = 128) (finalizes : D.finalizes = [.device, .server])
    {s s' : DriverState σ} {calls : List StepCall}
    (h : s.tick (if waits then Option.map some else some) automata = some (s', calls))
    (reached : (D.machine automata).Reachable s.forget) :
    (D.machine automata).Reachable s'.forget := by
  obtain ⟨transport, handles, done, i, pc⟩ := s
  cases pc with
  | loop =>
      have tested : D.testLoop (DriverState.forget ⟨transport, handles, done, i, .loop⟩) =
          if i < 128 && !(done .device && done .server) then
            ⟨handles, done, i, none, .turn .device⟩
          else ⟨handles, done, i, none, .finalizing [.device, .server]⟩ := by
        simp only [testLoop, mode, limit, finalizes, DriverState.forget]
      have next := reached.next
        (show (D.machine automata).step _ .proceed = some (D.testLoop _, []) from rfl)
      rw [tested] at next
      simp only [DriverState.tick] at h
      split at h
      next more =>
        cases h
        rwa [if_pos more] at next
      next last =>
        cases h
        rwa [if_neg last] at next
  | turn p =>
      simp only [DriverState.tick] at h
      split at h
      next finished =>
        cases h
        rw [forget_endTurn D mode]
        exact reached.next (show (D.machine automata).step _ .proceed = some (_, [])
          by simp [machine, proceed, DriverState.forget, finished])
      next unfinished =>
        cases h
        exact reached.next (show (D.machine automata).step _ .proceed = some (_, [])
          by simp [machine, proceed, DriverState.forget, unfinished])
  | receiving p =>
      simp only [DriverState.tick] at h
      split at h
      next again =>
        cases h
        exact reached
      next inbound taken =>
        cases h
        refine step_simulated D mode _ p inbound (reached.next
          (show (D.machine automata).step _ (.receive inbound) = some (_, []) from ?_))
        cases waits with
        | false => simp [machine, receive, mode, DriverState.forget]
        | true =>
            obtain ⟨frame, _, rfl⟩ := Option.map_eq_some_iff.mp taken
            simp [machine, receive, mode, DriverState.forget]
  | finalizing => simp [DriverState.tick] at h

end Driver

/-- The dual-mode loops over the in-memory transport are among the runs of the two drivers. -/
theorem CoordinatorNode.driver_simulated {σ : Participant → Type}
    {automata : (p : Participant) → Automaton (σ p)} {s : DriverState σ}
    (reached : (CoordinatorNode.driver automata).Reachable s) :
    (CoordinatorNode.runDkgDual.machine automata).Reachable s.forget := by
  obtain ⟨taken, calls, run⟩ := reached
  refine run.invariant (fun _ s => (CoordinatorNode.runDkgDual.machine automata).Reachable
    s.forget) ⟨[], [], .start⟩ ?_
  intro _ _ _ _ _ before hstep
  exact Driver.tick_simulated CoordinatorNode.runDkgDual
    (rfl : CoordinatorNode.runDkgDual.mode = .dual .device false) rfl rfl hstep before

theorem CoordinatorRn.driver_simulated {σ : Participant → Type}
    {automata : (p : Participant) → Automaton (σ p)} {s : DriverState σ}
    (reached : (CoordinatorRn.driver automata).Reachable s) :
    (CoordinatorRn.runDkgDual.machine automata).Reachable s.forget := by
  obtain ⟨taken, calls, run⟩ := reached
  refine run.invariant (fun _ s => (CoordinatorRn.runDkgDual.machine automata).Reachable
    s.forget) ⟨[], [], .start⟩ ?_
  intro _ _ _ _ _ before hstep
  exact Driver.tick_simulated CoordinatorRn.runDkgDual
    (rfl : CoordinatorRn.runDkgDual.mode = .dual .device true) rfl rfl hstep before

/-! ## Sessions that take longer -/

namespace Driver

/-- A session that says nothing and never finishes. -/
def endless : Automaton Unit where
  start := ()
  step _ _ := (⟨none, false⟩, ())

/-- The head of a round that no session has finished before. -/
structure Unfinished (s : State fun _ => Unit) (i : Nat) : Prop where
  pc : s.pc = .loop
  round : s.i = i
  undone : ∀ p, s.done p = false

/-- One round with them, over a transport that answers every `receive`. -/
theorem endless_round (D : Driver) {s : State fun _ => Unit} {i : Nat} (hs : Unfinished s i)
    (more : i < D.limit) : ∃ actions s', (D.machine fun _ => endless).trace (fun _ _ => True) s
      actions = some ([], s') ∧ Unfinished s' (i + 1) := by
  obtain ⟨pc, rfl, undone⟩ := hs
  cases hm : D.mode with
  | dual first waits =>
      have other : first.other ≠ first := by cases first <;> simp [Participant.other]
      refine ⟨[.proceed, .proceed, .receive (some []), .proceed, .proceed, .receive (some []),
          .proceed],
        { s with
          done := Function.update (Function.update s.done first false) first.other false
          i := s.i + 1
          inbound := none
          pc := .loop }, ?_, rfl, rfl, fun p => by simp [Function.update_apply, undone]⟩
      simp [Machine.trace, machine, proceed, receive, testLoop, endTurn, afterStep, endless, hm,
        pc, undone, more, other]
  | single party opens =>
      refine ⟨[.proceed, .proceed, .receive (some [])],
        { s with
          done := Function.update s.done party false
          i := s.i + 1
          inbound := some []
          pc := .loop }, ?_, rfl, rfl, fun p => by simp [Function.update_apply, undone]⟩
      simp [Machine.trace, machine, proceed, receive, testLoop, afterStep, endless, hm, pc, more]

/-- The first round begins at once, or with the first frame. -/
theorem endless_begins (D : Driver) :
    ∃ taken s, (D.machine fun _ => endless).Run taken [] s ∧ Unfinished s 0 := by
  cases hm : D.mode with
  | dual first waits =>
      exact ⟨[], _, .start, by simp [machine, init, hm], rfl, fun _ => rfl⟩
  | single party opens =>
      cases opens with
      | false => exact ⟨[], _, .start, by simp [machine, init, hm], rfl, fun _ => rfl⟩
      | true =>
          have opening : (D.machine fun _ => endless).init.pc = .opening := by
            simp [machine, init, hm]
          have first := (Machine.Run.start (M := D.machine fun _ => endless)).next
            (show (D.machine fun _ => endless).step _ (.receive (some [])) = some (_, []) by
              simp only [machine, receive] at opening ⊢
              rw [opening]
              rfl)
          exact ⟨_, _, first, rfl, rfl, fun _ => rfl⟩

theorem endless_rounds (D : Driver) : ∀ i ≤ D.limit,
    ∃ taken s, (D.machine fun _ => endless).Run taken [] s ∧ Unfinished s i := by
  intro i
  induction i with
  | zero => exact fun _ => endless_begins D
  | succ i ih =>
      intro within
      obtain ⟨taken, s, run, hs⟩ := ih (by omega)
      obtain ⟨actions, s', trace, hs'⟩ := endless_round D hs within
      have meets : Machine.Meets (fun _ _ => True) taken := fun _ _ => trivial
      obtain ⟨taken', run', _⟩ := run.extend meets trace
      exact ⟨taken', s', run', hs'⟩

/-- Every driver gives up waiting for sessions that never finish, and goes on as if they had. -/
theorem endless_unfinished (D : Driver) : ∃ taken s,
    (D.machine fun _ => endless).Run taken [] s ∧ s.pc = .finalizing D.finalizes ∧
      ∀ p, s.done p = false := by
  obtain ⟨taken, s, run, pc, spent, undone⟩ := endless_rounds D D.limit le_rfl
  have tested : D.testLoop s = { s with pc := .finalizing D.finalizes } := by
    unfold testLoop
    cases D.mode <;> simp [spent]
  have behind := run.next (show (D.machine fun _ => endless).step s .proceed =
    some (D.testLoop s, []) by simp [machine, proceed, pc])
  rw [tested] at behind
  exact ⟨_, _, behind, rfl, undone⟩

end Driver

/-- No driver rejects when its rounds are used up: each finalizes a session whose last step did
not return `done`, or resolves without one. -/
theorem used_up_rounds_finalize :
    ¬ ∃ D ∈ coordinatorDrivers, ∀ taken es s,
      (D.machine fun _ => Driver.endless).Run taken es s → ∀ e ∈ es, e.Finished := by
  rintro ⟨D, _, finished⟩
  obtain ⟨taken, s, run, pc, undone⟩ := D.endless_unfinished
  cases hf : D.finalizes with
  | nil =>
      rw [hf] at pc
      have resolves := run.next (show (D.machine fun _ => Driver.endless).step s .proceed =
        some ({ s with pc := .resolved }, [.resolved (D.mode.parties.all s.done)]) by
          simp [Driver.machine, Driver.proceed, pc])
      have done : D.mode.parties.all s.done = true :=
        finished _ _ _ resolves (.resolved (D.mode.parties.all s.done)) (by simp)
      cases hm : D.mode <;> simp [Driver.Mode.parties, hm, undone] at done
  | cons p rest =>
      rw [hf] at pc
      have finalizes := run.next (show (D.machine fun _ => Driver.endless).step s .proceed =
        some ({ s with pc := .finalizing rest }, [.finalized p (s.done p)]) by
          simp [Driver.machine, Driver.proceed, pc])
      have done : s.done p = true :=
        finished _ _ _ finalizes (.finalized p (s.done p)) (by simp)
      simp [undone] at done

/-- A session that finishes in its first step. -/
theorem drivers_finalize_finished_iff_prompt :
    Driver.Event.Finished (.finalized .server true) ∧ Driver.Event.Finished (.resolved true) := by
  obtain ⟨taken, s, run, meets⟩ := Machine.run_of_trace
    (show ((CoordinatorNode.runDkgServerOnly.machine fun _ => .ofMoves []).trace
      CoordinatorNode.runDkgServerOnly.WithinLimit
      (CoordinatorNode.runDkgServerOnly.machine fun _ => .ofMoves []).init
      [.proceed, .proceed, .proceed, .proceed]).map Prod.fst =
        some [.finalized .server true, .resolved true] from rfl)
  have finalizes := drivers_finalize_finished_iff _ _ _ _ _ run
  have finished := finalizes.2 (finalizes.1.mpr meets)
  exact ⟨finished (.finalized .server true) (by simp), finished (.resolved true) (by simp)⟩

end MaanyMpc
