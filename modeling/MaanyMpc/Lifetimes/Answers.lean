import MaanyMpc.Lifetimes.Workers

/-! # What promises are settled with

Between the return of a session and the end of its step the outbound message is a block that the
other workers could reach. -/

namespace MaanyMpc.Lifetimes

open Custody Transition

/-- The answer that the promise of the step `p` of a session may be given: what the session has
returned to its own worker, or why it has none. -/
inductive Answers (taken : List (Option Addon × AddonAction)) (kind : StepKind)
    (ctxHandle handle p : ℕ) : Except String StepResult → Prop where
  /-- a handle was released when the worker looked -/
  | gone {s : Addon} (looked : (some s, .worker p .check) ∈ taken)
      (at_ : s.works.at? p = some ⟨kind, ctxHandle, handle, .queued⟩)
      (released : pointer? s.js .ctx ctxHandle = some none ∨
        pointer? s.js (.handle kind.handle) handle = some none) :
      Answers taken kind ctxHandle handle p (.error (createError kind.gone .protoState))
  /-- a handle was released between the check and the call -/
  | released {s : Addon} {ctx pointer : Option ℕ} (entered : (some s, .worker p .enter) ∈ taken)
      (at_ : s.works.at? p = some ⟨kind, ctxHandle, handle, .called ctx pointer⟩)
      (null : ctx = none ∨ pointer = none) :
      Answers taken kind ctxHandle handle p (.error (createError kind.answered .invalidArg))
  /-- the session had given up its key -/
  | ended {s : Addon} {ctx : Option ℕ} {pointer owner : ℕ}
      (entered : (some s, .worker p .enter) ∈ taken)
      (at_ : s.works.at? p = some ⟨kind, ctxHandle, handle, .called ctx (some pointer)⟩)
      (spent : s.js.objects.at? pointer = some (.handle kind.handle false owner)) :
      Answers taken kind ctxHandle handle p (.error (createError kind.answered .invalidArg))
  | threw {before : Option Addon} {malloc : Bool} {exception : BridgeException}
      (left : (before, .worker p (.leave malloc (.error exception))) ∈ taken) :
      Answers taken kind ctxHandle handle p
        (.error (createError kind.answered (translateException exception)))
  | memory {before : Option Addon} {output : StepOutput}
      (left : (before, .worker p (.leave false (.ok output))) ∈ taken) :
      Answers taken kind ctxHandle handle p (.error (createError kind.answered .memory))
  | gave {before : Option Addon} {malloc : Bool} {output : StepOutput}
      (left : (before, .worker p (.leave malloc (.ok output))) ∈ taken) :
      Answers taken kind ctxHandle handle p (.ok (stepResult output))

theorem Answers.later {taken : List (Option Addon × AddonAction)} {kind : StepKind}
    {ctxHandle handle p : ℕ} {settlement : Except String StepResult}
    (h : Answers taken kind ctxHandle handle p settlement) (step : Option Addon × AddonAction) :
    Answers (taken ++ [step]) kind ctxHandle handle p settlement := by
  cases h with
  | gone looked at_ released => exact .gone (List.mem_append_left _ looked) at_ released
  | released entered at_ null => exact .released (List.mem_append_left _ entered) at_ null
  | ended entered at_ spent => exact .ended (List.mem_append_left _ entered) at_ spent
  | threw left => exact .threw (List.mem_append_left _ left)
  | memory left => exact .memory (List.mem_append_left _ left)
  | gave left => exact .gave (List.mem_append_left _ left)

/-- The answer that a phase of a step will come to. -/
def Phase.Answer (m : Memory) (taken : List (Option Addon × AddonAction)) (kind : StepKind)
    (ctxHandle handle p : ℕ) : Phase → Prop
  | .returned (.error err) =>
    Answers taken kind ctxHandle handle p (.error (createError kind.answered err))
  | .returned (.ok (none, state)) =>
    Answers taken kind ctxHandle handle p (.ok (stepComplete [] state))
  | .returned (.ok (some buf, state)) => ∃ content, m.at? buf = some (.block content) ∧
      Answers taken kind ctxHandle handle p (.ok (stepComplete content state))
  | .executed settlement => Answers taken kind ctxHandle handle p settlement
  | _ => True

theorem Phase.Answer.later {m m' : Memory} {taken : List (Option Addon × AddonAction)}
    {kind : StepKind} {ctxHandle handle p : ℕ} {phase : Phase}
    (h : phase.Answer m taken kind ctxHandle handle p) (step : Option Addon × AddonAction)
    (stays : ∀ buf content, phase.buffer = some buf → m.at? buf = some (.block content) →
      m'.at? buf = some (.block content)) :
    phase.Answer m' (taken ++ [step]) kind ctxHandle handle p := by
  cases phase with
  | returned result =>
      cases result with
      | error err => exact Answers.later h step
      | ok result =>
          obtain ⟨buf, state⟩ := result
          cases buf with
          | none => exact Answers.later h step
          | some buf =>
              obtain ⟨content, there, answer⟩ := h
              exact ⟨content, stays buf content rfl there, answer.later step⟩
  | executed settlement => exact Answers.later h step
  | _ => trivial

theorem stepResult_eq (output : StepOutput) :
    stepResult output = stepComplete (output.outbound.getD []) output.state := by
  obtain ⟨state, outbound⟩ := output
  cases outbound with
  | none => rfl
  | some bytes => cases bytes <;> rfl

section Execute

variable {s : Addon} {kind : StepKind} {ctxHandle handle p : ℕ} {m : Memory} {phase : Phase}
  {taken : List (Option Addon × AddonAction)}

theorem executeCheck_answer (looked : (some s, .worker p .check) ∈ taken)
    (at_ : s.works.at? p = some ⟨kind, ctxHandle, handle, .queued⟩)
    (h : executeCheck s.js ⟨kind, ctxHandle, handle, .queued⟩ = some phase) :
    phase.Answer m taken kind ctxHandle handle p := by
  obtain ⟨ctx, readCtx, h⟩ := Option.bind_eq_some_iff.mp h
  cases ctx with
  | none =>
      cases h
      exact Answers.gone looked at_ (.inl readCtx)
  | some ctx =>
      obtain ⟨pointer, readHandle, h⟩ := Option.bind_eq_some_iff.mp h
      cases pointer with
      | none =>
          cases h
          exact Answers.gone looked at_ (.inr readHandle)
      | some pointer =>
          cases h
          trivial

theorem executeEnter_answer {ctx pointer : Option ℕ}
    (entered : (some s, .worker p .enter) ∈ taken)
    (at_ : s.works.at? p = some ⟨kind, ctxHandle, handle, .called ctx pointer⟩)
    (h : executeEnter s.js kind ctx pointer = some phase) :
    phase.Answer m taken kind ctxHandle handle p := by
  cases ctx with
  | none =>
      cases h
      exact Answers.released entered at_ (.inl rfl)
  | some ctx =>
      cases pointer with
      | none =>
          cases h
          exact Answers.released entered at_ (.inr rfl)
      | some pointer =>
          obtain ⟨held, looked, h⟩ := Option.bind_eq_some_iff.mp h
          obtain ⟨⟨held', owner⟩, read, ⟨⟩⟩ := Option.bind_eq_some_iff.mp looked
          cases held with
          | false =>
              cases h
              exact Answers.ended entered at_ (handle?_eq_some.mp read)
          | true =>
              cases h
              trivial

theorem executeLeave_answer {malloc : Bool} {output : Except BridgeException StepOutput}
    {ctx pointer : ℕ} {before : Option Addon}
    (left : (before, .worker p (.leave malloc output)) ∈ taken)
    (h : executeLeave s.js kind malloc output ctx pointer = some (m, phase)) :
    phase.Answer m taken kind ctxHandle handle p := by
  obtain ⟨⟨m', result⟩, returned, ⟨⟩⟩ := Option.bind_eq_some_iff.mp h
  obtain ⟨⟨held, owner⟩, _, returned⟩ := Option.bind_eq_some_iff.mp returned
  cases held with
  | false => cases returned
  | true =>
  cases output with
  | error exception =>
      cases returned
      exact Answers.threw left
  | ok output =>
  have gave : Answers taken kind ctxHandle handle p (.ok (stepResult output)) := .gave left
  rw [stepResult_eq] at gave
  obtain ⟨⟨m'', copied⟩, copies, ⟨⟩⟩ := Option.bind_eq_some_iff.mp returned
  unfold copyOut at copies
  split at copies
  · rename_i empty
    rw [empty] at gave
    cases copies
    exact gave
  · obtain ⟨_, _, copies⟩ := Option.bind_eq_some_iff.mp copies
    cases malloc with
    | false =>
        cases copies
        exact Answers.memory left
    | true =>
        cases copies
        exact ⟨_, s.js.objects.add_self _, gave⟩

theorem executeFinish_answer {work : Work}
    {result : Except MaanyMpcError (Option ℕ × StepState)}
    (answer : (Phase.returned result).Answer s.js.objects taken work.kind ctxHandle handle p)
    (h : executeFinish s.js work result = some (m, phase)) :
    phase.Answer m taken work.kind ctxHandle handle p := by
  cases result with
  | error err =>
      cases h
      exact answer
  | ok result =>
      obtain ⟨buf, state⟩ := result
      cases buf with
      | none =>
          cases h
          exact answer
      | some buf =>
          obtain ⟨content, there, gave⟩ := answer
          obtain ⟨content', read, h⟩ := Option.bind_eq_some_iff.mp h
          obtain ⟨ctx, _, h⟩ := Option.bind_eq_some_iff.mp h
          obtain ⟨m', _, ⟨⟩⟩ := Option.bind_eq_some_iff.mp h
          obtain ⟨⟩ := there.symm.trans (block?_eq_some.mp read)
          exact gave

/-- A step of the worker brings it closer to its answer. -/
theorem execute_answer {a : WorkerAction} {old : Phase}
    (at_ : s.works.at? p = some ⟨kind, ctxHandle, handle, old⟩)
    (answer : old.Answer s.js.objects taken kind ctxHandle handle p)
    (h : execute s.js ⟨kind, ctxHandle, handle, old⟩ a old = some (some (m, phase))) :
    phase.Answer m (taken ++ [(some s, .worker p a)]) kind ctxHandle handle p := by
  have last : (some s, AddonAction.worker p a) ∈ taken ++ [(some s, .worker p a)] :=
    List.mem_append_right _ (List.mem_singleton.mpr rfl)
  cases a with
  | check =>
      cases old with
      | queued =>
          obtain ⟨_, checked, ⟨⟩⟩ := Option.map_eq_some_iff.mp (Option.some.inj h)
          exact executeCheck_answer last at_ checked
      | _ => cases h
  | call =>
      cases old with
      | checked =>
          obtain ⟨_, called, ⟨⟩⟩ := Option.map_eq_some_iff.mp (Option.some.inj h)
          obtain ⟨ctx, _, called⟩ := Option.bind_eq_some_iff.mp called
          obtain ⟨pointer, _, ⟨⟩⟩ := Option.bind_eq_some_iff.mp called
          trivial
      | _ => cases h
  | enter =>
      cases old with
      | called ctx pointer =>
          obtain ⟨_, entered, ⟨⟩⟩ := Option.map_eq_some_iff.mp (Option.some.inj h)
          exact executeEnter_answer last at_ entered
      | _ => cases h
  | leave malloc output =>
      cases old with
      | inside => exact executeLeave_answer last (Option.some.inj h)
      | _ => cases h
  | finish =>
      cases old with
      | returned =>
          exact executeFinish_answer (answer.later _ fun _ _ _ => id) (Option.some.inj h)
      | _ => cases h

end Execute

/-! ## Runs -/

section Runs

variable {taken : List (Option Addon × AddonAction)} {events : List AddonEvent} {s : Option Addon}

/-- The step was completed with an answer of its own. -/
def Settled (taken : List (Option Addon × AddonAction)) (p : ℕ)
    (answer : Except String StepResult) : Prop :=
  ∃ (before : Addon) (work : Work), (some before, .complete p) ∈ taken ∧
    before.works.at? p = some work ∧ Answers taken work.kind work.ctxHandle work.handle p answer

theorem Settled.later {p : ℕ} {answer : Except String StepResult} (h : Settled taken p answer)
    (step : Option Addon × AddonAction) : Settled (taken ++ [step]) p answer := by
  obtain ⟨before, work, completed, at_, given⟩ := h
  exact ⟨before, work, List.mem_append_left _ completed, at_, given.later step⟩

/-- Every worker is on its way to its own answer. -/
def AllAnswer (taken : List (Option Addon × AddonAction)) (s : Addon) : Prop :=
  ∀ p work, s.works.at? p = some work →
    work.phase.Answer s.js.objects taken work.kind work.ctxHandle work.handle p

theorem Acts.answers {s s' : Addon} {a : AddonAction} (acts : Acts s a (some s'))
    (ledger : Ledger s) (answers : AllAnswer taken s) : AllAnswer (taken ++ [(some s, a)]) s' := by
  generalize next : some s' = n at acts
  cases acts with
  | @call c q called =>
      have spec := call_spec ledger.sound nodeTexts called
      by_cases ok : InOrder s.js c
      · obtain ⟨js, reply, rfl, effect⟩ := spec.defined ok
        obtain rfl := Option.some.inj next
        exact fun p work at_ =>
          (answers p work at_).later _ fun _ _ _ there => effect.block ledger.sound there
      · rw [spec.undefined ok] at next
        cases next
  | refuse =>
      obtain rfl := Option.some.inj next
      exact fun p work at_ => (answers p work at_).later _ fun _ _ _ => id
  | queue =>
      obtain rfl := Option.some.inj next
      intro p work at_
      rcases Objects.of_add at_ with ⟨_, rfl⟩ | ⟨_, old⟩
      · trivial
      · exact (answers p work old).later _ fun _ _ _ => id
  | @worker p b work q at_ executed =>
      cases q with
      | none => cases next
      | some q =>
          obtain rfl := Option.some.inj next
          intro p' work' at'
          obtain ⟨old, there, ⟨rfl, rfl⟩ | ⟨other, rfl⟩⟩ := Objects.of_modify at'
          · obtain rfl := Option.some.inj (at_.symm.trans there)
            have given : q.2.Answer q.1 (taken ++ [(some s, .worker p' b)]) work.kind
                work.ctxHandle work.handle p' :=
              execute_answer at_ (answers p' work at_) executed
            exact given
          · -- the buffer of another worker is not touched
            refine (answers p' work' there).later _ fun buf content buffer block => ?_
            refine (execute_moves executed).block block fun same => ?_
            exact other (ledger.apart p' p work' work buf there at_ buffer same)
  | complete =>
      obtain rfl := Option.some.inj next
      exact fun p work at_ => (answers p work (Objects.of_drop at_).2).later _ fun _ _ _ => id

/-- Whatever the other workers and JavaScript do meanwhile, a promise that is settled is settled
at the end of its own step, with what the session has returned to the step's worker, or with the
reason why it has returned nothing. -/
theorem addon_answers (run : addonMachine.Run taken events s) {e : AddonEvent} (mem : e ∈ events)
    {p : ℕ} {answer : Except String StepResult} (settles : e.settlement = some (p, answer)) :
    Settled taken p answer := by
  have all : (∀ s', s = some s' → AllAnswer taken s') ∧
      ∀ e ∈ events, ∀ p answer, e.settlement = some (p, answer) → Settled taken p answer := by
    refine run.history_invariant (fun taken events s => (∀ s', s = some s' → AllAnswer taken s') ∧
      ∀ e ∈ events, ∀ p answer, e.settlement = some (p, answer) → Settled taken p answer) ?_ ?_
    · refine ⟨?_, fun _ mem => by cases mem⟩
      rintro s' rfl'
      obtain rfl := Option.some.inj rfl'
      exact fun _ _ at_ => by cases at_
    · rintro taken events s a s' emitted before ⟨answers, settled⟩ hstep
      obtain ⟨s₀, rfl, acts⟩ := addon_acts hstep
      refine ⟨?_, fun e mem p answer settles => ?_⟩
      · rintro s'' rfl
        exact acts.answers (addon_ledger before s₀ rfl) (answers s₀ rfl)
      · rcases List.mem_append.mp mem with mem | mem
        · exact (settled e mem p answer settles).later _
        · obtain ⟨rfl, work, at_, phase⟩ := addon_completes hstep mem settles
          have given := answers s₀ rfl p work at_
          rw [phase] at given
          exact ⟨s₀, work, List.mem_append_right _ (List.mem_singleton.mpr rfl), at_,
            Answers.later given _⟩
  exact all.2 e mem p answer settles

/-- A step that returns one byte. -/
theorem addon_answers_step : ∃ taken events s, addonMachine.Run taken events s ∧
    Settled taken 0 (.ok ⟨some [1], false⟩) := by
  have run := (((((((((Machine.Run.start (M := addonMachine)).next
    (a := .call (.init true true)) rfl).next
    (a := .call (.dkgNew true (.ok ()) 0)) rfl).next
    (a := .dkgStep 0 1) rfl).next
    (a := .worker 0 .check) rfl).next
    (a := .worker 0 .call) rfl).next
    (a := .worker 0 .enter) rfl).next
    (a := .worker 0 (.leave true (.ok ⟨.continue, some [1]⟩))) rfl).next
    (a := .worker 0 .finish) rfl).next
    (a := .complete 0) rfl
  exact ⟨_, _, _, run, addon_answers run (List.mem_append_right _ (List.mem_singleton.mpr rfl)) rfl⟩

end Runs

end MaanyMpc.Lifetimes
