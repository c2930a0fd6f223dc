import MaanyMpc.Lifetimes.Addon

/-! # What workers do to the memory

A worker allocates its outbound buffer and frees it. Whatever JavaScript does meanwhile, and as
long as nothing is undefined, the buffers of the workers are there and are not mixed up. -/

namespace MaanyMpc.Lifetimes

open Custody Transition

/-- The outbound buffer. -/
def Phase.buffer : Phase → Option ℕ
  | .returned (.ok (buf, _)) => buf
  | _ => none

/-! ## Blocks -/

/-- One block more, or one block less. -/
inductive Blocks (m : Memory) : Memory → Prop where
  | same {m' : Memory} (same : Objects.Same m m') : Blocks m m'
  | more (content : Bytes) : Blocks m (m.add (.block content))
  | less {buf : ℕ} {content : Bytes} {m' : Memory} (there : m.at? buf = some (.block content))
      (same : Objects.Same (m.drop buf) m') : Blocks m m'

namespace Blocks

variable {m m' : Memory} (h : Blocks m m')

theorem not_needs (content : Bytes) : ¬ Needs Wraps (.block content) := by
  rintro ⟨kind, wraps⟩
  exact wraps_of_needs kind wraps content rfl

include h

theorem sound {holders : Objects (Holder WrapperKind)} (sound : Sound Wraps ⟨m, holders⟩) :
    Sound Wraps ⟨m', holders⟩ := by
  cases h with
  | same same => exact sound.congr same.at? rfl
  | more content => exact sound.keeps (.add m (not_needs content))
  | @less _ content _ there same =>
      exact (sound.keeps (.drop there (not_needs content))).congr same.at? rfl

/-- A handle stays as it is. -/
theorem handle {p owner : ℕ} {kind : HandleKind} {held : Bool}
    (at_ : m.at? p = some (.handle kind held owner)) :
    m'.at? p = some (.handle kind held owner) := by
  cases h with
  | same same => exact same.at? ▸ at_
  | more => exact Objects.add_of_some _ at_
  | less there same =>
      rw [same.at?]
      refine (m.drop_of_ne ?_).trans at_
      rintro rfl
      rw [there] at at_
      cases at_

theorem gone {p : ℕ} (gone : Objects.Gone m p) : Objects.Gone m' p := by
  cases h with
  | same same => exact gone.same same
  | more => exact gone.add _
  | less _ same => exact (gone.drop _).same same

theorem stranded {holders : Objects (Holder WrapperKind)} {kind : HandleKind} {w p owner : ℕ}
    (stranded : Stranded ⟨m, holders⟩ kind w p owner) :
    Stranded ⟨m', holders⟩ kind w p owner := by
  obtain ⟨points, ⟨held, there⟩, gone⟩ := stranded
  exact ⟨points, ⟨held, h.handle there⟩, h.gone gone⟩

end Blocks

/-! ## Workers -/

/-- A worker allocates nothing but its outbound buffer, and frees nothing else. -/
inductive Moves (m : Memory) : Phase → Memory → Phase → Prop where
  | stay {phase phase' : Phase} (new : phase'.buffer = none) : Moves m phase m phase'
  | copied {phase : Phase} (content : Bytes) (state : StepState) :
      Moves m phase (m.add (.block content)) (.returned (.ok (some m.next, state)))
  | freed {phase phase' : Phase} {buf : ℕ} {content : Bytes} {m' : Memory}
      (old : phase.buffer = some buf) (new : phase'.buffer = none)
      (there : m.at? buf = some (.block content)) (same : Objects.Same (m.drop buf) m') :
      Moves m phase m' phase'

namespace Moves

variable {m m' : Memory} {phase phase' : Phase} (h : Moves m phase m' phase')

include h

theorem blocks : Blocks m m' := by
  cases h with
  | stay => exact .same (.refl m)
  | copied content => exact .more content
  | freed _ _ there same => exact .less there same

/-- A block stays unless it is the outbound buffer. -/
theorem block {p : ℕ} {content : Bytes} (at_ : m.at? p = some (.block content))
    (other : phase.buffer ≠ some p) : m'.at? p = some (.block content) := by
  cases h with
  | stay => exact at_
  | copied => exact Objects.add_of_some _ at_
  | freed old _ _ same =>
      rw [same.at?]
      refine (m.drop_of_ne ?_).trans at_
      rintro rfl
      exact other old

/-- The new outbound buffer is a new block. -/
theorem buffer {buf : ℕ} (new : phase'.buffer = some buf) :
    (∃ content, m'.at? buf = some (.block content)) ∧ m.at? buf = none := by
  cases h with
  | stay none | freed _ none =>
      rw [none] at new
      cases new
  | copied =>
      obtain rfl := Option.some.inj new
      exact ⟨⟨_, m.add_self _⟩, m.fresh m.next (Nat.le_refl _)⟩

theorem old_block {p : ℕ} {content : Bytes} (at' : m'.at? p = some (.block content)) :
    phase'.buffer = some p ∨ m.at? p = some (.block content) := by
  cases h with
  | stay => exact .inr at'
  | copied =>
      rcases Objects.of_add at' with ⟨rfl, _⟩ | ⟨_, old⟩
      · exact .inl rfl
      · exact .inr old
  | freed _ _ _ same =>
      rw [same.at?] at at'
      exact .inr (Objects.of_drop at').2

end Moves

theorem executeCheck_buffer {js : Js} {work : Work} {phase : Phase}
    (h : executeCheck js work = some phase) : phase.buffer = none := by
  obtain ⟨ctx, _, h⟩ := Option.bind_eq_some_iff.mp h
  cases ctx with
  | none =>
      cases h
      rfl
  | some ctx =>
      obtain ⟨handle, _, h⟩ := Option.bind_eq_some_iff.mp h
      cases handle <;> cases h <;> rfl

theorem executeCall_buffer {js : Js} {work : Work} {phase : Phase}
    (h : executeCall js work = some phase) : phase.buffer = none := by
  obtain ⟨ctx, _, h⟩ := Option.bind_eq_some_iff.mp h
  obtain ⟨handle, _, h⟩ := Option.bind_eq_some_iff.mp h
  cases h
  rfl

theorem executeEnter_buffer {js : Js} {kind : StepKind} {ctx handle : Option ℕ} {phase : Phase}
    (h : executeEnter js kind ctx handle = some phase) : phase.buffer = none := by
  cases ctx with
  | none =>
      cases h
      rfl
  | some ctx =>
      cases handle with
      | none =>
          cases h
          rfl
      | some handle =>
          obtain ⟨held, _, h⟩ := Option.bind_eq_some_iff.mp h
          cases held <;> cases h <;> rfl

theorem copyOut_moves {m m' : Memory} {malloc : Bool} {ctx : ℕ} {src : Bytes}
    {copied : Except MaanyMpcError (Option ℕ)} (phase : Phase) (state : StepState)
    (h : copyOut m malloc ctx src = some (m', copied)) :
    Moves m phase m' (.returned (copied.map (·, state))) := by
  unfold copyOut at h
  split at h
  · cases h
    exact .stay rfl
  · obtain ⟨_, _, h⟩ := Option.bind_eq_some_iff.mp h
    cases malloc
    · cases h
      exact .stay rfl
    · cases h
      exact .copied src state

theorem executeLeave_moves {js : Js} {kind : StepKind} {malloc : Bool}
    {output : Except BridgeException StepOutput} {ctx handle : ℕ} {m : Memory} {phase' : Phase}
    (phase : Phase) (h : executeLeave js kind malloc output ctx handle = some (m, phase')) :
    Moves js.objects phase m phase' := by
  obtain ⟨⟨m', result⟩, left, ⟨⟩⟩ := Option.bind_eq_some_iff.mp h
  obtain ⟨⟨held, owner⟩, _, left⟩ := Option.bind_eq_some_iff.mp left
  cases held with
  | false => cases left
  | true =>
      cases output with
      | error exception =>
          cases left
          exact .stay rfl
      | ok output =>
          obtain ⟨⟨m'', copied⟩, copies, ⟨⟩⟩ := Option.bind_eq_some_iff.mp left
          exact copyOut_moves phase output.state copies

theorem executeFinish_moves {js : Js} {work : Work}
    {result : Except MaanyMpcError (Option ℕ × StepState)} {m : Memory} {phase : Phase}
    (h : executeFinish js work result = some (m, phase)) :
    Moves js.objects (.returned result) m phase := by
  cases result with
  | error err =>
      cases h
      exact .stay rfl
  | ok result =>
      obtain ⟨buf, state⟩ := result
      cases buf with
      | none =>
          cases h
          exact .stay rfl
      | some buf =>
          obtain ⟨content, read, h⟩ := Option.bind_eq_some_iff.mp h
          obtain ⟨ctx, _, h⟩ := Option.bind_eq_some_iff.mp h
          obtain ⟨m', freed, ⟨⟩⟩ := Option.bind_eq_some_iff.mp h
          cases ctx with
          | none =>
              -- the context is gone, and the buffer stays
              cases freed
              exact .stay rfl
          | some ctx =>
              obtain ⟨_, _, freed⟩ := Option.bind_eq_some_iff.mp freed
              obtain ⟨_, _, ⟨⟩⟩ := Option.bind_eq_some_iff.mp freed
              exact .freed rfl rfl (block?_eq_some.mp read)
                ⟨Objects.drop_modify .., Nat.le_refl _⟩

theorem execute_moves {js : Js} {work : Work} {a : WorkerAction} {m : Memory} {phase : Phase}
    (h : execute js work a work.phase = some (some (m, phase))) :
    Moves js.objects work.phase m phase := by
  obtain ⟨kind, c, w, old⟩ := work
  cases a with
  | check =>
      cases old with
      | queued =>
          obtain ⟨_, checked, ⟨⟩⟩ := Option.map_eq_some_iff.mp (Option.some.inj h)
          exact .stay (executeCheck_buffer checked)
      | _ => cases h
  | call =>
      cases old with
      | checked =>
          obtain ⟨_, called, ⟨⟩⟩ := Option.map_eq_some_iff.mp (Option.some.inj h)
          exact .stay (executeCall_buffer called)
      | _ => cases h
  | enter =>
      cases old with
      | called =>
          obtain ⟨_, entered, ⟨⟩⟩ := Option.map_eq_some_iff.mp (Option.some.inj h)
          exact .stay (executeEnter_buffer entered)
      | _ => cases h
  | leave malloc output =>
      cases old with
      | inside => exact executeLeave_moves _ (Option.some.inj h)
      | _ => cases h
  | finish =>
      cases old with
      | returned => exact executeFinish_moves (Option.some.inj h)
      | _ => cases h

/-! ## One action -/

/-- What an action makes of the addon; `none` if it is undefined. -/
inductive Acts (s : Addon) : AddonAction → Option Addon → Prop where
  | call {c : Call} {q : Option (Js × Reply)} (called : call nodeTexts s.js c = some q) :
      Acts s (.call c) (q.map fun q => { s with js := q.1 })
  /-- a step with a released handle -/
  | refuse (a : AddonAction) : Acts s a (some s)
  | queue (a : AddonAction) {kind : StepKind} {ctxHandle handle ctx pointer : ℕ}
      (points : Points s.js .ctx ctxHandle ctx)
      (points' : Points s.js (.handle kind.handle) handle pointer) :
      Acts s a (some { s with works := s.works.add ⟨kind, ctxHandle, handle, .queued⟩ })
  | worker {p : ℕ} {b : WorkerAction} {work : Work} {q : Option (Memory × Phase)}
      (at_ : s.works.at? p = some work) (executed : execute s.js work b work.phase = some q) :
      Acts s (.worker p b) (q.map fun q => ⟨{ s.js with objects := q.1 },
        s.works.modify p fun work => { work with phase := q.2 }⟩)
  | complete {p : ℕ} {work : Work} {event : AddonEvent} (at_ : s.works.at? p = some work)
      (settled : Lifetimes.complete p work.phase = some event) :
      Acts s (.complete p) (some { s with works := s.works.drop p })

theorem jsStep_acts {s : Addon} {a : AddonAction} (kind : StepKind) {ctxHandle handle : ℕ}
    {ctx pointer : Option ℕ} (at_ : pointer? s.js .ctx ctxHandle = some ctx)
    (at' : pointer? s.js (.handle kind.handle) handle = some pointer) :
    Acts s a (some (jsStep kind s ctxHandle handle ctx pointer).1) := by
  cases ctx with
  | none => exact .refuse a
  | some ctx =>
      cases pointer with
      | none => exact .refuse a
      | some pointer => exact .queue a (pointer?_eq_some.mp at_) (pointer?_eq_some.mp at')

theorem addonAct_acts {s : Addon} {a : AddonAction} {r : Option (Addon × List AddonEvent)}
    (h : addonAct s a = some r) : Acts s a (r.map Prod.fst) := by
  cases a with
  | call c =>
      obtain ⟨q, called, same⟩ := Option.bind_eq_some_iff.mp h
      obtain rfl := Option.some.inj same
      have acts := Acts.call called
      cases q <;> exact acts
  | dkgStep ctxHandle handle =>
      obtain ⟨ctx, at_, h⟩ := Option.bind_eq_some_iff.mp h
      obtain ⟨pointer, at', same⟩ := Option.bind_eq_some_iff.mp h
      exact Option.some.inj same ▸ jsStep_acts .dkg at_ at'
  | signStep ctxHandle handle =>
      obtain ⟨ctx, at_, h⟩ := Option.bind_eq_some_iff.mp h
      obtain ⟨pointer, at', same⟩ := Option.bind_eq_some_iff.mp h
      exact Option.some.inj same ▸ jsStep_acts .sign at_ at'
  | worker p b =>
      obtain ⟨work, at_, h⟩ := Option.bind_eq_some_iff.mp h
      obtain ⟨q, executed, same⟩ := Option.bind_eq_some_iff.mp h
      obtain rfl := Option.some.inj same
      have acts := Acts.worker at_ executed
      cases q <;> exact acts
  | complete p =>
      obtain ⟨work, at_, h⟩ := Option.bind_eq_some_iff.mp h
      obtain ⟨event, settled, same⟩ := Option.bind_eq_some_iff.mp h
      obtain rfl := Option.some.inj same
      exact .complete at_ settled

/-! ## The ledger -/

theorem Effect.block {s s' : Js} {c : Call} (sound : Sound Wraps s) (h : Effect s c s') {p : ℕ}
    {content : Bytes}
    (at_ : s.objects.at? p = some (.block content)) :
    s'.objects.at? p = some (.block content) := by
  have apart : ∀ {kind : WrapperKind} {v q : ℕ}, Points s kind v q → p ≠ q := by
    rintro kind v q points rfl
    obtain ⟨object, there, wraps⟩ := sound.alive v _ p points rfl
    exact wraps_of_needs kind wraps content (Option.some.inj (there.symm.trans at_))
  cases h with
  | keep same => exact same.at? ▸ at_
  | leak filled _ => exact filled.old _ _ at_
  | grant => exact Objects.add_of_some _ at_
  | shutdown points | free points _ | collectCtx points | collectHandle points _ =>
      exact (s.objects.drop_of_ne (apart points)).trans at_
  | reset points => exact (s.objects.modify_of_ne _ (apart points)).trans at_
  | finalize points _ _ =>
      refine (Objects.drop_of_ne _ (apart points)).trans (Objects.add_of_some _ ?_)
      exact (s.objects.modify_of_ne _ (apart points)).trans at_
  | collectNull => exact at_

/-- A defined action releases and collects as a call does, or moves blocks. -/
theorem Acts.js {s s' : Addon} {a : AddonAction} (acts : Acts s a (some s'))
    (sound : Sound Wraps s.js) :
    (∃ c, Effect s.js c s'.js) ∨
      ∃ m, s'.js = { s.js with objects := m } ∧ Blocks s.js.objects m := by
  generalize next : some s' = n at acts
  cases acts with
  | @call c q called =>
      have spec := call_spec sound nodeTexts called
      by_cases ok : InOrder s.js c
      · obtain ⟨js, reply, rfl, effect⟩ := spec.defined ok
        obtain rfl := Option.some.inj next
        exact .inl ⟨c, effect⟩
      · rw [spec.undefined ok] at next
        cases next
  | refuse | queue | complete =>
      obtain rfl := Option.some.inj next
      exact .inr ⟨_, rfl, .same (.refl _)⟩
  | @worker _ _ _ q _ executed =>
      cases q with
      | none => cases next
      | some q =>
          obtain rfl := Option.some.inj next
          exact .inr ⟨q.1, rfl, (execute_moves executed).blocks⟩

theorem Acts.sound {s s' : Addon} {a : AddonAction} (acts : Acts s a (some s'))
    (sound : Sound Wraps s.js) : Sound Wraps s'.js := by
  rcases acts.js sound with ⟨c, effect⟩ | ⟨m, same, blocks⟩
  · exact effect.sound sound
  · rw [same]
    exact blocks.sound sound

structure Ledger (s : Addon) : Prop where
  sound : Sound Wraps s.js
  filled : ∀ p work buf, s.works.at? p = some work → work.phase.buffer = some buf →
    ∃ content, s.js.objects.at? buf = some (.block content)
  apart : ∀ p q work work' buf, s.works.at? p = some work → s.works.at? q = some work' →
    work.phase.buffer = some buf → work'.phase.buffer = some buf → p = q

namespace Ledger

variable {s : Addon} (ledger : Ledger s)

theorem init : Ledger ⟨⟨.empty, .empty⟩, .empty⟩ where
  sound := .empty
  filled _ _ _ h := by cases h
  apart _ _ _ _ _ h := by cases h

include ledger

theorem queue {work : Work} (none : work.phase.buffer = none) :
    Ledger { s with works := s.works.add work } := by
  refine ⟨ledger.sound, ?_, ?_⟩
  · intro p work' buf at_ buffer
    rcases Objects.of_add at_ with ⟨_, rfl⟩ | ⟨_, old⟩
    · rw [none] at buffer
      cases buffer
    · exact ledger.filled p work' buf old buffer
  · intro p q work' work'' buf at_ at' buffer buffer'
    rcases Objects.of_add at_ with ⟨_, rfl⟩ | ⟨_, old⟩
    · rw [none] at buffer
      cases buffer
    · rcases Objects.of_add at' with ⟨_, rfl⟩ | ⟨_, old'⟩
      · rw [none] at buffer'
        cases buffer'
      · exact ledger.apart p q work' work'' buf old old' buffer buffer'

/-- The buffer of one worker is none of the others'. -/
theorem work {p : ℕ} {w : Work} (at_ : s.works.at? p = some w) {m : Memory} {phase : Phase}
    (h : Moves s.js.objects w.phase m phase) :
    Ledger ⟨{ s.js with objects := m }, s.works.modify p fun w => { w with phase }⟩ := by
  refine ⟨h.blocks.sound ledger.sound, ?_, ?_⟩
  · intro q work buf at' buffer
    obtain ⟨old, there, ⟨rfl, rfl⟩ | ⟨other, rfl⟩⟩ := Objects.of_modify at'
    · exact (h.buffer buffer).1
    · obtain ⟨content, block⟩ := ledger.filled q work buf there buffer
      refine ⟨content, h.block block fun same => ?_⟩
      exact other (ledger.apart q p work w buf there at_ buffer same)
  · -- a new buffer is none of the old ones
    have fresh : ∀ q work buf, s.works.at? q = some work → work.phase.buffer = some buf →
        phase.buffer ≠ some buf := by
      intro q work buf there buffer new
      obtain ⟨content, block⟩ := ledger.filled q work buf there buffer
      rw [(h.buffer new).2] at block
      cases block
    intro q q' work work' buf at' at'' buffer buffer'
    obtain ⟨old, there, ⟨rfl, rfl⟩ | ⟨_, rfl⟩⟩ := Objects.of_modify at'
    · obtain ⟨old', there', ⟨rfl, _⟩ | ⟨_, rfl⟩⟩ := Objects.of_modify at''
      · rfl
      · exact absurd buffer (fresh q' work' buf there' buffer')
    · obtain ⟨old', there', ⟨rfl, rfl⟩ | ⟨_, rfl⟩⟩ := Objects.of_modify at''
      · exact absurd buffer' (fresh q work buf there buffer)
      · exact ledger.apart q q' work work' buf there there' buffer buffer'

theorem complete {p : ℕ} : Ledger { s with works := s.works.drop p } where
  sound := ledger.sound
  filled q work buf at_ := ledger.filled q work buf (Objects.of_drop at_).2
  apart p' q work work' buf at_ at' :=
    ledger.apart p' q work work' buf (Objects.of_drop at_).2 (Objects.of_drop at').2

end Ledger

theorem Acts.ledger {s s' : Addon} {a : AddonAction} (acts : Acts s a (some s'))
    (ledger : Ledger s) : Ledger s' := by
  generalize next : some s' = n at acts
  cases acts with
  | @call c q called =>
      have spec := call_spec ledger.sound nodeTexts called
      by_cases ok : InOrder s.js c
      · obtain ⟨js, reply, rfl, effect⟩ := spec.defined ok
        obtain rfl := Option.some.inj next
        refine ⟨effect.sound ledger.sound, fun p work buf at_ buffer => ?_, ledger.apart⟩
        obtain ⟨content, there⟩ := ledger.filled p work buf at_ buffer
        exact ⟨content, effect.block ledger.sound there⟩
      · rw [spec.undefined ok] at next
        cases next
  | refuse =>
      obtain rfl := Option.some.inj next
      exact ledger
  | queue =>
      obtain rfl := Option.some.inj next
      exact ledger.queue rfl
  | @worker _ _ _ q at_ executed =>
      cases q with
      | none => cases next
      | some q =>
          obtain rfl := Option.some.inj next
          exact ledger.work at_ (execute_moves executed)
  | complete =>
      obtain rfl := Option.some.inj next
      exact ledger.complete

/-! ## Runs -/

section Runs

variable {taken : List (Option Addon × AddonAction)} {events : List AddonEvent} {s : Option Addon}

theorem addon_acts {a : AddonAction} {next : Option Addon × List AddonEvent}
    (h : addonMachine.step s a = some next) : ∃ s₀, s = some s₀ ∧ Acts s₀ a next.1 := by
  cases s with
  | none => cases h
  | some s₀ =>
      obtain ⟨r, acted, rfl⟩ := Option.map_eq_some_iff.mp h
      refine ⟨s₀, rfl, ?_⟩
      have acts := addonAct_acts acted
      cases r <;> exact acts

theorem addon_ledger (run : addonMachine.Run taken events s) :
    ∀ s', s = some s' → Ledger s' := by
  refine run.invariant (fun _ s => ∀ s', s = some s' → Ledger s') ?_ ?_
  · rintro s' rfl'
    obtain rfl := Option.some.inj rfl'
    exact .init
  · rintro events s a s' emitted before hstep s'' rfl
    obtain ⟨s₀, rfl, acts⟩ := addon_acts hstep
    exact acts.ledger (before s₀ rfl)

/-- What an event settles a promise with. -/
def AddonEvent.settlement : AddonEvent → Option (ℕ × Except String StepResult)
  | .resolved p result => some (p, .ok result)
  | .rejected p message => some (p, .error message)
  | _ => none

/-- Only the end of a step settles a promise. -/
theorem addonAct_completes {s s' : Addon} {a : AddonAction} {emitted : List AddonEvent}
    (h : addonAct s a = some (some (s', emitted))) {e : AddonEvent} (mem : e ∈ emitted) {p : ℕ}
    {answer : Except String StepResult} (settles : e.settlement = some (p, answer)) :
    a = .complete p ∧ ∃ work, s.works.at? p = some work ∧ work.phase = .executed answer := by
  have steps : ∀ {kind : StepKind} {ctxHandle handle : ℕ} {ctx pointer : Option ℕ},
      jsStep kind s ctxHandle handle ctx pointer ≠ (s', emitted) := by
    intro kind ctxHandle handle ctx pointer same
    cases ctx <;> cases pointer <;> cases same <;> cases List.mem_singleton.mp mem <;> cases settles
  cases a with
  | call c =>
      obtain ⟨q, _, h⟩ := Option.bind_eq_some_iff.mp h
      obtain ⟨r, _, ⟨⟩⟩ := Option.map_eq_some_iff.mp (Option.some.inj h)
      cases List.mem_singleton.mp mem
      cases settles
  | dkgStep ctxHandle handle =>
      obtain ⟨ctx, _, h⟩ := Option.bind_eq_some_iff.mp h
      obtain ⟨pointer, _, h⟩ := Option.bind_eq_some_iff.mp h
      exact absurd (Option.some.inj (Option.some.inj h)) steps
  | signStep ctxHandle handle =>
      obtain ⟨ctx, _, h⟩ := Option.bind_eq_some_iff.mp h
      obtain ⟨pointer, _, h⟩ := Option.bind_eq_some_iff.mp h
      exact absurd (Option.some.inj (Option.some.inj h)) steps
  | worker q b =>
      obtain ⟨work, _, h⟩ := Option.bind_eq_some_iff.mp h
      obtain ⟨r, _, h⟩ := Option.bind_eq_some_iff.mp h
      obtain ⟨r', _, ⟨⟩⟩ := Option.map_eq_some_iff.mp (Option.some.inj h)
      cases mem
  | complete q =>
      obtain ⟨work, at_, h⟩ := Option.bind_eq_some_iff.mp h
      obtain ⟨event, settled, ⟨⟩⟩ := Option.bind_eq_some_iff.mp h
      obtain rfl := List.mem_singleton.mp mem
      cases phase : work.phase with
      | executed result =>
          rw [phase] at settled
          cases result <;> cases settled <;> cases settles <;> exact ⟨rfl, work, at_, phase⟩
      | _ =>
          rw [phase] at settled
          cases settled

theorem addon_completes {s : Addon} {s' : Option Addon} {a : AddonAction}
    {emitted : List AddonEvent} (h : addonMachine.step (some s) a = some (s', emitted))
    {e : AddonEvent} (mem : e ∈ emitted) {p : ℕ} {answer : Except String StepResult}
    (settles : e.settlement = some (p, answer)) :
    a = .complete p ∧ ∃ work, s.works.at? p = some work ∧ work.phase = .executed answer := by
  obtain ⟨r, acted, same⟩ := Option.map_eq_some_iff.mp h
  cases r with
  | none =>
      cases same
      cases mem
  | some next =>
      cases same
      exact addonAct_completes acted mem settles

end Runs

end MaanyMpc.Lifetimes
