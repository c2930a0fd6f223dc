import MaanyMpc.Lifetimes.Workers

/-! # Steps and releases

JavaScript can release a handle while a worker is in its session, and can lose a wrapper that a
worker has yet to look into. As long as it does neither, and releases handles before their
contexts, the workers find what they need, whatever the order in which they go on, and nothing
that they allocate is lost. What is assumed of a session that is released stands at `freeHandle`. -/

namespace MaanyMpc.Lifetimes

open Custody Transition

/-! ## The rule -/

/-- The wrapper that a call lets go of. -/
def target : Call → Option ℕ
  | .shutdown w | .free _ w | .collect _ w | .dkgFinalize _ _ _ w => some w
  | _ => none

/-- The wrapper that is collected. -/
def collected : Call → Option ℕ
  | .collect _ w => some w
  | _ => none

namespace Work

/-- The worker is past its check and not yet done. -/
def Busy (work : Work) : Prop :=
  match work.phase with
  | .queued | .executed _ => False
  | _ => True

def Names (work : Work) (w : ℕ) : Prop := w = work.ctxHandle ∨ w = work.handle

/-- What the worker needs is there. -/
def Served (js : Js) (work : Work) : Prop :=
  match work.phase with
  | .queued => (∃ ctx, js.holders.at? work.ctxHandle = some ⟨.ctx, ctx⟩) ∧
      ∃ handle, js.holders.at? work.handle = some ⟨.handle work.kind.handle, handle⟩
  | .checked => ∃ ctx handle, Points js .ctx work.ctxHandle ctx ∧
      Points js (.handle work.kind.handle) work.handle handle
  | .called ctx handle => ∃ c h, ctx = some c ∧ handle = some h ∧
      Points js .ctx work.ctxHandle c ∧ Points js (.handle work.kind.handle) work.handle h
  | .inside ctx handle => Points js .ctx work.ctxHandle ctx ∧
      Points js (.handle work.kind.handle) work.handle handle ∧
      ∃ owner, js.objects.at? handle = some (.handle work.kind.handle true owner)
  | .returned _ => ∃ ctx, Points js .ctx work.ctxHandle ctx
  | .executed _ => True

end Work

/-- A call under which the workers go on as before. -/
structure Undisturbed (s : Addon) (c : Call) : Prop where
  order : InOrder s.js c
  busy : ∀ w p work, target c = some w → s.works.at? p = some work → work.Busy → ¬ work.Names w
  queued : ∀ w p work, collected c = some w → s.works.at? p = some work →
    work.phase = .queued → ¬ work.Names w

/-- A call that lets go of nothing. -/
theorem Undisturbed.of_target {s : Addon} {c : Call} (nothing : target c = none) :
    Undisturbed s c where
  order kind p releases := by
    cases c with
    | shutdown | free | collect | dkgFinalize => cases nothing
    | _ => cases releases
  busy w p work targets := by
    rw [nothing] at targets
    cases targets
  queued w p work collects := by
    cases c with
    | shutdown | free | collect | dkgFinalize => cases nothing
    | _ => cases collects

def WaitsForSteps : Option Addon → AddonAction → Prop
  | some s, .call c => Undisturbed s c
  | _, _ => True

/-! ## What a call leaves alone -/

section Calls

variable {s s' : Js} {c : Call}

theorem Effect.wrapper (h : Effect s c s') {w : ℕ} {holder : Holder WrapperKind}
    (at_ : s.holders.at? w = some holder) (other : target c ≠ some w) :
    s'.holders.at? w = some holder := by
  have cleared : ∀ {v : ℕ}, some v ≠ some w → (clear s v).at? w = some holder := by
    intro v ne
    refine (s.holders.modify_of_ne _ ?_).trans at_
    rintro rfl
    exact ne rfl
  have dropped : ∀ {v : ℕ}, some v ≠ some w → (s.holders.drop v).at? w = some holder := by
    intro v ne
    refine (s.holders.drop_of_ne ?_).trans at_
    rintro rfl
    exact ne rfl
  cases h with
  | keep | leak | reset => exact at_
  | grant => exact Objects.add_of_some _ at_
  | shutdown | free => exact cleared other
  | finalize => exact Objects.add_of_some _ (cleared other)
  | collectNull | collectCtx | collectHandle => exact dropped other

/-- Unless it is collected, a wrapper at most forgets its pointer. -/
theorem Effect.wrapper_kind (h : Effect s c s') {w : ℕ} {kind : WrapperKind} {held : Option ℕ}
    (at_ : s.holders.at? w = some ⟨kind, held⟩) (other : collected c ≠ some w) :
    ∃ held', s'.holders.at? w = some ⟨kind, held'⟩ := by
  have cleared : ∀ v, ∃ held', (clear s v).at? w = some ⟨kind, held'⟩ := by
    intro v
    by_cases same : w = v
    · subst same
      exact ⟨none, by rw [clear, Objects.modify_self, at_]; rfl⟩
    · exact ⟨held, (s.holders.modify_of_ne _ same).trans at_⟩
  have dropped : ∀ {v : ℕ}, some v ≠ some w → ∃ held',
      (s.holders.drop v).at? w = some ⟨kind, held'⟩ := by
    intro v ne
    refine ⟨held, (s.holders.drop_of_ne ?_).trans at_⟩
    rintro rfl
    exact ne rfl
  cases h with
  | keep | leak | reset => exact ⟨held, at_⟩
  | grant => exact ⟨held, Objects.add_of_some _ at_⟩
  | shutdown | free => exact cleared _
  | finalize =>
      obtain ⟨held', at'⟩ := cleared _
      exact ⟨held', Objects.add_of_some _ at'⟩
  | collectNull | collectCtx | collectHandle => exact dropped other

/-- What a wrapper points to is as it was, if the call lets go of another wrapper. -/
theorem Effect.pointee (sound : Sound Wraps s) (h : Effect s c s') {w p : ℕ} {kind : WrapperKind}
    {object : Object} (points : Points s kind w p) (at_ : s.objects.at? p = some object)
    (other : target c ≠ some w) : s'.objects.at? p = some object := by
  have apart : ∀ {kind' : WrapperKind} {v q : ℕ}, Points s kind' v q → some v ≠ some w →
      p ≠ q := by
    rintro kind' v q points' ne rfl
    exact ne (congrArg some (sound.apart v w p ⟨_, points', rfl⟩ ⟨_, points, rfl⟩))
  cases h with
  | keep same => exact same.at? ▸ at_
  | leak filled _ => exact filled.old _ _ at_
  | grant => exact Objects.add_of_some _ at_
  | shutdown points' | free points' _ | collectCtx points' | collectHandle points' _ =>
      exact (s.objects.drop_of_ne (apart points' other)).trans at_
  | reset points' => exact (s.objects.modify_of_ne _ (apart points' other)).trans at_
  | finalize points' _ _ =>
      refine (Objects.drop_of_ne _ (apart points' other)).trans (Objects.add_of_some _ ?_)
      exact (s.objects.modify_of_ne _ (apart points' other)).trans at_
  | collectNull => exact at_

/-- An undisturbed worker still has what it needs. -/
theorem Effect.served (sound : Sound Wraps s) (h : Effect s c s') {work : Work}
    (served : work.Served s) (busy : ∀ w, target c = some w → work.Busy → ¬ work.Names w)
    (queued : ∀ w, collected c = some w → work.phase = .queued → ¬ work.Names w) :
    work.Served s' := by
  have ctx : work.Busy → target c ≠ some work.ctxHandle :=
    fun active targets => busy _ targets active (.inl rfl)
  have handle : work.Busy → target c ≠ some work.handle :=
    fun active targets => busy _ targets active (.inr rfl)
  obtain ⟨kind, ctxHandle, handleHandle, phase⟩ := work
  cases phase with
  | queued =>
      obtain ⟨⟨held, at_⟩, held', at'⟩ := served
      exact ⟨h.wrapper_kind at_ fun targets => queued _ targets rfl (.inl rfl),
        h.wrapper_kind at' fun targets => queued _ targets rfl (.inr rfl)⟩
  | checked =>
      obtain ⟨c, p, points, points'⟩ := served
      exact ⟨c, p, h.wrapper points (ctx trivial), h.wrapper points' (handle trivial)⟩
  | called =>
      obtain ⟨c, p, rfl, rfl, points, points'⟩ := served
      exact ⟨c, p, rfl, rfl, h.wrapper points (ctx trivial), h.wrapper points' (handle trivial)⟩
  | inside =>
      obtain ⟨points, points', owner, there⟩ := served
      exact ⟨h.wrapper points (ctx trivial), h.wrapper points' (handle trivial), owner,
        h.pointee sound points' there (handle trivial)⟩
  | returned =>
      obtain ⟨c, points⟩ := served
      exact ⟨c, h.wrapper points (ctx trivial)⟩
  | executed => trivial

end Calls

/-! ## What a worker does -/

section Workers

variable {js : Js} (sound : Sound Wraps js)

/-- A served worker does something defined, is served again, and frees its buffer. -/
def Goes (js : Js) (work : Work) (r : Option (Memory × Phase)) : Prop :=
  ∃ m phase, r = some (m, phase) ∧ Work.Served { js with objects := m } { work with phase } ∧
    ∀ buf, work.phase.buffer = some buf → m.at? buf = none

variable {kind : StepKind} {c w : ℕ}

theorem executeCheck_goes (served : Work.Served js ⟨kind, c, w, .queued⟩) :
    Goes js ⟨kind, c, w, .queued⟩
      ((executeCheck js ⟨kind, c, w, .queued⟩).map (js.objects, ·)) := by
  obtain ⟨⟨ctx, at_⟩, handle, at'⟩ := served
  have readCtx : pointer? js .ctx c = some ctx := pointer?_eq_some.mpr at_
  have readHandle : pointer? js (.handle kind.handle) w = some handle := pointer?_eq_some.mpr at'
  cases ctx with
  | none =>
      exact ⟨js.objects, .executed (.error (createError kind.gone .protoState)),
        by simp [executeCheck, readCtx], trivial, nofun⟩
  | some ctx =>
      cases handle with
      | none =>
          exact ⟨js.objects, .executed (.error (createError kind.gone .protoState)),
            by simp [executeCheck, readCtx, readHandle], trivial, nofun⟩
      | some handle =>
          exact ⟨js.objects, .checked, by simp [executeCheck, readCtx, readHandle],
            ⟨ctx, handle, at_, at'⟩, nofun⟩

theorem executeCall_goes (served : Work.Served js ⟨kind, c, w, .checked⟩) :
    Goes js ⟨kind, c, w, .checked⟩
      ((executeCall js ⟨kind, c, w, .checked⟩).map (js.objects, ·)) := by
  obtain ⟨ctx, handle, points, points'⟩ := served
  have readCtx : pointer? js .ctx c = some (some ctx) := pointer?_eq_some.mpr points
  have readHandle : pointer? js (.handle kind.handle) w = some (some handle) :=
    pointer?_eq_some.mpr points'
  exact ⟨js.objects, .called (some ctx) (some handle), by simp [executeCall, readCtx, readHandle],
    ⟨ctx, handle, rfl, rfl, points, points'⟩, nofun⟩

include sound

theorem executeEnter_goes {ctx handle : Option ℕ}
    (served : Work.Served js ⟨kind, c, w, .called ctx handle⟩) :
    Goes js ⟨kind, c, w, .called ctx handle⟩
      ((executeEnter js kind ctx handle).map (js.objects, ·)) := by
  obtain ⟨ctx, handle, rfl, rfl, points, points'⟩ := served
  obtain ⟨held, owner, there⟩ := handle_there sound points'
  have read := handle?_eq_some.mpr there
  cases held with
  | false =>
      exact ⟨js.objects, .returned (.error .invalidArg), by simp [executeEnter, stepEnter, read],
        ⟨ctx, points⟩, nofun⟩
  | true =>
      exact ⟨js.objects, .inside ctx handle, by simp [executeEnter, stepEnter, read],
        ⟨points, points', owner, there⟩, nofun⟩

theorem executeLeave_goes {ctx handle : ℕ} (malloc : Bool)
    (output : Except BridgeException StepOutput)
    (served : Work.Served js ⟨kind, c, w, .inside ctx handle⟩) :
    Goes js ⟨kind, c, w, .inside ctx handle⟩
      (executeLeave js kind malloc output ctx handle) := by
  obtain ⟨points, points', owner, there⟩ := served
  have read := handle?_eq_some.mpr there
  cases output with
  | error exception =>
      exact ⟨js.objects, .returned (.error (translateException exception)),
        by simp [executeLeave, stepLeave, read], ⟨ctx, points⟩, nofun⟩
  | ok output =>
      rcases copyOut_of_context malloc (output.outbound.getD []) (context_there sound points) with
        h | ⟨_, h⟩ | h
      · exact ⟨js.objects, .returned (.ok (none, output.state)),
          by simp [executeLeave, stepLeave, read, h, Except.map], ⟨ctx, points⟩, nofun⟩
      · exact ⟨js.objects, .returned (.error .memory),
          by simp [executeLeave, stepLeave, read, h, Except.map], ⟨ctx, points⟩, nofun⟩
      · exact ⟨js.objects.add (.block (output.outbound.getD [])),
          .returned (.ok (some js.objects.next, output.state)),
          by simp [executeLeave, stepLeave, read, h, Except.map], ⟨ctx, points⟩, nofun⟩

theorem executeFinish_goes {result : Except MaanyMpcError (Option ℕ × StepState)}
    (served : Work.Served js ⟨kind, c, w, .returned result⟩)
    (filled : ∀ buf, (Phase.returned result).buffer = some buf →
      ∃ content, js.objects.at? buf = some (.block content)) :
    Goes js ⟨kind, c, w, .returned result⟩
      (executeFinish js ⟨kind, c, w, .returned result⟩ result) := by
  obtain ⟨ctx, points⟩ := served
  cases result with
  | error err =>
      exact ⟨js.objects, .executed (.error (createError kind.answered err)), rfl, trivial, nofun⟩
  | ok result =>
      obtain ⟨buf, state⟩ := result
      cases buf with
      | none =>
          exact ⟨js.objects, .executed (.ok (stepComplete [] state)), rfl, trivial, nofun⟩
      | some buf =>
          obtain ⟨content, there⟩ := filled buf rfl
          obtain ⟨m, taken, same⟩ := takeBuffer_block (context_there sound points) there
          have read : pointer? js .ctx c = some (some ctx) := pointer?_eq_some.mpr points
          have freed : maanyMpcBufFree js.objects (some ctx) (some buf) = some m := by
            simpa [takeBuffer, block?_eq_some.mpr there, Option.bind_eq_some_iff] using taken
          refine ⟨m, .executed (.ok (stepComplete content state)),
            by simp [executeFinish, block?_eq_some.mpr there, read, freed], trivial, ?_⟩
          rintro _ ⟨⟩
          rw [same.at?, Objects.drop_self]

/-- What a worker does in any phase. -/
theorem execute_goes {work : Work} (served : work.Served js)
    (filled : ∀ buf, work.phase.buffer = some buf →
      ∃ content, js.objects.at? buf = some (.block content)) {a : WorkerAction}
    {r : Option (Memory × Phase)} (h : execute js work a work.phase = some r) :
    Goes js work r := by
  obtain ⟨kind, c, w, phase⟩ := work
  cases a with
  | check =>
      cases phase with
      | queued => exact Option.some.inj h ▸ executeCheck_goes served
      | _ => cases h
  | call =>
      cases phase with
      | checked => exact Option.some.inj h ▸ executeCall_goes served
      | _ => cases h
  | enter =>
      cases phase with
      | called => exact Option.some.inj h ▸ executeEnter_goes sound served
      | _ => cases h
  | leave malloc output =>
      cases phase with
      | inside => exact Option.some.inj h ▸ executeLeave_goes sound malloc output served
      | _ => cases h
  | finish =>
      cases phase with
      | returned => exact Option.some.inj h ▸ executeFinish_goes sound served filled
      | _ => cases h

end Workers

/-! ## Under the rule -/

/-- Every worker has what it needs. -/
def AllServed (s : Addon) : Prop := ∀ p work, s.works.at? p = some work → work.Served s.js

/-- What the rule allows is defined, and the workers are still served. -/
theorem Acts.served {s : Addon} {a : AddonAction} {next : Option Addon} (acts : Acts s a next)
    (ledger : Ledger s) (served : AllServed s) (waits : WaitsForSteps (some s) a) :
    ∃ s', next = some s' ∧ AllServed s' := by
  cases acts with
  | call called =>
      obtain ⟨js, reply, rfl, effect⟩ :=
        (call_spec ledger.sound nodeTexts called).defined waits.order
      refine ⟨_, rfl, fun p work at_ => ?_⟩
      exact effect.served ledger.sound (served p work at_)
        (fun w targets => waits.busy w p work targets at_)
        fun w targets => waits.queued w p work targets at_
  | refuse => exact ⟨s, rfl, served⟩
  | queue _ points points' =>
      refine ⟨_, rfl, fun p work at_ => ?_⟩
      rcases Objects.of_add at_ with ⟨_, rfl⟩ | ⟨_, old⟩
      · exact ⟨⟨_, points⟩, _, points'⟩
      · exact served p work old
  | @worker p b work q at_ executed =>
      obtain ⟨m, phase, rfl, goes, _⟩ := execute_goes ledger.sound (served p work at_)
        (fun buf => ledger.filled p work buf at_) executed
      refine ⟨_, rfl, fun q work' at' => ?_⟩
      obtain ⟨old, there, ⟨rfl, rfl⟩ | ⟨_, rfl⟩⟩ := Objects.of_modify at'
      · obtain rfl := Option.some.inj (at_.symm.trans there)
        exact goes
      · -- another worker in its session finds it as it was
        have before := served q work' there
        obtain ⟨kind, ctxHandle, handle, phase'⟩ := work'
        cases phase' with
        | inside =>
            obtain ⟨points, points', owner, session⟩ := before
            exact ⟨points, points', owner, (execute_moves executed).blocks.handle session⟩
        | _ => exact before
  | complete =>
      exact ⟨_, rfl, fun q work' at' => served q work' (Objects.of_drop at').2⟩

/-- Every block is the outbound buffer of some worker. -/
def NoStray (s : Addon) : Prop :=
  ∀ buf content, s.js.objects.at? buf = some (.block content) →
    ∃ p work, s.works.at? p = some work ∧ work.phase.buffer = some buf

/-- A backup that is asked for has memory for all that it returns. -/
def BackupsServed (_ : Option Addon) : AddonAction → Prop
  | .call c => Whole c
  | _ => True

theorem complete_buffer {p : ℕ} {phase : Phase} {event : AddonEvent}
    (h : complete p phase = some event) : phase.buffer = none := by
  cases phase with
  | executed => rfl
  | _ => cases h

/-- Nothing is left over unless a backup fails. -/
theorem Acts.noStray {s s' : Addon} {a : AddonAction} (acts : Acts s a (some s'))
    (ledger : Ledger s) (served : AllServed s) (waits : WaitsForSteps (some s) a)
    (whole : BackupsServed (some s) a) (none : NoStray s) : NoStray s' := by
  intro buf content at'
  generalize next : some s' = n at acts
  cases acts with
  | @call c q called =>
      obtain ⟨js, reply, rfl, effect⟩ :=
        (call_spec ledger.sound nodeTexts called).defined waits.order
      obtain rfl := Option.some.inj next
      exact none buf content (effect.old_block whole at')
  | refuse =>
      obtain rfl := Option.some.inj next
      exact none buf content at'
  | queue _ points points' =>
      obtain rfl := Option.some.inj next
      obtain ⟨p, work, there, buffer⟩ := none buf content at'
      exact ⟨p, work, Objects.add_of_some _ there, buffer⟩
  | @worker p _ work _ at_ executed =>
      obtain ⟨m, phase, rfl, _, frees⟩ := execute_goes ledger.sound (served p work at_)
        (fun buf => ledger.filled p work buf at_) executed
      obtain rfl := Option.some.inj next
      rcases (execute_moves executed).old_block at' with new | old
      · exact ⟨p, { work with phase }, by simp [at_], new⟩
      · obtain ⟨q, work', there, buffer⟩ := none buf content old
        refine ⟨q, work', (s.works.modify_of_ne _ ?_).trans there, buffer⟩
        rintro rfl
        obtain rfl := Option.some.inj (at_.symm.trans there)
        cases (frees buf buffer).symm.trans at'
  | @complete p work event at_ settled =>
      obtain rfl := Option.some.inj next
      obtain ⟨q, work', there, buffer⟩ := none buf content at'
      refine ⟨q, work', (s.works.drop_of_ne ?_).trans there, buffer⟩
      rintro rfl
      obtain rfl := Option.some.inj (at_.symm.trans there)
      rw [complete_buffer settled] at buffer
      cases buffer

/-! ## Runs -/

section Runs

variable {taken : List (Option Addon × AddonAction)} {events : List AddonEvent} {s : Option Addon}

/-- If the steps are waited for and no backup fails for want of memory, then all that is allocated
are contexts and handles, each with exactly one wrapper, and the outbound buffers of steps that
have not been executed to their end, each of exactly one of them. -/
theorem addon_nothing_lost {s : Addon} (run : addonMachine.Run taken events (some s))
    (waits : Machine.Meets WaitsForSteps taken) (whole : Machine.Meets BackupsServed taken) {p : ℕ}
    {object : Object} (there : s.js.objects.at? p = some object) :
    (∃! w, s.js.Holds w p) ∨
      ∃! q, ∃ work, s.works.at? q = some work ∧ work.phase.buffer = some p := by
  have all : ∀ s', some s = some s' → Ledger s' ∧ AllServed s' ∧ NoStray s' := by
    refine run.guarded_invariant (fun s a => WaitsForSteps s a ∧ BackupsServed s a)
      (fun _ s => ∀ s', s = some s' → Ledger s' ∧ AllServed s' ∧ NoStray s') ?_ ?_
      fun step mem => ⟨waits step mem, whole step mem⟩
    · rintro s' rfl'
      obtain rfl := Option.some.inj rfl'
      exact ⟨.init, (fun _ _ at_ => by cases at_), fun _ _ at_ => by cases at_⟩
    · rintro events s a s' emitted before ⟨waits, whole⟩ hstep s'' rfl
      obtain ⟨s₀, rfl, acts⟩ := addon_acts hstep
      obtain ⟨ledger, served, none⟩ := before s₀ rfl
      obtain ⟨_, ⟨⟩, served'⟩ := acts.served ledger served waits
      exact ⟨acts.ledger ledger, served', acts.noStray ledger served waits whole none⟩
  obtain ⟨ledger, _, none⟩ := all s rfl
  have held : Needs Wraps object → ∃! w, s.js.Holds w p := by
    intro needs
    obtain ⟨w, holds⟩ := ledger.sound.kept p object there needs
    exact ⟨w, holds, fun v holds' => ledger.sound.apart v w p holds' holds⟩
  cases object with
  | context => exact .inl (held ⟨.ctx, trivial⟩)
  | handle kind => exact .inl (held ⟨.handle kind, rfl⟩)
  | block content =>
      obtain ⟨q, work, at_, buffer⟩ := none p content there
      refine .inr ⟨q, ⟨work, at_, buffer⟩, ?_⟩
      rintro q' ⟨work', at', buffer'⟩
      exact ledger.apart q' q work' work p at' at_ buffer' buffer

/-- A step that has returned a message. -/
theorem addon_nothing_lost_step : ∃ taken events s, addonMachine.Run taken events (some s) ∧
    ((∃! w, s.js.Holds w 2) ∨
      ∃! q, ∃ work, s.works.at? q = some work ∧ work.phase.buffer = some 2) := by
  have run := (((((((Machine.Run.start (M := addonMachine)).next
    (a := .call (.init true true)) rfl).next
    (a := .call (.dkgNew true (.ok ()) 0)) rfl).next
    (a := .dkgStep 0 1) rfl).next
    (a := .worker 0 .check) rfl).next
    (a := .worker 0 .call) rfl).next
    (a := .worker 0 .enter) rfl).next
    (a := .worker 0 (.leave true (.ok ⟨.continue, some [1]⟩))) rfl
  refine ⟨_, _, _, run, addon_nothing_lost run ?_ ?_ rfl⟩
  · simp only [Machine.meets_append_singleton, Machine.meets_nil]
    refine ⟨⟨⟨⟨⟨⟨⟨trivial, ?_⟩, ?_⟩, trivial⟩, trivial⟩, trivial⟩, trivial⟩, trivial⟩
    · exact .of_target rfl
    · exact .of_target rfl
  · simp only [Machine.meets_append_singleton, Machine.meets_nil]
    exact ⟨⟨⟨⟨⟨⟨⟨trivial, trivial⟩, trivial⟩, trivial⟩, trivial⟩, trivial⟩, trivial⟩, trivial⟩

/-! ## A context that is gone -/

theorem Acts.stranded {s s' : Addon} {a : AddonAction} (acts : Acts s a (some s'))
    (sound : Sound Wraps s.js) {kind : HandleKind} {w p owner : ℕ}
    (stranded : Stranded s.js kind w p owner) : Stranded s'.js kind w p owner := by
  rcases acts.js sound with ⟨c, effect⟩ | ⟨m, same, blocks⟩
  · exact effect.stranded sound stranded
  · rw [same]
    exact blocks.stranded stranded

theorem addon_called {before s' : Addon} {c : Call} {emitted : List AddonEvent}
    (h : addonMachine.step (some before) (.call c) = some (some s', emitted)) :
    ∃ js reply, call nodeTexts before.js c = some (some (js, reply)) ∧ s' = { before with js } := by
  obtain ⟨r, acted, same⟩ := Option.map_eq_some_iff.mp h
  obtain ⟨q, called, ⟨⟩⟩ := Option.bind_eq_some_iff.mp acted
  cases q with
  | none => cases same
  | some q =>
      cases same
      exact ⟨q.1, q.2, called, rfl⟩

/-- Once the context of a handle is shut down or collected, the handle stays in memory, and its
wrapper in JavaScript, for as long as the run is defined. -/
theorem addon_stranded {s before : Addon} (run : addonMachine.Run taken events (some s))
    {c : Call} {kind : HandleKind} {v w p owner : ℕ} {held : Bool}
    (gone : (some before, .call c) ∈ taken) (ends : c = .shutdown v ∨ c = .collect .ctx v)
    (context : Points before.js .ctx v owner) (handle : Points before.js (.handle kind) w p)
    (made : before.js.objects.at? p = some (.handle kind held owner)) :
    Points s.js (.handle kind) w p ∧ There s.js kind p := by
  have lasting := run.lasting (fun s => ∀ s', s = some s' →
    Ledger s' ∧ Stranded s'.js kind w p owner) ?_ gone ?_
  · obtain ⟨_, stranded⟩ := lasting s rfl
    obtain ⟨held', there⟩ := stranded.there
    exact ⟨stranded.points, held', owner, there⟩
  · rintro s a s' emitted ih hstep s'' rfl
    obtain ⟨s₀, rfl, acts⟩ := addon_acts hstep
    obtain ⟨ledger, stranded⟩ := ih s₀ rfl
    exact ⟨acts.ledger ledger, acts.stranded ledger.sound stranded⟩
  · rintro taken' events' s' emitted run' hstep s'' rfl
    have ledger := addon_ledger run' before rfl
    obtain ⟨js, reply, called, rfl⟩ := addon_called hstep
    obtain ⟨_, ⟨⟩, acts⟩ := addon_acts hstep
    exact ⟨acts.ledger ledger, .of_call ledger.sound called ends context handle made⟩

/-- A keypair whose context is shut down. -/
theorem addon_stranded_keypair : ∃ taken events s, addonMachine.Run taken events (some s) ∧
    Points s.js (.handle .keypair) 2 2 ∧ There s.js .keypair 2 := by
  have run := ((((Machine.Run.start (M := addonMachine)).next
    (a := .call (.init true true)) rfl).next
    (a := .call (.dkgNew true (.ok ()) 0)) rfl).next
    (a := .call (.dkgFinalize true (.ok ()) 0 1)) rfl).next
    (a := .call (.shutdown 0)) rfl
  exact ⟨_, _, _, run, addon_stranded run
    (List.mem_append_right _ (List.mem_singleton.mpr rfl)) (.inl rfl) rfl rfl rfl⟩

end Runs

end MaanyMpc.Lifetimes
