import MaanyMpc.Library.Transition
import MaanyMpc.Lifetimes.Effects

/-! # The lifetimes of host objects

In the React Native binding every function returns at once, a step included. JavaScript calls
them in any order with the host objects that it has, and drops host objects when it likes. -/

namespace MaanyMpc.Lifetimes

open Custody Transition

/-! ## The binding -/

def hostTexts : BackupTexts where
  ctx := "Context already shut down"
  kp := "Keypair handle already freed"

/-- What `dkgStep` and `signStep` do. -/
def hostStep (kind : HandleKind) (context : String) (s : Js) (malloc : Bool)
    (output : Except BridgeException StepOutput) (ctx handle : Option ℕ) : Option (Js × Reply) :=
  requireCtx s ctx fun ctx => requireHandle s kind handle fun handle => do
    let (m, out) ← step kind s.objects malloc output (some ctx) (some handle)
    match out with
    | .error err => return ({ s with objects := m }, .threw (createError context err))
    | .ok (buf, state) =>
      let (m, outbound) ← takeBuffer m ctx buf
      return ({ s with objects := m }, .step (stepComplete outbound state))

def dkgStep : Js → (malloc : Bool) → Except BridgeException StepOutput → (ctx dkg : Option ℕ) →
    Option (Js × Reply) := hostStep .dkg "maany_mpc_dkg_step"

def signStep : Js → (malloc : Bool) → Except BridgeException StepOutput → (ctx sign : Option ℕ) →
    Option (Js × Reply) := hostStep .sign "maany_mpc_sign_step"

inductive HostAction where
  | call (c : Call)
  | dkgStep (malloc : Bool) (output : Except BridgeException StepOutput) (ctx dkg : ℕ)
  | signStep (malloc : Bool) (output : Except BridgeException StepOutput) (ctx sign : ℕ)

def hostCall (s : Js) : HostAction → Option (Option (Js × Reply))
  | .call c => call hostTexts s c
  | .dkgStep malloc output ctx dkg => do
    return Lifetimes.dkgStep s malloc output (← pointer? s .ctx ctx)
      (← pointer? s (.handle .dkg) dkg)
  | .signStep malloc output ctx sign => do
    return Lifetimes.signStep s malloc output (← pointer? s .ctx ctx)
      (← pointer? s (.handle .sign) sign)

/-- Its state is `none` once a call has been undefined; then it stops. -/
def hostMachine : Machine (Option Js) HostAction Reply where
  init := some ⟨.empty, .empty⟩
  step
    | none, _ => none
    | some s, a => (hostCall s a).map fun
      | none => (none, [])
      | some (s', reply) => (some s', [reply])

/-- If the action releases a handle, the context that the handle was made with is still
there. -/
def ReleasesInOrder : Option Js → HostAction → Prop
  | some s, .call c => InOrder s c
  | _, _ => True

/-- A backup that is asked for has memory for all that it returns. -/
def BackupsWhole (_ : Option Js) : HostAction → Prop
  | .call c => Whole c
  | _ => True

/-! ## One action -/

section Steps

variable {s : Js}

/-- A step comes back with its output, and its buffer is freed. -/
theorem hostStep_defined {kind : HandleKind} {context : String} {malloc : Bool}
    {output : Except BridgeException StepOutput} {ctx handle : Option ℕ}
    (contexts : ∀ p, ctx = some p → s.objects.at? p = some .context)
    (handles : ∀ p, handle = some p → There s kind p) :
    ∃ objects reply, hostStep kind context s malloc output ctx handle =
      some ({ s with objects }, reply) ∧ Objects.Same s.objects objects := by
  cases ctx with
  | none => exact ⟨s.objects, _, rfl, .refl _⟩
  | some p =>
  cases handle with
  | none => exact ⟨s.objects, _, rfl, .refl _⟩
  | some q =>
  have alive := contexts p rfl
  obtain ⟨held, owner, there⟩ := handles q rfl
  have read := handle?_eq_some.mpr there
  simp only [hostStep, requireCtx, requireHandle, Lifetimes.require]
  cases held with
  | false =>
      exact ⟨s.objects, .threw (createError context .invalidArg), by simp [step, stepEnter, read],
        .refl _⟩
  | true =>
  cases output with
  | error exception =>
      exact ⟨s.objects, .threw (createError context (translateException exception)),
        by simp [step, stepEnter, stepLeave, read], .refl _⟩
  | ok output =>
  rcases copyOut_of_context malloc (output.outbound.getD []) alive with h | ⟨_, h⟩ | h
  · exact ⟨s.objects, .step (stepComplete [] output.state),
      by simp [step, stepEnter, stepLeave, read, h, Except.map, takeBuffer], .refl _⟩
  · exact ⟨s.objects, .threw (createError context .memory),
      by simp [step, stepEnter, stepLeave, read, h, Except.map], .refl _⟩
  · obtain ⟨objects, taken, same⟩ := takeBuffer_block (Objects.add_of_some _ alive)
      (s.objects.add_self (.block (output.outbound.getD [])))
    exact ⟨objects, .step (stepComplete (output.outbound.getD []) output.state),
      by simp [step, stepEnter, stepLeave, read, h, Except.map, taken],
      (s.objects.drop_add _).trans same⟩

/-- What a host object does: it is undefined if a handle without its context is released. A step
has no more effect than a call that leaves the handles alone. -/
structure HostSpec (s : Js) (a : HostAction) (r : Option (Js × Reply)) : Prop where
  undefined : ¬ ReleasesInOrder (some s) a → r = none
  defined : ReleasesInOrder (some s) a → ∃ s' reply c, r = some (s', reply) ∧ Effect s c s' ∧
    (BackupsWhole (some s) a → Whole c)

theorem HostSpec.step {a : HostAction} {r : Option (Js × Reply)} {objects : Memory} {reply : Reply}
    (other : ∀ c, a ≠ .call c) (stepped : r = some ({ s with objects }, reply))
    (same : Objects.Same s.objects objects) : HostSpec s a r where
  undefined out := by
    cases a with
    | call c => exact absurd rfl (other c)
    | dkgStep | signStep => exact absurd trivial out
  defined _ := ⟨_, reply, .init true true, stepped, .keep same, fun _ => trivial⟩

theorem hostCall_spec (sound : Sound Wraps s) {a : HostAction} {r : Option (Js × Reply)}
    (h : hostCall s a = some r) : HostSpec s a r := by
  have steps : ∀ {kind : HandleKind} {context : String} {malloc : Bool}
      {output : Except BridgeException StepOutput} {c w : ℕ} {ctx handle : Option ℕ},
      pointer? s .ctx c = some ctx → pointer? s (.handle kind) w = some handle →
        ∃ objects reply, hostStep kind context s malloc output ctx handle =
          some ({ s with objects }, reply) ∧ Objects.Same s.objects objects := by
    intro kind context malloc output c w ctx handle at_ at'
    refine hostStep_defined ?_ ?_
    · rintro p rfl
      exact context_there sound (pointer?_eq_some.mp at_)
    · rintro p rfl
      exact handle_there sound (pointer?_eq_some.mp at')
  cases a with
  | call c =>
      have spec := call_spec sound hostTexts h
      refine ⟨spec.undefined, fun ok => ?_⟩
      obtain ⟨s', reply, rfl, effect⟩ := spec.defined ok
      exact ⟨s', reply, c, rfl, effect, id⟩
  | dkgStep malloc output c w =>
      simp only [hostCall, Option.bind_eq_bind, Option.bind_eq_some_iff, Option.pure_def,
        Option.some.injEq] at h
      obtain ⟨ctx, at_, dkg, at', rfl⟩ := h
      obtain ⟨objects, reply, stepped, same⟩ := steps at_ at'
      exact .step nofun stepped same
  | signStep malloc output c w =>
      simp only [hostCall, Option.bind_eq_bind, Option.bind_eq_some_iff, Option.pure_def,
        Option.some.injEq] at h
      obtain ⟨ctx, at_, sign, at', rfl⟩ := h
      obtain ⟨objects, reply, stepped, same⟩ := steps at_ at'
      exact .step nofun stepped same

end Steps

/-! ## Runs -/

section Runs

variable {taken : List (Option Js × HostAction)} {replies : List Reply} {s : Option Js}

theorem host_step_cases {a : HostAction} {next : Option Js × List Reply}
    (h : hostMachine.step s a = some next) :
    ∃ js r, s = some js ∧ hostCall js a = some r ∧ next.1 = r.map Prod.fst := by
  cases s with
  | none => cases h
  | some js =>
      obtain ⟨r, called, rfl⟩ := Option.map_eq_some_iff.mp h
      refine ⟨js, r, rfl, called, ?_⟩
      cases r <;> rfl

/-- What an action does that is defined. -/
theorem host_effect (sound : ∀ js, s = some js → Sound Wraps js) {js' : Js} {a : HostAction}
    {emitted : List Reply} (h : hostMachine.step s a = some (some js', emitted)) :
    ∃ js c, s = some js ∧ Effect js c js' ∧ (BackupsWhole (some js) a → Whole c) := by
  obtain ⟨js, r, rfl, called, after⟩ := host_step_cases h
  have spec := hostCall_spec (sound js rfl) called
  by_cases ok : ReleasesInOrder (some js) a
  · obtain ⟨next, reply, c, rfl, rest⟩ := spec.defined ok
    obtain rfl := Option.some.inj after
    exact ⟨js, c, rfl, rest⟩
  · rw [spec.undefined ok] at after
    cases after

/-- Each wrapper that has not been released holds an object of its own, and no handle and no
context is lost. -/
theorem host_sound (run : hostMachine.Run taken replies s) :
    ∀ js, s = some js → Sound Wraps js := by
  refine run.invariant (fun _ s => ∀ js, s = some js → Sound Wraps js) ?_ ?_
  · rintro js rfl'
    obtain rfl := Option.some.inj rfl'
    exact .empty
  · rintro events s a s' emitted before hstep js' rfl
    obtain ⟨js, c, rfl, effect, _⟩ := host_effect before hstep
    exact effect.sound (before js rfl)

/-- A run of the React Native binding is defined if and only if every handle that is released,
by a call or by its collection, is released before its context. -/
theorem host_defined_iff (run : hostMachine.Run taken replies s) :
    s.isSome ↔ Machine.Meets ReleasesInOrder taken := by
  have throughout := run.throughout_iff ReleasesInOrder (fun s => s.isSome = true) rfl ?_
  · rw [← throughout]
    refine ⟨fun last => ⟨fun p mem => ?_, last⟩, fun h => h.2⟩
    obtain ⟨r, stepped⟩ := run.step_of_mem mem
    obtain ⟨js, _, here, _⟩ := host_step_cases stepped
    rw [here]
    rfl
  · intro taken events s a s' emitted before _ _ hstep
    obtain ⟨js, r, rfl, called, after⟩ := host_step_cases hstep
    obtain rfl : s' = r.map Prod.fst := after
    have spec := hostCall_spec (host_sound before js rfl) called
    constructor
    · intro defined
      by_contra out
      rw [spec.undefined out] at defined
      cases defined
    · intro ok
      obtain ⟨next, reply, c, rfl, _⟩ := spec.defined ok
      rfl

/-- A session that is freed after its context. -/
theorem host_defined_iff_late : ∃ taken replies, hostMachine.Run taken replies none ∧
    ¬ Machine.Meets ReleasesInOrder taken := by
  have run := (((Machine.Run.start (M := hostMachine)).next
    (a := .call (.init true true)) rfl).next
    (a := .call (.dkgNew true (.ok ()) 0)) rfl).next
    (a := .call (.shutdown 0)) rfl
  have late : hostMachine.Run _ _ none := run.next (a := .call (.free .dkg 1)) rfl
  refine ⟨_, _, late, fun ordered => ?_⟩
  simpa using (host_defined_iff late).mpr ordered

/-- As long as no backup fails for want of memory, all that is allocated between two calls are
contexts and handles, each with exactly one wrapper: once all wrappers are released or collected,
nothing is left. -/
theorem host_nothing_lost {js : Js} (run : hostMachine.Run taken replies (some js))
    (whole : Machine.Meets BackupsWhole taken) {p : ℕ} {object : Object}
    (there : js.objects.at? p = some object) :
    ∃! w, js.Holds w p := by
  have blocks : Machine.Meets BackupsWhole taken → ∀ js', some js = some js' →
      ∀ q content, js'.objects.at? q ≠ some (.block content) := by
    refine run.history_invariant (fun taken _ s => Machine.Meets BackupsWhole taken →
      ∀ js, s = some js → ∀ q content, js.objects.at? q ≠ some (.block content)) ?_ ?_
    · rintro _ js' rfl' q content at_
      obtain rfl := Option.some.inj rfl'
      cases at_
    · rintro taken events s a s' emitted before ih hstep whole js' rfl q content at_
      obtain ⟨past, now⟩ := (Machine.meets_append_singleton ..).mp whole
      obtain ⟨js, c, rfl, effect, backups⟩ := host_effect (host_sound before) hstep
      exact ih past js rfl q content (effect.old_block (backups now) at_)
  have sound := host_sound run js rfl
  have needs : Needs Wraps object := by
    cases object with
    | context => exact ⟨.ctx, trivial⟩
    | handle kind held owner => exact ⟨.handle kind, rfl⟩
    | block content => exact absurd there (blocks whole js rfl p content)
  obtain ⟨w, holds⟩ := sound.kept p object there needs
  exact ⟨w, holds, fun v holds' => sound.apart v w p holds' holds⟩

/-- A keypair that has taken the place of its session. -/
theorem host_nothing_lost_keypair : ∃ taken replies js, hostMachine.Run taken replies (some js) ∧
    js.objects.at? 2 = some (.handle .keypair true 0) ∧ ∃! w, js.Holds w 2 := by
  have run := (((Machine.Run.start (M := hostMachine)).next
    (a := .call (.init true true)) rfl).next
    (a := .call (.dkgNew true (.ok ()) 0)) rfl).next
    (a := .call (.dkgFinalize true (.ok ()) 0 1)) rfl
  refine ⟨_, _, _, run, rfl, host_nothing_lost run ?_ rfl⟩
  simp only [Machine.meets_append_singleton, Machine.meets_nil]
  exact ⟨⟨⟨trivial, trivial⟩, trivial⟩, trivial⟩

/-- Once the context of a handle is shut down or collected, the handle stays in memory, and its
wrapper in JavaScript, for as long as the run is defined. -/
theorem host_stranded {js before : Js} (run : hostMachine.Run taken replies (some js))
    {c : Call} {kind : HandleKind} {v w p owner : ℕ} {held : Bool}
    (gone : (some before, .call c) ∈ taken) (ends : c = .shutdown v ∨ c = .collect .ctx v)
    (context : Points before .ctx v owner) (handle : Points before (.handle kind) w p)
    (made : before.objects.at? p = some (.handle kind held owner)) :
    Points js (.handle kind) w p ∧ There js kind p := by
  have lasting := run.lasting (fun s => ∀ js, s = some js →
    Sound Wraps js ∧ Stranded js kind w p owner) ?_ gone ?_
  · obtain ⟨held', there⟩ := (lasting js rfl).2.there
    exact ⟨(lasting js rfl).2.points, held', owner, there⟩
  · rintro s a s' emitted ih hstep js' rfl
    obtain ⟨js, c, rfl, effect, _⟩ := host_effect (fun js here => (ih js here).1) hstep
    exact ⟨effect.sound (ih js rfl).1, effect.stranded (ih js rfl).1 (ih js rfl).2⟩
  · rintro taken' events s' emitted run' hstep js' rfl
    have sound := host_sound run' before rfl
    obtain ⟨_, c', ⟨⟩, effect, _⟩ := host_effect (host_sound run') hstep
    obtain ⟨r, called, same⟩ := Option.map_eq_some_iff.mp hstep
    cases r with
    | none => cases same
    | some next =>
        cases same
        exact ⟨effect.sound sound, .of_call sound called ends context handle made⟩

/-- A session whose context is shut down. -/
theorem host_stranded_dkg : ∃ taken replies js, hostMachine.Run taken replies (some js) ∧
    Points js (.handle .dkg) 1 1 ∧ There js .dkg 1 := by
  have run := (((Machine.Run.start (M := hostMachine)).next
    (a := .call (.init true true)) rfl).next
    (a := .call (.dkgNew true (.ok ()) 0)) rfl).next
    (a := .call (.shutdown 0)) rfl
  exact ⟨_, _, _, run, host_stranded run
    (List.mem_append_right _ (List.mem_singleton.mpr rfl)) (.inl rfl) rfl rfl rfl⟩

end Runs

end MaanyMpc.Lifetimes
