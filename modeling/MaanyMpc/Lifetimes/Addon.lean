import MaanyMpc.Library.Transition
import MaanyMpc.Lifetimes.Effects

/-! # Steps of the Node addon

`dkgStep` and `signStep` of the Node addon return a promise, and a worker executes the step while
JavaScript goes on. A worker has the wrappers, not their pointers, and reads the pointers when it
needs them. Nothing keeps the wrappers from being released or collected meanwhile. -/

namespace MaanyMpc.Lifetimes

open Custody Transition

inductive StepKind where
  | dkg
  | sign
  deriving DecidableEq

namespace StepKind

def handle : StepKind → HandleKind
  | dkg => .dkg
  | sign => .sign

/-- The `error_context` of a step whose handles are gone. -/
def gone : StepKind → String
  | dkg => "dkgStep"
  | sign => "signStep"

/-- The `error_context` of a step that the C API has answered. -/
def answered : StepKind → String
  | dkg => "maany_mpc_dkg_step"
  | sign => "maany_mpc_sign_step"

end StepKind

/-- How far a worker is. -/
inductive Phase where
  | queued
  /-- no pointer was null -/
  | checked
  /-- `maany_mpc_dkg_step` or `maany_mpc_sign_step` has been given these pointers -/
  | called (ctx handle : Option ℕ)
  /-- it waits in the session -/
  | inside (ctx handle : ℕ)
  /-- it has returned, perhaps with an outbound buffer -/
  | returned (result : Except MaanyMpcError (Option ℕ × StepState))
  /-- the promise can be settled -/
  | executed (settlement : Except String StepResult)

/-- `DkgStepWork` or `SignStepWork`. -/
structure Work where
  kind : StepKind
  ctxHandle : ℕ
  handle : ℕ
  phase : Phase

structure Addon where
  js : Js
  works : Objects Work

inductive AddonEvent where
  | replied (reply : Reply)
  | promise (p : ℕ)
  | resolved (p : ℕ) (result : StepResult)
  | rejected (p : ℕ) (message : String)

/-! ## What JavaScript calls -/

def nodeTexts : BackupTexts where
  ctx := "Context or keypair handle invalid"
  kp := "Context or keypair handle invalid"

/-- What `JsDkgStep` and `JsSignStep` do. -/
def jsStep (kind : StepKind) (s : Addon) (ctxHandle handle : ℕ) :
    (ctx pointer : Option ℕ) → Addon × List AddonEvent
  | none, _ => (s, [.replied (.threw "Context already shut down")])
  | some _, none => (s, [.replied (.threw (releasedMessage kind.handle))])
  | some _, some _ =>
    ({ s with works := s.works.add ⟨kind, ctxHandle, handle, .queued⟩ }, [.promise s.works.next])

def jsDkgStep : Addon → (ctxHandle handle : ℕ) → (ctx pointer : Option ℕ) →
    Addon × List AddonEvent := jsStep .dkg

def jsSignStep : Addon → (ctxHandle handle : ℕ) → (ctx pointer : Option ℕ) →
    Addon × List AddonEvent := jsStep .sign

/-! ## What a worker does

`DkgStepExecute` and `SignStepExecute`, cut where another thread can come in between. -/

/-- Is either pointer null? A wrapper that has been collected cannot be looked into. -/
def executeCheck (js : Js) (work : Work) : Option Phase := do
  match ← pointer? js .ctx work.ctxHandle with
  | none => return .executed (.error (createError work.kind.gone .protoState))
  | some _ =>
    match ← pointer? js (.handle work.kind.handle) work.handle with
    | none => return .executed (.error (createError work.kind.gone .protoState))
    | some _ => return .checked

/-- The pointers are read once more for the call. -/
def executeCall (js : Js) (work : Work) : Option Phase := do
  let ctx ← pointer? js .ctx work.ctxHandle
  let handle ← pointer? js (.handle work.kind.handle) work.handle
  return .called ctx handle

def executeEnter (js : Js) (kind : StepKind) : (ctx handle : Option ℕ) → Option Phase
  | some ctx, some handle => do
    let held ← stepEnter kind.handle js.objects handle
    return if held then .inside ctx handle else .returned (.error .invalidArg)
  | _, _ => some (.returned (.error .invalidArg))

def executeLeave (js : Js) (kind : StepKind) (malloc : Bool)
    (output : Except BridgeException StepOutput) (ctx handle : ℕ) : Option (Memory × Phase) := do
  let (m, result) ← stepLeave kind.handle js.objects malloc ctx handle output
  return (m, .returned result)

/-- The outbound message is copied, and its buffer is freed with the pointer that the wrapper of
the context has now. -/
def executeFinish (js : Js) (work : Work) :
    Except MaanyMpcError (Option ℕ × StepState) → Option (Memory × Phase)
  | .error err => some (js.objects, .executed (.error (createError work.kind.answered err)))
  | .ok (none, state) => some (js.objects, .executed (.ok (stepComplete [] state)))
  | .ok (some buf, state) => do
    let outbound ← block? js.objects buf
    let ctx ← pointer? js .ctx work.ctxHandle
    let m ← maanyMpcBufFree js.objects ctx (some buf)
    return (m, .executed (.ok (stepComplete outbound state)))

inductive WorkerAction where
  | check
  | call
  | enter
  | leave (malloc : Bool) (output : Except BridgeException StepOutput)
  | finish

/-- The result is `none` if the worker is elsewhere, and `some none` if what it does is
undefined. -/
def execute (js : Js) (work : Work) : WorkerAction → Phase → Option (Option (Memory × Phase))
  | .check, .queued => some ((executeCheck js work).map (js.objects, ·))
  | .call, .checked => some ((executeCall js work).map (js.objects, ·))
  | .enter, .called ctx handle => some ((executeEnter js work.kind ctx handle).map (js.objects, ·))
  | .leave malloc output, .inside ctx handle =>
    some (executeLeave js work.kind malloc output ctx handle)
  | .finish, .returned result => some (executeFinish js work result)
  | _, _ => none

/-- `DkgStepComplete` or `SignStepComplete`. -/
def complete (p : ℕ) : Phase → Option AddonEvent
  | .executed (.ok result) => some (.resolved p result)
  | .executed (.error message) => some (.rejected p message)
  | _ => none

/-! ## All together -/

inductive AddonAction where
  | call (c : Call)
  | dkgStep (ctxHandle handle : ℕ)
  | signStep (ctxHandle handle : ℕ)
  | worker (p : ℕ) (a : WorkerAction)
  | complete (p : ℕ)

/-- As for `call`: `none` if there is no such action, and `some none` if it is undefined. -/
def addonAct (s : Addon) : AddonAction → Option (Option (Addon × List AddonEvent))
  | .call c => do
    let r ← call nodeTexts s.js c
    return r.map fun r => ({ s with js := r.1 }, [.replied r.2])
  | .dkgStep ctxHandle handle => do
    let ctx ← pointer? s.js .ctx ctxHandle
    let pointer ← pointer? s.js (.handle .dkg) handle
    return jsDkgStep s ctxHandle handle ctx pointer
  | .signStep ctxHandle handle => do
    let ctx ← pointer? s.js .ctx ctxHandle
    let pointer ← pointer? s.js (.handle .sign) handle
    return jsSignStep s ctxHandle handle ctx pointer
  | .worker p a => do
    let work ← s.works.at? p
    let r ← execute s.js work a work.phase
    return r.map fun r =>
      (⟨{ s.js with objects := r.1 }, s.works.modify p fun work => { work with phase := r.2 }⟩, [])
  | .complete p => do
    let work ← s.works.at? p
    let event ← complete p work.phase
    return some ({ s with works := s.works.drop p }, [event])

/-- Its state is `none` once something has been undefined; then it stops. -/
def addonMachine : Machine (Option Addon) AddonAction AddonEvent where
  init := some ⟨⟨.empty, .empty⟩, .empty⟩
  step
    | none, _ => none
    | some s, a => (addonAct s a).map fun
      | none => (none, [])
      | some (s', events) => (some s', events)

end MaanyMpc.Lifetimes
