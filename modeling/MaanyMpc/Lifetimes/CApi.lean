import MaanyMpc.Bridge.CApi
import MaanyMpc.Library.Custody
import MaanyMpc.Session.AsyncSession

/-! # What the C API allocates

`malloc_fn` gives out contexts, handles and the contents of buffers. A handle remembers the
context that it was made with and goes back through the `free_fn` of that context. A call that
touches an object which is not there is undefined: its result here is `none`. What the bridge
does is a parameter of each call: the value it returns or the exception it throws. -/

namespace MaanyMpc.Lifetimes

open Custody

inductive HandleKind where
  | dkg
  | keypair
  | sign
  deriving DecidableEq

inductive Object where
  | context
  /-- whether its `unique_ptr` holds anything, and its `owner` -/
  | handle (kind : HandleKind) (held : Bool) (owner : ℕ)
  /-- the data of a buffer -/
  | block (content : Bytes)

abbrev Memory := Objects Object

/-- What an error leaves as it was: the memory, and an error instead of the result. -/
abbrev Result (α : Type) := Memory × Except MaanyMpcError α

/-! ## Reading -/

def context? (m : Memory) (p : ℕ) : Option Unit :=
  match m.at? p with
  | some .context => some ()
  | _ => none

def handle? (m : Memory) (kind : HandleKind) (p : ℕ) : Option (Bool × ℕ) :=
  match m.at? p with
  | some (.handle kind' held owner) => if kind' = kind then some (held, owner) else none
  | _ => none

def block? (m : Memory) (p : ℕ) : Option Bytes :=
  match m.at? p with
  | some (.block content) => some content
  | _ => none

theorem context?_eq_some {m : Memory} {p : ℕ} :
    context? m p = some () ↔ m.at? p = some .context := by
  unfold context?
  split <;> simp_all

theorem handle?_eq_some {m : Memory} {kind : HandleKind} {p : ℕ} {held : Bool} {owner : ℕ} :
    handle? m kind p = some (held, owner) ↔ m.at? p = some (.handle kind held owner) := by
  unfold handle?
  split
  · rename_i kind' held' owner' there
    rw [there]
    by_cases same : kind' = kind <;> simp [same]
  · rename_i other
    simp only [reduceCtorEq, false_iff]
    exact other kind held owner

theorem block?_eq_some {m : Memory} {p : ℕ} {content : Bytes} :
    block? m p = some content ↔ m.at? p = some (.block content) := by
  unfold block?
  split <;> simp_all

/-! ## Contexts -/

/-- `maany_mpc_init`. `created` tells whether `Context::Create` returns. -/
def maanyMpcInit (m : Memory) (malloc created : Bool) : Memory × Option ℕ :=
  if malloc then
    if created then (m.add .context, some m.next) else ((m.add .context).drop m.next, none)
  else (m, none)

def maanyMpcShutdown (m : Memory) : Option ℕ → Option Memory
  | none => some m
  | some ctx => do
    context? m ctx
    return m.drop ctx

/-! ## Handles -/

/-- What `maany_mpc_dkg_free`, `maany_mpc_kp_free` and `maany_mpc_sign_free` do: `free_fn` is
read from the owner. A release is one action here, the end of `session.reset()`: a step that the
reset aborts and wakes can leave before it, and the worker of the session is taken to be through
with the members of the session, so that the reset comes to its end. -/
def freeHandle (kind : HandleKind) (m : Memory) : Option ℕ → Option Memory
  | none => some m
  | some handle => do
    let (_, owner) ← handle? m kind handle
    context? m owner
    return m.drop handle

def maanyMpcDkgFree : Memory → Option ℕ → Option Memory := freeHandle .dkg
def maanyMpcKpFree : Memory → Option ℕ → Option Memory := freeHandle .keypair
def maanyMpcSignFree : Memory → Option ℕ → Option Memory := freeHandle .sign

/-- The end of every function that makes a handle: the bridge has made what goes into it. -/
def newHandle (kind : HandleKind) (m : Memory) (malloc : Bool) (ctx : ℕ) :
    Except BridgeException Unit → Result ℕ
  | .error exception => (m, .error (translateException exception))
  | .ok () => if malloc then (m.add (.handle kind true ctx), .ok m.next) else (m, .error .memory)

/-- `maany_mpc_dkg_new`. -/
def maanyMpcDkgNew (m : Memory) (malloc : Bool) (created : Except BridgeException Unit) :
    Option ℕ → Option (Result ℕ)
  | none => some (m, .error .invalidArg)
  | some ctx => do
    context? m ctx
    return newHandle .dkg m malloc ctx created

/-- `maany_mpc_kp_import` and `maany_mpc_backup_restore`. `copied` tells whether `CopyInBuffer`
returns. -/
def maanyMpcKpImport (m : Memory) (malloc copied : Bool) (imported : Except BridgeException Unit) :
    Option ℕ → Option (Result ℕ)
  | none => some (m, .error .invalidArg)
  | some ctx => do
    context? m ctx
    return if copied then newHandle .keypair m malloc ctx imported else (m, .error .invalidArg)

def maanyMpcBackupRestore : Memory → (malloc copied : Bool) → Except BridgeException Unit →
    Option ℕ → Option (Result ℕ) := maanyMpcKpImport

/-- What `maany_mpc_sign_new` and `maany_mpc_refresh_new` do. -/
def newFromKeypair (kind : HandleKind) (m : Memory) (malloc : Bool)
    (created : Except BridgeException Unit) : Option ℕ → Option ℕ → Option (Result ℕ)
  | some ctx, some kp => do
    context? m ctx
    let (held, _) ← handle? m .keypair kp
    return if held then newHandle kind m malloc ctx created else (m, .error .invalidArg)
  | some ctx, none => do
    context? m ctx
    return (m, .error .invalidArg)
  | none, _ => some (m, .error .invalidArg)

def maanyMpcSignNew : Memory → (malloc : Bool) → Except BridgeException Unit → Option ℕ →
    Option ℕ → Option (Result ℕ) := newFromKeypair .sign

def maanyMpcRefreshNew : Memory → (malloc : Bool) → Except BridgeException Unit → Option ℕ →
    Option ℕ → Option (Result ℕ) := newFromKeypair .dkg

/-- The session is reset. -/
def Object.reset : Object → Object
  | .handle kind _ owner => .handle kind false owner
  | object => object

/-- `maany_mpc_dkg_finalize`. The session is gone before the memory for the keypair is there. -/
def maanyMpcDkgFinalize (m : Memory) (malloc : Bool) (key : Except BridgeException Unit) :
    Option ℕ → Option ℕ → Option (Result ℕ)
  | some ctx, some dkg => do
    let (held, _) ← handle? m .dkg dkg
    match held, key with
    | false, _ => return (m, .error .invalidArg)
    | true, .error exception => return (m, .error (translateException exception))
    | true, .ok () =>
      context? m ctx
      return newHandle .keypair (m.modify dkg Object.reset) malloc ctx (.ok ())
  | _, _ => some (m, .error .invalidArg)

/-! ## Buffers -/

/-- `CopyOutBuffer` to a buffer of the caller. The context is not looked at for no bytes. -/
def copyOut (m : Memory) (malloc : Bool) (ctx : ℕ) (src : Bytes) :
    Option (Result (Option ℕ)) :=
  if src = [] then some (m, .ok none)
  else do
    context? m ctx
    return if malloc then (m.add (.block src), .ok (some m.next)) else (m, .error .memory)

/-- `maany_mpc_buf_free`. What it frees has been overwritten with zeros. -/
def maanyMpcBufFree (m : Memory) : (ctx buf : Option ℕ) → Option Memory
  | some ctx, some buf => do
    context? m ctx
    let content ← block? m buf
    return (m.modify buf fun _ => .block (List.replicate content.length 0)).drop buf
  | _, _ => some m

/-- The end of every function that returns bytes. -/
def returnBytes (m : Memory) (malloc : Bool) (ctx : ℕ) :
    Except BridgeException Bytes → Option (Result (Option ℕ))
  | .error exception => some (m, .error (translateException exception))
  | .ok bytes => copyOut m malloc ctx bytes

/-- `maany_mpc_kp_export`. -/
def maanyMpcKpExport (m : Memory) (malloc : Bool) (blob : Except BridgeException Bytes) :
    Option ℕ → Option ℕ → Option (Result (Option ℕ))
  | some ctx, some kp => do
    context? m ctx
    let (held, _) ← handle? m .keypair kp
    if held then returnBytes m malloc ctx blob else some (m, .error .invalidArg)
  | some ctx, none => do
    context? m ctx
    return (m, .error .invalidArg)
  | none, _ => some (m, .error .invalidArg)

/-- `maany_mpc_kp_pubkey`. -/
def maanyMpcKpPubkey : Memory → (malloc : Bool) → Except BridgeException Bytes → Option ℕ →
    Option ℕ → Option (Result (Option ℕ)) := maanyMpcKpExport

/-- `maany_mpc_sign_finalize`. -/
def maanyMpcSignFinalize (m : Memory) (malloc : Bool) (sig : Except BridgeException Bytes) :
    Option ℕ → Option ℕ → Option (Result (Option ℕ))
  | some ctx, some sign => do
    let (held, _) ← handle? m .sign sign
    if held then returnBytes m malloc ctx sig else some (m, .error .invalidArg)
  | _, _ => some (m, .error .invalidArg)

/-- `maany_mpc_sign_set_message` with a message. -/
def maanyMpcSignSetMessage (m : Memory) (set : Except BridgeException Unit) :
    Option ℕ → Option ℕ → Option (Result Unit)
  | some _, some sign => do
    let (held, _) ← handle? m .sign sign
    return (m, if held then set.mapError translateException else .error .invalidArg)
  | _, _ => some (m, .error .invalidArg)

/-- The copies of a backup, up to the first that fails. `malloc` tells for each call of
`malloc_fn` whether it succeeds, `calls` is the number of those made. -/
def copyOutEach (malloc : ℕ → Bool) (ctx : ℕ) (calls : ℕ) (m : Memory) :
    List Bytes → Option (Result (List (Option ℕ)))
  | [] => some (m, .ok [])
  | src :: rest => do
    let (m, copied) ← copyOut m (malloc calls) ctx src
    match copied with
    | .error err => return (m, .error err)
    | .ok buf =>
      let (m, bufs) ← copyOutEach malloc ctx (calls + mallocs src) m rest
      return (m, bufs.map (buf :: ·))

/-- `maany_mpc_backup_create`, which is given the label, the payload and the shares by the
bridge. -/
def maanyMpcBackupCreate (m : Memory) (malloc : ℕ → Bool) (copied : Bool) (shareCount : ℕ)
    (created : Except BridgeException (Bytes × Bytes × List Bytes)) :
    Option ℕ → Option ℕ → Option (Result (List (Option ℕ)))
  | some ctx, some kp => do
    context? m ctx
    let (held, _) ← handle? m .keypair kp
    match held && copied, created with
    | false, _ => return (m, .error .invalidArg)
    | true, .error exception => return (m, .error (translateException exception))
    | true, .ok (label, payload, shares) =>
      let (m, first) ← copyOutEach malloc ctx 0 m [label, payload]
      match first with
      | .error err => return (m, .error err)
      | .ok bufs =>
        if shares.length ≠ shareCount then return (m, .error .general)
        let (m, rest) ← copyOutEach malloc ctx (mallocs label + mallocs payload) m shares
        return (m, rest.map (bufs ++ ·))
  | some ctx, none => do
    context? m ctx
    return (m, .error .invalidArg)
  | none, _ => some (m, .error .invalidArg)

/-! ## Steps

A step waits inside the session, so it has a beginning and an end. -/

/-- A step looks whether there is a session. -/
def stepEnter (kind : HandleKind) (m : Memory) (handle : ℕ) : Option Bool := do
  let (held, _) ← handle? m kind handle
  return held

/-- `Step` comes back from a session that must still be there, and what it has returned is
copied for the caller. -/
def stepLeave (kind : HandleKind) (m : Memory) (malloc : Bool) (ctx handle : ℕ)
    (output : Except BridgeException StepOutput) :
    Option (Result (Option ℕ × StepState)) := do
  let (held, _) ← handle? m kind handle
  if held then
    match output with
    | .error exception => return (m, .error (translateException exception))
    | .ok output =>
      let (m, copied) ← copyOut m malloc ctx (output.outbound.getD [])
      return (m, copied.map (·, output.state))
  else none

/-- What `maany_mpc_dkg_step` and `maany_mpc_sign_step` do, without anyone in between. -/
def step (kind : HandleKind) (m : Memory) (malloc : Bool)
    (output : Except BridgeException StepOutput) :
    Option ℕ → Option ℕ → Option (Result (Option ℕ × StepState))
  | some ctx, some handle => do
    let held ← stepEnter kind m handle
    if held then stepLeave kind m malloc ctx handle output else some (m, .error .invalidArg)
  | _, _ => some (m, .error .invalidArg)

def maanyMpcDkgStep : Memory → (malloc : Bool) → Except BridgeException StepOutput → Option ℕ →
    Option ℕ → Option (Result (Option ℕ × StepState)) := step .dkg

def maanyMpcSignStep : Memory → (malloc : Bool) → Except BridgeException StepOutput → Option ℕ →
    Option ℕ → Option (Result (Option ℕ × StepState)) := step .sign

end MaanyMpc.Lifetimes
