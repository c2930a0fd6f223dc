import MaanyMpc.Lifetimes.CApi
import MaanyMpc.Session.Relay

/-! # The handles of the bindings

The Node addon and the React Native host object wrap the pointers of the C API in objects of
JavaScript. A wrapper forgets its pointer when it is released. What has been collected cannot be
passed to a function any more, and each argument is a handle of the kind that the declarations
ask for. -/

namespace MaanyMpc.Lifetimes

open Custody

/-- `CtxHandle`, `DkgHandle`, `KeypairHandle` and `SignHandle`, or the host objects. -/
inductive WrapperKind where
  | ctx
  | handle (kind : HandleKind)
  deriving DecidableEq

/-- What a wrapper of a kind points to. -/
def Wraps : WrapperKind → Object → Prop
  | .ctx, .context => True
  | .handle kind, .handle kind' _ _ => kind = kind'
  | _, _ => False

/-- The memory of the C API, and the wrappers in it. -/
abbrev Js := Store Object WrapperKind

inductive Reply where
  | undefined
  /-- a new wrapper -/
  | wrapper (w : ℕ)
  | bytes (content : Bytes)
  | step (result : StepResult)
  | backup (buffers : List Bytes)
  | threw (message : String)

def maanyMpcErrorString : MaanyMpcError → String
  | .ok => "ok"
  | .general => "general error"
  | .invalidArg => "invalid argument"
  | .unsupported => "unsupported"
  | .protoState => "protocol state"
  | .crypto => "crypto error"
  | .rng => "rng failure"
  | .io => "io"
  | .policy => "policy"
  | .memory => "out of memory"

/-- `CreateError`, or `throwMaanyError`. -/
def createError (context : String) (err : MaanyMpcError) : String :=
  context ++ ": " ++ maanyMpcErrorString err

/-! ## Pieces of the functions -/

/-- A pointer that must not be null. -/
def require (s : Js) (pointer : Option ℕ) (message : String) (next : ℕ → Option (Js × Reply)) :
    Option (Js × Reply) :=
  match pointer with
  | none => some (s, .threw message)
  | some p => next p

def requireCtx (s : Js) (ctx : Option ℕ) : (ℕ → Option (Js × Reply)) → Option (Js × Reply) :=
  require s ctx "Context already shut down"

def releasedMessage : HandleKind → String
  | .dkg => "DKG handle already finalized"
  | .keypair => "Keypair handle already freed"
  | .sign => "Sign handle already freed"

def requireHandle (s : Js) (kind : HandleKind) (handle : Option ℕ) :
    (ℕ → Option (Js × Reply)) → Option (Js × Reply) :=
  require s handle (releasedMessage kind)

/-- A status other than OK is thrown, and a new handle gets a wrapper. -/
def wrapHandle (s : Js) (context : String) (kind : HandleKind) : Result ℕ → Js × Reply
  | (m, .error err) => ({ s with objects := m }, .threw (createError context err))
  | (m, .ok handle) =>
    (⟨m, s.holders.add ⟨.handle kind, some handle⟩⟩, .wrapper s.holders.next)

/-- The contents of a buffer, which is freed. -/
def takeBuffer (m : Memory) (ctx : ℕ) : Option ℕ → Option (Memory × Bytes)
  | none => some (m, [])
  | some buf => do
    let content ← block? m buf
    let m ← maanyMpcBufFree m (some ctx) (some buf)
    return (m, content)

def takeBytes (s : Js) (context : String) (ctx : ℕ) : Result (Option ℕ) → Option (Js × Reply)
  | (m, .error err) => some ({ s with objects := m }, .threw (createError context err))
  | (m, .ok buf) => do
    let (m, content) ← takeBuffer m ctx buf
    return ({ s with objects := m }, .bytes content)

def takeEach (m : Memory) (ctx : ℕ) : List (Option ℕ) → Option (Memory × List Bytes)
  | [] => some (m, [])
  | buf :: rest => do
    let (m, content) ← takeBuffer m ctx buf
    let (m, contents) ← takeEach m ctx rest
    return (m, content :: contents)

/-- The wrapper `w` forgets its pointer. -/
def clear (s : Js) (w : ℕ) : Objects (Holder WrapperKind) :=
  s.holders.modify w fun holder => { holder with held := none }

/-! ## The functions

The pointers are those of the wrappers that a function is given. -/

def jsInit (s : Js) (malloc created : Bool) : Js × Reply :=
  match maanyMpcInit s.objects malloc created with
  | (m, none) => ({ s with objects := m }, .threw "maany_mpc_init failed")
  | (m, some ctx) => (⟨m, s.holders.add ⟨.ctx, some ctx⟩⟩, .wrapper s.holders.next)

def jsShutdown (s : Js) (w : ℕ) : Option ℕ → Option (Js × Reply)
  | none => some (s, .undefined)
  | some ctx => do
    let m ← maanyMpcShutdown s.objects (some ctx)
    return (⟨m, clear s w⟩, .undefined)

/-- What `dkgFree`, `kpFree` and `signFree` do. -/
def jsFree (kind : HandleKind) (s : Js) (w : ℕ) : Option ℕ → Option (Js × Reply)
  | none => some (s, .undefined)
  | some handle => do
    let m ← freeHandle kind s.objects (some handle)
    return (⟨m, clear s w⟩, .undefined)

def jsDkgFree : Js → ℕ → Option ℕ → Option (Js × Reply) := jsFree .dkg
def jsKpFree : Js → ℕ → Option ℕ → Option (Js × Reply) := jsFree .keypair
def jsSignFree : Js → ℕ → Option ℕ → Option (Js × Reply) := jsFree .sign

/-- The finalizers of the addon, or the destructors of the host objects. -/
def collect (kind : WrapperKind) (s : Js) (w : ℕ) (pointer : Option ℕ) :
    Option (Js × Reply) := do
  let m ← match kind with
    | .ctx => maanyMpcShutdown s.objects pointer
    | .handle kind => freeHandle kind s.objects pointer
  return (⟨m, s.holders.drop w⟩, .undefined)

def jsDkgNew (s : Js) (malloc : Bool) (created : Except BridgeException Unit)
    (ctx : Option ℕ) : Option (Js × Reply) :=
  requireCtx s ctx fun ctx => do
    let made ← maanyMpcDkgNew s.objects malloc created (some ctx)
    return wrapHandle s "maany_mpc_dkg_new" .dkg made

def jsKpImport (s : Js) (malloc copied : Bool) (imported : Except BridgeException Unit)
    (ctx : Option ℕ) : Option (Js × Reply) :=
  requireCtx s ctx fun ctx => do
    let made ← maanyMpcKpImport s.objects malloc copied imported (some ctx)
    return wrapHandle s "maany_mpc_kp_import" .keypair made

def jsBackupRestore (s : Js) (malloc copied : Bool) (restored : Except BridgeException Unit)
    (ctx : Option ℕ) : Option (Js × Reply) :=
  requireCtx s ctx fun ctx => do
    let made ← maanyMpcBackupRestore s.objects malloc copied restored (some ctx)
    return wrapHandle s "maany_mpc_backup_restore" .keypair made

def jsSignNew (s : Js) (malloc : Bool) (created : Except BridgeException Unit)
    (ctx kp : Option ℕ) : Option (Js × Reply) :=
  requireCtx s ctx fun ctx => requireHandle s .keypair kp fun kp => do
    let made ← maanyMpcSignNew s.objects malloc created (some ctx) (some kp)
    return wrapHandle s "maany_mpc_sign_new" .sign made

def jsRefreshNew (s : Js) (malloc : Bool) (created : Except BridgeException Unit)
    (ctx kp : Option ℕ) : Option (Js × Reply) :=
  requireCtx s ctx fun ctx => requireHandle s .keypair kp fun kp => do
    let made ← maanyMpcRefreshNew s.objects malloc created (some ctx) (some kp)
    return wrapHandle s "maany_mpc_refresh_new" .dkg made

/-- The handle is freed after its session has given up the key. -/
def jsDkgFinalize (s : Js) (malloc : Bool) (key : Except BridgeException Unit) (w : ℕ)
    (ctx dkg : Option ℕ) : Option (Js × Reply) :=
  requireCtx s ctx fun ctx => requireHandle s .dkg dkg fun dkg => do
    let (m, made) ← maanyMpcDkgFinalize s.objects malloc key (some ctx) (some dkg)
    match made with
    | .error err =>
      return ({ s with objects := m }, .threw (createError "maany_mpc_dkg_finalize" err))
    | .ok kp =>
      let m ← maanyMpcDkgFree m (some dkg)
      return (⟨m, (clear s w).add ⟨.handle .keypair, some kp⟩⟩, .wrapper s.holders.next)

def jsKpExport (s : Js) (malloc : Bool) (blob : Except BridgeException Bytes)
    (ctx kp : Option ℕ) : Option (Js × Reply) :=
  requireCtx s ctx fun ctx => requireHandle s .keypair kp fun kp => do
    let out ← maanyMpcKpExport s.objects malloc blob (some ctx) (some kp)
    takeBytes s "maany_mpc_kp_export" ctx out

def jsKpPubkey (s : Js) (malloc : Bool) (compressed : Except BridgeException Bytes)
    (ctx kp : Option ℕ) : Option (Js × Reply) :=
  requireCtx s ctx fun ctx => requireHandle s .keypair kp fun kp => do
    let out ← maanyMpcKpPubkey s.objects malloc compressed (some ctx) (some kp)
    takeBytes s "maany_mpc_kp_pubkey" ctx out

def jsSignFinalize (s : Js) (malloc : Bool) (sig : Except BridgeException Bytes)
    (ctx sign : Option ℕ) : Option (Js × Reply) :=
  requireCtx s ctx fun ctx => requireHandle s .sign sign fun sign => do
    let out ← maanyMpcSignFinalize s.objects malloc sig (some ctx) (some sign)
    takeBytes s "maany_mpc_sign_finalize" ctx out

def jsSignSetMessage (s : Js) (set : Except BridgeException Unit) (ctx sign : Option ℕ) :
    Option (Js × Reply) :=
  requireCtx s ctx fun ctx => requireHandle s .sign sign fun sign => do
    let (m, status) ← maanyMpcSignSetMessage s.objects set (some ctx) (some sign)
    return ({ s with objects := m }, match status with
      | .ok () => .undefined
      | .error err => .threw (createError "maany_mpc_sign_set_message" err))

/-- `ctxNull` and `kpNull` are what it throws for a context or a keypair that has been
released. What a failed call has allocated is not freed. -/
def jsBackupCreate (ctxNull kpNull : String) (s : Js) (malloc : ℕ → Bool) (copied : Bool)
    (shareCount : ℕ) (created : Except BridgeException (Bytes × Bytes × List Bytes))
    (ctx kp : Option ℕ) : Option (Js × Reply) :=
  require s ctx ctxNull fun ctx => require s kp kpNull fun kp => do
    let (m, out) ← maanyMpcBackupCreate s.objects malloc copied shareCount created (some ctx)
      (some kp)
    match out with
    | .error err =>
      return ({ s with objects := m }, .threw (createError "maany_mpc_backup_create" err))
    | .ok bufs =>
      let (m, contents) ← takeEach m ctx bufs
      return ({ s with objects := m }, .backup contents)

/-! ## Calls -/

/-- A call of a function that returns at once, by the wrappers that it is given. -/
inductive Call where
  | init (malloc created : Bool)
  | shutdown (ctx : ℕ)
  | dkgNew (malloc : Bool) (created : Except BridgeException Unit) (ctx : ℕ)
  | kpImport (malloc copied : Bool) (imported : Except BridgeException Unit) (ctx : ℕ)
  | backupRestore (malloc copied : Bool) (restored : Except BridgeException Unit) (ctx : ℕ)
  | signNew (malloc : Bool) (created : Except BridgeException Unit) (ctx kp : ℕ)
  | refreshNew (malloc : Bool) (created : Except BridgeException Unit) (ctx kp : ℕ)
  | dkgFinalize (malloc : Bool) (key : Except BridgeException Unit) (ctx dkg : ℕ)
  | kpExport (malloc : Bool) (blob : Except BridgeException Bytes) (ctx kp : ℕ)
  | kpPubkey (malloc : Bool) (compressed : Except BridgeException Bytes) (ctx kp : ℕ)
  | signFinalize (malloc : Bool) (sig : Except BridgeException Bytes) (ctx sign : ℕ)
  | signSetMessage (set : Except BridgeException Unit) (ctx sign : ℕ)
  | backupCreate (malloc : ℕ → Bool) (copied : Bool) (shareCount : ℕ)
      (created : Except BridgeException (Bytes × Bytes × List Bytes)) (ctx kp : ℕ)
  /-- `dkgFree`, `kpFree` or `signFree` -/
  | free (kind : HandleKind) (handle : ℕ)
  /-- the wrapper is collected -/
  | collect (kind : WrapperKind) (w : ℕ)

/-- The pointer of a wrapper of this kind, if there is such a wrapper. -/
def pointer? (s : Js) (kind : WrapperKind) (w : ℕ) : Option (Option ℕ) :=
  match s.holders.at? w with
  | some holder => if holder.kind = kind then some holder.held else none
  | none => none

/-- What a binding says if a backup is asked for with a context or a keypair that has been
released. -/
structure BackupTexts where
  ctx : String
  kp : String

/-- The pointers are read from the wrappers. The result is `none` if an argument is no wrapper of
its kind, and `some none` if the call is undefined. -/
def call (texts : BackupTexts) (s : Js) : Call → Option (Option (Js × Reply))
  | .init malloc created => some (some (jsInit s malloc created))
  | .shutdown ctx => (pointer? s .ctx ctx).map (jsShutdown s ctx)
  | .dkgNew malloc created ctx => (pointer? s .ctx ctx).map (jsDkgNew s malloc created)
  | .kpImport malloc copied imported ctx =>
    (pointer? s .ctx ctx).map (jsKpImport s malloc copied imported)
  | .backupRestore malloc copied restored ctx =>
    (pointer? s .ctx ctx).map (jsBackupRestore s malloc copied restored)
  | .signNew malloc created ctx kp => do
    return jsSignNew s malloc created (← pointer? s .ctx ctx) (← pointer? s (.handle .keypair) kp)
  | .refreshNew malloc created ctx kp => do
    return jsRefreshNew s malloc created (← pointer? s .ctx ctx)
      (← pointer? s (.handle .keypair) kp)
  | .dkgFinalize malloc key ctx dkg => do
    return jsDkgFinalize s malloc key dkg (← pointer? s .ctx ctx) (← pointer? s (.handle .dkg) dkg)
  | .kpExport malloc blob ctx kp => do
    return jsKpExport s malloc blob (← pointer? s .ctx ctx) (← pointer? s (.handle .keypair) kp)
  | .kpPubkey malloc compressed ctx kp => do
    return jsKpPubkey s malloc compressed (← pointer? s .ctx ctx)
      (← pointer? s (.handle .keypair) kp)
  | .signFinalize malloc sig ctx sign => do
    return jsSignFinalize s malloc sig (← pointer? s .ctx ctx) (← pointer? s (.handle .sign) sign)
  | .signSetMessage set ctx sign => do
    return jsSignSetMessage s set (← pointer? s .ctx ctx) (← pointer? s (.handle .sign) sign)
  | .backupCreate malloc copied shareCount created ctx kp => do
    return jsBackupCreate texts.ctx texts.kp s malloc copied shareCount created
      (← pointer? s .ctx ctx) (← pointer? s (.handle .keypair) kp)
  | .free kind handle => (pointer? s (.handle kind) handle).map (jsFree kind s handle)
  | .collect kind w => (pointer? s kind w).map (collect kind s w)

end MaanyMpc.Lifetimes
