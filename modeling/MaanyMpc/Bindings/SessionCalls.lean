import MaanyMpc.Bindings.BackupReads
import MaanyMpc.Library.Fallible
import MaanyMpc.Session.Options

/-! # The arguments of session calls

What the two bindings make of the arguments of `dkgNew`, `signNew`, `refreshNew`, `dkgStep`,
`signStep`, `signSetMessage`, `signFinalize` and `kpImport`, from the values to what the C API is
called with. -/

namespace MaanyMpc

/-- The properties that an object of options has. -/
abbrev JsOptions := String → Option JsField

inductive JsOptionsArgument where
  | undefined
  | null
  | object (properties : JsOptions)
  | function (properties : JsOptions)
  | other

/-- A call without its handles. An argument that is not given is `none`. -/
inductive SessionCall where
  | dkgNew (options : JsOptionsArgument)
  | signNew (options : Option JsOptionsArgument)
  | refreshNew (options : Option JsOptionsArgument)
  /-- `dkgStep` and `signStep` -/
  | step (inPeerMsg : Option JsField)
  | signSetMessage (message : JsField)
  | signFinalize (format : Option JsField)
  | kpImport (blob : JsField)

/-- What the C API is called with. -/
inductive SessionArguments where
  | dkg (opts : MaanyMpcDkgOpts)
  | sign (opts : MaanyMpcSignOpts)
  | refresh (opts : MaanyMpcRefreshOpts)
  | step (inPeerMsg : Option Buf)
  | message (bytes : Bytes)
  | format (fmt : SigFormat)
  | blob (bytes : Bytes)

/-- The zeros of `key_id_hint`. -/
def noKeyId : KeyId := ⟨Vector.replicate 32 0⟩

/-- A buffer of the options, which is null if there are no bytes. -/
def givenBuf (bytes : Option Bytes) : Buf := JsBackupRestore.labelBuf (bytes.getD [])

def sigFormat? (text : String) : Option SigFormat :=
  if text = "der" then some .der else if text = "raw-rs" then some .rawRs else none

/-! ## The Node addon -/

namespace JsSession

variable (napi : NapiObjects)

def getNamedProperty (opts : JsOptions) (name : String) : Option JsField :=
  napi.getProperty false ((opts name).getD .undefined)

def buffer (value : JsField) (message : String) : Except BindingError Bytes :=
  match napi.getBuffer value with
  | some bytes => .ok bytes
  | none => .error (.typeError message)

def optionalBuffer (opts : JsOptions) (name : String) : Except BindingError (Option Bytes) :=
  match getNamedProperty napi opts name with
  | none | some .undefined | some .null => .ok none
  | some value => (buffer napi value (name ++ " must be a Buffer")).map some

def parseRole (value : JsField) : Except BindingError ShareKind :=
  match shareKind? ((napi.getValueString value).getD "") with
  | some kind => .ok kind
  | none => .error (.rangeError "role must be 'device' or 'server'")

def keyId (opts : JsOptions) : Except BindingError KeyId := do
  match ← optionalBuffer napi opts "keyId" with
  | none => .ok noKeyId
  | some bytes =>
    if size : bytes.length = 32 then .ok ⟨⟨bytes.toArray, size⟩⟩
    else .error (.rangeError "keyId must be 32 bytes")

/-- A role that is missing is read as undefined. -/
def role (opts : JsOptions) : Except BindingError ShareKind :=
  match getNamedProperty napi opts "role" with
  | none => .error (.typeError "options.role is required")
  | some value => parseRole napi value

def dkgNew : JsOptionsArgument → Except BindingError SessionArguments
  | .object opts => do
    let kind ← role napi opts
    let keyIdHint ← keyId napi opts
    let sessionId ← optionalBuffer napi opts "sessionId"
    .ok (.dkg ⟨.secp256k1, .ecdsa2p, kind, keyIdHint, givenBuf sessionId⟩)
  | _ => .error (.typeError "options must be an object")

def signNew : Option JsOptionsArgument → Except BindingError SessionArguments
  | none | some .undefined | some .null => .ok (.sign ⟨.ecdsa2p, .null 0, .null 0⟩)
  | some (.object opts) => do
    let sessionId ← optionalBuffer napi opts "sessionId"
    let extraAad ← optionalBuffer napi opts "extraAad"
    .ok (.sign ⟨.ecdsa2p, givenBuf sessionId, givenBuf extraAad⟩)
  | _ => .error (.typeError "sign options must be an object")

/-- A session id that is undefined or null is asked for its bytes like any other. -/
def refreshNew : Option JsOptionsArgument → Except BindingError SessionArguments
  | none | some .undefined | some .null => .ok (.refresh ⟨.null 0⟩)
  | some (.object opts) =>
    match getNamedProperty napi opts "sessionId" with
    | none => .ok (.refresh ⟨.null 0⟩)
    | some value => do
      let sessionId ← buffer napi value "sessionId must be a Buffer"
      .ok (.refresh ⟨givenBuf (some sessionId)⟩)
  | _ => .error (.typeError "refresh options must be an object")

/-- An empty message is no message. -/
def step : Option JsField → Except BindingError SessionArguments
  | none | some .undefined | some .null => .ok (.step (stepExecute (jsStep none)))
  | some value => do
    let inbound ← buffer napi value "inPeerMsg must be a Buffer or undefined"
    .ok (.step (stepExecute (jsStep (some inbound))))

def signSetMessage (message : JsField) : Except BindingError SessionArguments := do
  let bytes ← buffer napi message "message must be a Buffer"
  if bytes = [] then .error (.rangeError "message must not be empty") else .ok (.message bytes)

/-- Whatever is no string asks for DER. -/
def signFinalize : Option JsField → Except BindingError SessionArguments
  | some (.string text) =>
    match sigFormat? text with
    | some fmt => .ok (.format fmt)
    | none => .error (.rangeError "format must be 'der' or 'raw-rs'")
  | _ => .ok (.format .der)

def kpImport (blob : JsField) : Except BindingError SessionArguments := do
  let bytes ← buffer napi blob "blob must be a Buffer"
  .ok (.blob bytes)

def read : SessionCall → Except BindingError SessionArguments
  | .dkgNew options => dkgNew napi options
  | .signNew options => signNew napi options
  | .refreshNew options => refreshNew napi options
  | .step inPeerMsg => step napi inPeerMsg
  | .signSetMessage message => signSetMessage napi message
  | .signFinalize format => signFinalize format
  | .kpImport blob => kpImport napi blob

end JsSession

/-! ## The React Native host object -/

/-- What the host object calls of JSI to look into options. -/
structure JsiOptions where
  hasProperty : JsOptions → String → Bool
  getProperty : JsOptions → String → JsField

structure JsiOptions.Documented (jsi : JsiOptions) : Prop where
  hasProperty : ∀ opts name, jsi.hasProperty opts name = (opts name).isSome
  getProperty : ∀ opts name, jsi.getProperty opts name = (opts name).getD .undefined

namespace HostSession

variable (jsi : JsiOptions)

def getOptionalProperty (source : JsOptions) (name : String) : Option JsField :=
  if jsi.hasProperty source name then
    match jsi.getProperty source name with
    | .undefined | .null => none
    | value => some value
  else none

def optionalBytes (opts : JsOptions) (name : String) : JsiM (Option Bytes) :=
  match getOptionalProperty jsi opts name with
  | none => return none
  | some value => some <$> BackupRestore.toByteVector value name

def parseRole (value : JsField) : JsiM ShareKind := do
  let role ← BackupRestore.requireString value "role"
  match shareKind? role with
  | some kind => return kind
  | none => throw (.typeError "role must be 'device' or 'server'")

def role (opts : JsOptions) : JsiM ShareKind :=
  if jsi.hasProperty opts "role" then parseRole (jsi.getProperty opts "role")
  else throw (.typeError "options.role is required")

def keyId (opts : JsOptions) : JsiM KeyId := do
  match ← optionalBytes jsi opts "keyId" with
  | none => return noKeyId
  | some bytes =>
    if size : bytes.length = 32 then return ⟨⟨bytes.toArray, size⟩⟩
    else throw (.typeError "keyId must be 32 bytes")

def dkgNew : JsOptionsArgument → JsiM SessionArguments
  | .object opts | .function opts => do
    let kind ← role jsi opts
    let sessionId ← optionalBytes jsi opts "sessionId"
    let keyIdHint ← keyId jsi opts
    return .dkg ⟨.secp256k1, .ecdsa2p, kind, keyIdHint, givenBuf sessionId⟩
  | _ => throw (.typeError "options must be an object")

def signNew : Option JsOptionsArgument → JsiM SessionArguments
  | none | some .undefined | some .null => return .sign ⟨.ecdsa2p, .null 0, .null 0⟩
  | some (.object opts) | some (.function opts) => do
    let sessionId ← optionalBytes jsi opts "sessionId"
    let extraAad ← optionalBytes jsi opts "extraAad"
    return .sign ⟨.ecdsa2p, givenBuf sessionId, givenBuf extraAad⟩
  | _ => throw (.typeError "sign options must be an object")

def refreshNew : Option JsOptionsArgument → JsiM SessionArguments
  | none | some .undefined | some .null => return .refresh ⟨.null 0⟩
  | some (.object opts) | some (.function opts) => do
    let sessionId ← optionalBytes jsi opts "sessionId"
    return .refresh ⟨givenBuf sessionId⟩
  | _ => throw (.typeError "refresh options must be an object")

def step : Option JsField → JsiM SessionArguments
  | none | some .undefined | some .null => return .step (stepExecute [])
  | some value => do
    let inbound ← BackupRestore.toByteVector value "inPeerMsg"
    return .step (stepExecute inbound)

def signSetMessage (message : JsField) : JsiM SessionArguments := do
  let bytes ← BackupRestore.toByteVector message "message"
  if bytes = [] then throw (.typeError "message must not be empty") else return .message bytes

def parseSignatureFormat : JsField → JsiM SigFormat
  | .undefined | .null => return .der
  | .string text =>
    match sigFormat? text with
    | some fmt => return fmt
    | none => throw (.typeError "format must be 'der' or 'raw-rs'")
  | _ => throw (.typeError "format must be 'der' or 'raw-rs'")

def signFinalize : Option JsField → JsiM SessionArguments
  | none => return .format .der
  | some value => .format <$> parseSignatureFormat value

def kpImport (blob : JsField) : JsiM SessionArguments := do
  let bytes ← BackupRestore.toByteVector blob "blob"
  return .blob bytes

def read : SessionCall → JsiM SessionArguments
  | .dkgNew options => dkgNew jsi options
  | .signNew options => signNew jsi options
  | .refreshNew options => refreshNew jsi options
  | .step inPeerMsg => step inPeerMsg
  | .signSetMessage message => signSetMessage message
  | .signFinalize format => signFinalize format
  | .kpImport blob => kpImport blob

end HostSession

/-! ## Where they differ -/

/-- An `ArrayBuffer`, or a view that is none of JavaScript's own: the host object looks for bytes
there, and the addon does not. -/
def IsHostBytes (value : JsField) : Prop :=
  (∃ bytes, value = .arrayBuffer bytes) ∨
    ∃ buffer byteOffset byteLength, value = .view buffer byteOffset byteLength

def HasHostBytes (opts : JsOptions) (names : List String) : Prop :=
  ∃ name ∈ names, ∃ value, opts name = some value ∧ IsHostBytes value

def JsOptionsArgument.properties : JsOptionsArgument → JsOptions
  | .object opts | .function opts => opts
  | _ => fun _ => none

@[simp] theorem hasHostBytes_cons (opts : JsOptions) (name : String) (names : List String) :
    HasHostBytes opts (name :: names) ↔
      (∃ value, opts name = some value ∧ IsHostBytes value) ∨ HasHostBytes opts names := by
  simp [HasHostBytes]

@[simp] theorem hasHostBytes_nil (opts : JsOptions) : ¬ HasHostBytes opts [] := by
  simp [HasHostBytes]

section Fields

variable {napi : NapiObjects} (node : napi.Documented) {jsi : JsiOptions}
  (native : jsi.Documented) {opts : JsOptions}

section Node

include node

include native

end Node

end Fields

/-! ## Calls -/

section Calls

variable {napi : NapiObjects} (node : napi.Documented) {jsi : JsiOptions}
  (native : jsi.Documented)

include node native

omit native

omit node

include node native

end Calls

end MaanyMpc
