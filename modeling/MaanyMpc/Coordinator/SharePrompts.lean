import MaanyMpc.Coordinator.SecureStorage

/-! # Loads that ask the user

`SecureShareStorageModule` answers a load of a share when the user has authenticated. Until then
the load is a promise in `pendingPromise`, which the calls of JavaScript and the callbacks of the
prompts, on two threads, both write. -/

namespace MaanyMpc.SharePrompts

variable {Key : Type}

/-! ## State -/

inductive Settlement where
  | resolved (value : Option String)
  | rejected (code message : String)

/-- The cipher and the ciphertext that a load has prepared. -/
structure Prompt (Key : Type) where
  key : Key
  iv : Bytes
  encrypted : Bytes

inductive PromptPhase where
  /-- the main thread has yet to run it -/
  | posted
  | shown
  | answered
  deriving DecidableEq

/-- A callback that has read `pendingPromise`, and what it is going to settle it with. -/
structure Callback where
  current : Option ℕ
  cleared : Bool
  outcome : Settlement

/-- Promises are numbered, and the prompt of a load has the number of its promise. -/
structure ShareModule (Key : Type) where
  stored : SecureShareStorageModule Key
  pendingPromise : Option ℕ
  promises : ℕ
  /-- a load that has not yet written `pendingPromise` -/
  loading : Option (ℕ × Prompt Key)
  prompts : ℕ → Option (PromptPhase × Prompt Key)
  /-- on the main thread -/
  callback : Option Callback

def ShareModule.new : ShareModule Key := ⟨.new, none, 0, none, fun _ => none, none⟩

/-! ## Calls of JavaScript -/

/-- What works of the keystore during a save. -/
structure SaveConditions where
  entry : Bool
  generates : Bool
  encrypts : Bool

/-- `getOrCreateKey`: an entry that cannot be read is replaced. -/
def getOrCreateKey (cipher : KeystoreCipher Key) (m : SecureShareStorageModule Key) (draw : ℕ)
    (keyAlias : String) (works : SaveConditions) : Option (Key × SecureShareStorageModule Key) :=
  match if works.entry then m.keystore keyAlias else none with
  | some key => some (key, m)
  | none =>
    if works.generates then
      let key := cipher.generateKey draw
      some (key, { m with keystore := Function.update m.keystore keyAlias (some key) })
    else none

def saveShare (android : AndroidBase64) (cipher : KeystoreCipher Key)
    (m : SecureShareStorageModule Key) (draw : ℕ) (keyId base64 : String)
    (works : SaveConditions) : Settlement × SecureShareStorageModule Key :=
  let rejected := Settlement.rejected "ERR_SAVE_SHARE" "Failed to encrypt share"
  match android.decode base64 with
  | none => (rejected, m)
  | some value =>
    match getOrCreateKey cipher m draw (aliasFor keyId) works with
    | none => (rejected, m)
    | some (key, m) =>
      if works.encrypts then
        let (iv, ciphertext) := cipher.encrypt key draw value
        let encoded := android.encodeToString (iv.toList ++ ciphertext)
        (.resolved none,
          { m with preferences := Function.update m.preferences (prefKey keyId) (some encoded) })
      else (rejected, m)

/-- A key that cannot be deleted stays. -/
def removeShare (m : SecureShareStorageModule Key) (keyId : String) (deleted : Bool) :
    SecureShareStorageModule Key where
  preferences := Function.update m.preferences (prefKey keyId) none
  keystore := if deleted then Function.update m.keystore (aliasFor keyId) none else m.keystore

/-- What a load finds: a `FragmentActivity`, a keystore that answers, with an entry that can be
read, and a cipher that can be initialized. -/
structure LoadConditions where
  activity : Bool
  keystore : Bool
  entry : Bool
  ready : Bool

/-- `loadShare` up to the prompt. The result is `none` for an exception that it does not catch. -/
def prepare (android : AndroidBase64) (s : ShareModule Key) (keyId : String)
    (finds : LoadConditions) : Option (Except Settlement (Prompt Key)) :=
  match s.stored.preferences (prefKey keyId) with
  | none => some (.error (.resolved none))
  | some stored =>
    if s.pendingPromise.isSome then
      some (.error (.rejected "ERR_BUSY"
        "Another authentication request is already in progress"))
    else if !finds.activity then
      some (.error (.rejected "ERR_NO_ACTIVITY" "Unable to access current activity"))
    else if !finds.keystore then
      some (.error (.rejected "ERR_KEYSTORE" "Failed to access keystore"))
    else
      match if finds.entry then s.stored.keystore (aliasFor keyId) else none with
      | none => some (.error (.resolved none))
      | some key =>
        match android.decode stored with
        | none => none
        | some payload =>
          if payload.length < ivLength + 1 then
            some (.error (.rejected "ERR_INVALID_PAYLOAD" "Encrypted payload too short"))
          else if !finds.ready then
            some (.error (.rejected "ERR_CIPHER" "Failed to prepare cipher"))
          else some (.ok ⟨key, payload.take ivLength, payload.drop ivLength⟩)

/-! ## Callbacks -/

/-- `onAuthenticationFailed` does nothing. -/
inductive Authentication where
  | error (errString : String)
  /-- with the cipher of the prompt, which works, or does not -/
  | succeeded (crypto works : Bool)

def outcome (android : AndroidBase64) (cipher : KeystoreCipher Key) (prompt : Prompt Key) :
    Authentication → Settlement
  | .error errString => .rejected "ERR_AUTH" errString
  | .succeeded false _ => .rejected "ERR_AUTH" "Missing cryptographic object"
  | .succeeded true works =>
    match if works then cipher.decrypt prompt.key prompt.iv prompt.encrypted else none with
    | some decrypted => .resolved (some (android.encodeToString decrypted))
    | none => .rejected "ERR_DECRYPT" "Failed to decrypt share"

/-! ## The machine -/

inductive PromptAction where
  | saveShare (draw : ℕ) (keyId base64 : String) (works : SaveConditions)
  | removeShare (keyId : String) (deleted : Bool)
  | loadShare (keyId : String) (finds : LoadConditions)
  /-- the load writes `pendingPromise` and posts its prompt -/
  | post
  /-- the main thread runs what was posted -/
  | run (p : ℕ) (launched : Bool)
  | authenticated (p : ℕ) (r : Authentication)
  /-- the callback writes `pendingPromise` -/
  | clear
  | settle

/-- A call that is settled at once. -/
def ShareModule.answer (s : ShareModule Key) (settlement : Settlement)
    (stored : SecureShareStorageModule Key) : ShareModule Key × List (ℕ × Settlement) :=
  ({ s with stored, promises := s.promises + 1 }, [(s.promises, settlement)])

def ShareModule.enter (s : ShareModule Key) (p : ℕ) (prompt : Prompt Key) (outcome : Settlement) :
    ShareModule Key :=
  { s with
    prompts := Function.update s.prompts p (some (.answered, prompt))
    callback := some ⟨s.pendingPromise, false, outcome⟩ }

/-- Each thread does one thing at a time. -/
def step (android : AndroidBase64) (cipher : KeystoreCipher Key) (s : ShareModule Key) :
    PromptAction → Option (ShareModule Key × List (ℕ × Settlement))
  | .saveShare draw keyId base64 works =>
    if s.loading.isSome then none
    else
      let (settlement, stored) := saveShare android cipher s.stored draw keyId base64 works
      some (s.answer settlement stored)
  | .removeShare keyId deleted =>
    if s.loading.isSome then none
    else some (s.answer (.resolved none) (removeShare s.stored keyId deleted))
  | .loadShare keyId finds =>
    if s.loading.isSome then none
    else
      match prepare android s keyId finds with
      | none => some ({ s with promises := s.promises + 1 }, [])
      | some (.error settlement) => some (s.answer settlement s.stored)
      | some (.ok prompt) =>
        some ({ s with loading := some (s.promises, prompt), promises := s.promises + 1 }, [])
  | .post =>
    match s.loading with
    | none => none
    | some (p, prompt) =>
      some ({ s with
        loading := none
        pendingPromise := some p
        prompts := Function.update s.prompts p (some (.posted, prompt)) }, [])
  | .run p launched =>
    match s.callback, s.prompts p with
    | none, some (.posted, prompt) =>
      if launched then
        some ({ s with prompts := Function.update s.prompts p (some (.shown, prompt)) }, [])
      else some (s.enter p prompt (.rejected "ERR_PROMPT" "Failed to launch biometric prompt"), [])
    | _, _ => none
  | .authenticated p r =>
    match s.callback, s.prompts p with
    | none, some (phase, prompt) =>
      if phase = .posted then none
      else some (s.enter p prompt (outcome android cipher prompt r), [])
    | _, _ => none
  | .clear =>
    match s.callback with
    | some ⟨current, false, outcome⟩ =>
      some ({ s with pendingPromise := none, callback := some ⟨current, true, outcome⟩ }, [])
    | _ => none
  | .settle =>
    match s.callback with
    | some ⟨current, true, outcome⟩ =>
      some ({ s with callback := none }, current.toList.map fun p => (p, outcome))
    | _ => none

def machine (android : AndroidBase64) (cipher : KeystoreCipher Key) :
    Transition.Machine (ShareModule Key) PromptAction (ℕ × Settlement) where
  init := .new
  step := step android cipher

/-- A prompt calls back once. -/
def CallsBackOnce (s : ShareModule Key) : PromptAction → Prop
  | .authenticated p _ => ∀ prompt, s.prompts p ≠ some (.answered, prompt)
  | _ => True

end MaanyMpc.SharePrompts
