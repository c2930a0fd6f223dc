import MaanyMpc.Session.Exchange

/-! # The options of a session

`session_id` and `extra_aad` come through the C API into the options of a session. What they can
change is what the session's worker passes to the protocol; what a difference does to two parties
is then up to the protocol. -/

namespace MaanyMpc

open Transition

variable {Point Paillier φ β : Type}

/-! ## The C API -/

structure MaanyMpcDkgOpts where
  curve : Curve
  scheme : Scheme
  kind : ShareKind
  keyIdHint : KeyId
  sessionId : Buf

structure MaanyMpcSignOpts where
  scheme : Scheme
  sessionId : Buf
  extraAad : Buf

structure MaanyMpcRefreshOpts where
  sessionId : Buf

/-- The bytes of an optional buffer, which are assigned if it has data and a length. -/
def Buf.assigned : Buf → Bytes
  | .null _ => []
  | .bytes data => data

def convertDkgOptions (opts : MaanyMpcDkgOpts) : DkgOptions where
  curve := opts.curve
  scheme := opts.scheme
  kind := opts.kind
  keyId := opts.keyIdHint
  sessionId := opts.sessionId.assigned

/-- The pointer to the options may be null. -/
def convertSignOptions : Option MaanyMpcSignOpts → SignOptions
  | none => ⟨.ecdsa2p, [], []⟩
  | some opts => ⟨opts.scheme, opts.sessionId.assigned, opts.extraAad.assigned⟩

def convertRefreshOptions : Option MaanyMpcRefreshOpts → RefreshOptions
  | none => ⟨[]⟩
  | some opts => ⟨opts.sessionId.assigned⟩

/-- A session behind its handle. -/
structure CreatedSession (φ β : Type) : Type 1 where
  Result : Type
  impl : SessionImpl Result φ β

variable (cb : Ecdsa2pc Point Paillier)

def maanyMpcDkgNew (opts : MaanyMpcDkgOpts) :
    Except ErrorCode (CreatedSession Unit (Keypair Point Paillier)) :=
  ((DkgSessionImpl.create (convertDkgOptions opts)).map fun d =>
    ⟨_, d.session cb⟩).mapError Error.code

def maanyMpcRefreshNew (kp : Keypair Point Paillier) (opts : Option MaanyMpcRefreshOpts) :
    Except ErrorCode (CreatedSession Unit (Keypair Point Paillier)) :=
  ((RefreshSessionImpl.create kp (convertRefreshOptions opts)).map fun r =>
    ⟨_, r.session cb⟩).mapError Error.code

def maanyMpcSignNew (kp : Keypair Point Paillier) (opts : Option MaanyMpcSignOpts) :
    Except ErrorCode (CreatedSession SigFormat Bytes) :=
  ((SignSessionImpl.create kp (convertSignOptions opts)).map fun g =>
    ⟨_, g.session cb⟩).mapError Error.code

/-! ## Equal values -/

def pair (device server : CreatedSession φ β) : Participant → CreatedSession φ β
  | .device => device
  | .server => server

namespace Program

variable {ρ τ : Type}

/-- Every message that the program can send satisfies `P`. -/
def Sends (P : Bytes → Prop) : Program ρ → Prop
  | finish _ => True
  | send msg next => P (toMem msg) ∧ next.Sends P
  | receive next => ∀ answer, (next answer).Sends P

end Program

/-- The same of a worker thread. -/
def WorkerPc.Sends {α : Type} (P : Bytes → Prop) : WorkerPc α → Prop
  | .running program | .sent program => program.Sends P
  | .parkedReceive next | .wokenReceive next => ∀ answer, (next answer).Sends P
  | _ => True

def Worker.Sends {α : Type} (P : Bytes → Prop) : Worker α → Prop
  | .protocol program => program.Sends P
  | .awaitMessage sign => ∀ msg, (sign msg).Sends P

theorem WorkerPc.sends_notified {α : Type} {P : Bytes → Prop} {pc : WorkerPc α}
    (h : pc.Sends P) : pc.notified.Sends P := by
  cases pc with
  | parkedReceive next => exact h
  | _ => exact h

theorem Step.sends {α : Type} {impl : SessionImpl α φ β} {P : Bytes → Prop} {s s' : State α φ}
    {a : Action φ} {es : List (Event β)} (h : Step impl s a s' es) (start : impl.worker.Sends P)
    (before : s.worker.Sends P) : s'.worker.Sends P ∧ ∀ msg ∈ sentMessages es, P msg := by
  cases h with
  | messageTaken pc members worker ready =>
      rw [worker] at start
      exact ⟨start _, by simp [sentMessages, Event.sent?]⟩
  | sendStored pc =>
      rw [pc] at before
      exact ⟨before.2, by simpa [sentMessages, Event.sent?] using before.1⟩
  | sendNotified pc | enteredParked pc | wokenParked pc | wokeReceive pc =>
      rw [pc] at before
      exact ⟨before, by simp [sentMessages]⟩
  | enteredTaken pc | wokenTaken pc | enteredFailed pc | wokenFailed pc =>
      rw [pc] at before
      exact ⟨before _, by simp [sentMessages, Event.sent?]⟩
  | pushed | aborting =>
      exact ⟨WorkerPc.sends_notified before, by simp [sentMessages, Event.sent?]⟩
  | messageAccepted =>
      refine ⟨?_, by simp [sentMessages, Event.sent?]⟩
      cases pc : s.worker with
      | parkedMessage => trivial
      | _ => simpa [pc, WorkerPc.messageNotified] using before
  | lostWaiting | lostRunning | messageAborted | messageParked | published | failed | quiet
  | left | doneSet | exited | wokeMessage => exact ⟨trivial, by simp [sentMessages]⟩
  | _ => exact ⟨before, by simp [sentMessages, Event.sent?]⟩

theorem SignSessionImpl.create_eq_ok {kp : Keypair Point Paillier} {opts : SignOptions}
    {g : SignSessionImpl Point Paillier} (created : SignSessionImpl.create kp opts = .ok g) :
    g.keypair = kp ∧ g.opts = opts := by
  unfold SignSessionImpl.create at created
  split at created
  · cases created
  · split at created
    · cases created
      exact ⟨rfl, rfl⟩
    · cases created

end MaanyMpc
