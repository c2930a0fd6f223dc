import MaanyMpc.Bridge.Keypair
import MaanyMpc.Session.AsyncSession

/-! # The three sessions

What `DkgSessionImpl`, `RefreshSessionImpl` and `SignSessionImpl` add to `AsyncSession`:
the checks of their constructors, their workers and their `Finalize`. -/

namespace MaanyMpc

structure DkgOptions where
  curve : Curve
  scheme : Scheme
  kind : ShareKind
  keyId : KeyId
  sessionId : Bytes

structure RefreshOptions where
  sessionId : Bytes

structure SignOptions where
  scheme : Scheme
  sessionId : Bytes
  extraAad : Bytes

variable {Point Paillier : Type}

/-- What the sessions use of cb-mpc. The protocol functions keep the role and the curve
that they find in the key they fill. -/
structure Ecdsa2pc (Point Paillier : Type) where
  errors : CbErrors
  dkg : (role : Party) → (curve : EcCurve) → Program (Outcome (KeyFor Point Paillier role curve))
  refresh : (existing : Key Point Paillier) → (role : Party) → (curve : EcCurve) → (Q : Point) →
    Program (Outcome (KeyFor Point Paillier role curve))
  sign : (role : Party) → (sid : Bytes) → (key : Key Point Paillier) → (msg : Bytes) →
    Program (Outcome Bytes)
  /-- `ecdsa_signature_t::from_der`, `get_r` and `get_s` -/
  fromDer : EcCurve → Bytes → UInt32 × Int × Int
  /-- `curve.order().get_bin_size()` -/
  orderSize : EcCurve → Nat
  toBin : (size : Nat) → Int → Vector UInt8 size

/-! ## Key generation and refresh -/

/-- A key session as its constructor leaves it. -/
structure DkgSessionImpl where
  opts : DkgOptions
  curve : EcCurve
  party : Party
  curve_eq : toCbCurve opts.curve = .ok curve
  party_eq : toParty opts.kind = .ok party
  scheme_eq : opts.scheme = .ecdsa2p

def DkgSessionImpl.create (opts : DkgOptions) : Except Error DkgSessionImpl :=
  match curve_eq : toCbCurve opts.curve with
  | .error err => .error err
  | .ok curve =>
    match party_eq : toParty opts.kind with
    | .error err => .error err
    | .ok party =>
      if scheme_eq : opts.scheme = .ecdsa2p then
        .ok { opts, curve, party, curve_eq, party_eq, scheme_eq }
      else .error ⟨.unsupported, "only ECDSA 2p supported"⟩

structure RefreshSessionImpl (Point Paillier : Type) where
  keypair : Keypair Point Paillier
  opts : RefreshOptions
  party : Party
  party_eq : toParty keypair.kind = .ok party
  scheme_eq : keypair.scheme = .ecdsa2p

def RefreshSessionImpl.create (keypair : Keypair Point Paillier) (opts : RefreshOptions) :
    Except Error (RefreshSessionImpl Point Paillier) :=
  match party_eq : toParty keypair.kind with
  | .error err => .error err
  | .ok party =>
    if scheme_eq : keypair.scheme = .ecdsa2p then
      .ok { keypair, opts, party, party_eq, scheme_eq }
    else .error ⟨.unsupported, "only ECDSA 2p refresh supported"⟩

/-- The common end of the two key workers. -/
def CbErrors.keyExit {κ : Type} (cb : CbErrors) (location : String) :
    Outcome κ → WorkerExit κ
  | .returned rv key =>
    if rv = cb.success then .publish key else .fail (cb.error rv location)
  | .threw exception => .fail exception.handled

def DkgSessionImpl.session (cb : Ecdsa2pc Point Paillier) (d : DkgSessionImpl) :
    SessionImpl (KeyFor Point Paillier d.party d.curve) Unit (Keypair Point Paillier) where
  worker := .protocol
    ((cb.dkg d.party d.curve).map (cb.errors.keyExit "ecdsa2pc::dkg"))
  finalize _ ready :=
    match ready with
    | none => (.error ⟨.protocolState, "DKG not complete"⟩, none)
    | some key =>
      (.ok (.ofKey d.opts.kind d.opts.scheme d.opts.curve d.opts.keyId d.party_eq
        (fromCbCurve_toCbCurve d.curve_eq) key), none)

/-- The flag is reset before `FromCbCurve` is asked. -/
def RefreshSessionImpl.session (cb : Ecdsa2pc Point Paillier)
    (r : RefreshSessionImpl Point Paillier) :
    SessionImpl (KeyFor Point Paillier r.party r.keypair.key.curve) Unit
      (Keypair Point Paillier) where
  worker := .protocol
    ((cb.refresh r.keypair.key r.party r.keypair.key.curve r.keypair.key.Q).map
      (cb.errors.keyExit "ecdsa2pc::refresh"))
  finalize _ ready :=
    match ready with
    | none => (.error ⟨.protocolState, "refresh not complete"⟩, none)
    | some key =>
      match curve_eq : fromCbCurve r.keypair.key.curve with
      | .error err => (.error err, none)
      | .ok curve =>
        (.ok (.ofKey r.keypair.kind r.keypair.scheme curve r.keypair.keyId r.party_eq curve_eq
          key), none)

/-! ## Signing -/

/-- `signature_der_` and `signature_raw_`. -/
structure Signature where
  der : Bytes
  raw : Bytes

structure SignSessionImpl (Point Paillier : Type) where
  keypair : Keypair Point Paillier
  opts : SignOptions
  party : Party
  party_eq : toParty keypair.kind = .ok party
  scheme_eq : opts.scheme = .ecdsa2p

def SignSessionImpl.create (keypair : Keypair Point Paillier) (opts : SignOptions) :
    Except Error (SignSessionImpl Point Paillier) :=
  match party_eq : toParty keypair.kind with
  | .error err => .error err
  | .ok party =>
    if scheme_eq : opts.scheme = .ecdsa2p then
      .ok { keypair, opts, party, party_eq, scheme_eq }
    else .error ⟨.unsupported, "only ECDSA 2p sign supported"⟩

/-- The worker after `sign`. A party that gets no signature leaves without publishing. -/
def Ecdsa2pc.signExit (cb : Ecdsa2pc Point Paillier) (curve : EcCurve) :
    Outcome Bytes → WorkerExit Signature
  | .threw exception => .fail exception.handled
  | .returned rv sig =>
    if rv ≠ cb.errors.success then .fail (cb.errors.error rv "ecdsa2pc::sign")
    else if sig = [] then .quiet
    else
      match cb.fromDer curve sig with
      | (rv, r, s) =>
        if rv ≠ 0 then .fail (cb.errors.error rv "ecdsa_signature_t::from_der")
        else .publish
          { der := sig
            raw := (cb.toBin (cb.orderSize curve) r).toList ++
              (cb.toBin (cb.orderSize curve) s).toList }

def SignSessionImpl.session (cb : Ecdsa2pc Point Paillier)
    (g : SignSessionImpl Point Paillier) : SessionImpl Signature SigFormat Bytes where
  worker := .awaitMessage fun msg =>
    (cb.sign g.party g.opts.sessionId g.keypair.key msg).map (cb.signExit g.keypair.key.curve)
  finalize fmt ready :=
    if g.party ≠ .p1 then
      (.error ⟨.protocolState, "signature finalize not available for this share"⟩, ready)
    else
      match ready with
      | none => (.error ⟨.protocolState, "signature not ready"⟩, ready)
      | some signature =>
        match if fmt = .der then signature.der else signature.raw with
        | [] => (.error ⟨.protocolState, "requested signature format unavailable"⟩, ready)
        | byte :: rest => (.ok (byte :: rest), ready)

end MaanyMpc
