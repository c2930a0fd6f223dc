import MaanyMpc.Bridge.Types

/-! # Keypairs and the errors of cb-mpc

`Point` and `Paillier` are the types of `key_t` that the bridge only passes on. -/

namespace MaanyMpc

/-- `ecdsa2pc::key_t`. -/
structure Key (Point Paillier : Type) where
  role : Party
  curve : EcCurve
  Q : Point
  xShare : Int
  cKey : Int
  paillier : Paillier

/-- A key that still has the role and the curve it was given. -/
def KeyFor (Point Paillier : Type) (role : Party) (curve : EcCurve) : Type :=
  { key : Key Point Paillier // key.role = role ∧ key.curve = curve }

/-- `KeypairImpl`. Every place that builds one takes the role from the kind, and the curve
from the curve of the key or the other way round. -/
@[ext] structure Keypair (Point Paillier : Type) where
  kind : ShareKind
  scheme : Scheme
  curve : Curve
  keyId : KeyId
  key : Key Point Paillier
  role_eq : toParty kind = .ok key.role
  curve_eq : fromCbCurve key.curve = .ok curve

/-- What a key session hands to the constructor. -/
def Keypair.ofKey {Point Paillier : Type} {role : Party} {cbCurve : EcCurve} (kind : ShareKind)
    (scheme : Scheme) (curve : Curve) (keyId : KeyId) (role_eq : toParty kind = .ok role)
    (curve_eq : fromCbCurve cbCurve = .ok curve) (key : KeyFor Point Paillier role cbCurve) :
    Keypair Point Paillier where
  kind
  scheme
  curve
  keyId
  key := key.val
  role_eq := by rw [role_eq, key.property.1]
  curve_eq := by rw [key.property.2, curve_eq]

theorem fromCbCurve_toCbCurve {curve : Curve} {cb : EcCurve} (h : toCbCurve curve = .ok cb) :
    fromCbCurve cb = .ok curve := by
  cases curve with
  | secp256k1 =>
      obtain rfl : EcCurve.secp256k1 = cb := by simpa [toCbCurve] using h
      rfl
  | ed25519 | undeclared => simp [toCbCurve] at h

/-! ## Error codes -/

/-- The constants of `cbmpc/core/error.h`. -/
structure CbErrors where
  success : UInt32
  badArg : UInt32
  format : UInt32
  range : UInt32
  notSupported : UInt32
  category : UInt32 → UInt32
  crypto : UInt32
  network : UInt32

def CbErrors.mapError (cb : CbErrors) (err : UInt32) : ErrorCode :=
  if err = cb.success then .ok
  else if err = cb.badArg ∨ err = cb.format ∨ err = cb.range then .invalidArgument
  else if err = cb.notSupported then .unsupported
  else if cb.category err = cb.crypto then .crypto
  else if cb.category err = cb.network then .io
  else .general

/-- The number is written with `std::hex`. -/
def formatError (err : UInt32) (location : String) : String :=
  location ++ " failed with 0x" ++ String.ofList (Nat.toDigits 16 err.toNat)

def CbErrors.error (cb : CbErrors) (err : UInt32) (location : String) : Error :=
  ⟨cb.mapError err, formatError err location⟩

end MaanyMpc
