import Mathlib.Data.UInt
import Mathlib.Data.List.Basic

/-! # Data of the bridge

The enumerations of `bridge.h` can hold a number that no constructor declares,
because the C API fills them with `static_cast`. `undeclared` is that number; its
proof field keeps it apart from the declared ones. -/

namespace MaanyMpc

abbrev Bytes := List UInt8

/-! ## Sizes -/

/-- `mem_t(bytes.data(), static_cast<int>(bytes.size()))`. There is nothing to read in front of a
negative size. -/
def toMem (bytes : Bytes) : Bytes := bytes.take ((bytes.length : ℤ).bmod (2 ^ 32)).toNat

theorem length_toMem_le (bytes : Bytes) : (toMem bytes).length ≤ bytes.length := by
  rw [toMem, List.length_take]
  exact Nat.min_le_right ..

theorem toMem_eq_self_iff {bytes : Bytes} : toMem bytes = bytes ↔ bytes.length < 2 ^ 31 := by
  rw [toMem, List.take_eq_self_iff]
  have mod := Int.bmod_def (bytes.length : ℤ) (2 ^ 32)
  split at mod
  · omega
  · omega

theorem length_toMem_lt (bytes : Bytes) : (toMem bytes).length < 2 ^ 31 := by
  have bound : (bytes.length : ℤ).bmod (2 ^ 32) < 2 ^ 31 := by
    have mod := Int.bmod_def (bytes.length : ℤ) (2 ^ 32)
    split at mod
    · omega
    · omega
  rw [toMem, List.length_take]
  omega

/-- What has an `int` for its size is read as it is. -/
@[simp] theorem toMem_toMem (bytes : Bytes) : toMem (toMem bytes) = toMem bytes :=
  toMem_eq_self_iff.mpr (length_toMem_lt bytes)

/-! ## Errors -/

inductive ErrorCode where
  | ok
  | general
  | invalidArgument
  | unsupported
  | protocolState
  | crypto
  | rng
  | io
  | policy
  | memory
  deriving DecidableEq, Repr

/-- The exception class of the bridge. -/
structure Error where
  code : ErrorCode
  message : String
  deriving DecidableEq, Repr

def ensure (condition : Bool) (code : ErrorCode) (message : String) : Except Error Unit :=
  if condition then .ok () else .error ⟨code, message⟩

inductive Curve where
  | secp256k1
  | ed25519
  | undeclared (raw : UInt32) (h : 1 < raw)
  deriving DecidableEq

inductive Scheme where
  | ecdsa2p
  | ecdsaThresholdN
  | schnorr2p
  | undeclared (raw : UInt32) (h : 2 < raw)
  deriving DecidableEq

inductive ShareKind where
  | device
  | server
  | undeclared (raw : UInt32) (h : 1 < raw)
  deriving DecidableEq

inductive SigFormat where
  | der
  | rawRs
  | undeclared (raw : UInt32) (h : 1 < raw)
  deriving DecidableEq

def Scheme.toUInt32 : Scheme → UInt32
  | .ecdsa2p => 0
  | .ecdsaThresholdN => 1
  | .schnorr2p => 2
  | .undeclared raw _ => raw

def Scheme.ofUInt32 (raw : UInt32) : Scheme :=
  if h : 2 < raw then .undeclared raw h
  else if raw = 0 then .ecdsa2p else if raw = 1 then .ecdsaThresholdN else .schnorr2p

@[simp] theorem Scheme.ofUInt32_toUInt32 (s : Scheme) : ofUInt32 s.toUInt32 = s := by
  cases s with
  | undeclared raw h => simp [toUInt32, ofUInt32, h]
  | ecdsa2p | ecdsaThresholdN | schnorr2p => rfl

def ShareKind.toUInt32 : ShareKind → UInt32
  | .device => 0
  | .server => 1
  | .undeclared raw _ => raw

def ShareKind.ofUInt32 (raw : UInt32) : ShareKind :=
  if h : 1 < raw then .undeclared raw h else if raw = 0 then .device else .server

@[simp] theorem ShareKind.ofUInt32_toUInt32 (k : ShareKind) : ofUInt32 k.toUInt32 = k := by
  cases k with
  | undeclared raw h => simp [toUInt32, ofUInt32, h]
  | device | server => rfl

structure KeyId where
  bytes : Vector UInt8 32
  deriving DecidableEq

/-- `coinbase::mpc::party_t`: the device runs as `p1`, the server as `p2`. -/
inductive Party where
  | p1
  | p2
  deriving DecidableEq, Repr

def toParty : ShareKind → Except Error Party
  | .device => .ok .p1
  | .server => .ok .p2
  | .undeclared .. => .error ⟨.invalidArgument, "unknown share kind"⟩

/-- The curve objects of cb-mpc; only secp256k1 is compared with. -/
inductive EcCurve where
  | secp256k1
  | other (code : Nat)
  deriving DecidableEq, Repr

def toCbCurve : Curve → Except Error EcCurve
  | .secp256k1 => .ok .secp256k1
  | .ed25519 => .error ⟨.unsupported, "ed25519 not yet supported"⟩
  | .undeclared .. => .error ⟨.invalidArgument, "unknown curve"⟩

def fromCbCurve (curve : EcCurve) : Except Error Curve :=
  if curve = .secp256k1 then .ok .secp256k1
  else .error ⟨.unsupported, "unsupported curve from cb-mpc"⟩

end MaanyMpc
