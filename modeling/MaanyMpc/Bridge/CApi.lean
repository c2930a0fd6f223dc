import MaanyMpc.Bridge.Types

/-! # The C API

`maany_mpc_buf_t` and its conversions to and from the byte strings of the bridge, and what the
API returns. `copyOutBuffer` has memory to spare; `tryCopyOutBuffer` asks `malloc_fn`. -/

namespace MaanyMpc

/-- `maany_mpc_buf_t`: a length without data, or the bytes that the pointer refers to. -/
inductive Buf where
  | null (len : Nat)
  | bytes (data : Bytes)

def Buf.len : Buf → Nat
  | .null len => len
  | .bytes data => data.length

def copyInBuffer : Buf → Option Bytes
  | .null len => if len = 0 then some [] else none
  | .bytes data => some data

def copyOutBuffer : Bytes → Buf
  | [] => .null 0
  | byte :: rest => .bytes (byte :: rest)

/-! ## Results -/

inductive MaanyMpcError where
  | ok
  | general
  | invalidArg
  | unsupported
  | protoState
  | crypto
  | rng
  | io
  | policy
  | memory
  deriving DecidableEq, Repr

def mapBridgeErrorCode : ErrorCode → MaanyMpcError
  | .ok => .ok
  | .invalidArgument => .invalidArg
  | .unsupported => .unsupported
  | .protocolState => .protoState
  | .crypto => .crypto
  | .rng => .rng
  | .io => .io
  | .policy => .policy
  | .memory => .memory
  | .general => .general

/-- What a call of the bridge throws. -/
inductive BridgeException where
  | error (err : Error)
  | badAlloc
  | other

def translateException : BridgeException → MaanyMpcError
  | .error err => mapBridgeErrorCode err.code
  | .badAlloc => .memory
  | .other => .general

/-! ## Memory of the caller -/

/-- `CopyOutBuffer`, with the answer of `malloc_fn`, which is asked only if there are bytes. -/
def tryCopyOutBuffer (allocated : Bool) : Bytes → MaanyMpcError × Buf
  | [] => (.ok, .null 0)
  | byte :: rest => if allocated then (.ok, .bytes (byte :: rest)) else (.memory, .null 0)

/-- The number of calls of `malloc_fn` in it. -/
def mallocs (src : Bytes) : Nat :=
  if src = [] then 0 else 1

theorem tryCopyOutBuffer_status (allocated : Bool) (src : Bytes) :
    (tryCopyOutBuffer allocated src).1 = .ok ↔ src = [] ∨ allocated = true := by
  cases src <;> cases allocated <;> simp [tryCopyOutBuffer]

@[simp] theorem tryCopyOutBuffer_true (src : Bytes) :
    tryCopyOutBuffer true src = (.ok, copyOutBuffer src) := by
  cases src <;> rfl

end MaanyMpc
