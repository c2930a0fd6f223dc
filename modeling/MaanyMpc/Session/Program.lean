import MaanyMpc.Bridge.Types

/-! # Worker programs

A cb-mpc protocol touches a session only through `send_impl` and `receive_impl` of
its job. A program is the tree of those calls: what is sent next may depend on
everything received before, every path is finite, and a leaf is the way the
protocol function ends. What is sent and received is a `mem_t`, which has an `int` for its
size. -/

namespace MaanyMpc

inductive Program (ρ : Type) where
  | finish (result : ρ)
  | send (msg : Bytes) (next : Program ρ)
  /-- `none` stands for the `E_GENERAL` that `OnReceive` returns on an aborted session. -/
  | receive (next : Option Bytes → Program ρ)

namespace Program

variable {ρ τ : Type}

def map (f : ρ → τ) : Program ρ → Program τ
  | finish result => finish (f result)
  | send msg next => send msg (next.map f)
  | receive next => receive fun answer => (next answer).map f

/-- Every leaf satisfies `P`. -/
def Ends (P : ρ → Prop) : Program ρ → Prop
  | finish result => P result
  | send _ next => next.Ends P
  | receive next => ∀ answer, (next answer).Ends P

theorem ends_map (f : ρ → τ) (P : τ → Prop) (p : Program ρ) :
    (p.map f).Ends P ↔ p.Ends fun result => P (f result) := by
  induction p with
  | finish result => rfl
  | send msg next ih => exact ih
  | receive next ih => exact forall_congr' ih

/-- Given the frames in order, the program stops at a receive that none of them answers. -/
def starves : Program ρ → List Bytes → Bool
  | finish _, _ => false
  | send _ next, frames => next.starves frames
  | receive _, [] => true
  | receive next, frame :: frames => (next (some (toMem frame))).starves frames

@[simp] theorem starves_finish (result : ρ) (frames : List Bytes) :
    (finish result).starves frames = false := rfl

@[simp] theorem starves_send (msg : Bytes) (next : Program ρ) (frames : List Bytes) :
    (send msg next).starves frames = next.starves frames := rfl

@[simp] theorem starves_receive_cons (next : Option Bytes → Program ρ) (frame : Bytes)
    (frames : List Bytes) :
    (receive next).starves (frame :: frames) = (next (some (toMem frame))).starves frames := rfl

end Program

/-- What a worker function can throw. -/
inductive Thrown where
  | bridge (err : Error)
  | standard (what : String)
  | unknown
  deriving DecidableEq

/-- How a cb-mpc call ends: it returns its `error_t` and its out parameter, or it throws. -/
inductive Outcome (κ : Type) where
  | returned (rv : UInt32) (out : κ)
  | threw (exception : Thrown)

/-- What the worker function leaves behind. `quiet` publishes nothing and fails nothing. -/
inductive WorkerExit (α : Type) where
  | publish (value : α)
  | fail (err : Error)
  | quiet

/-- The handlers around `fn()` in `StartWorker`. -/
def Thrown.handled : Thrown → Error
  | .bridge err => err
  | .standard what => ⟨.general, what⟩
  | .unknown => ⟨.general, "unknown exception"⟩

end MaanyMpc
