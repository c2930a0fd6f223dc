import Mathlib.Data.Nat.Notation
import Mathlib.Logic.Function.Basic

/-! # A heap of blocks

Blocks of values by their addresses. An operation on one block leaves the others alone. -/

def Blocks (α : Type*) := ℕ → Option (List α)

namespace Blocks

variable {α : Type*}

def store (m : Blocks α) (p : ℕ) (content : List α) : Blocks α :=
  Function.update m p (some content)

/-- The block at `p` has the content of the one at `q`. -/
def copy (m : Blocks α) (q p : ℕ) : Blocks α := Function.update m p (m q)

/-- Every value of a block is overwritten. -/
def fill (m : Blocks α) (p : ℕ) (value : α) : Blocks α :=
  Function.update m p ((m p).map (List.map fun _ => value))

def free (m : Blocks α) (p : ℕ) : Blocks α := Function.update m p none

@[simp] theorem store_self (m : Blocks α) (p : ℕ) (content : List α) :
    m.store p content p = some content := Function.update_self ..

@[simp] theorem copy_self (m : Blocks α) (q p : ℕ) : m.copy q p p = m q :=
  Function.update_self ..

@[simp] theorem store_of_ne (m : Blocks α) {p q : ℕ} (content : List α) (h : q ≠ p) :
    m.store p content q = m q := Function.update_of_ne h ..

@[simp] theorem copy_of_ne (m : Blocks α) {p q : ℕ} (r : ℕ) (h : q ≠ p) : m.copy r p q = m q :=
  Function.update_of_ne h ..

@[simp] theorem fill_of_ne (m : Blocks α) {p q : ℕ} (value : α) (h : q ≠ p) :
    m.fill p value q = m q := Function.update_of_ne h ..

@[simp] theorem free_of_ne (m : Blocks α) {p q : ℕ} (h : q ≠ p) : m.free p q = m q :=
  Function.update_of_ne h ..

/-- An occupied address is not a free one. -/
theorem ne_of_free {m : Blocks α} {p q : ℕ} {content : List α} (occupied : m q = some content)
    (free : m p = none) : q ≠ p := by
  rintro rfl
  rw [occupied] at free
  cases free

end Blocks
