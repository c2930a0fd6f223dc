import Mathlib.Logic.Function.Basic
import Mathlib.Data.List.Nodup

/-! # Leases

A table gives every key at most one resource. Resources are numbered in the order in which
they are made, so a number below the next one is used up for good. -/

namespace Lease

structure Table (κ : Type*) where
  holds : κ → Option ℕ
  next : ℕ

variable {κ : Type*} [DecidableEq κ]

/-- What may happen to a table, with the resources that are released. A resource can also be
made and lost. -/
inductive Change (t : Table κ) : Table κ → List ℕ → Prop where
  | keep (next : ℕ) : t.next ≤ next → Change t ⟨t.holds, next⟩ []
  | grant (key : κ) : t.holds key = none →
      Change t ⟨Function.update t.holds key (some t.next), t.next + 1⟩ []
  | release (key : κ) (id : ℕ) : t.holds key = some id →
      Change t ⟨Function.update t.holds key none, t.next⟩ [id]

/-- Nothing leaves the table without being released. -/
theorem Change.keeps {t t' : Table κ} (h : Change t t' []) {key : κ} {id : ℕ}
    (held : t.holds key = some id) : t'.holds key = some id := by
  cases h with
  | keep next _ => exact held
  | grant new free =>
      by_cases same : key = new
      · rw [same, free] at held
        cases held
      · exact (Function.update_of_ne same ..).trans held

/-- The invariant of a table and the resources that have been released so far. -/
structure Sound (t : Table κ) (released : List ℕ) : Prop where
  made : ∀ key id, t.holds key = some id → id < t.next
  apart : ∀ a b id, t.holds a = some id → t.holds b = some id → a = b
  past : ∀ id ∈ released, id < t.next
  alive : ∀ key id, t.holds key = some id → id ∉ released
  once : released.Nodup

omit [DecidableEq κ] in
theorem Sound.empty (next : ℕ) : Sound ⟨fun _ : κ => none, next⟩ [] where
  made _ _ h := by cases h
  apart _ _ _ h := by cases h
  past _ h := by cases h
  alive _ _ h := by cases h
  once := List.nodup_nil

namespace Sound

variable {t : Table κ} {released : List ℕ}

omit [DecidableEq κ] in
theorem skip (sound : Sound t released) {next : ℕ} (h : t.next ≤ next) :
    Sound ⟨t.holds, next⟩ released where
  made key id held := Nat.lt_of_lt_of_le (sound.made key id held) h
  apart := sound.apart
  past id old := Nat.lt_of_lt_of_le (sound.past id old) h
  alive := sound.alive
  once := sound.once

theorem grant (sound : Sound t released) (key : κ) :
    Sound ⟨Function.update t.holds key (some t.next), t.next + 1⟩ released := by
  -- the new number belongs to no other key and has not been released
  have new : ∀ k id, Function.update t.holds key (some t.next) k = some id →
      (k = key ∧ id = t.next) ∨ (k ≠ key ∧ t.holds k = some id) := by
    intro k id held
    by_cases same : k = key
    · subst same
      rw [Function.update_self, Option.some.injEq] at held
      exact .inl ⟨rfl, held.symm⟩
    · rw [Function.update_of_ne same] at held
      exact .inr ⟨same, held⟩
  refine ⟨?_, ?_, fun id old => Nat.lt_succ_of_lt (sound.past id old), ?_, sound.once⟩
  · intro k id held
    rcases new k id held with ⟨_, rfl⟩ | ⟨_, held⟩
    · exact Nat.lt_succ_self _
    · exact Nat.lt_succ_of_lt (sound.made k id held)
  · intro a b id ha hb
    rcases new a id ha with ⟨rfl, rfl⟩ | ⟨_, ha⟩
    · rcases new b _ hb with ⟨rfl, _⟩ | ⟨_, hb⟩
      · rfl
      · exact absurd (sound.made b _ hb) (Nat.lt_irrefl _)
    · rcases new b id hb with ⟨_, rfl⟩ | ⟨_, hb⟩
      · exact absurd (sound.made a _ ha) (Nat.lt_irrefl _)
      · exact sound.apart a b id ha hb
  · intro k id held old
    rcases new k id held with ⟨_, rfl⟩ | ⟨_, held⟩
    · exact absurd (sound.past _ old) (Nat.lt_irrefl _)
    · exact sound.alive k id held old

theorem release (sound : Sound t released) {key : κ} {id : ℕ} (held : t.holds key = some id) :
    Sound ⟨Function.update t.holds key none, t.next⟩ (released ++ [id]) := by
  have old : ∀ k i, Function.update t.holds key none k = some i → k ≠ key ∧ t.holds k = some i := by
    intro k i h
    by_cases same : k = key
    · subst same
      simp at h
    · rw [Function.update_of_ne same] at h
      exact ⟨same, h⟩
  refine ⟨fun k i h => sound.made k i (old k i h).2,
    fun a b i ha hb => sound.apart a b i (old a i ha).2 (old b i hb).2, ?_, ?_, ?_⟩
  · intro i hi
    rcases List.mem_append.mp hi with hi | hi
    · exact sound.past i hi
    · rw [List.mem_singleton.mp hi]
      exact sound.made key id held
  · intro k i h hi
    obtain ⟨other, h⟩ := old k i h
    rcases List.mem_append.mp hi with hi | hi
    · exact sound.alive k i h hi
    · rw [List.mem_singleton.mp hi] at h
      exact other (sound.apart k key id h held)
  · refine List.nodup_append.mpr ⟨sound.once, List.nodup_singleton _, ?_⟩
    intro a ha b hb same
    rw [List.mem_singleton.mp hb] at same
    exact sound.alive key id held (same ▸ ha)

theorem change (sound : Sound t released) {t' : Table κ} {out : List ℕ}
    (h : Change t t' out) : Sound t' (released ++ out) := by
  cases h with
  | keep next le => simpa using sound.skip le
  | grant key free => simpa using sound.grant key
  | release key id held => exact sound.release held

end Sound

end Lease
