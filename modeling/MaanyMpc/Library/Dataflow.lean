import MaanyMpc.Library.Transition

/-! # Dataflow

Processes that send to each other over channels which keep the order. What a process has
sent depends on nothing but what it has received, and only grows with it. Then there is one
history of the whole network, and a run, whatever its schedule, has come to a part of it. -/

namespace Dataflow

variable {ι μ : Type}

/-- Each process has sent a first part of what it has sent there. -/
def Below (xs ys : ι → List μ) : Prop := ∀ i, xs i <+: ys i

theorem Below.refl (xs : ι → List μ) : Below xs xs := fun _ => List.prefix_rfl

theorem Below.trans {xs ys zs : ι → List μ} (hxy : Below xs ys) (hyz : Below ys zs) :
    Below xs zs :=
  fun i => (hxy i).trans (hyz i)

/-- One of the two lists continues the other. -/
def Comparable {α : Type} (xs ys : List α) : Prop := xs <+: ys ∨ ys <+: xs

theorem comparable_of_prefixes {α : Type} {xs ys zs : List α} (hx : xs <+: zs) (hy : ys <+: zs) :
    Comparable xs ys :=
  List.prefix_or_prefix_of_prefix hx hy

/-- What each process sends on receiving what the processes have sent. -/
structure Network (ι μ : Type) where
  sends : (ι → List μ) → ι → List μ
  mono : ∀ {xs ys}, Below xs ys → Below (sends xs) (sends ys)

namespace Network

variable (N : Network ι μ)

/-- What has been sent after some rounds in which each process receives all that was sent
before. -/
def rounds : ℕ → ι → List μ
  | 0 => fun _ => []
  | n + 1 => N.sends (rounds n)

theorem rounds_below_succ (n : ℕ) : Below (N.rounds n) (N.rounds (n + 1)) := by
  induction n with
  | zero => exact fun i => List.nil_prefix
  | succ n ih => exact N.mono ih

theorem rounds_mono {m n : ℕ} (h : m ≤ n) : Below (N.rounds m) (N.rounds n) := by
  induction h with
  | refl => exact Below.refl _
  | step _ ih => exact ih.trans (N.rounds_below_succ _)

/-- Some round has sent all of it. -/
def Within (xs : ι → List μ) : Prop := ∃ n, Below xs (N.rounds n)

variable {N}

theorem Within.next {xs ys : ι → List μ} (hx : N.Within xs) (h : Below ys (N.sends xs)) :
    N.Within ys := by
  obtain ⟨n, hn⟩ := hx
  exact ⟨n + 1, h.trans (N.mono hn)⟩

/-- A common round for two histories. -/
theorem Within.common {xs ys : ι → List μ} (hx : N.Within xs) (hy : N.Within ys) :
    ∃ n, Below xs (N.rounds n) ∧ Below ys (N.rounds n) := by
  obtain ⟨m, hm⟩ := hx
  obtain ⟨n, hn⟩ := hy
  exact ⟨max m n, hm.trans (N.rounds_mono (Nat.le_max_left m n)),
    hn.trans (N.rounds_mono (Nat.le_max_right m n))⟩

/-- No round goes beyond a history to which nobody has anything to add. -/
theorem rounds_below_of_settled {xs : ι → List μ} (settled : Below (N.sends xs) xs) (n : ℕ) :
    Below (N.rounds n) xs := by
  induction n with
  | zero => exact fun i => List.nil_prefix
  | succ n ih => exact (N.mono ih).trans settled

theorem Within.below_of_settled {xs ys : ι → List μ} (hy : N.Within ys)
    (settled : Below (N.sends xs) xs) : Below ys xs := by
  obtain ⟨n, hn⟩ := hy
  exact hn.trans (rounds_below_of_settled settled n)

/-! ## Runs of a machine -/

section Run

open Transition

variable {σ α ε : Type} {M : Machine σ α ε}

/-- The rule for runs: where each admissible step sends only what the network sends on what was
sent before it, a run stays within the rounds. What is known of the events is known of the
events before. -/
theorem within_of_run (ok : σ → α → Prop) (sent : List ε → ι → List μ) (known : List ε → Prop)
    (init : ∀ i, sent [] i = [])
    (earlier : ∀ {events emitted}, known (events ++ emitted) → known events)
    (step : ∀ {taken events s a s' emitted}, M.Run taken events s → Machine.Meets ok taken →
      ok s a → M.step s a = some (s', emitted) → known (events ++ emitted) →
      Below (sent (events ++ emitted)) (N.sends (sent events)))
    {taken : List (σ × α)} {events : List ε} {s : σ} (run : M.Run taken events s)
    (meets : Machine.Meets ok taken) (now : known events) : N.Within (sent events) := by
  induction run with
  | start => exact ⟨0, fun i => by rw [init]; exact List.nil_prefix⟩
  | next hrun hstep ih =>
      obtain ⟨before, admissible⟩ := (Machine.meets_append_singleton ok _ _ _).mp meets
      exact (ih before (earlier now)).next (step hrun before admissible hstep now)

end Run

end Network

end Dataflow
