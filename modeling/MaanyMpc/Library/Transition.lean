import Mathlib.Data.List.Basic

/-! # Machines with labelled steps

A machine refuses an action or answers it with one next state and the events the
action emits. A run remembers the state each action was taken from, so that a
condition on single steps can be asked of a whole run. -/

namespace Transition

structure Machine (σ α ε : Type*) where
  init : σ
  step : σ → α → Option (σ × List ε)

namespace Machine

variable {σ α ε : Type*} (M : Machine σ α ε)

/-- `Run M taken events s`: the recorded steps lead from the initial state to `s`
and emit `events`. -/
inductive Run : List (σ × α) → List ε → σ → Prop where
  | start : Run [] [] M.init
  | next {taken events s a s' emitted} : Run taken events s →
      M.step s a = some (s', emitted) → Run (taken ++ [(s, a)]) (events ++ emitted) s'

/-- Every recorded step was taken from a state and with an action that satisfy `ok`. -/
def Meets (ok : σ → α → Prop) (taken : List (σ × α)) : Prop :=
  ∀ p ∈ taken, ok p.1 p.2

@[simp] theorem meets_nil (ok : σ → α → Prop) : Meets ok [] := by
  simp [Meets]

@[simp] theorem meets_append_singleton (ok : σ → α → Prop) (taken : List (σ × α))
    (s : σ) (a : α) : Meets ok (taken ++ [(s, a)]) ↔ Meets ok taken ∧ ok s a := by
  constructor
  · intro h
    exact ⟨fun p hp => h p (by simp [hp]), h (s, a) (by simp)⟩
  · rintro ⟨h, hs⟩ p hp
    rcases List.mem_append.mp hp with hp | hp
    · exact h p hp
    · simp only [List.mem_singleton] at hp
      simpa [hp] using hs

theorem not_meets_of_append_singleton {ok : σ → α → Prop} {taken : List (σ × α)} {s : σ} {a : α}
    (h : ¬ Meets ok (taken ++ [(s, a)])) (hs : ok s a) : ¬ Meets ok taken :=
  fun meets => h ((meets_append_singleton ok taken s a).mpr ⟨meets, hs⟩)

variable {M}

/-- The invariant rule: what holds initially and survives every admissible step
holds at the end of every run whose steps are admissible. -/
theorem Run.guarded_invariant (ok : σ → α → Prop) (I : List ε → σ → Prop)
    (init : I [] M.init)
    (step : ∀ {events s a s' emitted}, I events s → ok s a →
      M.step s a = some (s', emitted) → I (events ++ emitted) s')
    {taken : List (σ × α)} {events : List ε} {s : σ}
    (run : M.Run taken events s) (meets : Meets ok taken) : I events s := by
  induction run with
  | start => exact init
  | next _ hstep ih =>
      obtain ⟨hmeets, hok⟩ := (meets_append_singleton ok _ _ _).mp meets
      exact step (ih hmeets) hok hstep

/-- The unguarded case. -/
theorem Run.invariant (I : List ε → σ → Prop) (init : I [] M.init)
    (step : ∀ {events s a s' emitted}, I events s →
      M.step s a = some (s', emitted) → I (events ++ emitted) s')
    {taken : List (σ × α)} {events : List ε} {s : σ}
    (run : M.Run taken events s) : I events s :=
  run.guarded_invariant (fun _ _ => True) I init (fun h _ => step h) (fun _ _ => trivial)

/-- Where every admissible step keeps `I` and emits only events that satisfy `P`, so do the
events of every run. -/
theorem Run.guarded_events (ok : σ → α → Prop) (I : σ → Prop) (P : ε → Prop) (init : I M.init)
    (step : ∀ {s a s' emitted}, I s → ok s a → M.step s a = some (s', emitted) →
      I s' ∧ ∀ e ∈ emitted, P e)
    {taken : List (σ × α)} {events : List ε} {s : σ}
    (run : M.Run taken events s) (meets : Meets ok taken) : ∀ e ∈ events, P e := by
  have invariant : I s ∧ ∀ e ∈ events, P e := by
    refine run.guarded_invariant ok (fun events s => I s ∧ ∀ e ∈ events, P e)
      ⟨init, by simp⟩ ?_ meets
    intro events s a s' emitted before hok hstep
    obtain ⟨hs', now⟩ := step before.1 hok hstep
    refine ⟨hs', ?_⟩
    intro e he
    rcases List.mem_append.mp he with he | he
    · exact before.2 e he
    · exact now e he
  exact invariant.2

/-- An invariant over the recorded steps as well. -/
theorem Run.history_invariant (I : List (σ × α) → List ε → σ → Prop) (init : I [] [] M.init)
    (step : ∀ {taken events s a s' emitted}, M.Run taken events s → I taken events s →
      M.step s a = some (s', emitted) → I (taken ++ [(s, a)]) (events ++ emitted) s')
    {taken : List (σ × α)} {events : List ε} {s : σ}
    (run : M.Run taken events s) : I taken events s := by
  induction run with
  | start => exact init
  | next hrun hstep ih => exact step hrun ih hstep

theorem Run.step_of_mem {taken : List (σ × α)} {events : List ε} {s : σ}
    (run : M.Run taken events s) {p : σ × α} (hp : p ∈ taken) : ∃ r, M.step p.1 p.2 = some r := by
  induction run with
  | start => cases hp
  | next _ hstep ih =>
      rcases List.mem_append.mp hp with hp | hp
      · exact ih hp
      · rw [List.mem_singleton.mp hp]
        exact ⟨_, hstep⟩

theorem Run.step_of_event {taken : List (σ × α)} {events : List ε} {s : σ}
    (run : M.Run taken events s) {e : ε} (he : e ∈ events) :
    ∃ p ∈ taken, ∃ s' emitted, M.step p.1 p.2 = some (s', emitted) ∧ e ∈ emitted := by
  induction run with
  | start => cases he
  | @next taken events s a s' emitted _ hstep ih =>
      rcases List.mem_append.mp he with he | he
      · obtain ⟨p, hp, emits⟩ := ih he
        exact ⟨p, List.mem_append_left _ hp, emits⟩
      · exact ⟨(s, a), by simp, s', emitted, hstep, he⟩

/-- What a recorded step establishes and every step keeps holds at the end. -/
theorem Run.lasting (P : σ → Prop)
    (keep : ∀ {s a s' emitted}, P s → M.step s a = some (s', emitted) → P s')
    {taken : List (σ × α)} {events : List ε} {s : σ} (run : M.Run taken events s) {p : σ × α}
    (hp : p ∈ taken)
    (establish : ∀ {taken events s' emitted}, M.Run taken events p.1 →
      M.step p.1 p.2 = some (s', emitted) → P s') : P s := by
  induction run with
  | start => cases hp
  | next hrun hstep ih =>
      rcases List.mem_append.mp hp with hp | hp
      · exact keep (ih hp) hstep
      · obtain rfl := List.mem_singleton.mp hp
        exact establish hrun hstep

/-- The part of a run before one of its steps. -/
theorem Run.before {taken : List (σ × α)} {events : List ε} {s : σ} (run : M.Run taken events s)
    {first rest : List (σ × α)} {p : σ × α} (split : taken = first ++ p :: rest) :
    ∃ events', M.Run first events' p.1 := by
  induction run generalizing rest with
  | start => simp at split
  | @next taken events s a s' emitted hrun hstep ih =>
      rcases List.eq_nil_or_concat rest with rfl | ⟨rest, last, rfl⟩
      · obtain ⟨rfl, hp⟩ := List.append_inj' split rfl
        obtain rfl := List.singleton_inj.mp hp
        exact ⟨events, hrun⟩
      · rw [List.concat_eq_append, ← List.cons_append, ← List.append_assoc] at split
        exact ih (List.append_inj' split rfl).1

/-- An event inside a concatenation lies in one of its parts. -/
theorem append_eq_append_cons {xs ys before after : List ε} {e : ε}
    (h : xs ++ ys = before ++ e :: after) :
    (∃ rest, xs = before ++ e :: rest ∧ after = rest ++ ys) ∨
      ∃ rest, before = xs ++ rest ∧ ys = rest ++ e :: after := by
  rcases List.append_eq_append_iff.mp h with ⟨rest, hb, hy⟩ | ⟨rest, hx, hr⟩
  · exact .inr ⟨rest, hb, hy⟩
  · cases rest with
    | nil => exact .inr ⟨[], by simpa using hx.symm, by simpa using hr.symm⟩
    | cons d rest =>
        simp only [List.cons_append, List.cons.injEq] at hr
        obtain ⟨rfl, rfl⟩ := hr
        exact .inl ⟨rest, hx, rfl⟩

/-- The rule for what holds from an event on: emitting `d` establishes `Q d`, every step
keeps it, and steps under `Q d` only emit events that `R d` admits. -/
theorem Run.once (I : List ε → σ → Prop) (P : ε → Prop) (Q : ε → σ → Prop) (R : ε → ε → Prop)
    (reachable : ∀ {taken events s}, M.Run taken events s → I events s)
    (establish : ∀ {events s a s' before d after}, I events s →
      M.step s a = some (s', before ++ d :: after) → P d → Q d s' ∧ ∀ e ∈ after, R d e)
    (keep : ∀ {events s a s' emitted d}, I events s → Q d s →
      M.step s a = some (s', emitted) → Q d s' ∧ ∀ e ∈ emitted, R d e)
    {taken : List (σ × α)} {events : List ε} {s : σ} (run : M.Run taken events s)
    {before after : List ε} {d : ε} (split : events = before ++ d :: after) (hd : P d) :
    Q d s ∧ ∀ e ∈ after, R d e := by
  induction run generalizing before after with
  | start => simp at split
  | next hrun hstep ih =>
      rcases append_eq_append_cons split with ⟨rest, hx, rfl⟩ | ⟨rest, _, hy⟩
      · obtain ⟨hq, hr⟩ := ih hx
        obtain ⟨hq', hr'⟩ := keep (reachable hrun) hq hstep
        refine ⟨hq', ?_⟩
        intro e he
        rcases List.mem_append.mp he with he | he
        · exact hr e he
        · exact hr' e he
      · rw [hy] at hstep
        exact establish (reachable hrun) hstep hd

/-- The progress rule: while the goal is not reached some step lowers the measure, so the
run can be continued to a state that satisfies the goal. -/
theorem Run.progress (I goal : σ → Prop) (measure : σ → ℕ)
    (descend : ∀ s, I s → ¬ goal s →
      ∃ a s' emitted, M.step s a = some (s', emitted) ∧ I s' ∧ measure s' < measure s)
    {taken : List (σ × α)} {events : List ε} {s : σ} (run : M.Run taken events s) (hs : I s) :
    ∃ taken' events' s', M.Run taken' events' s' ∧ I s' ∧ goal s' := by
  induction hn : measure s using Nat.strongRecOn generalizing taken events s with
  | _ n ih =>
      by_cases reached : goal s
      · exact ⟨taken, events, s, run, hs, reached⟩
      · obtain ⟨a, s', emitted, hstep, hs', lower⟩ := descend s hs reached
        exact ih (measure s') (by omega) (run.next hstep) hs' rfl

variable (M) in
def Reachable (s : σ) : Prop := ∃ taken events, M.Run taken events s

theorem Reachable.next {s s' : σ} {a : α} {emitted : List ε} (h : M.Reachable s)
    (hstep : M.step s a = some (s', emitted)) : M.Reachable s' := by
  obtain ⟨taken, events, run⟩ := h
  exact ⟨_, _, run.next hstep⟩

theorem Run.reachable {taken : List (σ × α)} {events : List ε} {s : σ}
    (run : M.Run taken events s) : M.Reachable s := ⟨taken, events, run⟩

/-! ## Every state of a run -/

/-- `P` holds in every state that the run has passed, the last one included. -/
def Throughout (P : σ → Prop) (taken : List (σ × α)) (s : σ) : Prop :=
  (∀ p ∈ taken, P p.1) ∧ P s

@[simp] theorem throughout_nil (P : σ → Prop) (s : σ) :
    Throughout P ([] : List (σ × α)) s ↔ P s := by
  simp [Throughout]

@[simp] theorem throughout_append_singleton (P : σ → Prop) (taken : List (σ × α)) (s s' : σ)
    (a : α) : Throughout P (taken ++ [(s, a)]) s' ↔ Throughout P taken s ∧ P s' := by
  simp only [Throughout, List.mem_append, List.mem_singleton]
  constructor
  · rintro ⟨passed, last⟩
    exact ⟨⟨fun p hp => passed p (.inl hp), passed (s, a) (.inr rfl)⟩, last⟩
  · rintro ⟨⟨passed, before⟩, last⟩
    refine ⟨?_, last⟩
    rintro p (hp | rfl)
    · exact passed p hp
    · exact before

/-- Where, as long as all has gone well, a step keeps `P` exactly when it is admissible,
`P` holds throughout a run exactly when all its steps are. -/
theorem Run.throughout_iff (ok : σ → α → Prop) (P : σ → Prop) (init : P M.init)
    (step : ∀ {taken events s a s' emitted}, M.Run taken events s → Meets ok taken →
      Throughout P taken s → M.step s a = some (s', emitted) → (P s' ↔ ok s a))
    {taken : List (σ × α)} {events : List ε} {s : σ} (run : M.Run taken events s) :
    Throughout P taken s ↔ Meets ok taken := by
  induction run with
  | start => simpa using init
  | next hrun hstep ih =>
      rw [throughout_append_singleton, meets_append_singleton, ih]
      constructor
      · rintro ⟨meets, last⟩
        exact ⟨meets, (step hrun meets (ih.mpr meets) hstep).mp last⟩
      · rintro ⟨meets, admissible⟩
        exact ⟨meets, (step hrun meets (ih.mpr meets) hstep).mpr admissible⟩

/-! ## What every schedule leads to -/

variable (M) in
/-- Whichever admissible actions are taken, the machine comes to a state that satisfies
`goal`, and until then one of them is enabled. -/
inductive Inevitable (ok : σ → α → Prop) (goal : σ → Prop) : σ → Prop where
  | reached {s} (h : goal s) : Inevitable ok goal s
  | onward {s} (enabled : ∃ a r, ok s a ∧ M.step s a = some r)
      (next : ∀ a s' emitted, ok s a → M.step s a = some (s', emitted) →
        Inevitable ok goal s') : Inevitable ok goal s

/-- The rule for it: every admissible step lowers the measure. -/
theorem inevitable_of_descent (ok : σ → α → Prop) (I goal : σ → Prop) (measure : σ → ℕ)
    (enabled : ∀ s, I s → ¬ goal s → ∃ a r, ok s a ∧ M.step s a = some r)
    (descend : ∀ s a s' emitted, I s → ¬ goal s → ok s a → M.step s a = some (s', emitted) →
      goal s' ∨ I s' ∧ measure s' < measure s) {s : σ} (hs : I s) :
    M.Inevitable ok goal s := by
  induction hn : measure s using Nat.strongRecOn generalizing s with
  | _ n ih =>
      by_cases reached : goal s
      · exact .reached reached
      · refine .onward (enabled s hs reached) ?_
        intro a s' emitted admissible hstep
        rcases descend s a s' emitted hs reached admissible hstep with done | ⟨hs', lower⟩
        · exact .reached done
        · exact ih (measure s') (by omega) hs' rfl

/-- States that no admissible step leaves, and among which the goal is not, never come to it. -/
theorem Inevitable.not_of_closed {ok : σ → α → Prop} {goal I : σ → Prop} {s : σ}
    (h : M.Inevitable ok goal s) (away : ∀ t, I t → ¬ goal t)
    (closed : ∀ t a t' emitted, I t → ok t a → M.step t a = some (t', emitted) → I t') :
    ¬ I s := by
  induction h with
  | reached reached => exact fun hs => away _ hs reached
  | onward enabled _ ih =>
      intro hs
      obtain ⟨a, ⟨s', emitted⟩, admissible, hstep⟩ := enabled
      exact ih a s' emitted admissible hstep (closed _ a s' emitted hs admissible hstep)

theorem Inevitable.step {ok : σ → α → Prop} {goal : σ → Prop} {s s' : σ} {a : α}
    {emitted : List ε} (h : M.Inevitable ok goal s) (away : ¬ goal s) (admissible : ok s a)
    (hstep : M.step s a = some (s', emitted)) : M.Inevitable ok goal s' := by
  cases h with
  | reached reached => exact (away reached).elim
  | onward _ next => exact next a s' emitted admissible hstep

/-! ## Schedules -/

variable (M)

/-- Takes the listed actions in turn, as long as each is admissible and not refused. -/
def trace (ok : σ → α → Prop) [∀ s a, Decidable (ok s a)] (s : σ) :
    List α → Option (List ε × σ)
  | [] => some ([], s)
  | a :: rest =>
    if ok s a then
      match M.step s a with
      | none => none
      | some (s', emitted) => (trace ok s' rest).map fun r => (emitted ++ r.1, r.2)
    else none

variable {M} {ok : σ → α → Prop} [∀ s a, Decidable (ok s a)]

theorem trace_cons {s s' : σ} {a : α} {emitted : List ε} {rest : List α} {r : List ε × σ}
    (admissible : ok s a) (hstep : M.step s a = some (s', emitted))
    (h : M.trace ok s' rest = some r) :
    M.trace ok s (a :: rest) = some (emitted ++ r.1, r.2) := by
  rw [trace, if_pos admissible, hstep]
  exact Option.map_eq_some_iff.mpr ⟨r, h, rfl⟩

theorem Run.extend {actions : List α} {taken : List (σ × α)} {events : List ε} {s : σ}
    (run : M.Run taken events s) (meets : Meets ok taken) {r : List ε × σ}
    (h : M.trace ok s actions = some r) :
    ∃ taken', M.Run taken' (events ++ r.1) r.2 ∧ Meets ok taken' := by
  induction actions generalizing taken events s r with
  | nil =>
      simp only [trace, Option.some.injEq] at h
      subst h
      exact ⟨taken, by simpa using run, meets⟩
  | cons a rest ih =>
      simp only [trace] at h
      split at h
      next hok =>
        cases hstep : M.step s a with
        | none => simp [hstep] at h
        | some next =>
            obtain ⟨t, emitted⟩ := next
            simp only [hstep, Option.map_eq_some_iff] at h
            obtain ⟨tail, htail, rfl⟩ := h
            obtain ⟨taken', hrun, hmeets⟩ := ih (run.next hstep)
              ((meets_append_singleton ..).mpr ⟨meets, hok⟩) htail
            exact ⟨taken', by simpa using hrun, hmeets⟩
      · cases h

/-- A schedule that goes through is a run to the state it ends in. -/
theorem reach_of_trace {actions : List α} {events : List ε} {s : σ}
    (h : M.trace ok M.init actions = some (events, s)) :
    ∃ taken, M.Run taken events s ∧ Meets ok taken := by
  obtain ⟨taken, hrun, hmeets⟩ := Run.start.extend (meets_nil ok) h
  exact ⟨taken, by simpa using hrun, hmeets⟩

/-- The same where only the events matter. -/
theorem run_of_trace {actions : List α} {events : List ε}
    (h : (M.trace ok M.init actions).map Prod.fst = some events) :
    ∃ taken s, M.Run taken events s ∧ Meets ok taken := by
  obtain ⟨⟨_, s⟩, hr, rfl⟩ := Option.map_eq_some_iff.mp h
  obtain ⟨taken, hrun, hmeets⟩ := reach_of_trace hr
  exact ⟨taken, s, hrun, hmeets⟩

end Machine

end Transition
