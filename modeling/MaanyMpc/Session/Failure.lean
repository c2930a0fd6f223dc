import MaanyMpc.Session.Semantics

/-! # What the flags say about the worker

`worker_done_`, `fatal_` and `aborted_` are written in different sections. These are the
relations between them, and to the worker's position, that hold at every moment. -/

namespace MaanyMpc

variable {α φ β : Type}

structure FlagsAgree (s : State α φ) : Prop where
  done_iff : s.workerDone = true ↔ s.worker.Done
  /-- a stored failure is the last thing the worker function does -/
  fatal_over : s.fatal ≠ none → s.worker.Over
  fatal_aborted : s.fatal ≠ none → s.aborted = true
  aborted_cause : s.aborted = true → s.fatal ≠ none ∨ s.freed = true
  /-- a signing worker that waits for its message has not touched the session -/
  untouched : s.worker.AwaitsMessage → s.outbound = none ∧ s.waitingForInbound = false
  lost_freed : s.worker = .lost → s.freed = true

section Step

variable {impl : SessionImpl α φ β} {s s' : State α φ} {a : Action φ} {es : List (Event β)}

theorem Step.workerDone_iff (h : Step impl s a s' es)
    (hs : s.workerDone = true ↔ s.worker.Done) : s'.workerDone = true ↔ s'.worker.Done := by
  cases h <;> simp_all [State.announce, State.fail, State.pushInbound, State.abort, State.destroy,
    WorkerPc.Done]

/-- Only `Fail` stores a failure, and only the first one. -/
theorem Step.fatal_cases (h : Step impl s a s' es) :
    s'.fatal = s.fatal ∨ ∃ err, s.worker = .running (.finish (.fail err)) ∧ s' = s.fail err := by
  cases h with
  | failed pc => exact .inr ⟨_, pc, rfl⟩
  | _ => exact .inl rfl

/-- Once over, the worker function stays over. -/
theorem Step.over_mono (h : Step impl s a s' es) (ended : s.worker.Over) : s'.worker.Over := by
  cases h <;> simp_all [State.pushInbound, State.abort, State.destroy, WorkerPc.Over]

theorem Step.aborted_mono (h : Step impl s a s' es) (aborted : s.aborted = true) :
    s'.aborted = true := by
  cases h <;> simp_all [State.announce, State.fail, State.pushInbound, State.abort,
    State.destroy]

/-- Only `Fail` and the destructor abort a session. -/
theorem Step.aborted_cases (h : Step impl s a s' es) (aborted : s'.aborted = true) :
    s.aborted = true ∨ s'.fatal ≠ none ∨ s'.freed = true := by
  cases h with
  | failed pc => exact .inr (.inl (by cases hf : s.fatal <;> simp [State.fail, hf]))
  | aborting pc => exact .inr (.inr rfl)
  | _ => exact .inl aborted

theorem Step.freed_mono (h : Step impl s a s' es) (freed : s.freed = true) :
    s'.freed = true := by
  cases hc : s.caller <;> simp_all [State.freed]
  all_goals cases h <;> simp_all [State.announce, State.fail, State.abort, CallerPc.notified]

theorem Step.untouched (h : Step impl s a s' es)
    (hs : s.worker.AwaitsMessage → s.outbound = none ∧ s.waitingForInbound = false)
    (awaits : s'.worker.AwaitsMessage) : s'.outbound = none ∧ s'.waitingForInbound = false := by
  cases h <;> simp_all [State.fail, State.pushInbound, State.abort, State.destroy,
    WorkerPc.AwaitsMessage]

/-- Nobody starts to wait for `SetMessage` after the worker has begun to sign. -/
theorem Step.awaits_cases (h : Step impl s a s' es) (hw : s'.worker.AwaitsMessage) :
    s.worker.AwaitsMessage ∧ (s.messageReady = true → s'.messageReady = true) := by
  cases h <;> simp_all [State.fail, State.pushInbound, State.abort, State.destroy,
    WorkerPc.AwaitsMessage]

theorem Step.lost_freed (h : Step impl s a s' es) (hs : s.worker = .lost → s.freed = true)
    (lost : s'.worker = .lost) : s'.freed = true := by
  refine h.freed_mono ?_
  cases h with
  | lostWaiting _ gone | lostRunning _ gone => exact gone
  | _ => simp_all [State.fail, State.pushInbound, State.abort, State.destroy]

theorem FlagsAgree.step (hs : FlagsAgree s) (h : Step impl s a s' es) : FlagsAgree s' where
  done_iff := h.workerDone_iff hs.done_iff
  fatal_over := by
    intro fatal
    rcases h.fatal_cases with same | ⟨err, _, rfl⟩
    · exact h.over_mono (hs.fatal_over (same ▸ fatal))
    · exact .inl rfl
  fatal_aborted := by
    intro fatal
    rcases h.fatal_cases with same | ⟨err, _, rfl⟩
    · exact h.aborted_mono (hs.fatal_aborted (same ▸ fatal))
    · rfl
  aborted_cause := by
    intro aborted
    rcases h.aborted_cases aborted with before | now
    · rcases hs.aborted_cause before with fatal | freed
      · rcases h.fatal_cases with same | ⟨err, _, rfl⟩
        · exact .inl (same ▸ fatal)
        · exact .inl (by cases hf : s.fatal <;> simp [State.fail, hf])
      · exact .inr (h.freed_mono freed)
    · exact now
  untouched := h.untouched hs.untouched
  lost_freed := h.lost_freed hs.lost_freed

/-- A session that neither fails nor is freed is not aborted. -/
theorem FlagsAgree.not_aborted (hs : FlagsAgree s) (live : s.freed = false)
    (sound : s.fatal = none) : s.aborted = false := by
  by_contra aborted
  rcases hs.aborted_cause (by simpa using aborted) with fatal | freed
  · exact fatal sound
  · rw [live] at freed
    cases freed

theorem Step.live_before (h : Step impl s a s' es) (live : s'.freed = false) :
    s.freed = false := by
  by_contra gone
  rw [h.freed_mono (by simpa using gone)] at live
  cases live

theorem Step.sound_before (h : Step impl s a s' es) (sound : s'.fatal = none) :
    s.fatal = none := by
  rcases h.fatal_cases with same | ⟨err, _, rfl⟩
  · rwa [← same]
  · cases fatal : s.fatal <;> simp [State.fail, fatal] at sound

end Step

theorem run_flagsAgree {impl : SessionImpl α φ β} {taken : List (State α φ × Action φ)}
    {es : List (Event β)} {s : State α φ} (run : impl.machine.Run taken es s) :
    FlagsAgree s := by
  refine run.invariant (fun _ s => FlagsAgree s) ?_ ?_
  · have worker : impl.machine.init.worker = impl.worker.entry := rfl
    constructor
    · rw [worker]
      change false = true ↔ _
      cases impl.worker <;> simp [Worker.entry, WorkerPc.Done]
    · exact fun fatal => (fatal rfl).elim
    · exact fun fatal => (fatal rfl).elim
    · exact fun aborted => nomatch aborted
    · exact fun _ => ⟨rfl, rfl⟩
    · rw [worker]
      cases impl.worker <;> simp [Worker.entry]
  · intro _ _ _ _ _ hs hstep
    exact hs.step ((step_iff ..).mp hstep)

end MaanyMpc
