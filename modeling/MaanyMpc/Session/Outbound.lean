import MaanyMpc.Session.Failure

/-! # The outbound slot

`OnSend` writes a single optional slot, `AwaitStep` empties it. What the caller
collects is therefore what the worker sent exactly as long as no `OnSend` finds the
slot full. -/

namespace MaanyMpc

variable {α φ β : Type}

def Event.sent? : Event β → Option Bytes
  | .sent msg => some msg
  | _ => none

def Event.collected? : Event β → Option Bytes
  | .stepReturned out => out.outbound
  | _ => none

/-- The messages passed to `OnSend`, in order. -/
def sentMessages (es : List (Event β)) : List Bytes := es.filterMap Event.sent?

/-- The outbound buffers returned by `AwaitStep`, in order. -/
def collectedMessages (es : List (Event β)) : List Bytes := es.filterMap Event.collected?

@[simp] theorem sentMessages_append (es fs : List (Event β)) :
    sentMessages (es ++ fs) = sentMessages es ++ sentMessages fs :=
  List.filterMap_append

@[simp] theorem collectedMessages_append (es fs : List (Event β)) :
    collectedMessages (es ++ fs) = collectedMessages es ++ collectedMessages fs :=
  List.filterMap_append

/-- The collected buffers are a prefix of the sent messages, and all of them as soon as a
Step has returned Done. -/
def InOrder (es : List (Event β)) : Prop :=
  collectedMessages es <+: sentMessages es ∧
    ∀ before e after, es = before ++ e :: after → e.ReturnsDone →
      collectedMessages (before ++ [e]) = sentMessages es

/-- The next action of the worker is an `OnSend`. -/
def WorkerPc.sends : WorkerPc α → Bool
  | .running (.send ..) => true
  | _ => false

/-- An `OnSend` finds `outbound_` empty: the previous message has been collected. -/
def SendsIntoFreeSlot (s : State α φ) : Action φ → Prop
  | .worker => s.freed = false → s.worker.sends = true → s.outbound = none
  | _ => True

instance (s : State α φ) (a : Action φ) : Decidable (SendsIntoFreeSlot s a) :=
  match a with
  | .worker => inferInstanceAs (Decidable (_ → _ → _))
  | .caller | .wakeWorker | .wakeCaller | .step _ | .finalize _ | .setMessage _ | .destroy =>
    inferInstanceAs (Decidable True)

/-! ## One step -/

/-- The three things a step can do to the slot. -/
inductive SlotEffect (s : State α φ) (a : Action φ) (s' : State α φ) (es : List (Event β)) :
    Prop where
  | stored (msg : Bytes) {full : Bytes} {next : Program (WorkerExit α)} (action : a = .worker)
      (pc : s.worker = .running (.send full next)) (live : s.freed = false)
      (slot : s'.outbound = some msg) (events : es = [.sent msg])
      (short : msg.length < 2 ^ 31)
  | collected (data : Bytes) (action : a = .caller) (full : s.outbound = some data)
      (slot : s'.outbound = none) (done : s'.workerDone = s.workerDone)
      (events : es = [.stepReturned ⟨if s.workerDone then .done else .continue, some data⟩])
  | kept (free : SendsIntoFreeSlot s a) (slot : s'.outbound = s.outbound)
      (noSend : ∀ e ∈ es, e.sent? = none) (noCollect : ∀ e ∈ es, e.collected? = none)
      (done : ∀ outbound, .stepReturned ⟨.done, outbound⟩ ∈ es →
        s'.outbound = none ∧ s'.workerDone = true)
      (stays : s.workerDone = true → s'.workerDone = true)

theorem Step.slotEffect {impl : SessionImpl α φ β} {s s' : State α φ} {a : Action φ}
    {es : List (Event β)} (h : Step impl s a s' es) : SlotEffect s a s' es := by
  cases h with
  | sendStored pc live => exact .stored _ rfl pc live rfl rfl (length_toMem_lt _)
  | stepCollected pc fatal outbound => exact .collected _ rfl outbound rfl rfl rfl
  | _ =>
      refine .kept ?_ ?_ (by simp [Event.sent?]) (by simp [Event.collected?]) (by simp_all) ?_
      · simp_all [SendsIntoFreeSlot, WorkerPc.sends]
      · rfl
      · simp [State.announce, State.fail, State.pushInbound, State.abort, State.destroy]

/-! ## Whole runs -/

theorem sentMessages_eq_nil {es : List (Event β)} (h : ∀ e ∈ es, e.sent? = none) :
    sentMessages es = [] :=
  List.filterMap_eq_nil_iff.mpr h

theorem collectedMessages_eq_nil {es : List (Event β)} (h : ∀ e ∈ es, e.collected? = none) :
    collectedMessages es = [] :=
  List.filterMap_eq_nil_iff.mpr h

/-- Collected and pending messages account for everything sent, unless some `OnSend` found
the slot full: then at least one message is gone. -/
structure SlotLedger (taken : List (State α φ × Action φ)) (es : List (Event β))
    (s : State α φ) : Prop where
  balanced : Transition.Machine.Meets SendsIntoFreeSlot taken →
    collectedMessages es ++ s.outbound.toList = sentMessages es
  short : ¬ Transition.Machine.Meets SendsIntoFreeSlot taken →
    (collectedMessages es).length + s.outbound.toList.length < (sentMessages es).length

theorem SlotLedger.step {impl : SessionImpl α φ β} {taken : List (State α φ × Action φ)}
    {es emitted : List (Event β)} {s s' : State α φ} {a : Action φ}
    (ledger : SlotLedger taken es s) (h : Step impl s a s' emitted) :
    SlotLedger (taken ++ [(s, a)]) (es ++ emitted) s' := by
  obtain ⟨balanced, short⟩ := ledger
  cases h.slotEffect with
  | stored msg action pc live slot events =>
      subst action events
      have hfree : SendsIntoFreeSlot s .worker ↔ s.outbound = none := by
        simp [SendsIntoFreeSlot, pc, live, WorkerPc.sends]
      have hsent : sentMessages [(.sent msg : Event β)] = [msg] := rfl
      have hcollected : collectedMessages [(.sent msg : Event β)] = [] := rfl
      constructor
      · intro hm
        obtain ⟨hm, hs⟩ := (Transition.Machine.meets_append_singleton ..).mp hm
        have hb := balanced hm
        rw [hfree.mp hs] at hb
        simp only [Option.toList_none, List.append_nil] at hb
        simp [slot, hsent, hcollected, hb]
      · intro hm
        rw [Transition.Machine.meets_append_singleton, not_and, hfree] at hm
        by_cases hall : Transition.Machine.Meets SendsIntoFreeSlot taken
        · obtain ⟨old, hold⟩ := Option.ne_none_iff_exists'.mp (hm hall)
          have hb := congrArg List.length (balanced hall)
          simp only [hold, Option.toList_some, List.length_append, List.length_singleton] at hb
          simp [slot, hsent, hcollected, ← hb]
        · have hb := short hall
          simp [slot, hsent, hcollected]
          omega
  | collected data action full slot done events =>
      subst action events
      have hfree : SendsIntoFreeSlot s .caller := trivial
      have hb : collectedMessages (es ++ [.stepReturned
          ⟨if s.workerDone then .done else .continue, some data⟩]) =
          collectedMessages es ++ [data] := by
        rw [collectedMessages_append]
        rfl
      have hs : sentMessages (es ++ [.stepReturned
          ⟨if s.workerDone then .done else .continue, some data⟩]) = sentMessages es := by
        rw [sentMessages_append]
        exact List.append_nil _
      constructor
      · intro hm
        rw [hb, hs, slot]
        simpa [full] using balanced ((Transition.Machine.meets_append_singleton ..).mp hm).1
      · intro hm
        rw [hb, hs, slot]
        simpa [full] using
          short (Transition.Machine.not_meets_of_append_singleton hm hfree)
  | kept free slot noSend noCollect done stays =>
      constructor
      · intro hm
        simpa [slot, sentMessages_eq_nil noSend, collectedMessages_eq_nil noCollect] using
          balanced ((Transition.Machine.meets_append_singleton ..).mp hm).1
      · intro hm
        simpa [slot, sentMessages_eq_nil noSend, collectedMessages_eq_nil noCollect] using
          short (Transition.Machine.not_meets_of_append_singleton hm free)

section Run

variable {impl : SessionImpl α φ β} {taken : List (State α φ × Action φ)}
  {es : List (Event β)} {s : State α φ}

theorem run_slotLedger (run : impl.machine.Run taken es s) : SlotLedger taken es s := by
  refine run.history_invariant SlotLedger ?_ ?_
  · constructor
    · exact fun _ => rfl
    · simp
  · intro _ _ _ _ _ _ _ ledger hstep
    exact ledger.step ((step_iff ..).mp hstep)

/-- What leaves the slot came out of a `mem_t`. -/
theorem run_collected_short (run : impl.machine.Run taken es s) :
    ∀ msg ∈ collectedMessages es, msg.length < 2 ^ 31 := by
  have both : (∀ msg, s.outbound = some msg → msg.length < 2 ^ 31) ∧
      ∀ msg ∈ collectedMessages es, msg.length < 2 ^ 31 := by
    refine run.invariant (fun es s => (∀ msg, s.outbound = some msg → msg.length < 2 ^ 31) ∧
      ∀ msg ∈ collectedMessages es, msg.length < 2 ^ 31) ?_ ?_
    · have empty : impl.machine.init.outbound = none := rfl
      simp [empty, collectedMessages]
    rintro es s a s' emitted ⟨slot, before⟩ hstep
    rw [collectedMessages_append, List.forall_mem_append]
    cases ((step_iff ..).mp hstep).slotEffect with
    | stored msg action pc live now events short =>
        subst events
        exact ⟨by simpa [now] using short, before, by simp [collectedMessages, Event.collected?]⟩
    | collected data action full now done events =>
        subst events
        refine ⟨by simp [now], before, ?_⟩
        simpa [collectedMessages, Event.collected?, List.filterMap_cons] using slot data full
    | kept free same noSend noCollect =>
        rw [collectedMessages_eq_nil noCollect, same]
        exact ⟨slot, before, by simp⟩
  exact both.2

/-- After a Done nothing is sent or collected any more. -/
theorem run_after_done (run : impl.machine.Run taken es s) {before after : List (Event β)}
    {d : Event β} (split : es = before ++ d :: after) (hd : d.ReturnsDone) :
    (s.outbound = none ∧ s.workerDone = true) ∧
      ∀ e ∈ after, e.sent? = none ∧ e.collected? = none := by
  refine run.once (fun _ s => s.workerDone = true ↔ s.worker.Done) Event.ReturnsDone
    (fun _ s => s.outbound = none ∧ s.workerDone = true)
    (fun _ e => e.sent? = none ∧ e.collected? = none) (fun run => (run_flagsAgree run).done_iff)
    ?_ ?_ split hd
  · intro _ s _ s' before d after _ hstep hd
    obtain ⟨outbound, rfl⟩ := hd
    cases ((step_iff ..).mp hstep).slotEffect with
    | stored msg action pc live slot events =>
        rcases List.append_eq_cons_iff.mp events with ⟨rfl, he⟩ | ⟨rest, rfl, he⟩ <;> simp at he
    | collected data action full slot done events =>
        rcases List.append_eq_cons_iff.mp events with ⟨rfl, he⟩ | ⟨rest, rfl, he⟩
        · simp only [List.cons.injEq, Event.stepReturned.injEq, StepOutput.mk.injEq] at he
          obtain ⟨⟨hstate, _⟩, rfl⟩ := he
          have hdone : s.workerDone = true := by
            cases hw : s.workerDone with
            | true => rfl
            | false => simp [hw] at hstate
          exact ⟨⟨slot, by rw [done, hdone]⟩, by simp⟩
        · simp at he
    | kept free slot noSend noCollect done stays =>
        exact ⟨done outbound (by simp), fun e he =>
          ⟨noSend e (by simp [he]), noCollect e (by simp [he])⟩⟩
  · intro _ s _ s' emitted d hw hq hstep
    obtain ⟨hnone, hdone⟩ := hq
    cases ((step_iff ..).mp hstep).slotEffect with
    | stored msg action pc live slot events => simp [hdone, pc, WorkerPc.Done] at hw
    | collected data action full slot done events => simp [hnone] at full
    | kept free slot noSend noCollect done stays =>
        exact ⟨⟨by rw [slot, hnone], stays hdone⟩, fun e he => ⟨noSend e he, noCollect e he⟩⟩

theorem collected_upto_done (run : impl.machine.Run taken es s) {before after : List (Event β)}
    {d : Event β} (split : es = before ++ d :: after) (hd : d.ReturnsDone) :
    collectedMessages (before ++ [d]) = collectedMessages es := by
  have hafter : collectedMessages after = [] :=
    collectedMessages_eq_nil fun e he => ((run_after_done run split hd).2 e he).2
  have hes : es = (before ++ [d]) ++ after := by simp [split]
  rw [hes, collectedMessages_append (before ++ [d]), hafter, List.append_nil]

/-- As long as every `OnSend` finds the previous message collected, nothing is lost; and a
run in which a Step has returned Done lost nothing only if every `OnSend` did. -/
theorem outbound_lossless (run : impl.machine.Run taken es s) :
    (Transition.Machine.Meets SendsIntoFreeSlot taken → InOrder es) ∧
      ((∃ e ∈ es, e.ReturnsDone) →
        (InOrder es ↔ Transition.Machine.Meets SendsIntoFreeSlot taken)) := by
  have ledger := run_slotLedger run
  have sufficient : Transition.Machine.Meets SendsIntoFreeSlot taken → InOrder es := by
    intro hm
    have hb := ledger.balanced hm
    refine ⟨⟨s.outbound.toList, hb⟩, ?_⟩
    intro before d after split hd
    rw [collected_upto_done run split hd, ← hb, (run_after_done run split hd).1.1]
    simp
  refine ⟨sufficient, ?_⟩
  rintro ⟨d, hmem, hd⟩
  refine ⟨?_, sufficient⟩
  intro hin
  by_contra hm
  obtain ⟨before, after, split⟩ := List.append_of_mem hmem
  have hall := hin.2 before d after split hd
  rw [collected_upto_done run split hd] at hall
  have hshort := ledger.short hm
  rw [hall] at hshort
  omega

end Run

/-! ## Two sends in a row -/

/-- A worker that sends twice without waiting for an answer. -/
def twoSends : SessionImpl Unit Unit Unit where
  worker := .protocol (.send [1] (.send [2] (.finish (.publish ()))))
  finalize _ ready := (.ok (), ready)

/-- The second message replaces the first before any Step has collected it. -/
theorem second_send_overwrites :
    ¬ ∀ taken es s, twoSends.machine.Run taken es s → InOrder es := by
  intro h
  obtain ⟨taken, s, run, _⟩ := Transition.Machine.run_of_trace
    (show (twoSends.machine.trace (fun _ _ => True) twoSends.machine.init
      [.worker, .worker, .worker, .worker, .step none, .caller, .caller]).map Prod.fst =
        some [.sent [1], .sent [2], .stepReturned ⟨.continue, some [2]⟩] from rfl)
  exact absurd (h taken _ s run).1 (by decide)

/-- The same worker, each message collected before the next is sent. -/
theorem outbound_lossless_collected :
    InOrder [.sent [1], .stepReturned ⟨.continue, some [1]⟩, .sent [2],
      (.stepReturned ⟨.done, some [2]⟩ : Event Unit)] := by
  obtain ⟨taken, s, run, meets⟩ := Transition.Machine.run_of_trace
    (show (twoSends.machine.trace SendsIntoFreeSlot twoSends.machine.init
      [.step none, .caller, .worker, .caller, .worker, .worker, .worker, .worker, .worker,
        .worker, .step none, .caller, .caller]).map Prod.fst = some _ from rfl)
  exact (outbound_lossless run).1 meets

end MaanyMpc
