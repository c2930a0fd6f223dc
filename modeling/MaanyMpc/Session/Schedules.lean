import MaanyMpc.Library.Dataflow
import MaanyMpc.Session.Exchange
import MaanyMpc.Session.Relay

/-! # Schedules

Four threads, two queues, two slots and a transport take part in a relay, and they may come to
their moves in any order. As long as no message is lost on the way, none of it shows: the two
protocols exchange what they would exchange if they were joined directly. -/

namespace MaanyMpc

open Transition Dataflow

@[simp] theorem Participant.other_other (p : Participant) : p.other.other = p := by
  cases p <;> rfl

/-- Two protocols, each of which receives what the other sends. -/
def exchange {ρ : Participant → Type} (programs : (p : Participant) → Program (ρ p)) :
    Network Participant Bytes where
  sends sent p := (programs p).sends (sent p.other)
  mono below p := (programs p).sends_mono (below p.other)

/-! ## Orderly runs -/

section Orderly

variable {α : Type} {φ : Type}

instance (pc : WorkerPc α) : Decidable pc.Past :=
  match pc with
  | .leaving => .isTrue (.inl rfl)
  | .returned => .isTrue (.inr (.inl rfl))
  | .doneSet => .isTrue (.inr (.inr (.inl rfl)))
  | .exited => .isTrue (.inr (.inr (.inr rfl)))
  | .awaitMessage | .parkedMessage | .running _ | .sent _ | .parkedReceive _ | .wokenReceive _
  | .lost =>
    .isFalse (by simp [WorkerPc.Past, WorkerPc.Over])

instance (s : State α φ) (a : Action φ) : Decidable (Spared s a) :=
  match a with
  | .destroy => decidable_of_iff s.worker.Past (by simp [Spared])
  | .worker | .caller | .wakeWorker | .wakeCaller | .step _ | .finalize _ | .setMessage _ =>
    .isTrue (by simp [Spared])

end Orderly

variable {α : Participant → Type} {φ β : Type}

/-- The session that moves is not freed under its worker. -/
def Spares (s : RelayState α φ) (a : RelayAction φ) : Prop :=
  ∀ q action transport, s.call a = some (q, action, transport) → Spared (s.sessions q) action

instance (s : RelayState α φ) (a : RelayAction φ) : Decidable (Spares s a) :=
  match called : s.call a with
  | none => .isTrue (by simp [Spares, called])
  | some (q, action, _) =>
    decidable_of_iff (Spared (s.sessions q) action) (by simp [Spares, called])

/-- It loses no message either. -/
def Orderly (s : RelayState α φ) (a : RelayAction φ) : Prop := Carries s a ∧ Spares s a

instance (s : RelayState α φ) (a : RelayAction φ) : Decidable (Orderly s a) :=
  inferInstanceAs (Decidable (_ ∧ _))

variable {impl : (p : Participant) → SessionImpl (α p) φ β} {s s' : RelayState α φ}
  {a : RelayAction φ} {es emitted : List (Participant × Event β)}
  {taken : List (RelayState α φ × RelayAction φ)}

theorem meets_spared (meets : Machine.Meets Orderly taken) (p : Participant) :
    Machine.Meets Spared (ownSteps p taken) := by
  induction taken using List.reverseRecOn with
  | nil => simp [ownSteps]
  | append_singleton taken last ih =>
      obtain ⟨s, a⟩ := last
      obtain ⟨before, now⟩ := (Machine.meets_append_singleton ..).mp meets
      cases called : s.call a with
      | none =>
          have same : ownSteps p (taken ++ [(s, a)]) = ownSteps p taken := by
            simp [ownSteps, called]
          rw [same]
          exact ih before
      | some call =>
          obtain ⟨q, action, transport⟩ := call
          by_cases own : q = p
          · subst own
            rw [ownSteps_append_self called, Machine.meets_append_singleton]
            exact ⟨ih before, now.2 q action transport called⟩
          · rw [ownSteps_append_of_ne own called]
            exact ih before

theorem meets_carries (meets : Machine.Meets Orderly taken) : Machine.Meets Carries taken :=
  fun p mem => (meets p mem).1

/-- Each session runs its own program undisturbed. -/
theorem run_uninterrupted_own (run : (relay impl).Run taken es s)
    (meets : Machine.Meets Orderly taken) (p : Participant) :
    Uninterrupted (impl p) (ownSteps p taken) (ownEvents p es) (s.sessions p) :=
  run_uninterrupted (run_own run p) (meets_spared meets p)

/-- A party has received a first part of what the other has sent. -/
theorem received_below (run : (relay impl).Run taken es s) (meets : Machine.Meets Orderly taken)
    (p : Participant) :
    receivedFrames (ownEvents p es) <+: sentMessages (ownEvents p.other es) := by
  have survive := (run_survive_iff run).mpr (meets_carries meets) p.other
  rw [Participant.other_other] at survive
  rw [survive, List.append_assoc, List.append_assoc, List.append_assoc]
  exact List.prefix_append _ _

/-- The parties have been given these protocols, or nothing yet. -/
def Given (impl : (p : Participant) → SessionImpl (α p) φ β)
    (programs : (p : Participant) → Program (WorkerExit (α p)))
    (es : List (Participant × Event β)) : Prop :=
  ∀ p, ∀ program ∈ (impl p).protocol? (ownEvents p es), program = programs p

variable {programs : (p : Participant) → Program (WorkerExit (α p))}

theorem Given.earlier (given : Given impl programs (es ++ emitted)) : Given impl programs es := by
  intro p program mem
  apply given p
  rw [Option.mem_def] at mem ⊢
  rw [ownEvents_append]
  unfold SessionImpl.protocol? at mem ⊢
  cases start : (impl p).worker with
  | protocol program => simpa [start] using mem
  | awaitMessage sign =>
      simp only [start, Option.map_eq_some_iff] at mem ⊢
      obtain ⟨msg, first, rfl⟩ := mem
      exact ⟨msg, by simp [first], rfl⟩

/-! ## What has been sent -/

def sentBy (es : List (Participant × Event β)) (p : Participant) : List Bytes :=
  sentMessages (ownEvents p es)

def receivedBy (es : List (Participant × Event β)) (p : Participant) : List Bytes :=
  receivedFrames (ownEvents p es)

/-- A party has sent no more than its protocol sends on what it has received. -/
theorem sentBy_below (run : (relay impl).Run taken es s) (meets : Machine.Meets Orderly taken)
    (given : Given impl programs es) (p : Participant) :
    sentBy es p <+: (programs p).sends (receivedBy es p) := by
  have session := run_uninterrupted_own run meets p
  by_cases awaits : (s.sessions p).worker.AwaitsMessage
  · rw [sentBy, (session.fresh awaits).1]
    exact List.nil_prefix
  · obtain ⟨program, started, rest, reaches, _⟩ := session.begun awaits
    rw [← given p program started]
    exact reaches.sent_below

/-- And what it has received after a step the other had sent before it. -/
theorem receivedBy_prefix_before (run : (relay impl).Run taken es s)
    (meets : Machine.Meets Orderly (taken ++ [(s, a)]))
    (hstep : (relay impl).step s a = some (s', emitted)) (p : Participant) :
    receivedBy (es ++ emitted) p <+: sentBy es p.other := by
  have before := (Machine.meets_append_singleton ..).mp meets
  obtain ⟨q, action, transport, t, fs, called, stepped, sessions, _, rfl⟩ :=
    relay_step_cases hstep
  by_cases own : q = p
  · -- the sender does not move
    have peer : q ≠ p.other := by
      subst own
      cases q <;> simp [Participant.other]
    have after := received_below (run.next hstep) meets p
    rwa [ownEvents_append p.other, ownEvents_map_of_ne peer, List.append_nil] at after
  · -- the receiver does not
    rw [receivedBy, ownEvents_append, ownEvents_map_of_ne own, List.append_nil]
    exact received_below run before.1 p

theorem sentBy_within (run : (relay impl).Run taken es s) (meets : Machine.Meets Orderly taken)
    (given : Given impl programs es) : (exchange programs).Within (sentBy es) := by
  refine Network.within_of_run Orderly sentBy (Given impl programs) (fun _ => rfl)
    Given.earlier ?_ run meets given
  intro taken es s a s' emitted hrun before now hstep given
  have meets := (Machine.meets_append_singleton Orderly taken s a).mpr ⟨before, now⟩
  intro p
  exact (sentBy_below (hrun.next hstep) meets given p).trans
    ((programs p).sends_mono (receivedBy_prefix_before hrun meets hstep p))

/-! ## What the callers see -/

/-- What a party has done is a part of sending and receiving this, and, if its worker has ended,
its callers see the end that the protocol comes to. -/
structure PartOf {α : Type} (impl : SessionImpl α φ β) (program : Program (WorkerExit α))
    (sends receives : List Bytes) (taken : List (State α φ × Action φ)) (es : List (Event β))
    (s : State α φ) : Prop where
  sent : sentMessages es <+: sends
  received : receivedFrames es <+: receives
  /-- what Step has returned -/
  returned : collectedMessages es <+: sends
  done : (∃ e ∈ es, e.ReturnsDone) → s.worker.Past
  threw : ∀ err, .stepThrew err ∈ es → s.fatal = some err
  running : ¬ s.worker.Past → s.fatal = none ∧ finalizeReplies es = []
  ended : s.worker.Past → ∃ exit, program.result? receives = some exit ∧
    s.fatal = exit.failure? ∧
    finalizeReplies es <+: (impl.finalizes exit (finalizeCalls taken)).1

theorem State.EndedBy.replies_below {α : Type} {impl : SessionImpl α φ β} {exit : WorkerExit α}
    {calls : List φ} {es : List (Event β)} {s : State α φ} (ended : s.EndedBy impl exit calls es) :
    finalizeReplies es <+: (impl.finalizes exit calls).1 := by
  obtain ⟨answered, rfl, replies⟩ := ended.served
  have first : finalizeReplies es = (impl.finalizes exit answered).1 := by rw [replies]
  rw [first]
  exact impl.finalizes_below exit (List.prefix_append _ _)

theorem partOf_of_below (run : (relay impl).Run taken es s)
    (meets : Machine.Meets Orderly taken) (given : Given impl programs es) (p : Participant)
    {sends receives : List Bytes} (sent : sentBy es p <+: sends)
    (received : receivedBy es p <+: receives) :
    PartOf (impl p) (programs p) sends receives (ownSteps p taken) (ownEvents p es)
      (s.sessions p) := by
  have session := run_uninterrupted_own run meets p
  have own := run_own run p
  refine ⟨sent, received, ?_, ?_, ?_, ?_, ?_⟩
  · have free := ((meets_carries_iff taken).mp (meets_carries meets) p).1
    have balanced := (run_slotLedger own).balanced free
    rw [sentBy, ← balanced] at sent
    exact (List.prefix_append _ _).trans sent
  · rintro ⟨e, mem, outbound, rfl⟩
    obtain ⟨t, passed, t', emitted, hstep, emits⟩ := own.step_of_event mem
    refine own.lasting (fun s => s.worker.Past)
      (fun past hstep => ((step_iff ..).mp hstep).past_mono past) passed ?_
    intro _ _ s' _ before again
    have succeeded : t.1.Succeeded := ((step_iff ..).mp hstep).answers _ emits
    exact ((step_iff ..).mp again).past_mono (succeeded.past (run_flagsAgree before))
  · intro err mem
    obtain ⟨t, passed, t', emitted, hstep, emits⟩ := own.step_of_event mem
    exact run_failed own passed (((step_iff ..).mp hstep).answers _ emits)
  · intro running
    exact ⟨(session.unended running).fatal, (session.unended running).silent⟩
  · intro past
    obtain ⟨program, started, rest, reaches, _, ended⟩ := session.begun past.not_awaits
    obtain ⟨exit, rfl, shown⟩ := ended past
    refine ⟨exit, ?_, shown.fatal, shown.replies_below⟩
    rw [← given p program started]
    exact Program.result?_mono received reaches.result?

/-- Whatever the order of the moves, an orderly run has come to a part of the one exchange of
the two protocols, and shows the results that the protocols come to in it. -/
theorem exchange_determines (programs : (p : Participant) → Program (WorkerExit (α p)))
    (run : (relay impl).Run taken es s) (meets : Machine.Meets Orderly taken)
    (given : Given impl programs es) :
    ∃ n, ∀ p, PartOf (impl p) (programs p) ((exchange programs).rounds n p)
      ((exchange programs).rounds n p.other) (ownSteps p taken) (ownEvents p es)
      (s.sessions p) := by
  obtain ⟨n, below⟩ := sentBy_within run meets given
  refine ⟨n, fun p => partOf_of_below run meets given p (below p) ?_⟩
  exact (received_below run meets p).trans (below p.other)

/-! ## Two schedules -/

/-- Each worker has ended, or has received all that was sent to it and waits for more. -/
def SettledIn (es : List (Participant × Event β)) (s : RelayState α φ) : Prop :=
  ∀ p, (s.sessions p).worker.Past ∨
    (s.sessions p).worker.InReceive ∧ receivedBy es p = sentBy es p.other

theorem WorkerPc.InReceive.asks {α : Type} {pc : WorkerPc α} (waits : pc.InReceive) :
    ¬ pc.Past ∧ ¬ pc.AwaitsMessage ∧ ∃ next, pc.remaining = .receive next := by
  obtain ⟨next, rfl | rfl⟩ := waits <;>
    exact ⟨by simp [WorkerPc.Past, WorkerPc.Over], by simp [WorkerPc.AwaitsMessage], next, rfl⟩

/-- What a session of a settled run has left of its protocol. -/
theorem SettledIn.rest (settled : SettledIn es s) (run : (relay impl).Run taken es s)
    (meets : Machine.Meets Orderly taken) (given : Given impl programs es) (p : Participant) :
    ∃ rest, (programs p).Reaches (sentBy es p) (receivedBy es p) rest ∧
      ((s.sessions p).worker.Past ∧ (∃ exit, rest = .finish exit) ∨
        receivedBy es p = sentBy es p.other ∧ ∃ next, rest = .receive next) := by
  have session := run_uninterrupted_own run meets p
  rcases settled p with past | ⟨waits, delivered⟩
  · obtain ⟨program, started, rest, reaches, _, ended⟩ := session.begun past.not_awaits
    obtain ⟨exit, rfl, _⟩ := ended past
    exact ⟨_, given p program started ▸ reaches, .inl ⟨past, exit, rfl⟩⟩
  · obtain ⟨running, begun, next, asks⟩ := waits.asks
    obtain ⟨program, started, rest, reaches, remaining, _⟩ := session.begun begun
    exact ⟨rest, given p program started ▸ reaches,
      .inr ⟨delivered, next, (remaining running).trans asks⟩⟩

/-- The protocols have nothing to add to a settled run. -/
theorem SettledIn.sends_below (settled : SettledIn es s) (run : (relay impl).Run taken es s)
    (meets : Machine.Meets Orderly taken) (given : Given impl programs es) :
    Below ((exchange programs).sends (sentBy es)) (sentBy es) := by
  intro p
  obtain ⟨rest, reaches, last⟩ := settled.rest run meets given p
  obtain ⟨more, all⟩ : receivedBy es p <+: sentBy es p.other := received_below run meets p
  have silent : rest.sends more = [] := by
    rcases last with ⟨_, exit, rfl⟩ | ⟨delivered, next, rfl⟩
    · rfl
    · obtain rfl : more = [] :=
        List.append_cancel_left (all.trans (by rw [List.append_nil, delivered]))
      rfl
  have sends := reaches.sends_append more
  rw [silent, List.append_nil] at sends
  change (programs p).sends (sentBy es p.other) <+: sentBy es p
  rw [← all, sends]

/-- A worker that ends on what has been received here has ended here. -/
theorem SettledIn.past_of_result (settled : SettledIn es s) (run : (relay impl).Run taken es s)
    (meets : Machine.Meets Orderly taken) (given : Given impl programs es) {p : Participant}
    {exit : WorkerExit (α p)} (result : (programs p).result? (receivedBy es p) = some exit) :
    (s.sessions p).worker.Past := by
  obtain ⟨rest, reaches, ⟨past, _⟩ | ⟨_, next, rfl⟩⟩ := settled.rest run meets given p
  · exact past
  · rw [reaches.result?] at result
    cases result

/-- A party has received no more than makes its protocol end. -/
theorem receivedBy_eq_of_result (run : (relay impl).Run taken es s)
    (meets : Machine.Meets Orderly taken) (given : Given impl programs es) {p : Participant}
    {frames : List Bytes} (first : frames <+: receivedBy es p) {exit : WorkerExit (α p)}
    (result : (programs p).result? frames = some exit) : frames = receivedBy es p := by
  have session := run_uninterrupted_own run meets p
  by_cases awaits : (s.sessions p).worker.AwaitsMessage
  · have nothing : receivedBy es p = [] := (session.fresh awaits).2.1
    rw [nothing] at first ⊢
    exact List.prefix_nil.mp first
  · obtain ⟨program, started, rest, reaches, _⟩ := session.begun awaits
    rw [given p program started] at reaches
    exact reaches.eq_of_result first result

/-- The protocols that two runs have in common. -/
def commonProtocols (impl : (p : Participant) → SessionImpl (α p) φ β)
    (es₁ es₂ : List (Participant × Event β)) (p : Participant) : Program (WorkerExit (α p)) :=
  (((impl p).protocol? (ownEvents p es₁)).or ((impl p).protocol? (ownEvents p es₂))).getD
    (.finish .quiet)

theorem given_commonProtocols {es₁ es₂ : List (Participant × Event β)}
    (same : ∀ p, ∀ first ∈ (impl p).protocol? (ownEvents p es₁),
      ∀ second ∈ (impl p).protocol? (ownEvents p es₂), first = second) :
    Given impl (commonProtocols impl es₁ es₂) es₁ ∧
      Given impl (commonProtocols impl es₁ es₂) es₂ := by
  constructor
  · intro p program first
    simp [commonProtocols, Option.mem_def.mp first]
  · intro p program second
    cases first : (impl p).protocol? (ownEvents p es₁) with
    | none => simp [commonProtocols, first, Option.mem_def.mp second]
    | some other => simp [commonProtocols, first, same p other first program second]

variable {taken₁ taken₂ : List (RelayState α φ × RelayAction φ)}
  {es₁ es₂ : List (Participant × Event β)} {s₁ s₂ : RelayState α φ}

/-- Two orderly runs of the same protocols differ in how far they have come and in nothing
else: one party's messages are a first part of the other run's, and workers that have ended in
both have ended in the same way, with the same replies to the same calls of Finalize. A settled
run is as far as any can come. -/
theorem schedules_agree (run₁ : (relay impl).Run taken₁ es₁ s₁)
    (meets₁ : Machine.Meets Orderly taken₁) (run₂ : (relay impl).Run taken₂ es₂ s₂)
    (meets₂ : Machine.Meets Orderly taken₂)
    (same : ∀ p, ∀ first ∈ (impl p).protocol? (ownEvents p es₁),
      ∀ second ∈ (impl p).protocol? (ownEvents p es₂), first = second) :
    (∀ p, Comparable (sentBy es₁ p) (sentBy es₂ p) ∧
      Comparable (receivedBy es₁ p) (receivedBy es₂ p) ∧
      ((s₁.sessions p).worker.Past → (s₂.sessions p).worker.Past →
        (s₁.sessions p).fatal = (s₂.sessions p).fatal ∧
        (Comparable (finalizeCalls (ownSteps p taken₁)) (finalizeCalls (ownSteps p taken₂)) →
          Comparable (finalizeReplies (ownEvents p es₁))
            (finalizeReplies (ownEvents p es₂))))) ∧
      (SettledIn es₁ s₁ → ∀ p, sentBy es₂ p <+: sentBy es₁ p ∧
        receivedBy es₂ p <+: receivedBy es₁ p ∧
        ((s₂.sessions p).worker.Past → (s₁.sessions p).worker.Past)) := by
  obtain ⟨given₁, given₂⟩ := given_commonProtocols same
  have within₁ := sentBy_within run₁ meets₁ given₁
  have within₂ := sentBy_within run₂ meets₂ given₂
  constructor
  · intro p
    obtain ⟨n, below₁, below₂⟩ := within₁.common within₂
    have received₁ := (received_below run₁ meets₁ p).trans (below₁ p.other)
    have received₂ := (received_below run₂ meets₂ p).trans (below₂ p.other)
    have part₁ := partOf_of_below run₁ meets₁ given₁ p (below₁ p) received₁
    have part₂ := partOf_of_below run₂ meets₂ given₂ p (below₂ p) received₂
    refine ⟨comparable_of_prefixes (below₁ p) (below₂ p),
      comparable_of_prefixes received₁ received₂, ?_⟩
    intro past₁ past₂
    obtain ⟨exit, result, fatal₁, replies₁⟩ := part₁.ended past₁
    obtain ⟨exit', result', fatal₂, replies₂⟩ := part₂.ended past₂
    obtain rfl : exit = exit' := Option.some.inj (result.symm.trans result')
    refine ⟨fatal₁.trans fatal₂.symm, ?_⟩
    rintro (calls | calls)
    · exact comparable_of_prefixes
        (replies₁.trans ((impl p).finalizes_below exit calls)) replies₂
    · exact comparable_of_prefixes replies₁
        (replies₂.trans ((impl p).finalizes_below exit calls))
  · intro settled
    have below := within₂.below_of_settled (settled.sends_below run₁ meets₁ given₁)
    intro p
    have received : receivedBy es₂ p <+: receivedBy es₁ p := by
      have common := (received_below run₂ meets₂ p).trans (below p.other)
      obtain ⟨rest, reaches, ⟨_, exit, rfl⟩ | ⟨delivered, _⟩⟩ := settled.rest run₁ meets₁ given₁ p
      · rcases comparable_of_prefixes common (received_below run₁ meets₁ p) with before | after
        · exact before
        · rw [← receivedBy_eq_of_result run₂ meets₂ given₂ after reaches.result?]
          exact List.prefix_rfl
      · rw [delivered]
        exact common
    refine ⟨below p, received, fun past => ?_⟩
    obtain ⟨exit, result, _⟩ :=
      (partOf_of_below run₂ meets₂ given₂ p List.prefix_rfl received).ended past
    exact settled.past_of_result run₁ meets₁ given₁ result

/-! ## One message each way -/

def callAndAnswerProtocol : Participant → Program (WorkerExit Unit)
  | .device => .send [1] (.receive fun _ => .finish (.publish ()))
  | .server => .receive fun _ => .send [2] (.finish (.publish ()))

/-- The device says something, the server answers. -/
def callAndAnswer (p : Participant) : SessionImpl Unit Unit Unit where
  worker := .protocol (callAndAnswerProtocol p)
  finalize _ ready := (.ok (), ready)

theorem given_callAndAnswer (es : List (Participant × Event Unit)) :
    Given callAndAnswer callAndAnswerProtocol es := by
  intro p program mem
  exact (Option.some.inj mem).symm

/-- The device's worker begins, and each frame is fetched when it is there. -/
def inTurn : List (RelayAction Unit) :=
  [.session .device .worker, .step .device, .session .device .caller, .session .device .caller,
    .step .server, .session .server .caller, .session .server .caller, .session .server .worker,
    .session .server .worker, .session .server .caller, .session .server .worker,
    .session .server .worker, .session .server .worker, .session .server .worker,
    .session .server .worker, .session .device .worker, .step .device,
    .session .device .caller, .session .device .caller, .session .device .worker,
    .session .device .worker, .session .device .worker, .session .device .worker,
    .session .device .worker, .session .device .caller, .session .device (.finalize ()),
    .session .device .caller, .session .device .caller]

def inTurnEvents : List (Participant × Event Unit) :=
  [(.device, .sent [1]), (.device, .stepReturned ⟨.continue, some [1]⟩), (.server, .supplied [1]),
    (.server, .received [1]), (.server, .sent [2]),
    (.server, .stepReturned ⟨.continue, some [2]⟩), (.device, .supplied [2]),
    (.device, .received [2]), (.device, .stepReturned ⟨.done, none⟩),
    (.device, .finalizeReturned ())]

/-- The server asks before there is anything for it, and its answer is not fetched. -/
def serverFirst : List (RelayAction Unit) :=
  [.step .server, .session .server .caller, .session .server .caller, .session .server .worker,
    .session .server .caller, .step .device, .session .device .caller, .session .device .caller,
    .session .device .worker, .session .device .worker, .session .device .caller,
    .step .server, .session .server .caller, .session .server .caller, .session .server .worker,
    .session .server .worker]

def serverFirstEvents : List (Participant × Event Unit) :=
  [(.server, .stepReturned ⟨.continue, none⟩), (.device, .sent [1]),
    (.device, .stepReturned ⟨.continue, some [1]⟩), (.server, .supplied [1]),
    (.server, .received [1]), (.server, .sent [2])]

theorem exchange_determines_in_turn :
    ∃ (taken : List (RelayState (fun _ => Unit) Unit × RelayAction Unit))
      (s : RelayState (fun _ => Unit) Unit) (n : ℕ), ∀ p,
      PartOf (callAndAnswer p) (callAndAnswerProtocol p)
        ((exchange callAndAnswerProtocol).rounds n p)
        ((exchange callAndAnswerProtocol).rounds n p.other) (ownSteps p taken)
        (ownEvents p inTurnEvents) (s.sessions p) := by
  obtain ⟨taken, run, meets⟩ := Machine.reach_of_trace
    (show (relay callAndAnswer).trace Orderly (relay callAndAnswer).init inTurn =
      some (inTurnEvents, _) from rfl)
  exact ⟨taken, _, exchange_determines callAndAnswerProtocol run meets (given_callAndAnswer _)⟩

/-- The first schedule has come to its end, so the second is a part of it. -/
theorem schedules_agree_server_first :
    sentBy serverFirstEvents .device <+: sentBy inTurnEvents .device ∧
      sentBy serverFirstEvents .server <+: sentBy inTurnEvents .server := by
  obtain ⟨taken₁, run₁, meets₁⟩ := Machine.reach_of_trace
    (show (relay callAndAnswer).trace Orderly (relay callAndAnswer).init inTurn =
      some (inTurnEvents, _) from rfl)
  obtain ⟨taken₂, run₂, meets₂⟩ := Machine.reach_of_trace
    (show (relay callAndAnswer).trace Orderly (relay callAndAnswer).init serverFirst =
      some (serverFirstEvents, _) from rfl)
  have agree := (schedules_agree run₁ meets₁ run₂ meets₂ ?_).2 ?_
  · exact ⟨(agree .device).1, (agree .server).1⟩
  · intro p first given second given'
    exact (given_callAndAnswer _ p first given).trans (given_callAndAnswer _ p second given').symm
  · intro p
    cases p <;> exact .inl (by decide)

end MaanyMpc
