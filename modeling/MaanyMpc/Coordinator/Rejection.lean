import MaanyMpc.Coordinator.Handshake
import MaanyMpc.Coordinator.Teardown

/-! # Connections after their first frame

A frame that is rejected leaves the handshake listener where it is, and a hello detaches it. So
a connection takes in the first hello that it carries, whatever it carried before. -/

namespace MaanyMpc

variable {σ V : Type} {opts : ServerOptions σ V} {s s' : Server σ} {a : ServerAction}
  {emitted : List ServerEvent} {socket : SocketId} {raw : Bytes}

/-! ## The listeners of a socket -/

structure Stage where
  ended : Bool
  listening : Bool
  bound : Option (SessionKey × CtxId)

def Connection.stage (c : Connection) : Stage := ⟨c.ended, c.listening, c.transport⟩

namespace Server

def stage (s : Server σ) (socket : SocketId) : Option Stage :=
  (s.connections socket).map Connection.stage

/-- The session whose transport has its listeners on the socket. -/
def bound (s : Server σ) (socket : SocketId) : Option (SessionKey × CtxId) :=
  (s.stage socket).bind Stage.bound

theorem stage_updateConnection_of_ne {other : SocketId} (h : other ≠ socket)
    (f : Connection → Connection) : (s.updateConnection socket f).stage other = s.stage other := by
  simp [stage, updateConnection, h]

/-- An update that is one of the stage. -/
theorem stage_updateConnection (s : Server σ) (socket : SocketId) (f : Connection → Connection)
    (g : Stage → Stage) (h : ∀ c, (f c).stage = g c.stage) :
    (s.updateConnection socket f).stage socket = (s.stage socket).map g := by
  cases known : s.connections socket with
  | none => simp [stage, updateConnection, known]
  | some c => simp [stage, updateConnection, known, h]

/-- An update that is none. -/
theorem stage_updateConnection_same (s : Server σ) (other : SocketId)
    (f : Connection → Connection) (h : ∀ c, (f c).stage = c.stage) (socket : SocketId) :
    (s.updateConnection other f).stage socket = s.stage socket := by
  by_cases same : socket = other
  · subst same
    rw [stage_updateConnection s socket f id h, Option.map_id_fun, id_eq]
  · exact stage_updateConnection_of_ne same f

theorem stage_closeSocket (s : Server σ) (other socket : SocketId) :
    (s.closeSocket other).stage socket = s.stage socket :=
  stage_updateConnection_same s other (fun c => { c with isOpen := false }) (fun _ => rfl) socket

theorem stage_cleanupSession (s : Server σ) (key : SessionKey) (socket : SocketId) :
    (s.cleanupSession key).1.stage socket = s.stage socket := by
  unfold cleanupSession
  split
  · rfl
  · simp only
    split
    · exact stage_closeSocket s _ socket
    · rfl

theorem stage_attachDevice_of_ne {other : SocketId} (h : other ≠ socket) (key : SessionKey)
    (state : SessionState) (hello : Json) :
    (s.attachDevice key state socket hello).1.stage other = s.stage other := by
  unfold attachDevice
  simp only
  split
  · exact stage_updateConnection_of_ne h _
  · exact (stage_updateConnection_of_ne h _).trans (stage_updateConnection_of_ne h _)

theorem stage_attachDevice (s : Server σ) (key : SessionKey) (state : SessionState)
    (socket : SocketId) (hello : Json) :
    (s.attachDevice key state socket hello).1.stage socket =
      (s.stage socket).map fun st => { st with bound := some (key, state.ctx) } := by
  unfold attachDevice
  simp only
  split
  · exact stage_updateConnection _ socket _ _ fun _ => rfl
  · refine (stage_updateConnection_same _ socket (fun c => { c with registered := some key })
      (fun _ => rfl) socket).trans ?_
    exact stage_updateConnection _ socket _ _ fun _ => rfl

theorem stage_registerParticipant_of_ne {other : SocketId} (h : other ≠ socket)
    (key : SessionKey) (hello : Json) :
    (s.registerParticipant key socket hello).1.stage other = s.stage other := by
  unfold registerParticipant
  split
  · exact stage_attachDevice_of_ne h ..
  · simp only
    split
    · rfl
    · exact stage_attachDevice_of_ne h ..

/-- Without a session and without the keyId that it needs, a hello binds nothing. -/
theorem stage_registerParticipant (s : Server σ) (key : SessionKey) (socket : SocketId)
    (hello : Json) :
    (LacksKeyId hello ∧ s.sessions key = none ∧
      (s.registerParticipant key socket hello).1.stage socket = s.stage socket ∧
      ∀ event, .sessionReady event ∉ (s.registerParticipant key socket hello).2) ∨
    (LacksKeyId hello → s.sessions key ≠ none) ∧
      ∃ target, (s.registerParticipant key socket hello).1.stage socket =
        (s.stage socket).map fun st => { st with bound := some target } := by
  have fails := mapIntent_eq_error_iff hello
  cases known : s.sessions key with
  | some state =>
      refine .inr ⟨by simp, (key, state.ctx), ?_⟩
      simp only [registerParticipant, known]
      exact stage_attachDevice ..
  | none =>
      cases intent : mapIntent hello with
      | error err =>
          refine .inl ⟨fails.mp ⟨err, intent⟩, rfl, ?_⟩
          simp [registerParticipant, known, intent, stage]
      | ok intent' =>
          refine .inr ⟨fun lacks => ?_, (key, s.contexts), ?_⟩
          · obtain ⟨err, failed⟩ := fails.mpr lacks
            rw [failed] at intent
            cases intent
          · simp only [registerParticipant, known, intent]
            exact stage_attachDevice ..

theorem stage_onTransportMessage (opts : ServerOptions σ V) (s : Server σ) (socket : SocketId)
    (key : SessionKey) (ctx : CtxId) (raw : Bytes) (other : SocketId) :
    (s.onTransportMessage opts socket key ctx raw).1.stage other = s.stage other ∧
      ∀ event, .sessionReady event ∉ (s.onTransportMessage opts socket key ctx raw).2 := by
  unfold onTransportMessage
  simp only
  split
  · split <;> exact ⟨rfl, by simp⟩
  · split <;> exact ⟨rfl, by simp⟩

theorem stage_complete (opts : ServerOptions σ V) (s : Server σ) (t : BackupTask) (now : ℤ)
    (iv : Option (Vector UInt8 12)) (socket : SocketId) :
    (s.complete opts t now iv).1.stage socket = s.stage socket := by
  unfold complete
  simp only
  split
  · rfl
  · split <;> rfl

/-- Of what follows the listeners themselves nothing is in the stage. -/
theorem stage_onClose (s : Server σ) (socket : SocketId) (c : Connection) (other : SocketId) :
    (s.onClose socket c).1.stage other =
      (s.updateConnection socket fun c =>
        { c with isOpen := false, ended := true, listening := false }).stage other := by
  unfold onClose
  simp only
  split
  · split
    · rfl
    · split <;> rfl
  · rw [stage_cleanupSession]
    split
    · rfl
    · split <;> rfl

end Server

/-! ## Frames -/

/-- The id of the hello is that of a session. -/
def FindsSession (s : Server σ) (hello : Json) : Prop :=
  ∃ sessionId, (hello.get? "sessionId").filter Json.truthy = some sessionId ∧
    s.sessions (sessionKey s.frames sessionId) ≠ none

/-- What the handler of the first frames does to the connection. -/
theorem onMessage_stage (opts : ServerOptions σ V) {st : Stage}
    (stage : s.stage socket = some st) (h : s.onMessage opts socket raw = (s', emitted)) :
    ¬ IsHelloFrame opts raw ∧ s'.stage socket = some st ∧
        (∀ event, .sessionReady event ∉ emitted) ∨
      ∃ hello, opts.parse raw = some hello ∧ IsHello hello ∧
        (LacksKeyId hello ∧ ¬ FindsSession s hello ∧
            s'.stage socket = some { st with listening := false } ∧
            (∀ event, .sessionReady event ∉ emitted) ∨
          (LacksKeyId hello → FindsSession s hello) ∧ ∃ target,
            s'.stage socket = some { st with listening := false, bound := some target }) := by
  rcases onMessage_cases opts s socket raw with
    ⟨reason, result, other, _⟩ | ⟨result, other, _⟩ |
    ⟨hello, sessionId, parsed, isHello, named, _, result⟩
  · obtain ⟨rfl, rfl⟩ := Prod.mk.inj (h.symm.trans result)
    exact .inl ⟨other, (Server.stage_closeSocket s socket socket).trans stage, by simp⟩
  · obtain ⟨rfl, rfl⟩ := Prod.mk.inj (h.symm.trans result)
    exact .inl ⟨other, stage, by simp⟩
  · refine .inr ⟨hello, parsed, isHello, ?_⟩
    have detached := Server.stage_updateConnection { s with frames := s.frames + 1 } socket
      (fun c => { c with listening := false }) (fun st => { st with listening := false })
      fun _ => rfl
    have before : ({ s with frames := s.frames + 1 } : Server σ).stage socket = some st := stage
    have finds : FindsSession s hello ↔ s.sessions (sessionKey s.frames sessionId) ≠ none := by
      simp [FindsSession, named]
    have registered := Server.stage_registerParticipant
      (({ s with frames := s.frames + 1 } : Server σ).updateConnection socket fun c =>
        { c with listening := false }) (sessionKey s.frames sessionId) socket hello
    rw [← result, h, detached, before] at registered
    rw [finds, not_not]
    exact registered

/-- What a frame does to the connection that it arrives on. -/
theorem step_message_stage (h : Server.step opts s (.message socket raw) = some (s', emitted)) :
    ∃ st, s.stage socket = some st ∧ st.ended = false ∧
      ((st.listening = false ∨ ¬ IsHelloFrame opts raw) ∧ s'.stage socket = some st ∧
          (∀ event, .sessionReady event ∉ emitted) ∨
        st.listening = true ∧ ∃ hello, opts.parse raw = some hello ∧ IsHello hello ∧
          (LacksKeyId hello ∧ ¬ FindsSession s hello ∧
              s'.stage socket = some { st with listening := false } ∧
              (∀ event, .sessionReady event ∉ emitted) ∨
            (LacksKeyId hello → FindsSession s hello) ∧ ∃ target,
              s'.stage socket = some { st with listening := false, bound := some target })) := by
  cases known : s.connections socket with
  | none => simp [Server.step, known] at h
  | some c =>
      by_cases ended : c.ended = true
      · simp [Server.step, known, ended] at h
      have stage : s.stage socket = some c.stage := by simp [Server.stage, known]
      refine ⟨c.stage, stage, eq_false_of_ne_true ended, ?_⟩
      by_cases listening : c.listening = true
      · have read : s.onMessage opts socket raw = (s', emitted) := by
          simpa [Server.step, known, ended, listening] using h
        rcases onMessage_stage opts stage read with ⟨other, kept⟩ | hello
        · exact .inl ⟨.inr other, kept⟩
        · exact .inr ⟨listening, hello⟩
      · refine .inl ⟨.inl (eq_false_of_ne_true listening), ?_⟩
        cases transport : c.transport with
        | none =>
            obtain ⟨rfl, rfl⟩ : s = s' ∧ [] = emitted := by
              simpa [Server.step, known, ended, listening, transport] using h
            exact ⟨stage, by simp⟩
        | some target =>
            have frame : s.onTransportMessage opts socket target.1 target.2 raw =
                (s', emitted) := by
              simpa [Server.step, known, ended, listening, transport] using h
            have kept := Server.stage_onTransportMessage opts s socket target.1 target.2 raw socket
            rw [frame] at kept
            exact ⟨kept.1.trans stage, kept.2⟩

theorem step_message_stage_of_ne {other : SocketId}
    (h : Server.step opts s (.message other raw) = some (s', emitted)) (apart : socket ≠ other) :
    s'.stage socket = s.stage socket := by
  rcases Server.step_message h with hello | idle | ⟨c, key, ctx, _, _, frame⟩
  · have read := onMessage_cases opts s other raw
    rw [← hello] at read
    rcases read with ⟨reason, result, _⟩ | ⟨result, _⟩ | ⟨hello, _, _, _, _, _, result⟩
    · obtain ⟨rfl, _⟩ := Prod.mk.inj result
      exact Server.stage_closeSocket s other socket
    · obtain ⟨rfl, _⟩ := Prod.mk.inj result
      rfl
    · rw [show s' = _ from congrArg Prod.fst result]
      exact (Server.stage_registerParticipant_of_ne apart _ hello).trans
        (Server.stage_updateConnection_of_ne apart _)
  · obtain ⟨rfl, _⟩ := Prod.mk.inj idle
    rfl
  · rw [show s' = _ from congrArg Prod.fst frame]
    exact (Server.stage_onTransportMessage opts s other key ctx raw socket).1

/-- What an action that is no message on the socket does to it. -/
theorem step_other_stage (h : Server.step opts s a = some (s', emitted))
    (other : ∀ raw, a ≠ .message socket raw) :
    s'.stage socket = s.stage socket ∨
      (s.stage socket = none ∧ s'.stage socket = some ⟨false, true, none⟩) ∨
      ∃ st : Stage, s'.stage socket = some { st with ended := true, listening := false } := by
  cases a with
  | connection socket' =>
      by_cases same : socket = socket'
      · subst same
        refine .inr (.inl ?_)
        cases known : s.connections socket with
        | some c => simp [Server.step, known] at h
        | none =>
            obtain ⟨rfl, _⟩ := Prod.mk.inj (Server.step_connection h)
            simp [Server.stage, known, Connection.stage]
      · obtain ⟨rfl, _⟩ := Prod.mk.inj (Server.step_connection h)
        exact .inl (by simp [Server.stage, same])
  | message socket' raw =>
      have apart : socket ≠ socket' := by
        rintro rfl
        exact other raw rfl
      exact .inl (step_message_stage_of_ne h apart)
  | close socket' =>
      obtain ⟨c, known, closed⟩ := Server.step_close h
      have stage := Server.stage_onClose s socket' c socket
      rw [← closed] at stage
      by_cases same : socket = socket'
      · subst same
        rw [Server.stage_updateConnection s socket _
          (fun st => { st with ended := true, listening := false }) fun _ => rfl] at stage
        have before : s.stage socket = some c.stage := by simp [Server.stage, known]
        rw [before] at stage
        exact .inr (.inr ⟨c.stage, stage⟩)
      · exact .inl (stage.trans (Server.stage_updateConnection_of_ne same _))
  | callClose socket' =>
      obtain ⟨key, _, closed⟩ := Server.step_callClose h
      rw [show s' = _ from congrArg Prod.fst closed]
      exact .inl (Server.stage_cleanupSession s key socket)
  | complete task now iv =>
      obtain ⟨t, _, completed⟩ := Server.step_complete h
      rw [show s' = _ from congrArg Prod.fst completed]
      exact .inl (Server.stage_complete opts { s with tasks := s.tasks.eraseIdx task } t now iv
        socket)

/-! ## Runs -/

/-- A message on the socket, with the server that it arrives at. -/
def frameOf (socket : SocketId) (p : Server σ × ServerAction) : Option (Server σ × Bytes) :=
  match p.2 with
  | .message other raw => if other = socket then some (p.1, raw) else none
  | _ => none

/-- The frames of a connection. -/
def frames (socket : SocketId) (taken : List (Server σ × ServerAction)) :
    List (Server σ × Bytes) :=
  taken.filterMap (frameOf socket)

theorem frameOf_eq_some {p : Server σ × ServerAction} {f : Server σ × Bytes}
    (h : frameOf socket p = some f) : p = (f.1, .message socket f.2) := by
  obtain ⟨s, a⟩ := p
  cases a with
  | message other raw =>
      by_cases same : other = socket
      · subst same
        obtain rfl : (s, raw) = f := by simpa [frameOf] using h
        rfl
      · simp [frameOf, same] at h
  | _ => simp [frameOf] at h

theorem frames_append_message (taken : List (Server σ × ServerAction)) (s : Server σ)
    (socket : SocketId) (raw : Bytes) :
    frames socket (taken ++ [(s, .message socket raw)]) = frames socket taken ++ [(s, raw)] := by
  simp [frames, frameOf]

theorem frames_append_other (taken : List (Server σ × ServerAction)) (s : Server σ)
    (h : ∀ raw, a ≠ .message socket raw) :
    frames socket (taken ++ [(s, a)]) = frames socket taken := by
  have none : frameOf socket (s, a) = none := by
    rw [Option.eq_none_iff_forall_ne_some]
    intro f found
    exact h f.2 (congrArg Prod.snd (frameOf_eq_some found))
  simp [frames, none]

/-- A frame is that of a step, and those before it are the frames of the steps before. -/
theorem frames_split {taken : List (Server σ × ServerAction)}
    {before after : List (Server σ × Bytes)} {f : Server σ × Bytes}
    (h : frames socket taken = before ++ f :: after) :
    ∃ first rest, taken = first ++ (f.1, .message socket f.2) :: rest ∧
      frames socket first = before := by
  obtain ⟨front, back, rfl, hfront, hback⟩ := List.filterMap_eq_append_iff.mp h
  obtain ⟨skipped, p, rest, rfl, quiet, found, _⟩ := List.filterMap_eq_cons_iff.mp hback
  refine ⟨front ++ skipped, rest, ?_, ?_⟩
  · rw [frameOf_eq_some found, List.append_assoc]
  · rw [frames, List.filterMap_append, hfront, List.filterMap_eq_nil_iff.mpr quiet,
      List.append_nil]

/-- Before its close event a connection listens for a hello as long as it has had none, and
belongs to no session while it does. -/
structure Listens (opts : ServerOptions σ V) (fs : List (Server σ × Bytes)) (st : Stage) :
    Prop where
  listening_iff : st.ended = false → (st.listening = true ↔ ∀ f ∈ fs, ¬ IsHelloFrame opts f.2)
  unbound : st.listening = true → st.bound = none

theorem Listens.unread {fs : List (Server σ × Bytes)} {st : Stage} (h : Listens opts fs st)
    (unread : st.listening = false ∨ ¬ IsHelloFrame opts raw) :
    Listens opts (fs ++ [(s, raw)]) st where
  listening_iff alive := by
    rw [List.forall_mem_append, List.forall_mem_singleton, ← h.listening_iff alive]
    rcases unread with deaf | other
    · simp [deaf]
    · simp [other]
  unbound := h.unbound

/-- Once a hello has been read, the connection does not listen. -/
theorem Listens.detached {fs : List (Server σ × Bytes)} {st : Stage}
    (hello : IsHelloFrame opts raw) (deaf : st.listening = false) :
    Listens opts (fs ++ [(s, raw)]) st where
  listening_iff _ := by
    rw [List.forall_mem_append, List.forall_mem_singleton]
    simp [deaf, hello]
  unbound listening := by
    rw [deaf] at listening
    cases listening

theorem run_listens {storage : σ} {taken : List (Server σ × ServerAction)}
    {events : List ServerEvent} (run : (serverMachine opts storage).Run taken events s)
    (socket : SocketId) :
    match s.stage socket with
    | none => frames socket taken = []
    | some st => Listens opts (frames socket taken) st := by
  refine run.history_invariant (fun taken _ s => match s.stage socket with
    | none => frames socket taken = []
    | some st => Listens opts (frames socket taken) st) rfl ?_
  intro taken events s a s' emitted _ before hstep
  by_cases message : ∃ raw, a = .message socket raw
  · obtain ⟨raw, rfl⟩ := message
    rw [frames_append_message]
    obtain ⟨st, stage, _, read⟩ := step_message_stage hstep
    rw [stage] at before
    change Listens opts (frames socket taken) st at before
    rcases read with ⟨unread, same, _⟩ | ⟨_, hello, parsed, isHello, bound | bound⟩
    · rw [same]
      exact before.unread unread
    · rw [bound.2.2.1]
      exact .detached ⟨hello, parsed, isHello⟩ rfl
    · obtain ⟨_, target, stage'⟩ := bound
      rw [stage']
      exact .detached ⟨hello, parsed, isHello⟩ rfl
  · rw [frames_append_other taken s (not_exists.mp message)]
    rcases step_other_stage hstep (not_exists.mp message) with
      same | ⟨unknown, fresh⟩ | ⟨st, closed⟩
    · rw [same]
      exact before
    · rw [unknown] at before
      rw [fresh]
      exact ⟨by simp [show frames socket taken = [] from before], fun _ => rfl⟩
    · rw [closed]
      exact ⟨by simp, by simp⟩

/-- The frame makes the socket a participant of a session, or is announced as doing so. -/
def Admits (s s' : Server σ) (emitted : List ServerEvent) (socket : SocketId) : Prop :=
  (∃ event, .sessionReady event ∈ emitted ∧ event.socket = socket) ∨
    s'.bound socket ≠ s.bound socket

theorem not_admits (quiet : ∀ event, .sessionReady event ∉ emitted)
    (same : s'.bound socket = s.bound socket) : ¬ Admits s s' emitted socket := by
  rintro (⟨event, ready, _⟩ | changed)
  · exact quiet event ready
  · exact changed same

/-- Which frames of a run are admitted, in terms of the frames alone and of the sessions. -/
theorem run_admits_iff {storage : σ} {taken : List (Server σ × ServerAction)}
    {events : List ServerEvent} (run : (serverMachine opts storage).Run taken events s)
    {before after : List (Server σ × Bytes)} {f : Server σ × Bytes}
    (split : frames socket taken = before ++ f :: after)
    (hstep : Server.step opts f.1 (.message socket f.2) = some (s', emitted)) :
    Admits f.1 s' emitted socket ↔ (∀ g ∈ before, ¬ IsHelloFrame opts g.2) ∧
      ∃ hello, opts.parse f.2 = some hello ∧ IsHello hello ∧
        (LacksKeyId hello → FindsSession f.1 hello) := by
  obtain ⟨first, rest, rfl, rfl⟩ := frames_split split
  obtain ⟨_, front⟩ := run.before rfl
  obtain ⟨st, stage, alive, read⟩ := step_message_stage hstep
  have listens := run_listens front socket
  rw [stage] at listens
  change Listens opts (frames socket first) st at listens
  have was : f.1.bound socket = st.bound := by simp [Server.bound, stage]
  rw [← listens.listening_iff alive]
  rcases read with ⟨unread, same, quiet⟩ | ⟨listening, hello, parsed, isHello, bound | bound⟩
  · refine iff_of_false (not_admits quiet (by rw [was, Server.bound, same]; rfl)) ?_
    rintro ⟨listening, hello, parsed, isHello, _⟩
    rcases unread with deaf | other
    · rw [deaf] at listening
      cases listening
    · exact other ⟨hello, parsed, isHello⟩
  · obtain ⟨lacks, lost, same, quiet⟩ := bound
    refine iff_of_false (not_admits quiet (by rw [was, Server.bound, same]; rfl)) ?_
    rintro ⟨_, hello', parsed', _, finds⟩
    obtain rfl := Option.some.inj (parsed.symm.trans parsed')
    exact lost (finds lacks)
  · obtain ⟨finds, target, now⟩ := bound
    refine iff_of_true (.inr ?_) ⟨listening, hello, parsed, isHello, finds⟩
    rw [was, listens.unbound listening, Server.bound, now]
    simp

/-! ## Rejections -/

/-- The handler takes the device of this frame in. -/
def IsValidHello (opts : ServerOptions σ V) (raw : Bytes) : Prop :=
  ∃ hello, opts.parse raw = some hello ∧ IsHello hello ∧ ¬ LacksKeyId hello

/-- A connection whose first frame was refused stays out, and one that is in does not read a
frame as a handshake. -/
structure HandshakeFinal (opts : ServerOptions σ V) (socket : SocketId)
    (fs : List (Server σ × Bytes)) : Prop where
  rejected : ∀ first rest, fs = first :: rest → ¬ IsValidHello opts first.2 →
    ∀ f ∈ rest, ∀ s' emitted, Server.step opts f.1 (.message socket f.2) = some (s', emitted) →
      ¬ Admits f.1 s' emitted socket
  registered : ∀ before f after, fs = before ++ f :: after →
    (∃ g ∈ before, ∃ s' emitted, Server.step opts g.1 (.message socket g.2) = some (s', emitted) ∧
      Admits g.1 s' emitted socket) →
    ∀ c, f.1.connections socket = some c → c.listening = false

/-- The first hello of the connection is its first frame; or it lacks its keyId, and the session
id is that of no session. -/
def HelloFirst (opts : ServerOptions σ V) (fs : List (Server σ × Bytes)) : Prop :=
  ∀ before f after hello, fs = before ++ f :: after → before ≠ [] →
    (∀ g ∈ before, ¬ IsHelloFrame opts g.2) → opts.parse f.2 = some hello → IsHello hello →
    LacksKeyId hello ∧ ¬ FindsSession f.1 hello

section Runs

variable {storage : σ} {taken : List (Server σ × ServerAction)} {events : List ServerEvent}
  {before after : List (Server σ × Bytes)} {f : Server σ × Bytes}

theorem run_frame (run : (serverMachine opts storage).Run taken events s)
    (split : frames socket taken = before ++ f :: after) :
    ∃ s' emitted, Server.step opts f.1 (.message socket f.2) = some (s', emitted) := by
  obtain ⟨first, rest, rfl, _⟩ := frames_split split
  obtain ⟨⟨s', emitted⟩, hstep⟩ :=
    run.step_of_mem (List.mem_append_right first List.mem_cons_self)
  exact ⟨s', emitted, hstep⟩

/-- After a hello the handshake listener is gone. -/
theorem run_detached (run : (serverMachine opts storage).Run taken events s)
    (split : frames socket taken = before ++ f :: after)
    (hello : ∃ g ∈ before, IsHelloFrame opts g.2) {c : Connection}
    (known : f.1.connections socket = some c) : c.listening = false := by
  obtain ⟨s', emitted, hstep⟩ := run_frame run split
  obtain ⟨st, stage, alive, _⟩ := step_message_stage hstep
  obtain ⟨first, rest, rfl, rfl⟩ := frames_split split
  obtain ⟨_, front⟩ := run.before rfl
  have listens := run_listens front socket
  rw [stage] at listens
  change Listens opts (frames socket first) st at listens
  obtain rfl : c.stage = st := by simpa [Server.stage, known] using stage
  obtain ⟨g, mem, isHello⟩ := hello
  refine eq_false_of_ne_true fun listening => ?_
  exact (listens.listening_iff alive).mp listening g mem isHello

/-- The frames of a connection on which a rejection is final, over every run of the server. -/
theorem rejection_final_iff (run : (serverMachine opts storage).Run taken events s)
    (socket : SocketId) :
    HandshakeFinal opts socket (frames socket taken) ↔ HelloFirst opts (frames socket taken) := by
  constructor
  · intro final before f after hello split nonempty none parsed isHello
    by_contra taken_in
    obtain ⟨s', emitted, hstep⟩ := run_frame run split
    obtain ⟨first, rest, rfl⟩ := List.exists_cons_of_ne_nil nonempty
    have refused : ¬ IsValidHello opts first.2 := by
      rintro ⟨hello', parsed', isHello', _⟩
      exact none first List.mem_cons_self ⟨hello', parsed', isHello'⟩
    refine final.rejected first (rest ++ f :: after) split refused f
      (List.mem_append_right rest List.mem_cons_self) s' emitted hstep ?_
    refine (run_admits_iff run split hstep).mpr ⟨none, hello, parsed, isHello, fun lacks => ?_⟩
    by_contra lost
    exact taken_in ⟨lacks, lost⟩
  · intro helloFirst
    constructor
    · intro first rest fs _ f mem s' emitted hstep admits
      obtain ⟨front, back, rfl⟩ := List.append_of_mem mem
      obtain ⟨none, hello, parsed, isHello, finds⟩ :=
        (run_admits_iff run (show _ = (first :: front) ++ _ :: back from fs) hstep).mp admits
      obtain ⟨lacks, lost⟩ := helloFirst (first :: front) f back hello fs (by simp) none parsed
        isHello
      exact lost (finds lacks)
    · rintro before f after split ⟨g, mem, s', emitted, hstep, admits⟩ c known
      obtain ⟨front, back, rfl⟩ := List.append_of_mem mem
      have earlier : frames socket taken = front ++ g :: (back ++ f :: after) := by
        rw [split, List.append_assoc, List.cons_append]
      obtain ⟨_, hello, parsed, isHello, _⟩ := (run_admits_iff run earlier hstep).mp admits
      exact run_detached run split ⟨g, mem, hello, parsed, isHello⟩ known

end Runs

/-- An empty frame is rejected, and the hello after it is not. -/
theorem rejected_connection_registers :
    ¬ ∀ taken events s, (serverMachine sampleServerOptions .new).Run taken events s →
      ∀ socket, HandshakeFinal sampleServerOptions socket (frames socket taken) := by
  intro final
  have connected := (Transition.Machine.Run.start
    (M := serverMachine sampleServerOptions .new)).next
    (show (serverMachine sampleServerOptions .new).step _ (.connection 0) = some _ from rfl)
  have rejected := connected.next
    (show (serverMachine sampleServerOptions .new).step _ (.message 0 []) = some _ from rfl)
  have greeted := rejected.next
    (show (serverMachine sampleServerOptions .new).step _ (.message 0 sampleHelloText) = some _
      from rfl)
  refine (final _ _ _ greeted 0).rejected _ _ rfl ?_ _ (List.mem_singleton_self _) _ _ rfl ?_
  · rintro ⟨hello, parsed, _⟩
    cases parsed
  · exact .inl ⟨_, List.mem_append_right [_] (List.mem_singleton_self _), rfl⟩

/-- A device that says hello first. -/
theorem rejection_final_iff_hello :
    ∃ taken events s, (serverMachine sampleServerOptions .new).Run taken events s ∧
      (frames 0 taken).length = 2 ∧ HandshakeFinal sampleServerOptions 0 (frames 0 taken) := by
  have connected := (Transition.Machine.Run.start
    (M := serverMachine sampleServerOptions .new)).next
    (show (serverMachine sampleServerOptions .new).step _ (.connection 0) = some _ from rfl)
  have greeted := connected.next
    (show (serverMachine sampleServerOptions .new).step _ (.message 0 sampleHelloText) = some _
      from rfl)
  have again := greeted.next
    (show (serverMachine sampleServerOptions .new).step _ (.message 0 sampleHelloText) = some _
      from rfl)
  refine ⟨_, _, _, again, rfl, (rejection_final_iff again 0).mpr ?_⟩
  have isHello : IsHelloFrame sampleServerOptions sampleHelloText :=
    ⟨sampleHello, rfl, rfl, rfl, rfl⟩
  intro before f after hello split nonempty none
  obtain ⟨first, rest, rfl⟩ := List.exists_cons_of_ne_nil nonempty
  obtain rfl := (List.cons.inj split).1
  exact absurd isHello (none _ List.mem_cons_self)

end MaanyMpc
