import MaanyMpc.Session.Relay

/-! # The handle of a session

`maany_mpc_dkg_t` and `maany_mpc_sign_t` hold a session for the caller. A call of the API checks
its pointers, enters the session, and does the rest of its work when the session has answered:
it looks for a place for the outbound message and asks `malloc_fn` for a copy, or it wraps what
`Finalize` has returned. -/

namespace MaanyMpc

open Transition

variable {α φ β : Type}

/-! ## The C API -/

/-- The arguments of `maany_mpc_dkg_step` or `maany_mpc_sign_step`, and the memory it finds. -/
structure StepArgs where
  /-- neither the context nor the handle is null -/
  pointers : Bool
  inPeerMsg : Option Buf
  /-- `out_msg` is not null -/
  outMsg : Bool
  /-- the C++ heap has room for a copy of the inbound message -/
  copyIn : Bool
  /-- `malloc_fn` succeeds if it is called -/
  malloc : Bool

/-- The arguments of `maany_mpc_dkg_finalize` or `maany_mpc_sign_finalize`. -/
structure FinalizeArgs (φ : Type) where
  /-- none of the pointers is null -/
  pointers : Bool
  fmt : φ
  malloc : Bool

/-- The argument of `Step`. Nothing if `CopyInBuffer` throws. -/
def StepArgs.inbound (call : StepArgs) : Option (Option Bytes) :=
  match stepInbound call.inPeerMsg with
  | some (some (byte :: rest)) => if call.copyIn then some (some (byte :: rest)) else none
  | inbound => inbound

/-- A step after `Step`: the status, `out_msg` and `result`. -/
def finishStep (outMsg malloc : Bool) (output : StepOutput) : MaanyMpcError × Buf × StepState :=
  match output.outbound with
  | none => (.ok, .null 0, output.state)
  | some bytes =>
    if outMsg then
      let (status, buf) := tryCopyOutBuffer malloc bytes
      if status ≠ .ok then (status, buf, .continue) else (.ok, buf, output.state)
    else (.invalidArg, .null 0, .continue)

/-- What the two finalize functions do with what `Finalize` has returned. -/
structure FinalizeWrapper (β : Type) where
  /-- the session is reset first -/
  resets : Bool
  /-- the status and what the caller gets -/
  wrap : (malloc : Bool) → β → MaanyMpcError × Option β

/-- `maany_mpc_dkg_finalize`, which allocates a handle for the keypair. -/
def dkgFinalize (β : Type) : FinalizeWrapper β where
  resets := true
  wrap malloc key := if malloc then (.ok, some key) else (.memory, none)

/-- `maany_mpc_sign_finalize`, which allocates a copy of the signature. -/
def signFinalize : FinalizeWrapper Bytes where
  resets := false
  wrap malloc sig :=
    if (tryCopyOutBuffer malloc sig).1 = .ok then (.ok, some sig) else (.memory, none)

/-! ## The machine -/

/-- A handle, with what the call in progress goes by once the session answers. -/
structure Handle (α φ : Type) where
  session : Option (State α φ)
  outMsg : Bool
  malloc : Bool

inductive HandleAction (φ : Type) where
  /-- anything in the session but the start of a call -/
  | session (action : Action φ)
  | step (call : StepArgs)
  | finalize (call : FinalizeArgs φ)

inductive HandleEvent (β : Type) where
  | session (e : Event β)
  /-- a step that gets no output: it is refused, or `Step` throws -/
  | stepRefused (status : MaanyMpcError)
  /-- a step after `Step`: the status, `out_msg` and `result` -/
  | stepReturned (status : MaanyMpcError) (outMsg : Buf) (result : StepState)
  | finalizeRefused (status : MaanyMpcError)
  | finalizeReturned (status : MaanyMpcError) (out : Option β)

namespace Handle

/-- The move of the session that an action makes. A call with bad arguments makes none. -/
def move (h : Handle α φ) : HandleAction φ → Option (State α φ × Action φ)
  | .session (.step _) | .session (.finalize _) | .session .destroy => none
  | .session action => h.session.map (·, action)
  | .step call =>
    match h.session, call.pointers, call.inbound with
    | some s, true, some inbound => some (s, .step inbound)
    | _, _, _ => none
  | .finalize call =>
    match h.session, call.pointers with
    | some s, true => some (s, .finalize call.fmt)
    | _, _ => none

/-- What a call with bad arguments returns. -/
def refusal : HandleAction φ → Option (HandleEvent β)
  | .session _ => none
  | .step _ => some (.stepRefused .invalidArg)
  | .finalize _ => some (.finalizeRefused .invalidArg)

/-- The arguments that a call leaves for later. -/
def keep (h : Handle α φ) : HandleAction φ → Handle α φ
  | .session _ => h
  | .step call => { h with outMsg := call.outMsg, malloc := call.malloc }
  | .finalize call => { h with malloc := call.malloc }

/-- The session has made a move, and the call goes on if it was answered. An exception is
translated. -/
def answered (wrapper : FinalizeWrapper β) (h : Handle α φ) (s : State α φ) :
    List (Event β) → Handle α φ × List (HandleEvent β)
  | [.stepReturned output] =>
    let (status, outMsg, result) := finishStep h.outMsg h.malloc output
    ({ h with session := some s },
      [.session (.stepReturned output), .stepReturned status outMsg result])
  | [.stepThrew err] =>
    ({ h with session := some s },
      [.session (.stepThrew err), .stepRefused (translateException (.error err))])
  | [.finalizeReturned value] =>
    let (status, out) := wrapper.wrap h.malloc value
    ({ h with session := if wrapper.resets then none else some s },
      [.session (.finalizeReturned value), .finalizeReturned status out])
  | [.finalizeThrew err] =>
    ({ h with session := some s },
      [.session (.finalizeThrew err), .finalizeRefused (translateException (.error err))])
  | [.finalizeRefused err] =>
    ({ h with session := some s },
      [.session (.finalizeRefused err), .finalizeRefused (translateException (.error err))])
  | es => ({ h with session := some s }, es.map .session)

end Handle

/-- A session behind its handle. -/
def handle (impl : SessionImpl α φ β) (wrapper : FinalizeWrapper β) :
    Machine (Handle α φ) (HandleAction φ) (HandleEvent β) where
  init := ⟨some impl.init, false, false⟩
  step h a :=
    match h.move a with
    | none => (Handle.refusal a).map fun e => (h, [e])
    | some (s, action) =>
      (impl.machine.step s action).map fun r => (h.keep a).answered wrapper r.1 r.2

/-! ## The session behind the handle -/

def HandleEvent.session? : HandleEvent β → Option (Event β)
  | .session e => some e
  | _ => none

def sessionEvents (es : List (HandleEvent β)) : List (Event β) :=
  es.filterMap HandleEvent.session?

@[simp] theorem sessionEvents_append (es fs : List (HandleEvent β)) :
    sessionEvents (es ++ fs) = sessionEvents es ++ sessionEvents fs :=
  List.filterMap_append

/-- The moves of the session. -/
def sessionMoves (taken : List (Handle α φ × HandleAction φ)) : List (State α φ × Action φ) :=
  taken.filterMap fun (h, a) => h.move a

theorem sessionMoves_append_singleton (taken : List (Handle α φ × HandleAction φ))
    (h : Handle α φ) (a : HandleAction φ) :
    sessionMoves (taken ++ [(h, a)]) = sessionMoves taken ++ (h.move a).toList := by
  cases moved : h.move a <;> simp [sessionMoves, List.filterMap_append, moved]

section Step

variable {impl : SessionImpl α φ β} {wrapper : FinalizeWrapper β} {h h' : Handle α φ}
  {a : HandleAction φ} {es emitted : List (HandleEvent β)}
  {taken : List (Handle α φ × HandleAction φ)}

theorem Handle.session_of_move {s : State α φ} {action : Action φ}
    (moved : h.move a = some (s, action)) : h.session = some s := by
  unfold Handle.move at moved
  split at moved
  · cases moved
  · cases moved
  · cases moved
  · obtain ⟨held, session, pair⟩ := Option.map_eq_some_iff.mp moved
    rw [session, (Prod.mk.inj pair).1]
  · split at moved
    next held inbound session _ _ =>
      rw [session, (Prod.mk.inj (Option.some.inj moved)).1]
    · cases moved
  · split at moved
    next held session _ => rw [session, (Prod.mk.inj (Option.some.inj moved)).1]
    · cases moved

/-- Only the caller's own thread goes on with a call. -/
theorem Handle.caller_of_move {s : State α φ} (moved : h.move a = some (s, .caller)) :
    a = .session .caller := by
  cases a with
  | session action =>
      cases action with
      | caller => rfl
      | _ => simp [Handle.move] at moved
  | step call =>
      simp only [Handle.move] at moved
      split at moved <;> simp at moved
  | finalize call =>
      simp only [Handle.move] at moved
      split at moved <;> simp at moved

/-- What a step of a handle consists of. -/
inductive HandleStep (impl : SessionImpl α φ β) (wrapper : FinalizeWrapper β) (h : Handle α φ)
    (a : HandleAction φ) (h' : Handle α φ) (emitted : List (HandleEvent β)) : Prop where
  | refused (still : h.move a = none) (e : HandleEvent β) (refusal : Handle.refusal a = some e)
      (same : h' = h) (events : emitted = [e])
  | moved (s : State α φ) (action : Action φ) (s' : State α φ) (es : List (Event β))
      (move : h.move a = some (s, action)) (held : h.session = some s)
      (step : Step impl s action s' es)
      (state : h' = ((h.keep a).answered wrapper s' es).1)
      (events : emitted = ((h.keep a).answered wrapper s' es).2)

theorem handle_step_cases (hstep : (handle impl wrapper).step h a = some (h', emitted)) :
    HandleStep impl wrapper h a h' emitted := by
  simp only [handle] at hstep
  split at hstep
  next still =>
    obtain ⟨e, refusal, result⟩ := Option.map_eq_some_iff.mp hstep
    obtain ⟨rfl, rfl⟩ := Prod.mk.inj result
    exact .refused still e refusal rfl rfl
  next s action moved =>
    obtain ⟨⟨s', es⟩, stepped, result⟩ := Option.map_eq_some_iff.mp hstep
    exact .moved s action s' es moved (Handle.session_of_move moved) ((step_iff ..).mp stepped)
      (congrArg Prod.fst result).symm (congrArg Prod.snd result).symm

theorem handle_moves {s s' : State α φ} {action : Action φ} {es : List (Event β)}
    (move : h.move a = some (s, action)) (step : Step impl s action s' es) :
    (handle impl wrapper).step h a = some ((h.keep a).answered wrapper s' es) := by
  have stepped : impl.machine.step s action = some (s', es) := (step_iff ..).mpr step
  simp only [handle, move, stepped, Option.map_some]

/-- The caller's thread goes on. -/
theorem handle_caller {s s' : State α φ} {es : List (Event β)} (held : h.session = some s)
    (step : Step impl s .caller s' es) :
    (handle impl wrapper).step h (.session .caller) = some (h.answered wrapper s' es) :=
  handle_moves (by simp [Handle.move, held]) step

/-- The sections of a finalize call until the session turns to its own `Finalize`. -/
theorem Handle.enters_finalize {s : State α φ} {call : FinalizeArgs φ}
    (held : h.session = some s) (pointers : call.pointers = true) (idle : s.caller = .idle)
    (alive : s.fatal = none) (done : s.workerDone = true) {rest : List (HandleAction φ)}
    {r : List (HandleEvent β) × Handle α φ}
    (after : (handle impl wrapper).trace (fun _ _ => True)
      ⟨some { s with caller := .finalizing call.fmt }, h.outMsg, call.malloc⟩ rest = some r) :
    (handle impl wrapper).trace (fun _ _ => True) h
      (.finalize call :: .session .caller :: rest) = some r := by
  have move : h.move (.finalize call) = some (s, .finalize call.fmt) := by
    simp [Handle.move, held, pointers]
  have called : (handle impl wrapper).step h (.finalize call) =
      some (⟨some { s with caller := .ensuring call.fmt }, h.outMsg, call.malloc⟩, []) :=
    handle_moves move (.finalizeCalled idle)
  have ensured : (handle impl wrapper).step
      ⟨some { s with caller := .ensuring call.fmt }, h.outMsg, call.malloc⟩ (.session .caller) =
      some (⟨some { s with caller := .finalizing call.fmt }, h.outMsg, call.malloc⟩, []) :=
    handle_caller rfl (.ensurePassed (s := { s with caller := .ensuring call.fmt }) rfl alive done)
  exact Machine.trace_cons trivial called (Machine.trace_cons trivial ensured after)

theorem Handle.sessionEvents_answered (h : Handle α φ) (s : State α φ) (es : List (Event β)) :
    sessionEvents (h.answered wrapper s es).2 = es := by
  unfold Handle.answered
  split
  · rfl
  · rfl
  · rfl
  · rfl
  · rfl
  · simp [sessionEvents, List.filterMap_map, Function.comp_def, HandleEvent.session?]

theorem Handle.session_answered (h : Handle α φ) (s held : State α φ) (es : List (Event β))
    (session : (h.answered wrapper s es).1.session = some held) : held = s := by
  unfold Handle.answered at session
  split at session
  case h_3 =>
    dsimp only at session
    split_ifs at session
    exact (Option.some.inj session).symm
  all_goals exact (Option.some.inj session).symm

/-- Behind its handle a session is on a run of its own, as long as it is there. -/
theorem run_session (run : (handle impl wrapper).Run taken es h) :
    ∃ s, impl.machine.Run (sessionMoves taken) (sessionEvents es) s ∧
      ∀ held, h.session = some held → held = s := by
  induction run with
  | start => exact ⟨impl.init, .start, fun held session => (Option.some.inj session).symm⟩
  | @next taken es h a h' emitted _ hstep ih =>
      obtain ⟨s, run, same⟩ := ih
      rw [sessionMoves_append_singleton, sessionEvents_append]
      cases handle_step_cases hstep with
      | refused still e refusal unchanged events =>
          subst unchanged events
          have silent : sessionEvents [e] = [] := by
            cases a <;> cases refusal <;> rfl
          rw [still, silent, Option.toList_none, List.append_nil, List.append_nil]
          exact ⟨s, run, same⟩
      | moved t action t' fs move held step state events =>
          obtain rfl := same t held
          rw [state, events, move, Option.toList_some, Handle.sessionEvents_answered]
          exact ⟨t', run.next ((step_iff ..).mpr step),
            fun held session => Handle.session_answered _ _ _ _ session⟩

end Step

end MaanyMpc
