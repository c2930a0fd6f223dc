import MaanyMpc.Session.Program
import MaanyMpc.Library.Transition

/-! # AsyncSession

One action is one critical section of the worker thread or of the caller, or a
notification made outside the lock. A thread waiting on a condition variable is
`parked`; a notification, or a spurious wake-up, lets it look at its condition again. -/

namespace MaanyMpc

inductive StepState where
  | continue
  | done
  deriving DecidableEq, Repr

structure StepOutput where
  state : StepState
  outbound : Option Bytes
  deriving DecidableEq, Repr

/-- What `StartWorker` is given: the protocol at once, or, in a signing session, the
protocol for the message that `SetMessage` will supply. -/
inductive Worker (α : Type) where
  | protocol (program : Program (WorkerExit α))
  | awaitMessage (sign : Bytes → Program (WorkerExit α))

/-- What a derived class adds to `AsyncSession`: its worker, and `Finalize` as a function
of the requested format and the published value. -/
structure SessionImpl (α φ β : Type) where
  worker : Worker α
  finalize : φ → Option α → Except Error β × Option α

inductive WorkerPc (α : Type) where
  /-- about to test the predicate of `message_cv_.wait` -/
  | awaitMessage
  | parkedMessage
  | running (program : Program (WorkerExit α))
  /-- `OnSend` has left its section and not notified yet -/
  | sent (next : Program (WorkerExit α))
  | parkedReceive (next : Option Bytes → Program (WorkerExit α))
  | wokenReceive (next : Option Bytes → Program (WorkerExit α))
  /-- the result is stored and its notification is pending -/
  | leaving
  | returned
  /-- `worker_done_` is set and its notification is pending -/
  | doneSet
  | exited
  /-- it has come to a member that is destroyed, and what it does is undefined -/
  | lost

inductive CallerPc (φ : Type) where
  | idle
  | stepEntered (inbound : Option Bytes)
  | stepPushing (inbound : Bytes) (waitSnapshot : UInt64)
  | stepLoop (waitSnapshot : UInt64)
  | parkedStep (waitSnapshot : UInt64)
  | ensuring (fmt : φ)
  | parkedEnsure (fmt : φ)
  | finalizing (fmt : φ)
  /-- the members of the derived class are destroyed, and `~AsyncSession` has not begun -/
  | destroying
  | joining
  | destroyed

structure State (α φ : Type) where
  worker : WorkerPc α
  caller : CallerPc φ
  workerDone : Bool
  aborted : Bool
  waitingForInbound : Bool
  inboundQueue : List Bytes
  outbound : Option Bytes
  fatal : Option Error
  waitRequestId : UInt64
  message : Bytes
  messageReady : Bool
  /-- the key or signature while its ready flag is set -/
  ready : Option α

inductive Action (φ : Type) where
  | worker
  | caller
  | wakeWorker
  | wakeCaller
  | step (inbound : Option Bytes)
  | finalize (fmt : φ)
  | setMessage (msg : Option Bytes)
  | destroy

inductive Event (β : Type) where
  | sent (msg : Bytes)
  | received (msg : Bytes)
  | supplied (msg : Bytes)
  | stepReturned (out : StepOutput)
  /-- a Step that throws the stored worker failure -/
  | stepThrew (err : Error)
  | finalizeReturned (value : β)
  /-- a Finalize that throws the stored worker failure -/
  | finalizeThrew (err : Error)
  /-- a Finalize that throws an error of its own -/
  | finalizeRefused (err : Error)
  | messageAccepted (msg : Bytes)
  | messageRefused (err : Error)
  /-- the worker hands this message to the signing protocol -/
  | signStarted (msg : Bytes)

variable {α φ β : Type}

/-- Where the worker thread starts. -/
def Worker.entry : Worker α → WorkerPc α
  | .protocol program => .running program
  | .awaitMessage _ => .awaitMessage

/-- The effect of `cv_.notify_all()` on the worker. -/
def WorkerPc.notified : WorkerPc α → WorkerPc α
  | .parkedReceive next => .wokenReceive next
  | pc => pc

/-- The effect of `message_cv_.notify_all()`. -/
def WorkerPc.messageNotified : WorkerPc α → WorkerPc α
  | .parkedMessage => .awaitMessage
  | pc => pc

def CallerPc.notified : CallerPc φ → CallerPc φ
  | .parkedStep waitSnapshot => .stepLoop waitSnapshot
  | .parkedEnsure fmt => .ensuring fmt
  | pc => pc

namespace State

/-- `cv_.notify_all()`. -/
def notifyAll (s : State α φ) : State α φ :=
  { s with worker := s.worker.notified, caller := s.caller.notified }

def onSend (s : State α φ) (msg : Bytes) (next : Program (WorkerExit α)) :
    State α φ × List (Event β) :=
  ({ s with outbound := some (toMem msg), worker := .sent next }, [.sent (toMem msg)])

/-- `cv_.wait` in `OnReceive`, from the test of its predicate to the return. -/
def awaitInbound (s : State α φ) (next : Option Bytes → Program (WorkerExit α)) :
    State α φ × List (Event β) :=
  match s.fatal, s.aborted, s.inboundQueue with
  | none, false, [] => ({ s with worker := .parkedReceive next }, [])
  | none, false, msg :: rest =>
    ({ s with inboundQueue := rest, waitingForInbound := false,
              worker := .running (next (some (toMem msg))) }, [.received (toMem msg)])
  | _, _, _ => ({ s with worker := .running (next none) }, [])

def onReceive (s : State α φ) (next : Option Bytes → Program (WorkerExit α)) :
    State α φ × List (Event β) :=
  awaitInbound
    (notifyAll { s with waitingForInbound := true, waitRequestId := s.waitRequestId + 1 }) next

/-- `Fail`, after which the worker function returns. -/
def fail (s : State α φ) (err : Error) : State α φ :=
  notifyAll { s with fatal := s.fatal.or (some err), aborted := true, worker := .returned }

def finish (s : State α φ) : WorkerExit α → State α φ
  | .publish value => { s with ready := some value, worker := .leaving }
  | .fail err => s.fail err
  | .quiet => { s with worker := .leaving }

/-- `message_cv_.wait` in `SignSessionImpl::Worker` and the pick-up of the message. -/
def takeMessage (s : State α φ) (sign : Bytes → Program (WorkerExit α)) :
    State α φ × List (Event β) :=
  if s.messageReady then
    ({ s with message := [], messageReady := false,
              worker := .running (sign (toMem s.message)) }, [.signStarted (toMem s.message)])
  else if s.fatal.isSome || s.aborted then ({ s with worker := .returned }, [])
  else ({ s with worker := .parkedMessage }, [])

def workerStep (impl : SessionImpl α φ β) (s : State α φ) :
    Option (State α φ × List (Event β)) :=
  match s.worker with
  | .awaitMessage =>
    match impl.worker with
    | .protocol _ => none
    | .awaitMessage sign => some (s.takeMessage sign)
  | .running (.finish exit) => some (s.finish exit, [])
  | .running (.send msg next) => some (s.onSend msg next)
  | .running (.receive next) => some (s.onReceive next)
  | .sent next => some (notifyAll { s with worker := .running next }, [])
  | .wokenReceive next => some (s.awaitInbound next)
  | .leaving => some (notifyAll { s with worker := .returned }, [])
  | .returned => some ({ s with workerDone := true, worker := .doneSet }, [])
  | .doneSet => some (notifyAll { s with worker := .exited }, [])
  | .parkedMessage | .parkedReceive _ | .exited | .lost => none

/-- The loop body of `AwaitStep`. -/
def awaitStep (s : State α φ) (waitSnapshot : UInt64) : State α φ × List (Event β) :=
  match s.fatal with
  | some err => ({ s with caller := .idle }, [.stepThrew err])
  | none =>
    match s.outbound with
    | some data =>
      ({ s with outbound := none, caller := .idle },
        [.stepReturned ⟨if s.workerDone then .done else .continue, some data⟩])
    | none =>
      if s.workerDone then ({ s with caller := .idle }, [.stepReturned ⟨.done, none⟩])
      else if s.waitingForInbound && decide (waitSnapshot < s.waitRequestId) then
        ({ s with caller := .idle }, [.stepReturned ⟨.continue, none⟩])
      else ({ s with caller := .parkedStep waitSnapshot }, [])

def ensureWorkerFinished (s : State α φ) (fmt : φ) : State α φ × List (Event β) :=
  match s.fatal with
  | some err => ({ s with caller := .idle }, [.finalizeThrew err])
  | none =>
    if s.workerDone then ({ s with caller := .finalizing fmt }, [])
    else ({ s with caller := .parkedEnsure fmt }, [])

/-- The part of `Finalize` after `EnsureWorkerFinished`. -/
def finalize (impl : SessionImpl α φ β) (s : State α φ) (fmt : φ) :
    State α φ × List (Event β) :=
  ({ s with ready := (impl.finalize fmt s.ready).2, caller := .idle },
    [match (impl.finalize fmt s.ready).1 with
      | .ok value => .finalizeReturned value
      | .error err => .finalizeRefused err])

/-- An empty inbound message is queued like any other. -/
def pushInbound (s : State α φ) (msg : Bytes) (waitSnapshot : UInt64) : State α φ :=
  notifyAll { s with inboundQueue := s.inboundQueue ++ [msg], caller := .stepLoop waitSnapshot }

/-- `~AsyncSession` up to the join. -/
def abort (s : State α φ) : State α φ :=
  notifyAll { s with aborted := true, caller := .joining }

def callerStep (impl : SessionImpl α φ β) (s : State α φ) :
    Option (State α φ × List (Event β)) :=
  match s.caller with
  | .stepEntered none => some ({ s with caller := .stepLoop s.waitRequestId }, [])
  | .stepEntered (some msg) =>
    some ({ s with caller := .stepPushing msg s.waitRequestId }, [])
  | .stepPushing msg waitSnapshot => some (s.pushInbound msg waitSnapshot, [.supplied msg])
  | .stepLoop waitSnapshot => some (s.awaitStep waitSnapshot)
  | .ensuring fmt => some (s.ensureWorkerFinished fmt)
  | .finalizing fmt => some (s.finalize impl fmt)
  | .destroying => some (s.abort, [])
  | .joining =>
    match s.worker with
    | .exited => some ({ s with caller := .destroyed }, [])
    | _ => none
  | .idle | .parkedStep _ | .parkedEnsure _ | .destroyed => none

def setMessage (s : State α φ) : Option Bytes → State α φ × List (Event β)
  | none | some [] => (s, [.messageRefused ⟨.invalidArgument, "message required"⟩])
  | some msg =>
    if s.messageReady then (s, [.messageRefused ⟨.protocolState, "message already set"⟩])
    else
      ({ s with message := msg, messageReady := true,
                worker := s.worker.messageNotified }, [.messageAccepted msg])

/-- The destructor of the derived class, whose members go before `~AsyncSession` begins. -/
def destroy (s : State α φ) : State α φ := { s with caller := .destroying }

def wakeWorker (s : State α φ) : Option (State α φ) :=
  match s.worker with
  | .parkedReceive next => some { s with worker := .wokenReceive next }
  | .parkedMessage => some { s with worker := .awaitMessage }
  | _ => none

def wakeCaller (s : State α φ) : Option (State α φ) :=
  match s.caller with
  | .parkedStep waitSnapshot => some { s with caller := .stepLoop waitSnapshot }
  | .parkedEnsure fmt => some { s with caller := .ensuring fmt }
  | _ => none

/-- The owner has started to free the session. -/
def freed (s : State α φ) : Bool :=
  match s.caller with
  | .destroying | .joining | .destroyed => true
  | _ => false

end State

/-- The next thing the worker comes to is a member of the derived class: the job, the message with
its mutex, or the place for the result. -/
def WorkerPc.needsMembers : WorkerPc α → Bool
  | .awaitMessage | .running (.send _ _) | .running (.receive _)
  | .running (.finish (.publish _)) => true
  | _ => false

def SessionImpl.init (impl : SessionImpl α φ β) : State α φ where
  worker := impl.worker.entry
  caller := .idle
  workerDone := false
  aborted := false
  waitingForInbound := false
  inboundQueue := []
  outbound := none
  fatal := none
  waitRequestId := 0
  message := []
  messageReady := false
  ready := none

/-- The two threads. The caller issues one call at a time; `SetMessage` has a mutex of its
own and may come from any thread while the session lives. -/
def SessionImpl.step (impl : SessionImpl α φ β) (s : State α φ) :
    Action φ → Option (State α φ × List (Event β))
  | .worker =>
    if s.freed && s.worker.needsMembers then some ({ s with worker := .lost }, [])
    else s.workerStep impl
  | .caller => s.callerStep impl
  | .wakeWorker => s.wakeWorker.map (·, [])
  | .wakeCaller => s.wakeCaller.map (·, [])
  | .step inbound =>
    match s.caller with
    | .idle => some ({ s with caller := .stepEntered inbound }, [])
    | _ => none
  | .finalize fmt =>
    match s.caller with
    | .idle => some ({ s with caller := .ensuring fmt }, [])
    | _ => none
  | .setMessage msg =>
    match impl.worker with
    | .protocol _ => none
    | .awaitMessage _ => if s.freed then none else some (s.setMessage msg)
  | .destroy =>
    match s.caller with
    | .idle => some (s.destroy, [])
    | _ => none

/-- A session as a machine. -/
def SessionImpl.machine (impl : SessionImpl α φ β) :
    Transition.Machine (State α φ) (Action φ) (Event β) where
  init := impl.init
  step := impl.step

end MaanyMpc
