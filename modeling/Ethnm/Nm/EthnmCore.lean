import Ethnm.Library.Runs
import Ethnm.Memory

/-! Network management: `EthnmCore`, its two worker threads, the thread that called `Start`,
and a thread that deletes the object. Each statement that touches shared data is one step.
-/

namespace Ethnm.Nm

def BUFSIZE : Int := 512

/-- `nm_state_t`. -/
inductive NmState
  | initState
  | wakeUp
  | preapreSleep
  | repeatMessage
  | normalOp
  | readySleep
  | sleepBus
  | errorState
  deriving DecidableEq, Repr

/-- The `int` that an enumerator converts to. -/
def NmState.code : NmState → Int
  | .initState => 0
  | .wakeUp => 1
  | .preapreSleep => 2
  | .repeatMessage => 3
  | .normalOp => 4
  | .readySleep => 5
  | .sleepBus => 6
  | .errorState => 7

theorem NmState.code_inj {left right : NmState} : left.code = right.code ↔ left = right := by
  cases left <;> cases right <;> decide

inductive Worker
  | network
  | stateManager
  deriving DecidableEq, Repr

inductive Thread
  | main
  | application
  | worker (worker : Worker)
  deriving DecidableEq, Repr

/-- What a `pthread_t *` of the object points to: nothing, storage in which no thread was
stored yet, or a thread.
-/
inductive Tid
  | null
  | zeroed
  | created (thread : Worker)
  deriving DecidableEq, Repr

structure EthnmCore where
  stateVar : Int
  preStateVar : Int
  tidNetwork : Tid
  tidStatemanager : Tid
  deriving DecidableEq, Repr

namespace EthnmCore

/-- The handle that is named after a worker. -/
def tid (core : EthnmCore) : Worker → Tid
  | .network => core.tidNetwork
  | .stateManager => core.tidStatemanager

/-- `GetNmState` takes over a value that is one of the states. -/
def getNmState (stat : Int) (core : EthnmCore) : EthnmCore :=
  if stat = NmState.initState.code then
    { core with stateVar := NmState.initState.code }
  else if stat = NmState.wakeUp.code then
    { core with stateVar := NmState.wakeUp.code }
  else if stat = NmState.preapreSleep.code then
    { core with stateVar := NmState.preapreSleep.code }
  else if stat = NmState.repeatMessage.code then
    { core with stateVar := NmState.repeatMessage.code }
  else if stat = NmState.normalOp.code then
    { core with stateVar := NmState.normalOp.code }
  else if stat = NmState.readySleep.code then
    { core with stateVar := NmState.readySleep.code }
  else if stat = NmState.sleepBus.code then
    { core with stateVar := NmState.sleepBus.code }
  else if stat = NmState.errorState.code then
    { core with stateVar := NmState.errorState.code }
  else
    core

end EthnmCore

-----------------------------------------------------------------------------------------
-- Where the threads are
-----------------------------------------------------------------------------------------

/-- A statement of `StopThread`. A `joining` thread is inside `pthread_join`, for the thread
that the handle referred to when the call was made.
-/
inductive StopThread
  | test
  | cancel (handle : Worker)
  | join (handle : Worker)
  | joining (handle thread : Worker)
  | freeNetwork
  | clearStatemanager
  deriving DecidableEq, Repr

/-- What a pending call does next: `Stop` before its two statements, `~EthnmCore` before its
only one, a `delete` that releases the storage after the destructor, or `StopThread`.
-/
inductive Frame
  | stop
  | deleteThis
  | destructor
  | release
  | stopThread (statement : StopThread)
  deriving DecidableEq, Repr

/-- The statement that `EthNmThread` executes next. -/
inductive NetworkThread
  | absent
  | testRepeatMessage
  | testNormalOp
  | sendMulticast
  | recieveMulticast
  | getNmState
  | finished
  deriving DecidableEq, Repr

/-- The statement of `SetNmState` that `StateManagerThread` executes next, or the calls that
are pending in `Stop`.
-/
inductive StateManagerThread
  | absent
  | compare
  | remember
  | dispatch
  | stopping (frames : List Frame)
  | finished
  deriving DecidableEq, Repr

/-- The statement of `Start` and `StartThread` that is executed next. -/
inductive MainThread
  | openSockets
  | setWakeUp
  | create (handle : Worker)
  | join (handle : Worker)
  | joining (handle thread : Worker)
  | returned
  deriving DecidableEq, Repr

/-- `application` are the pending calls of a thread that deletes the object. `joins` are the
calls of `pthread_join`, `freed` the handles that were freed.
-/
structure System where
  core : EthnmCore
  main : MainThread
  network : NetworkThread
  stateManager : StateManagerThread
  application : List Frame
  cancelled : List Worker
  joins : List (Thread × Worker)
  freed : List Worker
  destructions : Nat
  deallocations : Nat
  exited : Bool
  deriving DecidableEq, Repr

/-- Why a step is not taken: the thread has none now, or the step is undefined. -/
inductive Halt
  | disabled
  | fault (fault : Fault)
  deriving DecidableEq, Repr

/-- The constructor, before a call of `Start`. -/
def construct (stateVar preStateVar : Int) : System :=
  {
    core := { stateVar, preStateVar, tidNetwork := .zeroed, tidStatemanager := .zeroed }
    main := .openSockets
    network := .absent
    stateManager := .absent
    application := []
    cancelled := []
    joins := []
    freed := []
    destructions := 0
    deallocations := 0
    exited := false
  }

namespace System

/-- The object, if its storage was not released. -/
def object (system : System) : Except Halt EthnmCore :=
  if system.deallocations = 0 then .ok system.core else .error (.fault .useAfterFree)

/-- The thread that a handle refers to. -/
def thread (handle : Worker) (system : System) : Except Halt Worker := do
  let core ← system.object
  match core.tid handle with
  | .null => .error (.fault .nullPointer)
  | .zeroed => .error (.fault .noThread)
  | .created thread =>
      if handle ∈ system.freed then .error (.fault .useAfterFree) else .ok thread

def hasFinished (system : System) : Worker → Bool
  | .network => system.network = .finished
  | .stateManager => system.stateManager = .finished

/-- A thread ends at its next cancellation point. -/
def isCancelled (system : System) : Thread → Bool
  | .worker worker => worker ∈ system.cancelled
  | _ => false

end System

-----------------------------------------------------------------------------------------
-- Steps
-----------------------------------------------------------------------------------------

/-- The next statement of `StopThread`, called by `self` with `rest` pending. The result has
no frames when the thread ends.
-/
def stopThreadStep (self : Thread) (statement : StopThread) (rest : List Frame)
    (system : System)
    : Except Halt (Option (List Frame) × System) :=
  match statement with
  | .test => do
      let core ← system.object
      if core.tidNetwork = .null ∨ core.tidStatemanager = .null then
        return (some rest, system)
      else
        return (some (.stopThread (.cancel .network) :: rest), system)
  | .cancel handle => do
      let thread ← system.thread handle
      let next :=
        match handle with
        | .network => StopThread.cancel .stateManager
        | .stateManager => .join .network
      return (some (.stopThread next :: rest),
        { system with cancelled := system.cancelled ++ [thread] })
  | .join handle =>
      if system.isCancelled self then
        .ok (none, system)
      else do
        let thread ← system.thread handle
        return (some (.stopThread (.joining handle thread) :: rest),
          { system with joins := system.joins ++ [(self, thread)] })
  | .joining handle thread =>
      let next :=
        match handle with
        | .network => StopThread.join .stateManager
        | .stateManager => .freeNetwork
      if system.isCancelled self then
        .ok (none, system)
      else if system.hasFinished thread ∨ self = .worker thread then
        -- A thread that joins itself is refused, and goes on.
        .ok (some (.stopThread next :: rest), system)
      else
        .error .disabled
  | .freeNetwork =>
      .ok (some (.stopThread .clearStatemanager :: rest),
        { system with freed := system.freed ++ [.network] })
  | .clearStatemanager => do
      let core ← system.object
      return (some rest, { system with core := { core with tidStatemanager := .null } })

/-- The next step of a thread with pending calls. -/
def callStep (self : Thread) (frames : List Frame) (system : System)
    : Except Halt (Option (List Frame) × System) :=
  match frames with
  | [] => .error .disabled
  | .stop :: rest => .ok (some (.stopThread .test :: .deleteThis :: rest), system)
  | .deleteThis :: rest =>
      .ok (some (.destructor :: .release :: rest),
        { system with destructions := system.destructions + 1 })
  | .destructor :: rest => .ok (some (.stop :: rest), system)
  | .release :: rest => do
      let _ ← system.object
      return (some rest, { system with deallocations := system.deallocations + 1 })
  | .stopThread statement :: rest => stopThreadStep self statement rest system

/-- `result` is what `sendto`, `recvfrom` or `Parser` returns. -/
def networkStep (result : Int) (system : System) : Except Halt System :=
  match system.network with
  | .absent => .error .disabled
  | .finished => .error .disabled
  | .testRepeatMessage => do
      let core ← system.object
      if core.stateVar = NmState.repeatMessage.code then
        return { system with network := .sendMulticast }
      else
        return { system with network := .testNormalOp }
  | .testNormalOp => do
      let core ← system.object
      if core.stateVar = NmState.normalOp.code then
        return { system with network := .sendMulticast }
      else
        return { system with network := .testRepeatMessage }
  -- Neither loop has a way out but `error_break`.
  | .sendMulticast =>
      if system.isCancelled (.worker .network) then
        .ok { system with network := .finished }
      else if result < 0 then
        .ok { system with exited := true }
      else
        .ok system
  | .recieveMulticast =>
      if system.isCancelled (.worker .network) then
        .ok { system with network := .finished }
      else if result < 0 then
        .ok { system with exited := true }
      else if result < BUFSIZE then
        .ok system
      else
        .error (.fault .outOfRange)
  | .getNmState => do
      let core ← system.object
      return { system with core := core.getNmState result, network := .testRepeatMessage }

/-- The next statement of `SetNmState`, which `StateManagerThread` calls again and again. -/
def stateManagerStep (system : System) : Except Halt System :=
  match system.stateManager with
  | .absent => .error .disabled
  | .finished => .error .disabled
  | .compare => do
      let core ← system.object
      if core.preStateVar ≠ core.stateVar then
        return { system with stateManager := .remember }
      else
        return system
  | .remember => do
      let core ← system.object
      let core := { core with preStateVar := core.stateVar }
      return { system with core, stateManager := .dispatch }
  | .dispatch => do
      let core ← system.object
      if core.stateVar = NmState.sleepBus.code then
        return { system with stateManager := .stopping [.stop] }
      else
        return { system with stateManager := .compare }
  | .stopping frames => do
      let (frames, system) ← callStep (.worker .stateManager) frames system
      match frames with
      | none => return { system with stateManager := .finished }
      | some [] => return { system with stateManager := .compare }
      | some frames => return { system with stateManager := .stopping frames }

/-- `result` is what the system calls of `Open` or `pthread_create` return. -/
def mainStep (result : Int) (system : System) : Except Halt System :=
  match system.main with
  | .openSockets =>
      if result < 0 then
        .ok { system with exited := true }
      else
        .ok { system with main := .setWakeUp }
  | .setWakeUp => do
      let core ← system.object
      let core := { core with stateVar := NmState.wakeUp.code }
      return { system with core, main := .create .network }
  -- An error number of `pthread_create` is positive, and passes the test for less than zero.
  | .create .network => do
      let core ← system.object
      if result < 0 then
        return { system with exited := true }
      else if result = 0 then
        let core := { core with tidNetwork := .created .network }
        return { system with core, network := .testRepeatMessage, main := .create .stateManager }
      else
        return { system with main := .create .stateManager }
  | .create .stateManager => do
      let core ← system.object
      if result < 0 then
        return { system with exited := true }
      else if result = 0 then
        let core := { core with tidStatemanager := .created .stateManager }
        return { system with core, stateManager := .compare, main := .join .network }
      else
        return { system with main := .join .network }
  | .join handle => do
      let thread ← system.thread handle
      return {
        system with
        main := .joining handle thread
        joins := system.joins ++ [(.main, thread)]
      }
  | .joining handle thread =>
      if system.hasFinished thread then
        match handle with
        | .network => .ok { system with main := .join .stateManager }
        | .stateManager => .ok { system with main := .returned }
      else
        .error .disabled
  | .returned => .error .disabled

/-- The next step of the thread that deletes the object. -/
def applicationStep (system : System) : Except Halt System := do
  let (frames, system) ← callStep .application system.application system
  match frames with
  | none => .error .disabled
  | some frames => return { system with application := frames }

inductive Action
  | main (result : Int)
  | network (result : Int)
  | stateManager
  | application
  deriving DecidableEq, Repr

/-- A step of one of the two worker threads. -/
def Action.ofWorker : Action → Bool
  | .network _ | .stateManager => true
  | _ => false

def step (system : System) (action : Action) : Except Halt System :=
  if system.exited then
    .error .disabled
  else
    match action with
    | .main result => mainStep result system
    | .network result => networkStep result system
    | .stateManager => stateManagerStep system
    | .application => applicationStep system

/-- `Start`, up to the join of the first thread. -/
def startActions : List Action := List.replicate 5 (.main 0)

end Ethnm.Nm
