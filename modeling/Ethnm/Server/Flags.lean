import Ethnm.Server.Effects

/-! The flags of the server, against the threads and the client services that they stand for.
Each statement of the main thread keeps the balance, once what its call has still to do is
counted in.
-/

namespace Ethnm
open Runs

section FlagWords

variable {word bit other : BitVec 32}

/-- One for a flag that is clear, as a number of threads. -/
def clear (bit word : BitVec 32) : Int :=
  if word &&& bit = 0#32 then 1 else 0

@[simp]
theorem clear_or_self (nonzero : bit ≠ 0#32) : clear bit (word ||| bit) = 0 := by
  have same : (word ||| bit) &&& bit = bit := by
    ext index
    simp only [BitVec.getElem_and, BitVec.getElem_or]
    cases word[index] <;> cases bit[index] <;> rfl
  rw [clear, same, if_neg nonzero]

@[simp]
theorem clear_or_of_disjoint (disjoint : bit &&& other = 0#32)
    : clear other (word ||| bit) = clear other word := by
  have same : (word ||| bit) &&& other = word &&& other := by
    ext index inside
    have never := congrArg (fun mask : BitVec 32 => mask[index]) disjoint
    simp only [BitVec.getElem_and, BitVec.getElem_zero] at never
    simp only [BitVec.getElem_and, BitVec.getElem_or]
    cases word[index] <;> simp [never]
  rw [clear, clear, same]

@[simp]
theorem clear_and_not_self : clear bit (word &&& ~~~bit) = 1 := by
  have same : word &&& ~~~bit &&& bit = 0#32 := by
    ext index
    simp only [BitVec.getElem_and, BitVec.getElem_not, BitVec.getElem_zero]
    cases word[index] <;> cases bit[index] <;> rfl
  rw [clear, same]
  rfl

@[simp]
theorem clear_and_not_of_disjoint (disjoint : bit &&& other = 0#32)
    : clear other (word &&& ~~~bit) = clear other word := by
  have same : word &&& ~~~bit &&& other = word &&& other := by
    ext index inside
    have never := congrArg (fun mask : BitVec 32 => mask[index]) disjoint
    simp only [BitVec.getElem_and, BitVec.getElem_zero] at never
    simp only [BitVec.getElem_and, BitVec.getElem_not]
    revert never
    cases word[index] <;> cases bit[index] <;> cases other[index] <;> simp
  rw [clear, clear, same]

theorem TcpServer.clear_of_isBitSet {server : TcpServer} (set : server.isBitSet bit = true)
    : clear bit server.state = 0 := by
  rw [TcpServer.isBitSet, bne_iff_ne] at set
  exact if_neg set

theorem TcpServer.clear_of_not_isBitSet {server : TcpServer}
    (notSet : ¬ server.isBitSet bit = true)
    : clear bit server.state = 1 := by
  rw [TcpServer.isBitSet, bne_iff_ne, Decidable.not_not] at notSet
  exact if_pos notSet

end FlagWords

/-- Whether the flag of `StopConnectionAcceptance` is known to be clear at a statement. -/
def Statement.acceptClear : Statement → Option Int
  | .stopAcceptSetBit _ => some 1
  | .stopAcceptManagerStop _ | .stopAcceptClear _ | .stopSetNotAccepting
  | .startAcceptUnSetBit => some 0
  | _ => none

/-- Accept threads beyond those that the flag stands for, while a call is under way. -/
def Statement.acceptSurplus : Statement → Int
  | .constructed | .startStartManager | .startAcceptNew | .startAcceptStartThread => -1
  | .stopAcceptManagerStop _ => 1
  | _ => 0

/-- Whether the flag of `StopClientService` is known to be clear at a statement. -/
def Statement.serviceClear : Statement → Option Int
  | .stopServiceStopThread _ | .stopServiceCleanup _ | .stopServiceDelete _
  | .stopServiceSetBit _ => some 1
  | .stopServiceClear _ | .stopSetNotListening | .startServiceNew | .startServiceStartThread
  | .startServiceUnSetBit => some 0
  | _ => none

/-- Client services beyond those that the flag stands for, while a call is under way. -/
def Statement.serviceSurplus : Statement → Int
  | .stopServiceSetBit _ => -1
  | .startServiceStartThread | .startServiceUnSetBit => 1
  | _ => 0

/-- One before the first accept thread was started. -/
def Statement.unstarted : Statement → Int
  | .constructed | .startStartManager => 1
  | _ => 0

/-- Whether `Stop` has stopped what it stops. -/
def Statement.ending : Statement → Bool
  | .stopPurge | .stopDeleteDb | .stopUnSetRunning | .stopDelete | .deleted => true
  | _ => false

/-- Whether a statement is the call of `ConnectionManager::Stop`. -/
def Statement.stopsManager : Statement → Bool
  | .stopAcceptManagerStop _ => true
  | _ => false

/-- The flags against `stops` calls of `ConnectionManager::Stop` and `services` existing
client services. Every such call leaves an accept thread that the flag does not stand for,
and so does a bit that was set before the constructor ran.
-/
structure Balanced (storage : Storage) (stops : Nat) (services : Int) (system : System)
    : Prop where
  accepting
    : (system.acceptThreads.length : Int)
      = clear tcpServerNotAcceptingNewConnections system.server.state
        + (1 - clear tcpServerNotAcceptingNewConnections storage.state) + stops
        + system.main.acceptSurplus
  acceptClear
    : ∀ value,
        system.main.acceptClear = some value
        → clear tcpServerNotAcceptingNewConnections system.server.state = value
  listening
    : services
      = clear tcpServerNotListeningClients system.server.state
        + (1 - clear tcpServerNotListeningClients storage.state) + system.main.serviceSurplus
  serviceClear
    : ∀ value,
        system.main.serviceClear = some value
        → clear tcpServerNotListeningClients system.server.state = value
  started : 1 ≤ (system.acceptThreads.length : Int) + system.main.unstarted
  ending
    : system.main.ending
      → system.server.clientService = none
        ∨ clear tcpServerNotListeningClients system.server.state = 0

section Balance

variable {storage : Storage} {stops : Nat} {services : Int} {system after : System}

attribute [local simp] System.goto System.setBit System.unSetBit TcpServer.setBit
  TcpServer.unSetBit Statement.acceptSurplus Statement.acceptClear Statement.serviceSurplus
  Statement.serviceClear Statement.unstarted Statement.ending Statement.stopsManager
  Statement.makes Caller.afterStopAccept Caller.afterStopService ClientService.construct
  ConnectionManager.construct System.store

theorem Balanced.mainStep (balanced : Balanced storage stops services system)
    (stepped : mainStep system = .ok after)
    : Balanced storage (stops + if system.main.stopsManager then 1 else 0)
        (services + system.main.makes) after := by
  obtain ⟨accepting, acceptClear, listening, serviceClear, started, ending⟩ := balanced
  have called := @called_of_mainStep system after stepped
  cases main : system.main <;> simp only [Ethnm.mainStep, main] at stepped
    <;> simp [main] at accepting acceptClear listening serviceClear started ending
  case constructed | idle | deleted => cases stepped
  case startSetRunning | startAcceptUnSetBit | startServiceUnSetBit | stopSetNotAccepting
      | stopSetNotListening | stopUnSetRunning | stopAcceptSetBit | stopServiceSetBit
      | stopDeleteDb | startAcceptNew | startServiceNew =>
    cases stepped
    constructor <;> simp (disch := decide) <;> omega
  case stopAcceptClear caller | stopServiceClear caller =>
    cases stepped
    cases caller
    all_goals constructor <;> simp <;> omega
  case stopAcceptTest caller | stopServiceTest caller =>
    split at stepped
    · rename_i set
      have set := TcpServer.clear_of_isBitSet set
      cases stepped
      cases caller
      all_goals constructor <;> simp <;> omega
    · rename_i notSet
      have notSet := TcpServer.clear_of_not_isBitSet notSet
      cases stepped
      constructor <;> simp <;> omega
  case startAcceptTest | startServiceTest =>
    split at stepped
    · rename_i set
      have set := TcpServer.clear_of_isBitSet set
      cases stepped
      constructor <;> simp <;> omega
    · cases stepped
      constructor <;> simp <;> omega
  case stopTestManager | stopDelete =>
    split at stepped
    all_goals cases stepped
    all_goals constructor <;> simp <;> omega
  case stopTestService =>
    split at stepped
    · cases stepped
      constructor <;> simp <;> omega
    · rename_i absent
      rw [Option.not_isSome_iff_eq_none] at absent
      cases stepped
      constructor <;> simp [absent] <;> omega
  case startStartManager | startStartService | startCreateDb | stopAcceptManagerStop
      | startAcceptStartThread | stopServiceStopThread | stopServiceCleanup
      | stopServiceDelete | startServiceStartThread | stopPurge =>
    obtain ⟨next, state, -, service, -, threads⟩ := called (by rw [main]; rfl)
    constructor <;> simp [next, state, service, threads] <;> omega

end Balance

end Ethnm
