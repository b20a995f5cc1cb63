import Ethnm.Server.Effects
import Ethnm.Server.Session

/-! A system over storage with other contents takes the same steps, as long as the flags that
a step tests and the descriptor that it closes were set before or are the same in both contents.
-/

namespace Ethnm
open Runs

/-- The same system over storage with other contents, of which the given flags were set or
cleared since.
-/
def System.upon (other : Storage) (written : BitVec 32) (system : System) : System :=
  {
    system with
    server :=
      {
        system.server with
        state := system.server.state &&& written ||| other.state &&& ~~~written
      }
    managers :=
      fun address =>
        (system.managers address).map
          (fun _ => { masterSockUdp := other.masterSockUdp address })
    storage := other
  }

/-- Two contents are the same in those of the given flags that were never set or cleared. -/
def AgreesOnFlag (prior other : Storage) (written bit : BitVec 32) : Prop :=
  prior.state &&& (bit &&& ~~~written) = other.state &&& (bit &&& ~~~written)

instance (prior other : Storage) (written bit : BitVec 32)
    : Decidable (AgreesOnFlag prior other written bit) :=
  inferInstanceAs (Decidable (_ = _))

section FlagWords

variable {word other written bit : BitVec 32}

theorem overlay_or
    : (word &&& written ||| other &&& ~~~written) ||| bit
      = (word ||| bit) &&& (written ||| bit) ||| other &&& ~~~(written ||| bit) := by
  ext index
  simp only [BitVec.getElem_and, BitVec.getElem_or, BitVec.getElem_not]
  cases word[index] <;> cases written[index] <;> cases bit[index] <;> simp

theorem overlay_and_not
    : (word &&& written ||| other &&& ~~~written) &&& ~~~bit
      = word &&& ~~~bit &&& (written ||| bit) ||| other &&& ~~~(written ||| bit) := by
  ext index
  simp only [BitVec.getElem_and, BitVec.getElem_or, BitVec.getElem_not]
  cases word[index] <;> cases written[index] <;> cases bit[index] <;> simp

theorem overlay_and {prior other : Storage} (agrees : AgreesOnFlag prior other written bit)
    : (word &&& written ||| other.state &&& ~~~written) &&& bit
      = (word &&& written ||| prior.state &&& ~~~written) &&& bit := by
  ext index inside
  have same := congrArg (fun mask : BitVec 32 => mask[index]) agrees
  simp only [BitVec.getElem_and, BitVec.getElem_not] at same
  simp only [BitVec.getElem_and, BitVec.getElem_or, BitVec.getElem_not]
  revert same
  cases word[index] <;> cases written[index] <;> cases bit[index] <;> simp
  all_goals exact Eq.symm

end FlagWords

namespace System

variable {prior other : Storage} {written bit : BitVec 32} {system : System}
  {address client : Address} {index : Nat}

@[simp]
theorem upon_main : (system.upon other written).main = system.main := rfl

@[simp]
theorem upon_heap : (system.upon other written).heap = system.heap := rfl

@[simp]
theorem upon_acceptThreads
    : (system.upon other written).acceptThreads = system.acceptThreads :=
  rfl

@[simp]
theorem upon_serviceThreads
    : (system.upon other written).serviceThreads = system.serviceThreads :=
  rfl

-----------------------------------------------------------------------------------------
-- What is read
-----------------------------------------------------------------------------------------

theorem tcpServer_upon
    : (system.upon other written).tcpServer
      = system.tcpServer.map (fun _ => (system.upon other written).server) := by
  unfold tcpServer
  rw [upon_main]
  split <;> rfl

theorem manager_upon
    : (system.upon other written).manager address
      = (system.manager address).map
          (fun _ => { masterSockUdp := other.masterSockUdp address }) := by
  unfold manager upon
  simp only
  cases system.managers address <;> rfl

theorem isBitSet_upon (own : system.upon prior written = system)
    (agrees : AgreesOnFlag prior other written bit)
    : (system.upon other written).server.isBitSet bit = system.server.isBitSet bit := by
  have state := congrArg (fun system : System => system.server.state) own
  change (_ &&& written ||| _ &&& ~~~written) = _ at state
  change ((_ &&& written ||| _ &&& ~~~written) &&& bit != 0) = (_ &&& bit != 0)
  rw [overlay_and agrees, state]

-----------------------------------------------------------------------------------------
-- Operations
-----------------------------------------------------------------------------------------

theorem setBit_upon
    : (system.upon other written).setBit bit
      = (system.setBit bit).upon other (written ||| bit) := by
  simp only [setBit, TcpServer.setBit, upon, overlay_or]

theorem unSetBit_upon
    : (system.upon other written).unSetBit bit
      = (system.unSetBit bit).upon other (written ||| bit) := by
  simp only [unSetBit, TcpServer.unSetBit, upon, overlay_and_not]

theorem construct_upon
    : ConnectionManager.construct (system.upon other written)
      = (ConnectionManager.construct system).upon other written := by
  have managers
      : (ConnectionManager.construct (system.upon other written)).managers
        = ((ConnectionManager.construct system).upon other written).managers := by
    funext address
    change (if address = system.fresh then _ else _)
      = Option.map _ (if address = system.fresh then _ else _)
    split
    · rename_i isIt
      rw [isIt]
      rfl
    · rfl
  exact congrArg
    (fun managers => { (ConnectionManager.construct system).upon other written with managers })
    managers

/-- What is found in the same way in both systems. -/
theorem bind_upon {α : Type} {first : Except Halt α} {next second : α → Except Halt System}
    (commutes : ∀ value, second value = (next value).map (upon other written))
    : (first >>= second) = (first >>= next).map (upon other written) := by
  cases first with
  | error halt => rfl
  | ok value => exact commutes value

/-- What comes after an operation that does the same in both systems. -/
theorem map_bind_upon {first : Except Halt System} {next : System → Except Halt System}
    {later : BitVec 32}
    (commutes : ∀ after, next (after.upon other written) = (next after).map (upon other later))
    : (first.map (upon other written) >>= next) = (first >>= next).map (upon other later) := by
  cases first with
  | error halt => rfl
  | ok after => exact commutes after

theorem startManager_upon
    : ConnectionManager.startThread (system.upon other written)
      = (ConnectionManager.startThread system).map (upon other written) :=
  bind_upon (fun _ => rfl)

/-- The descriptor that `Stop` closes is that of the other storage. -/
theorem stopManager_upon (own : system.upon prior written = system)
    (agrees
      : ∀ address,
          system.server.connectionManager = some address
          → prior.masterSockUdp address = other.masterSockUdp address)
    : ConnectionManager.stop (system.upon other written)
      = (ConnectionManager.stop system).map (upon other written) := by
  unfold ConnectionManager.stop
  change (follow system.server.connectionManager >>= _) = _
  cases current : system.server.connectionManager with
  | none => rfl
  | some address =>
      have managers := congrArg (System.manager address) own
      rw [manager_upon] at managers
      change ((system.upon other written).manager address >>= _)
        = Except.map _ (system.manager address >>= _)
      rw [manager_upon]
      cases found : system.manager address with
      | error halt => rfl
      | ok manager =>
          rw [found] at managers
          have same := congrArg ConnectionManager.masterSockUdp (Except.ok.inj managers)
          change prior.masterSockUdp address = manager.masterSockUdp at same
          change Except.ok _ = Except.ok _
          rw [← same, agrees address current]
          rfl

theorem startService_upon
    : ClientService.startThread address (system.upon other written)
      = (ClientService.startThread address system).map (upon other written) := by
  refine bind_upon (fun service => ?_)
  split <;> rfl

theorem stopThread_upon
    : ClientService.stopThread address (system.upon other written)
      = (ClientService.stopThread address system).map (upon other written) := by
  refine bind_upon (fun service => ?_)
  cases service.thread <;> rfl

theorem addClient_upon
    : ClientService.addClient address client (system.upon other written)
      = (ClientService.addClient address client system).map (upon other written) :=
  bind_upon (fun _ => rfl)

theorem callocThread_upon
    : ClientService.callocThread address (system.upon other written)
      = (ClientService.callocThread address system).map (upon other written) :=
  bind_upon (fun _ => rfl)

theorem dropClients_upon
    : ClientService.dropClients address (system.upon other written)
      = (ClientService.dropClients address system).map (upon other written) := by
  refine bind_upon (fun service => ?_)
  split
  · cases ClientService.cleanup service.clients <;> rfl
  · rfl

theorem delete_upon
    : ClientService.delete address (system.upon other written)
      = (ClientService.delete address system).map (upon other written) :=
  bind_upon (fun _ => rfl)

theorem update_upon
    : ClientDB.update client (system.upon other written)
      = (ClientDB.update client system).map (upon other written) :=
  bind_upon (fun _ => rfl)

theorem copy_upon
    : ClientDB.copy address (system.upon other written)
      = (ClientDB.copy address system).map (upon other written) :=
  bind_upon (fun _ => bind_upon (fun _ => rfl))

theorem purgeAll_upon
    : ClientDB.purgeAll (system.upon other written)
      = (ClientDB.purgeAll system).map (upon other written) := by
  refine bind_upon (fun clients => ?_)
  rw [upon_heap]
  cases ClientDB.purge clients system.heap <;> rfl

/-- The constructor leaves the storage as it was, but for one flag. -/
theorem constructServer_upon (prior other : Storage)
    : (TcpServer.construct prior).upon other tcpServerInitialized
      = TcpServer.construct other := by
  have flags
      : (prior.state ||| tcpServerInitialized) &&& tcpServerInitialized
          ||| other.state &&& ~~~tcpServerInitialized
        = other.state ||| tcpServerInitialized := by
    ext index
    simp only [BitVec.getElem_and, BitVec.getElem_or, BitVec.getElem_not]
    cases prior.state[index] <;> cases other.state[index]
      <;> cases tcpServerInitialized[index] <;> rfl
  have managers
      : ((TcpServer.construct prior).upon other tcpServerInitialized).managers
        = (TcpServer.construct other).managers := by
    funext address
    change Option.map _ (if address = 0 then _ else none) = (if address = 0 then _ else none)
    split
    · rename_i isIt
      rw [isIt]
      rfl
    · rfl
  have server
      : ((TcpServer.construct prior).upon other tcpServerInitialized).server
        = (TcpServer.construct other).server :=
    congrArg (fun state => { (TcpServer.construct other).server with state }) flags
  calc (TcpServer.construct prior).upon other tcpServerInitialized
      = {
          TcpServer.construct other with
          server := ((TcpServer.construct prior).upon other tcpServerInitialized).server
          managers := ((TcpServer.construct prior).upon other tcpServerInitialized).managers
        } := rfl
    _ = TcpServer.construct other := by rw [server, managers]

-----------------------------------------------------------------------------------------
-- Steps
-----------------------------------------------------------------------------------------

/-- The flags that a step tests, and the descriptor that it closes, were set before or are the
same in both contents.
-/
structure AgreesOn (prior other : Storage) (written : BitVec 32) (system : System)
    (action : Action) : Prop where
  flags : ∀ bit, system.tests action = some bit → AgreesOnFlag prior other written bit
  closes
    : ∀ address,
        system.closes action = some address
        → prior.masterSockUdp address = other.masterSockUdp address

theorem connectStep_upon {fd : Nat}
    : connectStep index fd (system.upon other written)
      = (connectStep index fd system).map (upon other written) := by
  unfold connectStep
  rw [upon_acceptThreads, tcpServer_upon]
  split
  · cases system.tcpServer <;> rfl
  · rfl

/-- `AddClient` reads nothing that was not set. -/
theorem acceptStep_upon
    : acceptStep index (system.upon other written)
      = (acceptStep index system).map (upon other written) := by
  unfold acceptStep
  rw [upon_acceptThreads, tcpServer_upon]
  cases system.acceptThreads[index]? with
  | none => rfl
  | some thread =>
      cases thread with
      | accept => rfl
      | update client =>
          simp only [update_upon]
          cases system.tcpServer with
          | error halt => rfl
          | ok server => exact map_bind_upon (fun _ => rfl)
      | listen client =>
          cases found : system.tcpServer with
          | error halt => rfl
          | ok server =>
              cases System.tcpServer_eq_ok found
              change (follow _ >>= _) = _
              exact bind_upon (fun _ => rfl)
      | stopThread service client =>
          simp only [stopThread_upon]
          exact map_bind_upon (fun _ => rfl)
      | pushBack service client =>
          simp only [addClient_upon]
          exact map_bind_upon (fun _ => rfl)
      | calloc service =>
          simp only [callocThread_upon]
          exact map_bind_upon (fun _ => rfl)
      | startThread service =>
          simp only [startService_upon]
          exact map_bind_upon (fun _ => rfl)

theorem serviceStep_upon (own : system.upon prior written = system)
    (agrees : AgreesOn prior other written system (.service index))
    : serviceStep index (system.upon other written)
      = (serviceStep index system).map (upon other written) := by
  unfold serviceStep
  rw [upon_serviceThreads]
  cases there : system.serviceThreads[index]? with
  | none => rfl
  | some thread =>
      cases prologue : thread.prologue with
      | test =>
          simp only [prologue]
          refine bind_upon (fun service => ?_)
          rw [tcpServer_upon]
          cases found : system.tcpServer with
          | error halt => rfl
          | ok server =>
              cases System.tcpServer_eq_ok found
              have tested := agrees.flags tcpServerNotListeningClients
                (by simp only [tests, there, prologue, if_true])
              change Except.ok _ = Except.ok _
              rw [isBitSet_upon own tested]
              rfl
      | copy =>
          simp only [prologue, tcpServer_upon, copy_upon]
          cases system.tcpServer with
          | error halt => rfl
          | ok server => exact map_bind_upon (fun _ => rfl)
      | passed =>
          simp only [prologue]
          rfl

theorem mainStep_upon (own : system.upon prior written = system)
    (agrees : AgreesOn prior other written system .main)
    : mainStep (system.upon other written)
      = (mainStep system).map (upon other (written ||| system.writes .main)) := by
  unfold mainStep
  rw [upon_main]
  cases main : system.main
    <;> simp only [writes, main, BitVec.ofNat_eq_ofNat, BitVec.or_zero]
  case constructed | idle | deleted => rfl
  case stopAcceptClear | stopServiceClear | stopDeleteDb | startServiceNew => rfl
  case startSetRunning | stopAcceptSetBit | stopServiceSetBit | stopSetNotAccepting
      | stopSetNotListening =>
    rw [setBit_upon]
    rfl
  case startAcceptUnSetBit | startServiceUnSetBit | stopUnSetRunning =>
    rw [unSetBit_upon]
    rfl
  case startAcceptNew =>
    rw [construct_upon]
    rfl
  case stopAcceptTest | startAcceptTest | stopServiceTest | startServiceTest =>
    rw [isBitSet_upon own (agrees.flags _ (by rw [tests, main]))]
    split <;> rfl
  case stopTestManager | stopTestService | stopDelete =>
    rw [apply_ite (Except.map (upon other written))]
    rfl
  case startStartManager | startAcceptStartThread =>
    rw [startManager_upon]
    exact map_bind_upon (fun _ => rfl)
  case stopAcceptManagerStop =>
    have closed (address : Address) (current : system.server.connectionManager = some address)
        : prior.masterSockUdp address = other.masterSockUdp address :=
      agrees.closes address (by rw [closes, main]; exact current)
    rw [stopManager_upon own closed]
    exact map_bind_upon (fun _ => rfl)
  case startCreateDb => exact bind_upon (fun _ => rfl)
  case startStartService | startServiceStartThread =>
    refine bind_upon (fun service => ?_)
    rw [startService_upon]
    exact map_bind_upon (fun _ => rfl)
  case stopServiceStopThread =>
    refine bind_upon (fun service => ?_)
    rw [stopThread_upon]
    exact map_bind_upon (fun _ => rfl)
  case stopServiceCleanup =>
    refine bind_upon (fun service => ?_)
    rw [dropClients_upon]
    exact map_bind_upon (fun _ => rfl)
  case stopServiceDelete =>
    refine bind_upon (fun service => ?_)
    rw [delete_upon]
    exact map_bind_upon (fun _ => rfl)
  case stopPurge =>
    rw [purgeAll_upon]
    exact map_bind_upon (fun _ => rfl)

/-- A system takes the same step over other storage. -/
theorem step_upon {action : Action} (own : system.upon prior written = system)
    (agrees : AgreesOn prior other written system action)
    : step (system.upon other written) action
      = (step system action).map (upon other (written ||| system.writes action)) := by
  cases action with
  | main => exact mainStep_upon own agrees
  | call call =>
      simp only [step, callStep, upon_main, writes, BitVec.ofNat_eq_ofNat, BitVec.or_zero]
      split <;> rfl
  | connect index fd =>
      simp only [step, writes, BitVec.ofNat_eq_ofNat, BitVec.or_zero]
      exact connectStep_upon
  | accept index =>
      simp only [step, writes, BitVec.ofNat_eq_ofNat, BitVec.or_zero]
      exact acceptStep_upon
  | service index =>
      simp only [step, writes, BitVec.ofNat_eq_ofNat, BitVec.or_zero]
      exact serviceStep_upon own agrees

end System

end Ethnm
