import Ethnm.Nm.EthnmCore

/-! The network-management states that `EthnmCore` can be in after `Start`. Only the network
thread takes over a new state, and it does so only in the two states that need one before.
-/

namespace Ethnm.Nm
open Runs

/-- Steps of the two worker threads can lead to a state. -/
def CanBecome (state : NmState) (system : System) : Prop :=
  ∃ history final,
    Run step system history final
    ∧ Guarded (fun _ action => action.ofWorker) history
    ∧ final.core.stateVar = state.code

/-- Every state can still be reached. -/
def NoneCutOff (system : System) : Prop :=
  ∀ state, CanBecome state system

/-- The network thread tests the state and nothing else. -/
def NetworkThread.Testing : NetworkThread → Prop
  | .sendMulticast | .recieveMulticast | .getNmState => False
  | _ => True

/-- The state is the one that `Start` has set, and the network thread only tests it. -/
def Awake (system : System) : Prop :=
  system.core.stateVar = NmState.wakeUp.code ∧ system.network.Testing

/-- `Start` has not set the state. -/
def MainThread.Before : MainThread → Prop
  | .openSockets | .setWakeUp => True
  | _ => False

/-- Before `Start` sets the state there is no network thread. -/
def Starting (system : System) : Prop :=
  system.main.Before ∧ system.network = .absent ∨ Awake system

section Steps

variable {system after : System}

theorem System.object_eq_ok {core : EthnmCore} (found : system.object = .ok core)
    : core = system.core := by
  rw [System.object] at found
  split at found
  · cases found
    rfl
  · cases found

/-- The state, the network thread and the main thread stay as they are. -/
structure Unmoved (system after : System) : Prop where
  stateVar : after.core.stateVar = system.core.stateVar
  network : after.network = system.network
  main : after.main = system.main

/-- A step of `StopThread` moves no thread. -/
theorem stopThreadStep_unmoved {self : Thread} {statement : StopThread} {rest : List Frame}
    {next : Option (List Frame)}
    (stepped : stopThreadStep self statement rest system = .ok (next, after))
    : Unmoved system after
      ∧ after.stateManager = system.stateManager
      ∧ after.application = system.application := by
  have same : Unmoved system system := ⟨rfl, rfl, rfl⟩
  unfold stopThreadStep at stepped
  split at stepped
  · obtain ⟨core, -, stepped⟩ := bind_eq_ok.mp stepped
    split at stepped <;> cases stepped <;> exact ⟨same, rfl, rfl⟩
  · obtain ⟨thread, -, stepped⟩ := bind_eq_ok.mp stepped
    cases stepped
    exact ⟨⟨rfl, rfl, rfl⟩, rfl, rfl⟩
  · split at stepped
    · cases stepped
      exact ⟨same, rfl, rfl⟩
    · obtain ⟨thread, -, stepped⟩ := bind_eq_ok.mp stepped
      cases stepped
      exact ⟨⟨rfl, rfl, rfl⟩, rfl, rfl⟩
  · dsimp only at stepped
    split at stepped
    · cases stepped
      exact ⟨same, rfl, rfl⟩
    · split at stepped <;> cases stepped
      exact ⟨same, rfl, rfl⟩
  · cases stepped
    exact ⟨⟨rfl, rfl, rfl⟩, rfl, rfl⟩
  · obtain ⟨core, found, stepped⟩ := bind_eq_ok.mp stepped
    cases System.object_eq_ok found
    cases stepped
    exact ⟨⟨rfl, rfl, rfl⟩, rfl, rfl⟩

/-- No call that is pending in `Stop` moves a thread. -/
theorem callStep_unmoved {self : Thread} {frames : List Frame} {next : Option (List Frame)}
    (stepped : callStep self frames system = .ok (next, after))
    : Unmoved system after
      ∧ after.stateManager = system.stateManager
      ∧ after.application = system.application := by
  unfold callStep at stepped
  split at stepped
  · cases stepped
  · cases stepped
    exact ⟨⟨rfl, rfl, rfl⟩, rfl, rfl⟩
  · cases stepped
    exact ⟨⟨rfl, rfl, rfl⟩, rfl, rfl⟩
  · cases stepped
    exact ⟨⟨rfl, rfl, rfl⟩, rfl, rfl⟩
  · obtain ⟨core, -, stepped⟩ := bind_eq_ok.mp stepped
    cases stepped
    exact ⟨⟨rfl, rfl, rfl⟩, rfl, rfl⟩
  · exact stopThreadStep_unmoved stepped

/-- `SetNmState` changes neither the state nor another thread. -/
theorem stateManagerStep_unmoved (stepped : stateManagerStep system = .ok after)
    : Unmoved system after ∧ after.application = system.application := by
  rw [stateManagerStep] at stepped
  split at stepped
  · cases stepped
  · cases stepped
  · obtain ⟨core, -, stepped⟩ := bind_eq_ok.mp stepped
    split at stepped <;> cases stepped <;> exact ⟨⟨rfl, rfl, rfl⟩, rfl⟩
  · obtain ⟨core, found, stepped⟩ := bind_eq_ok.mp stepped
    cases System.object_eq_ok found
    cases stepped
    exact ⟨⟨rfl, rfl, rfl⟩, rfl⟩
  · obtain ⟨core, -, stepped⟩ := bind_eq_ok.mp stepped
    split at stepped <;> cases stepped <;> exact ⟨⟨rfl, rfl, rfl⟩, rfl⟩
  · obtain ⟨⟨frames, middle⟩, called, stepped⟩ := bind_eq_ok.mp stepped
    obtain ⟨⟨stateVar, network, main⟩, -, application⟩ := callStep_unmoved called
    dsimp only at stepped
    split at stepped <;> cases stepped <;> exact ⟨⟨stateVar, network, main⟩, application⟩

/-- Deleting the object changes neither the state nor another thread. -/
theorem applicationStep_unmoved (stepped : applicationStep system = .ok after)
    : Unmoved system after ∧ after.stateManager = system.stateManager := by
  obtain ⟨⟨frames, middle⟩, called, stepped⟩ := bind_eq_ok.mp stepped
  obtain ⟨⟨stateVar, network, main⟩, stateManager, -⟩ := callStep_unmoved called
  dsimp only at stepped
  split at stepped <;> cases stepped
  exact ⟨⟨stateVar, network, main⟩, stateManager⟩

/-- Awake, the network thread finds neither of the states in which it goes on. -/
theorem Awake.networkStep (awake : Awake system) {result : Int}
    (stepped : networkStep result system = .ok after)
    : Awake after ∧ after.main = system.main := by
  obtain ⟨state, testing⟩ := awake
  have other (code : Int) (differs : code ≠ NmState.wakeUp.code)
      : ¬ system.core.stateVar = code := by
    rw [state]
    exact Ne.symm differs
  rw [Nm.networkStep] at stepped
  cases network : system.network with
  | absent | finished =>
      rw [network] at stepped
      cases stepped
  | testRepeatMessage | testNormalOp =>
      rw [network] at stepped
      obtain ⟨core, found, stepped⟩ := bind_eq_ok.mp stepped
      cases System.object_eq_ok found
      rw [if_neg (other _ (by decide))] at stepped
      cases stepped
      exact ⟨⟨state, trivial⟩, rfl⟩
  | sendMulticast | recieveMulticast | getNmState =>
      rw [network] at testing
      exact testing.elim

/-- The worker threads never leave the state that `Start` has set. -/
theorem Awake.workerStep (awake : Awake system) {action : Action} (worker : action.ofWorker)
    (stepped : step system action = .ok after)
    : Awake after := by
  unfold step at stepped
  split at stepped
  · cases stepped
  cases action with
  | main result => cases worker
  | application => cases worker
  | network result => exact (awake.networkStep stepped).1
  | stateManager =>
      obtain ⟨⟨state, network, -⟩, -⟩ := stateManagerStep_unmoved stepped
      exact ⟨state.trans awake.1, network.symm ▸ awake.2⟩

/-- `Start` sets the state before it creates the network thread. -/
theorem Starting.mainStep (starting : Starting system) {result : Int}
    (stepped : mainStep result system = .ok after)
    : Starting after := by
  rw [Nm.mainStep] at stepped
  have awake (later : ¬ system.main.Before) : Awake system :=
    starting.resolve_left (fun before => later before.1)
  cases main : system.main with
  | openSockets =>
      rw [main] at stepped
      dsimp only at stepped
      split at stepped <;> cases stepped
      · exact starting.imp_left (fun before => ⟨trivial, before.2⟩)
      · exact starting.imp_left (fun before => ⟨trivial, before.2⟩)
  | setWakeUp =>
      rw [main] at stepped
      obtain ⟨core, found, stepped⟩ := bind_eq_ok.mp stepped
      cases stepped
      refine .inr ⟨rfl, ?_⟩
      rcases starting with before | awake
      · change system.network.Testing
        rw [before.2]
        trivial
      · exact awake.2
  | create handle =>
      have awake := awake (by rw [main]; exact id)
      rw [main] at stepped
      cases handle with
      | network | stateManager =>
          obtain ⟨core, found, stepped⟩ := bind_eq_ok.mp stepped
          cases System.object_eq_ok found
          split at stepped
          · cases stepped
            exact .inr awake
          · split at stepped <;> cases stepped
            · exact .inr ⟨awake.1, by first | trivial | exact awake.2⟩
            · exact .inr awake
  | join handle =>
      have awake := awake (by rw [main]; exact id)
      rw [main] at stepped
      obtain ⟨thread, -, stepped⟩ := bind_eq_ok.mp stepped
      cases stepped
      exact .inr awake
  | joining handle thread =>
      have awake := awake (by rw [main]; exact id)
      rw [main] at stepped
      dsimp only at stepped
      split at stepped
      · cases handle <;> cases stepped <;> exact .inr awake
      · cases stepped
  | returned =>
      rw [main] at stepped
      cases stepped

theorem Starting.step (starting : Starting system) {action : Action}
    (stepped : step system action = .ok after)
    : Starting after := by
  unfold Nm.step at stepped
  split at stepped
  · cases stepped
  have keep (unmoved : Unmoved system after) : Starting after := by
    rw [Starting, Awake, unmoved.stateVar, unmoved.network, unmoved.main]
    exact starting
  cases action with
  | main result => exact starting.mainStep stepped
  | application => exact keep (applicationStep_unmoved stepped).1
  | stateManager => exact keep (stateManagerStep_unmoved stepped).1
  | network result =>
      rcases starting with ⟨before, absent⟩ | awake
      · change networkStep result system = .ok after at stepped
        rw [networkStep, absent] at stepped
        cases stepped
      · exact .inr (awake.networkStep stepped).1

end Steps

/-- By induction on the run from the constructor. -/
theorem starting_of_run {stateVar preStateVar : Int} {history : List (System × Action)}
    {system : System} (run : Run step (construct stateVar preStateVar) history system)
    : Starting system :=
  run.always (.inl ⟨trivial, rfl⟩) (fun _ _ _ starting stepped => starting.step stepped)

/-- Once the state is the one that `Start` sets, the worker threads lead to no other. -/
theorem Awake.canBecome_iff {system : System} (awake : Awake system) (state : NmState)
    : CanBecome state system ↔ state = .wakeUp := by
  constructor
  · rintro ⟨history, final, run, workers, reached⟩
    have still : Awake final := run.invariant workers awake
      (fun _ _ _ awake worker stepped => awake.workerStep worker stepped)
    exact NmState.code_inj.mp (reached.symm.trans still.1)
  · rintro rfl
    exact ⟨[], system, Run.refl, (fun _ member => by cases member), awake.1⟩

/-- After every run from the constructor that has the state set to `wake_up`, all the other
states are cut off.
-/
theorem not_noneCutOff {stateVar preStateVar : Int} {history : List (System × Action)}
    {system : System} (run : Run step (construct stateVar preStateVar) history system)
    (state : system.core.stateVar = NmState.wakeUp.code)
    : ¬ NoneCutOff system ∧ ∀ other, CanBecome other system ↔ other = .wakeUp := by
  have awake : Awake system := by
    rcases starting_of_run run with ⟨-, absent⟩ | awake
    · exact ⟨state, by rw [absent]; trivial⟩
    · exact awake
  constructor
  · intro none
    have same := (awake.canBecome_iff .repeatMessage).mp (none .repeatMessage)
    cases same
  · exact awake.canBecome_iff

/-- After `Start` has created both threads. -/
theorem not_noneCutOff_start
    : ∃ history system,
        Run step (construct 0 0) history system
        ∧ system.core.stateVar = NmState.wakeUp.code
        ∧ ¬ NoneCutOff system
        ∧ ∀ other, CanBecome other system ↔ other = .wakeUp := by
  have passed : executesTo step (construct 0 0) startActions
      (fun _ system => decide (system.core.stateVar = NmState.wakeUp.code)) = true := by decide
  obtain ⟨history, system, run, state⟩ := exists_run_of_executesTo passed
  have state := of_decide_eq_true state
  exact ⟨history, system, run, state, not_noneCutOff run state⟩

/-- The state `repeat_message` is cut off after `Start` has created both threads. -/
theorem not_forall_noneCutOff
    : ¬ ∀ history system,
        Run step (construct 0 0) history system
        → system.core.stateVar = NmState.wakeUp.code
        → NoneCutOff system := by
  intro all
  have passed : executesTo step (construct 0 0) startActions
      (fun _ system => decide (system.core.stateVar = NmState.wakeUp.code
        ∧ system.network = .testRepeatMessage)) = true := by decide
  obtain ⟨history, system, run, test⟩ := exists_run_of_executesTo passed
  obtain ⟨state, network⟩ := of_decide_eq_true test
  have awake : Awake system := ⟨state, by rw [network]; trivial⟩
  cases (awake.canBecome_iff .repeatMessage).mp (all history system run state .repeatMessage)

end Ethnm.Nm
