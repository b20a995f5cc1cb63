import Ethnm.Nm.States

/-! The shutdown of `EthnmCore`. `Stop` deletes its own object, and the destructor calls `Stop`
again, so a call of `Stop` comes to no end on any thread.
-/

namespace Ethnm.Nm
open Runs

/-- Who enters `Stop`. -/
inductive Entry
  | stateManager
  | destructor
  deriving DecidableEq, Repr

namespace System

/-- The state manager is inside `SetNmState`; anybody may delete the object. -/
def AtStop (system : System) : Entry → Prop
  | .stateManager => system.stateManager = .dispatch
  | .destructor => True

instance (system : System) (entry : Entry) : Decidable (system.AtStop entry) := by
  cases entry <;> unfold AtStop <;> infer_instance

def enter (system : System) : Entry → System
  | .stateManager => { system with stateManager := .stopping [.stop] }
  | .destructor =>
      {
        system with
        application := [.destructor, .release]
        destructions := system.destructions + 1
      }

/-- The call that entered `Stop` has come to its end. -/
def HasReturned (system : System) : Entry → Prop
  | .stateManager => system.stateManager = .compare
  | .destructor => system.application = []

end System

/-- The call comes to an end, and by then the object was destroyed once, each handle freed
once, and each thread joined at most once and by another one.
-/
def ShutsDown (entry : Entry) (system : System) : Prop :=
  ∃ history final,
    Run step (system.enter entry) history final
    ∧ final.HasReturned entry
    ∧ final.destructions = 1
    ∧ final.deallocations = 1
    ∧ (∀ handle, final.freed.count handle = 1)
    ∧ ∀ worker,
        (final.joins.filter (·.2 = worker)).length ≤ 1
        ∧ (Thread.worker worker, worker) ∉ final.joins

-----------------------------------------------------------------------------------------
-- Calls that come to no end
-----------------------------------------------------------------------------------------

/-- The pending calls go on to `delete this`, and from there to `Stop` again. -/
def Sinking : List Frame → Prop
  | .stop :: _ | .deleteThis :: _ | .destructor :: _ => True
  | .stopThread _ :: .deleteThis :: _ => True
  | _ => False

theorem not_sinking_nil : ¬ Sinking [] := id

section Calls

variable {system after : System} {self : Thread} {frames next : List Frame}

/-- `StopThread` goes on, or returns. -/
theorem stopThreadStep_frames {statement : StopThread}
    (stepped : stopThreadStep self statement frames system = .ok (some next, after))
    : next = frames ∨ ∃ later, next = .stopThread later :: frames := by
  unfold stopThreadStep at stepped
  split at stepped
  · obtain ⟨core, -, stepped⟩ := bind_eq_ok.mp stepped
    split at stepped <;> cases stepped
    · exact .inl rfl
    · exact .inr ⟨_, rfl⟩
  · obtain ⟨thread, -, stepped⟩ := bind_eq_ok.mp stepped
    cases stepped
    exact .inr ⟨_, rfl⟩
  · split at stepped
    · cases stepped
    · obtain ⟨thread, -, stepped⟩ := bind_eq_ok.mp stepped
      cases stepped
      exact .inr ⟨_, rfl⟩
  · dsimp only at stepped
    split at stepped
    · cases stepped
    · split at stepped <;> cases stepped
      exact .inr ⟨_, rfl⟩
  · cases stepped
    exact .inr ⟨_, rfl⟩
  · obtain ⟨core, -, stepped⟩ := bind_eq_ok.mp stepped
    cases stepped
    exact .inl rfl

/-- No step of the calls leads out of them. -/
theorem Sinking.callStep (sinking : Sinking frames)
    (stepped : callStep self frames system = .ok (some next, after))
    : Sinking next := by
  unfold Nm.callStep at stepped
  split at stepped
  · cases stepped
  · cases stepped
    exact trivial
  · cases stepped
    exact trivial
  · cases stepped
    exact trivial
  · exact sinking.elim
  · rename_i statement rest
    cases rest with
    | nil => exact sinking.elim
    | cons frame rest =>
        cases frame with
        | deleteThis =>
            rcases stopThreadStep_frames stepped with rfl | ⟨later, rfl⟩
            · exact trivial
            · exact trivial
        | stop | destructor | release | stopThread => exact sinking.elim

end Calls

/-- The state manager's thread has ended, or its call of `Stop` comes to no end. -/
def StateManagerThread.Sinks : StateManagerThread → Prop
  | .finished => True
  | .stopping frames => Sinking frames
  | _ => False

/-- The call that entered `Stop` is still pending, and comes to no end. -/
def System.Sinks (system : System) : Entry → Prop
  | .stateManager => system.stateManager.Sinks
  | .destructor => Sinking system.application

/-- `Start` has not come to the creation of the state manager's thread. -/
def MainThread.BeforeManager : MainThread → Prop
  | .openSockets | .setWakeUp | .create _ => True
  | _ => False

/-- There is no state manager before `Start` creates it. -/
def Ordered (system : System) : Prop :=
  system.main.BeforeManager → system.stateManager = .absent

section Steps

variable {system after : System}

/-- The network thread leaves the other threads alone. -/
theorem networkStep_others {result : Int} (stepped : networkStep result system = .ok after)
    : after.main = system.main
      ∧ after.stateManager = system.stateManager
      ∧ after.application = system.application := by
  unfold networkStep at stepped
  split at stepped
  · cases stepped
  · cases stepped
  · obtain ⟨core, -, stepped⟩ := bind_eq_ok.mp stepped
    split at stepped <;> cases stepped <;> exact ⟨rfl, rfl, rfl⟩
  · obtain ⟨core, -, stepped⟩ := bind_eq_ok.mp stepped
    split at stepped <;> cases stepped <;> exact ⟨rfl, rfl, rfl⟩
  · split at stepped
    · cases stepped
      exact ⟨rfl, rfl, rfl⟩
    · split at stepped <;> cases stepped <;> exact ⟨rfl, rfl, rfl⟩
  · split at stepped
    · cases stepped
      exact ⟨rfl, rfl, rfl⟩
    · split at stepped
      · cases stepped
        exact ⟨rfl, rfl, rfl⟩
      · split at stepped <;> cases stepped
        exact ⟨rfl, rfl, rfl⟩
  · obtain ⟨core, -, stepped⟩ := bind_eq_ok.mp stepped
    cases stepped
    exact ⟨rfl, rfl, rfl⟩

/-- `Start` goes on, and creates the state manager's thread once. -/
theorem mainStep_others {result : Int} (stepped : mainStep result system = .ok after)
    : after.application = system.application
      ∧ (after.main.BeforeManager → system.main.BeforeManager)
      ∧ (after.stateManager = system.stateManager
        ∨ system.main.BeforeManager ∧ ¬ after.main.BeforeManager) := by
  unfold mainStep at stepped
  split at stepped
  · rename_i main
    split at stepped <;> cases stepped
    · exact ⟨rfl, id, .inl rfl⟩
    · exact ⟨rfl, fun _ => main ▸ trivial, .inl rfl⟩
  · rename_i main
    obtain ⟨core, -, stepped⟩ := bind_eq_ok.mp stepped
    cases stepped
    exact ⟨rfl, fun _ => main ▸ trivial, .inl rfl⟩
  · rename_i main
    obtain ⟨core, -, stepped⟩ := bind_eq_ok.mp stepped
    have before : system.main.BeforeManager := main ▸ trivial
    split at stepped
    · cases stepped
      exact ⟨rfl, id, .inl rfl⟩
    · split at stepped <;> cases stepped <;> exact ⟨rfl, fun _ => before, .inl rfl⟩
  · rename_i main
    obtain ⟨core, -, stepped⟩ := bind_eq_ok.mp stepped
    have before : system.main.BeforeManager := main ▸ trivial
    split at stepped
    · cases stepped
      exact ⟨rfl, id, .inl rfl⟩
    · split at stepped <;> cases stepped
      · exact ⟨rfl, fun _ => before, .inr ⟨before, id⟩⟩
      · exact ⟨rfl, fun _ => before, .inl rfl⟩
  · obtain ⟨thread, -, stepped⟩ := bind_eq_ok.mp stepped
    cases stepped
    exact ⟨rfl, False.elim, .inl rfl⟩
  · split at stepped
    · split at stepped <;> cases stepped <;> exact ⟨rfl, False.elim, .inl rfl⟩
    · cases stepped
  · cases stepped

/-- A call that is pending in `Stop` is there after the next step of its thread, or the thread
has ended.
-/
theorem StateManagerThread.Sinks.step (sinks : system.stateManager.Sinks)
    (stepped : stateManagerStep system = .ok after)
    : after.stateManager.Sinks := by
  rw [stateManagerStep] at stepped
  cases thread : system.stateManager with
  | absent | compare | remember | dispatch =>
      rw [thread] at sinks
      exact sinks.elim
  | finished =>
      rw [thread] at stepped
      cases stepped
  | stopping frames =>
      rw [thread] at sinks stepped
      obtain ⟨⟨next, middle⟩, called, stepped⟩ := bind_eq_ok.mp stepped
      cases next with
      | none =>
          cases stepped
          exact trivial
      | some next =>
          have sinking := Sinking.callStep sinks called
          cases next with
          | nil => exact (not_sinking_nil sinking).elim
          | cons frame rest =>
              cases stepped
              exact sinking

/-- The thread that deletes the object does not come out of the destructor. -/
theorem Sinking.applicationStep (sinking : Sinking system.application)
    (stepped : applicationStep system = .ok after)
    : Sinking after.application := by
  obtain ⟨⟨next, middle⟩, called, stepped⟩ := bind_eq_ok.mp stepped
  cases next with
  | none => cases stepped
  | some next =>
      cases stepped
      exact sinking.callStep called

theorem Ordered.step (ordered : Ordered system) {action : Action}
    (stepped : step system action = .ok after)
    : Ordered after := by
  unfold Nm.step at stepped
  split at stepped
  · cases stepped
  intro before
  cases action with
  | main result =>
      obtain ⟨-, earlier, same | ⟨-, later⟩⟩ := mainStep_others stepped
      · rw [same]
        exact ordered (earlier before)
      · exact (later before).elim
  | network result =>
      obtain ⟨main, same, -⟩ := networkStep_others stepped
      rw [same]
      exact ordered (main ▸ before)
  | stateManager =>
      have unmoved := (stateManagerStep_unmoved stepped).1
      have absent := ordered (unmoved.main ▸ before)
      change stateManagerStep system = .ok after at stepped
      rw [stateManagerStep, absent] at stepped
      cases stepped
  | application =>
      obtain ⟨unmoved, same⟩ := applicationStep_unmoved stepped
      rw [same]
      exact ordered (unmoved.main ▸ before)

/-- The call that entered `Stop` stays pending, whatever the threads do. -/
theorem System.Sinks.step {entry : Entry} (sinks : system.Sinks entry) (ordered : Ordered system)
    {action : Action} (stepped : step system action = .ok after)
    : after.Sinks entry := by
  unfold Nm.step at stepped
  split at stepped
  · cases stepped
  cases action with
  | main result =>
      obtain ⟨application, -, same | ⟨before, -⟩⟩ := mainStep_others stepped
      · cases entry with
        | stateManager => exact (congrArg StateManagerThread.Sinks same).mpr sinks
        | destructor => exact (congrArg Sinking application).mpr sinks
      · cases entry with
        | stateManager =>
            have absent := (congrArg StateManagerThread.Sinks (ordered before)).mp sinks
            exact absent.elim
        | destructor => exact (congrArg Sinking application).mpr sinks
  | network result =>
      obtain ⟨-, same, application⟩ := networkStep_others stepped
      cases entry with
      | stateManager => exact (congrArg StateManagerThread.Sinks same).mpr sinks
      | destructor => exact (congrArg Sinking application).mpr sinks
  | stateManager =>
      have application := (stateManagerStep_unmoved stepped).2
      cases entry with
      | stateManager => exact StateManagerThread.Sinks.step sinks stepped
      | destructor => exact (congrArg Sinking application).mpr sinks
  | application =>
      have same := (applicationStep_unmoved stepped).2
      cases entry with
      | stateManager => exact (congrArg StateManagerThread.Sinks same).mpr sinks
      | destructor => exact Sinking.applicationStep sinks stepped

/-- There is a state manager's thread once it is inside `SetNmState`. -/
theorem Ordered.enter {entry : Entry} (ordered : Ordered system) (atStop : system.AtStop entry)
    : Ordered (system.enter entry) ∧ (system.enter entry).Sinks entry := by
  cases entry with
  | stateManager =>
      refine ⟨fun before => ?_, trivial⟩
      have absent := ordered before
      rw [show system.stateManager = .dispatch from atStop] at absent
      cases absent
  | destructor => exact ⟨ordered, trivial⟩

/-- A call that comes to no end has not returned. -/
theorem System.Sinks.not_hasReturned {entry : Entry} (sinks : system.Sinks entry)
    : ¬ system.HasReturned entry := by
  intro returned
  cases entry with
  | stateManager => exact (congrArg StateManagerThread.Sinks returned).mp sinks
  | destructor => exact (congrArg Sinking returned).mp sinks

/-- Where the state manager is in its place, an entry of `Stop` comes to no end; by induction
on the steps that follow it.
-/
theorem Ordered.neverShutsDown {entry : Entry} (ordered : Ordered system)
    (atStop : system.AtStop entry)
    : ¬ ShutsDown entry system := by
  rintro ⟨later, final, further, returned, -⟩
  have preserved (state : System) (action : Action) (after : System)
      (kept : Ordered state ∧ state.Sinks entry) (stepped : Nm.step state action = .ok after)
      : Ordered after ∧ after.Sinks entry :=
    ⟨kept.1.step stepped, kept.2.step kept.1 stepped⟩
  exact (further.always (ordered.enter atStop) preserved).2.not_hasReturned returned

end Steps

/-- By induction on the run from the constructor. -/
theorem ordered_of_run {stateVar preStateVar : Int} {history : List (System × Action)}
    {system : System} (run : Run step (construct stateVar preStateVar) history system)
    : Ordered system :=
  run.always (fun _ => rfl) (fun _ _ _ ordered stepped => ordered.step stepped)

/-- After no run from the constructor does an entry of `Stop` shut the object down. -/
theorem not_shutsDown {stateVar preStateVar : Int} {history : List (System × Action)}
    {system : System} (run : Run step (construct stateVar preStateVar) history system)
    {entry : Entry} (atStop : system.AtStop entry)
    : ¬ ShutsDown entry system :=
  (ordered_of_run run).neverShutsDown atStop

/-- Both entries of `Stop`, after `Start` has created both threads. -/
theorem not_shutsDown_start
    : ∃ history system,
        Run step (construct 0 0) history system
        ∧ system.main = .joining .network .network
        ∧ ∀ entry, ¬ ShutsDown entry system := by
  have passed : executesTo step (construct 0 0) (startActions ++ [.stateManager, .stateManager])
      (fun _ system => decide (system.main = .joining .network .network
        ∧ system.AtStop .stateManager)) = true := by decide
  obtain ⟨history, system, run, test⟩ := exists_run_of_executesTo passed
  obtain ⟨main, dispatch⟩ := of_decide_eq_true test
  refine ⟨history, system, run, main, fun entry => not_shutsDown run ?_⟩
  cases entry with
  | stateManager => exact dispatch
  | destructor => trivial

/-- An object that is deleted after `Start` has created both threads is not shut down. -/
theorem not_forall_shutsDown
    : ¬ ∀ history system,
        Run step (construct 0 0) history system
        → system.main = .joining .network .network
        → ShutsDown .destructor system := by
  intro all
  have passed : executesTo step (construct 0 0) startActions
      (fun _ system => decide (system.main = .joining .network .network)) = true := by decide
  obtain ⟨history, system, run, main⟩ := exists_run_of_executesTo passed
  have atStop : system.AtStop .destructor := trivial
  exact (ordered_of_run run).neverShutsDown atStop
    (all history system run (of_decide_eq_true main))

end Ethnm.Nm
