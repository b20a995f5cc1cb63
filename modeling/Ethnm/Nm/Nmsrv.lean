import Ethnm.Nm.States

/-! The program `nmsrv`: an `EthnmCore` that is started with signal handlers installed. The
handler of SIGINT and SIGTERM says that it exits, and calls `End`, which sets both states back;
the threads go on.
-/

namespace Ethnm.Nm
open Runs

def SIGINT : Int := 2
def SIGTERM : Int := 15

/-- The assignment of `End` that a running signal handler makes next. -/
inductive End
  | setStateVar
  | setPreStateVar
  deriving DecidableEq, Repr

/-- The object that `nmcore_ptr` points to, with the threads, and the handlers that run. -/
structure Nmsrv where
  nm : System
  handlers : List End
  deriving DecidableEq, Repr

namespace Nmsrv

/-- `main` before its call of `Start`. -/
def start : Nmsrv :=
  { nm := construct NmState.initState.code NmState.initState.code, handlers := [] }

/-- `handle_signal` is entered, on some thread. -/
def handleSignal (number : Int) (nmsrv : Nmsrv) : Nmsrv :=
  if number = SIGINT ∨ number = SIGTERM then
    { nmsrv with handlers := nmsrv.handlers ++ [.setStateVar] }
  else
    nmsrv

/-- The next assignment of `End` in a handler. -/
def handlerStep (index : Nat) (nmsrv : Nmsrv) : Except Halt Nmsrv :=
  match nmsrv.handlers[index]? with
  | none => .error .disabled
  | some .setStateVar => do
      let core ← nmsrv.nm.object
      let core := { core with stateVar := NmState.initState.code }
      return {
        nm := { nmsrv.nm with core }
        handlers := nmsrv.handlers.set index .setPreStateVar
      }
  | some .setPreStateVar => do
      let core ← nmsrv.nm.object
      let core := { core with preStateVar := NmState.initState.code }
      return { nm := { nmsrv.nm with core }, handlers := nmsrv.handlers.eraseIdx index }

/-- A thread goes on, a signal arrives, or a handler goes on. No thread of the program deletes
the object. Of the signals only those come that `main` has set a handler for; what another one
does is not the program's.
-/
inductive Action
  | main (result : Int)
  | network (result : Int)
  | stateManager
  | signal (number : Int)
  | handler (index : Nat)
  deriving DecidableEq, Repr

def step (nmsrv : Nmsrv) (action : Action) : Except Halt Nmsrv :=
  if nmsrv.nm.exited then
    .error .disabled
  else
    match action with
    | .signal number =>
        if number = SIGINT ∨ number = SIGTERM then
          .ok (nmsrv.handleSignal number)
        else
          .error .disabled
    | .handler index => nmsrv.handlerStep index
    | .main result => do
        let nm ← mainStep result nmsrv.nm
        return { nmsrv with nm }
    | .network result => do
        let nm ← networkStep result nmsrv.nm
        return { nmsrv with nm }
    | .stateManager => do
        let nm ← stateManagerStep nmsrv.nm
        return { nmsrv with nm }

end Nmsrv

-----------------------------------------------------------------------------------------
-- What the program does
-----------------------------------------------------------------------------------------

/-- The network thread, if there is one, tests the state. -/
def NetworkThread.Spinning : NetworkThread → Prop
  | .absent | .testRepeatMessage | .testNormalOp => True
  | _ => False

/-- The state manager, if there is one, looks for changes of the state. -/
def StateManagerThread.Spinning : StateManagerThread → Prop
  | .absent | .compare | .remember | .dispatch => True
  | _ => False

/-- `Start` waits for the network thread, or has not come to that. -/
def MainThread.Waiting : MainThread → Prop
  | .openSockets | .setWakeUp | .create _ | .join .network | .joining .network .network => True
  | _ => False

/-- The program neither sends nor receives nor stops: the state is the initial one or the one
that `Start` sets, the threads look at it and do nothing else, and `Start` never returns. As long
as no signal comes that has no handler, nothing but a call of `Open` or of `pthread_create` that
fails ends the program.
-/
structure Idles (history : List (Nmsrv × Nmsrv.Action)) (nmsrv : Nmsrv) : Prop where
  stateVar
    : nmsrv.nm.core.stateVar = NmState.initState.code
      ∨ nmsrv.nm.core.stateVar = NmState.wakeUp.code
  network : nmsrv.nm.network.Spinning
  stateManager : nmsrv.nm.stateManager.Spinning
  main : nmsrv.nm.main.Waiting
  tidNetwork
    : nmsrv.nm.core.tidNetwork = .zeroed ∨ nmsrv.nm.core.tidNetwork = .created .network
  joins : ∀ join ∈ nmsrv.nm.joins, join = (.main, .network)
  remains : nmsrv.nm.destructions = 0 ∧ nmsrv.nm.deallocations = 0
  exited
    : nmsrv.nm.exited → ∃ visit ∈ history, ∃ result < 0, visit.2 = .main result

section Idling

variable {history later : List (Nmsrv × Nmsrv.Action)} {nmsrv after : Nmsrv} {system : System}

/-- A step that leaves the threads where they are. -/
theorem Idles.frame (idles : Idles history nmsrv) (known : history ⊆ later)
    (stateVar
      : after.nm.core.stateVar = nmsrv.nm.core.stateVar
        ∨ after.nm.core.stateVar = NmState.initState.code)
    (tidNetwork : after.nm.core.tidNetwork = nmsrv.nm.core.tidNetwork)
    (network : after.nm.network.Spinning) (stateManager : after.nm.stateManager.Spinning)
    (main : after.nm.main = nmsrv.nm.main) (joins : after.nm.joins = nmsrv.nm.joins)
    (destructions : after.nm.destructions = nmsrv.nm.destructions)
    (deallocations : after.nm.deallocations = nmsrv.nm.deallocations)
    (exited : after.nm.exited = nmsrv.nm.exited)
    : Idles later after := by
  refine ⟨?_, network, stateManager, main ▸ idles.main, tidNetwork ▸ idles.tidNetwork,
    joins ▸ idles.joins, ?_, fun ended => ?_⟩
  · rcases stateVar with same | init
    · rw [same]
      exact idles.stateVar
    · exact .inl init
  · rw [destructions, deallocations]
    exact idles.remains
  · obtain ⟨visit, member, result⟩ := idles.exited (exited ▸ ended)
    exact ⟨visit, known member, result⟩

/-- The network thread finds neither of the states in which it sends and receives. -/
theorem Idles.networkStep (idles : Idles history nmsrv) (known : history ⊆ later) {result : Int}
    (stepped : networkStep result nmsrv.nm = .ok system)
    : Idles later { nmsrv with nm := system } := by
  have other (code : Int) (init : code ≠ NmState.initState.code)
      (wake : code ≠ NmState.wakeUp.code)
      : ¬ nmsrv.nm.core.stateVar = code := by
    rintro rfl
    exact idles.stateVar.elim init wake
  have spinning := idles.network
  rw [Nm.networkStep] at stepped
  cases network : nmsrv.nm.network with
  | absent | finished =>
      rw [network] at stepped
      cases stepped
  | testRepeatMessage | testNormalOp =>
      rw [network] at stepped
      obtain ⟨core, found, stepped⟩ := bind_eq_ok.mp stepped
      cases System.object_eq_ok found
      rw [if_neg (other _ (by decide) (by decide))] at stepped
      cases stepped
      exact idles.frame known (.inl rfl) rfl trivial idles.stateManager rfl rfl rfl rfl rfl
  | sendMulticast | recieveMulticast | getNmState =>
      rw [network] at spinning
      exact spinning.elim

/-- The state manager does not find `sleep_bus`, and so calls no `Stop`. -/
theorem Idles.stateManagerStep (idles : Idles history nmsrv) (known : history ⊆ later)
    (stepped : stateManagerStep nmsrv.nm = .ok system)
    : Idles later { nmsrv with nm := system } := by
  have awake : ¬ nmsrv.nm.core.stateVar = NmState.sleepBus.code := by
    rcases idles.stateVar with state | state
    all_goals
      rw [state]
      decide
  have spinning := idles.stateManager
  rw [Nm.stateManagerStep] at stepped
  cases stateManager : nmsrv.nm.stateManager with
  | absent | finished =>
      rw [stateManager] at stepped
      cases stepped
  | compare =>
      rw [stateManager] at stepped
      obtain ⟨core, found, stepped⟩ := bind_eq_ok.mp stepped
      cases System.object_eq_ok found
      split at stepped
      · cases stepped
        exact idles.frame known (.inl rfl) rfl idles.network trivial rfl rfl rfl rfl rfl
      · cases stepped
        exact idles.frame known (.inl rfl) rfl idles.network spinning rfl rfl rfl rfl rfl
  | remember =>
      rw [stateManager] at stepped
      obtain ⟨core, found, stepped⟩ := bind_eq_ok.mp stepped
      cases System.object_eq_ok found
      cases stepped
      exact idles.frame known (.inl rfl) rfl idles.network trivial rfl rfl rfl rfl rfl
  | dispatch =>
      rw [stateManager] at stepped
      obtain ⟨core, found, stepped⟩ := bind_eq_ok.mp stepped
      cases System.object_eq_ok found
      rw [if_neg awake] at stepped
      cases stepped
      exact idles.frame known (.inl rfl) rfl idles.network trivial rfl rfl rfl rfl rfl
  | stopping frames =>
      rw [stateManager] at spinning
      exact spinning.elim

/-- `End` sets the states. -/
theorem Idles.handlerStep (idles : Idles history nmsrv) (known : history ⊆ later) {index : Nat}
    (stepped : nmsrv.handlerStep index = .ok after)
    : Idles later after := by
  rw [Nmsrv.handlerStep] at stepped
  split at stepped
  · cases stepped
  · obtain ⟨core, found, stepped⟩ := bind_eq_ok.mp stepped
    cases System.object_eq_ok found
    cases stepped
    exact idles.frame known (.inr rfl) rfl idles.network idles.stateManager rfl rfl rfl rfl rfl
  · obtain ⟨core, found, stepped⟩ := bind_eq_ok.mp stepped
    cases System.object_eq_ok found
    cases stepped
    exact idles.frame known (.inl rfl) rfl idles.network idles.stateManager rfl rfl rfl rfl rfl

/-- A call that fails ends the program. -/
theorem Idles.exit (idles : Idles history nmsrv) {result : Int} (failed : result < 0)
    {main : MainThread} (waiting : main.Waiting)
    : Idles (history ++ [(nmsrv, .main result)])
        { nmsrv with nm := { nmsrv.nm with main, exited := true } } := by
  refine ⟨idles.stateVar, idles.network, idles.stateManager, waiting, idles.tidNetwork,
    idles.joins, idles.remains, fun _ => ?_⟩
  exact ⟨_, List.mem_append_right _ (List.mem_singleton_self _), result, failed, rfl⟩

/-- `Start` goes on, until it waits for the network thread. -/
theorem Idles.mainStep (idles : Idles history nmsrv) {result : Int}
    (stepped : mainStep result nmsrv.nm = .ok system)
    : Idles (history ++ [(nmsrv, .main result)]) { nmsrv with nm := system } := by
  have known : history ⊆ history ++ [(nmsrv, .main result)] := List.subset_append_left _ _
  have exited (ended : nmsrv.nm.exited)
      : ∃ visit ∈ history ++ [(nmsrv, Nmsrv.Action.main result)], ∃ result < 0,
        visit.2 = .main result := by
    obtain ⟨visit, member, failed⟩ := idles.exited ended
    exact ⟨visit, known member, failed⟩
  have waiting := idles.main
  rw [Nm.mainStep] at stepped
  cases main : nmsrv.nm.main with
  | openSockets =>
      rw [main] at stepped
      dsimp only at stepped
      split at stepped <;> cases stepped
      · rename_i failed
        exact idles.exit failed trivial
      · exact ⟨idles.stateVar, idles.network, idles.stateManager, trivial, idles.tidNetwork,
          idles.joins, idles.remains, exited⟩
  | setWakeUp =>
      rw [main] at stepped
      obtain ⟨core, found, stepped⟩ := bind_eq_ok.mp stepped
      cases System.object_eq_ok found
      cases stepped
      exact ⟨.inr rfl, idles.network, idles.stateManager, trivial, idles.tidNetwork,
        idles.joins, idles.remains, exited⟩
  | create handle =>
      rw [main] at stepped
      cases handle with
      | network =>
          obtain ⟨core, found, stepped⟩ := bind_eq_ok.mp stepped
          cases System.object_eq_ok found
          split at stepped
          · cases stepped
            exact idles.exit ‹_› trivial
          · split at stepped <;> cases stepped
            · exact ⟨idles.stateVar, trivial, idles.stateManager, trivial, .inr rfl,
                idles.joins, idles.remains, exited⟩
            · exact ⟨idles.stateVar, idles.network, idles.stateManager, trivial,
                idles.tidNetwork, idles.joins, idles.remains, exited⟩
      | stateManager =>
          obtain ⟨core, found, stepped⟩ := bind_eq_ok.mp stepped
          cases System.object_eq_ok found
          split at stepped
          · cases stepped
            exact idles.exit ‹_› trivial
          · split at stepped <;> cases stepped
            · exact ⟨idles.stateVar, idles.network, trivial, trivial, idles.tidNetwork,
                idles.joins, idles.remains, exited⟩
            · exact ⟨idles.stateVar, idles.network, idles.stateManager, trivial,
                idles.tidNetwork, idles.joins, idles.remains, exited⟩
  | join handle =>
      rw [main] at stepped waiting
      cases handle with
      | stateManager => exact waiting.elim
      | network =>
          obtain ⟨thread, found, stepped⟩ := bind_eq_ok.mp stepped
          obtain rfl : thread = .network := by
            obtain ⟨core, present, found⟩ := bind_eq_ok.mp found
            cases System.object_eq_ok present
            rcases idles.tidNetwork with zeroed | created
            · simp only [EthnmCore.tid, zeroed] at found
              cases found
            · simp only [EthnmCore.tid, created] at found
              split at found <;> cases found
              rfl
          cases stepped
          refine ⟨idles.stateVar, idles.network, idles.stateManager, trivial, idles.tidNetwork,
            ?_, idles.remains, exited⟩
          exact List.forall_mem_append.mpr
            ⟨idles.joins, List.forall_mem_singleton.mpr rfl⟩
  | joining handle thread =>
      rw [main] at stepped waiting
      have running : nmsrv.nm.hasFinished .network = false := by
        refine decide_eq_false (fun finished => ?_)
        have spinning := idles.network
        rw [finished] at spinning
        exact spinning
      cases handle <;> cases thread
      case network.network =>
        simp only [running] at stepped
        cases stepped
      all_goals exact waiting.elim
  | returned =>
      rw [main] at stepped
      cases stepped

theorem Idles.step (idles : Idles history nmsrv) {action : Nmsrv.Action}
    (stepped : nmsrv.step action = .ok after)
    : Idles (history ++ [(nmsrv, action)]) after := by
  have known : history ⊆ history ++ [(nmsrv, action)] := List.subset_append_left _ _
  unfold Nmsrv.step at stepped
  split at stepped
  · cases stepped
  cases action with
  | main result =>
      obtain ⟨system, moved, stepped⟩ := bind_eq_ok.mp stepped
      cases stepped
      exact idles.mainStep moved
  | network result =>
      obtain ⟨system, moved, stepped⟩ := bind_eq_ok.mp stepped
      cases stepped
      exact idles.networkStep known moved
  | stateManager =>
      obtain ⟨system, moved, stepped⟩ := bind_eq_ok.mp stepped
      cases stepped
      exact idles.stateManagerStep known moved
  | handler index => exact idles.handlerStep known stepped
  | signal number =>
      dsimp only at stepped
      split at stepped
      · rename_i handled
        cases stepped
        rw [Nmsrv.handleSignal, if_pos handled]
        exact idles.frame known (.inl rfl) rfl idles.network idles.stateManager rfl rfl rfl rfl
          rfl
      · cases stepped

end Idling

/-- However often SIGINT and SIGTERM arrive, and however the threads and the handlers interleave,
the program does nothing but look at its state, and ends only by a call that fails; by induction
on the run.
-/
theorem nmsrv_idles {history : List (Nmsrv × Nmsrv.Action)} {nmsrv : Nmsrv}
    (run : Run Nmsrv.step .start history nmsrv)
    : Idles history nmsrv := by
  have unguarded : Guarded (fun _ _ => True) history := fun _ _ => trivial
  refine run.induction unguarded ?_ (fun _ _ _ _ idles _ stepped => idles.step stepped)
  exact ⟨.inl rfl, trivial, trivial, trivial, .inl rfl, nofun, ⟨rfl, rfl⟩, nofun⟩

/-- SIGINT arrives while `Start` waits; its handler returns, and the threads go on. -/
theorem nmsrv_idles_sigint
    : ∃ history nmsrv,
        Run Nmsrv.step .start history nmsrv
        ∧ nmsrv.handlers = []
        ∧ nmsrv.nm.main = .joining .network .network
        ∧ Idles history nmsrv := by
  have passed : executesTo Nmsrv.step .start
      (List.replicate 5 (.main 0)
        ++ [.signal SIGINT, .handler 0, .network 0, .stateManager, .handler 0, .network 0])
      (fun _ nmsrv =>
        decide (nmsrv.handlers = [] ∧ nmsrv.nm.main = .joining .network .network))
      = true := by decide
  obtain ⟨history, nmsrv, run, test⟩ := exists_run_of_executesTo passed
  obtain ⟨handled, waits⟩ := of_decide_eq_true test
  exact ⟨history, nmsrv, run, handled, waits, nmsrv_idles run⟩

end Ethnm.Nm
