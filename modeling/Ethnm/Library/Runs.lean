/-! Runs of a fallible step function. The history of a run pairs each action with the state
before it, so that a condition on the steps of a run is a condition on its history.
-/

namespace Ethnm.Runs

/-- A computation that succeeds succeeds in each of its parts. -/
theorem bind_eq_ok {ε α β : Type} {first : Except ε α} {next : α → Except ε β} {result : β}
    : (first >>= next) = .ok result ↔ ∃ value, first = .ok value ∧ next value = .ok result := by
  cases first with
  | error fault => exact iff_of_false nofun nofun
  | ok value => exact ⟨fun done => ⟨value, rfl, done⟩, fun ⟨_, rfl, done⟩ => done⟩

variable {σ α ε : Type} {step : σ → α → Except ε σ} {initial final : σ}
  {history : List (σ × α)}

/-- The steps that lead from a state to another one. -/
inductive Run (step : σ → α → Except ε σ) (initial : σ) : List (σ × α) → σ → Prop
  | refl : Run step initial [] initial
  | snoc {history : List (σ × α)} {state after : σ} {action : α}
      (run : Run step initial history state) (stepped : step state action = .ok after)
      : Run step initial (history ++ [(state, action)]) after

/-- Every step of a history was taken in a state that its guard allows. -/
def Guarded (guard : σ → α → Prop) (history : List (σ × α)) : Prop :=
  ∀ visit ∈ history, guard visit.1 visit.2

instance {guard : σ → α → Prop} [∀ state action, Decidable (guard state action)]
    : Decidable (Guarded guard history) :=
  inferInstanceAs (Decidable (∀ visit ∈ history, guard visit.1 visit.2))

theorem guarded_snoc {guard : σ → α → Prop} {state : σ} {action : α}
    : Guarded guard (history ++ [(state, action)])
      ↔ Guarded guard history ∧ guard state action := by
  rw [Guarded, List.forall_mem_append, List.forall_mem_singleton, Guarded]

theorem Guarded.mono {guard weaker : σ → α → Prop}
    (implied : ∀ state action, guard state action → weaker state action)
    (guarded : Guarded guard history) : Guarded weaker history :=
  fun visit member => implied visit.1 visit.2 (guarded visit member)

/-- What holds at first, and after each allowed step, holds after every run of allowed steps;
by induction on the run. The invariant may speak of the history.
-/
theorem Run.induction {guard : σ → α → Prop} {invariant : List (σ × α) → σ → Prop}
    (run : Run step initial history final) (guarded : Guarded guard history)
    (start : invariant [] initial)
    (preserved : ∀ history state action after, invariant history state → guard state action
      → step state action = .ok after → invariant (history ++ [(state, action)]) after)
    : invariant history final := by
  induction run with
  | refl => exact start
  | snoc run stepped ih =>
      obtain ⟨guarded, allowed⟩ := guarded_snoc.mp guarded
      exact preserved _ _ _ _ (ih guarded) allowed stepped

/-- The rule for an invariant of the state alone. -/
theorem Run.invariant {guard : σ → α → Prop} {invariant : σ → Prop}
    (run : Run step initial history final) (guarded : Guarded guard history)
    (start : invariant initial)
    (preserved : ∀ state action after, invariant state → guard state action
      → step state action = .ok after → invariant after)
    : invariant final :=
  run.induction guarded start
    (fun _ state action after => preserved state action after)

/-- The rule for an invariant of all steps. -/
theorem Run.always {invariant : σ → Prop} (run : Run step initial history final)
    (start : invariant initial)
    (preserved : ∀ state action after, invariant state → step state action = .ok after
      → invariant after)
    : invariant final := by
  have unguarded : Guarded (fun _ _ => True) history := fun _ _ => trivial
  exact run.invariant unguarded start
    (fun state action after kept _ => preserved state action after kept)

/-- Every step of a history was taken in a state that its guard allows, given the steps that
came before it.
-/
def GuardedAfter (guard : List (σ × α) → σ → α → Prop)
    : (earlier later : List (σ × α)) → Prop
  | _, [] => True
  | earlier, visit :: later =>
      guard earlier visit.1 visit.2 ∧ GuardedAfter guard (earlier ++ [visit]) later

instance decidableGuardedAfter {guard : List (σ × α) → σ → α → Prop}
    [∀ earlier state action, Decidable (guard earlier state action)]
    : ∀ earlier later, Decidable (GuardedAfter guard earlier later)
  | _, [] => isTrue trivial
  | earlier, visit :: later =>
      have : Decidable (GuardedAfter guard (earlier ++ [visit]) later) :=
        decidableGuardedAfter (earlier ++ [visit]) later
      inferInstanceAs (Decidable (_ ∧ _))

theorem guardedAfter_snoc {guard : List (σ × α) → σ → α → Prop}
    {earlier later : List (σ × α)} {state : σ} {action : α}
    : GuardedAfter guard earlier (later ++ [(state, action)])
      ↔ GuardedAfter guard earlier later ∧ guard (earlier ++ later) state action := by
  induction later generalizing earlier with
  | nil =>
      rw [List.nil_append, List.append_nil, GuardedAfter, GuardedAfter]
      exact and_comm
  | cons visit later ih =>
      rw [List.cons_append, GuardedAfter, GuardedAfter, ih, List.append_assoc,
        List.singleton_append, and_assoc]

/-- The rule for guards that look back: what holds at first, and after each allowed step, holds
after every run of allowed steps; by induction on the run.
-/
theorem Run.inductionAfter {guard : List (σ × α) → σ → α → Prop}
    {invariant : List (σ × α) → σ → Prop} (run : Run step initial history final)
    (guarded : GuardedAfter guard [] history) (start : invariant [] initial)
    (preserved : ∀ history state action after, invariant history state
      → guard history state action → step state action = .ok after
      → invariant (history ++ [(state, action)]) after)
    : invariant history final := by
  induction run with
  | refl => exact start
  | snoc run stepped ih =>
      obtain ⟨guarded, allowed⟩ := guardedAfter_snoc.mp guarded
      exact preserved _ _ _ _ (ih guarded) allowed stepped

/-- A step before a run makes a longer run; by induction on the run. -/
theorem Run.cons {state after : σ} {action : α} (stepped : step state action = .ok after)
    (run : Run step after history final)
    : Run step state ((state, action) :: history) final := by
  induction run with
  | refl => exact Run.snoc Run.refl stepped
  | snoc _ last ih => exact Run.snoc ih last

/-- A run is empty, or begins with a step; by induction on the run. -/
theorem Run.begins (run : Run step initial history final)
    : history = [] ∧ final = initial
      ∨ ∃ action after later,
        history = (initial, action) :: later
        ∧ step initial action = .ok after
        ∧ Run step after later final := by
  induction run with
  | refl => exact .inl ⟨rfl, rfl⟩
  | @snoc history state after action run stepped ih =>
      rcases ih with ⟨rfl, rfl⟩ | ⟨first, next, later, rfl, begun, rest⟩
      · exact .inr ⟨action, after, [], rfl, stepped, Run.refl⟩
      · exact .inr ⟨first, next, later ++ [(state, action)], rfl, begun, Run.snoc rest stepped⟩

/-- Carry out actions, and keep the history. -/
def execute (step : σ → α → Except ε σ) : σ → List α → Except ε (List (σ × α) × σ)
  | state, [] => .ok ([], state)
  | state, action :: actions => do
      let after ← step state action
      let (history, final) ← execute step after actions
      return ((state, action) :: history, final)

/-- What is carried out is a run; by induction on the actions. -/
theorem run_of_execute {actions : List α}
    (executed : execute step initial actions = .ok (history, final))
    : Run step initial history final := by
  induction actions generalizing initial history with
  | nil =>
      cases executed
      exact Run.refl
  | cons action actions ih =>
      obtain ⟨after, stepped, rest⟩ := bind_eq_ok.mp executed
      obtain ⟨⟨later, last⟩, executed, returned⟩ := bind_eq_ok.mp rest
      cases returned
      exact Run.cons stepped (ih executed)

/-- Carry out actions, and test the run. -/
def executesTo (step : σ → α → Except ε σ) (initial : σ) (actions : List α)
    (test : List (σ × α) → σ → Bool)
    : Bool :=
  match execute step initial actions with
  | .ok (history, final) => test history final
  | .error _ => false

theorem exists_run_of_executesTo {actions : List α} {test : List (σ × α) → σ → Bool}
    (passed : executesTo step initial actions test = true)
    : ∃ history final, Run step initial history final ∧ test history final = true := by
  rw [executesTo] at passed
  cases executed : execute step initial actions with
  | error fault =>
      rw [executed] at passed
      cases passed
  | ok reached =>
      rw [executed] at passed
      exact ⟨reached.1, reached.2, run_of_execute executed, passed⟩

-----------------------------------------------------------------------------------------
-- Steps that do not go wrong
-----------------------------------------------------------------------------------------

section Safety

variable {harmless : ε → Prop}

/-- A computation gives a good result, or fails harmlessly. -/
def Leads (harmless : ε → Prop) (good : α → Prop) : Except ε α → Prop
  | .ok value => good value
  | .error fault => harmless fault

/-- Where every allowed step from the invariant leads back to it, the invariant holds after every
run of allowed steps, and no allowed step then goes wrong.
-/
theorem Run.safe {guard : σ → α → Prop} {invariant : σ → Prop}
    (run : Run step initial history final) (guarded : Guarded guard history)
    (start : invariant initial)
    (leads : ∀ state action, invariant state → guard state action
      → Leads harmless invariant (step state action))
    : invariant final
      ∧ ∀ action, guard final action → Leads harmless invariant (step final action) := by
  have reached : invariant final :=
    run.invariant guarded start (fun state action after kept allowed stepped => by
      have goes := leads state action kept allowed
      rwa [stepped] at goes)
  exact ⟨reached, fun action allowed => leads final action reached allowed⟩

end Safety

-----------------------------------------------------------------------------------------
-- Two runs of the same actions
-----------------------------------------------------------------------------------------

section Lockstep

variable {τ : Type} {first : σ → α → Except (ε × σ) σ} {second : τ → α → Except (ε × τ) τ}
  {move : σ → τ} {guard : σ → α → Prop}

/-- The outcome of a step that keeps the state when it fails, seen in other states. -/
def carry (move : σ → τ) : Except (ε × σ) σ → Except (ε × τ) τ
  | .ok state => .ok (move state)
  | .error (fault, state) => .error (fault, move state)

/-- What does the same in the other states does so in each of its parts. -/
theorem carry_bind {move : σ → σ} {outcome : Except (ε × σ) σ}
    {next second : σ → Except (ε × σ) σ}
    (commutes : ∀ state, second (move state) = carry move (next state))
    : (carry move outcome >>= second) = carry move (outcome >>= next) := by
  cases outcome with
  | error stop => rfl
  | ok state => exact commutes state

/-- Every action that is come to is tried in a state that its guard allows. -/
def GuardedAlong (step : σ → α → Except (ε × σ) σ) (guard : σ → α → Prop)
    : σ → List α → Prop
  | _, [] => True
  | state, action :: actions =>
      guard state action
      ∧ match step state action with
        | .ok after => GuardedAlong step guard after actions
        | .error _ => True

instance decidableGuardedAlong [∀ state action, Decidable (guard state action)]
    : ∀ state actions, Decidable (GuardedAlong first guard state actions)
  | _, [] => isTrue trivial
  | state, action :: actions =>
      have : Decidable
          (match first state action with
            | .ok after => GuardedAlong first guard after actions
            | .error _ => True) :=
        match first state action with
        | .ok after => decidableGuardedAlong after actions
        | .error _ => isTrue trivial
      inferInstanceAs (Decidable (_ ∧ _))

/-- Two step functions that do the same in every allowed step do so for all actions, up to
the one that fails; by induction on the actions.
-/
theorem foldlM_carry (invariant : σ → Prop) {initial : σ} {actions : List α}
    (guarded : GuardedAlong first guard initial actions) (start : invariant initial)
    (commutes : ∀ state action, invariant state → guard state action
      → second (move state) action = carry move (first state action))
    (preserved : ∀ state action after, invariant state → first state action = .ok after
      → invariant after)
    : actions.foldlM second (move initial) = carry move (actions.foldlM first initial) := by
  induction actions generalizing initial with
  | nil => rfl
  | cons action actions ih =>
      obtain ⟨allowed, guarded⟩ := guarded
      rw [List.foldlM_cons, List.foldlM_cons, commutes initial action start allowed]
      cases stepped : first initial action with
      | error stop => rfl
      | ok after =>
          rw [stepped] at guarded
          exact ih guarded (preserved initial action after start stepped)

end Lockstep

end Ethnm.Runs
