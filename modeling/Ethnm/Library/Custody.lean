import Mathlib.Logic.Function.Basic
import Mathlib.Data.List.Nodup

/-! Resources of which each either runs a worker or is in the hands of a single party. A
party takes a resource from its worker, works on it, and gives it to a new worker.
-/

namespace Ethnm.Custody
open Function

/-- What an existing resource is doing. -/
inductive Status (Worker Condition : Type)
  | running (worker : Worker)
  | held (condition : Condition)

/-- Who has which resource. A worker is listed with the resource it was started on. -/
structure Ledger (Party Resource Worker Condition : Type) where
  status : Resource → Option (Status Worker Condition)
  hands : Party → Option (Resource × Condition)
  workers : List (Worker × Resource)

variable {Party Resource Worker Condition : Type}

/-- A resource that runs no worker is in the hands of exactly one party. -/
structure Held (status : Resource → Option (Status Worker Condition))
    (hands : Party → Option (Resource × Condition))
    : Prop where
  inHand
    : ∀ party resource condition,
        hands party = some (resource, condition) → status resource = some (.held condition)
  exclusive
    : ∀ party other resource condition otherCondition,
        hands party = some (resource, condition)
        → hands other = some (resource, otherCondition)
        → party = other
  holder
    : ∀ resource condition,
        status resource = some (.held condition)
        → ∃ party, hands party = some (resource, condition)

/-- The workers listed are those that the resources run. -/
structure Employed (status : Resource → Option (Status Worker Condition))
    (workers : List (Worker × Resource))
    : Prop where
  owned : ∀ entry ∈ workers, status entry.2 = some (.running entry.1)
  employed
    : ∀ resource worker, status resource = some (.running worker) → (worker, resource) ∈ workers
  distinct : (workers.map (·.1)).Nodup

structure Accounted (ledger : Ledger Party Resource Worker Condition) : Prop where
  held : Held ledger.status ledger.hands
  employed : Employed ledger.status ledger.workers

/-- Nothing exists. -/
theorem accounted_empty
    : Accounted (⟨fun _ => none, fun _ => none, []⟩
        : Ledger Party Resource Worker Condition) :=
  ⟨⟨nofun, nofun, nofun⟩, ⟨nofun, nofun, List.nodup_nil⟩⟩

section Moving

variable [DecidableEq Party] [DecidableEq Resource] [DecidableEq Worker]

/-- What a party can do in one step. -/
inductive Move (ledger : Ledger Party Resource Worker Condition)
    : Ledger Party Resource Worker Condition → Prop
  | stay : Move ledger ledger
  | take {party resource worker} (condition : Condition)
    (running : ledger.status resource = some (.running worker))
    (free : ledger.hands party = none)
    : Move ledger {
        status := update ledger.status resource (some (.held condition))
        hands := update ledger.hands party (some (resource, condition))
        workers := ledger.workers.filter (·.1 ≠ worker)
      }
  | change {party resource condition} (after : Condition)
    (inHand : ledger.hands party = some (resource, condition))
    : Move ledger {
        ledger with
        status := update ledger.status resource (some (.held after))
        hands := update ledger.hands party (some (resource, after))
      }
  | give {party resource condition} (worker : Worker)
    (inHand : ledger.hands party = some (resource, condition))
    (unknown : ∀ entry ∈ ledger.workers, entry.1 ≠ worker)
    : Move ledger {
        status := update ledger.status resource (some (.running worker))
        hands := update ledger.hands party none
        workers := ledger.workers ++ [(worker, resource)]
      }
  | make {party resource} (condition : Condition)
    (absent : ledger.status resource = none) (free : ledger.hands party = none)
    : Move ledger {
        ledger with
        status := update ledger.status resource (some (.held condition))
        hands := update ledger.hands party (some (resource, condition))
      }
  | destroy {party resource condition}
    (inHand : ledger.hands party = some (resource, condition))
    : Move ledger {
        ledger with
        status := update ledger.status resource none
        hands := update ledger.hands party none
      }

variable {status : Resource → Option (Status Worker Condition)}
  {hands : Party → Option (Resource × Condition)} {workers : List (Worker × Resource)}
  {party : Party} {resource : Resource} {worker : Worker} {condition : Condition}

omit [DecidableEq Party] [DecidableEq Resource] [DecidableEq Worker] in
/-- What runs a worker, or does not exist, is in nobody's hands. -/
theorem Held.hands_ne (held : Held status hands)
    (other : ∀ condition, status resource ≠ some (.held condition)) (party : Party)
    (condition : Condition)
    : hands party ≠ some (resource, condition) :=
  fun inHand => other condition (held.inHand party resource condition inHand)

omit [DecidableEq Worker] in
/-- A party gets a resource that no other one has into its hands, and has no other one. -/
theorem Held.put (held : Held status hands)
    (alone : ∀ other condition, hands other = some (resource, condition) → other = party)
    (only : ∀ other condition, hands party = some (other, condition) → other = resource)
    : Held (update status resource (some (.held condition)))
        (update hands party (some (resource, condition))) := by
  have others {other elsewhere otherCondition} (member : other ≠ party)
      (inHand : hands other = some (elsewhere, otherCondition)) : elsewhere ≠ resource := by
    rintro rfl
    exact member (alone other otherCondition inHand)
  refine ⟨?_, ?_, ?_⟩
  · intro other elsewhere otherCondition inHand
    by_cases same : other = party
    · subst other
      rw [update_self] at inHand
      cases inHand
      exact update_self ..
    · rw [update_of_ne same] at inHand
      rw [update_of_ne (others same inHand)]
      exact held.inHand other elsewhere otherCondition inHand
  · intro first second elsewhere firstCondition secondCondition inFirst inSecond
    by_cases firstSame : first = party <;> by_cases secondSame : second = party
    · rw [firstSame, secondSame]
    · subst first
      rw [update_self] at inFirst
      rw [update_of_ne secondSame] at inSecond
      cases inFirst
      exact absurd rfl (others secondSame inSecond)
    · subst second
      rw [update_self] at inSecond
      rw [update_of_ne firstSame] at inFirst
      cases inSecond
      exact absurd rfl (others firstSame inFirst)
    · rw [update_of_ne firstSame] at inFirst
      rw [update_of_ne secondSame] at inSecond
      exact held.exclusive first second elsewhere firstCondition secondCondition inFirst inSecond
  · intro elsewhere otherCondition isHeld
    by_cases same : elsewhere = resource
    · subst elsewhere
      rw [update_self] at isHeld
      cases isHeld
      exact ⟨party, update_self ..⟩
    · rw [update_of_ne same] at isHeld
      obtain ⟨other, inHand⟩ := held.holder elsewhere otherCondition isHeld
      refine ⟨other, ?_⟩
      rw [update_of_ne]
      · exact inHand
      · rintro rfl
        exact same (only elsewhere otherCondition inHand)

omit [DecidableEq Worker] in
/-- A party gives a resource out of its hands. -/
theorem Held.drop (held : Held status hands) {now : Option (Status Worker Condition)}
    (inHand : hands party = some (resource, condition))
    (other : ∀ condition, now ≠ some (.held condition))
    : Held (update status resource now) (update hands party none) := by
  have remains {holder elsewhere otherCondition}
      (inHands : update hands party none holder = some (elsewhere, otherCondition))
      : hands holder = some (elsewhere, otherCondition) ∧ elsewhere ≠ resource := by
    by_cases same : holder = party
    · subst holder
      rw [update_self] at inHands
      cases inHands
    · rw [update_of_ne same] at inHands
      refine ⟨inHands, ?_⟩
      rintro rfl
      exact same (held.exclusive holder party elsewhere otherCondition condition inHands inHand)
  refine ⟨?_, ?_, ?_⟩
  · intro holder elsewhere otherCondition inHands
    obtain ⟨inHands, different⟩ := remains inHands
    rw [update_of_ne different]
    exact held.inHand holder elsewhere otherCondition inHands
  · intro first second elsewhere firstCondition secondCondition inFirst inSecond
    exact held.exclusive first second elsewhere firstCondition secondCondition
      (remains inFirst).1 (remains inSecond).1
  · intro elsewhere otherCondition isHeld
    by_cases same : elsewhere = resource
    · subst elsewhere
      rw [update_self] at isHeld
      exact absurd isHeld (other otherCondition)
    · rw [update_of_ne same] at isHeld
      obtain ⟨holder, inHands⟩ := held.holder elsewhere otherCondition isHeld
      refine ⟨holder, ?_⟩
      rw [update_of_ne]
      · exact inHands
      · rintro rfl
        rw [inHand] at inHands
        cases inHands
        exact same rfl

omit [DecidableEq Worker] in
/-- A resource without a worker changes, and still has none. -/
theorem Employed.change (employed : Employed status workers)
    {now : Option (Status Worker Condition)}
    (idle : ∀ worker, status resource ≠ some (.running worker))
    (still : ∀ worker, now ≠ some (.running worker))
    : Employed (update status resource now) workers := by
  refine ⟨?_, ?_, employed.distinct⟩
  · intro entry member
    have running := employed.owned entry member
    rw [update_of_ne]
    · exact running
    · intro same
      rw [same] at running
      exact idle entry.1 running
  · intro elsewhere worker running
    by_cases same : elsewhere = resource
    · subst elsewhere
      rw [update_self] at running
      exact absurd running (still worker)
    · rw [update_of_ne same] at running
      exact employed.employed elsewhere worker running

/-- A resource loses its worker. -/
theorem Employed.dismiss (employed : Employed status workers)
    {now : Option (Status Worker Condition)}
    (running : status resource = some (.running worker))
    (idle : ∀ worker, now ≠ some (.running worker))
    : Employed (update status resource now) (workers.filter (·.1 ≠ worker)) := by
  refine ⟨?_, ?_, ?_⟩
  · intro entry member
    obtain ⟨member, different⟩ := List.mem_filter.mp member
    have owned := employed.owned entry member
    rw [update_of_ne]
    · exact owned
    · intro same
      rw [same, running] at owned
      cases owned
      exact of_decide_eq_true different rfl
  · intro elsewhere other elsewhereRunning
    by_cases same : elsewhere = resource
    · subst elsewhere
      rw [update_self] at elsewhereRunning
      exact absurd elsewhereRunning (idle other)
    · rw [update_of_ne same] at elsewhereRunning
      refine List.mem_filter.mpr
        ⟨employed.employed elsewhere other elsewhereRunning, decide_eq_true ?_⟩
      rintro rfl
      have entry := List.inj_on_of_nodup_map employed.distinct
        (employed.employed elsewhere other elsewhereRunning)
        (employed.employed resource other running) rfl
      exact same (congrArg Prod.snd entry)
  · exact employed.distinct.sublist (List.filter_sublist.map _)

omit [DecidableEq Worker] in
/-- A resource without a worker gets a new one. -/
theorem Employed.hire (employed : Employed status workers)
    (idle : ∀ worker, status resource ≠ some (.running worker))
    (unknown : ∀ entry ∈ workers, entry.1 ≠ worker)
    : Employed (update status resource (some (.running worker)))
        (workers ++ [(worker, resource)]) := by
  refine ⟨?_, ?_, ?_⟩
  · intro entry member
    rcases List.mem_append.mp member with member | member
    · have running := employed.owned entry member
      rw [update_of_ne]
      · exact running
      · intro same
        rw [same] at running
        exact idle entry.1 running
    · rw [List.mem_singleton] at member
      subst entry
      exact update_self ..
  · intro elsewhere other running
    by_cases same : elsewhere = resource
    · subst elsewhere
      rw [update_self] at running
      cases running
      exact List.mem_append_right workers List.mem_cons_self
    · rw [update_of_ne same] at running
      exact List.mem_append_left _ (employed.employed elsewhere other running)
  · rw [List.map_append, List.nodup_append]
    refine ⟨employed.distinct, List.nodup_singleton worker, ?_⟩
    intro first firstMember second secondMember
    obtain ⟨entry, member, rfl⟩ := List.mem_map.mp firstMember
    rw [List.map_singleton, List.mem_singleton] at secondMember
    subst second
    exact unknown entry member

/-- Every move keeps the accounts. -/
theorem Accounted.move {ledger after : Ledger Party Resource Worker Condition}
    (accounted : Accounted ledger) (moved : Move ledger after)
    : Accounted after := by
  obtain ⟨held, employed⟩ := accounted
  cases moved with
  | stay => exact ⟨held, employed⟩
  | take condition running free =>
      refine ⟨held.put ?_ ?_, employed.dismiss running nofun⟩
      · intro other condition inHand
        refine absurd inHand (held.hands_ne ?_ other condition)
        rw [running]
        exact nofun
      · rw [free]
        exact nofun
  | change after inHand =>
      refine ⟨held.put ?_ ?_, employed.change ?_ nofun⟩
      · intro other condition inHands
        exact held.exclusive other _ _ _ _ inHands inHand
      · intro other condition inHands
        rw [inHand] at inHands
        cases inHands
        rfl
      · rw [held.inHand _ _ _ inHand]
        exact nofun
  | give worker inHand unknown =>
      refine ⟨held.drop inHand nofun, employed.hire ?_ unknown⟩
      rw [held.inHand _ _ _ inHand]
      exact nofun
  | make condition absent free =>
      refine ⟨held.put ?_ ?_, employed.change ?_ nofun⟩
      · intro other condition inHand
        refine absurd inHand (held.hands_ne ?_ other condition)
        rw [absent]
        exact nofun
      · rw [free]
        exact nofun
      · rw [absent]
        exact nofun
  | destroy inHand =>
      refine ⟨held.drop inHand nofun, employed.change ?_ nofun⟩
      rw [held.inHand _ _ _ inHand]
      exact nofun

end Moving

section Counting

variable {ledger : Ledger Party Resource Worker Condition}

/-- No two workers are on one resource. -/
theorem Accounted.resources_nodup (accounted : Accounted ledger)
    : (ledger.workers.map (·.2)).Nodup := by
  have distinct := accounted.employed.distinct
  refine List.Nodup.map_on ?_ (List.Nodup.of_map _ distinct)
  intro first firstMember second secondMember same
  refine List.inj_on_of_nodup_map distinct firstMember secondMember ?_
  have running := accounted.employed.owned first firstMember
  rw [same, accounted.employed.owned second secondMember] at running
  exact (Status.running.inj (Option.some.inj running)).symm

/-- When nobody has a resource in hand there are as many workers as resources. -/
theorem Accounted.length_workers (accounted : Accounted ledger)
    (free : ∀ party, ledger.hands party = none) {resources : List Resource}
    (distinct : resources.Nodup)
    (all : ∀ resource, resource ∈ resources ↔ ledger.status resource ≠ none)
    : ledger.workers.length = resources.length := by
  have same : (ledger.workers.map (·.2)).Perm resources := by
    rw [List.perm_ext_iff_of_nodup accounted.resources_nodup distinct]
    intro resource
    rw [all]
    constructor
    · intro member
      obtain ⟨entry, listed, rfl⟩ := List.mem_map.mp member
      rw [accounted.employed.owned entry listed]
      exact nofun
    · intro present
      obtain ⟨now, found⟩ := Option.ne_none_iff_exists'.mp present
      cases now with
      | running worker =>
          exact List.mem_map.mpr
            ⟨(worker, resource), accounted.employed.employed resource worker found, rfl⟩
      | held condition =>
          obtain ⟨party, inHand⟩ := accounted.held.holder resource condition found
          rw [free] at inHand
          cases inHand
  rw [← same.length_eq, List.length_map]

end Counting

end Ethnm.Custody
