import Ethnm.Library.Runs

/-! Sections of code under one readers-writer lock. Threads take the lock for reading or for
writing, run the body of a section statement by statement, and give the lock back. As long as
a section that writes is never inside together with another one, every run does what its
sections do one after the other, in the order in which they were left.
-/

namespace RwSections
open Ethnm.Runs

/-- Whether a section takes the lock with `rdlock` or with `wrlock`. -/
inductive Mode
  | read
  | write
  deriving DecidableEq, Repr

/-- What a statement of a body does: the body goes on, or it has ended. -/
inductive Turn (State Place Result : Type)
  | goes (place : Place) (state : State)
  | ends (result : Result)

/-- The sections of a program. `Place` is where a thread is in a body, with its locals. -/
structure Sections (Op State : Type) (Place : Op → Type) (Result Fault : Type) where
  mode : Op → Mode
  writes : Op → Bool
  enter : (op : Op) → Place op
  turn : (op : Op) → Place op → State → Except Fault (Turn State (Place op) Result)
  readOnly
    : ∀ {op state after} {place next : Place op}, writes op = false →
      turn op place state = .ok (.goes next after) → after = state

/-- Where a thread is. -/
inductive Phase (Op : Type) (Place : Op → Type) (Result : Type)
  | idle
  | waiting (op : Op)
  | inside (op : Op) (place : Place op)
  | leaving (op : Op) (result : Result)

/-- The section for which a thread holds the lock. -/
def Phase.held {Op : Type} {Place : Op → Type} {Result : Type}
    : Phase Op Place Result → Option Op
  | .idle | .waiting _ => none
  | .inside op _ | .leaving op _ => some op

/-- The section that a thread has asked for. -/
def Phase.asked {Op : Type} {Place : Op → Type} {Result : Type}
    : Phase Op Place Result → Option Op
  | .idle => none
  | .waiting op | .inside op _ | .leaving op _ => some op

/-- A section that is held was asked for. -/
theorem Phase.asked_of_held {Op : Type} {Place : Op → Type} {Result : Type}
    {phase : Phase Op Place Result} {op : Op} (held : phase.held = some op)
    : phase.asked = some op := by
  cases phase with
  | idle => cases held
  | waiting op => cases held
  | inside op place => exact held
  | leaving op result => exact held

/-- A section that was left, and by whom. -/
structure Completion (Thread Op Result : Type) where
  thread : Thread
  op : Op
  result : Result
  deriving DecidableEq, Repr

/-- The lock is known by the threads that hold it. -/
structure Config (Thread Op State : Type) (Place : Op → Type) (Result : Type) where
  state : State
  phases : Thread → Phase Op Place Result
  readers : List Thread
  writer : Option Thread
  log : List (Completion Thread Op Result)

inductive Move (Thread Op : Type)
  | call (thread : Thread) (op : Op)
  | lock (thread : Thread)
  | turn (thread : Thread)
  | unlock (thread : Thread)
  deriving DecidableEq, Repr

variable {Thread Op State Result Fault : Type} {Place : Op → Type}

namespace Config

/-- Nobody is in a section. -/
def start (state : State) : Config Thread Op State Place Result :=
  { state, phases := fun _ => .idle, readers := [], writer := none, log := [] }

/-- A thread goes on. -/
def go [DecidableEq Thread] (thread : Thread) (phase : Phase Op Place Result)
    (config : Config Thread Op State Place Result)
    : Config Thread Op State Place Result :=
  {
    config with
    phases := fun other => if other = thread then phase else config.phases other
  }

/-- The section for which a thread holds the lock. -/
def held (config : Config Thread Op State Place Result) (thread : Thread) : Option Op :=
  (config.phases thread).held

end Config

namespace Sections

variable (sections : Sections Op State Place Result Fault)

/-- A thread asks for the lock. It waits as long as the lock is not to be had. -/
def lock [DecidableEq Thread] (thread : Thread)
    (config : Config Thread Op State Place Result)
    : Except (Option Fault) (Config Thread Op State Place Result) :=
  match config.phases thread with
  | .waiting op =>
      let entered := config.go thread (.inside op (sections.enter op))
      match sections.mode op with
      | .read =>
          if config.writer.isNone then
            .ok { entered with readers := thread :: config.readers }
          else
            .error none
      | .write =>
          if config.writer.isNone ∧ config.readers.isEmpty then
            .ok { entered with writer := some thread }
          else
            .error none
  | _ => .error none

/-- One step of one thread. A step that a thread cannot make has no fault. -/
def step [DecidableEq Thread] (config : Config Thread Op State Place Result)
    : Move Thread Op → Except (Option Fault) (Config Thread Op State Place Result)
  | .call thread op =>
      match config.phases thread with
      | .idle => .ok (config.go thread (.waiting op))
      | _ => .error none
  | .lock thread => sections.lock thread config
  | .turn thread =>
      match config.phases thread with
      | .inside op place =>
          match sections.turn op place config.state with
          | .error fault => .error (some fault)
          | .ok (.goes next state) => .ok { config.go thread (.inside op next) with state }
          | .ok (.ends result) => .ok (config.go thread (.leaving op result))
      | _ => .error none
  | .unlock thread =>
      match config.phases thread with
      | .leaving op result =>
          .ok {
            config.go thread .idle with
            readers := config.readers.erase thread
            writer := if config.writer = some thread then none else config.writer
            log := config.log ++ [⟨thread, op, result⟩]
          }
      | _ => .error none

/-- What a thread that has the state for itself comes to in the body of a section. -/
inductive Within (op : Op) (base : State) : Place op → State → Prop
  | enter : Within op base (sections.enter op) base
  | goes {place next : Place op} {state after : State} (earlier : Within op base place state)
    (turned : sections.turn op place state = .ok (.goes next after))
    : Within op base next after

/-- What a section does that has the state for itself. -/
def Completes (op : Op) (base state : State) (result : Result) : Prop :=
  ∃ place, sections.Within op base place state
    ∧ sections.turn op place state = .ok (.ends result)

/-- A section that writes only waits for other writers. -/
def Misplaced (op : Op) : Prop :=
  sections.writes op = true ∧ sections.mode op = .read

/-- No section is entered next to one that writes. The lock sees to it for `wrlock`. -/
def Apart (config : Config Thread Op State Place Result) : Move Thread Op → Prop
  | .lock thread =>
      ∀ op, config.phases thread = .waiting op → sections.mode op = .read →
        (sections.writes op = true → config.readers = [])
        ∧ ∀ reader ∈ config.readers, ∀ other, config.held reader = some other →
            sections.writes other = false
  | _ => True

end Sections

/-- The effect of completed sections one after the other. -/
inductive Replays (completes : Op → State → State → Result → Prop) (initial : State)
    : List (Completion Thread Op Result) → State → Prop
  | nil : Replays completes initial [] initial
  | snoc {log : List (Completion Thread Op Result)} {base state : State} {thread : Thread}
    {op : Op} {result : Result} (earlier : Replays completes initial log base)
    (completed : completes op base state result)
    : Replays completes initial (log ++ [⟨thread, op, result⟩]) state

/-- What a completed section did, it did on the effect of those before it; by induction on
the sections.
-/
theorem Replays.split {completes : Op → State → State → Result → Prop} {initial final : State}
    {log earlier later : List (Completion Thread Op Result)}
    {completion : Completion Thread Op Result} (replays : Replays completes initial log final)
    (split : log = earlier ++ completion :: later)
    : ∃ base state, Replays completes initial earlier base
        ∧ completes completion.op base state completion.result := by
  induction replays generalizing later with
  | nil => exact nomatch (List.append_eq_nil_iff.mp split.symm).2
  | @snoc log base state thread op result before completed ih =>
      rcases List.eq_nil_or_concat later with rfl | ⟨others, last, rfl⟩
      · obtain ⟨rfl, same⟩ := List.append_inj' split rfl
        cases same
        exact ⟨base, state, before, completed⟩
      · rw [List.concat_eq_append, ← List.cons_append, ← List.append_assoc] at split
        exact ih (List.append_inj' split rfl).1

/-- What every section does can be said in other words; by induction on the sections. -/
theorem Replays.imp {completes other : Op → State → State → Result → Prop}
    {initial final : State} {log : List (Completion Thread Op Result)}
    (replays : Replays completes initial log final)
    (implied
      : ∀ op base state result, completes op base state result →
        other op base state result)
    : Replays other initial log final := by
  induction replays with
  | nil => exact .nil
  | snoc _ completed ih => exact ih.snoc (implied _ _ _ _ completed)

-----------------------------------------------------------------------------------------
-- What a step does
-----------------------------------------------------------------------------------------

section Steps

variable [DecidableEq Thread] {sections : Sections Op State Place Result Fault}
  {config after : Config Thread Op State Place Result} {thread : Thread}

/-- The steps that are made, with what they need. -/
inductive Stepped (sections : Sections Op State Place Result Fault)
    (config : Config Thread Op State Place Result)
    : Move Thread Op → Config Thread Op State Place Result → Prop
  | call {thread : Thread} {op : Op} (idle : config.phases thread = .idle)
    : Stepped sections config (.call thread op) (config.go thread (.waiting op))
  | rdlock {thread : Thread} {op : Op} (waiting : config.phases thread = .waiting op)
    (mode : sections.mode op = .read) (unwritten : config.writer = none)
    : Stepped sections config (.lock thread) {
        config.go thread (.inside op (sections.enter op)) with
        readers := thread :: config.readers
      }
  | wrlock {thread : Thread} {op : Op} (waiting : config.phases thread = .waiting op)
    (mode : sections.mode op = .write) (unwritten : config.writer = none)
    (unread : config.readers = [])
    : Stepped sections config (.lock thread) {
        config.go thread (.inside op (sections.enter op)) with
        writer := some thread
      }
  | goes {thread : Thread} {op : Op} {place next : Place op} {state : State}
    (inside : config.phases thread = .inside op place)
    (turned : sections.turn op place config.state = .ok (.goes next state))
    : Stepped sections config (.turn thread)
        { config.go thread (.inside op next) with state }
  | ends {thread : Thread} {op : Op} {place : Place op} {result : Result}
    (inside : config.phases thread = .inside op place)
    (turned : sections.turn op place config.state = .ok (.ends result))
    : Stepped sections config (.turn thread) (config.go thread (.leaving op result))
  | unlock {thread : Thread} {op : Op} {result : Result}
    (leaving : config.phases thread = .leaving op result)
    : Stepped sections config (.unlock thread) {
        config.go thread .idle with
        readers := config.readers.erase thread
        writer := if config.writer = some thread then none else config.writer
        log := config.log ++ [⟨thread, op, result⟩]
      }

/-- A step is one of these. -/
theorem stepped_of_step {move : Move Thread Op} (step : sections.step config move = .ok after)
    : Stepped sections config move after := by
  cases move with
  | call thread op =>
      cases phase : config.phases thread <;> rw [Sections.step, phase] at step <;> cases step
      exact .call phase
  | lock thread =>
      cases phase : config.phases thread with
      | waiting op =>
          simp only [Sections.step, Sections.lock, phase] at step
          cases mode : sections.mode op with
          | read =>
              simp only [mode] at step
              split at step <;> cases step
              exact .rdlock phase mode (Option.isNone_iff_eq_none.mp (by assumption))
          | write =>
              simp only [mode] at step
              split at step <;> cases step
              rename_i free
              exact .wrlock phase mode (Option.isNone_iff_eq_none.mp free.1)
                (List.isEmpty_iff.mp free.2)
      | _ => simp [Sections.step, Sections.lock, phase] at step
  | turn thread =>
      cases phase : config.phases thread with
      | inside op place =>
          simp only [Sections.step, phase] at step
          cases turned : sections.turn op place config.state with
          | error fault =>
              rw [turned] at step
              cases step
          | ok turn =>
              rw [turned] at step
              cases turn with
              | goes next state =>
                  cases step
                  exact .goes phase turned
              | ends result =>
                  cases step
                  exact .ends phase turned
      | _ => simp [Sections.step, phase] at step
  | unlock thread =>
      cases phase : config.phases thread <;> rw [Sections.step, phase] at step <;> cases step
      exact .unlock phase

theorem Config.held_go (phase : Phase Op Place Result) (other : Thread)
    : (config.go thread phase).held other
      = if other = thread then phase.held else config.held other := by
  unfold Config.held Config.go
  simp only
  split <;> rfl

/-- A thread that goes on in its section, or outside of one, holds what it held. -/
theorem Config.held_go_of_eq {phase : Phase Op Place Result}
    (same : config.held thread = phase.held)
    : (config.go thread phase).held = config.held := by
  funext other
  rw [Config.held_go]
  split
  · rename_i here
    rw [here, same]
  · rfl

end Steps

-----------------------------------------------------------------------------------------
-- Who holds the lock
-----------------------------------------------------------------------------------------

section Locking

variable {sections : Sections Op State Place Result Fault}
  {config after : Config Thread Op State Place Result} {thread : Thread} {op : Op}

/-- The lock is held by the threads that are in a section, in the mode of that section, and
a writer holds it alone.
-/
structure Locked (sections : Sections Op State Place Result Fault)
    (config : Config Thread Op State Place Result) : Prop where
  readers
    : ∀ thread, thread ∈ config.readers
        ↔ ∃ op, config.held thread = some op ∧ sections.mode op = .read
  writer
    : ∀ thread, config.writer = some thread
        ↔ ∃ op, config.held thread = some op ∧ sections.mode op = .write
  alone : config.writer = none ∨ config.readers = []
  nodup : config.readers.Nodup

theorem Locked.start (sections : Sections Op State Place Result Fault) (state : State)
    : Locked sections (Config.start state : Config Thread Op State Place Result) where
  readers := fun _ => iff_of_false List.not_mem_nil (fun ⟨_, held, _⟩ => nomatch held)
  writer := fun _ => iff_of_false nofun (fun ⟨_, held, _⟩ => nomatch held)
  alone := .inl rfl
  nodup := List.nodup_nil

/-- Where the lock does not change hands, nothing changes. -/
theorem Locked.of_held (locked : Locked sections config) (held : after.held = config.held)
    (readers : after.readers = config.readers) (writer : after.writer = config.writer)
    : Locked sections after := by
  refine ⟨?_, ?_, ?_, ?_⟩
  · rw [held, readers]
    exact locked.readers
  · rw [held, writer]
    exact locked.writer
  · rw [readers, writer]
    exact locked.alone
  · rw [readers]
    exact locked.nodup

/-- A thread that holds nothing is not known to the lock. -/
theorem Locked.not_mem (locked : Locked sections config) (none : config.held thread = none)
    : thread ∉ config.readers := by
  intro member
  obtain ⟨op, held, -⟩ := (locked.readers thread).mp member
  exact nomatch none.symm.trans held

/-- Where nobody has the lock for writing, all who have it are known as readers. -/
theorem Locked.mem_of_held (locked : Locked sections config) (unwritten : config.writer = none)
    (held : config.held thread = some op)
    : thread ∈ config.readers := by
  cases mode : sections.mode op with
  | read => exact (locked.readers thread).mpr ⟨op, held, mode⟩
  | write =>
      have writes := (locked.writer thread).mpr ⟨op, held, mode⟩
      exact nomatch unwritten.symm.trans writes

/-- A lock that is free is held by nobody. -/
theorem Locked.nobody (locked : Locked sections config) (unwritten : config.writer = none)
    (unread : config.readers = []) (thread : Thread)
    : config.held thread = none := by
  cases held : config.held thread with
  | none => rfl
  | some op =>
      have member := locked.mem_of_held unwritten held
      rw [unread] at member
      exact nomatch member

/-- One more reader. -/
theorem Locked.rdlock [DecidableEq Thread] (locked : Locked sections config)
    (none : config.held thread = none) (mode : sections.mode op = .read)
    (held : ∀ other, after.held other = if other = thread then some op else config.held other)
    (readers : after.readers = thread :: config.readers) (unwritten : config.writer = .none)
    (writer : after.writer = config.writer)
    : Locked sections after := by
  refine ⟨fun other => ?_, fun other => ?_, .inl (writer.trans unwritten), ?_⟩
  · rw [readers, held, List.mem_cons]
    by_cases here : other = thread
    · rw [if_pos here]
      exact iff_of_true (.inl here) ⟨op, rfl, mode⟩
    · rw [if_neg here, or_iff_right here]
      exact locked.readers other
  · rw [writer, held]
    by_cases here : other = thread
    · rw [if_pos here, unwritten]
      refine iff_of_false nofun ?_
      rintro ⟨same, entered, opposite⟩
      cases entered
      exact nomatch mode.symm.trans opposite
    · rw [if_neg here]
      exact locked.writer other
  · rw [readers]
    exact List.nodup_cons.mpr ⟨locked.not_mem none, locked.nodup⟩

/-- A writer, where there was nobody. -/
theorem Locked.wrlock [DecidableEq Thread] (locked : Locked sections config)
    (mode : sections.mode op = .write)
    (held : ∀ other, after.held other = if other = thread then some op else config.held other)
    (unread : config.readers = []) (readers : after.readers = config.readers)
    (unwritten : config.writer = none) (writer : after.writer = some thread)
    : Locked sections after := by
  refine ⟨fun other => ?_, fun other => ?_, .inr (readers.trans unread), ?_⟩
  · rw [readers, held]
    by_cases here : other = thread
    · rw [if_pos here, unread]
      refine iff_of_false List.not_mem_nil ?_
      rintro ⟨same, entered, opposite⟩
      cases entered
      exact nomatch mode.symm.trans opposite
    · rw [if_neg here]
      exact locked.readers other
  · rw [writer, held, Option.some.injEq]
    by_cases here : other = thread
    · rw [if_pos here]
      exact iff_of_true here.symm ⟨op, rfl, mode⟩
    · rw [if_neg here, ← locked.writer, unwritten]
      exact iff_of_false (Ne.symm here) nofun
  · rw [readers]
    exact locked.nodup

/-- One reader or writer less. -/
theorem Locked.unlock [DecidableEq Thread] (locked : Locked sections config)
    (held : ∀ other, after.held other = if other = thread then none else config.held other)
    (readers : after.readers = config.readers.erase thread)
    (writer : after.writer = if config.writer = some thread then none else config.writer)
    : Locked sections after := by
  refine ⟨fun other => ?_, fun other => ?_, ?_, readers ▸ locked.nodup.erase thread⟩
  · rw [readers, held, locked.nodup.mem_erase_iff]
    by_cases here : other = thread
    · rw [if_pos here]
      exact iff_of_false (fun kept => kept.1 here) nofun
    · rw [if_neg here, and_iff_right here]
      exact locked.readers other
  · rw [writer, held]
    by_cases here : other = thread
    · rw [if_pos here, here]
      refine iff_of_false ?_ nofun
      split
      · exact nofun
      · assumption
    · rw [if_neg here, ← locked.writer]
      split
      · rename_i writes
        rw [writes, Option.some.injEq]
        exact iff_of_false nofun (Ne.symm here)
      · exact Iff.rfl
  · rw [readers, writer]
    rcases locked.alone with unwritten | unread
    · refine .inl ?_
      rw [unwritten]
      exact ite_self none
    · refine .inr ?_
      rw [unread]
      rfl

/-- Every step keeps account of the lock. -/
theorem Locked.step [DecidableEq Thread] {move : Move Thread Op}
    (locked : Locked sections config) (stepped : Stepped sections config move after)
    : Locked sections after := by
  cases stepped with
  | call idle =>
      exact locked.of_held (Config.held_go_of_eq (by rw [Config.held, idle]; rfl)) rfl rfl
  | rdlock waiting mode unwritten =>
      have none : config.held _ = none := congrArg Phase.held waiting
      exact locked.rdlock none mode (Config.held_go _) rfl unwritten rfl
  | wrlock waiting mode unwritten unread =>
      exact locked.wrlock mode (Config.held_go _) unread rfl unwritten rfl
  | goes inside turned =>
      refine locked.of_held ?_ rfl rfl
      exact Config.held_go_of_eq (by rw [Config.held, inside]; rfl)
  | ends inside turned =>
      refine locked.of_held ?_ rfl rfl
      exact Config.held_go_of_eq (by rw [Config.held, inside]; rfl)
  | unlock leaving => exact locked.unlock (Config.held_go _) rfl rfl

end Locking

-----------------------------------------------------------------------------------------
-- The sections one after the other
-----------------------------------------------------------------------------------------

section Linear

variable {sections : Sections Op State Place Result Fault}
  {config after : Config Thread Op State Place Result} {initial : State}

/-- What a thread has come to in its section, if it began on `base`. -/
def Phase.Reached (sections : Sections Op State Place Result Fault) (base state : State)
    : Phase Op Place Result → Prop
  | .inside op place => sections.Within op base place state
  | .leaving op result => sections.Completes op base state result
  | _ => True

/-- The completed sections account for the state, up to what a thread that is in a section
has written; such a thread is alone there.
-/
structure Linear (sections : Sections Op State Place Result Fault) (initial : State)
    (config : Config Thread Op State Place Result) : Prop
    extends Locked sections config where
  apart
    : ∀ {thread op}, config.held thread = some op → sections.writes op = true →
      ∀ other, other ≠ thread → config.held other = none
  replayed
    : ∃ base, Replays sections.Completes initial config.log base
        ∧ (∀ thread, (config.phases thread).Reached sections base config.state)
        ∧ ((∀ thread op, config.held thread = some op → sections.writes op = false) →
            config.state = base)

theorem Linear.start (sections : Sections Op State Place Result Fault) (initial : State)
    : Linear sections initial (Config.start initial : Config Thread Op State Place Result) where
  toLocked := .start sections initial
  apart := fun held => nomatch held
  replayed := ⟨initial, .nil, fun _ => trivial, fun _ => rfl⟩

/-- A thread that holds nothing has not begun. -/
theorem Phase.reached_of_held {phase : Phase Op Place Result} (none : phase.held = none)
    (base state : State)
    : phase.Reached sections base state := by
  cases phase with
  | idle => trivial
  | waiting op => trivial
  | inside op place => cases none
  | leaving op result => cases none

/-- Where the lock does not change hands, those who write stay alone. -/
theorem Linear.apart_of_held (linear : Linear sections initial config)
    (held : after.held = config.held) {thread : Thread} {op : Op}
    (holds : after.held thread = some op) (writes : sections.writes op = true) (other : Thread)
    (differs : other ≠ thread)
    : after.held other = none := by
  rw [held] at holds ⊢
  exact linear.apart holds writes other differs

section Steps

variable [DecidableEq Thread] {thread : Thread} {op : Op}

/-- What holds of the thread that goes on and of the others holds of all. -/
theorem Config.go_all {phase : Phase Op Place Result} {good : Phase Op Place Result → Prop}
    (self : good phase) (others : ∀ other, other ≠ thread → good (config.phases other))
    (other : Thread)
    : good ((config.go thread phase).phases other) := by
  unfold Config.go
  simp only
  split
  · exact self
  · exact others other (by assumption)

/-- A thread outside of the sections can ask for the lock. -/
theorem Linear.call (linear : Linear sections initial config)
    (idle : config.phases thread = .idle)
    : Linear sections initial (config.go thread (.waiting op)) := by
  have held : (config.go thread (.waiting op)).held = config.held :=
    Config.held_go_of_eq (by rw [Config.held, idle]; rfl)
  obtain ⟨base, replays, reached, settled⟩ := linear.replayed
  refine ⟨linear.toLocked.step (.call idle), linear.apart_of_held held,
    base, replays, Config.go_all trivial (fun other _ => reached other), ?_⟩
  rw [held]
  exact settled

/-- When a body ends, its section has done what it does alone. -/
theorem Linear.ends (linear : Linear sections initial config) {place : Place op} {result : Result}
    (inside : config.phases thread = .inside op place)
    (turned : sections.turn op place config.state = .ok (.ends result))
    : Linear sections initial (config.go thread (.leaving op result)) := by
  have held : (config.go thread (.leaving op result)).held = config.held :=
    Config.held_go_of_eq (by rw [Config.held, inside]; rfl)
  obtain ⟨base, replays, reached, settled⟩ := linear.replayed
  have within := reached thread
  rw [inside] at within
  refine ⟨linear.toLocked.step (.ends inside turned), linear.apart_of_held held, base, replays,
    Config.go_all ⟨place, within, turned⟩ (fun other _ => reached other), ?_⟩
  rw [held]
  exact settled

/-- A statement that writes is not seen by others, and one that does not leaves the state. -/
theorem Linear.goes (linear : Linear sections initial config) {place next : Place op}
    {state : State} (inside : config.phases thread = .inside op place)
    (turned : sections.turn op place config.state = .ok (.goes next state))
    : Linear sections initial { config.go thread (.inside op next) with state } := by
  have held : (config.go thread (.inside op next)).held = config.held :=
    Config.held_go_of_eq (by rw [Config.held, inside]; rfl)
  have holds : config.held thread = some op := congrArg Phase.held inside
  obtain ⟨base, replays, reached, settled⟩ := linear.replayed
  have within := reached thread
  rw [inside] at within
  refine ⟨linear.toLocked.step (.goes inside turned), linear.apart_of_held held, base, replays,
    Config.go_all (within.goes turned) (fun other differs => ?_), fun reads => ?_⟩
  · cases writes : sections.writes op with
    | true => exact Phase.reached_of_held (linear.apart holds writes other differs) base state
    | false =>
        rw [sections.readOnly writes turned]
        exact reached other
  · have reads : ∀ other op, config.held other = some op → sections.writes op = false := by
      rw [← held]
      exact reads
    exact (sections.readOnly (reads thread op holds) turned).trans (settled reads)

/-- A section is entered on the state that the completed ones have left. -/
theorem Linear.enter (linear : Linear sections initial config)
    (waiting : config.phases thread = .waiting op) (locked : Locked sections after)
    (quiet
      : ∀ other held, config.held other = some held → sections.writes held = false)
    (sole
      : sections.writes op = true → ∀ other, other ≠ thread → config.held other = none)
    (phases : after.phases = (config.go thread (.inside op (sections.enter op))).phases)
    (state : after.state = config.state) (log : after.log = config.log)
    : Linear sections initial after := by
  have held (other : Thread)
      : after.held other = if other = thread then some op else config.held other := by
    rw [Config.held, phases]
    exact Config.held_go (.inside op (sections.enter op)) other
  obtain ⟨base, replays, reached, settled⟩ := linear.replayed
  obtain rfl := settled quiet
  refine ⟨locked, fun {holder taken} holds writes other differs => ?_, config.state, ?_, ?_,
    fun _ => state⟩
  · rw [held] at holds ⊢
    by_cases here : holder = thread
    · rw [if_pos here, Option.some.injEq] at holds
      subst holds here
      rw [if_neg differs]
      exact sole writes other differs
    · rw [if_neg here] at holds
      exact nomatch (quiet holder taken holds).symm.trans writes
  · rw [log]
    exact replays
  · rw [phases, state]
    exact Config.go_all .enter (fun other _ => reached other)

/-- A section that is left has done what it does alone, on the state before it. -/
theorem Linear.unlock (linear : Linear sections initial config) {result : Result}
    (leaving : config.phases thread = .leaving op result) (locked : Locked sections after)
    (phases : after.phases = (config.go thread .idle).phases)
    (state : after.state = config.state)
    (log : after.log = config.log ++ [⟨thread, op, result⟩])
    : Linear sections initial after := by
  have held (other : Thread)
      : after.held other = if other = thread then none else config.held other := by
    rw [Config.held, phases]
    exact Config.held_go .idle other
  have holds : config.held thread = some op := congrArg Phase.held leaving
  obtain ⟨base, replays, reached, settled⟩ := linear.replayed
  have completed := reached thread
  rw [leaving] at completed
  refine ⟨locked, fun {holder taken} holds writes other differs => ?_, config.state, ?_, ?_,
    fun _ => state⟩
  · rw [held] at holds ⊢
    split at holds
    · cases holds
    · split
      · rfl
      · exact linear.apart holds writes other differs
  · rw [log]
    exact replays.snoc completed
  · rw [phases, state]
    refine Config.go_all trivial (fun other differs => ?_)
    cases busy : config.held other with
    | none => exact Phase.reached_of_held busy _ _
    | some taken =>
        -- Two threads are inside, so nobody has written.
        have same : config.state = base := by
          refine settled (fun holder taken inside => ?_)
          cases writes : sections.writes taken with
          | false => rfl
          | true =>
              have alone := linear.apart inside writes
              by_cases here : holder = thread
              · exact nomatch busy.symm.trans (alone other (here ▸ differs))
              · exact nomatch holds.symm.trans (alone thread (Ne.symm here))
        have before := reached other
        rw [← same] at before
        exact before

/-- Every step at which no section is entered next to one that writes keeps the account. -/
theorem Linear.step {move : Move Thread Op} (linear : Linear sections initial config)
    (apart : sections.Apart config move) (stepped : Stepped sections config move after)
    : Linear sections initial after := by
  have locked := linear.toLocked.step stepped
  cases stepped with
  | call idle => exact linear.call idle
  | rdlock waiting mode unwritten =>
      obtain ⟨sole, quiet⟩ := apart _ waiting mode
      refine linear.enter waiting locked ?_ ?_ rfl rfl rfl
      · exact fun other taken holds =>
          quiet other (linear.toLocked.mem_of_held unwritten holds) taken holds
      · exact fun writes other _ => linear.toLocked.nobody unwritten (sole writes) other
  | wrlock waiting mode unwritten unread =>
      have nobody := linear.toLocked.nobody unwritten unread
      refine linear.enter waiting locked ?_ (fun _ other _ => nobody other) rfl rfl rfl
      exact fun other taken holds => nomatch (nobody other).symm.trans holds
  | goes inside turned => exact linear.goes inside turned
  | ends inside turned => exact linear.ends inside turned
  | unlock leaving => exact linear.unlock leaving locked rfl rfl rfl

end Steps

end Linear

-----------------------------------------------------------------------------------------
-- Runs
-----------------------------------------------------------------------------------------

section Running

variable [DecidableEq Thread] {sections : Sections Op State Place Result Fault}
  {initial : State} {history : List (Config Thread Op State Place Result × Move Thread Op)}
  {config final : Config Thread Op State Place Result} {thread : Thread}

/-- In every run the lock is held by those who are in a section, and by a writer alone. -/
theorem locked_of_run (run : Run sections.step (Config.start initial) history final)
    : Locked sections final :=
  run.always (Locked.start sections initial)
    (fun _ _ _ locked stepped => locked.step (stepped_of_step stepped))

/-- A run in which no section is entered next to one that writes is the sections that were
left, one after the other.
-/
theorem linear_of_run (run : Run sections.step (Config.start initial) history final)
    (apart : Guarded sections.Apart history)
    : Linear sections initial final :=
  run.invariant apart (Linear.start sections initial)
    (fun _ _ _ linear allowed stepped => linear.step allowed (stepped_of_step stepped))

/-- The section that a thread has asked for is not misplaced. -/
def Phase.Placed (sections : Sections Op State Place Result Fault)
    (phase : Phase Op Place Result)
    : Prop :=
  ∀ op, phase.asked = some op → ¬ sections.Misplaced op

/-- Whoever writes takes the lock for writing. -/
structure Placed (sections : Sections Op State Place Result Fault)
    (config : Config Thread Op State Place Result) : Prop where
  phases : ∀ thread, (config.phases thread).Placed sections
  log : ∀ completion ∈ config.log, ¬ sections.Misplaced completion.op

/-- No section is asked for that writes and only waits for other writers. -/
def Sections.Asks (sections : Sections Op State Place Result Fault)
    (_ : Config Thread Op State Place Result) (move : Move Thread Op)
    : Prop :=
  ∀ thread op, move = .call thread op → ¬ sections.Misplaced op

omit [DecidableEq Thread] in
/-- Where whoever writes takes the lock for writing, the lock is all that is needed. -/
theorem Placed.apart (placed : Placed sections config) (locked : Locked sections config)
    (move : Move Thread Op)
    : sections.Apart config move := by
  cases move with
  | lock thread =>
      intro op waiting mode
      refine ⟨fun writes => ?_, fun reader member other held => ?_⟩
      · exact absurd ⟨writes, mode⟩ (placed.phases thread op (congrArg Phase.asked waiting))
      · obtain ⟨same, holds, reading⟩ := (locked.readers reader).mp member
        obtain rfl : other = same := Option.some.inj (held.symm.trans holds)
        cases writes : sections.writes other with
        | false => rfl
        | true =>
            have asked := Phase.asked_of_held held
            exact absurd ⟨writes, reading⟩ (placed.phases reader other asked)
  | _ => trivial

omit [DecidableEq Thread] in
theorem Placed.start (sections : Sections Op State Place Result Fault) (initial : State)
    : Placed sections (Config.start initial : Config Thread Op State Place Result) where
  phases := fun _ _ asked => nomatch asked
  log := fun _ member => nomatch member

/-- Later steps ask for nothing new. -/
theorem Placed.step {move : Move Thread Op} (placed : Placed sections config)
    (asks : sections.Asks config move) (stepped : Stepped sections config move final)
    : Placed sections final := by
  have go {thread : Thread} {phase : Phase Op Place Result}
      (asked : phase.Placed sections)
      : ∀ other, ((config.go thread phase).phases other).Placed sections :=
    Config.go_all asked (fun other _ => placed.phases other)
  cases stepped with
  | call idle =>
      refine ⟨go (fun op asked => ?_), placed.log⟩
      cases asked
      exact asks _ _ rfl
  | rdlock waiting mode unwritten =>
      refine ⟨go (fun op asked => ?_), placed.log⟩
      exact placed.phases _ op ((congrArg Phase.asked waiting).trans asked)
  | wrlock waiting mode unwritten unread =>
      refine ⟨go (fun op asked => ?_), placed.log⟩
      exact placed.phases _ op ((congrArg Phase.asked waiting).trans asked)
  | goes inside turned =>
      refine ⟨go (fun op asked => ?_), placed.log⟩
      exact placed.phases _ op ((congrArg Phase.asked inside).trans asked)
  | ends inside turned =>
      refine ⟨go (fun op asked => ?_), placed.log⟩
      exact placed.phases _ op ((congrArg Phase.asked inside).trans asked)
  | @unlock thread op result leaving =>
      refine ⟨go (fun op asked => nomatch asked), fun completion member => ?_⟩
      rcases List.mem_append.mp member with earlier | last
      · exact placed.log completion earlier
      · rw [List.mem_singleton.mp last]
        exact placed.phases thread op (congrArg Phase.asked leaving)

/-- What holds where the lock is all that is needed. -/
structure Serial (sections : Sections Op State Place Result Fault) (initial : State)
    (config : Config Thread Op State Place Result) : Prop
    extends Linear sections initial config, Placed sections config

/-- Where whoever writes takes the lock for writing, no section is ever entered next to one that
writes; by induction on the run.
-/
theorem placed_of_run (run : Run sections.step (Config.start initial) history final)
    (asks : Guarded sections.Asks history)
    : Placed sections final ∧ Guarded sections.Apart history := by
  have start : Placed sections (Config.start initial : Config Thread ..) :=
    .start sections initial
  have nothing : Guarded sections.Apart
      ([] : List (Config Thread Op State Place Result × Move Thread Op)) :=
    fun _ member => nomatch member
  induction run with
  | refl => exact ⟨start, nothing⟩
  | snoc run stepped ih =>
      obtain ⟨asks, allowed⟩ := guarded_snoc.mp asks
      obtain ⟨placed, apart⟩ := ih asks
      exact ⟨placed.step allowed (stepped_of_step stepped),
        guarded_snoc.mpr ⟨apart, placed.apart (locked_of_run run) _⟩⟩

/-- A run in which whoever writes takes the lock for writing is the sections that were left,
one after the other; nothing else is needed.
-/
theorem serial_of_run (run : Run sections.step (Config.start initial) history final)
    (asks : Guarded sections.Asks history)
    : Serial sections initial final :=
  have placed := placed_of_run run asks
  ⟨linear_of_run run placed.2, placed.1⟩

/-- A call that is under way can go on: its next step is made. -/
def GoesOn (sections : Sections Op State Place Result Fault)
    (config : Config Thread Op State Place Result) (thread : Thread)
    : Prop :=
  ∃ move ∈ [Move.lock thread, .turn thread, .unlock thread],
    ∃ after, sections.step config move = .ok after

/-- The next statement of a thread in the body of a section is undefined. -/
def Faults (sections : Sections Op State Place Result Fault)
    (config : Config Thread Op State Place Result) (thread : Thread) (op : Op)
    : Prop :=
  ∃ place : Place op, ∃ fault,
    config.phases thread = .inside op place
    ∧ sections.turn op place config.state = .error fault

/-- A thread that holds the lock can go on, unless its section's next statement is undefined. -/
theorem goesOn_of_held {op : Op} (held : config.held thread = some op)
    : GoesOn sections config thread ∨ Faults sections config thread op := by
  rw [Config.held] at held
  cases phase : config.phases thread with
  | idle =>
      rw [phase] at held
      cases held
  | waiting op =>
      rw [phase] at held
      cases held
  | inside other place =>
      rw [phase] at held
      cases held
      cases turned : sections.turn op place config.state with
      | error fault => exact .inr ⟨place, fault, phase, turned⟩
      | ok turn =>
          refine .inl ⟨.turn thread, List.mem_cons_of_mem _ List.mem_cons_self, ?_⟩
          simp only [Sections.step, phase, turned]
          cases turn with
          | goes next state => exact ⟨_, rfl⟩
          | ends result => exact ⟨_, rfl⟩
  | leaving op result =>
      refine .inl ⟨.unlock thread,
        List.mem_cons_of_mem _ (List.mem_cons_of_mem _ List.mem_cons_self), ?_⟩
      simp only [Sections.step, phase]
      exact ⟨_, rfl⟩

/-- Whatever the threads have asked for, there is no deadlock: one of those that are not idle can
go on, or the next statement of its section is undefined.
-/
theorem Locked.goesOn (locked : Locked sections config) (busy : config.phases thread ≠ .idle)
    : ∃ other,
        GoesOn sections config other
        ∨ ∃ op, config.held other = some op ∧ Faults sections config other op := by
  have holder {other : Thread} {op : Op} (held : config.held other = some op)
      : ∃ other,
          GoesOn sections config other
          ∨ ∃ op, config.held other = some op ∧ Faults sections config other op :=
    ⟨other, (goesOn_of_held held).imp_right (fun faults => ⟨op, held, faults⟩)⟩
  cases phase : config.phases thread with
  | idle => exact absurd phase busy
  | inside op place => exact holder (congrArg Phase.held phase)
  | leaving op result => exact holder (congrArg Phase.held phase)
  | waiting op =>
      cases writer : config.writer with
      | some other =>
          obtain ⟨taken, held, -⟩ := (locked.writer other).mp writer
          exact holder held
      | none =>
          cases readers : config.readers with
          | cons reader rest =>
              obtain ⟨taken, held, -⟩ :=
                (locked.readers reader).mp (readers ▸ List.mem_cons_self)
              exact holder held
          | nil =>
              refine ⟨thread, .inl ⟨.lock thread, List.mem_cons_self, ?_⟩⟩
              simp only [Sections.step, Sections.lock, phase, writer, readers]
              cases sections.mode op <;> exact ⟨_, rfl⟩

end Running

end RwSections
