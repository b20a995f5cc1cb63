import Mathlib.Data.List.Infix
import Ethnm.Library.ListCursor
import Ethnm.Clients.ServiceLoop

/-! The iterator of the `for` loop in `ClientService::StartThreadInternal`. It reads the next
client one step ahead of the end test, so the last thing it reads in each pass is the end of
the list; that value is never used.
-/

namespace Ethnm
open ListCursor

/-- What happens to `it` and `client` in one pass: the iterators that `*it` is applied to, and
the clients that the body runs with.
-/
structure Pass where
  dereferenced : List (Cursor Address)
  served : List Address

/-- `*it`; the end of the list gives whatever lies there. -/
def dereference (sentinel : Address) (it : Cursor Address) : Address :=
  it.after.head?.getD sentinel

/-- The turns of the loop from an iterator with these elements before it and from it on. -/
def turnsAhead (sentinel : Address) : (client : Address) → (before after : List Address) → Pass
  | _, _, [] => { dereferenced := [], served := [] }
  | client, before, element :: rest =>
      let it := Cursor.next { before, after := element :: rest }
      let nextClient := dereference sentinel it
      let later := turnsAhead sentinel nextClient it.before rest
      { dereferenced := it :: later.dereferenced, served := client :: later.served }

/-- `for (it = begin, client = *it; it != end; client = next_client) { next_client = *(++it); …`
-/
def passAhead (sentinel : Address) (clients : List Address) : Pass :=
  let it := Cursor.start clients
  let pass := turnsAhead sentinel (dereference sentinel it) it.before it.after
  { pass with dereferenced := it :: pass.dereferenced }

/-- The body runs once for each client, in order, and no end of a list is dereferenced. -/
def ProperTraversal (clients : List Address) : Prop :=
  ∀ sentinel,
    (passAhead sentinel clients).served = clients
    ∧ ∀ it ∈ (passAhead sentinel clients).dereferenced, it.after ≠ []

section Passing

variable {sentinel : Address}

/-- The body runs with the client at the iterator, then with those behind it; by induction on
the clients behind.
-/
theorem served_turnsAhead (client : Address) (before rest : List Address)
    : (turnsAhead sentinel client before (client :: rest)).served = client :: rest := by
  induction rest generalizing client before with
  | nil => rfl
  | cons next rest ih => exact congrArg (client :: ·) (ih next (before ++ [client]))

theorem served_passAhead (sentinel : Address) (clients : List Address)
    : (passAhead sentinel clients).served = clients := by
  cases clients with
  | nil => rfl
  | cons client rest => exact served_turnsAhead client [] rest

/-- The turns dereference every later position, by induction on the elements from the iterator
on.
-/
theorem dereferenced_turnsAhead (client : Address) (before after : List Address)
    : after :: (turnsAhead sentinel client before after).dereferenced.map Cursor.after
      = after.tails := by
  induction after generalizing client before with
  | nil => rfl
  | cons element rest ih =>
      rw [List.tails_cons, ← ih (dereference sentinel ⟨before ++ [element], rest⟩)
        (before ++ [element])]
      rfl

/-- A pass dereferences each position of the list once, the end included. -/
theorem dereferenced_passAhead (sentinel : Address) (clients : List Address)
    : (passAhead sentinel clients).dereferenced.map Cursor.after = clients.tails :=
  dereferenced_turnsAhead (dereference sentinel (Cursor.start clients)) [] clients

/-- The turns of a round with the look-ahead of the loop. -/
def serveAhead (registered : Bool) (fuel : Nat) (round : Round) (sentinel : Address)
    : (turn : Nat) → (client : Address) → (after : List Address) → Service → ServiceOutcome
  | _, _, [], service => .ok service
  | turn, client, _ :: rest, service => do
      let nextClient := rest.head?.getD sentinel
      let service ← serveClient registered fuel round turn client service
      serveAhead registered fuel round sentinel (turn + 1) nextClient rest service

/-- What is read from the end does not matter, by induction on the clients behind. -/
theorem serveAhead_eq (registered : Bool) (fuel : Nat) (round : Round) (turn : Nat)
    (client : Address) (rest : List Address) (service : Service)
    : serveAhead registered fuel round sentinel turn client (client :: rest) service
      = serveClients registered fuel round turn (client :: rest) service := by
  induction rest generalizing turn client service with
  | nil => rfl
  | cons next rest ih =>
      rw [serveAhead, serveClients]
      congr 1
      funext service
      exact ih (turn + 1) next service

end Passing

/-- On no list is a pass a proper traversal: the body does run once for each client, but one
of the dereferenced iterators is the end.
-/
theorem not_properTraversal (clients : List Address)
    : (∀ sentinel, (passAhead sentinel clients).served = clients)
      ∧ ¬ ProperTraversal clients := by
  refine ⟨fun sentinel => served_passAhead sentinel clients, fun proper => ?_⟩
  have last : [] ∈ (passAhead 0 clients).dereferenced.map Cursor.after := by
    rw [dereferenced_passAhead, List.mem_tails]
    exact List.nil_suffix
  obtain ⟨it, member, ended⟩ := List.mem_map.mp last
  exact (proper 0).2 it member ended

/-- Two clients: the second turn reads behind the second one. -/
theorem not_properTraversal_two : ¬ ProperTraversal [1, 2] := by
  intro proper
  exact (proper 0).2 ⟨[1, 2], []⟩ (by decide) rfl

end Ethnm
