import Ethnm.Library.ListCursor
import Ethnm.Clients.TcpClient

/-! The traversal that `ClientDB::Purge` and `ClientService::Stop` share. Its iterator runs
ahead of the client that a turn handles, except in the first turn: the first client is
handled twice and the last one not at all.
-/

namespace Ethnm
open ListCursor

section Sweeping

variable {σ : Type} (visit : Address → σ → Except Fault σ)

/-- The turns of `for (it = begin, client = *it; it != end; client = next_client)`: take the
next client at the iterator, advance it, remove the client at hand and visit it. The result
is the list that is left.
-/
def sweep (client : Address) (cursor : Cursor Address) (state : σ)
    : Except Fault (List Address × σ) :=
  match nonempty : cursor.after with
  | [] => .ok (cursor.toList, state)
  | nextClient :: _ =>
      match removed : cursor.next.remove client with
      | none => .error .danglingIterator
      | some rest => do
          have := Cursor.length_after_next_remove nonempty removed
          let state ← visit client state
          sweep nextClient rest state
termination_by cursor.after.length

/-- The whole traversal. On an empty list the first client is read from the end, and never
used.
-/
def sweepList (clients : List Address) (state : σ) : Except Fault (List Address × σ) :=
  match clients with
  | [] => .ok ([], state)
  | client :: _ => sweep visit client (Cursor.start clients) state

variable {visit} {client next : Address} {before rest : List Address} {state : σ}

theorem sweep_nil : sweep visit client ⟨before, []⟩ state = .ok (before, state) := by
  rw [sweep]
  simp [Cursor.toList]

/-- One turn, when the client at hand does not lie behind the next one. -/
theorem sweep_cons (absent : client ∉ rest)
    : sweep visit client ⟨before, next :: rest⟩ state
      = (do
          let state ← visit client state
          sweep visit next ⟨(before ++ [next]).filter (· ≠ client), rest⟩ state) := by
  have removed : (Cursor.next ⟨before, next :: rest⟩).remove client
      = some ⟨(before ++ [next]).filter (· ≠ client), rest⟩ :=
    Cursor.remove_of_notMem absent
  rw [sweep]
  split
  · rename_i empty
    cases empty
  · rename_i nonempty
    cases nonempty
    split
    · rename_i dangling
      rw [removed] at dangling
      cases dangling
    · rename_i kept
      rw [removed] at kept
      cases kept
      rfl

/-- Once the client at hand is the only one before the iterator, each turn removes and
visits it and leaves the next one in its place; by induction on the clients that follow.
-/
theorem sweep_trailing (distinct : (client :: rest).Nodup)
    : sweep visit client ⟨[client], rest⟩ state
      = (do
          let state ← (client :: rest).dropLast.foldlM (fun state client => visit client state)
            state
          return ([(client :: rest).getLast (List.cons_ne_nil client rest)], state)) := by
  induction rest generalizing client state with
  | nil => exact sweep_nil
  | cons next rest ih =>
      obtain ⟨absent, distinct⟩ := List.nodup_cons.mp distinct
      have kept : ([client] ++ [next]).filter (· ≠ client) = [next] := by
        simp [Ne.symm (List.ne_of_not_mem_cons absent)]
      rw [sweep_cons (List.not_mem_of_not_mem_cons absent), kept, List.dropLast_cons_cons,
        List.foldlM_cons, List.getLast_cons_cons, bind_assoc]
      congr 1
      funext state
      exact ih distinct

/-- A single client is visited once, and nothing is left. -/
theorem sweepList_singleton
    : sweepList visit [client] state
      = (do
          let state ← visit client state
          return ([], state)) := by
  have kept : ([] ++ [client]).filter (· ≠ client) = [] := by simp
  rw [sweepList, Cursor.start, sweep_cons List.not_mem_nil, kept]
  congr 1
  funext state
  exact sweep_nil

/-- Of two or more clients the first is visited twice, and the last one is left. -/
theorem sweepList_cons_cons (distinct : (client :: next :: rest).Nodup)
    : sweepList visit (client :: next :: rest) state
      = (do
          let state ← visit client state
          let state ← visit client state
          let state ← (next :: rest).dropLast.foldlM (fun state client => visit client state)
            state
          return ([(next :: rest).getLast (List.cons_ne_nil next rest)], state)) := by
  obtain ⟨absent, distinct⟩ := List.nodup_cons.mp distinct
  have first : ([] ++ [client]).filter (· ≠ client) = [] := by simp
  have second : ([] ++ [next]).filter (· ≠ client) = [next] := by
    simp [Ne.symm (List.ne_of_not_mem_cons absent)]
  rw [sweepList, Cursor.start, sweep_cons absent, first]
  congr 1
  funext state
  rw [sweep_cons (List.not_mem_of_not_mem_cons absent), second]
  congr 1
  funext state
  exact sweep_trailing distinct

/-- A traversal that fails has lost its iterator, or a visit failed; by induction on the
clients behind the iterator.
-/
theorem sweep_error {cursor : Cursor Address} {fault : Fault}
    (failed : sweep visit client cursor state = .error fault)
    : fault = .danglingIterator ∨ ∃ client state, visit client state = .error fault := by
  fun_induction sweep visit client cursor state with
  | case1 client cursor state ended => cases failed
  | case2 client cursor state next rest nonempty dangling =>
      cases failed
      exact .inl rfl
  | case3 client cursor state next rest nonempty kept removed shorter ih =>
      cases visited : visit client state with
      | error found =>
          rw [visited] at failed
          cases failed
          exact .inr ⟨client, state, visited⟩
      | ok after =>
          rw [visited] at failed
          exact ih after failed

theorem sweepList_error {clients : List Address} {fault : Fault}
    (failed : sweepList visit clients state = .error fault)
    : fault = .danglingIterator ∨ ∃ client state, visit client state = .error fault := by
  cases clients with
  | nil => cases failed
  | cons client rest => exact sweep_error failed

end Sweeping

/-- `ClientDB::Purge` on its list of clients: the list that is left, and the heap. -/
def ClientDB.purge (clients : List Address) (heap : ClientHeap)
    : Except Fault (List Address × ClientHeap) :=
  sweepList TcpClient.abort clients heap

/-- The second step of `ClientService::Stop`: the clients are dropped from the service's
list, and stay in the client database.
-/
def ClientService.cleanup (clients : List Address) : Except Fault (List Address) := do
  let (clients, _) ← sweepList (fun _ _ => .ok ()) clients ()
  return clients

theorem ClientDB.purge_error {clients : List Address} {heap : ClientHeap} {fault : Fault}
    (failed : ClientDB.purge clients heap = .error fault)
    : fault = .danglingIterator ∨ fault = .useAfterFree := by
  refine (sweepList_error failed).imp_right ?_
  rintro ⟨client, heap, aborted⟩
  rw [TcpClient.abort] at aborted
  split at aborted <;> cases aborted
  rfl

theorem ClientService.cleanup_error {clients : List Address} {fault : Fault}
    (failed : ClientService.cleanup clients = .error fault)
    : fault = .danglingIterator := by
  rw [ClientService.cleanup] at failed
  cases swept : sweepList (fun _ _ => .ok ()) clients () with
  | error found =>
      rw [swept] at failed
      cases failed
      refine (sweepList_error swept).resolve_right ?_
      rintro ⟨client, state, visited⟩
      cases visited
  | ok left =>
      rw [swept] at failed
      cases failed

/-- The purge returns with an empty list. Every client was aborted and its descriptor closed
exactly once, and nothing else on the heap was touched.
-/
def PurgeReleases (heap : ClientHeap) (clients : List Address) : Prop :=
  ∃ after, ClientDB.purge clients heap = .ok ([], after)
    ∧ after.aborted.Perm (heap.aborted ++ clients)
    ∧ after.closed.Perm
        (heap.closed ++ clients.filterMap (fun client => (heap.objects client).map TcpClient.fd))
    ∧ ∀ address, after.objects address
        = if address ∈ clients then none else heap.objects address

/-- The service has no clients left when it is deleted. -/
def StopEmpties (clients : List Address) : Prop :=
  ClientService.cleanup clients = .ok []

section Releasing

variable {heap : ClientHeap} {client next : Address} {clients rest : List Address}

theorem purgeReleases_nil (heap : ClientHeap) : PurgeReleases heap [] :=
  ⟨heap, rfl, by simp, by simp, by simp⟩

/-- A client that is alone is released if its descriptor is not zero. -/
theorem purgeReleases_singleton_iff {object : TcpClient}
    (present : heap.objects client = some object)
    : PurgeReleases heap [client] ↔ object.fd ≠ 0 := by
  have purged : ClientDB.purge [client] heap
      = .ok
          ([],
            {
              objects := fun address =>
                if address = client then none else heap.objects address
              closed := heap.closed ++ object.descriptor.toList
              aborted := heap.aborted ++ [client]
            }) := by
    rw [ClientDB.purge, sweepList_singleton, TcpClient.abort, present]
    rfl
  have own : [client].filterMap (fun client => (heap.objects client).map TcpClient.fd)
      = [object.fd] := by
    simp only [List.filterMap_cons, List.filterMap_nil, present, Option.map_some]
  rw [PurgeReleases, own]
  constructor
  · rintro ⟨after, released, -, closed, -⟩ zero
    cases purged.symm.trans released
    have lengths := closed.length_eq
    rw [TcpClient.descriptor, if_pos zero] at lengths
    simp at lengths
  · intro some
    refine ⟨_, purged, List.Perm.refl _, ?_, ?_⟩
    · rw [TcpClient.descriptor, if_neg some]
      exact List.Perm.refl _
    · intro address
      simp only [List.mem_singleton]

/-- The second visit of the first client finds it deleted. -/
theorem not_purgeReleases_cons_cons (distinct : (client :: next :: rest).Nodup)
    : ¬ PurgeReleases heap (client :: next :: rest) := by
  rintro ⟨after, purged, -⟩
  rw [ClientDB.purge, sweepList_cons_cons distinct] at purged
  cases first : TcpClient.abort client heap with
  | error fault =>
      rw [first] at purged
      cases purged
  | ok once =>
      rw [first] at purged
      simp only [bind, Except.bind, TcpClient.abort_abort first] at purged
      cases purged

theorem stopEmpties_singleton (client : Address) : StopEmpties [client] := by
  rw [StopEmpties, ClientService.cleanup, sweepList_singleton]
  rfl

/-- The last client is still in the list when the service is deleted. -/
theorem cleanup_cons_cons (distinct : (client :: next :: rest).Nodup)
    : ClientService.cleanup (client :: next :: rest)
      = .ok [(next :: rest).getLast (List.cons_ne_nil next rest)] := by
  have visits (clients : List Address)
      : clients.foldlM (fun state client =>
          (fun (_ : Address) (_ : Unit) => (.ok () : Except Fault Unit)) client state) ()
        = .ok () := by
    induction clients with
    | nil => rfl
    | cons client rest ih => exact ih
  rw [ClientService.cleanup, sweepList_cons_cons distinct]
  simp only [bind, Except.bind, visits]
  rfl

theorem not_stopEmpties_cons_cons (distinct : (client :: next :: rest).Nodup)
    : ¬ StopEmpties (client :: next :: rest) := by
  intro empties
  rw [StopEmpties, cleanup_cons_cons distinct] at empties
  cases empties

/-- The purge releases distinct live clients, and the service is stopped without clients,
exactly when each list has at most one client, and that of the database is not connected by
descriptor zero.
-/
theorem purgeReleases_and_stopEmpties_iff {service : List Address}
    (distinct : clients.Nodup) (live : ∀ client ∈ clients, (heap.objects client).isSome)
    (serviceDistinct : service.Nodup)
    : PurgeReleases heap clients ∧ StopEmpties service
      ↔ (clients.length ≤ 1
          ∧ ∀ client ∈ clients, ∀ object, heap.objects client = some object → object.fd ≠ 0)
        ∧ service.length ≤ 1 := by
  refine and_congr ?_ ?_
  · match clients, distinct, live with
    | [], _, _ =>
        exact iff_of_true (purgeReleases_nil heap)
          ⟨Nat.zero_le 1, fun _ member => by cases member⟩
    | [client], _, live =>
        obtain ⟨object, present⟩ := Option.isSome_iff_exists.mp (live client List.mem_cons_self)
        rw [purgeReleases_singleton_iff present]
        refine ⟨fun some => ⟨Nat.le_refl 1, ?_⟩, fun only => ?_⟩
        · intro other member found there
          rw [List.mem_singleton.mp member, present] at there
          cases there
          exact some
        · exact only.2 client List.mem_cons_self object present
    | _ :: _ :: _, distinct, _ =>
        refine iff_of_false (not_purgeReleases_cons_cons distinct) (fun only => ?_)
        have short := only.1
        simp only [List.length_cons] at short
        omega
  · match service, serviceDistinct with
    | [], _ => exact iff_of_true rfl (Nat.zero_le 1)
    | [client], _ => exact iff_of_true (stopEmpties_singleton client) (Nat.le_refl 1)
    | _ :: _ :: _, distinct =>
        refine iff_of_false (not_stopEmpties_cons_cons distinct) ?_
        simp only [List.length_cons]
        omega

end Releasing

/-- Clients without delimiters at every address, with their address as descriptor. -/
def plainHeap : ClientHeap where
  objects := fun address => some { fd := address, msgDelimiter := none }
  closed := []
  aborted := []

/-- One client in the database and in the service. -/
theorem purgeReleases_and_stopEmpties_one : PurgeReleases plainHeap [5] ∧ StopEmpties [5] :=
  (purgeReleases_and_stopEmpties_iff (by decide) (fun _ _ => rfl) (by decide)).mpr
    ⟨⟨by decide, fun client member object present => by
      cases List.mem_singleton.mp member
      cases present
      decide⟩, by decide⟩

/-- Two clients: the first is aborted twice, and the second is left in both lists. -/
theorem not_purgeReleases_two : ¬ (PurgeReleases plainHeap [5, 6] ∧ StopEmpties [5, 6]) :=
  fun both => not_purgeReleases_cons_cons (by decide) both.1

end Ethnm
