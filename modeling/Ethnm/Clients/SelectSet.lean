import Ethnm.Clients.TcpClient

/-! The prologue of `ClientService::StartThreadInternal`: the largest descriptor and the set
that `select` waits on, from two passes over the clients. A set has bits for the descriptors
below `FD_SETSIZE` only, and neither pass tests for that.
-/

namespace Ethnm

-----------------------------------------------------------------------------------------
-- Sets of descriptors
-----------------------------------------------------------------------------------------

def fdSetSize : Nat := 1024

/-- An `fd_set`: one bit for each descriptor below `FD_SETSIZE`. -/
abbrev FdSet := BitVec fdSetSize

/-- `FD_ZERO`. -/
def fdZero : FdSet := 0

/-- `FD_SET(fd, set)`, which has no bit for a large descriptor to write. -/
def fdSet (fd : Nat) (set : FdSet) : Except Fault FdSet :=
  if fd < fdSetSize then .ok (set ||| .twoPow fdSetSize fd) else .error .outOfRange

/-- `FD_ISSET(fd, set)`, which has no bit for a large descriptor to read. -/
def fdIsSet (fd : Nat) (set : FdSet) : Except Fault Bool :=
  if fd < fdSetSize then .ok (set.getLsbD fd) else .error .outOfRange

/-- Setting a descriptor adds it, and no other one. -/
theorem getLsbD_fdSet {fd : Nat} {set after : FdSet} (written : fdSet fd set = .ok after)
    (other : Nat)
    : after.getLsbD other = true ↔ other = fd ∨ set.getLsbD other = true := by
  rw [fdSet] at written
  split at written
  · rename_i inside
    cases written
    rw [BitVec.getLsbD_or, BitVec.getLsbD_twoPow, Bool.or_eq_true, Bool.and_eq_true,
      decide_eq_true_eq, decide_eq_true_eq]
    constructor
    · rintro (old | ⟨-, same⟩)
      · exact .inr old
      · exact .inl same.symm
    · rintro (rfl | old)
      · exact .inr ⟨inside, rfl⟩
      · exact .inl old
  · cases written

-----------------------------------------------------------------------------------------
-- The prologue
-----------------------------------------------------------------------------------------

namespace ClientService

def getMaxFd (clients : List TcpClient) : Nat :=
  clients.foldl
    (fun maxFdLcl client => if client.fd > maxFdLcl then client.fd else maxFdLcl) 0

def copyClientFd (clients : List TcpClient) (set : FdSet) : Except Fault FdSet :=
  clients.foldlM (fun set client => fdSet client.fd set) set

end ClientService

/-- The members that the prologue writes. -/
structure SelectState where
  maxFd : Nat
  backupFdSet : FdSet

/-- `clients` is what `clients_` points to once `CopyClients` has been called or skipped. -/
def ClientService.prologue (clients : List TcpClient) : Except Fault SelectState := do
  let maxFd := getMaxFd clients
  let backupFdSet ← copyClientFd clients fdZero
  return { maxFd, backupFdSet }

/-- The prologue writes inside the set, and `select` waits on exactly the clients; each of
them can be asked for in the set that `select` leaves.
-/
def SelectCovers (clients : List TcpClient) : Prop :=
  ∃ state, ClientService.prologue clients = .ok state
    ∧ (∀ fd, state.backupFdSet.getLsbD fd = true ↔ ∃ client ∈ clients, client.fd = fd)
    ∧ (∀ client ∈ clients, client.fd < state.maxFd + 1)
    ∧ ∀ client ∈ clients, ∀ activeFdSet, ∃ ready, fdIsSet client.fd activeFdSet = .ok ready

section Passes

variable {clients : List TcpClient}

/-- The first pass ends above its start and above every client, by induction on the clients. -/
theorem foldl_maxFd (clients : List TcpClient) (start : Nat)
    : let last := clients.foldl
        (fun maxFdLcl client => if client.fd > maxFdLcl then client.fd else maxFdLcl) start
      start ≤ last ∧ ∀ client ∈ clients, client.fd ≤ last := by
  induction clients generalizing start with
  | nil => exact ⟨Nat.le_refl start, fun _ member => by cases member⟩
  | cons first rest ih =>
      have step : start ≤ (if first.fd > start then first.fd else start)
          ∧ first.fd ≤ (if first.fd > start then first.fd else start) := by
        split <;> omega
      obtain ⟨above, others⟩ := ih (if first.fd > start then first.fd else start)
      refine ⟨Nat.le_trans step.1 above, fun client member => ?_⟩
      rcases List.mem_cons.mp member with rfl | member
      · exact Nat.le_trans step.2 above
      · exact others client member

theorem fd_le_getMaxFd {client : TcpClient} (member : client ∈ clients)
    : client.fd ≤ ClientService.getMaxFd clients :=
  (foldl_maxFd clients 0).2 client member

/-- The second pass returns when every client has a bit, by induction on the clients. -/
theorem copyClientFd_returns (small : ∀ client ∈ clients, client.fd < fdSetSize) (set : FdSet)
    : ∃ after, ClientService.copyClientFd clients set = .ok after := by
  induction clients generalizing set with
  | nil => exact ⟨set, rfl⟩
  | cons first rest ih =>
      obtain ⟨head, tail⟩ := List.forall_mem_cons.mp small
      obtain ⟨after, copied⟩ := ih tail (set ||| .twoPow fdSetSize first.fd)
      refine ⟨after, ?_⟩
      rw [ClientService.copyClientFd, List.foldlM_cons, fdSet, if_pos head]
      exact copied

/-- What the second pass adds is the clients' descriptors, by induction on the clients. -/
theorem getLsbD_copyClientFd {set after : FdSet}
    (copied : ClientService.copyClientFd clients set = .ok after) (fd : Nat)
    : after.getLsbD fd = true
      ↔ (∃ client ∈ clients, client.fd = fd) ∨ set.getLsbD fd = true := by
  induction clients generalizing set with
  | nil =>
      cases copied
      simp
  | cons first rest ih =>
      rw [ClientService.copyClientFd, List.foldlM_cons] at copied
      cases written : fdSet first.fd set with
      | error fault =>
          rw [written] at copied
          cases copied
      | ok next =>
          rw [written] at copied
          rw [ih copied, getLsbD_fdSet written]
          constructor
          · rintro (⟨client, member, same⟩ | rfl | old)
            · exact .inl ⟨client, .tail _ member, same⟩
            · exact .inl ⟨first, .head _, rfl⟩
            · exact .inr old
          · rintro (⟨client, member, rfl⟩ | old)
            · rcases List.mem_cons.mp member with rfl | member
              · exact .inr (.inl rfl)
              · exact .inl ⟨client, member, rfl⟩
            · exact .inr (.inr old)

/-- Clients that all have a bit are covered, and every access stays inside the set. -/
theorem selectCovers_of_small (small : ∀ client ∈ clients, client.fd < fdSetSize)
    : SelectCovers clients := by
  obtain ⟨after, copied⟩ := copyClientFd_returns small fdZero
  refine ⟨⟨ClientService.getMaxFd clients, after⟩, ?_, fun fd => ?_, ?_, ?_⟩
  · rw [ClientService.prologue, copied]
    rfl
  · have empty : ¬ fdZero.getLsbD fd = true := by simp [fdZero]
    rw [getLsbD_copyClientFd copied, or_iff_left empty]
  · intro client member
    exact Nat.lt_succ_of_le (fd_le_getMaxFd member)
  · intro client member activeFdSet
    exact ⟨_, by rw [fdIsSet, if_pos (small client member)]⟩

end Passes

/-- The set covers the clients, and every access stays inside it, exactly when all of them have
a descriptor below `FD_SETSIZE`.
-/
theorem selectCovers_iff (clients : List TcpClient)
    : SelectCovers clients ↔ ∀ client ∈ clients, client.fd < fdSetSize := by
  refine ⟨?_, selectCovers_of_small⟩
  rintro ⟨state, -, -, -, asked⟩ client member
  obtain ⟨ready, read⟩ := asked client member fdZero
  rw [fdIsSet] at read
  split at read
  · assumption
  · cases read

/-- A client with the first descriptor that has no bit. -/
theorem not_selectCovers_1024 : ¬ SelectCovers [{ fd := 1024, msgDelimiter := none }] := by
  rintro ⟨state, returned, -⟩
  cases returned

end Ethnm
