import Ethnm.Delimiter.MsgDelimiter

/-! Connected clients as objects on the heap, and `TcpClient::Abort`. -/

namespace Ethnm

/-- Where a client object was allocated. -/
abbrev Address := Nat

/-- `fd` is what `accept` has returned, which may be zero. A client owns its delimiter. -/
structure TcpClient where
  fd : Nat
  msgDelimiter : Option (Framing × MsgDelimiter)

/-- The client objects that exist, with the calls of `close` and of `Abort` so far. -/
structure ClientHeap where
  objects : Address → Option TcpClient
  closed : List Nat
  aborted : List Address

/-- The descriptor that `Abort` closes: it takes zero for none. -/
def TcpClient.descriptor (client : TcpClient) : Option Nat :=
  if client.fd = 0 then none else some client.fd

/-- `client->Abort()`: close the descriptor if it is not zero, then delete the delimiter and the
client.
-/
def TcpClient.abort (client : Address) (heap : ClientHeap) : Except Fault ClientHeap :=
  match heap.objects client with
  | none => .error .useAfterFree
  | some object =>
      .ok {
        objects := fun address => if address = client then none else heap.objects address
        closed := heap.closed ++ object.descriptor.toList
        aborted := heap.aborted ++ [client]
      }

/-- A client can be aborted once. -/
theorem TcpClient.abort_abort {client : Address} {heap after : ClientHeap}
    (aborted : TcpClient.abort client heap = .ok after)
    : TcpClient.abort client after = .error .useAfterFree := by
  rw [TcpClient.abort] at aborted
  cases live : heap.objects client with
  | none =>
      rw [live] at aborted
      cases aborted
  | some object =>
      rw [live] at aborted
      cases aborted
      simp only [TcpClient.abort, if_true]

end Ethnm
