import Ethnm.Nm.EthnmCore

/-! The loop of `ConnectionManager::RecieveMulticast`. The receive limit is the size of the
array, and the terminator goes behind what was received, so a datagram that fills the array is
terminated outside of it.
-/

namespace Ethnm.Nm

structure Packet where
  data : List UInt8
  dataLen : Int
  dataSize : UInt32
  dataSeq : UInt32
  isFinish : Bool

/-- The packet before the loop; `data_size` is not initialised. -/
def Packet.start (dataSize : UInt32) : Packet :=
  {
    data := List.replicate BUFSIZE.toNat 0
    dataLen := 0
    dataSize
    dataSeq := 0
    isFinish := false
  }

/-- What `recvfrom` finds: an error, or the next datagram. -/
inductive Incoming
  | failed
  | datagram (bytes : List UInt8)

/-- `recvfrom(master_sock_udp, data, BUFSIZE, …)` stores what fits of a datagram, and returns
how much that is.
-/
def recvfrom (data : List UInt8) : Incoming → List UInt8 × Int
  | .failed => (data, -1)
  | .datagram bytes =>
      let stored := bytes.take BUFSIZE.toNat
      (stored ++ data.drop stored.length, stored.length)

/-- One turn of the loop; there is no packet left when `error_break` has ended the process. -/
def Packet.recieve (packet : Packet) (incoming : Incoming) : Except Fault (Option Packet) :=
  let (data, dataLen) := recvfrom packet.data incoming
  let packet := { packet with data, dataLen }
  if dataLen < 0 then
    .ok none
  else if dataLen < BUFSIZE then
    .ok (some { packet with data := packet.data.set dataLen.toNat 0 })
  else
    .error .outOfRange

/-- Every turn on these datagrams writes inside the array, the terminator included, and leaves
the other fields and the length that it has just stored.
-/
def StaysInside (packet : Packet) : List (List UInt8) → Prop
  | [] => True
  | bytes :: rest =>
      ∃ after, packet.recieve (.datagram bytes) = .ok (some after)
        ∧ after.data.length = BUFSIZE.toNat
        ∧ after.dataLen = (recvfrom packet.data (.datagram bytes)).2
        ∧ after.dataSeq = packet.dataSeq
        ∧ after.isFinish = packet.isFinish
        ∧ StaysInside after rest

section Turns

variable {packet : Packet} {bytes : List UInt8}

theorem toNat_BUFSIZE : BUFSIZE.toNat = 512 := rfl

/-- A datagram that leaves room for the terminator is stored whole and terminated. -/
theorem recieve_short (short : bytes.length < 512)
    : packet.recieve (.datagram bytes)
      = .ok
          (some
            {
              packet with
              data := (bytes ++ packet.data.drop bytes.length).set bytes.length 0
              dataLen := bytes.length
            }) := by
  have whole : bytes.take 512 = bytes := List.take_of_length_le (by omega)
  have inside : (bytes.length : Int) < BUFSIZE := by
    unfold BUFSIZE
    omega
  simp only [Packet.recieve, recvfrom, toNat_BUFSIZE, whole]
  rw [if_neg (by omega), if_pos inside]
  rfl

/-- A datagram that fills the array, or would fill more, is terminated behind it. -/
theorem recieve_long (long : 512 ≤ bytes.length)
    : packet.recieve (.datagram bytes) = .error .outOfRange := by
  have full : (bytes.take 512).length = 512 := by
    rw [List.length_take]
    omega
  simp only [Packet.recieve, recvfrom, toNat_BUFSIZE, full]
  rfl

/-- From a packet whose array has its size, the turns stay inside exactly when all datagrams
leave room for the terminator; by induction on the datagrams.
-/
theorem staysInside_of_length (sized : packet.data.length = 512) (datagrams : List (List UInt8))
    : StaysInside packet datagrams ↔ ∀ bytes ∈ datagrams, bytes.length < 512 := by
  induction datagrams generalizing packet with
  | nil => exact iff_of_true trivial (fun _ member => by cases member)
  | cons bytes rest ih =>
      rw [StaysInside, List.forall_mem_cons]
      rcases Nat.lt_or_ge bytes.length 512 with short | long
      · have kept : ((bytes ++ packet.data.drop bytes.length).set bytes.length 0).length
            = 512 := by
          rw [List.length_set, List.length_append, List.length_drop, sized]
          omega
        have whole : bytes.take 512 = bytes := List.take_of_length_le (by omega)
        constructor
        · rintro ⟨after, turned, -, -, -, -, later⟩
          rw [recieve_short short] at turned
          cases turned
          exact ⟨short, (ih kept).mp later⟩
        · rintro ⟨-, later⟩
          refine ⟨_, recieve_short short, kept, ?_, rfl, rfl, (ih kept).mpr later⟩
          simp only [recvfrom, toNat_BUFSIZE, whole]
      · constructor
        · rintro ⟨after, turned, -⟩
          rw [recieve_long long] at turned
          cases turned
        · rintro ⟨short, -⟩
          omega

/-- A turn of the loop, as a step of the network thread that is not cancelled. -/
theorem networkStep_recieve {system : System} (receiving : system.network = .recieveMulticast)
    (running : system.isCancelled (.worker .network) = false) (packet : Packet)
    (incoming : Incoming)
    : networkStep (recvfrom packet.data incoming).2 system
      = match packet.recieve incoming with
        | .ok none => .ok { system with exited := true }
        | .ok (some _) => .ok system
        | .error fault => .error (.fault fault) := by
  simp only [networkStep, receiving, running, Bool.false_eq_true, if_false, Packet.recieve]
  split
  · rfl
  · split <;> rfl

end Turns

/-- The loop stays inside its packet exactly when every datagram is shorter than the array. -/
theorem staysInside_iff (dataSize : UInt32) (datagrams : List (List UInt8))
    : StaysInside (.start dataSize) datagrams
      ↔ ∀ bytes ∈ datagrams, bytes.length < BUFSIZE.toNat :=
  staysInside_of_length List.length_replicate datagrams

/-- A datagram that fills the array. -/
theorem not_staysInside_512 : ¬ StaysInside (.start 0) [List.replicate 512 65] := by
  rintro ⟨after, turned, -⟩
  rw [recieve_long (Nat.le_of_eq List.length_replicate.symm)] at turned
  cases turned

end Ethnm.Nm
