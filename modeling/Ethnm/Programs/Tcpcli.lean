import Ethnm.Delimiter.Reassembly

/-! The test client `tcpcli` at a server whose clients have variable-length delimiters. Its
records of ten bytes carry their own size, and fill the ring exactly, so none of them passes the
physical end.
-/

namespace Ethnm
open ByteCircularBuffer

-----------------------------------------------------------------------------------------
-- What the client sends
-----------------------------------------------------------------------------------------

/-- `test_struct_t`, which is packed. -/
structure TestStruct where
  msgSize : UInt16
  a : UInt32
  b : UInt32
  deriving DecidableEq, Repr

/-- The four bytes of an `unsigned int` object on a little-endian host. -/
def wordBytes (value : UInt32) : List UInt8 :=
  [
    .ofNat value.toNat, .ofNat (value.toNat / 256), .ofNat (value.toNat / 65536),
    .ofNat (value.toNat / 16777216)
  ]

/-- The `unsigned int` object with the given bytes. -/
def wordOf (first second third fourth : UInt8) : UInt32 :=
  .ofNat (first.toNat + 256 * second.toNat + 65536 * third.toNat + 16777216 * fourth.toNat)

def TestStruct.bytes (record : TestStruct) : List UInt8 :=
  objectBytes record.msgSize ++ wordBytes record.a ++ wordBytes record.b

/-- The record that a message of ten bytes holds. -/
def TestStruct.ofBytes : List UInt8 → Option TestStruct
  | [low, high, a0, a1, a2, a3, b0, b1, b2, b3] =>
      some ⟨hostOrder [low, high], wordOf a0 a1 a2 a3, wordOf b0 b1 b2 b3⟩
  | _ => none

/-- What `client_data` holds once the user was prompted. -/
structure Prompted where
  a1 : UInt32
  b1 : UInt32
  a2 : UInt32
  b2 : UInt32
  deriving DecidableEq, Repr

/-- `client_data`, with `sizeof(client_data[0])` in both records. -/
def Prompted.clientData (prompted : Prompted) : List TestStruct :=
  [⟨10, prompted.a1, prompted.b1⟩, ⟨10, prompted.a2, prompted.b2⟩]

/-- The records of the loop in `setup_tcp_communication`, which ends on two zeros. -/
def setupTcpCommunication : List Prompted → List TestStruct
  | [] => []
  | prompted :: rest =>
      if prompted.a1 = 0 ∧ prompted.b1 = 0 then
        []
      else
        prompted.clientData ++ setupTcpCommunication rest

/-- The bytes that the client sends. -/
def sentBytes (prompts : List Prompted) : List UInt8 :=
  (setupTcpCommunication prompts).flatMap TestStruct.bytes

-----------------------------------------------------------------------------------------
-- Records as messages
-----------------------------------------------------------------------------------------

@[simp]
theorem TestStruct.length_bytes (record : TestStruct) : record.bytes.length = 10 := rfl

theorem hostOrder_objectBytes (value : UInt16) : hostOrder (objectBytes value) = value := by
  have small := value.toNat_lt
  apply UInt16.toNat_inj.mp
  change (UInt16.ofNat ((UInt8.ofNat value.toNat).toNat
    + 256 * (UInt8.ofNat (value.toNat / 256)).toNat)).toNat = value.toNat
  rw [UInt16.toNat_ofNat', UInt8.toNat_ofNat', UInt8.toNat_ofNat']
  omega

theorem wordOf_bytes (value : UInt32)
    : wordOf (.ofNat value.toNat) (.ofNat (value.toNat / 256)) (.ofNat (value.toNat / 65536))
        (.ofNat (value.toNat / 16777216))
      = value := by
  have small := value.toNat_lt
  apply UInt32.toNat_inj.mp
  rw [wordOf, UInt32.toNat_ofNat', UInt8.toNat_ofNat', UInt8.toNat_ofNat', UInt8.toNat_ofNat',
    UInt8.toNat_ofNat']
  omega

/-- A record is read back from its bytes. -/
theorem TestStruct.ofBytes_bytes (record : TestStruct)
    : TestStruct.ofBytes record.bytes = some record := by
  have size := hostOrder_objectBytes record.msgSize
  have a := wordOf_bytes record.a
  have b := wordOf_bytes record.b
  change some (TestStruct.mk (hostOrder (objectBytes record.msgSize)) (wordOf _ _ _ _)
    (wordOf _ _ _ _)) = _
  rw [size, a, b]

/-- Every record that is sent carries its own size, by induction on the prompts. -/
theorem msgSize_setupTcpCommunication (prompts : List Prompted)
    : ∀ record ∈ setupTcpCommunication prompts, record.msgSize = 10 := by
  induction prompts with
  | nil => exact nofun
  | cons prompted rest ih =>
      rw [setupTcpCommunication]
      split
      · exact nofun
      · intro record member
        rcases List.mem_append.mp member with now | later
        · simp only [Prompted.clientData, List.mem_cons, List.not_mem_nil, or_false] at now
          rcases now with rfl | rfl <;> rfl
        · exact ih record later

/-- Records that carry their own size are the messages of a stream of frames. -/
theorem exists_frames {records : List TestStruct} (sized : ∀ record ∈ records, record.msgSize = 10)
    : ∃ frames : List Frame, frames.map Frame.bytes = records.map TestStruct.bytes := by
  induction records with
  | nil => exact ⟨[], rfl⟩
  | cons record rest ih =>
      obtain ⟨own, others⟩ := List.forall_mem_cons.mp sized
      obtain ⟨frames, same⟩ := ih others
      have header : (hostOrder record.bytes).toNat = 10 := by
        change (hostOrder (objectBytes record.msgSize)).toNat = 10
        rw [hostOrder_objectBytes, own]
        rfl
      have three : 3 ≤ record.bytes.length := by
        rw [TestStruct.length_bytes]
        decide
      have small : record.bytes.length ≤ kBufferSize := by
        rw [TestStruct.length_bytes]
        decide
      refine ⟨⟨record.bytes, three, small, header⟩ :: frames, ?_⟩
      rw [List.map_cons, List.map_cons, same]

/-- The record at any place begins at ten times its number, by induction on it. -/
theorem offset_records {records : List TestStruct} {k : Nat} (within : k ≤ records.length)
    : offset (records.map TestStruct.bytes) k = 10 * k := by
  induction k with
  | zero => rw [offset, List.take_zero, List.flatten_nil, List.length_nil, Nat.mul_zero]
  | succ k ih =>
      have inside : k < (records.map TestStruct.bytes).length := by rwa [List.length_map]
      rw [offset_succ, ih (Nat.le_of_succ_le within), getD_eq_of_lt inside, List.getElem_map,
        TestStruct.length_bytes, Nat.mul_succ]

/-- No record passes the physical end: a thousand and twenty-four of them fill the ring. -/
theorem not_straddles_records {records : List TestStruct} {k : Nat} (within : k < records.length)
    : ¬ Straddles (records.map TestStruct.bytes) k := by
  have inside : k < (records.map TestStruct.bytes).length := by rwa [List.length_map]
  rw [Straddles, offset_records within.le, getD_eq_of_lt inside, List.getElem_map,
    TestStruct.length_bytes]
  omega

/-- A variable-length delimiter cuts what has arrived into the records that are complete. -/
theorem feed_sentBytes {prompts : List Prompted} {arrivals : List Arrival}
    (begins : stream arrivals <+: sentBytes prompts) {fuel : Nat} (enough : 10240 < fuel)
    : let count := (stream arrivals).length / 10
      ∃ progress,
        feed .var fuel fresh arrivals = .ok progress
        ∧ progress.delivered.map (fun message => TestStruct.ofBytes message.1)
          = ((setupTcpCommunication prompts).take count).map some
        ∧ (∀ message ∈ progress.delivered, message.2 = 10)
        ∧ progress.delimiter.bcb.live = (stream arrivals).drop (10 * count) := by
  intro count
  obtain ⟨frames, same⟩ := exists_frames (msgSize_setupTcpCommunication prompts)
  rw [sentBytes, List.flatMap_def] at begins
  generalize setupTcpCommunication prompts = records at same begins ⊢
  have cuts := cuts_var frames
  rw [same] at cuts
  have size := begins.length_le
  rw [← List.append_nil (records.map TestStruct.bytes).flatten] at begins
  have unbroken : ∀ k < (records.map TestStruct.bytes).length,
      ¬ Straddles (records.map TestStruct.bytes) k := by
    intro k within
    exact not_straddles_records (by rwa [List.length_map] at within)
  have drained := cuts.feed_drained unbroken enough begins
  cases result : feed .var fuel fresh arrivals with
  | error stop =>
      rw [result] at drained
      exact drained.elim
  | ok progress =>
      obtain ⟨k, within, cut, rest⟩ := drained.of_ok result
      have consumed := cut.consumed_le
      have live := cut.live
      rw [List.length_map] at within
      rw [offset_records within] at consumed live
      have counted : count = k := by
        have few : (stream arrivals).length < 10 * (k + 1) := by
          by_contra whole
          rcases Nat.lt_or_eq_of_le within with inside | rfl
          · refine rest ⟨by rwa [List.length_map], ?_⟩
            rw [offset_records inside]
            exact Nat.le_of_not_lt whole
          · rw [← offset_length, List.length_map, offset_records (Nat.le_refl _)] at size
            omega
        omega
      refine ⟨progress, rfl, ?_, ?_, counted ▸ live⟩
      · rw [cut.delivered, counted, labelled, ← List.map_take, List.map_map, List.map_map]
        refine List.map_congr_left (fun record _ => ?_)
        exact record.ofBytes_bytes
      · rw [cut.delivered, labelled, ← List.map_take]
        intro message member
        obtain ⟨bytes, among, rfl⟩ := List.mem_map.mp member
        obtain ⟨record, -, rfl⟩ := List.mem_map.mp among
        rfl

/-- However much of what the client sends has arrived, and in whatever chunks, the server was
handed the records that are complete, as they were entered, and holds the rest.
-/
theorem tcpcli_received {prompts : List Prompted} {arrivals : List Arrival}
    (begins : stream arrivals <+: sentBytes prompts)
    : let count := (stream arrivals).length / 10
      ∃ enough, ∀ fuel, enough ≤ fuel →
        ∃ progress,
          feed .var fuel fresh arrivals = .ok progress
          ∧ progress.delivered.map (fun message => TestStruct.ofBytes message.1)
            = ((setupTcpCommunication prompts).take count).map some
          ∧ (∀ message ∈ progress.delivered, message.2 = 10)
          ∧ progress.delimiter.bcb.live = (stream arrivals).drop (10 * count) :=
  ⟨10241, fun _ enough => feed_sentBytes begins enough⟩

/-- Twelve bytes of a pair of records, in one chunk. -/
theorem tcpcli_received_twelve
    : let bytes : List UInt8 := [10, 0, 1, 0, 0, 0, 2, 0, 0, 0, 10, 0]
      let arrival : Arrival := ⟨bytes, .holding 0 0, by decide, by decide⟩
      ∃ enough, ∀ fuel, enough ≤ fuel →
        ∃ progress,
          feed .var fuel fresh [arrival] = .ok progress
          ∧ progress.delivered.map (fun message => TestStruct.ofBytes message.1)
            = [some ⟨10, 1, 2⟩]
          ∧ (∀ message ∈ progress.delivered, message.2 = 10)
          ∧ progress.delimiter.bcb.live = [10, 0] := by
  intro bytes arrival
  have begins : stream [arrival] <+: sentBytes [⟨1, 2, 3, 4⟩, ⟨0, 0, 5, 6⟩] := by decide
  have prompted : (setupTcpCommunication [⟨1, 2, 3, 4⟩, ⟨0, 0, 5, 6⟩]).take 1 = [⟨10, 1, 2⟩] := by
    decide
  have count : (stream [arrival]).length / 10 = 1 := by decide
  obtain ⟨enough, run⟩ := tcpcli_received begins
  refine ⟨enough, fun fuel more => ?_⟩
  obtain ⟨progress, returned, records, lengths, live⟩ := run fuel more
  rw [count, prompted] at records
  rw [count] at live
  exact ⟨progress, returned, records, lengths, live⟩

end Ethnm
