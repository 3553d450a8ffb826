import BpfAgent.Sca.Ebpf

/-!
# The NNG header and the gathered message

sendmsg sends the bytes of its iovecs one after the other.  The program looks
for the header in the first iovec, or takes protocol and message type from the
starts of the second and the third.  The latter are the bytes of the message
only when the first two iovecs hold exactly the fields before.
-/

namespace BpfAgent.Sca

/-- The bytes of one iovec, none where the memory is not readable. -/
def iovBytes (memory : Memory) (iov : IoVec) : List (Option UInt8) :=
  (List.range iov.iovLen.toNat).map fun index => memory (iov.iovBase + index.toUInt64)

/-- What sendmsg sends. -/
def gather (memory : Memory) (iovs : List IoVec) : List (Option UInt8) :=
  iovs.flatMap (iovBytes memory)

/-- The msghdr at `msgPtr` leads to `iovs`. -/
structure LeadsTo (memory : Memory) (msgPtr : UInt64) (iovs : List IoVec) : Prop where
  array : ∃ msghdr, readUserMsgHdr memory msgPtr = some msghdr ∧
    msghdr.msgIovlen.toNat = iovs.length ∧
    ∀ (index : Nat) iov, iovs[index]? = some iov →
      readIovAt memory msghdr.msgIov index.toUInt64 = some iov

/-- The `count` bytes of the message from `off` on have the big-endian value. -/
def BigEndianAt (message : List (Option UInt8)) (off count : Nat) (value : UInt32) : Prop :=
  ∃ bytes : List UInt8, bytes.length = count ∧
    (message.drop off).take count = bytes.map some ∧ Word.bigEndian bytes = value

/-- The header that is read is the one of the message. -/
def HeaderAgrees (memory : Memory) (msgPtr : UInt64) (iovs : List IoVec) : Prop :=
  ∀ protocol msgType, readNngHeader memory msgPtr = some (protocol, msgType) →
    BigEndianAt (gather memory iovs) 9 4 protocol ∧
    ∃ value, BigEndianAt (gather memory iovs) 13 2 value ∧ value.toUInt16 = msgType

/-- The lengths of the iovecs that the header may be read from. -/
def layout (iovs : List IoVec) : List UInt64 := (iovs.take 3).map IoVec.iovLen

/-- The header lies in the first iovec, or the split reading finds too little,
or the fields before the protocol and the message type fill their iovecs. -/
def HeaderAligned : (lengths : List UInt64) → Prop
  | [first, second, third] =>
      15 ≤ first ∨ second < 4 ∨ third < 2 ∨ (first = 9 ∧ second = 4)
  | _ => True

instance : DecidablePred HeaderAligned
  | [first, second, third] =>
      inferInstanceAs
        (Decidable (15 ≤ first ∨ second < 4 ∨ third < 2 ∨ (first = 9 ∧ second = 4)))
  | [] | [_] | [_, _] | _ :: _ :: _ :: _ :: _ => inferInstanceAs (Decidable True)

theorem readHeaderFromSingleIov_eq_some_iff {memory : Memory} {iov : IoVec} {protocol : UInt32}
    {msgType : UInt16} :
    readHeaderFromSingleIov memory iov = some (protocol, msgType) ↔
      readBeU32 memory (iov.iovBase + 9) = some protocol ∧
      readBeU16 memory (iov.iovBase + 13) = some msgType := by
  change ((readBeU32 memory (iov.iovBase + 9)).bind fun protocol =>
    (readBeU16 memory (iov.iovBase + 13)).bind fun msgType => some (protocol, msgType)) = _ ↔ _
  cases readBeU32 memory (iov.iovBase + 9) with
  | none => simp
  | some first =>
      cases readBeU16 memory (iov.iovBase + 13) with
      | none => simp
      | some second => simp

theorem readHeaderFromSplitIovs_eq_some_iff {memory : Memory} {iovArray iovCount : UInt64}
    {protocol : UInt32} {msgType : UInt16} :
    readHeaderFromSplitIovs memory iovArray iovCount = some (protocol, msgType) ↔
      3 ≤ iovCount ∧ ∃ second third, readIovAt memory iovArray 1 = some second ∧
        second.iovBase ≠ 0 ∧ 4 ≤ second.iovLen ∧ readIovAt memory iovArray 2 = some third ∧
        third.iovBase ≠ 0 ∧ 2 ≤ third.iovLen ∧
        readBeU32 memory second.iovBase = some protocol ∧
        readBeU16 memory third.iovBase = some msgType := by
  simp only [readHeaderFromSplitIovs, Option.bind_eq_bind, Option.failure_eq_none,
    Option.bind_none, Option.pure_def, Option.ite_none_left_eq_some, Option.bind_eq_some_iff,
    not_or, UInt64.not_lt]
  constructor
  · rintro ⟨many, second, readSecond, ⟨secondBase, secondLen⟩, third, readThird,
      ⟨thirdBase, thirdLen⟩, _, readProtocol, _, readType, same⟩
    cases same
    exact ⟨many, second, third, readSecond, secondBase, secondLen, readThird, thirdBase,
      thirdLen, readProtocol, readType⟩
  · rintro ⟨many, second, third, readSecond, secondBase, secondLen, readThird, thirdBase,
      thirdLen, readProtocol, readType⟩
    exact ⟨many, second, readSecond, ⟨secondBase, secondLen⟩, third, readThird,
      ⟨thirdBase, thirdLen⟩, protocol, readProtocol, msgType, readType, rfl⟩

theorem readNngHeader_eq_some_iff {memory : Memory} {msgPtr : UInt64} {protocol : UInt32}
    {msgType : UInt16} :
    readNngHeader memory msgPtr = some (protocol, msgType) ↔
      ∃ msghdr first, readUserMsgHdr memory msgPtr = some msghdr ∧ msghdr.msgIov ≠ 0 ∧
        msghdr.msgIovlen ≠ 0 ∧ readIovAt memory msghdr.msgIov 0 = some first ∧
        first.iovBase ≠ 0 ∧
        (if 15 ≤ first.iovLen then readHeaderFromSingleIov memory first
          else readHeaderFromSplitIovs memory msghdr.msgIov msghdr.msgIovlen) =
          some (protocol, msgType) := by
  simp only [readNngHeader, Option.bind_eq_bind, Option.failure_eq_none, Option.bind_none,
    Option.ite_none_left_eq_some, Option.bind_eq_some_iff, not_or]
  constructor
  · rintro ⟨msghdr, readHdr, ⟨iov, iovlen⟩, first, readFirst, base, header⟩
    exact ⟨msghdr, first, readHdr, iov, iovlen, readFirst, base, header⟩
  · rintro ⟨msghdr, first, readHdr, iov, iovlen, readFirst, base, header⟩
    exact ⟨msghdr, readHdr, ⟨iov, iovlen⟩, first, readFirst, base, header⟩

@[simp]
theorem length_iovBytes (memory : Memory) (iov : IoVec) :
    (iovBytes memory iov).length = iov.iovLen.toNat := by
  simp [iovBytes]

/-- A read inside an iovec yields its bytes. -/
theorem iovBytes_of_read {memory : Memory} {iov : IoVec} {off count : Nat} {bytes : List UInt8}
    (inside : off + count ≤ iov.iovLen.toNat)
    (readable : memory.read (iov.iovBase + off.toUInt64) count = some bytes) :
    ((iovBytes memory iov).drop off).take count = bytes.map some := by
  obtain ⟨size, reads⟩ := Memory.read_eq_some_iff.mp readable
  apply List.ext_getElem
  · simp
    omega
  · intro index _ bound
    rw [List.length_map] at bound
    have byte := reads index (by omega)
    rw [List.getElem?_eq_getElem bound] at byte
    simp [iovBytes, ← byte, UInt64.add_assoc]

theorem gather_cons (memory : Memory) (iov : IoVec) (iovs : List IoVec) :
    gather memory (iov :: iovs) = iovBytes memory iov ++ gather memory iovs :=
  List.flatMap_cons

theorem gather_of_read {memory : Memory} {iov : IoVec} {iovs : List IoVec} {off count : Nat}
    {bytes : List UInt8} (inside : off + count ≤ iov.iovLen.toNat)
    (readable : memory.read (iov.iovBase + off.toUInt64) count = some bytes) :
    ((gather memory (iov :: iovs)).drop off).take count = bytes.map some := by
  rw [gather_cons, List.drop_append_of_le_length, List.take_append_of_le_length,
    iovBytes_of_read inside readable]
  · simp
    omega
  · simp
    omega

theorem gather_drop {memory : Memory} {iov : IoVec} {iovs : List IoVec} {off : Nat} :
    (gather memory (iov :: iovs)).drop (iov.iovLen.toNat + off) =
      (gather memory iovs).drop off := by
  rw [gather_cons, ← length_iovBytes memory iov, List.drop_length_add_append]

theorem getElem?_gather_cons {memory : Memory} {iov : IoVec} {iovs : List IoVec} {off : Nat} :
    (gather memory (iov :: iovs))[off]? =
      if off < iov.iovLen.toNat then some (memory (iov.iovBase + off.toUInt64))
      else (gather memory iovs)[off - iov.iovLen.toNat]? := by
  rw [gather_cons]
  split
  next inside =>
    rw [List.getElem?_append_left (by simpa using inside)]
    simp [iovBytes, inside]
  next beyond =>
    rw [List.getElem?_append_right (by simpa using beyond), length_iovBytes]

section Values

variable {memory : Memory} {iov : IoVec} {iovs : List IoVec} {off count : Nat}

theorem bigEndianAt_of_read {bytes : List UInt8}
    (inside : off + count ≤ iov.iovLen.toNat)
    (readable : memory.read (iov.iovBase + off.toUInt64) count = some bytes) :
    BigEndianAt (gather memory (iov :: iovs)) off count (Word.bigEndian bytes) :=
  ⟨bytes, Memory.length_read readable, gather_of_read inside readable, rfl⟩

theorem bigEndianAt_cons (iov : IoVec) {value : UInt32}
    (later : BigEndianAt (gather memory iovs) off count value) :
    BigEndianAt (gather memory (iov :: iovs)) (iov.iovLen.toNat + off) count value := by
  rw [BigEndianAt, gather_drop]
  exact later

theorem bigEndianAt_of_readBeU32 {protocol : UInt32} (inside : off + 4 ≤ iov.iovLen.toNat)
    (readable : readBeU32 memory (iov.iovBase + off.toUInt64) = some protocol) :
    BigEndianAt (gather memory (iov :: iovs)) off 4 protocol := by
  obtain ⟨bytes, read, rfl⟩ := Option.map_eq_some_iff.mp readable
  exact bigEndianAt_of_read inside read

theorem bigEndianAt_of_readBeU16 {msgType : UInt16} (inside : off + 2 ≤ iov.iovLen.toNat)
    (readable : readBeU16 memory (iov.iovBase + off.toUInt64) = some msgType) :
    ∃ value, BigEndianAt (gather memory (iov :: iovs)) off 2 value ∧
      value.toUInt16 = msgType := by
  obtain ⟨bytes, read, rfl⟩ := Option.map_eq_some_iff.mp readable
  exact ⟨Word.bigEndian bytes, bigEndianAt_of_read inside read, rfl⟩

end Values

theorem getElem?_eq_slice {message : List (Option UInt8)} (off : Nat) {count : Nat}
    (nonempty : 0 < count) : message[off]? = ((message.drop off).take count)[0]? := by
  rw [List.getElem?_take_of_lt nonempty, List.getElem?_drop, Nat.add_zero]

theorem BigEndianAt.word {message : List (Option UInt8)} {off : Nat} {value : UInt32}
    (field : BigEndianAt message off 4 value) :
    (message.drop off).take 4 = (Word.bigEndianBytes value).map some := by
  obtain ⟨bytes, size, placed, rfl⟩ := field
  obtain ⟨first, second, third, fourth, rfl⟩ := List.length_eq_four.mp size
  rw [placed, Word.bigEndianBytes_bigEndian]

theorem headerAgrees_of_aligned {memory : Memory} {msgPtr : UInt64} {iovs : List IoVec}
    (leads : LeadsTo memory msgPtr iovs) (aligned : HeaderAligned (layout iovs)) :
    HeaderAgrees memory msgPtr iovs := by
  intro protocol msgType found
  obtain ⟨msghdr, first, readHdr, -, nonempty, readFirst, -, header⟩ :=
    readNngHeader_eq_some_iff.mp found
  obtain ⟨⟨_, same, count, array⟩⟩ := leads
  cases readHdr.symm.trans same
  cases iovs with
  | nil =>
      exact absurd (UInt64.toNat_inj.mp count) nonempty
  | cons head rest =>
      cases readFirst.symm.trans (array 0 head rfl)
      split at header
      next whole =>
        obtain ⟨readProtocol, readType⟩ := readHeaderFromSingleIov_eq_some_iff.mp header
        have long : 15 ≤ first.iovLen.toNat := UInt64.le_iff_toNat_le.mp whole
        exact ⟨bigEndianAt_of_readBeU32 (by omega) readProtocol,
          bigEndianAt_of_readBeU16 (by omega) readType⟩
      next short =>
        obtain ⟨many, second, third, readSecond, -, secondLen, readThird, -, thirdLen,
          readProtocol, readType⟩ := readHeaderFromSplitIovs_eq_some_iff.mp header
        have three : 3 ≤ rest.length + 1 := by
          rw [← List.length_cons, ← count]
          exact UInt64.le_iff_toNat_le.mp many
        obtain ⟨atSecond, atThird, more, rfl⟩ : ∃ atSecond atThird more,
            rest = atSecond :: atThird :: more := by
          match rest, three with
          | atSecond :: atThird :: more, _ => exact ⟨atSecond, atThird, more, rfl⟩
        cases readSecond.symm.trans (array 1 atSecond rfl)
        cases readThird.symm.trans (array 2 atThird rfl)
        obtain ⟨nine, four⟩ : first.iovLen = 9 ∧ second.iovLen = 4 := by
          rcases aligned with whole | few | fewer | fields
          · exact absurd whole short
          · exact absurd few (UInt64.not_lt.mpr secondLen)
          · exact absurd fewer (UInt64.not_lt.mpr thirdLen)
          · exact fields
        have start : ∀ address : UInt64, address = address + (0 : Nat).toUInt64 :=
          fun address => (UInt64.add_zero address).symm
        have firstSize : first.iovLen.toNat = 9 := congrArg UInt64.toNat nine
        have secondSize : second.iovLen.toNat = 4 := congrArg UInt64.toNat four
        have thirdSize : 2 ≤ third.iovLen.toNat := UInt64.le_iff_toNat_le.mp thirdLen
        rw [start second.iovBase] at readProtocol
        rw [start third.iovBase] at readType
        have protocolField : BigEndianAt (gather memory (second :: third :: more)) 0 4 protocol :=
          bigEndianAt_of_readBeU32 (by omega) readProtocol
        obtain ⟨value, typeField, same⟩ :
            ∃ value, BigEndianAt (gather memory (third :: more)) 0 2 value ∧
              value.toUInt16 = msgType :=
          bigEndianAt_of_readBeU16 (by omega) readType
        have inFirst := bigEndianAt_cons first protocolField
        have inSecond := bigEndianAt_cons first (bigEndianAt_cons second typeField)
        rw [firstSize] at inFirst inSecond
        rw [secondSize] at inSecond
        exact ⟨inFirst, value, inSecond, same⟩

def splitRecords (first second third : UInt64) : List UInt8 :=
  Memory.wordBytes 0 ++ Memory.wordBytes 0 ++ Memory.wordBytes 4152 ++ Memory.wordBytes 3 ++
    .replicate 24 0 ++
    (Memory.wordBytes 4200 ++ Memory.wordBytes first) ++
    (Memory.wordBytes 4216 ++ Memory.wordBytes second) ++
    (Memory.wordBytes 4232 ++ Memory.wordBytes third) ++
    .replicate 16 0 ++ (1 :: .replicate 15 0) ++ (2 :: .replicate 15 0)

def splitMemory (first second third : UInt64) : Memory := fun address =>
  some ((Memory.segment 4096 (splitRecords first second third) address).getD 0)

section Split

variable (first second third : UInt64)

def splitIovs : List IoVec := [⟨4200, first⟩, ⟨4216, second⟩, ⟨4232, third⟩]

theorem splitMemory_read {address : UInt64} {offset count : Nat}
    (located : address.toNat = 4096 + offset) (inside : offset + count ≤ 152) :
    (splitMemory first second third).read address count =
      some (((splitRecords first second third).drop offset).take count) := by
  have size : (splitRecords first second third).length = 152 := by
    simp [splitRecords, Memory.wordBytes]
  have base : (4096 : UInt64).toNat = 4096 := rfl
  have records : (Memory.segment 4096 (splitRecords first second third)).read address count =
      some (((splitRecords first second third).drop offset).take count) :=
    Memory.read_segment located (by omega) (by omega)
  have larger : ∀ place byte,
      Memory.segment 4096 (splitRecords first second third) place = some byte →
        splitMemory first second third place = some byte := by
    intro place byte present
    rw [splitMemory, present, Option.getD_some]
  exact Memory.read_mono larger records

theorem splitMemory_at {address : UInt64} {offset : Nat}
    (located : address.toNat = 4096 + offset) :
    splitMemory first second third address =
      some (((splitRecords first second third)[offset]?).getD 0) := by
  rw [splitMemory, Memory.segment_at located]

theorem readUserMsgHdr_splitMemory :
    readUserMsgHdr (splitMemory first second third) 4096 = some ⟨0, 0, 4152, 3⟩ := by
  have record : ((splitRecords first second third).drop 0).take userMsgHdrSize =
      Memory.wordBytes 0 ++ Memory.wordBytes 0 ++ Memory.wordBytes 4152 ++ Memory.wordBytes 3 ++
        .replicate 24 0 := rfl
  rw [readUserMsgHdr, splitMemory_read first second third (Nat.add_zero _).symm (by decide),
    record]
  decide

theorem readIovAt_splitMemory {index base length : UInt64}
    (placed : ((splitRecords first second third).drop (56 + 16 * index.toNat)).take 16 =
      Memory.wordBytes base ++ Memory.wordBytes length) (bound : index.toNat < 3) :
    readIovAt (splitMemory first second third) 4152 index = some ⟨base, length⟩ := by
  have located : (4152 + index * ioVecSize.toUInt64).toNat = 4096 + (56 + 16 * index.toNat) := by
    rw [UInt64.toNat_add, UInt64.toNat_mul]
    change (4152 + index.toNat * 16 % 2 ^ 64) % 2 ^ 64 = _
    omega
  rw [readIovAt, splitMemory_read first second third located (by unfold ioVecSize; omega)]
  change some (IoVec.mk (Memory.field (((splitRecords _ _ _).drop _).take 16) 0 8)
    (Memory.field (((splitRecords _ _ _).drop _).take 16) 8 8)) = _
  have baseField := Memory.field_wordBytes [] base (Memory.wordBytes length)
  have lengthField := Memory.field_wordBytes (Memory.wordBytes base) length []
  rw [List.append_nil] at lengthField
  rw [placed]
  exact congrArg some (congrArg₂ IoVec.mk baseField lengthField)

theorem splitMemory_leadsTo :
    LeadsTo (splitMemory first second third) 4096 (splitIovs first second third) := by
  refine ⟨_, readUserMsgHdr_splitMemory first second third, rfl, ?_⟩
  intro index iov present
  match index, present with
  | 0, rfl => exact readIovAt_splitMemory first second third rfl (by decide)
  | 1, rfl => exact readIovAt_splitMemory first second third rfl (by decide)
  | 2, rfl => exact readIovAt_splitMemory first second third rfl (by decide)

variable {first second third}

theorem readNngHeader_splitMemory (short : ¬15 ≤ first) (protocol : 4 ≤ second)
    (msgType : 2 ≤ third) :
    readNngHeader (splitMemory first second third) 4096 = some (0x01000000, 0x0200) := by
  obtain ⟨_, readHdr, -, array⟩ := (splitMemory_leadsTo first second third).array
  cases (readUserMsgHdr_splitMemory first second third).symm.trans readHdr
  apply readNngHeader_eq_some_iff.mpr
  refine ⟨_, _, readHdr, by decide, by decide, array 0 _ rfl, show (4200 : UInt64) ≠ 0 by decide,
    ?_⟩
  rw [if_neg short]
  apply readHeaderFromSplitIovs_eq_some_iff.mpr
  refine ⟨by decide, _, _, array 1 _ rfl, show (4216 : UInt64) ≠ 0 by decide, protocol,
    array 2 _ rfl, show (4232 : UInt64) ≠ 0 by decide, msgType, ?_, ?_⟩
  · rw [readBeU32, splitMemory_read first second third (show _ = 4096 + 120 from rfl) (by decide)]
    rfl
  · rw [readBeU16, splitMemory_read first second third (show _ = 4096 + 136 from rfl) (by decide)]
    rfl

/-- The bytes behind the records: only the starts of the second and the third
iovec are not zero. -/
theorem splitMemory_data (offset : Nat) (bound : offset < 48) :
    splitMemory first second third (4200 + offset.toUInt64) =
      some (if offset = 16 then 1 else if offset = 32 then 2 else 0) := by
  have located : (4200 + offset.toUInt64).toNat = 4096 + (104 + offset) := by
    rw [UInt64.toNat_add, Nat.toUInt64_eq, UInt64.toNat_ofNat']
    change (4200 + offset % 2 ^ 64) % 2 ^ 64 = _
    omega
  have data : (splitRecords first second third).drop 104 =
      .replicate 16 0 ++ (1 :: .replicate 15 0) ++ (2 :: .replicate 15 0) := rfl
  rw [splitMemory_at first second third located, ← List.getElem?_drop, data]
  revert offset
  decide

theorem getElem?_gather_splitIovs (protocol : 4 ≤ second) (misplaced : first ≠ 9) :
    (gather (splitMemory first second third) (splitIovs first second third))[9]? ≠
      some (some 1) := by
  have zero : ∀ offset < 48, offset ≠ 16 →
      some (splitMemory first second third (4200 + offset.toUInt64)) ≠ some (some 1) := by
    intro offset bound other
    rw [splitMemory_data offset bound, if_neg other]
    split <;> decide
  have firstSize : first.toNat ≠ 9 := fun same => misplaced (UInt64.toNat_inj.mp same)
  have secondSize : 4 ≤ second.toNat := UInt64.le_iff_toNat_le.mp protocol
  rw [splitIovs, getElem?_gather_cons]
  dsimp only
  split
  next inFirst => exact zero 9 (by decide) (by decide)
  next afterFirst =>
    rw [getElem?_gather_cons]
    dsimp only
    split
    next inSecond =>
      rw [show (4216 : UInt64) = 4200 + (16 : Nat).toUInt64 from rfl, Memory.add_toUInt64_add]
      exact zero _ (by omega) (by omega)
    next afterSecond =>
      rw [getElem?_gather_cons]
      dsimp only
      split
      next inThird =>
        rw [show (4232 : UInt64) = 4200 + (32 : Nat).toUInt64 from rfl, Memory.add_toUInt64_add]
        exact zero _ (by omega) (by omega)
      next afterThird => simp [gather]

theorem splitMemory_not_headerAgrees (short : ¬15 ≤ first) (protocol : 4 ≤ second)
    (msgType : 2 ≤ third) (misaligned : ¬(first = 9 ∧ second = 4)) :
    ¬HeaderAgrees (splitMemory first second third) 4096 (splitIovs first second third) := by
  intro agrees
  obtain ⟨protocolField, value, typeField, same⟩ :=
    agrees _ _ (readNngHeader_splitMemory short protocol msgType)
  by_cases nine : first = 9
  · -- The protocol is right, and the message type starts inside the second iovec.
    have longer : 4 < second.toNat := by
      have least : 4 ≤ second.toNat := UInt64.le_iff_toNat_le.mp protocol
      have other : second.toNat ≠ 4 := fun four => misaligned ⟨nine, UInt64.toNat_inj.mp four⟩
      omega
    obtain ⟨bytes, size, field, rfl⟩ := typeField
    obtain ⟨high, low, rfl⟩ := List.length_eq_two.mp size
    have start : (gather (splitMemory first second third)
        (splitIovs first second third))[13]? = some (some high) := by
      rw [getElem?_eq_slice 13 (show 0 < 2 by decide), field]
      rfl
    have inSecond : (gather (splitMemory first second third)
        (splitIovs first second third))[13]? = some (some 0) := by
      rw [splitIovs, getElem?_gather_cons, nine, if_neg (by decide), getElem?_gather_cons]
      exact (if_pos longer).trans (congrArg some (splitMemory_data 20 (by decide)))
    cases start.symm.trans inSecond
    have lowBound : low.toNat < 2 ^ 8 := low.toNat_lt
    have value : (Word.bigEndian [0, low]).toNat = low.toNat :=
      Word.toNat_appendByte (by omega) (show 0 = _ by omega) (by omega)
    have read := congrArg UInt16.toNat same
    rw [UInt32.toNat_toUInt16, value, show (512 : UInt16).toNat = 512 from rfl] at read
    omega
  · apply getElem?_gather_splitIovs protocol nine
    rw [getElem?_eq_slice 9 (show 0 < 4 by decide), protocolField.word]
    rfl

end Split

/-- Whatever the memory holds, the header is that of the message exactly when the
lengths of the first three iovecs are aligned. -/
theorem headerAgrees_iff_headerAligned (iovs : List IoVec) :
    (∀ memory msgPtr others, layout others = layout iovs → LeadsTo memory msgPtr others →
      HeaderAgrees memory msgPtr others) ↔ HeaderAligned (layout iovs) := by
  constructor
  · intro agrees
    match iovs with
    | [] => trivial
    | [_] => trivial
    | [_, _] => trivial
    | first :: second :: third :: rest =>
        by_contra misaligned
        obtain ⟨short, protocol, msgType, fields⟩ : ¬15 ≤ first.iovLen ∧
            ¬second.iovLen < 4 ∧ ¬third.iovLen < 2 ∧
            ¬(first.iovLen = 9 ∧ second.iovLen = 4) := by
          simpa only [layout, HeaderAligned, List.take_succ_cons, List.take_zero, List.map_cons,
            List.map_nil, not_or] using misaligned
        exact splitMemory_not_headerAgrees short (UInt64.not_lt.mp protocol)
          (UInt64.not_lt.mp msgType) fields
          (agrees _ 4096 (splitIovs first.iovLen second.iovLen third.iovLen) rfl
            (splitMemory_leadsTo _ _ _))
  · intro aligned memory msgPtr others same leads
    rw [← same] at aligned
    exact headerAgrees_of_aligned leads aligned

theorem splitMemory_not_headerAgrees_ten :
    LeadsTo (splitMemory 10 4 2) 4096 (splitIovs 10 4 2) ∧
      ¬HeaderAgrees (splitMemory 10 4 2) 4096 (splitIovs 10 4 2) :=
  ⟨splitMemory_leadsTo 10 4 2,
    splitMemory_not_headerAgrees (by decide) (by decide) (by decide) (by decide)⟩

end BpfAgent.Sca
