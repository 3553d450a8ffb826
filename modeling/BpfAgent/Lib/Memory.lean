import BpfAgent.Lib.Word

/-!
# Partially readable memory

An address space of which only some bytes can be read.  A read of several
bytes succeeds only when every one of them is readable; addresses wrap around.
-/

abbrev Memory := UInt64 → Option UInt8

namespace Memory

def read (memory : Memory) : (address : UInt64) → (count : Nat) → Option (List UInt8)
  | _, 0 => some []
  | address, count + 1 =>
      match memory address, memory.read (address + 1) count with
      | some byte, some rest => some (byte :: rest)
      | _, _ => none

theorem length_read {memory : Memory} {address : UInt64} {count : Nat} {bytes : List UInt8}
    (readable : memory.read address count = some bytes) : bytes.length = count := by
  induction count generalizing address bytes with
  | zero =>
      cases readable
      rfl
  | succ count inductionHypothesis =>
      rw [read] at readable
      split at readable
      next byte rest _ tail =>
        cases readable
        rw [List.length_cons, inductionHypothesis tail]
      next => cases readable

/-- A shorter read yields the first bytes of a longer one. -/
theorem read_take {memory : Memory} {address : UInt64} {count fewer : Nat} {bytes : List UInt8}
    (readable : memory.read address count = some bytes) (shorter : fewer ≤ count) :
    memory.read address fewer = some (bytes.take fewer) := by
  induction fewer generalizing address count bytes with
  | zero => rfl
  | succ fewer inductionHypothesis =>
      obtain ⟨count, rfl⟩ := Nat.exists_eq_add_of_le' shorter
      change memory.read address (count + fewer + 1) = some bytes at readable
      rw [read] at readable ⊢
      split at readable
      next byte rest first tail =>
        cases readable
        rw [first, inductionHypothesis tail (by omega)]
        rfl
      next => cases readable

theorem add_toUInt64_add (address : UInt64) (first second : Nat) :
    address + first.toUInt64 + second.toUInt64 = address + (first + second).toUInt64 := by
  rw [Nat.toUInt64_eq, Nat.toUInt64_eq, Nat.toUInt64_eq, UInt64.ofNat_add, UInt64.add_assoc]

theorem add_one_add (address : UInt64) (index : Nat) :
    address + 1 + index.toUInt64 = address + (index + 1).toUInt64 := by
  rw [Nat.add_comm]
  exact add_toUInt64_add address 1 index

theorem read_succ_eq_some_iff {memory : Memory} {address : UInt64} {count : Nat} {byte : UInt8}
    {rest : List UInt8} :
    memory.read address (count + 1) = some (byte :: rest) ↔
      memory address = some byte ∧ memory.read (address + 1) count = some rest := by
  rw [read]
  cases memory address with
  | none => simp
  | some first =>
      cases memory.read (address + 1) count with
      | none => simp
      | some others => simp

theorem read_eq_some_iff {memory : Memory} {address : UInt64} {count : Nat}
    {bytes : List UInt8} :
    memory.read address count = some bytes ↔
      bytes.length = count ∧
        ∀ index < count, memory (address + index.toUInt64) = bytes[index]? := by
  induction count generalizing address bytes with
  | zero => simp [read, eq_comm, List.length_eq_zero_iff]
  | succ count inductionHypothesis =>
      cases bytes with
      | nil =>
          constructor
          · intro readable
            cases length_read readable
          · rintro ⟨impossible, -⟩
            cases impossible
      | cons byte rest =>
          have first : address + (0 : Nat).toUInt64 = address := UInt64.add_zero address
          rw [read_succ_eq_some_iff, inductionHypothesis, Nat.forall_lt_succ_left, first]
          simp only [add_one_add, List.length_cons, Nat.add_right_cancel_iff,
            List.getElem?_cons_zero, List.getElem?_cons_succ]
          exact and_left_comm

theorem read_mono {memory larger : Memory}
    (inclusion : ∀ address byte, memory address = some byte → larger address = some byte)
    {address : UInt64} {count : Nat} {bytes : List UInt8}
    (readable : memory.read address count = some bytes) :
    larger.read address count = some bytes := by
  obtain ⟨size, reads⟩ := read_eq_some_iff.mp readable
  apply read_eq_some_iff.mpr
  refine ⟨size, ?_⟩
  intro index bound
  have byte := reads index bound
  rw [List.getElem?_eq_getElem (by omega)] at byte ⊢
  exact inclusion _ _ byte

/-- What has been read as a whole can be read in part. -/
theorem read_part {memory : Memory} {address : UInt64} {offset count total : Nat}
    {bytes : List UInt8} (readable : memory.read address total = some bytes)
    (inside : offset + count ≤ total) :
    memory.read (address + offset.toUInt64) count = some ((bytes.drop offset).take count) := by
  obtain ⟨size, reads⟩ := read_eq_some_iff.mp readable
  apply read_eq_some_iff.mpr
  constructor
  · rw [List.length_take, List.length_drop]
    omega
  · intro index bound
    have place : address + offset.toUInt64 + index.toUInt64 =
        address + (offset + index).toUInt64 := by
      simp [UInt64.add_assoc]
    rw [place, reads (offset + index) (by omega), List.getElem?_take_of_lt bound,
      List.getElem?_drop]

/-- A read fails exactly when one of its bytes is not readable. -/
theorem read_eq_none_iff {memory : Memory} {address : UInt64} {count : Nat} :
    memory.read address count = none ↔
      ∃ index < count, memory (address + index.toUInt64) = none := by
  induction count generalizing address with
  | zero => simp [read]
  | succ count inductionHypothesis =>
      have first : address + (0 : Nat).toUInt64 = address := UInt64.add_zero address
      have step : memory.read address (count + 1) = none ↔
          memory address = none ∨ memory.read (address + 1) count = none := by
        rw [read]
        cases memory address with
        | none => simp
        | some byte =>
            cases memory.read (address + 1) count with
            | none => simp
            | some rest => simp
      rw [step, inductionHypothesis]
      constructor
      · rintro (unreadable | ⟨index, bound, unreadable⟩)
        · exact ⟨0, Nat.succ_pos count, by rw [first, unreadable]⟩
        · exact ⟨index + 1, by omega, by rw [← add_one_add, unreadable]⟩
      · rintro ⟨index, bound, unreadable⟩
        cases index with
        | zero => exact .inl (by rw [← unreadable, first])
        | succ index => exact .inr ⟨index, by omega, by rw [add_one_add, unreadable]⟩

/-- A little-endian field of `width` bytes at `offset` in a record. -/
def field (record : List UInt8) (offset width : Nat) : UInt64 :=
  ((record.drop offset).take width).foldr
    (fun byte value => (value <<< 8) ||| byte.toUInt64) 0

def wordBytes (word : UInt64) : List UInt8 :=
  (List.range 8).map fun index => (word >>> (8 * index).toUInt64).toUInt8

/-- The bytes of a word from position `start` on have the value of its upper part. -/
theorem toNat_foldr_wordBytes (word : UInt64) {start count : Nat} (ends : start + count = 8) :
    (((List.range' start count).map fun index => (word >>> (8 * index).toUInt64).toUInt8).foldr
      (fun (byte : UInt8) (value : UInt64) => (value <<< 8) ||| byte.toUInt64) 0).toNat =
      word.toNat / 2 ^ (8 * start) := by
  have bound : word.toNat < 2 ^ 64 := word.toNat_lt
  induction count generalizing start with
  | zero =>
      have whole : 8 * start = 64 := by omega
      rw [whole, Nat.div_eq_of_lt bound]
      rfl
  | succ count inductionHypothesis =>
      have shift : (8 * start).toUInt64.toNat % 64 = 8 * start := by
        rw [Nat.toUInt64_eq, UInt64.toNat_ofNat']
        omega
      rw [List.range'_succ, List.map_cons, List.foldr_cons]
      apply Word.toNat_appendByte64
      · exact Nat.lt_of_le_of_lt (Nat.div_le_self _ _) bound
      · rw [inductionHypothesis (by omega), Nat.div_div_eq_div_mul, ← Nat.pow_add, Nat.mul_succ]
      · rw [UInt64.toNat_toUInt8, UInt64.toNat_shiftRight, shift, Nat.shiftRight_eq_div_pow]

theorem field_wordBytes (before : List UInt8) (word : UInt64) (after : List UInt8) :
    field (before ++ wordBytes word ++ after) before.length 8 = word := by
  have bytes : ((before ++ wordBytes word ++ after).drop before.length).take 8 =
      wordBytes word := by
    have size : (wordBytes word).length = 8 := by simp [wordBytes]
    rw [List.append_assoc, List.drop_left, ← size, List.take_left]
  rw [field, bytes]
  apply UInt64.toNat_inj.mp
  rw [wordBytes, List.range_eq_range', toNat_foldr_wordBytes word rfl]
  simp

def littleEndian (bytes : List UInt8) : UInt64 :=
  bytes.foldr (fun byte value => (value <<< 8) ||| byte.toUInt64) 0

theorem toNat_littleEndian_cons (byte : UInt8) {bytes : List UInt8}
    (small : (littleEndian bytes).toNat < 2 ^ 56) :
    (littleEndian (byte :: bytes)).toNat = 2 ^ 8 * (littleEndian bytes).toNat + byte.toNat := by
  have bound : byte.toNat < 2 ^ 8 := byte.toNat_lt
  apply Word.toNat_appendByte64
  · omega
  · change (littleEndian bytes).toNat = _
    omega
  · omega

theorem toNat_littleEndian_lt {bytes : List UInt8} (short : bytes.length ≤ 8) :
    (littleEndian bytes).toNat < 2 ^ (8 * bytes.length) := by
  induction bytes with
  | nil => decide
  | cons byte bytes inductionHypothesis =>
      rw [List.length_cons] at short
      have before := inductionHypothesis (by omega)
      have small : 2 ^ (8 * bytes.length) ≤ 2 ^ 56 :=
        Nat.pow_le_pow_right (by decide) (by omega)
      have bound : byte.toNat < 2 ^ 8 := byte.toNat_lt
      rw [toNat_littleEndian_cons byte (by omega), List.length_cons, Nat.mul_succ, Nat.pow_add]
      omega

theorem littleEndian_inj {left right : List UInt8} (same : left.length = right.length)
    (short : left.length ≤ 8) (equal : littleEndian left = littleEndian right) : left = right := by
  induction left generalizing right with
  | nil => exact (List.length_eq_zero_iff.mp same.symm).symm
  | cons first left inductionHypothesis =>
      cases right with
      | nil => cases same
      | cons second right =>
          rw [List.length_cons] at short
          rw [List.length_cons, List.length_cons, Nat.succ_inj] at same
          have small : 2 ^ (8 * left.length) ≤ 2 ^ 56 :=
            Nat.pow_le_pow_right (by decide) (by omega)
          have leftBound : (littleEndian left).toNat < _ := toNat_littleEndian_lt (by omega)
          have rightBound : (littleEndian right).toNat < _ := toNat_littleEndian_lt (by omega)
          have firstBound : first.toNat < 2 ^ 8 := first.toNat_lt
          have secondBound : second.toNat < 2 ^ 8 := second.toNat_lt
          have values := congrArg UInt64.toNat equal
          rw [toNat_littleEndian_cons first (by omega),
            toNat_littleEndian_cons second (by rw [← same] at rightBound; omega)] at values
          have heads : first = second := UInt8.toNat_inj.mp (by omega)
          have tails : littleEndian left = littleEndian right := UInt64.toNat_inj.mp (by omega)
          rw [heads, inductionHypothesis same (by omega) tails]

/-- Fields of four bytes are equal exactly if the bytes are. -/
theorem field_four_inj {left right : List UInt8} {offset other : Nat}
    (inside : offset + 4 ≤ left.length) (otherInside : other + 4 ≤ right.length) :
    (field left offset 4).toUInt32 = (field right other 4).toUInt32 ↔
      (left.drop offset).take 4 = (right.drop other).take 4 := by
  have length : ((left.drop offset).take 4).length = 4 := by
    rw [List.length_take, List.length_drop]
    omega
  have otherLength : ((right.drop other).take 4).length = 4 := by
    rw [List.length_take, List.length_drop]
    omega
  constructor
  · intro equal
    apply littleEndian_inj (length.trans otherLength.symm) (by omega)
    have bound : (littleEndian ((left.drop offset).take 4)).toNat < _ :=
      toNat_littleEndian_lt (by omega)
    have otherBound : (littleEndian ((right.drop other).take 4)).toNat < _ :=
      toNat_littleEndian_lt (by omega)
    rw [length] at bound
    rw [otherLength] at otherBound
    have values := congrArg UInt32.toNat equal
    rw [UInt64.toNat_toUInt32, UInt64.toNat_toUInt32] at values
    apply UInt64.toNat_inj.mp
    rw [← Nat.mod_eq_of_lt bound, ← Nat.mod_eq_of_lt otherBound]
    exact values
  · intro equal
    rw [field, field, equal]

/-- Memory holding `bytes` from `base` on and nothing else. -/
def segment (base : UInt64) (bytes : List UInt8) : Memory := fun address =>
  if base ≤ address then bytes[(address - base).toNat]? else none

theorem segment_at {base address : UInt64} {bytes : List UInt8} {offset : Nat}
    (located : address.toNat = base.toNat + offset) :
    segment base bytes address = bytes[offset]? := by
  have above : base ≤ address := by
    rw [UInt64.le_iff_toNat_le]
    omega
  rw [segment, if_pos above, UInt64.toNat_sub_of_le _ _ above, located, Nat.add_sub_cancel_left]

theorem read_segment {base address : UInt64} {bytes : List UInt8} {offset count : Nat}
    (located : address.toNat = base.toNat + offset) (inside : offset + count ≤ bytes.length)
    (fits : base.toNat + bytes.length < 2 ^ 64) :
    read (segment base bytes) address count = some ((bytes.drop offset).take count) := by
  induction count generalizing address offset with
  | zero => rfl
  | succ count inductionHypothesis =>
      have next : (address + 1).toNat = base.toNat + (offset + 1) := by
        rw [UInt64.toNat_add, located, Nat.mod_eq_of_lt]
        · rfl
        · change base.toNat + offset + 1 < 2 ^ 64
          omega
      have bound : offset < bytes.length := by omega
      rw [read, inductionHypothesis next (by omega), segment_at located,
        List.getElem?_eq_getElem bound, List.drop_eq_getElem_cons bound, List.take_succ_cons]

end Memory
