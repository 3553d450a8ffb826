import Mathlib.Algebra.BigOperators.Group.List.Basic
import Mathlib.Data.UInt
import Mathlib.Tactic.Common

/-!
# Machine words

Saturating subtraction, sums, packing two 32-bit words into a 64-bit one,
big-endian values of byte strings and checked conversions of signed words, with
the arithmetic they stand for.
-/

namespace Word

/-- Subtraction that stops at zero instead of wrapping around. -/
def saturatingSub (left right : UInt64) : UInt64 :=
  if right ≤ left then left - right else 0

@[simp]
theorem toNat_saturatingSub (left right : UInt64) :
    (saturatingSub left right).toNat = left.toNat - right.toNat := by
  unfold saturatingSub
  split
  next inOrder => exact UInt64.toNat_sub_of_le left right inOrder
  next reversed =>
    have : left.toNat < right.toNat := UInt64.lt_iff_toNat_lt.mp (UInt64.not_le.mp reversed)
    simp only [UInt64.toNat_zero]
    omega

theorem saturatingSub_eq_zero_iff {left right : UInt64} :
    saturatingSub left right = 0 ↔ ¬right < left := by
  rw [← UInt64.toNat_inj, toNat_saturatingSub, UInt64.toNat_zero, Nat.sub_eq_zero_iff_le,
    UInt64.lt_iff_toNat_lt, Nat.not_lt]

theorem saturatingSub_le (left right : UInt64) : saturatingSub left right ≤ left := by
  rw [UInt64.le_iff_toNat_le, toNat_saturatingSub]
  exact Nat.sub_le _ _

/-- A sum of words is exact as long as it fits into one. -/
theorem toNat_min (left right : UInt64) :
    (min left right).toNat = min left.toNat right.toNat := by
  change (if left ≤ right then left else right).toNat = _
  split
  next le => exact (Nat.min_eq_left (UInt64.le_iff_toNat_le.mp le)).symm
  next lt =>
    rw [UInt64.le_iff_toNat_le] at lt
    exact (Nat.min_eq_right (by omega)).symm

theorem toNat_max (left right : UInt64) :
    (max left right).toNat = max left.toNat right.toNat := by
  change (if left ≤ right then right else left).toNat = _
  split
  next le => exact (Nat.max_eq_right (UInt64.le_iff_toNat_le.mp le)).symm
  next lt =>
    rw [UInt64.le_iff_toNat_le] at lt
    exact (Nat.max_eq_left (by omega)).symm

theorem toNat_sum (words : List UInt64) (fits : (words.map UInt64.toNat).sum < 2 ^ 64) :
    words.sum.toNat = (words.map UInt64.toNat).sum := by
  induction words with
  | nil => rfl
  | cons word words inductionHypothesis =>
      rw [List.map_cons, List.sum_cons] at fits
      have rest : words.sum.toNat = (words.map UInt64.toNat).sum := by
        apply inductionHypothesis
        omega
      rw [List.sum_cons, List.map_cons, List.sum_cons, UInt64.toNat_add, rest]
      exact Nat.mod_eq_of_lt fits

/-- `high` in the upper 32 bits and `low` in the lower. -/
def pack (high low : UInt32) : UInt64 :=
  (high.toUInt64 <<< 32) ||| low.toUInt64

theorem toNat_pack (high low : UInt32) :
    (pack high low).toNat = high.toNat * 2 ^ 32 + low.toNat := by
  have highBound : high.toNat < 2 ^ 32 := high.toNat_lt
  have lowBound : low.toNat < 2 ^ 32 := low.toNat_lt
  have shifted : high.toNat <<< 32 % 2 ^ 64 = 2 ^ 32 * high.toNat := by
    rw [Nat.shiftLeft_eq, Nat.mod_eq_of_lt (by omega), Nat.mul_comm]
  simp only [pack, UInt64.toNat_or, UInt64.toNat_shiftLeft, UInt32.toNat_toUInt64]
  rw [show (32 : UInt64).toNat % 64 = 32 from rfl, shifted,
    ← Nat.two_pow_add_eq_or_of_lt lowBound, Nat.mul_comm]

@[simp]
theorem pack_inj {high low otherHigh otherLow : UInt32} :
    pack high low = pack otherHigh otherLow ↔ high = otherHigh ∧ low = otherLow := by
  constructor
  · intro equality
    have values := congrArg UInt64.toNat equality
    rw [toNat_pack, toNat_pack] at values
    have lowBound : low.toNat < 2 ^ 32 := low.toNat_lt
    have otherLowBound : otherLow.toNat < 2 ^ 32 := otherLow.toNat_lt
    exact ⟨UInt32.toNat_inj.mp (by omega), UInt32.toNat_inj.mp (by omega)⟩
  · rintro ⟨rfl, rfl⟩
    rfl

def high (word : UInt64) : UInt32 := (word >>> 32).toUInt32

@[simp]
theorem high_pack (upper lower : UInt32) : high (pack upper lower) = upper := by
  have upperBound : upper.toNat < 2 ^ 32 := upper.toNat_lt
  have lowerBound : lower.toNat < 2 ^ 32 := lower.toNat_lt
  apply UInt32.toNat_inj.mp
  rw [high, UInt64.toNat_toUInt32, UInt64.toNat_shiftRight, toNat_pack,
    show (32 : UInt64).toNat % 64 = 32 from rfl, Nat.shiftRight_eq_div_pow]
  omega

theorem exists_pack (word : UInt64) : ∃ upper lower, word = pack upper lower := by
  refine ⟨high word, word.toUInt32, ?_⟩
  apply UInt64.toNat_inj.mp
  have bound : word.toNat < 2 ^ 64 := word.toNat_lt
  simp only [toNat_pack, high, UInt64.toNat_toUInt32, UInt64.toNat_shiftRight]
  rw [show (32 : UInt64).toNat % 64 = 32 from rfl, Nat.shiftRight_eq_div_pow]
  omega

theorem toNat_joinBytes (high low : UInt8) :
    (high.toUInt16 <<< 8 ||| low.toUInt16).toNat = high.toNat * 2 ^ 8 + low.toNat := by
  have highBound : high.toNat < 2 ^ 8 := high.toNat_lt
  have lowBound : low.toNat < 2 ^ 8 := low.toNat_lt
  have shifted : high.toNat <<< 8 % 2 ^ 16 = 2 ^ 8 * high.toNat := by
    rw [Nat.shiftLeft_eq, Nat.mod_eq_of_lt (by omega), Nat.mul_comm]
  simp only [UInt16.toNat_or, UInt16.toNat_shiftLeft, UInt8.toNat_toUInt16]
  rw [show (8 : UInt16).toNat % 16 = 8 from rfl, shifted,
    ← Nat.two_pow_add_eq_or_of_lt lowBound, Nat.mul_comm]

def bigEndian (bytes : List UInt8) : UInt32 :=
  bytes.foldl (fun value byte => (value <<< 8) ||| byte.toUInt32) 0

theorem toNat_appendByte {value : UInt32} {byte : UInt8} {total : Nat} (fits : total < 2 ^ 32)
    (upper : value.toNat = total / 2 ^ 8) (lower : byte.toNat = total % 2 ^ 8) :
    (value <<< 8 ||| byte.toUInt32).toNat = total := by
  have byteBound : byte.toNat < 2 ^ 8 := byte.toNat_lt
  have shifted : value.toNat <<< 8 % 2 ^ 32 = 2 ^ 8 * value.toNat := by
    rw [Nat.shiftLeft_eq, Nat.mod_eq_of_lt (by omega), Nat.mul_comm]
  simp only [UInt32.toNat_or, UInt32.toNat_shiftLeft, UInt8.toNat_toUInt32]
  rw [show (8 : UInt32).toNat % 32 = 8 from rfl, shifted,
    ← Nat.two_pow_add_eq_or_of_lt byteBound]
  omega

theorem toNat_appendByte64 {value : UInt64} {byte : UInt8} {total : Nat}
    (fits : total < 2 ^ 64) (upper : value.toNat = total / 2 ^ 8)
    (lower : byte.toNat = total % 2 ^ 8) :
    (value <<< 8 ||| byte.toUInt64).toNat = total := by
  have byteBound : byte.toNat < 2 ^ 8 := byte.toNat_lt
  have shifted : value.toNat <<< 8 % 2 ^ 64 = 2 ^ 8 * value.toNat := by
    rw [Nat.shiftLeft_eq, Nat.mod_eq_of_lt (by omega), Nat.mul_comm]
  simp only [UInt64.toNat_or, UInt64.toNat_shiftLeft, UInt8.toNat_toUInt64]
  rw [show (8 : UInt64).toNat % 64 = 8 from rfl, shifted,
    ← Nat.two_pow_add_eq_or_of_lt byteBound]
  omega

theorem toNat_bigEndian (first second third fourth : UInt8) :
    (bigEndian [first, second, third, fourth]).toNat =
      first.toNat * 2 ^ 24 + second.toNat * 2 ^ 16 + third.toNat * 2 ^ 8 + fourth.toNat := by
  have firstBound : first.toNat < 2 ^ 8 := first.toNat_lt
  have secondBound : second.toNat < 2 ^ 8 := second.toNat_lt
  have thirdBound : third.toNat < 2 ^ 8 := third.toNat_lt
  have fourthBound : fourth.toNat < 2 ^ 8 := fourth.toNat_lt
  have one := toNat_appendByte (show first.toNat < 2 ^ 32 by omega)
    (show (0 : UInt32).toNat = _ by change 0 = _; omega) (show first.toNat = _ by omega)
  have two := toNat_appendByte (show first.toNat * 2 ^ 8 + second.toNat < 2 ^ 32 by omega)
    (one.trans (by omega)) (show second.toNat = _ by omega)
  have three := toNat_appendByte
    (show first.toNat * 2 ^ 16 + second.toNat * 2 ^ 8 + third.toNat < 2 ^ 32 by omega)
    (two.trans (by omega)) (show third.toNat = _ by omega)
  exact toNat_appendByte (by omega) (three.trans (by omega)) (by omega)

/-- The four bytes of a word, most significant first. -/
def bigEndianBytes (word : UInt32) : List UInt8 :=
  [(word >>> 24).toUInt8, (word >>> 16).toUInt8, (word >>> 8).toUInt8, word.toUInt8]

theorem bigEndian_bigEndianBytes (word : UInt32) : bigEndian (bigEndianBytes word) = word := by
  have bound : word.toNat < 2 ^ 32 := word.toNat_lt
  have byte : ∀ shift : UInt32, (word >>> shift).toUInt8.toNat =
      word.toNat / 2 ^ (shift.toNat % 32) % 2 ^ 8 := by
    intro shift
    rw [UInt32.toNat_toUInt8, UInt32.toNat_shiftRight, Nat.shiftRight_eq_div_pow]
  apply UInt32.toNat_inj.mp
  rw [bigEndianBytes, toNat_bigEndian, byte 24, byte 16, byte 8, UInt32.toNat_toUInt8]
  change word.toNat / 2 ^ 24 % 2 ^ 8 * 2 ^ 24 + word.toNat / 2 ^ 16 % 2 ^ 8 * 2 ^ 16 +
    word.toNat / 2 ^ 8 % 2 ^ 8 * 2 ^ 8 + word.toNat % 2 ^ 8 = word.toNat
  omega

theorem bigEndianBytes_bigEndian (first second third fourth : UInt8) :
    bigEndianBytes (bigEndian [first, second, third, fourth]) =
      [first, second, third, fourth] := by
  have value := toNat_bigEndian first second third fourth
  have firstBound : first.toNat < 2 ^ 8 := first.toNat_lt
  have secondBound : second.toNat < 2 ^ 8 := second.toNat_lt
  have thirdBound : third.toNat < 2 ^ 8 := third.toNat_lt
  have fourthBound : fourth.toNat < 2 ^ 8 := fourth.toNat_lt
  have byte : ∀ shift : UInt32,
      (bigEndian [first, second, third, fourth] >>> shift).toUInt8.toNat =
        (first.toNat * 2 ^ 24 + second.toNat * 2 ^ 16 + third.toNat * 2 ^ 8 + fourth.toNat) /
          2 ^ (shift.toNat % 32) % 2 ^ 8 := by
    intro shift
    rw [UInt32.toNat_toUInt8, UInt32.toNat_shiftRight, Nat.shiftRight_eq_div_pow, value]
  have last : (bigEndian [first, second, third, fourth]).toUInt8.toNat = fourth.toNat := by
    rw [UInt32.toNat_toUInt8, value]
    omega
  rw [bigEndianBytes, UInt8.toNat_inj.mp last,
    UInt8.toNat_inj.mp ((byte 24).trans (show _ / 2 ^ 24 % _ = first.toNat by omega)),
    UInt8.toNat_inj.mp ((byte 16).trans (show _ / 2 ^ 16 % _ = second.toNat by omega)),
    UInt8.toNat_inj.mp ((byte 8).trans (show _ / 2 ^ 8 % _ = third.toNat by omega))]

def bigEndian16 (high low : UInt8) : UInt16 := high.toUInt16 <<< 8 ||| low.toUInt16

def bigEndianBytes16 (word : UInt16) : List UInt8 := [(word >>> 8).toUInt8, word.toUInt8]

theorem toNat_bigEndian16 (high low : UInt8) :
    (bigEndian16 high low).toNat = high.toNat * 256 + low.toNat :=
  toNat_joinBytes high low

theorem toNat_bytes16 (word : UInt16) :
    (word >>> 8).toUInt8.toNat * 256 + word.toUInt8.toNat = word.toNat := by
  have bound : word.toNat < 2 ^ 16 := word.toNat_lt
  rw [UInt16.toNat_toUInt8, UInt16.toNat_toUInt8, UInt16.toNat_shiftRight,
    Nat.shiftRight_eq_div_pow, show (8 : UInt16).toNat % 16 = 8 from rfl]
  omega

theorem bigEndian16_bytes (word : UInt16) :
    bigEndian16 (word >>> 8).toUInt8 word.toUInt8 = word := by
  rw [← UInt16.toNat_inj, toNat_bigEndian16, toNat_bytes16]

theorem toUInt16_bigEndian_bytes16 (word : UInt16) :
    (bigEndian (bigEndianBytes16 word)).toUInt16 = word := by
  have bound : word.toNat < 2 ^ 16 := word.toNat_lt
  have bytes := toNat_bytes16 word
  have low := word.toUInt8.toNat_lt
  have upper := (word >>> 8).toUInt8.toNat_lt
  have zero : (0 : UInt32).toNat = 0 := rfl
  have high := @toNat_appendByte 0 (word >>> 8).toUInt8 (word >>> 8).toUInt8.toNat (by omega)
    (by omega) (by omega)
  have whole := @toNat_appendByte _ word.toUInt8 word.toNat (by omega) (by rw [high]; omega)
    (by omega)
  rw [← UInt16.toNat_inj, UInt32.toNat_toUInt16, bigEndian, bigEndianBytes16]
  simp only [List.foldl_cons, List.foldl_nil]
  rw [whole]
  exact Nat.mod_eq_of_lt bound

def bigEndian64 (bytes : List UInt8) : UInt64 :=
  pack (bigEndian (bytes.take 4)) (bigEndian (bytes.drop 4))

def bigEndianBytes64 (word : UInt64) : List UInt8 :=
  bigEndianBytes (high word) ++ bigEndianBytes word.toUInt32

theorem pack_high (word : UInt64) : pack (high word) word.toUInt32 = word := by
  obtain ⟨upper, lower, rfl⟩ := exists_pack word
  have low : (pack upper lower).toUInt32 = lower := by
    have upperBound : upper.toNat < 2 ^ 32 := upper.toNat_lt
    have lowerBound : lower.toNat < 2 ^ 32 := lower.toNat_lt
    apply UInt32.toNat_inj.mp
    rw [UInt64.toNat_toUInt32, toNat_pack]
    omega
  rw [high_pack, low]

theorem bigEndian64_bytes (word : UInt64) : bigEndian64 (bigEndianBytes64 word) = word := by
  have front : (bigEndianBytes64 word).take 4 = bigEndianBytes (high word) := rfl
  have back : (bigEndianBytes64 word).drop 4 = bigEndianBytes word.toUInt32 := rfl
  rw [bigEndian64, front, back, bigEndian_bigEndianBytes, bigEndian_bigEndianBytes, pack_high]

theorem toString_inj {left right : UInt32} (same : toString left = toString right) :
    left = right := by
  have digits : Nat.toDigits 10 left.toNat = Nat.toDigits 10 right.toNat := by
    rw [← Nat.toList_repr, ← Nat.toList_repr]
    exact congrArg String.toList same
  have numbers := congrArg (fun characters => Nat.ofDigitChars 10 characters 0) digits
  simp only [Nat.ofDigitChars_ten_toDigits] at numbers
  exact UInt32.toNat_inj.mp numbers

def u64TryFrom (value : Int64) : Option UInt64 :=
  if 0 ≤ value.toInt then some value.toUInt64 else none

def u32TryFrom (value : Int64) : Option UInt32 :=
  if 0 ≤ value.toInt ∧ value.toInt < 2 ^ 32 then some value.toUInt64.toUInt32 else none

def u16TryFrom (value : Int64) : Option UInt16 :=
  if 0 ≤ value.toInt ∧ value.toInt < 2 ^ 16 then some value.toUInt64.toUInt16 else none

def i32TryFrom (value : Int64) : Option Int32 :=
  if -2 ^ 31 ≤ value.toInt ∧ value.toInt < 2 ^ 31 then some value.toInt32 else none

theorem toNat_toUInt64 {value : Int64} (nonnegative : 0 ≤ value.toInt) :
    (value.toUInt64.toNat : Int) = value.toInt := by
  rw [Int64.toNat_toUInt64_of_le (Int64.le_iff_toInt_le.mpr nonnegative)]
  exact Int.toNat_of_nonneg nonnegative

theorem u32TryFrom_eq_some_iff {value : Int64} {word : UInt32} :
    u32TryFrom value = some word ↔ value.toInt = word.toNat := by
  have bound := word.toNat_lt
  unfold u32TryFrom
  split
  next range =>
    have same := toNat_toUInt64 range.1
    rw [Option.some.injEq, ← same, Int.ofNat_inj, ← UInt32.toNat_inj, UInt64.toNat_toUInt32,
      Nat.mod_eq_of_lt (by omega)]
  next outside =>
    refine iff_of_false (by simp) ?_
    intro same
    omega

theorem u16TryFrom_eq_some_iff {value : Int64} {word : UInt16} :
    u16TryFrom value = some word ↔ value.toInt = word.toNat := by
  have bound := word.toNat_lt
  unfold u16TryFrom
  split
  next range =>
    have same := toNat_toUInt64 range.1
    rw [Option.some.injEq, ← same, Int.ofNat_inj, ← UInt16.toNat_inj, UInt64.toNat_toUInt16,
      Nat.mod_eq_of_lt (by omega)]
  next outside =>
    refine iff_of_false (by simp) ?_
    intro same
    omega

theorem exists_u32TryFrom_iff {value : Int64} :
    (∃ word, u32TryFrom value = some word) ↔ 0 ≤ value.toInt ∧ value.toInt < 2 ^ 32 := by
  unfold u32TryFrom
  split
  next range => exact iff_of_true ⟨_, rfl⟩ range
  next outside => exact iff_of_false (by simp) outside

end Word
