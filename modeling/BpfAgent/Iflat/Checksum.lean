import BpfAgent.Lib.OnesComplement
import BpfAgent.Lib.Word

/-!
# IFLAT simulator: checksums

The test rig crafts TCP segments and ICMP messages itself and fills in their
checksums.  The accumulator is a word of 32 bits, which no message that fits
into a packet makes overflow.
-/

namespace BpfAgent.Iflat.Simulator

open OnesComplement

def addChecksumWords (sum : UInt32) : List UInt8 → UInt32
  | [] => sum
  | [last] => sum + (last.toUInt32 <<< 8)
  | high :: low :: rest => addChecksumWords (sum + (Word.bigEndian16 high low).toUInt32) rest

theorem toNat_carry (sum : UInt32) :
    ((sum &&& (0xffff : UInt32)) + (sum >>> 16)).toNat = sum.toNat % 65536 + sum.toNat / 65536 := by
  have bound : sum.toNat < 2 ^ 32 := sum.toNat_lt
  have low : (sum &&& (0xffff : UInt32)).toNat = sum.toNat % 65536 := by
    rw [UInt32.toNat_and]
    exact Nat.and_two_pow_sub_one_eq_mod sum.toNat 16
  have high : (sum >>> 16).toNat = sum.toNat / 65536 := by
    rw [UInt32.toNat_shiftRight, Nat.shiftRight_eq_div_pow]
    rfl
  rw [UInt32.toNat_add, low, high]
  omega

theorem shiftRight_eq_zero_iff (sum : UInt32) : sum >>> 16 = 0 ↔ sum.toNat ≤ 65535 := by
  have bound : sum.toNat < 2 ^ 32 := sum.toNat_lt
  rw [← UInt32.toNat_inj, UInt32.toNat_shiftRight, Nat.shiftRight_eq_div_pow,
    show (16 : UInt32).toNat % 32 = 16 from rfl, UInt32.toNat_zero]
  omega

/-- Fold carries until none is left, and complement. -/
def foldChecksum (sum : UInt32) : UInt16 :=
  if sum >>> 16 = 0 then ~~~sum.toUInt16
  else foldChecksum ((sum &&& (0xffff : UInt32)) + (sum >>> 16))
termination_by sum.toNat
decreasing_by
  rw [toNat_carry]
  rename_i carries
  rw [shiftRight_eq_zero_iff] at carries
  omega

def internetChecksum (data : List UInt8) : UInt16 := foldChecksum (addChecksumWords 0 data)

/-- The sum over the pseudo-header: addresses, protocol and length. -/
def pseudoHeader (srcIp dstIp : List UInt8) (length : Nat) : UInt32 :=
  addChecksumWords (addChecksumWords 0 srcIp) dstIp + 6 + UInt32.ofNat length

def tcpChecksum (srcIp dstIp segment : List UInt8) : UInt16 :=
  foldChecksum (addChecksumWords (pseudoHeader srcIp dstIp segment.length) segment)

theorem toNat_addChecksumWords {sum : UInt32} {data : List UInt8}
    (fits : sum.toNat + wordSum data < 2 ^ 32) :
    (addChecksumWords sum data).toNat = sum.toNat + wordSum data := by
  induction sum, data using addChecksumWords.induct with
  | case1 sum => simp [addChecksumWords, wordSum]
  | case2 sum last =>
      have bound := last.toNat_lt
      have shifted : (last.toUInt32 <<< 8).toNat = last.toNat * 256 := by
        rw [UInt32.toNat_shiftLeft, UInt8.toNat_toUInt32, Nat.shiftLeft_eq,
          show (8 : UInt32).toNat % 32 = 8 from rfl]
        omega
      simp only [wordSum] at fits ⊢
      rw [addChecksumWords, UInt32.toNat_add, shifted]
      omega
  | case3 sum high low rest inductionHypothesis =>
      have word : ((Word.bigEndian16 high low).toUInt32).toNat =
          high.toNat * 256 + low.toNat := by
        rw [UInt16.toNat_toUInt32, Word.toNat_bigEndian16]
      simp only [wordSum] at fits ⊢
      have next : (sum + (Word.bigEndian16 high low).toUInt32).toNat =
          sum.toNat + (high.toNat * 256 + low.toNat) := by
        rw [UInt32.toNat_add, word]
        omega
      rw [addChecksumWords, inductionHypothesis (by omega), next]
      omega

theorem toNat_foldChecksum (sum : UInt32) :
    (foldChecksum sum).toNat = 65535 - folded sum.toNat := by
  induction sum using foldChecksum.induct with
  | case1 sum small =>
      rw [foldChecksum, if_pos small]
      rw [shiftRight_eq_zero_iff] at small
      rw [folded_of_small small, UInt16.toNat_not, UInt32.toNat_toUInt16]
      change 65536 - 1 - sum.toNat % 65536 = _
      omega
  | case2 sum carries inductionHypothesis =>
      rw [foldChecksum, if_neg carries, inductionHypothesis, toNat_carry, folded_carry]

/-- A message verifies once its checksum is in the field that was zero. -/
theorem foldChecksum_insert {start : UInt32} {front back : List UInt8} {checksum : UInt16}
    (even : front.length % 2 = 0)
    (fits : start.toNat + wordSum (front ++ 0 :: 0 :: back) + 65535 < 2 ^ 32)
    (computed : checksum = foldChecksum (addChecksumWords start (front ++ 0 :: 0 :: back))) :
    foldChecksum (addChecksumWords start
      (front ++ (checksum >>> 8).toUInt8 :: checksum.toUInt8 :: back)) = 0 := by
  have value : checksum.toNat =
      65535 - folded (start.toNat + wordSum (front ++ 0 :: 0 :: back)) := by
    rw [computed, toNat_foldChecksum, toNat_addChecksumWords (by omega)]
  have inserted := wordSum_insert even (checksum >>> 8).toUInt8 checksum.toUInt8 back
  rw [Word.toNat_bytes16, value] at inserted
  rw [← UInt16.toNat_inj, toNat_foldChecksum, toNat_addChecksumWords (by omega), inserted,
    ← Nat.add_assoc, folded_add_complement]
  rfl

end BpfAgent.Iflat.Simulator
