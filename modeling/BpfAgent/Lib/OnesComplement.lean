import Mathlib.Algebra.Order.Group.Nat
import Mathlib.Data.List.Basic
import Mathlib.Data.UInt
import Mathlib.Tactic.Common

/-!
# One's-complement sums of 16-bit words

A message is summed as big-endian words of 16 bits, an odd last byte counting
as the high half of one, and carries out of the top are added back in at the
bottom.  What is left depends only on the sum modulo 65535, except that zero is
reached by the sum zero alone.  A message whose sum folds to all ones verifies.
-/

namespace OnesComplement

/-- The sum of the words of a message. -/
def wordSum : List UInt8 → Nat
  | [] => 0
  | [last] => last.toNat * 256
  | high :: low :: rest => high.toNat * 256 + low.toNat + wordSum rest

/-- What end-around carries make of a sum. -/
def folded (sum : Nat) : Nat := if sum = 0 then 0 else (sum - 1) % 65535 + 1

theorem folded_of_small {sum : Nat} (small : sum ≤ 65535) : folded sum = sum := by
  unfold folded
  split <;> omega

theorem folded_carry (sum : Nat) : folded (sum % 65536 + sum / 65536) = folded sum := by
  unfold folded
  split <;> split <;> omega

theorem folded_add_complement (sum : Nat) : folded (sum + (65535 - folded sum)) = 65535 := by
  unfold folded
  split <;> split <;> omega

theorem wordSum_append {front : List UInt8} (even : front.length % 2 = 0) (back : List UInt8) :
    wordSum (front ++ back) = wordSum front + wordSum back := by
  induction front using wordSum.induct with
  | case1 => simp [wordSum]
  | case2 last => simp at even
  | case3 high low rest inductionHypothesis =>
      have shorter : rest.length % 2 = 0 := by
        simp only [List.length_cons] at even
        omega
      simp only [List.cons_append, wordSum, inductionHypothesis shorter]
      omega

theorem wordSum_le (data : List UInt8) : wordSum data ≤ 65535 * ((data.length + 1) / 2) := by
  induction data using wordSum.induct with
  | case1 => simp [wordSum]
  | case2 last =>
      have bound := last.toNat_lt
      simp only [wordSum, List.length_singleton]
      omega
  | case3 high low rest inductionHypothesis =>
      have highBound := high.toNat_lt
      have lowBound := low.toNat_lt
      simp only [wordSum, List.length_cons]
      have words : (rest.length + 1 + 1 + 1) / 2 = (rest.length + 1) / 2 + 1 := by omega
      rw [words]
      omega

/-- Replacing a zero word by another adds it to the sum. -/
theorem wordSum_insert {front : List UInt8} (even : front.length % 2 = 0) (high low : UInt8)
    (back : List UInt8) :
    wordSum (front ++ high :: low :: back) =
      wordSum (front ++ 0 :: 0 :: back) + (high.toNat * 256 + low.toNat) := by
  simp only [wordSum_append even, wordSum, UInt8.toNat_zero]
  omega

end OnesComplement
