import Mathlib.Algebra.BigOperators.Group.Finset.Piecewise
import Mathlib.Data.Fintype.BigOperators
import Mathlib.Logic.Function.Basic
import Mathlib.Tactic.Abel

/-!
# A shared counter with separate reads and writes

Several parties add to a counter by reading it and writing the sum back.  Each
party first owes an amount, then holds the value it has read, and finally
writes.  Beside the cell stands the value that the counter has when every
amount is added at the moment it becomes owed.

As long as nobody reads while another party holds a value, the cell lags
behind by exactly what is still owed.
-/

universe u v

namespace SharedCounter

open Function

variable {Party : Type u} {Amount : Type v} [Fintype Party] [DecidableEq Party]
  [AddCommMonoid Amount]

theorem sum_update {Value : Type v} (amount : Value → Amount) (values : Party → Value)
    (party : Party) (value : Value) :
    ∑ other, amount (update values party value other) + amount (values party) =
      ∑ other, amount (values other) + amount value := by
  have rest : ∑ other ∈ Finset.univ.erase party, amount (update values party value other) =
      ∑ other ∈ Finset.univ.erase party, amount (values other) := by
    apply Finset.sum_congr rfl
    intro other member
    rw [update_of_ne (Finset.ne_of_mem_erase member)]
  rw [← Finset.add_sum_erase _ _ (Finset.mem_univ party), rest, update_self,
    ← Finset.add_sum_erase Finset.univ (fun other => amount (values other))
      (Finset.mem_univ party)]
  abel

/-- The counter stands for `serial`. -/
structure Sound (serial cell : Option Amount) (owed held : Party → Option Amount) : Prop where
  value : serial.getD 0 = cell.getD 0 + ∑ party, (owed party).getD 0
  present : serial.isSome ↔ cell.isSome ∨ ∃ party, (owed party).isSome
  current : ∀ party value, held party = some value → value = cell.getD 0
  alone : ∀ first second, (held first).isSome → (held second).isSome → first = second

variable {serial cell : Option Amount} {owed held : Party → Option Amount}

omit [DecidableEq Party] in
theorem Sound.initial (cell : Option Amount) :
    Sound cell cell (fun _ : Party => none) (fun _ => none) := by
  refine ⟨by simp, by simp, ?_, ?_⟩
  · intro party value impossible
    cases impossible
  · intro first second impossible
    cases impossible

theorem Sound.owe (sound : Sound serial cell owed held) {party : Party}
    (free : owed party = none) (amount : Amount) :
    Sound (some (serial.getD 0 + amount)) cell (update owed party (some amount)) held := by
  refine ⟨?_, ?_, sound.current, sound.alone⟩
  · have total := sum_update (fun owes : Option Amount => owes.getD 0) owed party (some amount)
    rw [free] at total
    simp only [Option.getD_none, add_zero, Option.getD_some] at total
    rw [Option.getD_some, total, sound.value, add_assoc]
  · simp only [Option.isSome_some, true_iff]
    exact .inr ⟨party, by rw [update_self, Option.isSome_some]⟩

theorem Sound.read (sound : Sound serial cell owed held) (unheld : ∀ other, held other = none)
    (party : Party) : Sound serial cell owed (update held party (some (cell.getD 0))) := by
  refine ⟨sound.value, sound.present, ?_, ?_⟩
  · intro other value holds
    by_cases same : other = party
    · subst same
      rw [update_self, Option.some_inj] at holds
      exact holds.symm
    · rw [update_of_ne same, unheld other] at holds
      cases holds
  · intro first second firstHolds secondHolds
    have reader : ∀ other, (update held party (some (cell.getD 0)) other).isSome →
        other = party := by
      intro other holds
      by_contra different
      rw [update_of_ne different, unheld other] at holds
      cases holds
    rw [reader first firstHolds, reader second secondHolds]

theorem Sound.write (sound : Sound serial cell owed held) {party : Party} {amount value : Amount}
    (owes : owed party = some amount) (holds : held party = some value) :
    Sound serial (some (value + amount)) (update owed party none) (update held party none) := by
  have unheld : ∀ other, update held party none other = none := by
    intro other
    by_cases same : other = party
    · rw [same, update_self]
    · rw [update_of_ne same]
      by_contra held
      exact same (sound.alone _ _ (Option.isSome_iff_ne_none.mpr held) (by rw [holds]; rfl))
  refine ⟨?_, ?_, ?_, ?_⟩
  · have total := sum_update (fun owes : Option Amount => owes.getD 0) owed party none
    rw [owes] at total
    simp only [Option.getD_none, add_zero, Option.getD_some] at total
    rw [Option.getD_some, sound.value, sound.current party value holds, ← total]
    abel
  · have present := sound.present.mpr (.inr ⟨party, by rw [owes]; rfl⟩)
    simp [present]
  · intro other value impossible
    rw [unheld other] at impossible
    cases impossible
  · intro first second impossible
    rw [unheld first] at impossible
    cases impossible

omit [DecidableEq Party] in
theorem Sound.settled (sound : Sound serial cell owed held) (paid : ∀ party, owed party = none) :
    serial = cell := by
  have value := sound.value
  have present := sound.present
  simp only [paid, Option.getD_none, Finset.sum_const_zero, add_zero] at value
  simp only [paid, Option.isSome_none, Bool.false_eq_true, exists_false, or_false] at present
  cases serial with
  | none =>
      cases cell with
      | none => rfl
      | some amount => exact absurd (present.mpr rfl) (by simp)
  | some amount =>
      cases cell with
      | none => exact absurd (present.mp rfl) (by simp)
      | some other => exact congrArg some value

end SharedCounter
