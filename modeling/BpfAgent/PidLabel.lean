import BpfAgent.Lib.Word

/-!
# Labels of processes

The series of a process is labelled with its name and its process id.  A name
may contain anything, also what looks like the rest of such a label.
-/

namespace BpfAgent

def pidLabel (name : String) (pid : UInt32) : String :=
  name ++ " (PID " ++ toString pid ++ ")"

/-- What follows the last separator is determined by the whole. -/
theorem append_inj_of_notMem {Symbol : Type} {separator : Symbol}
    {left right leftTail rightTail : List Symbol}
    (same : left ++ separator :: leftTail = right ++ separator :: rightTail)
    (leftFree : separator ∉ leftTail) (rightFree : separator ∉ rightTail) :
    leftTail = rightTail := by
  rcases List.append_eq_append_iff.mp same with ⟨middle, -, tail⟩ | ⟨middle, -, tail⟩
  · cases middle with
    | nil => simpa using tail
    | cons symbol middle =>
        simp only [List.cons_append, List.cons.injEq] at tail
        exact absurd (tail.2 ▸ List.mem_append_right _ List.mem_cons_self) leftFree
  · cases middle with
    | nil => simpa using tail.symm
    | cons symbol middle =>
        simp only [List.cons_append, List.cons.injEq] at tail
        exact absurd (tail.2 ▸ List.mem_append_right _ List.mem_cons_self) rightFree

theorem space_notMem_toString (pid : UInt32) : ' ' ∉ (toString pid).toList := by
  intro membership
  have digits : (toString pid).toList = Nat.toDigits 10 pid.toNat := Nat.toList_repr
  rw [digits] at membership
  have digit := Nat.isDigit_of_mem_toDigits (by decide) (by decide) membership
  simp at digit

theorem pidLabel_toList (name : String) (pid : UInt32) :
    (pidLabel name pid).toList =
      (name.toList ++ " (PID".toList) ++ ' ' :: ((toString pid).toList ++ [')']) := by
  simp only [pidLabel, String.toList_append, List.append_assoc]
  rfl

/-- Different processes have different labels, whatever their names. -/
theorem pidLabel_inj {name otherName : String} {pid other : UInt32}
    (same : pidLabel name pid = pidLabel otherName other) : pid = other := by
  have free : ∀ pid : UInt32, ' ' ∉ (toString pid).toList ++ [')'] := by
    intro pid
    rw [List.mem_append, not_or]
    exact ⟨space_notMem_toString pid, by decide⟩
  have characters := congrArg String.toList same
  rw [pidLabel_toList, pidLabel_toList] at characters
  have digits := List.append_cancel_right (append_inj_of_notMem characters (free _) (free _))
  exact Word.toString_inj (String.toList_inj.mp digits)

theorem pidLabel_name_inj {name other : String} {pid : UInt32} :
    pidLabel name pid = pidLabel other pid ↔ name = other := by
  constructor
  · intro same
    have characters := congrArg String.toList same
    simp only [pidLabel, String.toList_append, List.append_cancel_right_eq] at characters
    exact String.toList_inj.mp characters
  · rintro rfl
    rfl

end BpfAgent
