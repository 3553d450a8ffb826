import Mathlib.Algebra.BigOperators.Group.List.Basic
import Mathlib.Algebra.GroupWithZero.Nat
import Mathlib.Data.List.Basic
import Mathlib.Tactic.Common

/-!
# Sliding windows

A window is a queue of amounts with the times at which they were added.  The
times never decrease, so dropping what has expired from the front leaves
exactly the entries that have not expired, and what was dropped once would not
come back later.
-/

namespace SlidingWindow

universe u

variable {Amount : Type u}

/-- The entries that are at most `span` old at time `now`. -/
def recent (span now : Nat) (entries : List (Nat × Amount)) : List (Nat × Amount) :=
  entries.filter fun entry => now - entry.1 ≤ span

def Ordered (entries : List (Nat × Amount)) : Prop :=
  entries.Pairwise fun earlier later => earlier.1 ≤ later.1

theorem dropWhile_eq_recent {span now : Nat} {entries : List (Nat × Amount)}
    (ordered : Ordered entries) :
    entries.dropWhile (fun entry => span < now - entry.1) = recent span now entries := by
  induction entries with
  | nil => rfl
  | cons first entries inductionHypothesis =>
      obtain ⟨before, rest⟩ := List.pairwise_cons.mp ordered
      by_cases expired : span < now - first.1
      · have old : (decide (span < now - first.1)) = true := decide_eq_true expired
        have gone : ¬decide (now - first.1 ≤ span) = true := by
          simpa using Nat.not_le.mpr expired
        rw [List.dropWhile_cons, if_pos old, inductionHypothesis rest, recent, recent,
          List.filter_cons, if_neg gone]
      · have young : ¬decide (span < now - first.1) = true := by simpa using expired
        rw [List.dropWhile_cons, if_neg young]
        symm
        apply List.filter_eq_self.mpr
        intro entry member
        apply decide_eq_true
        rcases List.mem_cons.mp member with rfl | later
        · exact Nat.not_lt.mp expired
        · have := before entry later
          omega

theorem recent_recent {span now next : Nat} (later : now ≤ next)
    (entries : List (Nat × Amount)) :
    recent span next (recent span now entries) = recent span next entries := by
  unfold recent
  rw [List.filter_filter]
  apply List.filter_congr
  intro entry _
  have weaker : next - entry.1 ≤ span → now - entry.1 ≤ span := by omega
  simpa using weaker

theorem recent_eq_self {span now : Nat} {entries : List (Nat × Amount)}
    (young : ∀ time ∈ entries.map Prod.fst, now - time ≤ span) :
    recent span now entries = entries := by
  apply List.filter_eq_self.mpr
  intro entry member
  exact decide_eq_true (young entry.1 (List.mem_map_of_mem member))

theorem recent_eq_nil {span now : Nat} {entries : List (Nat × Amount)}
    (old : ∀ time ∈ entries.map Prod.fst, span < now - time) :
    recent span now entries = [] := by
  apply List.filter_eq_nil_iff.mpr
  intro entry member
  have expired := old entry.1 (List.mem_map_of_mem member)
  simp only [decide_eq_true_eq]
  omega

theorem map_recent {Other : Type u} (convert : Amount → Other) (span now : Nat)
    (entries : List (Nat × Amount)) :
    (recent span now entries).map (Prod.map id convert) =
      recent span now (entries.map (Prod.map id convert)) := by
  unfold recent
  rw [List.filter_map]
  rfl

theorem recent_append (span now : Nat) (first second : List (Nat × Amount)) :
    recent span now (first ++ second) = recent span now first ++ recent span now second :=
  List.filter_append ..

def total (entries : List (Nat × Nat)) : Nat := (entries.map Prod.snd).sum

@[simp]
theorem total_nil : total [] = 0 := rfl

@[simp]
theorem total_cons (entry : Nat × Nat) (entries : List (Nat × Nat)) :
    total (entry :: entries) = entry.2 + total entries := rfl

@[simp]
theorem total_append (first second : List (Nat × Nat)) :
    total (first ++ second) = total first + total second := by
  simp [total]

theorem total_recent_le (span now : Nat) (entries : List (Nat × Nat)) :
    total (recent span now entries) ≤ total entries := by
  induction entries with
  | nil => exact Nat.le_refl _
  | cons entry entries inductionHypothesis =>
      rw [total_cons, recent, List.filter_cons]
      split
      · exact Nat.add_le_add_left inductionHypothesis _
      · exact Nat.le_trans inductionHypothesis (Nat.le_add_left _ _)

def nonzero (entries : List (Nat × Nat)) : List (Nat × Nat) :=
  entries.filter fun entry => 0 < entry.2

theorem total_nonzero (entries : List (Nat × Nat)) : total (nonzero entries) = total entries := by
  induction entries with
  | nil => rfl
  | cons entry entries inductionHypothesis =>
      rw [total_cons, nonzero, List.filter_cons]
      split
      · rw [total_cons, ← nonzero, inductionHypothesis]
      next zero =>
        have zero : entry.2 = 0 := by simpa using zero
        rw [← nonzero, inductionHypothesis, zero, Nat.zero_add]

theorem nonzero_eq_nil_iff {entries : List (Nat × Nat)} :
    nonzero entries = [] ↔ total entries = 0 := by
  induction entries with
  | nil => simp [nonzero]
  | cons entry entries inductionHypothesis =>
      rw [total_cons, nonzero, List.filter_cons]
      split
      next positive =>
        have positive : 0 < entry.2 := by simpa using positive
        simp only [List.cons_ne_nil, false_iff]
        omega
      next zero =>
        have zero : entry.2 = 0 := by simpa using zero
        rw [← nonzero, inductionHypothesis, zero, Nat.zero_add]

theorem recent_nonzero (span now : Nat) (entries : List (Nat × Nat)) :
    recent span now (nonzero entries) = nonzero (recent span now entries) := by
  unfold recent nonzero
  rw [List.filter_filter, List.filter_filter]
  apply List.filter_congr
  intro entry _
  exact Bool.and_comm _ _

end SlidingWindow
