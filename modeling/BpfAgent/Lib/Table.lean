import Mathlib.Algebra.BigOperators.Group.Finset.Piecewise
import Mathlib.Algebra.GroupWithZero.Nat
import Mathlib.Data.List.AList

/-!
# Unbounded tables

Mathlib's association lists with unique keys, used as ordinary hash maps.  The
order of the entries stands for the order in which such a map is iterated, so
a result about every table is a result about every iteration order.
-/

universe u v w

abbrev Table (Key : Type u) (Value : Type v) := AList fun _ : Key => Value

namespace Table

variable {Key : Type u} {Value : Type v} [DecidableEq Key]

theorem mem_iff_lookup {table : Table Key Value} {key : Key} :
    key ∈ table ↔ ∃ value, table.lookup key = some value := by
  rw [← Option.isSome_iff_exists]
  exact AList.lookup_isSome.symm

theorem lookup_insert_ite (table : Table Key Value) (key other : Key) (value : Value) :
    (table.insert key value).lookup other =
      if other = key then some value else table.lookup other := by
  by_cases same : other = key
  · subst same
    rw [if_pos rfl]
    exact AList.lookup_insert table
  · rw [if_neg same]
    exact AList.lookup_insert_ne same

theorem lookup_of_mem_entries {table : Table Key Value} {key : Key} {value : Value}
    (membership : ⟨key, value⟩ ∈ table.entries) : table.lookup key = some value :=
  AList.mem_lookup_iff.mpr membership

def retain (table : Table Key Value) (keep : Key → Bool) : Table Key Value :=
  ⟨table.entries.filter fun entry => keep entry.1,
    table.nodupKeys.sublist List.filter_sublist⟩

theorem lookup_retain (table : Table Key Value) (keep : Key → Bool) (key : Key) :
    (retain table keep).lookup key = if keep key then table.lookup key else none := by
  apply Option.ext
  intro value
  rw [← Option.mem_def, AList.mem_lookup_iff]
  simp only [retain, List.mem_filter]
  rw [← AList.mem_lookup_iff]
  cases keep key <;> simp

theorem lookup_foldl_insert (value : Key → Value) (keys : List Key)
    (table : Table Key Value) (key : Key) :
    (keys.foldl (fun table key => table.insert key (value key)) table).lookup key =
      if key ∈ keys then some (value key) else table.lookup key := by
  induction keys generalizing table with
  | nil => simp
  | cons first keys inductionHypothesis =>
      rw [List.foldl_cons, inductionHypothesis, lookup_insert_ite]
      by_cases same : key = first <;> simp [same]

/-- The table of a list of entries; the last one of a key is kept. -/
def collect (entries : List (Key × Value)) : Table Key Value :=
  entries.foldl (fun table entry => table.insert entry.1 entry.2) ∅

theorem collect_concat (entries : List (Key × Value)) (entry : Key × Value) :
    collect (entries ++ [entry]) = (collect entries).insert entry.1 entry.2 := by
  rw [collect, List.foldl_append]
  rfl

theorem mem_of_lookup_collect {entries : List (Key × Value)} {key : Key} {value : Value}
    (found : (collect entries).lookup key = some value) : (key, value) ∈ entries := by
  induction entries using List.reverseRecOn with
  | nil => cases (AList.lookup_empty key).symm.trans found
  | append_singleton entries entry inductionHypothesis =>
      rw [collect_concat, lookup_insert_ite] at found
      split at found
      next same =>
        rw [same, ← Option.some.inj found]
        exact List.mem_append_right _ List.mem_cons_self
      next => exact List.mem_append_left _ (inductionHypothesis found)

theorem mem_collect_of_mem {entries : List (Key × Value)} {entry : Key × Value}
    (member : entry ∈ entries) : entry.1 ∈ collect entries := by
  induction entries using List.reverseRecOn with
  | nil => cases member
  | append_singleton entries last inductionHypothesis =>
      rw [collect_concat, AList.mem_insert]
      rcases List.mem_append.mp member with early | late
      · exact .inr (inductionHypothesis early)
      · exact .inl (congrArg Prod.fst (List.mem_singleton.mp late))

/-- Entries that agree on every key are all kept. -/
theorem lookup_collect_iff {entries : List (Key × Value)}
    (agree : ∀ entry ∈ entries, ∀ other ∈ entries, entry.1 = other.1 → entry.2 = other.2)
    {key : Key} {value : Value} :
    (collect entries).lookup key = some value ↔ (key, value) ∈ entries := by
  constructor
  · exact mem_of_lookup_collect
  · intro member
    obtain ⟨found, lookup⟩ := mem_iff_lookup.mp (mem_collect_of_mem member)
    have same : found = value := agree _ (mem_of_lookup_collect lookup) _ member rfl
    rw [lookup, same]

/-- A loop over the entries of a table whose body touches only what belongs to
its own key does to each key what the body does to it. -/
theorem foldl_entries {State : Type u} {View : Type w}
    {body : State → (_ : Key) × Value → State} (view : State → Key → View)
    (next : View → Value → View)
    (own : ∀ state key value other, view (body state ⟨key, value⟩) other =
      if other = key then next (view state key) value else view state other)
    {entries : List ((_ : Key) × Value)} (distinct : entries.NodupKeys) (state : State)
    (key : Key) :
    view (entries.foldl body state) key =
      (entries.dlookup key).elim (view state key) (next (view state key)) := by
  induction entries generalizing state with
  | nil => rfl
  | cons entry entries inductionHypothesis =>
      obtain ⟨other, value⟩ := entry
      rw [List.foldl_cons, inductionHypothesis (List.nodupKeys_cons.mp distinct).2, own]
      by_cases same : key = other
      · subst same
        have absent : entries.dlookup key = none :=
          List.dlookup_eq_none.mpr (List.nodupKeys_cons.mp distinct).1
        simp [absent]
      · have skipped : List.dlookup key (⟨other, value⟩ :: entries) = entries.dlookup key :=
          List.dlookup_cons_ne entries _ same
        rw [skipped, if_neg same]

/-- Adding up by group and then over the groups adds up everything. -/
theorem sum_groups {Entry : Type u} (group : Entry → Key) (amount : Entry → Nat)
    (groups : Finset Key) (entries : List Entry)
    (grouped : ∀ entry ∈ entries, group entry ∈ groups) :
    ∑ key ∈ groups, ((entries.filter fun entry => group entry = key).map amount).sum =
      (entries.map amount).sum := by
  induction entries with
  | nil => simp
  | cons entry entries inductionHypothesis =>
      have rest := inductionHypothesis fun other member =>
        grouped other (List.mem_cons_of_mem _ member)
      have split : ∀ key, (((entry :: entries).filter fun entry => group entry = key).map
          amount).sum = (if group entry = key then amount entry else 0) +
            ((entries.filter fun entry => group entry = key).map amount).sum := by
        intro key
        by_cases same : group entry = key <;> simp [same]
      simp only [split, Finset.sum_add_distrib, rest, Finset.sum_ite_eq,
        if_pos (grouped entry List.mem_cons_self), List.map_cons, List.sum_cons]

section Sum

variable [AddCommMonoid Value]

def sumValues (table : Table Key Value) : Value := (table.entries.map Sigma.snd).sum

theorem sumValues_insert (table : Table Key Value) (key : Key) (value : Value) :
    sumValues (table.insert key value) = value + sumValues (table.erase key) := by
  rw [sumValues, AList.entries_insert, List.map_cons, List.sum_cons]
  rfl

theorem sumValues_erase (table : Table Key Value) (key : Key) :
    (table.lookup key).getD 0 + sumValues (table.erase key) = sumValues table := by
  obtain ⟨entries, distinct⟩ := table
  change (entries.dlookup key).getD 0 + ((entries.kerase key).map Sigma.snd).sum =
    (entries.map Sigma.snd).sum
  induction entries with
  | nil => simp
  | cons entry entries inductionHypothesis =>
      obtain ⟨other, value⟩ := entry
      by_cases same : key = other
      · subst same
        simp
      · have rest := inductionHypothesis (List.nodupKeys_cons.mp distinct).2
        rw [List.dlookup_cons_ne entries ⟨other, value⟩ same, List.kerase_cons_ne same,
          List.map_cons, List.sum_cons, List.map_cons, List.sum_cons, ← rest, add_left_comm]

/-- The values under a list of distinct keys that holds all keys of the table. -/
theorem sumValues_eq_sum_lookup {keys : List Key} (distinct : keys.Nodup)
    (table : Table Key Value) (covered : ∀ key ∈ table, key ∈ keys) :
    sumValues table = (keys.map fun key => (table.lookup key).getD 0).sum := by
  induction keys generalizing table with
  | nil =>
      have empty : table.entries = [] := by
        apply List.eq_nil_iff_forall_not_mem.mpr
        intro entry member
        cases covered entry.1 (List.mem_keys_of_mem member)
      rw [sumValues, empty]
      rfl
  | cons key keys inductionHypothesis =>
      have fresh : key ∉ keys := (List.nodup_cons.mp distinct).1
      have others : ∀ other ∈ table.erase key, other ∈ keys := by
        intro other member
        rw [AList.mem_erase] at member
        rcases List.mem_cons.mp (covered other member.2) with same | rest
        · exact absurd same member.1
        · exact rest
      have same : (keys.map fun other => ((table.erase key).lookup other).getD 0) =
          keys.map fun other => (table.lookup other).getD 0 := by
        apply List.map_congr_left
        intro other member
        rw [AList.lookup_erase_ne]
        rintro rfl
        exact fresh member
      rw [← sumValues_erase table key,
        inductionHypothesis (List.nodup_cons.mp distinct).2 _ others, same, List.map_cons,
        List.sum_cons]

end Sum

end Table
