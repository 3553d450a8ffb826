import Mathlib.Data.List.AList
import Mathlib.Data.Finset.Card

/-!
# Bounded hash maps

A finite map that never holds more than `capacity` entries, over Mathlib's
association lists with unique keys.  Storing under a key that is already
present overwrites; storing under a new key fails once the map is full.  The
evicting variant makes room instead, and lets its caller name any further
entries that are lost on the way.

The position of an entry carries no meaning beyond the order in which the map
is iterated, so every fact below is about `get`.
-/

universe u v

structure BoundedMap (Key : Type u) (Value : Type v) (capacity : Nat) where
  table : AList fun _ : Key => Value
  bounded : table.keys.length ≤ capacity

namespace BoundedMap

variable {Key : Type u} {Value : Type v} {capacity : Nat}

def empty : BoundedMap Key Value capacity := ⟨∅, Nat.zero_le _⟩

def keys (map : BoundedMap Key Value capacity) : List Key := map.table.keys

def values (map : BoundedMap Key Value capacity) : List Value :=
  map.table.entries.map Sigma.snd

def entries (map : BoundedMap Key Value capacity) : List ((_ : Key) × Value) :=
  map.table.entries

def size (map : BoundedMap Key Value capacity) : Nat := map.keys.length

instance : Membership Key (BoundedMap Key Value capacity) :=
  ⟨fun map key => key ∈ map.table⟩

theorem mem_keys {map : BoundedMap Key Value capacity} {key : Key} :
    key ∈ map.keys ↔ key ∈ map := AList.mem_keys.symm

@[simp]
theorem notMem_empty (key : Key) : key ∉ (empty : BoundedMap Key Value capacity) :=
  AList.notMem_empty key

theorem keys_nodup (map : BoundedMap Key Value capacity) : map.keys.Nodup :=
  map.table.keys_nodup

variable [DecidableEq Key]

instance (key : Key) (map : BoundedMap Key Value capacity) : Decidable (key ∈ map) :=
  inferInstanceAs (Decidable (key ∈ map.table))

def get (map : BoundedMap Key Value capacity) (key : Key) : Option Value :=
  map.table.lookup key

/-- Whether a store under `key` succeeds. -/
def Room (map : BoundedMap Key Value capacity) (key : Key) : Prop :=
  key ∈ map ∨ map.size < capacity

instance (map : BoundedMap Key Value capacity) (key : Key) : Decidable (map.Room key) :=
  inferInstanceAs (Decidable (key ∈ map ∨ map.size < capacity))

theorem insert_bounded {map : BoundedMap Key Value capacity} {key : Key}
    (room : map.Room key) (value : Value) :
    (map.table.insert key value).keys.length ≤ capacity := by
  have bounded := map.bounded
  rw [AList.keys_insert, List.length_cons, List.length_erase]
  rcases room with present | space
  · rw [if_pos (AList.mem_keys.mp present)]
    have := List.length_pos_of_mem (AList.mem_keys.mp present)
    omega
  · have space : map.table.keys.length < capacity := space
    split <;> omega

/-- Store `value`, failing when `key` is new and the map is full. -/
def insert? (map : BoundedMap Key Value capacity) (key : Key) (value : Value) :
    Option (BoundedMap Key Value capacity) :=
  if room : map.Room key then
    some ⟨map.table.insert key value, insert_bounded room value⟩
  else
    none

/-- Store `value` and discard the error: a failed store changes nothing. -/
def insert (map : BoundedMap Key Value capacity) (key : Key) (value : Value) :
    BoundedMap Key Value capacity :=
  (map.insert? key value).getD map

def remove (map : BoundedMap Key Value capacity) (key : Key) :
    BoundedMap Key Value capacity :=
  ⟨map.table.erase key, by
    rw [AList.keys_erase]
    exact List.length_erase_le.trans map.bounded⟩

def removeAll (map : BoundedMap Key Value capacity) (victims : List Key) :
    BoundedMap Key Value capacity :=
  victims.foldl remove map

theorem mem_iff_get {map : BoundedMap Key Value capacity} {key : Key} :
    key ∈ map ↔ ∃ value, map.get key = some value := by
  rw [← Option.isSome_iff_exists]
  exact AList.lookup_isSome.symm

theorem notMem_iff_get {map : BoundedMap Key Value capacity} {key : Key} :
    key ∉ map ↔ map.get key = none := AList.lookup_eq_none.symm

theorem mem_values_of_get {map : BoundedMap Key Value capacity} {key : Key} {value : Value}
    (found : map.get key = some value) : value ∈ map.values :=
  List.mem_map.mpr ⟨⟨key, value⟩, AList.mem_lookup_iff.mp found, rfl⟩

@[simp]
theorem get_empty (key : Key) :
    (empty : BoundedMap Key Value capacity).get key = none := AList.lookup_empty key

theorem get_insert_of_room {map : BoundedMap Key Value capacity} {key : Key}
    (room : map.Room key) (value : Value) (other : Key) :
    (map.insert key value).get other =
      if other = key then some value else map.get other := by
  rw [insert, insert?, dif_pos room, Option.getD_some]
  by_cases same : other = key
  · subst same
    rw [if_pos rfl]
    exact AList.lookup_insert _
  · rw [if_neg same]
    exact AList.lookup_insert_ne same

theorem insert_of_not_room {map : BoundedMap Key Value capacity} {key : Key}
    (full : ¬map.Room key) (value : Value) : map.insert key value = map := by
  rw [insert, insert?, dif_neg full, Option.getD_none]

@[simp]
theorem get_insert_ne (map : BoundedMap Key Value capacity) {key other : Key}
    (different : other ≠ key) (value : Value) :
    (map.insert key value).get other = map.get other := by
  by_cases room : map.Room key
  · rw [get_insert_of_room room, if_neg different]
  · rw [insert_of_not_room room]

@[simp]
theorem get_remove (map : BoundedMap Key Value capacity) (key other : Key) :
    (map.remove key).get other = if other = key then none else map.get other := by
  by_cases same : other = key
  · subst same
    rw [if_pos rfl]
    exact AList.lookup_erase _ _
  · rw [if_neg same]
    exact AList.lookup_erase_ne same

theorem mem_remove {map : BoundedMap Key Value capacity} {key other : Key} :
    other ∈ map.remove key ↔ other ≠ key ∧ other ∈ map := AList.mem_erase

theorem get_removeAll (map : BoundedMap Key Value capacity) (victims : List Key)
    (key : Key) :
    (map.removeAll victims).get key = if key ∈ victims then none else map.get key := by
  induction victims generalizing map with
  | nil => simp [removeAll]
  | cons victim victims inductionHypothesis =>
      rw [removeAll, List.foldl_cons, ← removeAll, inductionHypothesis, get_remove]
      by_cases same : key = victim <;> simp [same]

theorem mem_insert_of_mem {map : BoundedMap Key Value capacity} {key other : Key}
    (value : Value) (present : other ∈ map) : other ∈ map.insert key value := by
  by_cases room : map.Room key
  · rw [mem_iff_get, get_insert_of_room room]
    split
    · exact ⟨value, rfl⟩
    · exact mem_iff_get.mp present
  · rwa [insert_of_not_room room]

theorem mem_of_mem_insert {map : BoundedMap Key Value capacity} {key other : Key}
    {value : Value} (present : other ∈ map.insert key value) :
    other = key ∨ other ∈ map := by
  by_cases same : other = key
  · exact .inl same
  · rw [mem_iff_get, get_insert_ne map same] at present
    exact .inr (mem_iff_get.mpr present)

theorem get_insert_cases {map : BoundedMap Key Value capacity} {key other : Key}
    {value found : Value} (present : (map.insert key value).get other = some found) :
    map.get other = some found ∨ found = value := by
  by_cases room : map.Room key
  · rw [get_insert_of_room room] at present
    split at present
    next => exact .inr (Option.some.inj present).symm
    next => exact .inl present
  · rw [insert_of_not_room room] at present
    exact .inl present

theorem mem_insert_of_room {map : BoundedMap Key Value capacity} {key other : Key}
    (room : map.Room key) (value : Value) :
    other ∈ map.insert key value ↔ other = key ∨ other ∈ map := by
  constructor
  · exact mem_of_mem_insert
  · rintro (rfl | present)
    · rw [mem_iff_get, get_insert_of_room room, if_pos rfl]
      exact ⟨value, rfl⟩
    · exact mem_insert_of_mem value present

theorem mem_insert_iff {map : BoundedMap Key Value capacity} {key other : Key} {value : Value} :
    other ∈ map.insert key value ↔ other ∈ map ∨ other = key ∧ map.Room key := by
  by_cases room : map.Room key
  · rw [mem_insert_of_room room, or_comm, and_iff_left room]
  · simp [insert_of_not_room room, room]

theorem size_insert_le (map : BoundedMap Key Value capacity) (key : Key) (value : Value) :
    (map.insert key value).size ≤ map.size + 1 := by
  by_cases room : map.Room key
  · rw [insert, insert?, dif_pos room, Option.getD_some]
    simp only [size, keys, AList.keys_insert, List.length_cons]
    exact Nat.succ_le_succ List.length_erase_le
  · rw [insert_of_not_room room]
    exact Nat.le_succ _

theorem size_insert_of_notMem {map : BoundedMap Key Value capacity} {key : Key}
    (absent : key ∉ map) (space : map.size < capacity) (value : Value) :
    (map.insert key value).size = map.size + 1 := by
  have room : map.Room key := .inr space
  rw [insert, insert?, dif_pos room, Option.getD_some]
  simp only [size, keys, AList.keys_insert, List.length_cons]
  rw [List.erase_of_not_mem (AList.mem_keys.not.mp absent)]

-- Keys that are stored in the order of their numbers fill a map, and then keep
-- out every later one.
section Numbered

variable {map : BoundedMap Key Value capacity} {key : Key} {number : Nat} {rank : Key → Nat}

theorem size_insert_numbered (size : map.size = number)
    (keys : ∀ other ∈ map, rank other < number) (next : rank key = number)
    (space : number < capacity) (value : Value) : (map.insert key value).size = number + 1 := by
  have absent : key ∉ map := by
    intro present
    have smaller := keys key present
    omega
  rw [size_insert_of_notMem absent (by omega), size]

theorem rank_lt_of_mem_insert (keys : ∀ other ∈ map, rank other < number)
    (next : rank key = number) {value : Value} {other : Key}
    (present : other ∈ map.insert key value) : rank other < number + 1 := by
  rcases mem_of_mem_insert present with rfl | before
  · omega
  · exact Nat.lt_succ_of_lt (keys other before)

omit [DecidableEq Key] in
theorem not_room_of_numbered (size : map.size = capacity)
    (keys : ∀ other ∈ map, rank other < capacity) (later : capacity ≤ rank key) :
    ¬map.Room key := by
  rintro (present | space)
  · exact absurd (keys key present) (Nat.not_lt.mpr later)
  · omega

end Numbered

theorem size_le_size_insert (map : BoundedMap Key Value capacity) (key : Key)
    (value : Value) : map.size ≤ (map.insert key value).size := by
  apply (List.subperm_of_subset map.keys_nodup _).length_le
  intro other membership
  exact mem_keys.mpr (mem_insert_of_mem value (mem_keys.mp membership))

theorem size_remove_le (map : BoundedMap Key Value capacity) (key : Key) :
    (map.remove key).size ≤ map.size := by
  simp only [size, keys, remove, AList.keys_erase]
  exact List.length_erase_le

theorem size_removeAll_le (map : BoundedMap Key Value capacity) (victims : List Key) :
    (map.removeAll victims).size ≤ map.size := by
  induction victims generalizing map with
  | nil => exact Nat.le_refl _
  | cons victim victims inductionHypothesis =>
      exact (inductionHypothesis (map.remove victim)).trans (size_remove_le map victim)

section InsertAll

def insertAll (map : BoundedMap Key Value capacity) (entries : List (Key × Value)) :
    BoundedMap Key Value capacity :=
  entries.foldl (fun map entry => map.insert entry.1 entry.2) map

def lastValue (key : Key) : List (Key × Value) → Option Value
  | [] => none
  | entry :: entries =>
      (lastValue key entries).or (if entry.1 = key then some entry.2 else none)

variable {map : BoundedMap Key Value capacity} {key : Key} {entries : List (Key × Value)}

theorem mem_insertAll_of_mem (present : key ∈ map) : key ∈ map.insertAll entries := by
  induction entries generalizing map with
  | nil => exact present
  | cons entry entries inductionHypothesis =>
      exact inductionHypothesis (mem_insert_of_mem _ present)

theorem mem_of_mem_insertAll (present : key ∈ map.insertAll entries) :
    key ∈ map ∨ ∃ entry ∈ entries, entry.1 = key := by
  induction entries generalizing map with
  | nil => exact .inl present
  | cons entry entries inductionHypothesis =>
      rcases inductionHypothesis present with before | ⟨other, member, same⟩
      · rcases mem_of_mem_insert before with equality | old
        · exact .inr ⟨entry, List.mem_cons_self, equality.symm⟩
        · exact .inl old
      · exact .inr ⟨other, List.mem_cons_of_mem _ member, same⟩

theorem not_room_insert (full : ¬map.Room key) (other : Key) (value : Value) :
    ¬(map.insert other value).Room key := by
  rintro (present | space)
  · rcases mem_of_mem_insert present with rfl | old
    · rw [insert_of_not_room full] at present
      exact full (.inl present)
    · exact full (.inl old)
  · exact full (.inr (Nat.lt_of_le_of_lt (size_le_size_insert map other value) space))

theorem not_room_insertAll (full : ¬map.Room key) : ¬(map.insertAll entries).Room key := by
  induction entries generalizing map with
  | nil => exact full
  | cons entry entries inductionHypothesis =>
      exact inductionHypothesis (not_room_insert full entry.1 entry.2)

theorem not_room_of_notMem_insertAll {entry : Key × Value} (member : entry ∈ entries)
    (absent : entry.1 ∉ map.insertAll entries) : ¬(map.insertAll entries).Room entry.1 := by
  induction entries generalizing map with
  | nil => cases member
  | cons first entries inductionHypothesis =>
      rcases List.mem_cons.mp member with rfl | later
      · by_cases room : map.Room entry.1
        · have stored : entry.1 ∈ map.insert entry.1 entry.2 := by
            rw [mem_iff_get, get_insert_of_room room, if_pos rfl]
            exact ⟨entry.2, rfl⟩
          exact absurd (mem_insertAll_of_mem stored) absent
        · exact not_room_insertAll room
      · exact inductionHypothesis later absent

/-- A key that is present afterwards has the value of its last entry. -/
theorem get_insertAll_of_mem (present : key ∈ map.insertAll entries) :
    (map.insertAll entries).get key = (lastValue key entries).or (map.get key) := by
  induction entries generalizing map with
  | nil => rfl
  | cons entry entries inductionHypothesis =>
      have rest := inductionHypothesis present
      rw [insertAll, List.foldl_cons, ← insertAll, rest, lastValue, Option.or_assoc]
      congr 1
      by_cases same : entry.1 = key
      · have room : map.Room entry.1 := by
          by_contra full
          rw [same] at full
          apply not_room_insertAll (not_room_insert full entry.1 entry.2)
          exact .inl present
        rw [get_insert_of_room room, if_pos same.symm, if_pos same]
        rfl
      · rw [get_insert_ne map (Ne.symm same), if_neg same]
        rfl

theorem mem_insertAll_insertAll_iff :
    key ∈ (map.insertAll entries).insertAll entries ↔ key ∈ map.insertAll entries := by
  constructor
  · intro present
    by_contra absent
    rcases mem_of_mem_insertAll present with once | ⟨entry, member, rfl⟩
    · exact absent once
    · exact not_room_insertAll (not_room_of_notMem_insertAll member absent) (.inl present)
  · exact mem_insertAll_of_mem

/-- Storing the same entries again changes nothing, full map or not. -/
theorem get_insertAll_insertAll :
    ((map.insertAll entries).insertAll entries).get key = (map.insertAll entries).get key := by
  by_cases present : key ∈ map.insertAll entries
  · rw [get_insertAll_of_mem (mem_insertAll_insertAll_iff.mpr present),
      get_insertAll_of_mem present, ← Option.or_assoc]
    cases lastValue key entries with
    | none => rfl
    | some value => rfl
  · have still := mt mem_insertAll_insertAll_iff.mp present
    rw [notMem_iff_get.mp present, notMem_iff_get.mp still]

end InsertAll

omit [DecidableEq Key] in
theorem room_congr {Other : Type v} {map : BoundedMap Key Value capacity}
    {other : BoundedMap Key Other capacity} (same : ∀ key, key ∈ map ↔ key ∈ other)
    (key : Key) : map.Room key ↔ other.Room key := by
  have sizes : map.size = other.size := by
    apply List.Perm.length_eq
    apply (List.perm_ext_iff_of_nodup map.keys_nodup other.keys_nodup).mpr
    intro candidate
    rw [mem_keys, mem_keys]
    exact same candidate
  unfold Room
  rw [same, sizes]

/-- A map whose keys, with the new one, come from a small enough set has room. -/
theorem room_of_keys_subset {map : BoundedMap Key Value capacity} {key : Key}
    (domain : Finset Key) (small : domain.card ≤ capacity)
    (inside : ∀ other ∈ map, other ∈ domain) (member : key ∈ domain) :
    map.Room key := by
  by_cases present : key ∈ map
  · exact .inl present
  · right
    have smaller : map.keys.toFinset ⊂ domain := by
      refine Finset.ssubset_iff_subset_ne.mpr ⟨?_, ?_⟩
      · intro other membership
        exact inside other (mem_keys.mp (List.mem_toFinset.mp membership))
      · intro equality
        rw [← equality] at member
        exact present (mem_keys.mp (List.mem_toFinset.mp member))
    have count := Finset.card_lt_card smaller
    rw [List.toFinset_card_of_nodup map.keys_nodup] at count
    exact count.trans_le small

/-- Keep the `capacity` most recently stored entries. -/
def trim (table : AList fun _ : Key => Value) : BoundedMap Key Value capacity :=
  ⟨⟨table.entries.take capacity,
      table.nodupKeys.sublist (List.take_sublist _ _)⟩, by
    simp [AList.keys, List.keys]⟩

/-- Store `value`, losing any of `victims` and, if the map would still be too
large, its oldest entry. -/
def insertEvicting (map : BoundedMap Key Value capacity) (key : Key) (value : Value)
    (victims : List Key) : BoundedMap Key Value capacity :=
  (trim ((map.removeAll victims).table.insert key value) :
    BoundedMap Key Value capacity).removeAll victims

/-- What such a store loses: its victims, and the oldest entry of a map that is
full of other keys even without them. -/
def Evicts (map : BoundedMap Key Value capacity) (key : Key) (victims : List Key) (other : Key) :
    Prop :=
  other ∈ victims ∨
    ¬(map.removeAll victims).Room key ∧ (map.removeAll victims).keys.getLast?.getD key = other

instance (map : BoundedMap Key Value capacity) (key : Key) (victims : List Key) (other : Key) :
    Decidable (map.Evicts key victims other) :=
  inferInstanceAs (Decidable (_ ∨ _))

section Trim

variable {table : AList fun _ : Key => Value} {key : Key}

omit [DecidableEq Key] in
theorem keys_trim :
    (trim table : BoundedMap Key Value capacity).keys = table.keys.take capacity :=
  List.map_take

theorem get_trim {value : Value}
    (found : (trim table : BoundedMap Key Value capacity).get key = some value) :
    table.lookup key = some value := by
  have membership := AList.mem_lookup_iff.mp (Option.mem_def.mpr found)
  exact AList.mem_lookup_iff.mpr (List.mem_of_mem_take membership)

omit [DecidableEq Key] in
theorem take_concat_getLast {keys : List Key} (overfull : keys.length = capacity + 1) {last : Key}
    (final : keys.getLast? = some last) : keys.take capacity ++ [last] = keys := by
  obtain ⟨initial, rfl⟩ := List.getLast?_eq_some_iff.mp final
  rw [List.length_append, List.length_singleton] at overfull
  rw [List.take_left' (Nat.succ_injective overfull)]

/-- Keeping all entries but one can only lose the last one. -/
theorem trim_of_spared (length : table.keys.length ≤ capacity + 1)
    (spared : capacity < table.keys.length → table.keys.getLast? ≠ some key) :
    (trim table : BoundedMap Key Value capacity).get key = table.lookup key := by
  have still : key ∈ table → key ∈ (trim table : BoundedMap Key Value capacity) := by
    intro present
    have member := AList.mem_keys.mp present
    rw [← mem_keys, keys_trim]
    rcases Nat.lt_or_ge capacity table.keys.length with overfull | fits
    · obtain ⟨last, final⟩ := Option.ne_none_iff_exists'.mp
        (mt List.getLast?_eq_none_iff.mp (List.ne_nil_of_mem member))
      rw [← take_concat_getLast (Nat.le_antisymm length overfull) final] at member
      rcases List.mem_append.mp member with kept | lost
      · exact kept
      · rw [List.mem_singleton] at lost
        exact absurd (lost ▸ final) (spared overfull)
    · rw [List.take_of_length_le fits]
      exact member
  cases found : (trim table : BoundedMap Key Value capacity).get key with
  | some value => exact (get_trim found).symm
  | none => exact (AList.lookup_eq_none.mpr (mt still (notMem_iff_get.mpr found))).symm

theorem trim_of_fits (fits : table.keys.length ≤ capacity) (key : Key) :
    (trim table : BoundedMap Key Value capacity).get key = table.lookup key :=
  trim_of_spared (Nat.le_succ_of_le fits) fun overfull => absurd overfull (Nat.not_lt.mpr fits)

theorem get_trim_last (overfull : table.keys.length = capacity + 1)
    (final : table.keys.getLast? = some key) :
    (trim table : BoundedMap Key Value capacity).get key = none := by
  have distinct := table.keys_nodup
  rw [← take_concat_getLast overfull final, List.nodup_append] at distinct
  rw [← notMem_iff_get, ← mem_keys, keys_trim]
  exact fun kept => distinct.2.2 key kept key (List.mem_singleton_self key) rfl

end Trim

section InsertEvicting

variable {map : BoundedMap Key Value capacity} {key other : Key} {value : Value}
  {victims : List Key}

theorem keys_insert_of_not_room (full : ¬map.Room key) (value : Value) :
    (map.table.insert key value).keys = key :: map.keys ∧
      (map.table.insert key value).keys.length = capacity + 1 := by
  obtain ⟨absent, space⟩ := not_or.mp full
  have size : map.keys.length = capacity := Nat.le_antisymm map.bounded (Nat.not_lt.mp space)
  have keys : (map.table.insert key value).keys = key :: map.keys := by
    rw [AList.keys_insert, List.erase_of_not_mem (AList.mem_keys.not.mp absent)]
    rfl
  exact ⟨keys, keys.symm ▸ congrArg Nat.succ size⟩

theorem get_insertEvicting_of_evicts (lost : map.Evicts key victims other) :
    (map.insertEvicting key value victims).get other = none := by
  rw [insertEvicting, get_removeAll]
  split
  next => rfl
  next spared =>
    obtain ⟨full, last⟩ := lost.resolve_left spared
    obtain ⟨keys, length⟩ := keys_insert_of_not_room full value
    apply get_trim_last length
    rw [keys, List.getLast?_cons, last]

/-- An evicting store changes nothing but its own key and what it loses. -/
theorem get_insertEvicting_of_kept (kept : ¬map.Evicts key victims other) :
    (map.insertEvicting key value victims).get other =
      if other = key then some value else map.get other := by
  obtain ⟨spared, last⟩ := not_or.mp kept
  have trimmed : (trim ((map.removeAll victims).table.insert key value) :
      BoundedMap Key Value capacity).get other =
        ((map.removeAll victims).table.insert key value).lookup other := by
    by_cases room : (map.removeAll victims).Room key
    · exact trim_of_fits (insert_bounded room value) other
    · obtain ⟨keys, length⟩ := keys_insert_of_not_room room value
      apply trim_of_spared (Nat.le_of_eq length)
      intro _ final
      rw [keys, List.getLast?_cons] at final
      exact last ⟨room, Option.some.inj final⟩
  rw [insertEvicting, get_removeAll, if_neg spared, trimmed]
  by_cases same : other = key
  · rw [if_pos same, same, AList.lookup_insert]
  · rw [if_neg same, AList.lookup_insert_ne same]
    exact (get_removeAll _ _ _).trans (if_neg spared)

theorem get_insertEvicting (kept : (map.insertEvicting key value victims).get other ≠ none) :
    (map.insertEvicting key value victims).get other =
      if other = key then some value else map.get other :=
  get_insertEvicting_of_kept fun lost => kept (get_insertEvicting_of_evicts lost)

theorem removeAll_subset : (map.removeAll victims).keys ⊆ map.keys := by
  intro other member
  obtain ⟨value, found⟩ := mem_iff_get.mp (mem_keys.mp member)
  rw [get_removeAll] at found
  split at found
  · cases found
  · exact mem_keys.mpr (mem_iff_get.mpr ⟨value, found⟩)

/-- Whatever is lost is a victim or makes room in a full map. -/
theorem Evicts.victim_or_full (positive : 0 < capacity) (lost : map.Evicts key victims other) :
    other ∈ victims ∨ ¬map.Room key ∧ other ∈ map := by
  refine or_iff_not_imp_left.mpr fun spared => ?_
  obtain ⟨full, last⟩ := lost.resolve_left spared
  obtain ⟨absent, space⟩ := not_or.mp full
  have size : (map.removeAll victims).keys.length = capacity :=
    Nat.le_antisymm (map.removeAll victims).bounded (Nat.not_lt.mp space)
  -- No victim was in the map, or there would be room without it.
  have same : (map.removeAll victims).keys.Perm map.keys := by
    apply (List.subperm_of_subset (keys_nodup _) removeAll_subset).perm_of_length_le
    rw [size]
    exact map.bounded
  have member : other ∈ (map.removeAll victims).keys := by
    obtain ⟨final, some_final⟩ := Option.ne_none_iff_exists'.mp
      (mt List.getLast?_eq_none_iff.mp (List.ne_nil_of_length_pos (size ▸ positive)))
    rw [some_final, Option.getD_some] at last
    exact last ▸ List.mem_of_getLast? some_final
  refine ⟨?_, mem_keys.mp (same.mem_iff.mp member)⟩
  rintro (present | room)
  · exact absent (mem_keys.mp (same.mem_iff.mpr (mem_keys.mpr present)))
  · exact space (same.length_eq.trans_lt room)

/-- An evicting store that fits loses nothing but its victims. -/
theorem get_insertEvicting_nil (fits : (map.table.insert key value).keys.length ≤ capacity)
    (other : Key) :
    (map.insertEvicting key value []).get other =
      if other = key then some value else map.get other := by
  apply get_insertEvicting_of_kept
  rintro (member | ⟨full, -⟩)
  · cases member
  · have overfull := (keys_insert_of_not_room full value).2
    exact absurd overfull (Nat.ne_of_lt (Nat.lt_succ_of_le fits))

end InsertEvicting

/-- A map that stores nothing under a key has room for it left if it came from
an evicting store of that key. -/
theorem size_insertEvicting_lt {map : BoundedMap Key Value capacity} {key : Key}
    {value : Value} {victims : List Key} (positive : 0 < capacity)
    (lost : (map.insertEvicting key value victims).get key = none) :
    (map.insertEvicting key value victims).size < capacity := by
  let stored : BoundedMap Key Value capacity :=
    trim ((map.removeAll victims).table.insert key value)
  have present : key ∈ stored := by
    rw [mem_iff_get]
    refine ⟨value, ?_⟩
    apply AList.mem_lookup_iff.mpr
    obtain ⟨room, rfl⟩ := Nat.exists_eq_add_one.mpr positive
    change ⟨key, value⟩ ∈ (((map.removeAll victims).table.insert key value).entries).take _
    rw [AList.entries_insert, List.take_succ_cons]
    exact List.mem_cons_self
  have smaller : (stored.removeAll victims).keys ⊆ stored.keys.erase key := by
    intro other membership
    rw [mem_keys, mem_iff_get] at membership
    obtain ⟨found, lookup⟩ := membership
    have different : other ≠ key := by
      rintro rfl
      exact absurd (lookup.symm.trans lost) (by simp)
    rw [get_removeAll] at lookup
    split at lookup
    · cases lookup
    · rw [List.mem_erase_of_ne different, mem_keys, mem_iff_get]
      exact ⟨found, lookup⟩
  have bound := (List.subperm_of_subset (stored.removeAll victims).keys_nodup smaller).length_le
  rw [List.length_erase_of_mem (mem_keys.mpr present)] at bound
  have whole : stored.keys.length ≤ capacity := stored.bounded
  have some_key := List.length_pos_of_mem (mem_keys.mpr present)
  exact Nat.lt_of_le_of_lt bound (by omega)

/-- A key fits beside those of a map that all belong to another one with room
for it. -/
theorem length_insert_le_capacity {map target : BoundedMap Key Value capacity} {key : Key}
    (inside : ∀ other ∈ map, other ∈ target) (room : target.get key = none → target.size < capacity)
    (value : Value) : (map.table.insert key value).keys.length ≤ capacity := by
  have others : map.keys.erase key ⊆ target.keys := by
    intro other membership
    exact mem_keys.mpr (inside other (mem_keys.mp (List.mem_of_mem_erase membership)))
  have distinct := map.keys_nodup.erase key
  have whole : target.keys.length ≤ capacity := target.bounded
  rw [AList.keys_insert]
  by_cases present : key ∈ target
  · have included : key :: map.keys.erase key ⊆ target.keys :=
      List.cons_subset.mpr ⟨mem_keys.mpr present, others⟩
    have unique : (key :: map.keys.erase key).Nodup :=
      List.nodup_cons.mpr ⟨map.keys_nodup.not_mem_erase, distinct⟩
    exact (List.subperm_of_subset unique included).length_le.trans whole
  · have space := room (notMem_iff_get.mp present)
    have bound := (List.subperm_of_subset distinct others).length_le
    exact Nat.succ_le_of_lt (Nat.lt_of_le_of_lt bound space)

/-- An evicting store can end in every map that has lost entries only. -/
theorem exists_victims {map target : BoundedMap Key Value capacity} {key : Key} {value : Value}
    (agrees : ∀ other, target.get other ≠ none →
      target.get other = if other = key then some value else map.get other)
    (room : target.get key = none → target.size < capacity) :
    ∃ victims, ∀ other, (map.insertEvicting key value victims).get other = target.get other := by
  let victims := (key :: map.keys).filter fun other => decide (other ∉ target)
  let kept := map.removeAll victims
  have victim : ∀ {other}, other ∈ victims → target.get other = none := by
    intro other member
    exact notMem_iff_get.mp (of_decide_eq_true (List.mem_filter.mp member).2)
  have keptIn : ∀ other ∈ kept, other ∈ target := by
    intro other present
    obtain ⟨found, lookup⟩ := mem_iff_get.mp present
    rw [get_removeAll] at lookup
    split at lookup
    · cases lookup
    next spared =>
      by_contra missing
      apply spared
      apply List.mem_filter.mpr
      exact ⟨List.mem_cons_of_mem _ (mem_keys.mpr (mem_iff_get.mpr ⟨found, lookup⟩)),
        decide_eq_true missing⟩
  have fits : (kept.table.insert key value).keys.length ≤ capacity :=
    length_insert_le_capacity keptIn room value
  refine ⟨victims, ?_⟩
  intro other
  rw [insertEvicting, get_removeAll]
  split
  next member => exact (victim member).symm
  next spared =>
    rw [trim_of_fits fits]
    have found : target.get other ≠ none ∨ other ∉ map ∧ other ≠ key := by
      by_cases present : other ∈ target
      · exact .inl (notMem_iff_get.not.mp (not_not.mpr present))
      · right
        have notVictim : other ∉ key :: map.keys := fun member =>
          spared (List.mem_filter.mpr ⟨member, decide_eq_true present⟩)
        rw [List.mem_cons, not_or, mem_keys] at notVictim
        exact ⟨notVictim.2, notVictim.1⟩
    rcases found with present | ⟨absent, different⟩
    · rw [agrees other present]
      by_cases same : other = key
      · subst same
        rw [if_pos rfl, AList.lookup_insert]
      · rw [if_neg same, AList.lookup_insert_ne same]
        exact (get_removeAll _ _ _).trans (if_neg spared)
    · rw [AList.lookup_insert_ne different]
      have missing : map.get other = none := notMem_iff_get.mp absent
      have gone : target.get other = none := by
        by_contra present
        rw [agrees other present, if_neg different] at present
        exact present missing
      rw [gone]
      exact (get_removeAll _ _ _).trans (by rw [missing, ite_self])

end BoundedMap
