import BpfAgent.Lib.BoundedMap

/-!
# Evicting entries from a map in use

A sweep iterates over a map and notes the keys to evict, and then removes them
one at a time.  Others may store in the map in between.

The iteration promises no more than that of a hash map under concurrent writes.
It yields keys that are present, in any order and perhaps more than once; when
it ends, it has yielded those that were there at the start and that nobody has
written since.
-/

universe u v

/-- Where a sweep is.  `owed` are the keys that the iteration is still to yield
before it may end. -/
inductive Sweep (Key : Type u) where
  | collecting (owed doomed : List Key)
  | removing (doomed : List Key)

namespace Sweep

variable {Key : Type u} {Value : Type v} {capacity : Nat}

def begin (map : BoundedMap Key Value capacity) : Sweep Key := .collecting map.keys []

/-- The keys noted for eviction. -/
def doomed : Sweep Key → List Key
  | .collecting _ doomed => doomed
  | .removing doomed => doomed

/-- The keys that have been noted or may yet be. -/
def noted : Sweep Key → List Key
  | .collecting owed doomed => owed ++ doomed
  | .removing doomed => doomed

variable [DecidableEq Key] (gone : Key → Prop) [DecidablePred gone]
  {map : BoundedMap Key Value capacity} {sweep : Sweep Key} {key : Key}

/-- The iteration yields `key`. -/
def visit (map : BoundedMap Key Value capacity) (key : Key) : Sweep Key → Sweep Key
  | .collecting owed doomed =>
      if key ∈ map then
        .collecting (owed.erase key) (if gone key then doomed ++ [key] else doomed)
      else
        .collecting owed doomed
  | .removing doomed => .removing doomed

/-- Somebody stores under `key`, which the iteration may miss from now on. -/
def written (key : Key) : Sweep Key → Sweep Key
  | .collecting owed doomed => .collecting (owed.erase key) doomed
  | .removing doomed => .removing doomed

/-- End the iteration if nothing is owed, or remove the next key. -/
def proceed (map : BoundedMap Key Value capacity) :
    Sweep Key → BoundedMap Key Value capacity × Sweep Key
  | .collecting [] doomed => (map, .removing doomed)
  | .collecting (key :: owed) doomed => (map, .collecting (key :: owed) doomed)
  | .removing [] => (map, .removing [])
  | .removing (key :: doomed) => (map.remove key, .removing doomed)

/-- Only keys that are gone are noted, and all those in the map will be. -/
structure Covers (map : BoundedMap Key Value capacity) (sweep : Sweep Key) : Prop where
  onlyGone : ∀ key ∈ sweep.doomed, gone key
  covered : ∀ key ∈ map, gone key → key ∈ sweep.noted

variable {gone}

omit [DecidableEq Key] [DecidablePred gone] in
theorem Covers.begin (map : BoundedMap Key Value capacity) : Covers gone map (.begin map) where
  onlyGone _ impossible := nomatch impossible
  covered _ present _ := List.mem_append_left [] (BoundedMap.mem_keys.mpr present)

theorem Covers.visit (covers : Covers gone map sweep) (key : Key) :
    Covers gone map (sweep.visit gone map key) := by
  cases sweep with
  | removing doomed => exact covers
  | collecting owed doomed =>
      simp only [Sweep.visit]
      by_cases present : key ∈ map
      · rw [if_pos present]
        constructor
        · intro other noted
          by_cases evicted : gone key
          · rw [if_pos evicted] at noted
            rcases List.mem_append.mp noted with old | new
            · exact covers.onlyGone other old
            · rwa [List.mem_singleton.mp new]
          · rw [if_neg evicted] at noted
            exact covers.onlyGone other noted
        · intro other otherPresent otherGone
          apply List.mem_append.mpr
          by_cases same : other = key
          · right
            rw [← same, if_pos otherGone]
            exact List.mem_append_right _ (List.mem_singleton_self _)
          · rcases List.mem_append.mp (covers.covered other otherPresent otherGone) with
              owes | noted
            · exact .inl ((List.mem_erase_of_ne same).mpr owes)
            · right
              split
              · exact List.mem_append_left _ noted
              · exact noted
      · rw [if_neg present]
        exact covers

omit [DecidablePred gone] in
theorem Covers.written (covers : Covers gone map sweep) (stays : ¬gone key)
    {next : BoundedMap Key Value capacity} (stored : ∀ other ∈ next, other = key ∨ other ∈ map) :
    Covers gone next (sweep.written key) := by
  have old : ∀ other ∈ next, gone other → other ≠ key ∧ other ∈ map := by
    intro other present evicted
    have different : other ≠ key := by
      rintro rfl
      exact stays evicted
    exact ⟨different, (stored other present).resolve_left different⟩
  cases sweep with
  | removing doomed =>
      refine ⟨covers.onlyGone, ?_⟩
      intro other present evicted
      exact covers.covered other (old other present evicted).2 evicted
  | collecting owed doomed =>
      refine ⟨covers.onlyGone, ?_⟩
      intro other present evicted
      obtain ⟨different, present⟩ := old other present evicted
      rcases List.mem_append.mp (covers.covered other present evicted) with owes | noted
      · exact List.mem_append_left _ ((List.mem_erase_of_ne different).mpr owes)
      · exact List.mem_append_right _ noted

theorem mem_of_mem_proceed (present : key ∈ (sweep.proceed map).1) : key ∈ map := by
  unfold proceed at present
  split at present
  · exact present
  · exact present
  · exact present
  · exact (BoundedMap.mem_remove.mp present).2

omit [DecidablePred gone] in
theorem Covers.proceed (covers : Covers gone map sweep) :
    Covers gone (sweep.proceed map).1 (sweep.proceed map).2 := by
  cases sweep with
  | collecting owed doomed =>
      cases owed with
      | nil => exact ⟨covers.onlyGone, covers.covered⟩
      | cons head owed => exact covers
  | removing doomed =>
      cases doomed with
      | nil => exact covers
      | cons head doomed =>
          constructor
          · intro other noted
            exact covers.onlyGone other (List.mem_cons_of_mem _ noted)
          · intro other present evicted
            obtain ⟨different, present⟩ := BoundedMap.mem_remove.mp present
            exact (List.mem_cons.mp (covers.covered other present evicted)).resolve_left different

omit [DecidablePred gone] in
theorem Covers.mem_proceed (covers : Covers gone map sweep) (present : key ∈ map)
    (stays : ¬gone key) : key ∈ (sweep.proceed map).1 := by
  unfold Sweep.proceed
  split
  · exact present
  · exact present
  · exact present
  next head doomed =>
    refine BoundedMap.mem_remove.mpr ⟨?_, present⟩
    rintro rfl
    exact stays (covers.onlyGone key List.mem_cons_self)

omit [DecidableEq Key] [DecidablePred gone] in
theorem Covers.finished (covers : Covers gone map (.removing [])) (present : key ∈ map) :
    ¬gone key := by
  intro evicted
  exact absurd (covers.covered key present evicted) List.not_mem_nil

theorem foldl_visit {keys : List Key} (present : ∀ key ∈ keys, key ∈ map) (doomed : List Key) :
    keys.foldl (fun sweep key => visit gone map key sweep) (.collecting keys doomed) =
      .collecting [] (doomed ++ keys.filter fun key => decide (gone key)) := by
  induction keys generalizing doomed with
  | nil => rw [List.foldl_nil, List.filter_nil, List.append_nil]
  | cons head keys inductionHypothesis =>
      rw [List.foldl_cons, visit, if_pos (present head List.mem_cons_self), List.erase_cons_head,
        inductionHypothesis fun key member => present key (List.mem_cons_of_mem _ member)]
      by_cases evicted : gone head
      · simp [evicted]
      · simp [evicted]

end Sweep
