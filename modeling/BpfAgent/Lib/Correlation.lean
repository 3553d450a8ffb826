import BpfAgent.Lib.Word

/-!
# Correlating stores with the requests that consume them

A map is driven by a sequence of actions: a store writes a value under a key,
a take reads and removes it.  Which entries are evicted on the way is given from
outside.  The map holds, before each action, the values of the stores that
nothing has touched or evicted since.  So every take that finds an entry is matched with the last store of
its key, no store is matched twice, and a take misses only what was consumed or
evicted.  When the stored values are clock readings, the takes measure the time
between the two.
-/

namespace Correlation

universe u v

inductive Action (Key : Type u) (Value : Type v) where
  | keep
  | store (key : Key) (value : Value)
  | take (key : Key)

variable {Key : Type u} {Value : Type v}

/-- The action reads or writes the entry of `key`. -/
def Action.Touches (key : Key) : Action Key Value → Prop
  | .keep => False
  | .store other _ => other = key
  | .take other => other = key

def Action.Stores (key : Key) (action : Action Key Value) : Prop :=
  ∃ value, action = .store key value

def Action.found (lookup : Key → Option Value) : Action Key Value → Option Value
  | .take key => lookup key
  | _ => none

/-- The entry stored under `key` at `first` is still there before `second`:
unconsumed, not overwritten and not evicted. -/
structure Pending (actions : Nat → Action Key Value) (evicted : Nat → Key → Prop)
    (first second : Nat) (key : Key) : Prop where
  before : first < second
  stores : (actions first).Stores key
  untouched : ∀ index, first < index → index < second → ¬(actions index).Touches key
  kept : ∀ index, first ≤ index → index < second → ¬evicted index key

variable [DecidableEq Key]

/-- The maps follow the actions, and lose exactly what is evicted. -/
structure Follows (actions : Nat → Action Key Value) (evicted : Nat → Key → Prop)
    (maps : Nat → Key → Option Value) : Prop where
  initial : ∀ key, maps 0 key = none
  keep : ∀ index, actions index = .keep → maps (index + 1) = maps index
  store : ∀ index key value, actions index = .store key value → ∀ other, ¬evicted index other →
    maps (index + 1) other = if other = key then some value else maps index other
  take : ∀ index key, actions index = .take key → ∀ other,
    maps (index + 1) other = if other = key then none else maps index other
  evicts : ∀ index key, evicted index key → maps (index + 1) key = none

variable {actions : Nat → Action Key Value} {evicted : Nat → Key → Prop}
  {maps : Nat → Key → Option Value}

omit [DecidableEq Key] in
theorem Pending.shrink {first second : Nat} {key : Key}
    (pending : Pending actions evicted first (second + 1) key) (earlier : first < second) :
    Pending actions evicted first second key where
  before := earlier
  stores := pending.stores
  untouched index low high := pending.untouched index low (Nat.lt_succ_of_lt high)
  kept index low high := pending.kept index low (Nat.lt_succ_of_lt high)

omit [DecidableEq Key] in
theorem Pending.extend {first second : Nat} {key : Key}
    (pending : Pending actions evicted first second key)
    (untouched : ¬(actions second).Touches key)
    (kept : ¬evicted second key) :
    Pending actions evicted first (second + 1) key where
  before := Nat.lt_succ_of_lt pending.before
  stores := pending.stores
  untouched index low high := by
    rcases Nat.lt_succ_iff_lt_or_eq.mp high with high | equality
    · exact pending.untouched index low high
    · exact equality ▸ untouched
  kept index low high := by
    rcases Nat.lt_succ_iff_lt_or_eq.mp high with high | equality
    · exact pending.kept index low high
    · exact equality ▸ kept

omit [DecidableEq Key] in
theorem pending_succ_iff {first second : Nat} {key : Key}
    (untouched : ¬(actions second).Touches key)
    (kept : ¬evicted second key) :
    Pending actions evicted first (second + 1) key ↔ Pending actions evicted first second key := by
  constructor
  · intro pending
    rcases Nat.lt_succ_iff_lt_or_eq.mp pending.before with earlier | equality
    · exact pending.shrink earlier
    · obtain ⟨value, stored⟩ := pending.stores
      rw [← equality, stored] at untouched
      exact absurd rfl untouched
  · exact fun pending => pending.extend untouched kept

omit [DecidableEq Key] in
theorem Pending.eq_of_touches {first second : Nat} {key : Key}
    (pending : Pending actions evicted first (second + 1) key)
    (touched : (actions second).Touches key) : first = second := by
  by_contra different
  exact pending.untouched second
    (Nat.lt_of_le_of_ne (Nat.lt_succ_iff.mp pending.before) different)
    (Nat.lt_succ_self second) touched

theorem Follows.lookup_succ (follows : Follows actions evicted maps) {index : Nat} {key : Key}
    (untouched : ¬(actions index).Touches key) (kept : ¬evicted index key) :
    maps (index + 1) key = maps index key := by
  cases action : actions index with
  | keep => rw [follows.keep index action]
  | take taken =>
      rw [action] at untouched
      rw [follows.take index taken action, if_neg fun equality => untouched equality.symm]
  | store stored written =>
      rw [action] at untouched
      rw [follows.store index stored written action key kept,
        if_neg fun equality => untouched equality.symm]

/-- A touched entry that is not evicted holds what the event stored, if anything. -/
theorem Follows.lookup_succ_of_touches (follows : Follows actions evicted maps) {index : Nat}
    {key : Key} (touched : (actions index).Touches key)
    (kept : ¬evicted index key) (value : Value) :
    maps (index + 1) key = some value ↔ actions index = .store key value := by
  cases action : actions index with
  | keep =>
      rw [action] at touched
      exact touched.elim
  | take taken =>
      rw [action] at touched
      rw [follows.take index taken action, if_pos (Eq.symm touched)]
      simp
  | store stored written =>
      rw [action] at touched
      obtain rfl : stored = key := touched
      rw [follows.store index stored written action stored kept, if_pos rfl]
      simp

/-- The map holds exactly the pending stores. -/
theorem Follows.lookup_iff (follows : Follows actions evicted maps) (second : Nat) (key : Key)
    (value : Value) :
    maps second key = some value ↔
      ∃ first, Pending actions evicted first second key ∧
        actions first = .store key value := by
  induction second with
  | zero =>
      rw [follows.initial]
      refine ⟨fun impossible => by simp at impossible, ?_⟩
      rintro ⟨first, pending, -⟩
      exact absurd pending.before (Nat.not_lt_zero first)
  | succ second inductionHypothesis =>
      by_cases lost : evicted second key
      · rw [follows.evicts second key lost]
        refine ⟨fun impossible => by simp at impossible, ?_⟩
        rintro ⟨first, pending, -⟩
        exact absurd lost (pending.kept second (Nat.lt_succ_iff.mp pending.before)
          (Nat.lt_succ_self second))
      · by_cases touched : (actions second).Touches key
        · rw [follows.lookup_succ_of_touches touched lost]
          constructor
          · intro stored
            refine ⟨second, ⟨Nat.lt_succ_self second, ⟨value, stored⟩, ?_, ?_⟩, stored⟩
            · intro index low high
              omega
            · intro index low high
              obtain rfl : index = second := by omega
              exact lost
          · rintro ⟨first, pending, stored⟩
            rwa [pending.eq_of_touches touched] at stored
        · simp only [pending_succ_iff touched lost]
          rw [follows.lookup_succ touched lost, inductionHypothesis]

/-- The last store of `key` before `second`. -/
structure Latest (actions : Nat → Action Key Value) (first second : Nat) (key : Key) :
    Prop where
  before : first < second
  stores : (actions first).Stores key
  last : ∀ index, first < index → index < second → ¬(actions index).Stores key

omit [DecidableEq Key] in
theorem Action.Stores.touches {key : Key} {action : Action Key Value}
    (stores : action.Stores key) : action.Touches key := by
  obtain ⟨value, rfl⟩ := stores
  exact rfl

omit [DecidableEq Key] in
theorem Pending.latest {first second : Nat} {key : Key}
    (pending : Pending actions evicted first second key) : Latest actions first second key where
  before := pending.before
  stores := pending.stores
  last index low high stores := pending.untouched index low high stores.touches

omit [DecidableEq Key] in
theorem Latest.unique {first other second : Nat} {key : Key}
    (latest : Latest actions first second key)
    (otherLatest : Latest actions other second key) : first = other := by
  rcases Nat.lt_trichotomy first other with earlier | same | later
  · exact absurd otherLatest.stores (latest.last other earlier otherLatest.before)
  · exact same
  · exact absurd latest.stores (otherLatest.last first later latest.before)

/-- The event at `second` yields a sample and takes what was stored last at
`first`. -/
def Matched {Sample : Type} (actions : Nat → Action Key Value)
    (samples : Nat → Option Sample) (first second : Nat) : Prop :=
  samples second ≠ none ∧ ∃ key, actions second = .take key ∧ Latest actions first second key

omit [DecidableEq Key] in
theorem Matched.first_unique {Sample : Type} {samples : Nat → Option Sample}
    {first other second : Nat} (matched : Matched actions samples first second)
    (otherMatched : Matched actions samples other second) : first = other := by
  obtain ⟨-, key, took, latest⟩ := matched
  obtain ⟨-, otherKey, otherTook, otherLatest⟩ := otherMatched
  cases took.symm.trans otherTook
  exact latest.unique otherLatest

/-- The samples of a run: one for each take that finds an entry. -/
def Yields {Sample : Type} (actions : Nat → Action Key Value)
    (maps : Nat → Key → Option Value) (samples : Nat → Option Sample) : Prop :=
  ∀ index, samples index ≠ none ↔ ∃ key, actions index = .take key ∧ maps index key ≠ none

section Yields

variable {Sample : Type} {samples : Nat → Option Sample}

theorem Follows.pending_of_matched (follows : Follows actions evicted maps)
    (yields : Yields actions maps samples) {first second : Nat}
    (matched : Matched actions samples first second) :
    ∃ key, actions second = .take key ∧ Pending actions evicted first second key := by
  obtain ⟨sampled, key, took, latest⟩ := matched
  obtain ⟨otherKey, otherTook, found⟩ := (yields second).mp sampled
  cases took.symm.trans otherTook
  obtain ⟨value, lookup⟩ := Option.ne_none_iff_exists'.mp found
  obtain ⟨other, pending, -⟩ := (follows.lookup_iff second key value).mp lookup
  cases latest.unique pending.latest
  exact ⟨key, took, pending⟩

theorem Follows.matched_second_unique (follows : Follows actions evicted maps)
    (yields : Yields actions maps samples) {first second other : Nat}
    (matched : Matched actions samples first second)
    (otherMatched : Matched actions samples first other) : second = other := by
  obtain ⟨key, took, pending⟩ := follows.pending_of_matched yields matched
  obtain ⟨otherKey, otherTook, otherPending⟩ := follows.pending_of_matched yields otherMatched
  obtain ⟨value, stored⟩ := pending.stores
  obtain ⟨otherValue, otherStored⟩ := otherPending.stores
  cases stored.symm.trans otherStored
  rcases Nat.lt_trichotomy second other with earlier | same | later
  · exact absurd (by rw [took]; exact rfl)
      (otherPending.untouched second pending.before earlier)
  · exact same
  · exact absurd (by rw [otherTook]; exact rfl)
      (pending.untouched other otherPending.before later)

/-- An entry that was neither consumed nor evicted is still there. -/
theorem Follows.pending_of_unconsumed (follows : Follows actions evicted maps)
    (yields : Yields actions maps samples) {first second : Nat} {key : Key}
    (latest : Latest actions first second key)
    (unconsumed : ∀ earlier < second, ¬Matched actions samples first earlier)
    (kept : ∀ index, first ≤ index → index < second → ¬evicted index key) :
    Pending actions evicted first second key := by
  have upTo : ∀ length, first + 1 + length ≤ second →
      Pending actions evicted first (first + 1 + length) key := by
    intro length
    induction length with
    | zero =>
        intro within
        refine ⟨Nat.lt_succ_self first, latest.stores, ?_, ?_⟩
        · intro index low high
          omega
        · intro index low high
          exact kept index low (by omega)
    | succ length inductionHypothesis =>
        intro within
        have pending := inductionHypothesis (by omega)
        refine pending.extend ?_ (kept _ (by omega) (by omega))
        intro touched
        cases action : actions (first + 1 + length) with
        | keep =>
            rw [action] at touched
            exact touched
        | store stored value =>
            rw [action] at touched
            cases touched
            exact latest.last _ (by omega) (by omega) ⟨value, action⟩
        | take taken =>
            rw [action] at touched
            cases touched
            obtain ⟨value, stored⟩ := pending.stores
            have found : maps (first + 1 + length) key = some value :=
              (follows.lookup_iff _ _ _).mpr ⟨first, pending, stored⟩
            refine unconsumed (first + 1 + length) (by omega) ⟨?_, key, action, pending.latest⟩
            exact (yields _).mpr ⟨key, action, by simp [found]⟩
  have reached := upTo (second - (first + 1)) (by have := latest.before; omega)
  rwa [Nat.add_sub_of_le latest.before] at reached

end Yields

/-- The samples measure the time between each take and the last store of its
key, and miss only entries that were consumed or evicted. -/
structure Measures (actions : Nat → Action Key UInt64) (evicted : Nat → Key → Prop)
    (clock : Nat → UInt64) (samples : Nat → Option UInt64) : Prop where
  elapsed : ∀ second latency, samples second = some latency →
    ∃ first, Matched actions samples first second ∧ clock first ≤ clock second ∧
      latency.toNat = (clock second).toNat - (clock first).toNat
  takeOnce : ∀ first second other, Matched actions samples first second →
    Matched actions samples first other → second = other
  storeOnce : ∀ first other second, Matched actions samples first second →
    Matched actions samples other second → first = other
  complete : ∀ first second key, Latest actions first second key →
    actions second = .take key →
    (∀ earlier < second, ¬Matched actions samples first earlier) →
    (∀ index, first ≤ index → index < second → ¬evicted index key) →
    samples second ≠ none

omit [DecidableEq Key] in
/-- A store and a take of its key with nothing in between measure the time from
one to the other. -/
theorem Measures.of_untouched {actions : Nat → Action Key UInt64}
    {clock : Nat → UInt64}
    {samples : Nat → Option UInt64} (measures : Measures actions evicted clock samples)
    {first second : Nat} {key : Key} (before : first < second)
    (stores : (actions first).Stores key) (took : actions second = .take key)
    (untouched : ∀ index, first < index → index < second → ¬(actions index).Touches key)
    (kept : ∀ index, first ≤ index → index < second → ¬evicted index key) :
    ∃ latency, samples second = some latency ∧ clock first ≤ clock second ∧
      latency.toNat = (clock second).toNat - (clock first).toNat := by
  have latest : Latest actions first second key :=
    ⟨before, stores, fun index low high stored => untouched index low high stored.touches⟩
  have unconsumed : ∀ earlier < second, ¬Matched actions samples first earlier := by
    rintro earlier high ⟨-, other, otherTook, otherLatest⟩
    obtain ⟨value, stored⟩ := stores
    obtain ⟨otherValue, otherStored⟩ := otherLatest.stores
    cases stored.symm.trans otherStored
    exact untouched earlier otherLatest.before high (by rw [otherTook]; exact rfl)
  have sampled := measures.complete first second key latest took unconsumed kept
  obtain ⟨latency, sample⟩ := Option.ne_none_iff_exists'.mp sampled
  obtain ⟨other, matched, inOrder, elapsed⟩ := measures.elapsed second latency sample
  cases measures.storeOnce first other second ⟨sampled, key, took, latest⟩ matched
  exact ⟨latency, sample, inOrder, elapsed⟩

omit [DecidableEq Key] in
/-- A take measures at most the time since any store of its key before it. -/
theorem Measures.sample_le {actions : Nat → Action Key UInt64}
    {clock : Nat → UInt64}
    {samples : Nat → Option UInt64} (measures : Measures actions evicted clock samples)
    {first second : Nat} {key : Key} {latency : UInt64} (before : first < second)
    (stores : (actions first).Stores key) (took : actions second = .take key)
    (inOrder : ∀ other, first ≤ other → other < second → clock first ≤ clock other)
    (sample : samples second = some latency) :
    latency.toNat ≤ (clock second).toNat - (clock first).toNat := by
  obtain ⟨other, ⟨-, otherKey, otherTook, latest⟩, -, elapsed⟩ :=
    measures.elapsed second latency sample
  cases took.symm.trans otherTook
  have later : first ≤ other := by
    by_contra earlier
    exact latest.last first (by omega) before stores
  have clocks := UInt64.le_iff_toNat_le.mp (inOrder other later latest.before)
  omega

/-- Takes that subtract the clock reading they find measure the elapsed time. -/
theorem Follows.measures {actions : Nat → Action Key UInt64}
    {maps : Nat → Key → Option UInt64} {clock : Nat → UInt64}
    {samples : Nat → Option UInt64} (follows : Follows actions evicted maps)
    (stamped : ∀ index key value, actions index = .store key value → value = clock index)
    (inOrder : ∀ first second key, first < second → (actions first).Stores key →
      actions second = .take key → clock first ≤ clock second)
    (sampled : ∀ index, samples index =
      ((actions index).found (maps index)).map (Word.saturatingSub (clock index))) :
    Measures actions evicted clock samples := by
  have yields : Yields actions maps samples := by
    intro index
    rw [sampled]
    cases actions index <;> simp [Action.found]
  refine ⟨?_, fun _ _ _ => follows.matched_second_unique yields,
    fun _ _ _ => Matched.first_unique, ?_⟩
  · intro second latency sample
    obtain ⟨key, took, found⟩ := (yields second).mp (by simp [sample])
    obtain ⟨value, lookup⟩ := Option.ne_none_iff_exists'.mp found
    obtain ⟨first, pending, stored⟩ := (follows.lookup_iff second key value).mp lookup
    refine ⟨first, ⟨by simp [sample], key, took, pending.latest⟩,
      inOrder first second key pending.before pending.stores took, ?_⟩
    rw [sampled, took] at sample
    simp only [Action.found, lookup, Option.map_some, Option.some.injEq] at sample
    rw [← sample, Word.toNat_saturatingSub, stamped first key value stored]
  · intro first second key latest took unconsumed kept
    have pending := follows.pending_of_unconsumed yields latest unconsumed kept
    obtain ⟨value, stored⟩ := pending.stores
    apply (yields second).mpr
    refine ⟨key, took, ?_⟩
    rw [(follows.lookup_iff second key value).mpr ⟨first, pending, stored⟩]
    exact Option.some_ne_none value

end Correlation
