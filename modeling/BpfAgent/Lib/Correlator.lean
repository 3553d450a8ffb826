import BpfAgent.Lib.Correlation
import BpfAgent.Lib.Run

/-!
# Programs that measure by correlation

A program whose steps store clock readings in a map, and take them back to
measure the time in between, does so correctly on every run.  What has to be
shown of the program is only what one step does to the map.
-/

namespace Correlation

universe u v w

/-- A program that stores clock readings in a map on some of its events and
takes them back on others.  What an event does may depend on the state.  What
its map evicts is named apart from what is found in the map afterwards. -/
structure Tracker (State : Type u) (Event : Type v) (Key : Type w) [DecidableEq Key] where
  step : State → Event → State
  lookup : State → Key → Option UInt64
  action : State → Event → Action Key UInt64
  clock : Event → UInt64
  sample : State → Event → Option UInt64
  evicts : State → Event → Key → Prop
  keep : ∀ state event, action state event = .keep → lookup (step state event) = lookup state
  store : ∀ state event key value, action state event = .store key value → ∀ other,
    ¬evicts state event other →
      lookup (step state event) other = if other = key then some value else lookup state other
  lost : ∀ state event key, evicts state event key → lookup (step state event) key = none
  take : ∀ state event key, action state event = .take key → ∀ other,
    lookup (step state event) other = if other = key then none else lookup state other
  stamped : ∀ state event key value, action state event = .store key value → value = clock event
  sampled : ∀ state event, sample state event =
    ((action state event).found (lookup state)).map (Word.saturatingSub (clock event))

namespace Tracker

variable {State : Type u} {Event : Type v} {Key : Type w} [DecidableEq Key]
  (tracker : Tracker State Event Key) (initial : State) (events : List Event)

def actions (index : Nat) : Action Key UInt64 :=
  (events[index]?).elim .keep
    (tracker.action (Run.stateAt tracker.step initial events index))

def entries (index : Nat) : Key → Option UInt64 :=
  tracker.lookup (Run.stateAt tracker.step initial events index)

def clockAt (index : Nat) : UInt64 := (events[index]?).elim 0 tracker.clock

def samples (index : Nat) : Option UInt64 :=
  (events[index]?).bind (tracker.sample (Run.stateAt tracker.step initial events index))

def evicted (index : Nat) (key : Key) : Prop :=
  ∃ event, events[index]? = some event ∧
    tracker.evicts (Run.stateAt tracker.step initial events index) event key

variable {initial events}

theorem exists_of_action {index : Nat} {action : Action Key UInt64}
    (performed : tracker.actions initial events index = action) (acts : action ≠ .keep) :
    ∃ event, events[index]? = some event ∧
      tracker.action (Run.stateAt tracker.step initial events index) event = action := by
  unfold actions at performed
  cases handled : events[index]? with
  | none =>
      rw [handled] at performed
      exact absurd performed.symm acts
  | some event =>
      rw [handled] at performed
      exact ⟨event, rfl, performed⟩

theorem follows (empty : ∀ key, tracker.lookup initial key = none) :
    Follows (tracker.actions initial events) (tracker.evicted initial events)
      (tracker.entries initial events) where
  initial := empty
  keep index performed := by
    unfold entries
    cases handled : events[index]? with
    | none => rw [Run.stateAt_succ_of_none tracker.step initial handled]
    | some event =>
        rw [Run.stateAt_succ tracker.step initial handled]
        apply tracker.keep
        rwa [actions, handled] at performed
  store index key value performed other kept := by
    obtain ⟨event, handled, action⟩ := tracker.exists_of_action performed (by simp)
    unfold entries
    rw [Run.stateAt_succ tracker.step initial handled]
    exact tracker.store _ event key value action other fun lost => kept ⟨event, handled, lost⟩
  take index key performed other := by
    obtain ⟨event, handled, action⟩ := tracker.exists_of_action performed (by simp)
    unfold entries
    rw [Run.stateAt_succ tracker.step initial handled]
    exact tracker.take _ event key action other
  evicts index key evicted := by
    obtain ⟨event, handled, lost⟩ := evicted
    rw [entries, Run.stateAt_succ tracker.step initial handled]
    exact tracker.lost _ event key lost

/-- Under a clock that never goes back, the samples measure elapsed time. -/
theorem measures (empty : ∀ key, tracker.lookup initial key = none)
    (ordered : events.Pairwise fun earlier later => tracker.clock earlier ≤ tracker.clock later) :
    Measures (tracker.actions initial events) (tracker.evicted initial events)
      (tracker.clockAt events) (tracker.samples initial events) := by
  apply (tracker.follows empty).measures
  · intro index key value performed
    obtain ⟨event, handled, action⟩ := tracker.exists_of_action performed (by simp)
    rw [clockAt, handled]
    exact tracker.stamped _ event key value action
  · intro first second key before stores took
    obtain ⟨value, stored⟩ := stores
    obtain ⟨earlier, firstHandled, -⟩ := tracker.exists_of_action stored (by simp)
    obtain ⟨later, secondHandled, -⟩ := tracker.exists_of_action took (by simp)
    obtain ⟨firstInside, rfl⟩ := List.getElem?_eq_some_iff.mp firstHandled
    obtain ⟨secondInside, rfl⟩ := List.getElem?_eq_some_iff.mp secondHandled
    rw [clockAt, clockAt, firstHandled, secondHandled]
    exact List.pairwise_iff_getElem.mp ordered first second firstInside secondInside before
  · intro index
    unfold samples actions entries clockAt
    cases handled : events[index]? with
    | none => rfl
    | some event => exact tracker.sampled _ event

end Tracker

/-- A program whose events do the same in every state. -/
structure Correlator (State : Type u) (Event : Type v) (Key : Type w) [DecidableEq Key] where
  step : State → Event → State
  lookup : State → Key → Option UInt64
  action : Event → Action Key UInt64
  clock : Event → UInt64
  sample : State → Event → Option UInt64
  evicts : State → Event → Key → Prop
  keep : ∀ state event, action event = .keep → lookup (step state event) = lookup state
  store : ∀ state event key value, action event = .store key value → ∀ other,
    ¬evicts state event other →
      lookup (step state event) other = if other = key then some value else lookup state other
  lost : ∀ state event key, evicts state event key → lookup (step state event) key = none
  take : ∀ state event key, action event = .take key → ∀ other,
    lookup (step state event) other = if other = key then none else lookup state other
  stamped : ∀ event key value, action event = .store key value → value = clock event
  sampled : ∀ state event, sample state event =
    ((action event).found (lookup state)).map (Word.saturatingSub (clock event))

namespace Correlator

variable {State : Type u} {Event : Type v} {Key : Type w} [DecidableEq Key]
  (correlator : Correlator State Event Key) (initial : State) (events : List Event)

def actions (index : Nat) : Action Key UInt64 :=
  (events[index]?).elim .keep correlator.action

def clockAt (index : Nat) : UInt64 := (events[index]?).elim 0 correlator.clock

def samples (index : Nat) : Option UInt64 :=
  (events[index]?).bind (correlator.sample (Run.stateAt correlator.step initial events index))

def evicted (index : Nat) (key : Key) : Prop :=
  ∃ event, events[index]? = some event ∧
    correlator.evicts (Run.stateAt correlator.step initial events index) event key

variable {events}

theorem exists_of_action {index : Nat} {action : Action Key UInt64}
    (performed : correlator.actions events index = action) (acts : action ≠ .keep) :
    ∃ event, events[index]? = some event ∧ correlator.action event = action := by
  unfold actions at performed
  cases handled : events[index]? with
  | none =>
      rw [handled] at performed
      exact absurd performed.symm acts
  | some event =>
      rw [handled] at performed
      exact ⟨event, rfl, performed⟩

variable {initial}

def tracker : Tracker State Event Key :=
  { correlator with
    action := fun _ => correlator.action
    stamped := fun _ => correlator.stamped }

theorem measures (empty : ∀ key, correlator.lookup initial key = none)
    (ordered : events.Pairwise fun earlier later =>
      correlator.clock earlier ≤ correlator.clock later) :
    Measures (correlator.actions events) (correlator.evicted initial events)
      (correlator.clockAt events) (correlator.samples initial events) :=
  correlator.tracker.measures empty ordered

theorem clockAt_le
    (ordered : events.Pairwise fun earlier later =>
      correlator.clock earlier ≤ correlator.clock later)
    {first second : Nat} (before : first ≤ second) (inside : second < events.length) :
    correlator.clockAt events first ≤ correlator.clockAt events second := by
  rcases Nat.eq_or_lt_of_le before with same | before
  · rw [same]
    exact UInt64.le_refl _
  · rw [clockAt, clockAt, List.getElem?_eq_getElem inside,
      List.getElem?_eq_getElem (before.trans inside)]
    exact List.pairwise_iff_getElem.mp ordered first second (before.trans inside) inside before

/-- The same program with more state and further events that leave it alone. -/
def extend {Wider : Type u} {Input : Type v} (next : Wider → Input → Wider)
    (project : Wider → State) (select : Input → Option Event) (time : Input → UInt64)
    (selected : ∀ state input event, select input = some event →
      project (next state input) = correlator.step (project state) event)
    (ignored : ∀ state input, select input = none → project (next state input) = project state)
    (timed : ∀ input event, select input = some event → time input = correlator.clock event) :
    Correlator Wider Input Key where
  step := next
  lookup state := correlator.lookup (project state)
  action input := (select input).elim .keep correlator.action
  clock := time
  sample state input := (select input).bind (correlator.sample (project state))
  evicts state input key := ∃ event, select input = some event ∧
    correlator.evicts (project state) event key
  keep state input keeps := by
    cases found : select input with
    | none => rw [ignored state input found]
    | some event =>
        rw [found] at keeps
        rw [selected state input event found]
        exact correlator.keep _ event keeps
  store state input key value stores other kept := by
    cases found : select input with
    | none => simp [found] at stores
    | some event =>
        rw [found] at stores
        rw [selected state input event found]
        exact correlator.store _ event key value stores other fun lost => kept ⟨event, found, lost⟩
  lost state input key := by
    rintro ⟨event, found, lost⟩
    rw [selected state input event found]
    exact correlator.lost _ event key lost
  take state input key takes other := by
    cases found : select input with
    | none => simp [found] at takes
    | some event =>
        rw [found] at takes
        rw [selected state input event found]
        exact correlator.take _ event key takes other
  stamped input key value stores := by
    cases found : select input with
    | none => simp [found] at stores
    | some event =>
        rw [found] at stores
        rw [timed input event found]
        exact correlator.stamped event key value stores
  sampled state input := by
    cases found : select input with
    | none => rfl
    | some event =>
        rw [timed input event found]
        exact correlator.sampled _ event

end Correlator

end Correlation
