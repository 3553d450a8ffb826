import BpfAgent.Lib.BoundedMap
import BpfAgent.Lib.Table
import BpfAgent.Lib.Word
import BpfAgent.Syscall

/-!
# MY_PROGRAM: calls by process

The template of a program: a tracepoint counts the calls of every process, and
a tick copies the counters into gauges.  An entry that cannot be read ends the
tick; the gauges behind it keep what an earlier tick has shown.
-/

namespace BpfAgent.MyProgram

/-- COUNTERS: calls by process since the program was loaded. -/
abbrev Counters := BoundedMap UInt32 UInt64 1024

def tryMyHandler (counters : Counters) (pidTgid : UInt64) : Counters :=
  let pid := pidOf pidTgid
  match counters.get pid with
  | some count => counters.insert pid (count + 1)
  | none => counters.insert pid 1

abbrev EventsPerPid := Table String Int64

/-- `entries` is what iterating over COUNTERS yields. -/
def displayMetrics (eventsPerPid : EventsPerPid) :
    List (Except String (UInt32 × UInt64)) → EventsPerPid × Except String Unit
  | [] => (eventsPerPid, .ok ())
  | .error failure :: _ => (eventsPerPid, .error ("failed to iterate COUNTERS: " ++ failure))
  | .ok (pid, count) :: rest =>
      displayMetrics (eventsPerPid.insert (toString pid) count.toInt64) rest

inductive Event where
  | openat (pidTgid : UInt64)
  | tick (reads : List (Except String UInt32))

structure State where
  counters : Counters
  eventsPerPid : EventsPerPid

def State.loaded : State := ⟨.empty, ∅⟩

/-- A key without a value is skipped. -/
def entryOf (counters : Counters) : Except String UInt32 →
    Option (Except String (UInt32 × UInt64))
  | .error failure => some (.error failure)
  | .ok pid => (counters.get pid).map fun count => .ok (pid, count)

def step (state : State) : Event → State
  | .openat pidTgid => { state with counters := tryMyHandler state.counters pidTgid }
  | .tick reads =>
      { state with
        eventsPerPid :=
          (displayMetrics state.eventsPerPid (reads.filterMap (entryOf state.counters))).1 }

def stateAfter (events : List Event) : State := events.foldl step State.loaded

def gauge (state : State) (pid : UInt32) : Option Int64 :=
  state.eventsPerPid.lookup (toString pid)

def Event.isCallOf (pid : UInt32) : Event → Bool
  | .openat pidTgid => pidOf pidTgid = pid
  | .tick _ => false

def callsOf (pid : UInt32) (events : List Event) : Nat := events.countP (Event.isCallOf pid)

/-- The processes a tick gets to. -/
def reached : List (Except String UInt32) → List UInt32
  | .ok pid :: rest => pid :: reached rest
  | _ => []

section Counting

variable {counters : Counters} {pid : UInt32}

theorem tryMyHandler_eq (counters : Counters) (pidTgid : UInt64) :
    tryMyHandler counters pidTgid =
      counters.insert (pidOf pidTgid) ((counters.get (pidOf pidTgid)).getD 0 + 1) := by
  cases found : counters.get (pidOf pidTgid) <;> simp [tryMyHandler, found]

/-- A counter has counted every call; without one, there was no call or no room. -/
def Counted (counters : Counters) (pid : UInt32) (calls : Nat) : Prop :=
  counters.get pid = some (UInt64.ofNat calls) ∨
    counters.get pid = none ∧ (calls = 0 ∨ counters.size = 1024)

theorem Counted.openat {calls : Nat} (counted : Counted counters pid calls) (pidTgid : UInt64) :
    Counted (tryMyHandler counters pidTgid) pid
      (calls + if pidOf pidTgid = pid then 1 else 0) := by
  have grows := BoundedMap.size_le_size_insert counters (pidOf pidTgid)
    ((counters.get (pidOf pidTgid)).getD 0 + 1)
  have bounded : (tryMyHandler counters pidTgid).size ≤ 1024 :=
    (tryMyHandler counters pidTgid).bounded
  rw [← tryMyHandler_eq] at grows
  by_cases own : pidOf pidTgid = pid
  · subst own
    rw [if_pos rfl]
    by_cases room : counters.Room (pidOf pidTgid)
    · have first : (counters.get (pidOf pidTgid)).getD 0 = UInt64.ofNat calls := by
        rcases counted with present | ⟨missing, never | full⟩
        · rw [present, Option.getD_some]
        · rw [missing, never]
          rfl
        · rcases room with present | space
          · exact absurd present (BoundedMap.notMem_iff_get.mpr missing)
          · omega
      refine .inl ?_
      rw [tryMyHandler_eq, BoundedMap.get_insert_of_room room, if_pos rfl, first,
        UInt64.ofNat_add]
      rfl
    · have missing := BoundedMap.notMem_iff_get.mp fun present => room (.inl present)
      have full : ¬counters.size < 1024 := fun space => room (.inr space)
      refine .inr ⟨?_, .inr (by omega)⟩
      rw [tryMyHandler_eq, BoundedMap.insert_of_not_room room, missing]
  · rw [if_neg own, Nat.add_zero]
    have same : (tryMyHandler counters pidTgid).get pid = counters.get pid := by
      rw [tryMyHandler_eq, BoundedMap.get_insert_ne _ (Ne.symm own)]
    rcases counted with present | ⟨missing, never | full⟩
    · exact .inl (same.trans present)
    · exact .inr ⟨same.trans missing, .inl never⟩
    · exact .inr ⟨same.trans missing, .inr (by omega)⟩

end Counting

theorem stateAfter_snoc (events : List Event) (event : Event) :
    stateAfter (events ++ [event]) = step (stateAfter events) event := by
  rw [stateAfter, List.foldl_append]
  rfl

theorem counted_run (pid : UInt32) (events : List Event) :
    Counted (stateAfter events).counters pid (callsOf pid events) := by
  induction events using List.reverseRecOn with
  | nil => exact .inr ⟨rfl, .inl rfl⟩
  | append_singleton events event inductionHypothesis =>
      rw [stateAfter_snoc, callsOf, List.countP_append, List.countP_singleton]
      cases event with
      | openat pidTgid =>
          have next := inductionHypothesis.openat pidTgid
          simpa only [callsOf, step, Event.isCallOf, decide_eq_true_eq] using next
      | tick reads => exact inductionHypothesis

/-- A tick shows the counters it gets to and leaves the other gauges alone. -/
theorem lookup_displayMetrics (counters : Counters) (reads : List (Except String UInt32))
    (eventsPerPid : EventsPerPid) (pid : UInt32) :
    (displayMetrics eventsPerPid (reads.filterMap (entryOf counters))).1.lookup (toString pid) =
      ((counters.get pid).filter fun _ => pid ∈ reached reads).elim
        (eventsPerPid.lookup (toString pid)) fun count => some count.toInt64 := by
  induction reads generalizing eventsPerPid with
  | nil => cases counters.get pid <;> simp [displayMetrics, reached]
  | cons read reads inductionHypothesis =>
      cases read with
      | error failure =>
          cases counters.get pid <;> simp [entryOf, displayMetrics, reached]
      | ok own =>
          cases found : counters.get own with
          | none =>
              rw [List.filterMap_cons_none (by simp [entryOf, found]), inductionHypothesis]
              by_cases same : pid = own
              · simp [same, found]
              · simp [reached, same]
          | some count =>
              rw [List.filterMap_cons_some (by rw [entryOf, found, Option.map_some]),
                displayMetrics, inductionHypothesis, Table.lookup_insert_ite]
              by_cases same : pid = own
              · subst same
                by_cases again : pid ∈ reached reads <;> simp [reached, found, again, Option.filter]
              · have other : toString pid ≠ toString own := fun equal =>
                  same (Word.toString_inj equal)
                simp [reached, same, other]

/-- What the gauge of a process shows after a run. -/
structure Shows (pid : UInt32) (events : List Event) : Prop where
  /-- The number of calls when a tick last got to the counter of the process. -/
  latest : ∀ before reads after, events = before ++ .tick reads :: after → pid ∈ reached reads →
    (∀ later, Event.tick later ∈ after → pid ∉ reached later) →
    gauge (stateAfter events) pid =
      if pid ∈ (stateAfter before).counters then some (UInt64.ofNat (callsOf pid before)).toInt64
      else none
  /-- Only a process that finds 1024 others in its way has calls and no counter. -/
  uncounted : pid ∉ (stateAfter events).counters →
    callsOf pid events = 0 ∨ (stateAfter events).counters.size = 1024
  never : (∀ reads, Event.tick reads ∈ events → pid ∉ reached reads) →
    gauge (stateAfter events) pid = none

theorem gauge_tick (state : State) (reads : List (Except String UInt32)) (pid : UInt32) :
    gauge (step state (.tick reads)) pid =
      ((state.counters.get pid).filter fun _ => pid ∈ reached reads).elim (gauge state pid)
        fun count => some count.toInt64 :=
  lookup_displayMetrics state.counters reads state.eventsPerPid pid

theorem gauge_foldl {pid : UInt32} {events : List Event}
    (unread : ∀ reads, Event.tick reads ∈ events → pid ∉ reached reads) (state : State) :
    gauge (events.foldl step state) pid = gauge state pid := by
  induction events generalizing state with
  | nil => rfl
  | cons event events inductionHypothesis =>
      rw [List.foldl_cons,
        inductionHypothesis fun reads member => unread reads (List.mem_cons_of_mem _ member)]
      cases event with
      | openat pidTgid => rfl
      | tick reads =>
          rw [gauge_tick]
          have missed := unread reads List.mem_cons_self
          cases state.counters.get pid <;> simp [missed, Option.filter]

theorem mem_tryMyHandler {counters : Counters} {pid : UInt32} (present : pid ∈ counters)
    (pidTgid : UInt64) : pid ∈ tryMyHandler counters pidTgid := by
  rw [tryMyHandler_eq]
  exact BoundedMap.mem_insert_of_mem _ present

theorem mem_of_gauge {pid : UInt32} {events : List Event}
    (shown : gauge (stateAfter events) pid ≠ none) : pid ∈ (stateAfter events).counters := by
  induction events using List.reverseRecOn with
  | nil => exact absurd rfl shown
  | append_singleton events event inductionHypothesis =>
      rw [stateAfter_snoc] at shown ⊢
      cases event with
      | openat pidTgid => exact mem_tryMyHandler (inductionHypothesis shown) pidTgid
      | tick reads =>
          by_contra missing
          apply shown
          have absent : (stateAfter events).counters.get pid = none :=
            BoundedMap.notMem_iff_get.mp missing
          rw [gauge_tick, absent]
          by_contra earlier
          exact missing (inductionHypothesis earlier)

/-- Whatever ticks can read, every gauge shows the calls of its process at the
last tick that got to its counter. -/
theorem shows_run (pid : UInt32) (events : List Event) : Shows pid events := by
  refine ⟨?_, ?_, ?_⟩
  · rintro before reads after rfl read unread
    rw [stateAfter, List.foldl_append, List.foldl_cons, gauge_foldl unread]
    change gauge (step (stateAfter before) (.tick reads)) pid = _
    rw [gauge_tick]
    rcases counted_run pid before with present | ⟨missing, -⟩
    · rw [present, if_pos (BoundedMap.mem_iff_get.mpr ⟨_, present⟩)]
      simp [read, Option.filter]
    · have absent := BoundedMap.notMem_iff_get.mpr missing
      rw [missing, if_neg absent]
      by_contra shown
      exact absent (mem_of_gauge shown)
  · intro missing
    rcases counted_run pid events with present | ⟨-, reason⟩
    · exact absurd (BoundedMap.mem_iff_get.mpr ⟨_, present⟩) missing
    · exact reason
  · intro unread
    exact gauge_foldl unread State.loaded

end BpfAgent.MyProgram
