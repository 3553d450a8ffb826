import BpfAgent.Uprobe.Program
import Mathlib.Algebra.Order.BigOperators.Group.List
import Mathlib.Algebra.Order.Group.Nat

/-!
# UPROBE: every call is counted once

The increments a process has received, under whatever command names, add up to
the count of its record when a tick last read it.  A tick that cannot read the
record loses nothing: the next one that can makes up for it.
-/

namespace BpfAgent.Uprobe

inductive Event where
  | call (call : TracedCall)
  /-- A tick, with what iterating over CALLS yields: process ids or failures. -/
  | tick (reads : List (Option UInt32))

structure Agent where
  maps : Maps
  program : Program
  increments : List Increment

def Agent.loaded (stringArgMap : BoundedMap UInt32 UInt32 1) : Agent :=
  ⟨⟨.empty, stringArgMap⟩, .new true, []⟩

def entryOf (maps : Maps) (read : Option UInt32) : Option (UInt32 × CallRecord) := do
  let pid ← read
  let record ← maps.calls.get pid
  return (pid, record)

def Agent.step (agent : Agent) : Event → Agent
  | .call call => { agent with maps := traceCallHandler agent.maps call }
  | .tick reads =>
      let (program, increments) := displayMetrics agent.program (reads.map (entryOf agent.maps))
      { agent with program, increments := agent.increments ++ increments }

def stateAfter (stringArgMap : BoundedMap UInt32 UInt32 1) (events : List Event) : Agent :=
  events.foldl Agent.step (.loaded stringArgMap)

def Event.isCallOf (pid : UInt32) : Event → Bool
  | .call traced => pidOf traced.pidTgid = pid
  | .tick _ => false

def callsOf (pid : UInt32) (events : List Event) : Nat := events.countP (Event.isCallOf pid)

def Increment.belongsTo (pid : UInt32) (increment : Increment) : Bool := increment.pid = pid

def incrementsOf (pid : UInt32) (agent : Agent) : List Increment :=
  agent.increments.filter (Increment.belongsTo pid)

/-- The sum over all series that were written for a process. -/
def writtenTotal (pid : UInt32) (agent : Agent) : Nat :=
  ∑ label ∈ ((incrementsOf pid agent).map Increment.pname).toFinset,
    ((agent.program.callsTotal.lookup label).getD 0).toNat

/-- No series is written for two processes. -/
def Separate (agent : Agent) : Prop :=
  ∀ first ∈ agent.increments, ∀ second ∈ agent.increments,
    first.pname = second.pname → first.pid = second.pid

/-- The record counts the calls of its process, which has none only if it made
no call or found the map full. -/
def Counted (pid : UInt32) (calls : Nat) (maps : Maps) : Prop :=
  (∃ record, maps.calls.get pid = some record ∧ record.count = UInt64.ofNat calls) ∨
    maps.calls.get pid = none ∧ (calls = 0 ∨ 1024 ≤ maps.calls.size)

theorem traceCallHandler_get_ne {maps : Maps} {call : TracedCall} {pid : UInt32}
    (other : pid ≠ pidOf call.pidTgid) :
    (traceCallHandler maps call).calls.get pid = maps.calls.get pid := by
  unfold traceCallHandler
  dsimp only
  split
  · dsimp only
    split
    · exact BoundedMap.get_insert_ne _ other _
    · rfl
  · rw [BoundedMap.get_insert_ne _ other]
    split
    · exact BoundedMap.get_insert_ne _ other _
    · rfl

theorem traceCallHandler_size (maps : Maps) (call : TracedCall) :
    maps.calls.size ≤ (traceCallHandler maps call).calls.size := by
  have created : ∀ pid, maps.calls.size ≤
      (if (maps.calls.get pid).isNone then maps.calls.insert pid .zeroed
        else maps.calls).size := by
    intro pid
    split
    · exact BoundedMap.size_le_size_insert _ _ _
    · exact Nat.le_refl _
  unfold traceCallHandler
  dsimp only
  split
  · exact created _
  · exact (created _).trans (BoundedMap.size_le_size_insert _ _ _)

theorem traceCallHandler_get_own (maps : Maps) (call : TracedCall) :
    (traceCallHandler maps call).calls.get (pidOf call.pidTgid) =
      if maps.calls.Room (pidOf call.pidTgid) then
        some (((maps.calls.get (pidOf call.pidTgid)).getD .zeroed).update
          ((maps.stringArgMap.get stringArgKey).getD 0) call)
      else
        none := by
  split
  next room =>
    cases found : maps.calls.get (pidOf call.pidTgid) with
    | some record => simp [traceCallHandler, found, BoundedMap.get_insert_of_room room]
    | none =>
        have created := BoundedMap.get_insert_of_room room CallRecord.zeroed (pidOf call.pidTgid)
        rw [if_pos rfl] at created
        have again : (maps.calls.insert (pidOf call.pidTgid) .zeroed).Room (pidOf call.pidTgid) :=
          .inl (BoundedMap.mem_iff_get.mpr ⟨_, created⟩)
        simp [traceCallHandler, found, created, BoundedMap.get_insert_of_room again]
  next full =>
    have missing : maps.calls.get (pidOf call.pidTgid) = none :=
      BoundedMap.notMem_iff_get.mp fun present => full (.inl present)
    simp [traceCallHandler, missing, BoundedMap.insert_of_not_room full]

theorem traceCallHandler_of_present {maps : Maps} {call : TracedCall} {record : CallRecord}
    (found : maps.calls.get (pidOf call.pidTgid) = some record) :
    ∃ next, (traceCallHandler maps call).calls.get (pidOf call.pidTgid) = some next ∧
      next.count = record.count + 1 := by
  have room : maps.calls.Room (pidOf call.pidTgid) :=
    .inl (BoundedMap.mem_iff_get.mpr ⟨record, found⟩)
  rw [traceCallHandler_get_own, if_pos room, found]
  exact ⟨_, rfl, rfl⟩

theorem traceCallHandler_of_room {maps : Maps} {call : TracedCall}
    (missing : maps.calls.get (pidOf call.pidTgid) = none) (space : maps.calls.size < 1024) :
    ∃ next, (traceCallHandler maps call).calls.get (pidOf call.pidTgid) = some next ∧
      next.count = 1 := by
  have room : maps.calls.Room (pidOf call.pidTgid) := .inr space
  rw [traceCallHandler_get_own, if_pos room, missing]
  exact ⟨_, rfl, rfl⟩

theorem traceCallHandler_of_full {maps : Maps} {call : TracedCall}
    (missing : maps.calls.get (pidOf call.pidTgid) = none) (full : 1024 ≤ maps.calls.size) :
    (traceCallHandler maps call).calls = maps.calls := by
  have noRoom : ¬maps.calls.Room (pidOf call.pidTgid) := by
    rintro (present | space)
    · exact BoundedMap.notMem_iff_get.mpr missing present
    · omega
  simp [traceCallHandler, missing, BoundedMap.insert_of_not_room noRoom]

theorem Counted.call {maps : Maps} {pid : UInt32} {calls : Nat} (counted : Counted pid calls maps)
    (call : TracedCall) :
    Counted pid (calls + if pidOf call.pidTgid = pid then 1 else 0)
      (traceCallHandler maps call) := by
  by_cases own : pidOf call.pidTgid = pid
  · subst own
    rw [if_pos rfl]
    rcases counted with ⟨record, found, count⟩ | ⟨missing, never | full⟩
    · obtain ⟨next, stored, counts⟩ := traceCallHandler_of_present found
      exact .inl ⟨next, stored, by rw [counts, count, UInt64.ofNat_add]; rfl⟩
    · subst never
      by_cases space : maps.calls.size < 1024
      · obtain ⟨next, stored, counts⟩ := traceCallHandler_of_room missing space
        exact .inl ⟨next, stored, counts⟩
      · rw [Nat.not_lt] at space
        have unchanged := traceCallHandler_of_full missing space
        exact .inr ⟨by rw [unchanged, missing], .inr (by rw [unchanged]; exact space)⟩
    · have unchanged := traceCallHandler_of_full missing full
      exact .inr ⟨by rw [unchanged, missing], .inr (by rw [unchanged]; exact full)⟩
  · rw [if_neg own, Nat.add_zero]
    have same : (traceCallHandler maps call).calls.get pid = maps.calls.get pid :=
      traceCallHandler_get_ne (Ne.symm own)
    rcases counted with ⟨record, found, count⟩ | ⟨missing, never | full⟩
    · exact .inl ⟨record, same.trans found, count⟩
    · exact .inr ⟨same.trans missing, .inl never⟩
    · exact .inr ⟨same.trans missing, .inr (full.trans (traceCallHandler_size maps call))⟩

theorem stateAfter_snoc (stringArgMap : BoundedMap UInt32 UInt32 1) (events : List Event)
    (event : Event) :
    stateAfter stringArgMap (events ++ [event]) = (stateAfter stringArgMap events).step event := by
  rw [stateAfter, List.foldl_append]
  rfl

theorem callsOf_snoc (pid : UInt32) (events : List Event) (event : Event) :
    callsOf pid (events ++ [event]) =
      callsOf pid events + if event.isCallOf pid then 1 else 0 := by
  rw [callsOf, List.countP_append, List.countP_singleton]
  rfl

theorem counted_run (stringArgMap : BoundedMap UInt32 UInt32 1) (pid : UInt32)
    (events : List Event) :
    Counted pid (callsOf pid events) (stateAfter stringArgMap events).maps := by
  induction events using List.reverseRecOn with
  | nil => exact .inr ⟨rfl, .inl rfl⟩
  | append_singleton events event inductionHypothesis =>
      rw [stateAfter_snoc, callsOf_snoc]
      cases event with
      | call call =>
          have next := inductionHypothesis.call call
          simpa only [Agent.step, Event.isCallOf, decide_eq_true_eq] using next
      | tick reads => exact inductionHypothesis

/-- Series and increments agree, and every increment is labelled with its process. -/
structure Booked (program : Program) (increments : List Increment) : Prop where
  series : ∀ label, (program.callsTotal.lookup label).getD 0 =
    ((increments.filter fun increment => increment.pname = label).map Increment.delta).sum
  labels : ∀ increment ∈ increments, ∃ name, increment.pname = pidLabel name increment.pid

theorem Booked.new (enabled : Bool) : Booked (.new enabled) [] := by
  refine ⟨?_, ?_⟩
  · intro label
    simp [Program.new]
  · intro increment impossible
    cases impossible

theorem Booked.add {program : Program} {increments : List Increment}
    (booked : Booked program increments) (lastCounts : Table UInt32 UInt64) (pid : UInt32)
    (record : CallRecord) (delta : UInt64) :
    Booked
      { program with
        lastCounts
        callsTotal := incBy program.callsTotal (pname pid record) delta }
      (increments ++ [⟨pid, pname pid record, delta⟩]) := by
  constructor
  · intro label
    simp only [incBy, Table.lookup_insert_ite, List.filter_append, List.map_append,
      List.sum_append, ← booked.series label]
    by_cases same : label = pname pid record
    · subst same
      simp
    · simp [same, Ne.symm same]
  · intro increment member
    rcases List.mem_append.mp member with earlier | latest
    · exact booked.labels increment earlier
    · rw [List.mem_singleton.mp latest]
      exact ⟨_, rfl⟩

theorem Booked.report {state : Program × List Increment} (booked : Booked state.1 state.2)
    (entry : Option (UInt32 × CallRecord)) :
    Booked (reportEntry state entry).1 (reportEntry state entry).2 := by
  cases entry with
  | none => exact booked
  | some entry =>
      unfold reportEntry
      dsimp only
      split
      · exact ⟨booked.series, booked.labels⟩
      · exact booked.add _ _ _ _

def amount (increments : List Increment) : Nat :=
  (increments.map fun increment => increment.delta.toNat).sum

/-- The increments of a process add up to the count seen last, which is not
beyond the calls it has made. -/
structure Settled (pid : UInt32) (calls : Nat) (state : Program × List Increment) : Prop where
  total : amount (state.2.filter (Increment.belongsTo pid)) =
    ((state.1.lastCounts.lookup pid).getD 0).toNat
  bounded : ((state.1.lastCounts.lookup pid).getD 0).toNat ≤ calls

section Report

variable {pid : UInt32} {state : Program × List Increment}

theorem reportEntry_lastCounts (state : Program × List Increment) (pid other : UInt32)
    (record : CallRecord) :
    (reportEntry state (some (pid, record))).1.lastCounts.lookup other =
      if other = pid then some record.count else state.1.lastCounts.lookup other := by
  unfold reportEntry
  dsimp only
  split <;> exact Table.lookup_insert_ite _ _ _ _

theorem reportEntry_other {entry : Option (UInt32 × CallRecord)}
    (other : ∀ record, entry ≠ some (pid, record)) :
    (reportEntry state entry).1.lastCounts.lookup pid = state.1.lastCounts.lookup pid ∧
      (reportEntry state entry).2.filter (Increment.belongsTo pid) =
        state.2.filter (Increment.belongsTo pid) := by
  cases entry with
  | none => exact ⟨rfl, rfl⟩
  | some entry =>
      obtain ⟨own, record⟩ := entry
      have different : pid ≠ own := by
        rintro rfl
        exact other record rfl
      refine ⟨by rw [reportEntry_lastCounts, if_neg different], ?_⟩
      unfold reportEntry
      dsimp only
      split
      · rfl
      · simp [Increment.belongsTo, Ne.symm different]

theorem reportEntry_own (record : CallRecord) :
    amount ((reportEntry state (some (pid, record))).2.filter (Increment.belongsTo pid)) =
      amount (state.2.filter (Increment.belongsTo pid)) +
        (record.count.toNat - ((state.1.lastCounts.lookup pid).getD 0).toNat) := by
  rw [← Word.toNat_saturatingSub]
  unfold reportEntry
  dsimp only
  split
  next quiet => rw [quiet, UInt64.toNat_zero, Nat.add_zero]
  next => simp [amount, Increment.belongsTo]

theorem Settled.report {calls : Nat} (settled : Settled pid calls state)
    {entry : Option (UInt32 × CallRecord)}
    (current : ∀ record, entry = some (pid, record) → record.count.toNat = calls) :
    Settled pid calls (reportEntry state entry) := by
  by_cases own : ∃ record, entry = some (pid, record)
  · obtain ⟨record, rfl⟩ := own
    have count := current record rfl
    have total := settled.total
    have bounded := settled.bounded
    constructor
    · rw [reportEntry_own, reportEntry_lastCounts, if_pos rfl, Option.getD_some]
      omega
    · rw [reportEntry_lastCounts, if_pos rfl, Option.getD_some]
      omega
  · obtain ⟨lookup, filtered⟩ := @reportEntry_other pid state entry
      fun record equality => own ⟨record, equality⟩
    exact ⟨by rw [lookup, filtered, settled.total], by rw [lookup]; exact settled.bounded⟩

end Report

theorem reportEntry_carries (program : Program) (first second : List Increment)
    (entry : Option (UInt32 × CallRecord)) :
    reportEntry (program, first ++ second) entry =
      ((reportEntry (program, second) entry).1,
        first ++ (reportEntry (program, second) entry).2) := by
  cases entry with
  | none => rfl
  | some entry =>
      unfold reportEntry
      dsimp only
      split
      · rfl
      · rw [List.append_assoc]

theorem foldl_reportEntry_carries (entries : List (Option (UInt32 × CallRecord)))
    (program : Program) (first second : List Increment) :
    entries.foldl reportEntry (program, first ++ second) =
      ((entries.foldl reportEntry (program, second)).1,
        first ++ (entries.foldl reportEntry (program, second)).2) := by
  induction entries generalizing program second with
  | nil => rfl
  | cons entry entries inductionHypothesis =>
      rw [List.foldl_cons, List.foldl_cons, reportEntry_carries, inductionHypothesis]

def Agent.ledger (agent : Agent) : Program × List Increment :=
  (agent.program, agent.increments)

theorem step_tick {agent : Agent} (enabled : agent.program.enabled = true)
    (reads : List (Option UInt32)) :
    (agent.step (.tick reads)).ledger =
      (reads.map (entryOf agent.maps)).foldl reportEntry agent.ledger := by
  have carried := foldl_reportEntry_carries (reads.map (entryOf agent.maps)) agent.program
    agent.increments []
  rw [List.append_nil] at carried
  rw [Agent.ledger, Agent.ledger, carried, Agent.step, displayMetrics, if_pos enabled]

theorem reportEntry_enabled (state : Program × List Increment)
    (entry : Option (UInt32 × CallRecord)) :
    (reportEntry state entry).1.enabled = state.1.enabled := by
  cases entry with
  | none => rfl
  | some entry =>
      unfold reportEntry
      dsimp only
      split <;> rfl

theorem foldl_reportEntry_invariant (invariant : Program × List Increment → Prop)
    {entries : List (Option (UInt32 × CallRecord))}
    (preserved : ∀ state, ∀ entry ∈ entries, invariant state → invariant (reportEntry state entry))
    {state : Program × List Increment} (start : invariant state) :
    invariant (entries.foldl reportEntry state) := by
  induction entries generalizing state with
  | nil => exact start
  | cons entry entries inductionHypothesis =>
      apply inductionHypothesis
      · intro state later member
        exact preserved state later (List.mem_cons_of_mem _ member)
      · exact preserved state entry List.mem_cons_self start

theorem entryOf_eq_some_iff {maps : Maps} {read : Option UInt32} {pid : UInt32}
    {record : CallRecord} :
    entryOf maps read = some (pid, record) ↔
      read = some pid ∧ maps.calls.get pid = some record := by
  cases read with
  | none => simp [entryOf]
  | some own =>
      cases found : maps.calls.get own with
      | none =>
          simp only [entryOf, Option.bind_eq_bind, Option.bind_some, found, Option.bind_none]
          constructor
          · intro impossible
            cases impossible
          · rintro ⟨same, present⟩
            cases same
            rw [found] at present
            cases present
      | some current =>
          simp only [entryOf, Option.bind_eq_bind, Option.bind_some, found, Option.pure_def,
            Option.some.injEq, Prod.mk.injEq]
          constructor
          · rintro ⟨rfl, rfl⟩
            exact ⟨rfl, found⟩
          · rintro ⟨rfl, present⟩
            rw [found] at present
            exact ⟨rfl, Option.some.inj present⟩

section Runs

variable (stringArgMap : BoundedMap UInt32 UInt32 1) {pid : UInt32}

theorem enabled_run (events : List Event) :
    (stateAfter stringArgMap events).program.enabled = true := by
  induction events using List.reverseRecOn with
  | nil => rfl
  | append_singleton events event inductionHypothesis =>
      rw [stateAfter_snoc]
      cases event with
      | call call => exact inductionHypothesis
      | tick reads =>
          have ledger := congrArg (fun state => state.1.enabled)
            (step_tick inductionHypothesis reads)
          refine ledger.trans ?_
          apply foldl_reportEntry_invariant (fun state => state.1.enabled = true)
          · intro state entry _ enabled
            rw [reportEntry_enabled, enabled]
          · exact inductionHypothesis

theorem booked_run (events : List Event) :
    Booked (stateAfter stringArgMap events).program (stateAfter stringArgMap events).increments := by
  induction events using List.reverseRecOn with
  | nil => exact .new true
  | append_singleton events event inductionHypothesis =>
      rw [stateAfter_snoc]
      cases event with
      | call call => exact inductionHypothesis
      | tick reads =>
          have booked : Booked ((stateAfter stringArgMap events).step (.tick reads)).ledger.1
              ((stateAfter stringArgMap events).step (.tick reads)).ledger.2 := by
            rw [step_tick (enabled_run stringArgMap events)]
            apply foldl_reportEntry_invariant (fun state => Booked state.1 state.2)
            · intro state entry _ booked
              exact booked.report entry
            · exact inductionHypothesis
          exact booked

theorem count_of_read {events : List Event} (fits : callsOf pid events < 2 ^ 64)
    {record : CallRecord}
    (found : (stateAfter stringArgMap events).maps.calls.get pid = some record) :
    record.count.toNat = callsOf pid events := by
  rcases counted_run stringArgMap pid events with ⟨current, same, count⟩ | ⟨missing, -⟩
  · cases found.symm.trans same
    rw [count, UInt64.toNat_ofNat', Nat.mod_eq_of_lt fits]
  · rw [missing] at found
    cases found

theorem settled_run {events : List Event} (fits : callsOf pid events < 2 ^ 64) :
    Settled pid (callsOf pid events) (stateAfter stringArgMap events).ledger := by
  induction events using List.reverseRecOn with
  | nil => exact ⟨rfl, Nat.le_refl _⟩
  | append_singleton events event inductionHypothesis =>
      rw [callsOf_snoc] at fits
      have settled := inductionHypothesis (by omega)
      rw [stateAfter_snoc, callsOf_snoc]
      cases event with
      | call call => exact ⟨settled.total, settled.bounded.trans (Nat.le_add_right _ _)⟩
      | tick reads =>
          rw [step_tick (enabled_run stringArgMap events)]
          apply foldl_reportEntry_invariant (Settled pid (callsOf pid events))
          · intro state entry member before
            apply before.report
            rintro record rfl
            obtain ⟨read, -, same⟩ := List.mem_map.mp member
            exact count_of_read stringArgMap (by omega) (entryOf_eq_some_iff.mp same).2
          · exact settled

theorem lastCounts_of_read {events : List Event} {reads : List (Option UInt32)}
    (read : some pid ∈ reads) {record : CallRecord}
    (found : (stateAfter stringArgMap events).maps.calls.get pid = some record) :
    (stateAfter stringArgMap (events ++ [.tick reads])).program.lastCounts.lookup pid =
      some record.count := by
  have ledger := congrArg (fun state => state.1.lastCounts.lookup pid)
    (step_tick (enabled_run stringArgMap events) reads)
  rw [stateAfter_snoc]
  refine ledger.trans ?_
  have same : ∀ entry ∈ reads.map (entryOf (stateAfter stringArgMap events).maps),
      ∀ other, entry = some (pid, other) → other = record := by
    rintro entry member other rfl
    obtain ⟨own, -, equality⟩ := List.mem_map.mp member
    exact Option.some.inj ((entryOf_eq_some_iff.mp equality).2.symm.trans found)
  have present : some (pid, record) ∈ reads.map (entryOf (stateAfter stringArgMap events).maps) :=
    List.mem_map.mpr ⟨some pid, read, entryOf_eq_some_iff.mpr ⟨rfl, found⟩⟩
  obtain ⟨before, after, split⟩ := List.append_of_mem present
  rw [split] at same ⊢
  rw [List.foldl_append, List.foldl_cons]
  apply foldl_reportEntry_invariant fun state =>
    state.1.lastCounts.lookup pid = some record.count
  · intro state entry member remembered
    by_cases own : ∃ other, entry = some (pid, other)
    · obtain ⟨other, rfl⟩ := own
      rw [reportEntry_lastCounts, if_pos rfl,
        same _ (List.mem_append_right _ (List.mem_cons_of_mem _ member)) other rfl]
    · rw [(reportEntry_other fun other equality => own ⟨other, equality⟩).1, remembered]
  · rw [reportEntry_lastCounts, if_pos rfl]

/-- As long as no tick reads the record, nothing is booked for the process. -/
theorem unread_run (events : List Event) {later : List Event}
    (unread : ∀ reads, Event.tick reads ∈ later → some pid ∉ reads) :
    (stateAfter stringArgMap (events ++ later)).program.lastCounts.lookup pid =
        (stateAfter stringArgMap events).program.lastCounts.lookup pid ∧
      incrementsOf pid (stateAfter stringArgMap (events ++ later)) =
        incrementsOf pid (stateAfter stringArgMap events) := by
  induction later using List.reverseRecOn with
  | nil => rw [List.append_nil]; exact ⟨rfl, rfl⟩
  | append_singleton later event inductionHypothesis =>
      obtain ⟨lookup, filtered⟩ := inductionHypothesis fun reads member =>
        unread reads (List.mem_append_left _ member)
      rw [← List.append_assoc, stateAfter_snoc, ← lookup, ← filtered]
      cases event with
      | call call => exact ⟨rfl, rfl⟩
      | tick reads =>
          have untouched : ∀ entry ∈ reads.map
              (entryOf (stateAfter stringArgMap (events ++ later)).maps),
              ∀ record, entry ≠ some (pid, record) := by
            rintro entry member record rfl
            obtain ⟨read, own, same⟩ := List.mem_map.mp member
            rw [(entryOf_eq_some_iff.mp same).1] at own
            exact unread reads (List.mem_append_right _ List.mem_cons_self) own
          have unchanged := foldl_reportEntry_invariant
            (fun state => state.1.lastCounts.lookup pid =
                (stateAfter stringArgMap (events ++ later)).ledger.1.lastCounts.lookup pid ∧
              state.2.filter (Increment.belongsTo pid) =
                (stateAfter stringArgMap (events ++ later)).ledger.2.filter
                  (Increment.belongsTo pid))
            (fun state entry member before => by
              obtain ⟨same, kept⟩ := reportEntry_other (untouched entry member)
              exact ⟨same.trans before.1, kept.trans before.2⟩)
            ⟨rfl, rfl⟩
          rw [← step_tick (enabled_run stringArgMap (events ++ later))] at unchanged
          exact unchanged

/-- What was booked for a process is the count of its record at the tick that
read it last. -/
theorem amount_of_last_read {before after : List Event} {reads : List (Option UInt32)}
    (read : some pid ∈ reads) {record : CallRecord}
    (found : (stateAfter stringArgMap before).maps.calls.get pid = some record)
    (unread : ∀ later, Event.tick later ∈ after → some pid ∉ later)
    (fits : callsOf pid before < 2 ^ 64) :
    amount (incrementsOf pid (stateAfter stringArgMap (before ++ [.tick reads] ++ after))) =
      record.count.toNat := by
  have calls : callsOf pid (before ++ [.tick reads]) = callsOf pid before := by
    rw [callsOf_snoc]
    rfl
  have settled := settled_run stringArgMap (calls.symm ▸ fits)
  have remembered := lastCounts_of_read stringArgMap read found
  obtain ⟨-, unchanged⟩ := unread_run stringArgMap (before ++ [.tick reads]) unread
  rw [unchanged]
  exact settled.total.trans (by rw [Agent.ledger, remembered, Option.getD_some])

end Runs

theorem Booked.separate {agent : Agent} (booked : Booked agent.program agent.increments) :
    Separate agent := by
  intro first firstMember second secondMember same
  obtain ⟨name, label⟩ := booked.labels first firstMember
  obtain ⟨otherName, otherLabel⟩ := booked.labels second secondMember
  rw [label, otherLabel] at same
  exact pidLabel_inj same

/-- The series written for a process hold what was booked for it. -/
theorem Booked.writtenTotal {agent : Agent} (booked : Booked agent.program agent.increments)
    {pid : UInt32} (fits : amount (incrementsOf pid agent) < 2 ^ 64) :
    writtenTotal pid agent = amount (incrementsOf pid agent) := by
  have groups := Table.sum_groups Increment.pname (fun increment => increment.delta.toNat)
    ((incrementsOf pid agent).map Increment.pname).toFinset (incrementsOf pid agent)
    (fun increment member => List.mem_toFinset.mpr (List.mem_map_of_mem member))
  refine Eq.trans (Finset.sum_congr rfl ?_) groups
  intro label labelled
  obtain ⟨own, ownMember, rfl⟩ := List.mem_map.mp (List.mem_toFinset.mp labelled)
  obtain ⟨member, ownPid⟩ := List.mem_filter.mp ownMember
  have shared : agent.increments.filter (fun increment => increment.pname = own.pname) =
      (incrementsOf pid agent).filter fun increment => increment.pname = own.pname := by
    rw [incrementsOf, List.filter_filter]
    apply List.filter_congr
    intro increment present
    by_cases same : increment.pname = own.pname
    · have process := booked.separate increment present own member same
      simp only [Increment.belongsTo, decide_eq_true_eq] at ownPid
      simp [same, Increment.belongsTo, process, ownPid]
    · simp [same]
  have part : (((incrementsOf pid agent).filter fun increment =>
      increment.pname = own.pname).map fun increment => increment.delta.toNat).sum ≤
      amount (incrementsOf pid agent) := by
    apply List.Sublist.sum_le_sum
    · exact List.filter_sublist.map _
    · intro delta _
      exact Nat.zero_le delta
  rw [booked.series, shared, Word.toNat_sum]
  · rw [List.map_map]
    rfl
  · rw [List.map_map]
    exact Nat.lt_of_le_of_lt part fits

/-- After every run, the series of a process add up to the count of its record
at the tick that read it last, which is the number of its calls so far, and no
two processes share one. -/
theorem calls_conserved (stringArgMap : BoundedMap UInt32 UInt32 1) :
    (∀ (before after : List Event) (reads : List (Option UInt32)) (pid : UInt32)
      (record : CallRecord), some pid ∈ reads →
      (stateAfter stringArgMap before).maps.calls.get pid = some record →
      (∀ later, Event.tick later ∈ after → some pid ∉ later) →
      callsOf pid before < 2 ^ 64 →
      writtenTotal pid (stateAfter stringArgMap (before ++ [.tick reads] ++ after)) =
          record.count.toNat ∧
        record.count.toNat = callsOf pid before) ∧
      ∀ events, Separate (stateAfter stringArgMap events) := by
  refine ⟨?_, fun events => (booked_run stringArgMap events).separate⟩
  intro before after reads pid record read found unread fits
  have booked := booked_run stringArgMap (before ++ [.tick reads] ++ after)
  have total := amount_of_last_read stringArgMap read found unread fits
  refine ⟨?_, count_of_read stringArgMap fits found⟩
  rw [booked.writtenTotal, total]
  rw [total]
  exact record.count.toNat_lt

def rxName : Vector UInt8 16 := #v[0x72, 0x78, 0, 0, 0, 0, 0, 0, 0, 0, 0, 0, 0, 0, 0, 0]

def txName : Vector UInt8 16 := #v[0x74, 0x78, 0, 0, 0, 0, 0, 0, 0, 0, 0, 0, 0, 0, 0, 0]

/-- A call by process 1 from a thread of this name. -/
def callNamed (comm : Vector UInt8 16) : Event :=
  .call ⟨Word.pack 1 0, 0, some comm, fun _ => none, fun _ => none⟩

def renamedCalls : List Event :=
  [callNamed rxName, .tick [some 1], callNamed txName, .tick [none],
    callNamed rxName]

theorem calls_conserved_renamed :
    writtenTotal 1 (stateAfter .empty (renamedCalls ++ [.tick [some 1]] ++ [.tick [none]])) = 3 ∧
      Separate (stateAfter .empty (renamedCalls ++ [.tick [some 1]] ++ [.tick [none]])) := by
  have unread : ∀ later, Event.tick later ∈ [Event.tick [none]] → some 1 ∉ later := by
    intro later member
    rw [List.mem_singleton, Event.tick.injEq] at member
    subst member
    decide
  obtain ⟨conserved, separate⟩ := calls_conserved .empty
  obtain ⟨total, count⟩ := conserved renamedCalls [.tick [none]] [some 1] 1 _ (by decide) rfl
    unread (by decide)
  exact ⟨total.trans count, separate _⟩

theorem callsOf_replicate (number : Nat) :
    callsOf 1 (List.replicate number (callNamed rxName)) = number := by
  induction number with
  | zero => rfl
  | succ number inductionHypothesis =>
      rw [List.replicate_succ', callsOf_snoc, inductionHypothesis]
      rfl

theorem record_replicate {number : Nat} (positive : 0 < number) :
    ∃ record, (stateAfter .empty
      (List.replicate number (callNamed rxName))).maps.calls.get 1 =
        some record := by
  induction number, positive using Nat.le_induction with
  | base => exact ⟨_, rfl⟩
  | succ number _ inductionHypothesis =>
      obtain ⟨record, found⟩ := inductionHypothesis
      rw [List.replicate_succ', stateAfter_snoc]
      obtain ⟨next, stored, -⟩ := @traceCallHandler_of_present _
        ⟨Word.pack 1 0, 0, some rxName, fun _ => none, fun _ => none⟩ record found
      exact ⟨next, stored⟩

/-- After 2^64 calls the count of the record has wrapped around to 0. -/
theorem not_calls_conserved_after_wrap :
    ∃ record, (stateAfter .empty
        (List.replicate (2 ^ 64) (callNamed rxName))).maps.calls.get 1 =
          some record ∧
      ¬(writtenTotal 1 (stateAfter .empty
            (List.replicate (2 ^ 64) (callNamed rxName) ++ [.tick [some 1]] ++
              [])) = record.count.toNat ∧
          record.count.toNat =
            callsOf 1 (List.replicate (2 ^ 64) (callNamed rxName))) := by
  obtain ⟨record, found⟩ := record_replicate (show 0 < 2 ^ 64 by decide)
  refine ⟨record, found, ?_⟩
  rintro ⟨-, calls⟩
  rw [callsOf_replicate] at calls
  exact absurd record.count.toNat_lt (by omega)

end BpfAgent.Uprobe
