import BpfAgent.Uprobe.Conservation

/-!
# UPROBE: the series of a process with several threads

The record of a process carries the command name of the thread that called
last, and a tick books the new calls under that name.  An account kept from the
events alone says which names these are: the process has one series exactly if
the names are all the same.
-/

namespace BpfAgent.Uprobe

def SingleSeries (pid : UInt32) (agent : Agent) : Prop :=
  ∀ first ∈ incrementsOf pid agent, ∀ second ∈ incrementsOf pid agent,
    first.pname = second.pname

def commandName (call : TracedCall) : String :=
  cstrString (call.comm.getD (.replicate 16 0)).toList

/-- What the events say about one process. -/
structure Account where
  /-- The processes that are counted: the first 1024 to call. -/
  processes : BoundedMap UInt32 Unit 1024
  calls : UInt64
  /-- As many of them as there were at the last reading. -/
  seen : UInt64
  /-- The command name of the thread that called last. -/
  name : String
  /-- That name at every reading that found new calls. -/
  booked : List String

def Account.new : Account := ⟨.empty, 0, 0, "", []⟩

def Account.call (pid : UInt32) (account : Account) (call : TracedCall) : Account :=
  let caller := pidOf call.pidTgid
  let processes := account.processes.insert caller ()
  if caller = pid ∧ pid ∈ processes then
    { account with processes, calls := account.calls + 1, name := commandName call }
  else
    { account with processes }

def Account.read (account : Account) : Account :=
  { account with
    seen := account.calls
    booked :=
      if account.seen < account.calls then account.booked ++ [account.name]
      else account.booked }

def Account.step (pid : UInt32) (account : Account) : Event → Account
  | .call call => account.call pid call
  | .tick reads => if some pid ∈ reads then account.read else account

def accountOf (pid : UInt32) (events : List Event) : Account :=
  events.foldl (Account.step pid) .new

/-- The command names under which the calls of a process are booked. -/
def bookedNames (pid : UInt32) (events : List Event) : List String :=
  (accountOf pid events).booked

/-- Whenever a tick finds new calls of the process, the thread that called last
has the same command name. -/
def SameNames (pid : UInt32) (events : List Event) : Prop :=
  ∀ name ∈ bookedNames pid events, ∀ other ∈ bookedNames pid events, name = other

instance (pid : UInt32) (events : List Event) : Decidable (SameNames pid events) :=
  inferInstanceAs (Decidable
    (∀ name ∈ bookedNames pid events, ∀ other ∈ bookedNames pid events, name = other))

theorem accountOf_snoc (pid : UInt32) (events : List Event) (event : Event) :
    accountOf pid (events ++ [event]) = (accountOf pid events).step pid event :=
  List.foldl_concat ..

@[simp]
theorem Account.read_read (account : Account) : account.read.read = account.read := by
  have again : ¬account.calls < account.calls := UInt64.lt_irrefl _
  simp [Account.read, again]

theorem mem_traceCallHandler {maps : Maps} {call : TracedCall} {other : UInt32} :
    other ∈ (traceCallHandler maps call).calls ↔
      other ∈ maps.calls ∨ other = pidOf call.pidTgid ∧ maps.calls.Room (pidOf call.pidTgid) := by
  by_cases own : other = pidOf call.pidTgid
  · subst own
    rw [BoundedMap.mem_iff_get, traceCallHandler_get_own]
    constructor
    · rintro ⟨record, found⟩
      split at found
      next room => exact .inr ⟨rfl, room⟩
      next => cases found
    · rintro (present | ⟨-, room⟩)
      · exact ⟨_, if_pos (.inl present)⟩
      · exact ⟨_, if_pos room⟩
  · rw [BoundedMap.mem_iff_get, traceCallHandler_get_ne own, ← BoundedMap.mem_iff_get]
    simp [own]

/-- The map of records agrees with the account of a process. -/
structure Recorded (pid : UInt32) (account : Account) (maps : Maps) : Prop where
  processes : ∀ other, other ∈ maps.calls ↔ other ∈ account.processes
  record : ∀ record, maps.calls.get pid = some record →
    record.count = account.calls ∧ cstrString record.comm.toList = account.name
  missing : pid ∉ account.processes → account.calls = 0 ∧ account.seen = 0

theorem Recorded.count {pid : UInt32} {account : Account} {maps : Maps}
    (recorded : Recorded pid account maps) :
    ((maps.calls.get pid).getD .zeroed).count = account.calls := by
  cases found : maps.calls.get pid with
  | some record => exact (recorded.record record found).1
  | none =>
      have absent := BoundedMap.notMem_iff_get.mpr found
      rw [recorded.processes] at absent
      exact (recorded.missing absent).1.symm

theorem Recorded.call {pid : UInt32} {account : Account} {maps : Maps}
    (recorded : Recorded pid account maps) (call : TracedCall) :
    Recorded pid (account.call pid call) (traceCallHandler maps call) := by
  have room := BoundedMap.room_congr recorded.processes (pidOf call.pidTgid)
  have processes : ∀ other, other ∈ (traceCallHandler maps call).calls ↔
      other ∈ account.processes.insert (pidOf call.pidTgid) () := by
    intro other
    rw [mem_traceCallHandler, BoundedMap.mem_insert_iff, recorded.processes, room]
  have unchanged (same : (traceCallHandler maps call).calls.get pid = maps.calls.get pid) :
      Recorded pid { account with processes := account.processes.insert (pidOf call.pidTgid) () }
        (traceCallHandler maps call) :=
    ⟨processes, fun record found => recorded.record record (same.symm.trans found), fun absent =>
      recorded.missing fun present => absent (BoundedMap.mem_insert_of_mem _ present)⟩
  by_cases own : pidOf call.pidTgid = pid
  · subst own
    by_cases counted : pidOf call.pidTgid ∈ account.processes.insert (pidOf call.pidTgid) ()
    · have entered : account.call (pidOf call.pidTgid) call =
          { account with
            processes := account.processes.insert (pidOf call.pidTgid) ()
            calls := account.calls + 1
            name := commandName call } := if_pos ⟨rfl, counted⟩
      rw [entered]
      refine ⟨processes, ?_, fun absent => absurd counted absent⟩
      intro record found
      rw [traceCallHandler_get_own] at found
      split at found
      next =>
        cases found
        exact ⟨by rw [← recorded.count]; rfl, rfl⟩
      next => cases found
    · -- The map was full before the first call of the process.
      have refused : account.call (pidOf call.pidTgid) call =
          { account with processes := account.processes.insert (pidOf call.pidTgid) () } :=
        if_neg fun entered => counted entered.2
      have after : pidOf call.pidTgid ∉ (traceCallHandler maps call).calls :=
        fun present => counted ((processes _).mp present)
      have before : pidOf call.pidTgid ∉ maps.calls :=
        fun present => after (mem_traceCallHandler.mpr (.inl present))
      rw [refused]
      apply unchanged
      rw [BoundedMap.notMem_iff_get.mp after, BoundedMap.notMem_iff_get.mp before]
  · have other : account.call pid call =
        { account with processes := account.processes.insert (pidOf call.pidTgid) () } :=
      if_neg fun entered => own entered.1
    rw [other]
    exact unchanged (traceCallHandler_get_ne (Ne.symm own))

theorem Recorded.read {pid : UInt32} {account : Account} {maps : Maps}
    (recorded : Recorded pid account maps) : Recorded pid account.read maps :=
  ⟨recorded.processes, recorded.record, fun absent =>
    ⟨(recorded.missing absent).1, (recorded.missing absent).1⟩⟩

/-- What was booked for a process agrees with its account. -/
structure Tallied (pid : UInt32) (account : Account) (state : Program × List Increment) :
    Prop where
  seen : (state.1.lastCounts.lookup pid).getD 0 = account.seen
  labels : (state.2.filter (Increment.belongsTo pid)).map Increment.pname =
    account.booked.map (pidLabel · pid)

section Tick

variable {pid : UInt32} {account : Account} {maps : Maps} {state : Program × List Increment}

theorem Tallied.report_own (tallied : Tallied pid account state) {record : CallRecord}
    (count : record.count = account.calls)
    (name : cstrString record.comm.toList = account.name) :
    Tallied pid account.read (reportEntry state (some (pid, record))) := by
  constructor
  · rw [reportEntry_lastCounts, if_pos rfl, Option.getD_some, count]
    rfl
  · unfold reportEntry Account.read
    dsimp only
    rw [tallied.seen, count]
    by_cases grown : account.seen < account.calls
    · rw [if_neg (fun quiet => Word.saturatingSub_eq_zero_iff.mp quiet grown), if_pos grown]
      simp [Increment.belongsTo, tallied.labels, pname, name]
    · rw [if_pos (Word.saturatingSub_eq_zero_iff.mpr grown), if_neg grown]
      exact tallied.labels

theorem Tallied.report (recorded : Recorded pid account maps) (tallied : Tallied pid account state)
    (read : Option UInt32) :
    Tallied pid (if read = some pid then account.read else account)
      (reportEntry state (entryOf maps read)) := by
  by_cases own : read = some pid
  · subst own
    rw [if_pos rfl]
    cases found : maps.calls.get pid with
    | some record =>
        obtain ⟨count, name⟩ := recorded.record record found
        rw [entryOf_eq_some_iff.mpr ⟨rfl, found⟩]
        exact tallied.report_own count name
    | none =>
        have absent := BoundedMap.notMem_iff_get.mpr found
        rw [recorded.processes] at absent
        obtain ⟨calls, seen⟩ := recorded.missing absent
        have nothing : entryOf maps (some pid) = none := by simp [entryOf, found]
        have idle : ¬account.seen < account.calls := by
          rw [calls, seen]
          exact UInt64.lt_irrefl 0
        rw [nothing]
        exact ⟨tallied.seen.trans (seen.trans calls.symm), by
          rw [Account.read, if_neg idle]
          exact tallied.labels⟩
  · rw [if_neg own]
    have other : ∀ record, entryOf maps read ≠ some (pid, record) :=
      fun record same => own (entryOf_eq_some_iff.mp same).1
    obtain ⟨lookup, filtered⟩ := @reportEntry_other pid state _ other
    exact ⟨by rw [lookup, tallied.seen], by rw [filtered, tallied.labels]⟩

theorem Tallied.reports (recorded : Recorded pid account maps)
    (tallied : Tallied pid account state) (reads : List (Option UInt32)) :
    Tallied pid (if some pid ∈ reads then account.read else account)
      ((reads.map (entryOf maps)).foldl reportEntry state) := by
  induction reads generalizing account state with
  | nil => exact tallied
  | cons read reads inductionHypothesis =>
      rw [List.map_cons, List.foldl_cons]
      have first := tallied.report recorded read
      by_cases own : read = some pid
      · rw [if_pos own] at first
        have rest := inductionHypothesis recorded.read first
        rw [Account.read_read, ite_self] at rest
        rwa [if_pos (own ▸ List.mem_cons_self)]
      · rw [if_neg own] at first
        have rest := inductionHypothesis recorded first
        simpa only [List.mem_cons, Ne.symm own, false_or] using rest

end Tick

section Runs

variable (stringArgMap : BoundedMap UInt32 UInt32 1) (pid : UInt32)

theorem account_run (events : List Event) :
    Recorded pid (accountOf pid events) (stateAfter stringArgMap events).maps ∧
      Tallied pid (accountOf pid events) (stateAfter stringArgMap events).ledger := by
  induction events using List.reverseRecOn with
  | nil =>
      refine ⟨⟨?_, ?_, fun _ => ⟨rfl, rfl⟩⟩, ⟨rfl, rfl⟩⟩
      · intro other
        exact iff_of_false (BoundedMap.notMem_empty _) (BoundedMap.notMem_empty _)
      · intro record found
        cases found
  | append_singleton events event inductionHypothesis =>
      obtain ⟨recorded, tallied⟩ := inductionHypothesis
      rw [accountOf_snoc, stateAfter_snoc]
      cases event with
      | call call =>
          refine ⟨recorded.call call, ?_⟩
          have unread : ((accountOf pid events).call pid call).seen = (accountOf pid events).seen ∧
              ((accountOf pid events).call pid call).booked = (accountOf pid events).booked := by
            unfold Account.call
            dsimp only
            split <;> exact ⟨rfl, rfl⟩
          exact ⟨tallied.seen.trans unread.1.symm, by
            rw [Account.step, unread.2]
            exact tallied.labels⟩
      | tick reads =>
          constructor
          · rw [Account.step]
            split
            · exact recorded.read
            · exact recorded
          · rw [step_tick (enabled_run stringArgMap events)]
            exact tallied.reports recorded reads

theorem singleSeries_iff_sameNames (events : List Event) :
    SingleSeries pid (stateAfter stringArgMap events) ↔ SameNames pid events := by
  have labels : (incrementsOf pid (stateAfter stringArgMap events)).map Increment.pname =
      (bookedNames pid events).map (pidLabel · pid) :=
    (account_run stringArgMap pid events).2.labels
  have series : SingleSeries pid (stateAfter stringArgMap events) ↔
      ∀ first ∈ (incrementsOf pid (stateAfter stringArgMap events)).map Increment.pname,
        ∀ second ∈ (incrementsOf pid (stateAfter stringArgMap events)).map Increment.pname,
          first = second := by
    simp only [SingleSeries, List.forall_mem_map]
  rw [series, labels]
  simp only [SameNames, List.forall_mem_map, pidLabel_name_inj]

end Runs

theorem Booked.exists_name {agent : Agent} (booked : Booked agent.program agent.increments)
    {pid : UInt32} (single : SingleSeries pid agent) :
    ∃ name, ∀ increment ∈ incrementsOf pid agent, increment.pname = pidLabel name pid := by
  by_cases some : ∃ increment, increment ∈ incrementsOf pid agent
  · obtain ⟨written, member⟩ := some
    obtain ⟨present, process⟩ := List.mem_filter.mp member
    obtain ⟨name, label⟩ := booked.labels written present
    rw [Increment.belongsTo, decide_eq_true_eq] at process
    refine ⟨name, ?_⟩
    intro increment other
    rw [single increment other written member, label, process]
  · exact ⟨"", fun increment member => absurd ⟨increment, member⟩ some⟩

/-- A series that has all increments of a process has nothing else. -/
theorem Booked.single {agent : Agent} (booked : Booked agent.program agent.increments)
    {pid : UInt32} {name : String}
    (single : ∀ increment ∈ incrementsOf pid agent, increment.pname = pidLabel name pid)
    (fits : amount (incrementsOf pid agent) < 2 ^ 64) :
    ((agent.program.callsTotal.lookup (pidLabel name pid)).getD 0).toNat =
      amount (incrementsOf pid agent) := by
  have own : agent.increments.filter (fun increment => increment.pname = pidLabel name pid) =
      incrementsOf pid agent := by
    apply List.filter_congr
    intro increment member
    rw [Increment.belongsTo, decide_eq_decide]
    constructor
    · intro labelled
      obtain ⟨other, label⟩ := booked.labels increment member
      exact pidLabel_inj (label.symm.trans labelled)
    · intro process
      exact single increment (List.mem_filter.mpr ⟨member, decide_eq_true process⟩)
  rw [booked.series, own, Word.toNat_sum]
  · rw [List.map_map]
    rfl
  · rw [List.map_map]
    exact fits

/-- The increments of a process go to one series exactly if every tick that
finds new calls finds the same command name; that series then holds all calls
the process had made at the tick that read its record last. -/
theorem one_series_iff_same_names (stringArgMap : BoundedMap UInt32 UInt32 1)
    (events : List Event) (pid : UInt32) :
    (SingleSeries pid (stateAfter stringArgMap events) ↔ SameNames pid events) ∧
      ∀ before reads after, events = before ++ [.tick reads] ++ after →
        some pid ∈ reads → pid ∈ (stateAfter stringArgMap before).maps.calls →
        (∀ later, Event.tick later ∈ after → some pid ∉ later) →
        callsOf pid before < 2 ^ 64 → SameNames pid events →
        ∃ name,
          (∀ increment ∈ incrementsOf pid (stateAfter stringArgMap events),
            increment.pname = pidLabel name pid) ∧
          (((stateAfter stringArgMap events).program.callsTotal.lookup
            (pidLabel name pid)).getD 0).toNat = callsOf pid before := by
  refine ⟨singleSeries_iff_sameNames stringArgMap pid events, ?_⟩
  rintro before reads after rfl read present unread fits same
  have booked := booked_run stringArgMap (before ++ [.tick reads] ++ after)
  have single := (singleSeries_iff_sameNames stringArgMap pid _).mpr same
  obtain ⟨record, found⟩ := BoundedMap.mem_iff_get.mp present
  have total := amount_of_last_read stringArgMap read found unread fits
  have count := count_of_read stringArgMap fits found
  obtain ⟨name, labelled⟩ := booked.exists_name single
  refine ⟨name, labelled, ?_⟩
  rw [booked.single labelled, total, count]
  rw [total]
  exact record.count.toNat_lt

theorem one_series_of_renamedCalls :
    SingleSeries 1 (stateAfter .empty (renamedCalls ++ [.tick [some 1]] ++ [])) ∧
      ∃ name, (((stateAfter .empty
        (renamedCalls ++ [.tick [some 1]] ++ [])).program.callsTotal.lookup
          (pidLabel name 1)).getD 0).toNat = 3 := by
  obtain ⟨series, total⟩ := one_series_iff_same_names .empty
    (renamedCalls ++ [.tick [some 1]] ++ []) 1
  have same : SameNames 1 (renamedCalls ++ [.tick [some 1]] ++ []) := by decide +kernel
  obtain ⟨name, -, count⟩ := total renamedCalls [some 1] [] rfl (by decide) (by decide)
    (fun _ impossible => by cases impossible) (by decide) same
  exact ⟨series.mpr same, name, count⟩

/-- Two threads of different names, each the last to call before a tick. -/
theorem not_singleSeries_of_two_threads :
    ¬SingleSeries 1 (stateAfter .empty
      [callNamed rxName, .tick [some 1], callNamed txName, .tick [some 1]]) := by
  intro single
  have first : ⟨1, pidLabel "rx" 1, 1⟩ ∈ incrementsOf 1 (stateAfter .empty
      [callNamed rxName, .tick [some 1], callNamed txName, .tick [some 1]]) := by
    decide +kernel
  have second : ⟨1, pidLabel "tx" 1, 1⟩ ∈ incrementsOf 1 (stateAfter .empty
      [callNamed rxName, .tick [some 1], callNamed txName, .tick [some 1]]) := by
    decide +kernel
  have names := pidLabel_name_inj.mp (single _ first _ second)
  exact absurd names (by decide)

end BpfAgent.Uprobe
