import BpfAgent.IflatUprobe.Legs
import BpfAgent.IflatUprobe.Program
import BpfAgent.Reporting

/-!
# IFLAT_UPROBE: from datagrams to the two gauges

Runs of the three hooks and of the display tick in any order, of a program that
some configuration has enabled.  Each leg has accumulators and a gauge of its
own, and a tick reports both from one reading of the maps.
-/

namespace BpfAgent.IflatUprobe.EndToEnd

inductive Turn where
  | hook (hook : Hook)
  | tick

structure Event where
  now : UInt64
  turn : Turn

def Event.Ticks (event : Event) : Prop := event.turn = .tick

def Event.seen (event : Event) : Option IflatUprobe.Event :=
  match event.turn with
  | .hook hook => some ⟨event.now, hook⟩
  | .tick => none

structure State where
  maps : Maps
  program : Program

variable (configMap : ConfigMap)

def step (state : State) (event : Event) : State :=
  match event.turn with
  | .hook hook => { state with maps := IflatUprobe.step configMap state.maps ⟨event.now, hook⟩ }
  | .tick => { state with program := displayMetrics state.program state.maps }

theorem step_seen {state : State} {event : Event} {seen : IflatUprobe.Event}
    (hooked : event.seen = some seen) :
    step configMap state event =
      { state with maps := IflatUprobe.step configMap state.maps seen } := by
  unfold Event.seen at hooked
  unfold step
  cases turn : event.turn with
  | tick => simp [turn] at hooked
  | hook hook =>
      rw [turn] at hooked
      cases hooked
      rfl

theorem step_tick {state : State} {event : Event} (tick : event.Ticks) :
    step configMap state event =
      { state with program := displayMetrics state.program state.maps } := by
  rw [Event.Ticks] at tick
  rw [step, tick]

theorem seen_eq_none_iff {event : Event} : event.seen = none ↔ event.Ticks := by
  unfold Event.seen Event.Ticks
  cases event.turn <;> simp

theorem now_of_seen {event : Event} {seen : IflatUprobe.Event} (hooked : event.seen = some seen) :
    event.now = seen.now := by
  unfold Event.seen at hooked
  cases turn : event.turn with
  | tick => simp [turn] at hooked
  | hook hook =>
      rw [turn] at hooked
      cases hooked
      rfl

/-- A leg, with ticks among the events. -/
def withTicks (leg : Correlation.Correlator Maps IflatUprobe.Event UInt32)
    (same : leg.step = IflatUprobe.step configMap) (clock : leg.clock = IflatUprobe.Event.now) :
    Correlation.Correlator State Event UInt32 :=
  leg.extend (step configMap) State.maps Event.seen Event.now
    (fun _ _ _ hooked => by rw [step_seen configMap hooked, same])
    (fun _ _ ticks => by rw [step_tick configMap (seen_eq_none_iff.mp ticks)])
    (fun _ _ hooked => by rw [clock, now_of_seen hooked])

inductive Leg where
  /-- RX1 to RX2. -/
  | first
  /-- RX2 to the function call. -/
  | second

def Leg.correlator : Leg → Correlation.Correlator State Event UInt32
  | .first => withTicks configMap (leg1 configMap) rfl rfl
  | .second => withTicks configMap (leg2 configMap) rfl rfl

def Leg.storing : Leg → List UInt8 → List UInt32 → Hook
  | .first => .rx1
  | .second => .rx2

def Leg.timestampMap : Leg → Maps → BoundedMap UInt32 UInt64 1024
  | .first => Maps.timestamp1Map
  | .second => Maps.timestamp2Map

def Leg.accumulator : Leg → Maps → Accumulator
  | .first => Maps.latency1
  | .second => Maps.latency2

def Leg.baseline : Leg → Program → Baseline
  | .first => Program.baseline1
  | .second => Program.baseline2

def Leg.gauge : Leg → Program → UInt64
  | .first => Program.avgLatency1Us
  | .second => Program.avgLatency2Us

theorem matchRx1_latencies (maps : Maps) (tag : UInt32) (now : UInt64) :
    (matchRx1 maps tag now).1.latency1 = maps.latency1.add (matchRx1 maps tag now).2 ∧
      (matchRx1 maps tag now).1.latency2 = maps.latency2 := by
  unfold matchRx1
  cases maps.timestamp1Map.get tag <;> exact ⟨rfl, rfl⟩

theorem fnCallHandler_latencies (maps : Maps) (call : FnCall) (now : UInt64) :
    (fnCallHandler configMap maps call now).1.latency1 = maps.latency1 ∧
      (fnCallHandler configMap maps call now).1.latency2 =
        maps.latency2.add (fnCallHandler configMap maps call now).2 := by
  unfold fnCallHandler
  cases callTag configMap call with
  | none => exact ⟨rfl, rfl⟩
  | some tag =>
      dsimp only
      cases maps.timestamp2Map.get tag <;> exact ⟨rfl, rfl⟩

/-- Every sample of a leg, and nothing else, is added to the accumulators of the leg. -/
theorem step_latencies (maps : Maps) (event : IflatUprobe.Event) :
    (IflatUprobe.step configMap maps event).latency1 =
        maps.latency1.add (sample1 maps event) ∧
      (IflatUprobe.step configMap maps event).latency2 =
        maps.latency2.add (sample2 configMap maps event) := by
  unfold IflatUprobe.step sample1 sample2
  cases event.hook with
  | rx1 frame victims =>
      simp only [xdpRx1Handler]
      cases parsePayloadTag frame <;> exact ⟨rfl, rfl⟩
  | rx2 frame victims =>
      simp only [xdpRx2Handler]
      cases parsePayloadTag frame with
      | none => exact ⟨rfl, rfl⟩
      | some tag => exact matchRx1_latencies maps tag event.now
  | call call => exact fnCallHandler_latencies configMap maps call event.now

theorem adds_withTicks {leg : Correlation.Correlator Maps IflatUprobe.Event UInt32}
    (same : leg.step = IflatUprobe.step configMap) (clock : leg.clock = IflatUprobe.Event.now)
    {accumulator : Maps → Accumulator}
    (adds : ∀ maps event, accumulator (IflatUprobe.step configMap maps event) =
      (accumulator maps).add (leg.sample maps event)) (state : State) (event : Event) :
    accumulator (step configMap state event).maps =
      (accumulator state.maps).add ((withTicks configMap leg same clock).sample state event) := by
  change _ = (accumulator state.maps).add (event.seen.bind (leg.sample state.maps))
  cases seen : event.seen with
  | none =>
      rw [step_tick configMap (seen_eq_none_iff.mp seen)]
      rfl
  | some hooked =>
      rw [step_seen configMap seen]
      exact adds state.maps hooked

theorem step_program {state : State} {event : Event} (quiet : ¬event.Ticks) :
    (step configMap state event).program = state.program := by
  unfold step
  cases turn : event.turn with
  | tick => exact absurd turn quiet
  | hook hook => rfl

theorem step_enabled (state : State) (event : Event) :
    (step configMap state event).program.enabled = state.program.enabled := by
  by_cases ticks : event.Ticks
  · rw [step_tick configMap ticks, displayMetrics]
    split <;> rfl
  · rw [step_program configMap ticks]

def display (leg : Leg) : Reporter State Event where
  step := step configMap
  sample := (leg.correlator configMap).sample
  isTick := Event.Ticks
  accumulator state := leg.accumulator state.maps
  baseline state := leg.baseline state.program
  gauge state := leg.gauge state.program
  live state := state.program.enabled = true
  adds := by
    cases leg with
    | first =>
        exact adds_withTicks configMap rfl rfl fun maps event =>
          (step_latencies configMap maps event).1
    | second =>
        exact adds_withTicks configMap rfl rfl fun maps event =>
          (step_latencies configMap maps event).2
  silent state event ticks := by
    have unseen := seen_eq_none_iff.mpr ticks
    cases leg <;> simp [Leg.correlator, withTicks, Correlation.Correlator.extend, unseen]
  stays state event live := by rw [step_enabled, live]
  quiet state event quiet := by rw [step_program configMap quiet]
  shows state event live ticks := by
    rw [step_tick configMap ticks, displayMetrics, if_pos live]
    cases leg <;> rfl
  rebases state event live ticks := by
    rw [step_tick configMap ticks, displayMetrics, if_pos live]
    cases leg <;> rfl

def displayLoaded (leg : Leg) : Reporter (ConfigMap × State) Event where
  step state event := (state.1, step state.1 state.2 event)
  sample state := (display state.1 leg).sample state.2
  isTick := Event.Ticks
  accumulator state := leg.accumulator state.2.maps
  baseline state := leg.baseline state.2.program
  gauge state := leg.gauge state.2.program
  live state := state.2.program.enabled = true
  adds state := (display state.1 leg).adds state.2
  silent state := (display state.1 leg).silent state.2
  stays state := (display state.1 leg).stays state.2
  quiet state := (display state.1 leg).quiet state.2
  shows state := (display state.1 leg).shows state.2
  rebases state := (display state.1 leg).rebases state.2

/-- The argument of a call, 1 for the first. -/
def argumentAt (call : FnCall) (index : Nat) : UInt64 := (call.arg (index - 1)).getD 0

/-- From the argument to the payload: the argument itself, or the pointer that
is stored `offset` bytes behind it. -/
def PayloadFrom (memory : Memory) (argument : UInt64) (offset : Int) (payload : UInt64) : Prop :=
  offset = -1 ∧ payload = argument ∨
    0 ≤ offset ∧ ∃ bytes, memory.read (argument + UInt64.ofNat offset.toNat) 8 = some bytes ∧
      payload = Memory.field bytes 0 8

/-- The settings lead from the call to four bytes that spell `tag`. -/
def Leads (config : ProgramConfig) (call : FnCall) (tag : UInt32) : Prop :=
  ∃ index offset tagOffset payload, ArgIndex config index ∧ PayloadPtrOffset config offset ∧
    TagOffset config tagOffset ∧ argumentAt call index ≠ 0 ∧
    PayloadFrom call.memory (argumentAt call index) offset payload ∧ payload ≠ 0 ∧
    call.memory.read (payload + UInt64.ofNat tagOffset) 4 = some (Word.bigEndianBytes tag)

def probeConfig (config : ProgramConfig) : UprobeConfig :=
  ⟨parseArgIndex config, parsePayloadPtrOffset config, parseTagOffset config⟩

section Calls

variable {config : ProgramConfig} {call : FnCall}

theorem argIndex_probeConfig (config : ProgramConfig) :
    1 ≤ (probeConfig config).argIndex.toNat ∧ (probeConfig config).argIndex.toNat ≤ 6 := by
  have limit : maxArgs = 6 := rfl
  have chosen : ArgIndex config (probeConfig config).argIndex.toNat := parseArgIndex_chosen config
  rcases chosen with ⟨⟨low, high⟩, -⟩ | ⟨usual, -⟩ <;> omega

theorem argument_probeConfig :
    argument (probeConfig config) call = argumentAt call (parseArgIndex config).toNat := by
  have inside := argIndex_probeConfig config
  have pred : ((probeConfig config).argIndex - 1).toNat =
      (probeConfig config).argIndex.toNat - 1 :=
    UInt32.toNat_sub_of_le _ _ (UInt32.le_iff_toNat_le.mpr inside.1)
  rw [argument, pred]
  rfl

theorem payloadPtr_probeConfig {payload : UInt64} :
    payloadPtr (probeConfig config) call = some payload ↔
      PayloadFrom call.memory (argumentAt call (parseArgIndex config).toNat)
        (signedOffset (parsePayloadPtrOffset config)) payload := by
  unfold payloadPtr PayloadFrom signedOffset
  rw [argument_probeConfig]
  change (if parsePayloadPtrOffset config = payloadPtrDirect then _ else _) = _ ↔ _
  split
  next direct =>
    simp [eq_comm]
  next member =>
    have word : (parsePayloadPtrOffset config).toUInt64 =
        UInt64.ofNat (parsePayloadPtrOffset config).toNat := by
      rw [← UInt64.toNat_inj, UInt32.toNat_toUInt64, UInt64.toNat_ofNat_of_lt']
      exact (parsePayloadPtrOffset config).toNat_lt.trans (by decide)
    change (call.memory.read (_ + (parsePayloadPtrOffset config).toUInt64) 8).map _ = _ ↔ _
    have present : ((parsePayloadPtrOffset config).toNat : Int) ≠ -1 := by omega
    rw [word, Option.map_eq_some_iff]
    simp [present, eq_comm]

/-- In a map that was loaded with the settings, the probe finds exactly the
tags that the settings lead to: the check of the argument's number never fails. -/
theorem callTag_loaded_iff {configMap : ConfigMap} {tag : UInt32}
    (loaded : configMap.get uprobeConfigKey = some (probeConfig config)) :
    callTag configMap call = some tag ↔ Leads config call tag := by
  have offset : ∀ payload : UInt64, payload + (parseTagOffset config).toUInt64 =
      payload + UInt64.ofNat (parseTagOffset config).toNat := by
    intro payload
    congr 1
    rw [← UInt64.toNat_inj, UInt32.toNat_toUInt64, UInt64.toNat_ofNat_of_lt']
    exact (parseTagOffset config).toNat_lt.trans (by decide)
  rw [callTag_eq_some_iff]
  constructor
  · intro resolved
    obtain @⟨found, payload, configured, inside, nonzero, pointer, present, read⟩ := resolved
    cases loaded.symm.trans configured
    rw [argument_probeConfig] at nonzero
    refine ⟨_, _, _, payload, parseArgIndex_chosen config, parsePayloadPtrOffset_chosen config,
      parseTagOffset_chosen config, nonzero, payloadPtr_probeConfig.mp pointer, present, ?_⟩
    rw [← offset]
    exact read
  · rintro ⟨index, member, tagOffset, payload, argSet, memberSet, tagSet, nonzero, from_, present,
      read⟩
    obtain rfl : (parseArgIndex config).toNat = index :=
      Int.ofNat_inj.mp ((parseArgIndex_chosen config).unique argSet)
    obtain rfl : signedOffset (parsePayloadPtrOffset config) = member :=
      (parsePayloadPtrOffset_chosen config).unique memberSet
    obtain rfl : (parseTagOffset config).toNat = tagOffset :=
      Int.ofNat_inj.mp ((parseTagOffset_chosen config).unique tagSet)
    refine .intro loaded (argIndex_probeConfig config) ?_ (payloadPtr_probeConfig.mpr from_)
      present ?_
    · rw [argument_probeConfig]
      exact nonzero
    · rw [← offset] at read
      exact read

end Calls

structure Required (config : ProgramConfig) (attached : Attached) : Prop where
  rx1Iface : setting config "rx1_iface" = some (.string attached.rx1Iface)
  rx2Iface : setting config "rx2_iface" = some (.string attached.rx2Iface)
  valid : IfaceName attached.rx1Iface ∧ IfaceName attached.rx2Iface
  target : setting config "target" = some (.string attached.site.target)
  symbol : setting config "symbol" = some (.string attached.site.symbol)
  nonempty : attached.site.target ≠ "" ∧ attached.site.symbol ≠ ""

structure Loaded (config : ProgramConfig) (program : Program) (attached : Attached) : Prop where
  configured : configure .new config = .ok program
  loaded : load program = some attached

variable {config : ProgramConfig} {program : Program} {attached : Attached}

theorem Loaded.facts (loaded : Loaded config program attached) :
    Required config attached ∧ program.enabled = true ∧
      program.baseline1 = ⟨0, 0⟩ ∧ program.baseline2 = ⟨0, 0⟩ ∧
      attached.configMap.get uprobeConfigKey = some (probeConfig config) := by
  obtain ⟨configured, attaches⟩ := loaded
  rw [configure, bind_eq_ok_iff] at configured
  obtain ⟨rx1Iface, first, configured⟩ := configured
  rw [bind_eq_ok_iff] at configured
  obtain ⟨rx2Iface, second, configured⟩ := configured
  dsimp only at configured
  have off : ∀ {disabled : Program}, disabled.enabled = false →
      (Except.ok disabled : Except String Program) = .ok program → False := by
    rintro disabled switch same
    cases same
    rw [load, switch] at attaches
    cases attaches
  split at configured
  next rx1 rx2 =>
    split at configured
    next named =>
      cases configured
      rw [load, if_pos rfl] at attaches
      cases attaches
      obtain ⟨someRx1, validRx1⟩ := parseIface_eq_ok_some_iff.mp first
      obtain ⟨someRx2, validRx2⟩ := parseIface_eq_ok_some_iff.mp second
      have nonempty : (parseStringSetting config "target").getD "" ≠ "" ∧
          (parseStringSetting config "symbol").getD "" ≠ "" := by simpa using named
      refine ⟨⟨someRx1, someRx2, ⟨validRx1, validRx2⟩, ?_, ?_, nonempty⟩, rfl, rfl, rfl, ?_⟩
      · exact (Uprobe.getD_parseStringSetting_eq_iff nonempty.1).mp rfl
      · exact (Uprobe.getD_parseStringSetting_eq_iff nonempty.2).mp rfl
      · have room : (BoundedMap.empty : ConfigMap).Room uprobeConfigKey := by decide
        exact (BoundedMap.get_insert_of_room room _ _).trans (if_pos rfl)
    next => exact (off rfl configured).elim
  next => exact (off rfl configured).elim

theorem configure_succeeds_iff :
    (∃ next, configure program config = .ok next) ↔
      AcceptsIface config "rx1_iface" ∧ AcceptsIface config "rx2_iface" := by
  simp only [configure, bind_eq_ok_iff, ← parseIface_succeeds_iff "iflat_uprobe"]
  constructor
  · rintro ⟨next, rx1, first, rx2, second, -⟩
    exact ⟨⟨rx1, first⟩, rx2, second⟩
  · rintro ⟨⟨rx1, first⟩, rx2, second⟩
    cases rx1 with
    | none => exact ⟨_, none, first, rx2, second, rfl⟩
    | some rx1 =>
        cases rx2 with
        | none => exact ⟨_, some rx1, first, none, second, rfl⟩
        | some rx2 =>
            exact ⟨_, some rx1, first, some rx2, second, (apply_ite Except.ok _ _ _).symm⟩

/-- The hooks are attached exactly if all that is required is set. -/
theorem load_of_configured (configured : configure .new config = .ok program) :
    (∃ attached, load program = some attached) ↔ ∃ attached, Required config attached := by
  constructor
  · rintro ⟨attached, attaches⟩
    exact ⟨attached, (Loaded.facts ⟨configured, attaches⟩).1⟩
  · rintro ⟨attached, required⟩
    have first : parseIfaceSetting config "rx1_iface" = .ok (some attached.rx1Iface) :=
      parseIface_eq_ok_some_iff.mpr ⟨required.rx1Iface, required.valid.1⟩
    have second : parseIfaceSetting config "rx2_iface" = .ok (some attached.rx2Iface) :=
      parseIface_eq_ok_some_iff.mpr ⟨required.rx2Iface, required.valid.2⟩
    have target := parseStringSetting_eq_some_iff.mpr required.target
    have symbol := parseStringSetting_eq_some_iff.mpr required.symbol
    simp only [configure, bind_eq_ok_iff, first, second, Except.ok.injEq, exists_eq_left',
      target, symbol, Option.getD_some] at configured
    rw [if_pos (by simpa using required.nonempty)] at configured
    cases configured
    exact ⟨_, rfl⟩

def State.loaded (program : Program) : State := ⟨.empty, program⟩

/-- Both legs are measured, the probe follows the settings, and every tick shows
for each leg the average of its samples since the tick before. -/
structure Measured (config : ProgramConfig) (program : Program) (attached : Attached)
    (events : List Event) : Prop where
  required : Required config attached
  measures : ∀ leg : Leg,
    Correlation.Measures ((leg.correlator attached.configMap).actions events)
      ((leg.correlator attached.configMap).evicted (State.loaded program) events)
      ((leg.correlator attached.configMap).clockAt events)
      ((leg.correlator attached.configMap).samples (State.loaded program) events)
  /-- A leg loses nothing but to a sighting that it stores. -/
  evicted : ∀ (leg : Leg) index tag,
    (leg.correlator attached.configMap).evicted (State.loaded program) events index tag →
      ∃ frame victims, (events[index]?).map Event.turn = some (.hook (leg.storing frame victims)) ∧
        Displaces (leg.timestampMap (Run.stateAt (step attached.configMap) (State.loaded program)
          events index).maps) frame victims tag
  called : ∀ index tag,
    (Leg.second.correlator attached.configMap).actions events index = .take tag ↔
      ∃ call, (events[index]?).map Event.turn = some (.hook (.call call)) ∧ Leads config call tag
  averages : ∀ leg, (display attached.configMap leg).Averages (State.loaded program) events

theorem take_second_iff (loaded : attached.configMap.get uprobeConfigKey =
      some (probeConfig config)) {events : List Event} (index : Nat) (tag : UInt32) :
    (Leg.second.correlator attached.configMap).actions events index = .take tag ↔
      ∃ call, (events[index]?).map Event.turn = some (.hook (.call call)) ∧
        Leads config call tag := by
  have acts : ∀ event : Event, (Leg.second.correlator attached.configMap).action event =
      event.seen.elim .keep (action2 attached.configMap) := fun _ => rfl
  constructor
  · intro took
    obtain ⟨event, handled, takes⟩ :=
      (Leg.second.correlator attached.configMap).exists_of_action took (by simp)
    rw [acts] at takes
    cases seen : event.seen with
    | none => simp [seen] at takes
    | some hooked =>
        rw [seen] at takes
        obtain ⟨call, hook, found⟩ := action2_eq_take attached.configMap takes
        refine ⟨call, ?_, (callTag_loaded_iff loaded).mp found⟩
        rw [handled, Option.map_some]
        unfold Event.seen at seen
        cases turn : event.turn with
        | tick => simp [turn] at seen
        | hook own =>
            simp only [turn, Option.some.injEq] at seen
            subst seen
            exact congrArg (some ∘ Turn.hook) hook
  · rintro ⟨call, turns, leads⟩
    obtain ⟨event, handled, turn⟩ := Option.map_eq_some_iff.mp turns
    rw [Correlation.Correlator.actions, handled, Option.elim_some, acts, Event.seen, turn]
    simp [action2, (callTag_loaded_iff loaded).mpr leads]

theorem displaces_of_evicted {configMap : ConfigMap} {events : List Event} {leg : Leg}
    {index : Nat} {tag : UInt32}
    (evicted : (leg.correlator configMap).evicted (State.loaded program) events index tag) :
    ∃ frame victims, (events[index]?).map Event.turn = some (.hook (leg.storing frame victims)) ∧
      Displaces (leg.timestampMap
        (Run.stateAt (step configMap) (State.loaded program) events index).maps)
          frame victims tag := by
  obtain ⟨event, handled, lost⟩ := evicted
  have turns : ∀ {hooked : IflatUprobe.Event}, event.seen = some hooked →
      (events[index]?).map Event.turn = some (.hook hooked.hook) := by
    intro hooked seen
    unfold Event.seen at seen
    rw [handled, Option.map_some]
    cases turn : event.turn with
    | tick => simp [turn] at seen
    | hook own =>
        rw [turn] at seen
        cases seen
        rfl
  cases leg with
  | first =>
      obtain ⟨hooked, seen, lost⟩ := lost
      obtain ⟨frame, victims, hook, displaces⟩ := displaces_of_evicts1 lost
      exact ⟨frame, victims, by rw [turns seen, hook]; rfl, displaces⟩
  | second =>
      obtain ⟨hooked, seen, lost⟩ := lost
      obtain ⟨frame, victims, hook, displaces⟩ := displaces_of_evicts2 lost
      exact ⟨frame, victims, by rw [turns seen, hook]; rfl, displaces⟩

/-- Whatever is configured, a program that attaches its hooks measures both legs
on every run, and its ticks report their averages. -/
theorem both_legs_of_fits (loaded : Loaded config program attached) (events : List Event)
    (ordered : events.Pairwise fun earlier later => earlier.now ≤ later.now)
    (fits : ∀ leg, (display attached.configMap leg).Fits (State.loaded program) events) :
    Measured config program attached events := by
  obtain ⟨required, enabled, fresh1, fresh2, written⟩ := loaded.facts
  refine ⟨required, ?_, fun _ _ _ => displaces_of_evicted, take_second_iff written, ?_⟩
  · intro leg
    apply (leg.correlator attached.configMap).measures
    · intro tag
      cases leg <;> rfl
    · cases leg <;> exact ordered
  · intro leg
    refine Reporter.averages_of_fits ⟨enabled, ?_, ?_, ?_⟩ (fits leg)
    · cases leg <;> rfl
    · cases leg <;> rfl
    · cases leg with
      | first => exact fresh1
      | second => exact fresh2

/-- An entry in which a structure behind the third argument points at the payload. -/
def slotConfig : ProgramConfig where
  name := "iflat_uprobe"
  settings := some <|
    AList.insert "rx1_iface" (.string "eno1") <| AList.insert "rx2_iface" (.string "tun0") <|
    AList.insert "target" (.string "/bin/app") <| AList.insert "symbol" (.string "submit") <|
    AList.insert "payload_ptr_offset" (.integer 8) ∅

def slotProgram : Program :=
  { Program.new with
    enabled := true, rx1Iface := "eno1", rx2Iface := "tun0", target := "/bin/app"
    symbol := "submit", payloadPtrOffset := 8 }

def slotAttached : Attached where
  rx1Iface := "eno1"
  rx2Iface := "tun0"
  site := ⟨"/bin/app", "submit", 0, .allProcesses⟩
  configMap := BoundedMap.empty.insert uprobeConfigKey ⟨3, 8, 0⟩

def slotJourney : List Event :=
  [⟨1000, .hook (.rx1 taggedPacket [])⟩, ⟨3000, .hook (.rx2 taggedPacket [])⟩,
    ⟨10000, .hook (.call ⟨fun index => if index = 2 then some 4096 else none,
      Memory.segment 4104 [16, 16, 0, 0, 0, 0, 0, 0, 1, 2, 3, 4]⟩)⟩, ⟨11000, .tick⟩]

theorem both_legs_slot_journey :
    Measured slotConfig slotProgram slotAttached slotJourney ∧
      (display slotAttached.configMap .first).recorded (State.loaded slotProgram) slotJourney =
        [2000] ∧
      (display slotAttached.configMap .second).recorded (State.loaded slotProgram) slotJourney =
        [7000] := by
  have first : (display slotAttached.configMap .first).recorded (State.loaded slotProgram)
      slotJourney = [2000] := by decide +kernel
  have second : (display slotAttached.configMap .second).recorded (State.loaded slotProgram)
      slotJourney = [7000] := by decide +kernel
  refine ⟨both_legs_of_fits ⟨by rfl, by rfl⟩ _ (by decide) ?_, first, second⟩
  intro leg
  cases leg with
  | first => exact ⟨by rw [first]; decide, by rw [first]; decide⟩
  | second => exact ⟨by rw [second]; decide, by rw [second]; decide⟩

end BpfAgent.IflatUprobe.EndToEnd
