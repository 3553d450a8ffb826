import BpfAgent.Irss.Program
import BpfAgent.Irss.Starvation
import BpfAgent.Lib.Correlator
import BpfAgent.Reporting

/-!
# IRSS: from receives and sends to the gauge

Runs of the four hooks and of the display tick in any order, from maps that
were loaded with some configuration.  Which tag an exit stores depends on the
pointer its thread has staged, so what an event does depends on the state.

TIMESTAMP_MAP is no LRU map: it never drops an entry, but refuses a new one
when it is full.
-/

namespace BpfAgent.Irss.EndToEnd

inductive Hook where
  | enter (pidTgid : UInt64) (args : Option SysEnterMsgArgs)
  | kprobe (pidTgid : UInt64) (port : Option UInt16)
  | exit (pidTgid : UInt64) (ret : Option Int64) (memory : Memory)
  | send (args : Option SysEnterMsgArgs) (memory : Memory)
  | tick

structure Event where
  now : UInt64
  hook : Hook

def Event.Ticks (event : Event) : Prop := event.hook = .tick

structure State where
  maps : Maps
  program : Program

def State.loaded (config : ProgramConfig) : State :=
  ⟨load (configured config), configured config⟩

def step (state : State) (event : Event) : State :=
  match event.hook with
  | .enter pidTgid args =>
      { state with maps := sysEnterRecvmsgHandler state.maps pidTgid args }
  | .kprobe pidTgid port => { state with maps := udpRecvmsgHandler state.maps pidTgid port }
  | .exit pidTgid ret memory =>
      { state with maps := sysExitRecvmsgHandler state.maps pidTgid ret memory event.now }
  | .send args memory =>
      { state with maps := sysEnterSendmsgHandler state.maps args memory event.now }
  | .tick => { state with program := displayMetrics state.program state.maps }

/-- The tag of a datagram to the configured destination. -/
def sentTag (maps : Maps) (args : Option SysEnterMsgArgs) (memory : Memory) : Option UInt32 := do
  let args ← args
  if readTxDest memory args.msg ≠ some (rawDest maps) then failure
  readPayloadKey memory args.msg

/-- The tag whose receipt the exit of a thread stores. -/
def storedTag (maps : Maps) (pidTgid : UInt64) (ret : Option Int64) (memory : Memory) :
    Option UInt32 :=
  (maps.recvMsgPtr.get pidTgid).bind (receivedTag ret memory)

def action (state : State) (event : Event) : Correlation.Action UInt32 UInt64 :=
  match event.hook with
  | .exit pidTgid ret memory =>
      (storedTag state.maps pidTgid ret memory).elim .keep fun tag => .store tag event.now
  | .send args memory => (sentTag state.maps args memory).elim .keep .take
  | _ => .keep

def sample (state : State) (event : Event) : Option UInt64 :=
  match event.hook with
  | .send args memory =>
      ((sentTag state.maps args memory).bind state.maps.timestampMap.get).map
        (Word.saturatingSub event.now)
  | _ => none

section Handlers

variable (maps : Maps) (args : Option SysEnterMsgArgs) (memory : Memory) (now : UInt64)

theorem sysEnterSendmsgHandler_eq :
    sysEnterSendmsgHandler maps args memory now =
      match (sentTag maps args memory).bind fun key =>
        (maps.timestampMap.get key).map fun rxTimestamp => (key, rxTimestamp) with
      | none => maps
      | some (key, rxTimestamp) =>
          { maps with
            timestampMap := maps.timestampMap.remove key
            latency := maps.latency.accumulateLatency (Word.saturatingSub now rxTimestamp) } := by
  unfold sysEnterSendmsgHandler sentTag
  cases args with
  | none => rfl
  | some args =>
      by_cases addressed : readTxDest memory args.msg = some (rawDest maps)
      · cases payload : readPayloadKey memory args.msg with
        | none => simp [addressed, payload]
        | some key => cases found : maps.timestampMap.get key <;> simp [addressed, payload, found]
      · simp [addressed]

theorem sysExitRecvmsgHandler_stored (pidTgid : UInt64) (ret : Option Int64) :
    (sysExitRecvmsgHandler maps pidTgid ret memory now).timestampMap =
      (storedTag maps pidTgid ret memory).elim maps.timestampMap
        fun tag => maps.timestampMap.insert tag now := by
  unfold storedTag
  cases staged : maps.recvMsgPtr.get pidTgid with
  | none =>
      rw [sysExitRecvmsgHandler_of_missing staged]
      rfl
  | some pointer =>
      rw [sysExitRecvmsgHandler_of_staged staged, Option.bind_some]
      cases receivedTag ret memory pointer <;> rfl

theorem udpRecvmsgHandler_latency (pidTgid : UInt64) (port : Option UInt16) :
    (udpRecvmsgHandler maps pidTgid port).latency = maps.latency := by
  cases port with
  | none => rfl
  | some port =>
      unfold udpRecvmsgHandler
      dsimp only
      split <;> rfl

theorem udpRecvmsgHandler_rawDest (pidTgid : UInt64) (port : Option UInt16) :
    rawDest (udpRecvmsgHandler maps pidTgid port) = rawDest maps := by
  cases port with
  | none => rfl
  | some port =>
      unfold udpRecvmsgHandler
      dsimp only
      split <;> rfl

end Handlers

section Step

variable {state : State} {event : Event}

theorem action_eq_store {tag : UInt32} {value : UInt64}
    (stores : action state event = .store tag value) :
    value = event.now ∧
      (step state event).maps.timestampMap = state.maps.timestampMap.insert tag value := by
  unfold action at stores
  unfold step
  cases hook : event.hook with
  | exit pidTgid ret memory =>
      rw [hook] at stores
      simp only [sysExitRecvmsgHandler_stored]
      cases stored : storedTag state.maps pidTgid ret memory with
      | none => simp [stored] at stores
      | some received =>
          simp only [stored, Option.elim_some] at stores
          cases stores
          exact ⟨rfl, rfl⟩
  | send args memory =>
      rw [hook] at stores
      cases sent : sentTag state.maps args memory <;> simp [sent] at stores
  | enter pidTgid args => simp [hook] at stores
  | kprobe pidTgid port => simp [hook] at stores
  | tick => simp [hook] at stores

theorem action_eq_take {tag : UInt32} (takes : action state event = .take tag) :
    ∃ args memory, event.hook = .send args memory ∧
      sentTag state.maps args memory = some tag := by
  unfold action at takes
  cases hook : event.hook with
  | exit pidTgid ret memory =>
      rw [hook] at takes
      cases stored : storedTag state.maps pidTgid ret memory <;> simp [stored] at takes
  | send args memory =>
      rw [hook] at takes
      cases sent : sentTag state.maps args memory with
      | none => simp [sent] at takes
      | some other =>
          simp only [sent, Option.elim_some] at takes
          cases takes
          exact ⟨args, memory, rfl, sent⟩
  | enter pidTgid args => simp [hook] at takes
  | kprobe pidTgid port => simp [hook] at takes
  | tick => simp [hook] at takes

theorem get_take {tag : UInt32} (takes : action state event = .take tag) (other : UInt32) :
    (step state event).maps.timestampMap.get other =
      if other = tag then none else state.maps.timestampMap.get other := by
  obtain ⟨args, memory, hook, sent⟩ := action_eq_take takes
  simp only [step, hook, sysEnterSendmsgHandler_eq, sent, Option.bind_some]
  cases found : state.maps.timestampMap.get tag with
  | none =>
      by_cases same : other = tag
      · rw [if_pos same, same]
        exact found
      · rw [if_neg same]
        rfl
  | some rxTimestamp => simp

theorem action_eq_keep (keeps : action state event = .keep) :
    (step state event).maps.timestampMap = state.maps.timestampMap := by
  unfold action at keeps
  unfold step
  cases hook : event.hook with
  | enter pidTgid args => exact (sysEnterRecvmsgHandler_frame _ _ _).1
  | kprobe pidTgid port => exact (udpRecvmsgHandler_frame _ _ _).1
  | exit pidTgid ret memory =>
      rw [hook] at keeps
      simp only [sysExitRecvmsgHandler_stored]
      cases stored : storedTag state.maps pidTgid ret memory with
      | none => rfl
      | some tag => simp [stored] at keeps
  | send args memory =>
      rw [hook] at keeps
      simp only [sysEnterSendmsgHandler_eq]
      cases sent : sentTag state.maps args memory with
      | none => rfl
      | some tag => simp [sent] at keeps
  | tick => rfl

theorem sample_eq (state : State) (event : Event) :
    sample state event =
      ((action state event).found state.maps.timestampMap.get).map
        (Word.saturatingSub event.now) := by
  unfold sample action
  cases event.hook with
  | send args memory =>
      cases sent : sentTag state.maps args memory <;> simp [sent, Correlation.Action.found]
  | exit pidTgid ret memory =>
      cases stored : storedTag state.maps pidTgid ret memory <;>
        simp [stored, Correlation.Action.found]
  | enter pidTgid args => rfl
  | kprobe pidTgid port => rfl
  | tick => rfl

/-- Every sample, and nothing else, is added to the accumulators. -/
theorem step_latency (state : State) (event : Event) :
    (step state event).maps.latency = state.maps.latency.add (sample state event) := by
  unfold step sample
  cases event.hook with
  | enter pidTgid args => cases args <;> rfl
  | kprobe pidTgid port => exact udpRecvmsgHandler_latency state.maps pidTgid port
  | exit pidTgid ret memory => exact (sysExitRecvmsgHandler_rest ..).1
  | send args memory =>
      simp only [sysEnterSendmsgHandler_eq]
      cases sent : sentTag state.maps args memory with
      | none => rfl
      | some tag => cases found : state.maps.timestampMap.get tag <;> simp [found, Accumulator.add]
  | tick => rfl

theorem step_rawDest (state : State) (event : Event) :
    rawDest (step state event).maps = rawDest state.maps := by
  unfold step
  cases event.hook with
  | enter pidTgid args => cases args <;> rfl
  | kprobe pidTgid port => exact udpRecvmsgHandler_rawDest state.maps pidTgid port
  | exit pidTgid ret memory => exact (sysExitRecvmsgHandler_rest ..).2
  | send args memory =>
      simp only [sysEnterSendmsgHandler_eq]
      split <;> rfl
  | tick => rfl

end Step

/-- A full map does not take a new tag; nothing else is ever lost. -/
def refuses (state : State) (event : Event) (tag : UInt32) : Prop :=
  (action state event).Stores tag ∧ ¬state.maps.timestampMap.Room tag

theorem get_of_store {state : State} {event : Event} {tag : UInt32} {value : UInt64}
    (stores : action state event = .store tag value) {other : UInt32}
    (kept : ¬refuses state event other) :
    (step state event).maps.timestampMap.get other =
      if other = tag then some value else state.maps.timestampMap.get other := by
  rw [(action_eq_store stores).2]
  by_cases room : state.maps.timestampMap.Room tag
  · exact BoundedMap.get_insert_of_room room value other
  · have different : other ≠ tag := by
      rintro rfl
      exact kept ⟨⟨value, stores⟩, room⟩
    rw [BoundedMap.insert_of_not_room room, if_neg different]

theorem get_of_refuses {state : State} {event : Event} {tag : UInt32}
    (refused : refuses state event tag) :
    (step state event).maps.timestampMap.get tag = none := by
  obtain ⟨⟨value, stores⟩, full⟩ := refused
  rw [(action_eq_store stores).2, BoundedMap.insert_of_not_room full]
  exact BoundedMap.notMem_iff_get.mp fun present => full (.inl present)

def forwarding : Correlation.Tracker State Event UInt32 where
  step := step
  lookup state := state.maps.timestampMap.get
  action := action
  clock := Event.now
  sample := sample
  evicts := refuses
  keep state event keeps := by rw [action_eq_keep keeps]
  store state event tag value stores other kept := get_of_store stores kept
  lost state event tag := get_of_refuses
  take state event tag takes other := get_take takes other
  stamped state event tag value stores := (action_eq_store stores).1
  sampled := sample_eq

def display : Reporter State Event where
  step := step
  sample := sample
  isTick := Event.Ticks
  accumulator state := state.maps.latency
  baseline state := state.program.baseline
  gauge state := state.program.avgLatencyUs
  live _ := True
  adds := step_latency
  silent state event tick := by
    rw [Event.Ticks] at tick
    simp [sample, tick]
  stays _ _ live := live
  quiet state event quiet := by
    unfold step
    cases hook : event.hook with
    | tick => exact absurd hook quiet
    | enter pidTgid args => rfl
    | kprobe pidTgid port => rfl
    | exit pidTgid ret memory => rfl
    | send args memory => rfl
  shows state event _ tick := by
    rw [Event.Ticks] at tick
    simp [step, tick, displayMetrics]
  rebases state event _ tick := by
    rw [Event.Ticks] at tick
    simp [step, tick, displayMetrics]

/-- The samples are the times from the receipt of a tag to its transmission to
the configured destination, and every tick shows the average of the samples
since the tick before it. -/
structure Measured (config : ProgramConfig) (events : List Event) : Prop where
  measures : Correlation.Measures (forwarding.actions (State.loaded config) events)
    (forwarding.evicted (State.loaded config) events) (forwarding.clockAt events)
    (forwarding.samples (State.loaded config) events)
  /-- Nothing is lost but what arrives when the map is full. -/
  refused : ∀ index tag, forwarding.evicted (State.loaded config) events index tag →
      (forwarding.actions (State.loaded config) events index).Stores tag ∧
        ¬(Run.stateAt step (State.loaded config) events index).maps.timestampMap.Room tag
  addressed : ∀ index tag, forwarding.actions (State.loaded config) events index = .take tag ↔
    ∃ args memory address, (events[index]?).map Event.hook = some (.send (some args) memory) ∧
      Destination config address ∧ AddressedTo memory args.msg address.octets ∧
      readPayloadKey memory args.msg = some tag
  averages : display.Averages (State.loaded config) events

variable {config : ProgramConfig} {events : List Event}

theorem rawDest_stateAt (index : Nat) :
    rawDest (Run.stateAt step (State.loaded config) events index).maps =
      rawDest (load (configured config)) := by
  have start : rawDest (State.loaded config).maps = rawDest (load (configured config)) := rfl
  refine List.foldlRecOn
    (motive := fun state => rawDest state.maps = rawDest (load (configured config)))
    (events.take index) step start ?_
  intro state same event _
  rw [step_rawDest, same]

theorem sentTag_eq_some_iff {maps : Maps} {args : Option SysEnterMsgArgs} {memory : Memory}
    {tag : UInt32} (destination : rawDest maps = rawDest (load (configured config))) :
    sentTag maps args memory = some tag ↔
      ∃ read address, args = some read ∧ Destination config address ∧
        AddressedTo memory read.msg address.octets ∧
        readPayloadKey memory read.msg = some tag := by
  rw [sentTag, destination, rawDest_load]
  cases args with
  | none => simp
  | some args =>
      have reads : _ ↔ AddressedTo memory args.msg (configured config).rawDest.octets :=
        readTxDest_eq_some_iff rfl
      simp only [Option.bind_eq_bind, Option.bind_some, Option.some.injEq, ne_eq]
      by_cases own : readTxDest memory args.msg =
          some (Memory.field (configured config).rawDest.octets 0 4).toUInt32
      · simp only [own, not_true_eq_false, if_false]
        constructor
        · intro payload
          exact ⟨args, _, rfl, parseRawDest_eq_iff.mp rfl, reads.mp own, payload⟩
        · rintro ⟨_, _, rfl, -, -, payload⟩
          exact payload
      · refine iff_of_false (by simp [own]) ?_
        rintro ⟨_, address, rfl, spelled, other, -⟩
        rw [← parseRawDest_eq_iff.mpr spelled] at other
        exact own (reads.mpr other)

theorem take_iff (index : Nat) (tag : UInt32) :
    forwarding.actions (State.loaded config) events index = .take tag ↔
      ∃ args memory address, (events[index]?).map Event.hook = some (.send (some args) memory) ∧
        Destination config address ∧ AddressedTo memory args.msg address.octets ∧
        readPayloadKey memory args.msg = some tag := by
  have destination := @rawDest_stateAt config events index
  constructor
  · intro took
    obtain ⟨event, handled, takes⟩ := forwarding.exists_of_action took (by simp)
    obtain ⟨args, memory, hook, sent⟩ := action_eq_take takes
    obtain ⟨args, address, rfl, spelled, own, payload⟩ :=
      (sentTag_eq_some_iff destination).mp sent
    exact ⟨args, memory, address, by rw [handled, Option.map_some, hook], spelled, own, payload⟩
  · rintro ⟨args, memory, address, sends, spelled, own, payload⟩
    obtain ⟨event, handled, hook⟩ := Option.map_eq_some_iff.mp sends
    have sent := (sentTag_eq_some_iff destination).mpr
      ⟨args, address, rfl, spelled, own, payload⟩
    rw [Correlation.Tracker.actions, handled]
    change action (Run.stateAt step (State.loaded config) events index) event = _
    rw [action, hook]
    simp only [sent, Option.elim_some]

theorem refused_of_evicted {index : Nat} {tag : UInt32}
    (evicted : forwarding.evicted (State.loaded config) events index tag) :
    (forwarding.actions (State.loaded config) events index).Stores tag ∧
      ¬(Run.stateAt step (State.loaded config) events index).maps.timestampMap.Room tag := by
  obtain ⟨event, handled, stores, full⟩ := evicted
  refine ⟨?_, full⟩
  rw [Correlation.Tracker.actions, handled]
  exact stores

/-- Whatever is configured, along every run the hooks measure the datagrams
forwarded to the configured destination and the ticks report their averages. -/
theorem measured_of_fits (config : ProgramConfig) (events : List Event)
    (ordered : events.Pairwise fun earlier later => earlier.now ≤ later.now)
    (fits : display.Fits (State.loaded config) events) : Measured config events where
  measures := forwarding.measures (fun _ => rfl) ordered
  refused _ _ := refused_of_evicted
  addressed := take_iff
  averages := Reporter.averages_of_fits ⟨trivial, rfl, rfl, rfl⟩ fits

def otherDest : ProgramConfig where
  name := "irss"
  settings := some (AList.insert "raw_dest" (.string "192.0.2.1") ∅)

def otherDestMemory : Memory :=
  msghdrMemory [2, 0, 0, 0, 192, 0, 2, 1, 0, 0, 0, 0, 0, 0, 0, 0] [1, 2, 3, 4]

def forwardedOnce : List Event :=
  [⟨500, .enter 1 (some ⟨3, 4096⟩)⟩, ⟨600, .kprobe 1 (some 5020)⟩,
    ⟨1000, .exit 1 (some 4) otherDestMemory⟩, ⟨5000, .send (some ⟨4, 4096⟩) otherDestMemory⟩,
    ⟨6000, .tick⟩]

theorem measured_forwarded_once :
    Measured otherDest forwardedOnce ∧
      display.recorded (State.loaded otherDest) forwardedOnce = [4000] ∧
      (display.stateAfter (State.loaded otherDest) forwardedOnce).program.avgLatencyUs = 4 := by
  have recorded : display.recorded (State.loaded otherDest) forwardedOnce = [4000] := by
    decide +kernel
  refine ⟨measured_of_fits _ _ (by decide) ⟨?_, ?_⟩, recorded, by decide +kernel⟩
  · rw [recorded]
    decide
  · rw [recorded]
    decide

end BpfAgent.Irss.EndToEnd
