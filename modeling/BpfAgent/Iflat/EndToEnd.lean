import BpfAgent.Iflat.Ebpf
import BpfAgent.Lib.Correlator

/-!
# IFLAT: from packets to the gauge

Runs of the two hooks and of the display tick in any order.  The hooks measure
the time between the receipt and the transmission of a tag, and each tick
reports the average of what was measured since the tick before.
-/

namespace BpfAgent.Iflat

inductive Hook where
  /-- A frame on the ingress interface; storing its timestamp loses `victims`. -/
  | rx (frame : List UInt8) (victims : List UInt32)
  | tx (packet : List UInt8)
  | tick
  deriving DecidableEq

structure Event where
  now : UInt64
  hook : Hook

structure State where
  maps : Maps
  program : Program

def State.loaded : State := ⟨Maps.empty, Program.new⟩

def step (state : State) (event : Event) : State :=
  match event.hook with
  | .rx frame victims =>
      { state with maps := xdpRxHandler state.maps frame event.now victims }
  | .tx packet => { state with maps := (tcTxHandler state.maps packet event.now).1 }
  | .tick => { state with program := displayMetrics state.program state.maps }

def sample (state : State) (event : Event) : Option UInt64 :=
  match event.hook with
  | .tx packet => (tcTxHandler state.maps packet event.now).2
  | _ => none

/-- What an event does to the timestamps. -/
def action (event : Event) : Correlation.Action UInt32 UInt64 :=
  match event.hook with
  | .rx frame _ => (rxTag frame).elim .keep fun tag => .store tag event.now
  | .tx packet => (txTag packet).elim .keep .take
  | .tick => .keep

/-- The timestamps that storing a new one evicts: the victims the event names,
and the oldest one if the map is full. -/
def evicts (state : State) (event : Event) (tag : UInt32) : Prop :=
  match event.hook with
  | .rx frame victims =>
      ∃ stored, rxTag frame = some stored ∧ state.maps.timestampMap.Evicts stored victims tag
  | _ => False

section Step

variable (state : State) {event : Event}

omit state in
theorem action_eq_store {tag : UInt32} {value : UInt64} (stores : action event = .store tag value) :
    value = event.now ∧ ∃ frame victims, event.hook = .rx frame victims ∧
      rxTag frame = some tag := by
  unfold action at stores
  cases hook : event.hook with
  | rx frame victims =>
      rw [hook] at stores
      cases parsed : rxTag frame with
      | none => simp [parsed] at stores
      | some received =>
          simp only [parsed, Option.elim_some] at stores
          cases stores
          exact ⟨rfl, frame, victims, rfl, parsed⟩
  | tx packet =>
      rw [hook] at stores
      cases parsed : txTag packet <;> simp [parsed] at stores
  | tick =>
      rw [hook] at stores
      cases stores

theorem step_timestampMap_rx {frame : List UInt8} {victims : List UInt32} {tag : UInt32}
    (hook : event.hook = .rx frame victims) (parsed : rxTag frame = some tag) :
    (step state event).maps.timestampMap =
      state.maps.timestampMap.insertEvicting tag event.now victims := by
  simp [step, hook, xdpRxHandler, parsed]

theorem get_of_store {tag : UInt32} {value : UInt64} (stores : action event = .store tag value)
    {other : UInt32} (kept : ¬evicts state event other) :
    (step state event).maps.timestampMap.get other =
      if other = tag then some value else state.maps.timestampMap.get other := by
  obtain ⟨rfl, frame, victims, hook, parsed⟩ := action_eq_store stores
  rw [step_timestampMap_rx state hook parsed]
  apply BoundedMap.get_insertEvicting_of_kept
  rw [evicts, hook] at kept
  exact fun lost => kept ⟨tag, parsed, lost⟩

theorem get_of_evicts {tag : UInt32} (lost : evicts state event tag) :
    (step state event).maps.timestampMap.get tag = none := by
  unfold evicts at lost
  cases hook : event.hook with
  | rx frame victims =>
      rw [hook] at lost
      obtain ⟨stored, parsed, lost⟩ := lost
      rw [step_timestampMap_rx state hook parsed]
      exact BoundedMap.get_insertEvicting_of_evicts lost
  | tx packet =>
      rw [hook] at lost
      exact lost.elim
  | tick =>
      rw [hook] at lost
      exact lost.elim

theorem action_eq_take {tag : UInt32} (takes : action event = .take tag) (other : UInt32) :
    (step state event).maps.timestampMap.get other =
      if other = tag then none else state.maps.timestampMap.get other := by
  unfold action at takes
  unfold step
  cases hook : event.hook with
  | rx frame victims =>
      rw [hook] at takes
      cases parsed : rxTag frame <;> simp [parsed] at takes
  | tx packet =>
      rw [hook] at takes
      cases parsed : txTag packet with
      | none => simp [parsed] at takes
      | some sent =>
          simp only [parsed, Option.elim_some] at takes
          cases takes
          cases found : state.maps.timestampMap.get tag with
          | none =>
              simp only [tcTxHandler, parsed, found]
              by_cases same : other = tag
              · rw [if_pos same, same, found]
              · rw [if_neg same]
          | some rxTimestamp => simp [tcTxHandler, parsed, found]
  | tick =>
      rw [hook] at takes
      cases takes

theorem action_eq_keep (keeps : action event = .keep) :
    (step state event).maps.timestampMap = state.maps.timestampMap := by
  unfold action at keeps
  unfold step
  cases hook : event.hook with
  | rx frame victims =>
      rw [hook] at keeps
      cases parsed : rxTag frame with
      | none => simp [xdpRxHandler, parsed]
      | some tag => simp [parsed] at keeps
  | tx packet =>
      rw [hook] at keeps
      cases parsed : txTag packet with
      | none => simp [tcTxHandler, parsed]
      | some tag => simp [parsed] at keeps
  | tick => rfl

theorem sample_eq (event : Event) :
    sample state event =
      ((action event).found state.maps.timestampMap.get).map (Word.saturatingSub event.now) := by
  unfold sample action
  cases event.hook with
  | rx frame victims =>
      cases parsed : rxTag frame <;> simp [parsed, Correlation.Action.found]
  | tx packet =>
      cases parsed : txTag packet with
      | none => simp [tcTxHandler, parsed, Correlation.Action.found]
      | some tag =>
          cases found : state.maps.timestampMap.get tag <;>
            simp [tcTxHandler, parsed, found, Correlation.Action.found]
  | tick => rfl

/-- Every sample, and nothing else, is added to the accumulators. -/
theorem step_latency (event : Event) :
    (step state event).maps.latency = state.maps.latency.add (sample state event) := by
  unfold step sample
  cases event.hook with
  | rx frame victims => cases parsed : rxTag frame <;> simp [xdpRxHandler, parsed, Accumulator.add]
  | tx packet =>
      cases parsed : txTag packet with
      | none => simp [tcTxHandler, parsed, Accumulator.add]
      | some tag =>
          cases found : state.maps.timestampMap.get tag <;>
            simp [tcTxHandler, parsed, found, Accumulator.add]
  | tick => rfl

end Step

def forwarding : Correlation.Correlator State Event UInt32 where
  step := step
  lookup state := state.maps.timestampMap.get
  action := action
  clock := Event.now
  sample := sample
  evicts := evicts
  keep state event keeps := by rw [action_eq_keep state keeps]
  store state event tag value stores other kept := get_of_store state stores kept
  lost state event tag lost := get_of_evicts state lost
  take state event tag takes other := action_eq_take state takes other
  stamped event tag value stores := (action_eq_store stores).1
  sampled := sample_eq

def recorded (events : List Event) : List UInt64 :=
  Run.outputs step sample State.loaded events

def stateAfter (events : List Event) : State := events.foldl step State.loaded

/-- The run `before` ends with a tick, or nothing has happened yet. -/
def AtTick (before : List Event) : Prop :=
  before = [] ∨ ∃ earlier last, before = earlier ++ [last] ∧ last.hook = .tick

/-- The event is a receipt that may cost the timestamp of `tag`: it names the tag as
a victim, or its own tag finds the map full of others. -/
def Displaces (events : List Event) (index : Nat) (tag : UInt32) : Prop :=
  ∃ frame victims stored, (events[index]?).map Event.hook = some (.rx frame victims) ∧
    rxTag frame = some stored ∧
    (tag ∈ victims ∨
      ¬(Run.stateAt step State.loaded events index).maps.timestampMap.Room stored ∧
        tag ∈ (Run.stateAt step State.loaded events index).maps.timestampMap)

/-- The samples are the times from receipt to transmission, and every tick feeds
the gauge the average of the samples since the tick before it. -/
structure EndToEnd (events : List Event) : Prop where
  measures : Correlation.Measures (forwarding.actions events)
    (forwarding.evicted State.loaded events) (forwarding.clockAt events)
    (forwarding.samples State.loaded events)
  evicted : ∀ index tag, forwarding.evicted State.loaded events index tag →
    Displaces events index tag
  gauge : ∀ before between tick after, events = before ++ between ++ tick :: after →
    AtTick before → (∀ event ∈ between, event.hook ≠ .tick) → tick.hook = .tick →
    (stateAfter (before ++ between ++ [tick])).program.avgLatencyUs.toNat =
      averageUs (Run.outputs step sample (stateAfter before) between)

theorem step_enabled (state : State) (event : Event) :
    (step state event).program.enabled = state.program.enabled := by
  unfold step
  cases event.hook with
  | rx frame victims => rfl
  | tx packet => rfl
  | tick =>
      simp only [displayMetrics]
      split <;> rfl

theorem stateAfter_enabled (events : List Event) :
    (stateAfter events).program.enabled = true := by
  have start : State.loaded.program.enabled = true := rfl
  refine List.foldlRecOn (motive := fun state => state.program.enabled = true) events step
    start ?_
  intro state enabled event _
  rw [step_enabled, enabled]

theorem step_program {state : State} {event : Event} (quiet : event.hook ≠ .tick) :
    (step state event).program = state.program := by
  unfold step
  cases hook : event.hook with
  | rx frame victims => rfl
  | tx packet => rfl
  | tick => exact absurd hook quiet

theorem foldl_step_program {events : List Event} (quiet : ∀ event ∈ events, event.hook ≠ .tick)
    (state : State) : (events.foldl step state).program = state.program := by
  induction events generalizing state with
  | nil => rfl
  | cons event events inductionHypothesis =>
      rw [List.foldl_cons,
        inductionHypothesis fun other member => quiet other (List.mem_cons_of_mem _ member),
        step_program (quiet event List.mem_cons_self)]

theorem step_tick {state : State} (event : Event) (tick : event.hook = .tick)
    (enabled : state.program.enabled = true) :
    (step state event).maps = state.maps ∧
      (step state event).program.avgLatencyUs =
        (report state.program.baseline state.maps.latency).1 ∧
      (step state event).program.baseline =
        (report state.program.baseline state.maps.latency).2 := by
  unfold step
  rw [tick]
  simp [displayMetrics, enabled]

theorem grown_foldl {baseline : Baseline} {state : State} {latencies : List UInt64}
    (grown : Grown baseline state.maps.latency latencies) (events : List Event)
    (sumFits : state.maps.latency.sum.toNat +
      ((Run.outputs step sample state events).map UInt64.toNat).sum < 2 ^ 64)
    (countFits : state.maps.latency.count.toNat +
      (Run.outputs step sample state events).length < 2 ^ 64) :
    Grown baseline (events.foldl step state).maps.latency
      (latencies ++ Run.outputs step sample state events) :=
  @Grown.run State Event step sample (fun state => state.maps.latency) baseline
    step_latency state latencies grown events sumFits countFits

theorem AtTick.grown {before : List Event} (atTick : AtTick before) :
    Grown (stateAfter before).program.baseline (stateAfter before).maps.latency [] := by
  rcases atTick with rfl | ⟨earlier, last, rfl, tick⟩
  · exact ⟨rfl, rfl⟩
  · have final : stateAfter (earlier ++ [last]) = step (stateAfter earlier) last := by
      rw [stateAfter, List.foldl_append]
      rfl
    obtain ⟨maps, -, baseline⟩ := step_tick last tick (stateAfter_enabled earlier)
    rw [final, maps, baseline]
    exact Grown.reset _ _

/-- Runs whose latencies and whose number of samples fit into a machine word. -/
structure Fits (events : List Event) : Prop where
  total : ((recorded events).map UInt64.toNat).sum < 2 ^ 64
  number : (recorded events).length < 2 ^ 64

theorem Fits.gauge {before between after : List Event} {tick : Event}
    (fits : Fits (before ++ between ++ tick :: after)) (atTick : AtTick before)
    (quiet : ∀ event ∈ between, event.hook ≠ .tick) (ticks : tick.hook = .tick) :
    (stateAfter (before ++ between ++ [tick])).program.avgLatencyUs.toNat =
      averageUs (Run.outputs step sample (stateAfter before) between) := by
  have total := fits.total
  have number := fits.number
  simp only [recorded, List.append_assoc, Run.outputs_append, List.map_append,
    List.sum_append, List.length_append] at total number
  -- The accumulators hold all samples before the previous tick, so those since fit.
  have sofar : Grown ⟨0, 0⟩ (stateAfter before).maps.latency
      ([] ++ Run.outputs step sample State.loaded before) := by
    apply grown_foldl ⟨rfl, rfl⟩
    · have start : State.loaded.maps.latency.sum.toNat = 0 := rfl
      omega
    · have start : State.loaded.maps.latency.count.toNat = 0 := rfl
      omega
  have sum := sofar.sum
  have count := sofar.count
  have zero : (0 : UInt64).toNat = 0 := rfl
  simp only [List.nil_append, zero, Nat.zero_add] at sum count
  have grown := grown_foldl atTick.grown between
    (by rw [sum, stateAfter]; omega) (by rw [count, stateAfter]; omega)
  have reached : stateAfter (before ++ between ++ [tick]) =
      step (between.foldl step (stateAfter before)) tick := by
    simp only [stateAfter, List.foldl_append, List.foldl_cons, List.foldl_nil]
  have enabled : (between.foldl step (stateAfter before)).program.enabled = true := by
    rw [foldl_step_program quiet]
    exact stateAfter_enabled before
  rw [reached, (step_tick tick ticks enabled).2.1, foldl_step_program quiet]
  exact grown.report

theorem displaces_of_evicted {events : List Event} {index : Nat} {tag : UInt32}
    (evicted : forwarding.evicted State.loaded events index tag) :
    Displaces events index tag := by
  obtain ⟨event, handled, lost⟩ := evicted
  change evicts _ event tag at lost
  unfold evicts at lost
  cases hook : event.hook with
  | rx frame victims =>
      rw [hook] at lost
      obtain ⟨stored, parsed, lost⟩ := lost
      exact ⟨frame, victims, stored, by rw [handled, Option.map_some, hook], parsed,
        lost.victim_or_full (by decide)⟩
  | tx packet =>
      rw [hook] at lost
      exact lost.elim
  | tick =>
      rw [hook] at lost
      exact lost.elim

/-- Along every run the hooks measure forwarding times and the ticks report
their averages. -/
theorem endToEnd_of_fits (events : List Event)
    (ordered : events.Pairwise fun earlier later => earlier.now ≤ later.now)
    (fits : Fits events) : EndToEnd events where
  measures := forwarding.measures (fun _ => rfl) ordered
  evicted _ _ := displaces_of_evicted
  gauge := by
    rintro before between tick after rfl atTick quiet ticks
    exact fits.gauge atTick quiet ticks

def ethernetFrame (packet : List UInt8) : List UInt8 :=
  List.replicate 12 0xaa ++ [0x08, 0x00] ++ packet

def taggedPacket : List UInt8 :=
  [0x45, 0, 0, 32, 0, 0, 0, 0, 64, 17, 0, 0, 10, 0, 0, 1, 10, 0, 0, 2,
    0x03, 0xe8, 0x13, 0x9c, 0, 12, 0, 0, 1, 2, 3, 4]

def received (now : UInt64) : Event := ⟨now, .rx (ethernetFrame taggedPacket) []⟩

def transmitted (now : UInt64) : Event := ⟨now, .tx taggedPacket⟩

def displayed (now : UInt64) : Event := ⟨now, .tick⟩

theorem endToEnd_two_samples :
    EndToEnd [received 1000, transmitted 4000, received 5000, transmitted 8000,
      displayed 9000] ∧
      recorded [received 1000, transmitted 4000, received 5000, transmitted 8000,
        displayed 9000] = [3000, 3000] :=
  ⟨endToEnd_of_fits _ (by decide) ⟨by decide, by decide⟩, by decide⟩

theorem forward_run {state : State} (empty : state.maps.timestampMap = .empty)
    (now : UInt64) :
    Run.outputs step sample state [received 0, transmitted now] = [now] ∧
      ([received 0, transmitted now].foldl step state).maps =
        ⟨.empty, state.maps.latency.accumulateLatency now⟩ ∧
      ([received 0, transmitted now].foldl step state).program = state.program := by
  have rxParsed : rxTag (ethernetFrame taggedPacket) = some 0x01020304 := by decide
  have txParsed : txTag taggedPacket = some 0x01020304 := by decide
  have stored : (step state (received 0)).maps =
      ⟨BoundedMap.empty.insertEvicting 0x01020304 0 [], state.maps.latency⟩ := by
    simp [step, received, xdpRxHandler, rxParsed, empty]
  have found : (BoundedMap.empty.insertEvicting 0x01020304 0 [] :
      BoundedMap UInt32 UInt64 1024).get 0x01020304 = some 0 := by decide
  have elapsed : Word.saturatingSub now 0 = now := by
    apply UInt64.toNat_inj.mp
    simp
  have handled : tcTxHandler (step state (received 0)).maps taggedPacket now =
      (⟨.empty, state.maps.latency.accumulateLatency now⟩, some now) := by
    rw [stored]
    simp only [tcTxHandler, txParsed, found, elapsed]
    rfl
  refine ⟨?_, ?_, rfl⟩
  · have silent : sample state (received 0) = none := rfl
    have measured : sample (step state (received 0)) (transmitted now) = some now :=
      congrArg Prod.snd handled
    rw [Run.outputs, Run.outputs, Run.outputs, silent, measured]
    rfl
  · exact congrArg Prod.fst handled

def instantly : Nat → List Event
  | 0 => []
  | count + 1 => [received 0, transmitted 0] ++ instantly count

theorem instantly_run {state : State} (empty : state.maps.timestampMap = .empty)
    (count : Nat) :
    Run.outputs step sample state (instantly count) = List.replicate count 0 ∧
      ((instantly count).foldl step state).maps.timestampMap = .empty := by
  induction count generalizing state with
  | zero => exact ⟨rfl, empty⟩
  | succ count inductionHypothesis =>
      obtain ⟨first, maps, -⟩ := forward_run empty 0
      have rest := inductionHypothesis (congrArg Maps.timestampMap maps)
      rw [instantly, Run.outputs_append, List.foldl_append, first, rest.1]
      exact ⟨rfl, rest.2⟩

theorem instantly_now {count : Nat} {event : Event} (member : event ∈ instantly count) :
    event.now = 0 := by
  induction count with
  | zero => cases member
  | succ count inductionHypothesis =>
      rcases List.mem_append.mp member with first | rest
      · simp only [List.mem_cons, List.not_mem_nil, or_false] at first
        rcases first with rfl | rfl <;> rfl
      · exact inductionHypothesis rest

/-- `count` packets, a tick, one packet that takes a millisecond, and a tick. -/
def oneMore (count : Nat) : List Event :=
  (instantly count ++ [displayed 0]) ++ [received 0, transmitted 1000000] ++
    [displayed 1000000]

section OneMore

variable (count : Nat)

theorem oneMore_ordered :
    (oneMore count).Pairwise fun earlier later => earlier.now ≤ later.now := by
  have instant : (instantly count).Pairwise fun earlier later => earlier.now ≤ later.now := by
    apply List.pairwise_of_forall_mem_list
    intro earlier first later second
    rw [instantly_now first, instantly_now second]
    exact UInt64.zero_le
  unfold oneMore
  rw [List.append_assoc, List.append_assoc]
  refine List.pairwise_append.mpr ⟨instant, by decide, ?_⟩
  intro earlier first later _
  rw [instantly_now first]
  exact UInt64.zero_le

theorem instantly_state :
    (stateAfter (instantly count)).maps.timestampMap = .empty ∧
      Run.outputs step sample State.loaded (instantly count) = List.replicate count 0 :=
  ⟨(instantly_run rfl count).2, (instantly_run rfl count).1⟩

theorem stateAfter_tick :
    stateAfter (instantly count ++ [displayed 0]) =
      step (stateAfter (instantly count)) (displayed 0) := by
  rw [stateAfter, List.foldl_append]
  rfl

theorem tick_timestampMap :
    (stateAfter (instantly count ++ [displayed 0])).maps.timestampMap = .empty := by
  rw [stateAfter_tick, (step_tick _ rfl (stateAfter_enabled _)).1]
  exact (instantly_state count).1

theorem oneMore_recorded : recorded (oneMore count) = List.replicate count 0 ++ [1000000] := by
  have last : Run.outputs step sample (stateAfter (instantly count ++ [displayed 0]))
      ([received 0, transmitted 1000000] ++ [displayed 1000000]) = [1000000] := by
    rw [Run.outputs_append, (forward_run (tick_timestampMap count) 1000000).1]
    rfl
  rw [recorded, oneMore, List.append_assoc, Run.outputs_append, Run.outputs_append,
    (instantly_state count).2]
  have silent : Run.outputs step sample (stateAfter (instantly count)) [displayed 0] = [] := rfl
  rw [stateAfter] at silent last
  rw [silent, List.append_nil, last]

theorem instantly_count (small : count < 2 ^ 64) :
    (stateAfter (instantly count)).maps.latency.count.toNat = count := by
  have start : Grown ⟨0, 0⟩ State.loaded.maps.latency [] := ⟨rfl, rfl⟩
  have noSum : State.loaded.maps.latency.sum.toNat = 0 := rfl
  have noCount : State.loaded.maps.latency.count.toNat = 0 := rfl
  have grown := grown_foldl start (instantly count)
    (by rw [(instantly_state count).2]; simp [noSum])
    (by rw [(instantly_state count).2]; simpa [noCount] using small)
  have counted := grown.count
  rw [(instantly_state count).2] at counted
  simpa [stateAfter] using counted

theorem oneMore_gauge (full : count + 1 = 2 ^ 64) :
    (stateAfter (oneMore count)).program.avgLatencyUs.toNat = 0 := by
  obtain ⟨-, maps, program⟩ := forward_run (tick_timestampMap count) 1000000
  have latency : (stateAfter (instantly count ++ [displayed 0])).maps.latency =
      (stateAfter (instantly count)).maps.latency := by
    rw [stateAfter_tick, (step_tick _ rfl (stateAfter_enabled _)).1]
  have reached : stateAfter (oneMore count) =
      step ([received 0, transmitted 1000000].foldl step
        (stateAfter (instantly count ++ [displayed 0]))) (displayed 1000000) := by
    simp only [stateAfter, oneMore, List.foldl_append, List.foldl_cons, List.foldl_nil]
  have enabled : ([received 0, transmitted 1000000].foldl step
      (stateAfter (instantly count ++ [displayed 0]))).program.enabled = true := by
    rw [program]
    exact stateAfter_enabled _
  have wrapped : ((stateAfter (instantly count)).maps.latency.count + 1).toNat = 0 := by
    rw [UInt64.toNat_add, instantly_count count (by omega)]
    have one : (1 : UInt64).toNat = 1 := rfl
    rw [one, full, Nat.mod_self]
  rw [reached, (step_tick _ rfl enabled).2.1, toNat_report, maps, program,
    Accumulator.count_accumulateLatency, latency, wrapped, Nat.zero_sub, Nat.mul_zero,
    Nat.div_zero]

theorem oneMore_total : ((recorded (oneMore count)).map UInt64.toNat).sum < 2 ^ 64 := by
  rw [oneMore_recorded]
  simp

theorem not_endToEnd_oneMore (full : count + 1 = 2 ^ 64) : ¬EndToEnd (oneMore count) := by
  intro endToEnd
  have expected := endToEnd.gauge (instantly count ++ [displayed 0])
    [received 0, transmitted 1000000] (displayed 1000000) [] rfl
    (.inr ⟨_, _, rfl, rfl⟩) (by simp [received, transmitted]) rfl
  have actual := oneMore_gauge count full
  rw [oneMore, expected, (forward_run (tick_timestampMap count) 1000000).1] at actual
  exact absurd actual (by decide)

end OneMore

/-- A count that wraps around loses the samples of the tick in which it does. -/
theorem not_endToEnd_count_wraps :
    ((oneMore (2 ^ 64 - 1)).Pairwise fun earlier later => earlier.now ≤ later.now) ∧
      ((recorded (oneMore (2 ^ 64 - 1))).map UInt64.toNat).sum < 2 ^ 64 ∧
      ¬EndToEnd (oneMore (2 ^ 64 - 1)) :=
  ⟨oneMore_ordered _, oneMore_total _, not_endToEnd_oneMore _ (by decide)⟩

end BpfAgent.Iflat
