import BpfAgent.IflatUprobe.Ebpf
import BpfAgent.Lib.Correlator

/-!
# IFLAT_UPROBE: the two legs add up

Each leg is a correlation of its own.  The second sighting of a datagram takes
from the first map and stores in the second under the same clock reading, so
the two latencies of an undisturbed datagram add up to its whole journey.
-/

namespace BpfAgent.IflatUprobe

open Correlation

inductive Hook where
  /-- A frame on the first interface; storing its timestamp loses `victims`. -/
  | rx1 (frame : List UInt8) (victims : List UInt32)
  | rx2 (frame : List UInt8) (victims : List UInt32)
  | call (call : FnCall)

structure Event where
  now : UInt64
  hook : Hook

variable (configMap : ConfigMap)

def step (maps : Maps) (event : Event) : Maps :=
  match event.hook with
  | .rx1 frame victims => xdpRx1Handler maps frame event.now victims
  | .rx2 frame victims => (xdpRx2Handler maps frame event.now victims).1
  | .call call => (fnCallHandler configMap maps call event.now).1

def sample1 (maps : Maps) (event : Event) : Option UInt64 :=
  match event.hook with
  | .rx2 frame victims => (xdpRx2Handler maps frame event.now victims).2
  | _ => none

def sample2 (maps : Maps) (event : Event) : Option UInt64 :=
  match event.hook with
  | .call call => (fnCallHandler configMap maps call event.now).2
  | _ => none

def action1 (event : Event) : Action UInt32 UInt64 :=
  match event.hook with
  | .rx1 frame _ => (parsePayloadTag frame).elim .keep fun tag => .store tag event.now
  | .rx2 frame _ => (parsePayloadTag frame).elim .keep .take
  | .call _ => .keep

def action2 (event : Event) : Action UInt32 UInt64 :=
  match event.hook with
  | .rx1 _ _ => .keep
  | .rx2 frame _ => (parsePayloadTag frame).elim .keep fun tag => .store tag event.now
  | .call call => (callTag configMap call).elim .keep .take

/-- The RX1 timestamps that storing a new one evicts: the victims the event
names, and the oldest one if the map is full. -/
def evicts1 (maps : Maps) (event : Event) (tag : UInt32) : Prop :=
  match event.hook with
  | .rx1 frame victims =>
      ∃ stored, parsePayloadTag frame = some stored ∧
        maps.timestamp1Map.Evicts stored victims tag
  | _ => False

def evicts2 (maps : Maps) (event : Event) (tag : UInt32) : Prop :=
  match event.hook with
  | .rx2 frame victims =>
      ∃ stored, parsePayloadTag frame = some stored ∧
        maps.timestamp2Map.Evicts stored victims tag
  | _ => False

section Handlers

variable (maps : Maps) (tag other : UInt32) (now : UInt64)

theorem matchRx1_timestamp1Map :
    (matchRx1 maps tag now).1.timestamp1Map.get other =
      if other = tag then none else maps.timestamp1Map.get other := by
  unfold matchRx1
  cases found : maps.timestamp1Map.get tag with
  | none =>
      by_cases same : other = tag
      · rw [if_pos same, same]
        exact found
      · rw [if_neg same]
  | some ts1 => simp

theorem matchRx1_timestamp2Map :
    (matchRx1 maps tag now).1.timestamp2Map = maps.timestamp2Map := by
  unfold matchRx1
  cases maps.timestamp1Map.get tag <;> rfl

theorem matchRx1_latency :
    (matchRx1 maps tag now).2 =
      (maps.timestamp1Map.get tag).map (Word.saturatingSub now) := by
  unfold matchRx1
  cases maps.timestamp1Map.get tag <;> rfl

theorem xdpRx2Handler_of_parsed {frame : List UInt8} (victims : List UInt32)
    (parsed : parsePayloadTag frame = some tag) :
    xdpRx2Handler maps frame now victims =
      ({ (matchRx1 maps tag now).1 with
         timestamp2Map := maps.timestamp2Map.insertEvicting tag now victims },
        (maps.timestamp1Map.get tag).map (Word.saturatingSub now)) := by
  simp [xdpRx2Handler, parsed, matchRx1_timestamp2Map, matchRx1_latency]

theorem fnCallHandler_timestamp1Map (call : FnCall) :
    (fnCallHandler configMap maps call now).1.timestamp1Map = maps.timestamp1Map := by
  unfold fnCallHandler
  cases callTag configMap call with
  | none => rfl
  | some tag =>
      dsimp only
      cases maps.timestamp2Map.get tag <;> rfl

theorem fnCallHandler_of_parsed {call : FnCall} (parsed : callTag configMap call = some tag) :
    (fnCallHandler configMap maps call now).2 =
        (maps.timestamp2Map.get tag).map (Word.saturatingSub now) ∧
      (fnCallHandler configMap maps call now).1.timestamp2Map.get other =
        if other = tag then none else maps.timestamp2Map.get other := by
  unfold fnCallHandler
  rw [parsed]
  dsimp only
  cases found : maps.timestamp2Map.get tag with
  | none =>
      refine ⟨rfl, ?_⟩
      by_cases same : other = tag
      · rw [if_pos same, same]
        exact found
      · rw [if_neg same]
  | some ts2 => simp

end Handlers

section Actions

variable {event : Event} {tag : UInt32} {value : UInt64}

theorem action1_eq_store (stores : action1 event = .store tag value) :
    ∃ frame victims, event.hook = .rx1 frame victims ∧ parsePayloadTag frame = some tag ∧
      value = event.now := by
  unfold action1 at stores
  cases hook : event.hook with
  | rx1 frame victims =>
      rw [hook] at stores
      cases parsed : parsePayloadTag frame with
      | none => simp [parsed] at stores
      | some received =>
          simp only [parsed, Option.elim_some] at stores
          cases stores
          exact ⟨frame, victims, rfl, parsed, rfl⟩
  | rx2 frame victims =>
      rw [hook] at stores
      cases parsed : parsePayloadTag frame <;> simp [parsed] at stores
  | call call =>
      rw [hook] at stores
      cases stores

theorem action1_eq_take (takes : action1 event = .take tag) :
    ∃ frame victims, event.hook = .rx2 frame victims ∧ parsePayloadTag frame = some tag := by
  unfold action1 at takes
  cases hook : event.hook with
  | rx1 frame victims =>
      rw [hook] at takes
      cases parsed : parsePayloadTag frame <;> simp [parsed] at takes
  | rx2 frame victims =>
      rw [hook] at takes
      cases parsed : parsePayloadTag frame with
      | none => simp [parsed] at takes
      | some received =>
          simp only [parsed, Option.elim_some] at takes
          cases takes
          exact ⟨frame, victims, rfl, parsed⟩
  | call call =>
      rw [hook] at takes
      cases takes

theorem action2_eq_store (stores : action2 configMap event = .store tag value) :
    ∃ frame victims, event.hook = .rx2 frame victims ∧ parsePayloadTag frame = some tag ∧
      value = event.now := by
  unfold action2 at stores
  cases hook : event.hook with
  | rx1 frame victims =>
      rw [hook] at stores
      cases stores
  | rx2 frame victims =>
      rw [hook] at stores
      cases parsed : parsePayloadTag frame with
      | none => simp [parsed] at stores
      | some received =>
          simp only [parsed, Option.elim_some] at stores
          cases stores
          exact ⟨frame, victims, rfl, parsed, rfl⟩
  | call call =>
      rw [hook] at stores
      cases parsed : callTag configMap call <;> simp [parsed] at stores

theorem action2_eq_take (takes : action2 configMap event = .take tag) :
    ∃ call, event.hook = .call call ∧ callTag configMap call = some tag := by
  unfold action2 at takes
  cases hook : event.hook with
  | rx1 frame victims =>
      rw [hook] at takes
      cases takes
  | rx2 frame victims =>
      rw [hook] at takes
      cases parsed : parsePayloadTag frame <;> simp [parsed] at takes
  | call call =>
      rw [hook] at takes
      cases parsed : callTag configMap call with
      | none => simp [parsed] at takes
      | some called =>
          simp only [parsed, Option.elim_some] at takes
          cases takes
          exact ⟨call, rfl, parsed⟩

theorem evicts1_eq_rx1 {maps : Maps} (lost : evicts1 maps event tag) :
    ∃ frame victims stored, event.hook = .rx1 frame victims ∧
      parsePayloadTag frame = some stored ∧ maps.timestamp1Map.Evicts stored victims tag := by
  unfold evicts1 at lost
  cases hook : event.hook with
  | rx1 frame victims =>
      rw [hook] at lost
      obtain ⟨stored, parsed, lost⟩ := lost
      exact ⟨frame, victims, stored, rfl, parsed, lost⟩
  | rx2 frame victims =>
      rw [hook] at lost
      exact lost.elim
  | call call =>
      rw [hook] at lost
      exact lost.elim

theorem evicts2_eq_rx2 {maps : Maps} (lost : evicts2 maps event tag) :
    ∃ frame victims stored, event.hook = .rx2 frame victims ∧
      parsePayloadTag frame = some stored ∧ maps.timestamp2Map.Evicts stored victims tag := by
  unfold evicts2 at lost
  cases hook : event.hook with
  | rx2 frame victims =>
      rw [hook] at lost
      obtain ⟨stored, parsed, lost⟩ := lost
      exact ⟨frame, victims, stored, rfl, parsed, lost⟩
  | rx1 frame victims =>
      rw [hook] at lost
      exact lost.elim
  | call call =>
      rw [hook] at lost
      exact lost.elim

end Actions

/-- RX1 to RX2. -/
def leg1 : Correlator Maps Event UInt32 where
  step := step configMap
  lookup maps := maps.timestamp1Map.get
  action := action1
  clock := Event.now
  sample := sample1
  evicts := evicts1
  keep maps event keeps := by
    unfold action1 at keeps
    unfold step
    cases hook : event.hook with
    | rx1 frame victims =>
        cases parsed : parsePayloadTag frame with
        | none => simp [xdpRx1Handler, parsed]
        | some tag => simp [hook, parsed] at keeps
    | rx2 frame victims =>
        cases parsed : parsePayloadTag frame with
        | none => simp [xdpRx2Handler, parsed]
        | some tag => simp [hook, parsed] at keeps
    | call call => simp [fnCallHandler_timestamp1Map]
  store maps event tag value stores other kept := by
    obtain ⟨frame, victims, hook, parsed, rfl⟩ := action1_eq_store stores
    simp only [step, hook, xdpRx1Handler, parsed]
    apply BoundedMap.get_insertEvicting_of_kept
    rw [evicts1, hook] at kept
    exact fun lost => kept ⟨tag, parsed, lost⟩
  lost maps event tag lost := by
    obtain ⟨frame, victims, stored, hook, parsed, lost⟩ := evicts1_eq_rx1 lost
    simp only [step, hook, xdpRx1Handler, parsed]
    exact BoundedMap.get_insertEvicting_of_evicts lost
  take maps event tag takes other := by
    obtain ⟨frame, victims, hook, parsed⟩ := action1_eq_take takes
    simp only [step, hook, xdpRx2Handler_of_parsed _ _ _ _ parsed]
    exact matchRx1_timestamp1Map maps tag other event.now
  stamped event tag value stores := by
    obtain ⟨-, -, -, -, stamped⟩ := action1_eq_store stores
    exact stamped
  sampled maps event := by
    unfold sample1 action1
    cases event.hook with
    | rx1 frame victims => cases parsed : parsePayloadTag frame <;> simp [parsed, Action.found]
    | rx2 frame victims =>
        cases parsed : parsePayloadTag frame with
        | none => simp [xdpRx2Handler, parsed, Action.found]
        | some tag => simp [xdpRx2Handler_of_parsed _ _ _ _ parsed, parsed, Action.found]
    | call call => rfl

/-- RX2 to the function call. -/
def leg2 : Correlator Maps Event UInt32 where
  step := step configMap
  lookup maps := maps.timestamp2Map.get
  action := action2 configMap
  clock := Event.now
  sample := sample2 configMap
  evicts := evicts2
  keep maps event keeps := by
    unfold action2 at keeps
    unfold step
    cases hook : event.hook with
    | rx1 frame victims => cases parsed : parsePayloadTag frame <;> simp [xdpRx1Handler, parsed]
    | rx2 frame victims =>
        cases parsed : parsePayloadTag frame with
        | none => simp [xdpRx2Handler, parsed]
        | some tag => simp [hook, parsed] at keeps
    | call call =>
        cases parsed : callTag configMap call with
        | none => simp [fnCallHandler, parsed]
        | some tag => simp [hook, parsed] at keeps
  store maps event tag value stores other kept := by
    obtain ⟨frame, victims, hook, parsed, rfl⟩ := action2_eq_store configMap stores
    simp only [step, hook, xdpRx2Handler_of_parsed _ _ _ _ parsed]
    apply BoundedMap.get_insertEvicting_of_kept
    rw [evicts2, hook] at kept
    exact fun lost => kept ⟨tag, parsed, lost⟩
  lost maps event tag lost := by
    obtain ⟨frame, victims, stored, hook, parsed, lost⟩ := evicts2_eq_rx2 lost
    simp only [step, hook, xdpRx2Handler_of_parsed _ _ _ _ parsed]
    exact BoundedMap.get_insertEvicting_of_evicts lost
  take maps event tag takes other := by
    obtain ⟨call, hook, parsed⟩ := action2_eq_take configMap takes
    simp only [step, hook]
    exact (fnCallHandler_of_parsed configMap maps tag other event.now parsed).2
  stamped event tag value stores := by
    obtain ⟨-, -, -, -, stamped⟩ := action2_eq_store configMap stores
    exact stamped
  sampled maps event := by
    unfold sample2 action2
    cases event.hook with
    | rx1 frame victims => rfl
    | rx2 frame victims => cases parsed : parsePayloadTag frame <;> simp [parsed, Action.found]
    | call call =>
        cases parsed : callTag configMap call with
        | none => simp [fnCallHandler, parsed, Action.found]
        | some tag =>
            simp only [parsed, Option.elim_some, Action.found]
            exact (fnCallHandler_of_parsed configMap maps tag tag event.now parsed).1

/-- Storing the tag of `frame` may cost the entry of `tag`: it is named, or the
map is full of other tags. -/
def Displaces (map : BoundedMap UInt32 UInt64 1024) (frame : List UInt8) (victims : List UInt32)
    (tag : UInt32) : Prop :=
  ∃ stored, parsePayloadTag frame = some stored ∧
    (tag ∈ victims ∨ ¬map.Room stored ∧ tag ∈ map)

theorem displaces_of_evicts1 {maps : Maps} {event : Event} {tag : UInt32}
    (lost : evicts1 maps event tag) :
    ∃ frame victims, event.hook = .rx1 frame victims ∧
      Displaces maps.timestamp1Map frame victims tag := by
  obtain ⟨frame, victims, stored, hook, parsed, lost⟩ := evicts1_eq_rx1 lost
  exact ⟨frame, victims, hook, stored, parsed, lost.victim_or_full (by decide)⟩

theorem displaces_of_evicts2 {maps : Maps} {event : Event} {tag : UInt32}
    (lost : evicts2 maps event tag) :
    ∃ frame victims, event.hook = .rx2 frame victims ∧
      Displaces maps.timestamp2Map frame victims tag := by
  obtain ⟨frame, victims, stored, hook, parsed, lost⟩ := evicts2_eq_rx2 lost
  exact ⟨frame, victims, hook, stored, parsed, lost.victim_or_full (by decide)⟩

def taggedPacket : List UInt8 :=
  [0x45, 0, 0, 32, 0, 0, 0, 0, 64, 17, 0, 0, 10, 0, 0, 1, 10, 0, 0, 2,
    0x03, 0xe8, 0x13, 0x9c, 0, 12, 0, 0, 1, 2, 3, 4]

/-- A datagram seen on a NIC, on a tunnel and by the function. -/
def journey : List Event :=
  [⟨1000, .rx1 (List.replicate 12 0xaa ++ [0x08, 0x00] ++ taggedPacket) []⟩,
    ⟨3000, .rx2 taggedPacket []⟩,
    ⟨7000, .call ⟨fun _ => some 4096, Memory.segment 4096 [1, 2, 3, 4]⟩⟩]

end BpfAgent.IflatUprobe
