import BpfAgent.Grammar

/-!
# What a function call looks up

The uprobe follows the configured argument to the payload and rebuilds the tag
the XDP hooks keyed on.  Every way of not getting there leaves the maps alone;
getting there touches the record of that one tag.
-/

namespace BpfAgent.IflatUprobe

open Packet

/-- The register the configuration selects, zero where it cannot be read. -/
def argument (config : UprobeConfig) (call : FnCall) : UInt64 :=
  (call.arg (config.argIndex - 1).toNat).getD 0

/-- The payload pointer: the argument itself, or the eight bytes stored at an
offset from it. -/
def payloadPtr (config : UprobeConfig) (call : FnCall) : Option UInt64 :=
  if config.payloadPtrOffset = payloadPtrDirect then
    some (argument config call)
  else
    (call.memory.read (argument config call + config.payloadPtrOffset.toUInt64) 8).map
      fun member => Memory.field member 0 8

/-- The ways in which a call gives no tag. -/
inductive Unresolved (configMap : ConfigMap) (call : FnCall) : Prop where
  | notConfigured (absent : configMap.get uprobeConfigKey = none)
  | argIndex {config : UprobeConfig} (configured : configMap.get uprobeConfigKey = some config)
      (outside : ¬(1 ≤ config.argIndex.toNat ∧ config.argIndex.toNat ≤ 6))
  | nullArgument {config : UprobeConfig}
      (configured : configMap.get uprobeConfigKey = some config)
      (null : argument config call = 0)
  | memberUnreadable {config : UprobeConfig} {index : Nat}
      (configured : configMap.get uprobeConfigKey = some config)
      (mode : config.payloadPtrOffset ≠ payloadPtrDirect) (bound : index < 8)
      (unreadable : call.memory
        (argument config call + config.payloadPtrOffset.toUInt64 + index.toUInt64) = none)
  | nullPayload {config : UprobeConfig}
      (configured : configMap.get uprobeConfigKey = some config)
      (null : payloadPtr config call = some 0)
  | tagUnreadable {config : UprobeConfig} {payload : UInt64} {index : Nat}
      (configured : configMap.get uprobeConfigKey = some config)
      (resolved : payloadPtr config call = some payload) (bound : index < 4)
      (unreadable : call.memory (payload + config.tagOffset.toUInt64 + index.toUInt64) = none)

/-- The call leads to a payload, and `tag` is stored big-endian where the
configuration says the tag starts. -/
inductive Resolved (configMap : ConfigMap) (call : FnCall) (tag : UInt32) : Prop where
  | intro {config : UprobeConfig} {payload : UInt64}
      (configured : configMap.get uprobeConfigKey = some config)
      (inside : 1 ≤ config.argIndex.toNat ∧ config.argIndex.toNat ≤ 6)
      (argument_ne : argument config call ≠ 0) (resolved : payloadPtr config call = some payload)
      (payload_ne : payload ≠ 0)
      (read : call.memory.read (payload + config.tagOffset.toUInt64) 4 =
        some (Word.bigEndianBytes tag))

theorem argIndex_inside_iff {config : UprobeConfig} :
    ¬(config.argIndex < 1 ∨ maxArgs < config.argIndex.toNat) ↔
      1 ≤ config.argIndex.toNat ∧ config.argIndex.toNat ≤ 6 := by
  rw [UInt32.lt_iff_toNat_lt, show (1 : UInt32).toNat = 1 from rfl, maxArgs]
  omega

theorem payloadPtr_eq_none_iff {config : UprobeConfig} {call : FnCall} :
    payloadPtr config call = none ↔
      config.payloadPtrOffset ≠ payloadPtrDirect ∧ ∃ index < 8, call.memory
        (argument config call + config.payloadPtrOffset.toUInt64 + index.toUInt64) = none := by
  unfold payloadPtr
  split
  next direct => simp [direct]
  next member =>
    rw [Option.map_eq_none_iff, Memory.read_eq_none_iff]
    simp [member]

theorem callTag_of_configured {configMap : ConfigMap} {call : FnCall} {config : UprobeConfig}
    (configured : configMap.get uprobeConfigKey = some config) :
    callTag configMap call =
      if config.argIndex < 1 ∨ maxArgs < config.argIndex.toNat then none
      else if argument config call = 0 then none
      else (payloadPtr config call).bind fun payload =>
        if payload = 0 then none
        else (call.memory.read (payload + config.tagOffset.toUInt64) keySize).map
          Word.bigEndian := by
  have finish : ∀ payload : UInt64,
      ((call.memory.read (payload + config.tagOffset.toUInt64) keySize).bind fun bytes =>
        some (Word.bigEndian bytes)) =
      (call.memory.read (payload + config.tagOffset.toUInt64) keySize).map Word.bigEndian := by
    intro payload
    exact Option.map_eq_bind.symm
  have base : (call.arg (config.argIndex - 1).toNat).getD 0 = argument config call := rfl
  simp only [callTag, configured, payloadPtr, base, Option.bind_eq_bind, Option.bind_some,
    Option.failure_eq_none, Option.bind_none, Option.pure_def, finish]
  split
  next outside => rfl
  next inside =>
    split
    next null => rfl
    next notNull =>
      split
      next direct => rw [Option.bind_some, if_neg notNull]
      next member => rfl

theorem read_keySize_eq_some_iff {memory : Memory} {address : UInt64} {tag : UInt32} :
    (memory.read address keySize).map Word.bigEndian = some tag ↔
      memory.read address 4 = some (Word.bigEndianBytes tag) := by
  change (memory.read address 4).map Word.bigEndian = some tag ↔ _
  rw [Option.map_eq_some_iff]
  constructor
  · rintro ⟨bytes, read, rfl⟩
    have size := Memory.length_read read
    obtain ⟨first, second, third, fourth, rfl⟩ := List.length_eq_four.mp size
    rw [read, Word.bigEndianBytes_bigEndian]
  · intro read
    exact ⟨_, read, Word.bigEndian_bigEndianBytes tag⟩

theorem callTag_eq_some_iff {configMap : ConfigMap} {call : FnCall} {tag : UInt32} :
    callTag configMap call = some tag ↔ Resolved configMap call tag := by
  constructor
  · intro found
    cases configured : configMap.get uprobeConfigKey with
    | none => simp [callTag, configured] at found
    | some config =>
        rw [callTag_of_configured configured] at found
        split at found
        next outside => cases found
        next inside =>
          split at found
          next null => cases found
          next argument_ne =>
            obtain ⟨payload, resolved, read⟩ := Option.bind_eq_some_iff.mp found
            split at read
            next null => cases read
            next payload_ne =>
              exact ⟨configured, argIndex_inside_iff.mp inside, argument_ne, resolved,
                payload_ne, read_keySize_eq_some_iff.mp read⟩
  · rintro ⟨configured, inside, argument_ne, resolved, payload_ne, read⟩
    rw [callTag_of_configured configured, if_neg (argIndex_inside_iff.mpr inside),
      if_neg argument_ne, resolved, Option.bind_some, if_neg payload_ne]
    exact read_keySize_eq_some_iff.mpr read

/-- A call gives no tag exactly in the ways listed. -/
theorem callTag_eq_none_iff {configMap : ConfigMap} {call : FnCall} :
    callTag configMap call = none ↔ Unresolved configMap call := by
  constructor
  · intro missing
    cases configured : configMap.get uprobeConfigKey with
    | none => exact .notConfigured configured
    | some config =>
        rw [callTag_of_configured configured] at missing
        split at missing
        next outside => exact .argIndex configured fun inside =>
          argIndex_inside_iff.mpr inside outside
        next inside =>
          split at missing
          next null => exact .nullArgument configured null
          next argument_ne =>
            cases resolved : payloadPtr config call with
            | none =>
                obtain ⟨mode, index, bound, unreadable⟩ := payloadPtr_eq_none_iff.mp resolved
                exact .memberUnreadable configured mode bound unreadable
            | some payload =>
                rw [resolved, Option.bind_some] at missing
                split at missing
                next null =>
                  rw [null] at resolved
                  exact .nullPayload configured resolved
                next payload_ne =>
                  obtain ⟨index, bound, unreadable⟩ :=
                    Memory.read_eq_none_iff.mp (Option.map_eq_none_iff.mp missing)
                  exact .tagUnreadable configured resolved bound unreadable
  · intro skipped
    by_contra found
    obtain ⟨tag, present⟩ := Option.ne_none_iff_exists'.mp found
    obtain ⟨configured, inside, argument_ne, resolved, payload_ne, read⟩ :=
      callTag_eq_some_iff.mp present
    cases skipped with
    | notConfigured absent => rw [absent] at configured; cases configured
    | argIndex other outside =>
        cases other.symm.trans configured
        exact outside inside
    | nullArgument other null =>
        cases other.symm.trans configured
        exact argument_ne null
    | memberUnreadable other mode bound unreadable =>
        cases other.symm.trans configured
        rw [payloadPtr_eq_none_iff.mpr ⟨mode, _, bound, unreadable⟩] at resolved
        cases resolved
    | nullPayload other null =>
        cases other.symm.trans configured
        cases null.symm.trans resolved
        exact payload_ne rfl
    | tagUnreadable other same bound unreadable =>
        cases other.symm.trans configured
        cases same.symm.trans resolved
        rw [Memory.read_eq_none_iff.mpr ⟨_, bound, unreadable⟩] at read
        cases read

structure Finishes (tag : UInt32) (now : UInt64) (before after : Maps) : Prop where
  timestamp1Map : after.timestamp1Map = before.timestamp1Map
  latency1 : after.latency1 = before.latency1
  others : ∀ other, other ≠ tag →
    after.timestamp2Map.get other = before.timestamp2Map.get other
  unmatched : before.timestamp2Map.get tag = none → after = before
  matched : ∀ ts2, before.timestamp2Map.get tag = some ts2 →
    after.timestamp2Map.get tag = none ∧
    after.latency2.sum = before.latency2.sum + Word.saturatingSub now ts2 ∧
    after.latency2.count = before.latency2.count + 1

theorem fnCallHandler_of_skipped {configMap : ConfigMap} {call : FnCall}
    (skipped : Unresolved configMap call) (maps : Maps) (now : UInt64) :
    fnCallHandler configMap maps call now = (maps, none) := by
  rw [fnCallHandler, callTag_eq_none_iff.mpr skipped]

theorem fnCallHandler_finishes {configMap : ConfigMap} {call : FnCall} {tag : UInt32}
    (resolved : Resolved configMap call tag) (maps : Maps) (now : UInt64) :
    Finishes tag now maps (fnCallHandler configMap maps call now).1 := by
  rw [fnCallHandler, callTag_eq_some_iff.mpr resolved]
  dsimp only
  split
  next stored =>
    refine ⟨rfl, rfl, fun _ _ => rfl, fun _ => rfl, ?_⟩
    intro ts2 impossible
    cases stored.symm.trans impossible
  next ts2 stored =>
    refine ⟨rfl, rfl, ?_, ?_, ?_⟩
    · intro other different
      exact (BoundedMap.get_remove ..).trans (if_neg different)
    · intro impossible
      cases stored.symm.trans impossible
    · intro found same
      cases stored.symm.trans same
      exact ⟨(BoundedMap.get_remove ..).trans (if_pos rfl),
        Accumulator.sum_accumulateLatency _ _, Accumulator.count_accumulateLatency _ _⟩

/-- `payload` lies where the configured argument leads and the tag starts. -/
structure PayloadAt (configMap : ConfigMap) (call : FnCall) (payload : List UInt8) : Prop where
  located : ∃ config pointer, configMap.get uprobeConfigKey = some config ∧
    payloadPtr config call = some pointer ∧ config.tagOffset = 0 ∧
    call.memory.read pointer payload.length = some payload
  long : 4 ≤ payload.length

/-- A UDP or TCP packet with its IPv4 header at `l3` that carries `payload`. -/
def Carries (packet : List UInt8) (l3 : Nat) (payload : List UInt8) : Prop :=
  ∃ headers trailer, Headers false headers ∧ packet.drop l3 = headers ++ (payload ++ trailer)

theorem parseIpv4Tag_of_carries {configMap : ConfigMap} {call : FnCall} {tag : UInt32}
    {payload packet : List UInt8} {l3 : Nat} (resolved : Resolved configMap call tag)
    (placed : PayloadAt configMap call payload) (carries : Carries packet l3 payload) :
    parseIpv4Tag packet l3 = some tag := by
  obtain @⟨config, pointer, configured, -, -, found, -, read⟩ := resolved
  obtain ⟨⟨_, _, sameConfig, samePointer, noOffset, whole⟩, long⟩ := placed
  cases configured.symm.trans sameConfig
  cases found.symm.trans samePointer
  obtain ⟨headers, trailer, accepted, shape⟩ := carries
  rw [noOffset, show pointer + (0 : UInt32).toUInt64 = pointer from UInt64.add_zero pointer,
    Memory.read_take whole long] at read
  have starts : payload = Word.bigEndianBytes tag ++ payload.drop 4 := by
    rw [← Option.some.inj read, List.take_append_drop]
  apply parseTag_of_datagram l4Hlen_measures
  rw [shape, starts, List.append_assoc]
  exact .mk accepted

/-- A call either leaves every map as it is, exactly when it cannot be followed
to a tag, or finishes leg 2 of the tag stored there, which is the tag of every
packet with that payload. -/
theorem fnCallHandler_skips_or_finishes (configMap : ConfigMap) (maps : Maps) (call : FnCall)
    (now : UInt64) :
    (Unresolved configMap call → fnCallHandler configMap maps call now = (maps, none)) ∧
    (¬Unresolved configMap call → ∃ tag, Resolved configMap call tag ∧
      Finishes tag now maps (fnCallHandler configMap maps call now).1 ∧
      ∀ payload packet l3, PayloadAt configMap call payload → Carries packet l3 payload →
        parseIpv4Tag packet l3 = some tag) := by
  refine ⟨fun skipped => fnCallHandler_of_skipped skipped maps now, ?_⟩
  intro followed
  have found : callTag configMap call ≠ none :=
    fun missing => followed (callTag_eq_none_iff.mp missing)
  obtain ⟨tag, present⟩ := Option.ne_none_iff_exists'.mp found
  have resolved := callTag_eq_some_iff.mp present
  exact ⟨tag, resolved, fnCallHandler_finishes resolved maps now,
    fun payload packet l3 placed carries => parseIpv4Tag_of_carries resolved placed carries⟩

def slotConfigMap : ConfigMap := BoundedMap.empty.insert uprobeConfigKey ⟨3, 8, 0⟩

def slotPayload : List UInt8 := [0xde, 0xad, 0xbe, 0xef, 7, 7]

def slotCall : FnCall where
  arg index := if index = 2 then some 4096 else none
  memory := Memory.segment 4104 ([0x10, 0x10, 0, 0, 0, 0, 0, 0] ++ slotPayload)

def slotMaps : Maps :=
  { Maps.empty with timestamp2Map := BoundedMap.empty.insertEvicting 0xdeadbeef 40 [] }

def slotHeaders : List UInt8 :=
  [0x45, 0, 0, 34, 0, 0, 0, 0, 64, 17, 0, 0, 10, 0, 0, 1, 10, 0, 0, 2] ++
    [0x03, 0xe8, 0x13, 0x9c, 0, 14, 0, 0]

theorem slotCall_finishes :
    ∃ tag, Resolved slotConfigMap slotCall tag ∧
      Finishes tag 100 slotMaps (fnCallHandler slotConfigMap slotMaps slotCall 100).1 ∧
      parseIpv4Tag (slotHeaders ++ slotPayload) 0 = some tag ∧
      slotMaps.timestamp2Map.get tag = some 40 := by
  have followed : ¬Unresolved slotConfigMap slotCall := by
    rw [← callTag_eq_none_iff]
    decide +kernel
  have placed : PayloadAt slotConfigMap slotCall slotPayload :=
    ⟨⟨⟨3, 8, 0⟩, 4112, by decide, by decide +kernel, rfl, by decide +kernel⟩, by decide⟩
  have headers : Headers false slotHeaders :=
    .mk (show _ = some (0x45 : UInt8) from rfl) (by decide) (by decide) (by decide)
      (show _ = some (17 : UInt8) from rfl) (.udp rfl)
  have carries : Carries (slotHeaders ++ slotPayload) 0 slotPayload :=
    ⟨slotHeaders, [], headers, by rw [List.append_nil, List.drop_zero]⟩
  obtain ⟨tag, resolved, finishes, carried⟩ :=
    (fnCallHandler_skips_or_finishes slotConfigMap slotMaps slotCall 100).2 followed
  have parsed := carried slotPayload _ 0 placed carries
  refine ⟨tag, resolved, finishes, parsed, ?_⟩
  have known : parseIpv4Tag (slotHeaders ++ slotPayload) 0 = some 0xdeadbeef := by decide
  cases known.symm.trans parsed
  decide

end BpfAgent.IflatUprobe
