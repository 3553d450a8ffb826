import BpfAgent.Accumulator
import BpfAgent.Lib.Memory
import BpfAgent.Packet

/-!
# IFLAT_UPROBE: two XDP hooks and a uprobe

A datagram is seen on ingress of two interfaces and once more when a userspace
function is called with its payload.  The second sighting ends the first leg
and starts the second, with one reading of the clock.
-/

namespace BpfAgent.IflatUprobe

open Packet

def maxArgs : Nat := 6

def uprobeConfigKey : UInt32 := 0

/-- The argument itself points at the payload. -/
def payloadPtrDirect : UInt32 := 0xffffffff

/-- Which argument leads to the payload and where the tag starts. -/
structure UprobeConfig where
  argIndex : UInt32
  payloadPtrOffset : UInt32
  tagOffset : UInt32
  deriving DecidableEq

/-- UPROBE_CONFIG_MAP, which userspace writes before the hooks are attached. -/
abbrev ConfigMap := BoundedMap UInt32 UprobeConfig 1

structure Maps where
  timestamp1Map : BoundedMap UInt32 UInt64 1024
  timestamp2Map : BoundedMap UInt32 UInt64 1024
  latency1 : Accumulator
  latency2 : Accumulator

def Maps.empty : Maps := ⟨.empty, .empty, .empty, .empty⟩

/-- Length of the layer-4 header: fixed for UDP, taken from the data-offset
field for TCP. -/
def l4Hlen (protocol : UInt8) (packet : List UInt8) (l4 : Nat) : Option Nat :=
  if protocol = ipprotoUdp then
    some udpHlen
  else if protocol = ipprotoTcp then
    tcpHlen packet l4
  else
    none

def parseIpv4Tag (packet : List UInt8) (l3 : Nat) : Option UInt32 :=
  parseTag l4Hlen packet l3

/-- The payload tag of a frame with or without an Ethernet header. -/
def parsePayloadTag (frame : List UInt8) : Option UInt32 :=
  if readBeU16 frame 12 = some ethPIp ∧
      (readU8 frame ethHlen).any (fun (version : UInt8) => version >>> 4 = 4) then
    parseIpv4Tag frame ethHlen
  else
    parseIpv4Tag frame 0

def xdpRx1Handler (maps : Maps) (frame : List UInt8) (now : UInt64)
    (victims : List UInt32) : Maps :=
  match parsePayloadTag frame with
  | none => maps
  | some tag =>
      { maps with timestamp1Map := maps.timestamp1Map.insertEvicting tag now victims }

/-- Match the tag against the RX1 timestamps.  Returns the leg-1 latency, if any. -/
def matchRx1 (maps : Maps) (tag : UInt32) (now : UInt64) : Maps × Option UInt64 :=
  match maps.timestamp1Map.get tag with
  | none => (maps, none)
  | some ts1 =>
      let latency := Word.saturatingSub now ts1
      ({ maps with
         timestamp1Map := maps.timestamp1Map.remove tag
         latency1 := maps.latency1.accumulateLatency latency },
        some latency)

/-- RX2: finish leg 1 and store the time of receipt for leg 2, matched or not. -/
def xdpRx2Handler (maps : Maps) (frame : List UInt8) (now : UInt64)
    (victims : List UInt32) : Maps × Option UInt64 :=
  match parsePayloadTag frame with
  | none => (maps, none)
  | some tag =>
      let (maps, latency) := matchRx1 maps tag now
      ({ maps with timestamp2Map := maps.timestamp2Map.insertEvicting tag now victims },
        latency)

/-- A call of the probed function: its argument registers and what the probe
can read of the caller's memory. -/
structure FnCall where
  arg : Nat → Option UInt64
  memory : Memory

/-- The tag of a call: follow the configured argument to the payload. -/
def callTag (configMap : ConfigMap) (call : FnCall) : Option UInt32 := do
  let config ← configMap.get uprobeConfigKey
  if config.argIndex < 1 ∨ maxArgs < config.argIndex.toNat then failure
  let base := (call.arg (config.argIndex - 1).toNat).getD 0
  if base = 0 then failure
  let payload ←
    if config.payloadPtrOffset = payloadPtrDirect then
      some base
    else
      (call.memory.read (base + config.payloadPtrOffset.toUInt64) 8).map fun member =>
        Memory.field member 0 8
  if payload = 0 then failure
  let bytes ← call.memory.read (payload + config.tagOffset.toUInt64) keySize
  return Word.bigEndian bytes

/-- The function call: finish leg 2.  Returns its latency, if any. -/
def fnCallHandler (configMap : ConfigMap) (maps : Maps) (call : FnCall) (now : UInt64) :
    Maps × Option UInt64 :=
  match callTag configMap call with
  | none => (maps, none)
  | some tag =>
      match maps.timestamp2Map.get tag with
      | none => (maps, none)
      | some ts2 =>
          let latency := Word.saturatingSub now ts2
          ({ maps with
             timestamp2Map := maps.timestamp2Map.remove tag
             latency2 := maps.latency2.accumulateLatency latency },
            some latency)

end BpfAgent.IflatUprobe
