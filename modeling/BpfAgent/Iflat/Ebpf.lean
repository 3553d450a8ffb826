import BpfAgent.Accumulator
import BpfAgent.Packet

/-!
# IFLAT: the XDP and TC hooks

A frame received on the ingress interface leaves a timestamp under its payload
tag; a packet sent on the egress interface takes the timestamp back and adds
the difference to the accumulators.  Both hooks only observe: they always let
the packet pass.

The timestamps live in an LRU map.  Which entries it drops when it stores one
is up to the kernel, so every store names its victims.
-/

namespace BpfAgent.Iflat

open Packet

structure Maps where
  /-- Payload tag to time of receipt. -/
  timestampMap : BoundedMap UInt32 UInt64 1024
  latency : Accumulator

def Maps.empty : Maps := ⟨.empty, .empty⟩

/-- Length of the layer-4 header: fixed for UDP and ICMP echo, taken from the
data-offset field for TCP. -/
def l4Hlen (protocol : UInt8) (packet : List UInt8) (l4 : Nat) : Option Nat :=
  if protocol = ipprotoUdp then
    some udpHlen
  else if protocol = ipprotoTcp then
    tcpHlen packet l4
  else if protocol = ipprotoIcmp then
    if inside : l4 + icmpHlen ≤ packet.length then
      let icmpType := byteAt packet l4 (by unfold icmpHlen at inside; omega)
      if icmpType ≠ icmpEcho ∧ icmpType ≠ icmpEchoreply then none else some icmpHlen
    else
      none
  else
    none

/-- The payload tag of a UDP, TCP or ICMP-echo datagram whose IPv4 header
starts at `l3`. -/
def parsePayloadTag (packet : List UInt8) (l3 : Nat) : Option UInt32 :=
  parseTag l4Hlen packet l3

/-- The tag of a received frame, which carries an Ethernet header. -/
def rxTag (frame : List UInt8) : Option UInt32 := do
  let ethProto ← readBeU16 frame 12
  if ethProto ≠ ethPIp then failure
  parsePayloadTag frame ethHlen

/-- The tag of a sent packet, which starts at the IP header. -/
def txTag (packet : List UInt8) : Option UInt32 := parsePayloadTag packet 0

def xdpRxHandler (maps : Maps) (frame : List UInt8) (now : UInt64)
    (victims : List UInt32) : Maps :=
  match rxTag frame with
  | none => maps
  | some tag =>
      { maps with timestampMap := maps.timestampMap.insertEvicting tag now victims }

/-- Returns the latency it adds, if any. -/
def tcTxHandler (maps : Maps) (packet : List UInt8) (now : UInt64) :
    Maps × Option UInt64 :=
  match txTag packet with
  | none => (maps, none)
  | some tag =>
      match maps.timestampMap.get tag with
      | none => (maps, none)
      | some rxTimestamp =>
          let latency := Word.saturatingSub now rxTimestamp
          ({ timestampMap := maps.timestampMap.remove tag
             latency := maps.latency.accumulateLatency latency },
            some latency)

structure Program where
  enabled : Bool
  baseline : Baseline
  avgLatencyUs : UInt64

def Program.new : Program := ⟨true, ⟨0, 0⟩, 0⟩

def displayMetrics (program : Program) (maps : Maps) : Program :=
  if program.enabled then
    let (avgUs, baseline) := report program.baseline maps.latency
    { program with baseline, avgLatencyUs := avgUs }
  else
    program

end BpfAgent.Iflat
