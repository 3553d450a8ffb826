import BpfAgent.Lib.BoundedMap
import BpfAgent.Syscall

/-!
# SCA: the sendmsg tracepoint

The eBPF side of the socket communication analyzer.  A send by a hop's sender
stores a timestamp under (hop, protocol); a send by its receiver takes the
timestamp back, turns the elapsed time into the hop's individual contribution
and feeds a per-process window of sums and counts.

Arithmetic on `u64` and `u32` wraps, as in the release build of the program.
Logging is left out; everything else a handler reads or writes is here.
-/

namespace BpfAgent.Sca

/-- Socket path, sending process and receiving process of every hop, in
data-flow order.  The position is the hop index. -/
def dataFlow : List (String × String × String) :=
  [("/tmp/DATA_L3_TO_INTERNAL_ROUTER", "DATA_SOURCE", "INTERNAL_ROUTER"),
    ("/tmp/DATA_L3_TO_WF_L", "INTERNAL_ROUTER", "RED_WF_COMM_L"),
    ("/tmp/WF_L_TO_FRAG", "RED_WF_COMM_L", "FRAGMENTER"),
    ("/tmp/FRAG_TO_IRSS_L", "FRAGMENTER", "RED_IRSS_COMM_L"),
    ("/tmp/IRSS_L_TO_FRAG", "RED_IRSS_COMM_L", "FRAGMENTER"),
    ("/tmp/FRAG_TO_COMM_WF_L", "FRAGMENTER", "RED_WF_COMM_L"),
    ("/tmp/DATA_L_TO_SINK", "RED_WF_COMM_L", "DATA_SINK")]

/-- One sender and one receiver endpoint for every hop. -/
def socketHopsMapMaxEntries : Nat := 2 * dataFlow.length

def windowSizeNs : UInt64 := 2000000000

structure HopEndpoint where
  hopIndex : UInt32
  /-- 1 for the hop's sending process, 0 for the receiver. -/
  isSender : UInt32
  /-- NUL-padded socket path, for logging. -/
  path : Vector UInt8 32
  deriving DecidableEq

abbrev pairKey (high low : UInt32) : UInt64 := Word.pack high low

structure Maps where
  socketHopsMap : BoundedMap UInt64 HopEndpoint socketHopsMapMaxEntries
  timestampMap : BoundedMap UInt64 UInt64 1024
  latencyHopMap : BoundedMap UInt64 UInt64 1024
  latencyPidSum : BoundedMap UInt32 UInt64 16
  latencyPidCount : BoundedMap UInt32 UInt64 16
  latencyWindowStart : BoundedMap UInt32 UInt64 16

def Maps.empty : Maps := ⟨.empty, .empty, .empty, .empty, .empty, .empty⟩

/-- The maps once the endpoints are known and before any send. -/
def Maps.loaded (hops : BoundedMap UInt64 HopEndpoint socketHopsMapMaxEntries) : Maps :=
  { Maps.empty with socketHopsMap := hops }

def getEndpoint (maps : Maps) (pid fd : UInt32) : Option HopEndpoint :=
  maps.socketHopsMap.get (pairKey pid fd)

def nngSpfSize : Nat := 9
def nngProtocolSize : Nat := 4
def nngMsgTypeSize : Nat := 2
def nngHeaderSize : Nat := nngSpfSize + nngProtocolSize + nngMsgTypeSize

/-- Read the header from a first iovec that contains it entirely. -/
def readHeaderFromSingleIov (memory : Memory) (iov : IoVec) : Option (UInt32 × UInt16) := do
  let protocol ← readBeU32 memory (iov.iovBase + nngSpfSize.toUInt64)
  let msgType ← readBeU16 memory (iov.iovBase + (nngSpfSize + nngProtocolSize).toUInt64)
  return (protocol, msgType)

/-- Read the header when SPF, protocol and message type come in three iovecs. -/
def readHeaderFromSplitIovs (memory : Memory) (iovArray iovCount : UInt64) :
    Option (UInt32 × UInt16) := do
  if iovCount < 3 then failure
  let second ← readIovAt memory iovArray 1
  if second.iovBase = 0 ∨ second.iovLen < nngProtocolSize.toUInt64 then failure
  let third ← readIovAt memory iovArray 2
  if third.iovBase = 0 ∨ third.iovLen < nngMsgTypeSize.toUInt64 then failure
  let protocol ← readBeU32 memory second.iovBase
  let msgType ← readBeU16 memory third.iovBase
  return (protocol, msgType)

/-- Read the NNG protocol and message type from a sendmsg() user_msghdr. -/
def readNngHeader (memory : Memory) (msgPtr : UInt64) : Option (UInt32 × UInt16) := do
  let msghdr ← readUserMsgHdr memory msgPtr
  if msghdr.msgIov = 0 ∨ msghdr.msgIovlen = 0 then failure
  let firstIov ← readIovAt memory msghdr.msgIov 0
  if firstIov.iovBase = 0 then failure
  if nngHeaderSize.toUInt64 ≤ firstIov.iovLen then
    readHeaderFromSingleIov memory firstIov
  else
    readHeaderFromSplitIovs memory msghdr.msgIov msghdr.msgIovlen

def storeTimestampWithProtocol (maps : Maps) (hopIndex protocol : UInt32)
    (timestamp : UInt64) : Maps :=
  { maps with
    timestampMap := maps.timestampMap.insert (pairKey hopIndex protocol) timestamp }

/-- Look up and remove the timestamp for a (hop, protocol) pair.  The latency
is 0 if there is none. -/
def lookupTimestampWithProtocol (maps : Maps) (hopIndex protocol : UInt32)
    (now : UInt64) : UInt64 × Maps :=
  match maps.timestampMap.get (pairKey hopIndex protocol) with
  | none => (0, maps)
  | some storedTime =>
      (now - storedTime,
        { maps with timestampMap := maps.timestampMap.remove (pairKey hopIndex protocol) })

/-- Publish a raw latency for the upstream hop.  Hop 0 has none. -/
def publishLatency (maps : Maps) (hopIndex protocol : UInt32) (latency : UInt64) : Maps :=
  if 0 < hopIndex then
    { maps with
      latencyHopMap := maps.latencyHopMap.insert (pairKey hopIndex protocol) latency }
  else
    maps

/-- Turn an accumulated hop latency into this hop's individual contribution. -/
def subtractDownstreamLatency (maps : Maps) (hopIndex protocol : UInt32)
    (latency : UInt64) : UInt64 × Maps :=
  let published := publishLatency maps hopIndex protocol latency
  let next := hopIndex + 1
  if next < dataFlow.length.toUInt32 then
    match published.latencyHopMap.get (pairKey next protocol) with
    | some downstream =>
        (Word.saturatingSub latency downstream,
          { published with
            latencyHopMap := published.latencyHopMap.remove (pairKey next protocol) })
    | none => (latency, published)
  else
    (latency, published)

def updateMovingAverage (maps : Maps) (pid : UInt32) (latency currentTime : UInt64) :
    Maps :=
  let oldSum := (maps.latencyPidSum.get pid).getD 0
  let oldCount := (maps.latencyPidCount.get pid).getD 0
  let windowStart := (maps.latencyWindowStart.get pid).getD 0
  let expired := windowSizeNs < currentTime - windowStart
  let sum := if expired then 0 else oldSum
  let count := if expired then 0 else oldCount
  { maps with
    latencyWindowStart :=
      if count = 0 then maps.latencyWindowStart.insert pid currentTime
      else maps.latencyWindowStart
    latencyPidSum := maps.latencyPidSum.insert pid (sum + latency)
    latencyPidCount := maps.latencyPidCount.insert pid (count + 1) }

structure SendEvent where
  endpoint : HopEndpoint
  pid : UInt32
  fd : UInt32
  protocol : UInt32
  msgType : UInt16
  deriving DecidableEq

/-- The arguments of one call of `updateMovingAverage`. -/
structure Sample where
  pid : UInt32
  latency : UInt64
  currentTime : UInt64
  deriving DecidableEq

/-- A sendmsg() system call as the tracepoint sees it.  `now` is the first
reading of the clock, `later` the second one a reply makes. -/
structure SendCall where
  /-- Absent when the tracepoint arguments cannot be read. -/
  args : Option SysEnterMsgArgs
  pidTgid : UInt64
  memory : Memory
  now : UInt64
  later : UInt64

def handleRequest (maps : Maps) (event : SendEvent) (call : SendCall) : Maps :=
  storeTimestampWithProtocol maps event.endpoint.hopIndex event.protocol call.now

/-- REP arm: the hop's receiver sent from the socket.  Returns the sample it
records, if any. -/
def handleResponse (maps : Maps) (event : SendEvent) (call : SendCall) :
    Maps × Option Sample :=
  let hop := event.endpoint.hopIndex
  let (latency, taken) := lookupTimestampWithProtocol maps hop event.protocol call.now
  if latency = 0 then
    (taken, none)
  else
    let (individual, subtracted) :=
      subtractDownstreamLatency taken hop event.protocol latency
    (updateMovingAverage subtracted event.pid individual call.later,
      some ⟨event.pid, individual, call.later⟩)

/-- What the handler makes of a call: nothing unless it is a readable NNG
message sent on a tracked endpoint. -/
def sendEvent (maps : Maps) (call : SendCall) : Option SendEvent := do
  let args ← call.args
  let fd := args.fd.toUInt32
  let pid := pidOf call.pidTgid
  let endpoint ← getEndpoint maps pid fd
  let (protocol, msgType) ← readNngHeader call.memory args.msg
  return { endpoint, pid, fd, protocol, msgType }

def sysEnterSendmsgHandler (maps : Maps) (call : SendCall) : Maps × Option Sample :=
  match sendEvent maps call with
  | none => (maps, none)
  | some event =>
      if event.endpoint.isSender = 1 then
        (handleRequest maps event call, none)
      else
        handleResponse maps event call

def send (maps : Maps) (call : SendCall) : Maps := (sysEnterSendmsgHandler maps call).1

/-- A message with this protocol id and message type 1. -/
def messageMemory (protocol : UInt32) : Memory :=
  msghdrMemory []
    (.replicate 9 0 ++
      [(protocol >>> 24).toUInt8, (protocol >>> 16).toUInt8, (protocol >>> 8).toUInt8,
        protocol.toUInt8] ++ [0, 1])

theorem readNngHeader_messageMemory (protocol : UInt32) :
    readNngHeader (messageMemory protocol) 4096 = some (protocol, 1) := by
  let buffer : List UInt8 := .replicate 9 0 ++ Word.bigEndianBytes protocol ++ [0, 1]
  have memory : messageMemory protocol = msghdrMemory [] buffer := rfl
  have length : buffer.length = 15 := rfl
  have fits : buffer.length < 2 ^ 32 := by rw [length]; decide
  have iov : readIovAt (msghdrMemory [] buffer) 4152 0 = some ⟨4184, 15⟩ :=
    readIovAt_msghdrMemory fits
  have id : readBeU32 (msghdrMemory [] buffer) 4193 = some protocol := by
    rw [readBeU32, read_buffer_msghdrMemory fits (show _ = 4184 + 9 from rfl) (by omega)]
    exact congrArg some (Word.bigEndian_bigEndianBytes protocol)
  have type : readBeU16 (msghdrMemory [] buffer) 4197 = some 1 := by
    rw [readBeU16, read_buffer_msghdrMemory fits (show _ = 4184 + 13 from rfl) (by omega)]
    rfl
  rw [memory]
  simp only [readNngHeader, readUserMsgHdr_msghdrMemory fits, Option.bind_eq_bind,
    Option.bind_some]
  rw [if_neg (by decide)]
  simp only [Option.bind_some, iov]
  rw [if_neg (by decide)]
  rw [if_pos (by decide), readHeaderFromSingleIov]
  change (readBeU32 (msghdrMemory [] buffer) 4193).bind (fun protocol =>
    (readBeU16 (msghdrMemory [] buffer) 4197).bind fun msgType => some (protocol, msgType)) = _
  rw [id, type]
  rfl

def sendCall (pid : UInt32) (fd : UInt64) (protocol : UInt32) (now : UInt64) : SendCall where
  args := some ⟨fd, 4096⟩
  pidTgid := Word.pack pid 0
  memory := messageMemory protocol
  now := now
  later := now

theorem sendEvent_sendCall {maps : Maps} {pid : UInt32} {fd : UInt64} {endpoint : HopEndpoint}
    (tracked : getEndpoint maps pid fd.toUInt32 = some endpoint) (protocol : UInt32)
    (now : UInt64) :
    sendEvent maps (sendCall pid fd protocol now) =
      some ⟨endpoint, pid, fd.toUInt32, protocol, 1⟩ := by
  have sender : pidOf (Word.pack pid 0) = pid := Word.high_pack pid 0
  simp only [sendEvent, sendCall, sender, tracked, readNngHeader_messageMemory,
    Option.bind_eq_bind, Option.bind_some]
  rfl

def endpoints (rows : List (UInt32 × UInt32 × UInt32 × UInt32)) :
    BoundedMap UInt64 HopEndpoint socketHopsMapMaxEntries :=
  rows.foldl
    (fun hops (pid, fd, hopIndex, isSender) =>
      hops.insert (pairKey pid fd) ⟨hopIndex, isSender, .replicate 32 0⟩)
    .empty

end BpfAgent.Sca
