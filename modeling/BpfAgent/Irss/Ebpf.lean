import BpfAgent.Accumulator
import BpfAgent.Syscall

/-!
# IRSS: receive and send hooks

A receive is traced in three places.  sys_enter_recvmsg stages the msghdr
pointer under the calling thread, the udp_recvmsg kprobe withdraws it when the
socket's local port is not the configured one, and sys_exit_recvmsg turns a
pointer that is still staged into a timestamp under the payload tag.  A send to
the configured destination takes the timestamp back and accumulates the
difference.
-/

namespace BpfAgent.Irss

def keySize : Nat := 4

def listenPortDefault : UInt16 := 5020
def listenPortKey : UInt32 := 0
def rawDestDefault : List UInt8 := [10, 10, 10, 253]
def rawDestKey : UInt32 := 0
def afInet : UInt16 := 2

/-- `size_of::<SockaddrIn>()`. -/
def sockaddrInSize : Nat := 16

structure Maps where
  /-- Thread (pid_tgid) to staged user_msghdr pointer. -/
  recvMsgPtr : BoundedMap UInt64 UInt64 1024
  /-- Payload tag to time of receipt. -/
  timestampMap : BoundedMap UInt32 UInt64 1024
  latency : Accumulator
  rawDestMap : BoundedMap UInt32 UInt32 1
  listenPortMap : BoundedMap UInt32 UInt32 1

def Maps.empty : Maps := ⟨.empty, .empty, .empty, .empty, .empty⟩

/-- The raw-IP destination the TX filter matches on: the address bytes in
memory order, read as a little-endian word. -/
def rawDest (maps : Maps) : UInt32 :=
  (maps.rawDestMap.get rawDestKey).getD (Memory.field rawDestDefault 0 4).toUInt32

def listenPort (maps : Maps) : UInt32 :=
  (maps.listenPortMap.get listenPortKey).getD listenPortDefault.toUInt32

def readTxDest (memory : Memory) (msgPtr : UInt64) : Option UInt32 := do
  let msghdr ← readUserMsgHdr memory msgPtr
  if msghdr.msgName = 0 ∨ msghdr.msgNamelen < sockaddrInSize.toUInt32 then failure
  let address ← memory.read msghdr.msgName sockaddrInSize
  if (Memory.field address 0 2).toUInt16 ≠ afInet then failure
  return (Memory.field address 4 4).toUInt32

/-- The message tag of a user_msghdr: the first bytes of its first iovec. -/
def readPayloadKey (memory : Memory) (msgPtr : UInt64) : Option UInt32 := do
  let msghdr ← readUserMsgHdr memory msgPtr
  if msghdr.msgIov = 0 ∨ msghdr.msgIovlen = 0 then failure
  let firstIov ← readIovAt memory msghdr.msgIov 0
  if firstIov.iovBase = 0 ∨ firstIov.iovLen < keySize.toUInt64 then failure
  readBeU32 memory firstIov.iovBase

/-- sys_enter_recvmsg: stage the msghdr pointer of the calling thread. -/
def sysEnterRecvmsgHandler (maps : Maps) (pidTgid : UInt64) (args : Option SysEnterMsgArgs) :
    Maps :=
  match args with
  | none => maps
  | some args => { maps with recvMsgPtr := maps.recvMsgPtr.insert pidTgid args.msg }

/-- udp_recvmsg kprobe: withdraw the pointer unless the port matches.  The port
is absent when the argument or the kernel memory behind it cannot be read. -/
def udpRecvmsgHandler (maps : Maps) (pidTgid : UInt64) (port : Option UInt16) : Maps :=
  match port with
  | none => maps
  | some port =>
      if port.toUInt32 ≠ listenPort maps then
        { maps with recvMsgPtr := maps.recvMsgPtr.remove pidTgid }
      else
        maps

/-- sys_exit_recvmsg: the buffer is filled, store the receipt timestamp. -/
def sysExitRecvmsgHandler (maps : Maps) (pidTgid : UInt64) (ret : Option Int64)
    (memory : Memory) (now : UInt64) : Maps :=
  match maps.recvMsgPtr.get pidTgid with
  | none => maps
  | some msgPtr =>
      let maps := { maps with recvMsgPtr := maps.recvMsgPtr.remove pidTgid }
      match ret with
      | none => maps
      | some ret =>
          if ret < keySize.toInt64 then
            maps
          else
            match readPayloadKey memory msgPtr with
            | none => maps
            | some key => { maps with timestampMap := maps.timestampMap.insert key now }

/-- sys_enter_sendmsg: match the tag of a datagram to the configured target. -/
def sysEnterSendmsgHandler (maps : Maps) (args : Option SysEnterMsgArgs) (memory : Memory)
    (now : UInt64) : Maps :=
  match args with
  | none => maps
  | some args =>
      if readTxDest memory args.msg = some (rawDest maps) then
        match readPayloadKey memory args.msg with
        | none => maps
        | some key =>
            match maps.timestampMap.get key with
            | none => maps
            | some rxTimestamp =>
                { maps with
                  timestampMap := maps.timestampMap.remove key
                  latency := maps.latency.accumulateLatency
                    (Word.saturatingSub now rxTimestamp) }
      else
        maps

end BpfAgent.Irss
