import BpfAgent.Lib.Memory

/-!
# System call arguments in user memory

The records that the sendmsg and recvmsg tracepoints read: the tracepoint
arguments, `struct user_msghdr` and `struct iovec`, at their x86-64 offsets.
The SCA and IRSS programs carry identical copies of these definitions and of
the readers below.
-/

namespace BpfAgent

structure SysEnterMsgArgs where
  fd : UInt64
  msg : UInt64
  deriving DecidableEq

/-- The fields of `struct user_msghdr` that the programs look at. -/
structure UserMsgHdr where
  msgName : UInt64
  msgNamelen : UInt32
  msgIov : UInt64
  msgIovlen : UInt64
  deriving DecidableEq

structure IoVec where
  iovBase : UInt64
  iovLen : UInt64
  deriving DecidableEq

/-- `size_of::<UserMsgHdr>()`: the whole record is copied, so all of it has to
be readable. -/
def userMsgHdrSize : Nat := 56

/-- `size_of::<IoVec>()`. -/
def ioVecSize : Nat := 16

def readUserMsgHdr (memory : Memory) (address : UInt64) : Option UserMsgHdr :=
  (memory.read address userMsgHdrSize).map fun record =>
    { msgName := Memory.field record 0 8
      msgNamelen := (Memory.field record 8 4).toUInt32
      msgIov := Memory.field record 16 8
      msgIovlen := Memory.field record 24 8 }

def readIovAt (memory : Memory) (iovArray index : UInt64) : Option IoVec :=
  (memory.read (iovArray + index * ioVecSize.toUInt64) ioVecSize).map fun record =>
    { iovBase := Memory.field record 0 8
      iovLen := Memory.field record 8 8 }

def readBeU32 (memory : Memory) (address : UInt64) : Option UInt32 :=
  (memory.read address 4).map Word.bigEndian

def readBeU16 (memory : Memory) (address : UInt64) : Option UInt16 :=
  (memory.read address 2).map fun bytes => (Word.bigEndian bytes).toUInt16

/-- The process id is the upper half of `bpf_get_current_pid_tgid`. -/
def pidOf (pidTgid : UInt64) : UInt32 := Word.high pidTgid

/-- User memory holding a msghdr at address 4096, its one iovec, a destination
address of 16 bytes (or none) and the buffer. -/
def msghdrMemory (name buffer : List UInt8) : Memory :=
  Memory.segment 4096
    (Memory.wordBytes (if name = [] then 0 else 4168) ++
      Memory.wordBytes name.length.toUInt64 ++ Memory.wordBytes 4152 ++
      Memory.wordBytes 1 ++ .replicate 24 0 ++
      Memory.wordBytes 4184 ++ Memory.wordBytes buffer.length.toUInt64 ++
      (name ++ .replicate (16 - name.length) 0) ++ buffer)

-- What is read back from `msghdrMemory` without a destination address.
section MsghdrMemory

def msghdrRecord : List UInt8 :=
  Memory.wordBytes 0 ++ Memory.wordBytes 0 ++ Memory.wordBytes 4152 ++ Memory.wordBytes 1 ++
    .replicate 24 0

variable (buffer : List UInt8)

def iovecRecord : List UInt8 :=
  Memory.wordBytes 4184 ++ Memory.wordBytes buffer.length.toUInt64

def msghdrBytes : List UInt8 :=
  msghdrRecord ++ (iovecRecord buffer ++ (.replicate 16 0 ++ buffer))

theorem msghdrMemory_eq_segment :
    msghdrMemory [] buffer = Memory.segment 4096 (msghdrBytes buffer) := by
  simp only [msghdrMemory, msghdrBytes, msghdrRecord, iovecRecord, List.append_assoc]
  rfl

theorem length_msghdrRecord : msghdrRecord.length = 56 := rfl

theorem length_iovecRecord : (iovecRecord buffer).length = 16 := by
  simp [iovecRecord, Memory.wordBytes]

variable {buffer} (fits : buffer.length < 2 ^ 32)

include fits

theorem read_msghdrMemory {address : UInt64} {offset count : Nat}
    (located : address.toNat = 4096 + offset) (inside : offset + count ≤ 88 + buffer.length) :
    (msghdrMemory [] buffer).read address count =
      some (((msghdrBytes buffer).drop offset).take count) := by
  have whole : (msghdrBytes buffer).length = 88 + buffer.length := by
    simp only [msghdrBytes, List.length_append, length_msghdrRecord, length_iovecRecord,
      List.length_replicate]
    omega
  have base : (4096 : UInt64).toNat = 4096 := rfl
  rw [msghdrMemory_eq_segment]
  apply Memory.read_segment
  · exact located
  · omega
  · omega

theorem readUserMsgHdr_msghdrMemory :
    readUserMsgHdr (msghdrMemory [] buffer) 4096 = some ⟨0, 0, 4152, 1⟩ := by
  have record : ((msghdrBytes buffer).drop 0).take userMsgHdrSize = msghdrRecord := by
    rw [List.drop_zero, msghdrBytes]
    exact List.take_left' length_msghdrRecord
  rw [readUserMsgHdr, read_msghdrMemory fits (Nat.add_zero _).symm
    (by unfold userMsgHdrSize; omega), record]
  decide

theorem readIovAt_msghdrMemory :
    readIovAt (msghdrMemory [] buffer) 4152 0 = some ⟨4184, buffer.length.toUInt64⟩ := by
  have record : ((msghdrBytes buffer).drop 56).take ioVecSize = iovecRecord buffer := by
    rw [msghdrBytes, List.drop_left' length_msghdrRecord]
    exact List.take_left' (length_iovecRecord buffer)
  have base := Memory.field_wordBytes [] 4184 (Memory.wordBytes buffer.length.toUInt64)
  have size := Memory.field_wordBytes (Memory.wordBytes 4184) buffer.length.toUInt64 []
  rw [List.append_nil] at size
  rw [readIovAt, read_msghdrMemory fits (show _ = _ + 56 from rfl)
    (by unfold ioVecSize; omega), record, Option.map_some]
  congr 2

theorem read_buffer_msghdrMemory {address : UInt64} {offset count : Nat}
    (located : address.toNat = 4184 + offset) (inside : offset + count ≤ buffer.length) :
    (msghdrMemory [] buffer).read address count = some ((buffer.drop offset).take count) := by
  have skipped : (msghdrBytes buffer).drop 88 = buffer := by
    rw [msghdrBytes, ← List.append_assoc, ← List.append_assoc]
    apply List.drop_left'
    simp only [List.length_append, length_msghdrRecord, length_iovecRecord,
      List.length_replicate]
  rw [read_msghdrMemory fits (show address.toNat = 4096 + (88 + offset) by omega) (by omega),
    ← List.drop_drop, skipped]

end MsghdrMemory

end BpfAgent
