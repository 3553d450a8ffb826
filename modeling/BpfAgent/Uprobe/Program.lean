import BpfAgent.Lib.BoundedMap
import BpfAgent.Lib.Memory
import BpfAgent.Lib.Table
import BpfAgent.PidLabel
import BpfAgent.Syscall

/-!
# UPROBE: counting calls of a function

The probe counts the calls of the traced function for every process and keeps
the arguments of the latest.  A tick turns the counts into increments of one
counter per process and command name.

The rows a tick logs are left out.
-/

namespace BpfAgent.Uprobe

def maxArgs : Nat := 6
def argStrSize : Nat := 64
def stringArgKey : UInt32 := 0

structure CallRecord where
  count : UInt64
  lastTs : UInt64
  args : Vector UInt64 maxArgs
  comm : Vector UInt8 16
  argStr : Vector UInt8 argStrSize
  deriving DecidableEq

def CallRecord.zeroed : CallRecord :=
  ⟨0, 0, .replicate maxArgs 0, .replicate 16 0, .replicate argStrSize 0⟩

structure Maps where
  calls : BoundedMap UInt32 CallRecord 1024
  stringArgMap : BoundedMap UInt32 UInt32 1

/-- A call of the traced function: the registers, the command name of the
calling thread and the memory that can be read. -/
structure TracedCall where
  pidTgid : UInt64
  now : UInt64
  comm : Option (Vector UInt8 16)
  arg : Nat → Option UInt64
  memory : Memory

/-- The bytes of a C string before its NUL, `limit` at most. -/
def readUserStr (memory : Memory) (address : UInt64) : (limit : Nat) → Option (List UInt8)
  | 0 => some []
  | limit + 1 =>
      match memory address with
      | none => none
      | some byte =>
          if byte = 0 then some []
          else (readUserStr memory (address + 1) limit).map (byte :: ·)

/-- The buffer after the string at `src` has been read into it: NUL-padded,
truncated to leave room for a NUL, and empty when it cannot be read. -/
def readArgStr (memory : Memory) (src : UInt64) : Vector UInt8 argStrSize :=
  let bytes := ((readUserStr memory src argStrSize).getD []).take (argStrSize - 1)
  .ofFn fun index => bytes.getD index 0

def CallRecord.update (record : CallRecord) (stringArg : UInt32) (call : TracedCall) :
    CallRecord :=
  let args := Vector.ofFn fun (index : Fin maxArgs) => (call.arg index).getD 0
  { count := record.count + 1
    lastTs := call.now
    comm := call.comm.getD (.replicate 16 0)
    args
    argStr :=
      if inside : 1 ≤ stringArg.toNat ∧ stringArg.toNat ≤ maxArgs then
        let src := args.get ⟨stringArg.toNat - 1, by omega⟩
        if src ≠ 0 then readArgStr call.memory src else .replicate argStrSize 0
      else
        record.argStr }

def traceCallHandler (maps : Maps) (call : TracedCall) : Maps :=
  let pid := pidOf call.pidTgid
  let calls :=
    if (maps.calls.get pid).isNone then maps.calls.insert pid .zeroed else maps.calls
  match calls.get pid with
  | none => { maps with calls }
  | some record =>
      let stringArg := (maps.stringArgMap.get stringArgKey).getD 0
      -- The record is updated in place.
      { maps with calls := calls.insert pid (record.update stringArg call) }

def replacement : Char := Char.ofNat 0xfffd

def isContinuation (byte : UInt8) : Bool := byte &&& 0xc0 = 0x80

/-- Which bytes may follow the first one of a sequence of three or four. -/
def secondAllowed (first second : UInt8) : Bool :=
  if first = 0xe0 then 0xa0 ≤ second && second ≤ 0xbf
  else if first = 0xed then 0x80 ≤ second && second ≤ 0x9f
  else if first = 0xf0 then 0x90 ≤ second && second ≤ 0xbf
  else if first = 0xf4 then 0x80 ≤ second && second ≤ 0x8f
  else 0x80 ≤ second && second ≤ 0xbf

def decodeTwo (first second : UInt8) : Char :=
  Char.ofNat ((first &&& 0x1f).toNat * 2 ^ 6 + (second &&& 0x3f).toNat)

def decodeThree (first second third : UInt8) : Char :=
  Char.ofNat ((first &&& 0x0f).toNat * 2 ^ 12 + (second &&& 0x3f).toNat * 2 ^ 6 +
    (third &&& 0x3f).toNat)

def decodeFour (first second third fourth : UInt8) : Char :=
  Char.ofNat ((first &&& 0x07).toNat * 2 ^ 18 + (second &&& 0x3f).toNat * 2 ^ 12 +
    (third &&& 0x3f).toNat * 2 ^ 6 + (fourth &&& 0x3f).toNat)

/-- UTF-8 with one replacement character for every maximal part of a sequence
that is not well formed. -/
def fromUtf8Lossy : List UInt8 → List Char
  | [] => []
  | first :: rest =>
      if first < 0x80 then
        Char.ofNat first.toNat :: fromUtf8Lossy rest
      else if 0xc2 ≤ first ∧ first ≤ 0xdf then
        match rest with
        | [] => [replacement]
        | second :: rest' =>
            if isContinuation second then decodeTwo first second :: fromUtf8Lossy rest'
            else replacement :: fromUtf8Lossy (second :: rest')
      else if 0xe0 ≤ first ∧ first ≤ 0xef then
        match rest with
        | [] => [replacement]
        | second :: rest' =>
            if secondAllowed first second then
              match rest' with
              | [] => [replacement]
              | third :: rest'' =>
                  if isContinuation third then
                    decodeThree first second third :: fromUtf8Lossy rest''
                  else
                    replacement :: fromUtf8Lossy (third :: rest'')
            else replacement :: fromUtf8Lossy (second :: rest')
      else if 0xf0 ≤ first ∧ first ≤ 0xf4 then
        match rest with
        | [] => [replacement]
        | second :: rest' =>
            if secondAllowed first second then
              match rest' with
              | [] => [replacement]
              | third :: rest'' =>
                  if isContinuation third then
                    match rest'' with
                    | [] => [replacement]
                    | fourth :: rest''' =>
                        if isContinuation fourth then
                          decodeFour first second third fourth :: fromUtf8Lossy rest'''
                        else
                          replacement :: fromUtf8Lossy (fourth :: rest''')
                  else
                    replacement :: fromUtf8Lossy (third :: rest'')
            else replacement :: fromUtf8Lossy (second :: rest')
      else
        replacement :: fromUtf8Lossy rest

/-- Render a NUL-padded byte buffer as a string. -/
def cstrString (buf : List UInt8) : String :=
  String.ofList (fromUtf8Lossy (buf.takeWhile (· ≠ 0)))

/-- One inc_by call on the counter. -/
structure Increment where
  pid : UInt32
  pname : String
  delta : UInt64
  deriving DecidableEq

structure Program where
  enabled : Bool
  lastCounts : Table UInt32 UInt64
  callsTotal : Table String UInt64

def Program.new (enabled : Bool) : Program := ⟨enabled, ∅, ∅⟩

def pname (pid : UInt32) (record : CallRecord) : String :=
  pidLabel (cstrString record.comm.toList) pid

def incBy (series : Table String UInt64) (label : String) (delta : UInt64) :
    Table String UInt64 :=
  series.insert label ((series.lookup label).getD 0 + delta)

/-- One round of the loop over the records, with the increments so far.  An
entry that cannot be read is skipped. -/
def reportEntry (state : Program × List Increment) (entry : Option (UInt32 × CallRecord)) :
    Program × List Increment :=
  match entry with
  | none => state
  | some (pid, record) =>
      let (program, increments) := state
      let last := (program.lastCounts.lookup pid).getD 0
      let lastCounts := program.lastCounts.insert pid record.count
      let delta := Word.saturatingSub record.count last
      if delta = 0 then
        ({ program with lastCounts }, increments)
      else
        ({ program with
           lastCounts
           callsTotal := incBy program.callsTotal (pname pid record) delta },
          increments ++ [⟨pid, pname pid record, delta⟩])

/-- `entries` is what iterating over CALLS yields. -/
def displayMetrics (program : Program) (entries : List (Option (UInt32 × CallRecord))) :
    Program × List Increment :=
  if program.enabled then entries.foldl reportEntry (program, []) else (program, [])

end BpfAgent.Uprobe
