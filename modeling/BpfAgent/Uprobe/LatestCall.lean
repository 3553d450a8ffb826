import BpfAgent.Uprobe.Configure
import BpfAgent.Uprobe.Conservation

/-!
# UPROBE: the latest call of every process

A record is created for the first call of its process and never leaves the
map, so it has seen every call of the process.  What it holds besides the count
comes from the latest of them; the string of an earlier call does not shine
through, because the buffer is cleared before the next one is read into it.
-/

namespace BpfAgent.Uprobe

/-- The bytes of a C string in front of its NUL, or the first `limit` of them. -/
structure StringAt (memory : Memory) (address : UInt64) (limit : Nat) (bytes : List UInt8) :
    Prop where
  nonzero : ∀ byte ∈ bytes, byte ≠ 0
  readable : memory.read address bytes.length = some bytes
  ends : bytes.length = limit ∨
    bytes.length < limit ∧ memory (address + bytes.length.toUInt64) = some 0

theorem stringAt_nil_iff {memory : Memory} {address : UInt64} {limit : Nat} :
    StringAt memory address (limit + 1) [] ↔ memory address = some 0 := by
  have first : address + (0 : Nat).toUInt64 = address := UInt64.add_zero address
  constructor
  · rintro ⟨-, -, impossible | ⟨-, ends⟩⟩
    · cases impossible
    · rw [← first]
      exact ends
  · intro ends
    refine ⟨by simp, rfl, .inr ⟨Nat.succ_pos _, ?_⟩⟩
    rw [List.length_nil, first]
    exact ends

theorem stringAt_cons_iff {memory : Memory} {address : UInt64} {limit : Nat} {byte : UInt8}
    {rest : List UInt8} :
    StringAt memory address (limit + 1) (byte :: rest) ↔
      (memory address = some byte ∧ byte ≠ 0) ∧ StringAt memory (address + 1) limit rest := by
  constructor
  · rintro ⟨nonzero, readable, ends⟩
    obtain ⟨first, others⟩ := Memory.read_succ_eq_some_iff.mp readable
    refine ⟨⟨first, nonzero byte List.mem_cons_self⟩, ?_, others, ?_⟩
    · intro other member
      exact nonzero other (List.mem_cons_of_mem _ member)
    · rw [Memory.add_one_add]
      simpa only [List.length_cons, Nat.add_right_cancel_iff, Nat.add_lt_add_iff_right] using ends
  · rintro ⟨⟨first, notNul⟩, nonzero, readable, ends⟩
    refine ⟨?_, Memory.read_succ_eq_some_iff.mpr ⟨first, readable⟩, ?_⟩
    · rintro other (_ | ⟨_, member⟩)
      · exact notNul
      · exact nonzero other member
    · rw [Memory.add_one_add] at ends
      simpa only [List.length_cons, Nat.add_right_cancel_iff, Nat.add_lt_add_iff_right] using ends

theorem readUserStr_eq_some_iff {memory : Memory} {address : UInt64} {limit : Nat}
    {bytes : List UInt8} :
    readUserStr memory address limit = some bytes ↔ StringAt memory address limit bytes := by
  induction limit generalizing address bytes with
  | zero =>
      rw [readUserStr, Option.some.injEq]
      constructor
      · rintro rfl
        exact ⟨by simp, rfl, .inl rfl⟩
      · rintro ⟨-, -, all | ⟨impossible, -⟩⟩
        · exact (List.eq_nil_of_length_eq_zero all).symm
        · omega
  | succ limit inductionHypothesis =>
      rw [readUserStr]
      cases bytes with
      | nil =>
          rw [stringAt_nil_iff]
          cases memory address with
          | none => simp
          | some byte => by_cases nul : byte = 0 <;> simp [nul]
      | cons byte rest =>
          rw [stringAt_cons_iff, ← inductionHypothesis]
          cases memory address with
          | none => simp
          | some first =>
              by_cases nul : first = 0
              · subst nul
                simp only [if_true, Option.some.injEq]
                refine iff_of_false (by simp) ?_
                rintro ⟨⟨same, notNul⟩, -⟩
                exact notNul same.symm
              · simp only [nul, if_false, Option.map_eq_some_iff, List.cons.injEq,
                  Option.some.injEq]
                constructor
                · rintro ⟨others, readable, rfl, rfl⟩
                  exact ⟨⟨rfl, nul⟩, readable⟩
                · rintro ⟨⟨rfl, -⟩, readable⟩
                  exact ⟨rest, readable, rfl, rfl⟩

/-- A string as the buffer holds it: cut off in front of the last byte and
padded with NULs. -/
def padded (text : List UInt8) : List UInt8 :=
  (text.take (argStrSize - 1)).rightpad argStrSize 0

theorem toList_ofFn_getD (text : List UInt8) (bound : text.length ≤ argStrSize) :
    (Vector.ofFn fun index : Fin argStrSize => text.getD index 0).toList =
      text.rightpad argStrSize 0 := by
  apply List.ext_getElem
  · simp only [Vector.length_toList, List.rightpad, List.length_append, List.length_replicate]
    omega
  · intro index low high
    simp only [Vector.getElem_toList, Vector.getElem_ofFn, List.rightpad,
      List.getElem_append, List.getElem_replicate, List.getD_eq_getElem?_getD]
    split
    next inside => rw [List.getElem?_eq_getElem inside, Option.getD_some]
    next outside => rw [List.getElem?_eq_none (by omega), Option.getD_none]

theorem toList_readArgStr (memory : Memory) (src : UInt64) :
    (readArgStr memory src).toList = padded ((readUserStr memory src argStrSize).getD []) :=
  toList_ofFn_getD _ ((List.length_take_le _ _).trans (by decide))

/-- The argument of a call, 1 for the first. -/
def argument (call : TracedCall) (index : Nat) : UInt64 := (call.arg (index - 1)).getD 0

/-- `text` is what can be read of the string that the argument points to. -/
def PointsTo (call : TracedCall) (index : Nat) (text : List UInt8) : Prop :=
  index ≠ 0 ∧ argument call index ≠ 0 ∧
    StringAt call.memory (argument call index) argStrSize text

/-- The record of a process after `calls` calls of which `call` was the latest. -/
structure Describes (config : ProgramConfig) (calls : Nat) (call : TracedCall)
    (record : CallRecord) : Prop where
  count : record.count = UInt64.ofNat calls
  lastTs : record.lastTs = call.now
  comm : record.comm = call.comm.getD (.replicate 16 0)
  args : ∀ index : Fin maxArgs, record.args.get index = argument call (index + 1)
  string : ∀ index text, StringArg config index → PointsTo call index text →
    record.argStr.toList = padded text
  noString : ∀ index, StringArg config index → (∀ text, ¬PointsTo call index text) →
    record.argStr.toList = padded []

/-- What one call makes of a record with the buffer cleared, or never used. -/
theorem update_describes {config : ProgramConfig} {record : CallRecord} {calls : Nat}
    (counted : record.count = UInt64.ofNat calls)
    (unused : ∀ index, StringArg config index → index = 0 → record.argStr.toList = padded [])
    (call : TracedCall) :
    Describes config (calls + 1) call (record.update (parseStringArg config) call) := by
  have cleared : ∀ inside : 1 ≤ (parseStringArg config).toNat ∧
      (parseStringArg config).toNat ≤ maxArgs,
      (record.update (parseStringArg config) call).argStr.toList =
        if argument call (parseStringArg config).toNat ≠ 0 then
          padded ((readUserStr call.memory (argument call (parseStringArg config).toNat)
            argStrSize).getD [])
        else
          padded [] := by
    intro inside
    have source : (Vector.ofFn fun index : Fin maxArgs => (call.arg index).getD 0).get
        ⟨(parseStringArg config).toNat - 1, by omega⟩ =
          argument call (parseStringArg config).toNat := Vector.getElem_ofFn _
    simp only [CallRecord.update, dif_pos inside, source, ← toList_readArgStr]
    split <;> rfl
  constructor
  case count =>
    rw [CallRecord.update, counted, UInt64.ofNat_add]
    rfl
  case lastTs => rfl
  case comm => rfl
  case args =>
    intro index
    exact Vector.getElem_ofFn index.isLt
  case string =>
    rintro index text set ⟨used, notNull, read⟩
    obtain rfl := set.toNat_parseStringArg
    rw [cleared ⟨Nat.one_le_iff_ne_zero.mpr used, set.le_maxArgs⟩, if_pos notNull,
      readUserStr_eq_some_iff.mpr read, Option.getD_some]
  case noString =>
    intro index set none
    obtain rfl := set.toNat_parseStringArg
    by_cases used : (parseStringArg config).toNat = 0
    · have outside : ¬(1 ≤ (parseStringArg config).toNat ∧
          (parseStringArg config).toNat ≤ maxArgs) := by omega
      simp only [CallRecord.update, dif_neg outside]
      exact unused _ set used
    · rw [cleared ⟨Nat.one_le_iff_ne_zero.mpr used, set.le_maxArgs⟩]
      split
      next notNull =>
        cases read : readUserStr call.memory (argument call (parseStringArg config).toNat)
            argStrSize with
        | none => rfl
        | some text => exact absurd ⟨used, notNull, readUserStr_eq_some_iff.mp read⟩ (none text)
      next => rfl

def Event.callOf (pid : UInt32) : Event → Option TracedCall
  | .call traced => if pidOf traced.pidTgid = pid then some traced else none
  | .tick _ => none

def latestCall (pid : UInt32) (events : List Event) : Option TracedCall :=
  events.reverse.findSome? (Event.callOf pid)

theorem latestCall_snoc (pid : UInt32) (events : List Event) (event : Event) :
    latestCall pid (events ++ [event]) = (event.callOf pid).or (latestCall pid events) := by
  rw [latestCall, List.reverse_append, List.reverse_singleton, List.singleton_append,
    List.findSome?_cons]
  cases event.callOf pid <;> rfl

structure Tracks (config : ProgramConfig) (events : List Event)
    (calls : BoundedMap UInt32 CallRecord 1024) : Prop where
  latest : ∀ pid record, calls.get pid = some record →
    ∃ call, latestCall pid events = some call ∧
      Describes config (callsOf pid events) call record
  missing : ∀ pid, calls.get pid = none → callsOf pid events = 0 ∨ calls.size = 1024

/-- What a run does with the configuration it starts from. -/
structure Traced (config : ProgramConfig) (events : List Event) : Prop where
  attached : (∃ site maps, load (configured config) = some (site, maps)) ↔
    ∃ target symbol, Complete config target symbol
  tracks : ∀ site maps, load (configured config) = some (site, maps) →
    Complete config site.target site.symbol ∧
      Tracks config events (stateAfter maps.stringArgMap events).maps.calls

theorem Tracks.start (config : ProgramConfig) : Tracks config [] .empty := by
  constructor
  · intro pid record impossible
    cases impossible
  · intro pid _
    exact .inl rfl

theorem Tracks.call {config : ProgramConfig} {events : List Event} {maps : Maps}
    (tracks : Tracks config events maps.calls)
    (loaded : maps.stringArgMap.get stringArgKey = some (parseStringArg config))
    (call : TracedCall) :
    Tracks config (events ++ [.call call]) (traceCallHandler maps call).calls := by
  have grows := traceCallHandler_size maps call
  have bounded : (traceCallHandler maps call).calls.size ≤ 1024 :=
    (traceCallHandler maps call).calls.bounded
  constructor
  case latest =>
    intro pid record found
    by_cases own : pidOf call.pidTgid = pid
    · subst own
      rw [latestCall_snoc, callsOf_snoc]
      simp only [Event.callOf, Event.isCallOf, decide_true, if_true, Option.some_or]
      refine ⟨call, rfl, ?_⟩
      rw [traceCallHandler_get_own, loaded, Option.getD_some] at found
      split at found
      next room =>
        cases found
        cases before : maps.calls.get (pidOf call.pidTgid) with
        | some earlier =>
            obtain ⟨_, -, described⟩ := tracks.latest _ earlier before
            refine update_describes described.count ?_ call
            rintro _ set rfl
            exact described.noString 0 set fun text points => points.1 rfl
        | none =>
            have first : callsOf (pidOf call.pidTgid) events = 0 := by
              rcases room with present | space
              · exact absurd present (BoundedMap.notMem_iff_get.mpr before)
              · exact (tracks.missing _ before).resolve_right (by omega)
            rw [first]
            exact update_describes rfl (fun _ _ _ => rfl) call
      next full => cases found
    · rw [latestCall_snoc, callsOf_snoc]
      simp only [Event.callOf, Event.isCallOf, own, decide_false, if_false, Option.none_or,
        Bool.false_eq_true, Nat.add_zero]
      rw [traceCallHandler_get_ne (Ne.symm own)] at found
      exact tracks.latest pid record found
  case missing =>
    intro pid absent
    by_cases own : pidOf call.pidTgid = pid
    · subst own
      rw [traceCallHandler_get_own] at absent
      split at absent
      next room => cases absent
      next full =>
        have crowded : ¬maps.calls.size < 1024 := fun space => full (.inr space)
        exact .inr (by omega)
    · rw [traceCallHandler_get_ne (Ne.symm own)] at absent
      rw [callsOf_snoc]
      simp only [Event.isCallOf, own, decide_false, if_false, Bool.false_eq_true, Nat.add_zero]
      refine (tracks.missing pid absent).imp_right ?_
      intro crowded
      omega

theorem stringArgMap_run (stringArgMap : BoundedMap UInt32 UInt32 1) (events : List Event) :
    (stateAfter stringArgMap events).maps.stringArgMap = stringArgMap := by
  induction events using List.reverseRecOn with
  | nil => rfl
  | append_singleton events event inductionHypothesis =>
      rw [stateAfter_snoc]
      refine Eq.trans ?_ inductionHypothesis
      cases event with
      | tick reads => rfl
      | call call =>
          unfold Agent.step traceCallHandler
          dsimp only
          split <;> rfl

theorem tracks_run {config : ProgramConfig} {stringArgMap : BoundedMap UInt32 UInt32 1}
    (loaded : stringArgMap.get stringArgKey = some (parseStringArg config))
    (events : List Event) :
    Tracks config events (stateAfter stringArgMap events).maps.calls := by
  induction events using List.reverseRecOn with
  | nil => exact .start config
  | append_singleton events event inductionHypothesis =>
      rw [stateAfter_snoc]
      cases event with
      | call call =>
          apply inductionHypothesis.call
          rw [stringArgMap_run, loaded]
      | tick reads =>
          constructor
          · intro pid record found
            rw [latestCall_snoc, callsOf_snoc]
            exact inductionHypothesis.latest pid record found
          · intro pid absent
            rw [callsOf_snoc]
            exact inductionHypothesis.missing pid absent

/-- A probe is attached for a complete entry only, and then every record
describes the latest call of its process, whatever the order of calls and ticks. -/
theorem traced_run (config : ProgramConfig) (events : List Event) : Traced config events := by
  constructor
  case attached =>
    constructor
    · rintro ⟨site, maps, loaded⟩
      exact ⟨site.target, site.symbol, (load_configured_eq_some_iff.mp loaded).1⟩
    · rintro ⟨target, symbol, complete⟩
      exact ⟨⟨target, symbol, parseOffset config, pidScope (parsePid config)⟩, _,
        load_configured_eq_some_iff.mpr ⟨complete, rfl, rfl, rfl⟩⟩
  case tracks =>
    intro site maps loaded
    obtain ⟨complete, -, -, rfl⟩ := load_configured_eq_some_iff.mp loaded
    exact ⟨complete, tracks_run rfl events⟩

end BpfAgent.Uprobe
