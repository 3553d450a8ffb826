import BpfAgent.Iflat.Ebpf
import Mathlib.Data.List.FinRange
import Mathlib.Logic.Function.Basic
import Mathlib.Tactic.Simps.Basic

/-!
# IFLAT: hooks on several CPUs

The maps are shared by all CPUs, and a hook makes up to six requests to them
with other hooks in between.  An invocation takes a turn per request; a
schedule is any list of turns.

The handlers take no lock.  Two egresses that read an accumulator before either
of them has written it back lose a sample, and two that look up one timestamp
before either has removed it both consume it.  A clean turn does neither.
-/

namespace BpfAgent.Iflat.Concurrency

open Function

/-- A call of a hook, with its packet and the time its clock reads. -/
inductive Invocation where
  | xdpRx (frame : List UInt8) (now : UInt64)
  | tcTx (packet : List UInt8) (now : UInt64)

def Invocation.run (maps : Maps) (victims : List UInt32) : Invocation → Maps
  | .xdpRx frame now => xdpRxHandler maps frame now victims
  | .tcTx packet now => (tcTxHandler maps packet now).1

/-- Where an invocation is: the requests it has made and what they returned. -/
inductive Phase where
  | start
  | found (tag : UInt32) (rxTimestamp now : UInt64)
  | removed (latency : UInt64)
  | gotSum (latency sum : UInt64)
  | gotCount (latency sum count : UInt64)
  | storedSum (count : UInt64)
  | done
  deriving DecidableEq

/-- An egress that has found a timestamp: its tag, and the invocation that had
stored it, unless it was there from the start. -/
structure Match (n : Nat) where
  egress : Fin n
  tag : UInt32
  source : Option (Fin n)
  deriving DecidableEq

structure State (n : Nat) where
  maps : Maps
  phase : Fin n → Phase
  /-- Which invocation has stored the timestamp of a tag. -/
  source : UInt32 → Option (Fin n)
  /-- The egresses that have found a timestamp, in order. -/
  matched : List (Match n)

variable {n : Nat}

def State.initial (maps : Maps) : State n := ⟨maps, fun _ => .start, fun _ => none, []⟩

/-- An invocation, and the entries that the kernel drops if it stores a
timestamp. -/
structure Turn (n : Nat) where
  index : Fin n
  victims : List UInt32

@[simps]
def State.storeTimestamp (state : State n) (turn : Turn n) (tag : UInt32) (now : UInt64) :
    State n where
  maps := ⟨state.maps.timestampMap.insertEvicting tag now turn.victims, state.maps.latency⟩
  phase := update state.phase turn.index .done
  source := update state.source tag (some turn.index)
  matched := state.matched

@[simps]
def State.findTimestamp (state : State n) (index : Fin n) (tag : UInt32)
    (rxTimestamp now : UInt64) : State n where
  maps := state.maps
  phase := update state.phase index (.found tag rxTimestamp now)
  source := state.source
  matched := state.matched ++ [⟨index, tag, state.source tag⟩]

@[simps]
def State.removeTimestamp (state : State n) (index : Fin n) (tag : UInt32)
    (latency : UInt64) : State n where
  maps := ⟨state.maps.timestampMap.remove tag, state.maps.latency⟩
  phase := update state.phase index (.removed latency)
  source := state.source
  matched := state.matched

/-- Proceed to `phase` with the accumulators `latency`. -/
@[simps]
def State.accumulate (state : State n) (index : Fin n) (phase : Phase) (latency : Accumulator) :
    State n where
  maps := ⟨state.maps.timestampMap, latency⟩
  phase := update state.phase index phase
  source := state.source
  matched := state.matched

def State.pass (state : State n) (index : Fin n) : State n :=
  state.accumulate index .done state.maps.latency

/-- The first request of an invocation; without a tag it makes none. -/
def State.begin (state : State n) (turn : Turn n) : Invocation → State n
  | .xdpRx frame now =>
      match rxTag frame with
      | none => state.pass turn.index
      | some tag => state.storeTimestamp turn tag now
  | .tcTx packet now =>
      match txTag packet with
      | none => state.pass turn.index
      | some tag =>
          match state.maps.timestampMap.get tag with
          | none => state.pass turn.index
          | some rxTimestamp => state.findTimestamp turn.index tag rxTimestamp now

/-- The next request of the invocation whose turn it is. -/
def State.step (invocations : Fin n → Invocation) (state : State n) (turn : Turn n) : State n :=
  let latency := state.maps.latency
  match state.phase turn.index with
  | .start => state.begin turn (invocations turn.index)
  | .found tag rxTimestamp now =>
      state.removeTimestamp turn.index tag (Word.saturatingSub now rxTimestamp)
  | .removed sample => state.accumulate turn.index (.gotSum sample latency.sum) latency
  | .gotSum sample sum =>
      state.accumulate turn.index (.gotCount sample sum latency.count) latency
  | .gotCount sample sum count =>
      state.accumulate turn.index (.storedSum count) (latency.storeSum (sum + sample))
  | .storedSum count => state.accumulate turn.index .done (latency.storeCount (count + 1))
  | .done => state

/-- An invocation whose turns no other interrupts is the whole hook. -/
theorem step_uninterrupted (invocations : Fin n → Invocation) (state : State n) (turn : Turn n)
    (start : state.phase turn.index = .start) :
    ((List.replicate 6 turn).foldl (State.step invocations) state).maps =
        (invocations turn.index).run state.maps turn.victims ∧
      ((List.replicate 6 turn).foldl (State.step invocations) state).phase turn.index =
        .done := by
  have idle : ∀ {other : State n} (turns : Nat), other.phase turn.index = .done →
      (List.replicate turns turn).foldl (State.step invocations) other = other := by
    intro other turns done
    induction turns with
    | zero => rfl
    | succ turns inductionHypothesis =>
        simp only [List.replicate_succ, List.foldl_cons, State.step, done]
        exact inductionHypothesis
  have first : State.step invocations state turn = state.begin turn (invocations turn.index) := by
    rw [State.step, start]
  rw [List.replicate_succ, List.foldl_cons, first]
  cases invocations turn.index with
  | xdpRx frame now =>
      simp only [State.begin, Invocation.run, xdpRxHandler]
      cases rxTag frame with
      | none =>
          rw [idle 5 (update_self ..)]
          exact ⟨rfl, update_self ..⟩
      | some tag =>
          rw [idle 5 (update_self ..)]
          exact ⟨rfl, update_self ..⟩
  | tcTx packet now =>
      simp only [State.begin, Invocation.run, tcTxHandler]
      cases txTag packet with
      | none =>
          rw [idle 5 (update_self ..)]
          exact ⟨rfl, update_self ..⟩
      | some tag =>
          cases lookup : state.maps.timestampMap.get tag with
          | none =>
              simp only [lookup]
              rw [idle 5 (update_self ..)]
              exact ⟨rfl, update_self ..⟩
          | some rxTimestamp =>
              simp [State.step, State.findTimestamp, State.removeTimestamp, State.accumulate,
                lookup, Accumulator.accumulateLatency_eq_stores]

def Phase.removes : Phase → Option UInt32
  | .found tag _ _ => some tag
  | _ => none

def Phase.owesSum : Phase → Option UInt64
  | .found _ rxTimestamp now => some (Word.saturatingSub now rxTimestamp)
  | .removed latency => some latency
  | .gotSum latency _ => some latency
  | .gotCount latency _ _ => some latency
  | _ => none

def Phase.holdsSum : Phase → Option UInt64
  | .gotSum _ sum => some sum
  | .gotCount _ sum _ => some sum
  | _ => none

def Phase.owesCount : Phase → Option UInt64
  | .start => none
  | .done => none
  | _ => some 1

def Phase.holdsCount : Phase → Option UInt64
  | .gotCount _ _ count => some count
  | .storedSum count => some count
  | _ => none

/-- The tags that some invocation has found and not yet removed. -/
def State.pending (state : State n) : List UInt32 :=
  (List.finRange n).filterMap fun index => (state.phase index).removes

theorem State.mem_pending {state : State n} {tag : UInt32} :
    tag ∈ state.pending ↔ ∃ index, (state.phase index).removes = some tag := by
  simp [State.pending]

/-- The first request of an invocation does not touch a timestamp that another
is consuming. -/
def Invocation.Clear (state : State n) : Invocation → Prop
  | .xdpRx frame _ => ∀ tag ∈ rxTag frame, tag ∉ state.pending
  | .tcTx packet _ =>
      ∀ tag ∈ txTag packet, tag ∈ state.maps.timestampMap → tag ∉ state.pending

instance (state : State n) : (invocation : Invocation) → Decidable (invocation.Clear state)
  | .xdpRx frame _ => Option.decidableForallMem (rxTag frame)
  | .tcTx packet _ => Option.decidableForallMem (txTag packet)

def Phase.Clean (state : State n) (invocation : Invocation) : Phase → Prop
  | .start => invocation.Clear state
  | .removed _ => ∀ index, (state.phase index).holdsSum = none
  | .gotSum _ _ => ∀ index, (state.phase index).holdsCount = none
  | _ => True

instance (state : State n) (invocation : Invocation) :
    (phase : Phase) → Decidable (phase.Clean state invocation)
  | .start => inferInstanceAs (Decidable (invocation.Clear state))
  | .removed _ => Nat.decidableForallFin fun index => (state.phase index).holdsSum = none
  | .gotSum _ _ => Nat.decidableForallFin fun index => (state.phase index).holdsCount = none
  | .found _ _ _ => .isTrue trivial
  | .gotCount _ _ _ => .isTrue trivial
  | .storedSum _ => .isTrue trivial
  | .done => .isTrue trivial

/-- The turn does not get between two requests of another invocation that
belong together: the lookup of a timestamp and its removal, or the reading of
an accumulator and its writing. -/
def Clean (invocations : Fin n → Invocation) (state : State n) (turn : Turn n) : Prop :=
  (state.phase turn.index).Clean state (invocations turn.index)

instance (invocations : Fin n → Invocation) (state : State n) (turn : Turn n) :
    Decidable (Clean invocations state turn) :=
  inferInstanceAs (Decidable ((state.phase turn.index).Clean state (invocations turn.index)))

/-- A view of the phases does not see a phase that looks the same. -/
theorem update_comp_of_same {Value : Type} {view : Phase → Value} {phases : Fin n → Phase}
    {index : Fin n} {value : Value} (same : value = view (phases index)) :
    update (view ∘ phases) index value = view ∘ phases := by
  rw [same]
  exact update_eq_self index (view ∘ phases)

theorem comp_update_of_same {Value : Type} (view : Phase → Value) (phases : Fin n → Phase)
    {index : Fin n} {phase : Phase} (same : view phase = view (phases index)) :
    view ∘ update phases index phase = view ∘ phases := by
  rw [comp_update]
  exact update_comp_of_same same

theorem pending_congr {state next : State n}
    (same : Phase.removes ∘ next.phase = Phase.removes ∘ state.phase) :
    next.pending = state.pending :=
  congrArg (fun view => (List.finRange n).filterMap view) same

theorem pending_storeTimestamp {state : State n} {turn : Turn n}
    (start : state.phase turn.index = .start) (tag : UInt32) (now : UInt64) :
    (state.storeTimestamp turn tag now).pending = state.pending :=
  pending_congr (comp_update_of_same Phase.removes state.phase (by rw [start]; rfl))

theorem pending_accumulate {state : State n} {index : Fin n} {phase : Phase}
    (removes : phase.removes = (state.phase index).removes) (latency : Accumulator) :
    (state.accumulate index phase latency).pending = state.pending :=
  pending_congr (comp_update_of_same Phase.removes state.phase removes)

theorem mem_pending_findTimestamp {state : State n} {index : Fin n}
    (start : state.phase index = .start) {tag : UInt32} {rxTimestamp now : UInt64}
    {other : UInt32} : other ∈ (state.findTimestamp index tag rxTimestamp now).pending ↔
      other = tag ∨ other ∈ state.pending := by
  rw [State.mem_pending, State.mem_pending]
  constructor
  · rintro ⟨remover, removes⟩
    by_cases same : remover = index
    · rw [same, State.findTimestamp_phase, update_self] at removes
      exact .inl (Option.some_inj.mp removes).symm
    · rw [State.findTimestamp_phase, update_of_ne same] at removes
      exact .inr ⟨remover, removes⟩
  · rintro (rfl | ⟨remover, removes⟩)
    · exact ⟨index, by rw [State.findTimestamp_phase, update_self]; rfl⟩
    · refine ⟨remover, ?_⟩
      rwa [State.findTimestamp_phase, update_of_ne]
      rintro rfl
      rw [start] at removes
      cases removes

theorem mem_pending_removeTimestamp {state : State n} {index : Fin n} {tag other : UInt32}
    {rxTimestamp now latency : UInt64} (found : state.phase index = .found tag rxTimestamp now)
    (different : other ≠ tag) :
    other ∈ (state.removeTimestamp index tag latency).pending ↔ other ∈ state.pending := by
  rw [State.mem_pending, State.mem_pending]
  refine exists_congr fun remover => ?_
  by_cases same : remover = index
  · rw [same, State.removeTimestamp_phase, update_self, found]
    simp [Phase.removes, different.symm]
  · rw [State.removeTimestamp_phase, update_of_ne same]

theorem begun_update {phases : Fin n → Phase} {index other : Fin n} {phase : Phase}
    (begins : phase ≠ .start) (begun : phases other ≠ .start) :
    update phases index phase other ≠ .start := by
  by_cases same : other = index
  · rwa [same, update_self]
  · rwa [update_of_ne same]

/-- Only invocations that have begun have stored or found a timestamp, and what
is stored and not about to be removed has not been found by any. -/
structure Provenance (state : State n) : Prop where
  egressBegun : ∀ found ∈ state.matched, state.phase found.egress ≠ .start
  foundBegun : ∀ found ∈ state.matched, ∀ index, found.source = some index →
    state.phase index ≠ .start
  storedBegun : ∀ tag index, state.source tag = some index → state.phase index ≠ .start
  unconsumed : ∀ tag, tag ∈ state.maps.timestampMap → tag ∉ state.pending →
    ∀ found ∈ state.matched, (found.tag, found.source) ≠ (tag, state.source tag)
  egresses : (state.matched.map Match.egress).Nodup
  consumed : (state.matched.map fun found => (found.tag, found.source)).Nodup

theorem Provenance.initial (maps : Maps) : Provenance (.initial maps : State n) where
  egressBegun _ impossible := nomatch impossible
  foundBegun _ impossible := nomatch impossible
  storedBegun _ _ impossible := nomatch impossible
  unconsumed _ _ _ _ impossible := nomatch impossible
  egresses := List.nodup_nil
  consumed := List.nodup_nil

theorem Provenance.keep {state next : State n} (provenance : Provenance state)
    (begun : ∀ index, state.phase index ≠ .start → next.phase index ≠ .start)
    (source : next.source = state.source) (matched : next.matched = state.matched)
    (kept : ∀ tag, tag ∈ next.maps.timestampMap → tag ∉ next.pending →
      tag ∈ state.maps.timestampMap ∧ tag ∉ state.pending) : Provenance next where
  egressBegun found member := by
    rw [matched] at member
    exact begun _ (provenance.egressBegun found member)
  foundBegun found member index from_index := by
    rw [matched] at member
    exact begun _ (provenance.foundBegun found member index from_index)
  storedBegun tag index stored := by
    rw [source] at stored
    exact begun _ (provenance.storedBegun tag index stored)
  unconsumed tag present free := by
    rw [matched, source]
    obtain ⟨present, free⟩ := kept tag present free
    exact provenance.unconsumed tag present free
  egresses := by rw [matched]; exact provenance.egresses
  consumed := by rw [matched]; exact provenance.consumed

theorem Provenance.store {state : State n} (provenance : Provenance state) {turn : Turn n}
    (start : state.phase turn.index = .start) (tag : UInt32) (now : UInt64) :
    Provenance (state.storeTimestamp turn tag now) where
  egressBegun found member :=
    begun_update (by decide) (provenance.egressBegun found member)
  foundBegun found member index from_index :=
    begun_update (by decide) (provenance.foundBegun found member index from_index)
  storedBegun other index stored := by
    by_cases same : other = tag
    · rw [same, State.storeTimestamp_source, update_self, Option.some_inj] at stored
      rw [← stored, State.storeTimestamp_phase, update_self]
      decide
    · rw [State.storeTimestamp_source, update_of_ne same] at stored
      exact begun_update (by decide) (provenance.storedBegun other index stored)
  unconsumed other present free found member := by
    intro clash
    obtain ⟨sameTag, sameSource⟩ := Prod.mk.inj clash
    by_cases same : other = tag
    · -- The storing invocation has only just begun, so nobody has found its timestamp.
      rw [same, State.storeTimestamp_source, update_self] at sameSource
      exact provenance.foundBegun found member turn.index sameSource start
    · rw [State.storeTimestamp_source, update_of_ne same] at sameSource
      rw [pending_storeTimestamp start] at free
      have old : other ∈ state.maps.timestampMap := by
        rw [BoundedMap.mem_iff_get] at present ⊢
        obtain ⟨value, lookup⟩ := present
        refine ⟨value, ?_⟩
        rw [← lookup, State.storeTimestamp_maps_timestampMap,
          BoundedMap.get_insertEvicting (Option.ne_none_iff_exists'.mpr ⟨value, lookup⟩),
          if_neg same]
      exact provenance.unconsumed other old free found member (Prod.ext sameTag sameSource)
  egresses := provenance.egresses
  consumed := provenance.consumed

theorem Provenance.find {state : State n} (provenance : Provenance state) {index : Fin n}
    (start : state.phase index = .start) {tag : UInt32} {rxTimestamp : UInt64}
    (now : UInt64) (present : state.maps.timestampMap.get tag = some rxTimestamp)
    (free : tag ∉ state.pending) :
    Provenance (state.findTimestamp index tag rxTimestamp now) where
  egressBegun found member := by
    rcases List.mem_append.mp member with old | new
    · exact begun_update (by simp) (provenance.egressBegun found old)
    · rw [List.mem_singleton.mp new, State.findTimestamp_phase, update_self]
      simp
  foundBegun found member source from_source := by
    rcases List.mem_append.mp member with old | new
    · exact begun_update (by simp) (provenance.foundBegun found old source from_source)
    · rw [List.mem_singleton.mp new] at from_source
      exact begun_update (by simp) (provenance.storedBegun tag source from_source)
  storedBegun other source stored :=
    begun_update (by simp) (provenance.storedBegun other source stored)
  unconsumed other otherPresent otherFree found member := by
    rw [mem_pending_findTimestamp start, not_or] at otherFree
    rcases List.mem_append.mp member with old | new
    · exact provenance.unconsumed other otherPresent otherFree.2 found old
    · rw [List.mem_singleton.mp new]
      intro clash
      exact otherFree.1 (Prod.mk.inj clash).1.symm
  egresses := by
    rw [State.findTimestamp_matched, List.map_append, List.map_singleton]
    refine provenance.egresses.append (List.nodup_singleton _) ?_
    rw [List.disjoint_singleton, List.mem_map]
    rintro ⟨found, member, same⟩
    exact provenance.egressBegun found member (by rw [same, start])
  consumed := by
    rw [State.findTimestamp_matched, List.map_append, List.map_singleton]
    refine provenance.consumed.append (List.nodup_singleton _) ?_
    rw [List.disjoint_singleton, List.mem_map]
    rintro ⟨found, member, same⟩
    exact provenance.unconsumed tag (BoundedMap.mem_iff_get.mpr ⟨_, present⟩) free found member
      same

theorem Provenance.remove {state : State n} (provenance : Provenance state) {index : Fin n}
    {tag : UInt32} {rxTimestamp now : UInt64}
    (found : state.phase index = .found tag rxTimestamp now) (latency : UInt64) :
    Provenance (state.removeTimestamp index tag latency) := by
  refine provenance.keep ?_ rfl rfl ?_
  · intro other begun
    exact begun_update (by simp) begun
  · intro other present free
    obtain ⟨different, present⟩ := BoundedMap.mem_remove.mp present
    rw [mem_pending_removeTimestamp found different] at free
    exact ⟨present, free⟩

theorem Provenance.accumulate {state : State n} (provenance : Provenance state) {index : Fin n}
    {phase : Phase} (begins : phase ≠ .start)
    (removes : phase.removes = (state.phase index).removes) (latency : Accumulator) :
    Provenance (state.accumulate index phase latency) := by
  refine provenance.keep ?_ rfl rfl ?_
  · intro other begun
    exact begun_update begins begun
  · intro tag present free
    rw [pending_accumulate removes] at free
    exact ⟨present, free⟩

theorem Provenance.step {invocations : Fin n → Invocation} {state : State n}
    (provenance : Provenance state) {turn : Turn n} (clean : Clean invocations state turn) :
    Provenance (state.step invocations turn) := by
  unfold Clean at clean
  unfold State.step
  cases phase : state.phase turn.index with
  | start =>
      rw [phase] at clean
      have pass : Provenance (state.pass turn.index) :=
        provenance.accumulate (by decide) (by rw [phase]; rfl) _
      cases called : invocations turn.index with
      | xdpRx frame now =>
          simp only [State.begin]
          cases rxTag frame with
          | none => exact pass
          | some tag => exact provenance.store phase tag now
      | tcTx packet now =>
          rw [called] at clean
          simp only [State.begin]
          cases parsed : txTag packet with
          | none => exact pass
          | some tag =>
              cases lookup : state.maps.timestampMap.get tag with
              | none =>
                  simp only [lookup]
                  exact pass
              | some rxTimestamp =>
                  simp only [lookup]
                  have present := BoundedMap.mem_iff_get.mpr ⟨_, lookup⟩
                  exact provenance.find phase now lookup (clean tag parsed present)
  | found tag rxTimestamp now => exact provenance.remove phase _
  | removed sample => exact provenance.accumulate (by simp) (by rw [phase]; rfl) _
  | gotSum sample sum => exact provenance.accumulate (by simp) (by rw [phase]; rfl) _
  | gotCount sample sum count => exact provenance.accumulate (by simp) (by rw [phase]; rfl) _
  | storedSum count => exact provenance.accumulate (by simp) (by rw [phase]; rfl) _
  | done => exact provenance

end BpfAgent.Iflat.Concurrency
