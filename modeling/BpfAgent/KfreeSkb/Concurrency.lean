import BpfAgent.KfreeSkb.Rates
import BpfAgent.Lib.Run
import Mathlib.Logic.Function.Basic

/-!
# KFREE_SKB: drops on several CPUs

The tracepoint handler looks its counter up and stores the successor in a
second request.  Handlers on different CPUs get in between.  Whatever they do,
a counter never runs ahead of the drops.  If no two of them hold the same
counter at a time, the drops might as well have been handled one by one, in the
order of the stores, and what is known of such runs carries over.
-/

namespace BpfAgent.KfreeSkb.Concurrency

open Function

variable {Cpu : Type} [DecidableEq Cpu]

/-- What a handler knows between its two requests. -/
structure Held where
  reason : UInt32
  count : Option UInt64

structure State (Cpu : Type) where
  dropCounts : DropCounts
  program : Program
  held : Cpu → Option Held

def State.loaded : State Cpu := ⟨.empty, Program.new, fun _ => none⟩

inductive Act (Cpu : Type) where
  /-- A drop; the reason is absent when it cannot be read. -/
  | lookup (cpu : Cpu) (reason : Option UInt32)
  | store (cpu : Cpu)
  | tick (now : Nat)

/-- The value to store after a lookup. -/
def Held.next (held : Held) : UInt64 :=
  match held.count with
  | some count => count + 1
  | none => 1

/-- A CPU handles one drop at a time. -/
def step (state : State Cpu) : Act Cpu → State Cpu
  | .lookup cpu reason =>
      match state.held cpu, reason with
      | none, some reason =>
          { state with
            held := update state.held cpu (some ⟨reason, state.dropCounts.get reason⟩) }
      | _, _ => state
  | .store cpu =>
      match state.held cpu with
      | none => state
      | some held =>
          { state with
            dropCounts := state.dropCounts.insert held.reason held.next
            held := update state.held cpu none }
  | .tick now => { state with program := displayMetrics state.program state.dropCounts now }

/-- What is done with an act, in terms of whole drops: a drop is handled when
its counter is stored. -/
def handled (state : State Cpu) : Act Cpu → Option Event
  | .lookup _ _ => none
  | .store cpu => (state.held cpu).map fun held => .drop (some held.reason)
  | .tick now => some (.tick now)

def stateAfter (acts : List (Act Cpu)) : State Cpu := acts.foldl step .loaded

def serial (acts : List (Act Cpu)) : List Event := Run.outputs step handled .loaded acts

/-- A lookup of a counter that no handler holds. -/
def Disjoint (state : State Cpu) : Act Cpu → Prop
  | .lookup _ reason => ∀ other held, state.held other = some held → reason ≠ some held.reason
  | _ => True

section Step

variable {state : State Cpu} {cpu : Cpu} {reason : UInt32} {held : Held}

theorem step_lookup (idle : state.held cpu = none) :
    step state (.lookup cpu (some reason)) =
      { state with
        held := update state.held cpu (some ⟨reason, state.dropCounts.get reason⟩) } := by
  simp only [step, idle]

theorem step_lookup_cases (state : State Cpu) (cpu : Cpu) (reason : Option UInt32) :
    step state (.lookup cpu reason) = state ∨ ∃ read, reason = some read ∧
      state.held cpu = none ∧ step state (.lookup cpu reason) =
        { state with held := update state.held cpu (some ⟨read, state.dropCounts.get read⟩) } := by
  cases reason with
  | none =>
      left
      simp only [step]
      cases state.held cpu <;> rfl
  | some read =>
      cases idle : state.held cpu with
      | none => exact .inr ⟨read, rfl, rfl, step_lookup idle⟩
      | some held =>
          left
          simp only [step, idle]

theorem step_store (busy : state.held cpu = some held) :
    step state (.store cpu) =
      { state with
        dropCounts := state.dropCounts.insert held.reason held.next
        held := update state.held cpu none } := by
  simp only [step, busy]

theorem step_store_idle (idle : state.held cpu = none) : step state (.store cpu) = state := by
  simp only [step, idle]

end Step

theorem stateAfter_append_singleton (acts : List (Act Cpu)) (act : Act Cpu) :
    stateAfter (acts ++ [act]) = step (stateAfter acts) act := by
  rw [stateAfter, List.foldl_append]
  rfl

theorem serial_append_singleton (acts : List (Act Cpu)) (act : Act Cpu) :
    serial (acts ++ [act]) = serial acts ++ (handled (stateAfter acts) act).toList := by
  rw [serial, Run.outputs_append]
  congr 1
  exact List.append_nil _

theorem held_of_update_some {held : Cpu → Option Held} {cpu other : Cpu} {read found : Held}
    (holds : update held cpu (some read) other = some found) :
    other = cpu ∧ found = read ∨ other ≠ cpu ∧ held other = some found := by
  by_cases same : other = cpu
  · rw [same, update_self] at holds
    exact .inl ⟨same, (Option.some.inj holds).symm⟩
  · rw [update_of_ne same] at holds
    exact .inr ⟨same, holds⟩

theorem held_of_update_none {held : Cpu → Option Held} {cpu other : Cpu} {found : Held}
    (holds : update held cpu none other = some found) :
    other ≠ cpu ∧ held other = some found := by
  by_cases same : other = cpu
  · rw [same, update_self] at holds
    cases holds
  · rw [update_of_ne same] at holds
    exact ⟨same, holds⟩

/-- Neither a counter nor what a handler knows of it exceeds the drops. -/
structure Behind (state : State Cpu) (events : List Event) : Prop where
  stored : ∀ reason count, state.dropCounts.get reason = some count →
    count.toNat ≤ drops reason events
  read : ∀ cpu held count, state.held cpu = some held → held.count = some count →
    count.toNat ≤ drops held.reason events

theorem Held.toNat_next {held : Held} {bound : Nat}
    (read : ∀ count, held.count = some count → count.toNat ≤ bound) :
    held.next.toNat ≤ bound + 1 := by
  unfold Held.next
  split
  next count found =>
    have small := read count found
    have sum := UInt64.toNat_add count 1
    have one : (1 : UInt64).toNat = 1 := rfl
    omega
  next => exact Nat.le_add_left 1 bound

theorem drops_le_append (reason : UInt32) (events later : List Event) :
    drops reason events ≤ drops reason (events ++ later) := by
  rw [drops, drops, List.countP_append]
  exact Nat.le_add_right _ _

omit [DecidableEq Cpu] in
theorem Behind.later {state : State Cpu} {events : List Event} (behind : Behind state events)
    (later : List Event) : Behind state (events ++ later) where
  stored reason count found :=
    (behind.stored reason count found).trans (drops_le_append reason events later)
  read cpu held count busy found :=
    (behind.read cpu held count busy found).trans (drops_le_append held.reason events later)

theorem Behind.store {state : State Cpu} {events : List Event} (behind : Behind state events)
    {cpu : Cpu} {held : Held} (busy : state.held cpu = some held) :
    Behind (step state (.store cpu)) (events ++ [.drop (some held.reason)]) := by
  have next : held.next.toNat ≤ drops held.reason (events ++ [.drop (some held.reason)]) := by
    rw [drops_snoc, dropReason, if_pos rfl]
    exact Held.toNat_next fun count found => behind.read cpu held count busy found
  have later := behind.later [.drop (some held.reason)]
  rw [step_store busy]
  constructor
  · intro reason count found
    by_cases same : reason = held.reason
    · subst same
      rcases BoundedMap.get_insert_cases found with before | rfl
      · exact later.stored _ _ before
      · exact next
    · rw [BoundedMap.get_insert_ne _ same] at found
      exact later.stored _ _ found
  · intro other otherHeld count holds found
    exact later.read _ _ _ (held_of_update_none holds).2 found

theorem Behind.lookup {state : State Cpu} {events : List Event} (behind : Behind state events)
    (cpu : Cpu) (reason : Option UInt32) : Behind (step state (.lookup cpu reason)) events := by
  rcases step_lookup_cases state cpu reason with unchanged | ⟨read, -, -, looked⟩
  · rw [unchanged]
    exact behind
  · rw [looked]
    refine ⟨behind.stored, ?_⟩
    intro other held count holds found
    rcases held_of_update_some holds with ⟨-, rfl⟩ | ⟨-, before⟩
    · exact behind.stored _ _ found
    · exact behind.read _ _ _ before found

theorem behind_stateAfter (acts : List (Act Cpu)) : Behind (stateAfter acts) (serial acts) := by
  induction acts using List.reverseRecOn with
  | nil =>
      constructor
      · intro reason count found
        cases found
      · intro cpu held count holds
        cases holds
  | append_singleton acts act inductionHypothesis =>
      rw [stateAfter_append_singleton, serial_append_singleton]
      cases act with
      | lookup cpu reason =>
          simp only [handled, Option.toList_none, List.append_nil]
          exact inductionHypothesis.lookup cpu reason
      | tick now =>
          have later := inductionHypothesis.later [.tick now]
          exact ⟨later.stored, later.read⟩
      | store cpu =>
          cases busy : (stateAfter acts).held cpu with
          | none =>
              rw [step_store_idle busy]
              simp only [handled, busy, Option.map_none, Option.toList_none, List.append_nil]
              exact inductionHypothesis
          | some held =>
              simp only [handled, busy, Option.map_some, Option.toList_some]
              exact inductionHypothesis.store busy

/-- However the handlers of all CPUs interleave, no reason is ever counted more
often than it was dropped. -/
theorem count_le_drops (acts : List (Act Cpu)) (reason : UInt32) :
    ((stateAfter acts).dropCounts.get reason).elim 0 UInt64.toNat ≤ drops reason (serial acts) := by
  cases found : (stateAfter acts).dropCounts.get reason with
  | none => exact Nat.zero_le _
  | some count => exact (behind_stateAfter acts).stored reason count found

-- Two handlers that read the same counter lose a drop.
example :
    let acts : List (Act Bool) :=
      [.lookup false (some 2), .lookup true (some 2), .store false, .store true]
    (stateAfter acts).dropCounts.get 2 = some 1 ∧ drops 2 (serial acts) = 2 := by
  decide

/-- What handlers know is still so, and no two of them hold the same counter. -/
structure Current (state : State Cpu) : Prop where
  count : ∀ cpu held, state.held cpu = some held →
    held.count = state.dropCounts.get held.reason
  alone : ∀ cpu other held otherHeld, state.held cpu = some held →
    state.held other = some otherHeld → held.reason = otherHeld.reason → cpu = other

omit [DecidableEq Cpu] in
theorem current_loaded : Current (.loaded : State Cpu) where
  count _ _ holds := by cases holds
  alone _ _ _ _ holds := by cases holds

theorem Current.lookup {state : State Cpu} (current : Current state) {cpu : Cpu}
    {reason : Option UInt32} (disjoint : Disjoint state (.lookup cpu reason)) :
    Current (step state (.lookup cpu reason)) := by
  rcases step_lookup_cases state cpu reason with unchanged | ⟨read, rfl, idle, looked⟩
  · rw [unchanged]
    exact current
  · rw [looked]
    constructor
    · intro other held holds
      rcases held_of_update_some holds with ⟨-, rfl⟩ | ⟨-, before⟩
      · rfl
      · exact current.count other held before
    · intro first second held otherHeld holds otherHolds equal
      rcases held_of_update_some holds with ⟨rfl, rfl⟩ | ⟨-, before⟩
      · rcases held_of_update_some otherHolds with ⟨rfl, -⟩ | ⟨-, otherBefore⟩
        · rfl
        · exact absurd (congrArg some equal) (disjoint second otherHeld otherBefore)
      · rcases held_of_update_some otherHolds with ⟨rfl, rfl⟩ | ⟨-, otherBefore⟩
        · exact absurd (congrArg some equal.symm) (disjoint first held before)
        · exact current.alone first second held otherHeld before otherBefore equal

theorem Current.store {state : State Cpu} (current : Current state) {cpu : Cpu} {held : Held}
    (busy : state.held cpu = some held) : Current (step state (.store cpu)) := by
  rw [step_store busy]
  constructor
  · intro other otherHeld holds
    obtain ⟨different, before⟩ := held_of_update_none holds
    have apart : otherHeld.reason ≠ held.reason := by
      intro equal
      exact different (current.alone other cpu otherHeld held before busy equal)
    exact (current.count other otherHeld before).trans (BoundedMap.get_insert_ne _ apart _).symm
  · intro first second firstHeld secondHeld holds otherHolds
    exact current.alone first second firstHeld secondHeld (held_of_update_none holds).2
      (held_of_update_none otherHolds).2

omit [DecidableEq Cpu] in
theorem Current.insert_next {state : State Cpu} (current : Current state) {cpu : Cpu}
    {held : Held} (busy : state.held cpu = some held) :
    state.dropCounts.insert held.reason held.next =
      tryKfreeSkb state.dropCounts (some held.reason) := by
  have count := current.count cpu held busy
  simp only [tryKfreeSkb, Held.next, count]
  cases state.dropCounts.get held.reason <;> rfl

/-- The state is that of the drops and ticks one by one. -/
structure Serialized (state : State Cpu) (events : List Event) : Prop where
  current : Current state
  dropCounts : state.dropCounts = (KfreeSkb.stateAfter events).dropCounts
  program : state.program = (KfreeSkb.stateAfter events).program

theorem Serialized.step {state : State Cpu} {events : List Event}
    (serialized : Serialized state events) {act : Act Cpu} (disjoint : Disjoint state act) :
    Serialized (step state act) (events ++ (handled state act).toList) := by
  cases act with
  | lookup cpu reason =>
      have kept : (Concurrency.step state (.lookup cpu reason)).dropCounts = state.dropCounts ∧
          (Concurrency.step state (.lookup cpu reason)).program = state.program := by
        rcases step_lookup_cases state cpu reason with unchanged | ⟨read, -, -, looked⟩
        · rw [unchanged]
          exact ⟨rfl, rfl⟩
        · rw [looked]
          exact ⟨rfl, rfl⟩
      simp only [handled, Option.toList_none, List.append_nil]
      exact ⟨serialized.current.lookup disjoint, kept.1.trans serialized.dropCounts,
        kept.2.trans serialized.program⟩
  | tick now =>
      simp only [handled, Option.toList_some]
      refine ⟨⟨serialized.current.count, serialized.current.alone⟩, ?_, ?_⟩
      · rw [stateAfter_snoc]
        exact serialized.dropCounts
      · rw [stateAfter_snoc]
        simp only [Concurrency.step, KfreeSkb.step, serialized.dropCounts, serialized.program]
  | store cpu =>
      cases busy : state.held cpu with
      | none =>
          rw [step_store_idle busy]
          simp only [handled, busy, Option.map_none, Option.toList_none, List.append_nil]
          exact serialized
      | some held =>
          refine ⟨serialized.current.store busy, ?_, ?_⟩
          · simp only [handled, busy, Option.map_some, Option.toList_some]
            rw [step_store busy, stateAfter_snoc, serialized.current.insert_next busy,
              serialized.dropCounts]
            rfl
          · simp only [handled, busy, Option.map_some, Option.toList_some]
            rw [step_store busy, stateAfter_snoc]
            exact serialized.program

/-- If a counter is looked up only while no handler holds it, the run is one of
whole drops, in the order of the stores. -/
theorem serialized_of_disjoint (acts : List (Act Cpu))
    (disjoint : Run.Along step Disjoint .loaded acts) :
    (stateAfter acts).dropCounts = (KfreeSkb.stateAfter (serial acts)).dropCounts ∧
      (stateAfter acts).program = (KfreeSkb.stateAfter (serial acts)).program := by
  have serialized : Serialized (stateAfter acts) (serial acts) := by
    induction acts using List.reverseRecOn with
    | nil => exact ⟨current_loaded, rfl, rfl⟩
    | append_singleton acts act inductionHypothesis =>
        obtain ⟨before, here, -⟩ := Run.along_append.mp disjoint
        rw [stateAfter_append_singleton, serial_append_singleton]
        exact (inductionHypothesis before).step here
  exact ⟨serialized.dropCounts, serialized.program⟩

def sideBySide : List (Act Bool) :=
  [.lookup false (some 2), .lookup true (some 3), .store true, .lookup true (some 4),
    .store false, .store true, .lookup false (some 2), .tick 5, .store false, .tick 9]

theorem disjoint_sideBySide : Run.Along step Disjoint .loaded sideBySide := by
  have apart : ∀ {held : Bool → Option Held} {reason : UInt32},
      (∀ cpu : Bool, (held cpu).all fun found => decide (some reason ≠ some found.reason)) →
      ∀ other found, held other = some found → some reason ≠ some found.reason := by
    intro held reason all other found holds
    have checked := all other
    rw [holds, Option.all_some, decide_eq_true_eq] at checked
    exact checked
  refine ⟨apart ?_, apart ?_, trivial, apart ?_, trivial, trivial, apart ?_, trivial, trivial,
    trivial, trivial⟩ <;> decide

theorem serialized_sideBySide :
    serial sideBySide = [.drop (some 3), .drop (some 2), .drop (some 4), .tick 5,
        .drop (some 2), .tick 9] ∧
      (stateAfter sideBySide).dropCounts =
          (KfreeSkb.stateAfter (serial sideBySide)).dropCounts ∧
        (stateAfter sideBySide).program = (KfreeSkb.stateAfter (serial sideBySide)).program :=
  ⟨by decide, serialized_of_disjoint _ disjoint_sideBySide⟩

end BpfAgent.KfreeSkb.Concurrency
