import Mathlib.Data.List.Basic

/-!
# Runs of a deterministic step function

A run folds `step` over a list of events.  `stateAt` names the state before
each event, so that properties can speak about positions of a run, and `Along`
says that every step of a run meets a condition on the state it starts from.
-/

namespace Run

universe u v

variable {State : Type u} {Event : Type v}

/-- The state in which the event at position `index` is handled. -/
def stateAt (step : State → Event → State) (initial : State) (events : List Event)
    (index : Nat) : State :=
  (events.take index).foldl step initial

theorem stateAt_succ (step : State → Event → State) (initial : State)
    {events : List Event} {index : Nat} {event : Event}
    (handled : events[index]? = some event) :
    stateAt step initial events (index + 1) =
      step (stateAt step initial events index) event := by
  rw [stateAt, List.take_add_one, handled]
  simp [stateAt]

theorem stateAt_succ_of_none (step : State → Event → State) (initial : State)
    {events : List Event} {index : Nat} (past : events[index]? = none) :
    stateAt step initial events (index + 1) = stateAt step initial events index := by
  rw [stateAt, List.take_add_one, past]
  simp [stateAt]

/-- What the steps of a run put out, in order. -/
def outputs {Output : Type} (step : State → Event → State)
    (output : State → Event → Option Output) : State → List Event → List Output
  | _, [] => []
  | state, event :: rest =>
      (output state event).toList ++ outputs step output (step state event) rest

theorem outputs_append {Output : Type} (step : State → Event → State)
    (output : State → Event → Option Output) (state : State) (first second : List Event) :
    outputs step output state (first ++ second) =
      outputs step output state first ++
        outputs step output (first.foldl step state) second := by
  induction first generalizing state with
  | nil => rfl
  | cons event first inductionHypothesis =>
      rw [List.cons_append, outputs, outputs, inductionHypothesis, List.foldl_cons,
        List.append_assoc]

theorem outputs_infix {Output : Type} (step : State → Event → State)
    (output : State → Event → Option Output) (initial : State) (before between after : List Event) :
    outputs step output (before.foldl step initial) between =
      (List.range' before.length between.length).filterMap fun index =>
        ((before ++ between ++ after)[index]?).bind
          (output (stateAt step initial (before ++ between ++ after) index)) := by
  induction between generalizing before with
  | nil => rfl
  | cons event between inductionHypothesis =>
      have rest := inductionHypothesis (before ++ [event])
      rw [List.foldl_append, List.foldl_cons, List.foldl_nil, List.append_assoc before [event],
        List.singleton_append, List.length_append, List.length_singleton] at rest
      have here : (before ++ event :: between ++ after)[before.length]? = some event := by simp
      have reached : stateAt step initial (before ++ event :: between ++ after) before.length =
          before.foldl step initial := by simp [stateAt]
      rw [outputs, rest, List.length_cons, List.range'_succ, List.filterMap_cons, here,
        reached, Option.bind_some]
      cases output (before.foldl step initial) event <;> rfl

/-- Every step of the run from `state` meets `condition`, which sees the state
the step starts from. -/
def Along (step : State → Event → State) (condition : State → Event → Prop) :
    State → List Event → Prop
  | _, [] => True
  | state, event :: rest =>
      condition state event ∧ Along step condition (step state event) rest

instance decidableAlong (step : State → Event → State) (condition : State → Event → Prop)
    [∀ state event, Decidable (condition state event)] :
    (state : State) → (events : List Event) → Decidable (Along step condition state events)
  | _, [] => .isTrue trivial
  | state, event :: rest =>
      have := decidableAlong step condition (step state event) rest
      inferInstanceAs (Decidable (condition state event ∧
        Along step condition (step state event) rest))

theorem along_append {step : State → Event → State} {condition : State → Event → Prop}
    {state : State} {first second : List Event} :
    Along step condition state (first ++ second) ↔
      Along step condition state first ∧
        Along step condition (first.foldl step state) second := by
  induction first generalizing state with
  | nil => exact (iff_of_eq (true_and _)).symm
  | cons event first inductionHypothesis =>
      rw [List.cons_append, Along, Along, inductionHypothesis, and_assoc]
      rfl

/-- An invariant preserved by the steps that meet the condition holds after
every run all of whose steps do. -/
theorem Along.invariant {step : State → Event → State}
    {condition : State → Event → Prop} (invariant : State → Prop)
    (preserved : ∀ state event, condition state event → invariant state →
      invariant (step state event))
    {state : State} {events : List Event} (met : Along step condition state events)
    (start : invariant state) : invariant (events.foldl step state) := by
  induction events generalizing state with
  | nil => exact start
  | cons event rest inductionHypothesis =>
      exact inductionHypothesis met.2 (preserved state event met.1 start)

/-- The same for steps that are not always enabled. -/
theorem foldlM_invariant {step : State → Event → Option State} {events : List Event}
    (invariant : State → Prop)
    (preserved : ∀ event ∈ events, ∀ state next, step state event = some next →
      invariant state → invariant next)
    {state final : State} (ran : events.foldlM step state = some final)
    (start : invariant state) : invariant final := by
  induction events generalizing state with
  | nil =>
      cases ran
      exact start
  | cons event rest inductionHypothesis =>
      rw [List.foldlM_cons, Option.bind_eq_bind, Option.bind_eq_some_iff] at ran
      obtain ⟨next, stepped, continued⟩ := ran
      exact inductionHypothesis
        (fun later member => preserved later (List.mem_cons_of_mem _ member)) continued
        (preserved event List.mem_cons_self state next stepped start)

end Run
