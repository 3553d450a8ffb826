import Mathlib.Data.List.Nodup
import Mathlib.Logic.Function.Basic

/-!
# Independent components

A system is a family of components of different kinds, some of which may be
missing.  An input is handled by one component, or by each of them in turn;
a component that fails is passed over.  Since no step of a component looks at
another one, the run of the system is, seen from a component, the run of its
own events.
-/

universe u v

structure Family (Kind : Type u) where
  State : Kind → Type v
  Event : Kind → Type v
  step : ∀ kind, State kind → Event kind → State kind

namespace Family

variable {Kind : Type u} [DecidableEq Kind] (family : Family Kind)

/-- The components that are there. -/
abbrev System := ∀ kind, Option (family.State kind)

inductive Input where
  | one (kind : Kind) (event : family.Event kind)
  | each (events : ∀ kind, Option (family.Event kind))

variable {family}

def handle (system : family.System) (kind : Kind) (event : family.Event kind) : family.System :=
  Function.update system kind ((system kind).map fun state => family.step kind state event)

def turn (events : ∀ kind, Option (family.Event kind)) (system : family.System) (kind : Kind) :
    family.System :=
  match events kind with
  | none => system
  | some event => handle system kind event

/-- The components have their turns in a fixed order. -/
def next (order : List Kind) (system : family.System) : family.Input → family.System
  | .one kind event => handle system kind event
  | .each events => order.foldl (turn events) system

/-- The event that an input is to a component. -/
def own (kind : Kind) : family.Input → Option (family.Event kind)
  | .one other event => if same : other = kind then some (same ▸ event) else none
  | .each events => events kind

def advance (kind : Kind) (state : family.State kind) (event : Option (family.Event kind)) :
    family.State kind :=
  event.elim state (family.step kind state)

/-- Every component that is there has a turn. -/
def Covers (order : List Kind) (system : family.System) : Prop :=
  ∀ kind, system kind ≠ none → kind ∈ order

theorem handle_own (system : family.System) (kind : Kind) (event : family.Event kind) :
    handle system kind event kind =
      (system kind).map fun state => family.step kind state event :=
  Function.update_self ..

theorem handle_other (system : family.System) {kind other : Kind} (different : other ≠ kind)
    (event : family.Event kind) : handle system kind event other = system other :=
  Function.update_of_ne different ..

theorem turn_other (events : ∀ kind, Option (family.Event kind)) (system : family.System)
    {kind other : Kind} (different : other ≠ kind) :
    turn events system kind other = system other := by
  unfold turn
  cases events kind with
  | none => rfl
  | some event => exact handle_other system different event

theorem turn_own (events : ∀ kind, Option (family.Event kind)) (system : family.System)
    (kind : Kind) :
    turn events system kind kind =
      (system kind).map fun state => advance kind state (events kind) := by
  unfold turn
  cases events kind with
  | none => simp [advance]
  | some event => exact handle_own system kind event

theorem foldl_turn_of_notMem (events : ∀ kind, Option (family.Event kind)) {order : List Kind}
    {kind : Kind} (missing : kind ∉ order) (system : family.System) :
    order.foldl (turn events) system kind = system kind := by
  induction order generalizing system with
  | nil => rfl
  | cons first order inductionHypothesis =>
      rw [List.mem_cons, not_or] at missing
      rw [List.foldl_cons, inductionHypothesis missing.2, turn_other events system missing.1]

theorem foldl_turn_of_mem (events : ∀ kind, Option (family.Event kind)) {order : List Kind}
    (once : order.Nodup) {kind : Kind} (present : kind ∈ order) (system : family.System) :
    order.foldl (turn events) system kind =
      (system kind).map fun state => advance kind state (events kind) := by
  induction order generalizing system with
  | nil => cases present
  | cons first order inductionHypothesis =>
      rw [List.nodup_cons] at once
      rw [List.foldl_cons]
      by_cases own : kind = first
      · subst own
        rw [foldl_turn_of_notMem events once.1, turn_own]
      · have later : kind ∈ order := (List.mem_cons.mp present).resolve_left own
        rw [inductionHypothesis once.2 later, turn_other events system own]

/-- What an input does to a component. -/
theorem next_apply {order : List Kind} (once : order.Nodup) {system : family.System}
    (covers : Covers order system) (input : family.Input) (kind : Kind) :
    next order system input kind =
      (system kind).map fun state => advance kind state (own kind input) := by
  cases input with
  | one other event =>
      by_cases same : other = kind
      · subst same
        rw [next, handle_own, own, dif_pos rfl]
        rfl
      · rw [next, handle_other system (Ne.symm same), own, dif_neg same]
        simp [advance]
  | each events =>
      by_cases present : kind ∈ order
      · exact foldl_turn_of_mem events once present system
      · have missing : system kind = none := by
          by_contra there
          exact present (covers kind there)
        rw [next, foldl_turn_of_notMem events present, missing, Option.map_none]

theorem Covers.next {order : List Kind} (once : order.Nodup) {system : family.System}
    (covers : Covers order system) (input : family.Input) :
    Covers order (Family.next order system input) := by
  intro kind there
  apply covers
  intro missing
  rw [next_apply once covers, missing] at there
  exact there rfl

/-- A component runs as if it were alone. -/
theorem foldl_next_apply {order : List Kind} (once : order.Nodup) {system : family.System}
    (covers : Covers order system) (inputs : List family.Input) (kind : Kind) :
    inputs.foldl (next order) system kind =
      (system kind).map fun state =>
        (inputs.filterMap (own kind)).foldl (family.step kind) state := by
  induction inputs generalizing system with
  | nil => simp
  | cons input inputs inductionHypothesis =>
      rw [List.foldl_cons, inductionHypothesis (covers.next once input),
        next_apply once covers, Option.map_map]
      congr 1
      funext state
      cases event : own kind input with
      | none => simp [event, advance]
      | some event => simp [event, advance]

end Family
