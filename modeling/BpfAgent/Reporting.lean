import BpfAgent.Accumulator

/-!
# Reporting at ticks

What the latency programs have in common on the userspace side: the samples of
a run go into accumulators, and every tick shows the average of what was added
since the tick before.  A program with several accumulators is several
reporters over the same run.
-/

namespace BpfAgent

structure Reporter (State Event : Type) where
  step : State → Event → State
  sample : State → Event → Option UInt64
  isTick : Event → Prop
  accumulator : State → Accumulator
  baseline : State → Baseline
  gauge : State → UInt64
  /-- The program is enabled, so that its ticks read the accumulators. -/
  live : State → Prop
  adds : ∀ state event, accumulator (step state event) =
    (accumulator state).add (sample state event)
  silent : ∀ state event, isTick event → sample state event = none
  stays : ∀ state event, live state → live (step state event)
  quiet : ∀ state event, ¬isTick event → baseline (step state event) = baseline state
  shows : ∀ state event, live state → isTick event →
    gauge (step state event) = (report (baseline state) (accumulator state)).1
  rebases : ∀ state event, live state → isTick event →
    baseline (step state event) = (report (baseline state) (accumulator state)).2

namespace Reporter

variable {State Event : Type} (reporter : Reporter State Event) (initial : State)

def stateAfter (events : List Event) : State := events.foldl reporter.step initial

def recorded (events : List Event) : List UInt64 :=
  Run.outputs reporter.step reporter.sample initial events

/-- The run ends with a tick, or nothing has happened yet. -/
def AtTick (before : List Event) : Prop :=
  before = [] ∨ ∃ earlier last, before = earlier ++ [last] ∧ reporter.isTick last

/-- Every tick shows the average of the samples since the tick before it. -/
def Averages (events : List Event) : Prop :=
  ∀ before between tick after, events = before ++ between ++ tick :: after →
    reporter.AtTick before → (∀ event ∈ between, ¬reporter.isTick event) → reporter.isTick tick →
    (reporter.gauge (reporter.stateAfter initial (before ++ between ++ [tick]))).toNat =
      averageUs (reporter.recorded (reporter.stateAfter initial before) between)

structure Fresh (initial : State) : Prop where
  live : reporter.live initial
  sum : (reporter.accumulator initial).sum = 0
  count : (reporter.accumulator initial).count = 0
  baseline : reporter.baseline initial = ⟨0, 0⟩

/-- The latencies of the run and the number of its samples fit into a word. -/
structure Fits (events : List Event) : Prop where
  total : ((reporter.recorded initial events).map UInt64.toNat).sum < 2 ^ 64
  number : (reporter.recorded initial events).length < 2 ^ 64

variable {reporter initial}

theorem live_foldl {state : State} (live : reporter.live state) (events : List Event) :
    reporter.live (events.foldl reporter.step state) := by
  apply List.foldlRecOn events reporter.step live
  intro state live event _
  exact reporter.stays state event live

theorem baseline_foldl {events : List Event}
    (quiet : ∀ event ∈ events, ¬reporter.isTick event) (state : State) :
    reporter.baseline (events.foldl reporter.step state) = reporter.baseline state := by
  induction events generalizing state with
  | nil => rfl
  | cons event events inductionHypothesis =>
      rw [List.foldl_cons,
        inductionHypothesis fun other member => quiet other (List.mem_cons_of_mem _ member),
        reporter.quiet state event (quiet event List.mem_cons_self)]

/-- A tick starts counting anew. -/
theorem AtTick.grown (fresh : reporter.Fresh initial) {before : List Event}
    (atTick : reporter.AtTick before) :
    Grown (reporter.baseline (reporter.stateAfter initial before))
      (reporter.accumulator (reporter.stateAfter initial before)) [] := by
  rcases atTick with rfl | ⟨earlier, last, rfl, tick⟩
  · constructor
    · simp [stateAfter, fresh.sum, fresh.baseline]
    · simp [stateAfter, fresh.count, fresh.baseline]
  · have final : reporter.stateAfter initial (earlier ++ [last]) =
        reporter.step (reporter.stateAfter initial earlier) last := by
      rw [stateAfter, List.foldl_append]
      rfl
    have live : reporter.live (reporter.stateAfter initial earlier) :=
      live_foldl fresh.live earlier
    rw [final, reporter.rebases _ last live tick, reporter.adds, reporter.silent _ _ tick]
    exact Grown.reset _ _

theorem Fits.split {first second : List Event}
    (fits : reporter.Fits initial (first ++ second)) :
    ((reporter.recorded initial first).map UInt64.toNat).sum +
        ((reporter.recorded (reporter.stateAfter initial first) second).map UInt64.toNat).sum <
      2 ^ 64 ∧
      (reporter.recorded initial first).length +
        (reporter.recorded (reporter.stateAfter initial first) second).length < 2 ^ 64 := by
  have total := fits.total
  have number := fits.number
  rw [recorded, Run.outputs_append] at total number
  rw [List.map_append, List.sum_append] at total
  rw [List.length_append] at number
  exact ⟨total, number⟩

theorem averages_of_fits (fresh : reporter.Fresh initial) {events : List Event}
    (fits : reporter.Fits initial events) : reporter.Averages initial events := by
  rintro before between tick after rfl atTick quiet ticks
  rw [List.append_assoc] at fits
  obtain ⟨total, number⟩ := fits.split
  rw [recorded, recorded, Run.outputs_append, List.map_append, List.sum_append] at total
  rw [recorded, recorded, Run.outputs_append, List.length_append] at number
  -- The accumulators hold all samples before the previous tick, so those since fit.
  have sofar : Grown ⟨0, 0⟩ (reporter.accumulator (reporter.stateAfter initial before))
      ([] ++ reporter.recorded initial before) := by
    apply Grown.run reporter.adds
    · exact ⟨by simp [fresh.sum], by simp [fresh.count]⟩
    · rw [fresh.sum, UInt64.toNat_zero]
      omega
    · rw [fresh.count, UInt64.toNat_zero]
      omega
  have sum := sofar.sum
  have count := sofar.count
  simp only [List.nil_append, UInt64.toNat_zero, Nat.zero_add] at sum count
  have grown := (atTick.grown fresh).run reporter.adds between
    (by rw [sum, recorded]; omega) (by rw [count, recorded]; omega)
  have reached : reporter.stateAfter initial (before ++ between ++ [tick]) =
      reporter.step (between.foldl reporter.step (reporter.stateAfter initial before)) tick := by
    simp only [stateAfter, List.foldl_append, List.foldl_cons, List.foldl_nil]
  have live : reporter.live (between.foldl reporter.step (reporter.stateAfter initial before)) :=
    live_foldl (live_foldl fresh.live before) between
  rw [reached, reporter.shows _ tick live ticks, baseline_foldl quiet]
  exact grown.report

end Reporter

end BpfAgent
