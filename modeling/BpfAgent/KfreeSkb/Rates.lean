import BpfAgent.KfreeSkb.Program
import Mathlib.Data.List.DropRight

/-!
# KFREE_SKB: the exported rates

Along every run of drops and ticks the rate of a reason, times the length of
the window, is the number of its drops that were first seen by a tick within
the window.  The proof goes through the observations of a run: the drops each
tick was the first to see, of which the program keeps the recent ones.
-/

namespace BpfAgent.KfreeSkb

open SlidingWindow

inductive Event where
  /-- A packet is dropped; the reason is absent when it cannot be read. -/
  | drop (reason : Option UInt32)
  | tick (now : Nat)
  deriving DecidableEq

structure State where
  dropCounts : DropCounts
  program : Program

def State.loaded : State := ⟨.empty, Program.new⟩

def step (state : State) : Event → State
  | .drop reason => { state with dropCounts := tryKfreeSkb state.dropCounts reason }
  | .tick now => { state with program := displayMetrics state.program state.dropCounts now }

def stateAfter (events : List Event) : State := events.foldl step State.loaded

theorem stateAfter_snoc (events : List Event) (event : Event) :
    stateAfter (events ++ [event]) = step (stateAfter events) event := by
  rw [stateAfter, List.foldl_append]
  rfl

def tickTime : Event → Option Nat
  | .drop _ => none
  | .tick now => some now

def tickTimes (events : List Event) : List Nat := events.filterMap tickTime

def dropReason : Event → Option UInt32
  | .drop reason => reason
  | .tick _ => none

def reasons (events : List Event) : List UInt32 := events.filterMap dropReason

def drops (reason : UInt32) (events : List Event) : Nat :=
  events.countP fun event => dropReason event = some reason

/-- The first tick is at most as old as the window at time `now`. -/
def seenRecently (now : Nat) (events : List Event) : Bool :=
  (tickTimes events).head?.any fun tick => now - tick ≤ rateWindow

/-- The drops for a reason that were first seen by a tick which is at most as
old as the window at time `now`. -/
def recentDrops (reason : UInt32) (now : Nat) : List Event → Nat
  | [] => 0
  | event :: rest =>
      (if dropReason event = some reason ∧ seenRecently now rest then 1 else 0) +
        recentDrops reason now rest

def countAt (events : List Event) (reason : UInt32) : Nat :=
  (((stateAfter events).dropCounts.get reason).getD 0).toNat

def isOld (now : Nat) (event : Event) : Bool :=
  (tickTime event).any fun tick => rateWindow < now - tick

/-- The run up to its last tick that is older than the window. -/
def untilLastOld (now : Nat) (events : List Event) : List Event :=
  events.rdropWhile fun event => !isOld now event

/-- The tick at `now` after `before` exports the rate of the recent drops. -/
structure ReportsRecent (before : List Event) (now : Nat) (reason : UInt32) : Prop where
  exported : seriesLabels reason ∈ (stateAfter (before ++ [.tick now])).program.dropsPerSec ↔
    0 < recentDrops reason now (before ++ [.tick now])
  rate : ∀ rate, (stateAfter (before ++ [.tick now])).program.dropsPerSec.lookup
    (seriesLabels reason) = some rate →
      rate * 10 = recentDrops reason now (before ++ [.tick now])
  counters : countAt (untilLastOld now before) reason +
    recentDrops reason now (before ++ [.tick now]) = countAt before reason

@[simp]
theorem drops_tick_cons (reason : UInt32) (now : Nat) (events : List Event) :
    drops reason (.tick now :: events) = drops reason events := by
  simp [drops, dropReason]

@[simp]
theorem drops_drop_cons (reason : UInt32) (dropped : Option UInt32) (events : List Event) :
    drops reason (.drop dropped :: events) =
      drops reason events + if dropped = some reason then 1 else 0 := by
  rw [drops, List.countP_cons, ← drops]
  by_cases same : dropped = some reason
  · simp [dropReason, same]
  · simp [dropReason, same]

theorem drops_snoc (reason : UInt32) (events : List Event) (event : Event) :
    drops reason (events ++ [event]) =
      drops reason events + if dropReason event = some reason then 1 else 0 := by
  rw [drops, List.countP_append]
  simp [drops, List.countP_cons]

/-- As long as the reasons fit into the map, it counts their drops. -/
theorem dropCounts_get (domain : Finset UInt32) (few : domain.card ≤ 128)
    (events : List Event) (inside : ∀ reason ∈ reasons events, reason ∈ domain) :
    (∀ reason ∈ (stateAfter events).dropCounts, reason ∈ domain) ∧
      ∀ reason, (stateAfter events).dropCounts.get reason =
        if drops reason events = 0 then none
        else some (UInt64.ofNat (drops reason events)) := by
  induction events using List.reverseRecOn with
  | nil =>
      refine ⟨fun reason present => absurd present (BoundedMap.notMem_empty reason), ?_⟩
      intro reason
      rfl
  | append_singleton events event inductionHypothesis =>
      have earlier : ∀ reason ∈ reasons events, reason ∈ domain := by
        intro reason member
        apply inside
        rw [reasons, List.filterMap_append]
        exact List.mem_append_left _ member
      obtain ⟨keys, counts⟩ := inductionHypothesis earlier
      rw [stateAfter_snoc]
      cases event with
      | tick now =>
          refine ⟨keys, ?_⟩
          intro reason
          rw [drops_snoc]
          exact counts reason
      | drop dropped =>
          cases dropped with
          | none =>
              refine ⟨keys, ?_⟩
              intro reason
              rw [drops_snoc]
              exact counts reason
          | some dropped =>
              have member : dropped ∈ domain := by
                apply inside
                rw [reasons, List.filterMap_append]
                exact List.mem_append_right _ (List.mem_singleton.mpr rfl)
              have room : (stateAfter events).dropCounts.Room dropped :=
                BoundedMap.room_of_keys_subset domain few keys member
              have next : (step (stateAfter events) (.drop (some dropped))).dropCounts =
                  (stateAfter events).dropCounts.insert dropped
                    (UInt64.ofNat (drops dropped events) + 1) := by
                simp only [step, tryKfreeSkb, counts]
                by_cases first : drops dropped events = 0
                · simp [first]
                · simp [first]
              rw [next]
              constructor
              · intro reason present
                rcases BoundedMap.mem_of_mem_insert present with rfl | old
                · exact member
                · exact keys reason old
              · intro reason
                rw [BoundedMap.get_insert_of_room room, drops_snoc]
                by_cases same : reason = dropped
                · subst same
                  simp [dropReason]
                · have different : dropped ≠ reason := Ne.symm same
                  simp [same, dropReason, different, counts]

section Observations

variable (reason : UInt32)

/-- The drops not yet seen by a tick, of which `pending` were there before. -/
def unseen : Nat → List Event → Nat
  | pending, [] => pending
  | _, .tick _ :: rest => unseen 0 rest
  | pending, .drop dropped :: rest =>
      unseen (pending + if dropped = some reason then 1 else 0) rest

/-- The time of every tick and the drops it was the first to see. -/
def observations : Nat → List Event → List (Nat × Nat)
  | _, [] => []
  | pending, .tick now :: rest => (now, pending) :: observations 0 rest
  | pending, .drop dropped :: rest =>
      observations (pending + if dropped = some reason then 1 else 0) rest

theorem observations_append (pending : Nat) (first second : List Event) :
    observations reason pending (first ++ second) =
      observations reason pending first ++
        observations reason (unseen reason pending first) second := by
  induction first generalizing pending with
  | nil => rfl
  | cons event first inductionHypothesis =>
      cases event with
      | tick now => simp [observations, unseen, inductionHypothesis]
      | drop dropped => simp [observations, unseen, inductionHypothesis]

theorem unseen_append (pending : Nat) (first second : List Event) :
    unseen reason pending (first ++ second) =
      unseen reason (unseen reason pending first) second := by
  induction first generalizing pending with
  | nil => rfl
  | cons event first inductionHypothesis =>
      cases event with
      | tick now => simp [unseen, inductionHypothesis]
      | drop dropped => simp [unseen, inductionHypothesis]

theorem total_observations (pending : Nat) (events : List Event) :
    total (observations reason pending events) + unseen reason pending events =
      pending + drops reason events := by
  induction events generalizing pending with
  | nil => simp [observations, unseen, drops]
  | cons event events inductionHypothesis =>
      cases event with
      | tick now =>
          have rest := inductionHypothesis 0
          simp only [observations, unseen, total_cons, drops_tick_cons]
          omega
      | drop dropped =>
          simp only [observations, unseen, drops_drop_cons]
          rw [inductionHypothesis]
          omega

theorem observations_times (pending : Nat) (events : List Event) :
    (observations reason pending events).map Prod.fst = tickTimes events := by
  induction events generalizing pending with
  | nil => rfl
  | cons event events inductionHypothesis =>
      cases event with
      | tick now =>
          rw [observations, List.map_cons, inductionHypothesis]
          rfl
      | drop dropped =>
          rw [observations, inductionHypothesis]
          rfl

theorem total_recent_observations (now pending : Nat) (events : List Event) :
    total (recent rateWindow now (observations reason pending events)) =
      (if seenRecently now events then pending else 0) + recentDrops reason now events := by
  induction events generalizing pending with
  | nil => rfl
  | cons event events inductionHypothesis =>
      cases event with
      | tick tick =>
          have seen : seenRecently now (.tick tick :: events) =
              decide (now - tick ≤ rateWindow) := rfl
          have rest := inductionHypothesis 0
          rw [ite_self, Nat.zero_add] at rest
          rw [observations, recent, List.filter_cons, ← recent, seen, recentDrops]
          split
          next young => simp [rest, dropReason]
          next old => simp [rest, dropReason]
      | drop dropped =>
          have seen : seenRecently now (.drop dropped :: events) = seenRecently now events := rfl
          rw [observations, inductionHypothesis, seen, recentDrops]
          by_cases young : seenRecently now events = true
          · simp only [young, if_true, dropReason, and_true, Nat.add_assoc]
          · simp [young]

end Observations

def amounts (window : DeltaWindow) : List (Nat × Nat) := window.map (Prod.map id UInt64.toNat)

theorem amounts_push (window : DeltaWindow) (now : Nat) (delta : UInt64) :
    amounts (if 0 < delta then window ++ [(now, delta)] else window) =
      amounts window ++ nonzero [(now, delta.toNat)] := by
  have positive : 0 < delta ↔ 0 < delta.toNat := UInt64.lt_iff_toNat_lt
  by_cases zero : 0 < delta
  · simp [amounts, nonzero, zero, positive.mp zero]
  · have isZero : delta.toNat = 0 := by
      rw [positive] at zero
      omega
    simp [amounts, nonzero, zero, isZero]

theorem ordered_of_amounts {window : DeltaWindow} (ordered : Ordered (amounts window)) :
    Ordered window := by
  rw [Ordered, amounts, List.pairwise_map] at ordered
  exact ordered

section UpdateWindow

variable {window : DeltaWindow} {seen : List (Nat × Nat)} {last now : Nat} {delta : UInt64}

theorem updateWindow_window (later : last ≤ now)
    (holds : amounts window = nonzero (recent rateWindow last seen))
    (ordered : Ordered (seen ++ [(now, delta.toNat)])) :
    amounts (updateWindow window now delta).1 =
      nonzero (recent rateWindow now (seen ++ [(now, delta.toNat)])) := by
  have pushed : amounts (if 0 < delta then window ++ [(now, delta)] else window) =
      nonzero (recent rateWindow last seen ++ [(now, delta.toNat)]) := by
    rw [amounts_push, holds, nonzero, nonzero, nonzero, List.filter_append]
  have inOrder : Ordered (if 0 < delta then window ++ [(now, delta)] else window) := by
    apply ordered_of_amounts
    rw [pushed]
    apply List.Pairwise.sublist _ ordered
    apply List.Sublist.trans List.filter_sublist
    exact List.Sublist.append_right List.filter_sublist _
  calc amounts (updateWindow window now delta).1
      = amounts (recent rateWindow now
          (if 0 < delta then window ++ [(now, delta)] else window)) := by
        rw [← dropWhile_eq_recent inOrder]
        rfl
    _ = recent rateWindow now (nonzero (recent rateWindow last seen ++ [(now, delta.toNat)])) := by
        rw [amounts, map_recent, ← amounts, pushed]
    _ = nonzero (recent rateWindow now (seen ++ [(now, delta.toNat)])) := by
        rw [recent_nonzero, recent_append, recent_recent later, ← recent_append]

theorem updateWindow_sum (later : last ≤ now)
    (holds : amounts window = nonzero (recent rateWindow last seen))
    (ordered : Ordered (seen ++ [(now, delta.toNat)]))
    (fits : total (seen ++ [(now, delta.toNat)]) < 2 ^ 64) :
    (updateWindow window now delta).2.toNat =
      total (recent rateWindow now (seen ++ [(now, delta.toNat)])) := by
  have summed : (((updateWindow window now delta).1.map Prod.snd).map UInt64.toNat).sum =
      total (recent rateWindow now (seen ++ [(now, delta.toNat)])) := by
    rw [← total_nonzero, ← updateWindow_window later holds ordered, total, amounts]
    simp only [List.map_map]
    rfl
  have bound := total_recent_le rateWindow now (seen ++ [(now, delta.toNat)])
  change (((updateWindow window now delta).1.map Prod.snd).sum).toNat = _
  rw [Word.toNat_sum _ (by omega), summed]

end UpdateWindow

/-- What the program knows about a reason after a tick at `last`, given the
observations so far. -/
structure Tracks (view : View) (seen : List (Nat × Nat)) (last : Nat) : Prop where
  counted : (view.lastCount.getD 0).toNat = total seen
  window : amounts (view.window.getD []) = nonzero (recent rateWindow last seen)
  rate : view.rate = if total (recent rateWindow last seen) = 0 then none
    else some ((total (recent rateWindow last seen) : Rat) / 10)

theorem Tracks.next {view : View} {seen : List (Nat × Nat)} {last now pending : Nat}
    {count : UInt64} (tracks : Tracks view seen last) (later : last ≤ now)
    (ordered : Ordered (seen ++ [(now, pending)]))
    (counted : count.toNat = total seen + pending) :
    Tracks (view.next now count) (seen ++ [(now, pending)]) now := by
  have delta : (Word.saturatingSub count (view.lastCount.getD 0)).toNat = pending := by
    rw [Word.toNat_saturatingSub, tracks.counted]
    omega
  have fits : total (seen ++ [(now, pending)]) < 2 ^ 64 := by
    have := count.toNat_lt
    simp only [total_append, total_cons, total_nil]
    omega
  subst delta
  have window := updateWindow_window later tracks.window ordered
  have sum := updateWindow_sum later tracks.window ordered fits
  have recount : count.toNat = total (seen ++
      [(now, (Word.saturatingSub count (view.lastCount.getD 0)).toNat)]) := by
    simp only [total_append, total_cons, total_nil]
    omega
  unfold View.next
  dsimp only
  split
  next zero =>
    have quiet : total (recent rateWindow now (seen ++
        [(now, (Word.saturatingSub count (view.lastCount.getD 0)).toNat)])) = 0 := by
      rw [← sum, zero]
      rfl
    refine ⟨recount, ?_, ?_⟩
    · rw [nonzero_eq_nil_iff.mpr quiet]
      rfl
    · rw [if_pos quiet]
  next positive =>
    have active : total (recent rateWindow now (seen ++
        [(now, (Word.saturatingSub count (view.lastCount.getD 0)).toNat)])) ≠ 0 := by
      intro zero
      apply positive
      apply UInt64.toNat_inj.mp
      rw [sum, zero]
      rfl
    refine ⟨recount, window, ?_⟩
    rw [if_neg active, rateOf, sum]

theorem Tracks.silent {view : View} {seen : List (Nat × Nat)} {last now : Nat}
    (tracks : Tracks view seen last) (quiet : total seen = 0) :
    Tracks view (seen ++ [(now, 0)]) now := by
  have all : ∀ time others, total others = 0 → total (recent rateWindow time others) = 0 := by
    intro time others zero
    have := total_recent_le rateWindow time others
    omega
  have zero : total (seen ++ [(now, 0)]) = 0 := by
    simp only [total_append, total_cons, total_nil]
    omega
  refine ⟨?_, ?_, ?_⟩
  · rw [tracks.counted, quiet, zero]
  · rw [tracks.window, nonzero_eq_nil_iff.mpr (all last seen quiet),
      nonzero_eq_nil_iff.mpr (all now _ zero)]
  · rw [tracks.rate, if_pos (all last seen quiet), if_pos (all now _ zero)]

theorem tickTimes_append (first second : List Event) :
    tickTimes (first ++ second) = tickTimes first ++ tickTimes second :=
  List.filterMap_append

def lastTick (events : List Event) : Nat := (tickTimes events).getLast?.getD 0

theorem lastTick_snoc_tick (events : List Event) (now : Nat) :
    lastTick (events ++ [.tick now]) = now := by
  have last : tickTimes (events ++ [.tick now]) = tickTimes events ++ [now] :=
    tickTimes_append events [.tick now]
  rw [lastTick, last, List.getLast?_concat]
  rfl

theorem lastTick_le {events : List Event} {now : Nat}
    (later : ∀ time ∈ tickTimes events, time ≤ now) : lastTick events ≤ now := by
  unfold lastTick
  cases last : (tickTimes events).getLast? with
  | none => exact Nat.zero_le now
  | some time => exact later time (List.mem_of_getLast? last)

/-- A run with few reasons, few drops and ticks in order. -/
structure Tame (domain : Finset UInt32) (events : List Event) : Prop where
  inside : ∀ reason ∈ reasons events, reason ∈ domain
  fits : ∀ reason, drops reason events < 2 ^ 64
  ordered : (tickTimes events).Pairwise (· ≤ ·)

theorem Tame.of_append {domain : Finset UInt32} {first second : List Event}
    (tame : Tame domain (first ++ second)) : Tame domain first where
  inside reason member := by
    apply tame.inside
    rw [reasons, List.filterMap_append]
    exact List.mem_append_left _ member
  fits reason := by
    have fits := tame.fits reason
    rw [drops, List.countP_append, ← drops] at fits
    omega
  ordered := by
    have ordered := tame.ordered
    rw [tickTimes_append] at ordered
    exact (List.pairwise_append.mp ordered).1

section Tame

variable {domain : Finset UInt32} (few : domain.card ≤ 128)

include few

theorem countAt_eq_drops {events : List Event} (tame : Tame domain events) (reason : UInt32) :
    countAt events reason = drops reason events := by
  have fits := tame.fits reason
  rw [countAt, (dropCounts_get domain few events tame.inside).2 reason]
  split
  next zero => exact zero.symm
  next => simpa using fits

theorem tracks_stateAfter (reason : UInt32) (events : List Event) (tame : Tame domain events) :
    Tracks (view (stateAfter events).program reason) (observations reason 0 events)
      (lastTick events) := by
  induction events using List.reverseRecOn with
  | nil => exact ⟨rfl, rfl, rfl⟩
  | append_singleton events event inductionHypothesis =>
      have tracks := inductionHypothesis tame.of_append
      rw [stateAfter_snoc, observations_append]
      cases event with
      | drop dropped =>
          have sameTicks : tickTimes (events ++ [.drop dropped]) = tickTimes events := by
            rw [tickTimes_append]
            exact List.append_nil _
          rw [lastTick, sameTicks, ← lastTick]
          simpa [step, observations] using tracks
      | tick now =>
          have ordered : Ordered (observations reason 0 events ++
              [(now, unseen reason 0 events)]) := by
            have ordered := tame.ordered
            rw [← observations_times reason 0, observations_append, List.pairwise_map] at ordered
            exact ordered
          have later : lastTick events ≤ now := by
            apply lastTick_le
            intro time member
            have ordered := tame.ordered
            rw [tickTimes_append, List.pairwise_append] at ordered
            exact ordered.2.2 time member now (List.mem_singleton.mpr rfl)
          have observed := total_observations reason 0 events
          have counted := (dropCounts_get domain few events tame.of_append.inside).2 reason
          rw [lastTick_snoc_tick]
          simp only [step, displayMetrics_view, counted, observations]
          -- a reason without drops has no counter
          split
          next zero =>
            have quiet : unseen reason 0 events = 0 := by omega
            rw [quiet]
            exact tracks.silent (by omega)
          next =>
            rw [Option.elim_some]
            apply tracks.next later ordered
            have fits := tame.of_append.fits reason
            rw [observed, Nat.zero_add]
            simpa using fits

end Tame

theorem not_isOld_tick {now tick : Nat} (young : isOld now (.tick tick) = false) :
    now - tick ≤ rateWindow := by
  have young : decide (rateWindow < now - tick) = false := young
  exact Nat.not_lt.mp (of_decide_eq_false young)

def sinceLastOld (now : Nat) (events : List Event) : List Event :=
  events.rtakeWhile fun event => !isOld now event

theorem untilLastOld_append_sinceLastOld (now : Nat) (events : List Event) :
    untilLastOld now events ++ sinceLastOld now events = events :=
  List.rdropWhile_append_rtakeWhile

theorem untilLastOld_cases (now : Nat) (events : List Event) :
    untilLastOld now events = [] ∨
      ∃ start tick, untilLastOld now events = start ++ [.tick tick] ∧ rateWindow < now - tick := by
  rcases List.eq_nil_or_concat (untilLastOld now events) with empty | ⟨start, last, split⟩
  · exact Or.inl empty
  · rw [List.concat_eq_append] at split
    have nonempty : untilLastOld now events ≠ [] := by simp [split]
    have old := List.rdropWhile_last_not (fun event => !isOld now event) events nonempty
    have same : (untilLastOld now events).getLast nonempty = last := by simp [split]
    change ¬(!isOld now ((untilLastOld now events).getLast nonempty)) = true at old
    rw [same] at old
    cases last with
    | drop dropped => simp [isOld, tickTime] at old
    | tick tick =>
        refine Or.inr ⟨start, tick, split, ?_⟩
        have old : isOld now (.tick tick) = true := by simpa using old
        exact of_decide_eq_true old

section Split

variable (reason : UInt32) (now : Nat) {events : List Event}

/-- Nothing seen up to the last old tick is recent, and it has seen everything. -/
theorem untilLastOld_seen (ordered : (tickTimes events).Pairwise (· ≤ ·)) :
    recent rateWindow now (observations reason 0 (untilLastOld now events)) = [] ∧
      unseen reason 0 (untilLastOld now events) = 0 := by
  rcases untilLastOld_cases now events with empty | ⟨start, tick, split, old⟩
  · rw [empty]
    exact ⟨rfl, rfl⟩
  · refine ⟨?_, by rw [split, unseen_append, unseen, unseen]⟩
    apply recent_eq_nil
    rw [observations_times, split]
    intro time member
    have sublist : (tickTimes (start ++ [.tick tick])).Sublist (tickTimes events) := by
      rw [← split]
      exact List.Sublist.filterMap tickTime (List.rdropWhile_prefix _ events).sublist
    have inOrder := ordered.sublist sublist
    rw [tickTimes_append, List.pairwise_append] at inOrder
    rw [tickTimes_append] at member
    rcases List.mem_append.mp member with before | last
    · have := inOrder.2.2 time before tick (List.mem_singleton.mpr rfl)
      omega
    · rw [List.mem_singleton.mp last]
      exact old

theorem sinceLastOld_young (events : List Event) :
    ∀ time ∈ tickTimes (sinceLastOld now events ++ [.tick now]), now - time ≤ rateWindow := by
  intro time member
  rw [tickTimes_append] at member
  rcases List.mem_append.mp member with inRest | last
  · obtain ⟨event, inRest, timed⟩ := List.mem_filterMap.mp inRest
    have young := List.mem_rtakeWhile_imp inRest
    cases event with
    | drop dropped => cases timed
    | tick tick =>
        cases timed
        exact not_isOld_tick (by simpa using young)
  · have last : time = now := List.mem_singleton.mp last
    omega

/-- The recent drops are those after the last old tick. -/
theorem recentDrops_eq_drops (ordered : (tickTimes events).Pairwise (· ≤ ·)) :
    recentDrops reason now (events ++ [.tick now]) = drops reason (sinceLastOld now events) := by
  obtain ⟨seen, caughtUp⟩ := untilLastOld_seen reason now ordered
  have whole : events ++ [.tick now] =
      untilLastOld now events ++ (sinceLastOld now events ++ [.tick now]) := by
    rw [← List.append_assoc, untilLastOld_append_sinceLastOld]
  calc recentDrops reason now (events ++ [.tick now])
      = total (recent rateWindow now (observations reason 0 (events ++ [.tick now]))) := by
        rw [total_recent_observations, ite_self, Nat.zero_add]
    _ = total (observations reason 0 (sinceLastOld now events ++ [.tick now])) := by
        rw [whole, observations_append, recent_append, seen, caughtUp, List.nil_append,
          recent_eq_self]
        rw [observations_times]
        exact sinceLastOld_young now events
    _ = drops reason (sinceLastOld now events) := by
        have all := total_observations reason 0 (sinceLastOld now events ++ [.tick now])
        simpa [unseen_append, unseen, drops_snoc, dropReason] using all

theorem drops_untilLastOld (ordered : (tickTimes events).Pairwise (· ≤ ·)) :
    drops reason (untilLastOld now events) + recentDrops reason now (events ++ [.tick now]) =
      drops reason events := by
  have whole := untilLastOld_append_sinceLastOld now events
  have parts : drops reason (untilLastOld now events ++ sinceLastOld now events) =
      drops reason (untilLastOld now events) + drops reason (sinceLastOld now events) :=
    List.countP_append ..
  rw [whole] at parts
  rw [recentDrops_eq_drops reason now ordered, parts]

end Split

/-- Every tick of a run with at most 128 reasons, counts below 2^64 and ticks
in order exports the rates of the recent drops. -/
theorem rates_report_recent (events : List Event)
    (few : (reasons events).toFinset.card ≤ 128)
    (fits : ∀ reason, drops reason events < 2 ^ 64)
    (ordered : (tickTimes events).Pairwise (· ≤ ·)) :
    ∀ before now after, events = before ++ .tick now :: after →
      ∀ reason, ReportsRecent before now reason := by
  intro before now after split reason
  have tame : Tame (reasons events).toFinset ((before ++ [.tick now]) ++ after) := by
    rw [List.append_assoc, List.singleton_append, ← split]
    exact ⟨fun reason member => List.mem_toFinset.mpr member, fits, ordered⟩
  have reached : Tame (reasons events).toFinset (before ++ [.tick now]) := tame.of_append
  have earlier : Tame (reasons events).toFinset before := reached.of_append
  have tracks := tracks_stateAfter few reason _ reached
  have recentTotal := total_recent_observations reason now 0 (before ++ [.tick now])
  rw [ite_self, Nat.zero_add] at recentTotal
  have rate := tracks.rate
  rw [lastTick_snoc_tick, recentTotal] at rate
  change (stateAfter (before ++ [.tick now])).program.dropsPerSec.lookup _ = _ at rate
  refine ⟨?_, ?_, ?_⟩
  · rw [Table.mem_iff_lookup, rate, Nat.pos_iff_ne_zero]
    split
    next zero => simp [zero]
    next positive => simp [positive]
  · intro value exported
    rw [rate] at exported
    split at exported
    · cases exported
    · cases exported
      exact div_mul_cancel₀ _ (by decide)
  · have oldTame : Tame (reasons events).toFinset (untilLastOld now before) := by
      rw [← untilLastOld_append_sinceLastOld now before] at earlier
      exact earlier.of_append
    rw [countAt_eq_drops few oldTame, countAt_eq_drops few earlier]
    exact drops_untilLastOld reason now earlier.ordered

def burst : List Event :=
  [.drop (some 3), .tick 0, .drop (some 3), .drop none, .drop (some 3), .tick 5000000000]

theorem rates_report_burst :
    ReportsRecent burst 12000000000 3 ∧
      recentDrops 3 12000000000 (burst ++ [.tick 12000000000]) = 2 ∧
      (stateAfter (burst ++ [.tick 12000000000])).program.dropsPerSec.lookup (seriesLabels 3) =
        some (1 / 5) := by
  refine ⟨?_, by decide, by decide +kernel⟩
  apply rates_report_recent (burst ++ [.tick 12000000000]) (by decide) _ (by decide) burst _ [] rfl
  intro reason
  have short : drops reason (burst ++ [.tick 12000000000]) ≤ 7 := List.countP_le_length
  omega

end BpfAgent.KfreeSkb
