import BpfAgent.KfreeSkb.Rates
import Mathlib.Algebra.Order.BigOperators.Group.List
import Mathlib.Algebra.Order.Ring.Rat
import Mathlib.Tactic.Linarith
import Mathlib.Tactic.Ring

/-!
# KFREE_SKB: the total and its parts

A tick sets the total to the sum of the rates it reports, and the series that
exist afterwards are exactly those.  A tick that reports nothing leaves the
total as it is, although no series is left.
-/

namespace BpfAgent.KfreeSkb

/-- The sum of the recent deltas of a reason at a tick that reads `count`. -/
def windowSum (program : Program) (now : Nat) (reason : UInt32) (count : UInt64) : UInt64 :=
  (updateWindow ((program.deltaWindows.lookup reason).getD []) now
    (counterDelta program.lastCounts reason count).1).2

/-- Some reason has drops within the window at the time of the tick. -/
def Active (state : State) (now : Nat) : Prop :=
  ∃ reason count, state.dropCounts.get reason = some count ∧
    windowSum state.program now reason count ≠ 0

/-- If the total exists, it is the sum of the series. -/
def TotalAgrees (program : Program) : Prop :=
  ∀ total, program.totalDropsPerSec.lookup "all" = some total →
    total = Table.sumValues program.dropsPerSec

/-- The rate that the loop reports for an entry, if any. -/
def rowOf (program : Program) (now : Nat) (entry : (_ : UInt32) × UInt64) : Option Rat :=
  if windowSum program now entry.1 entry.2 = 0 then none
  else some (rateOf (windowSum program now entry.1 entry.2))

def seriesRate (program : Program) (reason : UInt32) : Rat :=
  (program.dropsPerSec.lookup (seriesLabels reason)).getD 0

section Round

variable (now : Nat) (program : Program) (rows : List Rat) (entry : (_ : UInt32) × UInt64)

theorem reportReason_rows :
    (reportReason now (program, rows) entry).2 = rows ++ (rowOf program now entry).toList := by
  unfold reportReason rowOf windowSum
  dsimp only
  split
  · simp
  · simp

theorem reportReason_total :
    (reportReason now (program, rows) entry).1.totalDropsPerSec = program.totalDropsPerSec := by
  unfold reportReason
  dsimp only
  split <;> rfl

theorem reportReason_mem_dropsPerSec {labels : String × String}
    (present : labels ∈ (reportReason now (program, rows) entry).1.dropsPerSec) :
    labels ∈ program.dropsPerSec ∨ labels = seriesLabels entry.1 := by
  unfold reportReason at present
  dsimp only at present
  split at present
  · exact .inl (AList.mem_erase.mp present).2
  · exact ((AList.mem_insert _).mp present).symm

theorem reportReason_sumValues :
    Table.sumValues (reportReason now (program, rows) entry).1.dropsPerSec +
        seriesRate program entry.1 =
      Table.sumValues program.dropsPerSec + (rowOf program now entry).getD 0 := by
  rw [← Table.sumValues_erase program.dropsPerSec (seriesLabels entry.1)]
  unfold reportReason rowOf windowSum seriesRate
  dsimp only
  split
  · simp [add_comm]
  · rw [Table.sumValues_insert, Option.getD_some]
    ring

theorem rowOf_congr {other : Program} (same : view other entry.1 = view program entry.1) :
    rowOf other now entry = rowOf program now entry := by
  have counts := congrArg View.lastCount same
  have windows := congrArg View.window same
  dsimp only [view] at counts windows
  rw [rowOf, rowOf, windowSum, windowSum, counterDelta, counterDelta, counts, windows]

theorem seriesRate_congr {other : Program} {reason : UInt32}
    (same : view other reason = view program reason) :
    seriesRate other reason = seriesRate program reason := by
  have rates := congrArg View.rate same
  dsimp only [view] at rates
  rw [seriesRate, seriesRate, rates]

theorem reportReason_other {other : UInt32} (different : other ≠ entry.1) :
    view (reportReason now (program, rows) entry).1 other = view program other := by
  rw [reportReason_view, if_neg different]

end Round

section Loop

variable (now : Nat)

theorem reportReason_later {entry : (_ : UInt32) × UInt64}
    {entries : List ((_ : UInt32) × UInt64)} (distinct : (entry :: entries).NodupKeys)
    (program : Program) (rows : List Rat) {later : (_ : UInt32) × UInt64}
    (member : later ∈ entries) :
    view (reportReason now (program, rows) entry).1 later.1 = view program later.1 := by
  apply reportReason_other
  intro same
  have present : entry.1 ∈ entries.keys := same ▸ List.mem_keys_of_mem member
  exact (List.nodupKeys_cons.mp distinct).1 present

theorem filterMap_rowOf_later {entry : (_ : UInt32) × UInt64}
    {entries : List ((_ : UInt32) × UInt64)} (distinct : (entry :: entries).NodupKeys)
    (program : Program) (rows : List Rat) :
    entries.filterMap (rowOf (reportReason now (program, rows) entry).1 now) =
      entries.filterMap (rowOf program now) := by
  apply List.filterMap_congr
  intro later member
  exact rowOf_congr now program later (reportReason_later now distinct program rows member)

theorem foldl_rows {entries : List ((_ : UInt32) × UInt64)} (distinct : entries.NodupKeys)
    (program : Program) (rows : List Rat) :
    (entries.foldl (reportReason now) (program, rows)).2 =
      rows ++ entries.filterMap (rowOf program now) := by
  induction entries generalizing program rows with
  | nil => simp
  | cons entry entries inductionHypothesis =>
      rw [List.foldl_cons, inductionHypothesis (List.nodupKeys_cons.mp distinct).2,
        filterMap_rowOf_later now distinct, reportReason_rows, List.append_assoc,
        List.filterMap_cons]
      cases rowOf program now entry with
      | none => rfl
      | some rate => rfl

theorem foldl_total (entries : List ((_ : UInt32) × UInt64)) (program : Program)
    (rows : List Rat) :
    (entries.foldl (reportReason now) (program, rows)).1.totalDropsPerSec =
      program.totalDropsPerSec := by
  induction entries generalizing program rows with
  | nil => rfl
  | cons entry entries inductionHypothesis =>
      rw [List.foldl_cons, inductionHypothesis, reportReason_total]

/-- The loop replaces the series of its reasons by the rows it reports. -/
theorem foldl_sumValues {entries : List ((_ : UInt32) × UInt64)} (distinct : entries.NodupKeys)
    (program : Program) (rows : List Rat) :
    Table.sumValues (entries.foldl (reportReason now) (program, rows)).1.dropsPerSec +
        (entries.map fun entry => seriesRate program entry.1).sum =
      Table.sumValues program.dropsPerSec + (entries.filterMap (rowOf program now)).sum := by
  induction entries generalizing program rows with
  | nil => simp
  | cons entry entries inductionHypothesis =>
      have step := reportReason_sumValues now program rows entry
      have rest := inductionHypothesis (List.nodupKeys_cons.mp distinct).2
        (reportReason now (program, rows) entry).1 (reportReason now (program, rows) entry).2
      have sameRates : (entries.map fun later =>
          seriesRate (reportReason now (program, rows) entry).1 later.1) =
          entries.map fun later => seriesRate program later.1 := by
        apply List.map_congr_left
        intro later member
        exact seriesRate_congr program (reportReason_later now distinct program rows member)
      have split : ((entry :: entries).filterMap (rowOf program now)).sum =
          (rowOf program now entry).getD 0 + (entries.filterMap (rowOf program now)).sum := by
        rw [List.filterMap_cons]
        cases rowOf program now entry with
        | none => simp
        | some rate => simp
      rw [sameRates, filterMap_rowOf_later now distinct] at rest
      rw [List.foldl_cons, List.map_cons, List.sum_cons, split]
      linarith

theorem foldl_mem_dropsPerSec {entries : List ((_ : UInt32) × UInt64)}
    {state : Program × List Rat} {labels : String × String}
    (present : labels ∈ (entries.foldl (reportReason now) state).1.dropsPerSec) :
    labels ∈ state.1.dropsPerSec ∨ ∃ entry ∈ entries, labels = seriesLabels entry.1 := by
  induction entries generalizing state with
  | nil => exact .inl present
  | cons entry entries inductionHypothesis =>
      obtain ⟨program, rows⟩ := state
      rw [List.foldl_cons] at present
      rcases inductionHypothesis present with earlier | ⟨later, member, same⟩
      · rcases reportReason_mem_dropsPerSec now program rows entry earlier with old | same
        · exact .inl old
        · exact .inr ⟨entry, List.mem_cons_self, same⟩
      · exact .inr ⟨later, List.mem_cons_of_mem _ member, same⟩

end Loop

/-- Every series belongs to a reason that has been counted, and a total has been
set to a sum of positive rates. -/
structure Consistent (state : State) : Prop where
  counted : ∀ labels ∈ state.program.dropsPerSec, ∃ reason ∈ state.dropCounts,
    labels = seriesLabels reason
  positive : ∀ total, state.program.totalDropsPerSec.lookup "all" = some total → 0 < total

def tickRows (state : State) (now : Nat) : List Rat :=
  state.dropCounts.entries.filterMap (rowOf state.program now)

theorem rateOf_pos {sum : UInt64} (nonzero : sum ≠ 0) : 0 < rateOf sum := by
  have positive : 0 < sum.toNat := by
    apply Nat.pos_of_ne_zero
    intro zero
    exact nonzero (UInt64.toNat_inj.mp zero)
  have cast : (0 : Rat) < sum.toNat := by exact_mod_cast positive
  unfold rateOf
  linarith

theorem tickRows_pos {state : State} {now : Nat} {rate : Rat}
    (member : rate ∈ tickRows state now) : 0 < rate := by
  obtain ⟨entry, -, row⟩ := List.mem_filterMap.mp member
  unfold rowOf at row
  split at row
  next => cases row
  next nonzero =>
    cases row
    exact rateOf_pos nonzero

theorem tickRows_ne_nil_iff {state : State} {now : Nat} :
    tickRows state now ≠ [] ↔ Active state now := by
  constructor
  · intro nonempty
    obtain ⟨rate, member⟩ := List.exists_mem_of_ne_nil _ nonempty
    obtain ⟨entry, present, row⟩ := List.mem_filterMap.mp member
    refine ⟨entry.1, entry.2, Table.lookup_of_mem_entries present, ?_⟩
    intro zero
    rw [rowOf, if_pos zero] at row
    cases row
  · rintro ⟨reason, count, found, nonzero⟩
    apply List.ne_nil_of_mem
    apply List.mem_filterMap.mpr
    refine ⟨⟨reason, count⟩, AList.mem_lookup_iff.mp found, ?_⟩
    rw [rowOf, if_neg nonzero]

theorem tick_dropsPerSec (state : State) (now : Nat) :
    (step state (.tick now)).program.dropsPerSec =
      (state.dropCounts.entries.foldl (reportReason now) (state.program, [])).1.dropsPerSec := by
  simp only [step, displayMetrics]
  split <;> rfl

/-- After a tick the series are the rates it reported. -/
theorem tick_sumValues {state : State} (consistent : Consistent state) (now : Nat) :
    Table.sumValues (step state (.tick now)).program.dropsPerSec = (tickRows state now).sum := by
  have distinct := state.dropCounts.table.nodupKeys
  have labels : (state.dropCounts.entries.map fun entry => seriesLabels entry.1).Nodup := by
    have keys : state.dropCounts.keys.Nodup := BoundedMap.keys_nodup _
    have mapped := keys.map fun left right same => seriesLabels_inj same
    rw [BoundedMap.keys, AList.keys, List.keys, List.map_map] at mapped
    exact mapped
  have before : Table.sumValues state.program.dropsPerSec =
      (state.dropCounts.entries.map fun entry => seriesRate state.program entry.1).sum := by
    rw [Table.sumValues_eq_sum_lookup labels, List.map_map]
    · rfl
    · intro series present
      obtain ⟨reason, counted, rfl⟩ := consistent.counted series present
      obtain ⟨count, found⟩ := BoundedMap.mem_iff_get.mp counted
      exact List.mem_map.mpr ⟨⟨reason, count⟩, AList.mem_lookup_iff.mp found, rfl⟩
  have loop : Table.sumValues (state.dropCounts.entries.foldl (reportReason now)
      (state.program, [])).1.dropsPerSec +
        (state.dropCounts.entries.map fun entry => seriesRate state.program entry.1).sum =
      Table.sumValues state.program.dropsPerSec + (tickRows state now).sum :=
    foldl_sumValues now distinct state.program []
  rw [tick_dropsPerSec]
  linarith

theorem tick_total (state : State) (now : Nat) :
    (step state (.tick now)).program.totalDropsPerSec.lookup "all" =
      if tickRows state now = [] then state.program.totalDropsPerSec.lookup "all"
      else some (tickRows state now).sum := by
  have rows : (state.dropCounts.entries.foldl (reportReason now) (state.program, [])).2 =
      tickRows state now := foldl_rows now state.dropCounts.table.nodupKeys state.program []
  have totals := foldl_total now state.dropCounts.entries state.program []
  simp only [step, displayMetrics, rows, List.isEmpty_iff]
  split
  next => rw [totals]
  next => rw [Table.lookup_insert_ite, if_pos rfl]

theorem tickRows_sum_pos {state : State} {now : Nat} (nonempty : tickRows state now ≠ []) :
    0 < (tickRows state now).sum :=
  List.sum_pos _ (fun _ member => tickRows_pos member) nonempty

theorem consistent_step {state : State} (consistent : Consistent state) (event : Event) :
    Consistent (step state event) := by
  cases event with
  | drop reason =>
      refine ⟨?_, consistent.positive⟩
      intro labels present
      obtain ⟨counted, known, same⟩ := consistent.counted labels present
      refine ⟨counted, ?_, same⟩
      cases reason with
      | none => exact known
      | some reason =>
          simp only [step, tryKfreeSkb]
          split
          next => exact BoundedMap.mem_insert_of_mem _ known
          next => exact BoundedMap.mem_insert_of_mem _ known
  | tick now =>
      constructor
      · intro labels present
        rw [tick_dropsPerSec] at present
        rcases foldl_mem_dropsPerSec now present with earlier | ⟨entry, member, same⟩
        · exact consistent.counted labels earlier
        · exact ⟨entry.1, List.mem_keys_of_mem member, same⟩
      · intro total found
        rw [tick_total] at found
        split at found
        next => exact consistent.positive total found
        next nonempty =>
          cases found
          exact tickRows_sum_pos nonempty

theorem consistent_stateAfter (events : List Event) : Consistent (stateAfter events) := by
  induction events using List.reverseRecOn with
  | nil =>
      constructor
      · intro labels present
        exact absurd present (AList.notMem_empty labels)
      · intro total found
        cases found
  | append_singleton events event inductionHypothesis =>
      rw [stateAfter_snoc]
      exact consistent_step inductionHypothesis event

/-- After a tick the total agrees with the series exactly when some reason has
drops within the window, or no total has been set yet. -/
theorem totalAgrees_iff (events : List Event) (now : Nat) :
    TotalAgrees (stateAfter (events ++ [.tick now])).program ↔
      Active (stateAfter events) now ∨
        "all" ∉ (stateAfter events).program.totalDropsPerSec := by
  have consistent := consistent_stateAfter events
  rw [stateAfter_snoc, ← tickRows_ne_nil_iff, TotalAgrees, tick_sumValues consistent, tick_total]
  by_cases quiet : tickRows (stateAfter events) now = []
  · rw [if_pos quiet, quiet, List.sum_nil]
    constructor
    · intro agrees
      refine .inr ?_
      intro present
      obtain ⟨total, found⟩ := Table.mem_iff_lookup.mp present
      exact absurd (agrees total found) (consistent.positive total found).ne'
    · rintro (active | absent) total found
      · exact absurd rfl active
      · exact absurd (Table.mem_iff_lookup.mpr ⟨total, found⟩) absent
  · rw [if_neg quiet]
    constructor
    · intro _
      exact .inl quiet
    · intro _ total found
      exact (Option.some.inj found).symm

def decayed : List Event := [.drop (some 2), .tick 0, .tick 10000000001]

theorem decayed_not_totalAgrees : ¬TotalAgrees (stateAfter decayed).program := by
  intro agrees
  have stale := agrees (1 / 10) (by decide +kernel)
  revert stale
  decide +kernel

end BpfAgent.KfreeSkb
