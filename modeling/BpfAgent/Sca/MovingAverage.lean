import BpfAgent.Sca.Freshness

/-!
# SCA: what the moving average averages

The window of a process opens with its first sample and again with every sample
that comes more than two seconds after the opening one.  The three maps hold
the sum, the number and the opening time of the samples in the current window,
whatever other processes send, as long as the number fits into a word.
-/

namespace BpfAgent.Sca

def record (maps : Maps) (sample : Sample) : Maps :=
  updateMovingAverage maps sample.pid sample.latency sample.currentTime

/-- The maps after a sequence of samples. -/
def recorded (samples : List Sample) : Maps := samples.foldl record Maps.empty

/-- The current window of a process after one more of its samples. -/
def extendWindow (window : List Sample) (sample : Sample) : List Sample :=
  match window with
  | [] => [sample]
  | first :: _ =>
      if first.currentTime.toNat + 2000000000 < sample.currentTime.toNat then [sample]
      else window ++ [sample]

/-- The samples of a process that fall into its current window, oldest first. -/
def currentWindow (pid : UInt32) (samples : List Sample) : List Sample :=
  (samples.filter fun sample => sample.pid = pid).foldl extendWindow []

/-- All samples of a window follow its opening sample within two seconds. -/
def Within : List Sample → Prop
  | [] => True
  | first :: rest =>
      ∀ sample ∈ first :: rest, first.currentTime.toNat ≤ sample.currentTime.toNat ∧
        sample.currentTime.toNat ≤ first.currentTime.toNat + 2000000000

/-- The maps hold the window of the process: the sum, the number and the time of
the opening sample, which all others follow within two seconds. -/
def HoldsWindow (maps : Maps) (pid : UInt32) : List Sample → Prop
  | [] => Lacks maps pid
  | first :: rest =>
      (maps.latencyPidSum.get pid).map UInt64.toNat =
        some (((first :: rest).map fun sample => sample.latency.toNat).sum) ∧
      (maps.latencyPidCount.get pid).map UInt64.toNat = some (first :: rest).length ∧
      maps.latencyWindowStart.get pid = some first.currentTime ∧
      Within (first :: rest)

theorem recorded_snoc (samples : List Sample) (sample : Sample) :
    recorded (samples ++ [sample]) = record (recorded samples) sample := by
  rw [recorded, List.foldl_append]
  rfl

theorem currentWindow_snoc_own {pid : UInt32} {sample : Sample} (own : sample.pid = pid)
    (samples : List Sample) :
    currentWindow pid (samples ++ [sample]) = extendWindow (currentWindow pid samples) sample := by
  simp [currentWindow, own]

theorem currentWindow_snoc_other {pid : UInt32} {sample : Sample} (other : sample.pid ≠ pid)
    (samples : List Sample) :
    currentWindow pid (samples ++ [sample]) = currentWindow pid samples := by
  simp [currentWindow, other]

/-- The window of a process as the machine words see it. -/
def wordWindow (samples : List Sample) (pid : UInt32) : Window :=
  (samples.filter fun sample => sample.pid = pid).foldl
    (fun window sample => window.add sample.latency sample.currentTime) Window.empty

theorem wordWindow_snoc_own {pid : UInt32} {sample : Sample} (own : sample.pid = pid)
    (samples : List Sample) :
    wordWindow (samples ++ [sample]) pid =
      (wordWindow samples pid).add sample.latency sample.currentTime := by
  simp [wordWindow, own]

theorem wordWindow_snoc_other {pid : UInt32} {sample : Sample} (other : sample.pid ≠ pid)
    (samples : List Sample) :
    wordWindow (samples ++ [sample]) pid = wordWindow samples pid := by
  simp [wordWindow, other]

theorem wordWindow_eq_empty {samples : List Sample} {pid : UInt32}
    (unsampled : ∀ sample ∈ samples, sample.pid ≠ pid) :
    wordWindow samples pid = Window.empty := by
  have none : (samples.filter fun sample => sample.pid = pid) = [] := by
    apply List.filter_eq_nil_iff.mpr
    intro sample member
    simp [unsampled sample member]
  rw [wordWindow, none]
  rfl

/-- The maps know the processes that have been sampled, with their windows. -/
def Knows (maps : Maps) (samples : List Sample) : Prop :=
  ∀ pid, (∃ sample ∈ samples, sample.pid = pid) ∧ Holds maps pid (wordWindow samples pid) ∨
    (∀ sample ∈ samples, sample.pid ≠ pid) ∧ Lacks maps pid

theorem Knows.refines {maps : Maps} {samples : List Sample} (knows : Knows maps samples) :
    Refines maps (wordWindow samples) := by
  intro pid
  rcases knows pid with ⟨-, holds⟩ | ⟨unsampled, lacks⟩
  · exact .inl holds
  · exact .inr ⟨lacks, wordWindow_eq_empty unsampled⟩

theorem Knows.record {maps : Maps} {samples : List Sample} (knows : Knows maps samples)
    {sample : Sample} (room : maps.latencyPidSum.Room sample.pid) :
    Knows (record maps sample) (samples ++ [sample]) := by
  intro pid
  by_cases own : sample.pid = pid
  · left
    refine ⟨⟨sample, List.mem_append_right _ (List.mem_singleton.mpr rfl), own⟩, ?_⟩
    subst own
    rw [wordWindow_snoc_own rfl]
    exact knows.refines.update_holds room sample.latency sample.currentTime
  · have agree : Agree (Sca.record maps sample) maps pid :=
      updateMovingAverage_agree maps (Ne.symm own) sample.latency sample.currentTime
    rw [wordWindow_snoc_other own]
    rcases knows pid with ⟨⟨earlier, member, same⟩, holds⟩ | ⟨unsampled, lacks⟩
    · exact .inl ⟨⟨earlier, List.mem_append_left _ member, same⟩, agree.holds holds⟩
    · refine .inr ⟨?_, agree.lacks lacks⟩
      intro other member
      rcases List.mem_append.mp member with earlier | last
      · exact unsampled other earlier
      · rw [List.mem_singleton.mp last]
        exact own

theorem recorded_knows (domain : Finset UInt32) (few : domain.card ≤ 16)
    (samples : List Sample) (inside : ∀ sample ∈ samples, sample.pid ∈ domain) :
    Knows (recorded samples) samples := by
  induction samples using List.reverseRecOn with
  | nil =>
      intro pid
      refine .inr ⟨fun _ member => absurd member List.not_mem_nil, ?_⟩
      exact ⟨BoundedMap.get_empty _, BoundedMap.get_empty _, BoundedMap.get_empty _⟩
  | append_singleton samples sample inductionHypothesis =>
      have knows := inductionHypothesis fun earlier member =>
        inside earlier (List.mem_append_left _ member)
      rw [recorded_snoc]
      apply knows.record
      apply BoundedMap.room_of_keys_subset domain few
      · intro pid present
        rcases knows pid with ⟨⟨earlier, member, rfl⟩, -⟩ | ⟨-, lacks⟩
        · exact inside earlier (List.mem_append_left _ member)
        · exact absurd present (BoundedMap.notMem_iff_get.mpr lacks.sum)
      · exact inside sample (List.mem_append_right _ (List.mem_singleton.mpr rfl))

/-- The words that a window of samples amounts to. -/
def toWindow (window : List Sample) : Window where
  opened := (window.head?.map Sample.currentTime).getD 0
  latencies := window.map Sample.latency

/-- While the number of samples fits into a word, the words follow the window. -/
theorem toWindow_extendWindow {window : List Sample} {sample : Sample}
    (later : ∀ first ∈ window.head?, first.currentTime ≤ sample.currentTime)
    (fits : window.length < 2 ^ 64) :
    (toWindow window).add sample.latency sample.currentTime =
      toWindow (extendWindow window sample) := by
  cases window with
  | nil =>
      simp [toWindow, extendWindow, Window.add, Window.unexpired]
  | cons first rest =>
      have inOrder := later first rfl
      have expired : windowSizeNs < sample.currentTime - first.currentTime ↔
          first.currentTime.toNat + 2000000000 < sample.currentTime.toNat := by
        rw [UInt64.lt_iff_toNat_lt, UInt64.toNat_sub_of_le _ _ inOrder]
        change 2000000000 < _ ↔ _
        omega
      have counted : UInt64.ofNat (first :: rest).length ≠ 0 := by
        intro zero
        have value := congrArg UInt64.toNat zero
        rw [UInt64.toNat_ofNat_of_lt' fits] at value
        cases value
      by_cases exceeded : first.currentTime.toNat + 2000000000 < sample.currentTime.toNat
      · have gone : (toWindow (first :: rest)).unexpired sample.currentTime = [] :=
          if_pos (expired.mpr exceeded)
        rw [Window.add, gone, extendWindow, if_pos exceeded]
        rfl
      · have kept : (toWindow (first :: rest)).unexpired sample.currentTime =
            (first :: rest).map Sample.latency := if_neg (mt expired.mp exceeded)
        rw [Window.add, kept, List.length_map, if_neg counted, extendWindow, if_neg exceeded, toWindow,
          toWindow, List.map_append]
        rfl

section Window

variable {pid : UInt32} {samples : List Sample}

/-- Every window along the sequence fits into a word. -/
def CountsFit (pid : UInt32) (samples : List Sample) : Prop :=
  ∀ earlier, earlier <+: samples → (currentWindow pid earlier).length < 2 ^ 64

theorem length_extendWindow_le (window : List Sample) (last : Sample) :
    (extendWindow window last).length ≤ window.length + 1 := by
  cases window with
  | nil => exact Nat.le_refl 1
  | cons first rest =>
      rw [extendWindow]
      split
      · simp
      · simp

theorem mem_of_mem_extendWindow {window : List Sample} {last sample : Sample}
    (member : sample ∈ extendWindow window last) : sample ∈ window ∨ sample = last := by
  cases window with
  | nil => exact .inr (List.mem_singleton.mp member)
  | cons first rest =>
      rw [extendWindow] at member
      split at member
      · exact .inr (List.mem_singleton.mp member)
      · exact (List.mem_append.mp member).imp id List.mem_singleton.mp

theorem mem_of_mem_currentWindow {sample : Sample}
    (member : sample ∈ currentWindow pid samples) : sample ∈ samples := by
  induction samples using List.reverseRecOn with
  | nil => cases member
  | append_singleton samples last inductionHypothesis =>
      apply List.mem_append.mpr
      by_cases own : last.pid = pid
      · rw [currentWindow_snoc_own own] at member
        exact (mem_of_mem_extendWindow member).imp inductionHypothesis List.mem_singleton.mpr
      · rw [currentWindow_snoc_other own] at member
        exact .inl (inductionHypothesis member)

theorem length_currentWindow_le (pid : UInt32) (samples : List Sample) :
    (currentWindow pid samples).length ≤ samples.length := by
  induction samples using List.reverseRecOn with
  | nil => exact Nat.le_refl 0
  | append_singleton samples last inductionHypothesis =>
      rw [List.length_append, List.length_singleton]
      by_cases own : last.pid = pid
      · have extended := length_extendWindow_le (currentWindow pid samples) last
        rw [currentWindow_snoc_own own]
        omega
      · rw [currentWindow_snoc_other own]
        omega

theorem currentWindow_le_last {last : Sample}
    (ordered : (samples ++ [last]).Pairwise fun earlier later =>
      earlier.currentTime ≤ later.currentTime) :
    ∀ sample ∈ currentWindow pid samples, sample.currentTime ≤ last.currentTime := by
  intro sample member
  exact (List.pairwise_append.mp ordered).2.2 sample (mem_of_mem_currentWindow member) last
    (List.mem_singleton.mpr rfl)

theorem wordWindow_eq_toWindow
    (ordered : samples.Pairwise fun earlier later => earlier.currentTime ≤ later.currentTime)
    (fit : CountsFit pid samples) :
    wordWindow samples pid = toWindow (currentWindow pid samples) := by
  induction samples using List.reverseRecOn with
  | nil => rfl
  | append_singleton samples last inductionHypothesis =>
      have before := inductionHypothesis (List.pairwise_append.mp ordered).1
        fun earlier isPrefix => fit earlier (isPrefix.trans (List.prefix_append _ _))
      by_cases own : last.pid = pid
      · rw [wordWindow_snoc_own own, currentWindow_snoc_own own, before]
        apply toWindow_extendWindow
        · intro first opening
          exact currentWindow_le_last ordered first (List.mem_of_mem_head? opening)
        · exact fit samples (List.prefix_append _ _)
      · rw [wordWindow_snoc_other own, currentWindow_snoc_other own, before]

theorem within_extendWindow {window : List Sample} {last : Sample} (within : Within window)
    (later : ∀ sample ∈ window, sample.currentTime ≤ last.currentTime) :
    Within (extendWindow window last) := by
  have alone : Within [last] := by
    intro sample member
    rw [List.mem_singleton.mp member]
    omega
  cases window with
  | nil => exact alone
  | cons first rest =>
      rw [extendWindow]
      split
      next => exact alone
      next young =>
        change ∀ sample ∈ first :: rest ++ [last], _
        intro sample member
        rcases List.mem_append.mp member with earlier | new
        · exact within sample earlier
        · rw [List.mem_singleton.mp new]
          have inOrder := UInt64.le_iff_toNat_le.mp (later first List.mem_cons_self)
          omega

theorem currentWindow_within
    (ordered : samples.Pairwise fun earlier later => earlier.currentTime ≤ later.currentTime) :
    Within (currentWindow pid samples) := by
  induction samples using List.reverseRecOn with
  | nil => trivial
  | append_singleton samples last inductionHypothesis =>
      have before := inductionHypothesis (List.pairwise_append.mp ordered).1
      by_cases own : last.pid = pid
      · rw [currentWindow_snoc_own own]
        exact within_extendWindow before (currentWindow_le_last ordered)
      · rw [currentWindow_snoc_other own]
        exact before

theorem extendWindow_ne_nil (window : List Sample) (sample : Sample) :
    extendWindow window sample ≠ [] := by
  cases window with
  | nil => exact List.cons_ne_nil _ _
  | cons first rest =>
      rw [extendWindow]
      split
      · exact List.cons_ne_nil _ _
      · simp

theorem currentWindow_eq_nil_iff :
    currentWindow pid samples = [] ↔ ∀ sample ∈ samples, sample.pid ≠ pid := by
  induction samples using List.reverseRecOn with
  | nil => simp [currentWindow]
  | append_singleton samples last inductionHypothesis =>
      by_cases own : last.pid = pid
      · rw [currentWindow_snoc_own own]
        simp [extendWindow_ne_nil, own]
      · rw [currentWindow_snoc_other own, inductionHypothesis]
        simp [own, or_imp, forall_and]

end Window

theorem Holds.holdsWindow {maps : Maps} {pid : UInt32} {window : List Sample}
    (holds : Holds maps pid (toWindow window)) (nonempty : window ≠ []) (within : Within window)
    (sums : (window.map fun sample => sample.latency.toNat).sum < 2 ^ 64)
    (counts : window.length < 2 ^ 64) : HoldsWindow maps pid window := by
  cases window with
  | nil => exact absurd rfl nonempty
  | cons first rest =>
      refine ⟨?_, ?_, holds.start, within⟩
      · have latencies : ((first :: rest).map Sample.latency).map UInt64.toNat =
            (first :: rest).map fun sample => sample.latency.toNat := List.map_map
        rw [holds.sum, Option.map_some, Window.total, toWindow]
        dsimp only
        rw [Word.toNat_sum _ (by rw [latencies]; exact sums), latencies]
      · rw [holds.count, Option.map_some, Window.number, toWindow]
        dsimp only
        rw [List.length_map, UInt64.toNat_ofNat_of_lt' counts]

/-- The maps hold the current window of every process, which the samples of
other processes do not affect. -/
theorem recorded_holdsWindow (samples : List Sample) (pid : UInt32)
    (few : (samples.map Sample.pid).toFinset.card ≤ 16)
    (ordered : samples.Pairwise fun earlier later => earlier.currentTime ≤ later.currentTime)
    (sums : ((currentWindow pid samples).map fun sample => sample.latency.toNat).sum < 2 ^ 64)
    (counts : CountsFit pid samples) :
    HoldsWindow (recorded samples) pid (currentWindow pid samples) ∧
      Agree (recorded samples) (recorded (samples.filter fun sample => sample.pid = pid)) pid := by
  have inside : ∀ sample ∈ samples, sample.pid ∈ (samples.map Sample.pid).toFinset :=
    fun sample member => List.mem_toFinset.mpr (List.mem_map.mpr ⟨sample, member, rfl⟩)
  have knows := recorded_knows _ few samples inside
  have alone := recorded_knows _ few (samples.filter fun sample => sample.pid = pid)
    fun sample member => inside sample (List.mem_of_mem_filter member)
  have same : wordWindow (samples.filter fun sample => sample.pid = pid) pid =
      wordWindow samples pid := by
    simp [wordWindow]
  rcases knows pid with ⟨⟨sample, member, own⟩, holds⟩ | ⟨unsampled, lacks⟩
  · have nonempty : currentWindow pid samples ≠ [] := fun none =>
      currentWindow_eq_nil_iff.mp none sample member own
    have window := holds
    rw [wordWindow_eq_toWindow ordered counts] at window
    refine ⟨window.holdsWindow nonempty (currentWindow_within ordered) sums
      (counts samples (List.prefix_refl _)), ?_⟩
    rcases alone pid with ⟨-, other⟩ | ⟨unsampled, -⟩
    · rw [same] at other
      exact ⟨holds.sum.trans other.sum.symm, holds.count.trans other.count.symm,
        holds.start.trans other.start.symm⟩
    · exact absurd own (unsampled sample (List.mem_filter.mpr ⟨member, by simp [own]⟩))
  · rw [currentWindow_eq_nil_iff.mpr unsampled]
    refine ⟨lacks, ?_⟩
    rcases alone pid with ⟨⟨sample, member, own⟩, -⟩ | ⟨-, other⟩
    · exact absurd own (unsampled sample (List.mem_of_mem_filter member))
    · exact ⟨lacks.sum.trans other.sum.symm, lacks.count.trans other.count.symm,
        lacks.start.trans other.start.symm⟩

def interleaved : List Sample :=
  [⟨1, 500, 1000⟩, ⟨2, 70, 2000⟩, ⟨1, 300, 2000001000⟩, ⟨1, 40, 2000001001⟩]

theorem interleaved_holdsWindow :
    HoldsWindow (recorded interleaved) 1 (currentWindow 1 interleaved) := by
  have counts : CountsFit 1 interleaved := by
    intro earlier isPrefix
    have short : earlier.length ≤ 4 := isPrefix.length_le
    have window := length_currentWindow_le 1 earlier
    omega
  exact (recorded_holdsWindow interleaved 1 (by decide) (by decide +kernel) (by decide +kernel)
    counts).1

theorem HoldsWindow.length_lt {maps : Maps} {pid : UInt32} {window : List Sample}
    (holds : HoldsWindow maps pid window) : window.length < 2 ^ 64 := by
  cases window with
  | nil => exact Nat.two_pow_pos 64
  | cons first rest =>
      obtain ⟨count, -, value⟩ := Option.map_eq_some_iff.mp holds.2.1
      rw [← value]
      exact count.toNat_lt

theorem currentWindow_replicate (sample : Sample) (number : Nat) :
    currentWindow sample.pid (List.replicate number sample) = List.replicate number sample := by
  induction number with
  | zero => rfl
  | succ number inductionHypothesis =>
      rw [List.replicate_succ', currentWindow_snoc_own rfl, inductionHypothesis]
      cases number with
      | zero => rfl
      | succ number =>
          rw [List.replicate_succ, extendWindow, if_neg (by omega)]

/-- Samples of no latency all at one time, more than a word can count. -/
theorem exists_not_holdsWindow {number : Nat} (huge : 2 ^ 64 ≤ number) (pid : UInt32)
    (time : UInt64) :
    ∃ samples : List Sample, (samples.map Sample.pid).toFinset.card ≤ 16 ∧
      (samples.Pairwise fun earlier later => earlier.currentTime ≤ later.currentTime) ∧
      ((currentWindow pid samples).map fun sample => sample.latency.toNat).sum < 2 ^ 64 ∧
      ¬HoldsWindow (recorded samples) pid (currentWindow pid samples) := by
  have window := currentWindow_replicate ⟨pid, 0, time⟩ number
  refine ⟨List.replicate number ⟨pid, 0, time⟩, ?_, ?_, ?_, ?_⟩
  · have alone : ((List.replicate number (⟨pid, 0, time⟩ : Sample)).map Sample.pid).toFinset ⊆
        {pid} := by
      intro other member
      obtain ⟨sample, present, rfl⟩ := List.mem_map.mp (List.mem_toFinset.mp member)
      rw [List.eq_of_mem_replicate present]
      exact Finset.mem_singleton_self pid
    exact (Finset.card_le_card alone).trans (by rw [Finset.card_singleton]; decide)
  · exact List.pairwise_replicate.mpr (.inr (UInt64.le_refl time))
  · rw [window, List.map_replicate, List.sum_replicate]
    change number * 0 < 2 ^ 64
    omega
  · intro holds
    have short := holds.length_lt
    rw [window, List.length_replicate] at short
    omega

theorem not_holdsWindow_of_count_wraps :
    ¬∀ (samples : List Sample) (pid : UInt32),
      (samples.map Sample.pid).toFinset.card ≤ 16 →
      (samples.Pairwise fun earlier later => earlier.currentTime ≤ later.currentTime) →
      ((currentWindow pid samples).map fun sample => sample.latency.toNat).sum < 2 ^ 64 →
      HoldsWindow (recorded samples) pid (currentWindow pid samples) := by
  intro claim
  obtain ⟨samples, few, ordered, sums, wrong⟩ := exists_not_holdsWindow (Nat.le_refl _) 1 0
  exact wrong (claim samples 1 few ordered sums)

end BpfAgent.Sca
