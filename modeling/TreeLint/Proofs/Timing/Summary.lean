import Mathlib
import TreeLint.Timing.Basic

/-! The summary of samples against the samples as a collection without an order. Whatever the order
in which they were taken, the table has one entry for each name, with what all of its times come to,
and its own order leaves no choice.
-/

namespace TreeLint

-----------------------------------------------------------------------------------------
-- What the times of a name come to
-----------------------------------------------------------------------------------------

/-- The times of the samples under a name, in nanoseconds. -/
def timesOf (samples : Multiset Sample) (name : String) : Multiset Nat :=
  (samples.filter (·.name = name)).map (·.elapsed.nanos)

/-- The totals of some times: how many they are, their sum and the longest of them. -/
def RunTotals.ofTimes (name : String) (times : Multiset Nat) : RunTotals :=
  { name, runs := times.card, total := ⟨times.sum⟩, longest := ⟨times.sup⟩ }

/-- The totals of a name among some samples. -/
def tally (samples : Multiset Sample) (name : String) : RunTotals :=
  .ofTimes name (timesOf samples name)

/-- The names are those under which there are samples, each once. -/
structure ListsNames (names : List String) (samples : Multiset Sample) : Prop where
  distinct : names.Nodup
  complete : ∀ name, name ∈ names ↔ ∃ sample ∈ samples, sample.name = name

theorem timesOf_cons_self (sample : Sample) (samples : Multiset Sample)
    : timesOf (sample ::ₘ samples) sample.name
      = sample.elapsed.nanos ::ₘ timesOf samples sample.name := by
  simp [timesOf]

theorem timesOf_cons_of_ne {sample : Sample} {name : String} (other : sample.name ≠ name)
    (samples : Multiset Sample)
    : timesOf (sample ::ₘ samples) name = timesOf samples name := by
  simp [timesOf, other]

theorem timesOf_add (first second : Multiset Sample) (name : String)
    : timesOf (first + second) name = timesOf first name + timesOf second name := by
  simp [timesOf]

/-- A name without samples has no times. -/
theorem timesOf_eq_zero {samples : Multiset Sample} {name : String}
    (absent : ¬∃ sample ∈ samples, sample.name = name)
    : timesOf samples name = 0 := by
  rw [timesOf, Multiset.map_eq_zero, Multiset.filter_eq_nil]
  exact fun sample member same => absent ⟨sample, member, same⟩

/-- One more time is added to the totals of the times before it, if the sum fits. -/
theorem RunTotals.add?_ofTimes (name : String) {times : Multiset Nat} {elapsed : Duration}
    (fits : (elapsed.nanos ::ₘ times).sum < Duration.bound)
    : (RunTotals.ofTimes name times).add? elapsed
      = some (.ofTimes name (elapsed.nanos ::ₘ times)) := by
  have total : (Duration.mk times.sum).add? elapsed = some ⟨(elapsed.nanos ::ₘ times).sum⟩ := by
    rw [Multiset.sum_cons, Nat.add_comm] at fits ⊢
    rw [Duration.add?, Duration.ofNanos?, if_pos fits]
  have longest : (Duration.mk times.sup).max elapsed = ⟨(elapsed.nanos ::ₘ times).sup⟩ := by
    rw [Duration.max, Multiset.sup_cons]
    split
    · next le => rw [sup_eq_left.mpr le]
    · next gt => rw [sup_eq_right.mpr (Nat.le_of_not_le gt)]
  simp [RunTotals.add?, RunTotals.ofTimes, total, longest]

-----------------------------------------------------------------------------------------
-- Adding samples
-----------------------------------------------------------------------------------------

/-- A sample changes the totals of its name alone. -/
theorem tally_cons (sample : Sample) (samples : Multiset Sample) (name : String)
    : tally (sample ::ₘ samples) name
      = if sample.name = name then
          .ofTimes name (sample.elapsed.nanos ::ₘ timesOf samples name)
        else tally samples name := by
  split
  · next same => rw [tally, ← same, timesOf_cons_self]
  · next other => rw [tally, timesOf_cons_of_ne other, tally]

/-- A sample is added to the entry of its name, or else in an entry of its own behind the others,
by induction on the names.
-/
theorem addSample?_tally {names : List String} (distinct : names.Nodup) {sample : Sample}
    {samples : Multiset Sample}
    (fits : (timesOf (sample ::ₘ samples) sample.name).sum < Duration.bound)
    (unlisted : sample.name ∉ names → timesOf samples sample.name = 0)
    : addSample? sample (names.map (tally samples))
      = some ((if sample.name ∈ names then names else names ++ [sample.name]).map
          (tally (sample ::ₘ samples))) := by
  have added : (tally samples sample.name).add? sample.elapsed
      = some (tally (sample ::ₘ samples) sample.name) := by
    rw [timesOf_cons_self] at fits
    rw [tally_cons, if_pos rfl, tally, RunTotals.add?_ofTimes sample.name fits]
  induction names with
  | nil =>
      have fresh : tally samples sample.name = { name := sample.name } := by
        rw [tally, unlisted List.not_mem_nil]
        rfl
      simp [addSample?, ← fresh, added]
  | cons name rest ih =>
      obtain ⟨apart, distinct⟩ := List.nodup_cons.mp distinct
      rw [List.map_cons, addSample?]
      by_cases same : name = sample.name
      · subst same
        have others : rest.map (tally (sample ::ₘ samples)) = rest.map (tally samples) := by
          refine List.map_congr_left fun other member => ?_
          rw [tally_cons, if_neg]
          exact fun here : sample.name = other => apart (here ▸ member)
        rw [if_pos (show (tally samples sample.name).name = sample.name from rfl), added,
          if_pos List.mem_cons_self, List.map_cons, others]
        rfl
      · have later := ih distinct fun absent => unlisted fun member =>
          (List.mem_cons.mp member).elim (fun here => same here.symm) absent
        have kept : tally (sample ::ₘ samples) name = tally samples name := by
          rw [tally_cons, if_neg (Ne.symm same)]
        rw [if_neg (show (tally samples name).name ≠ sample.name from same), later]
        simp only [List.mem_cons, Ne.symm same, false_or]
        split <;> simp [kept]

theorem ListsNames.cons {names : List String} {samples : Multiset Sample}
    (lists : ListsNames names samples) (sample : Sample)
    : ListsNames (if sample.name ∈ names then names else names ++ [sample.name])
        (sample ::ₘ samples) := by
  obtain ⟨distinct, complete⟩ := lists
  have known (name : String)
      : (∃ other ∈ sample ::ₘ samples, other.name = name) ↔ sample.name = name ∨ name ∈ names := by
    simp only [Multiset.mem_cons, exists_eq_or_imp, complete]
  split
  · next listed =>
      refine ⟨distinct, fun name => ?_⟩
      rw [known, or_iff_right_of_imp fun same => same ▸ listed]
  · next fresh =>
      refine ⟨?_, fun name => ?_⟩
      · rw [List.nodup_append_comm]
        exact List.nodup_cons.mpr ⟨fresh, distinct⟩
      · rw [known, List.mem_append, List.mem_singleton, or_comm, eq_comm]

/-- Adding samples one after the other keeps a table of what their times come to, by induction on
the samples.
-/
theorem foldlM_tally {names : List String} {seen : Multiset Sample}
    (lists : ListsNames names seen) {samples : List Sample}
    (fits : ∀ name, (timesOf (seen + samples) name).sum < Duration.bound)
    : ∃ more, ListsNames more (seen + samples)
      ∧ samples.foldlM (fun totals sample => addSample? sample totals) (names.map (tally seen))
        = some (more.map (tally (seen + samples))) := by
  induction samples generalizing names seen with
  | nil => exact ⟨names, by simpa using lists, by simp⟩
  | cons sample rest ih =>
      have moved : seen + ↑(sample :: rest) = (sample ::ₘ seen) + (rest : Multiset Sample) := by
        rw [← Multiset.cons_coe, Multiset.add_cons, Multiset.cons_add]
      rw [moved] at fits ⊢
      have fitsNow : (timesOf (sample ::ₘ seen) sample.name).sum < Duration.bound := by
        have whole := fits sample.name
        rw [timesOf_add, Multiset.sum_add] at whole
        exact Nat.lt_of_le_of_lt (Nat.le_add_right _ _) whole
      have unlisted : sample.name ∉ names → timesOf seen sample.name = 0 := fun absent =>
        timesOf_eq_zero fun member => absent ((lists.complete sample.name).mpr member)
      rw [List.foldlM_cons, addSample?_tally lists.distinct fitsNow unlisted]
      exact ih (lists.cons sample) fits

-----------------------------------------------------------------------------------------
-- The order of a summary
-----------------------------------------------------------------------------------------

namespace RunTotals

/-- The first entry stands above the second one: it took more time, or as much under a smaller name.
-/
def Precedes (first second : RunTotals) : Prop :=
  second.total.nanos < first.total.nanos
  ∨ first.total.nanos = second.total.nanos ∧ first.name < second.name

theorem comesBefore_iff {first second : RunTotals}
    : first.comesBefore second
      ↔ second.total.nanos < first.total.nanos
        ∨ first.total.nanos = second.total.nanos ∧ first.name ≤ second.name := by
  simp [comesBefore]

theorem comesBefore_trans (first second third : RunTotals) (earlier : first.comesBefore second)
    (later : second.comesBefore third)
    : first.comesBefore third := by
  rw [comesBefore_iff] at *
  rcases earlier with more | ⟨same, le⟩
  · left
    rcases later with further | ⟨alike, _⟩ <;> omega
  · rcases later with further | ⟨alike, further⟩
    · exact .inl (same ▸ further)
    · exact .inr ⟨same.trans alike, String.le_trans le further⟩

theorem comesBefore_total (first second : RunTotals)
    : (first.comesBefore second || second.comesBefore first) = true := by
  rw [Bool.or_eq_true, comesBefore_iff, comesBefore_iff]
  rcases Nat.lt_trichotomy first.total.nanos second.total.nanos with less | same | more
  · exact .inr (.inl less)
  · exact (String.le_total first.name second.name).imp (.inr ⟨same, ·⟩) (.inr ⟨same.symm, ·⟩)
  · exact .inl (.inl more)

/-- Of two entries with different names in the order of a summary, the first stands above. -/
theorem precedes_of_comesBefore {first second : RunTotals} (ordered : first.comesBefore second)
    (apart : first.name ≠ second.name)
    : first.Precedes second :=
  (comesBefore_iff.mp ordered).imp_right fun ⟨same, le⟩ => ⟨same, lt_of_le_of_ne le apart⟩

theorem Precedes.asymm {first second : RunTotals} (above : first.Precedes second)
    : ¬second.Precedes first := by
  rintro (more | ⟨same, greater⟩)
  · rcases above with less | ⟨same, _⟩ <;> omega
  · rcases above with more | ⟨_, less⟩
    · omega
    · exact lt_asymm less greater

end RunTotals

/-- Two tables with the same entries that are each in the order of a summary are the same. -/
theorem eq_of_precedes {first second : List RunTotals} (same : first.Perm second)
    (ordered : first.Pairwise RunTotals.Precedes) (alike : second.Pairwise RunTotals.Precedes)
    : first = second :=
  List.Perm.eq_of_pairwise (fun _ _ _ _ above below => absurd below above.asymm) ordered alike same

/-- Sorting the totals of distinct names puts every entry above all later ones. -/
theorem mergeSort_precedes {names : List String} (distinct : names.Nodup)
    (samples : Multiset Sample)
    : ((names.map (tally samples)).mergeSort RunTotals.comesBefore).Pairwise
        RunTotals.Precedes := by
  have entries : (names.map (tally samples)).Pairwise fun first second =>
      first.name ≠ second.name := List.pairwise_map.mpr distinct
  have apart := (List.mergeSort_perm _ RunTotals.comesBefore).symm.pairwise entries Ne.symm
  have sorted := List.pairwise_mergeSort RunTotals.comesBefore_trans RunTotals.comesBefore_total
    (names.map (tally samples))
  exact (sorted.and apart).imp fun ⟨ordered, apart⟩ =>
    RunTotals.precedes_of_comesBefore ordered apart

-----------------------------------------------------------------------------------------
-- Summaries
-----------------------------------------------------------------------------------------

namespace ListsNames

variable {names : List String} {samples : Multiset Sample}

theorem of_perm (lists : ListsNames names samples) {other : List String}
    (same : other.Perm names)
    : ListsNames other samples where
  distinct := same.nodup_iff.mpr lists.distinct
  complete name := same.mem_iff.trans (lists.complete name)

/-- There is one list of the names of some samples, up to its order. -/
theorem perm (lists : ListsNames names samples) {other : List String}
    (alike : ListsNames other samples)
    : names.Perm other :=
  (List.perm_ext_iff_of_nodup lists.distinct alike.distinct).mpr fun name =>
    (lists.complete name).trans (alike.complete name).symm

/-- Every sample is a run of one of the names. -/
theorem sum_runs (lists : ListsNames names samples)
    : ((names.map (tally samples)).map (·.runs)).sum = samples.card := by
  have runs (name : String) : (tally samples name).runs = (samples.map (·.name)).count name := by
    rw [Multiset.count_map, tally, RunTotals.ofTimes, timesOf, Multiset.card_map]
    simp only [eq_comm]
  have all : names.toFinset = (samples.map (·.name)).toFinset := by
    ext name
    rw [List.mem_toFinset, lists.complete, Multiset.mem_toFinset, Multiset.mem_map]
  rw [List.map_map, ← List.sum_toFinset _ lists.distinct, all]
  simp only [Function.comp_apply, runs]
  rw [Multiset.toFinset_sum_count_eq, Multiset.card_map]

end ListsNames

/-- Samples whose times fit, name by name, have a summary: the totals of each name, in order. -/
theorem summary?_eq_tally {order : List Sample}
    (fits : ∀ name, (timesOf order name).sum < Duration.bound)
    : ∃ names,
        ListsNames names order
        ∧ (names.map (tally order)).Pairwise RunTotals.Precedes
        ∧ summary? order = some (names.map (tally order)) := by
  have empty : ListsNames [] 0 := ⟨List.nodup_nil, by simp⟩
  rw [← zero_add (order : Multiset Sample)] at fits
  obtain ⟨names, lists, folded⟩ := foldlM_tally empty fits
  rw [zero_add] at lists folded
  let above (first second : String) : Bool :=
    (tally order first).comesBefore (tally order second)
  have sorted : (names.mergeSort above).map (tally order)
      = (names.map (tally order)).mergeSort RunTotals.comesBefore :=
    List.map_mergeSort fun _ _ _ _ => rfl
  refine ⟨names.mergeSort above, lists.of_perm (List.mergeSort_perm names above), ?_, ?_⟩
  · rw [sorted]
    exact mergeSort_precedes lists.distinct order
  · rw [List.map_nil] at folded
    rw [summary?, folded, sorted]
    rfl

/-- Samples whose times fit have a summary that does not depend on the order in which they were
taken. It has one entry for each name with the number, the sum and the longest of its times, in
strict order, and its runs are all samples.
-/
theorem summary_anyOrder {samples : Multiset Sample}
    (fits : (samples.map (·.elapsed.nanos)).sum < Duration.bound)
    : ∃ names : List String,
        ListsNames names samples
        ∧ (names.map (tally samples)).Pairwise RunTotals.Precedes
        ∧ ((names.map (tally samples)).map (·.runs)).sum = samples.card
        ∧ ∀ order : List Sample, ↑order = samples
          → summary? order = some (names.map (tally samples)) := by
  have each (name : String) : (timesOf samples name).sum < Duration.bound := by
    rw [← Multiset.filter_add_not (·.name = name) samples, Multiset.map_add, Multiset.sum_add]
      at fits
    exact Nat.lt_of_le_of_lt (Nat.le_add_right _ _) fits
  obtain ⟨taken, rfl⟩ : ∃ taken : List Sample, ↑taken = samples := Quot.exists_rep samples
  obtain ⟨names, lists, ordered, _⟩ := summary?_eq_tally each
  refine ⟨names, lists, ordered, lists.sum_runs, fun order same => ?_⟩
  rw [← same] at each lists ordered ⊢
  obtain ⟨others, alike, sorted, given⟩ := summary?_eq_tally each
  rw [given, eq_of_precedes ((lists.perm alike).map _) ordered sorted]

/-- Two names that took as long in all, one of them in two runs, and one that took less. -/
def tiedSamples : List Sample :=
  [⟨"slow", ⟨5⟩⟩, ⟨"fast", ⟨1⟩⟩, ⟨"even", ⟨12⟩⟩, ⟨"slow", ⟨7⟩⟩]

/-- In every order they give the same summary. The tie is broken by the names. -/
theorem tiedSamples_anyOrder
    : ((tiedSamples : Multiset Sample).map (·.elapsed.nanos)).sum < Duration.bound
      ∧ ∀ order : List Sample, order.Perm tiedSamples
        → summary? order
          = some [⟨"even", 1, ⟨12⟩, ⟨12⟩⟩, ⟨"slow", 2, ⟨12⟩, ⟨7⟩⟩, ⟨"fast", 1, ⟨1⟩, ⟨1⟩⟩] := by
  have fits : ((tiedSamples : Multiset Sample).map (·.elapsed.nanos)).sum < Duration.bound := by
    decide
  refine ⟨fits, fun order same => ?_⟩
  obtain ⟨names, _, _, _, given⟩ := summary_anyOrder fits
  rw [given order (Multiset.coe_eq_coe.mpr same), ← given tiedSamples rfl]
  cbv

end TreeLint
