import SlimStreamer.Lib.Median
import SlimStreamer.Proto.LatencyMeasurement

/-!
# The mean probe

The probe that a round of measurements is evaluated with: the middle one of the samples, which are
sorted by latency only when there are at least three of them.  With fewer, either order does.

* `meanSamples_eq` — the samples as the loop of `getLatencyMeanProbe` collects them;
* `getLatencyMeanProbe_isMedian` — the probe taken is a median of the samples;
* `getLatencyMeanProbe_median` — the same over the indices of the vector.
-/

namespace SlimStreamer

open ListMedian

namespace Probes

/-- The elements from an index on, one after the other. -/
theorem drop_storage (p : Probes) (n : ℕ) :
    p.storage.drop n = (List.range' n (p.capacity - n)).map p.get := by
  apply List.ext_getElem
  · simp [capacity]
  · intro i hi _
    have hi' : n + i < p.storage.length := by
      rw [List.length_drop] at hi
      omega
    simp [get, List.getElem?_eq_getElem hi']

end Probes

namespace CommandSession

theorem meanSamples_eq (s : CommandSession) :
    s.meanSamples =
      ((List.range' 3 (s.probes.capacity - 3)).map s.probes.get).filter fun p => p.latency ≠ 0 := by
  rw [meanSamples, Probes.drop_storage]

/-- **The mean probe is a median of the samples**, if there are any. -/
theorem getLatencyMeanProbe_isMedian (context : Context) {s : CommandSession}
    (h : s.meanSamples ≠ []) :
    IsMedian ProbeValues.latency s.meanSamples (s.getLatencyMeanProbe context) := by
  have hlength : 0 < s.meanSamples.length := List.length_pos_of_ne_nil h
  by_cases hsort : 3 ≤ s.meanSamples.length
  · have hperm := context.sorting.perm s.meanSamples
    have hmiddle : (context.sorting.sort s.meanSamples).length / 2 <
        (context.sorting.sort s.meanSamples).length := by
      rw [hperm.length_eq]
      omega
    rw [getLatencyMeanProbe, if_pos hsort, List.getD_eq_getElem?_getD,
      List.getElem?_eq_getElem hmiddle, Option.getD_some]
    exact (isMedian_of_sorted (context.sorting.sorted s.meanSamples) hmiddle).of_perm hperm
  · exact isMedian_of_length_le_two (getLatencyMeanProbe_mem context h) (by omega)

/-- **The median of the probes.**  Whatever the probes hold, if one from the fourth on has a latency,
the mean probe is one of these, with at least half of their latencies on either side of its own. -/
theorem getLatencyMeanProbe_median (context : Context) (s : CommandSession)
    (hfull : s.probes.size = s.probes.capacity)
    (hsample : ∃ i, 3 ≤ i ∧ i < s.probes.size ∧ (s.probes.get i).latency ≠ 0) :
    let samples := ((List.range' 3 (s.probes.size - 3)).map s.probes.get).filter
      fun p => p.latency ≠ 0
    let mean := s.getLatencyMeanProbe context
    (∃ i, 3 ≤ i ∧ i < s.probes.size ∧ (s.probes.get i).latency ≠ 0 ∧ mean = s.probes.get i) ∧
      samples.length ≤ 2 * samples.countP (fun p => p.latency ≤ mean.latency) ∧
      samples.length ≤ 2 * samples.countP (fun p => mean.latency ≤ p.latency) := by
  intro samples mean
  have hsamples : s.meanSamples = samples := by rw [meanSamples_eq, ← hfull]
  have hmem : ∀ v, v ∈ samples ↔
      ∃ i, 3 ≤ i ∧ i < s.probes.size ∧ (s.probes.get i).latency ≠ 0 ∧ v = s.probes.get i := by
    intro v
    simp only [samples, List.mem_filter, List.mem_map, List.mem_range'_1, decide_eq_true_eq]
    constructor
    · rintro ⟨⟨i, hi, rfl⟩, hlatency⟩
      exact ⟨i, hi.1, by omega, hlatency, rfl⟩
    · rintro ⟨i, hlow, hhigh, hlatency, rfl⟩
      exact ⟨⟨i, ⟨hlow, by omega⟩, rfl⟩, hlatency⟩
  obtain ⟨i, hlow, hhigh, hlatency⟩ := hsample
  have hne : s.meanSamples ≠ [] := by
    rw [hsamples]
    exact List.ne_nil_of_mem ((hmem _).mpr ⟨i, hlow, hhigh, hlatency, rfl⟩)
  have hmedian := getLatencyMeanProbe_isMedian context hne
  rw [hsamples] at hmedian
  exact ⟨(hmem _).mp hmedian.mem, hmedian.below, hmedian.above⟩

/-- A session after seven answers with these latencies. -/
def measured : CommandSession :=
  { create 0 [] 9000 .FLAC none ⟨0⟩ with
    probes :=
      { storage := [5, 5, 5, 30, 0, -10, 20].map fun latency => ⟨⟨0⟩, latency, ⟨0⟩, 0⟩
        size := 7
        size_bound := le_rfl } }

theorem measured_median :
    let samples := ((List.range' 3 4).map measured.probes.get).filter fun p => p.latency ≠ 0
    let mean := measured.getLatencyMeanProbe ⟨⟨44100, false, ⟨0⟩⟩, fun _ => ⟨0⟩, ProbeSort.merge⟩
    (∃ i, 3 ≤ i ∧ i < 7 ∧ (measured.probes.get i).latency ≠ 0 ∧ mean = measured.probes.get i) ∧
      samples.length ≤ 2 * samples.countP (fun p => p.latency ≤ mean.latency) ∧
      samples.length ≤ 2 * samples.countP (fun p => mean.latency ≤ p.latency) :=
  getLatencyMeanProbe_median _ measured rfl ⟨3, by decide, by decide, by decide⟩

end CommandSession

end SlimStreamer
