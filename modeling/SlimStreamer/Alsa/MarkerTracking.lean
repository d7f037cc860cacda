import SlimStreamer.Alsa.Capture

/-!
# Markers and a full queue

The flag `producing` follows the markers in two passes: the first one up to the first frame it
selects, the second one over the rest.  The second pass is part of the mover that `enqueue` calls,
and a full queue calls no mover.  The markers behind the first selected frame are lost then, and the
flag stays as it was there.

* `onFrames_producing` — the flag after a read, whether or not the queue is full;
* `Tracks`, `step_producing_iff` — when a step leaves the flag where the automaton is;
* `overflow_tracking_iff` — the runs in which it is there all the time.
-/

namespace SlimStreamer

namespace Source

open Alsa GuardedExecution

variable {p : Parameters} {s : Source}

/-- A full queue, which has one slot that is not used. -/
def Full (s : Source) : Prop := s.queue.contents.length + 1 = s.queue.size

instance (s : Source) : Decidable s.Full :=
  inferInstanceAs (Decidable (s.queue.contents.length + 1 = s.queue.size))

theorem enqueue_of_full (mover : Chunk → Capturing → Bool × Chunk × Capturing) (h : s.Full) :
    (s.enqueue mover).capturing = Source.overflow s.capturing := by
  rw [enqueue, s.queue.enqueue_full mover Source.overflow s.capturing h]

theorem enqueue_of_not_full (mover : Chunk → Capturing → Bool × Chunk × Capturing)
    (h : ¬ s.Full) (hs : s.Allocated) :
    ∃ chunk, chunk.buffer.length = s.parameters.bufferSize ∧
      (s.enqueue mover).capturing = (mover chunk s.capturing).2.2 := by
  obtain ⟨i, hcapturing, _⟩ := s.queue.enqueue_contents mover Source.overflow s.capturing h
  exact ⟨s.queue.slots i, hs i, hcapturing⟩

/-- An end-of-stream chunk has nothing to do with the flag. -/
theorem enqueue_endOfStream_producing (hs : s.Allocated) (timestamp : Timestamp) :
    (s.enqueue (moveEndOfStream s.parameters timestamp)).capturing.producing =
      s.capturing.producing := by
  by_cases hfull : s.Full
  · rw [enqueue_of_full _ hfull]
    rfl
  · obtain ⟨chunk, _, hcapturing⟩ := enqueue_of_not_full
      (moveEndOfStream s.parameters timestamp) hfull hs
    rw [hcapturing]
    rfl

/-- **The flag after a read.**  It is where the automaton is after all frames, unless the queue is
full and a frame is selected; then it is where the automaton is at the first of these. -/
theorem onFrames_producing (hp : s.parameters.Valid) (hs : s.Allocated) {srcBuffer : List UInt8}
    {frames : List (List UInt8)} (h : s.parameters.Holds srcBuffer 0 frames)
    (hmax : frames.length ≤ s.parameters.framesPerChunk) (timestamp : Timestamp) :
    (s.onFrames timestamp srcBuffer frames.length).capturing.producing =
      if s.Full ∧ s.parameters.markers.run s.capturing.producing frames ≠ [] then true
      else s.parameters.markers.state s.capturing.producing frames := by
  rw [onFrames]
  simp only [setProducing_parameters]
  cases hscan : (containsData s.parameters srcBuffer frames.length s.capturing.producing).1 with
  | none =>
    obtain ⟨hstate, hrun⟩ := containsData_none hp h hscan
    have hkept : ¬ (s.Full ∧ s.parameters.markers.run s.capturing.producing frames ≠ []) :=
      fun hboth => hboth.2 hrun
    rw [hstate, if_neg hkept]
    dsimp only
    split
    · exact enqueue_endOfStream_producing
        (s := s.setProducing (s.parameters.markers.state s.capturing.producing frames)) hs timestamp
    · rfl
  | some offset =>
    have hrun := (copyData_spec hp h hscan []).2
    have hflag : (containsData s.parameters srcBuffer frames.length s.capturing.producing).2 =
        true := by
      rw [containsData] at hscan ⊢
      obtain ⟨hnone, _⟩ | ⟨_, _, _, _, hfound, _⟩ := containsDataFrom_spec hp h s.capturing.producing
      · rw [hnone] at hscan
        cases hscan
      · rw [hfound]
    dsimp only
    by_cases hfull : s.Full
    · rw [if_pos ⟨hfull, hrun⟩, hflag, enqueue_of_full (s := s.setProducing true) _ hfull]
      rfl
    · have hkept : ¬ (s.Full ∧ s.parameters.markers.run s.capturing.producing frames ≠ []) :=
        fun hboth => hfull hboth.1
      rw [if_neg hkept]
      obtain ⟨chunk, hchunk, hcapturing⟩ := enqueue_of_not_full
        (s := s.setProducing
          (containsData s.parameters srcBuffer frames.length s.capturing.producing).2)
        (moveData s.parameters timestamp srcBuffer frames.length offset) hfull hs
      rw [hcapturing]
      exact (moveData_holds hp h hmax hscan rfl timestamp hchunk).2

/-! ### Steps -/

/-- The queue has room for the frames of a read, or none is selected, or the markers end inside a
stream. -/
def Tracks (s : Source) : Stimulus → Prop
  | .read frames _ _ =>
    ¬ s.Full ∨ s.parameters.markers.run s.capturing.producing frames = [] ∨
      s.parameters.markers.state s.capturing.producing frames = true
  | .produceChunk _ => True

instance (s : Source) : (e : Stimulus) → Decidable (s.Tracks e)
  | .read _ _ _ => inferInstanceAs (Decidable (_ ∨ _ ∨ _))
  | .produceChunk _ => instDecidableTrue

/-- **A step leaves the flag where the automaton is**, or it does not, by this condition. -/
theorem step_producing_iff (hp : s.parameters.Valid) (hs : s.Allocated) {e : Stimulus}
    (he : s.enabled e) :
    (s.step e).capturing.producing =
        s.parameters.markers.state s.capturing.producing (framesRead [e]) ↔
      s.Tracks e := by
  cases e with
  | read frames stale timestamp =>
    obtain ⟨hne, hmax, hsizes⟩ := he
    have hread : framesRead [.read frames stale timestamp] = frames := List.append_nil frames
    rw [step_read hne, onFrames_producing hp hs (holds_flatten hsizes stale) hmax, hread, Tracks]
    split
    · rename_i hlost
      constructor
      · intro htrue
        exact Or.inr (Or.inr htrue.symm)
      · rintro (hroom | hnone | htrue)
        · exact absurd hlost.1 hroom
        · exact absurd hnone hlost.2
        · exact htrue.symm
    · rename_i hkept
      refine iff_of_true rfl ?_
      by_cases hfull : s.Full
      · exact Or.inr (Or.inl (not_not.mp fun hrun => hkept ⟨hfull, hrun⟩))
      · exact Or.inl hfull
  | produceChunk consumer => exact iff_of_true rfl trivial

/-! ### Runs -/

theorem framesRead_concat (es : List Stimulus) (e : Stimulus) :
    framesRead (es ++ [e]) = framesRead es ++ framesRead [e] := List.flatMap_append

/-- **The flag is where the automaton is after every step** of a run, if and only if all its steps
track it. -/
theorem run_producing_iff (hp : p.Valid) (now : Timestamp) {es : List Stimulus}
    (hes : system.Admits (create p now) es) :
    (∀ before, before <+: es → (system.exec (create p now) before).capturing.producing =
        p.markers.state false (framesRead before)) ↔
      (system.restrict Tracks).Admits (create p now) es := by
  induction es using List.reverseRecOn with
  | nil =>
    refine iff_of_true ?_ trivial
    intro before hbefore
    rw [List.prefix_nil.mp hbefore]
    rfl
  | append_singleton es e ih =>
    rw [System.admits_concat] at hes
    obtain ⟨hparameters, hcaptures⟩ := run_captures hp now hes.1
    have hstep := step_producing_iff (hparameters.symm ▸ hp) hcaptures.allocated hes.2
    rw [hparameters] at hstep
    rw [System.admits_concat, System.restrict_exec, ← ih hes.1]
    have hlast : (∀ before, before <+: es → (system.exec (create p now) before).capturing.producing =
          p.markers.state false (framesRead before)) →
        ((system.exec (create p now) (es ++ [e])).capturing.producing =
          p.markers.state false (framesRead (es ++ [e])) ↔
        (system.restrict Tracks).enabled (system.exec (create p now) es) e) := by
      intro hall
      rw [System.exec_concat, framesRead_concat, Mealy.Transducer.state_append,
        ← hall es (List.prefix_refl es)]
      exact ⟨fun h => ⟨hes.2, hstep.mp h⟩, fun h => hstep.mpr h.2⟩
    constructor
    · intro hall
      have hbefore : ∀ before, before <+: es → _ :=
        fun before h => hall before (h.trans (List.prefix_append es [e]))
      exact ⟨hbefore, (hlast hbefore).mp (hall _ (List.prefix_refl _))⟩
    · rintro ⟨hall, henabled⟩ before hbefore
      rcases List.prefix_concat_iff.mp hbefore with rfl | hbefore
      · exact (hlast hall).mpr henabled
      · exact hall before hbefore

/-- **Tracking the markers through overflows.**  In any state, after an iteration the flag is where
the automaton is after all frames of the buffer if and only if the step tracks it.  Over a run: if and
only if all steps do; and then the frames selected from any later buffer are those selected after a
run with the same frames in which the queue was never full. -/
theorem overflow_tracking_iff (hp : p.Valid) :
    (∀ s : Source, s.parameters = p → s.Allocated → ∀ e, s.enabled e →
      ((s.step e).capturing.producing =
        p.markers.state s.capturing.producing (framesRead [e]) ↔ s.Tracks e)) ∧
    ∀ now es, system.Admits (create p now) es →
      ((∀ before, before <+: es → (system.exec (create p now) before).capturing.producing =
          p.markers.state false (framesRead before)) ↔
        (system.restrict Tracks).Admits (create p now) es) ∧
      ((system.restrict Tracks).Admits (create p now) es →
        ∀ roomy, system.Admits (create p now) roomy → framesRead roomy = framesRead es →
          (system.exec (create p now) roomy).capturing.overflows = 0 →
          ∀ later, p.markers.run (system.exec (create p now) es).capturing.producing later =
            p.markers.run (system.exec (create p now) roomy).capturing.producing later) := by
  refine ⟨?_, ?_⟩
  · rintro s rfl hs e he
    exact step_producing_iff hp hs he
  · intro now es hes
    have htracked := run_producing_iff hp now hes
    refine ⟨htracked, ?_⟩
    intro hall roomy hroomy hframes hfull later
    obtain ⟨hparameters, hcaptures⟩ := run_captures hp now hroomy
    have hflag := (hcaptures.perfect hfull).1
    rw [hparameters, hframes] at hflag
    rw [htracked.mpr hall es (List.prefix_refl es), hflag]

/-- Three reads of a stream fill the queue of `narrow`; the fourth one ends the stream. -/
def fullAtTheEnd : List Stimulus :=
  [.read [[0, 1], [7, 3]] [] ⟨0⟩, .read [[8, 3]] [] ⟨1⟩, .read [[9, 3]] [] ⟨2⟩,
    .read [[10, 3], [0, 2]] [] ⟨3⟩]

theorem narrow_valid : narrow.Valid := ⟨by decide, by decide⟩

theorem overflow_tracking_narrow :
    (∀ s : Source, s.parameters = narrow → s.Allocated → ∀ e, s.enabled e →
      ((s.step e).capturing.producing =
        narrow.markers.state s.capturing.producing (framesRead [e]) ↔ s.Tracks e)) ∧
    ∀ now es, system.Admits (create narrow now) es →
      ((∀ before, before <+: es → (system.exec (create narrow now) before).capturing.producing =
          narrow.markers.state false (framesRead before)) ↔
        (system.restrict Tracks).Admits (create narrow now) es) ∧
      ((system.restrict Tracks).Admits (create narrow now) es →
        ∀ roomy, system.Admits (create narrow now) roomy → framesRead roomy = framesRead es →
          (system.exec (create narrow now) roomy).capturing.overflows = 0 →
          ∀ later, narrow.markers.run (system.exec (create narrow now) es).capturing.producing later =
            narrow.markers.run (system.exec (create narrow now) roomy).capturing.producing later) :=
  overflow_tracking_iff narrow_valid

/-- **The end of the stream is lost**: the flag stays set, and a frame that belongs to no stream is
selected from the next buffer. -/
theorem fullAtTheEnd_lost :
    system.Admits (create narrow ⟨0⟩) fullAtTheEnd ∧
      (system.exec (create narrow ⟨0⟩) fullAtTheEnd).capturing.producing = true ∧
      narrow.markers.state false (framesRead fullAtTheEnd) = false ∧
      narrow.markers.run (system.exec (create narrow ⟨0⟩) fullAtTheEnd).capturing.producing
        [[11, 3]] = [[11]] ∧
      narrow.markers.run (narrow.markers.state false (framesRead fullAtTheEnd)) [[11, 3]] = [] := by
  decide +kernel

end Source

end SlimStreamer
