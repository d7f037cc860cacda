import SlimStreamer.Proto.ChunkEnqueueing
import SlimStreamer.Proto.GracefulStop

/-!
# The octets a player gets

The wave encoder hands on what it is given, so that what is written to the connection should be
the payloads of the chunks provided to the session, one after the other: those with data that a
running session of their rate reports as consumed.  `Listening` is a session together with these
chunks.

* `step_submitted` — what a call adds to the queue;
* `octets_intact_iff` — exactly when the octets that were transferred, and those that are left,
  are the payloads;
* `octets_complete` — all of them were transferred when the connection is stopped.
-/

namespace SlimStreamer

namespace StreamingSession

open GuardedExecution

/-- The chunk that a call provides: one with data and of the session's rate, for which a running
session reports that it was consumed. -/
def provided (s : StreamingSession) : Stimulus → List Chunk
  | .consumeChunk chunk output finish =>
    if s.running = true ∧ chunk.samplingRate = s.encoder.samplingRate ∧
        chunk.endOfStream = false ∧ (s.consumeChunk chunk output finish).1 = true then [chunk]
    else []
  | _ => []

/-- What the wave encoder queues of a chunk. -/
def taken (s : StreamingSession) (chunk : Chunk) : List UInt8 :=
  if s.encoder.running = true then
    chunk.payload.take (s.bufferPool.getAvailableSize * bufferSize)
  else []

/-- Nothing is queued, and the encoder is the same one. -/
structure Quiet (s s' : StreamingSession) : Prop where
  submitted : s'.submitted = s.submitted
  kind : s'.encoder.kind = s.encoder.kind

theorem Quiet.trans {s s' s'' : StreamingSession} (h : Quiet s s') (h' : Quiet s' s'') :
    Quiet s s'' := ⟨h'.submitted.trans h.submitted, h'.kind.trans h.kind⟩

theorem pop_quiet (s : StreamingSession) : Quiet s s.pop := by
  rw [pop]
  split <;> exact ⟨rfl, rfl⟩

theorem onExit_quiet (releaseBuffer : Bool) (s : StreamingSession) :
    Quiet s (s.onExit releaseBuffer) := by
  cases releaseBuffer with
  | false => exact ⟨rfl, rfl⟩
  | true => exact ⟨s.pop_quiet.submitted, s.pop_quiet.kind⟩

theorem complete_quiet (write : Write) (completion : Completion) (s : StreamingSession) :
    Quiet s (s.complete write completion) := by
  have htransfer : ∀ octets, Quiet s (s.transfer octets) := fun octets => ⟨rfl, rfl⟩
  rw [complete, onCompletion]
  split
  · exact (htransfer _).trans (onExit_quiet true _)
  · split
    · exact (htransfer _).trans (onExit_quiet true _)
    · split
      · exact ⟨rfl, rfl⟩
      · exact (htransfer _).trans (onExit_quiet true _)

theorem transferTask_quiet (reply : Option Completion) (s : StreamingSession) :
    Quiet s (s.transferTask reply) := by
  rw [transferTask]
  split
  · exact ⟨rfl, rfl⟩
  · split
    · exact ⟨rfl, rfl⟩
    · cases reply with
      | none => exact ⟨rfl, rfl⟩
      | some completion =>
        have h := complete_quiet (frontWrite ‹_›) completion (s.setTransferring true)
        exact ⟨h.submitted, h.kind⟩

theorem flush_quiet (callback : Callback) (s : StreamingSession) : Quiet s (s.flush callback) := by
  rw [flush]
  split <;> exact ⟨rfl, rfl⟩

/-- The wave encoder writes nothing when it is stopped. -/
theorem stop_quiet {s : StreamingSession} (hk : s.encoder.kind = .wave) (callback : Callback)
    (finish : List (List UInt8)) : Quiet s (s.stop callback finish) := by
  rw [stop]
  split
  · have hstop : s.encoderStop finish = s.setEncoderRunning false := by rw [encoderStop, hk]
    have h := flush_quiet callback (s.setEncoderRunning false)
    rw [hstop]
    exact ⟨h.submitted, h.kind⟩
  · exact ⟨rfl, rfl⟩

theorem encoded_submitted (data : List UInt8) (s : StreamingSession) :
    (s.encoded data).submitted =
      s.submitted ++ data.take (s.bufferPool.getAvailableSize * bufferSize) ∧
    (s.encoded data).encoder = s.encoder := by
  obtain ⟨chunks, h⟩ := encoded_spec data s
  rw [h.rest]
  exact ⟨rfl, rfl⟩

theorem encodeChunk_submitted {s : StreamingSession} (hk : s.encoder.kind = .wave) (chunk : Chunk)
    (output : List (List UInt8)) :
    (s.encodeChunk chunk output).submitted = s.submitted ++ s.taken chunk ∧
      (s.encodeChunk chunk output).encoder.kind = .wave := by
  rw [encodeChunk, encode, taken]
  split
  · rw [hk]
    obtain ⟨hsubmitted, hencoder⟩ := encoded_submitted chunk.payload s
    exact ⟨hsubmitted, (congrArg Encoder.kind hencoder).trans hk⟩
  · exact ⟨(List.append_nil _).symm, hk⟩

/-- **The branches of `consumeChunk`**, for the wave encoder: a chunk that is provided is
encoded, and otherwise nothing is queued. -/
theorem consumeChunk_submitted {s : StreamingSession} (hk : s.encoder.kind = .wave) (chunk : Chunk)
    (output finish : List (List UInt8)) :
    (s.consumeChunk chunk output finish).2.submitted =
        s.submitted ++ (s.provided (.consumeChunk chunk output finish)).flatMap s.taken ∧
      (s.consumeChunk chunk output finish).2.encoder.kind = .wave := by
  have hstop := stop_quiet hk none finish
  rw [provided, consumeChunk]
  by_cases hr : s.running = true
  · by_cases ha : s.bufferPool.getAvailableSize < 10
    · simp [hr, ha, hk]
    · by_cases hrate : chunk.samplingRate = s.encoder.samplingRate
      · cases hend : chunk.endOfStream with
        | true =>
          have hsilent := encode_of_stopped (stop_encoder hr none finish) chunk.payload output
          simp [hr, ha, hrate, encodeChunk, hsilent, hstop.submitted, hstop.kind, hk]
        | false =>
          have hencode := encodeChunk_submitted hk chunk output
          simp [hr, ha, hrate, hencode.1, hencode.2]
      · simp [hr, ha, hrate, hstop.submitted, hstop.kind, hk]
  · simp [hr, hk]

/-- The encoder calls back on its own. -/
def isEncoded : Stimulus → Bool
  | .encoded _ => true
  | _ => false

/-- **What a call adds to what was queued.** -/
theorem step_submitted {s : StreamingSession} (hk : s.encoder.kind = .wave) {e : Stimulus}
    (he : isEncoded e = false) :
    (step s e).submitted = s.submitted ++ (s.provided e).flatMap s.taken ∧
      (step s e).encoder.kind = .wave := by
  have hquiet : ∀ s', Quiet s s' → s'.submitted = s.submitted ++ [] ∧ s'.encoder.kind = .wave :=
    fun s' h => ⟨h.submitted.trans (List.append_nil _).symm, h.kind.trans hk⟩
  cases e with
  | encoded data => cases he
  | consumeChunk chunk output finish => exact consumeChunk_submitted hk chunk output finish
  | onRequest data finish =>
    refine hquiet _ ?_
    rcases onRequest_cases data finish s with ⟨_, heq⟩ | ⟨_, _, heq⟩
    · rw [step, heq]
      exact ⟨rfl, rfl⟩
    · rw [step, heq]
      exact stop_quiet hk none finish
  | stop callback finish => exact hquiet _ (stop_quiet hk callback finish)
  | transferTask reply =>
    have h := transferTask_quiet reply s.takeTask
    exact hquiet _ ⟨h.submitted, h.kind⟩
  | completion completion =>
    refine hquiet _ ?_
    rw [step, onWritten]
    split
    · exact ⟨rfl, rfl⟩
    · rename_i write rest _
      have h := complete_quiet write completion (s.setWrites rest)
      exact ⟨h.submitted, h.kind⟩
  | flushTimer =>
    refine hquiet _ ?_
    rw [step, onFlushTimer]
    split
    · exact ⟨rfl, rfl⟩
    · rename_i callback rest _
      have h := flush_quiet callback { s with flushTimers := rest }
      exact ⟨h.submitted, h.kind⟩
  | postedCallback =>
    refine hquiet _ ?_
    rw [step, onPostedCallback]
    split <;> exact ⟨rfl, rfl⟩

end StreamingSession

/-- A session, and the chunks provided to it. -/
structure Listening where
  session : StreamingSession
  provided : List Chunk

namespace Listening

open GuardedExecution StreamingSession

/-- A session with the wave encoder that was started. -/
def started (clientID : List UInt8) (samplingRate : ℕ) (mime version : String) : Listening where
  session := StreamingSession.started clientID .wave samplingRate mime version []
  provided := []

/-- The wave encoder only calls back when it is given a chunk, no write fails, and no flush drops
anything. -/
def enabled (r : Listening) (e : Stimulus) : Prop :=
  StreamingSession.enabled r.session e ∧ isEncoded e = false ∧ Graceful r.session e

def step (r : Listening) (e : Stimulus) : Listening where
  session := StreamingSession.step r.session e
  provided := r.provided ++ r.session.provided e

def system : System Listening Stimulus where
  enabled := enabled
  step := step

/-- Each chunk provided is empty, or finds the encoder running and enough free buffers. -/
def Fits (r : Listening) (e : Stimulus) : Prop :=
  ∀ chunk ∈ r.session.provided e, chunk.payload = [] ∨
    r.session.encoder.running = true ∧
      chunk.payload.length ≤ r.session.bufferPool.getAvailableSize * bufferSize

instance (r : Listening) (e : Stimulus) : Decidable (system.enabled r e) :=
  inferInstanceAs (Decidable (_ ∧ isEncoded e = false ∧ Graceful r.session e))

instance (r : Listening) (e : Stimulus) : Decidable (Fits r e) :=
  inferInstanceAs (Decidable (∀ chunk ∈ r.session.provided e, _))

/-- The octets that were transferred, and those that are left. -/
def octets (r : Listening) : List UInt8 :=
  r.session.connection.transferred ++ r.session.remainder

/-- The octets are the payloads of the chunks. -/
def Intact (r : Listening) : Prop := r.octets = r.provided.flatMap Chunk.payload

structure Wave (r : Listening) : Prop where
  transferring : Transferring r.session
  kind : r.session.encoder.kind = .wave

theorem started_wave (clientID : List UInt8) (samplingRate : ℕ) (mime version : String) :
    Wave (started clientID samplingRate mime version) :=
  ⟨transferring_started clientID .wave samplingRate mime version [], rfl⟩

variable {r : Listening} {e : Stimulus}

theorem step_wave (hr : r.Wave) (he : r.enabled e) : (r.step e).Wave where
  transferring := transferring_step hr.transferring he.1 he.2.2.1 he.2.2.2
  kind := (step_submitted hr.kind he.2.1).2

/-- What a step adds. -/
theorem step_octets (hr : r.Wave) (he : r.enabled e) :
    (r.step e).octets = r.octets ++ (r.session.provided e).flatMap r.session.taken := by
  rw [octets, ← (step_wave hr he).transferring.lossless, octets, ← hr.transferring.lossless]
  exact (step_submitted hr.kind he.2.1).1

theorem taken_eq_iff (s : StreamingSession) (chunk : Chunk) :
    s.taken chunk = chunk.payload ↔ chunk.payload = [] ∨
      s.encoder.running = true ∧
        chunk.payload.length ≤ s.bufferPool.getAvailableSize * bufferSize := by
  rw [taken]
  split
  · rename_i hrunning
    rw [List.take_eq_self_iff, and_iff_right hrunning]
    refine ⟨Or.inr, ?_⟩
    rintro (hnil | hle)
    · rw [hnil]
      exact Nat.zero_le _
    · exact hle
  · rename_i hrunning
    rw [iff_false_intro hrunning, false_and, or_false]
    exact eq_comm

/-- A call provides one chunk at most. -/
theorem provided_cases (s : StreamingSession) (e : Stimulus) :
    s.provided e = [] ∨ ∃ chunk, s.provided e = [chunk] := by
  cases e with
  | consumeChunk chunk output finish =>
    rw [StreamingSession.provided]
    split
    · exact Or.inr ⟨chunk, rfl⟩
    · exact Or.inl rfl
  | _ => exact Or.inl rfl

/-- **A step keeps the octets intact exactly when the chunk fits.** -/
theorem step_intact_iff (hr : r.Wave) (hi : r.Intact) (he : r.enabled e) :
    (r.step e).Intact ↔ r.Fits e := by
  have hprovided : (r.step e).provided = r.provided ++ r.session.provided e := rfl
  rw [Intact, step_octets hr he, hprovided, List.flatMap_append, ← hi, List.append_cancel_left_eq]
  rcases provided_cases r.session e with hnone | ⟨chunk, hchunk⟩
  · rw [Fits, hnone]
    exact iff_of_true rfl (List.forall_mem_nil _)
  · rw [Fits, hchunk, List.forall_mem_singleton, ← taken_eq_iff]
    simp only [List.flatMap_cons, List.flatMap_nil, List.append_nil]

/-- **Exactly when a player gets what was played**: in every run of a wave session in which no
write fails and no flush drops anything, what was transferred and what is left to transfer are
always the payloads of the chunks provided to the session, in order and completely, if and only
if each of these chunks was empty, or found the encoder running and enough free buffers. -/
theorem octets_intact_iff (clientID : List UInt8) (samplingRate : ℕ) (mime version : String)
    {es : List Stimulus}
    (hes : system.Admits (started clientID samplingRate mime version) es) :
    system.Always Intact (started clientID samplingRate mime version) es ↔
      (system.restrict Fits).Admits (started clientID samplingRate mime version) es :=
  system.always_iff_admits_restrict (fun r => r.Wave ∧ r.Intact) Intact Fits (fun _ h => h.2)
    (fun _ _ h he hfits => ⟨step_wave h.1 he, (step_intact_iff h.1 h.2 he).mpr hfits⟩)
    (fun _ _ h he hnot hintact => hnot ((step_intact_iff h.1 h.2 he).mp hintact)) es _
    ⟨started_wave clientID samplingRate mime version, rfl⟩ hes

/-- Two chunks are played, the first one is written in two parts, and the end of the stream comes
while the second one is being written. -/
def twoChunks : List Stimulus :=
  [.consumeChunk ⟨false, 44100, 1, 1, [1, 2, 3], 3, 3, ⟨0⟩⟩ [] [], .transferTask none,
    .completion ⟨false, 2⟩, .transferTask none, .completion ⟨false, 1⟩,
    .consumeChunk ⟨false, 44100, 1, 1, [4, 9], 1, 4, ⟨0⟩⟩ [] [], .transferTask none,
    .consumeChunk ⟨true, 44100, 1, 1, [], 0, 4, ⟨0⟩⟩ [] [], .completion ⟨false, 1⟩]

theorem octets_intact_iff_twoChunks :
    system.Always Intact (started [49] 44100 "audio/x-wave" "1") twoChunks ↔
      (system.restrict Fits).Admits (started [49] 44100 "audio/x-wave" "1") twoChunks :=
  octets_intact_iff [49] 44100 "audio/x-wave" "1" (by decide +kernel)

theorem exec_intact {es : List Stimulus} (hr : r.Wave) (hi : r.Intact)
    (hes : (system.restrict Fits).Admits r es) :
    (system.exec r es).Wave ∧ (system.exec r es).Intact := by
  have hrun := (system.restrict Fits).exec_invariant (fun r => r.Wave ∧ r.Intact)
    (fun _ _ h he => ⟨step_wave h.1 he.1, (step_intact_iff h.1 h.2 he.1).mpr he.2⟩) es r ⟨hr, hi⟩
    hes
  rwa [System.restrict_exec] at hrun

/-- **A player gets all of it**: in such a run, what was transferred before the connection is
stopped are the payloads of all chunks provided to the session. -/
theorem octets_complete (clientID : List UInt8) (samplingRate : ℕ) (mime version : String)
    {es : List Stimulus} {e : Stimulus}
    (hes : (system.restrict Fits).Admits (started clientID samplingRate mime version) (es ++ [e]))
    (hopen : (system.exec (started clientID samplingRate mime version)
      es).session.connection.isOpen = true)
    (hclosed : (system.exec (started clientID samplingRate mime version)
      (es ++ [e])).session.connection.isOpen = false) :
    (system.exec (started clientID samplingRate mime version)
        es).session.connection.transferred =
      (system.exec (started clientID samplingRate mime version)
        (es ++ [e])).provided.flatMap Chunk.payload := by
  have hstarted := started_wave clientID samplingRate mime version
  obtain ⟨hwave', hintact'⟩ := exec_intact hstarted rfl hes
  rw [System.admits_concat, System.restrict_exec] at hes
  obtain ⟨hwave, -⟩ := exec_intact hstarted rfl hes.1
  rw [System.exec_concat] at hclosed hwave' hintact' ⊢
  -- nothing is left to transfer, and nothing is queued by the call
  obtain ⟨-, hempty, hsubmitted⟩ := closes_step hes.2.1.2.2.2 hopen hclosed
  have hlossless := hwave.transferring.lossless
  rw [remainder, hempty, List.flatMap_nil, List.append_nil] at hlossless
  rw [← hintact', octets, ← hwave'.transferring.lossless, ← hlossless]
  exact hsubmitted.symm

theorem octets_complete_twoChunks :
    (system.exec (started [49] 44100 "audio/x-wave" "1")
        twoChunks).session.connection.transferred =
      (system.exec (started [49] 44100 "audio/x-wave" "1")
        (twoChunks ++ [.flushTimer])).provided.flatMap Chunk.payload :=
  octets_complete [49] 44100 "audio/x-wave" "1" (by decide +kernel) (by decide +kernel)
    (by decide +kernel)

end Listening

end SlimStreamer
