import SlimStreamer.Proto.StreamTransfer

/-!
# Stopping an HTTP session

`stop` stops the encoder, whose last output is queued, and flushes the session: while a write
is outstanding the flush waits for a millisecond and tries again, and otherwise it drops what
is queued and stops the connection.  Between the completion of a write and the next
`transferTask` no write is outstanding, and there may be a queue.

* `closes_step` — what holds when the connection is stopped;
* `graceful_stop` — in the runs in which no flush finds anything to drop, everything was
  transferred before the connection is stopped;
* `dropped_stop` — a run in which nothing was.
-/

namespace SlimStreamer

namespace StreamingSession

open GuardedExecution

/-- The runs in which no write fails, and no flush drops anything. -/
def Graceful (s : StreamingSession) (e : Stimulus) : Prop := Honest s e ∧ Waits s e

instance (s : StreamingSession) : Decidable (FlushesNothing s) :=
  inferInstanceAs (Decidable (_ ∨ _))

instance (s : StreamingSession) (finish : List (List UInt8)) :
    Decidable (FinishesSilently s finish) :=
  inferInstanceAs (Decidable (_ → _ → ∀ piece ∈ finish, piece = []))

instance (s : StreamingSession) (finish : List (List UInt8)) :
    Decidable (StopsGracefully s finish) :=
  inferInstanceAs (Decidable (_ ∨ _ ∧ FinishesSilently s finish))

instance (s : StreamingSession) (e : Stimulus) : Decidable (Waits s e) :=
  inferInstanceAs (Decidable ((∀ finish ∈ stopOutput s e, StopsGracefully s finish) ∧
    (runsTimer e = true → FlushesNothing s)))

instance (s : StreamingSession) (e : Stimulus) : Decidable (Graceful s e) :=
  inferInstanceAs (Decidable (Honest s e ∧ Waits s e))

/-! ### Who stops the connection -/

theorem onExit_isOpen (releaseBuffer : Bool) (s : StreamingSession) :
    (s.onExit releaseBuffer).connection.isOpen = s.connection.isOpen := by
  cases releaseBuffer with
  | false => rfl
  | true =>
    show s.pop.connection.isOpen = _
    rw [pop]
    split <;> rfl

theorem complete_isOpen (write : Write) (completion : Completion) (s : StreamingSession) :
    (s.complete write completion).connection.isOpen = s.connection.isOpen := by
  rw [complete, onCompletion]
  split
  · exact onExit_isOpen true _
  · split
    · exact onExit_isOpen true _
    · split
      · rfl
      · exact onExit_isOpen true _

theorem transferTask_isOpen (reply : Option Completion) (s : StreamingSession) :
    (s.transferTask reply).connection.isOpen = s.connection.isOpen := by
  rw [transferTask]
  split
  · rfl
  · split
    · rfl
    · cases reply with
      | none => rfl
      | some completion => exact complete_isOpen _ completion _

theorem Enqueued.isOpen {s s' : StreamingSession} {chunks : List TransferDataChunk}
    {octets : List UInt8} (h : Enqueued s s' chunks octets) :
    s'.connection.isOpen = s.connection.isOpen := by
  rw [h.rest]
  rfl

theorem encode_isOpen (data : List UInt8) (output : List (List UInt8)) (s : StreamingSession) :
    (s.encode data output).connection.isOpen = s.connection.isOpen := by
  obtain ⟨chunks, octets, h⟩ := encode_spec data output s
  exact h.isOpen

/-- What holds when a call stops the connection: nothing was being transferred, nothing was
queued, and nothing was queued by the call. -/
structure Closes (s s' : StreamingSession) : Prop where
  idle : s.transferring = false
  empty : s.transferBufferQueue = []
  submitted : s'.submitted = s.submitted

theorem closes_flush {s : StreamingSession} (h : FlushesNothing s) {callback : Callback}
    (ho : s.connection.isOpen = true) (hc : (s.flush callback).connection.isOpen = false) :
    Closes s (s.flush callback) := by
  cases ht : s.transferring with
  | true =>
    rw [flush_of_transferring ht] at hc
    exact absurd (ho.symm.trans hc) (Ne.symm Bool.false_ne_true)
  | false =>
    refine ⟨ht, h.resolve_left (by rw [ht]; exact Bool.false_ne_true), ?_⟩
    rw [flush_of_idle ht]
    rfl

theorem closes_stop {s : StreamingSession} {finish : List (List UInt8)}
    (h : StopsGracefully s finish) (hr : s.running = true) {callback : Callback}
    (ho : s.connection.isOpen = true)
    (hc : (s.stop callback finish).connection.isOpen = false) :
    Closes s (s.stop callback finish) := by
  obtain ⟨chunks, octets, s', henqueued, hstop, hsilent⟩ := encoderStop_spec finish s
  have hflush : s.stop callback finish = (s'.setEncoderRunning false).flush callback := by
    rw [stop, if_pos hr, hstop]
  rw [hflush] at hc ⊢
  have hidle : s'.transferring = s.transferring := by
    rw [henqueued.rest]
    rfl
  have hflushes : FlushesNothing (s'.setEncoderRunning false) := by
    rcases h with ht | ⟨hq, hfinish⟩
    · exact Or.inl (hidle.trans ht)
    · right
      show s'.transferBufferQueue = []
      rw [hsilent hfinish]
      exact hq
  obtain ⟨ht, _, hsubmitted⟩ := closes_flush hflushes
    (show s'.connection.isOpen = true by rw [henqueued.isOpen]; exact ho) hc
  have ht : s.transferring = false := hidle.symm.trans ht
  obtain ⟨hq, hfinish⟩ := h.resolve_left (by rw [ht]; exact Bool.false_ne_true)
  refine ⟨ht, hq, ?_⟩
  rw [hsubmitted]
  show s'.submitted = s.submitted
  rw [hsilent hfinish]

/-- The session whose encoder does not run queues nothing. -/
theorem encode_of_stopped {s : StreamingSession} (h : s.encoder.running = false)
    (data : List UInt8) (output : List (List UInt8)) : s.encode data output = s := by
  rw [encode, h, if_neg Bool.false_ne_true]

theorem stop_encoder {s : StreamingSession} (hr : s.running = true) (callback : Callback)
    (finish : List (List UInt8)) : (s.stop callback finish).encoder.running = false := by
  obtain ⟨chunks, octets, s', _, hstop, _⟩ := encoderStop_spec finish s
  rw [stop, if_pos hr, hstop, flush]
  split <;> rfl

/-- **A call that stops the connection** finds nothing to transfer, and queues nothing. -/
theorem closes_step {s : StreamingSession} {e : Stimulus} (hw : Waits s e)
    (ho : s.connection.isOpen = true) (hc : (step s e).connection.isOpen = false) :
    Closes s (step s e) := by
  have hno : ∀ s' : StreamingSession, s'.connection.isOpen = s.connection.isOpen →
      s'.connection.isOpen ≠ false := by
    intro s' hopen
    rw [hopen, ho]
    exact Ne.symm Bool.false_ne_true
  cases e with
  | encoded data =>
    obtain ⟨chunks, h⟩ := encoded_spec data s
    exact absurd hc (hno _ h.isOpen)
  | consumeChunk chunk output finish =>
    rw [step] at hc ⊢
    rcases consumeChunk_cases chunk output finish s with
      ⟨_, heq | heq⟩ | ⟨hr, hstop, heq | heq⟩
    · rw [heq] at hc
      exact absurd hc (hno s rfl)
    · rw [heq] at hc
      exact absurd hc (hno _ (encode_isOpen chunk.payload output s))
    · rw [heq] at hc ⊢
      exact closes_stop (hw.1 finish hstop) hr ho hc
    · have hencode := encode_of_stopped (stop_encoder hr none finish) chunk.payload output
      rw [heq, encodeChunk, hencode] at hc ⊢
      obtain ⟨hidle, hempty, hsubmitted⟩ := closes_stop (hw.1 finish hstop) hr ho hc
      exact ⟨hidle, hempty, hsubmitted⟩
  | onRequest data finish =>
    rw [step] at hc ⊢
    rcases onRequest_cases data finish s with ⟨_, heq⟩ | ⟨hr, hstop, heq⟩
    · rw [heq] at hc
      exact absurd hc (hno s rfl)
    · rw [heq] at hc ⊢
      exact closes_stop (hw.1 finish hstop) hr ho hc
  | stop callback finish =>
    by_cases hr : s.running = true
    · exact closes_stop (hw.1 finish (if_pos hr)) hr ho hc
    · rw [step, stop, if_neg hr] at hc
      exact absurd hc (hno _ rfl)
  | transferTask reply => exact absurd hc (hno _ (transferTask_isOpen reply s.takeTask))
  | completion completion =>
    rw [step, onWritten] at hc
    split at hc
    · exact absurd hc (hno s rfl)
    · exact absurd hc (hno _ (complete_isOpen _ completion _))
  | flushTimer =>
    rw [step, onFlushTimer] at hc ⊢
    split at hc
    · exact absurd hc (hno s rfl)
    · rename_i callback rest _
      obtain ⟨hidle, hempty, hsubmitted⟩ :=
        closes_flush (s := { s with flushTimers := rest }) (hw.2 rfl) ho hc
      exact ⟨hidle, hempty, hsubmitted⟩
  | postedCallback =>
    rw [step, onPostedCallback] at hc
    split at hc
    · exact absurd hc (hno s rfl)
    · exact absurd hc (hno _ rfl)

/-! ### Runs -/

theorem transferring_run {s : StreamingSession} (hs : Transferring s) (es : List Stimulus)
    (hes : (system.restrict Graceful).Admits s es) : Transferring (system.exec s es) := by
  have hrun := (system.restrict Graceful).exec_invariant Transferring
    (fun s e hs he => transferring_step hs he.1 he.2.1 he.2.2) es s hs hes
  rwa [System.restrict_exec] at hrun

/-- **A graceful stop loses nothing**: in every run in which no write fails and every flush
waits or has nothing to drop, whatever was ever queued, before the stop or by the encoder
during it, was transferred, in order, before the connection is stopped. -/
theorem graceful_stop (clientID : List UInt8) (kind : EncoderKind) (samplingRate : ℕ)
    (mime version : String) (output : List (List UInt8)) (es : List Stimulus) (e : Stimulus)
    (hes : (system.restrict Graceful).Admits
      (started clientID kind samplingRate mime version output) (es ++ [e]))
    (hopen : (system.exec (started clientID kind samplingRate mime version output)
      es).connection.isOpen = true)
    (hclosed : (system.exec (started clientID kind samplingRate mime version output)
      (es ++ [e])).connection.isOpen = false) :
    (system.exec (started clientID kind samplingRate mime version output)
        es).connection.transferred =
      (system.exec (started clientID kind samplingRate mime version output)
        (es ++ [e])).submitted := by
  rw [System.admits_concat, System.restrict_exec] at hes
  rw [System.exec_concat] at hclosed ⊢
  have hs := transferring_run
    (transferring_started clientID kind samplingRate mime version output) es hes.1
  obtain ⟨_, hempty, hsubmitted⟩ := closes_step hes.2.2.2 hopen hclosed
  have hlossless := hs.lossless
  rw [remainder, hempty, List.flatMap_nil, List.append_nil] at hlossless
  show _ = (step _ e).submitted
  rw [hsubmitted, hlossless]

/-- A piece is written in two parts while the session is stopped, and the flush timer runs out
in between and afterwards. -/
def stoppedWhileWriting : List Stimulus :=
  [.encoded [1, 2, 3], .transferTask none, .stop none [], .flushTimer, .completion ⟨false, 3⟩]

theorem graceful_stop_whileWriting :
    (system.exec (started [49] .wave 44100 "audio/x-wave" "1" [])
        stoppedWhileWriting).connection.transferred =
      (system.exec (started [49] .wave 44100 "audio/x-wave" "1" [])
        (stoppedWhileWriting ++ [.flushTimer])).submitted :=
  graceful_stop [49] .wave 44100 "audio/x-wave" "1" [] stoppedWhileWriting .flushTimer
    (by decide +kernel) (by decide +kernel) (by decide +kernel)

/-- Three octets are queued, and the end-of-stream chunk comes before the `transferTask` that
would write them. -/
def stoppedTooEarly : List Stimulus :=
  [.encoded [1, 2, 3], .consumeChunk ⟨true, 44100, 2, 4, [], 0, 0, ⟨0⟩⟩ [] []]

/-- **A stop that drops what is queued**: no write fails, and the connection is stopped before
anything was transferred. -/
theorem dropped_stop :
    (system.restrict Honest).Admits (started [49] .wave 44100 "audio/x-wave" "1" [])
        stoppedTooEarly ∧
      (system.exec (started [49] .wave 44100 "audio/x-wave" "1" []) stoppedTooEarly).submitted =
        [1, 2, 3] ∧
      (system.exec (started [49] .wave 44100 "audio/x-wave" "1" []) stoppedTooEarly).connection =
        ⟨false, [response "1" "audio/x-wave"], [], []⟩ := by
  decide +kernel

end StreamingSession

end SlimStreamer
