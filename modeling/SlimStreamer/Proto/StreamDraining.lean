import SlimStreamer.Proto.StreamerSystem

/-!
# The end of a stream

A stream ends when the Streamer leaves Buffering or Playing for Draining, and the next one can
start when it takes the Flushed event from there.  The guard of that event only asks that no
SlimProto session is draining; it does not see a session that never got as far, because it
refused the end-of-stream chunk, which is offered once, or because it was still preparing.

* `sessionLeaves` — which sessions are out of the stream once it ends;
* `drained_step` — if all of them are, the Streamer outside a stream has no session in one;
* `no_session_left_behind` — the runs all whose streams end so;
* `session_left_behind` — a run in which a session refuses the end-of-stream chunk.
-/

namespace SlimStreamer

namespace Streamer

open GuardedExecution

/-! ### The condition -/

/-- Whether a session is out of the stream once a chunk made the Streamer drain: the chunk is
offered to it and makes it drain, or it is not offered and the session was out before. -/
def sessionLeaves (answers : ℕ → Bool) (chunk : Chunk) (t : Streamer) (s : CommandSession) :
    Bool :=
  if t.samplingRate = chunk.samplingRate ∧ t.due s.address = true then
    s.leavesStream (answers s.address)
  else !s.isInStream

/-- If the chunk ends the stream, all sessions leave it. -/
def EndsCleanly (t : Streamer) : Stimulus → Prop
  | .chunk environment answers chunk =>
    let before := (t.beforeStreaming environment chunk).2
    before.isStreaming = true →
      before.samplingRate ≠ chunk.samplingRate ∨ chunk.endOfStream = true →
        ∀ entry ∈ before.commandSessions, before.sessionLeaves answers chunk entry.2 = true
  | _ => True

instance (t : Streamer) : DecidablePred (EndsCleanly t)
  | .chunk environment answers chunk =>
    inferInstanceAs (Decidable ((t.beforeStreaming environment chunk).2.isStreaming = true →
      (t.beforeStreaming environment chunk).2.samplingRate ≠ chunk.samplingRate ∨
        chunk.endOfStream = true →
      ∀ entry ∈ (t.beforeStreaming environment chunk).2.commandSessions,
        (t.beforeStreaming environment chunk).2.sessionLeaves answers chunk entry.2 = true))
  | .start _ => isTrue trivial
  | .stop _ => isTrue trivial
  | .slimProtoOpen _ _ => isTrue trivial
  | .slimProtoClose _ => isTrue trivial
  | .slimProtoData _ _ _ _ => isTrue trivial
  | .pingTimer _ _ => isTrue trivial
  | .pingHandler _ _ => isTrue trivial
  | .httpData _ _ => isTrue trivial
  | .httpClose _ => isTrue trivial
  | .httpRemoved _ => isTrue trivial

/-! ### The invariant -/

/-- Outside a stream, no session is in one. -/
def Drained (t : Streamer) : Prop :=
  t.state = .started ∨ t.state = .draining ∨ t.state = .stopped →
    ∀ entry ∈ t.commandSessions, entry.2.isInStream = false

theorem drained_of_isStreaming {t : Streamer} (h : t.state = .buffering ∨ t.state = .playing) :
    Drained t := by
  intro hs
  rcases h with h | h <;> rw [h] at hs <;> rcases hs with hs | hs | hs <;> cases hs

theorem drained_of_preparing {t : Streamer} (h : t.state = .preparing) : Drained t := by
  intro hs
  rw [h] at hs
  rcases hs with hs | hs | hs <;> cases hs

/-- Calls for one session. -/
theorem Drained.sessionsStep {t t' : Streamer} (ht : Drained t) (h : SessionsStep t t') :
    Drained t' := by
  obtain ⟨f, hsessions, hf⟩ := h.sessions
  intro hs entry hentry
  rw [h.state] at hs
  rw [hsessions] at hentry
  obtain ⟨e, he, rfl⟩ := List.mem_map.mp hentry
  rw [(hf e).2.2]
  exact ht hs e he

section Chunk

variable (environment : Environment) (answers : ℕ → Bool) (chunk : Chunk)

theorem drained_beforeStreaming {t : Streamer} (ht : Drained t) :
    Drained (t.beforeStreaming environment chunk).2 := by
  have hstarted : Drained (consumeStarted environment chunk (false, t)).2 := by
    by_cases h : t.state = .started
    · by_cases hrate : chunk.samplingRate = 0
      · rw [consumeStarted, if_pos h, if_neg (not_not.mpr hrate)]
        exact ht
      · rw [consumeStarted_of_started environment chunk (r := (false, t)) h hrate]
        exact drained_of_preparing rfl
    · rw [consumeStarted, if_neg h]
      exact ht
  rw [beforeStreaming, consumePreparing]
  split
  · rename_i h
    rw [processEvent_buffer environment h]
    split
    · exact drained_of_isStreaming (Or.inl rfl)
    · exact hstarted
  · exact hstarted

/-- The sessions after the round that offered them the end of the stream. -/
theorem streamChunk_leaves {t : Streamer} (ht : Registered t) (hend : chunk.endOfStream = true)
    (hrate : t.samplingRate = chunk.samplingRate)
    (hleaves : ∀ entry ∈ t.commandSessions, t.sessionLeaves answers chunk entry.2 = true) :
    ∀ entry ∈ (t.streamChunk environment answers chunk).2.commandSessions,
      entry.2.isInStream = false := by
  intro entry hentry
  rw [streamChunk_commandSessions environment answers chunk ht] at hentry
  obtain ⟨e, he, rfl⟩ := List.mem_map.mp hentry
  have hleave := hleaves e he
  rw [sessionLeaves, due] at hleave
  rw [offered]
  by_cases hdue : isDue t.streamedChunks t.sessionToChunkSequenceMap e.2.address = true
  · rw [if_pos ⟨hrate, hdue⟩] at hleave
    rw [if_pos hdue]
    exact CommandSession.consumeChunk_leavesStream (t.context environment) hend hleave
  · rw [if_neg fun h => hdue h.2, Bool.not_eq_true'] at hleave
    rw [if_neg hdue]
    exact hleave

theorem drained_consumeStreaming {r : Bool × Streamer} (hr : Registered r.2) (hd : Drained r.2)
    (hleaves : r.2.isStreaming = true →
      r.2.samplingRate ≠ chunk.samplingRate ∨ chunk.endOfStream = true →
        ∀ entry ∈ r.2.commandSessions, r.2.sessionLeaves answers chunk entry.2 = true) :
    Drained (consumeStreaming environment answers chunk r).2 := by
  cases h : r.2.isStreaming with
  | false =>
    rw [consumeStreaming_of_not environment answers chunk h]
    exact hd
  | true =>
    have hleaves := hleaves h
    have hplay := tryPlaying_stream environment r.2
    have hstate := tryPlaying_state environment h
    have hregistered := hr.of_same hplay.registry
    rw [consumeStreaming_eq environment answers chunk h]
    dsimp only
    by_cases hrate : (r.2.tryPlaying environment).samplingRate = chunk.samplingRate
    · rw [if_pos hrate]
      cases hend : chunk.endOfStream with
      | false =>
        rw [← streamChunk_state environment answers chunk] at hstate
        exact drained_of_isStreaming hstate
      | true =>
        intro _
        refine streamChunk_leaves environment answers chunk hregistered hend hrate ?_
        intro entry hentry
        rw [hplay.commandSessions] at hentry
        have hleave := hleaves (Or.inr hend) entry hentry
        rw [sessionLeaves, due, hplay.samplingRate, hplay.streamedChunks, hplay.entries]
        exact hleave
    · rw [if_neg hrate]
      intro _ entry hentry
      rw [hplay.samplingRate] at hrate
      have hentry : entry ∈ r.2.commandSessions := hplay.commandSessions ▸ hentry
      have hleave := hleaves (Or.inl hrate) entry hentry
      rwa [sessionLeaves, if_neg (fun h => hrate h.1), Bool.not_eq_true'] at hleave

theorem drained_consumeDraining {r : Bool × Streamer} (hd : Drained r.2) :
    Drained (consumeDraining environment r).2 := by
  rw [consumeDraining]
  split
  · rename_i h
    rw [processEvent_flushed environment h]
    split
    · exact hd
    · intro _
      exact hd (Or.inr (Or.inl h))
  · exact hd

theorem drained_consumeChunk {t : Streamer} (ht : Registered t) (hd : Drained t)
    (hclean : EndsCleanly t (.chunk environment answers chunk)) :
    Drained (t.consumeChunk environment answers chunk).2 :=
  drained_consumeDraining environment (drained_consumeStreaming environment answers chunk
    (ht.of_same (beforeStreaming_registry environment chunk t))
    (drained_beforeStreaming environment chunk hd) hclean)

end Chunk

/-- **The step lemma.** -/
theorem drained_step {t : Streamer} {e : Stimulus} (ht : Registered t) (hd : Drained t)
    (hclean : EndsCleanly t e) : Drained (step t e) := by
  cases e with
  | start environment =>
    show Drained (t.processEvent environment .start).2
    rw [processEvent_start]
    split
    · rename_i h
      intro _
      exact hd (Or.inr (Or.inr h))
    · exact hd
  | stop environment =>
    show Drained (t.processEvent environment .stop).2
    rw [processEvent_stop]
    split
    · exact hd
    · intro _ entry hentry
      obtain ⟨e, _, rfl⟩ := List.mem_map.mp hentry
      rw [CommandSession.isInStream, CommandSession.stop_state]
      rfl
  | slimProtoOpen connection environment =>
    intro hs entry hentry
    have hentry : entry ∈ addSession t.commandSessions connection _ := hentry
    rw [addSession] at hentry
    split at hentry
    · exact hd hs entry hentry
    · rcases List.mem_append.mp hentry with hentry | hentry
      · exact hd hs entry hentry
      · rw [List.mem_singleton.mp hentry, CommandSession.isInStream, CommandSession.start_state]
        rfl
  | slimProtoClose connection =>
    show Drained (t.onSlimProtoClose connection)
    rw [onSlimProtoClose]
    split
    · exact hd
    · intro hs entry hentry
      exact hd hs entry (List.mem_of_mem_filter hentry)
  | chunk environment answers chunk =>
    exact drained_consumeChunk environment answers chunk ht hd hclean
  | _ => exact hd.sessionsStep (step_forSession rfl t)

/-! ### Runs -/

theorem drained_exec {t : Streamer} (ht : Registered t) (hd : Drained t) (es : List Stimulus)
    (hes : (system.restrict EndsCleanly).Admits t es) :
    Registered (system.exec t es) ∧ Drained (system.exec t es) := by
  have h := (system.restrict EndsCleanly).exec_invariant (fun t => Registered t ∧ Drained t)
    (fun t e hinv he => ⟨registered_step hinv.1 he.1, drained_step hinv.1 hinv.2 he.2⟩) es t
    ⟨ht, hd⟩ hes
  rwa [System.restrict_exec] at h

/-- The call takes the state machine from Draining to Started. -/
def flushes (t : Streamer) : Stimulus → Bool
  | .chunk environment answers chunk =>
    let r := consumeStreaming environment answers chunk (t.beforeStreaming environment chunk)
    r.2.state == .draining && (consumeDraining environment r).2.state == .started
  | _ => false

theorem flushes_state {t : Streamer} {e : Stimulus} (h : flushes t e = true) :
    (step t e).state = .started := by
  cases e with
  | chunk environment answers chunk =>
    rw [flushes, Bool.and_eq_true, beq_iff_eq, beq_iff_eq] at h
    exact h.2
  | _ => cases h

/-- The sessions that are sent a fresh `STRM` Start when the next stream is prepared. -/
theorem stateChangeToPreparing_written (environment : Environment) {t : Streamer}
    (hrate : t.samplingRate ≠ 0) {entry : ℕ × CommandSession} (hentry : entry ∈ t.commandSessions)
    (hs : entry.2.state = .started) :
    ∃ entry' ∈ (t.stateChangeToPreparing environment).commandSessions, entry'.1 = entry.1 ∧
      entry'.2.written = entry.2.written ++
        [.start entry.2.formatSelection entry.2.streamingPort t.samplingRate entry.2.clientID] :=
  ⟨_, List.mem_map.mpr ⟨entry, hentry, rfl⟩, rfl,
    CommandSession.prepare_written (t.context environment) hrate hs⟩

/-- **No session is left behind** in the runs all whose streams end cleanly: when the Streamer
takes the Flushed event, no session is preparing or streaming; and when it prepares the next
stream, after whatever happened in between, every session that is Started by then is sent a
`STRM` Start, and the others are Draining or Stopped. -/
theorem no_session_left_behind (streamingPort : ℕ) (format : FormatSelection) (gain : Option ℕ)
    (now : Timestamp) (es : List Stimulus) (e : Stimulus)
    (hrun : (system.restrict EndsCleanly).Admits (create streamingPort format gain now)
      (es ++ [e]))
    (hflush : flushes (system.exec (create streamingPort format gain now) es) e = true) :
    (∀ entry ∈ (system.exec (create streamingPort format gain now) (es ++ [e])).commandSessions,
      entry.2.isInStream = false) ∧
    ∀ fs, (system.restrict EndsCleanly).Admits (create streamingPort format gain now)
        (es ++ [e] ++ fs) →
      ∀ t, t = system.exec (create streamingPort format gain now) (es ++ [e] ++ fs) →
        t.state = .started → ∀ environment rate, rate ≠ 0 → ∀ entry ∈ t.commandSessions,
          entry.2.isInStream = false ∧ (entry.2.state = .started →
            ∃ entry' ∈ ((t.setSamplingRate rate).stateChangeToPreparing
              environment).commandSessions, entry'.1 = entry.1 ∧
                entry'.2.written = entry.2.written ++ [.start entry.2.formatSelection
                  entry.2.streamingPort rate entry.2.clientID]) := by
  have hstart := registered_create streamingPort format gain now
  have hempty : Drained (create streamingPort format gain now) := fun _ => List.forall_mem_nil _
  refine ⟨?_, ?_⟩
  · have hstate := flushes_state hflush
    have hd := (drained_exec hstart hempty (es ++ [e]) hrun).2
    rw [System.exec_concat] at hd ⊢
    exact hd (Or.inl hstate)
  · rintro fs hfs t rfl hstate environment rate hrate entry hentry
    have hd := (drained_exec hstart hempty (es ++ [e] ++ fs) hfs).2
    exact ⟨hd (Or.inl hstate) entry hentry,
      stateChangeToPreparing_written environment hrate hentry⟩

/-! ### One player, and the answer of its HTTP session to the end of the stream -/

def quiet : Environment := ⟨fun _ => ⟨0⟩, ProbeSort.merge⟩

/-- What a player sends: the label, the length of what follows, an event, and zeros. -/
def playerOctets (label : List Char) (length : ℕ) (event : List Char) : List UInt8 :=
  octets label ++ [0, 0, 0, UInt8.ofNat length] ++ octets event ++
    List.replicate (length - event.length) 0

/-- The player answers STAT/STMf. -/
def playerFlushed : Stimulus :=
  .slimProtoData 1 (playerOctets ['S', 'T', 'A', 'T'] 53 ['S', 'T', 'M', 'f']) ⟨0⟩ fun _ => quiet

/-- One player connects and says hello. -/
def helloPlayer : List Stimulus :=
  [.start quiet,
    .slimProtoOpen 1 quiet,
    .slimProtoData 1 (playerOctets ['H', 'E', 'L', 'O'] 36 []) ⟨0⟩ (fun _ => quiet),
    playerFlushed]

/-- A tenth of a second of audio. -/
def audio : Chunk := ⟨false, 44100, 2, 4, [], 4410, 4410, ⟨0⟩⟩

/-- The player opens its HTTP session. -/
def playerRequest : Stimulus :=
  .httpData 2 (octets ['G', 'E', 'T', ' ', '/', '?', 'i', 'd', '=', '1'])

/-- The HTTP session of the player takes the first chunk. -/
def onePlayer : List Stimulus :=
  helloPlayer ++
    [.chunk quiet (fun _ => true) audio, playerRequest, .chunk quiet (fun _ => true) audio]

/-- The end-of-stream chunk, and what the HTTP session answers to it. -/
def endOfStream (answer : Bool) : Stimulus :=
  .chunk quiet (fun _ => answer) { audio with endOfStream := true, frames := 0 }

/-- The chunk is taken, the player flushes its buffer, and the chunk is presented again. -/
theorem no_session_left_behind_onePlayer :
    (system.exec (create 9001 .FLAC none ⟨0⟩)
      ((onePlayer ++ [endOfStream true, playerFlushed]) ++ [endOfStream true])).commandSessions.all
        (fun entry => !entry.2.isInStream) = true := by
  rw [List.all_eq_true]
  intro entry hentry
  rw [(no_session_left_behind 9001 .FLAC none ⟨0⟩ (onePlayer ++ [endOfStream true, playerFlushed])
    (endOfStream true) (by decide +kernel) (by decide +kernel)).1 entry hentry]
  rfl

/-- **A session that refuses the end-of-stream chunk is left behind**: the Streamer takes the
Flushed event at once, while the session is still Buffering. -/
theorem session_left_behind :
    system.Admits (create 9001 .FLAC none ⟨0⟩) (onePlayer ++ [endOfStream false]) ∧
      flushes (system.exec (create 9001 .FLAC none ⟨0⟩) onePlayer) (endOfStream false) = true ∧
      ∃ entry ∈ (system.exec (create 9001 .FLAC none ⟨0⟩)
        (onePlayer ++ [endOfStream false])).commandSessions, entry.2.state = .buffering := by
  decide +kernel

end Streamer

end SlimStreamer
