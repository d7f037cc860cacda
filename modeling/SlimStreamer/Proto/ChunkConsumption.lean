import SlimStreamer.Proto.StreamDraining

/-!
# When a chunk is reported consumed

The producer presents a chunk again and again until `consumeChunk` returns true.  The Flushed
event is one way to return true, and the chunk that made the Streamer drain is the one that is
presented when it happens: if the round over the sessions had not accepted that chunk, nobody
ever gets it.

* `Delivers` — the presentations that do not make the Streamer drain too early;
* `not_consumed_of_not_streamed` — one such presentation;
* `consumed_only_if_streamed` — all presentations of a chunk, between any other calls;
* `consumed_not_streamed` — the end-of-stream chunk a session refuses.
-/

namespace SlimStreamer

namespace Streamer

open GuardedExecution SequencedBroadcast

/-! ### What is asked of a presentation -/

/-- If the chunk gets to the sessions then it has the current rate, and if it ends the stream
then no session it is due for refuses it. -/
def Delivers (t : Streamer) : Stimulus → Prop
  | .chunk environment answers chunk =>
    let before := (t.beforeStreaming environment chunk).2
    before.isStreaming = true → before.samplingRate = chunk.samplingRate ∧
      (chunk.endOfStream = true → ∀ entry ∈ before.commandSessions,
        before.due entry.2.address = true → entry.2.refuses (answers entry.2.address) = false)
  | _ => True

instance (t : Streamer) : DecidablePred (Delivers t)
  | .chunk environment answers chunk =>
    inferInstanceAs (Decidable ((t.beforeStreaming environment chunk).2.isStreaming = true →
      (t.beforeStreaming environment chunk).2.samplingRate = chunk.samplingRate ∧
        (chunk.endOfStream = true →
          ∀ entry ∈ (t.beforeStreaming environment chunk).2.commandSessions,
            (t.beforeStreaming environment chunk).2.due entry.2.address = true →
              entry.2.refuses (answers entry.2.address) = false)))
  | .start _ => isTrue trivial
  | .stop _ => isTrue trivial
  | .slimProtoOpen _ _ => isTrue trivial
  | .slimProtoClose _ => isTrue trivial
  | .slimProtoData _ _ _ _ => isTrue trivial
  | .pingTimer _ _ => isTrue trivial
  | .pingHandler _ _ => isTrue trivial
  | .httpData _ _ => isTrue trivial
  | .httpClose _ => isTrue trivial
  | .httpRemoved _ => isTrue trivial

/-- No other chunk than this one is presented. -/
def Presents (chunk : Chunk) : Stimulus → Prop
  | .chunk _ _ other => other = chunk
  | _ => True

/-- The round over the sessions in this call, if there is one. -/
def streaming (environment : Environment) (answers : ℕ → Bool) (chunk : Chunk) (t : Streamer) :
    Option (Bool × Streamer) :=
  let before := (t.beforeStreaming environment chunk).2
  if before.isStreaming = true ∧ before.samplingRate = chunk.samplingRate then
    some ((before.tryPlaying environment).streamChunk environment answers chunk)
  else none

/-- `streamChunk` returned true in this call, and every session that is registered has accepted
the chunk by then: its sequence number is past the chunk's own. -/
def Streamed (t : Streamer) : Stimulus → Prop
  | .chunk environment answers chunk =>
    ∃ after, t.streaming environment answers chunk = some (true, after) ∧
      ∀ entry ∈ after.sessionToChunkSequenceMap,
        (t.beforeStreaming environment chunk).2.streamedChunks < entry.2
  | _ => False

/-! ### The round -/

/-- A round that succeeds leaves no session without the chunk. -/
theorem streamChunk_true {environment : Environment} {answers : ℕ → Bool} {chunk : Chunk}
    {t : Streamer} (ht : Reachable t) (h : (t.streamChunk environment answers chunk).1 = true) :
    ∀ entry ∈ (t.streamChunk environment answers chunk).2.sessionToChunkSequenceMap,
      t.streamedChunks < entry.2 := by
  rw [streamChunk_fst environment answers chunk ht.toRegistered] at h
  intro entry hentry
  have hentry : entry ∈ (t.counters.present (t.accepted environment answers chunk)).entries := by
    rwa [← streamChunk_counters environment answers chunk ht.toRegistered]
  obtain ⟨e, he, rfl⟩ := List.mem_map.mp hentry
  have hnext : (Counters.advance t.streamedChunks (t.accepted environment answers chunk) e).2 =
      t.streamedChunks + 1 := Counters.advance_of_succeeds ht.current h he
  exact hnext ▸ Nat.lt_succ_self _

/-- The round of a chunk that nobody refuses succeeds. -/
theorem streamChunk_of_not_refuses {environment : Environment} {answers : ℕ → Bool}
    {chunk : Chunk} {t : Streamer} (ht : Registered t)
    (h : ∀ entry ∈ t.commandSessions, t.due entry.2.address = true →
      entry.2.refuses (answers entry.2.address) = false) :
    (t.streamChunk environment answers chunk).1 = true := by
  rw [streamChunk_fst environment answers chunk ht, Counters.succeeds, List.all_eq_true]
  intro e he
  rw [Bool.or_eq_true, decide_eq_true_eq]
  by_cases hdue : t.streamedChunks < e.2
  · exact Or.inl hdue
  · right
    have hmem : e.1 ∈ addresses t.commandSessions := by
      rw [← ht.same_sessions]
      exact List.mem_map.mpr ⟨e, he, rfl⟩
    obtain ⟨entry, hentry, haddr⟩ := List.mem_map.mp hmem
    have hentrydue : t.due entry.2.address = true := by
      rw [due, isDue, List.any_eq_true]
      exact ⟨e, he, by rw [haddr, beq_self_eq_true, Bool.true_and, decide_eq_true_eq]; omega⟩
    rw [← haddr, accepted, accepts, dereference_of_mem ht.addresses hentry]
    dsimp only
    rw [CommandSession.consumeChunk_fst, h entry hentry hentrydue]
    rfl

/-! ### One presentation -/

/-- Before the sessions are reached, nothing is reported consumed. -/
theorem beforeStreaming_of_not_streaming {environment : Environment} {chunk : Chunk}
    (hrate : chunk.samplingRate ≠ 0) {t : Streamer} (hstate : t.state ≠ .draining)
    (h : (t.beforeStreaming environment chunk).2.isStreaming = false) :
    (t.beforeStreaming environment chunk).1 = false ∧
      (t.beforeStreaming environment chunk).2.state ≠ .draining := by
  have hpreparing : ∀ r : Bool × Streamer, r.2.state = .preparing →
      (consumePreparing environment r).2.isStreaming = false →
      (consumePreparing environment r).1 = false ∧
        (consumePreparing environment r).2.state ≠ .draining := by
    intro r hr hnot
    rw [consumePreparing, if_pos hr, processEvent_buffer environment hr] at hnot ⊢
    split at hnot
    · cases hnot
    · rename_i hready
      rw [if_neg hready, hr]
      exact ⟨rfl, by decide⟩
  by_cases hs : t.state = .started
  · rw [beforeStreaming, consumeStarted_of_started environment chunk (r := (false, t)) hs hrate]
      at h ⊢
    exact hpreparing _ rfl h
  · by_cases hp : t.state = .preparing
    · rw [beforeStreaming, consumeStarted, if_neg hs] at h ⊢
      exact hpreparing (false, t) hp h
    · rw [beforeStreaming, consumeStarted, if_neg hs, consumePreparing, if_neg hp]
      exact ⟨rfl, hstate⟩

theorem beforeStreaming_reachable (environment : Environment) (chunk : Chunk) {t : Streamer}
    (ht : Reachable t) : Reachable (t.beforeStreaming environment chunk).2 :=
  ⟨ht.of_same (beforeStreaming_registry environment chunk t),
    beforeStreaming_current environment chunk ht.current⟩

/-- **A presentation that does not stream the chunk does not report it consumed**, and the
Streamer does not start to drain. -/
theorem not_consumed_of_not_streamed {environment : Environment} {answers : ℕ → Bool}
    {chunk : Chunk} (hrate : chunk.samplingRate ≠ 0) {t : Streamer} (ht : Reachable t)
    (hstate : t.state ≠ .draining) (hdelivers : Delivers t (.chunk environment answers chunk))
    (hnot : ¬ Streamed t (.chunk environment answers chunk)) :
    (t.consumeChunk environment answers chunk).1 = false ∧
      (t.consumeChunk environment answers chunk).2.state ≠ .draining := by
  rw [consumeChunk]
  cases hs : (t.beforeStreaming environment chunk).2.isStreaming with
  | false =>
    have hbefore := beforeStreaming_of_not_streaming hrate hstate hs
    rw [consumeStreaming_of_not environment answers chunk hs, consumeDraining,
      if_neg hbefore.2]
    exact hbefore
  | true =>
    obtain ⟨hsame, hend⟩ := hdelivers hs
    have hplay := tryPlaying_stream environment (t.beforeStreaming environment chunk).2
    have hplaying := tryPlaying_state environment hs
    have hreachable : Reachable ((t.beforeStreaming environment chunk).2.tryPlaying environment) :=
      have hbefore := beforeStreaming_reachable environment chunk ht
      ⟨hbefore.of_same hplay.registry, by rw [hplay.counters]; exact hbefore.current⟩
    -- the round did not succeed, or the chunk would have been streamed
    have hround : (((t.beforeStreaming environment chunk).2.tryPlaying environment).streamChunk
        environment answers chunk).1 = false := by
      rw [← Bool.not_eq_true]
      intro htrue
      refine hnot ⟨(((t.beforeStreaming environment chunk).2.tryPlaying environment).streamChunk
        environment answers chunk).2, ?_, ?_⟩
      · rw [streaming, if_pos ⟨hs, hsame⟩]
        exact congrArg some (Prod.ext htrue rfl)
      · rw [← hplay.streamedChunks]
        exact streamChunk_true hreachable htrue
    have hnotend : chunk.endOfStream = false := by
      rw [← Bool.not_eq_true]
      intro he
      rw [streamChunk_of_not_refuses hreachable.toRegistered] at hround
      · cases hround
      · intro entry hentry hdue
        rw [hplay.commandSessions] at hentry
        rw [due, hplay.streamedChunks, hplay.entries] at hdue
        exact hend he entry hentry hdue
    have hrate' : ((t.beforeStreaming environment chunk).2.tryPlaying environment).samplingRate =
        chunk.samplingRate := hplay.samplingRate.trans hsame
    have hnext : (((t.beforeStreaming environment chunk).2.tryPlaying environment).streamChunk
        environment answers chunk).2.state ≠ .draining := by
      rw [streamChunk_state]
      rcases hplaying with h | h <;> rw [h] <;> decide
    rw [consumeStreaming_eq environment answers chunk hs]
    simp only [hrate', if_true, hnotend, Bool.false_eq_true, if_false]
    rw [consumeDraining, if_neg hnext]
    exact ⟨hround, hnext⟩

/-- Nothing else makes the Streamer drain. -/
theorem step_not_draining {chunk : Chunk} {t : Streamer} {e : Stimulus}
    (he : ∀ environment answers, e ≠ .chunk environment answers chunk) (hp : Presents chunk e)
    (hstate : t.state ≠ .draining) : (step t e).state ≠ .draining := by
  cases e with
  | start environment =>
    show (t.processEvent environment .start).2.state ≠ _
    rw [processEvent_start]
    split
    · exact State.noConfusion
    · exact hstate
  | stop environment =>
    show (t.processEvent environment .stop).2.state ≠ _
    rw [processEvent_stop]
    split
    · exact hstate
    · exact State.noConfusion
  | slimProtoOpen connection environment => exact hstate
  | slimProtoClose connection =>
    show (t.onSlimProtoClose connection).state ≠ _
    rw [onSlimProtoClose]
    split <;> exact hstate
  | chunk environment answers other => exact absurd (hp ▸ rfl) (he environment answers)
  | _ =>
    rw [(step_forSession rfl t).state]
    exact hstate

/-! ### All presentations of a chunk -/

theorem streamed_of_consumed {chunk : Chunk} (hrate : chunk.samplingRate ≠ 0)
    (environment : Environment) (answers : ℕ → Bool) (es : List Stimulus) :
    ∀ t : Streamer, Reachable t → t.state ≠ .draining → (∀ e ∈ es, Presents chunk e) →
      (system.restrict Delivers).Admits t (es ++ [.chunk environment answers chunk]) →
      ((system.exec t es).consumeChunk environment answers chunk).1 = true →
      ∃ before e after, es ++ [.chunk environment answers chunk] = before ++ e :: after ∧
        Streamed (system.exec t before) e := by
  induction es with
  | nil =>
    intro t ht hstate _ hrun hconsumed
    by_cases hs : Streamed t (.chunk environment answers chunk)
    · exact ⟨[], _, [], rfl, hs⟩
    · have hnot := (not_consumed_of_not_streamed hrate ht hstate hrun.1.2 hs).1
      rw [show (t.consumeChunk environment answers chunk).1 = true from hconsumed] at hnot
      cases hnot
  | cons e es ih =>
    intro t ht hstate hpresents hrun hconsumed
    by_cases hs : Streamed t e
    · exact ⟨[], e, es ++ [.chunk environment answers chunk], rfl, hs⟩
    · have hstep : (step t e).state ≠ .draining := by
        by_cases he : ∀ environment answers, e ≠ .chunk environment answers chunk
        · exact step_not_draining he (hpresents e List.mem_cons_self) hstate
        · push Not at he
          obtain ⟨environment', answers', rfl⟩ := he
          exact (not_consumed_of_not_streamed hrate ht hstate hrun.1.2 hs).2
      obtain ⟨before, e', after, heq, hs'⟩ := ih (step t e) (reachable_step ht hrun.1.1) hstep
        (fun e' h => hpresents e' (List.mem_cons_of_mem e h)) hrun.2 hconsumed
      exact ⟨e :: before, e', after, by rw [List.cons_append, heq]; rfl, hs'⟩

/-- **A chunk is reported consumed only if it was streamed**, in the runs in which the Streamer
is not draining when the chunk is presented first, and in which every presentation that gets
to the sessions has the current rate and is not an end-of-stream chunk that somebody
refuses. -/
theorem consumed_only_if_streamed (streamingPort : ℕ) (format : FormatSelection)
    (gain : Option ℕ) (now : Timestamp) (earlier : List Stimulus) (t : Streamer)
    (hearlier : system.Admits (create streamingPort format gain now) earlier)
    (ht : t = system.exec (create streamingPort format gain now) earlier)
    (hstate : t.state ≠ .draining) (chunk : Chunk) (hrate : chunk.samplingRate ≠ 0)
    (es : List Stimulus) (hes : ∀ e ∈ es, Presents chunk e) (environment : Environment)
    (answers : ℕ → Bool)
    (hrun : (system.restrict Delivers).Admits t (es ++ [.chunk environment answers chunk]))
    (hconsumed : ((system.exec t es).consumeChunk environment answers chunk).1 = true) :
    ∃ before e after, es ++ [.chunk environment answers chunk] = before ++ e :: after ∧
      Streamed (system.exec t before) e := by
  subst ht
  exact streamed_of_consumed hrate environment answers es _
    (reachable_exec (reachable_create streamingPort format gain now) earlier hearlier) hstate hes
    hrun hconsumed

/-- The chunk that starts the stream is presented until the player's HTTP session is there. -/
theorem onePlayer_streamed :
    ∃ before e after, [.chunk quiet (fun _ => true) audio, playerRequest] ++
        [.chunk quiet (fun _ => true) audio] = before ++ e :: after ∧
      Streamed (system.exec (system.exec (create 9001 .FLAC none ⟨0⟩) helloPlayer) before) e :=
  consumed_only_if_streamed 9001 .FLAC none ⟨0⟩ helloPlayer _ (by decide +kernel) rfl
    (by decide +kernel) audio (by decide) [.chunk quiet (fun _ => true) audio, playerRequest]
    (fun e he => by
      rcases List.mem_cons.mp he with rfl | he
      · exact rfl
      · rw [List.mem_singleton.mp he]
        exact trivial)
    quiet (fun _ => true) (by decide +kernel) (by decide +kernel)

/-- **The end-of-stream chunk is reported consumed although a session refused it**, and no
session gets it any more. -/
theorem consumed_not_streamed :
    system.Admits (create 9001 .FLAC none ⟨0⟩) onePlayer ∧
      (system.exec (create 9001 .FLAC none ⟨0⟩) onePlayer).state = .buffering ∧
      ((system.exec (create 9001 .FLAC none ⟨0⟩) onePlayer).consumeChunk quiet (fun _ => false)
        { audio with endOfStream := true, frames := 0 }).1 = true ∧
      ¬ Streamed (system.exec (create 9001 .FLAC none ⟨0⟩) onePlayer) (endOfStream false) := by
  refine ⟨by decide +kernel, by decide +kernel, by decide +kernel, ?_⟩
  rintro ⟨after, hstreaming, _⟩
  have hround : ((system.exec (create 9001 .FLAC none ⟨0⟩) onePlayer).streaming quiet
      (fun _ => false) { audio with endOfStream := true, frames := 0 }).map Prod.fst =
        some false := by
    decide +kernel
  rw [hstreaming] at hround
  cases hround

end Streamer

end SlimStreamer
