import SlimStreamer.Proto.StreamIntegrity
import SlimStreamer.Proto.StreamReference

/-!
# The Streamer with its HTTP sessions

What an HTTP session does with a chunk is an argument of the Streamer's `consumeChunk`.  Here it
is the HTTP session itself that is called, through the reference of a SlimProto session, in the
middle of the round over the sessions.

* `serveChunk`, `serveEntries` — the round with the HTTP sessions;
* `serveEntries_eq` — it is the round with their answers, as long as no two sessions share an
  HTTP session;
* `Served.consumeChunk_eq` — so is `consumeChunk`, and each HTTP session is called once at most.
-/

namespace SlimStreamer

/-! ### What every call of an HTTP session keeps -/

namespace StreamingSession

/-- A session that has stopped does not run again, and the encoder stays the same one. -/
structure Ages (s s' : StreamingSession) : Prop where
  running : s'.running = true → s.running = true
  kind : s'.encoder.kind = s.encoder.kind
  samplingRate : s'.encoder.samplingRate = s.encoder.samplingRate

theorem Ages.trans {s s' s'' : StreamingSession} (h : Ages s s') (h' : Ages s' s'') :
    Ages s s'' :=
  ⟨fun hr => h.running (h'.running hr), h'.kind.trans h.kind,
    h'.samplingRate.trans h.samplingRate⟩

/-- A session that has stopped does not run again, and the encoder is not touched. -/
structure Idles (s s' : StreamingSession) : Prop where
  running : s'.running = true → s.running = true
  encoder : s'.encoder = s.encoder

theorem Idles.trans {s s' s'' : StreamingSession} (h : Idles s s') (h' : Idles s' s'') :
    Idles s s'' :=
  ⟨fun hr => h.running (h'.running hr), h'.encoder.trans h.encoder⟩

/-- Neither is touched. -/
theorem Idles.of_eq {s s' : StreamingSession} (hr : s'.running = s.running)
    (he : s'.encoder = s.encoder) : Idles s s' := by
  refine ⟨fun h => ?_, he⟩
  rwa [hr] at h

theorem Idles.toAges {s s' : StreamingSession} (h : Idles s s') : Ages s s' :=
  ⟨h.running, by rw [h.encoder], by rw [h.encoder]⟩

theorem Ages.refl (s : StreamingSession) : Ages s s := ⟨id, rfl, rfl⟩

theorem Enqueued.idles {s s' : StreamingSession} {chunks : List TransferDataChunk}
    {octets : List UInt8} (h : Enqueued s s' chunks octets) : Idles s s' := by
  rw [h.rest]
  exact .of_eq rfl rfl

theorem onExit_idles (releaseBuffer : Bool) (s : StreamingSession) :
    Idles s (s.onExit releaseBuffer) := by
  rw [onExit]
  cases releaseBuffer with
  | false => exact .of_eq rfl rfl
  | true =>
    rw [if_pos rfl, pop]
    split <;> exact .of_eq rfl rfl

theorem complete_idles (write : Write) (completion : Completion) (s : StreamingSession) :
    Idles s (s.complete write completion) := by
  have htransfer : ∀ octets, Idles s (s.transfer octets) := fun octets => .of_eq rfl rfl
  rw [complete, onCompletion]
  split
  · exact (htransfer _).trans (onExit_idles true _)
  · split
    · exact (htransfer _).trans (onExit_idles true _)
    · split
      · exact .of_eq rfl rfl
      · exact (htransfer _).trans (onExit_idles true _)

theorem transferTask_idles (reply : Option Completion) (s : StreamingSession) :
    Idles s (s.transferTask reply) := by
  rw [transferTask]
  split
  · exact .of_eq rfl rfl
  · split
    · exact .of_eq rfl rfl
    · cases reply with
      | none => exact .of_eq rfl rfl
      | some completion =>
        have hset : Idles s (s.setTransferring true) := .of_eq rfl rfl
        exact hset.trans (complete_idles _ completion _)

theorem flush_idles (callback : Callback) (s : StreamingSession) :
    Idles s (s.flush callback) := by
  rw [flush]
  split
  · exact .of_eq rfl rfl
  · exact ⟨fun h => absurd h Bool.false_ne_true, rfl⟩

theorem encodedAll_idles (output : List (List UInt8)) (s : StreamingSession) :
    Idles s (s.encodedAll output) := by
  obtain ⟨chunks, octets, h⟩ := encodedAll_spec output s
  exact h.idles

theorem encodeChunk_idles (chunk : Chunk) (output : List (List UInt8)) (s : StreamingSession) :
    Idles s (s.encodeChunk chunk output) := by
  obtain ⟨chunks, octets, h⟩ := encode_spec chunk.payload output s
  exact h.idles.trans (.of_eq rfl rfl)

theorem stop_ages (callback : Callback) (finish : List (List UInt8)) (s : StreamingSession) :
    Ages s (s.stop callback finish) := by
  have hstop : Ages s (s.encoderStop finish) := by
    rw [encoderStop]
    split
    · exact ⟨id, rfl, rfl⟩
    · split
      · exact (encodedAll_idles finish s).toAges.trans ⟨id, rfl, rfl⟩
      · exact .refl s
  rw [stop]
  split
  · exact hstop.trans (flush_idles callback _).toAges
  · exact ⟨id, rfl, rfl⟩

theorem consumeChunk_ages (chunk : Chunk) (output finish : List (List UInt8))
    (s : StreamingSession) : Ages s (s.consumeChunk chunk output finish).2 := by
  have hstop := stop_ages none finish s
  rw [consumeChunk]
  split
  · split
    · exact .refl s
    · split
      · exact hstop
      · split
        · exact hstop.trans (encodeChunk_idles chunk output _).toAges
        · exact (encodeChunk_idles chunk output s).toAges
  · exact .refl s

/-- The calls that only move octets. -/
theorem event_idles (s : StreamingSession) {e : Stimulus}
    (he : ∀ chunk output finish, e ≠ .consumeChunk chunk output finish)
    (hrequest : ∀ data finish, e ≠ .onRequest data finish)
    (hstop : ∀ callback finish, e ≠ .stop callback finish) : Idles s (step s e) := by
  cases e with
  | encoded data =>
    obtain ⟨chunks, h⟩ := encoded_spec data s
    exact h.idles
  | consumeChunk chunk output finish => exact absurd rfl (he chunk output finish)
  | onRequest data finish => exact absurd rfl (hrequest data finish)
  | stop callback finish => exact absurd rfl (hstop callback finish)
  | transferTask reply =>
    have htake : Idles s s.takeTask := .of_eq rfl rfl
    exact htake.trans (transferTask_idles reply _)
  | completion completion =>
    rw [step, onWritten]
    split
    · exact .of_eq rfl rfl
    · rename_i write rest _
      have hset : Idles s (s.setWrites rest) := .of_eq rfl rfl
      exact hset.trans (complete_idles write completion _)
  | flushTimer =>
    rw [step, onFlushTimer]
    split
    · exact .of_eq rfl rfl
    · rename_i callback rest _
      have hset : Idles s { s with flushTimers := rest } := .of_eq rfl rfl
      exact hset.trans (flush_idles callback _)
  | postedCallback =>
    rw [step, onPostedCallback]
    split <;> exact .of_eq rfl rfl

theorem step_ages (s : StreamingSession) (e : Stimulus) : Ages s (step s e) := by
  cases e with
  | consumeChunk chunk output finish => exact consumeChunk_ages chunk output finish s
  | onRequest data finish =>
    rw [step, onRequest]
    split
    · split
      · exact stop_ages none finish s
      · exact .refl s
    · exact .refl s
  | stop callback finish => exact stop_ages callback finish s
  | _ =>
    exact (event_idles s (fun _ _ _ => Stimulus.noConfusion) (fun _ _ => Stimulus.noConfusion)
      fun _ _ => Stimulus.noConfusion).toAges

end StreamingSession

/-! ### The HTTP sessions -/

/-- The HTTP sessions by their connections. -/
abbrev HTTPSessions : Type := List (ℕ × Listening)

/-- What the HTTP sessions read from outside: what the FLAC encoder writes when it is started, and
what it writes for each connection when it is given a chunk or stopped; and the octets in the
receive buffer after those that were received. -/
structure Outputs where
  start : List (List UInt8)
  output : ℕ → List (List UInt8)
  finish : ℕ → List (List UInt8)
  stale : List UInt8

/-- The call of `consumeChunk` of an HTTP session. -/
def Outputs.chunkCall (outputs : Outputs) (chunk : Chunk) (connection : ℕ) :
    StreamingSession.Stimulus :=
  .consumeChunk chunk (outputs.output connection) (outputs.finish connection)

namespace HTTPSessions

/-- Calling the HTTP session of a connection. -/
def call (connection : ℕ) (e : StreamingSession.Stimulus) (streams : HTTPSessions) : HTTPSessions :=
  Streamer.applyToSession streams connection fun r => r.step e

/-- What the HTTP session of a connection says to a chunk: it is refused when a running session
has less than ten free buffers. -/
def replies (streams : HTTPSessions) (connection : ℕ) : Bool :=
  (streams.lookup connection).all fun r =>
    !(r.session.running && decide (r.session.bufferPool.getAvailableSize < 10))

/-- `streamingSession.consumeChunk(chunk)`.  A pointer without an HTTP session dangles; nothing
is said about such a call. -/
def consumeChunk (outputs : Outputs) (chunk : Chunk) (connection : ℕ) (streams : HTTPSessions) :
    Bool × HTTPSessions :=
  match streams.lookup connection with
  | none => (true, streams)
  | some r =>
    ((r.session.consumeChunk chunk (outputs.output connection) (outputs.finish connection)).1,
      call connection (outputs.chunkCall chunk connection) streams)

/-- Calling some HTTP sessions, one after the other. -/
def perform (calls : List (ℕ × StreamingSession.Stimulus)) (streams : HTTPSessions) :
    HTTPSessions :=
  calls.foldl (fun streams c => call c.1 c.2 streams) streams

/-- Some HTTP sessions are given a chunk. -/
def consumeAll (outputs : Outputs) (chunk : Chunk) (connections : List ℕ)
    (streams : HTTPSessions) : HTTPSessions :=
  perform (connections.map fun c => (c, outputs.chunkCall chunk c)) streams

theorem consumeAll_append (outputs : Outputs) (chunk : Chunk) (connections more : List ℕ)
    (streams : HTTPSessions) : consumeAll outputs chunk (connections ++ more) streams =
      consumeAll outputs chunk more (consumeAll outputs chunk connections streams) := by
  rw [consumeAll, List.map_append, perform, List.foldl_append]
  rfl

/-- What becomes of an HTTP session when none is called twice. -/
theorem mem_perform {calls : List (ℕ × StreamingSession.Stimulus)} {streams : HTTPSessions}
    (hcalls : (calls.map Prod.fst).Nodup) {entry : ℕ × Listening}
    (h : entry ∈ perform calls streams) :
    ∃ r, (entry.1, r) ∈ streams ∧
      (entry.1 ∉ calls.map Prod.fst ∧ entry.2 = r ∨
        ∃ e, (entry.1, e) ∈ calls ∧ entry.2 = r.step e) := by
  induction calls generalizing streams with
  | nil => exact ⟨entry.2, h, Or.inl ⟨List.not_mem_nil, rfl⟩⟩
  | cons c calls ih =>
    rw [List.map_cons, List.nodup_cons] at hcalls
    obtain ⟨r, hr, hcalled⟩ := ih hcalls.2 h
    obtain ⟨first, hfirst, heq⟩ := List.mem_map.mp hr
    by_cases hc : first.1 = c.1
    · rw [if_pos hc, Prod.mk.injEq] at heq
      obtain ⟨hkey, rfl⟩ := heq
      refine ⟨first.2, hkey ▸ hfirst, Or.inr ⟨c.2, ?_, ?_⟩⟩
      · rw [← hkey, hc]
        exact List.mem_cons_self
      · rcases hcalled with ⟨-, hsame⟩ | ⟨e, he, -⟩
        · exact hsame
        · have hmem : entry.1 ∈ calls.map Prod.fst := List.mem_map_of_mem (f := Prod.fst) he
          rw [← hkey, hc] at hmem
          exact absurd hmem hcalls.1
    · rw [if_neg hc] at heq
      subst heq
      refine ⟨r, hfirst, ?_⟩
      rcases hcalled with ⟨hnot, hsame⟩ | ⟨e, he, hstep⟩
      · left
        refine ⟨?_, hsame⟩
        rw [List.map_cons, List.mem_cons, not_or]
        exact ⟨hc, hnot⟩
      · exact Or.inr ⟨e, List.mem_cons_of_mem c he, hstep⟩

theorem consumeChunk_fst (chunk : Chunk) (output finish : List (List UInt8))
    (s : StreamingSession) : (s.consumeChunk chunk output finish).1 =
      !(s.running && decide (s.bufferPool.getAvailableSize < 10)) := by
  rw [StreamingSession.consumeChunk]
  by_cases hr : s.running = true
  · by_cases ha : s.bufferPool.getAvailableSize < 10
    · simp [hr, ha]
    · by_cases hrate : chunk.samplingRate = s.encoder.samplingRate
      · cases hend : chunk.endOfStream <;> simp [hr, ha, hrate]
      · simp [hr, ha, hrate]
  · simp [hr]

/-- A connection without an HTTP session is not called. -/
theorem call_of_not_mem {connection : ℕ} (e : StreamingSession.Stimulus) {streams : HTTPSessions}
    (h : streams.lookup connection = none) : call connection e streams = streams := by
  rw [List.lookup_eq_none_iff] at h
  refine (List.map_congr_left fun entry hentry => ?_).trans (List.map_id streams)
  have hne : ¬ entry.1 = connection := by
    intro heq
    exact absurd (h entry hentry) (by simp [heq])
  rw [if_neg hne, id]

theorem consumeChunk_eq (outputs : Outputs) (chunk : Chunk) (connection : ℕ)
    (streams : HTTPSessions) : consumeChunk outputs chunk connection streams =
      (replies streams connection,
        call connection (outputs.chunkCall chunk connection) streams) := by
  rw [consumeChunk, replies]
  cases h : streams.lookup connection with
  | none => rw [call_of_not_mem _ h, Option.all_none]
  | some r => exact congrArg (Prod.mk · _) (consumeChunk_fst chunk _ _ r.session)

theorem lookup_call (connection : ℕ) (e : StreamingSession.Stimulus) (streams : HTTPSessions)
    (c : ℕ) : (call connection e streams).lookup c =
      (streams.lookup c).map fun r => if c = connection then r.step e else r := by
  induction streams with
  | nil => rfl
  | cons entry streams ih =>
    rw [call, Streamer.applyToSession] at ih ⊢
    rw [List.map_cons]
    by_cases hentry : entry.1 = connection
    · rw [if_pos hentry, List.lookup_cons, List.lookup_cons, ih]
      cases hc : c == entry.1 with
      | true => simp [beq_iff_eq.mp hc, hentry]
      | false => rfl
    · rw [if_neg hentry, List.lookup_cons, List.lookup_cons, ih]
      cases hc : c == entry.1 with
      | true => simp [beq_iff_eq.mp hc, hentry]
      | false => rfl

/-- The answers of the others stay the same. -/
theorem replies_call {connection c : ℕ} (h : c ≠ connection) (e : StreamingSession.Stimulus)
    (streams : HTTPSessions) : replies (call connection e streams) c = replies streams c := by
  rw [replies, replies, lookup_call]
  cases streams.lookup c with
  | none => rfl
  | some r => rw [Option.map_some, if_neg h]

end HTTPSessions

/-! ### A session that is offered a chunk -/

namespace CommandSession

open HTTPSessions

/-- `consumeChunk`, with the HTTP sessions. -/
def serveChunk (context : Context) (outputs : Outputs) (chunk : Chunk) (streams : HTTPSessions)
    (s : CommandSession) : (Bool × CommandSession) × HTTPSessions :=
  let s := (s.joinStream context).tryBuffering context
  if s.state = .buffering ∨ s.state = .playing then
    let s := s.tryPlaying context
    let provided := match s.streamingSession with
      | none => (true, streams)
      | some connection => HTTPSessions.consumeChunk outputs chunk connection streams
    -- the session is told of a chunk that was consumed only
    if provided.1 then ((true, s.chunkConsumed context chunk), provided.2)
    else ((false, s), provided.2)
  else ((true, s), streams)

/-- The HTTP session that is called when a chunk is offered, by its connection. -/
def asks (s : CommandSession) : Option ℕ :=
  if s.isStreaming = true then s.streamingSession else none

theorem asks_reference {s : CommandSession} {c : ℕ} (h : s.asks = some c) :
    s.streamingSession = some c := by
  rw [asks] at h
  split at h
  · exact h
  · cases h

/-- **A session that is offered a chunk** asks the HTTP session it refers to, if it is streaming,
and does with the answer what it does. -/
theorem serveChunk_eq (context : Context) (outputs : Outputs) (chunk : Chunk)
    (streams : HTTPSessions) {s : CommandSession} {answer : Bool}
    (h : ∀ c, s.asks = some c → answer = replies streams c) :
    s.serveChunk context outputs chunk streams =
      (s.consumeChunk context answer chunk,
        consumeAll outputs chunk s.asks.toList streams) := by
  rw [serveChunk, CommandSession.consumeChunk]
  dsimp only
  by_cases hs : s.isStreaming = true
  · have hstreaming := (isStreaming_iff context s).mp hs
    have hasks : s.asks = s.streamingSession := if_pos hs
    have hreference :
        (((s.joinStream context).tryBuffering context).tryPlaying context).streamingSession =
          s.streamingSession :=
      (tryPlaying_streamingSession context _).trans (isStreaming_streamingSession context hs)
    rw [if_pos hstreaming, if_pos hstreaming, hreference, hasks]
    cases hsome : s.streamingSession with
    | none => rfl
    | some c =>
      have hanswer := h c (hasks.trans hsome)
      simp only [HTTPSessions.consumeChunk_eq, ← hanswer, Option.isSome_some, if_true]
      cases answer <;> rfl
  · have hnot := (isStreaming_iff context s).not.mp hs
    have hasks : s.asks = none := if_neg hs
    rw [if_neg hnot, if_neg hnot, hasks]
    rfl

end CommandSession

namespace Streamer

open HTTPSessions

/-! ### The round -/

/-- What the loop of `streamChunk` computes, and the HTTP sessions it leaves. -/
structure ServedRound where
  round : Round
  streams : HTTPSessions

/-- The loop of `streamChunk` over the entries of `sessionToChunkSequenceMap`, with the HTTP
sessions. -/
def serveEntries (context : Context) (outputs : Outputs) (chunk : Chunk) (streamedChunks : ℕ) :
    List (ℕ × ℕ) → List (ℕ × CommandSession) → HTTPSessions → ServedRound
  | [], sessions, streams => ⟨⟨true, [], sessions, []⟩, streams⟩
  | entry :: entries, sessions, streams =>
    if entry.2 ≤ streamedChunks then
      match dereference sessions entry.1 with
      | none =>
        let others := serveEntries context outputs chunk streamedChunks entries sessions streams
        { others with round := { others.round with entries := entry :: others.round.entries } }
      | some session =>
        let served := session.serveChunk context outputs chunk streams
        let others := serveEntries context outputs chunk streamedChunks entries
          (assign sessions entry.1 served.1.2) served.2
        { others with
          round := {
            result := served.1.1 && others.round.result
            entries := (if served.1.1 then (entry.1, entry.2 + 1) else entry) ::
              others.round.entries
            sessions := others.round.sessions
            offers := (entry.1, served.1.1) :: others.round.offers } }
    else
      let others := serveEntries context outputs chunk streamedChunks entries sessions streams
      { others with round := { others.round with entries := entry :: others.round.entries } }

/-- The HTTP session that the session at an address calls. -/
def askedAt (sessions : List (ℕ × CommandSession)) (address : ℕ) : Option ℕ :=
  (dereference sessions address).bind CommandSession.asks

/-- The HTTP sessions that are called in a round. -/
def asked (streamedChunks : ℕ) (entries : List (ℕ × ℕ)) (sessions : List (ℕ × CommandSession)) :
    List ℕ :=
  (entries.filter fun e => decide (e.2 ≤ streamedChunks)).filterMap fun e => askedAt sessions e.1

theorem dereference_some {sessions : List (ℕ × CommandSession)} {address : ℕ}
    {session : CommandSession} (h : dereference sessions address = some session) :
    session.address = address ∧ ∃ e ∈ sessions, e.2 = session := by
  rw [dereference, Option.map_eq_some_iff] at h
  obtain ⟨e, he, rfl⟩ := h
  have haddress := List.find?_some he
  exact ⟨beq_iff_eq.mp haddress, e, List.mem_of_find?_eq_some he, rfl⟩

theorem asked_cons (streamedChunks : ℕ) (entry : ℕ × ℕ) (entries : List (ℕ × ℕ))
    (sessions : List (ℕ × CommandSession)) :
    asked streamedChunks (entry :: entries) sessions =
      (if entry.2 ≤ streamedChunks then (askedAt sessions entry.1).toList else []) ++
        asked streamedChunks entries sessions := by
  rw [asked, asked, List.filter_cons]
  by_cases hdue : entry.2 ≤ streamedChunks
  · rw [decide_eq_true hdue, if_pos rfl, if_pos hdue, List.filterMap_cons]
    cases askedAt sessions entry.1 <;> rfl
  · rw [decide_eq_false hdue, if_neg Bool.false_ne_true, if_neg hdue, List.nil_append]

/-- The others call the same HTTP sessions when one session has changed. -/
theorem asked_assign {sessions : List (ℕ × CommandSession)} {address : ℕ}
    {session : CommandSession} (hs : session.address = address) {entries : List (ℕ × ℕ)}
    (hne : ∀ e ∈ entries, e.1 ≠ address) (streamedChunks : ℕ) :
    asked streamedChunks entries (assign sessions address session) =
      asked streamedChunks entries sessions := by
  apply List.filterMap_congr
  intro e he
  rw [askedAt, askedAt, dereference_assign_ne sessions hs (hne e (List.mem_of_mem_filter he))]

/-- **The round with the HTTP sessions is the round with their answers**, when no HTTP session is
called twice. -/
theorem serveEntries_eq (context : Context) (outputs : Outputs) (chunk : Chunk)
    (streamedChunks : ℕ) (answers : ℕ → Bool) (entries : List (ℕ × ℕ)) :
    ∀ (sessions : List (ℕ × CommandSession)) (streams : HTTPSessions),
      (entries.map Prod.fst).Nodup → (asked streamedChunks entries sessions).Nodup →
      (∀ e ∈ entries, e.2 ≤ streamedChunks → ∀ c, askedAt sessions e.1 = some c →
        answers e.1 = replies streams c) →
      serveEntries context outputs chunk streamedChunks entries sessions streams =
        ⟨streamEntries context answers chunk streamedChunks entries sessions,
          consumeAll outputs chunk (asked streamedChunks entries sessions) streams⟩ := by
  induction entries with
  | nil => exact fun _ _ _ _ _ => rfl
  | cons entry entries ih =>
    intro sessions streams hkeys hasked hanswers
    rw [List.map_cons, List.nodup_cons] at hkeys
    have hne : ∀ e ∈ entries, e.1 ≠ entry.1 := fun e he heq =>
      hkeys.1 (heq ▸ List.mem_map_of_mem he)
    have hothers : ∀ e ∈ entries, e.2 ≤ streamedChunks → ∀ c, askedAt sessions e.1 = some c →
        answers e.1 = replies streams c :=
      fun e he => hanswers e (List.mem_cons_of_mem entry he)
    rw [asked_cons] at hasked ⊢
    rw [serveEntries, streamEntries]
    by_cases hdue : entry.2 ≤ streamedChunks
    · rw [if_pos hdue] at hasked ⊢
      rw [if_pos hdue, if_pos hdue]
      rw [List.nodup_append] at hasked
      cases hsession : dereference sessions entry.1 with
      | none =>
        have hnone : askedAt sessions entry.1 = none := by rw [askedAt, hsession, Option.bind_none]
        rw [ih sessions streams hkeys.2 hasked.2.1 hothers, hnone]
        rfl
      | some session =>
        have hasks : askedAt sessions entry.1 = session.asks := by
          rw [askedAt, hsession, Option.bind_some]
        have hserved := session.serveChunk_eq context outputs chunk streams
          fun c hc => hanswers entry List.mem_cons_self hdue c (hasks.trans hc)
        have haddress : (session.consumeChunk context (answers entry.1) chunk).2.address =
            entry.1 :=
          (CommandSession.consumeChunk_address context _ chunk session).trans
            (dereference_some hsession).1
        have hrest : asked streamedChunks entries (assign sessions entry.1
            (session.consumeChunk context (answers entry.1) chunk).2) =
              asked streamedChunks entries sessions := asked_assign haddress hne streamedChunks
        -- what is answered to the others does not depend on the HTTP session called now
        have hnext := ih
          (assign sessions entry.1 (session.consumeChunk context (answers entry.1) chunk).2)
          (consumeAll outputs chunk session.asks.toList streams) hkeys.2
          (by rw [hrest]; exact hasked.2.1) (by
            intro e he hle c hc
            rw [askedAt, dereference_assign_ne sessions haddress (hne e he), ← askedAt] at hc
            rw [hothers e he hle c hc]
            cases hfirst : session.asks with
            | none => rfl
            | some d =>
              have hdc : c ≠ d := by
                refine (hasked.2.2 d ?_ c ?_).symm
                · rw [hasks, hfirst]
                  exact List.mem_singleton_self d
                · refine List.mem_filterMap.mpr ⟨e, List.mem_filter.mpr ⟨he, ?_⟩, hc⟩
                  exact decide_eq_true hle
              exact (replies_call hdc _ streams).symm)
        rw [hrest] at hnext
        simp only [hserved, hnext, hasks, consumeAll_append]
    · rw [if_neg hdue] at hasked ⊢
      rw [if_neg hdue, if_neg hdue, ih sessions streams hkeys.2 hasked hothers]
      rfl

/-- No two sessions refer to the same HTTP session. -/
structure Exclusive (t : Streamer) : Prop extends Registered t where
  references : ∀ d ∈ t.commandSessions, ∀ e ∈ t.commandSessions, ∀ c,
    d.2.streamingSession = some c → e.2.streamingSession = some c → d = e

/-- The HTTP sessions have the identifiers of the sessions that refer to them. -/
theorem Referred.exclusive {t : Streamer} {closed : List ℕ} (ht : Referred closed t) :
    Exclusive t where
  toRegistered := ht.toRegistered
  references d hd e he c hdc hec := by
    have hfirst := (ht.reference d hd c hdc).1
    have hsecond := (ht.reference e he c hec).1
    exact ht.toIdentified.inj hd he (Option.some.inj (hfirst.symm.trans hsecond))

theorem askedAt_some {sessions : List (ℕ × CommandSession)} {address c : ℕ}
    (h : askedAt sessions address = some c) :
    ∃ e ∈ sessions, e.2.address = address ∧ e.2.asks = some c := by
  rw [askedAt, Option.bind_eq_some_iff] at h
  obtain ⟨session, hsession, hasks⟩ := h
  obtain ⟨haddress, e, he, rfl⟩ := dereference_some hsession
  exact ⟨e, he, haddress, hasks⟩

/-- **No HTTP session is called twice in a round.** -/
theorem Exclusive.asked_nodup {t : Streamer} (ht : Exclusive t) :
    (asked t.streamedChunks t.sessionToChunkSequenceMap t.commandSessions).Nodup := by
  have hkeys : (t.sessionToChunkSequenceMap.map Prod.fst).Nodup := by
    rw [ht.same_sessions]
    exact ht.addresses
  have hmap : asked t.streamedChunks t.sessionToChunkSequenceMap t.commandSessions =
      ((t.sessionToChunkSequenceMap.filter fun e => decide (e.2 ≤ t.streamedChunks)).map
        Prod.fst).filterMap (askedAt t.commandSessions) :=
    by rw [List.filterMap_map]; rfl
  rw [hmap]
  apply List.Nodup.filterMap
  · intro a b c ha hb
    obtain ⟨d, hd, rfl, hdc⟩ := askedAt_some ha
    obtain ⟨e, he, rfl, hec⟩ := askedAt_some hb
    rw [ht.references d hd e he c (CommandSession.asks_reference hdc)
      (CommandSession.asks_reference hec)]
  · exact hkeys.sublist (List.filter_sublist.map Prod.fst)

/-- A session comes from one that had its reference, and maybe lost it. -/
theorem beforeStreaming_mem {environment : Environment} {chunk : Chunk} {t : Streamer}
    {e : ℕ × CommandSession}
    (he : e ∈ (t.beforeStreaming environment chunk).2.commandSessions) :
    ∃ d ∈ t.commandSessions, d.1 = e.1 ∧ CommandSession.Keeps d.2 e.2 := by
  rw [beforeStreaming_sessions] at he
  split at he
  · obtain ⟨d, hd, rfl⟩ := List.mem_map.mp he
    exact ⟨d, hd, rfl, (CommandSession.prepare_changes _ _ d.2).toKeeps⟩
  · exact ⟨e, he, rfl, CommandSession.Keeps.refl e.2⟩

theorem Keeps.reference_eq {s s' : CommandSession} (h : CommandSession.Keeps s s') {c : ℕ}
    (hc : s'.streamingSession = some c) : s.streamingSession = some c := by
  rcases h.reference with hr | hr
  · exact hr ▸ hc
  · rw [hr] at hc
    cases hc

theorem Exclusive.beforeStreaming {t : Streamer} (ht : Exclusive t) (environment : Environment)
    (chunk : Chunk) : Exclusive (t.beforeStreaming environment chunk).2 where
  toRegistered := ht.toRegistered.of_same (beforeStreaming_registry environment chunk t)
  references e he e' he' c hc hc' := by
    obtain ⟨d, hd, hdc, hkeeps⟩ := beforeStreaming_mem he
    obtain ⟨d', hd', hdc', hkeeps'⟩ := beforeStreaming_mem he'
    have heq := ht.references d hd d' hd' c (Keeps.reference_eq hkeeps hc)
      (Keeps.reference_eq hkeeps' hc')
    have hregistered := ht.toRegistered.of_same (beforeStreaming_registry environment chunk t)
    exact List.inj_on_of_nodup_map hregistered.connections he he' (by rw [← hdc, ← hdc', heq])

end Streamer

/-- The Streamer, and the objects `streamingSessions` holds. -/
structure ServedStreamer where
  streamer : Streamer
  streams : HTTPSessions

namespace ServedStreamer

open HTTPSessions

def streamChunk (environment : Environment) (outputs : Outputs) (chunk : Chunk)
    (x : ServedStreamer) : Bool × ServedStreamer :=
  let t := x.streamer
  let served := Streamer.serveEntries (t.context environment) outputs chunk t.streamedChunks
    t.sessionToChunkSequenceMap t.commandSessions x.streams
  let t := { t with
    sessionToChunkSequenceMap := served.round.entries
    commandSessions := served.round.sessions }
  -- increasing counters
  if served.round.result then
    (true, ⟨{ t with
      streamedChunks := t.streamedChunks + 1
      streamedFrames := t.streamedFrames + chunk.frames }, served.streams⟩)
  else (false, ⟨t, served.streams⟩)

def consumeStreaming (environment : Environment) (outputs : Outputs) (chunk : Chunk)
    (r : Bool × ServedStreamer) : Bool × ServedStreamer :=
  if r.2.streamer.isStreaming then
    let x := { r.2 with streamer := r.2.streamer.tryPlaying environment }
    -- if sampling rate does not change then just distributing a chunk
    let r := if x.streamer.samplingRate = chunk.samplingRate then
        x.streamChunk environment outputs chunk
      else (r.1, x)
    if x.streamer.samplingRate ≠ chunk.samplingRate ∨ chunk.endOfStream then
      -- keep reprocessing until Running state is reached
      (false, { r.2 with streamer := (r.2.streamer.processEvent environment .drain).2 })
    else r
  else r

/-- `consumeChunk`; the other branches call no HTTP session. -/
def consumeChunk (environment : Environment) (outputs : Outputs) (chunk : Chunk)
    (x : ServedStreamer) : Bool × ServedStreamer :=
  let before := x.streamer.beforeStreaming environment chunk
  let streamed := consumeStreaming environment outputs chunk (before.1, ⟨before.2, x.streams⟩)
  let drained := Streamer.consumeDraining environment (streamed.1, streamed.2.streamer)
  (drained.1, ⟨drained.2, streamed.2.streams⟩)

/-- What the HTTP sessions say, by the addresses of the sessions that refer to them. -/
def answers (x : ServedStreamer) (address : ℕ) : Bool :=
  ((Streamer.dereference x.streamer.commandSessions address).bind
    CommandSession.streamingSession).all x.streams.replies

/-- The HTTP sessions that are called when a chunk is presented. -/
def asked (environment : Environment) (chunk : Chunk) (x : ServedStreamer) : List ℕ :=
  let before := (x.streamer.beforeStreaming environment chunk).2
  if before.isStreaming = true ∧ before.samplingRate = chunk.samplingRate then
    Streamer.asked before.streamedChunks before.sessionToChunkSequenceMap before.commandSessions
  else []

variable {x : ServedStreamer}

theorem answers_of_mem (hx : Streamer.Registered x.streamer) {e : ℕ × CommandSession}
    (he : e ∈ x.streamer.commandSessions) {c : ℕ} (hc : e.2.streamingSession = some c) :
    x.answers e.2.address = x.streams.replies c := by
  rw [answers, Streamer.dereference_of_mem hx.addresses he, Option.bind_some, hc, Option.all_some]

/-- The round of the Streamer, with the answers of the HTTP sessions. -/
theorem streamChunk_eq (environment : Environment) (outputs : Outputs) (chunk : Chunk)
    (hx : Streamer.Exclusive x.streamer) {answers : ℕ → Bool}
    (hanswers : ∀ e ∈ x.streamer.commandSessions, ∀ c, e.2.streamingSession = some c →
      answers e.2.address = x.streams.replies c) :
    x.streamChunk environment outputs chunk =
      ((x.streamer.streamChunk environment answers chunk).1,
        ⟨(x.streamer.streamChunk environment answers chunk).2,
          consumeAll outputs chunk (Streamer.asked x.streamer.streamedChunks
            x.streamer.sessionToChunkSequenceMap x.streamer.commandSessions) x.streams⟩) := by
  have hkeys : (x.streamer.sessionToChunkSequenceMap.map Prod.fst).Nodup := by
    rw [hx.same_sessions]
    exact hx.addresses
  have hround := Streamer.serveEntries_eq (x.streamer.context environment) outputs chunk
    x.streamer.streamedChunks answers x.streamer.sessionToChunkSequenceMap
    x.streamer.commandSessions x.streams hkeys hx.asked_nodup (by
      intro e he _ c hc
      obtain ⟨d, hd, haddress, hasks⟩ := Streamer.askedAt_some hc
      rw [← haddress]
      exact hanswers d hd c (CommandSession.asks_reference hasks))
  rw [streamChunk, hround, Streamer.streamChunk, Streamer.round]
  dsimp only
  split <;> rfl

/-- **The Streamer with its HTTP sessions is the Streamer with their answers**, which they have
already made up when the chunk is presented. -/
theorem consumeChunk_eq (environment : Environment) (outputs : Outputs) (chunk : Chunk)
    (hx : Streamer.Exclusive x.streamer) :
    x.consumeChunk environment outputs chunk =
      ((x.streamer.consumeChunk environment x.answers chunk).1,
        ⟨(x.streamer.consumeChunk environment x.answers chunk).2,
          consumeAll outputs chunk (x.asked environment chunk) x.streams⟩) := by
  have hbefore := hx.beforeStreaming environment chunk
  have hanswers : ∀ e ∈ (x.streamer.beforeStreaming environment chunk).2.commandSessions, ∀ c,
      e.2.streamingSession = some c → x.answers e.2.address = x.streams.replies c := by
    intro e he c hc
    obtain ⟨d, hd, -, hkeeps⟩ := Streamer.beforeStreaming_mem he
    rw [hkeeps.address]
    exact answers_of_mem hx.toRegistered hd (Streamer.Keeps.reference_eq hkeeps hc)
  rw [consumeChunk, Streamer.consumeChunk, asked]
  generalize x.streamer.beforeStreaming environment chunk = before at hbefore hanswers
  cases hs : before.2.isStreaming with
  | false =>
    rw [consumeStreaming, hs, if_neg Bool.false_ne_true, Streamer.consumeStreaming_of_not _ _ _ hs,
      if_neg fun h => Bool.false_ne_true h.1]
    rfl
  | true =>
    have hplay := Streamer.tryPlaying_stream environment before.2
    have hexclusive : Streamer.Exclusive (before.2.tryPlaying environment) :=
      ⟨hbefore.toRegistered.of_same hplay.registry, by
        rw [hplay.commandSessions]
        exact hbefore.references⟩
    have hround := streamChunk_eq (x := ⟨before.2.tryPlaying environment, x.streams⟩) environment
      outputs chunk hexclusive (by
        rw [hplay.commandSessions]
        exact hanswers)
    dsimp only at hround
    rw [hplay.streamedChunks, hplay.entries, hplay.commandSessions] at hround
    rw [consumeStreaming, Streamer.consumeStreaming, hs, if_pos rfl, if_pos rfl]
    dsimp only
    rw [hround, hplay.samplingRate]
    by_cases hrate : before.2.samplingRate = chunk.samplingRate
    · cases hend : chunk.endOfStream <;> simp [hrate]
    · simp [hrate, consumeAll, perform]

end ServedStreamer

end SlimStreamer
