import SlimStreamer.Proto.ChunkDelivery
import SlimStreamer.Proto.ServedStreams

/-!
# What an HTTP session gets of a stream

A SlimProto session gives the chunks it is offered to the HTTP session it refers to.  As long as
that one runs, the chunks provided to it are the last ones the SlimProto session has accepted.

* `FollowsSession` — this, in the states of a SlimProto session;
* `FollowsSession.consumeChunk`, `FollowsSession.ignored` — a session that is offered a chunk;
* `acceptedBy_round` — what a round adds to what a session has accepted.
-/

namespace SlimStreamer

open GuardedExecution SequencedBroadcast

namespace Listening

open StreamingSession (Ages)

theorem step_ages (r : Listening) (e : StreamingSession.Stimulus) :
    Ages r.session (r.step e).session :=
  StreamingSession.step_ages r.session e

/-- **What a call of `consumeChunk` provides**: nothing, or the chunk, if a running session
accepts it, it has the rate of the encoder and carries data. -/
theorem provided_consumeChunk (r : Listening) (chunk : Chunk) (output finish : List (List UInt8)) :
    (r.session.provided (.consumeChunk chunk output finish) = [] ∧
        (r.session.running = true → chunk.endOfStream = false →
          (r.session.consumeChunk chunk output finish).1 = true →
            chunk.samplingRate ≠ r.session.encoder.samplingRate)) ∨
      r.session.provided (.consumeChunk chunk output finish) = [chunk] ∧
        chunk.samplingRate = r.session.encoder.samplingRate ∧ chunk.endOfStream = false ∧
        (r.session.consumeChunk chunk output finish).1 = true ∧
        (r.step (.consumeChunk chunk output finish)).session.running = true := by
  rw [StreamingSession.provided]
  split
  · rename_i h
    obtain ⟨hr, hrate, hdata, haccepted⟩ := h
    refine Or.inr ⟨rfl, hrate, hdata, haccepted, ?_⟩
    have hroom : ¬ r.session.bufferPool.getAvailableSize < 10 := by
      intro hfull
      rw [HTTPSessions.consumeChunk_fst, hr, decide_eq_true hfull] at haccepted
      cases haccepted
    obtain ⟨chunks, octets, henqueued⟩ :=
      StreamingSession.encode_spec chunk.payload output r.session
    show (r.session.consumeChunk chunk output finish).2.running = true
    rw [StreamingSession.consumeChunk, if_pos hr, if_neg hroom, if_neg (not_not.mpr hrate), hdata,
      if_neg Bool.false_ne_true, StreamingSession.encodeChunk]
    dsimp only
    rw [henqueued.rest]
    exact hr
  · rename_i h
    exact Or.inl ⟨rfl, fun hr hdata haccepted hrate => h ⟨hr, hrate, hdata, haccepted⟩⟩

end Listening

/-- **An HTTP session follows a SlimProto session**: nothing was provided to it while that one
prepares, and as long as it runs while that one buffers or plays, what was provided are the last
chunks that one has accepted. -/
structure FollowsSession (r : Listening) (accepted : List Chunk) (s : CommandSession) : Prop where
  fresh : s.state = .preparing → r.provided = []
  playing : s.state = .buffering ∨ s.state = .playing → r.session.running = true →
    r.provided <:+ accepted

namespace FollowsSession

variable {r r' : Listening} {accepted : List Chunk} {s s' : CommandSession}

theorem of_nil (h : r.provided = []) (accepted : List Chunk) (s : CommandSession) :
    FollowsSession r accepted s :=
  ⟨fun _ => h, fun _ _ => h ▸ List.nil_suffix⟩

/-- The SlimProto session leaves the stream, or stays where it is. -/
theorem of_state (h : FollowsSession r accepted s)
    (hs : s'.state = s.state ∨ s'.isInStream = false) : FollowsSession r accepted s' := by
  rcases hs with hs | hs
  · exact ⟨fun hp => h.fresh (hs ▸ hp), fun hp => h.playing (hs ▸ hp)⟩
  · refine ⟨fun hp => ?_, fun hp => ?_⟩
    · simp [CommandSession.isInStream, hp] at hs
    · rcases hp with hp | hp <;> simp [CommandSession.isInStream, hp] at hs

/-- A call that provides nothing. -/
theorem of_silent (h : FollowsSession r accepted s) (hprovided : r'.provided = r.provided)
    (hages : StreamingSession.Ages r.session r'.session) : FollowsSession r' accepted s :=
  ⟨fun hp => hprovided.trans (h.fresh hp), fun hp hr => hprovided ▸ h.playing hp (hages.running hr)⟩

end FollowsSession

namespace CommandSession

/-- **The session that is offered a chunk and streams** leaves the stream if it accepts its end,
and plays or buffers otherwise. -/
theorem consumeChunk_state (context : Context) (answer : Bool) (chunk : Chunk) {s : CommandSession}
    (hs : s.isStreaming = true) :
    let s' := (s.consumeChunk context answer chunk).2
    (s.refuses answer = true ∨ chunk.endOfStream = false) ∧
        (s'.state = .buffering ∨ s'.state = .playing) ∨
      s.refuses answer = false ∧ chunk.endOfStream = true ∧ s'.state = .draining := by
  have hplaying := tryPlaying_state context ((isStreaming_iff context s).mp hs)
  intro s'
  cases hr : s.refuses answer with
  | true =>
    refine Or.inl ⟨Or.inl rfl, ?_⟩
    simpa [s', consumeChunk_eq, hs, hr] using hplaying
  | false =>
    cases hend : chunk.endOfStream with
    | false =>
      refine Or.inl ⟨Or.inr rfl, ?_⟩
      simpa [s', consumeChunk_eq, hs, hr, chunkConsumed, hend] using hplaying
    | true =>
      refine Or.inr ⟨rfl, rfl, ?_⟩
      simp [s', consumeChunk_eq, hs, hr, chunkConsumed, hend, processEvent_drain context _ hplaying]

/-- A session that does not stream accepts the chunk, and keeps its state, or is prepared and
loses its reference. -/
theorem consumeChunk_of_not (context : Context) (answer : Bool) (chunk : Chunk)
    {s : CommandSession} (hs : s.isStreaming = false) :
    (s.consumeChunk context answer chunk).2.state = s.state ∨
      (s.consumeChunk context answer chunk).2.streamingSession = none := by
  have hready : (s.consumeChunk context answer chunk).2 =
      (s.joinStream context).tryBuffering context := by
    rw [consumeChunk_eq, hs]
    rfl
  rw [hready]
  by_cases hstarted : s.state = .started
  · rw [tryBuffering_joinStream_eq context hstarted, prepare_eq]
    split
    · exact Or.inr rfl
    · exact Or.inl (by rw [if_pos (Or.inl hstarted)])
  · rw [tryBuffering_joinStream_of_ne context hstarted]
    have hnot : ¬ (s.state = .preparing ∧ s.isReadyToBuffer = true) := by
      rintro ⟨hp, hb⟩
      simp [isStreaming, hp, hb] at hs
    rw [if_neg hnot]
    exact Or.inl rfl

/-- A session that is prepared keeps its state, or loses its reference. -/
theorem prepare_reference (context : Context) (rate : ℕ) (s : CommandSession) :
    (s.prepare context rate).state = s.state ∨
      (s.prepare context rate).streamingSession = none := by
  rw [prepare_eq]
  split
  · exact Or.inr rfl
  · left
    split <;> rfl

end CommandSession

namespace FollowsSession

variable {r : Listening} {accepted : List Chunk} {s : CommandSession}

/-- **The session hands the chunk over.**  The HTTP session gets it if it runs, and the rates do
not differ; then both are one chunk further. -/
theorem consumeChunk (h : FollowsSession r accepted s) (hs : s.isStreaming = true)
    (context : Context) (chunk : Chunk) (output finish : List (List UInt8)) {answer : Bool}
    (hanswer : answer = (r.session.consumeChunk chunk output finish).1)
    (hreference : s.streamingSession.isSome = true)
    (hrated : ∀ c ∈ r.provided, c.samplingRate = r.session.encoder.samplingRate)
    (hsame : chunk.endOfStream = false → ∀ c ∈ accepted, c.samplingRate = chunk.samplingRate) :
    FollowsSession (r.step (.consumeChunk chunk output finish))
      (accepted ++ if s.refuses answer = false then [chunk] else [])
      (s.consumeChunk context answer chunk).2 := by
  have hstate := CommandSession.consumeChunk_state context answer chunk hs
  have hages := r.step_ages (.consumeChunk chunk output finish)
  have hstep : (r.step (.consumeChunk chunk output finish)).provided =
      r.provided ++ r.session.provided (.consumeChunk chunk output finish) := rfl
  have hrefuses : s.refuses answer = !answer := by
    rw [CommandSession.refuses, hs, hreference, Bool.true_and, Bool.true_and]
  -- what was accepted so far, whether the session was ready to buffer or buffers
  have hsuffix : r.session.running = true → r.provided <:+ accepted := by
    intro hr
    by_cases hp : s.state = .preparing
    · rw [h.fresh hp]
      exact List.nil_suffix
    · refine h.playing ?_ hr
      simpa [CommandSession.isStreaming, hp] using hs
  rcases hstate with ⟨hconsumed, hplaying⟩ | ⟨-, -, hdraining⟩
  · refine ⟨fun hp => ?_, fun _ hr => ?_⟩
    · rcases hplaying with hplaying | hplaying <;> rw [hplaying] at hp <;> cases hp
    have hrunning := hages.running hr
    rw [hstep]
    rcases r.provided_consumeChunk chunk output finish with
      ⟨hnone, hrate⟩ | ⟨hone, -, -, haccepts, -⟩
    · rw [hnone, List.append_nil]
      rcases hconsumed with hrefused | hdata
      · rw [hrefused]
        simpa using hsuffix hrunning
      · cases hanswers : answer with
        | false =>
          rw [hanswers] at hrefuses
          simpa [hrefuses] using hsuffix hrunning
        | true =>
          -- the rates differ, so nothing of this stream was provided
          have hdiffer := hrate hrunning hdata (hanswer.symm.trans hanswers)
          have hnil : r.provided = [] := by
            rw [List.eq_nil_iff_forall_not_mem]
            intro c hc
            have hc' := hsame hdata c ((hsuffix hrunning).subset hc)
            exact hdiffer (hc'.symm.trans (hrated c hc))
          rw [hnil]
          exact List.nil_suffix
    · have hyes : s.refuses answer = false := by
        rw [hrefuses, hanswer, haccepts]
        rfl
      rw [hone, if_pos hyes]
      obtain ⟨before, hbefore⟩ := hsuffix hrunning
      exact ⟨before, by rw [← List.append_assoc, hbefore]⟩
  · refine ⟨fun hp => ?_, fun hp => ?_⟩
    · rw [hdraining] at hp
      cases hp
    · rw [hdraining] at hp
      rcases hp with hp | hp <;> cases hp

/-- The session does not stream, and refers to the HTTP session still. -/
theorem ignored (h : FollowsSession r accepted s) (hs : s.isStreaming = false) (context : Context)
    (answer : Bool) (chunk : Chunk)
    (hreference : (s.consumeChunk context answer chunk).2.streamingSession.isSome = true)
    (accepted' : List Chunk) :
    FollowsSession r accepted' (s.consumeChunk context answer chunk).2 := by
  rcases CommandSession.consumeChunk_of_not context answer chunk hs with hstate | hnone
  · refine ⟨fun hp => h.fresh (hstate ▸ hp), fun hp => ?_⟩
    rw [hstate] at hp
    rcases hp with hp | hp <;> simp [CommandSession.isStreaming, hp] at hs
  · simp [hnone] at hreference

/-- A stream is prepared, while the session is not in the last one any more. -/
theorem prepared (h : FollowsSession r accepted s)
    (hs : ¬ (s.state = .buffering ∨ s.state = .playing)) (context : Context) (rate : ℕ)
    (hreference : (s.prepare context rate).streamingSession.isSome = true)
    (accepted' : List Chunk) : FollowsSession r accepted' (s.prepare context rate) := by
  rcases CommandSession.prepare_reference context rate s with hstate | hnone
  · exact ⟨fun hp => h.fresh (hstate ▸ hp), fun hp => absurd (hstate ▸ hp) hs⟩
  · simp [hnone] at hreference

end FollowsSession

namespace Streamer

open HTTPSessions

/-! ### The round -/

/-- Whether the chunk is due is what the entry of the session says. -/
theorem isDue_eq {entries : List (ℕ × ℕ)} (hn : (entries.map Prod.fst).Nodup) {e : ℕ × ℕ}
    (he : e ∈ entries) (streamedChunks : ℕ) :
    isDue streamedChunks entries e.1 = decide (e.2 ≤ streamedChunks) := by
  rw [isDue, Bool.eq_iff_iff, List.any_eq_true, decide_eq_true_iff]
  constructor
  · rintro ⟨d, hd, hdue⟩
    rw [Bool.and_eq_true, beq_iff_eq, decide_eq_true_iff] at hdue
    obtain rfl := List.inj_on_of_nodup_map hn hd he hdue.1
    exact hdue.2
  · intro hdue
    exact ⟨e, he, by rw [beq_self_eq_true, decide_eq_true hdue]; rfl⟩

variable {t : Streamer}

/-- Each session has an entry. -/
theorem Registered.entry (ht : Registered t) {e : ℕ × CommandSession}
    (he : e ∈ t.commandSessions) :
    ∃ n, (e.2.address, n) ∈ t.sessionToChunkSequenceMap ∧
      t.due e.2.address = decide (n ≤ t.streamedChunks) := by
  have hkeys : (t.sessionToChunkSequenceMap.map Prod.fst).Nodup := by
    rw [ht.same_sessions]
    exact ht.addresses
  have haddress : e.2.address ∈ t.sessionToChunkSequenceMap.map Prod.fst := by
    rw [ht.same_sessions]
    exact List.mem_map_of_mem (f := fun e : ℕ × CommandSession => e.2.address) he
  obtain ⟨d, hd, heq⟩ := List.mem_map.mp haddress
  refine ⟨d.2, ?_, ?_⟩
  · rw [← heq]
    exact hd
  · rw [← heq]
    exact isDue_eq hkeys hd t.streamedChunks

/-- **Which HTTP sessions are called**: those of the sessions that stream and are due. -/
theorem Exclusive.mem_asked_iff (ht : Exclusive t) {e : ℕ × CommandSession}
    (he : e ∈ t.commandSessions) {c : ℕ} (hc : e.2.streamingSession = some c) :
    c ∈ asked t.streamedChunks t.sessionToChunkSequenceMap t.commandSessions ↔
      t.due e.2.address = true ∧ e.2.isStreaming = true := by
  rw [asked, List.mem_filterMap]
  constructor
  · rintro ⟨d, hd, hasked⟩
    obtain ⟨e', he', haddress, hasks⟩ := askedAt_some hasked
    obtain rfl := ht.references e' he' e he c (CommandSession.asks_reference hasks) hc
    refine ⟨?_, ?_⟩
    · rw [due, isDue, List.any_eq_true]
      refine ⟨d, List.mem_of_mem_filter hd, ?_⟩
      rw [haddress, beq_self_eq_true, Bool.true_and]
      exact (List.mem_filter.mp hd).2
    · rw [CommandSession.asks] at hasks
      by_contra hnot
      rw [if_neg hnot] at hasks
      cases hasks
  · rintro ⟨hdue, hstreaming⟩
    obtain ⟨n, hentry, hn⟩ := ht.toRegistered.entry he
    refine ⟨(e.2.address, n), List.mem_filter.mpr ⟨hentry, hn.symm.trans hdue⟩, ?_⟩
    rw [askedAt, dereference_of_mem ht.addresses he, Option.bind_some, CommandSession.asks,
      if_pos hstreaming, hc]

/-- What becomes of an HTTP session in a round. -/
theorem Exclusive.mem_round (ht : Exclusive t) {streams : HTTPSessions} {outputs : Outputs}
    {chunk : Chunk} {entry : ℕ × Listening}
    (hentry : entry ∈ consumeAll outputs chunk
      (asked t.streamedChunks t.sessionToChunkSequenceMap t.commandSessions) streams) :
    ∃ r, (entry.1, r) ∈ streams ∧
      (entry.1 ∉ asked t.streamedChunks t.sessionToChunkSequenceMap t.commandSessions ∧
          entry.2 = r ∨
        entry.1 ∈ asked t.streamedChunks t.sessionToChunkSequenceMap t.commandSessions ∧
          entry.2 = r.step (outputs.chunkCall chunk entry.1)) := by
  have hkeys : ((asked t.streamedChunks t.sessionToChunkSequenceMap t.commandSessions).map
      fun c => (c, outputs.chunkCall chunk c)).map Prod.fst =
        asked t.streamedChunks t.sessionToChunkSequenceMap t.commandSessions := by
    rw [List.map_map]
    exact List.map_id _
  obtain ⟨r, hr, hcalled⟩ := mem_perform (hkeys.symm ▸ ht.asked_nodup) hentry
  refine ⟨r, hr, hcalled.imp (fun hnot => ⟨hkeys ▸ hnot.1, hnot.2⟩) ?_⟩
  rintro ⟨e, he, hstep⟩
  obtain ⟨c, hc, heq⟩ := List.mem_map.mp he
  obtain ⟨rfl, rfl⟩ := Prod.mk.inj heq
  exact ⟨hc, hstep⟩

/-- **What a round does** to a session and the HTTP session it refers to. -/
inductive OfferStep (t : Streamer) (environment : Environment) (answers : ℕ → Bool)
    (outputs : Outputs) (chunk : Chunk) (s : CommandSession) (c : ℕ) (r : Listening) :
    CommandSession → Listening → Prop where
  | asks (due : t.due s.address = true) (streaming : s.isStreaming = true) :
    OfferStep t environment answers outputs chunk s c r
      (s.consumeChunk (t.context environment) (answers s.address) chunk).2
      (r.step (outputs.chunkCall chunk c))
  | ignores (due : t.due s.address = true) (streaming : s.isStreaming = false) :
    OfferStep t environment answers outputs chunk s c r
      (s.consumeChunk (t.context environment) (answers s.address) chunk).2 r
  /-- It has accepted the chunk before. -/
  | skips (due : t.due s.address = false) :
    OfferStep t environment answers outputs chunk s c r s r

theorem Exclusive.offerStep (ht : Exclusive t) {environment : Environment} {answers : ℕ → Bool}
    {outputs : Outputs} {chunk : Chunk} {streams : HTTPSessions} {e' : ℕ × CommandSession}
    (he' : e' ∈ t.commandSessions.map (offered (t.context environment) answers chunk
      t.streamedChunks t.sessionToChunkSequenceMap)) {entry : ℕ × Listening}
    (hentry : entry ∈ consumeAll outputs chunk
      (asked t.streamedChunks t.sessionToChunkSequenceMap t.commandSessions) streams)
    (hreference : e'.2.streamingSession = some entry.1) :
    ∃ e ∈ t.commandSessions, ∃ r, (entry.1, r) ∈ streams ∧ e'.2.address = e.2.address ∧
      e.2.streamingSession = some entry.1 ∧
      OfferStep t environment answers outputs chunk e.2 entry.1 r e'.2 entry.2 := by
  obtain ⟨e, he, rfl⟩ := List.mem_map.mp he'
  obtain ⟨r, hr, hcalled⟩ := ht.mem_round hentry
  have haddress := (offered_address answers chunk (t.context environment) t.streamedChunks
    t.sessionToChunkSequenceMap e).2
  refine ⟨e, he, r, hr, haddress, ?_⟩
  cases hdue : t.due e.2.address with
  | true =>
    have hoffered : offered (t.context environment) answers chunk t.streamedChunks
        t.sessionToChunkSequenceMap e =
          (e.1, (e.2.consumeChunk (t.context environment) (answers e.2.address) chunk).2) :=
      if_pos hdue
    rw [hoffered] at hreference ⊢
    have hkeeps := (CommandSession.consumeChunk_changes (t.context environment)
      (answers e.2.address) chunk e.2).toKeeps
    have hc := Keeps.reference_eq hkeeps hreference
    have hasked := ht.mem_asked_iff he hc
    refine ⟨hc, ?_⟩
    cases hs : e.2.isStreaming with
    | true =>
      rcases hcalled with ⟨hnot, -⟩ | ⟨-, hstep⟩
      · exact absurd (hasked.mpr ⟨hdue, hs⟩) hnot
      · rw [hstep]
        exact .asks hdue hs
    | false =>
      rcases hcalled with ⟨-, hsame⟩ | ⟨hin, -⟩
      · rw [hsame]
        exact .ignores hdue hs
      · exact absurd ((hasked.mp hin).2.symm.trans hs) Bool.noConfusion
  | false =>
    have hsame : offered (t.context environment) answers chunk t.streamedChunks
        t.sessionToChunkSequenceMap e = e :=
      if_neg fun h => Bool.false_ne_true (hdue.symm.trans h)
    rw [hsame] at hreference ⊢
    have hasked := ht.mem_asked_iff he hreference
    refine ⟨hreference, ?_⟩
    rcases hcalled with ⟨-, hentry⟩ | ⟨hin, -⟩
    · rw [hentry]
      exact .skips hdue
    · exact absurd (hdue.symm.trans (hasked.mp hin).1) Bool.noConfusion

/-- **What a round adds to what a session has accepted**: the chunk, if it was due and the session
has not refused it. -/
theorem acceptedBy_round (ht : Registered t) {e : ℕ × CommandSession}
    (he : e ∈ t.commandSessions) (log : Log ℕ Item) (item : Item) (environment : Environment)
    (answers : ℕ → Bool) :
    (log.present item (t.round environment answers item.2).offers
        (t.round environment answers item.2).result).acceptedBy e.2.address =
      log.acceptedBy e.2.address ++
        if t.due e.2.address = true ∧ e.2.refuses (answers e.2.address) = false then [item]
        else [] := by
  have hkeys : (t.sessionToChunkSequenceMap.map Prod.fst).Nodup := by
    rw [ht.same_sessions]
    exact ht.addresses
  obtain ⟨n, hentry, hdue⟩ := ht.entry he
  have haccepted : t.accepted environment answers item.2 e.2.address =
      !e.2.refuses (answers e.2.address) := by
    rw [accepted, accepts, dereference_of_mem ht.addresses he]
    exact CommandSession.consumeChunk_fst _ _ item.2 e.2
  have hoffered := @filterMap_offered ℕ Item _ t.streamedChunks t.sessionToChunkSequenceMap hkeys
    (e.2.address, n) hentry (t.accepted environment answers item.2) item
  rw [Log.acceptedBy_present, round_eq environment answers item.2 ht]
  refine congrArg (log.acceptedBy e.2.address ++ ·) (hoffered.trans ?_)
  rw [haccepted]
  simp only [hdue, decide_eq_true_iff, Bool.not_eq_true']

/-- Nobody accepts anything in another call. -/
theorem acceptedBy_logOther (d : Delivery) (e : Stimulus) (address : ℕ) :
    (logOther d e).acceptedBy address = d.log.acceptedBy address := by
  rw [logOther.eq_def]
  split
  · rfl
  · split <;> rfl
  · rfl

/-- What the octets of a player and the pings make of a session. -/
theorem evolves_request {s s' : CommandSession}
    (h : CommandSession.Evolves CommandSession.SessionCall.isReceived s s') :
    CommandSession.RequestStep s s' := by
  have hrefl (s : CommandSession) : CommandSession.RequestStep s s :=
    ⟨rfl, rfl, rfl, rfl, Or.inl rfl⟩
  refine h.keeps (P := CommandSession.RequestStep s) (fun s' c hc hs => hs.trans ?_) (hrefl s)
  cases c with
  | buffered ring => exact ⟨rfl, rfl, rfl, rfl, Or.inl rfl⟩
  | message context timestamp command =>
    have hreset : CommandSession.RequestStep s' { s' with measuringLatency := false } :=
      ⟨rfl, rfl, rfl, rfl, Or.inl rfl⟩
    cases command with
    | STAT d => exact (CommandSession.onSTAT_step context timestamp d s').toRequestStep
    | HELO helo => exact hreset.trans (CommandSession.onHELO_step context helo _).toRequestStep
    | _ => exact hreset
  | unreadable => exact ⟨rfl, rfl, rfl, rfl, Or.inl rfl⟩
  | pingTimer context => exact (CommandSession.onPingTimer_step context s').toRequestStep
  | pingHandler context => exact (CommandSession.onPingHandler_step context s').toRequestStep
  | _ => cases hc

/-- A session that refers to an HTTP session, and had its reference before: it is where it was, or
has left the stream. -/
def Stays (t : Streamer) (s : CommandSession) (c : ℕ) : Prop :=
  ∃ d ∈ t.commandSessions, s.address = d.2.address ∧
    (s.state = d.2.state ∨ s.isInStream = false) ∧ d.2.streamingSession = some c

/-- Setting the reference of the session at one connection. -/
theorem stays_of_setStreamingSession {connection : ℕ} {reference : Option ℕ}
    {e : ℕ × CommandSession} {c : ℕ} (hreference : reference ≠ some c)
    (he : e ∈ (t.setStreamingSession connection reference).commandSessions)
    (hc : e.2.streamingSession = some c) : t.Stays e.2 c := by
  obtain ⟨d, hd, rfl⟩ := List.mem_map.mp he
  by_cases h : d.1 = connection
  · rw [if_pos h] at hc
    exact absurd hc hreference
  · rw [if_neg h] at hc ⊢
    exact ⟨d, hd, rfl, Or.inl rfl, hc⟩

/-- **What another call makes of the references**: a session keeps its reference, or gets one to an
HTTP session that was not there. -/
theorem other_references {e : Stimulus} (he : NoChunk e)
    (hen : enabled t e) {s : ℕ × CommandSession} (hs : s ∈ (step t e).commandSessions) {c : ℕ}
    (hc : s.2.streamingSession = some c) :
    t.Stays s.2 c ∨ (t.streamingSessions.any fun entry => entry.1 == c) = false := by
  have hsame : (step t e).commandSessions = t.commandSessions → t.Stays s.2 c := fun h =>
    ⟨s, h ▸ hs, rfl, Or.inl rfl, hc⟩
  have hreceived : isReceived e = true → t.Stays s.2 c := by
    intro hr
    obtain ⟨d, hd, -, hevolves⟩ := (received_evolves t hr).1.mem hs
    have hrequest := evolves_request hevolves
    refine ⟨d, hd, hrequest.address, hrequest.state.imp_right fun hidle => ?_,
      hrequest.streamingSession ▸ hc⟩
    rcases hidle.2 with hstate | hstate <;> rw [CommandSession.isInStream, hstate] <;> rfl
  cases e with
  | start environment =>
    refine Or.inl (hsame ?_)
    rw [step, Streamer.start, processEvent_start]
    split <;> rfl
  | stop environment =>
    left
    by_cases hstopped : t.state = .stopped
    · refine hsame ?_
      rw [step, Streamer.stop, processEvent_stop, if_pos hstopped]
    · rw [step, Streamer.stop, processEvent_stop, if_neg hstopped] at hs
      obtain ⟨d, hd, rfl⟩ := List.mem_map.mp hs
      refine ⟨d, hd, CommandSession.stop_address _ d.2, Or.inr ?_,
        Keeps.reference_eq (CommandSession.stop_changes _ d.2).toKeeps hc⟩
      rw [CommandSession.isInStream, CommandSession.stop_state]
      rfl
  | slimProtoOpen connection environment =>
    rcases mem_onSlimProtoOpen hen hs with hold | ⟨-, hnone⟩
    · exact Or.inl ⟨s, hold, rfl, Or.inl rfl, hc⟩
    · rw [hnone] at hc
      cases hc
  | slimProtoClose connection =>
    exact Or.inl ⟨s, mem_onSlimProtoClose hs, rfl, Or.inl rfl, hc⟩
  | slimProtoData connection buffer timestamp environments => exact Or.inl (hreceived rfl)
  | pingTimer connection environment => exact Or.inl (hreceived rfl)
  | pingHandler connection environment => exact Or.inl (hreceived rfl)
  | chunk environment answers chunk => exact he.elim
  | httpData connection buffer =>
    rcases onHTTPData_cases connection buffer t with h | h | ⟨clientID, session, hnew, -, h⟩
    · exact Or.inl (hsame (congrArg commandSessions h))
    · left
      apply hsame
      rw [step, h]
      rfl
    · by_cases hconnection : connection = c
      · exact Or.inr (hconnection ▸ hnew)
      · rw [step, h] at hs
        exact Or.inl (stays_of_setStreamingSession (fun heq => hconnection (Option.some.inj heq))
          hs hc)
  | httpClose connection =>
    left
    rw [step, onHTTPClose] at hs
    split at hs
    · exact ⟨s, hs, rfl, Or.inl rfl, hc⟩
    · dsimp only at hs
      split at hs
      · exact ⟨s, hs, rfl, Or.inl rfl, hc⟩
      · exact stays_of_setStreamingSession (Option.some_ne_none c).symm hs hc
  | httpRemoved connection => exact Or.inl (hsame rfl)

/-- The HTTP sessions follow the sessions that refer to them. -/
def Followed (log : Log ℕ Item) (sessions : List (ℕ × CommandSession)) (streams : HTTPSessions) :
    Prop :=
  ∀ e ∈ sessions, ∀ entry ∈ streams, e.2.streamingSession = some entry.1 →
    FollowsSession entry.2 ((log.acceptedBy e.2.address).map Prod.snd) e.2

/-- **What is known when a round begins.** -/
structure RoundBegins (t : Streamer) (streams : HTTPSessions) (log : Log ℕ Item) (item : Item)
    (answers : ℕ → Bool) : Prop where
  exclusive : Exclusive t
  distinct : (streams.map Prod.fst).Nodup
  answers : ∀ e ∈ t.commandSessions, ∀ c, e.2.streamingSession = some c →
    answers e.2.address = streams.replies c
  rated : ∀ entry ∈ streams, ∀ c ∈ entry.2.provided,
    c.samplingRate = entry.2.session.encoder.samplingRate
  same : item.2.endOfStream = false → ∀ e ∈ t.commandSessions,
    ∀ i ∈ log.acceptedBy e.2.address, i.2.samplingRate = item.2.samplingRate
  follows : Followed log t.commandSessions streams

namespace RoundBegins

variable {streams : HTTPSessions} {log : Log ℕ Item} {item : Item} {answers : ℕ → Bool}

/-- The reply of an HTTP session is what its `consumeChunk` returns. -/
theorem replies_eq (hn : (streams.map Prod.fst).Nodup) {c : ℕ} {r : Listening}
    (hr : (c, r) ∈ streams) (outputs : Outputs) (chunk : Chunk) :
    streams.replies c =
      (r.session.consumeChunk chunk (outputs.output c) (outputs.finish c)).1 := by
  have hlookup : streams.lookup c = some r := by
    cases h : streams.lookup c with
    | none =>
      rw [List.lookup_eq_none_iff] at h
      exact absurd (h (c, r) hr) (by simp)
    | some r' =>
      have hpair := List.inj_on_of_nodup_map hn (mem_of_lookup h) hr rfl
      exact congrArg some (Prod.mk.inj hpair).2
  rw [replies, hlookup, Option.all_some, consumeChunk_fst]

/-- **An HTTP session that is called** follows the session that has called it. -/
theorem called (h : RoundBegins t streams log item answers) {e : ℕ × CommandSession}
    (he : e ∈ t.commandSessions) {c : ℕ} {r : Listening} (hr : (c, r) ∈ streams)
    (hc : e.2.streamingSession = some c) (hdue : t.due e.2.address = true)
    (hs : e.2.isStreaming = true) (environment : Environment) (outputs : Outputs) :
    FollowsSession (r.step (outputs.chunkCall item.2 c))
      (((log.present item (t.round environment answers item.2).offers
        (t.round environment answers item.2).result).acceptedBy e.2.address).map Prod.snd)
      (e.2.consumeChunk (t.context environment) (answers e.2.address) item.2).2 := by
  have hanswer := (h.answers e he c hc).trans (replies_eq h.distinct hr outputs item.2)
  have hfollows := (h.follows e he (c, r) hr hc).consumeChunk hs (t.context environment) item.2
    (outputs.output c) (outputs.finish c) hanswer (by rw [hc]; rfl) (h.rated (c, r) hr) (by
      intro hdata chunk hchunk
      obtain ⟨i, hi, rfl⟩ := List.mem_map.mp hchunk
      exact h.same hdata e he i hi)
  rw [acceptedBy_round h.exclusive.toRegistered he, List.map_append]
  cases hrefuses : e.2.refuses (answers e.2.address) <;>
    simpa [hrefuses, hdue, Outputs.chunkCall] using hfollows

/-- **A round keeps it**: the HTTP sessions follow the sessions that refer to them. -/
theorem followed (h : RoundBegins t streams log item answers) (environment : Environment)
    (outputs : Outputs) :
    Followed
      (log.present item (t.round environment answers item.2).offers
        (t.round environment answers item.2).result)
      (t.commandSessions.map (offered (t.context environment) answers item.2 t.streamedChunks
        t.sessionToChunkSequenceMap))
      (consumeAll outputs item.2
        (asked t.streamedChunks t.sessionToChunkSequenceMap t.commandSessions) streams) := by
  intro e' he' entry hentry hreference
  obtain ⟨e, he, r, hr, haddress, hc, hstep⟩ := h.exclusive.offerStep he' hentry hreference
  rw [haddress]
  have hfollows := h.follows e he (entry.1, r) hr hc
  generalize e'.2 = s' at hstep hreference
  generalize entry.2 = r' at hstep
  cases hstep with
  | asks due streaming => exact h.called he hr hc due streaming environment outputs
  | ignores due streaming =>
    exact hfollows.ignored streaming _ _ _ (by rw [hreference]; rfl) _
  | skips due =>
    have hnot : ¬ (t.due e.2.address = true ∧ e.2.refuses (answers e.2.address) = false) :=
      fun hd => Bool.false_ne_true (due.symm.trans hd.1)
    rw [acceptedBy_round h.exclusive.toRegistered he, if_neg hnot, List.append_nil]
    exact hfollows

/-- **What a round provides to an HTTP session**: nothing, or the chunk, and then what was provided
are the last chunks a session has accepted. -/
theorem gets (h : RoundBegins t streams log item answers) (environment : Environment)
    (outputs : Outputs) {entry : ℕ × Listening}
    (hentry : entry ∈ consumeAll outputs item.2
      (asked t.streamedChunks t.sessionToChunkSequenceMap t.commandSessions) streams) :
    ∃ r, (entry.1, r) ∈ streams ∧
      StreamingSession.Ages r.session entry.2.session ∧
      (entry.2.provided = r.provided ∨
        entry.2.provided = r.provided ++ [item.2] ∧ item.2.endOfStream = false ∧
          item.2.samplingRate = r.session.encoder.samplingRate ∧
          ∃ e ∈ t.commandSessions, entry.2.provided <:+
            ((log.present item (t.round environment answers item.2).offers
              (t.round environment answers item.2).result).acceptedBy e.2.address).map
                Prod.snd) := by
  obtain ⟨r, hr, ⟨-, hsame⟩ | ⟨hin, hstep⟩⟩ := h.exclusive.mem_round hentry
  · refine ⟨r, hr, ?_, Or.inl (congrArg Listening.provided hsame)⟩
    rw [hsame]
    exact .refl _
  refine ⟨r, hr, ?_, ?_⟩
  · rw [hstep]
    exact r.step_ages _
  have hprovided : entry.2.provided =
      r.provided ++ r.session.provided (outputs.chunkCall item.2 entry.1) := by
    rw [hstep]
    rfl
  rcases r.provided_consumeChunk item.2 (outputs.output entry.1) (outputs.finish entry.1) with
    ⟨hnone, -⟩ | ⟨hone, hrate, hdata, -, hrunning⟩
  · left
    rw [hprovided]
    exact (congrArg (r.provided ++ ·) hnone).trans (List.append_nil _)
  right
  refine ⟨hprovided.trans (congrArg (r.provided ++ ·) hone), hdata, hrate, ?_⟩
  obtain ⟨d, hd, hasked⟩ := List.mem_filterMap.mp hin
  obtain ⟨e, he, -, hasks⟩ := askedAt_some hasked
  have hc := CommandSession.asks_reference hasks
  obtain ⟨hdue, hs⟩ := (h.exclusive.mem_asked_iff he hc).mp hin
  refine ⟨e, he, ?_⟩
  rw [hstep]
  refine (h.called he hr hc hdue hs environment outputs).playing ?_ hrunning
  rcases CommandSession.consumeChunk_state (t.context environment) (answers e.2.address) item.2 hs
    with ⟨-, hplaying⟩ | ⟨-, hend, -⟩
  · exact hplaying
  · rw [hdata] at hend
    cases hend

end RoundBegins

end Streamer

end SlimStreamer
