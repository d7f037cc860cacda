import SlimStreamer.Playback
import SlimStreamer.Proto.HeardStream

/-!
# What the players get

Everything put together: from the frames a device is read for, to the octets on the connections of
the players.

* `Rested` — when a stream is prepared, no session is in the last one any more;
* `Heard`, `step_heard` — what was provided to an HTTP session follows the session that refers to
  it, and is a stretch of what one source has captured;
* `one_source_heard` — so it is in every run;
* `bit_perfect_playback` — and with the wave encoder the octets on a connection are the payloads of
  such a stretch, if each chunk provided fits and nothing disturbs this connection.
-/

namespace SlimStreamer

open GuardedExecution SequencedBroadcast

namespace Application

variable {a : Application}

theorem produceChunk_pipeline (ha : a.Linked) (environment : Environment) (answers : ℕ → Bool) :
    (a.produceChunk environment answers).pipeline =
      a.pipeline.produceChunk (a.consumer environment answers) := by
  rcases a.produceChunk_cases ha environment answers with ⟨heq, -⟩ | ⟨chunk, -, heq, -⟩
  · rw [heq]
  · rw [heq]
    rfl

/-- **While a stream goes on**, what a session has accepted is a stretch of what one source has
captured, at the rate of the stream. -/
theorem Reachable.accepted (ha : a.Reachable) (hin : a.delivery.streamer.inStream) :
    ∃ i s, a.pipeline.source? i = some s ∧ ∀ e ∈ a.delivery.streamer.commandSessions,
      (a.delivery.log.acceptedBy e.2.address).map Prod.snd <:+: s.capturing.enqueued ∧
        ∀ item ∈ a.delivery.log.acceptedBy e.2.address,
          item.2.samplingRate = a.delivery.streamer.samplingRate := by
  obtain ⟨i, s, epoch, hplays⟩ := ha.linked.plays hin
  have hhistory := hplays.history ha.linked
  have hkeys := ha.once.same_sessions
  refine ⟨i, s, hplays.source, fun e he => ?_⟩
  have haddress : e.2.address ∈ a.delivery.streamer.sessionToChunkSequenceMap.map Prod.fst := by
    rw [hkeys]
    exact List.mem_map_of_mem (f := fun e : ℕ × CommandSession => e.2.address) he
  obtain ⟨entry, hentry, heq⟩ := List.mem_map.mp haddress
  have hrun := ha.once.run entry hentry
  rw [heq] at hrun
  have hwithin : (a.delivery.log.acceptedBy e.2.address).map Prod.snd <:+:
      s.capturing.enqueued := by
    rw [hrun]
    refine List.IsInfix.trans ?_ hhistory
    exact ((List.drop_suffix _ _).isInfix.trans (List.take_prefix _ _).isInfix).map Prod.snd
  refine ⟨hwithin, fun item hitem => ?_⟩
  have hmem := hwithin.subset (List.mem_map_of_mem (f := Prod.snd) hitem)
  rw [← hplays.rate]
  exact (ha.linked.rated i s hplays.source).2 item.2 hmem

end Application

namespace Playback

variable {x : Playback}

/-! ### The sources -/

/-- The frames a source is read for. -/
def framesRead (i : ℕ) (es : List Stimulus) : List (List UInt8) :=
  es.flatMap fun
    | .read source frames _ _ => if source = i then frames else []
    | _ => []

theorem framesRead_concat (i : ℕ) (es : List Stimulus) (e : Stimulus) :
    framesRead i (es ++ [e]) = framesRead i es ++ framesRead i [e] :=
  List.flatMap_append

theorem framesRead_read (i : ℕ) (frames : List (List UInt8)) (stale : List UInt8)
    (timestamp : Timestamp) : framesRead i [.read i frames stale timestamp] = frames := by
  simp [framesRead]

/-- What a step does to a source: it is read, or keeps what it has captured. -/
inductive SourceTurn (i : ℕ) : Stimulus → Source → Source → Prop where
  | read (s : Source) (frames : List (List UInt8)) (stale : List UInt8) (timestamp : Timestamp) :
    SourceTurn i (.read i frames stale timestamp) s (s.step (.read frames stale timestamp))
  | keeps {e : Stimulus} {s s' : Source} (frames : framesRead i [e] = [])
    (capturing : s'.capturing = s.capturing) (parameters : s'.parameters = s.parameters) :
    SourceTurn i e s s'

/-- **Every step leaves the sources where they are.** -/
theorem step_source (hx : x.Tied) (e : Stimulus) (i : ℕ) :
    Option.Rel (SourceTurn i e) (x.application.pipeline.source? i)
      ((x.step e).application.pipeline.source? i) := by
  have hkeeps : framesRead i [e] = [] → (x.step e).application.pipeline.source? i =
      x.application.pipeline.source? i → Option.Rel (SourceTurn i e)
        (x.application.pipeline.source? i) ((x.step e).application.pipeline.source? i) := by
    intro hframes heq
    rw [heq]
    cases x.application.pipeline.source? i with
    | none => exact .none
    | some s => exact .some (.keeps hframes rfl rfl)
  cases e with
  | read source frames stale timestamp =>
    have hread : (x.step (.read source frames stale timestamp)).application.pipeline.source? i =
        _ := Pipeline.source?_onRead source frames stale timestamp x.application.pipeline i
    by_cases hi : source = i
    · subst hi
      rw [hread]
      cases x.application.pipeline.source? source with
      | none => exact .none
      | some s =>
        rw [Option.map_some, if_pos rfl]
        exact .some (.read s frames stale timestamp)
    · refine hkeeps (by simp [framesRead, hi]) (hread.trans ?_)
      cases x.application.pipeline.source? i with
      | none => rfl
      | some s => rw [Option.map_some, if_neg hi]
  | produceChunk environment outputs =>
    have hlinked := hx.reachable.linked
    rw [step, produceChunk_eq hx.exclusive] at hkeeps ⊢
    dsimp only at hkeeps ⊢
    rw [Application.produceChunk_pipeline hlinked] at hkeeps ⊢
    cases Pipeline.produceStep hlinked.circular
        (x.application.consumer environment x.served.answers) with
    | quiet _ sources => exact hkeeps rfl (sources i)
    | offers s s' chunk rest source contents _ asked others parameters capturing consuming =>
      by_cases hi : i = x.application.pipeline.multiplexor.due
      · subst hi
        rw [source, asked]
        exact .some (.keeps rfl capturing parameters)
      · exact hkeeps rfl (others i hi)
  | other e outputs => exact hkeeps rfl rfl
  | session connection e => exact hkeeps rfl rfl

/-- What was captured stays. -/
theorem step_captured (hx : x.Tied) {e : Stimulus} (he : x.enabled e) {i : ℕ} {s : Source}
    (hs : x.application.pipeline.source? i = some s) :
    ∃ s', (x.step e).application.pipeline.source? i = some s' ∧
      s.capturing.enqueued <+: s'.capturing.enqueued := by
  have hstep := step_source hx e i
  rw [hs] at hstep
  generalize (x.step e).application.pipeline.source? i = after at hstep
  cases hstep with
  | some hturn =>
    refine ⟨_, rfl, ?_⟩
    cases hturn with
    | read s frames stale timestamp =>
      have hread := @Pipeline.read_source i i _ s
        (hx.reachable.linked.serialised.ordered i s hs) frames stale timestamp fun _ => he s hs
      rw [if_pos rfl] at hread
      obtain ⟨more, -, hmore⟩ := hread.2.chunks
      exact ⟨more, hmore.symm⟩
    | keeps _ capturing _ => rw [capturing]

/-- **A step captures what is read.** -/
theorem step_captures (hx : x.Tied) {e : Stimulus} (he : x.enabled e) {es : List Stimulus}
    (hcaptures : ∀ i s, x.application.pipeline.source? i = some s → s.Captures (framesRead i es))
    {i : ℕ} {s' : Source} (hs' : (x.step e).application.pipeline.source? i = some s') :
    s'.Captures (framesRead i (es ++ [e])) := by
  have hordered := (step_tied hx he).reachable.linked.serialised.ordered i s' hs'
  have hstep := step_source hx e i
  rw [hs'] at hstep
  rw [framesRead_concat]
  cases hs : x.application.pipeline.source? i with
  | none =>
    rw [hs] at hstep
    cases hstep
  | some s =>
    have hold := hcaptures i s hs
    have hvalid := (hx.reachable.linked.serialised.ordered i s hs).valid
    rw [hs] at hstep
    cases hstep with
    | some hturn =>
      cases hturn with
      | read _ more stale timestamp =>
        have hread := Source.step_captures hvalid hold (he s hs)
        have hmore : Source.framesRead [.read more stale timestamp] = more := List.append_nil more
        rw [hmore] at hread
        rwa [framesRead_read]
      | keeps frames capturing parameters =>
        rw [frames, List.append_nil]
        refine ⟨hordered.allocated, ?_⟩
        rw [capturing, parameters]
        exact hold.perfect

/-! ### What was got -/

/-- When a stream is prepared, no session is in the last one any more. -/
def Rested (x : Playback) : Stimulus → Prop
  | .produceChunk _ _ => x.streamer.state = .started →
    ∀ e ∈ x.streamer.commandSessions, ¬ (e.2.state = .buffering ∨ e.2.state = .playing)
  | _ => True

instance (x : Playback) : DecidablePred (Rested x)
  | .produceChunk _ _ => inferInstanceAs (Decidable (x.streamer.state = .started →
      ∀ e ∈ x.streamer.commandSessions, ¬ (e.2.state = .buffering ∨ e.2.state = .playing)))
  | .read _ _ _ _ | .other _ _ | .session _ _ => isTrue trivial

/-- **The invariant**: the HTTP sessions follow the sessions that refer to them, and what was
provided to them is a stretch of what one source has captured, at their own rate. -/
structure Heard (x : Playback) : Prop extends Tied x where
  rated : ∀ entry ∈ x.streams, ∀ chunk ∈ entry.2.provided,
    chunk.endOfStream = false ∧ chunk.samplingRate = entry.2.session.encoder.samplingRate
  follows : Streamer.Followed x.application.delivery.log x.streamer.commandSessions x.streams
  stretches : ∀ entry ∈ x.streams, ∃ i s, x.application.pipeline.source? i = some s ∧
    entry.2.provided <:+: s.capturing.enqueued

/-- There is a source. -/
theorem Tied.source (hx : x.Tied) : ∃ i s, x.application.pipeline.source? i = some s :=
  ⟨_, _, List.getElem?_eq_getElem hx.reachable.linked.circular.due_lt⟩

/-- Only a call by the scheduler gives a chunk to an HTTP session. -/
theorem calls_silent {e : Stimulus} (he : x.enabled e)
    (hnot : ∀ environment outputs, e ≠ .produceChunk environment outputs) {c : ℕ}
    {call : StreamingSession.Stimulus} (h : (c, call) ∈ x.calls e) (s : StreamingSession) :
    s.provided call = [] := by
  cases e with
  | read source frames stale timestamp => cases h
  | produceChunk environment outputs => exact absurd rfl (hnot environment outputs)
  | other e outputs =>
    rw [calls, otherCalls.eq_def] at h
    split at h
    · split at h
      · cases h
      · obtain ⟨entry, -, heq⟩ := List.mem_map.mp h
        rw [← (Prod.mk.inj heq).2]
        rfl
    · rw [(Prod.mk.inj (List.mem_singleton.mp h)).2]
      rfl
    · rw [(Prod.mk.inj (List.mem_singleton.mp h)).2]
      rfl
    · cases h
  | session connection e =>
    rw [(Prod.mk.inj (List.mem_singleton.mp h)).2]
    have hevent : isEvent e = true := by
      change sessionEnabled x.streams connection e at he
      rw [sessionEnabled] at he
      split at he
      · exact he.elim
      · exact he.1
    cases e with
    | consumeChunk chunk output finish => cases hevent
    | _ => rfl

/-- An HTTP session in any other step: it was there and gets nothing, or is new. -/
theorem step_silent (hx : x.Tied) {e : Stimulus} (he : x.enabled e)
    (hnot : ∀ environment outputs, e ≠ .produceChunk environment outputs) {entry : ℕ × Listening}
    (hentry : entry ∈ (x.step e).streams) :
    (∃ r, (entry.1, r) ∈ x.streams ∧ entry.2.provided = r.provided ∧
        StreamingSession.Ages r.session entry.2.session) ∨
      entry.1 ∉ x.streams.map Prod.fst ∧ entry.2.provided = [] := by
  obtain ⟨r, hr, hcalled⟩ := mem_step hx.exclusive hx.distinct hentry
  have hsilent : entry.2.provided = r.provided ∧
      StreamingSession.Ages r.session entry.2.session := by
    rcases hcalled with ⟨-, hsame⟩ | ⟨call, hcall, hstep⟩
    · rw [hsame]
      exact ⟨rfl, .refl _⟩
    · rw [hstep]
      refine ⟨?_, r.step_ages call⟩
      show r.provided ++ r.session.provided call = r.provided
      rw [calls_silent he hnot hcall, List.append_nil]
  have hold : (entry.1, r) ∈ x.streams ∨
      entry.1 ∉ x.streams.map Prod.fst ∧ r.provided = [] := by
    cases e with
    | other e outputs =>
      rcases List.mem_append.mp hr with hr | hr
      · exact Or.inl hr
      · obtain ⟨hnew, clientID, hstarted⟩ := mem_opened hr
        refine Or.inr ⟨hnew, ?_⟩
        rw [show r = _ from hstarted]
    | _ => exact Or.inl hr
  rcases hold with hold | ⟨hnew, hnil⟩
  · exact Or.inl ⟨r, hold, hsilent⟩
  · exact Or.inr ⟨hnew, hsilent.1.trans hnil⟩

/-- What the sessions and the log are after any other step. -/
theorem step_references (hx : x.Tied) {e : Stimulus} (he : x.enabled e)
    (hnot : ∀ environment outputs, e ≠ .produceChunk environment outputs) :
    (∀ address, (x.step e).application.delivery.log.acceptedBy address =
        x.application.delivery.log.acceptedBy address) ∧
      ∀ s ∈ (x.step e).streamer.commandSessions, ∀ c, s.2.streamingSession = some c →
        Streamer.Stays x.streamer s.2 c ∨ c ∉ x.streams.map Prod.fst := by
  have hstay : ∀ s ∈ x.streamer.commandSessions, ∀ c, s.2.streamingSession = some c →
      Streamer.Stays x.streamer s.2 c ∨ c ∉ x.streams.map Prod.fst :=
    fun s hs c hc => Or.inl ⟨s, hs, rfl, Or.inl rfl, hc⟩
  cases e with
  | read source frames stale timestamp => exact ⟨fun _ => rfl, hstay⟩
  | produceChunk environment outputs => exact absurd rfl (hnot environment outputs)
  | other e outputs =>
    refine ⟨Streamer.acceptedBy_logOther x.application.delivery e, fun s hs c hc => ?_⟩
    refine (Streamer.other_references he.1.1 he.1.2 hs hc).imp_right fun hnew => ?_
    rw [hx.connections]
    intro hmem
    obtain ⟨entry, hentry, rfl⟩ := List.mem_map.mp hmem
    rw [List.any_eq_false] at hnew
    exact hnew entry hentry (beq_self_eq_true _)
  | session connection e => exact ⟨fun _ => rfl, hstay⟩

/-- **Every other step keeps it.** -/
theorem silent_heard (hx : x.Heard) {e : Stimulus} (he : x.enabled e)
    (hnot : ∀ environment outputs, e ≠ .produceChunk environment outputs) : (x.step e).Heard where
  toTied := step_tied hx.toTied he
  rated entry hentry chunk hchunk := by
    rcases step_silent hx.toTied he hnot hentry with ⟨r, hr, hprovided, hages⟩ | ⟨-, hnil⟩
    · rw [hages.samplingRate]
      exact hx.rated (entry.1, r) hr chunk (hprovided ▸ hchunk)
    · rw [hnil] at hchunk
      cases hchunk
  follows s hs entry hentry hc := by
    obtain ⟨hlog, hsessions⟩ := step_references hx.toTied he hnot
    rcases step_silent hx.toTied he hnot hentry with ⟨r, hr, hprovided, hages⟩ | ⟨-, hnil⟩
    · rcases hsessions s hs entry.1 hc with ⟨d, hd, haddress, hstate, hreference⟩ | hnew
      · rw [hlog, haddress]
        exact ((hx.follows d hd (entry.1, r) hr hreference).of_state hstate).of_silent hprovided
          hages
      · exact absurd (List.mem_map_of_mem (f := Prod.fst) hr) hnew
    · exact FollowsSession.of_nil hnil _ _
  stretches entry hentry := by
    rcases step_silent hx.toTied he hnot hentry with ⟨r, hr, hprovided, -⟩ | ⟨-, hnil⟩
    · obtain ⟨i, s, hs, hwithin⟩ := hx.stretches (entry.1, r) hr
      obtain ⟨s', hs', hgrows⟩ := step_captured hx.toTied he hs
      exact ⟨i, s', hs', hprovided ▸ hwithin.trans hgrows.isInfix⟩
    · obtain ⟨i, s, hs⟩ := (step_tied hx.toTied he).source
      exact ⟨i, s, hs, hnil ▸ List.nil_infix⟩

/-! ### The presentation of a chunk -/

/-- **The sessions when a chunk is about to be offered to them**: a stream that goes on goes on,
and one that is prepared begins with sessions that have left the last one. -/
theorem before_followed (hx : x.Heard) (environment : Environment) (outputs : Outputs)
    (hrested : x.Rested (.produceChunk environment outputs)) (chunk : Chunk) :
    Streamer.Followed x.application.delivery.logBefore
      (x.streamer.beforeStreaming environment chunk).2.commandSessions x.streams := by
  intro e he entry hentry hc
  rw [Streamer.beforeStreaming_sessions] at he
  by_cases hstarted : x.streamer.state = .started
  · have hlog : x.application.delivery.logBefore = x.application.delivery.log.reset :=
      if_pos hstarted
    split at he
    · obtain ⟨d, hd, rfl⟩ := List.mem_map.mp he
      have hkeeps := (CommandSession.prepare_changes
        ((x.streamer.setSamplingRate chunk.samplingRate).context environment) chunk.samplingRate
          d.2).toKeeps
      exact (hx.follows d hd entry hentry (Streamer.Keeps.reference_eq hkeeps hc)).prepared
        (hrested hstarted d hd) _ _ (by rw [hc]; rfl) _
    · have hfollows := hx.follows e he entry hentry hc
      exact ⟨hfollows.fresh, fun hp => absurd hp (hrested hstarted e he)⟩
  · have hlog : x.application.delivery.logBefore = x.application.delivery.log := if_neg hstarted
    rw [if_neg fun h => hstarted h.1] at he
    rw [hlog]
    exact hx.follows e he entry hentry hc

/-- The Streamer when it offers a chunk to the sessions. -/
def offering (environment : Environment) (chunk : Chunk) (x : Playback) : Streamer :=
  (x.streamer.beforeStreaming environment chunk).2.tryPlaying environment

theorem offering_stream (environment : Environment) (chunk : Chunk) (x : Playback) :
    Streamer.SameStream (x.streamer.beforeStreaming environment chunk).2
      (x.offering environment chunk) :=
  Streamer.tryPlaying_stream environment _

/-- The chunk is offered to the sessions. -/
def isOffered (environment : Environment) (chunk : Chunk) (x : Playback) : Prop :=
  (x.streamer.beforeStreaming environment chunk).2.isStreaming = true ∧
    (x.streamer.beforeStreaming environment chunk).2.samplingRate = chunk.samplingRate

theorem asked_of_offered {environment : Environment} {chunk : Chunk}
    (hs : x.isOffered environment chunk) :
    x.served.asked environment chunk =
      Streamer.asked (x.offering environment chunk).streamedChunks
        (x.offering environment chunk).sessionToChunkSequenceMap
        (x.offering environment chunk).commandSessions := by
  have hsame := offering_stream environment chunk x
  rw [hsame.streamedChunks, hsame.entries, hsame.commandSessions]
  exact if_pos hs

theorem asked_of_not_offered {environment : Environment} {chunk : Chunk}
    (hs : ¬ x.isOffered environment chunk) : x.served.asked environment chunk = [] :=
  if_neg hs

/-- The sessions after a chunk was offered to them. -/
theorem sessions_of_offered (hx : x.Tied) {environment : Environment} {chunk : Chunk}
    (hs : x.isOffered environment chunk) :
    (x.streamer.consumeChunk environment x.served.answers chunk).2.commandSessions =
      (x.offering environment chunk).commandSessions.map
        (Streamer.offered ((x.offering environment chunk).context environment)
          x.served.answers chunk (x.offering environment chunk).streamedChunks
          (x.offering environment chunk).sessionToChunkSequenceMap) := by
  have hsame := offering_stream environment chunk x
  have hsessions := Streamer.consumeChunk_sessions environment x.served.answers chunk
    hx.exclusive.toRegistered
  rw [hsame.streamedChunks, hsame.entries, hsame.commandSessions, hsessions]
  exact if_pos hs

/-- The sessions after a chunk that is not offered to them. -/
theorem sessions_of_not_offered (hx : x.Tied) {environment : Environment} {chunk : Chunk}
    (hs : ¬ x.isOffered environment chunk) :
    (x.streamer.consumeChunk environment x.served.answers chunk).2.commandSessions =
      (x.streamer.beforeStreaming environment chunk).2.commandSessions := by
  rw [Streamer.consumeChunk_sessions environment x.served.answers chunk hx.exclusive.toRegistered]
  exact if_neg hs

theorem offering_exclusive (hx : x.Tied) (environment : Environment) (chunk : Chunk) :
    Streamer.Exclusive (x.offering environment chunk) := by
  have hbefore := hx.exclusive.beforeStreaming environment chunk
  have hsame := offering_stream environment chunk x
  refine ⟨hbefore.toRegistered.of_same hsame.registry, ?_⟩
  rw [hsame.commandSessions]
  exact hbefore.references

/-- The HTTP sessions answer for the sessions that refer to them. -/
theorem offering_answers (hx : x.Tied) (environment : Environment) (chunk : Chunk) :
    ∀ e ∈ (x.offering environment chunk).commandSessions, ∀ c, e.2.streamingSession = some c →
      x.served.answers e.2.address = x.streams.replies c := by
  intro e he c hc
  rw [(offering_stream environment chunk x).commandSessions] at he
  obtain ⟨d, hd, -, hkeeps⟩ := Streamer.beforeStreaming_mem he
  rw [hkeeps.address]
  exact ServedStreamer.answers_of_mem (x := x.served) hx.exclusive.toRegistered hd
    (Streamer.Keeps.reference_eq hkeeps hc)

/-- A chunk with data that was offered belongs to a stream that goes on. -/
theorem data_inStream {item : Streamer.Item} {d d' : Streamer.Delivery} {completed result : Bool}
    (h : Streamer.ChunkStep item d d' completed result) (hdata : item.2.endOfStream = false)
    (hbefore : d.streamer.state = .started ∨ d.streamer.inStream) :
    d'.streamer.inStream ∧ d'.streamer.samplingRate = item.2.samplingRate := by
  cases h with
  | stopped before same =>
    rw [Streamer.inStream, before] at hbefore
    rcases hbefore with h | h | h | h <;> cases h
  | prepares before after log rate => exact ⟨Or.inl after, rate⟩
  | streams before isData after offers result log rate => exact ⟨Or.inr after, rate⟩
  | ends before isEnd => exact absurd (hdata.symm.trans isEnd) Bool.false_ne_true
  | drains before =>
    rw [Streamer.inStream, before] at hbefore
    rcases hbefore with h | h | h | h <;> cases h

/-- The sources have not lost anything. -/
def Captured (x x' : Playback) : Prop :=
  ∀ i s, x.application.pipeline.source? i = some s →
    ∃ s', x'.application.pipeline.source? i = some s' ∧
      s.capturing.enqueued <+: s'.capturing.enqueued

/-- Nothing is given to the HTTP sessions. -/
theorem heard_of_same (hx : x.Heard) {x' : Playback} (htied : x'.Tied)
    (hcaptured : Captured x x') (hstreams : x'.streams = x.streams)
    (hfollows : Streamer.Followed x'.application.delivery.log x'.streamer.commandSessions
      x.streams) : x'.Heard where
  toTied := htied
  rated := by
    rw [hstreams]
    exact hx.rated
  follows := by
    rw [hstreams]
    exact hfollows
  stretches entry hentry := by
    rw [hstreams] at hentry
    obtain ⟨i, s, hs, hwithin⟩ := hx.stretches entry hentry
    obtain ⟨s', hs', hgrows⟩ := hcaptured i s hs
    exact ⟨i, s', hs', hwithin.trans hgrows.isInfix⟩

section Round

variable {environment : Environment} {outputs : Outputs} {p : Pipeline} {chunk : Chunk}
  {result : Bool}

/-- The log once the chunk was offered to the sessions. -/
def offeredLog (environment : Environment) (chunk : Chunk) (x : Playback) :
    Log ℕ Streamer.Item :=
  let round := (x.offering environment chunk).round environment x.served.answers chunk
  x.application.delivery.logBefore.present (x.application.nextNumber, chunk) round.offers
    round.result

/-- **What is known when the chunk is offered to the sessions.** -/
theorem roundBegins (hx : x.Heard) (hrested : x.Rested (.produceChunk environment outputs))
    (haccepted : chunk.endOfStream = false → ∀ e ∈ (x.offering environment chunk).commandSessions,
      ∀ item ∈ (x.offeredLog environment chunk).acceptedBy e.2.address,
        item.2.samplingRate = chunk.samplingRate) :
    Streamer.RoundBegins (x.offering environment chunk) x.streams x.application.delivery.logBefore
      (x.application.nextNumber, chunk) x.served.answers where
  exclusive := offering_exclusive hx.toTied environment chunk
  distinct := hx.distinct
  answers := offering_answers hx.toTied environment chunk
  rated entry hentry c hc := (hx.rated entry hentry c hc).2
  same hdata e he item hitem := by
    refine haccepted hdata e he item ?_
    rw [offeredLog, Log.acceptedBy_present]
    exact List.mem_append_left _ hitem
  follows := by
    rw [(offering_stream environment chunk x).commandSessions]
    exact before_followed hx environment outputs hrested chunk

/-- **A round keeps it.** -/
theorem heard_of_round (hx : x.Heard) (outputs : Outputs) {x' : Playback} (htied : x'.Tied)
    (hcaptured : Captured x x')
    (h : Streamer.RoundBegins (x.offering environment chunk) x.streams
      x.application.delivery.logBefore (x.application.nextNumber, chunk) x.served.answers)
    (hlog : x'.application.delivery.log = x.offeredLog environment chunk)
    (hsessions : x'.streamer.commandSessions =
      (x.offering environment chunk).commandSessions.map
        (Streamer.offered ((x.offering environment chunk).context environment) x.served.answers
          chunk (x.offering environment chunk).streamedChunks
          (x.offering environment chunk).sessionToChunkSequenceMap))
    (hstreams : x'.streams = x.streams.consumeAll outputs chunk
      (Streamer.asked (x.offering environment chunk).streamedChunks
        (x.offering environment chunk).sessionToChunkSequenceMap
        (x.offering environment chunk).commandSessions))
    (haccepted : chunk.endOfStream = false → ∃ i s,
      x'.application.pipeline.source? i = some s ∧
        ∀ e ∈ (x.offering environment chunk).commandSessions,
          ((x.offeredLog environment chunk).acceptedBy e.2.address).map Prod.snd <:+:
            s.capturing.enqueued) : x'.Heard where
  toTied := htied
  rated entry hentry c hc := by
    rw [hstreams] at hentry
    obtain ⟨r, hr, hages, hsame | ⟨hone, hdata, hrate, -⟩⟩ := h.gets environment outputs hentry
    · rw [hages.samplingRate]
      exact hx.rated (entry.1, r) hr c (hsame ▸ hc)
    · rw [hages.samplingRate]
      rw [hone] at hc
      rcases List.mem_append.mp hc with hc | hc
      · exact hx.rated (entry.1, r) hr c hc
      · rw [List.mem_singleton.mp hc]
        exact ⟨hdata, hrate⟩
  follows := by
    rw [hlog, hsessions, hstreams]
    exact h.followed environment outputs
  stretches entry hentry := by
    rw [hstreams] at hentry
    obtain ⟨r, hr, -, hsame | ⟨-, hdata, -, e, he, hsuffix⟩⟩ := h.gets environment outputs hentry
    · obtain ⟨i, s, hs, hwithin⟩ := hx.stretches (entry.1, r) hr
      obtain ⟨s', hs', hgrows⟩ := hcaptured i s hs
      exact ⟨i, s', hs', hsame ▸ hwithin.trans hgrows.isInfix⟩
    · obtain ⟨i, s, hs, hwithin⟩ := haccepted hdata
      exact ⟨i, s, hs, hsuffix.isInfix.trans (hwithin e he)⟩

/-- **What the sessions have accepted** once a chunk with data was offered to them. -/
theorem accepted_of_offered (hx : x.Tied) (hs : x.isOffered environment chunk)
    (hoffers : x.application.Offers p chunk result) {a : Application} (ha : a.Reachable)
    (hstreamer : a.delivery.streamer =
      (x.streamer.consumeChunk environment x.served.answers chunk).2)
    (hlog : a.delivery.log = x.offeredLog environment chunk)
    (hdata : chunk.endOfStream = false) :
    ∃ i s, a.pipeline.source? i = some s ∧
      ∀ e ∈ (x.offering environment chunk).commandSessions,
        ((x.offeredLog environment chunk).acceptedBy e.2.address).map Prod.snd <:+:
            s.capturing.enqueued ∧
          ∀ item ∈ (x.offeredLog environment chunk).acceptedBy e.2.address,
            item.2.samplingRate = chunk.samplingRate := by
  have hstep : Streamer.ChunkStep (x.application.nextNumber, chunk) x.application.delivery
      ⟨(x.streamer.consumeChunk environment x.served.answers chunk).2,
        x.application.delivery.logAfter environment x.served.answers
          (x.application.nextNumber, chunk)⟩ _ _ := hoffers.chunkStep hx.reachable.linked
  obtain ⟨hin, hrate⟩ := data_inStream hstep hdata (Streamer.inStream_of_streaming hs.1)
  dsimp only at hin hrate
  rw [← hstreamer] at hin hrate
  obtain ⟨i, s, hsource, hheard⟩ := ha.accepted hin
  refine ⟨i, s, hsource, fun e he => ?_⟩
  have hmem := List.mem_map_of_mem (f := Streamer.offered
    ((x.offering environment chunk).context environment) x.served.answers chunk
    (x.offering environment chunk).streamedChunks
    (x.offering environment chunk).sessionToChunkSequenceMap) he
  rw [← sessions_of_offered hx hs, ← hstreamer] at hmem
  obtain ⟨hwithin, hrates⟩ := hheard _ hmem
  rw [(Streamer.offered_address x.served.answers chunk _ _ _ e).2, hlog] at hwithin hrates
  exact ⟨hwithin, fun item hitem => (hrates item hitem).trans hrate⟩

end Round

/-- **A call by the scheduler keeps it.** -/
theorem produceChunk_heard (hx : x.Heard) (environment : Environment) (outputs : Outputs)
    (hrested : x.Rested (.produceChunk environment outputs)) :
    (x.step (.produceChunk environment outputs)).Heard := by
  have htied := step_tied hx.toTied (e := .produceChunk environment outputs) trivial
  have hcaptured : Captured x (x.step (.produceChunk environment outputs)) :=
    fun i s hs => step_captured hx.toTied (e := .produceChunk environment outputs) trivial hs
  have hconsumer := consumer_eq hx.exclusive environment outputs
  rw [step, produceChunk_eq hx.exclusive, chunkCalls, hconsumer] at htied hcaptured ⊢
  rcases x.application.produceChunk_cases hx.reachable.linked environment x.served.answers with
    ⟨heq, -, hnone⟩ | ⟨chunk, hoffers, heq, hone⟩
  · -- no source has a chunk
    rw [heq, hnone] at htied hcaptured ⊢
    exact heard_of_same hx htied hcaptured rfl hx.follows
  rw [heq, hone, List.flatMap_singleton] at htied hcaptured ⊢
  by_cases hs : x.isOffered environment chunk
  · have hlog : x.application.delivery.logAfter environment x.served.answers
        (x.application.nextNumber, chunk) = x.offeredLog environment chunk := if_pos hs
    have haccepted := accepted_of_offered hx.toTied hs hoffers htied.reachable rfl hlog
    have hrates : chunk.endOfStream = false →
        ∀ e ∈ (x.offering environment chunk).commandSessions,
          ∀ item ∈ (x.offeredLog environment chunk).acceptedBy e.2.address,
            item.2.samplingRate = chunk.samplingRate := by
      intro hdata e he
      obtain ⟨_, _, _, h⟩ := haccepted hdata
      exact (h e he).2
    refine heard_of_round hx outputs htied hcaptured (roundBegins hx hrested hrates) hlog
      (sessions_of_offered hx.toTied hs) ?_ ?_
    · rw [← asked_of_offered hs]
      rfl
    · intro hdata
      obtain ⟨i, s, hsource, h⟩ := haccepted hdata
      exact ⟨i, s, hsource, fun e he => (h e he).1⟩
  · -- the sessions are not offered the chunk
    have hlog : x.application.delivery.logAfter environment x.served.answers
        (x.application.nextNumber, chunk) = x.application.delivery.logBefore := if_neg hs
    rw [asked_of_not_offered hs] at htied hcaptured ⊢
    refine heard_of_same hx htied hcaptured rfl ?_
    show Streamer.Followed (x.application.delivery.logAfter environment x.served.answers
      (x.application.nextNumber, chunk)) (x.streamer.consumeChunk environment x.served.answers
        chunk).2.commandSessions x.streams
    rw [hlog, sessions_of_not_offered hx.toTied hs]
    exact before_followed hx environment outputs hrested chunk

/-- **Every step keeps it.** -/
theorem step_heard (hx : x.Heard) {e : Stimulus} (he : x.enabled e) (hrested : x.Rested e) :
    (x.step e).Heard := by
  cases e with
  | produceChunk environment outputs => exact produceChunk_heard hx environment outputs hrested
  | read source frames stale timestamp => exact silent_heard hx he fun _ _ => Stimulus.noConfusion
  | other e outputs => exact silent_heard hx he fun _ _ => Stimulus.noConfusion
  | session connection e => exact silent_heard hx he fun _ _ => Stimulus.noConfusion

theorem exec_heard (hx : x.Heard) {es : List Stimulus}
    (hes : (system.restrict Rested).Admits x es) : (system.exec x es).Heard := by
  have hrun := (system.restrict Rested).exec_invariant Heard
    (fun _ _ hx he => step_heard hx he.1 he.2) es x hx hes
  rwa [System.restrict_exec] at hrun

theorem create_heard {sources : List Source} (hne : sources ≠ [])
    (hsources : ∀ s ∈ sources,
      ∃ p now, p.Valid ∧ p.samplingRate ≠ 0 ∧ s = Source.create p now)
    (streamingPort : ℕ) (format : FormatSelection) (gain : Option ℕ) (now : Timestamp)
    (version : String) : Heard (create sources streamingPort format gain now version) where
  toTied := create_tied hne hsources streamingPort format gain now version
  rated := List.forall_mem_nil _
  follows _ _ _ hentry := by cases hentry
  stretches := List.forall_mem_nil _

/-- **What was provided to an HTTP session.** -/
structure HearsOneSource (x : Playback) (connection : ℕ) (r : Listening) : Prop where
  stretch : ∃ i s, x.application.pipeline.source? i = some s ∧ r.provided <:+: s.capturing.enqueued
  data : ∀ chunk ∈ r.provided,
    chunk.endOfStream = false ∧ chunk.samplingRate = r.session.encoder.samplingRate
  /-- As long as the HTTP session runs, these are the last chunks its session has accepted. -/
  latest : ∀ e ∈ x.streamer.commandSessions, e.2.streamingSession = some connection →
    e.2.state = .buffering ∨ e.2.state = .playing → r.session.running = true →
      r.provided <:+ (x.application.delivery.log.acceptedBy e.2.address).map Prod.snd

/-- **An HTTP session hears one source**, without gaps: whatever the devices capture, the players
send and the connections do, if no session is still in a stream when the next one is prepared. -/
theorem one_source_heard {sources : List Source} (hne : sources ≠ [])
    (hsources : ∀ s ∈ sources,
      ∃ p now, p.Valid ∧ p.samplingRate ≠ 0 ∧ s = Source.create p now)
    (streamingPort : ℕ) (format : FormatSelection) (gain : Option ℕ) (now : Timestamp)
    (version : String) {es : List Stimulus}
    (hes : (system.restrict Rested).Admits
      (create sources streamingPort format gain now version) es) :
    ∀ entry ∈ (system.exec (create sources streamingPort format gain now version) es).streams,
      HearsOneSource (system.exec (create sources streamingPort format gain now version) es)
        entry.1 entry.2 := by
  have hheard := exec_heard (create_heard hne hsources streamingPort format gain now version) hes
  intro entry hentry
  exact ⟨hheard.stretches entry hentry, hheard.rated entry hentry,
    fun e he hc hplaying hr => (hheard.follows e he entry hentry hc).playing hplaying hr⟩

theorem one_source_heard_onePlayer :
    (∀ entry ∈ (system.exec (create Pipeline.twoSources 9001 .PCM none ⟨0⟩ "1") onePlayer).streams,
      HearsOneSource
        (system.exec (create Pipeline.twoSources 9001 .PCM none ⟨0⟩ "1") onePlayer)
        entry.1 entry.2) ∧
      (system.exec (create Pipeline.twoSources 9001 .PCM none ⟨0⟩ "1") onePlayer).streams.map
        (fun entry => (entry.1, entry.2.provided.map Chunk.payload)) = [(2, [[7], [8]])] :=
  ⟨one_source_heard (by decide) Application.twoSources_rated 9001 .PCM none ⟨0⟩ "1"
    (by decide +kernel), by decide +kernel⟩

/-! ### The octets -/

/-- The HTTP session has the wave encoder, and its connection and rate are among those that are
watched. -/
def Watched (watched : ℕ → ℕ → Prop) (entry : ℕ × Listening) : Prop :=
  entry.2.session.encoder.kind = .wave ∧ watched entry.1 entry.2.session.encoder.samplingRate

/-- The calls of the HTTP sessions that are watched are as they should be. -/
def EachCall (watched : ℕ → ℕ → Prop) (P : Listening → StreamingSession.Stimulus → Prop)
    (x : Playback) (e : Stimulus) : Prop :=
  ∀ call ∈ x.calls e, ∀ entry ∈ x.callees e, entry.1 = call.1 → Watched watched entry →
    P entry.2 call.2

/-- No write of these HTTP sessions fails, and no flush drops anything. -/
def Undisturbed (watched : ℕ → ℕ → Prop) : Playback → Stimulus → Prop :=
  EachCall watched fun r => StreamingSession.Graceful r.session

/-- Each chunk provided to one of them is empty, or finds the encoder running and enough free
buffers. -/
def Fits (watched : ℕ → ℕ → Prop) : Playback → Stimulus → Prop := EachCall watched Listening.Fits

section

variable (watched : ℕ → ℕ → Prop) [∀ connection rate, Decidable (watched connection rate)]

instance (entry : ℕ × Listening) : Decidable (Watched watched entry) :=
  inferInstanceAs (Decidable (_ ∧ _))

instance (P : Listening → StreamingSession.Stimulus → Prop) [∀ r call, Decidable (P r call)]
    (x : Playback) (e : Stimulus) : Decidable (EachCall watched P x e) :=
  inferInstanceAs (Decidable (∀ call ∈ x.calls e, ∀ entry ∈ x.callees e, _))

instance (x : Playback) (e : Stimulus) : Decidable (Undisturbed watched x e) :=
  inferInstanceAs (Decidable (EachCall _ _ _ _))

instance (x : Playback) (e : Stimulus) : Decidable (Fits watched x e) :=
  inferInstanceAs (Decidable (EachCall _ _ _ _))

end

/-- The octets of the HTTP sessions that are watched are the payloads of what was provided. -/
def Intact (watched : ℕ → ℕ → Prop) (x : Playback) : Prop :=
  ∀ entry ∈ x.streams, Watched watched entry → entry.2.Wave ∧ entry.2.Intact

variable {watched : ℕ → ℕ → Prop}

/-- A call does not change who is watched. -/
theorem Watched.of_step {entry : ℕ × Listening} (h : Watched watched entry) {r : Listening}
    {call : StreamingSession.Stimulus} (hstep : entry.2 = r.step call) :
    Watched watched (entry.1, r) := by
  have hages := r.step_ages call
  rw [Watched, hstep, hages.kind, hages.samplingRate] at h
  exact h

/-- A call of an HTTP session is one that may happen. -/
theorem calls_enabled (hx : x.Tied) {e : Stimulus} (he : x.enabled e) {c : ℕ}
    {call : StreamingSession.Stimulus} (h : (c, call) ∈ x.calls e) {r : Listening}
    (hr : (c, r) ∈ x.callees e) :
    StreamingSession.enabled r.session call ∧ StreamingSession.isEncoded call = false := by
  cases e with
  | read source frames stale timestamp => cases h
  | produceChunk environment outputs =>
    rcases chunkCalls_cases environment outputs x with hnone | ⟨offer, -, hcalls⟩
    · rw [calls, hnone] at h
      cases h
    · rw [calls, hcalls] at h
      obtain ⟨d, -, heq⟩ := List.mem_map.mp h
      rw [← (Prod.mk.inj heq).2]
      exact ⟨trivial, rfl⟩
  | other e outputs =>
    rw [calls, otherCalls.eq_def] at h
    split at h
    · split at h
      · cases h
      · obtain ⟨entry, -, heq⟩ := List.mem_map.mp h
        rw [← (Prod.mk.inj heq).2]
        exact ⟨trivial, rfl⟩
    · rw [(Prod.mk.inj (List.mem_singleton.mp h)).2]
      exact ⟨trivial, rfl⟩
    · rw [(Prod.mk.inj (List.mem_singleton.mp h)).2]
      exact ⟨trivial, rfl⟩
    · cases h
  | session connection e =>
    obtain ⟨rfl, rfl⟩ := Prod.mk.inj (List.mem_singleton.mp h)
    change sessionEnabled x.streams c call at he
    rw [sessionEnabled] at he
    split at he
    · exact he.elim
    · rename_i r' hr'
      have hsame := List.inj_on_of_nodup_map hx.distinct hr (Streamer.mem_of_lookup hr') rfl
      rw [(Prod.mk.inj hsame).2]
      refine ⟨he.2, ?_⟩
      cases call with
      | encoded data => cases he.1
      | _ => rfl

/-- A new HTTP session has an empty queue. -/
theorem opened_intact {outputs : Outputs} {e : Streamer.Stimulus} {entry : ℕ × Listening}
    (h : entry ∈ x.opened outputs e) (hkind : entry.2.session.encoder.kind = .wave) :
    entry.2.Wave ∧ entry.2.Intact := by
  obtain ⟨-, clientID, hstarted⟩ := mem_opened h
  rw [hstarted] at hkind ⊢
  cases hformat : x.streamer.format with
  | PCM =>
    exact ⟨⟨StreamingSession.transferring_started _ _ _ _ _ _, rfl⟩, rfl⟩
  | FLAC =>
    rw [hformat] at hkind
    have hidles := StreamingSession.encodedAll_idles outputs.start
      (StreamingSession.create clientID .flac x.streamer.samplingRate
        (FormatSelection.mime .FLAC))
    cases hidles.toAges.kind.symm.trans hkind

/-- **Every step keeps the octets.** -/
theorem step_intact (hx : x.Tied) (hi : x.Intact watched) {e : Stimulus} (he : x.enabled e)
    (hundisturbed : x.Undisturbed watched e) (hfits : x.Fits watched e) :
    (x.step e).Intact watched := by
  intro entry hentry hwatched
  obtain ⟨r, hr, hcalled⟩ := mem_step hx.exclusive hx.distinct hentry
  have hbefore : Watched watched (entry.1, r) → r.Wave ∧ r.Intact := by
    intro hwatched
    cases e with
    | other e outputs =>
      rcases List.mem_append.mp hr with hr | hr
      · exact hi (entry.1, r) hr hwatched
      · exact opened_intact hr hwatched.1
    | _ => exact hi (entry.1, r) hr hwatched
  rcases hcalled with ⟨-, hsame⟩ | ⟨call, hcall, hstep⟩
  · rw [hsame]
    exact hbefore (hsame ▸ hwatched)
  · have hwatchedBefore : Watched watched (entry.1, r) := hwatched.of_step hstep
    obtain ⟨hwave, hintact⟩ := hbefore hwatchedBefore
    obtain ⟨henabled, hencoded⟩ := calls_enabled hx he hcall hr
    have hallowed : r.enabled call :=
      ⟨henabled, hencoded, hundisturbed (entry.1, call) hcall (entry.1, r) hr rfl hwatchedBefore⟩
    rw [hstep]
    exact ⟨Listening.step_wave hwave hallowed,
      (Listening.step_intact_iff hwave hintact hallowed).mpr
        (hfits (entry.1, call) hcall (entry.1, r) hr rfl hwatchedBefore)⟩

/-- **What every run keeps**, from the devices to the connections. -/
structure Played (watched : ℕ → ℕ → Prop) (es : List Stimulus) (x : Playback) : Prop
    extends Heard x where
  intact : x.Intact watched
  captures : ∀ i s, x.application.pipeline.source? i = some s → s.Captures (framesRead i es)

/-- The condition of a run without losses. -/
def Faithful (watched : ℕ → ℕ → Prop) (x : Playback) (e : Stimulus) : Prop :=
  x.Rested e ∧ x.Undisturbed watched e ∧ x.Fits watched e

instance [∀ connection rate, Decidable (watched connection rate)] (x : Playback) (e : Stimulus) :
    Decidable (Faithful watched x e) :=
  inferInstanceAs (Decidable (_ ∧ _ ∧ _))

theorem step_played {es : List Stimulus} (hx : Played watched es x) {e : Stimulus}
    (he : x.enabled e) (hfaithful : x.Faithful watched e) :
    Played watched (es ++ [e]) (x.step e) where
  toHeard := step_heard hx.toHeard he hfaithful.1
  intact := step_intact hx.toTied hx.intact he hfaithful.2.1 hfaithful.2.2
  captures _ _ hs := step_captures hx.toTied he hx.captures hs

theorem create_played {sources : List Source} (hne : sources ≠ [])
    (hsources : ∀ s ∈ sources,
      ∃ p now, p.Valid ∧ p.samplingRate ≠ 0 ∧ s = Source.create p now)
    (streamingPort : ℕ) (format : FormatSelection) (gain : Option ℕ) (now : Timestamp)
    (version : String) :
    Played watched [] (create sources streamingPort format gain now version) where
  toHeard := create_heard hne hsources streamingPort format gain now version
  intact := List.forall_mem_nil _
  captures i s hs := by
    obtain ⟨p, now, -, -, rfl⟩ := hsources s (List.mem_of_getElem? hs)
    exact Source.create_captures p now

theorem exec_played {y : Playback} (hy : Played watched [] y) {es : List Stimulus}
    (hes : (system.restrict (Faithful watched)).Admits y es) :
    Played watched es (system.exec y es) := by
  induction es using List.reverseRecOn with
  | nil => exact hy
  | append_singleton es e ih =>
    rw [System.admits_concat, System.restrict_exec] at hes
    rw [System.exec_concat]
    exact step_played (ih hes.1) hes.2.1 hes.2.2

/-- The octets on the connection of an HTTP session, and those that are left to transfer, are the
payloads of chunks one source has captured one after the other; and if its queue was never full,
they are octets of the streams its device was read for, without gaps. -/
def PlaysDevice (es : List Stimulus) (x : Playback) (r : Listening) : Prop :=
  ∃ i s, x.application.pipeline.source? i = some s ∧
    (∃ chunks, chunks <:+: s.capturing.enqueued ∧ r.octets = chunks.flatMap Chunk.payload) ∧
    (s.capturing.overflows = 0 →
      r.octets <:+: (s.parameters.markers.run false (framesRead i es)).flatten)

theorem Played.playsDevice {es : List Stimulus} (hx : Played watched es x)
    {entry : ℕ × Listening} (hentry : entry ∈ x.streams) (hwatched : Watched watched entry) :
    PlaysDevice es x entry.2 := by
  obtain ⟨i, s, hs, hstretch⟩ := hx.stretches entry hentry
  have hintact : entry.2.octets = entry.2.provided.flatMap Chunk.payload :=
    (hx.intact entry hentry hwatched).2
  refine ⟨i, s, hs, ⟨entry.2.provided, hstretch, hintact⟩, fun hfull => ?_⟩
  have hdata : entry.2.provided.filter (fun chunk => !chunk.endOfStream) = entry.2.provided := by
    rw [List.filter_eq_self]
    intro chunk hchunk
    rw [(hx.rated entry hentry chunk hchunk).1]
    rfl
  have hwithin : entry.2.provided <:+: Source.dataChunks s.capturing.enqueued := by
    rw [← hdata]
    exact hstretch.filter _
  rw [hintact, ← ((hx.captures i s hs).perfect hfull).2.2.payloads]
  exact hwithin.flatMap _

/-- **Bit-perfect playback**: the octets a player with the wave encoder gets are octets of one
device, whatever else happens, as long as none of its writes fails and no chunk is too large for
it. -/
theorem bit_perfect_playback (watched : ℕ → ℕ → Prop) {sources : List Source}
    (hne : sources ≠ [])
    (hsources : ∀ s ∈ sources,
      ∃ p now, p.Valid ∧ p.samplingRate ≠ 0 ∧ s = Source.create p now)
    (streamingPort : ℕ) (format : FormatSelection) (gain : Option ℕ) (now : Timestamp)
    (version : String) {es : List Stimulus}
    (hes : (system.restrict (Faithful watched)).Admits
      (create sources streamingPort format gain now version) es) :
    ∀ entry ∈ (system.exec (create sources streamingPort format gain now version) es).streams,
      Watched watched entry →
        PlaysDevice es (system.exec (create sources streamingPort format gain now version) es)
          entry.2 := by
  have hplayed := exec_played
    (create_played hne hsources streamingPort format gain now version) hes
  intro entry hentry hwatched
  exact hplayed.playsDevice hentry hwatched

theorem bit_perfect_playback_onePlayer :
    (∀ entry ∈ (system.exec (create Pipeline.twoSources 9001 .PCM none ⟨0⟩ "1") onePlayer).streams,
      Watched (fun connection _ => connection = 2) entry →
        PlaysDevice onePlayer
          (system.exec (create Pipeline.twoSources 9001 .PCM none ⟨0⟩ "1") onePlayer) entry.2) ∧
      (system.exec (create Pipeline.twoSources 9001 .PCM none ⟨0⟩ "1") onePlayer).streams.map
        (fun entry => (entry.1, entry.2.octets)) = [(2, [7, 8])] :=
  ⟨bit_perfect_playback (fun connection _ => connection = 2) (by decide)
    Application.twoSources_rated 9001 .PCM none ⟨0⟩ "1" (by decide +kernel), by decide +kernel⟩

end Playback

end SlimStreamer
