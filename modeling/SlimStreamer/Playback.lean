import SlimStreamer.Application
import SlimStreamer.Proto.ServedStreams

/-!
# From the devices to the players

The application with its HTTP sessions: a source captures frames, the Streamer gives the chunks
to the SlimProto sessions, these give them to the HTTP sessions their players have opened, and an
HTTP session writes them to its connection while the event loop goes on.

* `produceChunk_eq` — a call by the scheduler is the application's, with the answers of the HTTP
  sessions, and then one call of each HTTP session that was asked;
* `mem_step` — what becomes of an HTTP session in a step;
* `step_tied` — no reference dangles, and the HTTP sessions are those the Streamer knows of;
* `playback_refines_application` — so a run is one of the application.
-/

namespace SlimStreamer

open GuardedExecution SequencedBroadcast

/-- The encoder that is built for a format. -/
def FormatSelection.encoderKind : FormatSelection → EncoderKind
  | .PCM => .wave
  | .FLAC => .flac

def FormatSelection.mime : FormatSelection → String
  | .PCM => "audio/x-wave"
  | .FLAC => "audio/flac"

namespace Application

/-- The application is in a state it gets to from devices with valid parameters. -/
def Reachable (a : Application) : Prop :=
  ∃ sources streamingPort format gain now es, sources ≠ [] ∧
    (∀ s ∈ sources, ∃ p now, p.Valid ∧ p.samplingRate ≠ 0 ∧ s = Source.create p now) ∧
    system.Admits (create sources streamingPort format gain now) es ∧
    system.exec (create sources streamingPort format gain now) es = a

variable {a : Application}

theorem Reachable.linked (ha : a.Reachable) : a.Linked := by
  obtain ⟨sources, streamingPort, format, gain, now, es, hne, hsources, hes, rfl⟩ := ha
  exact exec_linked (create_linked hne hsources streamingPort format gain now) hes

theorem Reachable.once (ha : a.Reachable) : Streamer.ExactlyOnce a.delivery := by
  obtain ⟨sources, streamingPort, format, gain, now, es, hne, hsources, hes, rfl⟩ := ha
  exact exec_broadcasts (create_linked hne hsources streamingPort format gain now) hes

theorem Reachable.step (ha : a.Reachable) {e : Stimulus} (he : a.enabled e) :
    (a.step e).Reachable := by
  obtain ⟨sources, streamingPort, format, gain, now, es, hne, hsources, hes, rfl⟩ := ha
  refine ⟨sources, streamingPort, format, gain, now, es ++ [e], hne, hsources, ?_, ?_⟩
  · rw [System.admits_concat]
    exact ⟨hes, he⟩
  · rw [System.exec_concat]
    rfl

end Application

structure Playback where
  application : Application
  streams : HTTPSessions
  /-- The HTTP connections whose close the Streamer was told of. -/
  closed : List ℕ
  version : String

namespace Playback

/-- A turn of a producer thread, a call by the scheduler, another call of the Streamer, or what
the event loop and the connection do to an HTTP session. -/
inductive Stimulus where
  | read (source : ℕ) (frames : List (List UInt8)) (stale : List UInt8) (timestamp : Timestamp)
  | produceChunk (environment : Environment) (outputs : Outputs)
  | other (e : Streamer.Stimulus) (outputs : Outputs)
  | session (connection : ℕ) (e : StreamingSession.Stimulus)

def create (sources : List Source) (streamingPort : ℕ) (format : FormatSelection)
    (gain : Option ℕ) (now : Timestamp) (version : String) : Playback where
  application := Application.create sources streamingPort format gain now
  streams := []
  closed := []
  version := version

def streamer (x : Playback) : Streamer := x.application.delivery.streamer

/-- The Streamer with the HTTP sessions. -/
def served (x : Playback) : ServedStreamer := ⟨x.streamer, x.streams⟩

/-! ### What happens when -/

/-- What the event loop and the connection do on their own. -/
def isEvent : StreamingSession.Stimulus → Bool
  | .transferTask _ | .completion _ | .flushTimer | .postedCallback => true
  | _ => false

/-- The event concerns an HTTP session that is there. -/
def sessionEnabled (streams : HTTPSessions) (connection : ℕ) (e : StreamingSession.Stimulus) :
    Prop :=
  match streams.lookup connection with
  | none => False
  | some r => isEvent e = true ∧ StreamingSession.enabled r.session e

/-- An HTTP session is erased by the callback it was given when it was stopped. -/
def mayErase (streams : HTTPSessions) : Streamer.Stimulus → Prop
  | .httpRemoved connection => (streams.lookup connection).any
      (fun r => r.session.finishedCallbacks.contains (some connection)) = true
  | _ => True

def enabled (x : Playback) : Stimulus → Prop
  | .read source frames stale timestamp =>
    x.application.enabled (.read source frames stale timestamp)
  | .produceChunk _ _ => True
  | .other e _ => x.application.enabled (.other e) ∧ Streamer.isLive x.closed e ∧
    mayErase x.streams e
  | .session connection e => sessionEnabled x.streams connection e

instance (streams : HTTPSessions) (connection : ℕ) (e : StreamingSession.Stimulus) :
    Decidable (sessionEnabled streams connection e) := by
  unfold sessionEnabled
  split <;> infer_instance

instance (streams : HTTPSessions) : DecidablePred (mayErase streams)
  | .httpRemoved _ => inferInstanceAs (Decidable (_ = true))
  | .start _ | .stop _ | .slimProtoOpen _ _ | .slimProtoClose _ | .slimProtoData _ _ _ _
  | .pingTimer _ _ | .pingHandler _ _ | .httpData _ _ | .httpClose _ | .chunk _ _ _ =>
    isTrue trivial

instance (x : Playback) : DecidablePred x.enabled
  | .read source frames stale timestamp =>
    inferInstanceAs (Decidable (x.application.enabled (.read source frames stale timestamp)))
  | .produceChunk _ _ => instDecidableTrue
  | .other e _ => inferInstanceAs (Decidable (x.application.enabled (.other e) ∧
      Streamer.isLive x.closed e ∧ mayErase x.streams e))
  | .session connection e => inferInstanceAs (Decidable (sessionEnabled x.streams connection e))

/-! ### The calls of the HTTP sessions -/

/-- The HTTP session a request makes the Streamer create, if it does. -/
def opened (outputs : Outputs) (x : Playback) : Streamer.Stimulus → HTTPSessions
  | .httpData connection buffer =>
    if (x.streams.lookup connection).isSome then []
    else
      match Streamer.parseClientID buffer with
      | none => []
      | some clientID =>
        match x.streamer.findSessionByID clientID with
        | none => []
        | some _ => [(connection, ⟨StreamingSession.started clientID x.streamer.format.encoderKind
            x.streamer.samplingRate x.streamer.format.mime x.version outputs.start, []⟩)]
  | _ => []

/-- The calls of HTTP sessions another call of the Streamer makes. -/
def otherCalls (outputs : Outputs) (x : Playback) :
    Streamer.Stimulus → List (ℕ × StreamingSession.Stimulus)
  | .stop _ =>
    if x.streamer.state = .stopped then []
    else x.streams.map fun e => (e.1, .stop none (outputs.finish e.1))
  | .httpData connection buffer =>
    [(connection, .onRequest (buffer ++ outputs.stale) (outputs.finish connection))]
  | .httpClose connection => [(connection, .stop (some connection) (outputs.finish connection))]
  | _ => []

/-- The HTTP session is destroyed once it is erased. -/
def erase (streams : HTTPSessions) : Streamer.Stimulus → HTTPSessions
  | .httpRemoved connection => Streamer.eraseSession streams connection
  | _ => streams

/-- `consumerPtr->consumeChunk`. -/
def consumer (environment : Environment) (outputs : Outputs) (x : Playback) (chunk : Chunk) :
    Bool :=
  (x.served.consumeChunk environment outputs chunk).1

/-- The Streamer is offered a chunk and calls its HTTP sessions.  It goes on with what they answer,
which they have already made up (`ServedStreamer.consumeChunk_eq`). -/
def present (environment : Environment) (outputs : Outputs) (x : Playback) (offer : Offer) :
    Playback :=
  { x with
    application := x.application.present environment x.served.answers offer
    streams := (x.served.consumeChunk environment outputs offer.chunk).2.streams }

/-- `producerPtr->produceChunk`, with `consumerPtr->consumeChunk`. -/
def produceChunk (environment : Environment) (outputs : Outputs) (x : Playback) : Playback :=
  let consumer := x.consumer environment outputs
  (x.application.pipeline.offersOfStep (.produceChunk consumer)).foldl (present environment outputs)
    { x with application := { x.application with
        pipeline := x.application.pipeline.produceChunk consumer } }

def step (x : Playback) : Stimulus → Playback
  | .read source frames stale timestamp =>
    { x with application := x.application.step (.read source frames stale timestamp) }
  | .produceChunk environment outputs => x.produceChunk environment outputs
  | .other e outputs =>
    { x with
      application := x.application.step (.other e)
      streams := erase ((x.streams ++ x.opened outputs e).perform (x.otherCalls outputs e)) e
      closed := Streamer.closes x.closed e }
  | .session connection e => { x with streams := x.streams.call connection e }

def system : System Playback Stimulus where
  enabled := enabled
  step := step

instance (x : Playback) (e : Stimulus) : Decidable (system.enabled x e) :=
  inferInstanceAs (Decidable (x.enabled e))

/-! ### A step, call by call -/

/-- The calls of `consumeChunk` of the HTTP sessions. -/
def chunkCalls (environment : Environment) (outputs : Outputs) (x : Playback) :
    List (ℕ × StreamingSession.Stimulus) :=
  (x.application.pipeline.offersOfStep (.produceChunk (x.consumer environment outputs))).flatMap
    fun offer => (x.served.asked environment offer.chunk).map fun c =>
      (c, outputs.chunkCall offer.chunk c)

/-- The calls of the HTTP sessions in a step. -/
def calls (x : Playback) : Stimulus → List (ℕ × StreamingSession.Stimulus)
  | .read _ _ _ _ => []
  | .produceChunk environment outputs => x.chunkCalls environment outputs
  | .other e outputs => x.otherCalls outputs e
  | .session connection e => [(connection, e)]

/-- The HTTP sessions that may be called in a step. -/
def callees (x : Playback) : Stimulus → HTTPSessions
  | .other e outputs => x.streams ++ x.opened outputs e
  | _ => x.streams

variable {x : Playback}

/-- The scheduler's call offers one chunk at most. -/
theorem offersOfStep_cases (p : Pipeline) (consumer : Chunk → Bool) :
    p.offersOfStep (.produceChunk consumer) = [] ∨
      ∃ offer, p.offersOfStep (.produceChunk consumer) = [offer] := by
  rw [Pipeline.offersOfStep]
  cases (p.multiplexor.produceChunk (Source.producer consumer) Source.Delivery.result).2.1 with
  | none => exact Or.inl rfl
  | some asked =>
    rw [Pipeline.offersOf]
    cases asked.2.offered with
    | none => exact Or.inl rfl
    | some chunk => exact Or.inr ⟨_, rfl⟩

theorem consumer_eq (hx : Streamer.Exclusive x.streamer) (environment : Environment)
    (outputs : Outputs) :
    x.consumer environment outputs = x.application.consumer environment x.served.answers := by
  funext chunk
  exact congrArg Prod.fst
    (ServedStreamer.consumeChunk_eq (x := x.served) environment outputs chunk hx)

/-- **A call by the scheduler** is the call with the answers of the HTTP sessions. -/
theorem produceChunk_eq (hx : Streamer.Exclusive x.streamer) (environment : Environment)
    (outputs : Outputs) :
    x.produceChunk environment outputs =
      { x with
        application := x.application.produceChunk environment x.served.answers
        streams := x.streams.perform (x.chunkCalls environment outputs) } := by
  have hconsumer := consumer_eq hx environment outputs
  rw [produceChunk, Application.produceChunk, chunkCalls, hconsumer]
  rcases offersOfStep_cases x.application.pipeline
    (x.application.consumer environment x.served.answers) with hnone | ⟨offer, hoffer⟩
  · rw [hnone]
    rfl
  · have hserved :=
      ServedStreamer.consumeChunk_eq (x := x.served) environment outputs offer.chunk hx
    rw [hoffer, List.foldl_cons, List.foldl_nil, List.foldl_cons, List.foldl_nil,
      List.flatMap_singleton, present]
    exact congrArg (fun streams : HTTPSessions => Playback.mk _ streams x.closed x.version)
      (congrArg (fun r => r.2.streams) hserved)

/-- What a call by the scheduler makes of the HTTP sessions. -/
theorem chunkCalls_cases (environment : Environment) (outputs : Outputs) (x : Playback) :
    x.chunkCalls environment outputs = [] ∨
      ∃ offer, x.application.pipeline.offersOfStep
          (.produceChunk (x.consumer environment outputs)) = [offer] ∧
        x.chunkCalls environment outputs = (x.served.asked environment offer.chunk).map fun c =>
          (c, outputs.chunkCall offer.chunk c) := by
  rw [chunkCalls]
  rcases offersOfStep_cases x.application.pipeline (x.consumer environment outputs) with
    hnone | ⟨offer, hoffer⟩
  · rw [hnone]
    exact Or.inl rfl
  · rw [hoffer, List.flatMap_singleton]
    exact Or.inr ⟨offer, rfl, rfl⟩

theorem asked_nodup (hx : Streamer.Exclusive x.streamer) (environment : Environment)
    (chunk : Chunk) : (x.served.asked environment chunk).Nodup := by
  rw [ServedStreamer.asked]
  split
  · exact (hx.beforeStreaming environment chunk).asked_nodup
  · exact List.nodup_nil

/-- **No HTTP session is called twice in a step.** -/
theorem calls_nodup (hx : Streamer.Exclusive x.streamer) (hkeys : (x.streams.map Prod.fst).Nodup)
    (e : Stimulus) : ((x.calls e).map Prod.fst).Nodup := by
  cases e with
  | read source frames stale timestamp => exact List.nodup_nil
  | produceChunk environment outputs =>
    rw [calls]
    rcases chunkCalls_cases environment outputs x with hnone | ⟨offer, -, hcalls⟩
    · rw [hnone]
      exact List.nodup_nil
    · rw [hcalls, List.map_map]
      exact (List.map_id (x.served.asked environment offer.chunk)).symm ▸ asked_nodup hx _ _
  | other e outputs =>
    rw [calls, otherCalls.eq_def]
    split
    · split
      · exact List.nodup_nil
      · rw [List.map_map]
        exact hkeys
    · exact List.nodup_singleton _
    · exact List.nodup_singleton _
    · exact List.nodup_nil
  | session connection e => exact List.nodup_singleton _

theorem mem_erase {streams : HTTPSessions} {e : Streamer.Stimulus} {entry : ℕ × Listening}
    (h : entry ∈ erase streams e) : entry ∈ streams := by
  rw [erase.eq_def] at h
  split at h
  · exact List.mem_of_mem_filter h
  · exact h

theorem step_streams (hx : Streamer.Exclusive x.streamer) (e : Stimulus) {entry : ℕ × Listening}
    (h : entry ∈ (x.step e).streams) : entry ∈ (x.callees e).perform (x.calls e) := by
  cases e with
  | read source frames stale timestamp => exact h
  | produceChunk environment outputs =>
    rw [step, produceChunk_eq hx] at h
    exact h
  | other e outputs => exact mem_erase h
  | session connection e => exact h

/-- **What becomes of an HTTP session in a step**: it was there before, or is created by the step,
and it is called once at most. -/
theorem mem_step (hx : Streamer.Exclusive x.streamer) (hkeys : (x.streams.map Prod.fst).Nodup)
    {e : Stimulus} {entry : ℕ × Listening} (h : entry ∈ (x.step e).streams) :
    ∃ r, (entry.1, r) ∈ x.callees e ∧
      (entry.1 ∉ (x.calls e).map Prod.fst ∧ entry.2 = r ∨
        ∃ call, (entry.1, call) ∈ x.calls e ∧ entry.2 = r.step call) :=
  HTTPSessions.mem_perform (calls_nodup hx hkeys e) (step_streams hx e h)

/-! ### The connections -/

/-- **What every run keeps**: no reference dangles, and the objects are those the Streamer knows
of. -/
structure Tied (x : Playback) : Prop where
  reachable : x.application.Reachable
  referred : Streamer.Referred x.closed x.streamer
  connections : x.streams.map Prod.fst = x.streamer.streamingSessions.map Prod.fst
  distinct : (x.streams.map Prod.fst).Nodup

theorem Tied.exclusive (hx : x.Tied) : Streamer.Exclusive x.streamer := hx.referred.exclusive

theorem create_tied {sources : List Source} (hne : sources ≠ [])
    (hsources : ∀ s ∈ sources,
      ∃ p now, p.Valid ∧ p.samplingRate ≠ 0 ∧ s = Source.create p now)
    (streamingPort : ℕ) (format : FormatSelection) (gain : Option ℕ) (now : Timestamp)
    (version : String) : Tied (create sources streamingPort format gain now version) where
  reachable := ⟨sources, streamingPort, format, gain, now, [], hne, hsources, trivial, rfl⟩
  referred := Streamer.referred_create streamingPort format gain now
  connections := rfl
  distinct := List.nodup_nil

/-- Calls do not change the connections. -/
theorem perform_connections (calls : List (ℕ × StreamingSession.Stimulus))
    (streams : HTTPSessions) :
    (streams.perform calls).map Prod.fst = streams.map Prod.fst := by
  induction calls generalizing streams with
  | nil => rfl
  | cons c calls ih =>
    refine (ih (streams.call c.1 c.2)).trans ?_
    rw [HTTPSessions.call, Streamer.applyToSession, List.map_map]
    refine List.map_congr_left fun entry _ => ?_
    by_cases hentry : entry.1 = c.1
    · simp [hentry]
    · simp [hentry]

theorem lookup_isSome {β : Type} (l : List (ℕ × β)) (c : ℕ) :
    (l.lookup c).isSome = (l.map Prod.fst).contains c := by
  induction l with
  | nil => rfl
  | cons e l ih =>
    rw [List.lookup_cons, List.map_cons, List.contains_cons]
    cases c == e.1 with
    | true => rfl
    | false => exact ih

/-- The Streamer is asked for a chunk, or it is not. -/
theorem produceChunk_streamer {a : Application} (ha : a.Linked) (environment : Environment)
    (answers : ℕ → Bool) :
    (a.produceChunk environment answers).delivery.streamer = a.delivery.streamer ∨
      ∃ chunk, (a.produceChunk environment answers).delivery.streamer =
        (a.delivery.streamer.consumeChunk environment answers chunk).2 := by
  rcases a.produceChunk_cases ha environment answers with ⟨heq, -⟩ | ⟨chunk, -, heq, -⟩
  · left
    rw [heq]
  · right
    refine ⟨chunk, ?_⟩
    rw [heq]
    rfl

/-- The HTTP sessions after a request. -/
theorem opened_connections (hx : x.Tied) (outputs : Outputs) (connection : ℕ)
    (buffer : List UInt8) :
    (x.streams ++ x.opened outputs (.httpData connection buffer)).map Prod.fst =
      (x.streamer.onHTTPData connection buffer).1.streamingSessions.map Prod.fst := by
  have hknown : (x.streams.lookup connection).isSome =
      x.streamer.streamingSessions.any fun entry => entry.1 == connection := by
    rw [lookup_isSome, hx.connections, List.contains_eq_any_beq, List.any_map]
    congr 1
    funext entry
    exact BEq.comm
  rw [opened, hknown, Streamer.onHTTPData]
  cases h : x.streamer.streamingSessions.any fun entry => entry.1 == connection with
  | true => simp [hx.connections]
  | false =>
    cases Streamer.parseClientID buffer with
    | none => simp [hx.connections]
    | some clientID =>
      cases hfound : x.streamer.findSessionByID clientID with
      | none => simp [hfound, hx.connections, Streamer.stopConnection]
      | some session =>
        simp [hfound, hx.connections, h, Streamer.addSession, Streamer.setStreamingSession,
          Streamer.applyToCommandSession]

theorem opened_eq_nil (outputs : Outputs) (x : Playback) {e : Streamer.Stimulus}
    (he : ∀ connection buffer, e ≠ .httpData connection buffer) : x.opened outputs e = [] := by
  cases e with
  | httpData connection buffer => exact absurd rfl (he connection buffer)
  | _ => rfl

/-- A new HTTP session has given out nothing, on a connection that had none. -/
theorem mem_opened {outputs : Outputs} {e : Streamer.Stimulus} {entry : ℕ × Listening}
    (h : entry ∈ x.opened outputs e) :
    entry.1 ∉ x.streams.map Prod.fst ∧ ∃ clientID, entry.2 =
      ⟨StreamingSession.started clientID x.streamer.format.encoderKind x.streamer.samplingRate
        x.streamer.format.mime x.version outputs.start, []⟩ := by
  rw [opened.eq_def] at h
  split at h
  · rename_i connection buffer
    split at h
    · cases h
    · rename_i hnone
      split at h
      · cases h
      · split at h
        · cases h
        · rw [List.mem_singleton] at h
          subst h
          refine ⟨?_, _, rfl⟩
          rw [lookup_isSome, List.contains_iff_mem] at hnone
          exact hnone
  · cases h

theorem opened_nodup (outputs : Outputs) (x : Playback) (e : Streamer.Stimulus) :
    ((x.opened outputs e).map Prod.fst).Nodup := by
  rw [opened.eq_def]
  split
  · split
    · exact List.nodup_nil
    · split
      · exact List.nodup_nil
      · split
        · exact List.nodup_nil
        · exact List.nodup_singleton _
  · exact List.nodup_nil

theorem before_nodup (hx : x.Tied) (e : Stimulus) : ((x.callees e).map Prod.fst).Nodup := by
  cases e with
  | other e outputs =>
    rw [callees, List.map_append, List.nodup_append]
    refine ⟨hx.distinct, opened_nodup outputs x e, ?_⟩
    rintro c hc d hd rfl
    obtain ⟨entry, hentry, rfl⟩ := List.mem_map.mp hd
    exact (mem_opened hentry).1 hc
  | _ => exact hx.distinct

theorem erase_connections (streams : HTTPSessions) (connection : ℕ) {β : Type}
    (sessions : List (ℕ × β)) (h : streams.map Prod.fst = sessions.map Prod.fst) :
    (Streamer.eraseSession streams connection).map Prod.fst =
      (Streamer.eraseSession sessions connection).map Prod.fst := by
  have hfilter : ∀ {γ : Type} (l : List (ℕ × γ)),
      (Streamer.eraseSession l connection).map Prod.fst =
      (l.map Prod.fst).filter fun c => c != connection := by
    intro γ l
    rw [List.filter_map]
    rfl
  rw [hfilter, hfilter, h]

/-- The HTTP sessions after another call of the Streamer are those it knows of. -/
theorem other_connections (hx : x.Tied) {e : Streamer.Stimulus} (he : Streamer.NoChunk e)
    (outputs : Outputs) :
    (x.step (.other e outputs)).streams.map Prod.fst =
      (x.step (.other e outputs)).streamer.streamingSessions.map Prod.fst := by
  have hbefore : ((x.streams ++ x.opened outputs e).perform (x.otherCalls outputs e)).map Prod.fst =
      (x.streams ++ x.opened outputs e).map Prod.fst := perform_connections _ _
  have hsame : (∀ connection buffer, e ≠ .httpData connection buffer) →
      (Streamer.step x.streamer e).streamingSessions = x.streamer.streamingSessions →
      ((x.streams ++ x.opened outputs e).perform (x.otherCalls outputs e)).map Prod.fst =
        (Streamer.step x.streamer e).streamingSessions.map Prod.fst := by
    intro hnot hsessions
    rw [hbefore, opened_eq_nil outputs x hnot, List.append_nil, hsessions, hx.connections]
  show (erase ((x.streams ++ x.opened outputs e).perform (x.otherCalls outputs e)) e).map Prod.fst =
    (Streamer.step x.streamer e).streamingSessions.map Prod.fst
  by_cases hinternal : Streamer.isInternal e = true
  · have hhttp := (Streamer.step_evolves hx.referred.toRegistered hinternal).2
    cases e with
    | httpRemoved connection => cases hinternal
    | httpData connection buffer => cases hinternal
    | _ => exact hsame (fun _ _ => Streamer.Stimulus.noConfusion) hhttp.streamingSessions
  · cases e with
    | slimProtoOpen connection environment =>
      exact hsame (fun _ _ => Streamer.Stimulus.noConfusion) rfl
    | slimProtoClose connection =>
      exact hsame (fun _ _ => Streamer.Stimulus.noConfusion)
        (Streamer.onSlimProtoClose_http connection x.streamer).streamingSessions
    | httpData connection buffer =>
      exact hbefore.trans (opened_connections hx outputs connection buffer)
    | httpClose connection =>
      exact hsame (fun _ _ => Streamer.Stimulus.noConfusion)
        (Streamer.onHTTPClose_stored connection x.streamer).1
    | httpRemoved connection =>
      refine erase_connections _ connection _ ?_
      rw [hbefore, opened_eq_nil outputs x fun _ _ => Streamer.Stimulus.noConfusion,
        List.append_nil, hx.connections]
    | _ => exact absurd rfl hinternal

/-- **Every step keeps the connections.** -/
theorem step_tied (hx : x.Tied) {e : Stimulus} (he : x.enabled e) : (x.step e).Tied := by
  have hdistinct : ((x.step e).streams.map Prod.fst).Nodup := by
    have hperform := before_nodup hx e
    rw [← perform_connections (x.calls e)] at hperform
    cases e with
    | read source frames stale timestamp => exact hx.distinct
    | produceChunk environment outputs =>
      rw [step, produceChunk_eq hx.exclusive]
      exact hperform
    | other e outputs =>
      refine hperform.sublist (List.Sublist.map _ ?_)
      show (erase _ e).Sublist _
      rw [erase.eq_def]
      split
      · exact List.filter_sublist
      · exact List.Sublist.refl _
    | session connection e => exact hperform
  cases e with
  | read source frames stale timestamp =>
    exact ⟨hx.reachable.step (e := .read source frames stale timestamp) he, hx.referred,
      hx.connections, hdistinct⟩
  | produceChunk environment outputs =>
    rw [step, produceChunk_eq hx.exclusive] at hdistinct ⊢
    have hreachable := hx.reachable.step (e := .produceChunk environment x.served.answers) trivial
    have hconnections := (perform_connections (x.chunkCalls environment outputs) x.streams).trans
      hx.connections
    rcases produceChunk_streamer hx.reachable.linked environment x.served.answers with
      hsame | ⟨chunk, hchunk⟩
    · refine ⟨hreachable, ?_, ?_, hdistinct⟩
      · rw [streamer, hsame]
        exact hx.referred
      · rw [streamer, hsame]
        exact hconnections
    · refine ⟨hreachable, ?_, ?_, hdistinct⟩
      · rw [streamer, hchunk]
        exact Streamer.referred_step (e := .chunk environment x.served.answers chunk) hx.referred
          trivial trivial
      · rw [streamer, hchunk, (Streamer.consumeChunk_http environment _ chunk _).streamingSessions]
        exact hconnections
  | other e outputs =>
    exact ⟨hx.reachable.step he.1, Streamer.referred_step hx.referred he.1.2 he.2.1,
      other_connections hx he.1.1 outputs, hdistinct⟩
  | session connection e =>
    exact ⟨hx.reachable, hx.referred,
      (perform_connections [(connection, e)] x.streams).trans hx.connections, hdistinct⟩

/-! ### The application -/

/-- **A step is a step of the application**, with the answers of the HTTP sessions. -/
theorem step_application (hx : x.Tied) {e : Stimulus} (he : x.enabled e) :
    ∃ calls, Application.system.Admits x.application calls ∧
      (x.step e).application = Application.system.exec x.application calls := by
  cases e with
  | read source frames stale timestamp =>
    exact ⟨[.read source frames stale timestamp], ⟨he, trivial⟩, rfl⟩
  | produceChunk environment outputs =>
    refine ⟨[.produceChunk environment x.served.answers], ⟨trivial, trivial⟩, ?_⟩
    rw [step, produceChunk_eq hx.exclusive]
    rfl
  | other e outputs => exact ⟨[.other e], ⟨he.1, trivial⟩, rfl⟩
  | session connection e => exact ⟨[], trivial, rfl⟩

/-- What is delivered, and to whom. -/
structure Serves (x : Playback) : Prop where
  streams : Pipeline.SerialStreams x.application.pipeline
  once : Streamer.ExactlyOnce x.application.delivery
  streamed : Application.dataOf (Pipeline.accepted x.application.pipeline.offers) =
    Application.dataOf x.application.streamed
  sessions : x.streams.map Prod.fst = x.streamer.streamingSessions.map Prod.fst
  /-- The HTTP session a SlimProto session refers to is there, and no other one refers to it. -/
  references : ∀ e ∈ x.streamer.commandSessions, ∀ c, e.2.streamingSession = some c →
    c ∈ x.streams.map Prod.fst ∧
      ∀ d ∈ x.streamer.commandSessions, d.2.streamingSession = some c → d = e

theorem Tied.serves (hx : x.Tied) : x.Serves where
  streams := hx.reachable.linked.serialised.serialStreams
  once := hx.reachable.once
  streamed := hx.reachable.linked.streamed.symm
  sessions := hx.connections
  references e he c hc := by
    refine ⟨?_, fun d hd hdc => hx.exclusive.references d hd e he c hdc hc⟩
    have hknown := (hx.referred.reference e he c hc).1
    rw [hx.connections]
    exact List.mem_map_of_mem (f := Prod.fst) (Streamer.mem_of_lookup hknown)

/-- **With its HTTP sessions the application does what it does without them**: a run is one of the
application, whose answers are those of the HTTP sessions; and these are the ones the Streamer
knows of, whatever the players, the event loop and the connections do. -/
theorem playback_refines_application {sources : List Source} (hne : sources ≠ [])
    (hsources : ∀ s ∈ sources,
      ∃ p now, p.Valid ∧ p.samplingRate ≠ 0 ∧ s = Source.create p now)
    (streamingPort : ℕ) (format : FormatSelection) (gain : Option ℕ) (now : Timestamp)
    (version : String) {es : List Stimulus}
    (hes : system.Admits (create sources streamingPort format gain now version) es) :
    ∃ calls, Application.system.Admits
        (.create sources streamingPort format gain now) calls ∧
      (system.exec (create sources streamingPort format gain now version) es).application =
        Application.system.exec (.create sources streamingPort format gain now) calls ∧
      Serves (system.exec (create sources streamingPort format gain now version) es) := by
  have hcreated := create_tied hne hsources streamingPort format gain now version
  obtain ⟨calls, hcalls, htied, heq⟩ := System.exec_simulation system Application.system
    (fun x a => x.Tied ∧ x.application = a) (by
      rintro x _ e ⟨hx, rfl⟩ he
      obtain ⟨calls, hcalls, hexec⟩ := step_application hx he
      exact ⟨calls, hcalls, step_tied hx he, hexec⟩) es _ _ ⟨hcreated, rfl⟩ hes
  exact ⟨calls, hcalls, heq, htied.serves⟩

/-- What the encoder writes: nothing. -/
def silent : Outputs := ⟨[], fun _ => [], fun _ => [], []⟩

/-- A player connects, a source captures two chunks, and the player is sent both. -/
def onePlayer : List Stimulus :=
  Streamer.helloPlayer.map (fun e => .other e silent) ++
    [.read 0 [[0, 1], [7, 3]] [] ⟨0⟩, .produceChunk Streamer.quiet silent,
      .produceChunk Streamer.quiet silent, .other Streamer.playerRequest silent,
      .produceChunk Streamer.quiet silent, .session 2 (.transferTask none),
      .session 2 (.completion ⟨false, 1⟩), .read 0 [[8, 3]] [] ⟨0⟩,
      .produceChunk Streamer.quiet silent, .session 2 (.transferTask none),
      .session 2 (.completion ⟨false, 1⟩)]

theorem playback_refines_application_onePlayer :
    (∃ calls, Application.system.Admits (.create Pipeline.twoSources 9001 .PCM none ⟨0⟩) calls ∧
      (system.exec (create Pipeline.twoSources 9001 .PCM none ⟨0⟩ "1") onePlayer).application =
        Application.system.exec (.create Pipeline.twoSources 9001 .PCM none ⟨0⟩) calls ∧
      Serves (system.exec (create Pipeline.twoSources 9001 .PCM none ⟨0⟩ "1") onePlayer)) ∧
    (system.exec (create Pipeline.twoSources 9001 .PCM none ⟨0⟩ "1")
      onePlayer).streams.map Prod.fst = [2] :=
  ⟨playback_refines_application (by decide) Application.twoSources_rated 9001 .PCM none ⟨0⟩ "1"
    (by decide +kernel), by decide +kernel⟩

end Playback

end SlimStreamer
