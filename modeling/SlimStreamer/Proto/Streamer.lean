import SlimStreamer.Lib.SequencedBroadcast
import SlimStreamer.Proto.CommandRequest

/-!
# The Streamer

`proto::Streamer`: the SlimProto and HTTP sessions by their connections, the state machine of
the stream, and the distribution of the chunks with one sequence number per session.

Connections are numbers; a session is known to `sessionToChunkSequenceMap` by its address.
An HTTP session appears here by its client identifier only: what it does with a chunk is the
argument `answers`, its reply to each session that calls it.  The iteration order of the
maps is the order of insertion.

* `streamChunk` — one round over the sessions the chunk is due for;
* `consumeChunk` — the four branches a chunk falls through;
* `streamEntries_eq` — a round visits every due session once, and the visits are independent.
-/

namespace SlimStreamer

namespace Streamer

inductive Event where
  | start | prepare | buffer | play | drain | flushed | stop
  deriving DecidableEq, Repr

inductive State where
  | started | preparing | buffering | playing | draining | stopped
  deriving DecidableEq, Repr

end Streamer

/-- What a call reads from outside: the successive readings of the clock while it runs, and
the sorting routine. -/
structure Environment where
  clock : ℕ → Timestamp
  sorting : ProbeSort

structure Streamer where
  streamingPort : ℕ
  /-- `encoderBuilder.getFormat()`. -/
  format : FormatSelection
  gain : Option ℕ
  state : Streamer.State
  nextID : ℕ
  commandSessions : List (ℕ × CommandSession)
  /-- The HTTP sessions, by their connections: the client identifiers. -/
  streamingSessions : List (ℕ × List UInt8)
  sessionToChunkSequenceMap : List (ℕ × ℕ)
  samplingRate : ℕ
  preparingStartedAt : Timestamp
  bufferingStartedAt : Timestamp
  playbackStartedAt : Timestamp
  streamedChunks : ℕ
  streamedFrames : ℕ
  bufferedFrames : ℤ
  /-- The connections this class asked to stop. -/
  stoppedConnections : List ℕ
  /-- The connections whose HTTP session was asked to stop and to be removed afterwards. -/
  removals : List ℕ

namespace Streamer

def create (streamingPort : ℕ) (format : FormatSelection) (gain : Option ℕ) (now : Timestamp) :
    Streamer where
  streamingPort := streamingPort
  format := format
  gain := gain
  state := .stopped
  nextID := 0
  commandSessions := []
  streamingSessions := []
  sessionToChunkSequenceMap := []
  samplingRate := 0
  preparingStartedAt := now
  bufferingStartedAt := now
  playbackStartedAt := now
  streamedChunks := 0
  streamedFrames := 0
  bufferedFrames := 0
  stoppedConnections := []
  removals := []

/-! ### Durations -/

/-- `calculateDuration` for a ratio with the given denominator. -/
def calculateDuration (den : ℤ) (frames : ℤ) (t : Streamer) : ℤ :=
  if t.samplingRate ≠ 0 then (frames * den).tdiv t.samplingRate else 0

/-- `getStreamingDuration(util::milliseconds)`. -/
def getStreamingDuration (t : Streamer) : ℤ := t.calculateDuration 1000 t.streamedFrames

/-- `getBufferingDuration(util::milliseconds)`. -/
def getBufferingDuration (t : Streamer) : ℤ := t.calculateDuration 1000 t.bufferedFrames

def durationToFrames (duration : ℤ) (t : Streamer) : ℤ :=
  if t.samplingRate ≠ 0 then (duration * t.samplingRate).tdiv 1000000 else 0

/-- The sum of all latencies, and a little bit of extra delay. -/
def calculatePlaybackDelay (t : Streamer) : ℤ :=
  t.commandSessions.foldl (fun result entry => result + entry.2.latency.getD 0) 1000

def calculatePlaybackStartTime (t : Streamer) : Timestamp :=
  t.bufferingStartedAt.plus (t.getBufferingDuration * 1000)

/-! ### What the sessions see of the streamer -/

def isPlaying (t : Streamer) : Bool := t.state == .playing

def isRunning (t : Streamer) : Bool := t.state != .stopped

def interface (t : Streamer) : StreamerInterface where
  samplingRate := t.samplingRate
  isPlaying := t.isPlaying
  playbackStartTime := t.playbackStartedAt

def context (environment : Environment) (t : Streamer) : Context where
  streamer := t.interface
  clock := environment.clock
  sorting := environment.sorting

/-! ### The session maps -/

def addSession {β : Type} (sessions : List (ℕ × β)) (connection : ℕ) (session : β) :
    List (ℕ × β) :=
  if sessions.any fun entry => entry.1 == connection then sessions
  else sessions ++ [(connection, session)]

/-- Applying a function to the session of a connection, if there is one. -/
def applyToSession {β : Type} (sessions : List (ℕ × β)) (connection : ℕ) (fn : β → β) :
    List (ℕ × β) :=
  sessions.map fun entry => if entry.1 = connection then (entry.1, fn entry.2) else entry

/-- `applyToSession(commandSessions, connection, fn)`. -/
def applyToCommandSession (connection : ℕ) (fn : CommandSession → CommandSession)
    (t : Streamer) : Streamer :=
  { t with commandSessions := applyToSession t.commandSessions connection fn }

/-- `sessions.erase(&connection)`. -/
def eraseSession {β : Type} (sessions : List (ℕ × β)) (connection : ℕ) : List (ℕ × β) :=
  sessions.filter fun entry => entry.1 != connection

/-- The SlimProto session with a client identifier, by its connection. -/
def findSessionByID (clientID : List UInt8) (t : Streamer) : Option ℕ :=
  (t.commandSessions.find? fun entry => entry.2.clientID == clientID).map Prod.fst

/-- The session a pointer of `sessionToChunkSequenceMap` points to. -/
def dereference (sessions : List (ℕ × CommandSession)) (address : ℕ) : Option CommandSession :=
  (sessions.find? fun entry => entry.2.address == address).map Prod.snd

/-- Changing the session at an address in place. -/
def assign (sessions : List (ℕ × CommandSession)) (address : ℕ) (session : CommandSession) :
    List (ℕ × CommandSession) :=
  sessions.map fun entry => if entry.2.address = address then (entry.1, session) else entry

/-! ### Readiness and the actions of the state machine -/

def isDraining (t : Streamer) : Bool := t.commandSessions.any fun entry => entry.2.isDraining

def isReadyToBuffer (now : Timestamp) (t : Streamer) : Bool :=
  let waitThresholdReached := decide (2000000 < now.diff t.preparingStartedAt)
  waitThresholdReached || t.commandSessions.all fun entry => entry.2.isReadyToBuffer

def isReadyToPlay (t : Streamer) : Bool :=
  decide (2000 < t.getStreamingDuration) &&
    t.commandSessions.all fun entry => entry.2.isReadyToPlay

def stateChangeToPreparing (environment : Environment) (t : Streamer) : Streamer :=
  { t with
    preparingStartedAt := environment.clock 0
    streamedFrames := 0
    bufferedFrames := 0
    streamedChunks := 0
    -- resetting chunk sequence for all sessions
    sessionToChunkSequenceMap := t.sessionToChunkSequenceMap.map fun entry => (entry.1, 0)
    commandSessions := t.commandSessions.map fun entry =>
      (entry.1, entry.2.prepare (t.context environment) t.samplingRate) }

def stateChangeToBuffering (environment : Environment) (t : Streamer) : Streamer :=
  { t with bufferingStartedAt := environment.clock 2 }

def stateChangeToPlaying (t : Streamer) : Streamer :=
  let t := { t with
    bufferedFrames := t.streamedFrames + t.durationToFrames t.calculatePlaybackDelay }
  { t with playbackStartedAt := t.calculatePlaybackStartTime }

/-- The command sessions are stopped here; the HTTP sessions are, too, which they answer for
themselves. -/
def stateChangeToStopped (environment : Environment) (t : Streamer) : Streamer :=
  { t with commandSessions := t.commandSessions.map fun entry =>
      (entry.1, entry.2.stop (t.context environment)) }

open Transition in
def transitions (environment : Environment) : List (Transition Event State Streamer) :=
  [ plain .start .started .started,
    plain .start .preparing .preparing,
    plain .start .buffering .buffering,
    plain .start .playing .playing,
    plain .start .draining .draining,
    plain .start .stopped .started,
    ⟨.prepare, .started, .preparing, stateChangeToPreparing environment, fun _ => true⟩,
    plain .prepare .preparing .preparing,
    ⟨.buffer, .preparing, .buffering, stateChangeToBuffering environment,
      isReadyToBuffer (environment.clock 1)⟩,
    plain .buffer .buffering .buffering,
    plain .buffer .playing .playing,
    ⟨.play, .buffering, .playing, stateChangeToPlaying, isReadyToPlay⟩,
    plain .play .playing .playing,
    plain .drain .preparing .draining,
    plain .drain .buffering .draining,
    plain .drain .playing .draining,
    plain .drain .draining .draining,
    plain .drain .started .started,
    plain .flushed .started .started,
    plain .flushed .playing .playing,
    ⟨.flushed, .draining, .started, fun t => t, fun t => !t.isDraining⟩,
    plain .stop .stopped .stopped,
    ⟨.stop, .started, .stopped, stateChangeToStopped environment, fun _ => true⟩,
    ⟨.stop, .preparing, .stopped, stateChangeToStopped environment, fun _ => true⟩,
    ⟨.stop, .buffering, .stopped, stateChangeToStopped environment, fun _ => true⟩,
    ⟨.stop, .playing, .stopped, stateChangeToStopped environment, fun _ => true⟩,
    ⟨.stop, .draining, .stopped, stateChangeToStopped environment, fun _ => true⟩ ]

def setState (state : State) (t : Streamer) : Streamer := { t with state := state }

def setSamplingRate (samplingRate : ℕ) (t : Streamer) : Streamer :=
  { t with samplingRate := samplingRate }

def stateMachine (environment : Environment) : StateMachine Event State Streamer where
  state := Streamer.state
  setState := setState
  transitions := transitions environment

/-- Every error handler of this class only logs, or sets the result of `consumeChunk` in a
branch whose state has a transition for the event. -/
def processEvent (environment : Environment) (event : Event) (t : Streamer) : Bool × Streamer :=
  (stateMachine environment).processEvent event id t

/-- A transition does nothing, or what its event asks for; a stream is only prepared from
Started. -/
theorem transitions_action {environment : Environment}
    {transition : Transition Event State Streamer} (h : transition ∈ transitions environment) :
    transition.action = id ∨
    (transition.event = .prepare ∧ transition.fromState = .started) ∧
      transition.action = stateChangeToPreparing environment ∨
    transition.event = .buffer ∧ transition.action = stateChangeToBuffering environment ∨
    transition.event = .play ∧ transition.action = stateChangeToPlaying ∨
    transition.event = .stop ∧ transition.action = stateChangeToStopped environment := by
  simp only [transitions, List.mem_cons, List.not_mem_nil, or_false] at h
  rcases h with rfl | rfl | rfl | rfl | rfl | rfl | rfl | rfl | rfl | rfl | rfl | rfl | rfl | rfl |
    rfl | rfl | rfl | rfl | rfl | rfl | rfl | rfl | rfl | rfl | rfl | rfl | rfl
  all_goals first
    | exact Or.inl rfl
    | exact Or.inr (Or.inl ⟨⟨rfl, rfl⟩, rfl⟩)
    | exact Or.inr (Or.inr (Or.inl ⟨rfl, rfl⟩))
    | exact Or.inr (Or.inr (Or.inr (Or.inl ⟨rfl, rfl⟩)))
    | exact Or.inr (Or.inr (Or.inr (Or.inr ⟨rfl, rfl⟩)))

/-! ### Distributing a chunk -/

/-- What the loop of `streamChunk` computes: whether no session refused, the two maps, and the
calls of `consumeChunk` it made, with their results. -/
structure Round where
  result : Bool
  entries : List (ℕ × ℕ)
  sessions : List (ℕ × CommandSession)
  offers : List (ℕ × Bool)

/-- The loop of `streamChunk` over the entries of `sessionToChunkSequenceMap`.  The pointer of
an entry without a session dangles; nothing is said about such a call. -/
def streamEntries (context : Context) (answers : ℕ → Bool) (chunk : Chunk) (streamedChunks : ℕ) :
    List (ℕ × ℕ) → List (ℕ × CommandSession) → Round
  | [], sessions => ⟨true, [], sessions, []⟩
  | entry :: entries, sessions =>
    if entry.2 ≤ streamedChunks then
      match dereference sessions entry.1 with
      | none =>
        let others := streamEntries context answers chunk streamedChunks entries sessions
        { others with entries := entry :: others.entries }
      | some session =>
        let consumed := session.consumeChunk context (answers entry.1) chunk
        let others := streamEntries context answers chunk streamedChunks entries
          (assign sessions entry.1 consumed.2)
        { result := consumed.1 && others.result
          entries := (if consumed.1 then (entry.1, entry.2 + 1) else entry) :: others.entries
          sessions := others.sessions
          offers := (entry.1, consumed.1) :: others.offers }
    else
      let others := streamEntries context answers chunk streamedChunks entries sessions
      { others with entries := entry :: others.entries }

def round (environment : Environment) (answers : ℕ → Bool) (chunk : Chunk) (t : Streamer) :
    Round :=
  streamEntries (t.context environment) answers chunk t.streamedChunks
    t.sessionToChunkSequenceMap t.commandSessions

def streamChunk (environment : Environment) (answers : ℕ → Bool) (chunk : Chunk)
    (t : Streamer) : Bool × Streamer :=
  let round := t.round environment answers chunk
  let t := { t with
    sessionToChunkSequenceMap := round.entries
    commandSessions := round.sessions }
  -- increasing counters
  if round.result then
    (true, { t with
      streamedChunks := t.streamedChunks + 1
      streamedFrames := t.streamedFrames + chunk.frames })
  else (false, t)

/-! ### Consuming a chunk: the four branches, each with the result so far -/

def consumeStarted (environment : Environment) (chunk : Chunk) (r : Bool × Streamer) :
    Bool × Streamer :=
  if r.2.state = .started then
    if chunk.samplingRate ≠ 0 then
      -- chunk will be reprocessed after PreparingState is over
      (false, ((r.2.setSamplingRate chunk.samplingRate).processEvent environment .prepare).2)
    else (true, r.2)
  else r

def consumePreparing (environment : Environment) (r : Bool × Streamer) : Bool × Streamer :=
  if r.2.state = .preparing then r.2.processEvent environment .buffer else r

/-- The two branches before a chunk can reach the sessions. -/
def beforeStreaming (environment : Environment) (chunk : Chunk) (t : Streamer) :
    Bool × Streamer :=
  consumePreparing environment (consumeStarted environment chunk (false, t))

/-- `BufferingState` or `PlayingState`. -/
def isStreaming (t : Streamer) : Bool := t.state == .buffering || t.state == .playing

/-- The attempt to transition to Playing state. -/
def tryPlaying (environment : Environment) (t : Streamer) : Streamer :=
  if t.state = .buffering then (t.processEvent environment .play).2 else t

def consumeStreaming (environment : Environment) (answers : ℕ → Bool) (chunk : Chunk)
    (r : Bool × Streamer) : Bool × Streamer :=
  if r.2.isStreaming then
    let t := r.2.tryPlaying environment
    -- if sampling rate does not change then just distributing a chunk
    let r := if t.samplingRate = chunk.samplingRate then t.streamChunk environment answers chunk
      else (r.1, t)
    if t.samplingRate ≠ chunk.samplingRate ∨ chunk.endOfStream then
      -- keep reprocessing until Running state is reached
      (false, (r.2.processEvent environment .drain).2)
    else r
  else r

def consumeDraining (environment : Environment) (r : Bool × Streamer) : Bool × Streamer :=
  if r.2.state = .draining then r.2.processEvent environment .flushed else r

def consumeChunk (environment : Environment) (answers : ℕ → Bool) (chunk : Chunk)
    (t : Streamer) : Bool × Streamer :=
  consumeDraining environment
    (consumeStreaming environment answers chunk (t.beforeStreaming environment chunk))

/-! ### The other calls -/

def start (environment : Environment) (t : Streamer) : Streamer :=
  (t.processEvent environment .start).2

def stop (environment : Environment) (t : Streamer) : Streamer :=
  (t.processEvent environment .stop).2

/-- The text after the first `=`. -/
def parseClientID (header : List UInt8) : Option (List UInt8) :=
  match header.dropWhile fun c => c != UInt8.ofNat '='.toNat with
  | [] => none
  | _ :: rest => some rest

def stopConnection (connection : ℕ) (t : Streamer) : Streamer :=
  { t with stoppedConnections := connection :: t.stoppedConnections }

/-- Saving or resetting the HTTP session reference in a SlimProto session. -/
def setStreamingSession (connection : ℕ) (streamingSession : Option ℕ) (t : Streamer) :
    Streamer :=
  t.applyToCommandSession connection (CommandSession.setStreamingSession streamingSession)

def onHTTPData (connection : ℕ) (buffer : List UInt8) (t : Streamer) :
    Streamer × Option Exception :=
  -- a known HTTP session processes the request itself
  if t.streamingSessions.any fun entry => entry.1 == connection then (t, none)
  else
    match parseClientID buffer with
    | none => (t, some ⟨"Missing client ID in streaming session request"⟩)
    | some clientID =>
      match t.findSessionByID clientID with
      | none => (t.stopConnection connection,
          some ⟨"Could not correlate provided client ID with a valid SlimProto session"⟩)
      | some session =>
        let t := t.setStreamingSession session (some connection)
        ({ t with streamingSessions := addSession t.streamingSessions connection clientID }, none)

/-- The HTTP session is erased once it has stopped (`onHTTPRemoved`). -/
def onHTTPClose (connection : ℕ) (t : Streamer) : Streamer :=
  match t.streamingSessions.lookup connection with
  | none => t
  | some clientID =>
    let t := match t.findSessionByID clientID with
      | none => t
      | some session => t.setStreamingSession session none
    { t with removals := connection :: t.removals }

/-- The callback `removeSession` gives to the HTTP session. -/
def onHTTPRemoved (connection : ℕ) (t : Streamer) : Streamer :=
  { t with
    removals := t.removals.erase connection
    streamingSessions := eraseSession t.streamingSessions connection }

def onSlimProtoOpen (connection : ℕ) (environment : Environment) (t : Streamer) : Streamer :=
  let nextID := t.nextID + 1
  let session := CommandSession.create nextID (octets (Nat.toDigits 10 nextID)) t.streamingPort
    t.format t.gain (environment.clock 0)
  let session := session.start (t.context environment)
  { t with
    nextID := nextID
    sessionToChunkSequenceMap :=
      t.sessionToChunkSequenceMap ++ [(session.address, t.streamedChunks)]
    commandSessions := addSession t.commandSessions connection session }

/-- The session is stopped and destroyed: a SlimProto session runs its callback at once. -/
def onSlimProtoClose (connection : ℕ) (t : Streamer) : Streamer :=
  match t.commandSessions.lookup connection with
  | none => t
  | some session => { t with
      sessionToChunkSequenceMap := eraseSession t.sessionToChunkSequenceMap session.address
      commandSessions := eraseSession t.commandSessions connection }

/-- `onSlimProtoData`; each handler has an environment of its own. -/
def onSlimProtoData (connection : ℕ) (buffer : List UInt8) (timestamp : Timestamp)
    (environments : ℕ → Environment) (t : Streamer) : Streamer :=
  match t.commandSessions.lookup connection with
  | none => t.stopConnection connection
  | some session =>
    let receipt := ⟨buffer, timestamp, fun n => t.context (environments n)⟩
    let t := t.applyToCommandSession connection fun s => (s.onRequest receipt).session
    match (session.onRequest receipt).failure with
    | some (.exception _) => t.stopConnection connection
    | _ => t

/-- The ping timer of a session runs out. -/
def onPingTimer (connection : ℕ) (environment : Environment) (t : Streamer) : Streamer :=
  t.applyToCommandSession connection (CommandSession.onPingTimer (t.context environment))

/-- A posted ping handler of a session runs. -/
def onPingHandler (connection : ℕ) (environment : Environment) (t : Streamer) : Streamer :=
  t.applyToCommandSession connection (CommandSession.onPingHandler (t.context environment))

/-! ### Pointers -/

/-- The addresses of the registered sessions. -/
def addresses (sessions : List (ℕ × CommandSession)) : List ℕ :=
  sessions.map fun entry => entry.2.address

theorem dereference_of_mem {sessions : List (ℕ × CommandSession)}
    (hn : (addresses sessions).Nodup) {e : ℕ × CommandSession} (he : e ∈ sessions) :
    dereference sessions e.2.address = some e.2 := by
  induction sessions with
  | nil => cases he
  | cons d sessions ih =>
    rw [addresses, List.map_cons, List.nodup_cons] at hn
    rcases List.mem_cons.mp he with rfl | he
    · simp [dereference]
    · have hne : (d.2.address == e.2.address) = false := by
        apply beq_eq_false_iff_ne.mpr
        intro h
        exact hn.1 (List.mem_map.mpr ⟨e, he, h.symm⟩)
      show ((d :: sessions).find? fun entry => entry.2.address == e.2.address).map Prod.snd = _
      rw [List.find?_cons, hne]
      exact ih hn.2 he

theorem dereference_assign_ne (sessions : List (ℕ × CommandSession)) {address b : ℕ}
    {session : CommandSession} (hs : session.address = address) (hb : b ≠ address) :
    dereference (assign sessions address session) b = dereference sessions b := by
  induction sessions with
  | nil => rfl
  | cons d sessions ih =>
    rw [dereference, dereference] at ih ⊢
    rw [assign] at ih ⊢
    rw [List.map_cons, List.find?_cons, List.find?_cons]
    by_cases hd : d.2.address = address
    · have hb' : (address == b) = false := beq_eq_false_iff_ne.mpr (Ne.symm hb)
      rw [if_pos hd, hs, hd, hb']
      exact ih
    · rw [if_neg hd]
      cases d.2.address == b with
      | true => rfl
      | false => exact ih

theorem addresses_assign (sessions : List (ℕ × CommandSession)) {address : ℕ}
    {session : CommandSession} (hs : session.address = address) :
    addresses (assign sessions address session) = addresses sessions := by
  rw [addresses, addresses, assign, List.map_map]
  refine List.map_congr_left fun e _ => ?_
  by_cases he : e.2.address = address
  · simp only [Function.comp_apply, he, if_true, hs]
  · simp only [Function.comp_apply, he, if_false]

/-! ### The loop of `streamChunk`, session by session -/

section StreamEntries

open SequencedBroadcast (Counters)

variable (context : Context) (answers : ℕ → Bool) (chunk : Chunk) (streamedChunks : ℕ)

/-- Whether the session at an address takes the chunk. -/
def accepts (sessions : List (ℕ × CommandSession)) (address : ℕ) : Bool :=
  match dereference sessions address with
  | none => true
  | some session => (session.consumeChunk context (answers address) chunk).1

/-- Whether the chunk is due for the session at an address. -/
def isDue (entries : List (ℕ × ℕ)) (address : ℕ) : Bool :=
  entries.any fun entry => entry.1 == address && decide (entry.2 ≤ streamedChunks)

/-- The session once the chunk was offered to it, if it was due. -/
def offered (entries : List (ℕ × ℕ)) (entry : ℕ × CommandSession) : ℕ × CommandSession :=
  if isDue streamedChunks entries entry.2.address then
    (entry.1, (entry.2.consumeChunk context (answers entry.2.address) chunk).2)
  else entry

theorem accepts_assign_ne (sessions : List (ℕ × CommandSession)) {address b : ℕ}
    {session : CommandSession} (hs : session.address = address) (hb : b ≠ address) :
    accepts context answers chunk (assign sessions address session) b =
      accepts context answers chunk sessions b := by
  rw [accepts, accepts, dereference_assign_ne sessions hs hb]

theorem isDue_cons_of_ne {entry : ℕ × ℕ} (entries : List (ℕ × ℕ)) {address : ℕ}
    (h : entry.1 ≠ address ∨ streamedChunks < entry.2) :
    isDue streamedChunks (entry :: entries) address = isDue streamedChunks entries address := by
  have hfirst : (entry.1 == address && decide (entry.2 ≤ streamedChunks)) = false := by
    rw [Bool.and_eq_false_iff]
    rcases h with h | h
    · exact Or.inl (beq_eq_false_iff_ne.mpr h)
    · exact Or.inr (decide_eq_false (by omega))
  rw [isDue, List.any_cons, hfirst, Bool.false_or, isDue]

theorem isDue_eq_false {entries : List (ℕ × ℕ)} {address : ℕ}
    (h : address ∉ entries.map Prod.fst) : isDue streamedChunks entries address = false := by
  rw [isDue, List.any_eq_false]
  intro e he hdue
  rw [Bool.and_eq_true, beq_iff_eq] at hdue
  exact h (List.mem_map.mpr ⟨e, he, hdue.1⟩)

/-- Offering the chunk to the first due session, then to the others. -/
theorem map_offered_assign {sessions : List (ℕ × CommandSession)}
    (haddr : (addresses sessions).Nodup) {entry : ℕ × ℕ} {entries : List (ℕ × ℕ)}
    (hkey : entry.1 ∉ entries.map Prod.fst) (hdue : entry.2 ≤ streamedChunks)
    {session : CommandSession} (hs : dereference sessions entry.1 = some session)
    (hsa : session.address = entry.1) :
    (assign sessions entry.1 (session.consumeChunk context (answers entry.1) chunk).2).map
        (offered context answers chunk streamedChunks entries) =
      sessions.map (offered context answers chunk streamedChunks (entry :: entries)) := by
  rw [assign, List.map_map]
  refine List.map_congr_left fun d hd => ?_
  by_cases hda : d.2.address = entry.1
  · have hds : d.2 = session := by
      have h := dereference_of_mem haddr hd
      rw [hda, hs] at h
      exact (Option.some.inj h).symm
    have hnext : (session.consumeChunk context (answers entry.1) chunk).2.address = entry.1 :=
      (CommandSession.consumeChunk_address context _ chunk session).trans hsa
    have hnow : isDue streamedChunks (entry :: entries) entry.1 = true := by
      rw [isDue, List.any_cons, beq_self_eq_true, decide_eq_true hdue]
      rfl
    simp only [Function.comp_apply, hds, hsa, if_true, offered, hnext,
      isDue_eq_false streamedChunks hkey, Bool.false_eq_true, if_false, hnow]
  · simp only [Function.comp_apply, hda, if_false, offered,
      isDue_cons_of_ne streamedChunks entries (Or.inl (Ne.symm hda))]

/-- **The loop visits every session once**: each due session is offered the chunk, and the
offers do not depend on one another. -/
theorem streamEntries_eq (accepted : ℕ → Bool) (entries : List (ℕ × ℕ)) :
    ∀ sessions : List (ℕ × CommandSession), (entries.map Prod.fst).Nodup →
      (addresses sessions).Nodup → (∀ e ∈ entries, e.1 ∈ addresses sessions) →
      (∀ e ∈ entries, accepts context answers chunk sessions e.1 = accepted e.1) →
      streamEntries context answers chunk streamedChunks entries sessions =
        { result := entries.all fun e => decide (streamedChunks < e.2) || accepted e.1
          entries := entries.map (Counters.advance streamedChunks accepted)
          sessions := sessions.map (offered context answers chunk streamedChunks entries)
          offers := (entries.filter fun e => decide (e.2 ≤ streamedChunks)).map fun e =>
            (e.1, accepted e.1) } := by
  induction entries with
  | nil =>
    intro sessions _ _ _ _
    have hid : sessions.map (offered context answers chunk streamedChunks []) = sessions :=
      List.map_id' sessions
    simp only [streamEntries, List.all_nil, List.map_nil, List.filter_nil, hid]
  | cons entry entries ih =>
    intro sessions hkeys haddr hsub hacc
    rw [List.map_cons, List.nodup_cons] at hkeys
    obtain ⟨e, he, hea⟩ := List.mem_map.mp (hsub entry List.mem_cons_self)
    have hderef : dereference sessions entry.1 = some e.2 := hea ▸ dereference_of_mem haddr he
    by_cases hdue : entry.2 ≤ streamedChunks
    · have haccept : (e.2.consumeChunk context (answers entry.1) chunk).1 = accepted entry.1 := by
        rw [← hacc entry List.mem_cons_self, accepts, hderef]
      have hnext : (e.2.consumeChunk context (answers entry.1) chunk).2.address = entry.1 :=
        (CommandSession.consumeChunk_address context _ chunk e.2).trans hea
      have hothers := ih (assign sessions entry.1
          (e.2.consumeChunk context (answers entry.1) chunk).2) hkeys.2
        (by rw [addresses_assign sessions hnext]; exact haddr)
        (fun d hd => by
          rw [addresses_assign sessions hnext]
          exact hsub d (List.mem_cons_of_mem entry hd))
        (fun d hd => by
          rw [accepts_assign_ne context answers chunk sessions hnext
            (fun h => hkeys.1 (List.mem_map.mpr ⟨d, hd, h⟩))]
          exact hacc d (List.mem_cons_of_mem entry hd))
      rw [map_offered_assign context answers chunk streamedChunks haddr hkeys.1 hdue hderef hea]
        at hothers
      rw [streamEntries, if_pos hdue, hderef]
      simp only [hothers, haccept, List.all_cons, List.map_cons, List.filter_cons, hdue,
        decide_true, if_true, Counters.advance, true_and, not_lt.mpr hdue, decide_false, Bool.false_or]
    · have hothers := ih sessions hkeys.2 haddr
        (fun d hd => hsub d (List.mem_cons_of_mem entry hd))
        (fun d hd => hacc d (List.mem_cons_of_mem entry hd))
      have hsessions : sessions.map (offered context answers chunk streamedChunks entries) =
          sessions.map (offered context answers chunk streamedChunks (entry :: entries)) := by
        refine List.map_congr_left fun d _ => ?_
        rw [offered, offered, isDue_cons_of_ne streamedChunks entries (Or.inr (by omega))]
      rw [streamEntries, if_neg hdue]
      simp only [hothers, List.all_cons, List.map_cons, List.filter_cons, hdue, decide_false,
        Counters.advance, false_and, if_false, not_le.mp hdue, decide_true, Bool.true_or, Bool.true_and,
        Bool.false_eq_true, hsessions]

end StreamEntries

/-! ### What an event does -/

section ProcessEvent

variable (environment : Environment)

@[simp] theorem setSamplingRate_state (samplingRate : ℕ) (t : Streamer) :
    (t.setSamplingRate samplingRate).state = t.state := rfl

theorem setState_self {t : Streamer} {state : State} (h : t.state = state) :
    t.setState state = t := by
  rw [setState, ← h]

theorem processEvent_start (t : Streamer) :
    t.processEvent environment .start =
      if t.state = .stopped then (true, t.setState .started) else (true, t) := by
  cases ht : t.state <;>
    simp only [processEvent, StateMachine.processEvent, stateMachine, ht] <;>
    first | rfl | exact congrArg (Prod.mk true) (setState_self ht)

theorem processEvent_prepare {t : Streamer} (ht : t.state = .started) :
    t.processEvent environment .prepare =
      (true, (t.stateChangeToPreparing environment).setState .preparing) := by
  simp only [processEvent, StateMachine.processEvent, stateMachine, ht]
  rfl

theorem processEvent_buffer {t : Streamer} (ht : t.state = .preparing) :
    t.processEvent environment .buffer =
      if t.isReadyToBuffer (environment.clock 1) then
        (true, (t.stateChangeToBuffering environment).setState .buffering)
      else (false, t) := by
  simp only [processEvent, StateMachine.processEvent, stateMachine, ht]
  rfl

theorem processEvent_play {t : Streamer} (ht : t.state = .buffering) :
    t.processEvent environment .play =
      if t.isReadyToPlay then (true, t.stateChangeToPlaying.setState .playing)
      else (false, t) := by
  simp only [processEvent, StateMachine.processEvent, stateMachine, ht]
  rfl

theorem processEvent_drain {t : Streamer} (ht : t.state = .buffering ∨ t.state = .playing) :
    t.processEvent environment .drain = (true, t.setState .draining) := by
  rcases ht with ht | ht <;>
    simp only [processEvent, StateMachine.processEvent, stateMachine, ht] <;> rfl

theorem processEvent_flushed {t : Streamer} (ht : t.state = .draining) :
    t.processEvent environment .flushed =
      if t.isDraining then (false, t) else (true, t.setState .started) := by
  simp only [processEvent, StateMachine.processEvent, stateMachine, ht]
  show (if (!t.isDraining) = true then (true, t.setState .started) else (false, t)) = _
  cases t.isDraining <;> rfl

theorem processEvent_stop (t : Streamer) :
    t.processEvent environment .stop =
      if t.state = .stopped then (true, t)
      else (true, (t.stateChangeToStopped environment).setState .stopped) := by
  cases ht : t.state <;>
    simp only [processEvent, StateMachine.processEvent, stateMachine, ht] <;>
    first | rfl | exact congrArg (Prod.mk true) (setState_self ht)

end ProcessEvent

end Streamer

end SlimStreamer
