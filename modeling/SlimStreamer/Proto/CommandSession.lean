import Mathlib.Data.List.Sort
import Mathlib.Logic.Relation
import SlimStreamer.Chunk
import SlimStreamer.Proto.InboundCommand
import SlimStreamer.Proto.OutboundCommand
import SlimStreamer.Util.StateMachine

/-!
# The SlimProto session of one player

`proto::CommandSession`: the state machine of a player, the handlers of its messages, the
latency measurement, and the delivery of a chunk to the player's HTTP session.  The parsing
of the received octets is in `CommandRequest`.

What a session does to the outside is recorded in the session: the commands it has written
to its connection, whether it asked the connection to stop, the ping timer, and the ping
handlers it has posted to the event loop.  What it reads from the outside is a `Context`:
the values its Streamer reports, the successive readings of the clock while one handler
runs, and the (unstable) sorting routine of the standard library.

* `transitions` — the transition table;
* `onHELO`, `onSTAT`, `ping`, `onPingTimer` — the handlers;
* `consumeChunk` — the delivery of a chunk; the answer of the HTTP session is an argument;
* `MessageStep`, `handle_step` — what messages and pings leave alone;
* `consumeChunk_eq`, `consumeChunk_leavesStream` — what the delivery of a chunk does;
* `Change`, `Changes.keeps` — all that the operations called by the Streamer can change.
-/

namespace SlimStreamer

/-! ### The stored latency probes -/

structure ProbeValues where
  sendTimestamp : Timestamp
  latency : ℤ
  clientTimestamp : Timestamp
  clientDuration : ℤ
  deriving DecidableEq, Repr

/-- `ProbeValues{}`: the timestamps are readings of the clock, the durations are zero. -/
def ProbeValues.fresh (clock : ℕ → Timestamp) : ProbeValues := ⟨clock 0, 0, clock 1, 0⟩

/-- Memory of a vector that no element was ever written to. -/
def ProbeValues.unset : ProbeValues := ⟨⟨0⟩, 0, ⟨0⟩, 0⟩

/-- `std::vector<ProbeValues>`: the allocated elements, of which the first `size` are in use.
The memory past them stays where it is until the vector grows. -/
structure Probes where
  storage : List ProbeValues
  size : ℕ
  size_bound : size ≤ storage.length

namespace Probes

def capacity (p : Probes) : ℕ := p.storage.length

def get (p : Probes) (i : ℕ) : ProbeValues := p.storage.getD i ProbeValues.unset

def set (p : Probes) (i : ℕ) (v : ProbeValues) : Probes where
  storage := p.storage.set i v
  size := p.size
  size_bound := by
    rw [List.length_set]
    exact p.size_bound

/-- `std::vector<ProbeValues> probes{n}`. -/
def ofSize (n : ℕ) (v : ProbeValues) : Probes where
  storage := List.replicate n v
  size := n
  size_bound := by rw [List.length_replicate]

/-- `push_back`; a full vector doubles its capacity. -/
def pushBack (p : Probes) (v : ProbeValues) : Probes :=
  if h : p.size < p.storage.length then
    { storage := p.storage.set p.size v
      size := p.size + 1
      size_bound := by
        rw [List.length_set]
        exact h }
  else
    { storage := p.storage ++ v :: List.replicate (p.storage.length - 1) ProbeValues.unset
      size := p.size + 1
      size_bound := by
        have hs := p.size_bound
        rw [List.length_append, List.length_cons]
        omega }

/-- `clear`, which keeps the capacity. -/
def clear (p : Probes) : Probes where
  storage := p.storage
  size := 0
  size_bound := Nat.zero_le _

end Probes

/-- What `std::sort` promises for the comparison by latency: the elements in an order of
non-decreasing latency. -/
structure ProbeSort where
  sort : List ProbeValues → List ProbeValues
  perm : ∀ l, (sort l).Perm l
  sorted : ∀ l, (sort l).Pairwise fun a b => a.latency ≤ b.latency

/-- One routine that keeps the promise. -/
def ProbeSort.merge : ProbeSort where
  sort l := l.mergeSort fun a b => a.latency ≤ b.latency
  perm l := List.mergeSort_perm l _
  sorted l := by
    have h := @List.pairwise_mergeSort ProbeValues (fun a b => decide (a.latency ≤ b.latency))
      (fun a b c hab hbc => by
        simp only [decide_eq_true_eq] at hab hbc ⊢
        omega)
      (fun a b => by
        simp only [Bool.or_eq_true, decide_eq_true_eq]
        omega) l
    exact h.imp fun hab => by simpa using hab

/-! ### The session -/

/-- What a session reads from its Streamer. -/
structure StreamerInterface where
  samplingRate : ℕ
  isPlaying : Bool
  playbackStartTime : Timestamp

namespace StreamerInterface

/-- `calculateDuration(frames, util::microseconds)`. -/
def calculateDuration (streamer : StreamerInterface) (frames : ℤ) : ℤ :=
  if streamer.samplingRate ≠ 0 then (frames * 1000000).tdiv streamer.samplingRate else 0

end StreamerInterface

/-- What a handler of a session reads from outside the session. -/
structure Context where
  streamer : StreamerInterface
  /-- The successive readings of the clock while the handler runs. -/
  clock : ℕ → Timestamp
  sorting : ProbeSort

/-- Why a request handler ended early. -/
inductive Failure where
  /-- A `slim::Exception`. -/
  | exception (e : Exception)
  /-- An integer division by zero. -/
  | divisionByZero
  deriving DecidableEq, Repr

namespace CommandSession

inductive Event where
  | start | handshake | prepare | buffer | play | drain | flushed | stop
  deriving DecidableEq, Repr

inductive State where
  | started | preparing | buffering | playing | draining | stopped
  deriving DecidableEq, Repr

end CommandSession

structure CommandSession where
  /-- Stands for the identity of the object.  No two sessions of a Streamer share it, and it is not
  used again, as an address of the heap may be. -/
  address : ℕ
  clientID : List UInt8
  streamingPort : ℕ
  formatSelection : FormatSelection
  gain : Option ℕ
  state : CommandSession.State
  samplingRate : ℕ
  /-- The HTTP session this session refers to, by its connection. -/
  streamingSession : Option ℕ
  commandRingBuffer : Ring UInt8
  commandHELO : Option HELO
  /-- The delay of the armed ping timer, in seconds. -/
  pingTimer : Option ℕ
  measuringLatency : Bool
  latency : Option ℤ
  timeOffset : Option ℤ
  probes : Probes
  playbackDriftBase : Option ℤ
  clientBufferIsReady : Bool
  lastChunkTimestamp : Timestamp
  lastChunkCapturedFrames : ℤ
  /-- The commands written to the connection so far. -/
  written : List ServerCommand
  /-- Whether `connection.get().stop()` was called. -/
  stopRequested : Bool
  /-- The probe indices of the ping handlers posted to the event loop and not yet run. -/
  pingHandlers : List ℕ

namespace CommandSession

/-- The constructor.  The storage of the ring is what the allocator returned. -/
def create (address : ℕ) (clientID : List UInt8) (streamingPort : ℕ)
    (formatSelection : FormatSelection) (gain : Option ℕ) (now : Timestamp) : CommandSession where
  address := address
  clientID := clientID
  streamingPort := streamingPort
  formatSelection := formatSelection
  gain := gain
  state := .stopped
  samplingRate := 0
  streamingSession := none
  commandRingBuffer := Ring.ofStorage (List.replicate 2048 0)
  commandHELO := none
  pingTimer := none
  measuringLatency := false
  latency := none
  timeOffset := none
  probes := Probes.ofSize 13 (ProbeValues.fresh fun _ => now)
  playbackDriftBase := none
  clientBufferIsReady := false
  lastChunkTimestamp := now
  lastChunkCapturedFrames := 0
  written := []
  stopRequested := false
  pingHandlers := []

/-- `connection.get().stop()`. -/
def stopConnection (s : CommandSession) : CommandSession := { s with stopRequested := true }

def send (command : ServerCommand) (s : CommandSession) : CommandSession :=
  { s with measuringLatency := false, written := s.written ++ [command] }

def setState (state : State) (s : CommandSession) : CommandSession := { s with state := state }

def setSamplingRate (samplingRate : ℕ) (s : CommandSession) : CommandSession :=
  { s with samplingRate := samplingRate }

@[simp] theorem setState_state (state : State) (s : CommandSession) :
    (s.setState state).state = state := rfl

@[simp] theorem setSamplingRate_state (samplingRate : ℕ) (s : CommandSession) :
    (s.setSamplingRate samplingRate).state = s.state := rfl

@[simp] theorem send_state (command : ServerCommand) (s : CommandSession) :
    (s.send command).state = s.state := rfl

/-- Setting a state that is already there changes nothing. -/
theorem setState_self {s : CommandSession} {state : State} (h : s.state = state) :
    s.setState state = s := by
  rw [setState, ← h]

/-! ### Readiness and the actions of the state machine -/

def isReadyToPrepare (s : CommandSession) : Bool := s.samplingRate != 0

def isReadyToBuffer (s : CommandSession) : Bool :=
  s.isReadyToPrepare && s.streamingSession.isSome

def isReadyToPlay (s : CommandSession) : Bool :=
  s.isReadyToPrepare && s.isReadyToBuffer && s.timeOffset.isSome && s.clientBufferIsReady

def isDraining (s : CommandSession) : Bool := s.state == .draining

def isRunning (s : CommandSession) : Bool := s.state != .stopped

def stateChangeToPreparing (s : CommandSession) : CommandSession :=
  { s with clientBufferIsReady := false, streamingSession := none, playbackDriftBase := none }.send
    (.start s.formatSelection s.streamingPort s.samplingRate s.clientID)

def stateChangeToPlaying (context : Context) (s : CommandSession) : CommandSession :=
  s.send (.unpauseAt (context.streamer.playbackStartTime.minus (s.timeOffset.getD 0)))

def stateChangeToStopped (s : CommandSession) : CommandSession := s.setSamplingRate 0

open Transition in
def transitions (context : Context) : List (Transition Event State CommandSession) :=
  [ plain .start .started .started,
    plain .start .preparing .preparing,
    plain .start .buffering .buffering,
    plain .start .playing .playing,
    plain .start .draining .draining,
    plain .start .stopped .started,
    plain .handshake .started .draining,
    ⟨.prepare, .started, .preparing, stateChangeToPreparing, isReadyToPrepare⟩,
    plain .prepare .preparing .preparing,
    plain .prepare .buffering .buffering,
    plain .prepare .playing .playing,
    ⟨.buffer, .preparing, .buffering, id, isReadyToBuffer⟩,
    plain .buffer .buffering .buffering,
    plain .buffer .playing .playing,
    ⟨.play, .buffering, .playing, stateChangeToPlaying context, isReadyToPlay⟩,
    plain .play .playing .playing,
    plain .drain .preparing .draining,
    plain .drain .buffering .draining,
    plain .drain .playing .draining,
    plain .drain .draining .draining,
    plain .drain .started .started,
    plain .flushed .started .started,
    plain .flushed .preparing .preparing,
    plain .flushed .playing .playing,
    plain .flushed .draining .started,
    plain .stop .stopped .stopped,
    ⟨.stop, .started, .stopped, stateChangeToStopped, fun _ => true⟩,
    ⟨.stop, .preparing, .stopped, stateChangeToStopped, fun _ => true⟩,
    ⟨.stop, .buffering, .stopped, stateChangeToStopped, fun _ => true⟩,
    ⟨.stop, .playing, .stopped, stateChangeToStopped, fun _ => true⟩,
    ⟨.stop, .draining, .stopped, stateChangeToStopped, fun _ => true⟩ ]

def stateMachine (context : Context) : StateMachine Event State CommandSession where
  state := CommandSession.state
  setState := CommandSession.setState
  transitions := transitions context

def processEvent (context : Context) (event : Event)
    (errorHandler : CommandSession → CommandSession) (s : CommandSession) :
    Bool × CommandSession :=
  (stateMachine context).processEvent event errorHandler s

/-- A transition does nothing, or what its event asks for. -/
theorem transitions_action {context : Context} {transition : Transition Event State CommandSession}
    (h : transition ∈ transitions context) :
    transition.action = id ∨
    transition.event = .prepare ∧ transition.action = stateChangeToPreparing ∨
    transition.event = .play ∧ transition.action = stateChangeToPlaying context ∨
    transition.event = .stop ∧ transition.action = stateChangeToStopped := by
  simp only [transitions, List.mem_cons, List.not_mem_nil, or_false] at h
  rcases h with rfl | rfl | rfl | rfl | rfl | rfl | rfl | rfl | rfl | rfl | rfl | rfl | rfl | rfl |
    rfl | rfl | rfl | rfl | rfl | rfl | rfl | rfl | rfl | rfl | rfl | rfl | rfl | rfl | rfl | rfl |
    rfl
  all_goals first
    | exact Or.inl rfl
    | exact Or.inr (Or.inl ⟨rfl, rfl⟩)
    | exact Or.inr (Or.inr (Or.inl ⟨rfl, rfl⟩))
    | exact Or.inr (Or.inr (Or.inr ⟨rfl, rfl⟩))

/-! ### Operations called by the Streamer -/

def start (context : Context) (s : CommandSession) : CommandSession :=
  (s.processEvent context .start stopConnection).2

/-- `stop`; the callback is run by the caller. -/
def stop (context : Context) (s : CommandSession) : CommandSession :=
  if s.isRunning then
    -- sending SlimProto Stop command if session is not idle
    let s := if s.state = .started then s else s.send .stop
    (s.processEvent context .stop id).2
  else s

def prepare (context : Context) (rate : ℕ) (s : CommandSession) : CommandSession :=
  let temp := s.samplingRate
  let r := (s.setSamplingRate rate).processEvent context .prepare id
  -- restoring sampling rate if transition failed
  if r.1 then r.2 else r.2.setSamplingRate temp

def setStreamingSession (streamingSession : Option ℕ) (s : CommandSession) : CommandSession :=
  { s with streamingSession := streamingSession }

/-- The part of `consumeChunk` required for cases when the session is created while
streaming. -/
def joinStream (context : Context) (s : CommandSession) : CommandSession :=
  if s.state = .started then s.prepare context context.streamer.samplingRate else s

/-- The part of `consumeChunk` that tries to change state to Buffering. -/
def tryBuffering (context : Context) (s : CommandSession) : CommandSession :=
  if s.state = .preparing then (s.processEvent context .buffer stopConnection).2 else s

/-- The part of `consumeChunk` that changes state to Playing. -/
def tryPlaying (context : Context) (s : CommandSession) : CommandSession :=
  if s.state = .buffering ∧ context.streamer.isPlaying then
    (s.processEvent context .play stopConnection).2
  else s

/-- The part of `consumeChunk` that follows the consumption of a chunk. -/
def chunkConsumed (context : Context) (chunk : Chunk) (s : CommandSession) : CommandSession :=
  -- if chunk contains end-of-stream signal then changing state to Draining
  let s := if chunk.endOfStream then (s.processEvent context .drain stopConnection).2 else s
  { s with lastChunkTimestamp := chunk.timestamp, lastChunkCapturedFrames := chunk.capturedFrames }

/-- `consumeChunk`.  `answer` is what `StreamingSession::consumeChunk` returns if it is called. -/
def consumeChunk (context : Context) (answer : Bool) (chunk : Chunk) (s : CommandSession) :
    Bool × CommandSession :=
  let s := (s.joinStream context).tryBuffering context
  if s.state = .buffering ∨ s.state = .playing then
    let s := s.tryPlaying context
    let result := if s.streamingSession.isSome then answer else true
    if result then (true, s.chunkConsumed context chunk) else (false, s)
  else (true, s)

/-! ### Latency measurement -/

def ping (now : Timestamp) (index : ℕ) (s : CommandSession) : CommandSession :=
  let s := s.send (.time (index + 1))
  { s with
    measuringLatency := true
    probes := s.probes.set index { s.probes.get index with sendTimestamp := now } }

/-- The handler of the ping timer. -/
def onPingTimer (context : Context) (s : CommandSession) : CommandSession :=
  let s := { s with
    pingTimer := none
    probes := s.probes.pushBack (ProbeValues.fresh context.clock) }
  s.ping (context.clock 2) (s.probes.size - 1)

/-- The oldest posted ping handler. -/
def onPingHandler (context : Context) (s : CommandSession) : CommandSession :=
  match s.pingHandlers with
  | [] => s
  | index :: rest => { s with pingHandlers := rest }.ping (context.clock 0) index

/-- The loop of `getAccurateDurationIndex`, from index `i` downwards. -/
def accurateDurationFrom (p : Probes) : ℕ → Option ℕ
  | i + 2 =>
    if (p.get (i + 1)).clientDuration ≠ 0 ∧ (p.get i).clientDuration ≠ 0 ∧
        (p.get (i + 1)).clientDuration ≠ (p.get i).clientDuration then some (i + 1)
    else accurateDurationFrom p (i + 1)
  | _ => none

def getAccurateDurationIndex (s : CommandSession) : Option ℕ :=
  accurateDurationFrom s.probes s.probes.capacity

/-- The probes considered for the mean value: all but the first three, if they have a
latency. -/
def meanSamples (s : CommandSession) : List ProbeValues :=
  (s.probes.storage.drop 3).filter fun p => p.latency ≠ 0

def getLatencyMeanProbe (context : Context) (s : CommandSession) : ProbeValues :=
  let samples := s.meanSamples
  let samples := if 3 ≤ samples.length then context.sorting.sort samples else samples
  samples.getD (samples.length / 2) (ProbeValues.fresh context.clock)

/-- The smoothing of a measured value. -/
def smooth (old : Option ℤ) (measured : ℤ) : ℤ := (old.getD measured * 8 + measured * 2).tdiv 10

/-- The base value of the playback drift: set once for a playback, from a probe with an
accurate playback duration. -/
def driftBase (context : Context) (accurateDurationIndex : Option ℕ) (s : CommandSession) :
    Option ℤ :=
  if 3 ≤ accurateDurationIndex.getD 0 ∧ s.playbackDriftBase.isNone then
    -- calculating timing at the point of send request event
    let probe := s.probes.get (accurateDurationIndex.getD 0)
    let playbackDiff := |probe.clientDuration - probe.latency -
      context.streamer.calculateDuration s.lastChunkCapturedFrames|
    let timeDiff := |probe.sendTimestamp.diff s.lastChunkTimestamp|
    some (playbackDiff + timeDiff)
  else s.playbackDriftBase

/-- Adjusting latency and time offset once the round of probes is complete. -/
def evaluateProbes (context : Context) (accurateDurationIndex : Option ℕ) (s : CommandSession) :
    CommandSession :=
  let meanProbe := s.getLatencyMeanProbe context
  let meanProbeOffset := meanProbe.sendTimestamp.diff meanProbe.clientTimestamp
  { s with
    timeOffset := some (smooth s.timeOffset meanProbeOffset)
    latency := some (smooth s.latency meanProbe.latency)
    playbackDriftBase := s.driftBase context accurateDurationIndex
    probes := s.probes.clear }

/-- Arming the ping timer if there is no other pending request. -/
def schedulePing (seconds : ℕ) (s : CommandSession) : CommandSession :=
  { s with pingTimer := some (s.pingTimer.getD seconds) }

/-- Posting a handler that pings with the given index. -/
def postPing (index : ℕ) (s : CommandSession) : CommandSession :=
  { s with pingHandlers := s.pingHandlers ++ [index] }

/-- The values of a probe once its ping is answered. -/
def answeredProbe (receiveTimestamp : Timestamp) (d : STAT) (sendTimestamp : Timestamp) :
    ProbeValues where
  sendTimestamp := sendTimestamp
  -- latency is calculated assuming that it equals to network round-trip / 2
  latency := (receiveTimestamp.diff sendTimestamp).tdiv 2
  clientTimestamp := .ofDuration (d.jiffies * 1000)
  clientDuration := d.elapsedMilliseconds * 1000

/-- Storing the answer to the ping with the given index. -/
def recordAnswer (receiveTimestamp : Timestamp) (d : STAT) (index : ℕ) (s : CommandSession) :
    CommandSession :=
  let probe := answeredProbe receiveTimestamp d (s.probes.get index).sendTimestamp
  { s with probes := s.probes.set index probe }

/-- The probe with an accurate playback duration, looked for while playing and only when there
are enough samples. -/
def accurateDurationIndex (s : CommandSession) : Option ℕ :=
  if s.probes.size = s.probes.capacity ∧ s.state = .playing then s.getAccurateDurationIndex
  else none

def onSTMt (context : Context) (receiveTimestamp : Timestamp) (d : STAT) (s : CommandSession) :
    CommandSession :=
  -- processing guard: skipping any requests which were not originated by the server
  if d.serverTimestamp = 0 ∨ s.probes.capacity < d.serverTimestamp then s
  else
    let index := d.serverTimestamp - 1
    let s := s.recordAnswer receiveTimestamp d index
    -- if latency measurement was not interfered by other commands then probe once again
    if s.measuringLatency then
      if (s.state ≠ .playing ∧ s.probes.size = s.probes.capacity) ∨
          (s.state = .playing ∧ 3 ≤ s.accurateDurationIndex.getD 0) then
        (s.evaluateProbes context s.accurateDurationIndex).schedulePing 5
      else
        let s := { s with probes := s.probes.pushBack (ProbeValues.fresh context.clock) }
        s.postPing (s.probes.size - 1)
    else s.postPing index

/-! ### The other message handlers -/

/-- The commands a player gets as the answer to its first `HELO`. -/
def handshakeCommands (gain : Option ℕ) : List ServerCommand :=
  [.SETD .RequestName, .SETD .Squeezebox3, .AUDE true true, .AUDG gain]

/-- What the first `HELO` makes the server send. -/
def sendHandshake (h : HELO) (s : CommandSession) : CommandSession :=
  let s := (handshakeCommands s.gain).foldl (fun s command => s.send command)
    { s with commandHELO := some h }
  -- start sending ping commands after the 'handshake' commands
  let s := s.schedulePing 1
  -- the player answers with STAT/STMf, which changes the state to Started
  s.send .stop

def onHELO (context : Context) (h : HELO) (s : CommandSession) : CommandSession :=
  if s.commandHELO.isSome then s
  else ((s.sendHandshake h).processEvent context .handshake stopConnection).2

def onSTMf (context : Context) (s : CommandSession) : CommandSession :=
  (s.processEvent context .flushed id).2

/-- The percentage both `onSTMl` and `onSTMs` log, in 32-bit unsigned arithmetic. -/
def fullnessPercentage (d : STAT) : Option ℕ :=
  if d.streamBufferSize = 0 then none
  else some (100 * d.streamBufferFullness % 4294967296 / d.streamBufferSize)

def onSTMl (d : STAT) (s : CommandSession) : CommandSession × Option Failure :=
  let s := { s with clientBufferIsReady := true }
  (s, if (fullnessPercentage d).isSome then none else some .divisionByZero)

def onSTMs (d : STAT) (s : CommandSession) : CommandSession × Option Failure :=
  (s, if (fullnessPercentage d).isSome then none else some .divisionByZero)

def onSTMu (s : CommandSession) : CommandSession :=
  if s.state = .draining then s.send .stop else s

/-- The events `eventHandlers` has an entry for. -/
inductive StatEvent where
  | STMc | STMd | STMf | STMl | STMo | STMp | STMr | STMs | STMt | STMu
  deriving DecidableEq, Repr

namespace StatEvent

def key : StatEvent → List UInt8
  | STMc => octets ['S', 'T', 'M', 'c']
  | STMd => octets ['S', 'T', 'M', 'd']
  | STMf => octets ['S', 'T', 'M', 'f']
  | STMl => octets ['S', 'T', 'M', 'l']
  | STMo => octets ['S', 'T', 'M', 'o']
  | STMp => octets ['S', 'T', 'M', 'p']
  | STMr => octets ['S', 'T', 'M', 'r']
  | STMs => octets ['S', 'T', 'M', 's']
  | STMt => octets ['S', 'T', 'M', 't']
  | STMu => octets ['S', 'T', 'M', 'u']

def find (event : List UInt8) : Option StatEvent :=
  [STMc, STMd, STMf, STMl, STMo, STMp, STMr, STMs, STMt, STMu].find? fun e => e.key == event

end StatEvent

def onSTAT (context : Context) (receiveTimestamp : Timestamp) (d : STAT) (s : CommandSession) :
    CommandSession × Option Failure :=
  match StatEvent.find d.event with
  | none => (s, none)
  | some event =>
    -- if this is not STMt event then reseting measuring flag
    let s := if event = .STMt then s else { s with measuringLatency := false }
    match event with
    | .STMf => (s.onSTMf context, none)
    | .STMl => s.onSTMl d
    | .STMs => s.onSTMs d
    | .STMt => (s.onSTMt context receiveTimestamp d, none)
    | .STMu => (s.onSTMu, none)
    | _ => (s, none)

/-- The handler registered for a message, once the message is decoded. -/
def handle (context : Context) (timestamp : Timestamp) (command : ClientCommand)
    (s : CommandSession) : CommandSession × Option Failure :=
  match command with
  | .DSCO _ => (s, none)
  | .HELO h => (s.onHELO context h, none)
  | .RESP _ => (s, none)
  | .SETD _ => (s, none)
  | .STAT d => s.onSTAT context timestamp d

/-! ### What an event does -/

variable (context : Context) (errorHandler : CommandSession → CommandSession)

theorem processEvent_handshake (s : CommandSession) :
    s.processEvent context .handshake errorHandler =
      if s.state = .started then (true, s.setState .draining)
      else (false, errorHandler s) := by
  cases hs : s.state <;>
    simp only [processEvent, StateMachine.processEvent, stateMachine, hs] <;> rfl

theorem processEvent_flushed (s : CommandSession) :
    s.processEvent context .flushed errorHandler =
      if s.state = .draining then (true, s.setState .started)
      else if s.state = .stopped ∨ s.state = .buffering then (false, errorHandler s)
      else (true, s) := by
  cases hs : s.state <;>
    simp only [processEvent, StateMachine.processEvent, stateMachine, hs] <;>
    first | rfl | exact congrArg (Prod.mk true) (setState_self hs)

theorem processEvent_prepare (s : CommandSession) :
    s.processEvent context .prepare errorHandler =
      if s.state = .started then
        if s.isReadyToPrepare then (true, s.stateChangeToPreparing.setState .preparing)
        else (false, s)
      else if s.state = .draining ∨ s.state = .stopped then (false, errorHandler s)
      else (true, s) := by
  cases hs : s.state <;>
    simp only [processEvent, StateMachine.processEvent, stateMachine, hs] <;>
    first | rfl | exact congrArg (Prod.mk true) (setState_self hs)

theorem processEvent_buffer {s : CommandSession} (hs : s.state = .preparing) :
    s.processEvent context .buffer errorHandler =
      if s.isReadyToBuffer then (true, s.setState .buffering) else (false, s) := by
  simp only [processEvent, StateMachine.processEvent, stateMachine, hs]
  rfl

theorem processEvent_play {s : CommandSession} (hs : s.state = .buffering) :
    s.processEvent context .play errorHandler =
      if s.isReadyToPlay then (true, (s.stateChangeToPlaying context).setState .playing)
      else (false, s) := by
  simp only [processEvent, StateMachine.processEvent, stateMachine, hs]
  rfl

theorem processEvent_drain {s : CommandSession} (hs : s.state = .buffering ∨ s.state = .playing) :
    s.processEvent context .drain errorHandler = (true, s.setState .draining) := by
  rcases hs with hs | hs <;>
    simp only [processEvent, StateMachine.processEvent, stateMachine, hs] <;> rfl

theorem processEvent_stop (s : CommandSession) :
    s.processEvent context .stop errorHandler =
      if s.state = .stopped then (true, s)
      else (true, s.stateChangeToStopped.setState .stopped) := by
  cases hs : s.state <;>
    simp only [processEvent, StateMachine.processEvent, stateMachine, hs] <;>
    first | rfl | exact congrArg (Prod.mk true) (setState_self hs)

theorem processEvent_start (s : CommandSession) :
    s.processEvent context .start errorHandler =
      if s.state = .stopped then (true, s.setState .started) else (true, s) := by
  cases hs : s.state <;>
    simp only [processEvent, StateMachine.processEvent, stateMachine, hs] <;>
    first | rfl | exact congrArg (Prod.mk true) (setState_self hs)

/-! ### What messages and pings do

They never touch the ring, the identity of the session, its sampling rate or its HTTP
session, and the only state changes they cause lead from Started to Draining and back. -/

/-- Neither streaming nor stopped. -/
def isIdle (s : CommandSession) : Prop := s.state = .started ∨ s.state = .draining

/-- What received octets can do to a session. -/
structure RequestStep (s s' : CommandSession) : Prop where
  address : s'.address = s.address
  clientID : s'.clientID = s.clientID
  samplingRate : s'.samplingRate = s.samplingRate
  streamingSession : s'.streamingSession = s.streamingSession
  state : s'.state = s.state ∨ s.isIdle ∧ s'.isIdle

/-- What one message can do to a session, once it is taken out of the ring. -/
structure MessageStep (s s' : CommandSession) : Prop extends RequestStep s s' where
  commandRingBuffer : s'.commandRingBuffer = s.commandRingBuffer

theorem RequestStep.trans {s s' s'' : CommandSession} (h : RequestStep s s')
    (h' : RequestStep s' s'') : RequestStep s s'' where
  address := h'.address.trans h.address
  clientID := h'.clientID.trans h.clientID
  samplingRate := h'.samplingRate.trans h.samplingRate
  streamingSession := h'.streamingSession.trans h.streamingSession
  state := by
    rcases h.state with hs | ⟨hi, hi'⟩
    · rcases h'.state with hs' | ⟨hj, hj'⟩
      · exact Or.inl (hs'.trans hs)
      · exact Or.inr ⟨by rwa [isIdle, hs] at hj, hj'⟩
    · rcases h'.state with hs' | ⟨_, hj'⟩
      · exact Or.inr ⟨hi, by rwa [isIdle, hs']⟩
      · exact Or.inr ⟨hi, hj'⟩

theorem MessageStep.refl (s : CommandSession) : MessageStep s s :=
  ⟨⟨rfl, rfl, rfl, rfl, Or.inl rfl⟩, rfl⟩

theorem MessageStep.trans {s s' s'' : CommandSession} (h : MessageStep s s')
    (h' : MessageStep s' s'') : MessageStep s s'' :=
  ⟨h.toRequestStep.trans h'.toRequestStep, h'.commandRingBuffer.trans h.commandRingBuffer⟩

theorem send_step (command : ServerCommand) (s : CommandSession) :
    MessageStep s (s.send command) :=
  ⟨⟨rfl, rfl, rfl, rfl, Or.inl rfl⟩, rfl⟩

theorem foldl_send_step (commands : List ServerCommand) :
    ∀ s : CommandSession, MessageStep s (commands.foldl (fun s command => s.send command) s) := by
  induction commands with
  | nil => intro s; exact MessageStep.refl s
  | cons command commands ih => intro s; exact (send_step command s).trans (ih _)

theorem onPingTimer_step (s : CommandSession) : MessageStep s (s.onPingTimer context) :=
  ⟨⟨rfl, rfl, rfl, rfl, Or.inl rfl⟩, rfl⟩

theorem onPingHandler_step (s : CommandSession) : MessageStep s (s.onPingHandler context) := by
  unfold onPingHandler
  cases s.pingHandlers with
  | nil => exact MessageStep.refl s
  | cons index rest => exact ⟨⟨rfl, rfl, rfl, rfl, Or.inl rfl⟩, rfl⟩

/-- What an answer to a ping can change: the measured values, the probes and the pings to
come. -/
theorem onSTMt_eq (receiveTimestamp : Timestamp) (d : STAT) (s : CommandSession) :
    ∃ timeOffset latency playbackDriftBase probes pingTimer pingHandlers,
      s.onSTMt context receiveTimestamp d = { s with
        timeOffset := timeOffset
        latency := latency
        playbackDriftBase := playbackDriftBase
        probes := probes
        pingTimer := pingTimer
        pingHandlers := pingHandlers } := by
  rw [onSTMt]
  split
  · exact ⟨_, _, _, _, _, _, rfl⟩
  · dsimp only
    split
    · split
      · exact ⟨_, _, _, _, _, _, rfl⟩
      · exact ⟨_, _, _, _, _, _, rfl⟩
    · exact ⟨_, _, _, _, _, _, rfl⟩

theorem onSTMt_step (receiveTimestamp : Timestamp) (d : STAT) (s : CommandSession) :
    MessageStep s (s.onSTMt context receiveTimestamp d) := by
  obtain ⟨_, _, _, _, _, _, h⟩ := onSTMt_eq context receiveTimestamp d s
  rw [h]
  exact ⟨⟨rfl, rfl, rfl, rfl, Or.inl rfl⟩, rfl⟩

theorem sendHandshake_step (h : HELO) (s : CommandSession) :
    MessageStep s (s.sendHandshake h) := by
  have hhelo : MessageStep s { s with commandHELO := some h } :=
    ⟨⟨rfl, rfl, rfl, rfl, Or.inl rfl⟩, rfl⟩
  have hsent := hhelo.trans (foldl_send_step (handshakeCommands s.gain) _)
  exact hsent.trans ⟨⟨rfl, rfl, rfl, rfl, Or.inl rfl⟩, rfl⟩

theorem processEvent_handshake_step (s : CommandSession) :
    MessageStep s (s.processEvent context .handshake stopConnection).2 := by
  rw [processEvent_handshake]
  by_cases hs : s.state = .started
  · rw [if_pos hs]
    exact ⟨⟨rfl, rfl, rfl, rfl, Or.inr ⟨Or.inl hs, Or.inr rfl⟩⟩, rfl⟩
  · rw [if_neg hs]
    exact ⟨⟨rfl, rfl, rfl, rfl, Or.inl rfl⟩, rfl⟩

theorem onHELO_step (h : HELO) (s : CommandSession) : MessageStep s (s.onHELO context h) := by
  rw [onHELO]
  split
  · exact MessageStep.refl s
  · exact (sendHandshake_step h s).trans (processEvent_handshake_step context _)

theorem onSTMf_step (s : CommandSession) : MessageStep s (s.onSTMf context) := by
  rw [onSTMf, processEvent_flushed]
  by_cases hs : s.state = .draining
  · rw [if_pos hs]
    exact ⟨⟨rfl, rfl, rfl, rfl, Or.inr ⟨Or.inr hs, Or.inl rfl⟩⟩, rfl⟩
  · rw [if_neg hs]
    split <;> exact MessageStep.refl s

theorem onSTMu_step (s : CommandSession) : MessageStep s s.onSTMu := by
  rw [onSTMu]
  split <;> exact ⟨⟨rfl, rfl, rfl, rfl, Or.inl rfl⟩, rfl⟩

theorem onSTAT_step (receiveTimestamp : Timestamp) (d : STAT) (s : CommandSession) :
    MessageStep s (s.onSTAT context receiveTimestamp d).1 := by
  have hreset : MessageStep s { s with measuringLatency := false } :=
    ⟨⟨rfl, rfl, rfl, rfl, Or.inl rfl⟩, rfl⟩
  rw [onSTAT]
  cases StatEvent.find d.event with
  | none => exact MessageStep.refl s
  | some event =>
    cases event with
    | STMf => exact hreset.trans (onSTMf_step context _)
    | STMt => exact onSTMt_step context receiveTimestamp d s
    | STMu => exact hreset.trans (onSTMu_step _)
    | _ => exact ⟨⟨rfl, rfl, rfl, rfl, Or.inl rfl⟩, rfl⟩

theorem handle_step (timestamp : Timestamp) (command : ClientCommand) (s : CommandSession) :
    MessageStep s (s.handle context timestamp command).1 := by
  cases command with
  | HELO h => exact onHELO_step context h s
  | STAT d => exact onSTAT_step context timestamp d s
  | _ => exact MessageStep.refl s

/-- The message makes its handler divide by zero. -/
def dividesByZero : ClientCommand → Bool
  | .STAT d =>
    (fullnessPercentage d).isNone &&
      (StatEvent.find d.event == some .STMl || StatEvent.find d.event == some .STMs)
  | _ => false

/-- The one way a handler fails: the division in `onSTMl` and `onSTMs`. -/
theorem handle_result (timestamp : Timestamp) (command : ClientCommand) (s : CommandSession) :
    (s.handle context timestamp command).2 =
      if dividesByZero command then some .divisionByZero else none := by
  cases command with
  | STAT d =>
    show (s.onSTAT context timestamp d).2 = _
    rw [onSTAT, dividesByZero]
    cases StatEvent.find d.event with
    | none => simp
    | some event =>
      cases event with
      | STMl => cases hfullness : fullnessPercentage d <;> simp [onSTMl, hfullness]
      | STMs => cases hfullness : fullnessPercentage d <;> simp [onSTMs, hfullness]
      | _ => simp
  | _ => rfl

theorem handle_failure (timestamp : Timestamp) (command : ClientCommand) (s : CommandSession)
    (h : ∀ d, command = .STAT d → d.streamBufferSize = 0 →
      StatEvent.find d.event ≠ some .STMl ∧ StatEvent.find d.event ≠ some .STMs) :
    (s.handle context timestamp command).2 = none := by
  rw [handle_result, if_neg]
  cases command with
  | STAT d =>
    intro hdivides
    rw [dividesByZero, fullnessPercentage] at hdivides
    split at hdivides
    · rename_i hsize
      have hevent := h d rfl hsize
      simp [hevent.1, hevent.2] at hdivides
    · simp at hdivides
  | _ => exact Bool.false_ne_true

/-! ### What the operations called by the Streamer do -/

theorem start_state (s : CommandSession) :
    (s.start context).state = if s.state = .stopped then .started else s.state := by
  rw [start, processEvent_start]
  split <;> rfl

theorem start_address (s : CommandSession) : (s.start context).address = s.address := by
  rw [start, processEvent_start]
  split <;> rfl

theorem stop_eq (s : CommandSession) :
    s.stop context =
      if s.state = .stopped then s
      else ((if s.state = .started then s else s.send .stop).setSamplingRate 0).setState
        .stopped := by
  rw [stop, isRunning]
  cases hs : s.state with
  | stopped => rfl
  | started =>
    show (s.processEvent context .stop id).2 = (s.setSamplingRate 0).setState .stopped
    rw [processEvent_stop, if_neg (by rw [hs]; decide)]
    rfl
  | _ =>
    show ((s.send .stop).processEvent context .stop id).2 =
      ((s.send .stop).setSamplingRate 0).setState .stopped
    rw [processEvent_stop, if_neg (by rw [send_state, hs]; decide)]
    rfl

theorem stop_state (s : CommandSession) : (s.stop context).state = .stopped := by
  rw [stop_eq]
  split
  · assumption
  · rfl

theorem stop_address (s : CommandSession) : (s.stop context).address = s.address := by
  rw [stop_eq]
  split
  · rfl
  · split <;> rfl

theorem prepare_eq (rate : ℕ) (s : CommandSession) :
    s.prepare context rate =
      if s.state = .started ∧ rate ≠ 0 then
        (s.setSamplingRate rate).stateChangeToPreparing.setState .preparing
      else if s.state = .started ∨ s.state = .draining ∨ s.state = .stopped then s
      else s.setSamplingRate rate := by
  rw [prepare, processEvent_prepare, setSamplingRate_state]
  by_cases hs : s.state = .started
  · by_cases hr : rate = 0
    · simp only [hs, hr, if_true, ne_eq, not_true_eq_false, and_false, if_false, true_or]
      rfl
    · have hready : (s.setSamplingRate rate).isReadyToPrepare = true := bne_iff_ne.mpr hr
      simp only [hs, hready, hr, if_true, ne_eq, not_false_eq_true, and_self]
  · by_cases hd : s.state = .draining ∨ s.state = .stopped
    · simp only [hs, hd, if_true, if_false, false_and, false_or]
      rfl
    · simp only [hs, hd, if_true, if_false, false_and, false_or]

theorem prepare_address (rate : ℕ) (s : CommandSession) :
    (s.prepare context rate).address = s.address := by
  rw [prepare_eq]
  split
  · rfl
  · split <;> rfl

/-- A started session is sent a fresh `STRM` Start. -/
theorem prepare_written {rate : ℕ} (hr : rate ≠ 0) {s : CommandSession}
    (hs : s.state = .started) :
    (s.prepare context rate).written =
      s.written ++ [.start s.formatSelection s.streamingPort rate s.clientID] := by
  rw [prepare_eq, if_pos ⟨hs, hr⟩]
  rfl

/-! ### What the delivery of a chunk does -/

/-- The session is about to hand a chunk to its HTTP session. -/
def isStreaming (s : CommandSession) : Bool :=
  s.state == .buffering || s.state == .playing || (s.state == .preparing && s.isReadyToBuffer)

/-- The session refuses a chunk: it would hand it over, and the HTTP session says no. -/
def refuses (answer : Bool) (s : CommandSession) : Bool :=
  s.isStreaming && s.streamingSession.isSome && !answer

/-- The session is neither preparing nor streaming once an end-of-stream chunk was offered to
it. -/
def leavesStream (answer : Bool) (s : CommandSession) : Bool :=
  s.state == .draining || s.state == .stopped || (s.isStreaming && !s.refuses answer)

/-- The session is taking part in a stream. -/
def isInStream (s : CommandSession) : Bool :=
  s.state == .preparing || s.state == .buffering || s.state == .playing

theorem joinStream_address (s : CommandSession) : (s.joinStream context).address = s.address := by
  rw [joinStream]
  split
  · exact prepare_address context _ s
  · rfl

/-- A session in Preparing buffers once it is ready to. -/
theorem tryBuffering_cases (s : CommandSession) :
    (s.state = .preparing ∧ s.isReadyToBuffer = true ∧
      s.tryBuffering context = s.setState .buffering) ∨ s.tryBuffering context = s := by
  by_cases h : s.state = .preparing
  · rw [tryBuffering, if_pos h, processEvent_buffer context _ h]
    cases hready : s.isReadyToBuffer with
    | true => exact Or.inl ⟨h, rfl, rfl⟩
    | false => exact Or.inr rfl
  · rw [tryBuffering, if_neg h]
    exact Or.inr rfl

/-- A session in Buffering plays once the Streamer does and it is ready to. -/
theorem tryPlaying_cases (s : CommandSession) :
    (s.state = .buffering ∧ s.isReadyToPlay = true ∧
      s.tryPlaying context = (s.stateChangeToPlaying context).setState .playing) ∨
      s.tryPlaying context = s := by
  by_cases h : s.state = .buffering ∧ context.streamer.isPlaying = true
  · rw [tryPlaying, if_pos h, processEvent_play context _ h.1]
    cases hready : s.isReadyToPlay with
    | true => exact Or.inl ⟨h.1, rfl, rfl⟩
    | false => exact Or.inr rfl
  · rw [tryPlaying, if_neg h]
    exact Or.inr rfl

theorem tryBuffering_address (s : CommandSession) :
    (s.tryBuffering context).address = s.address := by
  rcases tryBuffering_cases context s with ⟨-, -, h⟩ | h <;> rw [h]
  rfl

theorem tryPlaying_address (s : CommandSession) : (s.tryPlaying context).address = s.address := by
  rcases tryPlaying_cases context s with ⟨-, -, h⟩ | h <;> rw [h]
  rfl

/-- A session that joins has no HTTP session yet, so it waits in Preparing. -/
theorem tryBuffering_joinStream_eq {s : CommandSession} (hs : s.state = .started) :
    (s.joinStream context).tryBuffering context =
      s.prepare context context.streamer.samplingRate := by
  rw [joinStream, if_pos hs, prepare_eq]
  by_cases hr : context.streamer.samplingRate = 0
  · rw [if_neg (fun h => h.2 hr), if_pos (Or.inl hs), tryBuffering, if_neg (by rw [hs]; decide)]
  · have hready : (((s.setSamplingRate context.streamer.samplingRate).stateChangeToPreparing
        ).setState .preparing).isReadyToBuffer = false := by
      rw [isReadyToBuffer]
      exact Bool.and_false _
    rw [if_pos ⟨hs, hr⟩, tryBuffering, if_pos (setState_state _ _),
      processEvent_buffer context _ (setState_state _ _), hready]
    rfl

theorem tryBuffering_joinStream_of_started {s : CommandSession} (hs : s.state = .started) :
    ((s.joinStream context).tryBuffering context).state =
      if context.streamer.samplingRate = 0 then .started else .preparing := by
  rw [tryBuffering_joinStream_eq context hs, prepare_eq]
  by_cases hr : context.streamer.samplingRate = 0
  · rw [if_neg (fun h => h.2 hr), if_pos (Or.inl hs), if_pos hr, hs]
  · rw [if_pos ⟨hs, hr⟩, if_neg hr]
    rfl

theorem tryBuffering_joinStream_of_ne {s : CommandSession} (hs : s.state ≠ .started) :
    (s.joinStream context).tryBuffering context =
      if s.state = .preparing ∧ s.isReadyToBuffer = true then s.setState .buffering else s := by
  rw [joinStream, if_neg hs, tryBuffering]
  by_cases hp : s.state = .preparing
  · rw [if_pos hp, processEvent_buffer context _ hp]
    by_cases hr : s.isReadyToBuffer = true
    · rw [if_pos hr, if_pos ⟨hp, hr⟩]
    · rw [if_neg hr, if_neg (fun h => hr h.2)]
  · rw [if_neg hp, if_neg (fun h => hp h.1)]

theorem tryPlaying_state {s : CommandSession} (hs : s.state = .buffering ∨ s.state = .playing) :
    (s.tryPlaying context).state = .buffering ∨ (s.tryPlaying context).state = .playing := by
  rcases tryPlaying_cases context s with ⟨-, -, h⟩ | h
  · rw [h]
    exact Or.inr rfl
  · rw [h]
    exact hs

theorem tryPlaying_streamingSession (s : CommandSession) :
    (s.tryPlaying context).streamingSession = s.streamingSession := by
  rcases tryPlaying_cases context s with ⟨-, -, h⟩ | h <;> rw [h]
  rfl

theorem isStreaming_iff (s : CommandSession) :
    s.isStreaming = true ↔
      ((s.joinStream context).tryBuffering context).state = .buffering ∨
        ((s.joinStream context).tryBuffering context).state = .playing := by
  by_cases hs : s.state = .started
  · rw [tryBuffering_joinStream_of_started context hs, isStreaming, hs]
    split <;> simp
  · rw [tryBuffering_joinStream_of_ne context hs, isStreaming]
    by_cases h : s.state = .preparing ∧ s.isReadyToBuffer = true
    · rw [if_pos h]
      simp [h.1, h.2]
    · rw [if_neg h]
      simp only [Bool.or_eq_true, Bool.and_eq_true, beq_iff_eq, h, or_false]

theorem isStreaming_streamingSession {s : CommandSession} (h : s.isStreaming = true) :
    ((s.joinStream context).tryBuffering context).streamingSession = s.streamingSession := by
  have hs : s.state ≠ .started := by
    intro hs
    simp [isStreaming, hs] at h
  rw [tryBuffering_joinStream_of_ne context hs]
  split <;> rfl

/-- **The delivery of a chunk**, by whether the session is streaming and refuses. -/
theorem consumeChunk_eq (answer : Bool) (chunk : Chunk) (s : CommandSession) :
    s.consumeChunk context answer chunk =
      let ready := (s.joinStream context).tryBuffering context
      if s.isStreaming = true then
        if s.refuses answer = true then (false, ready.tryPlaying context)
        else (true, (ready.tryPlaying context).chunkConsumed context chunk)
      else (true, ready) := by
  rw [consumeChunk, refuses]
  by_cases h : s.isStreaming = true
  · simp only [(isStreaming_iff context s).mp h, tryPlaying_streamingSession,
      isStreaming_streamingSession context h, h, if_true]
    cases s.streamingSession.isSome <;> cases answer <;> rfl
  · have h' := (isStreaming_iff context s).not.mp h
    simp only [h, h', if_false]
    rfl

theorem consumeChunk_fst (answer : Bool) (chunk : Chunk) (s : CommandSession) :
    (s.consumeChunk context answer chunk).1 = !s.refuses answer := by
  rw [consumeChunk_eq]
  by_cases h : s.isStreaming = true
  · by_cases hr : s.refuses answer = true
    · simp only [h, hr, if_true]
      rfl
    · rw [Bool.not_eq_true] at hr
      simp only [h, hr, if_true, Bool.false_eq_true, if_false]
      rfl
  · rw [Bool.not_eq_true] at h
    simp only [refuses, h, Bool.false_eq_true, if_false, Bool.false_and]
    rfl

theorem chunkConsumed_address {s : CommandSession} (chunk : Chunk)
    (hs : s.state = .buffering ∨ s.state = .playing) :
    (s.chunkConsumed context chunk).address = s.address := by
  rw [chunkConsumed]
  split
  · rw [processEvent_drain context _ hs]
    rfl
  · rfl

theorem consumeChunk_address (answer : Bool) (chunk : Chunk) (s : CommandSession) :
    (s.consumeChunk context answer chunk).2.address = s.address := by
  have hready : ((s.joinStream context).tryBuffering context).address = s.address := by
    rw [tryBuffering_address, joinStream_address]
  rw [consumeChunk_eq]
  dsimp only
  split
  · rename_i h
    split
    · rw [tryPlaying_address, hready]
    · rw [chunkConsumed_address context chunk
        (tryPlaying_state context ((isStreaming_iff context s).mp h)), tryPlaying_address, hready]
  · exact hready

/-- **What leaves the stream on an end-of-stream chunk**: who accepts it while streaming, and
who was draining or stopped already. -/
theorem consumeChunk_leavesStream {answer : Bool} {chunk : Chunk} (hchunk : chunk.endOfStream)
    {s : CommandSession} (hs : s.leavesStream answer = true) :
    (s.consumeChunk context answer chunk).2.isInStream = false := by
  rw [consumeChunk_eq]
  by_cases h : s.isStreaming = true
  · have hstate := tryPlaying_state context ((isStreaming_iff context s).mp h)
    have haccept : s.refuses answer = false := by
      simp only [leavesStream, isStreaming, Bool.or_eq_true, Bool.and_eq_true, beq_iff_eq,
        Bool.not_eq_true'] at h hs
      grind
    simp only [h, haccept, if_true, Bool.false_eq_true, if_false, chunkConsumed, hchunk,
      processEvent_drain context stopConnection hstate]
    rfl
  · have hs : s.state = .draining ∨ s.state = .stopped := by
      simpa [leavesStream, h] using hs
    rw [if_neg h, tryBuffering_joinStream_of_ne context (by rcases hs with hs | hs <;> simp [hs]),
      if_neg (by rcases hs with hs | hs <;> simp [hs]), isInStream]
    rcases hs with hs | hs <;> simp [hs]

/-! ### What the operations called by the Streamer can change -/

/-- One change of a session by the operations the Streamer calls. -/
inductive Change : CommandSession → CommandSession → Prop
  | prepared {s : CommandSession} {rate : ℕ} (hs : s.state = .started) (hrate : rate ≠ 0) :
    Change s ((s.setSamplingRate rate).stateChangeToPreparing.setState .preparing)
  | rated (s : CommandSession) (rate : ℕ) : Change s (s.setSamplingRate rate)
  | buffered {s : CommandSession} (hs : s.state = .preparing) (hready : s.isReadyToBuffer = true) :
    Change s (s.setState .buffering)
  | played {s : CommandSession} (context : Context) (hs : s.state = .buffering)
    (hready : s.isReadyToPlay = true) :
    Change s ((s.stateChangeToPlaying context).setState .playing)
  | drained {s : CommandSession} (hs : s.state = .buffering ∨ s.state = .playing) :
    Change s (s.setState .draining)
  | consumed (s : CommandSession) (chunk : Chunk) :
    Change s { s with
      lastChunkTimestamp := chunk.timestamp, lastChunkCapturedFrames := chunk.capturedFrames }
  | stopped {s : CommandSession} (hs : s.state ≠ .stopped) :
    Change s (((if s.state = .started then s else s.send .stop).setSamplingRate 0).setState
      .stopped)

/-- Any number of changes. -/
def Changes : CommandSession → CommandSession → Prop := Relation.ReflTransGen Change

/-- **The rule for changes**: a relation that composes and that each change satisfies. -/
theorem Changes.keeps {R : CommandSession → CommandSession → Prop} (hrefl : ∀ s, R s s)
    (htrans : ∀ {s s' s''}, R s s' → R s' s'' → R s s'')
    (hchange : ∀ {s s'}, Change s s' → R s s') {s s' : CommandSession} (h : Changes s s') :
    R s s' := by
  induction h with
  | refl => exact hrefl s
  | tail _ hc ih => exact htrans ih (hchange hc)

theorem prepare_changes (rate : ℕ) (s : CommandSession) : Changes s (s.prepare context rate) := by
  rw [prepare_eq]
  split
  · rename_i h
    exact .single (.prepared h.1 h.2)
  · split
    · exact .refl
    · exact .single (.rated s rate)

theorem joinStream_changes (s : CommandSession) : Changes s (s.joinStream context) := by
  rw [joinStream]
  split
  · exact prepare_changes context _ s
  · exact .refl

theorem tryBuffering_changes (s : CommandSession) : Changes s (s.tryBuffering context) := by
  rcases tryBuffering_cases context s with ⟨hstate, hready, h⟩ | h
  · rw [h]
    exact .single (.buffered hstate hready)
  · rw [h]
    exact .refl

theorem tryPlaying_changes (s : CommandSession) : Changes s (s.tryPlaying context) := by
  rcases tryPlaying_cases context s with ⟨hstate, hready, h⟩ | h
  · rw [h]
    exact .single (.played context hstate hready)
  · rw [h]
    exact .refl

theorem chunkConsumed_changes {s : CommandSession} (chunk : Chunk)
    (hs : s.state = .buffering ∨ s.state = .playing) :
    Changes s (s.chunkConsumed context chunk) := by
  rw [chunkConsumed]
  split
  · rw [processEvent_drain context _ hs]
    exact .tail (.single (.drained hs)) (.consumed _ chunk)
  · exact .single (.consumed s chunk)

/-- **What the delivery of a chunk can change.** -/
theorem consumeChunk_changes (answer : Bool) (chunk : Chunk) (s : CommandSession) :
    Changes s (s.consumeChunk context answer chunk).2 := by
  have hready := (joinStream_changes context s).trans (tryBuffering_changes context _)
  have hplaying := hready.trans (tryPlaying_changes context _)
  rw [consumeChunk_eq]
  dsimp only
  split
  · rename_i h
    have hstate := tryPlaying_state context ((isStreaming_iff context s).mp h)
    split
    · exact hplaying
    · exact hplaying.trans (chunkConsumed_changes context chunk hstate)
  · exact hready

theorem stop_changes (s : CommandSession) : Changes s (s.stop context) := by
  rw [stop_eq]
  split
  · exact .refl
  · rename_i h
    exact .single (.stopped h)

end CommandSession

end SlimStreamer
