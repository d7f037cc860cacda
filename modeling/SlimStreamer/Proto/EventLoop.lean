import SlimStreamer.Conn.TcpServer
import SlimStreamer.Proto.StreamTransfer
import SlimStreamer.Proto.StreamerSystem

/-!
# The event loop over the HTTP sessions

The Streamer, its HTTP sessions and the TCP server they are connected to, with what these have
submitted to the event loop: the queue of posted handlers, the flush timers that run and the
writes that are not completed.  Handlers run in the order they were posted; timers and
completions come at any time.

A handler, a timer or a write that belongs to a session refers to it by its address.  What
happens to a session that has been destroyed is not modelled: `sessionUses` records whether the
session existed when one of these ran, and `connectionUses` whether the connection existed when
a session called `writeAsync` or `stop` on it.

* `Call` — what a session is asked to do; `call` — what comes of it;
* `onHTTPData`, `onHTTPClose`, `invoke` — how sessions are created and destroyed;
* `Event`, `system` — the loop.
-/

namespace SlimStreamer

open GuardedExecution KeyedList

namespace StreamingSession

/-- The calls a session gets. -/
inductive Call where
  | consumeChunk (chunk : Chunk) (output finish : List (List UInt8))
  | onRequest (buffer : List UInt8) (finish : List (List UInt8))
  | stop (callback : Callback) (finish : List (List UInt8))
  /-- A posted `transferTask`. -/
  | transferTask
  /-- The completion handler of a write. -/
  | completed (write : Write) (completion : Completion)
  /-- A flush timer has run out. -/
  | flush (callback : Callback)

namespace Call

/-- A connection whose socket is closed completes a write at once, with an error. -/
def run : Call → StreamingSession → StreamingSession
  | consumeChunk chunk output finish, s => (s.consumeChunk chunk output finish).2
  | onRequest buffer finish, s => s.onRequest buffer finish
  | stop callback finish, s => s.stop callback finish
  | transferTask, s => s.transferTask (if s.connection.isOpen then none else some ⟨true, 0⟩)
  | completed write completion, s => s.complete write completion
  | flush callback, s => s.flush callback

/-- Whether the call gets to `writeAsync` or `stop` of the connection. -/
def usesConnection : Call → StreamingSession → Bool
  | consumeChunk chunk output finish, s =>
    (s.stopOutput (.consumeChunk chunk output finish)).isSome && !s.transferring
  | onRequest buffer finish, s =>
    (s.stopOutput (.onRequest buffer finish)).isSome && !s.transferring
  | stop callback finish, s => (s.stopOutput (.stop callback finish)).isSome && !s.transferring
  | transferTask, s => s.issuesWrite
  | completed _ _, _ => false
  | flush _, s => !s.transferring

end Call

/-- The session at the beginning of a call: the event loop has taken over what earlier calls
have submitted, and the socket may have been closed. -/
def enter (isOpen : Bool) (s : StreamingSession) : StreamingSession :=
  { s with
    connection := { s.connection with isOpen := isOpen, writes := [] }
    transferTasks := 0
    flushTimers := []
    postedCallbacks := []
    finishedCallbacks := [] }

end StreamingSession

/-- An entry of `streamingSessions`. -/
structure HTTPSession where
  address : ℕ
  connection : ℕ
  session : StreamingSession
  /-- The number of flush timers it has started; `timer` refers to the last of them. -/
  timer : ℕ

/-- A flush timer that runs, by the session that started it. -/
structure FlushTimer where
  session : ℕ
  number : ℕ
  callback : Callback
  deriving DecidableEq

/-- A write that is not completed, by the session that submitted it. -/
structure PendingWrite where
  session : ℕ
  write : Write
  deriving DecidableEq

/-- An object was used, and whether it existed. -/
structure Use where
  object : ℕ
  existed : Bool
  deriving DecidableEq

namespace EventLoop

/-- A handler posted with `processorProxy.process`. -/
inductive Handler where
  | tcp (handler : Tcp.Handler)
  | transferTask (session : ℕ)
  /-- The handler that `stop` of a session posts: it calls back. -/
  | callback (callback : Callback)
  deriving DecidableEq

end EventLoop

structure EventLoop where
  server : Tcp.Server
  streamer : Streamer
  /-- `streamingSessions`. -/
  sessions : List HTTPSession
  handlers : List EventLoop.Handler
  timers : List FlushTimer
  writes : List PendingWrite
  nextAddress : ℕ
  connectionUses : List Use
  sessionUses : List Use

namespace EventLoop

/-- The TCP server has been started, and there is no HTTP session. -/
def started (maxConnections : ℕ) (streamer : Streamer) : EventLoop where
  server := (Tcp.Server.create maxConnections).start
  streamer := streamer
  sessions := []
  handlers := []
  timers := []
  writes := []
  nextAddress := 0
  connectionUses := []
  sessionUses := []

/-- `nativeSocket.is_open()`. -/
def isOpen (connection : ℕ) (l : EventLoop) : Bool :=
  l.server.connections.any fun c => c.id == connection && c.socketOpen

def sessionAt (address : ℕ) (l : EventLoop) : Option HTTPSession :=
  find HTTPSession.address address l.sessions

def sessionOf (connection : ℕ) (l : EventLoop) : Option HTTPSession :=
  find HTTPSession.connection connection l.sessions

def post (handlers : List Handler) (l : EventLoop) : EventLoop :=
  { l with handlers := l.handlers ++ handlers }

def stopConnection (connection : ℕ) (l : EventLoop) : EventLoop :=
  { l with server := l.server.update connection Tcp.Connection.stop }

/-! ### Calls -/

/-- The flush timers a call has started, after `timer` others. -/
def startedTimers (address timer : ℕ) (s : StreamingSession) : List FlushTimer :=
  s.flushTimers.mapIdx fun i callback => ⟨address, timer + i + 1, callback⟩

/-- Taking over what a call has submitted: the handlers in the order they were posted. -/
def submit (entry : HTTPSession) (s : StreamingSession) (l : EventLoop) : EventLoop :=
  { l with
    server := if s.connection.isOpen then l.server
      else l.server.update entry.connection Tcp.Connection.stop
    handlers := l.handlers ++ List.replicate s.transferTasks (.transferTask entry.address) ++
      s.postedCallbacks.map .callback
    timers := l.timers ++ startedTimers entry.address entry.timer s
    writes := l.writes ++ s.connection.writes.map fun write => ⟨entry.address, write⟩ }

/-- The session after a call. -/
def assign (s : StreamingSession) (entry : HTTPSession) : HTTPSession :=
  { entry with
    session := s
    timer := entry.timer + s.flushTimers.length }

/-- The session is destroyed, and its destructor cancels `timer`. -/
def destroy (entry : HTTPSession) (l : EventLoop) : EventLoop :=
  { l with
    sessions := discard HTTPSession.address entry.address l.sessions
    timers := l.timers.filter fun t => ¬ (t.session = entry.address ∧ t.number = entry.timer) }

/-- Invoking a callback that was given to `stop`: the empty one, or the one of
`removeSession`. -/
def invoke (l : EventLoop) : Callback → EventLoop
  | none => l
  | some connection =>
    let l := { l with streamer := l.streamer.onHTTPRemoved connection }
    match l.sessionOf connection with
    | none => l
    | some entry => l.destroy entry

/-- Whether the connection exists that a call uses. -/
def recordConnection (entry : HTTPSession) (used : Bool) (l : EventLoop) : EventLoop :=
  { l with connectionUses :=
      if used then l.connectionUses ++ [⟨entry.connection, l.server.has entry.connection⟩]
      else l.connectionUses }

/-- The session when it is called. -/
def entered (entry : HTTPSession) (l : EventLoop) : StreamingSession :=
  entry.session.enter (l.isOpen entry.connection)

/-- The state after a call, but for the callback that it has invoked. -/
def afterCall (entry : HTTPSession) (c : StreamingSession.Call) (l : EventLoop) : EventLoop :=
  let s := c.run (l.entered entry)
  let next := (l.recordConnection entry (c.usesConnection (l.entered entry))).submit entry s
  { next with sessions := alter HTTPSession.address entry.address (assign s) l.sessions }

/-- A call to the session at an address, if there is one. -/
def call (address : ℕ) (c : StreamingSession.Call) (l : EventLoop) : EventLoop :=
  match l.sessionAt address with
  | none => l
  | some entry => (c.run (l.entered entry)).finishedCallbacks.foldl invoke (l.afterCall entry c)

/-- A handler, a timer or a write of a session runs: whether the session exists. -/
def enterSession (address : ℕ) (l : EventLoop) : EventLoop :=
  { l with sessionUses := l.sessionUses ++ [⟨address, (l.sessionAt address).isSome⟩] }

/-! ### HTTP requests -/

/-- The encoder that `encoderBuilder` builds. -/
def encoderKind : FormatSelection → EncoderKind
  | .PCM => .wave
  | .FLAC => .flac

/-- A new session for a connection, once it is started; `header` is what the FLAC encoder
writes when it is initialized. -/
def newSession (connection : ℕ) (clientID : List UInt8) (mime version : String)
    (header : List (List UInt8)) (l : EventLoop) : HTTPSession where
  address := l.nextAddress
  connection := connection
  session := ((StreamingSession.create clientID (encoderKind l.streamer.format)
    l.streamer.samplingRate mime).enter (l.isOpen connection)).start version header
  timer := 0

/-- A session object is created and started. -/
def create (entry : HTTPSession) (l : EventLoop) : EventLoop :=
  { (l.submit entry entry.session) with
    sessions := l.sessions ++ [entry]
    nextAddress := l.nextAddress + 1 }

/-- What a request carries: the receive buffer, and what the encoder of the session writes when
it is started and when it is stopped. -/
structure Request where
  buffer : List UInt8
  receivedSize : ℕ
  mime : String
  version : String
  header : List (List UInt8)
  finish : List (List UInt8)

def onHTTPData (connection : ℕ) (request : Request) (l : EventLoop) : EventLoop :=
  match l.sessionOf connection with
  | some entry => l.call entry.address (.onRequest request.buffer request.finish)
  | none =>
    let received := request.buffer.take request.receivedSize
    let next := { l with streamer := (l.streamer.onHTTPData connection received).1 }
    match Streamer.parseClientID received with
    | none => next
    | some clientID =>
      let entry := l.newSession connection clientID request.mime request.version request.header
      let next := next.create entry
      match l.streamer.findSessionByID clientID with
      -- the exception destroys the session
      | none => (next.stopConnection connection).destroy entry
      | some _ => next.call entry.address (.onRequest request.buffer request.finish)

def onHTTPClose (connection : ℕ) (finish : List (List UInt8)) (l : EventLoop) : EventLoop :=
  match l.sessionOf connection with
  | none => l
  | some entry =>
    let l := { l with streamer := l.streamer.onHTTPClose connection }
    l.call entry.address (.stop (some connection) finish)

/-- `Streamer::stop`; a Streamer that is not stopped yet stops its HTTP sessions. -/
def stop (environment : Environment) (finish : ℕ → List (List UInt8)) (l : EventLoop) :
    EventLoop :=
  let next := { l with streamer := l.streamer.stop environment }
  if l.streamer.isRunning then
    l.sessions.foldl (fun l entry => l.call entry.address (.stop none (finish entry.address))) next
  else next

/-! ### The loop -/

def runHandler (l : EventLoop) : EventLoop :=
  match l.handlers with
  | [] => l
  | handler :: rest =>
    let l := { l with handlers := rest }
    match handler with
    | .tcp (.onStop connection) => l.post [.tcp (.removal connection)]
    | .tcp (.removal connection) => { l with server := l.server.onRemoval connection }
    | .transferTask session => (l.enterSession session).call session .transferTask
    | .callback callback => l.invoke callback

/-- A flush timer runs out. -/
def onFlushTimer (timer : FlushTimer) (l : EventLoop) : EventLoop :=
  let l := { l with timers := l.timers.erase timer }
  (l.enterSession timer.session).call timer.session (.flush timer.callback)

def onWritten (write : PendingWrite) (completion : Completion) (l : EventLoop) : EventLoop :=
  let l := { l with writes := l.writes.erase write }
  (l.enterSession write.session).call write.session (.completed write.write completion)

inductive Event where
  /-- An accept of the TCP server completes. -/
  | accepted (connection : ℕ) (error : Bool)
  /-- A read completes. -/
  | received (connection : ℕ) (request : Request)
  /-- A read completes with an error. -/
  | closed (connection : ℕ) (finish : List (List UInt8))
  | stopServer
  /-- A call to the Streamer that does not concern its HTTP sessions. -/
  | streamer (stimulus : Streamer.Stimulus)
  /-- A SlimProto session hands a chunk on. -/
  | chunk (session : ℕ) (chunk : Chunk) (output finish : List (List UInt8))
  | stop (environment : Environment) (finish : ℕ → List (List UInt8))
  /-- The first posted handler runs. -/
  | handler
  | timer (timer : FlushTimer)
  | written (write : PendingWrite) (completion : Completion)

def step (l : EventLoop) : Event → EventLoop
  | .accepted connection error =>
    ({ l with server := l.server.onAccept connection error }).post
      (if error then [.tcp (.onStop connection)] else [])
  | .received connection request => l.onHTTPData connection request
  | .closed connection finish =>
    -- the close callback does not look at `opened`, which is reset after it
    let l := { l with server := l.server.update connection Tcp.Connection.onClose }
    (l.onHTTPClose connection finish).post [.tcp (.onStop connection)]
  | .stopServer => { l with server := l.server.stop }
  | .streamer stimulus => { l with streamer := l.streamer.step stimulus }
  | .chunk session chunk output finish => l.call session (.consumeChunk chunk output finish)
  | .stop environment finish => l.stop environment finish
  | .handler => l.runHandler
  | .timer timer => l.onFlushTimer timer
  | .written write completion => l.onWritten write completion

/-- The calls that are events of their own. -/
def concernsHTTP : Streamer.Stimulus → Bool
  | .httpData _ _ | .httpClose _ | .httpRemoved _ | .stop _ => true
  | _ => false

def enabled (l : EventLoop) : Event → Prop
  | .accepted connection error => l.server.accepts connection error = true
  | .received connection _ => l.server.reads connection = true
  | .closed connection _ => l.server.reads connection = true
  | .streamer stimulus => concernsHTTP stimulus = false ∧ l.streamer.enabled stimulus
  | .chunk session _ _ _ => (l.sessionAt session).isSome = true
  | .handler => l.handlers ≠ []
  | .timer timer => timer ∈ l.timers
  | .written write _ => write ∈ l.writes
  | .stopServer | .stop _ _ => True

instance (l : EventLoop) : DecidablePred (enabled l)
  | .accepted connection error =>
    inferInstanceAs (Decidable (l.server.accepts connection error = true))
  | .received connection _ => inferInstanceAs (Decidable (l.server.reads connection = true))
  | .closed connection _ => inferInstanceAs (Decidable (l.server.reads connection = true))
  | .streamer stimulus =>
    inferInstanceAs (Decidable (concernsHTTP stimulus = false ∧ l.streamer.enabled stimulus))
  | .chunk session _ _ _ => inferInstanceAs (Decidable ((l.sessionAt session).isSome = true))
  | .handler => inferInstanceAs (Decidable (l.handlers ≠ []))
  | .timer timer => inferInstanceAs (Decidable (timer ∈ l.timers))
  | .written write _ => inferInstanceAs (Decidable (write ∈ l.writes))
  | .stopServer | .stop _ _ => isTrue trivial

def system : System EventLoop Event where
  enabled := enabled
  step := step

instance (l : EventLoop) (e : Event) : Decidable (system.enabled l e) :=
  inferInstanceAs (Decidable (enabled l e))

end EventLoop

end SlimStreamer
