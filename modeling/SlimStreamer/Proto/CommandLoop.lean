import SlimStreamer.Proto.EventLoop
import SlimStreamer.Proto.StreamReference

/-!
# The event loop over the SlimProto sessions

The TCP server of the command port with the Streamer, and the queue of posted handlers.  A
session is created when its connection opens and destroyed when it closes.  The ping handlers it
has posted refer to it; they stay in the queue, and `sessionUses` records whether the session
existed when one of them ran.

* `Event`, `system` — the loop;
* `SameReaders`, `reads_onAccept` — which connections are open after an operation of the server;
* `Untouched`, `other_untouched` — what leaves the posted pings alone;
* `Wired`, `wired_step` — there is one session for each open connection, and the queue holds the
  pings that the sessions have posted;
* `command_loop_refines` — so every run is a run of the Streamer.
-/

namespace SlimStreamer

open GuardedExecution KeyedList

namespace CommandLoop

/-- A handler posted with `processorProxy.process`. -/
inductive Handler where
  | tcp (handler : Tcp.Handler)
  /-- A ping that `onSTMt` has posted, by its session. -/
  | ping (session index : ℕ)
  deriving DecidableEq

end CommandLoop

structure CommandLoop where
  server : Tcp.Server
  streamer : Streamer
  handlers : List CommandLoop.Handler
  sessionUses : List Use

namespace CommandLoop

/-- The server has been started, and nobody has connected. -/
def started (maxConnections : ℕ) (streamer : Streamer) : CommandLoop where
  server := (Tcp.Server.create maxConnections).start
  streamer := streamer
  handlers := []
  sessionUses := []

def post (handlers : List Handler) (l : CommandLoop) : CommandLoop :=
  { l with handlers := l.handlers ++ handlers }

/-- `connection.stop()`, for some connections. -/
def stopConnections (connections : List ℕ) (s : Tcp.Server) : Tcp.Server :=
  connections.foldl (fun s connection => s.update connection Tcp.Connection.stop) s

/-- The Streamer after a call; its sessions may have stopped their connections. -/
def called (streamer : Streamer) (l : CommandLoop) : CommandLoop :=
  { l with
    streamer := streamer
    server := stopConnections
      ((streamer.commandSessions.filter fun e => e.2.stopRequested).map Prod.fst) l.server }

/-- The pings that the session of a connection has posted and that have not run. -/
def postedPings (connection : ℕ) (t : Streamer) : List Handler :=
  match t.commandSessions.lookup connection with
  | none => []
  | some s => s.pingHandlers.map (.ping s.address)

/-- The connection of the session at an address. -/
def connectionOf (address : ℕ) (t : Streamer) : Option ℕ :=
  (t.commandSessions.find? fun e => e.2.address == address).map Prod.fst

/-! ### The loop -/

/-- The data callback; the call posts handlers, and stops the connection after an exception. -/
def onData (connection : ℕ) (buffer : List UInt8) (timestamp : Timestamp)
    (environments : ℕ → Environment) (l : CommandLoop) : CommandLoop :=
  let streamer := l.streamer.onSlimProtoData connection buffer timestamp environments
  let posted := (postedPings connection streamer).drop
    (postedPings connection l.streamer).length
  let next := (l.called streamer).post posted
  if streamer.stoppedConnections = l.streamer.stoppedConnections then next
  else { next with server := stopConnections [connection] next.server }

def runHandler (environment : Environment) (l : CommandLoop) : CommandLoop :=
  match l.handlers with
  | [] => l
  | handler :: rest =>
    let l := { l with handlers := rest }
    match handler with
    | .tcp (.onStop connection) => l.post [.tcp (.removal connection)]
    | .tcp (.removal connection) => { l with server := l.server.onRemoval connection }
    | .ping session _ =>
      match connectionOf session l.streamer with
      | none => { l with sessionUses := l.sessionUses ++ [Use.mk session false] }
      | some connection =>
        let l := { l with sessionUses := l.sessionUses ++ [Use.mk session true] }
        l.called (l.streamer.onPingHandler connection environment)

inductive Event where
  /-- An accept of the TCP server completes. -/
  | accepted (connection : ℕ) (error : Bool) (environment : Environment)
  /-- A read completes. -/
  | received (connection : ℕ) (buffer : List UInt8) (timestamp : Timestamp)
      (environments : ℕ → Environment)
  /-- A read completes with an error. -/
  | closed (connection : ℕ)
  | stopServer
  | pingTimer (connection : ℕ) (environment : Environment)
  /-- A call to the Streamer that does not come from the command port. -/
  | streamer (stimulus : Streamer.Stimulus)
  /-- The first posted handler runs. -/
  | handler (environment : Environment)

def step (l : CommandLoop) : Event → CommandLoop
  | .accepted connection error environment =>
    let l := { l with server := l.server.onAccept connection error }
    if error then l.post [.tcp (.onStop connection)]
    else l.called (l.streamer.onSlimProtoOpen connection environment)
  | .received connection buffer timestamp environments =>
    l.onData connection buffer timestamp environments
  | .closed connection =>
    ({ l with server := l.server.update connection Tcp.Connection.onClose }.called
      (l.streamer.onSlimProtoClose connection)).post [.tcp (.onStop connection)]
  | .stopServer => { l with server := l.server.stop }
  | .pingTimer connection environment =>
    l.called (l.streamer.onPingTimer connection environment)
  | .streamer stimulus => l.called (l.streamer.step stimulus)
  | .handler environment => l.runHandler environment

/-- The calls that do not come from the command port. -/
def isOther : Streamer.Stimulus → Bool
  | .start _ | .stop _ | .httpData _ _ | .httpClose _ | .httpRemoved _ | .chunk _ _ _ => true
  | _ => false

def enabled (l : CommandLoop) : Event → Prop
  | .accepted connection error _ => l.server.accepts connection error = true
  | .received connection _ _ _ => l.server.reads connection = true
  | .closed connection => l.server.reads connection = true
  | .pingTimer connection environment => l.streamer.enabled (.pingTimer connection environment)
  | .streamer stimulus => isOther stimulus = true ∧ l.streamer.enabled stimulus
  | .handler _ => l.handlers ≠ []
  | .stopServer => True

instance (l : CommandLoop) : DecidablePred (enabled l)
  | .accepted connection error _ =>
    inferInstanceAs (Decidable (l.server.accepts connection error = true))
  | .received connection _ _ _ => inferInstanceAs (Decidable (l.server.reads connection = true))
  | .closed connection => inferInstanceAs (Decidable (l.server.reads connection = true))
  | .pingTimer connection environment =>
    inferInstanceAs (Decidable (l.streamer.enabled (.pingTimer connection environment)))
  | .streamer stimulus =>
    inferInstanceAs (Decidable (isOther stimulus = true ∧ l.streamer.enabled stimulus))
  | .handler _ => inferInstanceAs (Decidable (l.handlers ≠ []))
  | .stopServer => isTrue trivial

def system : System CommandLoop Event where
  enabled := enabled
  step := step

instance (l : CommandLoop) (e : Event) : Decidable (system.enabled l e) :=
  inferInstanceAs (Decidable (enabled l e))

end CommandLoop

/-! ### The open connections -/

namespace Tcp.Server

variable {s : Server}

theorem reads_iff (id : ℕ) (s : Server) :
    s.reads id = true ↔ ∃ c ∈ s.connections, c.id = id ∧ c.pending = some .read := by
  simp [reads]

/-- No other connection is open. -/
def SameReaders (s s' : Server) : Prop := ∀ id, s'.reads id = s.reads id

theorem SameReaders.refl (s : Server) : SameReaders s s := fun _ => rfl

theorem SameReaders.trans {s' s'' : Server} (h : SameReaders s s') (h' : SameReaders s' s'') :
    SameReaders s s'' := fun id => (h' id).trans (h id)

theorem sameReaders_of_connections {s' : Server} (h : s'.connections = s.connections) :
    SameReaders s s' := by
  intro id
  simp [reads, h]

theorem sameReaders_add (s : Server) : SameReaders s s.addConnection := by
  intro id
  rw [addConnection]
  split
  · rfl
  · simp [reads, Connection.start]

theorem sameReaders_startAcceptor (s : Server) : SameReaders s s.startAcceptor :=
  sameReaders_of_connections (startAcceptor_connections s).1

theorem sameReaders_openCallback (s : Server) : SameReaders s s.openCallback := by
  rw [openCallback]
  split
  · exact sameReaders_add s
  · exact sameReaders_of_connections rfl

theorem sameReaders_update {f : Connection → Connection} (hid : ∀ c, (f c).id = c.id)
    (hf : ∀ c, (f c).pending = c.pending) (id : ℕ) (s : Server) :
    SameReaders s (s.update id f) := by
  intro x
  have hsame : ∀ c : Connection, ((fun c => c.id == x && c.pending == some .read) ∘
      fun c => if c.id = id then f c else c) c = (c.id == x && c.pending == some .read) := by
    intro c
    by_cases hc : c.id = id
    · simp [hc, hid, hf]
    · simp [hc]
  rw [reads, update, alter, List.any_map, reads]
  exact congrArg s.connections.any (funext hsame)

theorem sameReaders_stop (s : Server) : SameReaders s s.stop := by
  intro id
  simp [reads, stop, stopAcceptor, Connection.stop, Function.comp_def]

/-- **A connection opens.** -/
theorem reads_onOpen {id : ℕ} (hhas : s.has id = true) (x : ℕ) :
    (s.update id Connection.onOpen).reads x = true ↔ s.reads x = true ∨ x = id := by
  rw [reads_iff, reads_iff]
  constructor
  · rintro ⟨c, hc, rfl, hpending⟩
    rcases mem_alter.mp hc with ⟨hc, -⟩ | ⟨a, -, haid, rfl⟩
    · exact Or.inl ⟨c, hc, rfl, hpending⟩
    · exact Or.inr haid
  · by_cases hx : x = id
    · intro _
      obtain ⟨c, hc, hcid⟩ := exists_of_has hhas
      exact ⟨c.onOpen, mem_alter.mpr (Or.inr ⟨c, hc, hcid, rfl⟩), hcid.trans hx.symm, rfl⟩
    · rintro (⟨c, hc, hcx, hpending⟩ | heq)
      · exact ⟨c, mem_alter.mpr (Or.inl ⟨hc, hcx ▸ hx⟩), hcx, hpending⟩
      · exact absurd heq hx

/-- **A connection closes.** -/
theorem reads_onClose (id : ℕ) (s : Server) (x : ℕ) :
    (s.update id Connection.onClose).reads x = true ↔ s.reads x = true ∧ x ≠ id := by
  rw [reads_iff, reads_iff]
  constructor
  · rintro ⟨c, hc, rfl, hpending⟩
    rcases mem_alter.mp hc with ⟨hc, hne⟩ | ⟨a, -, -, rfl⟩
    · exact ⟨⟨c, hc, rfl, hpending⟩, hne⟩
    · simp [Connection.onClose] at hpending
  · rintro ⟨⟨c, hc, rfl, hpending⟩, hne⟩
    exact ⟨c, mem_alter.mpr (Or.inl ⟨hc, hne⟩), rfl, hpending⟩

/-- A connection that waits is not open. -/
theorem Tracked.not_reads_of_accepts (h : Tracked s) {id : ℕ} {error : Bool}
    (haccepts : s.accepts id error = true) : ¬ s.reads id = true := by
  intro hreads
  obtain ⟨a, ha, haid, hpending⟩ := exists_of_reads hreads
  obtain ⟨c, hc, hcid, hwaiting, -⟩ := exists_of_accepts haccepts
  rw [h.distinct.eq_of_key ha hc (haid.trans hcid.symm)] at hpending
  rw [Connection.isWaiting, hpending] at hwaiting
  cases hwaiting

/-- An accept that completes: the connection opens if there is no error. -/
theorem reads_onAccept (h : Tracked s) {id : ℕ} {error : Bool}
    (haccepts : s.accepts id error = true) (x : ℕ) :
    (s.onAccept id error).reads x = true ↔ s.reads x = true ∨ (error = false ∧ x = id) := by
  have hclosed := h.not_reads_of_accepts haccepts
  cases error with
  | false =>
    obtain ⟨c, hc, rfl, -⟩ := exists_of_accepts haccepts
    have hopen := reads_onOpen (has_of_mem hc) x
    rw [onAccept, if_neg Bool.false_ne_true, sameReaders_openCallback, hopen]
    simp
  | true =>
    rw [onAccept, if_pos rfl, reads_onClose]
    constructor
    · exact fun h => Or.inl h.1
    · rintro (hreads | ⟨herror, -⟩)
      · refine ⟨hreads, ?_⟩
        rintro rfl
        exact hclosed hreads
      · cases herror

/-- A connection that has closed is removed. -/
theorem sameReaders_onRemoval {id : ℕ} (hid : Detached id s) :
    SameReaders s (s.onRemoval id) := by
  have hremove : SameReaders s (s.removeConnection id) := by
    intro x
    rw [Bool.eq_iff_iff, reads_iff, reads_iff]
    constructor
    · rintro ⟨c, hc, hcx⟩
      exact ⟨c, (mem_discard.mp hc).1, hcx⟩
    · rintro ⟨c, hc, hcx, hpending⟩
      refine ⟨c, mem_discard.mpr ⟨hc, ?_⟩, hcx, hpending⟩
      intro hcid
      exact Option.some_ne_none _ (hpending.symm.trans (hid.2 c hc hcid))
  rw [onRemoval]
  split
  · exact hremove.trans ((sameReaders_startAcceptor _).trans (sameReaders_add _))
  · exact hremove

end Tcp.Server

/-! ### The pings of a session -/

namespace CommandSession

/-- The pings that were posted stay the same. -/
structure Untouched (s s' : CommandSession) : Prop where
  address : s'.address = s.address
  pingHandlers : s'.pingHandlers = s.pingHandlers

theorem Untouched.refl (s : CommandSession) : Untouched s s := ⟨rfl, rfl⟩

theorem Untouched.trans {s s' s'' : CommandSession} (h : Untouched s s') (h' : Untouched s' s'') :
    Untouched s s'' :=
  ⟨h'.address.trans h.address, h'.pingHandlers.trans h.pingHandlers⟩

theorem Change.untouched {s s' : CommandSession} (h : Change s s') : Untouched s s' := by
  cases h with
  | stopped => split <;> exact ⟨rfl, rfl⟩
  | _ => exact ⟨rfl, rfl⟩

theorem Changes.untouched {s s' : CommandSession} (h : Changes s s') : Untouched s s' :=
  h.keeps Untouched.refl Untouched.trans Change.untouched

/-- Pings are posted, and none of them runs. -/
structure Posts (s s' : CommandSession) : Prop where
  address : s'.address = s.address
  pingHandlers : s.pingHandlers <+: s'.pingHandlers

theorem Posts.refl (s : CommandSession) : Posts s s := ⟨rfl, List.prefix_rfl⟩

theorem Posts.trans {s s' s'' : CommandSession} (h : Posts s s') (h' : Posts s' s'') :
    Posts s s'' :=
  ⟨h'.address.trans h.address, h.pingHandlers.trans h'.pingHandlers⟩

theorem Untouched.posts {s s' : CommandSession} (h : Untouched s s') : Posts s s' := by
  refine ⟨h.address, ?_⟩
  rw [h.pingHandlers]

variable (context : Context)

theorem onSTMt_posts (receiveTimestamp : Timestamp) (d : STAT) (s : CommandSession) :
    Posts s (s.onSTMt context receiveTimestamp d) := by
  rw [onSTMt]
  split
  · exact Posts.refl s
  · dsimp only
    split
    · split
      · exact ⟨rfl, List.prefix_rfl⟩
      · exact ⟨rfl, List.prefix_append _ _⟩
    · exact ⟨rfl, List.prefix_append _ _⟩

theorem foldl_send_untouched (commands : List ServerCommand) (s : CommandSession) :
    Untouched s (commands.foldl (fun s command => s.send command) s) := by
  induction commands generalizing s with
  | nil => exact Untouched.refl s
  | cons command commands ih =>
    have hsend : Untouched s (s.send command) := ⟨rfl, rfl⟩
    exact hsend.trans (ih _)

theorem sendHandshake_untouched (h : HELO) (s : CommandSession) :
    Untouched s (s.sendHandshake h) := by
  have hhelo : Untouched s { s with commandHELO := some h } := ⟨rfl, rfl⟩
  have hsent := hhelo.trans (foldl_send_untouched (handshakeCommands s.gain) _)
  exact hsent.trans ⟨rfl, rfl⟩

theorem onHELO_untouched (h : HELO) (s : CommandSession) : Untouched s (s.onHELO context h) := by
  rw [onHELO, processEvent_handshake]
  split
  · exact Untouched.refl s
  · refine (sendHandshake_untouched h s).trans ?_
    split <;> exact ⟨rfl, rfl⟩

theorem onSTMf_untouched (s : CommandSession) : Untouched s (s.onSTMf context) := by
  rw [onSTMf, processEvent_flushed]
  split
  · exact ⟨rfl, rfl⟩
  · split <;> exact ⟨rfl, rfl⟩

theorem onSTMu_untouched (s : CommandSession) : Untouched s s.onSTMu := by
  rw [onSTMu]
  split <;> exact ⟨rfl, rfl⟩

theorem onSTAT_posts (receiveTimestamp : Timestamp) (d : STAT) (s : CommandSession) :
    Posts s (s.onSTAT context receiveTimestamp d).1 := by
  have hreset : Untouched s { s with measuringLatency := false } := ⟨rfl, rfl⟩
  rw [onSTAT]
  cases StatEvent.find d.event with
  | none => exact Posts.refl s
  | some event =>
    cases event with
    | STMf => exact (hreset.trans (onSTMf_untouched context _)).posts
    | STMt => exact onSTMt_posts context receiveTimestamp d s
    | STMu => exact (hreset.trans (onSTMu_untouched _)).posts
    | _ => exact Untouched.posts ⟨rfl, rfl⟩

theorem handle_posts (timestamp : Timestamp) (command : ClientCommand) (s : CommandSession) :
    Posts s (s.handle context timestamp command).1 := by
  cases command with
  | HELO h => exact (onHELO_untouched context h s).posts
  | STAT d => exact onSTAT_posts context timestamp d s
  | _ => exact Posts.refl s

theorem interfere_untouched (label : CommandLabel) (s : CommandSession) :
    Untouched s (s.interfere label) := by
  rw [interfere]
  split <;> exact ⟨rfl, rfl⟩

theorem requestTurn_posts (timestamp : Timestamp) (s : CommandSession) :
    Posts s (s.requestTurn context timestamp).session := by
  have hturn := requestTurn_turned context timestamp s
  generalize s.requestTurn context timestamp = turn at hturn
  cases hturn with
  | rest hrest => exact Posts.refl s
  | skipped h4 hfind => exact Untouched.posts ⟨rfl, rfl⟩
  | unreadable hconstruct => exact (interfere_untouched _ s).posts
  | @divided label command hconstruct =>
    exact (interfere_untouched label s).posts.trans (handle_posts context timestamp command _)
  | @processed label command hmessage hconstruct =>
    have hhandle := (interfere_untouched label s).posts.trans
      (handle_posts context timestamp command _)
    exact hhandle.trans (Untouched.posts ⟨rfl, rfl⟩)

/-- **Octets of a player** make its session post pings. -/
theorem onRequest_posts (receipt : Receipt) (s : CommandSession) :
    Posts s (s.onRequest receipt).session :=
  onRequest_rule (R := Posts) Posts.refl Posts.trans
    (fun context s => requestTurn_posts context receipt.timestamp s)
    (fun _ _ => Untouched.posts ⟨rfl, rfl⟩) rfl s

theorem start_untouched (s : CommandSession) : Untouched s (s.start context) := by
  rw [start, processEvent_start]
  split <;> exact ⟨rfl, rfl⟩

theorem onPingHandler_rest {index : ℕ} {rest : List ℕ} {s : CommandSession}
    (h : s.pingHandlers = index :: rest) : (s.onPingHandler context).pingHandlers = rest := by
  rw [onPingHandler, h]
  rfl

end CommandSession

namespace Streamer

open CommandSession (Untouched)

/-- Every session stays registered, and changes in this way. -/
def InPlace (R : CommandSession → CommandSession → Prop) (t t' : Streamer) : Prop :=
  ∃ f : ℕ × CommandSession → ℕ × CommandSession, t'.commandSessions = t.commandSessions.map f ∧
    ∀ e, (f e).1 = e.1 ∧ R e.2 (f e).2

theorem inPlace_of_same {t t' : Streamer} (h : t'.commandSessions = t.commandSessions) :
    InPlace Untouched t t' :=
  ⟨id, by rw [h, List.map_id], fun e => ⟨rfl, Untouched.refl e.2⟩⟩

theorem InPlace.trans {t t' t'' : Streamer} (h : InPlace Untouched t t')
    (h' : InPlace Untouched t' t'') : InPlace Untouched t t'' := by
  obtain ⟨f, hf, hkeeps⟩ := h
  obtain ⟨g, hg, hkeeps'⟩ := h'
  refine ⟨g ∘ f, by rw [hg, hf, List.map_map], fun e => ⟨?_, ?_⟩⟩
  · exact (hkeeps' (f e)).1.trans (hkeeps e).1
  · exact (hkeeps e).2.trans (hkeeps' (f e)).2

/-- A chunk makes no session post a ping. -/
theorem chunk_untouched {t : Streamer} (ht : Registered t) (environment : Environment)
    (answers : ℕ → Bool) (chunk : Chunk) :
    InPlace Untouched t (t.consumeChunk environment answers chunk).2 := by
  have hbefore : InPlace Untouched t (t.beforeStreaming environment chunk).2 := by
    have hsessions := beforeStreaming_sessions environment chunk t
    split at hsessions
    · exact ⟨_, hsessions, fun e =>
        ⟨rfl, (CommandSession.prepare_changes _ _ e.2).untouched⟩⟩
    · exact inPlace_of_same hsessions
  refine hbefore.trans ?_
  have hsessions := consumeChunk_sessions environment answers chunk ht
  dsimp only at hsessions
  split at hsessions
  · refine ⟨_, hsessions, fun e => ?_⟩
    rw [offered]
    split
    · exact ⟨rfl, (CommandSession.consumeChunk_changes _ _ chunk e.2).untouched⟩
    · exact ⟨rfl, Untouched.refl e.2⟩
  · exact inPlace_of_same hsessions

/-- **What does not come from the command port** leaves the posted pings alone. -/
theorem other_untouched {t : Streamer} (ht : Registered t) {e : Stimulus}
    (he : CommandLoop.isOther e = true) : InPlace Untouched t (step t e) := by
  have hhttp : isHTTP e = true → InPlace Untouched t (step t e) := by
    intro hhttp
    obtain ⟨f, hf, hevolves⟩ := http_evolves t hhttp
    refine ⟨f, hf, fun d => ⟨(hevolves d).1, ?_⟩⟩
    refine (hevolves d).2.keeps (P := Untouched d.2) ?_ (Untouched.refl d.2)
    intro s c hc hs
    cases c with
    | setStreamingSession reference => exact hs.trans ⟨rfl, rfl⟩
    | _ => cases hc
  cases e with
  | start environment =>
    refine inPlace_of_same ?_
    show (t.processEvent environment .start).2.commandSessions = _
    rw [processEvent_start]
    split <;> rfl
  | stop environment =>
    show InPlace Untouched t (t.processEvent environment .stop).2
    rw [processEvent_stop]
    split
    · exact inPlace_of_same rfl
    · exact ⟨_, rfl, fun e => ⟨rfl, (CommandSession.stop_changes _ e.2).untouched⟩⟩
  | chunk environment answers chunk => exact chunk_untouched ht environment answers chunk
  | httpData _ _ => exact hhttp rfl
  | httpClose _ => exact hhttp rfl
  | httpRemoved _ => exact hhttp rfl
  | _ => cases he

theorem nextID_le {t : Streamer} (ht : Registered t) (e : Stimulus) :
    t.nextID ≤ (step t e).nextID := by
  cases e with
  | start environment => exact Nat.le_of_eq (start_registry environment t).nextID.symm
  | stop environment => exact Nat.le_of_eq (stop_registry environment t).nextID.symm
  | slimProtoOpen connection environment => exact Nat.le_succ t.nextID
  | slimProtoClose connection =>
    show t.nextID ≤ (t.onSlimProtoClose connection).nextID
    rw [onSlimProtoClose]
    split <;> exact le_rfl
  | chunk environment answers chunk =>
    exact Nat.le_of_eq (consumeChunk_registry environment answers chunk ht).nextID.symm
  | _ => exact Nat.le_of_eq (step_forSession rfl t).registry.nextID.symm

/-- A new session has posted no ping. -/
theorem open_commandSessions {t : Streamer} {connection : ℕ}
    (hc : connection ∉ t.commandSessions.map Prod.fst) (environment : Environment) : ∃ session,
      (t.onSlimProtoOpen connection environment).commandSessions =
        t.commandSessions ++ [(connection, session)] ∧
      session.address = t.nextID + 1 ∧ session.pingHandlers = [] := by
  have hstart := CommandSession.start_untouched (t.context environment)
    (CommandSession.create (t.nextID + 1) (octets (Nat.toDigits 10 (t.nextID + 1)))
      t.streamingPort t.format t.gain (environment.clock 0))
  refine ⟨_, ?_, hstart.address, hstart.pingHandlers⟩
  show addSession t.commandSessions connection _ = _
  rw [addSession, lookup_none hc, if_neg Bool.false_ne_true]

theorem close_commandSessions (connection : ℕ) (t : Streamer) :
    (t.onSlimProtoClose connection).commandSessions =
      eraseSession t.commandSessions connection := by
  rw [onSlimProtoClose]
  cases hfound : t.commandSessions.lookup connection with
  | none =>
    refine (List.filter_eq_self.mpr fun e he => ?_).symm
    rw [List.lookup_eq_none_iff] at hfound
    exact bne_iff_ne.mpr (bne_iff_ne.mp (hfound e he)).symm
  | some session => rfl

theorem data_commandSessions {t : Streamer} {connection : ℕ} {s : CommandSession}
    (hs : t.commandSessions.lookup connection = some s) (buffer : List UInt8)
    (timestamp : Timestamp) (environments : ℕ → Environment) :
    (t.onSlimProtoData connection buffer timestamp environments).commandSessions =
      applyToSession t.commandSessions connection fun s => (s.onRequest
        ⟨buffer, timestamp, fun n => t.context (environments n)⟩).session := by
  rw [onSlimProtoData, hs]
  dsimp only
  split <;> rfl

end Streamer

/-! ### The connections that are stopped -/

namespace CommandLoop

variable {l : CommandLoop}

open Tcp.Server (Tracked Detached Evolves SameReaders)

theorem sameReaders_stopConnections (connections : List ℕ) (s : Tcp.Server) :
    SameReaders s (stopConnections connections s) := by
  induction connections generalizing s with
  | nil => exact SameReaders.refl s
  | cons connection connections ih =>
    have hstop : SameReaders s (s.update connection Tcp.Connection.stop) :=
      Tcp.Server.sameReaders_update (f := Tcp.Connection.stop) (fun _ => rfl) (fun _ => rfl)
        connection s
    exact hstop.trans (ih _)

theorem stopConnections_append (connections others : List ℕ) (s : Tcp.Server) :
    stopConnections (connections ++ others) s =
      stopConnections others (stopConnections connections s) :=
  List.foldl_append

theorem evolves_stopConnections (connections : List ℕ) {s : Tcp.Server} (hs : Tracked s) :
    Evolves [] [] s (stopConnections connections s) := by
  induction connections generalizing s with
  | nil => exact hs.evolves
  | cons connection connections ih =>
    have hstop := hs.evolves_stopConnection connection
    exact hstop.trans (ih hstop.tracked)

/-! ### The calls of the Streamer -/

/-- The call of the Streamer that an event makes. -/
def callOf (l : CommandLoop) : Event → Option Streamer.Stimulus
  | .accepted connection false environment => some (.slimProtoOpen connection environment)
  | .accepted _ true _ => none
  | .received connection buffer timestamp environments =>
    some (.slimProtoData connection buffer timestamp environments)
  | .closed connection => some (.slimProtoClose connection)
  | .stopServer => none
  | .pingTimer connection environment => some (.pingTimer connection environment)
  | .streamer stimulus => some stimulus
  | .handler environment =>
    match l.handlers with
    | .ping session _ :: _ =>
      (connectionOf session l.streamer).map fun connection => .pingHandler connection environment
    | _ => none

/-- **An event calls the Streamer once at most.** -/
theorem step_streamer (l : CommandLoop) (e : Event) :
    (l.step e).streamer = ((l.callOf e).map l.streamer.step).getD l.streamer := by
  cases e with
  | accepted connection error environment => cases error <;> rfl
  | received connection buffer timestamp environments =>
    rw [step, onData]
    split <;> rfl
  | handler environment =>
    rw [step, runHandler, callOf]
    cases l.handlers with
    | nil => rfl
    | cons handler rest =>
      cases handler with
      | tcp handler => cases handler <;> rfl
      | ping session index =>
        dsimp only
        cases connectionOf session l.streamer <;> rfl
  | _ => rfl

theorem connectionOf_some {t : Streamer} {address connection : ℕ}
    (h : connectionOf address t = some connection) :
    ∃ e ∈ t.commandSessions, e.1 = connection ∧ e.2.address = address := by
  rw [connectionOf, Option.map_eq_some_iff] at h
  obtain ⟨e, he, rfl⟩ := h
  have haddress := List.find?_some he
  exact ⟨e, List.mem_of_find?_eq_some he, rfl, by simpa using haddress⟩

theorem connectionOf_none {t : Streamer} {address : ℕ} (h : connectionOf address t = none) :
    address ∉ Streamer.addresses t.commandSessions := by
  rw [connectionOf, Option.map_eq_none_iff, List.find?_eq_none] at h
  intro hmem
  obtain ⟨e, he, rfl⟩ := List.mem_map.mp hmem
  exact h e he (beq_self_eq_true _)

theorem lookup_of_mem {β : Type} {sessions : List (ℕ × β)}
    (hn : (sessions.map Prod.fst).Nodup) {e : ℕ × β} (he : e ∈ sessions) :
    sessions.lookup e.1 = some e.2 := by
  cases hfound : sessions.lookup e.1 with
  | none =>
    rw [List.lookup_eq_none_iff] at hfound
    simpa using hfound e he
  | some session =>
    have heq := List.inj_on_of_nodup_map hn (Streamer.mem_of_lookup hfound) he rfl
    rw [← heq]

/-! ### What every run keeps -/

/-- The index of a ping of the session at an address. -/
def Handler.pingOf (address : ℕ) : Handler → Option ℕ
  | .tcp _ => none
  | .ping session index => if session = address then some index else none

/-- **What every run keeps**: the sessions are those of the open connections, and the queue
holds the pings they have posted, in order. -/
structure Wired (l : CommandLoop) : Prop where
  registered : Streamer.Registered l.streamer
  tracked : Tcp.Server.Tracked l.server
  detached : ∀ h, .tcp h ∈ l.handlers → Tcp.Server.Detached h.connection l.server
  sessions : ∀ c, c ∈ l.streamer.commandSessions.map Prod.fst ↔ l.server.reads c = true
  pings : ∀ e ∈ l.streamer.commandSessions,
    l.handlers.filterMap (Handler.pingOf e.2.address) = e.2.pingHandlers
  known : ∀ address index, .ping address index ∈ l.handlers → address ≤ l.streamer.nextID

/-- The session of a connection that is read from. -/
theorem Wired.session (hl : Wired l) {connection : ℕ}
    (hreads : l.server.reads connection = true) :
    ∃ s, (connection, s) ∈ l.streamer.commandSessions := by
  obtain ⟨⟨c, s⟩, hs, rfl⟩ := List.mem_map.mp ((hl.sessions connection).mpr hreads)
  exact ⟨s, hs⟩

/-- **The Streamer may be called**: whenever the loop does so. -/
theorem Wired.call_enabled (hl : Wired l) {e : Event} (he : l.enabled e) :
    ∀ call ∈ l.callOf e, l.streamer.enabled call := by
  intro call hcall
  cases e with
  | accepted connection error environment =>
    cases error with
    | true => cases hcall
    | false =>
      obtain rfl := Option.mem_some_iff.mp hcall
      intro hmem
      exact hl.tracked.not_reads_of_accepts he ((hl.sessions connection).mp hmem)
  | received connection buffer timestamp environments =>
    obtain rfl := Option.mem_some_iff.mp hcall
    exact trivial
  | closed connection =>
    obtain rfl := Option.mem_some_iff.mp hcall
    exact trivial
  | stopServer => cases hcall
  | pingTimer connection environment =>
    obtain rfl := Option.mem_some_iff.mp hcall
    exact he
  | streamer stimulus =>
    obtain rfl := Option.mem_some_iff.mp hcall
    exact he.2
  | handler environment =>
    rw [callOf] at hcall
    split at hcall
    · rename_i session index rest hfront
      rw [Option.mem_def, Option.map_eq_some_iff] at hcall
      obtain ⟨connection, hconnection, rfl⟩ := hcall
      obtain ⟨d, hd, rfl, rfl⟩ := connectionOf_some hconnection
      have hpings := hl.pings d hd
      rw [hfront, List.filterMap_cons, Handler.pingOf, if_pos rfl] at hpings
      show (l.streamer.commandSessions.lookup d.1).any _ = true
      rw [lookup_of_mem hl.registered.connections hd]
      simp [← hpings]
    · cases hcall

theorem filterMap_concat_tcp (address : ℕ) (h : Tcp.Handler) (handlers : List Handler) :
    (handlers ++ [Handler.tcp h]).filterMap (Handler.pingOf address) =
      handlers.filterMap (Handler.pingOf address) := by
  rw [List.filterMap_append]
  exact List.append_nil _

theorem filterMap_pings (address : ℕ) (posted : List ℕ) :
    (posted.map (Handler.ping address)).filterMap (Handler.pingOf address) = posted := by
  simp [List.filterMap_map, Function.comp_def, Handler.pingOf]

theorem filterMap_pings_of_ne {address other : ℕ} (h : other ≠ address) (posted : List ℕ) :
    (posted.map (Handler.ping other)).filterMap (Handler.pingOf address) = [] := by
  simp [List.filterMap_map, Function.comp_def, Handler.pingOf, h]

/-! ### One step -/

theorem Wired.streamer_step (hl : Wired l) {e : Event} (he : l.enabled e) :
    Streamer.Registered (l.step e).streamer ∧
      l.streamer.nextID ≤ (l.step e).streamer.nextID := by
  rw [step_streamer]
  cases hcall : l.callOf e with
  | none => exact ⟨hl.registered, le_rfl⟩
  | some call =>
    exact ⟨Streamer.registered_step hl.registered (hl.call_enabled he call hcall),
      Streamer.nextID_le hl.registered call⟩

section Move

variable {l' : CommandLoop} {closed removed : List ℕ}

/-- Sessions change in place, and no connection opens or closes. -/
theorem Wired.inPlace (hl : Wired l) (hserver : Evolves closed removed l.server l'.server)
    (hreaders : SameReaders l.server l'.server)
    (hstreamer : Streamer.Registered l'.streamer ∧ l.streamer.nextID ≤ l'.streamer.nextID)
    {f : ℕ × CommandSession → ℕ × CommandSession}
    (hsessions : l'.streamer.commandSessions = l.streamer.commandSessions.map f)
    (hf : ∀ e, (f e).1 = e.1 ∧ (f e).2.address = e.2.address)
    (htcp : ∀ h, .tcp h ∈ l'.handlers → .tcp h ∈ l.handlers ∨ Detached h.connection l'.server)
    (hknown : ∀ address index, .ping address index ∈ l'.handlers →
      .ping address index ∈ l.handlers ∨ address ∈ Streamer.addresses l.streamer.commandSessions)
    (hpings : ∀ e ∈ l.streamer.commandSessions,
      l'.handlers.filterMap (Handler.pingOf e.2.address) = (f e).2.pingHandlers) :
    Wired l' where
  registered := hstreamer.1
  tracked := hserver.tracked
  detached h hh := (htcp h hh).elim (fun hh => hserver.detached _ (hl.detached h hh)) id
  sessions c := by
    rw [hsessions, (Streamer.map_sessions hf _).1, hreaders c]
    exact hl.sessions c
  pings := by
    rw [hsessions]
    intro e he
    obtain ⟨d, hd, rfl⟩ := List.mem_map.mp he
    rw [(hf d).2]
    exact hpings d hd
  known address index hmem := by
    refine Nat.le_trans ?_ hstreamer.2
    rcases hknown address index hmem with hmem | hmem
    · exact hl.known address index hmem
    · exact hl.registered.fresh address hmem

/-- Nothing happens to the pings. -/
theorem Wired.untouched (hl : Wired l) (hserver : Evolves closed removed l.server l'.server)
    (hreaders : SameReaders l.server l'.server)
    (hstreamer : Streamer.Registered l'.streamer ∧ l.streamer.nextID ≤ l'.streamer.nextID)
    (hsessions : Streamer.InPlace CommandSession.Untouched l.streamer l'.streamer)
    (htcp : ∀ h, .tcp h ∈ l'.handlers → .tcp h ∈ l.handlers ∨ Detached h.connection l'.server)
    (hknown : ∀ address index, .ping address index ∈ l'.handlers →
      .ping address index ∈ l.handlers)
    (hpings : ∀ address ∈ Streamer.addresses l.streamer.commandSessions,
      l'.handlers.filterMap (Handler.pingOf address) =
        l.handlers.filterMap (Handler.pingOf address)) : Wired l' := by
  obtain ⟨f, hf, hkeeps⟩ := hsessions
  refine hl.inPlace hserver hreaders hstreamer hf
    (fun e => ⟨(hkeeps e).1, (hkeeps e).2.address⟩) htcp
    (fun address index h => Or.inl (hknown address index h)) ?_
  intro e he
  rw [hpings _ (List.mem_map_of_mem he), hl.pings e he, (hkeeps e).2.pingHandlers]

end Move

/-- An accept that fails. -/
theorem Wired.accept_failed (hl : Wired l) {connection : ℕ} {environment : Environment}
    (he : l.enabled (.accepted connection true environment)) :
    Wired (l.step (.accepted connection true environment)) := by
  refine hl.untouched (hl.tracked.evolves_onAccept he) ?_ (hl.streamer_step he)
    (Streamer.inPlace_of_same rfl) ?_ ?_ ?_
  · intro id
    rw [Bool.eq_iff_iff]
    refine (Tcp.Server.reads_onAccept hl.tracked he id).trans ?_
    simp
  · intro h hh
    rcases List.mem_append.mp hh with hh | hh
    · exact Or.inl hh
    · obtain ⟨c, hc, rfl, -⟩ := Tcp.Server.exists_of_accepts he
      obtain rfl : h = .onStop c.id := by simpa using hh
      exact Or.inr (Tcp.Server.detached_onClose hl.tracked hc)
  · intro address index hh
    simpa [step, post] using hh
  · intro address _
    exact filterMap_concat_tcp address _ l.handlers

/-- A connection opens: its session has posted no ping. -/
theorem Wired.opened (hl : Wired l) {connection : ℕ} {environment : Environment}
    (he : l.enabled (.accepted connection false environment)) :
    Wired (l.step (.accepted connection false environment)) := by
  obtain ⟨session, hsessions, haddress, hpings⟩ := Streamer.open_commandSessions
    (hl.call_enabled he _ rfl) environment
  have hserver := hl.tracked.evolves_onAccept he
  have hstop := evolves_stopConnections (((l.streamer.onSlimProtoOpen connection
    environment).commandSessions.filter fun e => e.2.stopRequested).map Prod.fst) hserver.tracked
  obtain ⟨hregistered, hnext⟩ := hl.streamer_step he
  refine ⟨hregistered, hstop.tracked, ?_, ?_, ?_, ?_⟩
  · intro h hh
    exact hstop.detached _ (hserver.detached _ (hl.detached h hh))
  · intro c
    refine Iff.trans ?_ (Bool.eq_iff_iff.mp
      (sameReaders_stopConnections _ (l.server.onAccept connection false) c)).symm
    rw [Tcp.Server.reads_onAccept hl.tracked he, ← hl.sessions]
    show c ∈ (l.streamer.onSlimProtoOpen connection environment).commandSessions.map Prod.fst ↔ _
    rw [hsessions]
    simp
  · show ∀ e ∈ (l.streamer.onSlimProtoOpen connection environment).commandSessions, _
    rw [hsessions]
    intro e hmem
    rcases List.mem_append.mp hmem with hmem | hmem
    · exact hl.pings e hmem
    · obtain rfl := List.mem_singleton.mp hmem
      -- the address is new
      rw [haddress, hpings, List.filterMap_eq_nil_iff]
      intro h hh
      cases h with
      | tcp h => rfl
      | ping address index =>
        have hle := hl.known address index hh
        exact if_neg (by omega)
  · intro address index hh
    exact Nat.le_trans (hl.known address index hh) hnext

/-- A connection closes: its session is destroyed, and the pings that it has posted remain. -/
theorem Wired.closed (hl : Wired l) {connection : ℕ} (he : l.enabled (.closed connection)) :
    Wired (l.step (.closed connection)) := by
  have hsessions := Streamer.close_commandSessions connection l.streamer
  have hserver := hl.tracked.evolves_onClose connection
  have hstop := evolves_stopConnections (((l.streamer.onSlimProtoClose
    connection).commandSessions.filter fun e => e.2.stopRequested).map Prod.fst) hserver.tracked
  obtain ⟨hregistered, hnext⟩ := hl.streamer_step he
  refine ⟨hregistered, hstop.tracked, ?_, ?_, ?_, ?_⟩
  · intro h hh
    rcases List.mem_append.mp hh with hh | hh
    · exact hstop.detached _ (hserver.detached _ (hl.detached h hh))
    · obtain ⟨c, hc, rfl, -⟩ := Tcp.Server.exists_of_reads he
      obtain rfl : h = .onStop c.id := by simpa using hh
      exact hstop.detached _ (Tcp.Server.detached_onClose hl.tracked hc)
  · intro c
    refine Iff.trans ?_ (Bool.eq_iff_iff.mp (sameReaders_stopConnections _
      (l.server.update connection Tcp.Connection.onClose) c)).symm
    rw [Tcp.Server.reads_onClose, ← hl.sessions]
    show c ∈ (l.streamer.onSlimProtoClose connection).commandSessions.map Prod.fst ↔ _
    rw [hsessions, Streamer.eraseSession]
    simp only [List.mem_map, List.mem_filter, bne_iff_ne]
    constructor
    · rintro ⟨e, ⟨hmem, hne⟩, rfl⟩
      exact ⟨⟨e, hmem, rfl⟩, hne⟩
    · rintro ⟨⟨e, hmem, rfl⟩, hne⟩
      exact ⟨e, ⟨hmem, hne⟩, rfl⟩
  · show ∀ e ∈ (l.streamer.onSlimProtoClose connection).commandSessions, _
    rw [hsessions]
    intro e hmem
    have hpings := hl.pings e (List.mem_of_mem_filter hmem)
    exact (filterMap_concat_tcp _ _ l.handlers).trans hpings
  · intro address index hh
    rcases List.mem_append.mp hh with hh | hh
    · exact Nat.le_trans (hl.known address index hh) hnext
    · simp at hh

/-- The session of one connection changes, and the pings it has posted with it. -/
theorem Wired.applied (hl : Wired l) {l' : CommandLoop} {closed removed : List ℕ}
    (hserver : Evolves closed removed l.server l'.server)
    (hreaders : SameReaders l.server l'.server)
    (hstreamer : Streamer.Registered l'.streamer ∧ l.streamer.nextID ≤ l'.streamer.nextID)
    {connection : ℕ} {s : CommandSession} (hs : (connection, s) ∈ l.streamer.commandSessions)
    {fn : CommandSession → CommandSession} (hfn : ∀ s, (fn s).address = s.address)
    (hsessions : l'.streamer.commandSessions =
      Streamer.applyToSession l.streamer.commandSessions connection fn)
    (htcp : ∀ h, .tcp h ∈ l'.handlers → .tcp h ∈ l.handlers)
    (hknown : ∀ address index, .ping address index ∈ l'.handlers →
      .ping address index ∈ l.handlers ∨ address = s.address)
    (hpings : l'.handlers.filterMap (Handler.pingOf s.address) = (fn s).pingHandlers)
    (hothers : ∀ address ≠ s.address, l'.handlers.filterMap (Handler.pingOf address) =
      l.handlers.filterMap (Handler.pingOf address)) : Wired l' := by
  refine hl.inPlace hserver hreaders hstreamer hsessions ?_ (fun h hh => Or.inl (htcp h hh)) ?_ ?_
  · intro e
    split
    · exact ⟨rfl, hfn e.2⟩
    · exact ⟨rfl, rfl⟩
  · intro address index hh
    refine (hknown address index hh).imp_right ?_
    rintro rfl
    exact List.mem_map.mpr ⟨_, hs, rfl⟩
  · intro e he
    by_cases hc : e.1 = connection
    · obtain rfl : e = (connection, s) :=
        List.inj_on_of_nodup_map hl.registered.connections he hs hc
      rw [if_pos rfl]
      exact hpings
    · rw [if_neg hc, hothers, hl.pings e he]
      intro haddress
      have heq : e = (connection, s) :=
        List.inj_on_of_nodup_map hl.registered.addresses he hs haddress
      exact hc (congrArg Prod.fst heq)

theorem onData_server (connection : ℕ) (buffer : List UInt8) (timestamp : Timestamp)
    (environments : ℕ → Environment) (l : CommandLoop) : ∃ stopped,
      (l.onData connection buffer timestamp environments).server =
        stopConnections stopped l.server := by
  rw [onData]
  split
  · exact ⟨_, rfl⟩
  · exact ⟨_, (stopConnections_append _ [connection] l.server).symm⟩

theorem Wired.onData_handlers (hl : Wired l) {connection : ℕ} {s : CommandSession}
    (hs : (connection, s) ∈ l.streamer.commandSessions) (buffer : List UInt8)
    (timestamp : Timestamp) (environments : ℕ → Environment) : ∃ posted,
      (s.onRequest ⟨buffer, timestamp, fun n =>
        l.streamer.context (environments n)⟩).session.pingHandlers = s.pingHandlers ++ posted ∧
      (l.onData connection buffer timestamp environments).handlers =
        l.handlers ++ posted.map (Handler.ping s.address) := by
  have hfound := lookup_of_mem hl.registered.connections hs
  obtain ⟨haddress, posted, hposted⟩ := CommandSession.onRequest_posts
    ⟨buffer, timestamp, fun n => l.streamer.context (environments n)⟩ s
  refine ⟨posted, hposted.symm, ?_⟩
  have hhandlers : (l.onData connection buffer timestamp environments).handlers =
      l.handlers ++ (postedPings connection (l.streamer.onSlimProtoData connection buffer timestamp
        environments)).drop (postedPings connection l.streamer).length := by
    rw [onData]
    split <;> rfl
  have hbefore : postedPings connection l.streamer =
      s.pingHandlers.map (Handler.ping s.address) := by
    rw [postedPings, hfound]
  have hafter : postedPings connection (l.streamer.onSlimProtoData connection buffer timestamp
      environments) = (s.pingHandlers ++ posted).map (Handler.ping s.address) := by
    have hregistered : Streamer.Registered
        (l.streamer.onSlimProtoData connection buffer timestamp environments) :=
      Streamer.registered_step (e := .slimProtoData ..) hl.registered trivial
    have hmem : (connection, (s.onRequest ⟨buffer, timestamp, fun n =>
        l.streamer.context (environments n)⟩).session) ∈ (l.streamer.onSlimProtoData connection
          buffer timestamp environments).commandSessions := by
      rw [Streamer.data_commandSessions hfound]
      exact List.mem_map.mpr ⟨_, hs, if_pos rfl⟩
    have hlater := lookup_of_mem hregistered.connections hmem
    dsimp only at hlater
    rw [postedPings, hlater]
    simp only [haddress, hposted]
  rw [hhandlers, hbefore, hafter, List.map_append, List.drop_left]

/-- Octets arrive. -/
theorem Wired.received (hl : Wired l) {connection : ℕ} {buffer : List UInt8}
    {timestamp : Timestamp} {environments : ℕ → Environment}
    (he : l.enabled (.received connection buffer timestamp environments)) :
    Wired (l.step (.received connection buffer timestamp environments)) := by
  obtain ⟨s, hs⟩ := hl.session he
  have hfound := lookup_of_mem hl.registered.connections hs
  obtain ⟨stopped, hserver⟩ := onData_server connection buffer timestamp environments l
  obtain ⟨posted, hposted, hhandlers⟩ := hl.onData_handlers hs buffer timestamp environments
  have hsessions := Streamer.data_commandSessions hfound buffer timestamp environments
  have hstreamer := hl.streamer_step he
  have hcall : (l.onData connection buffer timestamp environments).streamer =
    l.streamer.onSlimProtoData connection buffer timestamp environments := step_streamer l (.received ..)
  rw [← hcall] at hsessions
  show Wired (l.onData connection buffer timestamp environments)
  refine hl.applied (hserver ▸ evolves_stopConnections stopped hl.tracked)
    (hserver ▸ sameReaders_stopConnections stopped l.server) hstreamer hs
    (fun s => (CommandSession.onRequest_posts _ s).address) hsessions ?_ ?_ ?_ ?_
  · rw [hhandlers]
    intro h hh
    simpa using hh
  · rw [hhandlers]
    intro address index hh
    rcases List.mem_append.mp hh with hh | hh
    · exact Or.inl hh
    · obtain ⟨_, _, heq⟩ := List.mem_map.mp hh
      cases heq
      exact Or.inr rfl
  · rw [hhandlers, List.filterMap_append, hl.pings _ hs, filterMap_pings, hposted]
  · intro address hne
    rw [hhandlers, List.filterMap_append, filterMap_pings_of_ne hne.symm, List.append_nil]

/-- A ping of a session runs: it was the first one that the session has posted. -/
theorem Wired.pinged (hl : Wired l) {address index : ℕ} {rest : List Handler}
    (hfront : l.handlers = .ping address index :: rest) {environment : Environment}
    (he : l.enabled (.handler environment)) : Wired (l.step (.handler environment)) := by
  have hstreamer := hl.streamer_step he
  rw [step, runHandler, hfront] at hstreamer ⊢
  dsimp only at hstreamer ⊢
  cases hconnection : connectionOf address l.streamer with
  | none =>
    rw [hconnection] at hstreamer
    refine hl.untouched hl.tracked.evolves (SameReaders.refl _) hstreamer
      (Streamer.inPlace_of_same rfl) ?_ ?_ ?_
    · intro h hh
      rw [hfront]
      exact Or.inl (List.mem_cons_of_mem _ hh)
    · intro a i hh
      rw [hfront]
      exact List.mem_cons_of_mem _ hh
    · intro a ha
      have hne : address ≠ a := by
        rintro rfl
        exact connectionOf_none hconnection ha
      rw [hfront, List.filterMap_cons, Handler.pingOf, if_neg hne]
  | some connection =>
    rw [hconnection] at hstreamer
    obtain ⟨⟨c, s⟩, hs, hc, haddress⟩ := connectionOf_some hconnection
    obtain rfl : c = connection := hc
    obtain rfl : s.address = address := haddress
    have hpings := hl.pings _ hs
    rw [hfront, List.filterMap_cons, Handler.pingOf, if_pos rfl] at hpings
    refine Wired.applied hl (evolves_stopConnections _ hl.tracked)
      (sameReaders_stopConnections _ l.server) hstreamer hs
      (fun s => (CommandSession.onPingHandler_step _ s).address) rfl ?_ ?_ ?_ ?_
    · intro h hh
      rw [hfront]
      exact List.mem_cons_of_mem _ hh
    · intro a i hh
      rw [hfront]
      exact Or.inl (List.mem_cons_of_mem _ hh)
    · rw [CommandSession.onPingHandler_rest _ hpings.symm]
      rfl
    · intro a hne
      rw [hfront, List.filterMap_cons, Handler.pingOf, if_neg hne.symm]
      rfl

/-- The first posted handler runs. -/
theorem Wired.handled (hl : Wired l) {environment : Environment}
    (he : l.enabled (.handler environment)) : Wired (l.step (.handler environment)) := by
  have hstreamer := hl.streamer_step he
  cases hfront : l.handlers with
  | nil => exact absurd hfront he
  | cons handler rest =>
    cases handler with
    | ping address index => exact hl.pinged hfront he
    | tcp handler =>
      have hdetached := hl.detached handler (by rw [hfront]; exact List.mem_cons_self)
      have hrest : ∀ h ∈ rest, h ∈ l.handlers := by
        intro h hh
        rw [hfront]
        exact List.mem_cons_of_mem _ hh
      rw [step, runHandler, hfront] at hstreamer ⊢
      cases handler with
      | onStop connection =>
        refine hl.untouched hl.tracked.evolves (SameReaders.refl _) hstreamer
          (Streamer.inPlace_of_same rfl) ?_ ?_ ?_
        · intro h hh
          rcases List.mem_append.mp hh with hh | hh
          · exact Or.inl (hrest _ hh)
          · obtain rfl : h = .removal connection := by simpa using hh
            exact Or.inr hdetached
        · intro address index hh
          refine hrest _ ?_
          simpa [post] using hh
        · intro address _
          rw [hfront]
          exact filterMap_concat_tcp address _ rest
      | removal connection =>
        refine hl.untouched (hl.tracked.evolves_onRemoval hdetached)
          (Tcp.Server.sameReaders_onRemoval hdetached) hstreamer
          (Streamer.inPlace_of_same rfl) ?_ ?_ ?_
        · exact fun h hh => Or.inl (hrest _ hh)
        · exact fun address index hh => hrest _ hh
        · intro address _
          rw [hfront]
          rfl

/-- **Every step keeps it.** -/
theorem wired_step {e : Event} (hl : Wired l) (he : l.enabled e) : Wired (l.step e) := by
  have hstreamer := hl.streamer_step he
  cases e with
  | accepted connection error environment =>
    cases error with
    | true => exact hl.accept_failed he
    | false => exact hl.opened he
  | received connection buffer timestamp environments => exact hl.received he
  | closed connection => exact hl.closed he
  | handler environment => exact hl.handled he
  | stopServer =>
    exact hl.untouched hl.tracked.evolves_stop (Tcp.Server.sameReaders_stop l.server) hstreamer
      (Streamer.inPlace_of_same rfl) (fun _ hh => Or.inl hh) (fun _ _ hh => hh) fun _ _ => rfl
  | pingTimer connection environment =>
    refine hl.untouched (evolves_stopConnections _ hl.tracked)
      (sameReaders_stopConnections _ l.server) hstreamer ⟨_, rfl, ?_⟩ (fun _ hh => Or.inl hh)
      (fun _ _ hh => hh) fun _ _ => rfl
    intro e
    split
    · exact ⟨rfl, rfl, rfl⟩
    · exact ⟨rfl, CommandSession.Untouched.refl e.2⟩
  | streamer stimulus =>
    exact hl.untouched (evolves_stopConnections _ hl.tracked)
      (sameReaders_stopConnections _ l.server) hstreamer
      (Streamer.other_untouched hl.registered he.1) (fun _ hh => Or.inl hh)
      (fun _ _ hh => hh) fun _ _ => rfl

/-! ### Every run -/

theorem wired_started (n streamingPort : ℕ) (format : FormatSelection) (gain : Option ℕ)
    (now : Timestamp) :
    Wired (started n (Streamer.create streamingPort format gain now)) where
  registered := Streamer.registered_create streamingPort format gain now
  tracked := by
    refine ⟨List.nodup_singleton _, ?_, ?_⟩
    · intro c hc
      rw [List.mem_singleton.mp hc]
      exact Nat.zero_lt_one
    · intro c hc
      rw [List.mem_singleton.mp hc]
      simp [Tcp.Connection.start]
  detached h hh := absurd hh List.not_mem_nil
  sessions c := by
    rw [Tcp.Server.reads_iff]
    constructor
    · intro hc
      exact absurd hc List.not_mem_nil
    · rintro ⟨d, hd, -, hpending⟩
      rw [List.mem_singleton.mp hd] at hpending
      cases hpending
  pings := List.forall_mem_nil _
  known address index hh := absurd hh List.not_mem_nil

theorem wired_exec (hl : Wired l) {es : List Event} (hes : system.Admits l es) :
    Wired (system.exec l es) :=
  system.exec_invariant Wired (fun _ _ hl he => wired_step hl he) es l hl hes

/-- Each open connection has one session, and nothing else has; the pings that a session has
posted are in the queue, in order, and no others are there that refer to it. -/
structure Attended (l : CommandLoop) : Prop where
  connections : (l.streamer.commandSessions.map Prod.fst).Nodup
  sessions : ∀ c, c ∈ l.streamer.commandSessions.map Prod.fst ↔ l.server.reads c = true
  pings : ∀ e ∈ l.streamer.commandSessions,
    l.handlers.filterMap (Handler.pingOf e.2.address) = e.2.pingHandlers

theorem Wired.attended (hl : Wired l) : Attended l :=
  ⟨hl.registered.connections, hl.sessions, hl.pings⟩

/-- **The command port calls the Streamer as it may be called**: a run of the event loop, whatever
connects, sends and closes, is a run of the Streamer; and every open connection is attended. -/
theorem command_loop_refines (n streamingPort : ℕ) (format : FormatSelection) (gain : Option ℕ)
    (now : Timestamp) {es : List Event}
    (hes : system.Admits (started n (Streamer.create streamingPort format gain now)) es) :
    ∃ calls, Streamer.system.Admits (Streamer.create streamingPort format gain now) calls ∧
      (system.exec (started n (Streamer.create streamingPort format gain now)) es).streamer =
        Streamer.system.exec (Streamer.create streamingPort format gain now) calls ∧
      Attended (system.exec (started n (Streamer.create streamingPort format gain now)) es) := by
  obtain ⟨calls, hcalls, hwired, heq⟩ := System.exec_simulation system Streamer.system
    (fun l t => Wired l ∧ l.streamer = t) (by
      rintro l _ e ⟨hl, rfl⟩ he
      have hstreamer := step_streamer l e
      cases hcall : l.callOf e with
      | none =>
        rw [hcall] at hstreamer
        exact ⟨[], trivial, wired_step hl he, hstreamer⟩
      | some call =>
        rw [hcall] at hstreamer
        exact ⟨[call], ⟨hl.call_enabled he call hcall, trivial⟩, wired_step hl he, hstreamer⟩)
    es _ _ ⟨wired_started n streamingPort format gain now, rfl⟩ hes
  exact ⟨calls, hcalls, heq, hwired.attended⟩

/-- A player answers the ping with this number. -/
def pingAnswer (number : UInt8) : List UInt8 :=
  octets ['S', 'T', 'A', 'T'] ++ [0, 0, 0, 53] ++ octets ['S', 'T', 'M', 't'] ++
    List.replicate 43 0 ++ [number, 0, 0, 0, 0, 0]

/-- A player connects and says hello, is sent a ping and answers it: the next one is posted. -/
def firstPing : List Event :=
  [.accepted 0 false Streamer.quiet,
    .received 0 (Streamer.playerOctets ['H', 'E', 'L', 'O'] 36 []) ⟨0⟩ fun _ => Streamer.quiet,
    .pingTimer 0 Streamer.quiet,
    .received 0 (pingAnswer 14) ⟨0⟩ fun _ => Streamer.quiet]

theorem command_loop_refines_firstPing :
    (∃ calls, Streamer.system.Admits (Streamer.create 9001 .PCM none ⟨0⟩) calls ∧
      (system.exec (started 10 (Streamer.create 9001 .PCM none ⟨0⟩)) firstPing).streamer =
        Streamer.system.exec (Streamer.create 9001 .PCM none ⟨0⟩) calls ∧
      Attended (system.exec (started 10 (Streamer.create 9001 .PCM none ⟨0⟩)) firstPing)) ∧
    (system.exec (started 10 (Streamer.create 9001 .PCM none ⟨0⟩)) firstPing).handlers =
      [.ping 1 14] :=
  ⟨command_loop_refines 10 9001 .PCM none ⟨0⟩ (by decide +kernel), by decide +kernel⟩

end CommandLoop

end SlimStreamer
