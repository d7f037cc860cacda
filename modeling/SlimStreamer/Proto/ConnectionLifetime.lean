import SlimStreamer.Proto.EventLoopRuns
import SlimStreamer.Proto.StreamDraining

/-!
# The connection of an HTTP session

A session holds a reference to its connection, which the TCP server destroys two posted
handlers after the connection has closed.  A session that transfers when its connection closes
waits on flush timers for the write to complete, and no handler waits for the session.

* `Attached` — the invariant: the session of a removed connection has stopped and waits for
  nothing;
* `connection_exists` — so sessions only use connections that exist, in the runs in which no
  connection is removed before its session has been flushed;
* `connection_exists_removedBeforeFlush` — a run in which one is.
-/

namespace SlimStreamer

namespace EventLoop

open GuardedExecution KeyedList
open StreamingSession (Call)
open Tcp (Server)
open Tcp.Server (Evolves)

variable {l : EventLoop}

/-- The connection that the next handler removes. -/
def removedNext (l : EventLoop) : Option ℕ :=
  match l.handlers with
  | .tcp (.removal connection) :: _ => some connection
  | _ => none

/-- A flush timer runs for the session of a connection. -/
def waitsInFlush (connection : ℕ) (l : EventLoop) : Bool :=
  l.sessions.any fun e => e.connection == connection && l.timers.any fun t => t.session == e.address

/-- A connection is not removed while its session waits in a flush. -/
def RemovesFlushed (l : EventLoop) : Event → Prop
  | .handler => ∀ connection ∈ l.removedNext, l.waitsInFlush connection = false
  | _ => True

instance (l : EventLoop) : DecidablePred (RemovesFlushed l)
  | .handler =>
    inferInstanceAs (Decidable (∀ connection ∈ l.removedNext, l.waitsInFlush connection = false))
  | .accepted _ _ | .received _ _ | .closed _ _ | .stopServer | .streamer _ | .chunk _ _ _ _
  | .stop _ _ | .timer _ | .written _ _ => isTrue trivial

theorem not_waiting {connection : ℕ} (h : l.waitsInFlush connection = false) {e : HTTPSession}
    (he : e ∈ l.sessions) (hconnection : e.connection = connection) :
    ∀ t ∈ l.timers, t.session ≠ e.address := by
  intro t ht haddress
  rw [Bool.eq_false_iff] at h
  refine h (List.any_eq_true.mpr ⟨e, he, ?_⟩)
  rw [hconnection, beq_self_eq_true, Bool.true_and, List.any_eq_true]
  exact ⟨t, ht, beq_iff_eq.mpr haddress⟩

/-! ### The invariant -/

/-- **The session of a removed connection has stopped, and no flush timer runs for it.**  Then
nothing it does gets to the connection. -/
structure Attached (l : EventLoop) : Prop where
  gone : ∀ e ∈ l.sessions, l.server.has e.connection = false →
    e.session.running = false ∧ ∀ t ∈ l.timers, t.session ≠ e.address
  used : ∀ use ∈ l.connectionUses, use.existed = true

theorem attached_started (n : ℕ) (streamer : Streamer) : Attached (started n streamer) :=
  ⟨List.forall_mem_nil _, List.forall_mem_nil _⟩

/-- The server moves on, and removes no connection. -/
theorem Attached.evolve {closed : List ℕ} {server : Server} (h : Attached l)
    (hserver : Evolves closed [] l.server server) : Attached { l with server := server } where
  gone e he hhas := h.gone e he (hserver.has_before List.not_mem_nil hhas)
  used := h.used

theorem Attached.withTimers {timers : List FlushTimer} (h : Attached l)
    (htimers : ∀ t ∈ timers, t ∈ l.timers) : Attached { l with timers := timers } where
  gone e he hhas := ⟨(h.gone e he hhas).1, fun t ht => (h.gone e he hhas).2 t (htimers t ht)⟩
  used := h.used

theorem Attached.destroy (h : Attached l) (entry : HTTPSession) : Attached (l.destroy entry) where
  gone e he hhas := by
    obtain ⟨hrunning, htimers⟩ := h.gone e (mem_discard.mp he).1 hhas
    exact ⟨hrunning, fun t ht => htimers t (List.mem_of_mem_filter ht)⟩
  used := h.used

theorem Attached.withStreamer (h : Attached l) (streamer : Streamer) :
    Attached { l with streamer := streamer } :=
  ⟨h.gone, h.used⟩

theorem Attached.withHandlers (h : Attached l) (handlers : List Handler) :
    Attached { l with handlers := handlers } :=
  ⟨h.gone, h.used⟩

theorem Attached.enterSession (h : Attached l) (address : ℕ) : Attached (l.enterSession address) :=
  ⟨h.gone, h.used⟩

theorem Attached.invoke (h : Attached l) (callback : Callback) : Attached (l.invoke callback) := by
  cases callback with
  | none => exact h
  | some connection =>
    rw [EventLoop.invoke]
    split
    · exact h.withStreamer _
    · exact (h.withStreamer _).destroy _

theorem Attached.foldl_invoke (h : Attached l) (callbacks : List Callback) :
    Attached (callbacks.foldl EventLoop.invoke l) :=
  List.foldlRecOn callbacks _ h fun _ h callback _ => h.invoke callback

/-! ### Calls -/

section Calls

variable {entry : HTTPSession} {c : Call} {completed untold : List ℕ}

/-- **A call keeps the invariant**, a flush provided that the connection exists. -/
theorem attached_afterCall (h : Attached l) (hl : Coordinated completed untold l)
    (hentry : entry ∈ l.sessions) (hallowed : c.Allowed entry.session)
    (hflush : ∀ callback, c = .flush callback → l.server.has entry.connection = true) :
    Attached (l.afterCall entry c) := by
  have heffect := hl.effect hentry hallowed
  have hevolves := afterCall_evolves hl.tracked entry c
  refine ⟨?_, ?_⟩
  · intro e he hhas
    have hbefore := hevolves.has_before List.not_mem_nil hhas
    rcases (mem_afterCall_sessions hl.addresses hentry).mp he with ⟨he, hne⟩ | rfl
    · obtain ⟨hrunning, htimers⟩ := h.gone e he hbefore
      refine ⟨hrunning, ?_⟩
      intro t ht
      rcases mem_afterCall_timers heffect ht with hold | ⟨rfl, -, -⟩
      · exact htimers t hold
      · exact hne.symm
    · obtain ⟨hrunning, htimers⟩ := h.gone entry hentry hbefore
      refine ⟨heffect.stopped hrunning, ?_⟩
      intro t ht
      rcases mem_afterCall_timers heffect ht with hold | ⟨rfl, -, hstarts⟩
      · exact htimers t hold
      · exact Bool.noConfusion (hrunning.symm.trans hstarts)
  · have huses : (l.afterCall entry c).connectionUses =
        if c.usesConnection (l.entered entry) then
          l.connectionUses ++ [⟨entry.connection, l.server.has entry.connection⟩]
        else l.connectionUses := rfl
    rw [huses]
    split
    · rename_i hcall
      intro use huse
      rcases List.mem_append.mp huse with hold | hnew
      · exact h.used use hold
      · rw [List.mem_singleton.mp hnew]
        by_contra hhas
        rw [Bool.not_eq_true] at hhas
        obtain ⟨callback, rfl⟩ := StreamingSession.usesConnection_of_stopped
          ((hl.coherent entry hentry).enter (l.isOpen entry.connection))
          (h.gone entry hentry hhas).1 c hcall
        exact Bool.noConfusion (hhas.symm.trans (hflush callback rfl))
    · exact h.used

theorem attached_call {address : ℕ} (h : Attached l) (hl : Coordinated completed untold l)
    (hentry : l.sessionAt address = some entry) (hallowed : c.Allowed entry.session)
    (hflush : ∀ callback, c = .flush callback → l.server.has entry.connection = true) :
    Attached (l.call address c) := by
  rw [call_of_some hentry]
  exact (attached_afterCall h hl (mem_of_find hentry).1 hallowed hflush).foldl_invoke _

/-- Any call but a flush and the completion of a write. -/
theorem attached_otherCall (h : Attached l) (hl : Coordinated completed untold l)
    (hallowed : ∀ s, c.Allowed s) (hflush : ∀ callback, c ≠ .flush callback) (address : ℕ) :
    Attached (l.call address c) := by
  cases hentry : l.sessionAt address with
  | none =>
    rw [call_of_none hentry]
    exact h
  | some entry =>
    exact attached_call h hl hentry (hallowed entry.session)
      (fun callback heq => absurd heq (hflush callback))

end Calls

/-! ### The steps -/

theorem Attached.create (h : Attached l) (hl : Coordinated [] [] l) {entry : HTTPSession}
    (hstarted : JustStarted entry.session) (hreads : l.server.reads entry.connection = true) :
    Attached (l.create entry) := by
  have hevolves := create_evolves hl.tracked entry
  refine ⟨?_, h.used⟩
  rw [create_timers hstarted]
  intro e he hgone
  rcases mem_create_sessions.mp he with he | rfl
  · exact h.gone e he (hevolves.has_before List.not_mem_nil hgone)
  · have hbefore := hevolves.has_before List.not_mem_nil hgone
    exact Bool.noConfusion (hbefore.symm.trans (Tcp.Server.has_of_reads hreads))

theorem attached_onHTTPData (h : Attached l) (hl : Coordinated [] [] l) {connection : ℕ}
    (hreads : l.server.reads connection = true) (request : Request) :
    Attached (l.onHTTPData connection request) := by
  cases hsession : l.sessionOf connection with
  | some entry =>
    rw [onHTTPData_session hsession]
    exact attached_otherCall (c := .onRequest request.buffer request.finish) h hl
      (fun _ => trivial) (fun _ heq => Call.noConfusion heq) entry.address
  | none =>
    cases hparse : Streamer.parseClientID (request.buffer.take request.receivedSize) with
    | none =>
      rw [onHTTPData_unparsed hsession hparse]
      exact h.withStreamer _
    | some clientID =>
      have hstarted := newSession_justStarted connection clientID request.mime request.version
        request.header l
      have hstreamer := hl.withStreamer
        (l.streamer.onHTTPData connection (request.buffer.take request.receivedSize)).1
      have hcreate := (h.withStreamer _).create hstreamer hstarted hreads
      have hcoordinated := hstreamer.create rfl hstarted hreads hsession
      cases hfound : l.streamer.findSessionByID clientID with
      | none =>
        rw [onHTTPData_unfound hsession hparse hfound]
        exact (hcreate.evolve
          (hcoordinated.tracked.evolves_stopConnection connection)).destroy _
      | some session =>
        rw [onHTTPData_found hsession hparse hfound]
        exact attached_otherCall (c := .onRequest request.buffer request.finish) hcreate
          hcoordinated (fun _ => trivial) (fun _ heq => Call.noConfusion heq) _

theorem attached_closed (h : Attached l) (hl : Coordinated [] [] l) (connection : ℕ)
    (finish : List (List UInt8)) : Attached (l.step (.closed connection finish)) := by
  have hevolves := hl.tracked.evolves_onClose connection
  have hserver := h.evolve hevolves
  refine Attached.withHandlers ?_ _
  rw [onHTTPClose]
  split
  · exact hserver
  · exact attached_otherCall (c := .stop (some connection) finish) (hserver.withStreamer _)
      ((hl.evolve hevolves).withStreamer _) (fun _ => trivial)
      (fun _ heq => Call.noConfusion heq) _

theorem attached_stop (h : Attached l) (hl : Coordinated [] [] l) (environment : Environment)
    (finish : ℕ → List (List UInt8)) : Attached (l.stop environment finish) := by
  refine (stop_keeps (P := fun l => Coordinated [] [] l ∧ Attached l) ?_ environment
    ⟨hl.withStreamer _, h.withStreamer _⟩).2
  rintro l entry ⟨hl, h⟩
  refine ⟨coordinated_plainCall (c := .stop none (finish entry.address)) hl rfl entry.address, ?_⟩
  exact attached_otherCall (c := .stop none (finish entry.address)) h hl (fun _ => trivial)
    (fun _ heq => Call.noConfusion heq) entry.address

/-- The removal of a connection whose session does not wait in a flush. -/
theorem attached_onRemoval (h : Attached l) (hl : Coordinated [] [] l) {connection : ℕ}
    (hdetached : Tcp.Server.Detached connection l.server)
    (hflushed : l.waitsInFlush connection = false) :
    Attached { l with server := l.server.onRemoval connection } := by
  refine ⟨?_, h.used⟩
  intro e he hhas
  by_cases hconnection : e.connection = connection
  · have htimers := not_waiting hflushed he hconnection
    refine ⟨?_, htimers⟩
    have hreads : l.server.reads e.connection = false := by
      rw [hconnection]
      exact hdetached.reads
    rcases hl.closing e he List.not_mem_nil hreads with hrunning | ⟨t, ht, haddress⟩
    · exact hrunning
    · exact absurd haddress (htimers t ht)
  · refine h.gone e he ((hl.tracked.evolves_onRemoval hdetached).has_before ?_ hhas)
    simpa using hconnection

theorem attached_runHandler (h : Attached l) (hl : Coordinated [] [] l)
    (hflushed : l.RemovesFlushed .handler) : Attached l.runHandler := by
  rw [runHandler]
  split
  · exact h
  · rename_i handler rest hhandlers
    have hnext := hl.next hhandlers
    cases handler with
    | tcp handler =>
      cases handler with
      | onStop connection => exact h.withHandlers _
      | removal connection =>
        have hdetached := hl.detached (.removal connection)
          (by rw [hhandlers]; exact List.mem_cons_self)
        refine attached_onRemoval (h.withHandlers rest) hnext hdetached ?_
        refine hflushed connection ?_
        rw [removedNext, hhandlers]
        rfl
    | transferTask session =>
      exact attached_otherCall (c := .transferTask) ((h.withHandlers rest).enterSession session)
        (hnext.enterSession session) (fun _ => trivial) (fun _ heq => Call.noConfusion heq) session
    | callback callback => exact (h.withHandlers rest).invoke callback

/-- A flush timer that runs out has kept the connection. -/
theorem attached_onFlushTimer (h : Attached l) (hl : Coordinated [] [] l) {timer : FlushTimer}
    (htimer : timer ∈ l.timers) : Attached (l.onFlushTimer timer) := by
  have htimers : Attached { l with timers := l.timers.erase timer } :=
    h.withTimers fun t ht => List.mem_of_mem_erase ht
  have herase := htimers.enterSession timer.session
  cases hsession : l.sessionAt timer.session with
  | none =>
    rw [onFlushTimer_gone hsession]
    exact herase
  | some entry =>
    rw [onFlushTimer]
    obtain ⟨hentry, haddress⟩ := mem_of_find hsession
    have hcoordinated := hl.eraseTimerOf hentry haddress
    refine attached_call herase (hcoordinated.enterSession timer.session) hsession
      (hl.flushing timer htimer entry hentry haddress.symm).1 ?_
    intro callback _
    by_contra hhas
    rw [Bool.not_eq_true] at hhas
    exact (h.gone entry hentry hhas).2 timer htimer haddress.symm

theorem attached_onWritten (h : Attached l) (hl : Coordinated [] [] l) {write : PendingWrite}
    (hwrite : write ∈ l.writes) (completion : Completion) :
    Attached (l.onWritten write completion) := by
  have herase : Attached ({ l with writes := l.writes.erase write }.enterSession write.session) :=
    ⟨h.gone, h.used⟩
  cases hsession : l.sessionAt write.session with
  | none =>
    rw [onWritten_gone hsession]
    exact herase
  | some entry =>
    rw [onWritten]
    obtain ⟨hentry, haddress⟩ := mem_of_find hsession
    exact attached_call herase ((hl.eraseWrite hwrite).enterSession write.session) hsession
      (hl.transferring hwrite hentry haddress) (fun _ heq => Call.noConfusion heq)

/-- **Every step keeps the invariant**, but for the removal of a connection whose session waits
in a flush. -/
theorem attached_step {e : Event} (h : Attached l) (hl : Coordinated [] [] l)
    (henabled : (system.restrict RemovesFlushed).enabled l e) : Attached (l.step e) := by
  obtain ⟨henabled, hflushed⟩ := henabled
  cases e with
  | accepted connection error =>
    exact (h.evolve (hl.tracked.evolves_onAccept henabled)).withHandlers _
  | received connection request => exact attached_onHTTPData h hl henabled request
  | closed connection finish => exact attached_closed h hl connection finish
  | stopServer => exact h.evolve hl.tracked.evolves_stop
  | streamer stimulus => exact h.withStreamer _
  | chunk session chunk output finish =>
    exact attached_otherCall (c := .consumeChunk chunk output finish) h hl (fun _ => trivial)
      (fun _ heq => Call.noConfusion heq) session
  | stop environment finish => exact attached_stop h hl environment finish
  | handler => exact attached_runHandler h hl hflushed
  | timer timer => exact attached_onFlushTimer h hl henabled
  | written write completion => exact attached_onWritten h hl henabled completion

theorem attached_exec (n : ℕ) (streamer : Streamer) (es : List Event)
    (hadmits : (system.restrict RemovesFlushed).Admits (started n streamer) es) :
    Attached ((system.restrict RemovesFlushed).exec (started n streamer) es) := by
  refine ((system.restrict RemovesFlushed).exec_invariant
    (fun l => Coordinated [] [] l ∧ Attached l) ?_ es _
    ⟨coordinated_started n streamer, attached_started n streamer⟩ hadmits).2
  rintro l e ⟨hl, h⟩ henabled
  exact ⟨coordinated_step hl henabled.1, attached_step h hl henabled⟩

/-- **A session never uses a connection that has been removed**, in every run in which
connections are removed only when their sessions do not wait in a flush. -/
theorem connection_exists (n : ℕ) (streamer : Streamer) (es : List Event)
    (hadmits : (system.restrict RemovesFlushed).Admits (started n streamer) es) :
    ∀ use ∈ (system.exec (started n streamer) es).connectionUses, use.existed = true := by
  have h := attached_exec n streamer es hadmits
  rw [System.restrict_exec] at h
  exact h.used

/-! ### A connection closes while its session transfers -/

/-- A Streamer that sends PCM. -/
def waveStreamer : Streamer := Streamer.create 9001 .PCM none ⟨0⟩

/-- One frame of audio. -/
def frame : Chunk := ⟨false, 44100, 2, 4, [1, 2, 3, 4, 5, 6, 7, 8], 1, 1, ⟨0⟩⟩

/-- What the player sends to open its HTTP session. -/
def playerGet : Request :=
  let received := octets ['G', 'E', 'T', ' ', '/', '?', 'i', 'd', '=', '1']
  ⟨received, received.length, "audio/x-wave", "1", [], []⟩

/-- The player has an HTTP session, which writes a frame. -/
def transferring : List Event :=
  Streamer.helloPlayer.map .streamer ++
    [.streamer (.chunk Streamer.quiet (fun _ => true) Streamer.audio), .accepted 0 false,
      .received 0 playerGet, .chunk 0 frame [] [], .handler]

/-- The write of the frame fails. -/
def writeFails : Event := .written ⟨0, ⟨0, 0, 8⟩⟩ ⟨true, 0⟩

/-- The connection closes, the write fails and the session is flushed before the two posted
handlers have run. -/
def removedAfterFlush : List Event :=
  transferring ++ [.closed 0 [], writeFails, .timer ⟨0, 1, some 0⟩, .handler, .handler, .handler,
    .handler]

theorem connection_exists_removedAfterFlush :
    (system.exec (started 5 waveStreamer) removedAfterFlush).connectionUses.length = 2 ∧
    ∀ use ∈ (system.exec (started 5 waveStreamer) removedAfterFlush).connectionUses,
      use.existed = true :=
  ⟨by decide +kernel, connection_exists 5 waveStreamer removedAfterFlush (by decide +kernel)⟩

/-- The same, with the write and the flush timer completing after the posted handlers. -/
def removedBeforeFlush : List Event :=
  transferring ++ [.closed 0 [], .handler, .handler, writeFails, .timer ⟨0, 1, some 0⟩]

/-- The session stops a connection that has been removed. -/
theorem connection_exists_removedBeforeFlush :
    system.Admits (started 5 waveStreamer) removedBeforeFlush ∧
      (system.exec (started 5 waveStreamer) removedBeforeFlush).connectionUses =
        [⟨0, true⟩, ⟨0, false⟩] := by
  decide +kernel

end EventLoop

end SlimStreamer
