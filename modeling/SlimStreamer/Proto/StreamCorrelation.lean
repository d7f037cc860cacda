import SlimStreamer.Proto.EventLoopRuns
import SlimStreamer.Proto.ServerMessage
import SlimStreamer.Proto.StreamReference

/-!
# The HTTP session of a player

A player opens an HTTP session with the text it was given in a `STRM` command, whose end is the
identifier of its SlimProto session.  The Streamer looks for the identifier in what one read has
delivered, and an HTTP session checks the beginning of whatever it gets.

* `Known`, `correlated_exec` — what the event loop keeps between the Streamer and its HTTP
  sessions, in every run;
* `refused_deliver` — a request that does not begin with a `G` leaves no session that runs;
* `streams_iff` — so a text that comes in one piece, and no other, opens a session for its player.
-/

namespace SlimStreamer

namespace CommandSession

/-- The header of the `STRM` Start command of a session, as `getSize` cuts it. -/
def startHeader (s : CommandSession) : List UInt8 :=
  let strm := Server.CommandSTRM.create .Start s.formatSelection s.streamingPort s.samplingRate
    s.clientID
  strm.data.httpHeader.take (strlen strm.data.httpHeader)

theorem startHeader_eq (s : CommandSession) :
    s.startHeader = ServerMessage.headerText s.clientID := by
  have hheader : (Server.CommandSTRM.create .Start s.formatSelection s.streamingPort
      s.samplingRate s.clientID).data.httpHeader =
        strcpy (List.replicate 64 0) (Server.CommandSTRM.request ++ s.clientID) := by
    cases s.formatSelection <;> rfl
  rw [startHeader, hheader, ServerMessage.strlen_header, ServerMessage.strcpy_header,
    List.take_left]

end CommandSession

namespace StreamingSession

/-! ### The check of a request -/

theorem onRequest_accepted {data : List UInt8} (h : data.take 3 = get)
    (finish : List (List UInt8)) (s : StreamingSession) : s.onRequest data finish = s := by
  rw [onRequest, if_neg (not_not.mpr h)]
  split <;> rfl

/-- **A request that does not begin with `GET` stops an idle session.** -/
theorem onRequest_refused {data : List UInt8} (h : data.take 3 ≠ get)
    (finish : List (List UInt8)) {s : StreamingSession} (hidle : s.transferring = false) :
    (s.onRequest data finish).running = false ∧
      (s.onRequest data finish).transferring = false := by
  rw [onRequest, if_pos h]
  split
  · rename_i hrunning
    obtain ⟨chunks, octets, s', henqueued, hstop, -⟩ := encoderStop_spec finish s
    have hidle' : (s'.setEncoderRunning false).transferring = false := by
      show s'.transferring = false
      rw [henqueued.rest]
      exact hidle
    rw [stop, if_pos hrunning, hstop, flush_of_idle hidle']
    exact ⟨rfl, hidle'⟩
  · rename_i hstopped
    exact ⟨(Bool.not_eq_true _).mp hstopped, hidle⟩

end StreamingSession

namespace Streamer

variable {t : Streamer} {closed : List ℕ}

/-- The HTTP session of a closed connection is erased. -/
theorem Referred.erase (ht : Referred closed t) {connection : ℕ} (hclosed : connection ∈ closed) :
    Referred closed (t.onHTTPRemoved connection) := by
  refine ⟨⟨⟨ht.same_sessions, ht.connections, ht.addresses, ht.fresh⟩, ht.numerals⟩, ?_, ?_⟩
  · intro e he c hc
    obtain ⟨hfound, hopen⟩ := ht.reference e he c hc
    have hne : c ≠ connection := by
      rintro rfl
      exact hopen hclosed
    refine ⟨?_, hopen⟩
    show (eraseSession t.streamingSessions connection).lookup c = _
    rw [lookup_eraseSession _ hne]
    exact hfound
  · intro c hc
    exact ht.removals c (List.mem_of_mem_erase hc)

end Streamer

namespace EventLoop

open GuardedExecution KeyedList
open StreamingSession (Call Effect)
open Streamer (Referred)
open Tcp.Server (Detached)

variable {l : EventLoop} {closed : List ℕ} {entry : HTTPSession} {c : Call}

/-! ### What the Streamer knows of the sessions -/

/-- The removal of the session of a connection is pending. -/
def Removing (connection : ℕ) (l : EventLoop) : Prop :=
  .callback (some connection) ∈ l.handlers ∨ ∃ t ∈ l.timers, t.callback = some connection

/-- The Streamer stores the same HTTP sessions as the event loop, its references lead to open
ones, and only sessions of closed connections are to be removed. -/
structure Known (closed : List ℕ) (l : EventLoop) : Prop where
  referred : Referred closed l.streamer
  stored : l.streamer.streamingSessions.map Prod.fst = l.sessions.map HTTPSession.connection
  removing : ∀ connection, Removing connection l → connection ∈ closed

/-- Erasing the session of a connection, by the connection or by its address. -/
theorem map_eraseSession {sessions : List HTTPSession} {stored : List (ℕ × List UInt8)}
    (haddresses : Distinct HTTPSession.address sessions)
    (hconnections : Distinct HTTPSession.connection sessions) (hentry : entry ∈ sessions)
    (hstored : stored.map Prod.fst = sessions.map HTTPSession.connection) :
    (Streamer.eraseSession stored entry.connection).map Prod.fst =
      (discard HTTPSession.address entry.address sessions).map HTTPSession.connection := by
  have hleft : (Streamer.eraseSession stored entry.connection).map Prod.fst =
      (stored.map Prod.fst).filter fun connection => connection != entry.connection := by
    rw [List.filter_map]
    rfl
  have hright : discard HTTPSession.address entry.address sessions =
      sessions.filter fun e => e.connection != entry.connection := by
    refine List.filter_congr fun e he => ?_
    by_cases hsame : e = entry
    · simp [hsame]
    · have haddress : e.address ≠ entry.address := fun h =>
        hsame (haddresses.eq_of_key he hentry h)
      have hconnection : e.connection ≠ entry.connection := fun h =>
        hsame (hconnections.eq_of_key he hentry h)
      simp [haddress, hconnection]
  rw [hleft, hright, hstored, List.filter_map]
  rfl

theorem eraseSession_of_unknown {stored : List (ℕ × List UInt8)} {connection : ℕ}
    (h : connection ∉ stored.map Prod.fst) : Streamer.eraseSession stored connection = stored := by
  refine List.filter_eq_self.mpr fun e he => ?_
  rw [bne_iff_ne]
  rintro rfl
  exact h (List.mem_map_of_mem he)

theorem Known.invoke (h : Known closed l)
    (haddresses : Distinct HTTPSession.address l.sessions)
    (hconnections : Distinct HTTPSession.connection l.sessions) {callback : Callback}
    (hcallback : ∀ connection ∈ callback, connection ∈ closed) :
    Known closed (l.invoke callback) := by
  cases callback with
  | none => exact h
  | some connection =>
    have herase := h.referred.erase (hcallback connection rfl)
    rw [EventLoop.invoke]
    cases hsession : l.sessionOf connection with
    | none =>
      have hsession' : { l with streamer := l.streamer.onHTTPRemoved connection }.sessionOf
          connection = none := hsession
      rw [hsession']
      refine ⟨herase, ?_, h.removing⟩
      show (Streamer.eraseSession l.streamer.streamingSessions connection).map Prod.fst = _
      rw [eraseSession_of_unknown]
      · exact h.stored
      · rw [h.stored]
        intro hmem
        obtain ⟨e, he, hconnection⟩ := List.mem_map.mp hmem
        exact find_eq_none.mp hsession e he hconnection
    | some entry =>
      have hsession' : { l with streamer := l.streamer.onHTTPRemoved connection }.sessionOf
          connection = some entry := hsession
      rw [hsession']
      obtain ⟨hentry, rfl⟩ := mem_of_find hsession
      refine ⟨herase, map_eraseSession haddresses hconnections hentry h.stored, ?_⟩
      intro connection hremoving
      refine h.removing connection (hremoving.imp_right ?_)
      rintro ⟨t, ht, hcallback⟩
      exact ⟨t, List.mem_of_mem_filter ht, hcallback⟩

/-- **A call keeps it**, if the callback it carries is one of a closed connection. -/
theorem Known.call (h : Known closed l) (haddresses : Distinct HTTPSession.address l.sessions)
    (hconnections : Distinct HTTPSession.connection l.sessions) {address : ℕ}
    (hentry : l.sessionAt address = some entry)
    (heffect : Effect c (l.entered entry) (c.run (l.entered entry)))
    (hcallback : ∀ connection ∈ c.callback, connection ∈ closed) :
    Known closed (l.call address c) := by
  have hafter : Known closed (l.afterCall entry c) := by
    refine ⟨h.referred, ?_, ?_⟩
    · have hsessions : (l.afterCall entry c).sessions.map HTTPSession.connection =
          l.sessions.map HTTPSession.connection :=
        map_alter (f := assign (c.run (l.entered entry))) (fun _ => rfl) l.sessions
      rw [hsessions]
      exact h.stored
    · rintro connection (hhandler | ⟨t, ht, hcall⟩)
      · rcases mem_afterCall_handlers heffect hhandler with hold | ⟨htask, -⟩ | ⟨hnew, -⟩
        · exact h.removing connection (Or.inl hold)
        · exact Handler.noConfusion htask
        · injection hnew with hnew
          exact hcallback connection hnew.symm
      · rcases mem_afterCall_timers heffect ht with hold | ⟨rfl, -, -⟩
        · exact h.removing connection (Or.inr ⟨t, hold, hcall⟩)
        · exact hcallback connection hcall
  rw [call_of_some hentry]
  rcases heffect.finished with hnone | ⟨hone, -, -⟩
  · rw [hnone]
    exact hafter
  · rw [hone]
    exact hafter.invoke (Distinct.alter (f := assign _) (fun _ => rfl) haddresses)
      (Distinct.alter (f := assign _) (fun _ => rfl) hconnections) hcallback

theorem Known.plainCall (h : Known closed l) (hl : Coordinated [] [] l) (hplain : c.IsPlain)
    (address : ℕ) : Known closed (l.call address c) := by
  obtain ⟨hcallback, -, hallowed⟩ := hplain.spec
  cases hentry : l.sessionAt address with
  | none =>
    rw [call_of_none hentry]
    exact h
  | some entry =>
    refine h.call hl.addresses hl.connections hentry
      (hl.effect (mem_of_find hentry).1 (hallowed entry.session)) ?_
    rw [hcallback]
    intro connection hconnection
    cases hconnection

/-- Nothing but the Streamer, the sessions, the handlers and the timers matters. -/
theorem Known.congr {l' : EventLoop} (h : Known closed l) (hstreamer : l'.streamer = l.streamer)
    (hsessions : l'.sessions = l.sessions)
    (hhandlers : ∀ callback, Handler.callback callback ∈ l'.handlers →
      .callback callback ∈ l.handlers)
    (htimers : ∀ t ∈ l'.timers, t ∈ l.timers) : Known closed l' where
  referred := by
    rw [hstreamer]
    exact h.referred
  stored := by
    rw [hstreamer, hsessions]
    exact h.stored
  removing connection hremoving := by
    refine h.removing connection (hremoving.imp (hhandlers (some connection)) ?_)
    rintro ⟨t, ht, hcallback⟩
    exact ⟨t, htimers t ht, hcallback⟩

/-- Another Streamer with the same HTTP sessions. -/
theorem Known.withStreamer {streamer : Streamer} (h : Known closed l)
    (hreferred : Referred closed streamer)
    (hstored : streamer.streamingSessions = l.streamer.streamingSessions) :
    Known closed { l with streamer := streamer } where
  referred := hreferred
  stored := by
    show streamer.streamingSessions.map Prod.fst = _
    rw [hstored]
    exact h.stored
  removing := h.removing

/-! ### The steps -/

theorem known_post {handlers : List Handler} (h : Known closed l)
    (hhandlers : ∀ callback, Handler.callback callback ∉ handlers) :
    Known closed (l.post handlers) := by
  refine h.congr rfl rfl ?_ fun t ht => ht
  intro callback hcallback
  exact (List.mem_append.mp hcallback).resolve_right (hhandlers callback)

/-- **A call of the Streamer that does not concern its HTTP sessions.** -/
theorem known_streamer (h : Known closed l) {stimulus : Streamer.Stimulus}
    (hhttp : concernsHTTP stimulus = false) (henabled : l.streamer.enabled stimulus) :
    Known closed (l.step (.streamer stimulus)) := by
  by_cases hinternal : Streamer.isInternal stimulus = true
  · exact h.withStreamer (Streamer.referred_internal h.referred henabled hinternal)
      (Streamer.step_evolves h.referred.toRegistered hinternal).2.streamingSessions
  · cases stimulus with
    | slimProtoOpen connection environment =>
      exact h.withStreamer (Streamer.referred_open h.referred henabled) rfl
    | slimProtoClose connection =>
      exact h.withStreamer (Streamer.referred_close h.referred connection)
        (Streamer.onSlimProtoClose_http connection l.streamer).streamingSessions
    | httpData connection buffer => exact Bool.noConfusion hhttp
    | httpClose connection => exact Bool.noConfusion hhttp
    | httpRemoved connection => exact Bool.noConfusion hhttp
    | _ => exact absurd rfl hinternal

/-- The Streamer knows no HTTP session of a connection without one. -/
theorem Known.unknown (h : Known closed l) {connection : ℕ}
    (hsession : l.sessionOf connection = none) :
    (l.streamer.streamingSessions.any fun e => e.1 == connection) = false := by
  rw [List.any_eq_false]
  intro e he hconnection
  have hmem : connection ∈ l.sessions.map HTTPSession.connection := by
    rw [← h.stored, ← beq_iff_eq.mp hconnection]
    exact List.mem_map_of_mem he
  obtain ⟨d, hd, hd'⟩ := List.mem_map.mp hmem
  exact find_eq_none.mp hsession d hd hd'

/-- **What the first request of a connection does to the Streamer**, by the identifier that it
carries. -/
theorem Known.onHTTPData_streamer (h : Known closed l) {connection : ℕ}
    (hsession : l.sessionOf connection = none) (received : List UInt8) :
    (l.streamer.onHTTPData connection received).1 =
      match Streamer.parseClientID received with
      | none => l.streamer
      | some clientID =>
        match l.streamer.findSessionByID clientID with
        | none => l.streamer.stopConnection connection
        | some session => { l.streamer.setStreamingSession session (some connection) with
            streamingSessions := l.streamer.streamingSessions ++ [(connection, clientID)] } := by
  rw [Streamer.onHTTPData, h.unknown hsession, if_neg Bool.false_ne_true]
  cases Streamer.parseClientID received with
  | none => rfl
  | some clientID =>
    cases hfound : l.streamer.findSessionByID clientID with
    | none => simp only [hfound]
    | some session =>
      have hadd : Streamer.addSession l.streamer.streamingSessions connection clientID =
          l.streamer.streamingSessions ++ [(connection, clientID)] := by
        rw [Streamer.addSession, h.unknown hsession, if_neg Bool.false_ne_true]
      simp only [hfound, ← hadd]
      rfl

/-- A new session that does not stay. -/
theorem Known.create_destroy (h : Known closed l) (hl : Coordinated [] [] l)
    (haddress : entry.address = l.nextAddress)
    (hstarted : JustStarted entry.session) (connection : ℕ) :
    Known closed (((l.create entry).stopConnection connection).destroy entry) := by
  have hfresh : ∀ e ∈ l.sessions, e.address ≠ entry.address := by
    intro e he hsame
    have hlt := (hl.fresh e he).1
    omega
  refine h.congr rfl ?_ ?_ ?_
  · show discard HTTPSession.address entry.address (l.sessions ++ [entry]) = l.sessions
    have hnone : ∀ e ∈ ([] : List HTTPSession), e.address ≠ entry.address :=
      List.forall_mem_nil _
    rw [discard_split hfresh hnone, List.append_nil]
  · intro callback hcallback
    exact (mem_create_handlers hstarted hcallback).resolve_right Handler.noConfusion
  · intro t ht
    have ht' : t ∈ (l.create entry).timers := List.mem_of_mem_filter ht
    rwa [create_timers hstarted] at ht'

/-- A new session the Streamer stores as well. -/
theorem Known.create_stored {streamer : Streamer} {clientID : List UInt8} (h : Known closed l)
    (hreferred : Referred closed streamer)
    (hstored : streamer.streamingSessions =
      l.streamer.streamingSessions ++ [(entry.connection, clientID)])
    (hstarted : JustStarted entry.session) :
    Known closed ({ l with streamer := streamer }.create entry) where
  referred := hreferred
  stored := by
    show streamer.streamingSessions.map Prod.fst = (l.sessions ++ [entry]).map _
    rw [hstored, List.map_append, List.map_append, h.stored]
    rfl
  removing connection hremoving := by
    refine h.removing connection (hremoving.imp ?_ ?_)
    · intro hhandler
      exact (mem_create_handlers hstarted hhandler).resolve_right Handler.noConfusion
    · rintro ⟨t, ht, hcallback⟩
      rw [create_timers hstarted] at ht
      exact ⟨t, ht, hcallback⟩

theorem known_onHTTPData (h : Known closed l) (hl : Coordinated [] [] l) {connection : ℕ}
    (hreads : l.server.reads connection = true) (hopen : connection ∉ closed) (request : Request) :
    Known closed (l.onHTTPData connection request) := by
  cases hsession : l.sessionOf connection with
  | some entry =>
    rw [onHTTPData_session hsession]
    exact h.plainCall (c := .onRequest request.buffer request.finish) hl trivial entry.address
  | none =>
    have hreferred := Streamer.referred_data h.referred hopen
      (request.buffer.take request.receivedSize)
    have hstreamer := h.onHTTPData_streamer hsession (request.buffer.take request.receivedSize)
    cases hparse : Streamer.parseClientID (request.buffer.take request.receivedSize) with
    | none =>
      rw [onHTTPData_unparsed hsession hparse]
      rw [hparse] at hstreamer
      exact h.withStreamer hreferred (congrArg Streamer.streamingSessions hstreamer)
    | some clientID =>
      have hstarted := newSession_justStarted connection clientID request.mime request.version
        request.header l
      have hnext := hl.withStreamer (l.streamer.onHTTPData connection
        (request.buffer.take request.receivedSize)).1
      cases hfound : l.streamer.findSessionByID clientID with
      | none =>
        rw [onHTTPData_unfound hsession hparse hfound]
        simp only [hparse, hfound] at hstreamer
        refine (h.withStreamer hreferred ?_).create_destroy hnext rfl hstarted connection
        rw [hstreamer]
        rfl
      | some session =>
        rw [onHTTPData_found hsession hparse hfound]
        simp only [hparse, hfound] at hstreamer
        have hcreate := h.create_stored hreferred (congrArg Streamer.streamingSessions hstreamer)
          hstarted
        exact hcreate.plainCall (c := .onRequest request.buffer request.finish)
          (hnext.create rfl hstarted hreads hsession) trivial _

/-- Closing a connection: its session is told, and nothing refers to it any more. -/
theorem known_onHTTPClose {connection : ℕ} (h : Known closed l)
    (hl : Coordinated [] [connection] l) (finish : List (List UInt8)) :
    Known (connection :: closed) (l.onHTTPClose connection finish) := by
  rw [onHTTPClose]
  cases hsession : l.sessionOf connection with
  | none =>
    have hclose := Streamer.referred_httpClose h.referred connection
    have hnone : l.streamer.streamingSessions.lookup connection = none := by
      rw [List.lookup_eq_none_iff]
      intro e he
      have hunknown := List.any_eq_false.mp (h.unknown hsession) e he
      rw [Bool.not_eq_true, beq_eq_false_iff_ne] at hunknown
      exact bne_iff_ne.mpr (Ne.symm hunknown)
    rw [Streamer.onHTTPClose_unknown hnone] at hclose
    exact ⟨hclose, h.stored, fun c hc => List.mem_cons_of_mem connection (h.removing c hc)⟩
  | some entry =>
    obtain ⟨hentry, rfl⟩ := mem_of_find hsession
    have hat : l.sessionAt entry.address = some entry :=
      (find_eq_some hl.addresses).mpr ⟨hentry, rfl⟩
    have hclose : Known (entry.connection :: closed)
        { l with streamer := l.streamer.onHTTPClose entry.connection } := by
      refine ⟨Streamer.referred_httpClose h.referred entry.connection, ?_, ?_⟩
      · show (l.streamer.onHTTPClose entry.connection).streamingSessions.map _ = _
        rw [(Streamer.onHTTPClose_stored entry.connection l.streamer).1]
        exact h.stored
      · intro c hc
        exact List.mem_cons_of_mem _ (h.removing c hc)
    refine hclose.call (c := .stop (some entry.connection) finish) hl.addresses hl.connections hat
      ((hl.withStreamer _).effect hentry trivial) ?_
    intro connection hconnection
    obtain rfl : entry.connection = connection := Option.some.inj hconnection
    exact List.mem_cons_self

theorem known_stop (h : Known closed l) (hl : Coordinated [] [] l) (environment : Environment)
    (finish : ℕ → List (List UInt8)) : Known closed (l.stop environment finish) := by
  have hstopped : Known closed { l with streamer := l.streamer.stop environment } :=
    h.withStreamer
      (Streamer.referred_internal (e := .stop environment) h.referred trivial rfl)
      (Streamer.step_evolves (e := .stop environment) h.referred.toRegistered
        rfl).2.streamingSessions
  have hboth : Coordinated [] [] (l.stop environment finish) ∧
      Known closed (l.stop environment finish) := by
    refine stop_keeps (P := fun l => Coordinated [] [] l ∧ Known closed l) ?_ environment
      ⟨hl.withStreamer _, hstopped⟩
    intro l entry hl
    exact ⟨coordinated_plainCall (c := .stop none (finish entry.address)) hl.1 rfl entry.address,
      hl.2.plainCall (c := .stop none (finish entry.address)) hl.1 rfl entry.address⟩
  exact hboth.2

theorem known_runHandler (h : Known closed l) (hl : Coordinated [] [] l) :
    Known closed l.runHandler := by
  rw [runHandler]
  split
  · exact h
  · rename_i handler rest hhandlers
    have hnext : Known closed { l with handlers := rest } := by
      refine h.congr rfl rfl ?_ fun t ht => ht
      intro callback hcallback
      rw [hhandlers]
      exact List.mem_cons_of_mem _ hcallback
    have hlnext := hl.next hhandlers
    cases handler with
    | tcp handler =>
      cases handler with
      | onStop connection =>
        refine known_post hnext ?_
        intro callback hcallback
        exact Handler.noConfusion (List.mem_singleton.mp hcallback)
      | removal connection => exact hnext.congr rfl rfl (fun _ hc => hc) fun _ ht => ht
    | transferTask session =>
      have hentered : Known closed ({ l with handlers := rest }.enterSession session) :=
        hnext.congr rfl rfl (fun _ hc => hc) fun _ ht => ht
      exact hentered.plainCall (c := .transferTask) (hlnext.enterSession session) trivial session
    | callback callback =>
      refine hnext.invoke hl.addresses hl.connections ?_
      rintro connection hconnection
      obtain rfl : callback = some connection := hconnection
      refine h.removing connection (Or.inl ?_)
      rw [hhandlers]
      exact List.mem_cons_self

theorem known_onFlushTimer (h : Known closed l) (hl : Coordinated [] [] l) {timer : FlushTimer}
    (htimer : timer ∈ l.timers) : Known closed (l.onFlushTimer timer) := by
  have herase : Known closed ({ l with timers := l.timers.erase timer }.enterSession
      timer.session) :=
    h.congr rfl rfl (fun _ hc => hc) fun _ ht => List.mem_of_mem_erase ht
  cases hsession : l.sessionAt timer.session with
  | none =>
    rw [onFlushTimer_gone hsession]
    exact herase
  | some entry =>
    rw [onFlushTimer]
    obtain ⟨hentry, haddress⟩ := mem_of_find hsession
    have hencoder := (hl.flushing timer htimer entry hentry haddress.symm).1
    have hlerase := (hl.eraseTimerOf hentry haddress).enterSession timer.session
    refine herase.call (c := .flush timer.callback) hl.addresses hl.connections hsession
      (hlerase.effect hentry hencoder) ?_
    intro connection hcallback
    exact h.removing connection (Or.inr ⟨timer, htimer, hcallback⟩)

theorem known_onWritten (h : Known closed l) (hl : Coordinated [] [] l) {write : PendingWrite}
    (hwrite : write ∈ l.writes) (completion : Completion) :
    Known closed (l.onWritten write completion) := by
  have herase : Known closed ({ l with writes := l.writes.erase write }.enterSession
      write.session) := h.congr rfl rfl (fun _ hc => hc) fun _ ht => ht
  cases hsession : l.sessionAt write.session with
  | none =>
    rw [onWritten_gone hsession]
    exact herase
  | some entry =>
    rw [onWritten]
    obtain ⟨hentry, haddress⟩ := mem_of_find hsession
    have hlerase := (hl.eraseWrite hwrite).enterSession write.session
    refine herase.call (c := .completed write.write completion) hl.addresses hl.connections
      hsession (hlerase.effect hentry (hl.transferring hwrite hentry haddress)) ?_
    intro connection hconnection
    cases hconnection

/-! ### Runs -/

theorem onHTTPData_evolves (hl : Coordinated [] [] l) (connection : ℕ) (request : Request) :
    Tcp.Server.Evolves [] [] l.server (l.onHTTPData connection request).server := by
  cases hsession : l.sessionOf connection with
  | some entry =>
    rw [onHTTPData_session hsession]
    exact call_evolves hl.tracked _ _
  | none =>
    cases hparse : Streamer.parseClientID (request.buffer.take request.receivedSize) with
    | none =>
      rw [onHTTPData_unparsed hsession hparse]
      exact hl.tracked.evolves
    | some clientID =>
      have hnext := hl.withStreamer (l.streamer.onHTTPData connection
        (request.buffer.take request.receivedSize)).1
      have hcreate := create_evolves hnext.tracked
        (l.newSession connection clientID request.mime request.version request.header)
      cases hfound : l.streamer.findSessionByID clientID with
      | none =>
        rw [onHTTPData_unfound hsession hparse hfound]
        exact hcreate.trans (hcreate.tracked.evolves_stopConnection connection)
      | some session =>
        rw [onHTTPData_found hsession hparse hfound]
        exact hcreate.trans (call_evolves hcreate.tracked _ _)

theorem detached_stop (hl : Coordinated [] [] l) (environment : Environment)
    (finish : ℕ → List (List UInt8)) {id : ℕ} (h : Detached id l.server) :
    Detached id (l.stop environment finish).server := by
  have hboth : Tcp.Server.Tracked (l.stop environment finish).server ∧
      Detached id (l.stop environment finish).server := by
    refine stop_keeps (P := fun l => Tcp.Server.Tracked l.server ∧ Detached id l.server) ?_
      environment ⟨hl.tracked, h⟩
    intro l entry hl
    have hcall := call_evolves hl.1 entry.address (.stop none (finish entry.address))
    exact ⟨hcall.tracked, hcall.detached id hl.2⟩
  exact hboth.2

theorem detached_runHandler (hl : Coordinated [] [] l) {id : ℕ} (h : Detached id l.server) :
    Detached id l.runHandler.server := by
  rw [runHandler]
  split
  · exact h
  · rename_i handler rest hhandlers
    cases handler with
    | tcp handler =>
      cases handler with
      | onStop connection => exact h
      | removal connection =>
        have hdetached := hl.detached (.removal connection) (by
          rw [hhandlers]
          exact List.mem_cons_self)
        exact (hl.tracked.evolves_onRemoval hdetached).detached id h
    | transferTask session =>
      have hnext := (hl.next hhandlers).enterSession session
      exact (call_evolves hnext.tracked session .transferTask).detached id h
    | callback callback =>
      show Detached id ({ l with handlers := rest }.invoke callback).server
      rw [invoke_server]
      exact h

/-- A closed connection stays closed. -/
theorem step_detached (hl : Coordinated [] [] l) {e : Event} (henabled : system.enabled l e)
    {id : ℕ} (h : Detached id l.server) : Detached id (l.step e).server := by
  cases e with
  | accepted connection error => exact (hl.tracked.evolves_onAccept henabled).detached id h
  | received connection request => exact (onHTTPData_evolves hl connection request).detached id h
  | closed connection finish =>
    have hclose := hl.tracked.evolves_onClose connection
    have hserver := hl.evolve hclose
    exact (onHTTPClose_evolves hserver.tracked connection finish).detached id
      (hclose.detached id h)
  | stopServer => exact hl.tracked.evolves_stop.detached id h
  | streamer stimulus => exact h
  | chunk session chunk output finish => exact (call_evolves hl.tracked _ _).detached id h
  | stop environment finish => exact detached_stop hl environment finish h
  | handler => exact detached_runHandler hl h
  | timer timer =>
    let next := { l with timers := l.timers.erase timer }.enterSession timer.session
    exact (call_evolves (l := next) hl.tracked timer.session
      (.flush timer.callback)).detached id h
  | written write completion =>
    let next := { l with writes := l.writes.erase write }.enterSession write.session
    exact (call_evolves (l := next) hl.tracked write.session
      (.completed write.write completion)).detached id h

/-- **What every run keeps**: the Streamer knows the sessions of the event loop, and the
connections whose sessions it has given up are closed. -/
structure Correlated (l : EventLoop) : Prop where
  coordinated : Coordinated [] [] l
  known : ∃ closed, Known closed l ∧ ∀ connection ∈ closed, Detached connection l.server

theorem correlated_step {e : Event} (h : Correlated l) (henabled : system.enabled l e) :
    Correlated (l.step e) := by
  obtain ⟨hl, closed, hknown, hdetached⟩ := h
  have hshut : ∀ connection ∈ closed, Detached connection (l.step e).server :=
    fun connection hmem => step_detached hl henabled (hdetached connection hmem)
  refine ⟨coordinated_step hl henabled, ?_⟩
  cases e with
  | accepted connection error =>
    refine ⟨closed, known_post (hknown.congr rfl rfl (fun _ hc => hc) fun _ ht => ht) ?_, hshut⟩
    intro callback hcallback
    cases error with
    | false => cases hcallback
    | true => exact Handler.noConfusion (List.mem_singleton.mp hcallback)
  | received connection request =>
    refine ⟨closed, known_onHTTPData hknown hl henabled ?_ request, hshut⟩
    intro hmem
    exact Bool.noConfusion ((hdetached connection hmem).reads.symm.trans henabled)
  | closed connection finish =>
    have hserver := hl.evolve (hl.tracked.evolves_onClose connection)
    let next := { l with server := l.server.update connection Tcp.Connection.onClose }
    have hnext : Known closed next := hknown.congr rfl rfl (fun _ hc => hc) fun _ ht => ht
    have hclose := known_onHTTPClose hnext hserver finish
    refine ⟨connection :: closed, known_post hclose ?_, ?_⟩
    · intro callback hcallback
      exact Handler.noConfusion (List.mem_singleton.mp hcallback)
    · intro connection' hmem
      rcases List.mem_cons.mp hmem with rfl | hmem
      · obtain ⟨c, hc, rfl, -⟩ := Tcp.Server.exists_of_reads henabled
        have hnow := Tcp.Server.detached_onClose hl.tracked hc
        exact (onHTTPClose_evolves hserver.tracked c.id finish).detached _ hnow
      · exact hshut connection' hmem
  | stopServer => exact ⟨closed, hknown.congr rfl rfl (fun _ hc => hc) fun _ ht => ht, hshut⟩
  | streamer stimulus => exact ⟨closed, known_streamer hknown henabled.1 henabled.2, hshut⟩
  | chunk session chunk output finish =>
    exact ⟨closed, hknown.plainCall (c := .consumeChunk chunk output finish) hl trivial session,
      hshut⟩
  | stop environment finish => exact ⟨closed, known_stop hknown hl environment finish, hshut⟩
  | handler => exact ⟨closed, known_runHandler hknown hl, hshut⟩
  | timer timer => exact ⟨closed, known_onFlushTimer hknown hl henabled, hshut⟩
  | written write completion =>
    exact ⟨closed, known_onWritten hknown hl henabled completion, hshut⟩

theorem correlated_started (n streamingPort : ℕ) (format : FormatSelection) (gain : Option ℕ)
    (now : Timestamp) :
    Correlated (started n (Streamer.create streamingPort format gain now)) := by
  refine ⟨coordinated_started n _, [], ⟨Streamer.referred_create streamingPort format gain now,
    rfl, ?_⟩, List.forall_mem_nil _⟩
  rintro connection (hhandler | ⟨t, ht, -⟩)
  · cases hhandler
  · cases ht

theorem correlated_exec (n streamingPort : ℕ) (format : FormatSelection) (gain : Option ℕ)
    (now : Timestamp) (es : List Event)
    (hadmits : system.Admits (started n (Streamer.create streamingPort format gain now)) es) :
    Correlated (system.exec (started n (Streamer.create streamingPort format gain now)) es) :=
  system.exec_invariant Correlated (fun _ _ h he => correlated_step h he) es _
    (correlated_started n streamingPort format gain now) hadmits

/-! ### Requests in pieces -/

/-- What a request was received with. -/
def Request.received (r : Request) : List UInt8 := r.buffer.take r.receivedSize

/-- The requests that a text becomes when TCP cuts it; no read delivers nothing. -/
structure Cuts (requests : List Request) (text : List UInt8) : Prop where
  nonempty : ∀ r ∈ requests, r.received ≠ []
  joined : requests.flatMap Request.received = text

/-- The calls of `onHTTPData`, one after the other. -/
def deliver (connection : ℕ) (requests : List Request) (l : EventLoop) : EventLoop :=
  requests.foldl (fun l request => l.onHTTPData connection request) l

/-- The HTTP session of a connection runs, and is that of one player only. -/
structure Streams (connection player : ℕ) (l : EventLoop) : Prop where
  running : ∃ entry, l.sessionOf connection = some entry ∧ entry.session.running = true
  attached : l.streamer.referenceOf player = some connection
  alone : ∀ e ∈ l.streamer.commandSessions, e.2.streamingSession = some connection → e.1 = player

/-- The HTTP session of a connection, if there is one, transfers nothing. -/
def Idle (connection : ℕ) (l : EventLoop) : Prop :=
  ∀ entry, l.sessionOf connection = some entry → entry.session.transferring = false

/-- It does not run either. -/
def Refused (connection : ℕ) (l : EventLoop) : Prop :=
  ∀ entry, l.sessionOf connection = some entry →
    entry.session.running = false ∧ entry.session.transferring = false

theorem Refused.idle {connection : ℕ} (h : Refused connection l) : Idle connection l :=
  fun entry hentry => (h entry hentry).2

/-- The session after a request, and the Streamer, which has no part in it. -/
theorem call_onRequest (hl : Coordinated [] [] l) {connection : ℕ}
    (hentry : l.sessionOf connection = some entry) (buffer : List UInt8)
    (finish : List (List UInt8)) :
    (l.call entry.address (.onRequest buffer finish)).sessionOf connection =
        some (assign ((l.entered entry).onRequest buffer finish) entry) ∧
      (l.call entry.address (.onRequest buffer finish)).streamer = l.streamer := by
  obtain ⟨hmem, hconnection⟩ := mem_of_find hentry
  have hat : l.sessionAt entry.address = some entry :=
    (find_eq_some hl.addresses).mpr ⟨hmem, rfl⟩
  have hcall : l.call entry.address (.onRequest buffer finish) =
      l.afterCall entry (.onRequest buffer finish) := by
    rw [call_of_some hat]
    rcases (hl.effect (c := .onRequest buffer finish) hmem trivial).finished with
      hnone | ⟨hone, -⟩
    · rw [hnone]
      rfl
    · rw [hone]
      rfl
  rw [hcall]
  refine ⟨?_, rfl⟩
  have hdistinct : Distinct HTTPSession.connection
      (l.afterCall entry (.onRequest buffer finish)).sessions :=
    Distinct.alter (f := assign _) (fun _ => rfl) hl.connections
  exact (find_eq_some hdistinct).mpr
    ⟨(mem_afterCall_sessions hl.addresses hmem).mpr (Or.inr rfl), hconnection⟩

/-- The state in which a request has made a session that has not seen the request yet. -/
theorem sessionOf_create (hl : Coordinated [] [] l) {connection : ℕ}
    (hreads : l.server.reads connection = true) (hsession : l.sessionOf connection = none)
    (clientID : List UInt8) (request : Request) (streamer : Streamer) :
    let entry := l.newSession connection clientID request.mime request.version request.header
    let next := { l with streamer := streamer }.create entry
    Coordinated [] [] next ∧ next.sessionOf connection = some entry := by
  intro entry next
  have hstarted : JustStarted entry.session :=
    newSession_justStarted connection clientID request.mime request.version request.header l
  have hnext : Coordinated [] [] next :=
    (hl.withStreamer streamer).create rfl hstarted hreads hsession
  have hmem : entry ∈ next.sessions := mem_create_sessions.mpr (Or.inr rfl)
  exact ⟨hnext, (find_eq_some hnext.connections).mpr ⟨hmem, rfl⟩⟩

/-- Without a session there is none that runs. -/
theorem idle_of_none {connection : ℕ} (h : l.sessionOf connection = none) {p : Prop} :
    Idle connection l ∧ (p → Refused connection l) := by
  have hrefused : Refused connection l := by
    intro entry hentry
    rw [h] at hentry
    cases hentry
  exact ⟨hrefused.idle, fun _ => hrefused⟩

/-- The check of the request, for an idle session: it stops unless the request begins with
`GET`. -/
theorem call_onRequest_idle (hl : Coordinated [] [] l) {connection : ℕ}
    (hentry : l.sessionOf connection = some entry) (hidle : entry.session.transferring = false)
    (buffer : List UInt8) (finish : List (List UInt8)) :
    Idle connection (l.call entry.address (.onRequest buffer finish)) ∧
      (buffer.take 3 ≠ StreamingSession.get →
        Refused connection (l.call entry.address (.onRequest buffer finish))) := by
  obtain ⟨hafter, -⟩ := call_onRequest hl hentry buffer finish
  by_cases hget : buffer.take 3 = StreamingSession.get
  · refine ⟨?_, fun hne => absurd hget hne⟩
    intro entry' hentry'
    rw [hafter, Option.some_inj] at hentry'
    rw [← hentry', StreamingSession.onRequest_accepted hget]
    exact hidle
  · have hrefused := StreamingSession.onRequest_refused hget finish (s := l.entered entry) hidle
    have hboth : Refused connection (l.call entry.address (.onRequest buffer finish)) := by
      intro entry' hentry'
      rw [hafter, Option.some_inj] at hentry'
      rw [← hentry']
      exact hrefused
    exact ⟨hboth.idle, fun _ => hboth⟩

/-- **What a request makes of the session of its connection**, if that is idle: it is there or
new, and the request stops it unless it begins with `GET`. -/
theorem onHTTPData_sessionOf (hl : Coordinated [] [] l) {connection : ℕ}
    (hreads : l.server.reads connection = true) (hidle : Idle connection l) (request : Request) :
    Idle connection (l.onHTTPData connection request) ∧
      (request.buffer.take 3 ≠ StreamingSession.get →
        Refused connection (l.onHTTPData connection request)) := by
  cases hsession : l.sessionOf connection with
  | some entry =>
    rw [onHTTPData_session hsession]
    exact call_onRequest_idle hl hsession (hidle entry hsession) _ _
  | none =>
    cases hparse : Streamer.parseClientID (request.buffer.take request.receivedSize) with
    | none =>
      rw [onHTTPData_unparsed hsession hparse]
      exact idle_of_none hsession
    | some clientID =>
      obtain ⟨hcreate, hcreated⟩ := sessionOf_create hl hreads hsession clientID
        request (l.streamer.onHTTPData connection (request.buffer.take request.receivedSize)).1
      have hstarted := newSession_justStarted connection clientID request.mime request.version
        request.header l
      cases hfound : l.streamer.findSessionByID clientID with
      | none =>
        rw [onHTTPData_unfound hsession hparse hfound]
        -- the session is destroyed again
        refine idle_of_none (find_eq_none.mpr fun e he => ?_)
        obtain ⟨he, haddress⟩ := mem_discard.mp he
        rcases mem_create_sessions.mp he with he | rfl
        · exact find_eq_none.mp hsession e he
        · exact absurd rfl haddress
      | some session =>
        rw [onHTTPData_found hsession hparse hfound]
        exact call_onRequest_idle hcreate hcreated hstarted.transferring _ _

/-- Once a session is refused it stays so, whatever comes of the text. -/
theorem refused_deliver {connection : ℕ} (requests : List Request) (hl : Coordinated [] [] l)
    (hreads : l.server.reads connection = true) (hrefused : Refused connection l)
    (hget : ∀ r ∈ requests, r.buffer.take 3 ≠ StreamingSession.get) :
    Refused connection (l.deliver connection requests) := by
  induction requests generalizing l with
  | nil => exact hrefused
  | cons request requests ih =>
    rw [List.forall_mem_cons] at hget
    exact ih (coordinated_onHTTPData hl hreads request)
      ((onHTTPData_evolves hl connection request).reads _ List.not_mem_nil hreads)
      ((onHTTPData_sessionOf hl hreads hrefused.idle request).2 hget.1) hget.2

/-! ### The text of a player -/

/-- The octets of a numeral are those of digits. -/
theorem mem_octets_toDigits {n : ℕ} {b : UInt8} (h : b ∈ octets (Nat.toDigits 10 n)) :
    48 ≤ b.toNat ∧ b.toNat ≤ 57 := by
  obtain ⟨c, hc, rfl⟩ := List.mem_map.mp h
  have hdigit := Nat.isDigit_of_mem_toDigits (by decide) (by decide) hc
  rw [Char.isDigit, Bool.and_eq_true, decide_eq_true_iff, decide_eq_true_iff] at hdigit
  have hlow : 48 ≤ c.toNat := hdigit.1
  have hhigh : c.toNat ≤ 57 := hdigit.2
  rw [UInt8.toNat_ofNat', Nat.mod_eq_of_lt (by omega)]
  exact ⟨hlow, hhigh⟩

/-- A numeral is sent as it is. -/
theorem startHeader_numeral {s : CommandSession} {n : ℕ}
    (h : s.clientID = octets (Nat.toDigits 10 n)) :
    s.startHeader = Server.CommandSTRM.request ++ octets (Nat.toDigits 10 n) := by
  rw [CommandSession.startHeader_eq, h]
  refine (ServerMessage.headerText_eq_iff _).mpr fun hzero => ?_
  have hlow := (mem_octets_toDigits hzero).1
  exact absurd hlow (by decide)

/-- The identifier is what follows the only `=` of the request. -/
theorem parseClientID_request (clientID : List UInt8) :
    Streamer.parseClientID (Server.CommandSTRM.request ++ clientID) = some clientID := rfl

/-- The text has one `G`, which it begins with. -/
theorem tail_ne_G {n : ℕ} {b : UInt8}
    (h : b ∈ (Server.CommandSTRM.request ++ octets (Nat.toDigits 10 n)).tail) : b ≠ 71 := by
  rw [List.tail_append_of_ne_nil (by decide)] at h
  rcases List.mem_append.mp h with h | h
  · have hall : Server.CommandSTRM.request.tail.all (fun b => b != 71) = true := by decide
    exact bne_iff_ne.mp (List.all_eq_true.mp hall b h)
  · rintro rfl
    exact absurd (mem_octets_toDigits h).2 (by decide)

/-- What is received without a `G` does not begin with `GET`. -/
theorem take_ne_get {r : Request} (hne : r.received ≠ []) (hG : ∀ b ∈ r.received, b ≠ 71) :
    r.buffer.take 3 ≠ StreamingSession.get := by
  intro hget
  cases hbuffer : r.buffer with
  | nil =>
    rw [hbuffer] at hget
    cases hget
  | cons b buffer =>
    rw [hbuffer, StreamingSession.get, List.take_succ_cons, List.cons.injEq] at hget
    refine hG b ?_ hget.1
    cases hsize : r.receivedSize with
    | zero =>
      rw [Request.received, hsize, List.take_zero] at hne
      exact absurd rfl hne
    | succ size =>
      rw [Request.received, hsize, hbuffer, List.take_succ_cons]
      exact List.mem_cons_self

/-- A text that begins with `GET` is in the buffer with its beginning. -/
theorem take_eq_get {r : Request} {clientID : List UInt8}
    (h : r.received = Server.CommandSTRM.request ++ clientID) :
    r.buffer.take 3 = StreamingSession.get := by
  have hsize : 3 ≤ r.receivedSize := by
    have hlength := congrArg List.length h
    rw [Request.received, List.length_take, List.length_append] at hlength
    have hrequest : Server.CommandSTRM.request.length = 19 := rfl
    omega
  have htake : r.received.take 3 = r.buffer.take 3 := by
    rw [Request.received, List.take_take, Nat.min_eq_left hsize]
  rw [← htake, h]
  rfl

/-! ### One piece, and several -/

theorem lookup_applyToSession {sessions : List (ℕ × CommandSession)} {player : ℕ}
    {fn : CommandSession → CommandSession} :
    (Streamer.applyToSession sessions player fn).lookup player =
      (sessions.lookup player).map fn := by
  induction sessions with
  | nil => rfl
  | cons e sessions ih =>
    rw [Streamer.applyToSession] at ih ⊢
    rw [List.map_cons]
    by_cases he : e.1 = player
    · rw [if_pos he, List.lookup_cons, List.lookup_cons, he, beq_self_eq_true]
      rfl
    · have hne : (player == e.1) = false := beq_eq_false_iff_ne.mpr (Ne.symm he)
      rw [if_neg he, List.lookup_cons, List.lookup_cons, hne]
      exact ih

/-- No other session refers to a connection that had no HTTP session. -/
theorem Known.alone (h : Known closed l) {connection player : ℕ}
    (hsession : l.sessionOf connection = none) : ∀ e ∈
      (l.streamer.setStreamingSession player (some connection)).commandSessions,
      e.2.streamingSession = some connection → e.1 = player := by
  intro e he hreference
  obtain ⟨d, hd, hsame, -, -, hd'⟩ := Streamer.mem_setStreamingSession he
  by_cases hdp : d.1 = player
  · exact hsame.trans hdp
  · -- it would refer to an HTTP session that is not stored
    rw [if_neg hdp] at hd'
    have hstored := (h.referred.reference d hd connection (hd'.symm.trans hreference)).1
    exact absurd (beq_self_eq_true connection)
      (List.any_eq_false.mp (h.unknown hsession) _ (Streamer.mem_of_lookup hstored))

/-- **A text in one piece** opens the HTTP session of its player. -/
theorem streams_whole (h : Correlated l) {connection player : ℕ} {s : CommandSession}
    (hreads : l.server.reads connection = true) (hsession : l.sessionOf connection = none)
    (hplayer : l.streamer.commandSessions.lookup player = some s) {request : Request}
    (hreceived : request.received = s.startHeader) :
    Streams connection player (l.onHTTPData connection request) := by
  obtain ⟨hl, closed, hknown, -⟩ := h
  have hentry := Streamer.mem_of_lookup hplayer
  have hnumeral : s.clientID = octets (Nat.toDigits 10 s.address) :=
    hknown.referred.numerals _ hentry
  rw [startHeader_numeral hnumeral, ← hnumeral] at hreceived
  have hparse : Streamer.parseClientID (request.buffer.take request.receivedSize) =
      some s.clientID := by
    show Streamer.parseClientID request.received = _
    rw [hreceived, parseClientID_request]
  have hfound : l.streamer.findSessionByID s.clientID = some player :=
    hknown.referred.toIdentified.findSessionByID hentry
  have hstreamer := hknown.onHTTPData_streamer hsession
    (request.buffer.take request.receivedSize)
  simp only [hparse, hfound] at hstreamer
  obtain ⟨hcreate, hcreated⟩ := sessionOf_create hl hreads hsession s.clientID
    request (l.streamer.onHTTPData connection (request.buffer.take request.receivedSize)).1
  obtain ⟨hafter, hsame⟩ := call_onRequest hcreate hcreated request.buffer request.finish
  have hstarted := newSession_justStarted connection s.clientID request.mime request.version
    request.header l
  rw [onHTTPData_found hsession hparse hfound]
  refine ⟨⟨_, hafter, ?_⟩, ?_, ?_⟩
  · rw [StreamingSession.onRequest_accepted (take_eq_get hreceived)]
    exact hstarted.running
  · rw [Streamer.referenceOf, hsame]
    show ((l.streamer.onHTTPData connection _).1.commandSessions.lookup player).bind _ = _
    rw [hstreamer]
    show ((Streamer.applyToSession l.streamer.commandSessions player _).lookup player).bind _ = _
    rw [lookup_applyToSession, hplayer]
    rfl
  · rw [hsame]
    show ∀ e ∈ (l.streamer.onHTTPData connection _).1.commandSessions, _
    rw [hstreamer]
    exact hknown.alone hsession

/-- **A text in several pieces** leaves no session that runs: those after the first do not begin
with `GET`. -/
theorem refused_pieces (h : Correlated l) {connection player : ℕ} {s : CommandSession}
    (hreads : l.server.reads connection = true) (hsession : l.sessionOf connection = none)
    (hplayer : l.streamer.commandSessions.lookup player = some s) {first second : Request}
    {rest : List Request} (hcuts : Cuts (first :: second :: rest) s.startHeader) :
    Refused connection (l.deliver connection (first :: second :: rest)) := by
  obtain ⟨hl, closed, hknown, -⟩ := h
  have hnumeral : s.clientID = octets (Nat.toDigits 10 s.address) :=
    hknown.referred.numerals _ (Streamer.mem_of_lookup hplayer)
  have hjoined := hcuts.joined
  rw [startHeader_numeral hnumeral, List.flatMap_cons] at hjoined
  have hget : ∀ r ∈ second :: rest, r.buffer.take 3 ≠ StreamingSession.get := by
    intro r hr
    refine take_ne_get (hcuts.nonempty r (List.mem_cons_of_mem first hr)) fun b hb => ?_
    refine tail_ne_G (n := s.address) ?_
    rw [← hjoined, List.tail_append_of_ne_nil (hcuts.nonempty first List.mem_cons_self)]
    exact List.mem_append_right _ (List.mem_flatMap.mpr ⟨r, hr, hb⟩)
  have hnone : Idle connection l := by
    intro entry hentry
    rw [hsession] at hentry
    cases hentry
  have hl₁ := coordinated_onHTTPData hl hreads first
  have hreads₁ := (onHTTPData_evolves hl connection first).reads _ List.not_mem_nil hreads
  have hidle₁ := (onHTTPData_sessionOf hl hreads hnone first).1
  rw [List.forall_mem_cons] at hget
  exact refused_deliver rest (coordinated_onHTTPData hl₁ hreads₁ second)
    ((onHTTPData_evolves hl₁ connection second).reads _ List.not_mem_nil hreads₁)
    ((onHTTPData_sessionOf hl₁ hreads₁ hidle₁ second).2 hget.1) hget.2

/-- **When a text opens the HTTP session of its player.**  In every run, and for every player and
every way to cut the text of its `STRM` Start command, sending the text on a connection without
an HTTP session leaves a session that runs and is that of this player only, if and only if the
text comes in one piece. -/
theorem streams_iff (n streamingPort : ℕ) (format : FormatSelection) (gain : Option ℕ)
    (now : Timestamp) (es : List Event)
    (hes : system.Admits (started n (Streamer.create streamingPort format gain now)) es)
    {connection player : ℕ} {s : CommandSession} {requests : List Request}
    (hreads : (system.exec (started n (Streamer.create streamingPort format gain now))
      es).server.reads connection = true)
    (hsession : (system.exec (started n (Streamer.create streamingPort format gain now))
      es).sessionOf connection = none)
    (hplayer : (system.exec (started n (Streamer.create streamingPort format gain now))
      es).streamer.commandSessions.lookup player = some s)
    (hcuts : Cuts requests s.startHeader) :
    Streams connection player
        ((system.exec (started n (Streamer.create streamingPort format gain now)) es).deliver
          connection requests) ↔
      requests.length = 1 := by
  have h := correlated_exec n streamingPort format gain now es hes
  have hnumeral : s.clientID = octets (Nat.toDigits 10 s.address) := by
    obtain ⟨closed, hknown, -⟩ := h.known
    exact hknown.referred.numerals _ (Streamer.mem_of_lookup hplayer)
  rcases requests with _ | ⟨first, _ | ⟨second, rest⟩⟩
  · -- the text is not empty
    have hjoined := hcuts.joined
    rw [startHeader_numeral hnumeral] at hjoined
    cases hjoined
  · have hreceived := hcuts.joined
    rw [List.flatMap_singleton] at hreceived
    exact iff_of_true (streams_whole h hreads hsession hplayer hreceived) rfl
  · refine iff_of_false ?_ (by simp)
    rintro ⟨⟨entry, hentry, hrunning⟩, -, -⟩
    have hrefused := refused_pieces h hreads hsession hplayer hcuts entry hentry
    rw [hrefused.1] at hrunning
    cases hrunning

/-- Player 5 has opened its SlimProto session, and connection 0 is accepted. -/
def opened : List Event :=
  [.streamer (.slimProtoOpen 5 Streamer.quiet), .accepted 0 false]

/-- A read that delivers the given octets. -/
def piece (octets : List UInt8) : Request := ⟨octets, octets.length, "audio/x-wave", "1", [], []⟩

/-- The session of player 5. -/
def openedSession : CommandSession :=
  ((system.exec (started 10 (Streamer.create 9000 .PCM none ⟨0⟩))
    opened).streamer.commandSessions.lookup 5).get (by decide +kernel)

theorem streams_iff_opened :
    Streams 0 5 ((system.exec (started 10 (Streamer.create 9000 .PCM none ⟨0⟩)) opened).deliver 0
        [piece (Server.CommandSTRM.request ++ [49])]) ↔
      [piece (Server.CommandSTRM.request ++ [49])].length = 1 :=
  streams_iff 10 9000 .PCM none ⟨0⟩ opened (by decide +kernel) (by decide +kernel)
    (Option.isNone_iff_eq_none.mp (by decide +kernel))
    (s := openedSession) (Option.some_get _).symm ⟨by decide +kernel, by decide +kernel⟩

/-- **A text that is cut before the identifier** leaves no HTTP session at all. -/
theorem not_streams_cut :
    Cuts [piece Server.CommandSTRM.request, piece [49]] openedSession.startHeader ∧
      ¬ Streams 0 5 ((system.exec (started 10 (Streamer.create 9000 .PCM none ⟨0⟩)) opened).deliver
        0 [piece Server.CommandSTRM.request, piece [49]]) := by
  refine ⟨⟨by decide +kernel, by decide +kernel⟩, ?_⟩
  rintro ⟨⟨entry, hentry, -⟩, -, -⟩
  have hnone : ((system.exec (started 10 (Streamer.create 9000 .PCM none ⟨0⟩)) opened).deliver 0
      [piece Server.CommandSTRM.request, piece [49]]).sessionOf 0 = none :=
    Option.isNone_iff_eq_none.mp (by decide +kernel)
  rw [hnone] at hentry
  cases hentry

end EventLoop

end SlimStreamer
