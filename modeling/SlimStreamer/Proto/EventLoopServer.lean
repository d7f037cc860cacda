import SlimStreamer.Proto.ConnectionLifetime

/-!
# The TCP server under the event loop

To its TCP server a run of the event loop is a run of its own: of the posted handlers it sees
those it has posted itself, and all that the sessions and the Streamer do to it is to stop
connections.

* `tcpLoop` — what the server sees of a state; `Stops` — what a call does to it;
* `step_simulated`, `exec_simulated` — every run is one of `Tcp.Loop`;
* `serves_below_limit` — so the server accepts HTTP connections as long as it is below its limit.
-/

namespace SlimStreamer

namespace EventLoop

open GuardedExecution
open StreamingSession (Call)

variable {l l' : EventLoop}

def Handler.toTcp : Handler → Option Tcp.Handler
  | .tcp handler => some handler
  | _ => none

/-- The handlers of the TCP server. -/
def tcpHandlers (l : EventLoop) : List Tcp.Handler := l.handlers.filterMap Handler.toTcp

def tcpLoop (l : EventLoop) : Tcp.Loop := ⟨l.server, l.tcpHandlers⟩

/-! ### Calls -/

/-- Connections are stopped, and nothing else happens to the server. -/
def Stops (l l' : EventLoop) : Prop :=
  l'.tcpHandlers = l.tcpHandlers ∧ ∃ ids : List ℕ,
    l'.server = ids.foldl (fun s id => s.update id Tcp.Connection.stop) l.server

theorem Stops.of_same (hhandlers : l'.tcpHandlers = l.tcpHandlers)
    (hserver : l'.server = l.server) : Stops l l' :=
  ⟨hhandlers, [], hserver⟩

theorem Stops.refl (l : EventLoop) : Stops l l := Stops.of_same rfl rfl

theorem Stops.trans {l'' : EventLoop} (h : Stops l l') (h' : Stops l' l'') : Stops l l'' := by
  obtain ⟨hhandlers, ids, hserver⟩ := h
  obtain ⟨hhandlers', ids', hserver'⟩ := h'
  refine ⟨hhandlers'.trans hhandlers, ids ++ ids', ?_⟩
  rw [hserver', hserver, List.foldl_append]

theorem submit_stops (entry : HTTPSession) (s : StreamingSession) (l : EventLoop) :
    Stops l (l.submit entry s) := by
  refine ⟨?_, ?_⟩
  · simp [tcpHandlers, submit, Handler.toTcp, List.filterMap_append, List.filterMap_replicate,
      List.filterMap_map, Function.comp_def]
  · have hserver : (l.submit entry s).server = if s.connection.isOpen then l.server
        else l.server.update entry.connection Tcp.Connection.stop := rfl
    rw [hserver]
    split
    · exact ⟨[], rfl⟩
    · exact ⟨[entry.connection], rfl⟩

theorem afterCall_stops (entry : HTTPSession) (c : Call) (l : EventLoop) :
    Stops l (l.afterCall entry c) := by
  have hrecord : Stops l (l.recordConnection entry (c.usesConnection (l.entered entry))) :=
    Stops.of_same rfl rfl
  exact hrecord.trans (submit_stops entry (c.run (l.entered entry)) _)

theorem invoke_stops (l : EventLoop) (callback : Callback) : Stops l (l.invoke callback) := by
  cases callback with
  | none => exact Stops.refl l
  | some connection =>
    rw [invoke]
    split <;> exact Stops.of_same rfl rfl

theorem call_stops (address : ℕ) (c : Call) (l : EventLoop) : Stops l (l.call address c) := by
  cases hentry : l.sessionAt address with
  | none =>
    rw [call_of_none hentry]
    exact Stops.refl l
  | some entry =>
    rw [call_of_some hentry]
    exact List.foldlRecOn _ _ (afterCall_stops entry c l)
      fun l' h callback _ => h.trans (invoke_stops l' callback)

theorem onHTTPData_stops (connection : ℕ) (request : Request) (l : EventLoop) :
    Stops l (l.onHTTPData connection request) := by
  rw [onHTTPData]
  split
  · exact call_stops _ _ l
  · dsimp only
    split
    · exact Stops.of_same rfl rfl
    · rename_i clientID _
      have hcreate : ∀ entry : HTTPSession, Stops l ({ l with streamer := (l.streamer.onHTTPData
          connection (request.buffer.take request.receivedSize)).1 }.create entry) := by
        intro entry
        exact submit_stops entry entry.session l
      split
      · exact (hcreate _).trans ⟨rfl, [connection], rfl⟩
      · exact (hcreate _).trans (call_stops _ _ _)

theorem onHTTPClose_stops (connection : ℕ) (finish : List (List UInt8)) (l : EventLoop) :
    Stops l (l.onHTTPClose connection finish) := by
  rw [onHTTPClose]
  split
  · exact Stops.refl l
  · exact call_stops _ _ { l with streamer := l.streamer.onHTTPClose connection }

theorem stop_stops (environment : Environment) (finish : ℕ → List (List UInt8)) (l : EventLoop) :
    Stops l (l.stop environment finish) := by
  refine stop_keeps (P := Stops l) ?_ environment (Stops.of_same rfl rfl)
  intro l' entry h
  exact h.trans (call_stops entry.address (.stop none (finish entry.address)) l')

/-! ### The steps -/

/-- No accept fails, no removal finds the limit reached and no acceptor, and the server is not
stopped. -/
def Serves (l : EventLoop) : Event → Prop
  | .accepted _ error => error = false
  | .handler => l.removedNext.isSome = true → ¬ l.server.Full
  | .stopServer => False
  | _ => True

instance (l : EventLoop) : DecidablePred (Serves l)
  | .accepted _ error => inferInstanceAs (Decidable (error = false))
  | .handler => inferInstanceAs (Decidable (l.removedNext.isSome = true → ¬ l.server.Full))
  | .stopServer => isFalse id
  | .received _ _ | .closed _ _ | .streamer _ | .chunk _ _ _ _ | .stop _ _ | .timer _
  | .written _ _ => isTrue trivial

/-- Stopping connections is a run of the server. -/
theorem admits_stops (ids : List ℕ) (t : Tcp.Loop) :
    (Tcp.Loop.system.restrict Tcp.Loop.Sound).Admits t (ids.map .stopConnection) ∧
      (Tcp.Loop.system.restrict Tcp.Loop.Sound).exec t (ids.map .stopConnection) =
        ⟨ids.foldl (fun s id => s.update id Tcp.Connection.stop) t.server, t.handlers⟩ := by
  induction ids generalizing t with
  | nil => exact ⟨trivial, rfl⟩
  | cons id ids ih =>
    obtain ⟨hadmits, hexec⟩ := ih (t.step (.stopConnection id))
    refine ⟨⟨⟨⟨trivial, ?_⟩, trivial⟩, hadmits⟩, hexec⟩
    intro hstop
    exact Tcp.Event.noConfusion hstop

/-- The server sees a state of its own loop. -/
def Matches (l : EventLoop) (t : Tcp.Loop) : Prop := t = l.tcpLoop

theorem matches_stops {t : Tcp.Loop} (h : Matches l t) (hstops : Stops l l') :
    ∃ fs, (Tcp.Loop.system.restrict Tcp.Loop.Sound).Admits t fs ∧
      Matches l' ((Tcp.Loop.system.restrict Tcp.Loop.Sound).exec t fs) := by
  obtain ⟨hhandlers, ids, hserver⟩ := hstops
  obtain ⟨hadmits, hexec⟩ := admits_stops ids t
  refine ⟨ids.map .stopConnection, hadmits, ?_⟩
  rw [hexec, Matches, tcpLoop, hhandlers, hserver, h]
  rfl

/-- An event of the server itself, and calls after it. -/
theorem matches_event {t : Tcp.Loop} {e : Tcp.Event} {l₁ : EventLoop}
    (henabled : (Tcp.Loop.system.restrict Tcp.Loop.Sound).enabled t e)
    (hstep : Matches l₁ (t.step e)) (hstops : Stops l₁ l') :
    ∃ fs, (Tcp.Loop.system.restrict Tcp.Loop.Sound).Admits t fs ∧
      Matches l' ((Tcp.Loop.system.restrict Tcp.Loop.Sound).exec t fs) := by
  obtain ⟨fs, hadmits, hexec⟩ := matches_stops hstep hstops
  exact ⟨e :: fs, ⟨henabled, hadmits⟩, hexec⟩

theorem post_tcpHandlers (l : EventLoop) (handler : Tcp.Handler) :
    (l.post [.tcp handler]).tcpHandlers = l.tcpHandlers ++ [handler] := by
  simp [tcpHandlers, post, Handler.toTcp]

theorem post_tcpLoop (l : EventLoop) (handler : Tcp.Handler) :
    (l.post [.tcp handler]).tcpLoop = ⟨l.server, l.tcpHandlers ++ [handler]⟩ := by
  rw [tcpLoop, post_tcpHandlers]
  rfl

/-- A handler that is not the server's own leaves its queue alone. -/
theorem next_tcpHandlers {handler : Handler} {rest : List Handler}
    (hhandlers : l.handlers = handler :: rest) (hother : handler.toTcp = none) :
    { l with handlers := rest }.tcpHandlers = l.tcpHandlers := by
  show rest.filterMap Handler.toTcp = l.handlers.filterMap Handler.toTcp
  rw [hhandlers, List.filterMap_cons_none hother]

theorem handler_simulated {t : Tcp.Loop} (h : Matches l t) (hserves : l.Serves .handler)
    (henabled : l.handlers ≠ []) :
    ∃ fs, (Tcp.Loop.system.restrict Tcp.Loop.Sound).Admits t fs ∧
      Matches l.runHandler ((Tcp.Loop.system.restrict Tcp.Loop.Sound).exec t fs) := by
  obtain rfl : t = l.tcpLoop := h
  rw [runHandler]
  split
  · rename_i hnone
    exact absurd hnone henabled
  · rename_i handler rest hhandlers
    cases handler with
    | tcp handler =>
      have hseen : l.tcpLoop.handlers = handler :: rest.filterMap Handler.toTcp := by
        simp [tcpLoop, tcpHandlers, hhandlers, Handler.toTcp]
      have hposted : l.tcpLoop.handlers ≠ [] := by
        rw [hseen]
        exact List.cons_ne_nil _ _
      have hrun : (Tcp.Loop.system.restrict Tcp.Loop.Sound).enabled l.tcpLoop .handler := by
        refine ⟨⟨hposted, fun hstop => Tcp.Event.noConfusion hstop⟩, ?_⟩
        intro hremoves
        refine hserves ?_
        rw [Tcp.Loop.removesNext, hseen] at hremoves
        rw [removedNext, hhandlers]
        cases handler with
        | onStop connection => exact Bool.noConfusion hremoves
        | removal connection => rfl
      cases handler with
      | onStop connection =>
        have hstep : Matches ({ l with handlers := rest }.post [.tcp (.removal connection)])
            (l.tcpLoop.step .handler) := by
          rw [Matches, post_tcpLoop, Tcp.Loop.step, Tcp.Loop.runHandler, hseen]
          rfl
        exact matches_event hrun hstep (Stops.refl _)
      | removal connection =>
        refine matches_event hrun ?_ (Stops.refl _)
        rw [Matches, Tcp.Loop.step, Tcp.Loop.runHandler, hseen]
        rfl
    | transferTask session =>
      have hnext : Stops l ({ l with handlers := rest }.enterSession session) :=
        Stops.of_same (next_tcpHandlers hhandlers rfl) rfl
      exact matches_stops rfl (hnext.trans (call_stops _ _ _))
    | callback callback =>
      have hnext : Stops l { l with handlers := rest } :=
        Stops.of_same (next_tcpHandlers hhandlers rfl) rfl
      exact matches_stops rfl (hnext.trans (invoke_stops _ callback))

/-- **Every event is a run of the server's own loop.** -/
theorem step_simulated (l : EventLoop) (t : Tcp.Loop) (e : Event) (h : Matches l t)
    (henabled : (system.restrict Serves).enabled l e) :
    ∃ fs, (Tcp.Loop.system.restrict Tcp.Loop.Sound).Admits t fs ∧
      Matches (l.step e) ((Tcp.Loop.system.restrict Tcp.Loop.Sound).exec t fs) := by
  obtain ⟨henabled, hserves⟩ := henabled
  cases e with
  | accepted connection error =>
    obtain rfl : error = false := hserves
    obtain rfl : t = l.tcpLoop := h
    refine matches_event (e := .accepted connection false)
      ⟨⟨henabled, fun hstop => Tcp.Event.noConfusion hstop⟩, rfl⟩ ?_ (Stops.refl _)
    simp [Matches, tcpLoop, tcpHandlers, step, post, Tcp.Loop.step]
  | received connection request => exact matches_stops h (onHTTPData_stops connection request l)
  | closed connection finish =>
    obtain rfl : t = l.tcpLoop := h
    have hclosed : Stops ({ l with server := l.server.update connection Tcp.Connection.onClose }.post
        [.tcp (.onStop connection)]) (l.step (.closed connection finish)) := by
      obtain ⟨hhandlers, ids, hserver⟩ := onHTTPClose_stops connection finish
        { l with server := l.server.update connection Tcp.Connection.onClose }
      refine ⟨?_, ids, hserver⟩
      rw [step, post_tcpHandlers, post_tcpHandlers, hhandlers]
    refine matches_event (e := .closed connection)
      ⟨⟨henabled, fun hstop => Tcp.Event.noConfusion hstop⟩, trivial⟩ ?_ hclosed
    rw [Matches, post_tcpLoop]
    rfl
  | stopServer => exact absurd hserves not_false
  | streamer stimulus => exact matches_stops h (Stops.of_same rfl rfl)
  | chunk session chunk output finish => exact matches_stops h (call_stops _ _ l)
  | stop environment finish => exact matches_stops h (stop_stops environment finish l)
  | handler => exact handler_simulated h hserves henabled
  | timer timer =>
    exact matches_stops h ((Stops.of_same rfl rfl).trans (call_stops _ _ _))
  | written write completion =>
    exact matches_stops h ((Stops.of_same rfl rfl).trans (call_stops _ _ _))

/-- **Every run of the event loop is a run of its TCP server.** -/
theorem exec_simulated (n : ℕ) (streamer : Streamer) (es : List Event)
    (hadmits : (system.restrict Serves).Admits (started n streamer) es) :
    ∃ fs, (Tcp.Loop.system.restrict Tcp.Loop.Sound).Admits (Tcp.Loop.started n) fs ∧
      Tcp.Loop.system.exec (Tcp.Loop.started n) fs =
        (system.exec (started n streamer) es).tcpLoop := by
  obtain ⟨fs, hfs, hmatches⟩ := (system.restrict Serves).exec_simulation
    (Tcp.Loop.system.restrict Tcp.Loop.Sound) Matches
    (fun l t e h he => step_simulated l t e h he) es (started n streamer) (Tcp.Loop.started n) rfl
    hadmits
  rw [System.restrict_exec, System.restrict_exec] at hmatches
  exact ⟨fs, hfs, hmatches⟩

/-- **The server accepts HTTP connections as long as it is below its limit.** -/
theorem serves_below_limit {n : ℕ} (hn : 1 ≤ n) (streamer : Streamer) (es : List Event)
    (hadmits : (system.restrict Serves).Admits (started n streamer) es) :
    (system.exec (started n streamer) es).server.foundTotal ≤ n ∧
      ((system.exec (started n streamer) es).tcpHandlers = [] →
        (system.exec (started n streamer) es).server.AcceptsOne ∨
          (system.exec (started n streamer) es).server.foundTotal = n ∧
            (system.exec (started n streamer) es).server.acceptorPtr = none) := by
  obtain ⟨fs, hfs, hexec⟩ := exec_simulated n streamer es hadmits
  obtain ⟨hserving, hlimit⟩ := Tcp.Loop.serving_exec hn fs hfs
  rw [hexec] at hserving hlimit
  exact hserving.accepts hlimit

theorem serves_below_limit_removedAfterFlush :
    ((system.exec (started 5 waveStreamer) removedAfterFlush).server.foundTotal ≤ 5 ∧
      ((system.exec (started 5 waveStreamer) removedAfterFlush).tcpHandlers = [] →
        (system.exec (started 5 waveStreamer) removedAfterFlush).server.AcceptsOne ∨
          (system.exec (started 5 waveStreamer) removedAfterFlush).server.foundTotal = 5 ∧
            (system.exec (started 5 waveStreamer) removedAfterFlush).server.acceptorPtr = none)) ∧
      (system.exec (started 5 waveStreamer) removedAfterFlush).server.foundTotal = 0 ∧
      (system.exec (started 5 waveStreamer) removedAfterFlush).tcpHandlers = [] :=
  ⟨serves_below_limit (by decide) waveStreamer removedAfterFlush (by decide +kernel),
    by decide +kernel⟩

end EventLoop

end SlimStreamer
