import SlimStreamer.Proto.EventLoop
import SlimStreamer.Proto.GracefulStop

/-!
# Runs of the event loop

What a call to an HTTP session can do, and what holds between the sessions and their handlers,
timers and writes in every state the event loop reaches.

* `Effect`, `run_effect` — all that a call does to the control state of a session, and all that
  it submits;
* `Coordinated` — the invariant; `coordinated_call` — each call keeps it;
* `coordinated_step` — so do the steps.
-/

namespace SlimStreamer

open GuardedExecution KeyedList

/-! ### What a call does -/

namespace StreamingSession

/-- A session that does not run has nothing to transfer, and its encoder is stopped. -/
structure Coherent (s : StreamingSession) : Prop where
  encoder : s.running = false → s.encoder.running = false
  idle : s.running = false → s.transferring = false
  empty : s.running = false → s.transferBufferQueue = []

/-- The event loop has taken over what was submitted. -/
structure Entered (s : StreamingSession) : Prop where
  transferTasks : s.transferTasks = 0
  flushTimers : s.flushTimers = []
  postedCallbacks : s.postedCallbacks = []
  finishedCallbacks : s.finishedCallbacks = []
  writes : s.connection.writes = []

theorem enter_entered (isOpen : Bool) (s : StreamingSession) : Entered (s.enter isOpen) :=
  ⟨rfl, rfl, rfl, rfl, rfl⟩

theorem Coherent.enter {s : StreamingSession} (h : Coherent s) (isOpen : Bool) :
    Coherent (s.enter isOpen) :=
  ⟨h.encoder, h.idle, h.empty⟩

namespace Call

/-- The callback a call carries. -/
def callback : Call → Callback
  | stop callback _ => callback
  | flush callback => callback
  | _ => none

/-- The number of writes a call completes. -/
def completes : Call → ℕ
  | completed _ _ => 1
  | _ => 0

/-- The call is to stop the session. -/
def isStop : Call → Bool
  | stop _ _ => true
  | flush _ => true
  | _ => false

/-- A write is completed while the session transfers, and a flush timer runs out when the
encoder has been stopped. -/
def Allowed : Call → StreamingSession → Prop
  | completed _ _, s => s.transferring = true
  | flush _, s => s.encoder.running = false
  | _, _ => True

/-- The call carries no callback and completes no write. -/
def IsPlain : Call → Prop
  | consumeChunk _ _ _ => True
  | onRequest _ _ => True
  | stop callback _ => callback = none
  | transferTask => True
  | _ => False

theorem IsPlain.spec {c : Call} (h : c.IsPlain) :
    c.callback = none ∧ c.completes = 0 ∧ ∀ s, c.Allowed s := by
  cases c with
  | consumeChunk chunk output finish => exact ⟨rfl, rfl, fun _ => trivial⟩
  | onRequest buffer finish => exact ⟨rfl, rfl, fun _ => trivial⟩
  | stop callback finish => exact ⟨h, rfl, fun _ => trivial⟩
  | transferTask => exact ⟨rfl, rfl, fun _ => trivial⟩
  | completed write completion => exact absurd h not_false
  | flush callback => exact absurd h not_false

end Call

/-- **What a call does**: a session never starts again; it submits tasks only while it runs;
it starts a flush timer or posts its callback only when its encoder is stopped. -/
structure Effect (c : Call) (s s' : StreamingSession) : Prop where
  coherent : Coherent s'
  running : s'.running = true → s.running = true
  encoder : s'.encoder.running = true → s.encoder.running = true
  tasks : s.running = false → s'.transferTasks = 0
  writes : s'.connection.writes.length + s.transferring.toNat =
    s'.transferring.toNat + c.completes
  timers : s'.flushTimers = [] ∨
    s'.flushTimers = [c.callback] ∧ s'.encoder.running = false ∧ s.running = true
  posted : s'.postedCallbacks = [] ∨ s'.postedCallbacks = [c.callback] ∧ s'.running = false
  finished : s'.finishedCallbacks = [] ∨ s'.finishedCallbacks = [c.callback] ∧
    s.running = false ∧ ∃ callback finish, c = .stop callback finish
  stops : c.isStop = true → s'.running = false ∨ s'.flushTimers ≠ []

/-- A session that has stopped stays so. -/
theorem Effect.stopped {c : Call} {s s' : StreamingSession} (h : Effect c s s')
    (hs : s.running = false) : s'.running = false := by
  rw [Bool.eq_false_iff]
  intro htrue
  exact Bool.noConfusion (hs.symm.trans (h.running htrue))

/-- So does its encoder. -/
theorem Effect.encoderStopped {c : Call} {s s' : StreamingSession} (h : Effect c s s')
    (hs : s.encoder.running = false) : s'.encoder.running = false := by
  rw [Bool.eq_false_iff]
  intro htrue
  exact Bool.noConfusion (hs.symm.trans (h.encoder htrue))

section Effects

variable {s : StreamingSession}

/-- A call that does nothing. -/
theorem effect_none {c : Call} (hs : Entered s) (hc : Coherent s) (hcompletes : c.completes = 0)
    (hstop : c.isStop = true → s.running = false) : Effect c s s where
  coherent := hc
  running h := h
  encoder h := h
  tasks _ := hs.transferTasks
  writes := by
    rw [hs.writes, hcompletes, List.length_nil, Nat.zero_add, Nat.add_zero]
  timers := Or.inl hs.flushTimers
  posted := Or.inl hs.postedCallbacks
  finished := Or.inl hs.finishedCallbacks
  stops h := Or.inl (hstop h)

/-- Flushing a session whose encoder has been stopped, and may have submitted tasks. -/
theorem effect_flush {c : Call} {s₁ : StreamingSession} (hc : Coherent s)
    (hcompletes : c.completes = 0) (hrunning : s₁.running = s.running)
    (hencoder : s₁.encoder.running = false) (htransferring : s₁.transferring = s.transferring)
    (htasks : s.running = false → s₁.transferTasks = 0) (htimers : s₁.flushTimers = [])
    (hposted : s₁.postedCallbacks = []) (hfinished : s₁.finishedCallbacks = [])
    (hwrites : s₁.connection.writes = []) : Effect c s (s₁.flush c.callback) := by
  cases ht : s₁.transferring with
  | true =>
    have hr : s.running = true := by
      by_contra hr
      rw [Bool.not_eq_true] at hr
      exact Bool.noConfusion ((hc.idle hr).symm.trans (htransferring.symm.trans ht))
    have hr₁ : s₁.running = true := hrunning.trans hr
    rw [flush_of_transferring ht]
    refine ⟨⟨?_, ?_, ?_⟩, ?_, ?_, htasks, ?_, Or.inr ⟨?_, hencoder, hr⟩,
      Or.inl hposted,
      Or.inl hfinished, ?_⟩
    · intro _
      exact hencoder
    · intro hfalse
      exact Bool.noConfusion (hr₁.symm.trans hfalse)
    · intro hfalse
      exact Bool.noConfusion (hr₁.symm.trans hfalse)
    · intro _
      exact hr
    · intro htrue
      exact Bool.noConfusion (hencoder.symm.trans htrue)
    · show s₁.connection.writes.length + _ = s₁.transferring.toNat + _
      rw [hwrites, htransferring, hcompletes, List.length_nil, Nat.zero_add, Nat.add_zero]
    · show s₁.flushTimers ++ [c.callback] = _
      rw [htimers, List.nil_append]
    · intro _
      right
      show s₁.flushTimers ++ [c.callback] ≠ []
      simp
  | false =>
    rw [flush_of_idle ht]
    refine ⟨⟨?_, ?_, ?_⟩, ?_, ?_, htasks, ?_, Or.inl htimers, Or.inr ⟨?_, rfl⟩,
      Or.inl hfinished, ?_⟩
    · intro _
      exact hencoder
    · intro _
      exact ht
    · intro _
      rfl
    · intro htrue
      exact Bool.noConfusion htrue
    · intro htrue
      exact Bool.noConfusion (hencoder.symm.trans htrue)
    · show s₁.connection.writes.length + _ = s₁.transferring.toNat + _
      rw [hwrites, htransferring, hcompletes, List.length_nil, Nat.zero_add, Nat.add_zero]
    · show s₁.postedCallbacks ++ [c.callback] = _
      rw [hposted, List.nil_append]
    · intro _
      exact Or.inl rfl

/-- Stopping a session that runs. -/
theorem effect_stop {c : Call} (hs : Entered s) (hc : Coherent s) (hr : s.running = true)
    (hcompletes : c.completes = 0) (finish : List (List UInt8)) :
    Effect c s (s.stop c.callback finish) := by
  obtain ⟨chunks, octets, s₁, h, hstop, -⟩ := encoderStop_spec finish s
  obtain ⟨pool, rfl⟩ : ∃ pool, s₁ = s.withChunks pool chunks octets := ⟨_, h.rest⟩
  rw [stop, if_pos hr, hstop]
  refine effect_flush hc hcompletes rfl rfl rfl ?_ hs.flushTimers hs.postedCallbacks
    hs.finishedCallbacks hs.writes
  intro hfalse
  exact Bool.noConfusion (hr.symm.trans hfalse)

/-- Encoding a chunk. -/
theorem effect_encodeChunk {c : Call} (hs : Entered s) (hr : s.running = true)
    (hcompletes : c.completes = 0) (hstop : c.isStop = false) (chunk : Chunk)
    (output : List (List UInt8)) : Effect c s (s.encodeChunk chunk output) := by
  obtain ⟨chunks, octets, h⟩ := encode_spec chunk.payload output s
  obtain ⟨pool, hencode⟩ : ∃ pool, s.encode chunk.payload output =
    s.withChunks pool chunks octets := ⟨_, h.rest⟩
  rw [encodeChunk, hencode]
  have hfalse {p : Prop} (h : s.running = false) : p := Bool.noConfusion (hr.symm.trans h)
  refine ⟨⟨hfalse, hfalse, hfalse⟩, ?_, ?_, hfalse, ?_, Or.inl hs.flushTimers,
    Or.inl hs.postedCallbacks, Or.inl hs.finishedCallbacks, ?_⟩
  · intro h
    exact h
  · intro h
    exact h
  · show s.connection.writes.length + _ = s.transferring.toNat + _
    rw [hs.writes, hcompletes, List.length_nil, Nat.zero_add, Nat.add_zero]
  · intro htrue
    exact Bool.noConfusion (hstop.symm.trans htrue)

/-- The completion handler changes the pool and the queue, and submits a task. -/
theorem complete_eq (write : Write) (completion : Completion) (s : StreamingSession) :
    ∃ octets pool queue, s.complete write completion = s.afterWrite octets pool queue := by
  rw [complete, onCompletion]
  have hexit : ∀ octets, ∃ pool queue, (s.transfer octets).onExit true =
      s.afterWrite octets pool queue := by
    intro octets
    obtain ⟨pool, queue, hpop⟩ : ∃ pool queue, (s.transfer octets).pop =
        { s.transfer octets with
          bufferPool := pool
          transferBufferQueue := queue } := by
      rw [pop]
      split <;> exact ⟨_, _, rfl⟩
    rw [onExit, if_pos rfl, hpop]
    exact ⟨pool, queue, rfl⟩
  by_cases herror : completion.error = true
  · rw [if_pos herror]
    exact ⟨_, hexit _⟩
  · rw [if_neg herror]
    cases (s.transfer (octetsOf s.bufferPool write completion.sizeTransferred)).transferBufferQueue
      with
    | nil => exact ⟨_, hexit _⟩
    | cons chunk rest =>
      dsimp only
      split
      · exact ⟨_, s.bufferPool, _, rfl⟩
      · exact ⟨_, hexit _⟩

/-- The state after a completion handler: no transfer is going on, and a task is submitted. -/
theorem effect_afterWrite {c : Call} (hs : Entered s) (hr : s.running = true)
    (hstop : c.isStop = false) (hcompletes : c.completes = s.transferring.toNat)
    {s₁ : StreamingSession} (h₁ : s₁ = s ∨ s₁ = s.setTransferring true) (octets : List UInt8)
    (pool : BufferPool UInt8 bufferSize) (queue : List TransferDataChunk) :
    Effect c s (s₁.afterWrite octets pool queue) := by
  have hfalse {p : Prop} (h : s.running = false) : p := Bool.noConfusion (hr.symm.trans h)
  have hno {p : Prop} (h : c.isStop = true) : p := Bool.noConfusion (hstop.symm.trans h)
  have hwrites : s.connection.writes.length + s.transferring.toNat = false.toNat + c.completes := by
    rw [hs.writes, hcompletes]
    rfl
  rcases h₁ with rfl | rfl
  · exact ⟨⟨hfalse, hfalse, hfalse⟩, fun h => h, fun h => h, hfalse, hwrites,
      Or.inl hs.flushTimers, Or.inl hs.postedCallbacks, Or.inl hs.finishedCallbacks, hno⟩
  · exact ⟨⟨hfalse, hfalse, hfalse⟩, fun h => h, fun h => h, hfalse, hwrites,
      Or.inl hs.flushTimers, Or.inl hs.postedCallbacks, Or.inl hs.finishedCallbacks, hno⟩

/-- A posted `transferTask`. -/
theorem effect_transferTask (hs : Entered s) (hc : Coherent s) (reply : Option Completion) :
    Effect .transferTask s (s.transferTask reply) := by
  cases hq : s.transferBufferQueue with
  | nil =>
    rw [transferTask_of_nil hq]
    exact effect_none hs hc rfl Bool.noConfusion
  | cons chunk rest =>
    have hr : s.running = true := by
      by_contra hr
      rw [Bool.not_eq_true] at hr
      exact List.cons_ne_nil chunk rest (hq.symm.trans (hc.empty hr))
    cases ht : s.transferring with
    | true =>
      rw [transferTask_of_transferring ht]
      exact effect_none hs hc rfl Bool.noConfusion
    | false =>
      rw [transferTask_of_cons hq ht]
      cases reply with
      | none =>
        have hfalse {p : Prop} (h : s.running = false) : p := Bool.noConfusion (hr.symm.trans h)
        refine ⟨⟨hfalse, hfalse, hfalse⟩, fun h => h, fun h => h, hfalse, ?_,
          Or.inl hs.flushTimers, Or.inl hs.postedCallbacks, Or.inl hs.finishedCallbacks,
          Bool.noConfusion⟩
        show (s.connection.writes ++ [_]).length + s.transferring.toNat = true.toNat + 0
        rw [hs.writes, ht]
        rfl
      | some completion =>
        obtain ⟨octets, pool, queue, heq⟩ :=
          complete_eq (frontWrite chunk) completion (s.setTransferring true)
        dsimp only
        rw [heq]
        exact effect_afterWrite hs hr rfl (by rw [ht]; rfl) (Or.inr rfl) octets pool queue

/-- **All that a call does.** -/
theorem run_effect (c : Call) (hs : Entered s) (hc : Coherent s) (hallowed : c.Allowed s) :
    Effect c s (c.run s) := by
  cases c with
  | consumeChunk chunk output finish =>
    by_cases hr : s.running = true
    · rw [Call.run]
      rcases consumeChunk_cases chunk output finish s with
        ⟨-, heq | heq⟩ | ⟨-, -, heq | heq⟩
      · rw [heq]
        exact effect_none hs hc rfl Bool.noConfusion
      · rw [heq]
        exact effect_encodeChunk hs hr rfl rfl chunk output
      · rw [heq]
        exact effect_stop hs hc hr rfl finish
      · have hencode := encode_of_stopped (stop_encoder hr none finish) chunk.payload output
        rw [heq, encodeChunk, hencode]
        obtain ⟨⟨h₁, h₂, h₃⟩, h₄, h₅, h₆, h₇, h₈, h₉, h₁₀, -⟩ :=
          effect_stop (c := .consumeChunk chunk output finish) hs hc hr rfl finish
        exact ⟨⟨h₁, h₂, h₃⟩, h₄, h₅, h₆, h₇, h₈, h₉, h₁₀, Bool.noConfusion⟩
    · have heq : Call.run (.consumeChunk chunk output finish) s = s := by
        rw [Call.run, StreamingSession.consumeChunk, if_neg hr]
      rw [heq]
      exact effect_none hs hc rfl Bool.noConfusion
  | onRequest buffer finish =>
    rw [Call.run]
    rcases onRequest_cases buffer finish s with ⟨-, heq⟩ | ⟨hr, -, heq⟩
    · rw [heq]
      exact effect_none hs hc rfl Bool.noConfusion
    · rw [heq]
      exact effect_stop hs hc hr rfl finish
  | stop callback finish =>
    by_cases hr : s.running = true
    · exact effect_stop (c := .stop callback finish) hs hc hr rfl finish
    · rw [Call.run, StreamingSession.stop, if_neg hr]
      rw [Bool.not_eq_true] at hr
      obtain ⟨h₁, h₂, h₃, h₄, h₅, h₆, h₇, -, h₉⟩ :=
        effect_none (c := .stop callback finish) hs hc rfl (fun _ => hr)
      refine ⟨⟨h₁.encoder, h₁.idle, h₁.empty⟩, h₂, h₃, h₄, h₅, h₆, h₇,
        Or.inr ⟨?_, hr, callback, finish, rfl⟩, h₉⟩
      show s.finishedCallbacks ++ [callback] = _
      rw [hs.finishedCallbacks]
      rfl
  | transferTask => exact effect_transferTask hs hc _
  | completed write completion =>
    have hr : s.running = true := by
      by_contra hr
      rw [Bool.not_eq_true] at hr
      exact Bool.noConfusion ((hc.idle hr).symm.trans hallowed)
    obtain ⟨octets, pool, queue, heq⟩ := complete_eq write completion s
    have htransferring : s.transferring = true := hallowed
    rw [Call.run, heq]
    exact effect_afterWrite hs hr rfl (by rw [htransferring]; rfl) (Or.inl rfl) octets pool queue
  | flush callback =>
    exact effect_flush (c := .flush callback) hc rfl rfl hallowed rfl (fun _ => hs.transferTasks)
      hs.flushTimers hs.postedCallbacks hs.finishedCallbacks hs.writes

end Effects

/-- A session that does not run leaves its connection alone, unless a flush timer runs out. -/
theorem usesConnection_of_stopped {s : StreamingSession} (hc : Coherent s) (hr : s.running = false)
    (c : Call) : c.usesConnection s = true → ∃ callback, c = .flush callback := by
  intro huses
  cases c with
  | consumeChunk chunk output finish => simp [Call.usesConnection, stopOutput, hr] at huses
  | onRequest buffer finish => simp [Call.usesConnection, stopOutput, hr] at huses
  | stop callback finish => simp [Call.usesConnection, stopOutput, hr] at huses
  | transferTask => simp [Call.usesConnection, issuesWrite, hc.empty hr] at huses
  | completed write completion => exact Bool.noConfusion huses
  | flush callback => exact ⟨callback, rfl⟩

end StreamingSession

namespace EventLoop

open StreamingSession (Call Coherent Effect)
open Tcp (Server)
open Tcp.Server (Tracked Detached Evolves)

variable {l : EventLoop}

/-! ### The invariant -/

/-- **What holds between events.**  While an event is handled, `completed` are the sessions whose
completed write has not been handed to them, and `untold` are the connections that were closed,
or whose flush timer has run out, before their session is told. -/
structure Coordinated (completed untold : List ℕ) (l : EventLoop) : Prop where
  tracked : Tracked l.server
  detached : ∀ handler, .tcp handler ∈ l.handlers → Detached handler.connection l.server
  addresses : Distinct HTTPSession.address l.sessions
  connections : Distinct HTTPSession.connection l.sessions
  fresh : ∀ e ∈ l.sessions, e.address < l.nextAddress ∧ e.connection < l.server.nextConnection
  ownedTimers : ∀ t ∈ l.timers, t.session < l.nextAddress
  ownedWrites : ∀ w ∈ l.writes, w.session < l.nextAddress
  coherent : ∀ e ∈ l.sessions, Coherent e.session
  /-- A session transfers as long as a write of it is outstanding. -/
  outstanding : ∀ e ∈ l.sessions, l.writes.countP (fun w => w.session == e.address) +
    completed.count e.address = e.session.transferring.toNat
  /-- A flush timer runs for a session whose encoder has been stopped. -/
  flushing : ∀ t ∈ l.timers, ∀ e ∈ l.sessions, t.session = e.address →
    e.session.encoder.running = false ∧ ∀ connection ∈ t.callback, connection = e.connection
  /-- A session is removed after its connection has closed. -/
  removing : ∀ connection, (.callback (some connection) ∈ l.handlers ∨
    ∃ t ∈ l.timers, t.callback = some connection) → Detached connection l.server
  /-- The session of a closed connection has stopped, or waits in a flush. -/
  closing : ∀ e ∈ l.sessions, e.connection ∉ untold → l.server.reads e.connection = false →
    e.session.running = false ∨ ∃ t ∈ l.timers, t.session = e.address

variable {completed untold : List ℕ}

/-- The Streamer and the records do not matter. -/
theorem Coordinated.congr {l' : EventLoop} (h : Coordinated completed untold l)
    (hserver : l'.server = l.server) (hsessions : l'.sessions = l.sessions)
    (hhandlers : l'.handlers = l.handlers) (htimers : l'.timers = l.timers)
    (hwrites : l'.writes = l.writes) (hnext : l'.nextAddress = l.nextAddress) :
    Coordinated completed untold l' := by
  obtain ⟨server, streamer, sessions, handlers, timers, writes, next, uses, uses'⟩ := l'
  obtain rfl : server = l.server := hserver
  obtain rfl : sessions = l.sessions := hsessions
  obtain rfl : handlers = l.handlers := hhandlers
  obtain rfl : timers = l.timers := htimers
  obtain rfl : writes = l.writes := hwrites
  obtain rfl : next = l.nextAddress := hnext
  exact ⟨h.tracked, h.detached, h.addresses, h.connections, h.fresh, h.ownedTimers, h.ownedWrites,
    h.coherent, h.outstanding, h.flushing, h.removing, h.closing⟩

/-- The server moves on. -/
theorem Coordinated.evolve {closed removed : List ℕ} {server : Server}
    (h : Coordinated completed [] l) (hserver : Evolves closed removed l.server server) :
    Coordinated completed closed { l with server := server } where
  tracked := hserver.tracked
  detached handler hhandler := hserver.detached _ (h.detached handler hhandler)
  addresses := h.addresses
  connections := h.connections
  fresh e he := ⟨(h.fresh e he).1, (h.fresh e he).2.trans_le hserver.next⟩
  ownedTimers := h.ownedTimers
  ownedWrites := h.ownedWrites
  coherent := h.coherent
  outstanding := h.outstanding
  flushing := h.flushing
  removing connection hremoving := hserver.detached _ (h.removing connection hremoving)
  closing e he hclosed hreads := by
    exact h.closing e he List.not_mem_nil (hserver.reads_before hclosed hreads)

/-- Handlers of the TCP server are posted, or a handler is taken from the queue. -/
theorem Coordinated.withHandlers {handlers : List Handler} (h : Coordinated completed untold l)
    (htcp : ∀ handler, Handler.tcp handler ∈ handlers →
      .tcp handler ∈ l.handlers ∨ Detached handler.connection l.server)
    (hcallback : ∀ callback, Handler.callback callback ∈ handlers →
      .callback callback ∈ l.handlers) :
    Coordinated completed untold { l with handlers := handlers } :=
  { h with
    detached := fun handler hhandler =>
      (htcp handler hhandler).elim (h.detached handler) fun hdetached => hdetached
    removing := fun connection hremoving =>
      h.removing connection (hremoving.imp_left (hcallback (some connection))) }

/-! ### Calls -/

section Calls

variable {entry : HTTPSession} {c : Call}

theorem Coordinated.effect (h : Coordinated completed untold l) (hentry : entry ∈ l.sessions)
    (hallowed : c.Allowed entry.session) :
    Effect c (l.entered entry) (c.run (l.entered entry)) := by
  refine StreamingSession.run_effect c (StreamingSession.enter_entered _ entry.session)
    ((h.coherent entry hentry).enter _) ?_
  cases c <;> exact hallowed

theorem afterCall_evolves (h : Tracked l.server) (entry : HTTPSession) (c : Call) :
    Evolves [] [] l.server (l.afterCall entry c).server := by
  show Evolves [] [] l.server (if _ then _ else _)
  split
  · exact h.evolves
  · exact h.evolves_stopConnection entry.connection

theorem mem_afterCall_sessions (h : Distinct HTTPSession.address l.sessions)
    (hentry : entry ∈ l.sessions) {e : HTTPSession} : e ∈ (l.afterCall entry c).sessions ↔
      (e ∈ l.sessions ∧ e.address ≠ entry.address) ∨
        e = assign (c.run (l.entered entry)) entry := by
  show e ∈ alter HTTPSession.address _ _ _ ↔ _
  rw [mem_alter]
  refine or_congr_right ⟨?_, ?_⟩
  · rintro ⟨a, ha, haddress, rfl⟩
    rw [h.eq_of_key ha hentry haddress]
  · rintro rfl
    exact ⟨entry, hentry, rfl, rfl⟩

/-- What a call posts: tasks if the session runs, and its callback once it does not. -/
theorem mem_afterCall_handlers (heffect : Effect c (l.entered entry) (c.run (l.entered entry)))
    {handler : Handler} (hhandler : handler ∈ (l.afterCall entry c).handlers) :
    handler ∈ l.handlers ∨ (handler = .transferTask entry.address ∧ entry.session.running = true) ∨
      handler = .callback c.callback ∧ (c.run (l.entered entry)).running = false := by
  rcases List.mem_append.mp hhandler with hhandler | hcallback
  · rcases List.mem_append.mp hhandler with hold | htask
    · exact Or.inl hold
    · refine Or.inr (Or.inl ⟨List.eq_of_mem_replicate htask, ?_⟩)
      by_contra hstopped
      rw [Bool.not_eq_true] at hstopped
      rw [heffect.tasks hstopped] at htask
      cases htask
  · obtain ⟨callback, hmem, rfl⟩ := List.mem_map.mp hcallback
    rcases heffect.posted with hnone | ⟨hone, hstopped⟩
    · rw [hnone] at hmem
      cases hmem
    · rw [hone, List.mem_singleton] at hmem
      rw [hmem]
      exact Or.inr (Or.inr ⟨rfl, hstopped⟩)

/-- The flush timer a call starts. -/
theorem startedTimers_eq (heffect : Effect c (l.entered entry) (c.run (l.entered entry))) :
    startedTimers entry.address entry.timer (c.run (l.entered entry)) = [] ∨
      startedTimers entry.address entry.timer (c.run (l.entered entry)) =
        [⟨entry.address, entry.timer + 1, c.callback⟩] := by
  rw [startedTimers]
  rcases heffect.timers with hnone | ⟨hone, -, -⟩
  · rw [hnone]
    exact Or.inl rfl
  · rw [hone]
    exact Or.inr rfl

theorem mem_afterCall_timers (heffect : Effect c (l.entered entry) (c.run (l.entered entry)))
    {t : FlushTimer} (ht : t ∈ (l.afterCall entry c).timers) : t ∈ l.timers ∨
      (t = ⟨entry.address, entry.timer + 1, c.callback⟩ ∧
        (c.run (l.entered entry)).encoder.running = false ∧ entry.session.running = true) := by
  rcases List.mem_append.mp ht with hold | hnew
  · exact Or.inl hold
  · right
    rw [startedTimers] at hnew
    rcases heffect.timers with hnone | ⟨hone, hencoder, hrunning⟩
    · rw [hnone] at hnew
      cases hnew
    · rw [hone] at hnew
      exact ⟨List.mem_singleton.mp hnew, hencoder, hrunning⟩

theorem countP_afterCall (address : ℕ) (entry : HTTPSession) (c : Call) :
    (l.afterCall entry c).writes.countP (fun w => w.session == address) =
      l.writes.countP (fun w => w.session == address) +
        if entry.address = address then (c.run (l.entered entry)).connection.writes.length else 0 := by
  show (l.writes ++ _).countP _ = _
  rw [List.countP_append, List.countP_map]
  congr 1
  by_cases haddress : entry.address = address
  · rw [if_pos haddress, List.countP_eq_length]
    intro w _
    simp [haddress]
  · rw [if_neg haddress, List.countP_eq_zero]
    intro w _
    simp [haddress]

/-- A session transfers after a call as long as a write of it is outstanding. -/
theorem outstanding_afterCall (h : Coordinated completed untold l) (hentry : entry ∈ l.sessions)
    (hallowed : c.Allowed entry.session)
    (hcompleted : completed = List.replicate c.completes entry.address) :
    ∀ e ∈ (l.afterCall entry c).sessions,
      (l.afterCall entry c).writes.countP (fun w => w.session == e.address) =
        e.session.transferring.toNat := by
  intro e he
  rw [countP_afterCall]
  rcases (mem_afterCall_sessions h.addresses hentry).mp he with ⟨he, hne⟩ | rfl
  · have hcount := h.outstanding e he
    rw [hcompleted, List.count_replicate, if_neg (by simpa using hne.symm)] at hcount
    rw [if_neg hne.symm]
    exact hcount
  · have hcount := h.outstanding entry hentry
    have hwrites : _ + entry.session.transferring.toNat = _ := (h.effect hentry hallowed).writes
    rw [hcompleted, List.count_replicate_self] at hcount
    show _ + (if entry.address = entry.address then _ else 0) =
      (c.run (l.entered entry)).transferring.toNat
    rw [if_pos rfl]
    show l.writes.countP (fun w => w.session == entry.address) + _ = _
    omega

/-- A flush timer runs after a call for a session whose encoder has been stopped. -/
theorem flushing_afterCall (h : Coordinated completed untold l) (hentry : entry ∈ l.sessions)
    (hallowed : c.Allowed entry.session)
    (hcallback : ∀ connection ∈ c.callback, connection = entry.connection) :
    ∀ t ∈ (l.afterCall entry c).timers, ∀ e ∈ (l.afterCall entry c).sessions,
      t.session = e.address →
        e.session.encoder.running = false ∧ ∀ connection ∈ t.callback, connection = e.connection := by
  have heffect := h.effect hentry hallowed
  have hsessions {e : HTTPSession} := mem_afterCall_sessions (c := c) (e := e) h.addresses hentry
  intro t ht e he haddress
  rcases mem_afterCall_timers heffect ht with hold | ⟨rfl, hencoder, -⟩
  · rcases hsessions.mp he with ⟨he, -⟩ | rfl
    · exact h.flushing t hold e he haddress
    · obtain ⟨hencoder, hconnection⟩ := h.flushing t hold entry hentry haddress
      exact ⟨heffect.encoderStopped hencoder, hconnection⟩
  · rcases hsessions.mp he with ⟨-, hne⟩ | rfl
    · exact absurd haddress.symm hne
    · exact ⟨hencoder, hcallback⟩

/-- A session is removed, also by what a call posts, after its connection has closed. -/
theorem removing_afterCall (h : Coordinated completed untold l) (hentry : entry ∈ l.sessions)
    (hallowed : c.Allowed entry.session)
    (hcallback : ∀ connection ∈ c.callback, Detached connection l.server) (connection : ℕ)
    (hremoving : .callback (some connection) ∈ (l.afterCall entry c).handlers ∨
      ∃ t ∈ (l.afterCall entry c).timers, t.callback = some connection) :
    Detached connection (l.afterCall entry c).server := by
  have heffect := h.effect hentry hallowed
  refine (afterCall_evolves h.tracked entry c).detached _ ?_
  rcases hremoving with hhandler | ⟨t, ht, htcallback⟩
  · rcases mem_afterCall_handlers heffect hhandler with hold | ⟨htask, -⟩ | ⟨hcall, -⟩
    · exact h.removing connection (Or.inl hold)
    · exact Handler.noConfusion htask
    · have heq : some connection = c.callback := Handler.callback.inj hcall
      exact hcallback connection heq.symm
  · rcases mem_afterCall_timers heffect ht with hold | ⟨rfl, -, -⟩
    · exact h.removing connection (Or.inr ⟨t, hold, htcallback⟩)
    · exact hcallback connection htcallback

/-- The session that was called and had to be told has stopped, or waits in a flush. -/
theorem closing_called (h : Coordinated completed untold l) (hentry : entry ∈ l.sessions)
    (hallowed : c.Allowed entry.session) (hstop : c.isStop = true) :
    (c.run (l.entered entry)).running = false ∨
      ∃ t ∈ (l.afterCall entry c).timers, t.session = entry.address := by
  have heffect := h.effect hentry hallowed
  refine (heffect.stops hstop).imp_right ?_
  intro hstarts
  rcases startedTimers_eq heffect with hnone | hone
  · rw [startedTimers, List.mapIdx_eq_nil_iff] at hnone
    exact absurd hnone hstarts
  · refine ⟨⟨entry.address, entry.timer + 1, c.callback⟩, ?_, rfl⟩
    exact List.mem_append_right _ (by rw [hone]; exact List.mem_singleton.mpr rfl)

/-- After a call every session of a closed connection has stopped, or waits in a flush. -/
theorem closing_afterCall (h : Coordinated completed untold l) (hentry : entry ∈ l.sessions)
    (hallowed : c.Allowed entry.session)
    (huntold : ∀ connection ∈ untold, c.isStop = true ∧ connection = entry.connection) :
    ∀ e ∈ (l.afterCall entry c).sessions,
      (l.afterCall entry c).server.reads e.connection = false →
        e.session.running = false ∨ ∃ t ∈ (l.afterCall entry c).timers, t.session = e.address := by
  intro e he hreads
  have hbefore := (afterCall_evolves h.tracked entry c).reads_before List.not_mem_nil hreads
  rcases (mem_afterCall_sessions h.addresses hentry).mp he with ⟨he, hne⟩ | rfl
  · have htold : e.connection ∉ untold := by
      intro hmem
      exact hne (congrArg _ (h.connections.eq_of_key he hentry (huntold _ hmem).2))
    refine (h.closing e he htold hbefore).imp_right ?_
    rintro ⟨t, ht, haddress⟩
    exact ⟨t, List.mem_append_left _ ht, haddress⟩
  · by_cases hstop : c.isStop = true
    · exact closing_called h hentry hallowed hstop
    · have htold : entry.connection ∉ untold := by
        intro hmem
        exact hstop (huntold _ hmem).1
      refine (h.closing entry hentry htold hbefore).imp ?_ ?_
      · exact fun hrunning => (h.effect hentry hallowed).stopped hrunning
      · rintro ⟨t, ht, haddress⟩
        exact ⟨t, List.mem_append_left _ ht, haddress⟩

/-- **A call keeps the invariant**, and settles what its session had not been told. -/
theorem coordinated_afterCall (h : Coordinated completed untold l) (hentry : entry ∈ l.sessions)
    (hallowed : c.Allowed entry.session)
    (hcallback : ∀ connection ∈ c.callback,
      connection = entry.connection ∧ Detached connection l.server)
    (hcompleted : completed = List.replicate c.completes entry.address)
    (huntold : ∀ connection ∈ untold, c.isStop = true ∧ connection = entry.connection) :
    Coordinated [] [] (l.afterCall entry c) where
  tracked := (afterCall_evolves h.tracked entry c).tracked
  detached := by
    intro handler hhandler
    rcases mem_afterCall_handlers (h.effect hentry hallowed) hhandler with
      hold | ⟨htask, -⟩ | ⟨hcall, -⟩
    · exact (afterCall_evolves h.tracked entry c).detached _ (h.detached handler hold)
    · exact Handler.noConfusion htask
    · exact Handler.noConfusion hcall
  addresses := Distinct.alter (f := assign (c.run (l.entered entry))) (fun _ => rfl) h.addresses
  connections :=
    Distinct.alter (f := assign (c.run (l.entered entry))) (fun _ => rfl) h.connections
  fresh := by
    have hnext := (afterCall_evolves h.tracked entry c).next
    intro e he
    rcases (mem_afterCall_sessions h.addresses hentry).mp he with ⟨he, -⟩ | rfl
    · exact ⟨(h.fresh e he).1, (h.fresh e he).2.trans_le hnext⟩
    · exact ⟨(h.fresh entry hentry).1, (h.fresh entry hentry).2.trans_le hnext⟩
  ownedTimers := by
    intro t ht
    rcases mem_afterCall_timers (h.effect hentry hallowed) ht with hold | ⟨rfl, -, -⟩
    · exact h.ownedTimers t hold
    · exact (h.fresh entry hentry).1
  ownedWrites := by
    intro w hw
    rcases List.mem_append.mp hw with hold | hnew
    · exact h.ownedWrites w hold
    · obtain ⟨write, -, rfl⟩ := List.mem_map.mp hnew
      exact (h.fresh entry hentry).1
  coherent := by
    intro e he
    rcases (mem_afterCall_sessions h.addresses hentry).mp he with ⟨he, -⟩ | rfl
    · exact h.coherent e he
    · exact (h.effect hentry hallowed).coherent
  outstanding := outstanding_afterCall h hentry hallowed hcompleted
  flushing :=
    flushing_afterCall h hentry hallowed fun connection hmem => (hcallback connection hmem).1
  removing :=
    removing_afterCall h hentry hallowed fun connection hmem => (hcallback connection hmem).2
  closing e he _ := closing_afterCall h hentry hallowed huntold e he

/-- A session is destroyed, and its timer is cancelled. -/
theorem Coordinated.destroy (h : Coordinated completed untold l) (entry : HTTPSession) :
    Coordinated completed untold (l.destroy entry) where
  tracked := h.tracked
  detached := h.detached
  addresses := h.addresses.discard
  connections := h.connections.discard
  fresh e he := h.fresh e (mem_discard.mp he).1
  ownedTimers t ht := h.ownedTimers t (List.mem_of_mem_filter ht)
  ownedWrites := h.ownedWrites
  coherent e he := h.coherent e (mem_discard.mp he).1
  outstanding e he := h.outstanding e (mem_discard.mp he).1
  flushing t ht e he := h.flushing t (List.mem_of_mem_filter ht) e (mem_discard.mp he).1
  removing connection hremoving := by
    refine h.removing connection (hremoving.imp_right ?_)
    rintro ⟨t, ht, hcallback⟩
    exact ⟨t, List.mem_of_mem_filter ht, hcallback⟩
  closing e he htold hreads := by
    obtain ⟨he, hne⟩ := mem_discard.mp he
    refine (h.closing e he htold hreads).imp_right ?_
    rintro ⟨t, ht, haddress⟩
    refine ⟨t, List.mem_filter.mpr ⟨ht, ?_⟩, haddress⟩
    simp [haddress, hne]

theorem Coordinated.withStreamer (h : Coordinated completed untold l) (streamer : Streamer) :
    Coordinated completed untold { l with streamer := streamer } :=
  h.congr rfl rfl rfl rfl rfl rfl

theorem Coordinated.invoke (h : Coordinated completed untold l) (callback : Callback) :
    Coordinated completed untold (l.invoke callback) := by
  cases callback with
  | none => exact h
  | some connection =>
    rw [EventLoop.invoke]
    split
    · exact h.withStreamer _
    · exact (h.withStreamer _).destroy _

theorem Coordinated.foldl_invoke (h : Coordinated completed untold l) (callbacks : List Callback) :
    Coordinated completed untold (callbacks.foldl EventLoop.invoke l) :=
  List.foldlRecOn callbacks _ h fun _ h callback _ => h.invoke callback

theorem call_of_none {address : ℕ} (h : l.sessionAt address = none) (c : Call) :
    l.call address c = l := by
  rw [call, h]

theorem call_of_some {address : ℕ} (h : l.sessionAt address = some entry) (c : Call) :
    l.call address c =
      (c.run (l.entered entry)).finishedCallbacks.foldl EventLoop.invoke (l.afterCall entry c) := by
  rw [call, h]

theorem invoke_server (l : EventLoop) (callback : Callback) :
    (l.invoke callback).server = l.server := by
  cases callback with
  | none => rfl
  | some connection =>
    rw [EventLoop.invoke]
    split <;> rfl

theorem foldl_invoke_server (callbacks : List Callback) (l : EventLoop) :
    (callbacks.foldl EventLoop.invoke l).server = l.server := by
  induction callbacks generalizing l with
  | nil => rfl
  | cons callback callbacks ih => exact (ih (l.invoke callback)).trans (invoke_server l callback)

theorem call_evolves (h : Tracked l.server) (address : ℕ) (c : Call) :
    Evolves [] [] l.server (l.call address c).server := by
  cases hentry : l.sessionAt address with
  | none =>
    rw [call_of_none hentry]
    exact h.evolves
  | some entry =>
    rw [call_of_some hentry, foldl_invoke_server]
    exact afterCall_evolves h entry c

theorem coordinated_call {address : ℕ} (h : Coordinated completed untold l)
    (hentry : l.sessionAt address = some entry) (hallowed : c.Allowed entry.session)
    (hcallback : ∀ connection ∈ c.callback,
      connection = entry.connection ∧ Detached connection l.server)
    (hcompleted : completed = List.replicate c.completes entry.address)
    (huntold : ∀ connection ∈ untold, c.isStop = true ∧ connection = entry.connection) :
    Coordinated [] [] (l.call address c) := by
  rw [call_of_some hentry]
  have hafter := coordinated_afterCall h (mem_of_find hentry).1 hallowed hcallback hcompleted huntold
  exact hafter.foldl_invoke _

theorem coordinated_plainCall (h : Coordinated [] [] l) (hplain : c.IsPlain) (address : ℕ) :
    Coordinated [] [] (l.call address c) := by
  obtain ⟨hcallback, hcompletes, hallowed⟩ := hplain.spec
  cases hentry : l.sessionAt address with
  | none =>
    rw [call_of_none hentry]
    exact h
  | some entry =>
    refine coordinated_call h hentry (hallowed entry.session) ?_ ?_ ?_
    · rw [hcallback]
      intro connection hconnection
      cases hconnection
    · rw [hcompletes]
      rfl
    · intro connection hconnection
      cases hconnection

end Calls

/-! ### Sessions are created -/

/-- A session that has just been started. -/
structure JustStarted (s : StreamingSession) : Prop where
  running : s.running = true
  transferring : s.transferring = false
  flushTimers : s.flushTimers = []
  postedCallbacks : s.postedCallbacks = []
  writes : s.connection.writes = []

theorem newSession_justStarted (connection : ℕ) (clientID : List UInt8) (mime version : String)
    (header : List (List UInt8)) (l : EventLoop) :
    JustStarted (l.newSession connection clientID mime version header).session := by
  rw [newSession]
  cases encoderKind l.streamer.format with
  | wave => exact ⟨rfl, rfl, rfl, rfl, rfl⟩
  | flac =>
    obtain ⟨chunks, octets, h⟩ := StreamingSession.encodedAll_spec header
      ((StreamingSession.create clientID .flac l.streamer.samplingRate mime).enter
        (l.isOpen connection))
    have hstart : ((StreamingSession.create clientID .flac l.streamer.samplingRate mime).enter
        (l.isOpen connection)).encoderStart header =
      (((StreamingSession.create clientID .flac l.streamer.samplingRate mime).enter
        (l.isOpen connection)).withChunks _ chunks octets).setEncoderRunning true :=
      congrArg (StreamingSession.setEncoderRunning true) h.rest
    dsimp only [StreamingSession.start]
    rw [hstart]
    exact ⟨rfl, rfl, rfl, rfl, rfl⟩

section Creating

variable {entry : HTTPSession}

theorem create_evolves (h : Tracked l.server) (entry : HTTPSession) :
    Evolves [] [] l.server (l.create entry).server := by
  show Evolves [] [] l.server (if _ then _ else _)
  split
  · exact h.evolves
  · exact h.evolves_stopConnection entry.connection

theorem create_handlers (hstarted : JustStarted entry.session) (l : EventLoop) :
    (l.create entry).handlers = l.handlers ++
      List.replicate entry.session.transferTasks (.transferTask entry.address) := by
  show l.handlers ++ List.replicate _ _ ++ entry.session.postedCallbacks.map _ = _
  rw [hstarted.postedCallbacks, List.map_nil, List.append_nil]

theorem create_timers (hstarted : JustStarted entry.session) (l : EventLoop) :
    (l.create entry).timers = l.timers := by
  show l.timers ++ startedTimers _ _ _ = _
  rw [startedTimers, hstarted.flushTimers]
  exact List.append_nil _

theorem create_writes (hstarted : JustStarted entry.session) (l : EventLoop) :
    (l.create entry).writes = l.writes := by
  show l.writes ++ _ = _
  rw [hstarted.writes]
  exact List.append_nil _

theorem mem_create_sessions {e : HTTPSession} :
    e ∈ (l.create entry).sessions ↔ e ∈ l.sessions ∨ e = entry :=
  List.mem_append.trans (or_congr_right List.mem_singleton)

theorem mem_create_handlers (hstarted : JustStarted entry.session) {handler : Handler}
    (hhandler : handler ∈ (l.create entry).handlers) :
    handler ∈ l.handlers ∨ handler = .transferTask entry.address := by
  rw [create_handlers hstarted] at hhandler
  exact (List.mem_append.mp hhandler).imp_right List.eq_of_mem_replicate

/-- The session of a new address has no write, and transfers nothing. -/
theorem outstanding_create (h : Coordinated [] [] l) (haddress : entry.address = l.nextAddress)
    (hstarted : JustStarted entry.session) :
    ∀ e ∈ (l.create entry).sessions,
      (l.create entry).writes.countP (fun w => w.session == e.address) =
        e.session.transferring.toNat := by
  intro e he
  rw [create_writes hstarted]
  rcases mem_create_sessions.mp he with he | rfl
  · exact h.outstanding e he
  · rw [hstarted.transferring, haddress]
    show _ = 0
    rw [List.countP_eq_zero]
    intro w hw hsame
    exact (h.ownedWrites w hw).ne (beq_iff_eq.mp hsame)

/-- **A session made for a new connection keeps the invariant.** -/
theorem Coordinated.create (h : Coordinated [] [] l) (haddress : entry.address = l.nextAddress)
    (hstarted : JustStarted entry.session) (hreads : l.server.reads entry.connection = true)
    (hnone : l.sessionOf entry.connection = none) : Coordinated [] [] (l.create entry) where
  tracked := (create_evolves h.tracked entry).tracked
  detached := by
    intro handler hhandler
    rcases mem_create_handlers hstarted hhandler with hold | htask
    · exact (create_evolves h.tracked entry).detached _ (h.detached handler hold)
    · exact Handler.noConfusion htask
  addresses := by
    refine h.addresses.concat ?_
    intro e he
    rw [haddress]
    exact (h.fresh e he).1.ne
  connections := h.connections.concat (find_eq_none.mp hnone)
  fresh := by
    have hnext := (create_evolves h.tracked entry).next
    intro e he
    rcases mem_create_sessions.mp he with he | rfl
    · exact ⟨(h.fresh e he).1.trans (Nat.lt_succ_self _), (h.fresh e he).2.trans_le hnext⟩
    · obtain ⟨c, hc, hid, -⟩ := Tcp.Server.exists_of_reads hreads
      rw [haddress, ← hid]
      exact ⟨Nat.lt_succ_self _, (h.tracked.fresh c hc).trans_le hnext⟩
  ownedTimers := by
    rw [create_timers hstarted]
    exact fun t ht => (h.ownedTimers t ht).trans (Nat.lt_succ_self _)
  ownedWrites := by
    rw [create_writes hstarted]
    exact fun w hw => (h.ownedWrites w hw).trans (Nat.lt_succ_self _)
  coherent := by
    intro e he
    rcases mem_create_sessions.mp he with he | rfl
    · exact h.coherent e he
    · have hfalse {p : Prop} (hr : e.session.running = false) : p :=
        Bool.noConfusion (hstarted.running.symm.trans hr)
      exact ⟨hfalse, hfalse, hfalse⟩
  outstanding := outstanding_create h haddress hstarted
  flushing := by
    rw [create_timers hstarted]
    intro t ht e he hsession
    rcases mem_create_sessions.mp he with he | rfl
    · exact h.flushing t ht e he hsession
    · exact absurd (hsession.trans haddress) (h.ownedTimers t ht).ne
  removing := by
    rw [create_timers hstarted]
    intro connection hremoving
    refine (create_evolves h.tracked entry).detached _
      (h.removing connection (hremoving.imp_left ?_))
    intro hhandler
    exact (mem_create_handlers hstarted hhandler).resolve_right Handler.noConfusion
  closing := by
    rw [create_timers hstarted]
    intro e he _ hclosed
    have hbefore := (create_evolves h.tracked entry).reads_before List.not_mem_nil hclosed
    rcases mem_create_sessions.mp he with he | rfl
    · exact h.closing e he List.not_mem_nil hbefore
    · exact Bool.noConfusion (hbefore.symm.trans hreads)

end Creating

/-! ### The steps -/

theorem Coordinated.enterSession (h : Coordinated completed untold l) (address : ℕ) :
    Coordinated completed untold (l.enterSession address) :=
  h.congr rfl rfl rfl rfl rfl rfl

/-- A handler of the TCP server is posted. -/
theorem Coordinated.post (h : Coordinated completed untold l) {handler : Tcp.Handler}
    (hdetached : Detached handler.connection l.server) :
    Coordinated completed untold (l.post [.tcp handler]) := by
  refine h.withHandlers ?_ ?_
  · intro x hx
    refine (List.mem_append.mp hx).imp_right ?_
    intro hnew
    rw [Handler.tcp.inj (List.mem_singleton.mp hnew)]
    exact hdetached
  · intro callback hhandler
    refine (List.mem_append.mp hhandler).resolve_right ?_
    intro hnew
    exact Handler.noConfusion (List.mem_singleton.mp hnew)

theorem coordinated_accepted (h : Coordinated [] [] l) {connection : ℕ} {error : Bool}
    (haccepts : l.server.accepts connection error = true) :
    Coordinated [] [] (l.step (.accepted connection error)) := by
  have hserver := h.evolve (h.tracked.evolves_onAccept haccepts)
  obtain ⟨c, hc, rfl, -, -⟩ := Tcp.Server.exists_of_accepts haccepts
  cases error with
  | false => exact hserver.congr rfl rfl (List.append_nil _) rfl rfl rfl
  | true => exact hserver.post (Tcp.Server.detached_onClose h.tracked hc)

/-! A request, by what its connection has and what it carries. -/

theorem onHTTPData_session {connection : ℕ} {entry : HTTPSession} (hsession : l.sessionOf connection = some entry)
    (request : Request) : l.onHTTPData connection request =
      l.call entry.address (.onRequest request.buffer request.finish) := by
  rw [onHTTPData, hsession]

theorem onHTTPData_unparsed {connection : ℕ} {request : Request}
    (hsession : l.sessionOf connection = none)
    (hparse : Streamer.parseClientID (request.buffer.take request.receivedSize) = none) :
    l.onHTTPData connection request = { l with streamer :=
      (l.streamer.onHTTPData connection (request.buffer.take request.receivedSize)).1 } := by
  simp only [onHTTPData, hsession, hparse]

theorem onHTTPData_unfound {connection : ℕ} {request : Request} {clientID : List UInt8}
    (hsession : l.sessionOf connection = none)
    (hparse : Streamer.parseClientID (request.buffer.take request.receivedSize) = some clientID)
    (hfound : l.streamer.findSessionByID clientID = none) :
    l.onHTTPData connection request =
      let entry := l.newSession connection clientID request.mime request.version request.header
      let next := { l with streamer :=
        (l.streamer.onHTTPData connection (request.buffer.take request.receivedSize)).1 }
      ((next.create entry).stopConnection connection).destroy entry := by
  simp only [onHTTPData, hsession, hparse, hfound]

theorem onHTTPData_found {connection : ℕ} {request : Request} {clientID : List UInt8}
    {session : ℕ} (hsession : l.sessionOf connection = none)
    (hparse : Streamer.parseClientID (request.buffer.take request.receivedSize) = some clientID)
    (hfound : l.streamer.findSessionByID clientID = some session) :
    l.onHTTPData connection request =
      let entry := l.newSession connection clientID request.mime request.version request.header
      let next := { l with streamer :=
        (l.streamer.onHTTPData connection (request.buffer.take request.receivedSize)).1 }
      (next.create entry).call entry.address (.onRequest request.buffer request.finish) := by
  simp only [onHTTPData, hsession, hparse, hfound]

theorem coordinated_onHTTPData (h : Coordinated [] [] l) {connection : ℕ}
    (hreads : l.server.reads connection = true) (request : Request) :
    Coordinated [] [] (l.onHTTPData connection request) := by
  cases hsession : l.sessionOf connection with
  | some entry =>
    rw [onHTTPData_session hsession]
    exact coordinated_plainCall (c := .onRequest request.buffer request.finish) h trivial
      entry.address
  | none =>
    cases hparse : Streamer.parseClientID (request.buffer.take request.receivedSize) with
    | none =>
      rw [onHTTPData_unparsed hsession hparse]
      exact h.withStreamer _
    | some clientID =>
      have hstarted := newSession_justStarted connection clientID request.mime request.version
        request.header l
      have hstreamer := h.withStreamer
        (l.streamer.onHTTPData connection (request.buffer.take request.receivedSize)).1
      have hcreate := hstreamer.create rfl hstarted hreads hsession
      cases hfound : l.streamer.findSessionByID clientID with
      | none =>
        rw [onHTTPData_unfound hsession hparse hfound]
        exact (hcreate.evolve (hcreate.tracked.evolves_stopConnection connection)).destroy _
      | some session =>
        rw [onHTTPData_found hsession hparse hfound]
        exact coordinated_plainCall (c := .onRequest request.buffer request.finish) hcreate trivial
          _

theorem onHTTPClose_evolves (h : Tracked l.server) (connection : ℕ)
    (finish : List (List UInt8)) :
    Evolves [] [] l.server (l.onHTTPClose connection finish).server := by
  rw [onHTTPClose]
  cases l.sessionOf connection with
  | none => exact h.evolves
  | some entry =>
    exact call_evolves (l := { l with streamer := l.streamer.onHTTPClose connection }) h
      entry.address (.stop (some connection) finish)

/-- The session of a connection that has closed is told to stop. -/
theorem coordinated_onHTTPClose {connection : ℕ} (h : Coordinated [] [connection] l)
    (hdetached : Detached connection l.server) (finish : List (List UInt8)) :
    Coordinated [] [] (l.onHTTPClose connection finish) := by
  rw [onHTTPClose]
  cases hsession : l.sessionOf connection with
  | none =>
    have hall : ∀ e ∈ l.sessions, e.connection ∉ [connection] := by
      intro e he hmem
      exact find_eq_none.mp hsession e he (List.mem_singleton.mp hmem)
    exact { h with closing := fun e he _ => h.closing e he (hall e he) }
  | some entry =>
    obtain ⟨hentry, rfl⟩ := mem_of_find hsession
    have hat : l.sessionAt entry.address = some entry :=
      (find_eq_some h.addresses).mpr ⟨hentry, rfl⟩
    refine coordinated_call (h.withStreamer _) hat trivial ?_ rfl ?_
    · intro connection hconnection
      obtain rfl : entry.connection = connection := Option.some.inj hconnection
      exact ⟨rfl, hdetached⟩
    · intro connection hconnection
      exact ⟨rfl, List.mem_singleton.mp hconnection⟩

theorem coordinated_closed (h : Coordinated [] [] l) {connection : ℕ}
    (hreads : l.server.reads connection = true) (finish : List (List UInt8)) :
    Coordinated [] [] (l.step (.closed connection finish)) := by
  obtain ⟨c, hc, rfl, -⟩ := Tcp.Server.exists_of_reads hreads
  have hdetached := Tcp.Server.detached_onClose h.tracked hc
  have hserver := h.evolve (h.tracked.evolves_onClose c.id)
  have hclose := coordinated_onHTTPClose hserver hdetached finish
  exact hclose.post ((onHTTPClose_evolves hserver.tracked c.id finish).detached _ hdetached)

/-- What each stop of a session keeps, `stop` keeps. -/
theorem stop_keeps {P : EventLoop → Prop} {finish : ℕ → List (List UInt8)}
    (hcall : ∀ (l : EventLoop) (entry : HTTPSession), P l →
      P (l.call entry.address (.stop none (finish entry.address))))
    (environment : Environment) (h : P { l with streamer := l.streamer.stop environment }) :
    P (l.stop environment finish) := by
  rw [EventLoop.stop]
  split
  · exact List.foldlRecOn l.sessions _ h fun l h entry _ => hcall l entry h
  · exact h

theorem coordinated_stop (h : Coordinated [] [] l) (environment : Environment)
    (finish : ℕ → List (List UInt8)) : Coordinated [] [] (l.stop environment finish) := by
  refine stop_keeps ?_ environment (h.withStreamer _)
  intro l entry h
  exact coordinated_plainCall (c := .stop none (finish entry.address)) h rfl entry.address

/-- The first handler is taken from the queue. -/
theorem Coordinated.next {handler : Handler} {rest : List Handler}
    (h : Coordinated completed untold l) (hhandlers : l.handlers = handler :: rest) :
    Coordinated completed untold { l with handlers := rest } := by
  refine h.withHandlers ?_ ?_
  · intro x hx
    rw [hhandlers]
    exact Or.inl (List.mem_cons_of_mem _ hx)
  · intro x hx
    rw [hhandlers]
    exact List.mem_cons_of_mem _ hx

theorem coordinated_runHandler (h : Coordinated [] [] l) : Coordinated [] [] l.runHandler := by
  rw [runHandler]
  split
  · exact h
  · rename_i handler rest hhandlers
    have hnext := h.next hhandlers
    have hfirst : handler ∈ l.handlers := by
      rw [hhandlers]
      exact List.mem_cons_self
    cases handler with
    | tcp handler =>
      have hdetached := h.detached handler hfirst
      cases handler with
      | onStop connection =>
        exact hnext.post hdetached
      | removal connection => exact hnext.evolve (hnext.tracked.evolves_onRemoval hdetached)
    | transferTask session =>
      exact coordinated_plainCall (c := .transferTask) (hnext.enterSession session) trivial session
    | callback callback => exact hnext.invoke callback

/-- A flush timer is taken off: sessions of connections in `untold` may have waited for it. -/
theorem Coordinated.eraseTimer (h : Coordinated completed [] l) {timer : FlushTimer}
    (huntold : ∀ e ∈ l.sessions, e.connection ∉ untold → e.address ≠ timer.session) :
    Coordinated completed untold { l with timers := l.timers.erase timer } := by
  have hmem : ∀ t ∈ l.timers.erase timer, t ∈ l.timers := fun t ht => List.mem_of_mem_erase ht
  refine { h with
    ownedTimers := fun t ht => h.ownedTimers t (hmem t ht)
    flushing := fun t ht => h.flushing t (hmem t ht)
    removing := ?_
    closing := ?_ }
  · intro connection hremoving
    refine h.removing connection (hremoving.imp_right ?_)
    rintro ⟨t, ht, hcallback⟩
    exact ⟨t, hmem t ht, hcallback⟩
  · intro e he htold hreads
    refine (h.closing e he List.not_mem_nil hreads).imp_right ?_
    rintro ⟨t, ht, haddress⟩
    refine ⟨t, ?_, haddress⟩
    rw [List.mem_erase_of_ne]
    · exact ht
    · rintro rfl
      exact huntold e he htold haddress.symm

/-- Then its session is to be told. -/
theorem Coordinated.eraseTimerOf (h : Coordinated completed [] l) {timer : FlushTimer}
    {entry : HTTPSession} (hentry : entry ∈ l.sessions) (haddress : entry.address = timer.session) :
    Coordinated completed [entry.connection] { l with timers := l.timers.erase timer } := by
  refine h.eraseTimer ?_
  intro e he htold hsame
  rw [h.addresses.eq_of_key he hentry (hsame.trans haddress.symm)] at htold
  exact htold (List.mem_singleton.mpr rfl)

/-- Without a session at its address, a timer calls nothing. -/
theorem onFlushTimer_gone {timer : FlushTimer} (h : l.sessionAt timer.session = none) :
    l.onFlushTimer timer =
      { l with timers := l.timers.erase timer }.enterSession timer.session := by
  rw [onFlushTimer]
  exact call_of_none (l := { l with timers := l.timers.erase timer }.enterSession timer.session) h
    (.flush timer.callback)

theorem coordinated_onFlushTimer (h : Coordinated [] [] l) {timer : FlushTimer}
    (htimer : timer ∈ l.timers) : Coordinated [] [] (l.onFlushTimer timer) := by
  cases hsession : l.sessionAt timer.session with
  | none =>
    rw [onFlushTimer_gone hsession]
    refine (h.eraseTimer ?_).enterSession timer.session
    intro e he _
    exact find_eq_none.mp hsession e he
  | some entry =>
    rw [onFlushTimer]
    obtain ⟨hentry, haddress⟩ := mem_of_find hsession
    obtain ⟨hencoder, hconnection⟩ := h.flushing timer htimer entry hentry haddress.symm
    have herase := h.eraseTimerOf hentry haddress
    refine coordinated_call (herase.enterSession timer.session) hsession hencoder ?_ rfl ?_
    · intro connection hcallback
      exact ⟨hconnection connection hcallback,
        h.removing connection (Or.inr ⟨timer, htimer, hcallback⟩)⟩
    · intro connection hmember
      exact ⟨rfl, List.mem_singleton.mp hmember⟩

/-- A write is completed, and its session is not told yet. -/
theorem Coordinated.eraseWrite (h : Coordinated [] untold l) {write : PendingWrite}
    (hwrite : write ∈ l.writes) :
    Coordinated [write.session] untold { l with writes := l.writes.erase write } := by
  have hcount : ∀ address, (l.writes.erase write).countP (fun w => w.session == address) +
      [write.session].count address = l.writes.countP (fun w => w.session == address) := by
    intro address
    have hperm := List.perm_cons_erase hwrite
    rw [hperm.countP_eq, List.countP_cons, List.count_singleton]
  exact { h with
    ownedWrites := fun w hw => h.ownedWrites w (List.mem_of_mem_erase hw)
    outstanding := fun e he => (hcount e.address).trans (h.outstanding e he) }

/-- The session of an outstanding write transfers. -/
theorem Coordinated.transferring (h : Coordinated [] untold l) {write : PendingWrite}
    (hwrite : write ∈ l.writes) {entry : HTTPSession} (hentry : entry ∈ l.sessions)
    (haddress : entry.address = write.session) : entry.session.transferring = true := by
  have houtstanding := h.outstanding entry hentry
  have hpositive : 0 < l.writes.countP (fun w => w.session == entry.address) :=
    List.countP_pos_iff.mpr ⟨write, hwrite, by rw [haddress]; exact beq_self_eq_true _⟩
  cases ht : entry.session.transferring with
  | true => rfl
  | false =>
    rw [ht] at houtstanding
    have hzero : false.toNat = 0 := rfl
    omega

/-- Nor does the completion of a write. -/
theorem onWritten_gone {write : PendingWrite} (h : l.sessionAt write.session = none)
    {completion : Completion} : l.onWritten write completion =
      { l with writes := l.writes.erase write }.enterSession write.session := by
  rw [onWritten]
  exact call_of_none (l := { l with writes := l.writes.erase write }.enterSession write.session) h
    (.completed write.write completion)

theorem coordinated_onWritten (h : Coordinated [] [] l) {write : PendingWrite}
    (hwrite : write ∈ l.writes) (completion : Completion) :
    Coordinated [] [] (l.onWritten write completion) := by
  have herase := h.eraseWrite hwrite
  cases hsession : l.sessionAt write.session with
  | none =>
    rw [onWritten_gone hsession]
    refine Coordinated.enterSession { herase with outstanding := ?_ } write.session
    intro e he
    have hne : e.address ≠ write.session := find_eq_none.mp hsession e he
    have hcounted := herase.outstanding e he
    rw [List.count_singleton, if_neg (by simpa using hne.symm)] at hcounted
    exact hcounted
  | some entry =>
    rw [onWritten]
    obtain ⟨hentry, haddress⟩ := mem_of_find hsession
    refine coordinated_call (herase.enterSession write.session) hsession
      (h.transferring hwrite hentry haddress) ?_ ?_ ?_
    · intro connection hconnection
      cases hconnection
    · rw [← haddress]
      rfl
    · intro connection hconnection
      cases hconnection

/-- **Every step keeps the invariant.** -/
theorem coordinated_step {e : Event} (h : Coordinated [] [] l) (henabled : system.enabled l e) :
    Coordinated [] [] (l.step e) := by
  cases e with
  | accepted connection error => exact coordinated_accepted h henabled
  | received connection request => exact coordinated_onHTTPData h henabled request
  | closed connection finish => exact coordinated_closed h henabled finish
  | stopServer => exact h.evolve h.tracked.evolves_stop
  | streamer stimulus => exact h.withStreamer _
  | chunk session chunk output finish =>
    exact coordinated_plainCall (c := .consumeChunk chunk output finish) h trivial session
  | stop environment finish => exact coordinated_stop h environment finish
  | handler => exact coordinated_runHandler h
  | timer timer => exact coordinated_onFlushTimer h henabled
  | written write completion => exact coordinated_onWritten h henabled completion

theorem coordinated_started (n : ℕ) (streamer : Streamer) :
    Coordinated [] [] (started n streamer) := by
  have hfirst : ∀ c ∈ (started n streamer).server.connections, c = Tcp.Connection.start 0 0 := by
    intro c hc
    exact List.mem_singleton.mp hc
  refine ⟨⟨List.nodup_singleton _, ?_, ?_⟩, ?_, List.nodup_nil, List.nodup_nil,
    List.forall_mem_nil _, List.forall_mem_nil _, List.forall_mem_nil _, List.forall_mem_nil _,
    List.forall_mem_nil _, List.forall_mem_nil _, ?_, List.forall_mem_nil _⟩
  · intro c hc
    rw [hfirst c hc]
    exact Nat.zero_lt_one
  · intro c hc
    rw [hfirst c hc]
    simp [Tcp.Connection.start]
  · intro handler hhandler
    cases hhandler
  · rintro connection (hhandler | ⟨t, ht, -⟩)
    · cases hhandler
    · cases ht

end EventLoop

end SlimStreamer
