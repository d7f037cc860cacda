import SlimStreamer.Proto.ConnectionLifetime

/-!
# The handlers of an HTTP session

The handlers, flush timers and writes of a session refer to it by a plain pointer.  A session
that has stopped is destroyed by the callback of `removeSession`, and a new one by the exception
that its request causes.  Of what the session has submitted, its destructor cancels the last
flush timer only.

* `Alive` — the invariant: whatever refers to a session refers to one that exists;
* `session_exists` — so handlers only run for sessions that exist, in the runs in which sessions
  are destroyed when nothing but their last timer is left;
* `session_exists_unknownPlayer` — a run in which one is discarded with a handler.
-/

namespace SlimStreamer

namespace EventLoop

open GuardedExecution KeyedList
open StreamingSession (Call Effect)
open Tcp.Server (Detached)

variable {l : EventLoop}

/-! ### When sessions are destroyed -/

/-- The connection whose session the callback removes that runs next. -/
def calledBackNext (l : EventLoop) : Option ℕ :=
  match l.handlers with
  | .callback callback :: _ => callback
  | _ => none

/-- A request of a player that is not known, and has no HTTP session. -/
def discards (connection : ℕ) (request : Request) (l : EventLoop) : Bool :=
  (l.sessionOf connection).isNone &&
    (Streamer.parseClientID (request.buffer.take request.receivedSize)).any fun clientID =>
      (l.streamer.findSessionByID clientID).isNone

/-- Of the flush timers of a session only the last one runs. -/
def OnlyLastTimer (entry : HTTPSession) (l : EventLoop) : Prop :=
  ∀ t ∈ l.timers, t.session = entry.address → t.number = entry.timer

instance (entry : HTTPSession) (l : EventLoop) : Decidable (l.OnlyLastTimer entry) :=
  inferInstanceAs
    (Decidable (∀ t ∈ l.timers, t.session = entry.address → t.number = entry.timer))

/-- A session that has stopped has nothing to do any more but for its last flush timer. -/
def Retired (entry : HTTPSession) (l : EventLoop) : Prop :=
  .transferTask entry.address ∉ l.handlers ∧ l.OnlyLastTimer entry

instance (entry : HTTPSession) (l : EventLoop) : Decidable (l.Retired entry) :=
  inferInstanceAs (Decidable (.transferTask entry.address ∉ l.handlers ∧ l.OnlyLastTimer entry))

/-- Sessions are destroyed when nothing but their last flush timer is left: a new one, one that
had stopped before its connection closed, and one whose callback runs. -/
def DestroysRetired (l : EventLoop) : Event → Prop
  | .received connection request => l.discards connection request = true →
      l.streamer.format = .FLAC → ∀ piece ∈ request.header, piece = []
  | .closed connection _ => ∀ e ∈ l.sessions, e.connection = connection →
      e.session.running = false → l.Retired e
  | .handler => ∀ connection ∈ l.calledBackNext, ∀ e ∈ l.sessions, e.connection = connection →
      l.OnlyLastTimer e
  | _ => True

instance (l : EventLoop) : DecidablePred (DestroysRetired l)
  | .received connection request =>
    inferInstanceAs (Decidable (l.discards connection request = true →
      l.streamer.format = .FLAC → ∀ piece ∈ request.header, piece = []))
  | .closed connection _ =>
    inferInstanceAs (Decidable (∀ e ∈ l.sessions, e.connection = connection →
      e.session.running = false → l.Retired e))
  | .handler =>
    inferInstanceAs (Decidable (∀ connection ∈ l.calledBackNext, ∀ e ∈ l.sessions,
      e.connection = connection → l.OnlyLastTimer e))
  | .accepted _ _ | .stopServer | .streamer _ | .chunk _ _ _ _ | .stop _ _ | .timer _
  | .written _ _ => isTrue trivial

/-! ### The invariant -/

/-- The addresses of the sessions that exist. -/
def addresses (l : EventLoop) : List ℕ := l.sessions.map HTTPSession.address

theorem sessionAt_isSome {address : ℕ} (h : address ∈ l.addresses) :
    (l.sessionAt address).isSome = true := by
  obtain ⟨e, he, haddress⟩ := List.mem_map.mp h
  cases hfind : l.sessionAt address with
  | none => exact absurd haddress (find_eq_none.mp hfind e he)
  | some entry => simp

/-- After a callback that removes a session no task of the session is queued. -/
def InOrder (sessions : List HTTPSession) (handlers : List Handler) : Prop :=
  handlers.Pairwise fun a b => ∀ e ∈ sessions,
    a = .callback (some e.connection) → b ≠ .transferTask e.address

/-- Handlers, flush timers and writes ran only for sessions that existed, and none is left of a
session that does not. -/
structure NoneOutlives (l : EventLoop) : Prop where
  tasks : ∀ address, .transferTask address ∈ l.handlers → address ∈ l.addresses
  timers : ∀ t ∈ l.timers, t.session ∈ l.addresses
  writes : ∀ w ∈ l.writes, w.session ∈ l.addresses
  used : ∀ use ∈ l.sessionUses, use.existed = true

/-- **Whatever refers to a session refers to one that exists**, and a session that is about to
be removed has stopped and has no task behind it. -/
structure Alive (l : EventLoop) : Prop extends NoneOutlives l where
  stopped : ∀ e ∈ l.sessions, .callback (some e.connection) ∈ l.handlers →
    e.session.running = false
  order : InOrder l.sessions l.handlers

theorem alive_started (n : ℕ) (streamer : Streamer) : Alive (started n streamer) := by
  refine ⟨⟨?_, List.forall_mem_nil _, List.forall_mem_nil _, List.forall_mem_nil _⟩,
    List.forall_mem_nil _, List.Pairwise.nil⟩
  intro address htask
  cases htask

/-- The server and the Streamer do not matter. -/
theorem Alive.congr {l' : EventLoop} (h : Alive l) (hsessions : l'.sessions = l.sessions)
    (hhandlers : l'.handlers = l.handlers) (htimers : l'.timers = l.timers)
    (hwrites : l'.writes = l.writes) (huses : l'.sessionUses = l.sessionUses) : Alive l' := by
  obtain ⟨server, streamer, sessions, handlers, timers, writes, next, uses, uses'⟩ := l'
  obtain rfl : sessions = l.sessions := hsessions
  obtain rfl : handlers = l.handlers := hhandlers
  obtain rfl : timers = l.timers := htimers
  obtain rfl : writes = l.writes := hwrites
  obtain rfl : uses' = l.sessionUses := huses
  exact ⟨⟨h.tasks, h.timers, h.writes, h.used⟩, h.stopped, h.order⟩

/-- What refers to a session runs. -/
theorem Alive.enterSession {address : ℕ} (h : Alive l) (haddress : address ∈ l.addresses) :
    Alive (l.enterSession address) where
  tasks := h.tasks
  timers := h.timers
  writes := h.writes
  stopped := h.stopped
  order := h.order
  used use huse := by
    rcases List.mem_append.mp huse with hold | hnew
    · exact h.used use hold
    · rw [List.mem_singleton.mp hnew]
      exact sessionAt_isSome haddress

theorem Alive.withTimers {timers : List FlushTimer} (h : Alive l)
    (htimers : ∀ t ∈ timers, t ∈ l.timers) : Alive { l with timers := timers } :=
  { h with timers := fun t ht => h.timers t (htimers t ht) }

theorem Alive.withWrites {writes : List PendingWrite} (h : Alive l)
    (hwrites : ∀ w ∈ writes, w ∈ l.writes) : Alive { l with writes := writes } :=
  { h with writes := fun w hw => h.writes w (hwrites w hw) }

/-- The first handler is taken from the queue. -/
theorem Alive.next {handler : Handler} {rest : List Handler} (h : Alive l)
    (hhandlers : l.handlers = handler :: rest) : Alive { l with handlers := rest } := by
  have hmem : ∀ x ∈ rest, x ∈ l.handlers := by
    rw [hhandlers]
    exact fun x hx => List.mem_cons_of_mem _ hx
  refine { h with
    tasks := fun address htask => h.tasks address (hmem _ htask)
    stopped := fun e he hcallback => h.stopped e he (hmem _ hcallback)
    order := ?_ }
  have horder := h.order
  rw [InOrder, hhandlers] at horder
  exact horder.of_cons

/-- A handler of the TCP server is posted. -/
theorem Alive.post (h : Alive l) (handler : Tcp.Handler) : Alive (l.post [.tcp handler]) := by
  have hmem : ∀ x ∈ l.handlers ++ [.tcp handler], x = .tcp handler ∨ x ∈ l.handlers := by
    intro x hx
    simpa [or_comm] using hx
  refine { h with
    tasks := fun address htask =>
      h.tasks address ((hmem _ htask).resolve_left Handler.noConfusion)
    stopped := fun e he hcallback =>
      h.stopped e he ((hmem _ hcallback).resolve_left Handler.noConfusion)
    order := List.pairwise_append.mpr ⟨h.order, List.pairwise_singleton _ _, ?_⟩ }
  intro a _ b hb e _ _ htask
  rw [List.mem_singleton.mp hb] at htask
  exact Handler.noConfusion htask

/-- **A session is destroyed when nothing but its last flush timer is left.** -/
theorem Alive.destroy (h : Alive l) {entry : HTTPSession} (hretired : l.Retired entry)
    (hwrites : ∀ w ∈ l.writes, w.session ≠ entry.address) : Alive (l.destroy entry) := by
  have haddresses : ∀ address ∈ l.addresses, address ≠ entry.address →
      address ∈ (l.destroy entry).addresses := by
    intro address haddress hne
    obtain ⟨e, he, rfl⟩ := List.mem_map.mp haddress
    exact List.mem_map.mpr ⟨e, mem_discard.mpr ⟨he, hne⟩, rfl⟩
  refine ⟨⟨?_, ?_, ?_, h.used⟩, ?_, ?_⟩
  · intro address htask
    refine haddresses address (h.tasks address htask) ?_
    rintro rfl
    exact hretired.1 htask
  · intro t ht
    obtain ⟨ht, hkept⟩ := List.mem_filter.mp ht
    refine haddresses _ (h.timers t ht) ?_
    intro haddress
    simp [haddress, hretired.2 t ht haddress] at hkept
  · intro w hw
    exact haddresses _ (h.writes w hw) (hwrites w hw)
  · intro e he
    exact h.stopped e (mem_discard.mp he).1
  · refine List.Pairwise.imp ?_ h.order
    intro a b horder e he
    exact horder e (mem_discard.mp he).1

/-- A session that does not transfer has no write outstanding. -/
theorem no_write (hl : Coordinated [] [] l) {e : HTTPSession} (he : e ∈ l.sessions)
    (hstopped : e.session.running = false) : ∀ w ∈ l.writes, w.session ≠ e.address := by
  have houtstanding := hl.outstanding e he
  rw [(hl.coherent e he).idle hstopped] at houtstanding
  have hnone : l.writes.countP (fun w => w.session == e.address) = 0 := by
    simpa using houtstanding
  intro w hw haddress
  exact List.countP_eq_zero.mp hnone w hw (beq_iff_eq.mpr haddress)

/-- The callback of `removeSession` runs for a session that has stopped. -/
theorem Alive.remove (h : Alive l) (hl : Coordinated [] [] l) {connection : ℕ}
    (hretired : ∀ e ∈ l.sessions, e.connection = connection →
      e.session.running = false ∧ l.Retired e) : Alive (l.invoke (some connection)) := by
  rw [EventLoop.invoke]
  split
  · exact h.congr rfl rfl rfl rfl rfl
  · rename_i entry hsession
    obtain ⟨hentry, hconnection⟩ := mem_of_find hsession
    obtain ⟨hstopped, hretired⟩ := hretired entry hentry hconnection
    have hstreamer : Alive { l with streamer := l.streamer.onHTTPRemoved connection } :=
      h.congr rfl rfl rfl rfl rfl
    exact hstreamer.destroy hretired (no_write hl hentry hstopped)

/-! ### Calls -/

section Calls

variable {entry : HTTPSession} {c : Call} {completed untold : List ℕ}

theorem afterCall_addresses (entry : HTTPSession) (c : Call) (l : EventLoop) :
    (l.afterCall entry c).addresses = l.addresses :=
  map_alter (f := assign (c.run (l.entered entry))) (fun _ => rfl) l.sessions

/-- What a session posts comes after what is queued: its tasks are not behind a callback that
removes it. -/
theorem inOrder_afterCall (h : Alive l) (hl : Coordinated completed untold l)
    (hentry : entry ∈ l.sessions) (heffect : Effect c (l.entered entry) (c.run (l.entered entry))) :
    InOrder (l.afterCall entry c).sessions (l.afterCall entry c).handlers := by
  have hsessions {e : HTTPSession} := mem_afterCall_sessions (c := c) (e := e) hl.addresses hentry
  have hnotCallback : ∀ a ∈ List.replicate (c.run (l.entered entry)).transferTasks
      (Handler.transferTask entry.address), ∀ callback, a ≠ .callback callback := by
    intro a ha callback heq
    rw [List.eq_of_mem_replicate ha] at heq
    exact Handler.noConfusion heq
  have hnotTask : ∀ b ∈ (c.run (l.entered entry)).postedCallbacks.map Handler.callback,
      ∀ address, b ≠ .transferTask address := by
    intro b hb address heq
    obtain ⟨callback, -, rfl⟩ := List.mem_map.mp hb
    exact Handler.noConfusion heq
  refine List.pairwise_append.mpr ⟨List.pairwise_append.mpr ⟨?_, ?_, ?_⟩, ?_, ?_⟩
  · refine List.Pairwise.imp ?_ h.order
    intro a b horder e he
    rcases hsessions.mp he with ⟨he, -⟩ | rfl
    · exact horder e he
    · exact horder entry hentry
  · refine List.pairwise_of_forall_mem_list ?_
    intro a ha b _ e _ hcallback
    exact absurd hcallback (hnotCallback a ha _)
  · rintro a ha b hb e he rfl htask
    have haddress : e.address = entry.address := by
      rw [List.eq_of_mem_replicate hb] at htask
      exact (Handler.transferTask.inj htask).symm
    have hconnection : e.connection = entry.connection := by
      rcases hsessions.mp he with ⟨-, hne⟩ | rfl
      · exact absurd haddress hne
      · rfl
    rw [hconnection] at ha
    rw [heffect.tasks (h.stopped entry hentry ha)] at hb
    cases hb
  · refine List.pairwise_of_forall_mem_list ?_
    intro a _ b hb e _ _
    exact hnotTask b hb _
  · intro a _ b hb e _ _
    exact hnotTask b hb _

/-- **A call keeps the invariant.** -/
theorem alive_afterCall (h : Alive l) (hl : Coordinated completed untold l)
    (hentry : entry ∈ l.sessions) (hallowed : c.Allowed entry.session)
    (hcallback : ∀ connection ∈ c.callback, connection = entry.connection) :
    Alive (l.afterCall entry c) := by
  have heffect := hl.effect hentry hallowed
  have hsessions {e : HTTPSession} := mem_afterCall_sessions (c := c) (e := e) hl.addresses hentry
  have hself : entry.address ∈ l.addresses := List.mem_map.mpr ⟨entry, hentry, rfl⟩
  refine ⟨⟨?_, ?_, ?_, h.used⟩, ?_, inOrder_afterCall h hl hentry heffect⟩
  · rw [afterCall_addresses]
    intro address htask
    rcases mem_afterCall_handlers heffect htask with hold | ⟨htask, -⟩ | ⟨hcall, -⟩
    · exact h.tasks address hold
    · rw [Handler.transferTask.inj htask]
      exact hself
    · exact Handler.noConfusion hcall
  · rw [afterCall_addresses]
    intro t ht
    rcases mem_afterCall_timers heffect ht with hold | ⟨rfl, -, -⟩
    · exact h.timers t hold
    · exact hself
  · rw [afterCall_addresses]
    intro w hw
    rcases List.mem_append.mp hw with hold | hnew
    · exact h.writes w hold
    · obtain ⟨write, -, rfl⟩ := List.mem_map.mp hnew
      exact hself
  · intro e he hposted
    rcases mem_afterCall_handlers heffect hposted with hold | ⟨htask, -⟩ | ⟨hcall, hstopped⟩
    · rcases hsessions.mp he with ⟨he, -⟩ | rfl
      · exact h.stopped e he hold
      · exact heffect.stopped (h.stopped entry hentry hold)
    · exact Handler.noConfusion htask
    · have hconnection := hcallback e.connection (Handler.callback.inj hcall).symm
      rcases hsessions.mp he with ⟨he, hne⟩ | rfl
      · exact absurd (congrArg _ (hl.connections.eq_of_key he hentry hconnection)) hne
      · exact hstopped

/-- A session that has stopped submits nothing more. -/
theorem retired_afterCall (heffect : Effect c (l.entered entry) (c.run (l.entered entry)))
    (hstopped : entry.session.running = false) (h : l.Retired entry) :
    (l.afterCall entry c).Retired (assign (c.run (l.entered entry)) entry) := by
  have hnotRunning {p : Prop} (hrunning : entry.session.running = true) : p :=
    Bool.noConfusion (hstopped.symm.trans hrunning)
  refine ⟨?_, ?_⟩
  · intro htask
    rcases mem_afterCall_handlers heffect htask with hold | ⟨-, hrunning⟩ | ⟨hcall, -⟩
    · exact h.1 hold
    · exact hnotRunning hrunning
    · exact Handler.noConfusion hcall
  · intro t ht haddress
    have hnumber : t.number = entry.timer := by
      rcases mem_afterCall_timers heffect ht with hold | ⟨-, -, hrunning⟩
      · exact h.2 t hold haddress
      · exact hnotRunning hrunning
    rcases heffect.timers with hnone | ⟨-, -, hrunning⟩
    · show t.number = entry.timer + (c.run (l.entered entry)).flushTimers.length
      rw [hnone]
      exact hnumber
    · exact hnotRunning hrunning

/-- A stop of a session that has stopped removes it at once. -/
theorem alive_call {address : ℕ} (h : Alive l) (hl : Coordinated completed untold l)
    (hentry : l.sessionAt address = some entry) (hallowed : c.Allowed entry.session)
    (hcallback : ∀ connection ∈ c.callback,
      connection = entry.connection ∧ Detached connection l.server)
    (hcompleted : completed = List.replicate c.completes entry.address)
    (huntold : ∀ connection ∈ untold, c.isStop = true ∧ connection = entry.connection)
    (hretired : ∀ connection finish, c = .stop (some connection) finish →
      entry.session.running = false → l.Retired entry) : Alive (l.call address c) := by
  obtain ⟨hmem, -⟩ := mem_of_find hentry
  have heffect := hl.effect hmem hallowed
  have hafter := alive_afterCall h hl hmem hallowed fun connection hc => (hcallback connection hc).1
  have hcoordinated := coordinated_afterCall hl hmem hallowed hcallback hcompleted huntold
  rw [call_of_some hentry]
  rcases heffect.finished with hnone | ⟨hone, hstopped, callback, finish, rfl⟩
  · rw [hnone]
    exact hafter
  · rw [hone]
    cases callback with
    | none => exact hafter
    | some connection =>
      have hself : assign (Call.run (.stop (some connection) finish) (l.entered entry)) entry ∈
          (l.afterCall entry (.stop (some connection) finish)).sessions :=
        (mem_afterCall_sessions hl.addresses hmem).mpr (Or.inr rfl)
      refine hafter.remove hcoordinated ?_
      intro e he hconnection
      obtain rfl := hcoordinated.connections.eq_of_key he hself
        (hconnection.trans (hcallback connection rfl).1)
      exact ⟨heffect.stopped hstopped,
        retired_afterCall heffect hstopped (hretired connection finish rfl hstopped)⟩

/-- Calls that remove no session. -/
theorem alive_plainCall (h : Alive l) (hl : Coordinated [] [] l) (hplain : c.IsPlain)
    (address : ℕ) : Alive (l.call address c) := by
  obtain ⟨hcallback, hcompletes, hallowed⟩ := hplain.spec
  cases hentry : l.sessionAt address with
  | none =>
    rw [call_of_none hentry]
    exact h
  | some entry =>
    refine alive_call h hl hentry (hallowed entry.session) ?_ ?_ ?_ ?_
    · rw [hcallback]
      intro connection hconnection
      cases hconnection
    · rw [hcompletes]
      rfl
    · intro connection hconnection
      cases hconnection
    · rintro connection finish rfl
      cases hcallback

end Calls

/-! ### Sessions are created -/

section Creating

variable {entry : HTTPSession}

/-- No callback that removes the session of a connection is posted while it is read from. -/
theorem not_calledBack (hl : Coordinated [] [] l) {connection : ℕ}
    (hreads : l.server.reads connection = true) :
    Handler.callback (some connection) ∉ l.handlers := by
  intro hposted
  exact Bool.noConfusion ((hl.removing connection (Or.inl hposted)).reads.symm.trans hreads)

/-- The tasks of a new session come after every callback, and have an address of their own. -/
theorem inOrder_create (h : Alive l) (hl : Coordinated [] [] l)
    (haddress : entry.address = l.nextAddress) (hstarted : JustStarted entry.session)
    (hreads : l.server.reads entry.connection = true) :
    InOrder (l.create entry).sessions (l.create entry).handlers := by
  have hcalled := not_calledBack hl hreads
  have htasks : ∀ x ∈ List.replicate entry.session.transferTasks
      (Handler.transferTask entry.address), x = .transferTask entry.address :=
    fun x hx => List.eq_of_mem_replicate hx
  rw [create_handlers hstarted]
  refine List.pairwise_append.mpr ⟨?_, ?_, ?_⟩
  · refine List.Pairwise.imp_of_mem ?_ h.order
    rintro a b ha - horder e he rfl
    rcases mem_create_sessions.mp he with he | rfl
    · exact horder e he rfl
    · exact absurd ha hcalled
  · refine List.pairwise_of_forall_mem_list ?_
    rintro a ha b - e - rfl
    exact Handler.noConfusion (htasks _ ha)
  · rintro a ha b hb e he rfl htask
    rcases mem_create_sessions.mp he with he | rfl
    · rw [htasks b hb] at htask
      have hfresh := (hl.fresh e he).1
      rw [← haddress, Handler.transferTask.inj htask] at hfresh
      exact absurd hfresh (Nat.lt_irrefl _)
    · exact hcalled ha

theorem mem_create_addresses {address : ℕ} :
    address ∈ (l.create entry).addresses ↔ address ∈ l.addresses ∨ address = entry.address := by
  show address ∈ (l.sessions ++ [entry]).map _ ↔ _
  rw [List.map_append]
  exact List.mem_append.trans (or_congr_right List.mem_singleton)

/-- The tasks of a new session are posted for it. -/
theorem Alive.create (h : Alive l) (hl : Coordinated [] [] l)
    (haddress : entry.address = l.nextAddress) (hstarted : JustStarted entry.session)
    (hreads : l.server.reads entry.connection = true) : Alive (l.create entry) where
  tasks := by
    intro address htask
    refine mem_create_addresses.mpr ((mem_create_handlers hstarted htask).imp ?_ ?_)
    · exact fun htask => h.tasks address htask
    · exact fun htask => Handler.transferTask.inj htask
  timers := by
    rw [create_timers hstarted]
    exact fun t ht => mem_create_addresses.mpr (Or.inl (h.timers t ht))
  writes := by
    rw [create_writes hstarted]
    exact fun w hw => mem_create_addresses.mpr (Or.inl (h.writes w hw))
  used := h.used
  stopped := by
    intro e he hposted
    have hold := (mem_create_handlers hstarted hposted).resolve_right Handler.noConfusion
    rcases mem_create_sessions.mp he with he | rfl
    · exact h.stopped e he hold
    · exact absurd hold (not_calledBack hl hreads)
  order := inOrder_create h hl haddress hstarted hreads

/-- A new session has posted nothing unless its encoder writes a header. -/
theorem newSession_transferTasks {connection : ℕ} {clientID : List UInt8} {mime version : String}
    {header : List (List UInt8)} (h : l.streamer.format = .FLAC → ∀ piece ∈ header, piece = []) :
    (l.newSession connection clientID mime version header).session.transferTasks = 0 := by
  rw [newSession]
  cases hformat : l.streamer.format with
  | PCM => rfl
  | FLAC =>
    dsimp only [encoderKind, StreamingSession.start]
    have hempty := StreamingSession.encodedAll_of_empty (h hformat)
      ((StreamingSession.create clientID .flac l.streamer.samplingRate mime).enter
        (l.isOpen connection))
    show StreamingSession.transferTasks (StreamingSession.encodedAll header _) = 0
    rw [hempty]
    rfl

/-- A new session that is destroyed at once. -/
theorem Alive.discard (h : Alive l) (hl : Coordinated [] [] l)
    (haddress : entry.address = l.nextAddress) (hstarted : JustStarted entry.session)
    (hreads : l.server.reads entry.connection = true)
    (htasks : entry.session.transferTasks = 0) :
    Alive (((l.create entry).stopConnection entry.connection).destroy entry) := by
  have hfresh : entry.address ∉ l.addresses := by
    intro hmem
    obtain ⟨e, he, hsame⟩ := List.mem_map.mp hmem
    exact (hl.fresh e he).1.ne (hsame.trans haddress)
  have hcreate : Alive ((l.create entry).stopConnection entry.connection) :=
    (h.create hl haddress hstarted hreads).congr rfl rfl rfl rfl rfl
  refine hcreate.destroy ⟨?_, ?_⟩ ?_
  · show _ ∉ (l.create entry).handlers
    rw [create_handlers hstarted, htasks, List.replicate_zero, List.append_nil]
    exact fun htask => hfresh (h.tasks _ htask)
  · show ∀ t ∈ (l.create entry).timers, _
    rw [create_timers hstarted]
    intro t ht hsame
    exact absurd (hsame ▸ h.timers t ht) hfresh
  · show ∀ w ∈ (l.create entry).writes, _
    rw [create_writes hstarted]
    intro w hw hsame
    exact hfresh (hsame ▸ h.writes w hw)

end Creating

/-! ### The steps -/

theorem alive_onHTTPData (h : Alive l) (hl : Coordinated [] [] l) {connection : ℕ}
    (hreads : l.server.reads connection = true) {request : Request}
    (hretired : l.DestroysRetired (.received connection request)) :
    Alive (l.onHTTPData connection request) := by
  cases hsession : l.sessionOf connection with
  | some entry =>
    rw [onHTTPData_session hsession]
    exact alive_plainCall (c := .onRequest request.buffer request.finish) h hl trivial
      entry.address
  | none =>
    have hstreamer : Alive { l with streamer :=
        (l.streamer.onHTTPData connection (request.buffer.take request.receivedSize)).1 } :=
      h.congr rfl rfl rfl rfl rfl
    have hcoordinated := hl.withStreamer
      (l.streamer.onHTTPData connection (request.buffer.take request.receivedSize)).1
    cases hparse : Streamer.parseClientID (request.buffer.take request.receivedSize) with
    | none =>
      rw [onHTTPData_unparsed hsession hparse]
      exact hstreamer
    | some clientID =>
      have hstarted := newSession_justStarted connection clientID request.mime request.version
        request.header l
      cases hfound : l.streamer.findSessionByID clientID with
      | none =>
        rw [onHTTPData_unfound hsession hparse hfound]
        refine hstreamer.discard hcoordinated rfl hstarted hreads (newSession_transferTasks ?_)
        refine hretired ?_
        rw [discards, hsession, hparse, Option.any_some, hfound]
        rfl
      | some session =>
        rw [onHTTPData_found hsession hparse hfound]
        refine alive_plainCall (c := .onRequest request.buffer request.finish)
          (hstreamer.create hcoordinated rfl hstarted hreads)
          (hcoordinated.create rfl hstarted hreads hsession) trivial _

theorem alive_closed (h : Alive l) (hl : Coordinated [] [] l) {connection : ℕ}
    (hreads : l.server.reads connection = true) (finish : List (List UInt8))
    (hretired : l.DestroysRetired (.closed connection finish)) :
    Alive (l.step (.closed connection finish)) := by
  refine Alive.post ?_ (.onStop connection)
  obtain ⟨c, hc, rfl, -⟩ := Tcp.Server.exists_of_reads hreads
  have hdetached := Tcp.Server.detached_onClose hl.tracked hc
  have hserver : Alive { l with server := l.server.update c.id Tcp.Connection.onClose } :=
    h.congr rfl rfl rfl rfl rfl
  rw [onHTTPClose]
  split
  · exact hserver
  · rename_i entry hsession
    obtain ⟨hentry, hconnection⟩ := mem_of_find hsession
    have hat : l.sessionAt entry.address = some entry :=
      (find_eq_some hl.addresses).mpr ⟨hentry, rfl⟩
    have hcoordinated := (hl.evolve (hl.tracked.evolves_onClose c.id)).withStreamer
      (l.streamer.onHTTPClose c.id)
    refine alive_call (hserver.congr rfl rfl rfl rfl rfl) hcoordinated hat trivial ?_ rfl ?_ ?_
    · intro connection hcallback
      obtain rfl : c.id = connection := Option.some.inj hcallback
      exact ⟨hconnection.symm, hdetached⟩
    · intro connection hmember
      exact ⟨rfl, (List.mem_singleton.mp hmember).trans hconnection.symm⟩
    · intro connection finish' _ hstopped
      exact hretired entry hentry hconnection hstopped

theorem alive_stop (h : Alive l) (hl : Coordinated [] [] l) (environment : Environment)
    (finish : ℕ → List (List UInt8)) : Alive (l.stop environment finish) := by
  refine (stop_keeps (P := fun l => Coordinated [] [] l ∧ Alive l) ?_ environment
    ⟨hl.withStreamer _, h.congr rfl rfl rfl rfl rfl⟩).2
  rintro l entry ⟨hl, h⟩
  refine ⟨coordinated_plainCall (c := .stop none (finish entry.address)) hl rfl entry.address, ?_⟩
  exact alive_plainCall (c := .stop none (finish entry.address)) h hl rfl entry.address

/-- The callback that runs first finds no task of its session behind it. -/
theorem alive_callback (h : Alive l) (hl : Coordinated [] [] l) {callback : Callback}
    {rest : List Handler} (hhandlers : l.handlers = .callback callback :: rest)
    (hretired : l.DestroysRetired .handler) :
    Alive ({ l with handlers := rest }.invoke callback) := by
  have hnext := h.next hhandlers
  cases callback with
  | none => exact hnext
  | some connection =>
    refine hnext.remove (hl.next hhandlers) ?_
    rintro e he rfl
    have horder := h.order
    rw [InOrder, hhandlers, List.pairwise_cons] at horder
    refine ⟨h.stopped e he ?_, ?_, ?_⟩
    · rw [hhandlers]
      exact List.mem_cons_self
    · intro htask
      exact horder.1 _ htask e he rfl rfl
    · refine hretired e.connection ?_ e he rfl
      rw [calledBackNext, hhandlers]
      rfl

theorem alive_runHandler (h : Alive l) (hl : Coordinated [] [] l)
    (hretired : l.DestroysRetired .handler) : Alive l.runHandler := by
  rw [runHandler]
  split
  · exact h
  · rename_i handler rest hhandlers
    have hnext := h.next hhandlers
    cases handler with
    | tcp handler =>
      cases handler with
      | onStop connection => exact hnext.post (.removal connection)
      | removal connection => exact hnext.congr rfl rfl rfl rfl rfl
    | transferTask session =>
      have hknown : session ∈ l.addresses := by
        refine h.tasks session ?_
        rw [hhandlers]
        exact List.mem_cons_self
      exact alive_plainCall (c := .transferTask) (hnext.enterSession hknown)
        ((hl.next hhandlers).enterSession session) trivial session
    | callback callback => exact alive_callback h hl hhandlers hretired

theorem alive_onFlushTimer (h : Alive l) (hl : Coordinated [] [] l) {timer : FlushTimer}
    (htimer : timer ∈ l.timers) : Alive (l.onFlushTimer timer) := by
  have herase : Alive { l with timers := l.timers.erase timer } :=
    h.withTimers fun t ht => List.mem_of_mem_erase ht
  rw [onFlushTimer]
  obtain ⟨entry, hsession⟩ := Option.isSome_iff_exists.mp (sessionAt_isSome (h.timers timer htimer))
  obtain ⟨hentry, haddress⟩ := mem_of_find hsession
  obtain ⟨hencoder, hconnection⟩ := hl.flushing timer htimer entry hentry haddress.symm
  refine alive_call (herase.enterSession (h.timers timer htimer))
    ((hl.eraseTimerOf hentry haddress).enterSession timer.session) hsession
    hencoder ?_ rfl ?_ (fun _ _ heq => Call.noConfusion heq)
  · intro connection hcallback
    exact ⟨hconnection connection hcallback,
      hl.removing connection (Or.inr ⟨timer, htimer, hcallback⟩)⟩
  · intro connection hmember
    exact ⟨rfl, List.mem_singleton.mp hmember⟩

theorem alive_onWritten (h : Alive l) (hl : Coordinated [] [] l) {write : PendingWrite}
    (hwrite : write ∈ l.writes) (completion : Completion) :
    Alive (l.onWritten write completion) := by
  have herase : Alive { l with writes := l.writes.erase write } :=
    h.withWrites fun w hw => List.mem_of_mem_erase hw
  rw [onWritten]
  obtain ⟨entry, hsession⟩ := Option.isSome_iff_exists.mp (sessionAt_isSome (h.writes write hwrite))
  obtain ⟨hentry, haddress⟩ := mem_of_find hsession
  refine alive_call (herase.enterSession (h.writes write hwrite))
    ((hl.eraseWrite hwrite).enterSession write.session) hsession
    (hl.transferring hwrite hentry haddress) ?_ ?_ ?_ (fun _ _ heq => Call.noConfusion heq)
  · intro connection hcallback
    cases hcallback
  · rw [← haddress]
    rfl
  · intro connection hmember
    cases hmember

/-- **Every step keeps the invariant** that destroys sessions only when nothing but their last
flush timer is left. -/
theorem alive_step {e : Event} (h : Alive l) (hl : Coordinated [] [] l)
    (henabled : (system.restrict DestroysRetired).enabled l e) : Alive (l.step e) := by
  obtain ⟨henabled, hretired⟩ := henabled
  cases e with
  | accepted connection error =>
    have hserver : Alive { l with server := l.server.onAccept connection error } :=
      h.congr rfl rfl rfl rfl rfl
    cases error with
    | false => exact hserver.congr rfl (List.append_nil _) rfl rfl rfl
    | true => exact hserver.post (.onStop connection)
  | received connection request => exact alive_onHTTPData h hl henabled hretired
  | closed connection finish => exact alive_closed h hl henabled finish hretired
  | stopServer => exact h.congr rfl rfl rfl rfl rfl
  | streamer stimulus => exact h.congr rfl rfl rfl rfl rfl
  | chunk session chunk output finish =>
    exact alive_plainCall (c := .consumeChunk chunk output finish) h hl trivial session
  | stop environment finish => exact alive_stop h hl environment finish
  | handler => exact alive_runHandler h hl hretired
  | timer timer => exact alive_onFlushTimer h hl henabled
  | written write completion => exact alive_onWritten h hl henabled completion

theorem alive_exec (n : ℕ) (streamer : Streamer) (es : List Event)
    (hadmits : (system.restrict DestroysRetired).Admits (started n streamer) es) :
    Alive ((system.restrict DestroysRetired).exec (started n streamer) es) := by
  refine ((system.restrict DestroysRetired).exec_invariant
    (fun l => Coordinated [] [] l ∧ Alive l) ?_ es _
    ⟨coordinated_started n streamer, alive_started n streamer⟩ hadmits).2
  rintro l e ⟨hl, h⟩ henabled
  exact ⟨coordinated_step hl henabled.1, alive_step h hl henabled⟩

/-- **No handler, flush timer or write completion runs for a session that has been destroyed**,
and none is left of one, in every run that destroys sessions only when nothing but their last
flush timer is left. -/
theorem session_exists (n : ℕ) (streamer : Streamer) (es : List Event)
    (hadmits : (system.restrict DestroysRetired).Admits (started n streamer) es) :
    NoneOutlives (system.exec (started n streamer) es) := by
  have h := alive_exec n streamer es hadmits
  rw [System.restrict_exec] at h
  exact h.toNoneOutlives

/-! ### Sessions that are destroyed with handlers left -/

/-- A request of a player that is not known; the FLAC encoder begins with its stream marker. -/
def unknownPlayer : Request :=
  let received := octets ['G', 'E', 'T', ' ', '/', '?', 'i', 'd', '=', '7']
  ⟨received, received.length, "audio/flac", "1", [octets ['f', 'L', 'a', 'C']], []⟩

/-- A PCM session is removed after its connection has closed, and another one is discarded. -/
def removedAndDiscarded : List Event :=
  removedAfterFlush ++ [.accepted 1 false, .received 1 unknownPlayer]

theorem session_exists_removedAndDiscarded :
    NoneOutlives (system.exec (started 5 waveStreamer) removedAndDiscarded) :=
  session_exists 5 waveStreamer removedAndDiscarded (by decide +kernel)

/-- A Streamer that sends FLAC. -/
def flacStreamer : Streamer := Streamer.create 9001 .FLAC none ⟨0⟩

/-- A stream is prepared, so that the encoder gets a sampling rate.  Then a FLAC session is
discarded because its request is refused; its encoder has posted a task. -/
def refused : List Event :=
  [.streamer (.start Streamer.quiet),
    .streamer (.chunk Streamer.quiet (fun _ => true) Streamer.audio),
    .accepted 0 false, .received 0 unknownPlayer]

theorem session_exists_unknownPlayer :
    system.Admits (started 5 flacStreamer) (refused ++ [.handler]) ∧
      (system.exec (started 5 flacStreamer) refused).streamer.samplingRate = 44100 ∧
      (system.exec (started 5 flacStreamer) refused).handlers = [.transferTask 0] ∧
      (system.exec (started 5 flacStreamer) refused).addresses = [] ∧
      (system.exec (started 5 flacStreamer) (refused ++ [.handler])).sessionUses =
        [⟨0, false⟩] := by
  decide +kernel

/-- A chunk of another rate, which stops the session. -/
def otherRate : Event := .chunk 0 { frame with samplingRate := 48000 } [] []

-- the connection of a session that has stopped closes before a task of the session has run
example : (system.exec (started 5 waveStreamer) (transferring ++
    [.written ⟨0, ⟨0, 0, 8⟩⟩ ⟨false, 8⟩, otherRate, .closed 0 [], .handler])).sessionUses =
    [⟨0, true⟩, ⟨0, true⟩, ⟨0, false⟩] := by
  decide +kernel

-- a session that transfers is stopped by two chunks of another rate before its connection closes
example : (system.exec (started 5 waveStreamer) (transferring ++
    [otherRate, otherRate, .closed 0 [], writeFails, .timer ⟨0, 3, some 0⟩, .handler, .handler,
      .handler, .timer ⟨0, 1, none⟩])).sessionUses =
    [⟨0, true⟩, ⟨0, true⟩, ⟨0, true⟩, ⟨0, true⟩, ⟨0, false⟩] := by
  decide +kernel

end EventLoop

end SlimStreamer
