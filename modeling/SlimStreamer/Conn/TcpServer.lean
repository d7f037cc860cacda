import SlimStreamer.Lib.Execution
import SlimStreamer.Lib.KeyedList

/-!
# The TCP server

`conn::tcp::Server` and `Connection`: one connection waits in `async_accept`; when it opens,
another one is added, or the acceptor is disposed of once the limit is reached.  A connection
that closes is removed two posted handlers later.

Acceptors and connections are numbered as they are created.  The asynchronous operation of a
connection is a field of it, and the handlers posted with `processorProxy.process` are a queue.
The callbacks of the application appear here only through what they do to a connection, which
is `stopConnection`; errors of setting socket options are not modelled.

* `Loop`, `Event`, `system` — the server and its event loop;
* `Serving`, `serving_step` — the invariant of the runs in which no accept fails and no removal
  finds the server full;
* `accepts_below_limit` — there the server always accepts below its limit, and never exceeds it;
* `stalled_exec` — after an accept that failed it never accepts again.
-/

namespace SlimStreamer

namespace Tcp

open GuardedExecution KeyedList

/-- The asynchronous operation of a connection. -/
inductive Operation where
  | accept (acceptor : ℕ)
  | read
  deriving DecidableEq, Repr

structure Connection where
  id : ℕ
  opened : Bool
  /-- `nativeSocket.is_open()`. -/
  socketOpen : Bool
  pending : Option Operation
  deriving DecidableEq, Repr

namespace Connection

/-- `start`, up to the end of the accept. -/
def start (id acceptor : ℕ) : Connection := ⟨id, false, false, some (.accept acceptor)⟩

/-- An accept without an error: `onOpen`, but for the callback, and the first read. -/
def onOpen (c : Connection) : Connection :=
  { c with
    socketOpen := true
    opened := true
    pending := some .read }

/-- `onClose`, but for the callback and the handler it posts. -/
def onClose (c : Connection) : Connection :=
  { c with
    opened := false
    pending := none }

/-- `stop`: the operation that is outstanding will fail. -/
def stop (c : Connection) : Connection := { c with socketOpen := false }

def isWaiting (c : Connection) : Bool :=
  match c.pending with
  | some (.accept _) => true
  | _ => false

end Connection

/-- A handler posted with `processorProxy.process`. -/
inductive Handler where
  /-- `Connection::onStop`: invoking the stop callback. -/
  | onStop (connection : ℕ)
  /-- The handler the stop callback posts. -/
  | removal (connection : ℕ)
  deriving DecidableEq, Repr

def Handler.connection : Handler → ℕ
  | .onStop connection => connection
  | .removal connection => connection

structure Server where
  maxConnections : ℕ
  started : Bool
  acceptorPtr : Option ℕ
  connections : List Connection
  nextAcceptor : ℕ
  nextConnection : ℕ
  deriving DecidableEq, Repr

namespace Server

def create (maxConnections : ℕ) : Server where
  maxConnections := maxConnections
  started := false
  acceptorPtr := none
  connections := []
  nextAcceptor := 0
  nextConnection := 0

/-- Without an acceptor nothing is said about the call: it is never made then. -/
def addConnection (s : Server) : Server :=
  match s.acceptorPtr with
  | none => s
  | some acceptor => { s with
      connections := s.connections ++ [Connection.start s.nextConnection acceptor]
      nextConnection := s.nextConnection + 1 }

def removeConnection (id : ℕ) (s : Server) : Server :=
  { s with connections := discard Connection.id id s.connections }

/-- Creating an acceptor if required. -/
def startAcceptor (s : Server) : Server :=
  match s.acceptorPtr with
  | some _ => s
  | none => { s with
      acceptorPtr := some s.nextAcceptor
      nextAcceptor := s.nextAcceptor + 1 }

/-- The accepts that wait on the acceptor will fail. -/
def stopAcceptor (s : Server) : Server := { s with acceptorPtr := none }

/-- The number of open connections. -/
def foundTotal (s : Server) : ℕ := s.connections.countP Connection.opened

def waitingTotal (s : Server) : ℕ := s.connections.countP Connection.isWaiting

/-- The open callback, after the one of the application. -/
def openCallback (s : Server) : Server :=
  -- registering a new connection if capacity allows
  if s.foundTotal = 0 ∨ s.foundTotal < s.maxConnections then s.addConnection
  else s.stopAcceptor

def start (s : Server) : Server := { s.startAcceptor.addConnection with started := true }

def stop (s : Server) : Server :=
  let s := { s with started := false }.stopAcceptor
  { s with connections := s.connections.map Connection.stop }

def update (id : ℕ) (f : Connection → Connection) (s : Server) : Server :=
  { s with connections := alter Connection.id id f s.connections }

/-- The handler of `async_accept`, but for the handler `onClose` posts. -/
def onAccept (id : ℕ) (error : Bool) (s : Server) : Server :=
  if error then s.update id Connection.onClose
  else (s.update id Connection.onOpen).openCallback

/-- The handler the stop callback posts. -/
def onRemoval (id : ℕ) (s : Server) : Server :=
  let s := s.removeConnection id
  -- starting acceptor if required and adding new connection
  if s.started ∧ s.acceptorPtr = none then s.startAcceptor.addConnection else s

/-- The accept of a connection may complete; without an error only on a live acceptor. -/
def accepts (id : ℕ) (error : Bool) (s : Server) : Bool :=
  s.connections.any fun c => c.id == id && c.isWaiting &&
    (error || c.pending == s.acceptorPtr.map Operation.accept)

def has (id : ℕ) (s : Server) : Bool := s.connections.any fun c => c.id == id

/-- A connection is being read from. -/
def reads (id : ℕ) (s : Server) : Bool :=
  s.connections.any fun c => c.id == id && c.pending == some .read

end Server

/-- A server with the queue of the posted handlers. -/
structure Loop where
  server : Server
  handlers : List Handler
  deriving DecidableEq, Repr

inductive Event where
  /-- An accept completes. -/
  | accepted (connection : ℕ) (error : Bool)
  /-- A read completes with an error. -/
  | closed (connection : ℕ)
  /-- The application stops a connection. -/
  | stopConnection (connection : ℕ)
  | stop
  /-- The first posted handler runs. -/
  | handler
  deriving DecidableEq, Repr

namespace Loop

/-- A server after `start`. -/
def started (maxConnections : ℕ) : Loop := ⟨(Server.create maxConnections).start, []⟩

def runHandler (l : Loop) : Loop :=
  match l.handlers with
  | [] => l
  | .onStop id :: rest => ⟨l.server, rest ++ [.removal id]⟩
  | .removal id :: rest => ⟨l.server.onRemoval id, rest⟩

def step (l : Loop) : Event → Loop
  | .accepted id error =>
    ⟨l.server.onAccept id error, if error then l.handlers ++ [.onStop id] else l.handlers⟩
  | .closed id => ⟨l.server.update id Connection.onClose, l.handlers ++ [.onStop id]⟩
  | .stopConnection id => { l with server := l.server.update id Connection.stop }
  | .stop => { l with server := l.server.stop }
  | .handler => l.runHandler

def enabled (l : Loop) : Event → Prop
  | .accepted id error => l.server.accepts id error = true
  | .closed id => l.server.reads id = true
  | .handler => l.handlers ≠ []
  | _ => True

instance (l : Loop) : DecidablePred (enabled l)
  | .accepted id error => inferInstanceAs (Decidable (l.server.accepts id error = true))
  | .closed id => inferInstanceAs (Decidable (l.server.reads id = true))
  | .handler => inferInstanceAs (Decidable (l.handlers ≠ []))
  | .stopConnection _ | .stop => isTrue trivial

/-- The runs between `start` and `stop`. -/
def system : System Loop Event where
  enabled l e := enabled l e ∧ e ≠ .stop
  step := step

instance (l : Loop) (e : Event) : Decidable (system.enabled l e) :=
  inferInstanceAs (Decidable (enabled l e ∧ e ≠ .stop))

end Loop

/-! ### What is required -/

namespace Server

/-- All accepts that wait, wait on this acceptor. -/
def WaitsOn (acceptor : ℕ) (s : Server) : Prop :=
  ∀ c ∈ s.connections, c.isWaiting = true → c.pending = some (.accept acceptor)

/-- Exactly one connection waits, on a live acceptor. -/
def AcceptsOne (s : Server) : Prop :=
  s.waitingTotal = 1 ∧ ∃ acceptor, s.acceptorPtr = some acceptor ∧ s.WaitsOn acceptor

/-- The limit is reached, and there is no acceptor. -/
def Full (s : Server) : Prop := s.foundTotal = s.maxConnections ∧ s.acceptorPtr = none

end Server

namespace Loop

/-- The next handler removes a connection. -/
def removesNext (l : Loop) : Bool :=
  match l.handlers with
  | .removal _ :: _ => true
  | _ => false

/-- No accept fails, and no removal finds the limit reached and no acceptor. -/
def Sound (l : Loop) : Event → Prop
  | .accepted _ error => error = false
  | .handler => l.removesNext = true → ¬ l.server.Full
  | _ => True

instance (s : Server) : Decidable s.Full :=
  inferInstanceAs (Decidable (s.foundTotal = s.maxConnections ∧ s.acceptorPtr = none))

instance (l : Loop) : DecidablePred (Sound l)
  | .accepted _ error => inferInstanceAs (Decidable (error = false))
  | .handler => inferInstanceAs (Decidable (l.removesNext = true → ¬ l.server.Full))
  | .closed _ | .stopConnection _ | .stop => isTrue trivial

end Loop

/-! ### The connections of a server -/

namespace Server

variable {s : Server}

/-- Numbers are given once, and a connection is open as long as it is read from. -/
structure Tracked (s : Server) : Prop where
  distinct : Distinct Connection.id s.connections
  fresh : ∀ c ∈ s.connections, c.id < s.nextConnection
  reading : ∀ c ∈ s.connections, c.opened = true ↔ c.pending = some .read

/-- A connection that has closed, and may have been removed. -/
def Detached (id : ℕ) (s : Server) : Prop :=
  id < s.nextConnection ∧ ∀ c ∈ s.connections, c.id = id → c.pending = none

theorem Tracked.add (h : Tracked s) : Tracked s.addConnection := by
  rw [addConnection]
  split
  · exact h
  · refine ⟨h.distinct.concat ?_, ?_, ?_⟩
    · intro b hb
      exact Nat.ne_of_lt (h.fresh b hb)
    · intro c hc
      rcases List.mem_append.mp hc with hc | hc
      · exact Nat.lt_succ_of_lt (h.fresh c hc)
      · rw [List.mem_singleton.mp hc]
        exact Nat.lt_succ_self s.nextConnection
    · intro c hc
      rcases List.mem_append.mp hc with hc | hc
      · exact h.reading c hc
      · rw [List.mem_singleton.mp hc]
        simp [Connection.start]

theorem Detached.add {id : ℕ} (h : Detached id s) : Detached id s.addConnection := by
  rw [addConnection]
  split
  · exact h
  · refine ⟨Nat.lt_succ_of_lt h.1, ?_⟩
    intro c hc hid
    rcases List.mem_append.mp hc with hc | hc
    · exact h.2 c hc hid
    · rw [List.mem_singleton.mp hc] at hid
      exact absurd hid (Nat.ne_of_gt h.1)

theorem Tracked.update {id : ℕ} {f : Connection → Connection} (h : Tracked s)
    (hid : ∀ c, (f c).id = c.id)
    (hf : ∀ c ∈ s.connections, (f c).opened = true ↔ (f c).pending = some .read) :
    Tracked (s.update id f) := by
  refine ⟨h.distinct.alter hid, ?_, ?_⟩
  · intro c hc
    rcases mem_alter.mp hc with ⟨hc, -⟩ | ⟨a, ha, -, rfl⟩
    · exact h.fresh c hc
    · rw [hid]
      exact h.fresh a ha
  · intro c hc
    rcases mem_alter.mp hc with ⟨hc, -⟩ | ⟨a, ha, -, rfl⟩
    · exact h.reading c hc
    · exact hf a ha

theorem Detached.update {id id' : ℕ} {f : Connection → Connection} (h : Detached id s)
    (hid : ∀ c, (f c).id = c.id)
    (hf : ∀ c ∈ s.connections, c.id = id → id = id' → (f c).pending = none) :
    Detached id (s.update id' f) := by
  refine ⟨h.1, ?_⟩
  intro c hc hcid
  rcases mem_alter.mp hc with ⟨hc, -⟩ | ⟨a, ha, haid, rfl⟩
  · exact h.2 c hc hcid
  · rw [hid] at hcid
    exact hf a ha hcid (hcid.symm.trans haid)

theorem Tracked.remove {id : ℕ} (h : Tracked s) : Tracked (s.removeConnection id) where
  distinct := h.distinct.discard
  fresh c hc := h.fresh c (mem_discard.mp hc).1
  reading c hc := h.reading c (mem_discard.mp hc).1

theorem Detached.remove {id id' : ℕ} (h : Detached id s) : Detached id (s.removeConnection id') :=
  ⟨h.1, fun c hc => h.2 c (mem_discard.mp hc).1⟩

/-! The acceptor is none of their business. -/

theorem startAcceptor_connections (s : Server) :
    s.startAcceptor.connections = s.connections ∧
      s.startAcceptor.nextConnection = s.nextConnection := by
  rw [startAcceptor]
  split <;> exact ⟨rfl, rfl⟩

theorem Tracked.startAcceptor (h : Tracked s) : Tracked s.startAcceptor := by
  obtain ⟨hconnections, hnext⟩ := startAcceptor_connections s
  refine ⟨?_, ?_, ?_⟩
  · rw [hconnections]
    exact h.distinct
  · rw [hconnections, hnext]
    exact h.fresh
  · rw [hconnections]
    exact h.reading

theorem Detached.startAcceptor {id : ℕ} (h : Detached id s) : Detached id s.startAcceptor := by
  obtain ⟨hconnections, hnext⟩ := startAcceptor_connections s
  rw [Detached, hconnections, hnext]
  exact h

/-! ### What the operations do to the connections -/

theorem exists_of_accepts {id : ℕ} {error : Bool} (h : s.accepts id error = true) :
    ∃ c ∈ s.connections, c.id = id ∧ c.isWaiting = true ∧
      (error = false → c.pending = s.acceptorPtr.map Operation.accept) := by
  obtain ⟨c, hc, hparts⟩ := List.any_eq_true.mp h
  simp only [Bool.and_eq_true, Bool.or_eq_true, beq_iff_eq] at hparts
  obtain ⟨⟨hid, hwaiting⟩, hlive⟩ := hparts
  refine ⟨c, hc, hid, hwaiting, ?_⟩
  intro herror
  exact hlive.resolve_left (by simp [herror])

theorem exists_of_reads {id : ℕ} (h : s.reads id = true) :
    ∃ c ∈ s.connections, c.id = id ∧ c.pending = some .read := by
  obtain ⟨c, hc, hparts⟩ := List.any_eq_true.mp h
  simp only [Bool.and_eq_true, beq_iff_eq] at hparts
  exact ⟨c, hc, hparts⟩

theorem pending_of_isWaiting {c : Connection} (h : c.isWaiting = true) : c.pending ≠ none := by
  intro hnone
  rw [Connection.isWaiting, hnone] at h
  exact Bool.noConfusion h

theorem exists_of_has {id : ℕ} (h : s.has id = true) : ∃ c ∈ s.connections, c.id = id := by
  obtain ⟨c, hc, hid⟩ := List.any_eq_true.mp h
  exact ⟨c, hc, beq_iff_eq.mp hid⟩

theorem has_of_mem {c : Connection} (hc : c ∈ s.connections) : s.has c.id = true :=
  List.any_eq_true.mpr ⟨c, hc, beq_self_eq_true c.id⟩

theorem reads_of_mem {c : Connection} (hc : c ∈ s.connections) (h : c.pending = some .read) :
    s.reads c.id = true := by
  refine List.any_eq_true.mpr ⟨c, hc, ?_⟩
  rw [h]
  simp

theorem has_of_reads {id : ℕ} (h : s.reads id = true) : s.has id = true := by
  obtain ⟨c, hc, rfl, -⟩ := exists_of_reads h
  exact has_of_mem hc

theorem Detached.reads {id : ℕ} (h : Detached id s) : s.reads id = false := by
  rw [Bool.eq_false_iff]
  intro hreads
  obtain ⟨c, hc, hid, hpending⟩ := exists_of_reads hreads
  exact Option.some_ne_none _ (hpending.symm.trans (h.2 c hc hid))

/-- **What an operation of the server does**: connections that have closed stay closed, and
only the given ones close or are removed. -/
structure Evolves (closed removed : List ℕ) (s s' : Server) : Prop where
  tracked : Tracked s'
  detached : ∀ id, Detached id s → Detached id s'
  next : s.nextConnection ≤ s'.nextConnection
  reads : ∀ id ∉ closed, s.reads id = true → s'.reads id = true
  has : ∀ id ∉ removed, s.has id = true → s'.has id = true

section Before

variable {closed removed : List ℕ} {s' : Server}

/-- A connection that does not read did not read before, unless it has closed. -/
theorem Evolves.reads_before (h : Evolves closed removed s s') {id : ℕ} (hid : id ∉ closed)
    (hreads : s'.reads id = false) : s.reads id = false := by
  rw [Bool.eq_false_iff]
  intro hbefore
  exact Bool.noConfusion (hreads.symm.trans (h.reads id hid hbefore))

/-- A connection that does not exist did not exist before, unless it was removed. -/
theorem Evolves.has_before (h : Evolves closed removed s s') {id : ℕ} (hid : id ∉ removed)
    (hhas : s'.has id = false) : s.has id = false := by
  rw [Bool.eq_false_iff]
  intro hbefore
  exact Bool.noConfusion (hhas.symm.trans (h.has id hid hbefore))

end Before

theorem Evolves.trans {closed removed : List ℕ} {s' s'' : Server}
    (h : Evolves closed removed s s') (h' : Evolves [] [] s' s'') :
    Evolves closed removed s s'' where
  tracked := h'.tracked
  detached id hid := h'.detached id (h.detached id hid)
  next := Nat.le_trans h.next h'.next
  reads id hid hreads := h'.reads id List.not_mem_nil (h.reads id hid hreads)
  has id hid hhas := h'.has id List.not_mem_nil (h.has id hid hhas)

/-- Connections are added, and nothing else happens to them. -/
theorem evolves_of_prefix {s' : Server} (htracked : Tracked s')
    (hdetached : ∀ id, Detached id s → Detached id s')
    (hnext : s.nextConnection ≤ s'.nextConnection)
    (hconnections : ∀ c ∈ s.connections, c ∈ s'.connections) : Evolves [] [] s s' := by
  refine ⟨htracked, hdetached, hnext, ?_, ?_⟩
  · intro id _ hreads
    obtain ⟨c, hc, rfl, hpending⟩ := exists_of_reads hreads
    exact reads_of_mem (hconnections c hc) hpending
  · intro id _ hhas
    obtain ⟨c, hc, rfl⟩ := exists_of_has hhas
    exact has_of_mem (hconnections c hc)

theorem Tracked.evolves (h : Tracked s) : Evolves [] [] s s :=
  evolves_of_prefix h (fun _ hid => hid) (Nat.le_refl _) (fun _ hc => hc)

theorem Tracked.evolves_add (h : Tracked s) : Evolves [] [] s s.addConnection := by
  refine evolves_of_prefix h.add (fun _ hid => hid.add) ?_ ?_
  · rw [addConnection]
    split
    · exact Nat.le_refl _
    · exact Nat.le_succ _
  · intro c hc
    rw [addConnection]
    split
    · exact hc
    · exact List.mem_append_left _ hc

theorem Tracked.evolves_startAcceptor (h : Tracked s) : Evolves [] [] s s.startAcceptor := by
  obtain ⟨hconnections, hnext⟩ := startAcceptor_connections s
  refine evolves_of_prefix h.startAcceptor (fun _ hid => hid.startAcceptor)
    (Nat.le_of_eq hnext.symm) ?_
  intro c hc
  rw [hconnections]
  exact hc

theorem Tracked.evolves_openCallback (h : Tracked s) : Evolves [] [] s s.openCallback := by
  rw [Server.openCallback]
  split
  · exact h.evolves_add
  · exact evolves_of_prefix ⟨h.distinct, h.fresh, h.reading⟩ (fun _ hid => hid) (Nat.le_refl _)
      (fun _ hc => hc)

/-- Changing a connection: it closes, or it reads if it did. -/
theorem evolves_update {id : ℕ} {f : Connection → Connection} {closed : List ℕ}
    (htracked : Tracked (s.update id f))
    (hdetached : ∀ id', Detached id' s → Detached id' (s.update id f))
    (hid : ∀ c, (f c).id = c.id)
    (hf : id ∉ closed → ∀ c ∈ s.connections, c.id = id → c.pending = some .read →
      (f c).pending = some .read) : Evolves closed [] s (s.update id f) := by
  refine ⟨htracked, hdetached, (Nat.le_refl _), ?_, ?_⟩
  · intro x hx hreads
    obtain ⟨c, hc, rfl, hpending⟩ := exists_of_reads hreads
    by_cases hcid : c.id = id
    · rw [← hid c]
      subst hcid
      exact reads_of_mem (mem_alter.mpr (Or.inr ⟨c, hc, rfl, rfl⟩)) (hf hx c hc rfl hpending)
    · exact reads_of_mem (mem_alter.mpr (Or.inl ⟨hc, hcid⟩)) hpending
  · intro x _ hhas
    obtain ⟨c, hc, rfl⟩ := exists_of_has hhas
    by_cases hcid : c.id = id
    · rw [← hid c]
      exact has_of_mem (mem_alter.mpr (Or.inr ⟨c, hc, hcid, rfl⟩))
    · exact has_of_mem (mem_alter.mpr (Or.inl ⟨hc, hcid⟩))

/-- The socket of a connection is closed. -/
theorem Tracked.evolves_stopConnection (h : Tracked s) (id : ℕ) :
    Evolves [] [] s (s.update id Connection.stop) := by
  refine evolves_update (h.update (fun _ => rfl) h.reading) ?_ (fun _ => rfl)
    (fun _ _ _ _ hpending => hpending)
  intro x hx
  refine hx.update (fun _ => rfl) ?_
  intro a ha hax _
  exact hx.2 a ha hax

/-- A connection closes. -/
theorem Tracked.evolves_onClose (h : Tracked s) (id : ℕ) :
    Evolves [id] [] s (s.update id Connection.onClose) := by
  refine evolves_update (h.update (fun _ => rfl) ?_) ?_ (fun _ => rfl)
    (fun hid => absurd (List.mem_singleton.mpr rfl) hid)
  · intro a _
    simp [Connection.onClose]
  · intro x hx
    exact hx.update (fun _ => rfl) (fun _ _ _ _ => rfl)

theorem detached_onClose (h : Tracked s) {c : Connection} (hc : c ∈ s.connections) :
    Detached c.id (s.update c.id Connection.onClose) := by
  refine ⟨h.fresh c hc, ?_⟩
  intro a ha haid
  rcases mem_alter.mp ha with ⟨-, hne⟩ | ⟨b, -, -, rfl⟩
  · exact absurd haid hne
  · rfl

/-- An accept completes: the connection did not read. -/
theorem Tracked.evolves_onAccept (h : Tracked s) {id : ℕ} {error : Bool}
    (haccepts : s.accepts id error = true) : Evolves [] [] s (s.onAccept id error) := by
  obtain ⟨c, hc, rfl, hwaiting, -⟩ := exists_of_accepts haccepts
  have hnotReading : ∀ a ∈ s.connections, a.id = c.id → a.pending ≠ some .read := by
    intro a ha haid hpending
    rw [h.distinct.eq_of_key ha hc haid] at hpending
    rw [Connection.isWaiting, hpending] at hwaiting
    exact Bool.noConfusion hwaiting
  cases error with
  | true =>
    refine evolves_update (h.evolves_onClose c.id).tracked (h.evolves_onClose c.id).detached
      (fun _ => rfl) ?_
    intro _ a ha haid hpending
    exact absurd hpending (hnotReading a ha haid)
  | false =>
    have hopen : Tracked (s.update c.id Connection.onOpen) := by
      refine h.update (fun _ => rfl) ?_
      intro a _
      simp [Connection.onOpen]
    have hopens : Evolves [] [] s (s.update c.id Connection.onOpen) := by
      refine evolves_update hopen ?_ (fun _ => rfl) (fun _ _ _ _ _ => rfl)
      intro x hx
      refine hx.update (fun _ => rfl) ?_
      -- a connection that has closed does not wait
      intro a ha hax hxc
      exact absurd (hx.2 c hc hxc.symm) (pending_of_isWaiting hwaiting)
    exact hopens.trans hopen.evolves_openCallback

/-- A connection is removed after it has closed. -/
theorem Tracked.evolves_onRemoval (h : Tracked s) {id : ℕ} (hid : Detached id s) :
    Evolves [] [id] s (s.onRemoval id) := by
  have hremove : Evolves [] [id] s (s.removeConnection id) := by
    refine ⟨h.remove, fun _ hx => hx.remove, (Nat.le_refl _), ?_, ?_⟩
    · intro x _ hreads
      obtain ⟨c, hc, rfl, hpending⟩ := exists_of_reads hreads
      refine reads_of_mem (mem_discard.mpr ⟨hc, ?_⟩) hpending
      intro hcid
      exact Option.some_ne_none _ (hpending.symm.trans (hid.2 c hc hcid))
    · intro x hx hhas
      obtain ⟨c, hc, rfl⟩ := exists_of_has hhas
      refine has_of_mem (mem_discard.mpr ⟨hc, ?_⟩)
      intro hcid
      exact hx (List.mem_singleton.mpr hcid)
  rw [Server.onRemoval]
  split
  · exact hremove.trans (h.remove.evolves_startAcceptor.trans h.remove.startAcceptor.evolves_add)
  · exact hremove

/-- All sockets are closed. -/
theorem Tracked.evolves_stop (h : Tracked s) : Evolves [] [] s s.stop := by
  have hmem : ∀ c, c ∈ s.stop.connections ↔ ∃ a ∈ s.connections, a.stop = c := by
    intro c
    exact List.mem_map
  refine ⟨⟨?_, ?_, ?_⟩, ?_, (Nat.le_refl _), ?_, ?_⟩
  · show ((s.connections.map Connection.stop).map Connection.id).Nodup
    rw [List.map_map]
    exact h.distinct
  · intro c hc
    obtain ⟨a, ha, rfl⟩ := (hmem c).mp hc
    exact h.fresh a ha
  · intro c hc
    obtain ⟨a, ha, rfl⟩ := (hmem c).mp hc
    exact h.reading a ha
  · intro x hx
    refine ⟨hx.1, ?_⟩
    intro c hc hcid
    obtain ⟨a, ha, rfl⟩ := (hmem c).mp hc
    exact hx.2 a ha hcid
  · intro x _ hreads
    obtain ⟨c, hc, rfl, hpending⟩ := exists_of_reads hreads
    exact reads_of_mem (c := c.stop) ((hmem _).mpr ⟨c, hc, rfl⟩) hpending
  · intro x _ hhas
    obtain ⟨c, hc, rfl⟩ := exists_of_has hhas
    exact has_of_mem (c := c.stop) ((hmem _).mpr ⟨c, hc, rfl⟩)

/-! ### Counting -/

theorem update_foundTotal (h : Tracked s) {c : Connection} (hc : c ∈ s.connections)
    (f : Connection → Connection) :
    (s.update c.id f).foundTotal + c.opened.toNat = s.foundTotal + (f c).opened.toNat :=
  countP_alter h.distinct hc f Connection.opened

theorem update_waitingTotal (h : Tracked s) {c : Connection} (hc : c ∈ s.connections)
    (f : Connection → Connection) :
    (s.update c.id f).waitingTotal + c.isWaiting.toNat = s.waitingTotal + (f c).isWaiting.toNat :=
  countP_alter h.distinct hc f Connection.isWaiting

/-- Stopping a connection does not touch its operation. -/
theorem stop_foundTotal (id : ℕ) (s : Server) :
    (s.update id Connection.stop).foundTotal = s.foundTotal :=
  countP_alter_of_eq (f := Connection.stop) (p := Connection.opened) (fun _ => rfl) s.connections

theorem stop_waitingTotal (id : ℕ) (s : Server) :
    (s.update id Connection.stop).waitingTotal = s.waitingTotal :=
  countP_alter_of_eq (f := Connection.stop) (p := Connection.isWaiting) (fun _ => rfl)
    s.connections

theorem remove_foundTotal (h : Tracked s) {id : ℕ} (hid : Detached id s) :
    (s.removeConnection id).foundTotal = s.foundTotal := by
  by_cases hex : ∃ c ∈ s.connections, c.id = id
  · obtain ⟨c, hc, rfl⟩ := hex
    have hcount := countP_discard h.distinct hc Connection.opened
    have hclosed : c.opened = false := by
      rw [Bool.eq_false_iff, ne_eq, h.reading c hc, hid.2 c hc rfl]
      simp
    rw [hclosed] at hcount
    exact hcount
  · have hne : ∀ c ∈ s.connections, c.id ≠ id := by
      intro c hc heq
      exact hex ⟨c, hc, heq⟩
    rw [removeConnection, discard_of_ne hne]

theorem remove_waitingTotal (h : Tracked s) {id : ℕ} (hid : Detached id s) :
    (s.removeConnection id).waitingTotal = s.waitingTotal := by
  by_cases hex : ∃ c ∈ s.connections, c.id = id
  · obtain ⟨c, hc, rfl⟩ := hex
    have hcount := countP_discard h.distinct hc Connection.isWaiting
    have hidle : c.isWaiting = false := by
      rw [Connection.isWaiting, hid.2 c hc rfl]
    rw [hidle] at hcount
    exact hcount
  · have hne : ∀ c ∈ s.connections, c.id ≠ id := by
      intro c hc heq
      exact hex ⟨c, hc, heq⟩
    rw [removeConnection, discard_of_ne hne]

theorem add_foundTotal (s : Server) : s.addConnection.foundTotal = s.foundTotal := by
  rw [addConnection]
  split
  · rfl
  · simp [foundTotal, List.countP_append, Connection.start]

theorem add_waitingTotal {acceptor : ℕ} (h : s.acceptorPtr = some acceptor) :
    s.addConnection.waitingTotal = s.waitingTotal + 1 := by
  rw [addConnection, h]
  simp [waitingTotal, List.countP_append, Connection.start, Connection.isWaiting]

theorem add_acceptorPtr (s : Server) : s.addConnection.acceptorPtr = s.acceptorPtr := by
  rw [addConnection]
  split <;> rfl

theorem add_maxConnections (s : Server) : s.addConnection.maxConnections = s.maxConnections := by
  rw [addConnection]
  split <;> rfl

theorem add_started (s : Server) : s.addConnection.started = s.started := by
  rw [addConnection]
  split <;> rfl

/-! ### The connection that waits -/

theorem isWaiting_of_total (h : s.waitingTotal = 0) {c : Connection} (hc : c ∈ s.connections) :
    c.isWaiting = false := by
  rw [Bool.eq_false_iff]
  exact List.countP_eq_zero.mp h c hc

/-- Adding a connection when none waits. -/
theorem add_acceptsOne {acceptor : ℕ} (hacceptor : s.acceptorPtr = some acceptor)
    (hwaiting : s.waitingTotal = 0) : s.addConnection.AcceptsOne := by
  refine ⟨?_, acceptor, ?_, ?_⟩
  · rw [add_waitingTotal hacceptor, hwaiting]
  · rw [add_acceptorPtr, hacceptor]
  · intro c hc hcw
    rw [addConnection, hacceptor] at hc
    rcases List.mem_append.mp hc with hc | hc
    · rw [isWaiting_of_total hwaiting hc] at hcw
      exact Bool.noConfusion hcw
    · rw [List.mem_singleton.mp hc]
      rfl

/-- A change to a connection that neither waits before nor after it. -/
theorem AcceptsOne.update (h : s.AcceptsOne) (htracked : Tracked s) {c : Connection}
    (hc : c ∈ s.connections) {f : Connection → Connection} (hbefore : c.isWaiting = false)
    (hafter : (f c).isWaiting = false) : (s.update c.id f).AcceptsOne := by
  obtain ⟨htotal, acceptor, hacceptor, hwaits⟩ := h
  refine ⟨?_, acceptor, hacceptor, ?_⟩
  · have hcount := update_waitingTotal htracked hc f
    rw [hbefore, hafter] at hcount
    exact hcount.trans htotal
  · intro b hb hbw
    rcases mem_alter.mp hb with ⟨hb, -⟩ | ⟨a, ha, haid, rfl⟩
    · exact hwaits b hb hbw
    · rw [htracked.distinct.eq_of_key ha hc haid, hafter] at hbw
      exact Bool.noConfusion hbw

theorem AcceptsOne.remove (h : s.AcceptsOne) (htracked : Tracked s) {id : ℕ}
    (hid : Detached id s) : (s.removeConnection id).AcceptsOne := by
  obtain ⟨htotal, acceptor, hacceptor, hwaits⟩ := h
  refine ⟨?_, acceptor, hacceptor, ?_⟩
  · rw [remove_waitingTotal htracked hid, htotal]
  · intro c hc
    exact hwaits c (mem_discard.mp hc).1

theorem AcceptsOne.stopConnection (h : s.AcceptsOne) (id : ℕ) :
    (s.update id Connection.stop).AcceptsOne := by
  obtain ⟨htotal, acceptor, hacceptor, hwaits⟩ := h
  refine ⟨?_, acceptor, hacceptor, ?_⟩
  · rw [stop_waitingTotal, htotal]
  · intro c hc hcw
    rcases mem_alter.mp hc with ⟨hc, -⟩ | ⟨a, ha, -, rfl⟩
    · exact hwaits c hc hcw
    · exact hwaits a ha hcw

/-! ### The invariant -/

/-- **The invariant**, while some connections are on their way out: one connection waits while
there is room, and otherwise enough are open or closing. -/
structure Providing (closing : ℕ) (s : Server) : Prop where
  started : s.started = true
  bounded : s.foundTotal ≤ s.maxConnections
  acceptance : (s.AcceptsOne ∧ s.foundTotal < s.maxConnections) ∨
    (s.acceptorPtr = none ∧ s.waitingTotal = 0 ∧ s.maxConnections ≤ s.foundTotal + closing)

variable {closing : ℕ}

/-- A connection has opened: another one is added, or the limit is reached. -/
theorem providing_openCallback {acceptor : ℕ} (hacceptor : s.acceptorPtr = some acceptor)
    (hstarted : s.started = true) (hwaiting : s.waitingTotal = 0) (hopen : 0 < s.foundTotal)
    (hbounded : s.foundTotal ≤ s.maxConnections) : Providing closing s.openCallback := by
  rw [openCallback]
  by_cases hroom : s.foundTotal = 0 ∨ s.foundTotal < s.maxConnections
  · have hlt : s.foundTotal < s.maxConnections := hroom.resolve_left (Nat.ne_of_gt hopen)
    rw [if_pos hroom]
    refine ⟨?_, ?_, Or.inl ⟨add_acceptsOne hacceptor hwaiting, ?_⟩⟩
    · rw [add_started, hstarted]
    · rw [add_foundTotal, add_maxConnections]
      exact hbounded
    · rw [add_foundTotal, add_maxConnections]
      exact hlt
  · have hfull : s.maxConnections ≤ s.foundTotal + closing := by
      have hge : s.maxConnections ≤ s.foundTotal := Nat.not_lt.mp fun hlt => hroom (Or.inr hlt)
      omega
    rw [if_neg hroom]
    exact ⟨hstarted, hbounded, Or.inr ⟨rfl, hwaiting, hfull⟩⟩

theorem Providing.accepted (h : Providing closing s) (htracked : Tracked s) {c : Connection}
    (hc : c ∈ s.connections) (hwaiting : c.isWaiting = true)
    (hlive : c.pending = s.acceptorPtr.map Operation.accept) :
    Providing closing (s.onAccept c.id false) := by
  have hpositive : s.waitingTotal ≠ 0 := by
    intro hzero
    rw [isWaiting_of_total hzero hc] at hwaiting
    exact Bool.noConfusion hwaiting
  obtain ⟨⟨htotal, acceptor, hacceptor, -⟩, hroom⟩ :=
    h.acceptance.resolve_right fun hfull => hpositive hfull.2.1
  have hclosed : c.opened = false := by
    rw [Bool.eq_false_iff, ne_eq, htracked.reading c hc, hlive, hacceptor]
    simp
  have hfound : (s.update c.id Connection.onOpen).foundTotal = s.foundTotal + 1 := by
    have hcount := update_foundTotal htracked hc Connection.onOpen
    rw [hclosed] at hcount
    exact hcount
  have hnone : (s.update c.id Connection.onOpen).waitingTotal = 0 := by
    have hcount := update_waitingTotal htracked hc Connection.onOpen
    rw [hwaiting, htotal] at hcount
    exact Nat.succ.inj hcount
  have hbounded : s.foundTotal + 1 ≤ s.maxConnections := hroom
  exact providing_openCallback hacceptor h.started hnone (by omega) (by rw [hfound]; exact hbounded)

/-- A connection closes, and is on its way out. -/
theorem Providing.closed (h : Providing closing s) (htracked : Tracked s) {c : Connection}
    (hc : c ∈ s.connections) (hreading : c.pending = some .read) :
    Providing (closing + 1) (s.update c.id Connection.onClose) := by
  have hopened : c.opened = true := (htracked.reading c hc).mpr hreading
  have hidle : c.isWaiting = false := by
    rw [Connection.isWaiting, hreading]
  have hfound : (s.update c.id Connection.onClose).foundTotal + 1 = s.foundTotal := by
    have hcount := update_foundTotal htracked hc Connection.onClose
    rw [hopened] at hcount
    exact hcount
  have hwait : (s.update c.id Connection.onClose).waitingTotal = s.waitingTotal := by
    have hcount := update_waitingTotal htracked hc Connection.onClose
    rw [hidle] at hcount
    exact hcount
  have hmax : (s.update c.id Connection.onClose).maxConnections = s.maxConnections := rfl
  have hbounded := h.bounded
  refine ⟨h.started, by omega, ?_⟩
  rcases h.acceptance with ⟨hone, hroom⟩ | ⟨hacceptor, hzero, hfull⟩
  · exact Or.inl ⟨hone.update htracked hc hidle rfl, by omega⟩
  · exact Or.inr ⟨hacceptor, hwait.trans hzero, by omega⟩

theorem Providing.stopConnection (h : Providing closing s) (id : ℕ) :
    Providing closing (s.update id Connection.stop) := by
  refine ⟨h.started, ?_, ?_⟩
  · rw [stop_foundTotal]
    exact h.bounded
  rw [stop_foundTotal, stop_waitingTotal]
  exact h.acceptance.imp (fun hone => ⟨hone.1.stopConnection id, hone.2⟩) fun hfull => hfull

/-- A connection is removed: the acceptor is started again if the limit is not reached. -/
theorem Providing.onRemoval (h : Providing (closing + 1) s) (htracked : Tracked s) {id : ℕ}
    (hid : Detached id s) (hnotFull : ¬ s.Full) : Providing closing (s.onRemoval id) := by
  have hfound := remove_foundTotal htracked hid
  have hwait := remove_waitingTotal htracked hid
  rw [Server.onRemoval]
  rcases h.acceptance with ⟨hone, hroom⟩ | ⟨hacceptor, hzero, -⟩
  · obtain ⟨acceptor, hacceptor, -⟩ := hone.2
    have hsome : ¬ ((s.removeConnection id).started = true ∧
        (s.removeConnection id).acceptorPtr = none) := by
      rintro ⟨-, hnone⟩
      exact Option.some_ne_none acceptor (hacceptor.symm.trans hnone)
    rw [if_neg hsome]
    refine ⟨h.started, ?_, Or.inl ⟨hone.remove htracked hid, ?_⟩⟩
    · rw [hfound]
      exact h.bounded
    · rw [hfound]
      exact hroom
  · have hroom : s.foundTotal < s.maxConnections :=
      Nat.lt_of_le_of_ne h.bounded fun heq => hnotFull ⟨heq, hacceptor⟩
    have hnone : (s.removeConnection id).acceptorPtr = none := hacceptor
    have hstarted : (s.removeConnection id).started = true := h.started
    rw [if_pos ⟨hstarted, hnone⟩]
    have hrestarted : (s.removeConnection id).startAcceptor.addConnection.foundTotal =
        s.foundTotal := by
      rw [add_foundTotal, ← hfound, startAcceptor, hnone]
      rfl
    have hmax : (s.removeConnection id).startAcceptor.addConnection.maxConnections =
        s.maxConnections := by
      rw [add_maxConnections, startAcceptor, hnone]
      rfl
    have hzero' : (s.removeConnection id).startAcceptor.waitingTotal = 0 := by
      rw [← hzero, ← hwait, startAcceptor, hnone]
      rfl
    have hsome : (s.removeConnection id).startAcceptor.acceptorPtr = some s.nextAcceptor := by
      rw [startAcceptor, hnone]
      rfl
    refine ⟨?_, ?_, Or.inl ⟨add_acceptsOne hsome hzero', ?_⟩⟩
    · rw [add_started, startAcceptor, hnone]
      exact h.started
    · rw [hrestarted, hmax]
      exact h.bounded
    · rw [hrestarted, hmax]
      exact hroom

end Server

/-! ### The runs -/

namespace Loop

open Server

variable {l : Loop}

/-- What every run keeps: each posted handler is for a connection that has closed. -/
structure Consistent (l : Loop) : Prop where
  tracked : Tracked l.server
  detached : ∀ h ∈ l.handlers, Detached h.connection l.server

/-- The server moves on, and handlers are posted for connections that have closed. -/
theorem Consistent.evolve {closed removed : List ℕ} {server : Server} {handlers : List Handler}
    (h : Consistent l) (hserver : Evolves closed removed l.server server)
    (hhandlers : ∀ x ∈ handlers, x ∈ l.handlers ∨ Detached x.connection server) :
    Consistent ⟨server, handlers⟩ := by
  refine ⟨hserver.tracked, ?_⟩
  intro x hx
  exact (hhandlers x hx).elim (fun hold => hserver.detached _ (h.detached x hold)) fun hnew => hnew

/-- A connection closes, and its handler is posted. -/
theorem Consistent.closes (h : Consistent l) {c : Connection} (hc : c ∈ l.server.connections) :
    Consistent ⟨l.server.update c.id Connection.onClose, l.handlers ++ [.onStop c.id]⟩ := by
  refine h.evolve (h.tracked.evolves_onClose c.id) ?_
  intro x hx
  rcases List.mem_append.mp hx with hx | hx
  · exact Or.inl hx
  · rw [List.mem_singleton.mp hx]
    exact Or.inr (detached_onClose h.tracked hc)

theorem consistent_step {e : Event} (h : Consistent l) (henabled : system.enabled l e) :
    Consistent (l.step e) := by
  obtain ⟨henabled, hstop⟩ := henabled
  cases e with
  | accepted id error =>
    obtain ⟨c, hc, rfl, -, -⟩ := exists_of_accepts henabled
    cases error with
    | true => exact h.closes hc
    | false => exact h.evolve (h.tracked.evolves_onAccept henabled) fun _ hx => Or.inl hx
  | closed id =>
    obtain ⟨c, hc, rfl, -⟩ := exists_of_reads henabled
    exact h.closes hc
  | stopConnection id =>
    exact h.evolve (h.tracked.evolves_stopConnection id) fun _ hx => Or.inl hx
  | stop => exact absurd rfl hstop
  | handler =>
    rcases l with ⟨server, handlers⟩
    cases handlers with
    | nil => exact h
    | cons x rest =>
      have hfirst : Detached x.connection server := h.detached x List.mem_cons_self
      cases x with
      | onStop id =>
        refine h.evolve h.tracked.evolves ?_
        intro y hy
        rcases List.mem_append.mp hy with hy | hy
        · exact Or.inl (List.mem_cons_of_mem _ hy)
        · rw [List.mem_singleton.mp hy]
          exact Or.inr hfirst
      | removal id =>
        exact h.evolve (h.tracked.evolves_onRemoval hfirst)
          fun y hy => Or.inl (List.mem_cons_of_mem _ hy)

structure Serving (l : Loop) : Prop extends Consistent l where
  providing : Providing l.handlers.length l.server

theorem serving_started {n : ℕ} (h : 1 ≤ n) : Serving (started n) := by
  have hone : (started n).server.AcceptsOne := by
    refine ⟨rfl, 0, rfl, ?_⟩
    intro c hc _
    rw [List.mem_singleton.mp hc]
    rfl
  refine ⟨⟨⟨List.nodup_singleton _, ?_, ?_⟩, ?_⟩, rfl, Nat.zero_le n, Or.inl ⟨hone, h⟩⟩
  · intro c hc
    rw [List.mem_singleton.mp hc]
    exact Nat.zero_lt_one
  · intro c hc
    rw [List.mem_singleton.mp hc]
    simp [Connection.start]
  · intro x hx
    cases hx

/-- **Every step that meets the condition keeps the invariant.** -/
theorem serving_step {e : Event} (h : Serving l) (henabled : (system.restrict Sound).enabled l e) :
    Serving (l.step e) := by
  obtain ⟨henabled, hsound⟩ := henabled
  refine ⟨consistent_step h.toConsistent henabled, ?_⟩
  obtain ⟨henabled, hstop⟩ := henabled
  cases e with
  | accepted id error =>
    obtain rfl : error = false := hsound
    obtain ⟨c, hc, rfl, hwaiting, hlive⟩ := exists_of_accepts henabled
    exact h.providing.accepted h.tracked hc hwaiting (hlive rfl)
  | closed id =>
    obtain ⟨c, hc, rfl, hreading⟩ := exists_of_reads henabled
    show Providing (l.handlers ++ [_]).length _
    rw [List.length_append]
    exact h.providing.closed h.tracked hc hreading
  | stopConnection id => exact h.providing.stopConnection id
  | stop => exact absurd rfl hstop
  | handler =>
    rcases l with ⟨server, handlers⟩
    cases handlers with
    | nil => exact h.providing
    | cons x rest =>
      cases x with
      | onStop id =>
        show Providing (rest ++ [_]).length server
        rw [List.length_append]
        exact h.providing
      | removal id =>
        have hid : Detached id server := h.detached (.removal id) List.mem_cons_self
        exact h.providing.onRemoval h.tracked hid (hsound rfl)

/-! The limit is a constant. -/

theorem onRemoval_maxConnections (id : ℕ) (s : Server) :
    (s.onRemoval id).maxConnections = s.maxConnections := by
  rw [Server.onRemoval]
  split
  · rw [add_maxConnections, startAcceptor]
    split <;> rfl
  · rfl

theorem openCallback_maxConnections (s : Server) :
    s.openCallback.maxConnections = s.maxConnections := by
  rw [Server.openCallback]
  split
  · exact add_maxConnections s
  · rfl

theorem step_maxConnections (l : Loop) (e : Event) :
    (l.step e).server.maxConnections = l.server.maxConnections := by
  cases e with
  | accepted id error =>
    cases error with
    | true => rfl
    | false => exact openCallback_maxConnections _
  | closed id => rfl
  | stopConnection id => rfl
  | stop => rfl
  | handler =>
    rcases l with ⟨server, handlers⟩
    cases handlers with
    | nil => rfl
    | cons x rest =>
      cases x with
      | onStop id => rfl
      | removal id => exact onRemoval_maxConnections id server

/-- What the invariant says about a server with a given limit. -/
theorem Serving.accepts {n : ℕ} (h : Serving l) (hlimit : l.server.maxConnections = n) :
    l.server.foundTotal ≤ n ∧
      (l.handlers = [] → l.server.AcceptsOne ∨
        l.server.foundTotal = n ∧ l.server.acceptorPtr = none) := by
  have hbounded := h.providing.bounded
  rw [hlimit] at hbounded
  refine ⟨hbounded, ?_⟩
  intro hidle
  rcases h.providing.acceptance with ⟨hone, -⟩ | ⟨hacceptor, -, hfull⟩
  · exact Or.inl hone
  · rw [hidle, hlimit] at hfull
    exact Or.inr ⟨Nat.le_antisymm hbounded hfull, hacceptor⟩

/-- Every run that meets the condition keeps the invariant, and the limit. -/
theorem serving_exec {n : ℕ} (hn : 1 ≤ n) (es : List Event)
    (hadmits : (system.restrict Sound).Admits (started n) es) :
    Serving (system.exec (started n) es) ∧
      (system.exec (started n) es).server.maxConnections = n := by
  have hserving := (system.restrict Sound).exec_invariant
    (fun l => Serving l ∧ l.server.maxConnections = n)
    (fun l e hl he => ⟨serving_step hl.1 he, (step_maxConnections l e).trans hl.2⟩)
    es (started n) ⟨serving_started hn, rfl⟩ hadmits
  rw [System.restrict_exec] at hserving
  exact hserving

/-- **The server accepts as long as it is below its limit**: in the runs in which no accept
fails and no removal finds the limit reached, the number of open connections never exceeds it,
and without posted handlers either exactly one connection waits on a live acceptor, or the
limit is reached and there is no acceptor. -/
theorem accepts_below_limit {n : ℕ} (hn : 1 ≤ n) (es : List Event)
    (hadmits : (system.restrict Sound).Admits (started n) es) :
    (system.exec (started n) es).server.foundTotal ≤ n ∧
      ((system.exec (started n) es).handlers = [] →
        (system.exec (started n) es).server.AcceptsOne ∨
          (system.exec (started n) es).server.foundTotal = n ∧
            (system.exec (started n) es).server.acceptorPtr = none) := by
  obtain ⟨hserving, hlimit⟩ := serving_exec hn es hadmits
  exact hserving.accepts hlimit

/-- One of two connections closes at full capacity and is removed. -/
def replaced : List Event :=
  [.accepted 0 false, .accepted 1 false, .closed 0, .handler, .handler]

theorem accepts_below_limit_replaced :
    (system.exec (started 2) replaced).server.foundTotal ≤ 2 ∧
      ((system.exec (started 2) replaced).handlers = [] →
        (system.exec (started 2) replaced).server.AcceptsOne ∨
          (system.exec (started 2) replaced).server.foundTotal = 2 ∧
            (system.exec (started 2) replaced).server.acceptorPtr = none) :=
  accepts_below_limit (by decide) replaced (by decide)

/-- The only accept fails. -/
def failedAccept : List Event := [.accepted 0 true, .handler, .handler]

/-- The first connection closes while two others open: its removal starts the acceptor again. -/
def lateRemoval : List Event :=
  [.accepted 0 false, .closed 0, .accepted 1 false, .accepted 2 false, .handler, .handler,
    .accepted 3 false]

/-- A server that does not accept, and one that exceeds its limit. -/
theorem accepts_below_limit_lost :
    (system.Admits (started 1) failedAccept ∧
      (system.exec (started 1) failedAccept).handlers = [] ∧
      ¬ ((system.exec (started 1) failedAccept).server.AcceptsOne ∨
        (system.exec (started 1) failedAccept).server.foundTotal = 1 ∧
          (system.exec (started 1) failedAccept).server.acceptorPtr = none)) ∧
    (system.Admits (started 2) lateRemoval ∧
      ¬ (system.exec (started 2) lateRemoval).server.foundTotal ≤ 2) := by
  have hzero : (system.exec (started 1) failedAccept).server.waitingTotal = 0 := by decide
  have hclosed : (system.exec (started 1) failedAccept).server.foundTotal = 0 := by decide
  refine ⟨⟨by decide, by decide, ?_⟩, by decide⟩
  rintro (⟨hone, -⟩ | ⟨hfull, -⟩)
  · exact Nat.zero_ne_one (hzero.symm.trans hone)
  · exact Nat.zero_ne_one (hclosed.symm.trans hfull)

/-! ### After an accept that failed -/

/-- An acceptor on which no connection waits. -/
def Stalled (s : Server) : Prop := s.acceptorPtr ≠ none ∧ s.waitingTotal = 0

/-- The failure of an accept is not made up for. -/
theorem stalled_failed {id : ℕ} (h : Serving l) (haccepts : l.server.accepts id true = true) :
    Stalled (l.step (.accepted id true)).server := by
  obtain ⟨c, hc, rfl, hwaiting, -⟩ := exists_of_accepts haccepts
  have hpositive : l.server.waitingTotal ≠ 0 := by
    intro hzero
    rw [isWaiting_of_total hzero hc] at hwaiting
    exact Bool.noConfusion hwaiting
  obtain ⟨⟨htotal, acceptor, hacceptor, -⟩, -⟩ :=
    h.providing.acceptance.resolve_right fun hfull => hpositive hfull.2.1
  refine ⟨?_, ?_⟩
  · intro hnone
    exact Option.some_ne_none acceptor (hacceptor.symm.trans hnone)
  · have hcount := update_waitingTotal h.tracked hc Connection.onClose
    rw [hwaiting, htotal] at hcount
    exact Nat.succ.inj hcount

theorem stalled_step {e : Event} (hl : Consistent l) (h : Stalled l.server)
    (henabled : system.enabled l e) : Stalled (l.step e).server := by
  obtain ⟨hacceptor, hzero⟩ := h
  obtain ⟨henabled, hstop⟩ := henabled
  cases e with
  | accepted id error =>
    obtain ⟨c, hc, -, hwaiting, -⟩ := exists_of_accepts henabled
    rw [isWaiting_of_total hzero hc] at hwaiting
    exact Bool.noConfusion hwaiting
  | closed id =>
    obtain ⟨c, hc, rfl, -⟩ := exists_of_reads henabled
    have hcount := update_waitingTotal hl.tracked hc Connection.onClose
    rw [isWaiting_of_total hzero hc, hzero] at hcount
    exact ⟨hacceptor, hcount⟩
  | stopConnection id => exact ⟨hacceptor, (stop_waitingTotal id l.server).trans hzero⟩
  | stop => exact absurd rfl hstop
  | handler =>
    rcases l with ⟨server, handlers⟩
    cases handlers with
    | nil => exact ⟨hacceptor, hzero⟩
    | cons x rest =>
      cases x with
      | onStop id => exact ⟨hacceptor, hzero⟩
      | removal id =>
        have hid : Detached id server := hl.detached (.removal id) List.mem_cons_self
        show Stalled (server.onRemoval id)
        rw [Server.onRemoval, if_neg fun hrestart => hacceptor hrestart.2]
        exact ⟨hacceptor, (remove_waitingTotal hl.tracked hid).trans hzero⟩

/-- **After an accept that failed the server never accepts again**, however few connections
are open. -/
theorem stalled_exec {id : ℕ} (h : Serving l) (haccepts : l.server.accepts id true = true)
    (es : List Event) (hadmits : system.Admits (l.step (.accepted id true)) es) :
    ¬ (system.exec (l.step (.accepted id true)) es).server.AcceptsOne ∧
      ¬ (system.exec (l.step (.accepted id true)) es).server.Full := by
  have hfirst : system.enabled l (.accepted id true) := ⟨haccepts, Event.noConfusion⟩
  obtain ⟨-, hacceptor, hzero⟩ := system.exec_invariant
    (fun l => Consistent l ∧ Stalled l.server)
    (fun _ _ hs he => ⟨consistent_step hs.1 he, stalled_step hs.1 hs.2 he⟩) es _
    ⟨consistent_step h.toConsistent hfirst, stalled_failed h haccepts⟩ hadmits
  constructor
  · rintro ⟨hone, -⟩
    exact Nat.zero_ne_one (hzero.symm.trans hone)
  · rintro ⟨-, hnone⟩
    exact hacceptor hnone

end Loop

end Tcp

end SlimStreamer
