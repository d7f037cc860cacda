import SlimStreamer.Lib.Execution

/-!
# The discovery server

`conn::udp::Server` with the callbacks of `createDiscoveryCallbacks`: whatever a player sends is
answered with an `E`.  All receives share one buffer and one `peerEndpoint`, which a datagram
fills in when it arrives, before the handler of its receive runs.

* `Server`, `Event`, `system` — the server, its receives and the handlers that are due;
* `Serving`, `serving_step` — what runs keep in which it is started alone and no receive fails;
* `discovers_iff` — in these runs, and in no others, it goes on receiving and answers everybody;
* `deaf_after_failure` — after a receive that failed it answers nobody.
-/

namespace SlimStreamer

namespace Udp

open GuardedExecution

/-- What the handler of a receive is called with. -/
inductive Completion where
  | error
  /-- A datagram of this peer. -/
  | datagram (peer : ℕ)
  deriving DecidableEq

def Completion.isDatagram : Completion → Bool
  | .error => false
  | .datagram _ => true

structure Server where
  /-- Whether there is a socket; it is open then. -/
  nativeSocket : Bool
  /-- The endpoint is unspecified at first. -/
  peerEndpoint : Option (Option ℕ)
  started : Bool
  /-- The number of receives that are outstanding, all of them on the socket. -/
  receives : ℕ
  /-- The receives that have completed, and whose handlers have not run. -/
  completions : List Completion
  /-- What `send_to` was called with. -/
  sent : List (Option ℕ × List UInt8)
  /-- The senders of the datagrams that were handled while there was a socket. -/
  handled : List ℕ
  deriving DecidableEq

namespace Server

def create : Server where
  nativeSocket := false
  peerEndpoint := none
  started := false
  receives := 0
  completions := []
  sent := []
  handled := []

def write (data : List UInt8) (s : Server) : Server :=
  match s.nativeSocket, s.peerEndpoint with
  | true, some endpoint => { s with sent := s.sent ++ [(endpoint, data)] }
  | _, _ => s

def receiveData (s : Server) : Server :=
  if s.nativeSocket then { s with receives := s.receives + 1 } else s

/-- Creating a socket if required; the endpoint is a new one in any case. -/
def openSocket (s : Server) : Server :=
  { s with
    nativeSocket := true
    peerEndpoint := some none }.receiveData

def start (s : Server) : Server := { s.openSocket with started := true }

/-- The receives that are outstanding are cancelled. -/
def closeSocket (s : Server) : Server :=
  { s with
    nativeSocket := false
    receives := 0
    completions := s.completions ++ List.replicate s.receives .error }

def stop (s : Server) : Server :=
  { s.closeSocket with
    peerEndpoint := none
    started := false }

/-- `E`, the answer of the Logitech Media Server. -/
def discoveryResponse : List UInt8 := [69]

/-- A datagram is handled. -/
def note (peer : ℕ) (s : Server) : Server :=
  { s with handled := if s.nativeSocket then s.handled ++ [peer] else s.handled }

def onData (completion : Completion) (s : Server) : Server :=
  match completion with
  | .error => s
  | .datagram peer => ((s.note peer).write discoveryResponse).receiveData

inductive Event where
  | start
  | stop
  /-- A datagram arrives. -/
  | datagram (peer : ℕ)
  /-- A receive fails. -/
  | failed
  /-- The handler of the first receive that has completed runs. -/
  | handler
  deriving DecidableEq

def step (s : Server) : Event → Server
  | .start => s.start
  | .stop => s.stop
  | .datagram peer => { s with
      receives := s.receives - 1
      peerEndpoint := some (some peer)
      completions := s.completions ++ [.datagram peer] }
  | .failed => { s with
      receives := s.receives - 1
      completions := s.completions ++ [.error] }
  | .handler =>
    match s.completions with
    | [] => s
    | completion :: rest => { s with completions := rest }.onData completion

def enabled (s : Server) : Event → Prop
  | .datagram _ | .failed => 0 < s.receives
  | .handler => s.completions ≠ []
  | .start | .stop => True

instance (s : Server) : DecidablePred (enabled s)
  | .datagram _ | .failed => inferInstanceAs (Decidable (0 < s.receives))
  | .handler => inferInstanceAs (Decidable (s.completions ≠ []))
  | .start | .stop => isTrue trivial

def system : System Server Event where
  enabled := enabled
  step := step

instance (s : Server) (e : Event) : Decidable (system.enabled s e) :=
  inferInstanceAs (Decidable (enabled s e))

/-! ### What is required -/

/-- The receives that are outstanding or have a datagram to be handled. -/
def pending (s : Server) : ℕ := s.receives + s.completions.countP Completion.isDatagram

/-- The server receives as long as there is a socket, and each datagram that was handled was
answered, once and to whoever sent it. -/
structure Discovers (s : Server) : Prop where
  listening : s.nativeSocket = true → s.pending = 1
  answered : s.sent = s.handled.map fun peer => (some peer, discoveryResponse)

/-- No receive fails, and the server is started with no receive and no datagram left. -/
def StartsAlone (s : Server) : Event → Prop
  | .start => s.pending = 0
  | .failed => False
  | _ => True

instance (s : Server) : DecidablePred (StartsAlone s)
  | .start => inferInstanceAs (Decidable (s.pending = 0))
  | .failed => isFalse id
  | .stop | .datagram _ | .handler => isTrue trivial

/-- **What such runs keep**: a datagram that is to be handled is the one the endpoint is of. -/
structure Serving (s : Server) : Prop extends Discovers s where
  atMostOne : s.pending ≤ 1
  closed : s.nativeSocket = false → s.receives = 0
  peer : s.nativeSocket = true → ∀ peer, .datagram peer ∈ s.completions →
    s.peerEndpoint = some (some peer)

/-! ### Every step -/

variable {s : Server}

theorem serving_create : Serving create :=
  ⟨⟨nofun, rfl⟩, Nat.zero_le 1, fun _ => rfl, nofun⟩

theorem no_datagram (h : s.completions.countP Completion.isDatagram = 0) (peer : ℕ) :
    .datagram peer ∉ s.completions := by
  intro hmem
  exact List.countP_eq_zero.mp h _ hmem rfl

theorem countP_errors (n : ℕ) :
    (List.replicate n Completion.error).countP Completion.isDatagram = 0 := by
  simp [List.countP_replicate, Completion.isDatagram]

theorem start_pending (s : Server) : s.start.pending = s.pending + 1 := by
  simp only [pending, start, openSocket, receiveData, if_true]
  omega

theorem datagram_pending (hreceives : 0 < s.receives) (peer : ℕ) :
    (s.step (.datagram peer)).pending = s.pending := by
  have hone : [Completion.datagram peer].countP Completion.isDatagram = 1 := rfl
  show s.receives - 1 + (s.completions ++ [Completion.datagram peer]).countP
    Completion.isDatagram = _
  rw [List.countP_append, pending]
  omega

theorem failed_pending (hreceives : 0 < s.receives) :
    (s.step .failed).pending + 1 = s.pending := by
  have hnone : [Completion.error].countP Completion.isDatagram = 0 := rfl
  show s.receives - 1 + (s.completions ++ [Completion.error]).countP Completion.isDatagram + 1 = _
  rw [List.countP_append, pending]
  omega

theorem serving_start (h : Serving s) (hpending : s.pending = 0) : Serving s.start := by
  have hone : s.start.pending = 1 := by rw [start_pending, hpending]
  refine ⟨⟨fun _ => hone, h.answered⟩, Nat.le_of_eq hone, nofun, ?_⟩
  intro _ peer hmem
  exact absurd hmem (no_datagram (Nat.eq_zero_of_add_eq_zero_left hpending) peer)

theorem serving_stop (h : Serving s) : Serving s.stop := by
  have hle := h.atMostOne
  refine ⟨⟨nofun, h.answered⟩, ?_, fun _ => rfl, nofun⟩
  simp only [pending, stop, closeSocket, List.countP_append, countP_errors] at hle ⊢
  omega

/-- A datagram arrives at the one receive. -/
theorem serving_datagram (h : Serving s) (hreceives : 0 < s.receives) (peer : ℕ) :
    Serving (s.step (.datagram peer)) := by
  have hle := h.atMostOne
  rw [pending] at hle
  have hsame := datagram_pending hreceives peer
  refine ⟨⟨?_, h.answered⟩, Nat.le_trans (Nat.le_of_eq hsame) h.atMostOne, ?_, ?_⟩
  · intro hopen
    exact hsame.trans (h.listening hopen)
  · intro hclosed
    exact absurd (h.closed hclosed) (Nat.ne_of_gt hreceives)
  · intro _ p hmem
    rcases List.mem_append.mp hmem with hmem | hmem
    · exact absurd hmem (no_datagram (by omega) p)
    · cases List.mem_singleton.mp hmem
      rfl

/-- An error is logged, and nothing else happens. -/
theorem serving_error (h : Serving s) {rest : List Completion}
    (hfirst : s.completions = .error :: rest) : Serving { s with completions := rest } := by
  have hsame : pending { s with completions := rest } = s.pending := by
    simp [pending, hfirst, Completion.isDatagram]
  refine ⟨⟨?_, h.answered⟩, Nat.le_trans (Nat.le_of_eq hsame) h.atMostOne, h.closed, ?_⟩
  · intro hopen
    exact hsame.trans (h.listening hopen)
  · intro hopen peer hmem
    refine h.peer hopen peer ?_
    rw [hfirst]
    exact List.mem_cons_of_mem _ hmem

/-- A datagram is answered, and the next receive begins, if there is a socket. -/
theorem serving_handled (h : Serving s) {peer : ℕ} {rest : List Completion}
    (hfirst : s.completions = .datagram peer :: rest) :
    Serving (onData (.datagram peer) { s with completions := rest }) := by
  have hle := h.atMostOne
  rw [pending, hfirst, List.countP_cons_of_pos rfl] at hle
  have hnone : rest.countP Completion.isDatagram = 0 := by omega
  have hreceives : s.receives = 0 := by omega
  by_cases hopen : s.nativeSocket = true
  · have hendpoint := h.peer hopen peer (by rw [hfirst]; exact List.mem_cons_self)
    have hanswer : onData (.datagram peer) { s with completions := rest } =
        { s with
          completions := rest
          handled := s.handled ++ [peer]
          sent := s.sent ++ [(some peer, discoveryResponse)]
          receives := s.receives + 1 } := by
      simp [onData, note, write, receiveData, hopen, hendpoint]
    rw [hanswer]
    have hone : pending { s with
        completions := rest
        handled := s.handled ++ [peer]
        sent := s.sent ++ [(some peer, discoveryResponse)]
        receives := s.receives + 1 } = 1 := by
      simp [pending, hreceives, hnone]
    refine ⟨⟨fun _ => hone, ?_⟩, Nat.le_of_eq hone, ?_, ?_⟩
    · simp [h.answered]
    · intro hfalse
      exact absurd (hfalse.symm.trans hopen) Bool.false_ne_true
    · intro _ p hmem
      exact absurd hmem (no_datagram (s := { s with completions := rest }) hnone p)
  · have hidle : onData (.datagram peer) { s with completions := rest } =
        { s with completions := rest } := by
      simp [onData, note, write, receiveData, hopen]
    rw [hidle]
    refine ⟨⟨fun htrue => absurd htrue hopen, h.answered⟩, ?_, h.closed,
      fun htrue => absurd htrue hopen⟩
    simp [pending, hreceives, hnone]

theorem serving_step {e : Event} (h : Serving s) (he : s.enabled e) (halone : StartsAlone s e) :
    Serving (s.step e) := by
  cases e with
  | start => exact serving_start h halone
  | stop => exact serving_stop h
  | datagram peer => exact serving_datagram h he peer
  | failed => exact halone.elim
  | handler =>
    rw [step]
    cases hfirst : s.completions with
    | nil => exact h
    | cons completion rest =>
      cases completion with
      | error => exact serving_error h hfirst
      | datagram peer => exact serving_handled h hfirst

/-- Any other step ends it. -/
theorem not_discovers_step {e : Event} (h : Serving s) (he : s.enabled e)
    (halone : ¬ StartsAlone s e) : ¬ Discovers (s.step e) := by
  intro hdiscovers
  cases e with
  | start =>
    have hone := hdiscovers.listening rfl
    have htwo := start_pending s
    have hpos : s.pending ≠ 0 := halone
    rw [step] at hone
    omega
  | failed =>
    have hreceives : 0 < s.receives := he
    have hopen : s.nativeSocket = true := by
      cases hclosed : s.nativeSocket with
      | true => rfl
      | false => exact absurd (h.closed hclosed) (Nat.ne_of_gt hreceives)
    have hbefore := h.listening hopen
    have hafter : (s.step .failed).pending = 1 := hdiscovers.listening hopen
    have hfewer := failed_pending hreceives
    omega
  | _ => exact halone trivial

/-- **The discovery server goes on receiving and answers everybody who asks it, once, if and only
if** no receive fails and it is never started while a receive or a datagram is left. -/
theorem discovers_iff {es : List Event} (hes : system.Admits create es) :
    system.Always Discovers create es ↔ (system.restrict StartsAlone).Admits create es :=
  system.always_iff_admits_restrict Serving Discovers StartsAlone (fun _ h => h.toDiscovers)
    (fun _ _ h he halone => serving_step h he halone)
    (fun _ _ h he halone => not_discovers_step h he halone) es create serving_create hes

/-- Two players ask, and the server is stopped and started again in between. -/
def twoPlayers : List Event :=
  [.start, .datagram 1, .handler, .stop, .handler, .start, .datagram 2, .handler]

theorem discovers_iff_twoPlayers :
    system.Always Discovers create twoPlayers ∧
      (system.exec create twoPlayers).sent =
        [(some 1, discoveryResponse), (some 2, discoveryResponse)] :=
  ⟨(discovers_iff (by decide)).mpr (by decide), by decide⟩

/-! ### A receive that fails -/

theorem deaf_step {e : Event} (he : s.enabled e) (hstart : e ≠ .start) (h : s.pending = 0) :
    (s.step e).pending = 0 ∧ (s.step e).sent = s.sent := by
  have hreceives : s.receives = 0 := Nat.eq_zero_of_add_eq_zero_right h
  have hnone : s.completions.countP Completion.isDatagram = 0 :=
    Nat.eq_zero_of_add_eq_zero_left h
  cases e with
  | start => exact absurd rfl hstart
  | stop =>
    refine ⟨?_, rfl⟩
    simp only [pending, step, stop, closeSocket, List.countP_append, countP_errors, hnone]
  | datagram peer => exact absurd hreceives (Nat.ne_of_gt he)
  | failed => exact absurd hreceives (Nat.ne_of_gt he)
  | handler =>
    rw [step]
    cases hfirst : s.completions with
    | nil => exact ⟨h, rfl⟩
    | cons completion rest =>
      rw [hfirst] at hnone
      cases completion with
      | error =>
        refine ⟨?_, rfl⟩
        rw [List.countP_cons_of_neg Bool.false_ne_true] at hnone
        simp [pending, onData, hreceives, hnone]
      | datagram peer => simp [Completion.isDatagram] at hnone

theorem deaf_exec {es : List Event} (hes : system.Admits s es) (hstart : .start ∉ es)
    (h : s.pending = 0) : (system.exec s es).sent = s.sent := by
  induction es generalizing s with
  | nil => rfl
  | cons e es ih =>
    have hne : e ≠ .start := by
      rintro rfl
      exact hstart List.mem_cons_self
    obtain ⟨hpending, hsent⟩ := deaf_step hes.1 hne h
    exact (ih hes.2 (fun hmem => hstart (List.mem_cons_of_mem _ hmem)) hpending).trans hsent

/-- **The first receive that fails is the last one**, if the server was never started while a
receive or a datagram was left: the error is logged, and nobody is answered any more until the
server is started again. -/
theorem deaf_after_failure {es fs : List Event}
    (hes : (system.restrict StartsAlone).Admits create es)
    (hfs : system.Admits (system.exec create es) (.failed :: fs)) (hstart : .start ∉ fs) :
    (system.exec create (es ++ .failed :: fs)).sent = (system.exec create es).sent := by
  have hserving : Serving ((system.restrict StartsAlone).exec create es) :=
    (system.restrict StartsAlone).exec_invariant Serving
      (fun _ _ h he => serving_step h he.1 he.2) es create serving_create hes
  rw [System.restrict_exec] at hserving
  rw [System.exec_append]
  generalize system.exec create es = s at hserving hfs
  have hreceives : 0 < s.receives := hfs.1
  have hle := hserving.atMostOne
  have hpending : (s.step .failed).pending = 0 := by
    have hfewer := failed_pending hreceives
    omega
  exact deaf_exec (s := s.step .failed) hfs.2 hstart hpending

/-- The second player asks in vain: there is no receive that its datagram could complete. -/
theorem deaf_after_failure_twoPlayers :
    (system.exec create ([.start, .datagram 1, .handler] ++ .failed :: [.handler])).sent =
      (system.exec create [.start, .datagram 1, .handler]).sent :=
  deaf_after_failure (by decide) (by decide) (by decide)

end Server

end Udp

end SlimStreamer
