import SlimStreamer.Lib.History
import SlimStreamer.Proto.ProbeRounds

/-!
# What interferes with a latency probe

A session pings its player and sets a flag, which is to tell whether anything interfered before the
answer: the flag is reset when a command is sent and when most messages are received.  Three kinds
of messages leave it alone: `STMt` reports, also those that answer no ping, `STAT` messages with an
event that has no handler, and messages that no handler gets.  A second ping sets the flag again.

* `WatchedSession`, `system` — a session with a log of what it received and sent;
* `KeepsMeasuring` — a measurement goes on only if no command was sent;
* `Watched`, `step_watched` — what the flag says about the log;
* `onRequest_reaches` — the octets received make such events;
* `undisturbed_iff` — when an accepted answer is undisturbed;
* `probes_undisturbed_iff` — the runs in which all of them are; `disturbed_probe` — one that is not.
-/

namespace SlimStreamer

open GuardedExecution History CommandSession

/-- What passes between a session and its player. -/
inductive Traffic where
  /-- A message that was given to its handler. -/
  | message (command : ClientCommand)
  /-- A message with a handler, other than `STAT`, that could not be read. -/
  | unreadable
  /-- A message that no handler gets: its label is unsupported, or it is a `STAT` that could not be
  read. -/
  | unsupported
  | sent (command : ServerCommand)
  deriving DecidableEq, Repr

namespace Traffic

def isPing : Traffic → Bool
  | sent (.time _) => true
  | _ => false

def isPingOf (index : ℕ) : Traffic → Bool
  | sent command => command == .time (index + 1)
  | _ => false

/-- A message that leaves the flag of the measurement alone. -/
def isUnnoticed : Traffic → Bool
  | message (.STAT d) =>
    StatEvent.find d.event == none || StatEvent.find d.event == some .STMt
  | unsupported => true
  | _ => false

theorem isPing_of_isPingOf {index : ℕ} {t : Traffic} (h : t.isPingOf index = true) :
    t.isPing = true := by
  cases t with
  | sent command =>
    rw [isPingOf, beq_iff_eq] at h
    rw [h, isPing]
  | _ => cases h

end Traffic

namespace CommandSession

/-! ### The flag of the measurement -/

/-- A measurement that goes on was under way before, and no command was sent. -/
def KeepsMeasuring (s s' : CommandSession) : Prop :=
  s'.measuringLatency = true → s.measuringLatency = true ∧ s'.written = s.written

section KeepsMeasuring

variable {s s' s'' : CommandSession}

theorem KeepsMeasuring.refl (s : CommandSession) : KeepsMeasuring s s := by
  intro hs
  exact ⟨hs, rfl⟩

theorem KeepsMeasuring.trans (h : KeepsMeasuring s s') (h' : KeepsMeasuring s' s'') :
    KeepsMeasuring s s'' := by
  intro hs
  obtain ⟨hs', hwritten'⟩ := h' hs
  obtain ⟨hs, hwritten⟩ := h hs'
  exact ⟨hs, hwritten'.trans hwritten⟩

theorem KeepsMeasuring.of_false (h : s'.measuringLatency = false) : KeepsMeasuring s s' := by
  intro hs
  rw [h] at hs
  cases hs

/-- What the Streamer calls keeps it: every command that is sent resets the flag. -/
theorem Change.keepsMeasuring (h : Change s s') : KeepsMeasuring s s' := by
  cases h with
  | prepared hs hrate => exact KeepsMeasuring.of_false rfl
  | played context hs hready => exact KeepsMeasuring.of_false rfl
  | stopped hs =>
    split
    · exact KeepsMeasuring.refl s
    · exact KeepsMeasuring.of_false rfl
  | _ => exact KeepsMeasuring.refl s

theorem Changes.keepsMeasuring (h : Changes s s') : KeepsMeasuring s s' :=
  h.keeps KeepsMeasuring.refl KeepsMeasuring.trans Change.keepsMeasuring

end KeepsMeasuring

section Messages

variable (context : Context) (timestamp : Timestamp)

theorem onHELO_measuring (helo : HELO) {s : CommandSession} (hs : s.measuringLatency = false) :
    (s.onHELO context helo).measuringLatency = false := by
  rw [onHELO]
  split
  · exact hs
  · rw [processEvent_handshake]
    split <;> rfl

/-- Events with a handler end a measurement, but for `STMt`. -/
theorem onSTAT_measuring {d : STAT} {event : StatEvent} (hevent : StatEvent.find d.event = some event)
    (hother : event ≠ .STMt) (s : CommandSession) :
    (s.onSTAT context timestamp d).1.measuringLatency = false := by
  rw [onSTAT, hevent]
  cases event with
  | STMt => exact absurd rfl hother
  | STMf =>
    show (onSTMf context { s with measuringLatency := false }).measuringLatency = false
    rw [onSTMf, processEvent_flushed]
    split
    · rfl
    · split <;> rfl
  | STMu =>
    show (onSTMu { s with measuringLatency := false }).measuringLatency = false
    rw [onSTMu]
    split <;> rfl
  | _ => rfl

/-- **A message that leaves the flag set** is one of those that go unnoticed, and makes the server
send nothing. -/
theorem deliver_keepsMeasuring (command : ClientCommand) (s : CommandSession)
    (h : (s.deliver context timestamp command).measuringLatency = true) :
    (s.measuringLatency = true ∧ (s.deliver context timestamp command).written = s.written) ∧
      (Traffic.message command).isUnnoticed = true := by
  cases command with
  | STAT d =>
    change (s.onSTAT context timestamp d).1.measuringLatency = true at h
    show (_ ∧ (s.onSTAT context timestamp d).1.written = _) ∧ _
    cases hevent : StatEvent.find d.event with
    | none =>
      rw [onSTAT, hevent] at h ⊢
      exact ⟨⟨h, rfl⟩, by simp [Traffic.isUnnoticed, hevent]⟩
    | some event =>
      by_cases hSTMt : event = .STMt
      · subst hSTMt
        obtain ⟨_, _, _, _, _, _, heq⟩ := onSTMt_eq context timestamp d s
        have hcall : (s.onSTAT context timestamp d).1 = s.onSTMt context timestamp d :=
          deliver_answer context timestamp hevent
        rw [hcall, heq] at h ⊢
        exact ⟨⟨h, rfl⟩, by simp [Traffic.isUnnoticed, hevent]⟩
      · rw [onSTAT_measuring context timestamp hevent hSTMt s] at h
        cases h
  | HELO helo =>
    have hflag := onHELO_measuring context helo (s := { s with measuringLatency := false }) rfl
    change ({ s with measuringLatency := false }.onHELO context helo).measuringLatency = true at h
    rw [hflag] at h
    cases h
  | _ => cases h

end Messages

end CommandSession

/-- A session, and what passed between it and its player. -/
structure WatchedSession where
  session : CommandSession
  log : List Traffic

namespace WatchedSession

/-- What happens to a session: a call, or a message that no handler gets leaves the ring. -/
inductive SessionEvent where
  | call (c : SessionCall)
  | unsupported (ring : Ring UInt8)

/-- What is received with an event. -/
def SessionEvent.received : SessionEvent → List Traffic
  | .call (.message _ _ command) => [.message command]
  | .call .unreadable => [.unreadable]
  | .unsupported _ => [.unsupported]
  | _ => []

def sessionAfter (s : CommandSession) : SessionEvent → CommandSession
  | .call c => s.call c
  | .unsupported ring => { s with commandRingBuffer := ring }

/-- What an event adds to the log: what it sends comes after what it receives. -/
def traffic (s : CommandSession) (e : SessionEvent) : List Traffic :=
  e.received ++ ((sessionAfter s e).written.drop s.written.length).map Traffic.sent

/-- The timer runs out when it is armed, and a ping handler runs when it is posted; the player sends
what it likes. -/
def enabled (x : WatchedSession) : SessionEvent → Prop
  | .call (.pingTimer _) => x.session.pingTimer.isSome = true
  | .call (.pingHandler _) => x.session.pingHandlers ≠ []
  | _ => True

instance (x : WatchedSession) : DecidablePred (enabled x)
  | .call (.pingTimer _) => inferInstanceAs (Decidable (x.session.pingTimer.isSome = true))
  | .call (.pingHandler _) => inferInstanceAs (Decidable (x.session.pingHandlers ≠ []))
  | .call (.buffered _) | .call (.message _ _ _) | .call .unreadable | .call (.prepare _ _)
  | .call (.setStreamingSession _) | .call (.consumeChunk _ _ _) | .call (.stop _)
  | .unsupported _ => isTrue trivial

def step (x : WatchedSession) (e : SessionEvent) : WatchedSession where
  session := sessionAfter x.session e
  log := x.log ++ traffic x.session e

def system : System WatchedSession SessionEvent where
  enabled := enabled
  step := step

instance (x : WatchedSession) (e : SessionEvent) : Decidable (system.enabled x e) :=
  inferInstanceAs (Decidable (enabled x e))

/-- The index of the answer that `onSTMt` takes as a valid measurement. -/
def acceptedIndex (s : CommandSession) : SessionEvent → Option ℕ
  | .call c => if (PingedSession.accepted s c).isSome then PingedSession.answeredBy c else none
  | .unsupported _ => none

/-- The session of a player that has just connected. -/
def opened (address : ℕ) (clientID : List UInt8) (streamingPort : ℕ)
    (formatSelection : FormatSelection) (gain : Option ℕ) (now : Timestamp) (context : Context) :
    WatchedSession where
  session := (CommandSession.create address clientID streamingPort formatSelection gain now).start
    context
  log := []

/-! ### The invariant -/

/-- **What the flag says about the log**: since the latest ping only messages were received that go
unnoticed, and no command was sent. -/
def Watched (x : WatchedSession) : Prop :=
  x.session.measuringLatency = true →
    ∃ b, since Traffic.isPing x.log = some b ∧ ∀ t ∈ b, t.isUnnoticed = true

variable {x : WatchedSession}

theorem isPing_of_unnoticed {t : Traffic} (h : t.isUnnoticed = true) : t.isPing = false := by
  cases t with
  | sent command => cases h
  | _ => rfl

/-- An event that sends nothing. -/
theorem traffic_silent {s : CommandSession} {e : SessionEvent}
    (h : (sessionAfter s e).written = s.written) : traffic s e = e.received := by
  rw [traffic, h, List.drop_length, List.map_nil, List.append_nil]

/-- An event after which the flag is set only if it was before, nothing is sent and what is received
goes unnoticed. -/
theorem Watched.quiet (hx : Watched x) {e : SessionEvent}
    (h : (sessionAfter x.session e).measuringLatency = true →
      (x.session.measuringLatency = true ∧
        (sessionAfter x.session e).written = x.session.written) ∧
      ∀ t ∈ e.received, t.isUnnoticed = true) : Watched (x.step e) := by
  intro hflag
  obtain ⟨⟨hbefore, hwritten⟩, hreceived⟩ := h hflag
  obtain ⟨b, hb, hunnoticed⟩ := hx hbefore
  refine ⟨b ++ e.received, ?_, ?_⟩
  · show since Traffic.isPing (x.log ++ traffic x.session e) = _
    rw [traffic_silent hwritten,
      since_append x.log (fun t ht => isPing_of_unnoticed (hreceived t ht)), hb, Option.map_some]
  · exact List.forall_mem_append.mpr ⟨hunnoticed, hreceived⟩

/-- A ping is the last entry of the log. -/
theorem Watched.pinged {e : SessionEvent} (index : ℕ)
    (hwritten : (sessionAfter x.session e).written = x.session.written ++ [.time (index + 1)])
    (hreceived : e.received = []) : Watched (x.step e) := by
  intro _
  refine ⟨[], ?_, List.forall_mem_nil _⟩
  have htraffic : traffic x.session e = [.sent (.time (index + 1))] := by
    rw [traffic, hreceived, hwritten, List.drop_left]
    rfl
  show since Traffic.isPing (x.log ++ traffic x.session e) = some []
  rw [htraffic]
  exact since_concat x.log rfl

theorem pingHandler_watched (hx : Watched x) (context : Context) :
    Watched (x.step (.call (.pingHandler context))) := by
  have hcall : sessionAfter x.session (.call (.pingHandler context)) =
      x.session.onPingHandler context := rfl
  cases hhandlers : x.session.pingHandlers with
  | nil =>
    refine hx.quiet ?_
    intro hflag
    rw [hcall, onPingHandler, hhandlers] at hflag ⊢
    exact ⟨⟨hflag, rfl⟩, List.forall_mem_nil _⟩
  | cons index rest =>
    refine Watched.pinged index ?_ rfl
    rw [hcall, onPingHandler, hhandlers]
    rfl

/-- **Every event keeps the invariant.** -/
theorem step_watched (hx : Watched x) (e : SessionEvent) : Watched (x.step e) := by
  cases e with
  | unsupported ring =>
    refine hx.quiet ?_
    intro hflag
    exact ⟨⟨hflag, rfl⟩, List.forall_mem_singleton.mpr rfl⟩
  | call c =>
    cases c with
    | message context timestamp command =>
      refine hx.quiet ?_
      intro hflag
      obtain ⟨hkeeps, hunnoticed⟩ := deliver_keepsMeasuring context timestamp command _ hflag
      exact ⟨hkeeps, List.forall_mem_singleton.mpr hunnoticed⟩
    | unreadable =>
      refine hx.quiet ?_
      intro hflag
      cases hflag
    | pingTimer context =>
      refine Watched.pinged x.session.probes.size ?_ rfl
      simp [sessionAfter, call, onPingTimer, ping, send]
    | pingHandler context => exact pingHandler_watched hx context
    | prepare context rate =>
      refine hx.quiet ?_
      intro hflag
      exact ⟨(prepare_changes context rate x.session).keepsMeasuring hflag, List.forall_mem_nil _⟩
    | consumeChunk context answer chunk =>
      refine hx.quiet ?_
      intro hflag
      exact ⟨(consumeChunk_changes context answer chunk x.session).keepsMeasuring hflag,
        List.forall_mem_nil _⟩
    | stop context =>
      refine hx.quiet ?_
      intro hflag
      exact ⟨(stop_changes context x.session).keepsMeasuring hflag, List.forall_mem_nil _⟩
    | _ =>
      refine hx.quiet ?_
      intro hflag
      exact ⟨⟨hflag, rfl⟩, List.forall_mem_nil _⟩

/-! ### Received octets -/

/-- Events lead from one state of a session to another. -/
def Reaches (s s' : CommandSession) : Prop :=
  ∀ log, ∃ events, system.Admits ⟨s, log⟩ events ∧ (system.exec ⟨s, log⟩ events).session = s'

theorem Reaches.refl (s : CommandSession) : Reaches s s := by
  intro log
  exact ⟨[], trivial, rfl⟩

theorem Reaches.trans {s s' s'' : CommandSession} (h : Reaches s s') (h' : Reaches s' s'') :
    Reaches s s'' := by
  intro log
  obtain ⟨events, hevents, rfl⟩ := h log
  obtain ⟨events', hevents', rfl⟩ := h' (system.exec ⟨s, log⟩ events).log
  refine ⟨events ++ events', ?_, ?_⟩
  · rw [system.admits_append]
    exact ⟨hevents, hevents'⟩
  · rw [system.exec_append]

/-- One event that can happen at any time. -/
theorem Reaches.of_event {s : CommandSession} {e : SessionEvent}
    (he : ∀ log, enabled ⟨s, log⟩ e) : Reaches s (sessionAfter s e) := by
  intro log
  exact ⟨[e], ⟨he log, trivial⟩, rfl⟩

theorem requestTurn_reaches (context : Context) (timestamp : Timestamp) (s : CommandSession) :
    Reaches s (s.requestTurn context timestamp).session := by
  have hmessage (command : ClientCommand) : Reaches s (s.deliver context timestamp command) :=
    Reaches.of_event (e := .call (.message context timestamp command)) fun _ => trivial
  have hturn := requestTurn_turned context timestamp s
  generalize s.requestTurn context timestamp = turn at hturn
  cases hturn with
  | rest hrest => exact Reaches.refl s
  | skipped h4 hfind =>
    exact Reaches.of_event (e := .unsupported s.commandRingBuffer.pop) fun _ => trivial
  | @unreadable label failure hconstruct =>
    show Reaches s (s.interfere label)
    rw [interfere]
    by_cases hlabel : label = .STAT
    · rw [if_pos hlabel]
      exact Reaches.of_event (e := .unsupported s.commandRingBuffer) fun _ => trivial
    · rw [if_neg hlabel]
      exact Reaches.of_event (e := .call .unreadable) fun _ => trivial
  | @divided label command hconstruct =>
    rw [handle_flagged context timestamp hconstruct]
    exact hmessage command
  | @processed label command hfound hconstruct =>
    rw [handle_flagged context timestamp hconstruct]
    exact (hmessage command).trans (Reaches.of_event (e := .call (.buffered _)) fun _ => trivial)

/-- **What a call of `onRequest` makes of the octets received** is such events. -/
theorem onRequest_reaches (receipt : Receipt) (s : CommandSession) :
    Reaches s (s.onRequest receipt).session :=
  onRequest_rule (R := Reaches) Reaches.refl Reaches.trans
    (fun context s => requestTurn_reaches context receipt.timestamp s)
    (fun _ ring => Reaches.of_event (e := .call (.buffered ring)) fun _ => trivial) rfl s

/-! ### Accepted answers -/

/-- Nothing was received or sent since the ping with that index. -/
def Undisturbed (log : List Traffic) (index : ℕ) : Prop :=
  since (Traffic.isPingOf index) log = some []

/-- Since the ping with that index no other ping was sent, and no message was received that leaves
the flag alone. -/
def OnlyNoticed (log : List Traffic) (index : ℕ) : Prop :=
  ∃ b, since (Traffic.isPingOf index) log = some b ∧
    ∀ t ∈ b, t.isPing = false ∧ t.isUnnoticed = false

def AcceptsUndisturbed (x : WatchedSession) (e : SessionEvent) : Prop :=
  ∀ index ∈ acceptedIndex x.session e, Undisturbed x.log index

def AcceptsNoticed (x : WatchedSession) (e : SessionEvent) : Prop :=
  ∀ index ∈ acceptedIndex x.session e, OnlyNoticed x.log index

instance (x : WatchedSession) (e : SessionEvent) : Decidable (AcceptsUndisturbed x e) :=
  inferInstanceAs (Decidable (∀ index ∈ acceptedIndex x.session e,
    since (Traffic.isPingOf index) x.log = some []))

/-- An answer is accepted only while the flag is set. -/
theorem measuring_of_accepted {s : CommandSession} {e : SessionEvent} {index : ℕ}
    (h : acceptedIndex s e = some index) : s.measuringLatency = true := by
  cases e with
  | unsupported ring => cases h
  | call c =>
    rw [acceptedIndex] at h
    split at h
    · rename_i haccepted
      cases c with
      | message context timestamp command =>
        cases command with
        | STAT d =>
          rw [PingedSession.accepted] at haccepted
          split at haccepted
          · rename_i hall
            exact hall.2.2
          · cases haccepted
        | _ => cases haccepted
      | _ => cases haccepted
    · cases h

/-- **An accepted answer is undisturbed** unless a message went unnoticed, or it does not answer the
latest ping: all else resets the flag. -/
theorem undisturbed_iff (hx : Watched x) (hflag : x.session.measuringLatency = true) (index : ℕ) :
    Undisturbed x.log index ↔ OnlyNoticed x.log index := by
  constructor
  · intro h
    exact ⟨[], h, List.forall_mem_nil _⟩
  · rintro ⟨b, hb, hnoticed⟩
    obtain ⟨before, ping, hlog, hping, -⟩ := since_eq_some.mp hb
    have hlatest : since Traffic.isPing x.log = some b :=
      since_eq_some.mpr ⟨before, ping, hlog, Traffic.isPing_of_isPingOf hping,
        fun t ht => (hnoticed t ht).1⟩
    obtain ⟨c, hc, hunnoticed⟩ := hx hflag
    obtain rfl : b = c := Option.some.inj (hlatest.symm.trans hc)
    -- what came since the ping went unnoticed and did not, so there is nothing
    have hnil : b = [] := by
      rw [List.eq_nil_iff_forall_not_mem]
      intro t ht
      have hboth := hunnoticed t ht
      rw [(hnoticed t ht).2] at hboth
      cases hboth
    rw [Undisturbed, hb, hnil]

/-! ### Runs -/

theorem opened_watched (address : ℕ) (clientID : List UInt8) (streamingPort : ℕ)
    (formatSelection : FormatSelection) (gain : Option ℕ) (now : Timestamp) (context : Context) :
    Watched (opened address clientID streamingPort formatSelection gain now context) := by
  intro hflag
  rw [opened, start, processEvent_start] at hflag
  split at hflag <;> cases hflag

/-- **The runs in which all accepted answers are undisturbed**: those in which each answers the
latest ping, and no message has gone unnoticed since. -/
theorem probes_undisturbed_iff (address : ℕ) (clientID : List UInt8) (streamingPort : ℕ)
    (formatSelection : FormatSelection) (gain : Option ℕ) (now : Timestamp) (context : Context)
    (events : List SessionEvent) :
    (system.restrict AcceptsUndisturbed).Admits
        (opened address clientID streamingPort formatSelection gain now context) events ↔
      (system.restrict AcceptsNoticed).Admits
        (opened address clientID streamingPort formatSelection gain now context) events := by
  refine system.admits_restrict_congr Watched AcceptsUndisturbed AcceptsNoticed ?_ ?_ events _
    (opened_watched address clientID streamingPort formatSelection gain now context)
  · intro y e hy _ _
    exact step_watched hy e
  · intro y e hy _
    refine forall₂_congr fun index hindex => ?_
    exact undisturbed_iff hy (measuring_of_accepted hindex) index

/-! ### A disturbed probe -/

def newWatched : WatchedSession := opened 0 [49] 9001 .FLAC none ⟨0⟩ (PingedSession.contextAt 0)

/-- An `STMt` report received at a time in nanoseconds. -/
def reportAt (ns : ℤ) (serverTimestamp : ℕ) : SessionEvent :=
  .call (.message (PingedSession.contextAt ns) ⟨ns⟩
    (.STAT (PingedSession.report .STMt serverTimestamp)))

/-- The player reports on its own between the first ping and the answer. -/
def ownReport : List SessionEvent :=
  PingedSession.firstPing.map SessionEvent.call ++
    [reportAt 1001000000 0, reportAt 1002000000 14]

/-- **A disturbed probe**: the report is received after the ping, and the answer is accepted. -/
theorem disturbed_probe : system.Admits newWatched ownReport ∧
    ¬ (system.restrict AcceptsUndisturbed).Admits newWatched ownReport :=
  ⟨by decide +kernel, by decide +kernel⟩

/-- Without the report the answer is undisturbed. -/
example : (system.restrict AcceptsUndisturbed).Admits newWatched
    (PingedSession.firstPing.map SessionEvent.call ++ [reportAt 1002000000 14]) := by
  decide +kernel

end WatchedSession

end SlimStreamer
