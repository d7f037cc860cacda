import SlimStreamer.Lib.ClockEstimate
import SlimStreamer.Lib.Execution
import SlimStreamer.Proto.SentCommands

/-!
# Starting the playback of several players at one time

A player whose clock is behind the clock of the server by a constant offset, behind a network
of constant latency, answers every ping honestly.  Its session estimates the offset, and tells
it the start of the playback on its own clock.  The estimate compares the time a ping was sent
with a reading of the player's clock that was made one latency later, so it falls short of the
offset by the latency, and the player starts that much too late.

* `Measured` — the invariant of a session with such a player;
* `run_pingsWritten` — the unanswered pings are the last ones the session has written;
* `unpaused_spec` — the start time in an Unpause command, from the estimate;
* `start_skew` — two players start at times that differ by the difference of their latencies,
  up to two milliseconds;
* `synchronised_start` — two players with the same latency start within two milliseconds;
* `unsynchronised_start` — two players that do not.
-/

namespace SlimStreamer

/-- A player: how far its clock is behind the server's, and the latency of its network in each
direction, in nanoseconds. -/
structure Player where
  offset : ℤ
  latency : ℤ

/-- A session and the pings its player has not answered, with the times they were sent at. -/
structure Exchange where
  session : CommandSession
  pings : List (ℕ × Timestamp)

namespace Exchange

open GuardedExecution ClockEstimate

/-- A call to the session, or a message of its player. -/
inductive Stimulus where
  /-- A message that answers no ping. -/
  | message (context : Context) (timestamp : Timestamp) (command : ClientCommand)
  /-- The answer to the oldest ping. -/
  | answer (context : Context) (d : STAT)
  | pingTimer (context : Context)
  | pingHandler (context : Context)
  | start (context : Context)
  | prepare (context : Context) (rate : ℕ)
  | setStreamingSession (streamingSession : Option ℕ)
  | consumeChunk (context : Context) (answer : Bool) (chunk : Chunk)
  | stop (context : Context)

/-- The player answers the ping with the given index, sent at the given time, with what its
clock of milliseconds shows when the ping arrives. -/
def HonestAnswer (player : Player) (index : ℕ) (sent : Timestamp) (d : STAT) : Prop :=
  CommandSession.StatEvent.find d.event = some .STMt ∧ d.serverTimestamp = index + 1 ∧
    Reads 1000000 d.jiffies (sent.ns + player.latency - player.offset)

instance (player : Player) (index : ℕ) (sent : Timestamp) (d : STAT) :
    Decidable (HonestAnswer player index sent d) :=
  inferInstanceAs (Decidable (_ ∧ _ ∧ _))

/-- The player answers the oldest ping. -/
def AnswersOldest (player : Player) (d : STAT) : List (ℕ × Timestamp) → Prop
  | [] => False
  | (index, sent) :: _ => HonestAnswer player index sent d

instance (player : Player) (d : STAT) :
    (pings : List (ℕ × Timestamp)) → Decidable (AnswersOldest player d pings)
  | [] => instDecidableFalse
  | (index, sent) :: _ => inferInstanceAs (Decidable (HonestAnswer player index sent d))

open CommandSession in
def enabled (player : Player) (x : Exchange) : Stimulus → Prop
  | .message _ _ command => isUnsolicited command = true
  | .answer _ d => AnswersOldest player d x.pings
  | .pingTimer _ => x.session.pingTimer.isSome = true
  | .pingHandler _ => x.session.pingHandlers ≠ []
  | _ => True

open CommandSession in
instance (player : Player) (x : Exchange) : (e : Stimulus) → Decidable (enabled player x e)
  | .message _ _ command => inferInstanceAs (Decidable (isUnsolicited command = true))
  | .answer _ d => inferInstanceAs (Decidable (AnswersOldest player d x.pings))
  | .pingTimer _ => inferInstanceAs (Decidable (x.session.pingTimer.isSome = true))
  | .pingHandler _ => inferInstanceAs (Decidable (x.session.pingHandlers ≠ []))
  | .start _ | .prepare _ _ | .setStreamingSession _ | .consumeChunk _ _ _ | .stop _ =>
    instDecidableTrue

def setSession (session : CommandSession) (x : Exchange) : Exchange := { x with session := session }

/-- The timer pings with the last index, which it adds. -/
def onPingTimer (context : Context) (x : Exchange) : Exchange where
  session := x.session.onPingTimer context
  pings := x.pings ++ [(x.session.probes.size, context.clock 2)]

def onPingHandler (context : Context) (x : Exchange) : Exchange where
  session := x.session.onPingHandler context
  pings := x.pings ++ x.session.pingHandlers.head?.toList.map fun index => (index, context.clock 0)

/-- The answer arrives one latency after it was given. -/
def onAnswer (player : Player) (context : Context) (d : STAT) (x : Exchange) : Exchange :=
  match x.pings with
  | [] => x
  | (_, sent) :: rest =>
    { session := (x.session.onSTAT context ⟨sent.ns + 2 * player.latency⟩ d).1
      pings := rest }

def step (player : Player) (x : Exchange) : Stimulus → Exchange
  | .message context timestamp command =>
    x.setSession (x.session.deliver context timestamp command)
  | .answer context d => x.onAnswer player context d
  | .pingTimer context => x.onPingTimer context
  | .pingHandler context => x.onPingHandler context
  | .start context => x.setSession (x.session.start context)
  | .prepare context rate => x.setSession (x.session.prepare context rate)
  | .setStreamingSession streamingSession =>
    x.setSession (x.session.setStreamingSession streamingSession)
  | .consumeChunk context answer chunk =>
    x.setSession (x.session.consumeChunk context answer chunk).2
  | .stop context => x.setSession (x.session.stop context)

def system (player : Player) : System Exchange Stimulus where
  enabled := enabled player
  step := step player

instance (player : Player) (x : Exchange) (e : Stimulus) :
    Decidable ((system player).enabled x e) :=
  inferInstanceAs (Decidable (enabled player x e))

/-! ### The invariant -/

/-- How many of these there are: an armed timer, posted ping handlers, unanswered pings. -/
def chains (x : Exchange) : ℕ :=
  (if x.session.pingTimer.isSome then 1 else 0) + x.session.pingHandlers.length + x.pings.length

/-- An estimate of the offset by this player: it falls short by the latency. -/
def EstimatesOffset (player : Player) (estimate : ℤ) : Prop :=
  Estimates estimate (player.offset - player.latency)

/-- A probe that counts as a sample was answered honestly. -/
def HonestProbe (player : Player) (probe : ProbeValues) : Prop :=
  probe.latency ≠ 0 →
    EstimatesOffset player (probe.sendTimestamp.diff probe.clientTimestamp)

/-- **The invariant of the measurement.** -/
structure Measured (player : Player) (x : Exchange) : Prop where
  chain : x.chains ≤ 1
  handshake : x.session.commandHELO = none → x.chains = 0
  capacity : 13 ≤ x.session.probes.capacity
  posted : ∀ index ∈ x.session.pingHandlers, index + 1 = x.session.probes.size
  inFlight : ∀ ping ∈ x.pings, ping.1 + 1 = x.session.probes.size ∧
    (x.session.probes.get ping.1).sendTimestamp = ping.2
  honest : ∀ i, (∀ ping ∈ x.pings, ping.1 ≠ i) → HonestProbe player (x.session.probes.get i)
  timeOffset : ∀ estimate ∈ x.session.timeOffset, EstimatesOffset player estimate

variable {player : Player}

open CommandSession

theorem Measured.of_same {x : Exchange} (hx : Measured player x) {session : CommandSession}
    (h : SameMeasurement x.session session) : Measured player (x.setSession session) where
  chain := by
    show (if session.pingTimer.isSome then 1 else 0) + session.pingHandlers.length + _ ≤ 1
    rw [h.pingTimer, h.pingHandlers]
    exact hx.chain
  handshake := by
    show session.commandHELO = none →
      (if session.pingTimer.isSome then 1 else 0) + session.pingHandlers.length + _ = 0
    rw [h.commandHELO, h.pingTimer, h.pingHandlers]
    exact hx.handshake
  capacity := by
    show 13 ≤ session.probes.capacity
    rw [h.probes]
    exact hx.capacity
  posted := by
    show ∀ index ∈ session.pingHandlers, index + 1 = session.probes.size
    rw [h.pingHandlers, h.probes]
    exact hx.posted
  inFlight := by
    show ∀ ping ∈ x.pings, ping.1 + 1 = session.probes.size ∧
      (session.probes.get ping.1).sendTimestamp = ping.2
    rw [h.probes]
    exact hx.inFlight
  honest := by
    show ∀ i, _ → HonestProbe player (session.probes.get i)
    rw [h.probes]
    exact hx.honest
  timeOffset := by
    show ∀ estimate ∈ session.timeOffset, EstimatesOffset player estimate
    rw [h.timeOffset]
    exact hx.timeOffset

/-- The first `HELO` arms the timer: there was no ping before it. -/
theorem Measured.of_starts {x : Exchange} (hx : Measured player x) {session : CommandSession}
    (h : StartsMeasurement x.session session) : Measured player (x.setSession session) := by
  have hnone := hx.handshake h.first
  rw [chains] at hnone
  have hpings : x.pings = [] := List.length_eq_zero_iff.mp (by omega)
  have hhandlers : x.session.pingHandlers = [] := List.length_eq_zero_iff.mp (by omega)
  refine ⟨?_, ?_, ?_, ?_, ?_, ?_, ?_⟩
  · show (if session.pingTimer.isSome then 1 else 0) + session.pingHandlers.length +
      x.pings.length ≤ 1
    rw [h.pingTimer, h.pingHandlers, hpings, hhandlers]
    rfl
  · intro hhelo
    have hsome := h.commandHELO
    rw [show session.commandHELO = none from hhelo] at hsome
    cases hsome
  · show 13 ≤ session.probes.capacity
    rw [h.probes]
    exact hx.capacity
  · show ∀ index ∈ session.pingHandlers, index + 1 = session.probes.size
    rw [h.pingHandlers, hhandlers]
    exact List.forall_mem_nil _
  · show ∀ ping ∈ x.pings, _
    rw [hpings]
    exact List.forall_mem_nil _
  · show ∀ i, _ → HonestProbe player (session.probes.get i)
    rw [h.probes]
    exact hx.honest
  · show ∀ estimate ∈ session.timeOffset, EstimatesOffset player estimate
    rw [h.timeOffset]
    exact hx.timeOffset

/-- There is no unanswered ping. -/
theorem Measured.of_answered {session : CommandSession}
    (hchain : (if session.pingTimer.isSome then 1 else 0) + session.pingHandlers.length ≤ 1)
    (hhello : session.commandHELO ≠ none) (hcapacity : 13 ≤ session.probes.capacity)
    (hposted : ∀ index ∈ session.pingHandlers, index + 1 = session.probes.size)
    (hhonest : ∀ i, HonestProbe player (session.probes.get i))
    (hoffset : ∀ estimate ∈ session.timeOffset, EstimatesOffset player estimate) :
    Measured player ⟨session, []⟩ where
  chain := hchain
  handshake hnone := absurd hnone hhello
  capacity := hcapacity
  posted := hposted
  inFlight := List.forall_mem_nil _
  honest i _ := hhonest i
  timeOffset := hoffset

/-- The last probe is pinged for, and nothing else is under way. -/
theorem Measured.ping {session : CommandSession} {index : ℕ} (now : Timestamp)
    (htimer : session.pingTimer = none) (hhandlers : session.pingHandlers = [])
    (hhello : session.commandHELO ≠ none) (hcapacity : 13 ≤ session.probes.capacity)
    (hindex : index + 1 = session.probes.size)
    (hhonest : ∀ i, i ≠ index → HonestProbe player (session.probes.get i))
    (hoffset : ∀ estimate ∈ session.timeOffset, EstimatesOffset player estimate) :
    Measured player ⟨session.ping now index, [(index, now)]⟩ := by
  have hlt : index < session.probes.capacity := Probes.lt_capacity hindex
  refine ⟨?_, fun hnone => absurd hnone hhello, ?_, ?_, ?_, ?_, hoffset⟩
  · show (if session.pingTimer.isSome then 1 else 0) + session.pingHandlers.length + 1 ≤ 1
    rw [htimer, hhandlers]
    simp
  · show 13 ≤ (session.probes.set index _).capacity
    rw [Probes.set_capacity]
    exact hcapacity
  · show ∀ i ∈ session.pingHandlers, _
    rw [hhandlers]
    exact List.forall_mem_nil _
  · intro ping hping
    rw [List.mem_singleton] at hping
    subst hping
    refine ⟨hindex, ?_⟩
    show ((session.probes.set index _).get index).sendTimestamp = now
    rw [Probes.get_set _ hlt, if_pos rfl]
  · intro i hi
    have hne : index ≠ i := hi _ (List.mem_singleton_self _)
    show HonestProbe player ((session.probes.set index _).get i)
    rw [Probes.get_set _ hlt, if_neg hne]
    exact hhonest i (Ne.symm hne)

/-! ### Pings -/

/-- A step of the chain has the only ping to itself. -/
theorem Measured.hello {x : Exchange} (hx : Measured player x) (h : x.chains ≠ 0) :
    x.session.commandHELO ≠ none :=
  fun hnone => h (hx.handshake hnone)

/-- With the timer armed, no handler is posted and no ping unanswered. -/
theorem Measured.timer_alone {x : Exchange} (hx : Measured player x)
    (htimer : x.session.pingTimer.isSome = true) :
    x.session.pingHandlers = [] ∧ x.pings = [] := by
  have hchain := hx.chain
  rw [chains, if_pos htimer] at hchain
  exact ⟨List.length_eq_zero_iff.mp (by omega), List.length_eq_zero_iff.mp (by omega)⟩

theorem Measured.timer_none {x : Exchange} (hx : Measured player x)
    (hother : 0 < x.session.pingHandlers.length + x.pings.length) :
    x.session.pingTimer = none := by
  by_contra hsome
  obtain ⟨hhandlers, hpings⟩ := hx.timer_alone (Option.isSome_iff_ne_none.mpr hsome)
  rw [hhandlers, hpings] at hother
  exact absurd hother (Nat.lt_irrefl 0)

theorem Measured.handler_alone {x : Exchange} (hx : Measured player x) {index : ℕ}
    {rest : List ℕ} (hposted : x.session.pingHandlers = index :: rest) :
    rest = [] ∧ x.pings = [] ∧ x.session.pingTimer = none := by
  have hchain := hx.chain
  rw [chains, hposted, List.length_cons] at hchain
  exact ⟨List.length_eq_zero_iff.mp (by omega), List.length_eq_zero_iff.mp (by omega),
    hx.timer_none (by rw [hposted, List.length_cons]; omega)⟩

theorem Measured.ping_alone {x : Exchange} (hx : Measured player x) {ping : ℕ × Timestamp}
    {rest : List (ℕ × Timestamp)} (hpings : x.pings = ping :: rest) :
    rest = [] ∧ x.session.pingHandlers = [] ∧ x.session.pingTimer = none := by
  have hchain := hx.chain
  rw [chains, hpings, List.length_cons] at hchain
  exact ⟨List.length_eq_zero_iff.mp (by omega), List.length_eq_zero_iff.mp (by omega),
    hx.timer_none (by rw [hpings, List.length_cons]; omega)⟩

theorem pingTimer_measured (context : Context) {x : Exchange} (hx : Measured player x)
    (htimer : x.session.pingTimer.isSome = true) : Measured player (x.onPingTimer context) := by
  obtain ⟨hhandlers, hpings⟩ := hx.timer_alone htimer
  have hsize : (x.session.probes.pushBack (ProbeValues.fresh context.clock)).size - 1 =
      x.session.probes.size := by
    rw [Probes.pushBack_size, Nat.add_sub_cancel]
  rw [onPingTimer, CommandSession.onPingTimer, hpings, List.nil_append]
  dsimp only
  rw [hsize]
  refine Measured.ping (context.clock 2) rfl hhandlers
    (hx.hello (by rw [chains, if_pos htimer]; omega))
    (le_trans hx.capacity (Probes.capacity_le_pushBack _ _)) (Probes.pushBack_size _ _).symm ?_
    hx.timeOffset
  intro i hi
  show HonestProbe player ((x.session.probes.pushBack _).get i)
  rw [Probes.get_pushBack, if_neg (Ne.symm hi)]
  exact hx.honest i (by rw [hpings]; exact List.forall_mem_nil _)

theorem pingHandler_measured (context : Context) {x : Exchange} (hx : Measured player x)
    (hne : x.session.pingHandlers ≠ []) : Measured player (x.onPingHandler context) := by
  obtain ⟨index, rest, hposted⟩ := List.exists_cons_of_ne_nil hne
  obtain ⟨rfl, hpings, htimer⟩ := hx.handler_alone hposted
  rw [onPingHandler, CommandSession.onPingHandler, hposted, hpings]
  refine Measured.ping (context.clock 0) htimer rfl
    (hx.hello (by rw [chains, hposted, List.length_cons]; omega)) hx.capacity
    (hx.posted index (by rw [hposted]; exact List.mem_singleton_self _)) ?_ hx.timeOffset
  intro i _
  exact hx.honest i (by rw [hpings]; exact List.forall_mem_nil _)

/-! ### Answers -/

/-- **What an honest answer is recorded as.** -/
theorem answeredProbe_honest {index : ℕ} {sent : Timestamp} {d : STAT}
    (hd : HonestAnswer player index sent d) :
    HonestProbe player (answeredProbe ⟨sent.ns + 2 * player.latency⟩ d sent) := by
  intro _
  obtain ⟨hlow, hhigh⟩ := reading_bounds hd.2.2
  have hlow' : player.offset - player.latency ≤ sent.ns - d.jiffies * 1000 * 1000 := by omega
  have hhigh' : sent.ns - d.jiffies * 1000 * 1000 ≤ player.offset - player.latency + 999999 := by
    omega
  exact cut_mem (by decide) hlow' hhigh'

/-- A latency of a microsecond is measured as one. -/
theorem answeredProbe_latency (hl : 1000 ≤ player.latency) (sent : Timestamp) (d : STAT) :
    (answeredProbe ⟨sent.ns + 2 * player.latency⟩ d sent).latency ≠ 0 := by
  show ((sent.ns + 2 * player.latency - sent.ns).tdiv 1000).tdiv 2 ≠ 0
  have hmicroseconds : 2 ≤ (2 * player.latency).tdiv 1000 := by
    rw [Int.tdiv_eq_ediv_of_nonneg (by omega)]
    omega
  rw [add_sub_cancel_left, Int.tdiv_eq_ediv_of_nonneg (by omega)]
  omega

theorem smooth_estimates {old : Option ℤ} {measured : ℤ}
    (hold : ∀ estimate ∈ old, EstimatesOffset player estimate)
    (hmeasured : EstimatesOffset player measured) :
    EstimatesOffset player (smooth old measured) := by
  have hbase : EstimatesOffset player (old.getD measured) := by
    cases old with
    | none => exact hmeasured
    | some estimate => exact hold estimate rfl
  exact mean_mem (by decide) (by decide) (by decide) hbase hmeasured

/-- The evaluation of a round of honest probes, the last of which has a latency. -/
theorem evaluateProbes_estimates (context : Context) (accurate : Option ℕ) {s : CommandSession}
    (hcapacity : 13 ≤ s.probes.capacity)
    (hlast : (s.probes.get (s.probes.capacity - 1)).latency ≠ 0)
    (hhonest : ∀ i, HonestProbe player (s.probes.get i))
    (hoffset : ∀ estimate ∈ s.timeOffset, EstimatesOffset player estimate) :
    ∀ estimate ∈ (s.evaluateProbes context accurate).timeOffset,
      EstimatesOffset player estimate := by
  have hsample : s.probes.get (s.probes.capacity - 1) ∈ s.meanSamples :=
    List.mem_filter.mpr
      ⟨Probes.get_mem_drop (by omega) (by omega), by simpa using hlast⟩
  have hmean := List.mem_filter.mp
    (getLatencyMeanProbe_mem context (List.ne_nil_of_mem hsample))
  obtain ⟨i, hi⟩ := Probes.get_of_mem (List.mem_of_mem_drop hmean.1)
  have hestimate := hhonest i
  rw [hi] at hestimate
  rintro estimate ⟨⟩
  exact smooth_estimates hoffset (hestimate (by simpa using hmean.2))

/-- The last ping is answered, and nothing else is under way. -/
structure Answered (player : Player) (s : CommandSession) (index : ℕ) : Prop where
  timer : s.pingTimer = none
  handlers : s.pingHandlers = []
  hello : s.commandHELO ≠ none
  capacity : 13 ≤ s.probes.capacity
  last : index + 1 = s.probes.size
  honest : ∀ i, HonestProbe player (s.probes.get i)
  timeOffset : ∀ estimate ∈ s.timeOffset, EstimatesOffset player estimate

/-- An honest answer is recorded in the probe that was pinged for. -/
theorem recordAnswer_answered {x : Exchange} (hx : Measured player x) {index : ℕ}
    {sent : Timestamp} {rest : List (ℕ × Timestamp)} (hpings : x.pings = (index, sent) :: rest)
    {d : STAT} (hd : HonestAnswer player index sent d) :
    Answered player (x.session.recordAnswer ⟨sent.ns + 2 * player.latency⟩ d index) index ∧
      (x.session.recordAnswer ⟨sent.ns + 2 * player.latency⟩ d index).probes.get index =
        answeredProbe ⟨sent.ns + 2 * player.latency⟩ d sent := by
  obtain ⟨hrest, hhandlers, htimer⟩ := hx.ping_alone hpings
  obtain ⟨hindex, hsent⟩ := hx.inFlight (index, sent) (by rw [hpings]; exact List.mem_cons_self)
  have hlt : index < x.session.probes.capacity := Probes.lt_capacity hindex
  have hget (i : ℕ) : (x.session.recordAnswer ⟨sent.ns + 2 * player.latency⟩ d index).probes.get i =
      if index = i then answeredProbe ⟨sent.ns + 2 * player.latency⟩ d sent
      else x.session.probes.get i := by
    rw [recordAnswer]
    dsimp only
    rw [Probes.get_set _ hlt, hsent]
  refine ⟨⟨htimer, hhandlers, hx.hello (by rw [chains, hpings, List.length_cons]; omega), ?_,
    hindex, ?_, hx.timeOffset⟩, ?_⟩
  · show 13 ≤ (x.session.probes.set _ _).capacity
    rw [Probes.set_capacity]
    exact hx.capacity
  · intro i
    rw [hget]
    split
    · exact answeredProbe_honest hd
    · rename_i hne
      refine hx.honest i ?_
      rw [hpings, hrest]
      intro ping hping
      rw [List.mem_singleton.mp hping]
      exact hne
  · rw [hget, if_pos rfl]

/-- A complete round is evaluated, and the timer starts the next one. -/
theorem Answered.evaluated {s : CommandSession} {index : ℕ} (h : Answered player s index)
    (context : Context) (hcomplete : s.probes.size = s.probes.capacity)
    (hlast : (s.probes.get index).latency ≠ 0) :
    Measured player ⟨(s.evaluateProbes context s.accurateDurationIndex).schedulePing 5, []⟩ := by
  have hindex : s.probes.capacity - 1 = index := by
    rw [← hcomplete, ← h.last, Nat.add_sub_cancel]
  refine Measured.of_answered ?_ h.hello h.capacity ?_ h.honest
    (evaluateProbes_estimates context s.accurateDurationIndex h.capacity (by rwa [hindex]) h.honest
      h.timeOffset)
  · show (if (some (s.pingTimer.getD 5)).isSome then 1 else 0) + s.pingHandlers.length ≤ 1
    simp [h.handlers]
  · show ∀ i ∈ s.pingHandlers, _
    rw [h.handlers]
    exact List.forall_mem_nil _

/-- A new probe is pinged for. -/
theorem Answered.pushed {s : CommandSession} {index : ℕ} (h : Answered player s index)
    (clock : ℕ → Timestamp) :
    Measured player
      ⟨{ s with probes := s.probes.pushBack (ProbeValues.fresh clock) }.postPing
        ((s.probes.pushBack (ProbeValues.fresh clock)).size - 1), []⟩ := by
  refine Measured.of_answered ?_ h.hello
    (le_trans h.capacity (Probes.capacity_le_pushBack _ _)) ?_ ?_ h.timeOffset
  · show (if s.pingTimer.isSome then 1 else 0) + (s.pingHandlers ++ [_]).length ≤ 1
    simp [h.timer, h.handlers]
  · show ∀ i ∈ s.pingHandlers ++ [_], i + 1 = (s.probes.pushBack _).size
    rw [h.handlers, List.nil_append]
    intro i hi
    rw [List.mem_singleton.mp hi, Probes.pushBack_size, Nat.add_sub_cancel]
  · intro i
    show HonestProbe player ((s.probes.pushBack _).get i)
    rw [Probes.get_pushBack]
    split
    · exact fun hlatency => absurd rfl hlatency
    · exact h.honest i

/-- The measurement was interfered with: the same probe is pinged for again. -/
theorem Answered.repeated {s : CommandSession} {index : ℕ} (h : Answered player s index) :
    Measured player ⟨s.postPing index, []⟩ := by
  refine Measured.of_answered ?_ h.hello h.capacity ?_ h.honest h.timeOffset
  · show (if s.pingTimer.isSome then 1 else 0) + (s.pingHandlers ++ [_]).length ≤ 1
    simp [h.timer, h.handlers]
  · show ∀ i ∈ s.pingHandlers ++ [_], i + 1 = s.probes.size
    rw [h.handlers, List.nil_append]
    intro i hi
    rw [List.mem_singleton.mp hi]
    exact h.last

theorem answer_measured (hl : 1000 ≤ player.latency) (context : Context) {x : Exchange}
    (hx : Measured player x) {index : ℕ} {sent : Timestamp} {rest : List (ℕ × Timestamp)}
    (hpings : x.pings = (index, sent) :: rest) {d : STAT}
    (hd : HonestAnswer player index sent d) : Measured player (x.onAnswer player context d) := by
  obtain ⟨hanswered, hget⟩ := recordAnswer_answered hx hpings hd
  have hlatency := answeredProbe_latency hl sent d
  rw [← hget] at hlatency
  have hindex : d.serverTimestamp - 1 = index := by rw [hd.2.1, Nat.add_sub_cancel]
  have hguard : ¬(d.serverTimestamp = 0 ∨ x.session.probes.capacity < d.serverTimestamp) := by
    have hpinged := (hx.inFlight (index, sent) (by rw [hpings]; exact List.mem_cons_self)).1
    have hsize := x.session.probes.size_le_capacity
    rw [hd.2.1]
    omega
  rw [onAnswer, hpings, (hx.ping_alone hpings).1]
  dsimp only
  rw [onSTAT, hd.1]
  show Measured player
    ⟨x.session.onSTMt context ⟨sent.ns + 2 * player.latency⟩ d, []⟩
  rw [onSTMt, if_neg hguard]
  dsimp only
  rw [hindex]
  split
  · split
    · rename_i hround
      exact hanswered.evaluated context (evaluated_complete hround) hlatency
    · exact hanswered.pushed context.clock
  · exact hanswered.repeated

/-! ### Runs -/

/-- A new session has not pinged its player. -/
def IsNew (x : Exchange) : Prop :=
  x.pings = [] ∧ ∃ address clientID streamingPort formatSelection gain now,
    x.session = CommandSession.create address clientID streamingPort formatSelection gain now

theorem IsNew.measured {x : Exchange} (hx : x.IsNew) : Measured player x := by
  obtain ⟨hpings, address, clientID, streamingPort, formatSelection, gain, now, hsession⟩ := hx
  obtain ⟨session, pings⟩ := x
  subst hpings hsession
  refine ⟨Nat.zero_le 1, fun _ => rfl, (List.length_replicate (n := 13)).ge,
    List.forall_mem_nil _, List.forall_mem_nil _, ?_,
    fun estimate h => absurd h (Option.not_mem_none estimate)⟩
  intro i _ hlatency
  refine absurd ?_ hlatency
  show ((List.replicate 13 (ProbeValues.fresh fun _ => now)).getD i ProbeValues.unset).latency = 0
  rw [List.getD_eq_getElem?_getD, List.getElem?_replicate]
  split <;> rfl

/-- **Every step keeps the invariant**, when the latency is at least a microsecond. -/
theorem step_measured (hl : 1000 ≤ player.latency) {x : Exchange} {e : Stimulus}
    (hx : Measured player x) (he : enabled player x e) : Measured player (step player x e) := by
  cases e with
  | message context timestamp command =>
    rcases deliver_measurement context he timestamp x.session with hsame | hstarts
    · exact hx.of_same hsame
    · exact hx.of_starts hstarts
  | answer context d =>
    cases hpings : x.pings with
    | nil =>
      rw [enabled, hpings] at he
      exact he.elim
    | cons ping rest =>
      obtain ⟨index, sent⟩ := ping
      rw [enabled, hpings] at he
      exact answer_measured hl context hx hpings he
  | pingTimer context => exact pingTimer_measured context hx he
  | pingHandler context => exact pingHandler_measured context hx he
  | start context => exact hx.of_same (start_sameMeasurement context _)
  | prepare context rate => exact hx.of_same (prepare_changes context rate _).sameMeasurement
  | setStreamingSession streamingSession => exact hx.of_same ⟨rfl, rfl, rfl, rfl, rfl⟩
  | consumeChunk context answer chunk =>
    exact hx.of_same (consumeChunk_changes context answer chunk _).sameMeasurement
  | stop context => exact hx.of_same (stop_changes context _).sameMeasurement

/-- **Every run keeps the invariant.** -/
theorem run_measured (hl : 1000 ≤ player.latency) {x : Exchange} (hx : x.IsNew)
    {es : List Stimulus} (hes : (system player).Admits x es) :
    Measured player ((system player).exec x es) :=
  (system player).exec_invariant (Measured player)
    (fun _ _ hs he => step_measured hl hs he) es x hx.measured hes

/-- The unanswered pings are the last ones the session has written. -/
def PingsWritten (x : Exchange) : Prop :=
  (x.pings.map fun ping => ping.1 + 1) <:+ x.session.timesWritten

theorem PingsWritten.of_plain {x : Exchange} (hx : PingsWritten x) {session : CommandSession}
    (h : session.timesWritten = x.session.timesWritten) : PingsWritten (x.setSession session) := by
  show _ <:+ session.timesWritten
  rw [h]
  exact hx

theorem step_pingsWritten {x : Exchange} (hx : PingsWritten x) (e : Stimulus) :
    PingsWritten (step player x e) := by
  cases e with
  | message context timestamp command =>
    exact hx.of_plain (deliver_sends context timestamp command _).timesWritten
  | answer context d =>
    show PingsWritten (x.onAnswer player context d)
    rw [onAnswer]
    split
    · exact hx
    · -- the answered ping was the oldest
      rename_i index sent rest hpings
      rw [PingsWritten, hpings] at hx
      rw [PingsWritten, (onSTAT_sends context _ d x.session).timesWritten]
      exact (List.suffix_cons _ _).trans hx
  | pingTimer context =>
    show (List.map _ (x.pings ++ _)) <:+ (x.session.onPingTimer context).timesWritten
    rw [onPingTimer_timesWritten, List.map_append]
    exact List.suffix_append_self_iff.mpr hx
  | pingHandler context =>
    show (List.map _ (x.pings ++ _)) <:+ (x.session.onPingHandler context).timesWritten
    rw [onPingHandler_timesWritten, List.map_append, List.map_map]
    exact List.suffix_append_self_iff.mpr hx
  | start context => exact hx.of_plain (start_sends context _).timesWritten
  | prepare context rate => exact hx.of_plain (prepare_sends context rate _).timesWritten
  | setStreamingSession streamingSession => exact hx.of_plain rfl
  | consumeChunk context answer chunk =>
    exact hx.of_plain (consumeChunk_timesWritten context answer chunk _)
  | stop context => exact hx.of_plain (stop_sends context _).timesWritten

/-- **In every run the unanswered pings are the last ones written.** -/
theorem run_pingsWritten {x : Exchange} (hx : x.IsNew) {es : List Stimulus}
    (hes : (system player).Admits x es) : PingsWritten ((system player).exec x es) := by
  have hnew : PingsWritten x := by
    rw [PingsWritten, hx.1]
    exact List.nil_suffix
  exact (system player).exec_invariant PingsWritten
    (fun _ e hs _ => step_pingsWritten hs e) es x hnew hes

/-! ### The start of the playback -/

/-- The start of the playback by the Streamer, when a chunk is delivered. -/
def Stimulus.playbackStartTime : Stimulus → Option Timestamp
  | .consumeChunk context _ _ => some context.streamer.playbackStartTime
  | _ => none

/-- The session sends `STRM` Unpause with the given value. -/
def Unpauses (player : Player) (x : Exchange) (e : Stimulus) (v : ℕ) : Prop :=
  .unpause v ∈ (step player x e).session.written.drop x.session.written.length

/-- A new session comes to send `STRM` Unpause for the given start of the playback. -/
def Unpaused (player : Player) (start : Timestamp) (v : ℕ) : Prop :=
  ∃ x es e, IsNew x ∧ (system player).Admits x (es ++ [e]) ∧
    e.playbackStartTime = some start ∧ Unpauses player ((system player).exec x es) e v

/-- **The start time in an Unpause** is the start of the playback, moved by an estimate of the
offset that falls short of it by the latency. -/
theorem unpaused_spec (hl : 1000 ≤ player.latency) {start : Timestamp} {v : ℕ}
    (h : Unpaused player start v) :
    ∃ estimate, EstimatesOffset player estimate ∧
      v = toUInt32 (start.minus estimate).milliseconds := by
  obtain ⟨x, es, e, hx, hadmits, hstart, hv⟩ := h
  rw [System.admits_append] at hadmits
  have hmeasured := run_measured hl hx hadmits.1
  cases e with
  | consumeChunk context answer chunk =>
    rw [Stimulus.playbackStartTime, Option.some.injEq] at hstart
    subst hstart
    obtain ⟨estimate, hestimate, hvalue⟩ := consumeChunk_unpause context answer chunk _ hv
    exact ⟨estimate, hmeasured.timeOffset estimate hestimate, hvalue⟩
  | _ => cases hstart

/-- When the player starts on the time in an Unpause, in the time of the server. -/
def startInstant (player : Player) (v : ℕ) : ℤ := v * 1000000 + player.offset

/-- Around the start of the playback the clock of the player has neither just started nor is
it about to wrap. -/
def NoWrap (player : Player) (start : Timestamp) : Prop :=
  2000000 ≤ start.ns - player.offset ∧
    start.ns - player.offset + player.latency + 1000 ≤ 4294967296000000

instance (player : Player) (start : Timestamp) : Decidable (NoWrap player start) :=
  inferInstanceAs (Decidable (_ ∧ _))

/-- Both clocks are behind the server's by at least their latency, or neither is: what the
estimates of the offsets are cut from has one sign. -/
def SameSide (i j : Player) : Prop := i.latency ≤ i.offset ↔ j.latency ≤ j.offset

instance (i j : Player) : Decidable (SameSide i j) := inferInstanceAs (Decidable (_ ↔ _))

/-- An estimate that falls short of the offset does not lead to a negative start time, nor to
one that 32 bits do not hold. -/
theorem estimate_inRange {start : Timestamp} (hl : 1000 ≤ player.latency)
    (hwrap : NoWrap player start) {estimate : ℤ} (h : EstimatesOffset player estimate) :
    0 ≤ start.ns - estimate * 1000 ∧ start.ns - estimate * 1000 < 4294967296000000 := by
  obtain ⟨hlow, hhigh⟩ := hwrap
  rcases le_or_gt 0 (player.offset - player.latency) with hy | hy
  · obtain ⟨ha, hb⟩ := Estimates.of_nonneg hy h
    constructor <;> omega
  · obtain ⟨ha, hb⟩ := Estimates.of_neg hy h
    constructor <;> omega

theorem startInstant_eq {start : Timestamp} (hl : 1000 ≤ player.latency)
    (hwrap : NoWrap player start) {estimate : ℤ} (h : EstimatesOffset player estimate) :
    startInstant player (toUInt32 (start.minus estimate).milliseconds) =
      instant player.offset estimate start.ns := by
  obtain ⟨hnonneg, hlt⟩ := estimate_inRange hl hwrap h
  have hms : (start.minus estimate).milliseconds =
      (start.ns - estimate * 1000) / 1000000 := Int.tdiv_eq_ediv_of_nonneg hnonneg
  rw [startInstant, instant, Int.tdiv_eq_ediv_of_nonneg hnonneg, hms,
    toUInt32_of_range (by omega) (by omega)]

/-- **Two players start at times that differ by the difference of their latencies**, up to two
milliseconds. -/
theorem start_skew {i j : Player} (hi : 1000 ≤ i.latency) (hj : 1000 ≤ j.latency)
    (hside : SameSide i j) {start : Timestamp} (hwi : NoWrap i start) (hwj : NoWrap j start)
    {v w : ℕ} (hv : Unpaused i start v) (hw : Unpaused j start w) :
    |startInstant i v - startInstant j w - (i.latency - j.latency)| ≤ 1999998 := by
  obtain ⟨estimate, hestimate, rfl⟩ := unpaused_spec hi hv
  obtain ⟨estimate', hestimate', rfl⟩ := unpaused_spec hj hw
  rw [startInstant_eq hi hwi hestimate, startInstant_eq hj hwj hestimate']
  exact skew hestimate hestimate' hside (estimate_inRange hi hwi hestimate).1
    (estimate_inRange hj hwj hestimate').1

/-- **Two players with the same latency start within two milliseconds.** -/
theorem synchronised_start {i j : Player} (hi : 1000 ≤ i.latency) (hj : 1000 ≤ j.latency)
    (hlatency : |i.latency - j.latency| ≤ 2) (hside : SameSide i j) {start : Timestamp}
    (hwi : NoWrap i start) (hwj : NoWrap j start) {v w : ℕ} (hv : Unpaused i start v)
    (hw : Unpaused j start w) : |startInstant i v - startInstant j w| ≤ 2000000 := by
  have hskew := abs_le.mp (start_skew hi hj hside hwi hwj hv hw)
  have hclose := abs_le.mp hlatency
  rw [abs_le]
  constructor <;> omega

/-! ### Two playbacks -/

/-- A sorting routine that is easy to run. -/
def insertionSort : ProbeSort where
  sort l := l.insertionSort fun a b => a.latency ≤ b.latency
  perm l := List.perm_insertionSort _ l
  sorted l :=
    haveI : Std.Total fun a b : ProbeValues => a.latency ≤ b.latency :=
      ⟨fun _ _ => le_total _ _⟩
    haveI : IsTrans ProbeValues fun a b => a.latency ≤ b.latency := ⟨fun _ _ _ => le_trans⟩
    List.pairwise_insertionSort _ l

/-- The playback starts a minute after the epoch of the server's clock. -/
def minute : Timestamp := ⟨60000000000⟩

/-- What a handler reads at a time in nanoseconds, while the Streamer is playing. -/
def contextAt (ns : ℤ) : Context := ⟨⟨44100, true, minute⟩, fun _ => ⟨ns⟩, insertionSort⟩

def report (event : StatEvent) (jiffies serverTimestamp : ℕ) : STAT where
  size := 53
  event := event.key
  numberCRLF := 0
  initializedMAS := 0
  modeMAS := 0
  streamBufferSize := 1048576
  streamBufferFullness := 0
  bytesReceived1 := 0
  bytesReceived2 := 0
  signalStrength := 0
  jiffies := jiffies
  outputBufferSize := 0
  outputBufferFullness := 0
  elapsedSeconds := 0
  voltage := 0
  elapsedMilliseconds := 0
  serverTimestamp := serverTimestamp
  errorCode := 0

/-- The player answers the ping with the given index at once. -/
def answerTo (player : Player) (index : ℕ) (sent : ℤ) : Stimulus :=
  .answer (contextAt (sent + 2 * player.latency))
    (report .STMt ((sent + player.latency - player.offset) / 1000000).toNat (index + 1))

/-- A round of pings, one every second. -/
def pingRound (player : Player) : List Stimulus :=
  (List.range 13).flatMap fun k : ℕ =>
    let sent : ℤ := 20000000000 + k * 1000000000
    [if k = 0 then .pingTimer (contextAt sent) else .pingHandler (contextAt sent),
      answerTo player (13 + k) sent]

/-- From the opening of the connection until the HTTP session is ready to play. -/
def untilPlayback (player : Player) : List Stimulus :=
  [.start (contextAt 0), .message (contextAt 0) ⟨0⟩ (.HELO ⟨36, 12, 0, [], [], 0, 0, 0, []⟩),
      .message (contextAt 0) ⟨0⟩ (.STAT (report .STMf 0 0))] ++
    pingRound player ++
    [.prepare (contextAt 40000000000) 44100, .setStreamingSession (some 1),
      .message (contextAt 41000000000) ⟨41000000000⟩ (.STAT (report .STMl 0 0))]

def newExchange : Exchange := ⟨CommandSession.create 0 [49] 9001 .FLAC none ⟨0⟩, []⟩

theorem newExchange_isNew : newExchange.IsNew := ⟨rfl, 0, [49], 9001, .FLAC, none, ⟨0⟩, rfl⟩

/-- The delivery of a chunk with one frame. -/
def deliverFrame : Stimulus :=
  .consumeChunk (contextAt 50000000000) true ⟨false, 44100, 2, 4, List.replicate 8 0, 1, 1, ⟨0⟩⟩

/-- The run of the given player that ends with the delivery of the frame. -/
theorem unpaused_of_run {v : ℕ}
    (hadmits : (system player).Admits newExchange (untilPlayback player ++ [deliverFrame]))
    (hv : Unpauses player ((system player).exec newExchange (untilPlayback player))
      deliverFrame v) : Unpaused player minute v :=
  ⟨newExchange, untilPlayback player, deliverFrame, newExchange_isNew, hadmits, rfl, hv⟩

/-- Five seconds behind, a millisecond away. -/
def nearPlayer : Player := ⟨5000000000, 1000000⟩

/-- Seven seconds behind, a millisecond away. -/
def otherNearPlayer : Player := ⟨7000000000, 1000000⟩

/-- Nine seconds behind, eleven milliseconds away. -/
def farPlayer : Player := ⟨9000000000, 11000000⟩

theorem nearPlayer_unpaused : Unpaused nearPlayer minute 55001 := by
  apply unpaused_of_run
  · decide +kernel
  · unfold Unpauses
    decide +kernel

theorem otherNearPlayer_unpaused : Unpaused otherNearPlayer minute 53001 := by
  apply unpaused_of_run
  · decide +kernel
  · unfold Unpauses
    decide +kernel

theorem farPlayer_unpaused : Unpaused farPlayer minute 51011 := by
  apply unpaused_of_run
  · decide +kernel
  · unfold Unpauses
    decide +kernel

theorem synchronised_start_nearPlayers :
    |startInstant nearPlayer 55001 - startInstant otherNearPlayer 53001| ≤ 2000000 :=
  synchronised_start (by decide) (by decide) (by decide) (by decide) (by decide) (by decide)
    nearPlayer_unpaused otherNearPlayer_unpaused

/-- **Two players with different latencies** start ten milliseconds apart. -/
theorem unsynchronised_start :
    Unpaused nearPlayer minute 55001 ∧ Unpaused farPlayer minute 51011 ∧
      NoWrap nearPlayer minute ∧ NoWrap farPlayer minute ∧
      ¬ |startInstant nearPlayer 55001 - startInstant farPlayer 51011| ≤ 2000000 :=
  ⟨nearPlayer_unpaused, farPlayer_unpaused, by decide, by decide, by decide⟩

end Exchange

end SlimStreamer
