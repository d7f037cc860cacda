import SlimStreamer.Lib.WrappingClock
import SlimStreamer.Proto.PlaybackSync
import SlimStreamer.Proto.ProbeRounds

/-!
# A player whose clock wraps

A player answers every ping honestly, with a counter of milliseconds that has 32 bits and wraps
between the rounds of probes.  The session takes the readings as they are, and smooths the offset in
microseconds: an estimate made after a wrap is a period larger, and the smoothed offset takes a
fifth of it.  The start of the playback is sent modulo the period, which does not show whole
periods, but does show a fifth of one.

* `Player.counter`, `Player.wrapped` — the counter, and the same without wrapping;
* `system` — a session with such a player, and the wraps in its estimate;
* `Averaged`, `step_averaged` — the invariant of the rounds with whole wraps;
* `startValue_iff` — the start values are right as long as the averages of the wraps are whole;
* `startValue_wrong` — a run in which the second round is after a wrap.
-/

namespace SlimStreamer

open GuardedExecution ClockEstimate CommandSession

namespace Player

variable (player : Player)

/-- The milliseconds on the player's clock when a ping arrives that is sent at the given time. -/
def elapsed (sent : Timestamp) : ℤ := (sent.ns + player.latency - player.offset) / 1000000

/-- The counter of 32 bits shows them modulo its period. -/
def counter (sent : Timestamp) : ℤ := player.elapsed sent % 4294967296

/-- How often the counter has wrapped. -/
def wraps (sent : Timestamp) : ℤ := player.elapsed sent / 4294967296

/-- A player that is so many periods further behind. -/
def wrapped (w : ℤ) : Player where
  offset := player.offset + w * (1000000 * 4294967296)
  latency := player.latency

/-- After some wraps the counter shows what the clock of a player shows that is as many periods
further behind, and does not wrap. -/
theorem counter_reads (sent : Timestamp) :
    Reads 1000000 (player.counter sent)
      (sent.ns + player.latency - (player.wrapped (player.wraps sent)).offset) := by
  have hsum := Int.emod_add_mul_ediv (player.elapsed sent) 4294967296
  simp only [Reads, wrapped, counter, wraps, elapsed] at hsum ⊢
  constructor <;> omega

end Player

namespace CommandSession

/-- The value in the `STRM` Unpause that starts the playback at the given time
(`stateChangeToPlaying_written`). -/
def startValue (s : CommandSession) (start : Timestamp) : ℕ :=
  toUInt32 (start.minus (s.timeOffset.getD 0)).milliseconds

theorem stateChangeToPlaying_written (context : Context) (s : CommandSession) :
    (s.stateChangeToPlaying context).written =
      s.written ++ [.unpause (s.startValue context.streamer.playbackStartTime)] := rfl

/-- Smoothing with a constant leaves it unchanged, any number of times. -/
theorem smooth_iterate (measured : ℤ) (n : ℕ) :
    (fun estimate => smooth (some estimate) measured)^[n] measured = measured := by
  have hfixed : smooth (some measured) measured = measured := mean_const (by decide) measured
  induction n with
  | zero => simp
  | succ n ih => rw [Function.iterate_succ_apply', ih, hfixed]

end CommandSession

/-- A session with a player, and the wraps in its estimate of the offset. -/
structure WrappingSession where
  pinged : PingedSession
  /-- The wraps of the rounds, averaged as the estimates are. -/
  estimateWraps : Option ℤ

namespace WrappingSession

/-- The answer to a ping shows the counter when the ping arrives, and is received one latency
later. -/
def HonestAnswer (player : Player) (sent timestamp : Timestamp) (d : STAT) : Prop :=
  timestamp = ⟨sent.ns + 2 * player.latency⟩ ∧ d.jiffies = player.counter sent

instance (player : Player) (sent timestamp : Timestamp) (d : STAT) :
    Decidable (HonestAnswer player sent timestamp d) :=
  inferInstanceAs (Decidable (_ ∧ _))

/-- The player answers honestly, and its counter wraps only between the rounds. -/
def Honest (player : Player) (x : PingedSession) : SessionCall → Prop
  | .message _ timestamp (.STAT d) => ∀ index ∈ answeredIndex (.STAT d), ∀ ping ∈ x.unanswered,
      ping.1 = index → HonestAnswer player ping.2 timestamp d ∧
        ∀ p ∈ x.round, player.wraps p.sendTimestamp = player.wraps ping.2
  | _ => True

instance (player : Player) (x : PingedSession) : DecidablePred (Honest player x)
  | .message _ timestamp (.STAT d) => inferInstanceAs (Decidable
      (∀ index ∈ answeredIndex (.STAT d), ∀ ping ∈ x.unanswered,
        ping.1 = index → HonestAnswer player ping.2 timestamp d ∧
          ∀ p ∈ x.round, player.wraps p.sendTimestamp = player.wraps ping.2))
  | .message _ _ (.DSCO _) | .message _ _ (.HELO _) | .message _ _ (.RESP _)
  | .message _ _ (.SETD _) | .pingTimer _ | .pingHandler _ | .buffered _ | .unreadable
  | .prepare _ _ | .setStreamingSession _ | .consumeChunk _ _ _ | .stop _ => isTrue trivial

/-- The average of the wraps, with the weights of the smoothing. -/
def averageWraps (old : Option ℤ) (w : ℤ) : ℤ := (old.getD w * 8 + w * 2) / 10

/-- The wraps of a round differ from those in the estimate by a multiple of five. -/
def WholeAverage (old : Option ℤ) (w : ℤ) : Prop := ∀ k ∈ old, 5 ∣ w - k

/-- Then the average is a whole number. -/
theorem wholeAverage_iff (old : Option ℤ) (w : ℤ) :
    WholeAverage old w ↔ 10 ∣ old.getD w * 8 + w * 2 := by
  cases old with
  | none =>
    simp [WholeAverage]
    omega
  | some k =>
    simp [WholeAverage]
    omega

def wrapsAfter (player : Player) (x : WrappingSession) (c : SessionCall) : Option ℤ :=
  match PingedSession.accepted x.pinged.session c with
  | none => x.estimateWraps
  | some (recorded, probe) =>
    if recorded.CompletesRound then
      some (averageWraps x.estimateWraps (player.wraps probe.sendTimestamp))
    else x.estimateWraps

def enabled (player : Player) (x : WrappingSession) (c : SessionCall) : Prop :=
  PingedSession.enabled x.pinged c ∧ Honest player x.pinged c

def step (player : Player) (x : WrappingSession) (c : SessionCall) : WrappingSession where
  pinged := x.pinged.step c
  estimateWraps := wrapsAfter player x c

def system (player : Player) : System WrappingSession SessionCall where
  enabled := enabled player
  step := step player

instance (player : Player) (x : WrappingSession) (c : SessionCall) :
    Decidable ((system player).enabled x c) :=
  inferInstanceAs (Decidable (PingedSession.enabled x.pinged c ∧ Honest player x.pinged c))

/-- The session of a player that has just connected. -/
def opened (address : ℕ) (clientID : List UInt8) (streamingPort : ℕ)
    (formatSelection : FormatSelection) (gain : Option ℕ) (now : Timestamp) (context : Context) :
    WrappingSession where
  pinged := PingedSession.opened address clientID streamingPort formatSelection gain now context
  estimateWraps := none

/-! ### The start values -/

/-- Once the offset is estimated, the start value for any time is what the counter shows when a ping
arrives that is sent at that time, up to two milliseconds. -/
def StartsRight (player : Player) (x : WrappingSession) : Prop :=
  x.pinged.session.timeOffset.isSome = true → ∀ start : Timestamp,
    CloseModulo 4294967296 2 (x.pinged.session.startValue start) (player.elapsed start)

/-- If the call ends a round, the wraps in the estimate and those of the round have a whole
average. -/
def WholeWraps (player : Player) (x : WrappingSession) (c : SessionCall) : Prop :=
  ∀ a ∈ PingedSession.accepted x.pinged.session c, a.1.CompletesRound →
    WholeAverage x.estimateWraps (player.wraps a.2.sendTimestamp)

/-! ### The invariant -/

/-- An estimate of the offset after so many wraps. -/
def EstimateAfter (player : Player) (estimate w : ℤ) : Prop :=
  Near estimate (player.offset - player.latency + w * (1000000 * 4294967296))

/-- A probe that was answered honestly. -/
structure Sampled (player : Player) (p : ProbeValues) : Prop where
  latency : p.latency ≠ 0
  estimate : EstimateAfter player (p.sendTimestamp.diff p.clientTimestamp)
    (player.wraps p.sendTimestamp)

/-- **The invariant of the estimate**: it is that of a clock which has wrapped a whole number of
times. -/
structure Averaged (player : Player) (x : WrappingSession) : Prop where
  rounds : PingedSession.Rounds x.pinged
  sampled : ∀ p ∈ x.pinged.round, Sampled player p
  together : ∀ p ∈ x.pinged.round, ∀ q ∈ x.pinged.round,
    player.wraps p.sendTimestamp = player.wraps q.sendTimestamp
  estimate : Option.Rel (EstimateAfter player) x.pinged.session.timeOffset x.estimateWraps

section Answers

variable {player : Player} {x : WrappingSession} {c : SessionCall}

/-- What an honest answer is recorded as. -/
theorem answeredProbe_sampled (hl : 1000 ≤ player.latency) {sent timestamp : Timestamp} {d : STAT}
    (hevent : StatEvent.find d.event = some .STMt) {index : ℕ}
    (hindex : d.serverTimestamp = index + 1) (hd : HonestAnswer player sent timestamp d) :
    Sampled player (answeredProbe timestamp d sent) := by
  obtain ⟨rfl, hjiffies⟩ := hd
  have hlatency := Exchange.answeredProbe_latency hl sent d
  refine ⟨hlatency, ?_⟩
  have hreads := player.counter_reads sent
  rw [← hjiffies] at hreads
  have hhonest : Exchange.HonestAnswer (player.wrapped (player.wraps sent)) index sent d :=
    ⟨hevent, hindex, hreads⟩
  have hestimate := (Exchange.answeredProbe_honest hhonest hlatency).near
  have hshift : (player.wrapped (player.wraps sent)).offset - player.latency =
      player.offset - player.latency + player.wraps sent * (1000000 * 4294967296) := by
    rw [Player.wrapped]
    ring
  show Near _ (player.offset - player.latency + player.wraps sent * (1000000 * 4294967296))
  rw [← hshift]
  exact hestimate

/-- The probe of an accepted answer is honest, and from the same time between two wraps as the
others of the round. -/
theorem accepted_sampled (hl : 1000 ≤ player.latency) (hx : PingedSession.Chained x.pinged)
    (he : enabled player x c) {recorded : CommandSession} {probe : ProbeValues}
    (h : PingedSession.accepted x.pinged.session c = some (recorded, probe)) :
    Sampled player probe ∧ ∀ p ∈ x.pinged.round,
      player.wraps p.sendTimestamp = player.wraps probe.sendTimestamp := by
  cases hanswer : PingedSession.answeredBy c with
  | none =>
    rw [PingedSession.accepted_of_not_answered hanswer] at h
    cases h
  | some index =>
    cases c with
    | message context timestamp command =>
      obtain ⟨d, rfl, hevent, hindex⟩ := answeredIndex_eq_some hanswer
      obtain ⟨ping, hping, rfl⟩ := List.mem_map.mp (he.1 index hanswer)
      obtain ⟨hd, hround⟩ := he.2 ping.1 hanswer ping hping rfl
      obtain ⟨-, -, hsent⟩ := hx.pending ping hping
      rw [PingedSession.accepted] at h
      split at h
      · rw [hindex, Nat.add_sub_cancel, hsent] at h
        cases h
        exact ⟨answeredProbe_sampled hl hevent hindex hd, hround⟩
      · cases h
    | _ => cases hanswer

end Answers

/-! ### The steps -/

section Steps

variable {player : Player} {x : WrappingSession} {c : SessionCall}

/-- The estimate before the smoothing: the first round is smoothed with itself. -/
theorem getD_estimateAfter (h : Option.Rel (EstimateAfter player) x.pinged.session.timeOffset
    x.estimateWraps) {measured w : ℤ} (hmeasured : EstimateAfter player measured w) :
    EstimateAfter player (x.pinged.session.timeOffset.getD measured) (x.estimateWraps.getD w) := by
  generalize x.pinged.session.timeOffset = old at h ⊢
  generalize x.estimateWraps = oldWraps at h ⊢
  cases h with
  | none => exact hmeasured
  | some hold => exact hold

/-- The end of a round, with the estimate it adds to. -/
structure Evaluated (player : Player) (x : WrappingSession) (c : SessionCall)
    (measured w : ℤ) : Prop where
  estimate : EstimateAfter player measured w
  timeOffset : (x.pinged.step c).session.timeOffset =
    some (smooth x.pinged.session.timeOffset measured)
  estimateWraps : wrapsAfter player x c = some (averageWraps x.estimateWraps w)
  round : (x.pinged.step c).round = []

/-- **A call ends a round, or it leaves the estimate alone.** -/
theorem evaluated_or_same (hl : 1000 ≤ player.latency) (hx : Averaged player x)
    (he : enabled player x c) :
    (∃ measured w, Evaluated player x c measured w ∧
        (WholeWraps player x c ↔ WholeAverage x.estimateWraps w)) ∨
      (WholeWraps player x c ∧
        (x.pinged.step c).session.timeOffset = x.pinged.session.timeOffset ∧
        wrapsAfter player x c = x.estimateWraps ∧
        ((x.pinged.step c).round = x.pinged.round ∨
          ∃ recorded probe, PingedSession.accepted x.pinged.session c = some (recorded, probe) ∧
            (x.pinged.step c).round = x.pinged.round ++ [probe])) := by
  by_cases hround : ∃ recorded probe, x.pinged.Evaluates c recorded probe
  · left
    obtain ⟨recorded, probe, hevaluates⟩ := hround
    obtain ⟨hsampled, htogether⟩ := accepted_sampled hl hx.rounds.chained he hevaluates.1
    obtain ⟨context, htimeOffset⟩ := hevaluates.timeOffset_eq hx.rounds.chained he.1
    have hmean := hevaluates.meanProbe_mem hx.rounds he.1 hsampled.latency context
    generalize recorded.getLatencyMeanProbe context = mean at hmean htimeOffset
    have hmeasured : EstimateAfter player (mean.sendTimestamp.diff mean.clientTimestamp)
        (player.wraps probe.sendTimestamp) := by
      rcases List.mem_append.mp hmean with hmean | hmean
      · rw [← htogether mean hmean]
        exact (hx.sampled mean hmean).estimate
      · rw [List.mem_singleton.mp hmean]
        exact hsampled.estimate
    refine ⟨_, _, ⟨hmeasured, htimeOffset, ?_, ?_⟩, ?_⟩
    · rw [wrapsAfter, hevaluates.1]
      exact if_pos hevaluates.2
    · show x.pinged.roundAfter c = []
      rw [PingedSession.roundAfter, hevaluates.1]
      exact if_pos hevaluates.2
    · rw [WholeWraps, hevaluates.1]
      simp [hevaluates.2]
  · right
    have hnone : ∀ a ∈ PingedSession.accepted x.pinged.session c, ¬ a.1.CompletesRound := by
      intro a ha hcompletes
      exact hround ⟨a.1, a.2, ha, hcompletes⟩
    refine ⟨fun a ha hcompletes => absurd hcompletes (hnone a ha), ?_, ?_, ?_⟩
    · by_contra hchanged
      exact hround (PingedSession.evaluates_of_timeOffset hx.rounds.chained he.1 hchanged)
    · rw [wrapsAfter]
      cases haccepted : PingedSession.accepted x.pinged.session c with
      | none => rfl
      | some a => exact if_neg (hnone a haccepted)
    · cases haccepted : PingedSession.accepted x.pinged.session c with
      | none =>
        left
        show x.pinged.roundAfter c = x.pinged.round
        rw [PingedSession.roundAfter, haccepted]
      | some a =>
        refine Or.inr ⟨a.1, a.2, rfl, ?_⟩
        show x.pinged.roundAfter c = _
        rw [PingedSession.roundAfter, haccepted]
        exact if_neg (hnone a haccepted)

/-- **A step with a whole average keeps the invariant.** -/
theorem step_averaged (hl : 1000 ≤ player.latency) (hx : Averaged player x)
    (he : enabled player x c) (hwhole : WholeWraps player x c) :
    Averaged player (step player x c) := by
  have hrounds := PingedSession.step_rounds hx.rounds he.1
  rcases evaluated_or_same hl hx he with ⟨measured, w, hevaluated, hiff⟩ |
    ⟨-, htimeOffset, hwraps, hround⟩
  · refine ⟨hrounds, ?_, ?_, ?_⟩
    · show ∀ p ∈ (x.pinged.step c).round, _
      rw [hevaluated.round]
      exact List.forall_mem_nil _
    · show ∀ p ∈ (x.pinged.step c).round, _
      rw [hevaluated.round]
      exact List.forall_mem_nil _
    · show Option.Rel _ (x.pinged.step c).session.timeOffset (wrapsAfter player x c)
      rw [hevaluated.timeOffset, hevaluated.estimateWraps]
      have hold := getD_estimateAfter hx.estimate hevaluated.estimate
      have haverage := Int.ediv_mul_cancel ((wholeAverage_iff _ _).mp (hiff.mp hwhole))
      exact .some (Near.mean (v := 8) (w := 2) (by decide) (by decide) (by decide) hold
        hevaluated.estimate haverage.symm)
  · have hestimate : Option.Rel (EstimateAfter player) (step player x c).pinged.session.timeOffset
        (step player x c).estimateWraps := by
      show Option.Rel _ (x.pinged.step c).session.timeOffset (wrapsAfter player x c)
      rw [htimeOffset, hwraps]
      exact hx.estimate
    rcases hround with hround | ⟨recorded, probe, haccepted, hround⟩
    · refine ⟨hrounds, ?_, ?_, hestimate⟩
      · show ∀ p ∈ (x.pinged.step c).round, _
        rw [hround]
        exact hx.sampled
      · show ∀ p ∈ (x.pinged.step c).round, ∀ q ∈ (x.pinged.step c).round, _
        rw [hround]
        exact hx.together
    · obtain ⟨hsampled, htogether⟩ := accepted_sampled hl hx.rounds.chained he haccepted
      have hall : ∀ p ∈ (x.pinged.step c).round, Sampled player p ∧
          player.wraps p.sendTimestamp = player.wraps probe.sendTimestamp := by
        rw [hround, List.forall_mem_append]
        refine ⟨fun p hp => ⟨hx.sampled p hp, htogether p hp⟩, ?_⟩
        exact List.forall_mem_singleton.mpr ⟨hsampled, rfl⟩
      refine ⟨hrounds, fun p hp => (hall p hp).1, ?_, hestimate⟩
      intro p hp q hq
      rw [(hall p hp).2, (hall q hq).2]

/-- A start value, modulo the period of the counter. -/
theorem closeModulo_startValue {estimate : ℤ} {s : CommandSession} (hs : s.timeOffset = some estimate)
    (start : Timestamp) (a : ℤ) :
    CloseModulo 4294967296 2 (s.startValue start) a ↔
      CloseModulo 4294967296 2 ((start.ns - estimate * 1000).tdiv 1000000) a := by
  have hvalue : (s.startValue start : ℤ) =
      (start.ns - estimate * 1000).tdiv 1000000 % 4294967296 := by
    rw [startValue, hs, toUInt32, Int.toNat_of_nonneg (Int.emod_nonneg _ (by decide))]
    rfl
  rw [hvalue, closeModulo_emod_left]

/-- What the player's clock shows, from the constant offset and latency. -/
theorem elapsed_eq (player : Player) (start : Timestamp) :
    player.elapsed start = (start.ns - (player.offset - player.latency)) / 1000000 := by
  rw [Player.elapsed]
  congr 1
  ring

/-- **Whole wraps do not show in the start values.** -/
theorem Averaged.startsRight (hx : Averaged player x) : StartsRight player x := by
  intro hsome start
  obtain ⟨estimate, htimeOffset⟩ := Option.isSome_iff_exists.mp hsome
  have hestimate := hx.estimate
  rw [htimeOffset] at hestimate
  generalize x.estimateWraps = wraps at hestimate
  cases hestimate with
  | some hnear =>
    rw [closeModulo_startValue htimeOffset, elapsed_eq]
    exact hnear.close start.ns

/-- **Other averages do.** -/
theorem whole_of_startsRight (hl : 1000 ≤ player.latency) (hx : Averaged player x)
    (he : enabled player x c) (h : StartsRight player (step player x c)) :
    WholeWraps player x c := by
  rcases evaluated_or_same hl hx he with ⟨measured, w, hevaluated, hiff⟩ | ⟨hwhole, -⟩
  · rw [hiff, wholeAverage_iff]
    have htimeOffset : (step player x c).pinged.session.timeOffset =
        some (smooth x.pinged.session.timeOffset measured) := hevaluated.timeOffset
    have hclose := h (by rw [htimeOffset, Option.isSome_some]) ⟨0⟩
    rw [closeModulo_startValue htimeOffset, elapsed_eq] at hclose
    exact whole_of_close (v := 8) (w := 2) (by decide) (by decide) (by decide) (by decide)
      (getD_estimateAfter hx.estimate hevaluated.estimate) hevaluated.estimate hclose
  · exact hwhole

end Steps

/-! ### Runs -/

theorem opened_averaged (player : Player) (address : ℕ) (clientID : List UInt8)
    (streamingPort : ℕ) (formatSelection : FormatSelection) (gain : Option ℕ) (now : Timestamp)
    (context : Context) :
    Averaged player
      (opened address clientID streamingPort formatSelection gain now context) := by
  have hsame := PingedSession.opened_measurement address clientID streamingPort formatSelection gain
    now context
  refine ⟨PingedSession.opened_rounds address clientID streamingPort formatSelection gain now
    context, List.forall_mem_nil _, List.forall_mem_nil _, ?_⟩
  show Option.Rel _ (PingedSession.opened _ _ _ _ _ _ _).session.timeOffset none
  rw [hsame.timeOffset]
  exact .none

/-- **The start values are right in every state of a run** if and only if at the end of each round
the wraps have a whole average; and smoothing a constant leaves it unchanged. -/
theorem startValue_iff (player : Player) (hl : 1000 ≤ player.latency) (address : ℕ)
    (clientID : List UInt8) (streamingPort : ℕ) (formatSelection : FormatSelection)
    (gain : Option ℕ) (now : Timestamp) (context : Context) (calls : List SessionCall)
    (hcalls : (system player).Admits
      (opened address clientID streamingPort formatSelection gain now context) calls) :
    ((system player).Always (StartsRight player)
        (opened address clientID streamingPort formatSelection gain now context) calls ↔
      ((system player).restrict (WholeWraps player)).Admits
        (opened address clientID streamingPort formatSelection gain now context) calls) ∧
      ∀ (measured : ℤ) (n : ℕ),
        (fun estimate => smooth (some estimate) measured)^[n] measured = measured := by
  refine ⟨?_, smooth_iterate⟩
  refine (system player).always_iff_admits_restrict (Averaged player) (StartsRight player)
    (WholeWraps player) ?_ ?_ ?_ calls _
    (opened_averaged player address clientID streamingPort formatSelection gain now context) hcalls
  · intro x hx
    exact hx.startsRight
  · intro x c hx he hwhole
    exact step_averaged hl hx he hwhole
  · intro x c hx he hnot hright
    exact hnot (whole_of_startsRight hl hx he hright)

/-! ### A wrap between two rounds -/

/-- What a handler reads at a time in nanoseconds. -/
def contextAt (ns : ℤ) : Context := ⟨⟨44100, false, ⟨0⟩⟩, fun _ => ⟨ns⟩, Exchange.insertionSort⟩

/-- The player answers the ping with the given index at once. -/
def answerTo (player : Player) (index : ℕ) (sent : ℤ) : SessionCall :=
  .message (contextAt (sent + 2 * player.latency)) ⟨sent + 2 * player.latency⟩
    (.STAT (Exchange.report .STMt (player.counter ⟨sent⟩).toNat (index + 1)))

/-- A round of pings, one every second. -/
def roundFrom (player : Player) (begins : ℤ) (index length : ℕ) : List SessionCall :=
  (List.range length).flatMap fun k : ℕ =>
    let sent : ℤ := begins + k * 1000000000
    [if k = 0 then .pingTimer (contextAt sent) else .pingHandler (contextAt sent),
      answerTo player (index + k) sent]

/-- A player that is a millisecond away, and whose counter wraps forty seconds after the server's
clock shows 1700000000 seconds. -/
def wrappingPlayer : Player := ⟨1700000000000000000 - 4294927295000000, 1000000⟩

def newSession : WrappingSession := opened 0 [49] 9001 .FLAC none ⟨0⟩ (contextAt 0)

/-- One round before the wrap, and one after it. -/
def twoRounds : List SessionCall :=
  .message (contextAt 1700000000000000000) ⟨1700000000000000000⟩
      (.HELO ⟨36, 12, 0, [], [], 0, 0, 0, []⟩) ::
    roundFrom wrappingPlayer 1700000010000000000 13 13 ++
    roundFrom wrappingPlayer 1700000045000000000 0 26

theorem twoRounds_timeOffset :
    ((system wrappingPlayer).exec newSession twoRounds).pinged.session.timeOffset =
      some 1696564066163200 := by
  decide +kernel

theorem startValue_iff_twoRounds :
    ((system wrappingPlayer).Always (StartsRight wrappingPlayer) newSession twoRounds ↔
      ((system wrappingPlayer).restrict (WholeWraps wrappingPlayer)).Admits newSession twoRounds) ∧
      ∀ (measured : ℤ) (n : ℕ),
        (fun estimate => smooth (some estimate) measured)^[n] measured = measured :=
  startValue_iff wrappingPlayer (by decide) 0 [49] 9001 .FLAC none ⟨0⟩ (contextAt 0) twoRounds
    (by decide +kernel)

/-- **A wrap that shows**: after the second round the estimate is a fifth of a period too large. -/
theorem startValue_wrong : (system wrappingPlayer).Admits newSession twoRounds ∧
    ¬ (system wrappingPlayer).Always (StartsRight wrappingPlayer) newSession twoRounds := by
  refine ⟨by decide +kernel, ?_⟩
  intro h
  have hright := h twoRounds List.prefix_rfl
  have hclose := hright (by rw [twoRounds_timeOffset, Option.isSome_some]) ⟨0⟩
  rw [closeModulo_startValue twoRounds_timeOffset] at hclose
  have hvalue : ((0 : ℤ) - 1696564066163200 * 1000).tdiv 1000000 = -1696564066163 := by decide
  have hclock : wrappingPlayer.elapsed ⟨0⟩ = -1695705072704 := by decide
  obtain ⟨k, hk⟩ := hclose
  rw [hvalue, hclock, abs_le] at hk
  omega

end WrappingSession

end SlimStreamer
