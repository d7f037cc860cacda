import SlimStreamer.Proto.RequestOctets

/-!
# The arithmetic of the fullness reports

`onSTMl` and `onSTMs` log how full the buffer of the player is, in per cent: the fullness times one
hundred, divided by the size of the buffer, both from the player and in 32-bit arithmetic.  The
division is executed whenever such a report is dispatched, in every state of the session.

* `dispatched` — the messages in the octets of a call, read without a session;
* `Faultless` — no division by zero, and all percentages are right;
* `faultless_iff` — the runs of which all calls are faultless;
* `onRequest_divides`, `percentage_wraps` — what happens otherwise.
-/

namespace SlimStreamer

namespace CommandSession

/-! ### The messages in the octets of a call -/

/-- The messages that the loop takes out of the octets, for at most the given number of turns. -/
def dispatched : ℕ → List UInt8 → List ClientCommand
  | 0, _ => []
  | fuel + 1, octets =>
    match front octets with
    | .message command =>
      command :: dispatched fuel (octets.drop (InboundCommand.getSize command))
    | _ => []

/-- The messages a call finds in the ring once the octets are in it. -/
def dispatchedBy (receipt : Receipt) (s : CommandSession) : List ClientCommand :=
  let octets := (s.commandRingBuffer.pushAll receipt.buffer).contents
  dispatched (octets.length + 1) octets

/-- A report that the percentage is computed for. -/
def ReportsFullness (d : STAT) : Prop :=
  StatEvent.find d.event = some .STMl ∨ StatEvent.find d.event = some .STMs

/-- The loop handles the messages in its octets, up to one that divides by zero. -/
theorem requestLoop_dispatched (timestamp : Timestamp) (fuel : ℕ) :
    ∀ (contexts : ℕ → Context) (s : CommandSession),
      ((requestLoop timestamp fuel contexts s).failure = some .divisionByZero ↔
        ∃ command ∈ dispatched fuel s.commandRingBuffer.contents, dividesByZero command = true) ∧
      ((requestLoop timestamp fuel contexts s).failure ≠ some .divisionByZero →
        (requestLoop timestamp fuel contexts s).handled =
          dispatched fuel s.commandRingBuffer.contents) := by
  induction fuel with
  | zero => intro contexts s; simp [requestLoop, dispatched]
  | succ fuel ih =>
    intro contexts s
    rw [requestLoop, dispatched]
    cases hfront : front s.commandRingBuffer.contents with
    | waiting =>
      rw [requestTurn_waiting _ _ hfront]
      simp
    | unsupported =>
      rw [requestTurn_unsupported _ _ hfront]
      simp
    | tooShort =>
      obtain ⟨e, s', hturn, -⟩ := requestTurn_tooShort (contexts 0) timestamp hfront
      rw [hturn]
      simp
    | message command =>
      obtain ⟨s', hring, hturn⟩ := requestTurn_message (contexts 0) timestamp hfront
      rw [hturn]
      cases hdivides : dividesByZero command with
      | true => simp [hdivides]
      | false =>
        obtain ⟨hfailure, hhandled⟩ := ih (fun n => contexts (n + 1)) s'
        rw [hring, Ring.contents_popN] at hfailure hhandled
        simp only [Bool.false_eq_true, if_false]
        constructor
        · simp [hfailure, hdivides]
        · intro hnone
          rw [hhandled hnone]

theorem onException_failure (result : RequestResult) :
    (onException result).failure = result.failure := by
  rw [onException]
  split <;> rfl

theorem onException_handled (result : RequestResult) :
    (onException result).handled = result.handled := by
  rw [onException]
  split <;> rfl

theorem onRequest_dispatched (receipt : Receipt) (s : CommandSession) :
    ((s.onRequest receipt).failure = some .divisionByZero ↔
      ∃ command ∈ dispatchedBy receipt s, dividesByZero command = true) ∧
    ((s.onRequest receipt).failure ≠ some .divisionByZero →
      (s.onRequest receipt).handled = dispatchedBy receipt s) := by
  rw [onRequest, onException_failure, onException_handled, dispatchedBy, Ring.getSize_eq]
  exact requestLoop_dispatched _ _ _ _

/-! ### The percentage -/

/-- A number that wraps around is too small by more than the divisor. -/
theorem percentage_eq_iff {size : ℕ} (hpos : 0 < size) (hsize : size < 4294967296)
    (fullness : ℕ) : 100 * fullness % 4294967296 / size = 100 * fullness / size ↔
      fullness ≤ 42949672 := by
  constructor
  · intro h
    by_contra hlarge
    have hwrap : 100 * fullness % 4294967296 + size ≤ 100 * fullness := by omega
    have hless := Nat.div_le_div_right (c := size) hwrap
    rw [Nat.add_div_right _ hpos, h] at hless
    omega
  · intro h
    rw [Nat.mod_eq_of_lt (by omega)]

theorem fullnessPercentage_eq_iff {d : STAT} (hsize : d.streamBufferSize < 4294967296) :
    fullnessPercentage d = some (100 * d.streamBufferFullness / d.streamBufferSize) ↔
      d.streamBufferSize ≠ 0 ∧ d.streamBufferFullness ≤ 42949672 := by
  rw [fullnessPercentage]
  split
  · rename_i hzero
    simp [hzero]
  · rename_i hzero
    rw [Option.some_inj, percentage_eq_iff (Nat.pos_of_ne_zero hzero) hsize]
    exact (and_iff_right hzero).symm

theorem dividesByZero_iff (command : ClientCommand) :
    dividesByZero command = true ↔
      ∃ d, command = .STAT d ∧ ReportsFullness d ∧ d.streamBufferSize = 0 := by
  cases command with
  | STAT d =>
    have hnone : (fullnessPercentage d).isNone = true ↔ d.streamBufferSize = 0 := by
      rw [fullnessPercentage]
      split <;> simp_all
    simp [dividesByZero, ReportsFullness, hnone, and_comm]
  | _ => simp [dividesByZero]

/-- The size of the buffer is a 32-bit number. -/
theorem streamBufferSize_lt (fuel : ℕ) :
    ∀ (octets : List UInt8) (d : STAT), .STAT d ∈ dispatched fuel octets →
      d.streamBufferSize < 4294967296 := by
  induction fuel with
  | zero => intro octets d hd; cases hd
  | succ fuel ih =>
    intro octets d hd
    rw [dispatched] at hd
    cases hfront : front octets with
    | message command =>
      rw [hfront] at hd
      rcases List.mem_cons.mp hd with rfl | hd
      · obtain ⟨label, -, -, hcommand⟩ := front_eq_message hfront
        cases label with
        | STAT =>
          rw [ClientCommand.STAT.inj hcommand]
          exact Octets.byteSwap_lt 4 _
        | _ => cases hcommand
      · exact ih _ d hd
    | _ => rw [hfront] at hd; cases hd

/-! ### Faultless calls -/

/-- The call divides by no zero, and every percentage it computes is right. -/
def Faultless (receipt : Receipt) (s : CommandSession) : Prop :=
  (s.onRequest receipt).failure ≠ some .divisionByZero ∧
    ∀ d, .STAT d ∈ (s.onRequest receipt).handled → ReportsFullness d →
      fullnessPercentage d = some (100 * d.streamBufferFullness / d.streamBufferSize)

/-- In every fullness report of the octets the size is not zero, and a hundred times the fullness
is a 32-bit number. -/
def ReportsInRange (receipt : Receipt) (s : CommandSession) : Prop :=
  ∀ d, .STAT d ∈ dispatchedBy receipt s → ReportsFullness d →
    d.streamBufferSize ≠ 0 ∧ d.streamBufferFullness ≤ 42949672

theorem onRequest_faultless_iff (receipt : Receipt) (s : CommandSession) :
    Faultless receipt s ↔ ReportsInRange receipt s := by
  obtain ⟨hdivides, hhandled⟩ := onRequest_dispatched receipt s
  have hsize (d : STAT) (hd : .STAT d ∈ dispatchedBy receipt s) :=
    streamBufferSize_lt _ _ d hd
  constructor
  · rintro ⟨hfailure, hpercentage⟩ d hd hreports
    rw [hhandled hfailure] at hpercentage
    exact (fullnessPercentage_eq_iff (hsize d hd)).mp (hpercentage d hd hreports)
  · intro hrange
    have hfailure : (s.onRequest receipt).failure ≠ some .divisionByZero := by
      intro h
      obtain ⟨command, hcommand, hzero⟩ := hdivides.mp h
      obtain ⟨d, rfl, hreports, hd⟩ := (dividesByZero_iff command).mp hzero
      exact (hrange d hcommand hreports).1 hd
    refine ⟨hfailure, ?_⟩
    rw [hhandled hfailure]
    intro d hd hreports
    exact (fullnessPercentage_eq_iff (hsize d hd)).mpr (hrange d hd hreports)

/-- The condition for one event of a run. -/
def OnRequests (p : Receipt → CommandSession → Prop) (s : CommandSession) : RequestEvent → Prop
  | .request receipt => p receipt s
  | .other _ => True

/-- **The calls of a run are faultless** if and only if all the fullness reports in the octets they
are given are in range. -/
theorem faultless_iff (address : ℕ) (clientID : List UInt8) (streamingPort : ℕ)
    (formatSelection : FormatSelection) (gain : Option ℕ) (now : Timestamp) (context : Context)
    (events : List RequestEvent) :
    (requestSystem.restrict (OnRequests Faultless)).Admits
        ((create address clientID streamingPort formatSelection gain now).start context) events ↔
      (requestSystem.restrict (OnRequests ReportsInRange)).Admits
        ((create address clientID streamingPort formatSelection gain now).start context) events := by
  refine requestSystem.admits_restrict_congr (fun _ => True) _ _ (fun _ _ _ _ _ => trivial) ?_
    events _ trivial
  intro s event _ _
  cases event with
  | request receipt => exact onRequest_faultless_iff receipt s
  | other c => exact Iff.rfl

/-! ### Two faults -/

/-- A report of a player: `STMl`, with the size of its buffer and its fullness. -/
def fullnessReport (size fullness : ℕ) : ClientMessage where
  label := .STAT
  body := octets ['S', 'T', 'M', 'l'] ++ [0, 0, 0] ++ Octets.toBigEndian 4 size ++
    Octets.toBigEndian 4 fullness ++ List.replicate 38 0
  fixed_size := by simp [CommandLabel.sizeOf, octets]
  max_size := by simp [maxMessageSize, octets]

def receiptOf (message : ClientMessage) : Receipt :=
  ⟨message.encode, ⟨0⟩, fun _ => ⟨⟨44100, false, ⟨0⟩⟩, fun _ => ⟨0⟩, ProbeSort.merge⟩⟩

def newSession : CommandSession :=
  (create 0 [49] 9001 .FLAC none ⟨0⟩).start ⟨⟨44100, false, ⟨0⟩⟩, fun _ => ⟨0⟩, ProbeSort.merge⟩

/-- **A division by zero**: one report of a player without a buffer. -/
theorem onRequest_divides :
    (newSession.onRequest (receiptOf (fullnessReport 0 0))).failure = some .divisionByZero := by
  decide +kernel

/-- **A percentage that wraps around**: it is four. -/
theorem percentage_wraps :
    (newSession.onRequest (receiptOf (fullnessReport 1 42949673))).handled =
        [(fullnessReport 1 42949673).decode] ∧
      ∃ d, (fullnessReport 1 42949673).decode = .STAT d ∧ ReportsFullness d ∧
        d.streamBufferSize = 1 ∧ d.streamBufferFullness = 42949673 ∧ fullnessPercentage d = some 4 := by
  refine ⟨by decide +kernel, _, rfl, ?_⟩
  unfold ReportsFullness
  decide +kernel

/-- **Calls that are not faultless.** -/
theorem not_faultless :
    ¬ (requestSystem.restrict (OnRequests Faultless)).Admits newSession
        [.request (receiptOf (fullnessReport 0 0))] ∧
      ¬ (requestSystem.restrict (OnRequests Faultless)).Admits newSession
        [.request (receiptOf (fullnessReport 1 42949673))] := by
  constructor
  · rintro ⟨⟨-, hfailure, -⟩, -⟩
    exact hfailure onRequest_divides
  · rintro ⟨⟨-, -, hpercentage⟩, -⟩
    obtain ⟨hhandled, d, hd, hreports, hsize, hfullness, hfour⟩ := percentage_wraps
    have h := hpercentage d (by rw [hhandled, hd]; exact List.mem_singleton_self _) hreports
    rw [hsize, hfullness, hfour] at h
    simp at h

end CommandSession

end SlimStreamer
