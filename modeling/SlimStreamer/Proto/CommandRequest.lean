import SlimStreamer.Lib.Blocks
import SlimStreamer.Proto.ClientMessage
import SlimStreamer.Proto.CommandSession

/-!
# Receiving the octets of a player

`CommandSession::onRequest`: the received octets go into the command ring, and messages are
taken out of it for as long as the ring holds a complete one.

The loop of the source runs until a turn processes nothing.  `requestLoop` has the number of
turns as fuel; a turn that goes on removes octets from the ring, so that one turn more than
there are octets is enough (`ParsingBounds` has the loop itself).

* `Turned`, `requestTurn_turned` — what one turn can do;
* `requestTurn_complete`, `requestTurn_partial` — one turn, by what the ring starts with;
* `requestLoop_messages` — the loop handles the complete messages and keeps the rest;
* `onRequest_rule` — what its turns do, a call does;
* `receive_messages` — any segmentation of a stream of well-formed messages.
-/

namespace SlimStreamer

namespace CommandSession

/-! ### The model -/

/-- How one turn of the loop ends. -/
inductive RequestTurn where
  /-- `processedSize` stays zero. -/
  | idle (session : CommandSession)
  | processed (command : ClientCommand) (session : CommandSession)
  | failed (failure : Failure) (session : CommandSession)

def requestTurn (context : Context) (timestamp : Timestamp) (s : CommandSession) : RequestTurn :=
  if 4 ≤ s.commandRingBuffer.getSize then
    match CommandLabel.find ((List.range 4).map s.commandRingBuffer.get) with
    | none =>
      -- unsupported command, skipping one character
      .idle { s with commandRingBuffer := s.commandRingBuffer.pop }
    | some label =>
      -- if there is enough data to process this message
      if InboundCommand.isEnoughData s.commandRingBuffer then
        -- if this is not STAT command then reseting measuring flag
        let s := if label = .STAT then s else { s with measuringLatency := false }
        match InboundCommand.construct label s.commandRingBuffer with
        | .error e => .failed (.exception e) s
        | .ok command =>
          match s.handle context timestamp command with
          | (s, some failure) => .failed failure s
          | (s, none) =>
            -- removing processed data from the buffer
            let ring := s.commandRingBuffer.popN (InboundCommand.getSize command)
            .processed command { s with commandRingBuffer := ring }
      else .idle s
  else .idle s

/-- What a call of `onRequest` did: the commands handled, and why it ended early if it did. -/
structure RequestResult where
  session : CommandSession
  handled : List ClientCommand
  failure : Option Failure

/-- The loop, for at most the given number of turns; each turn has a context of its own. -/
def requestLoop (timestamp : Timestamp) :
    ℕ → (ℕ → Context) → CommandSession → RequestResult
  | 0, _, s => ⟨s, [], none⟩
  | fuel + 1, contexts, s =>
    match s.requestTurn (contexts 0) timestamp with
    | .idle s => ⟨s, [], none⟩
    | .failed failure s => ⟨s, [], some failure⟩
    | .processed command s =>
      let result := requestLoop timestamp fuel (fun n => contexts (n + 1)) s
      { result with handled := command :: result.handled }

/-- What one call of `onRequest` is given, and the contexts its handlers run in. -/
structure Receipt where
  buffer : List UInt8
  timestamp : Timestamp
  contexts : ℕ → Context

/-- The scope guard: an exception removes the data from the buffer. -/
def onException (result : RequestResult) : RequestResult :=
  match result.failure with
  | some (.exception _) =>
    let s := result.session
    { result with session := { s with commandRingBuffer := s.commandRingBuffer.clear } }
  | _ => result

def onRequest (receipt : Receipt) (s : CommandSession) : RequestResult :=
  let s := { s with commandRingBuffer := s.commandRingBuffer.pushAll receipt.buffer }
  onException (requestLoop receipt.timestamp (s.commandRingBuffer.getSize + 1)
    receipt.contexts s)

/-- Successive calls of `onRequest`, up to the first that fails. -/
def receive : List Receipt → CommandSession → RequestResult
  | [], s => ⟨s, [], none⟩
  | receipt :: receipts, s =>
    let first := s.onRequest receipt
    match first.failure with
    | some _ => first
    | none =>
      let others := receive receipts first.session
      { others with handled := first.handled ++ others.handled }

/-! ### One turn of the loop -/

/-- The ring holds nothing that another turn would remove: too few octets for a label, or the
beginning of a supported message. -/
def AtRest (ring : Ring UInt8) : Prop :=
  4 ≤ ring.getSize →
    (CommandLabel.find ((List.range 4).map ring.get)).isSome = true ∧
      InboundCommand.isEnoughData ring = false

/-- What finding a complete message does to the measurement: only a `STAT` leaves it alone. -/
def interfere (label : CommandLabel) (s : CommandSession) : CommandSession :=
  if label = .STAT then s else { s with measuringLatency := false }

@[simp] theorem interfere_ring (label : CommandLabel) (s : CommandSession) :
    (s.interfere label).commandRingBuffer = s.commandRingBuffer := by
  rw [interfere]
  split <;> rfl

section Turn

variable (context : Context) (timestamp : Timestamp) {s : CommandSession}

theorem requestTurn_rest (hrest : AtRest s.commandRingBuffer) :
    s.requestTurn context timestamp = .idle s := by
  rw [requestTurn]
  split
  · rename_i h4
    obtain ⟨hfind, henough⟩ := hrest h4
    obtain ⟨label, hlabel⟩ := Option.isSome_iff_exists.mp hfind
    rw [hlabel]
    simp only [henough, Bool.false_eq_true, if_false]
  · rfl

theorem requestTurn_skip (h4 : 4 ≤ s.commandRingBuffer.getSize)
    (hfind : CommandLabel.find ((List.range 4).map s.commandRingBuffer.get) = none) :
    s.requestTurn context timestamp =
      .idle { s with commandRingBuffer := s.commandRingBuffer.pop } := by
  rw [requestTurn, if_pos h4, hfind]

/-- The ring starts with a complete message with a handler. -/
structure HasMessage (label : CommandLabel) (ring : Ring UInt8) : Prop where
  found : CommandLabel.find ((List.range 4).map ring.get) = some label
  enough : InboundCommand.isEnoughData ring = true

theorem HasMessage.four_le {label : CommandLabel} {ring : Ring UInt8}
    (h : HasMessage label ring) : 4 ≤ ring.getSize := by
  have hcomplete := (InboundCommand.isEnoughData_iff ring).mp h.enough
  rw [Ring.getSize]
  omega

variable {label : CommandLabel}

theorem requestTurn_unreadable (hmessage : HasMessage label s.commandRingBuffer) {e : Exception}
    (hconstruct : InboundCommand.construct label s.commandRingBuffer = .error e) :
    s.requestTurn context timestamp = .failed (.exception e) (s.interfere label) := by
  rw [← interfere_ring label s, interfere] at hconstruct
  rw [requestTurn, if_pos hmessage.four_le, hmessage.found]
  simp only [hmessage.enough, if_true, hconstruct]
  rfl

/-- A message that is read is given to its handler, and then removed. -/
theorem requestTurn_read (hmessage : HasMessage label s.commandRingBuffer)
    {command : ClientCommand}
    (hconstruct : InboundCommand.construct label s.commandRingBuffer = .ok command) :
    s.requestTurn context timestamp =
      if dividesByZero command then
        .failed .divisionByZero ((s.interfere label).handle context timestamp command).1
      else .processed command { ((s.interfere label).handle context timestamp command).1 with
        commandRingBuffer := s.commandRingBuffer.popN (InboundCommand.getSize command) } := by
  obtain ⟨s₀, hs₀⟩ : ∃ s₀, s.interfere label = s₀ := ⟨_, rfl⟩
  have hring₀ : s₀.commandRingBuffer = s.commandRingBuffer := by rw [← hs₀, interfere_ring]
  have hkeep := (handle_step context timestamp command s₀).commandRingBuffer.trans hring₀
  have hresult := handle_result context timestamp command s₀
  rw [← hring₀] at hconstruct
  rw [hs₀]
  rw [interfere] at hs₀
  -- the size is a sum, which would unfold the removal of the octets
  generalize hn : InboundCommand.getSize command = n
  rw [requestTurn, if_pos hmessage.four_le, hmessage.found]
  simp only [hmessage.enough, if_true, hs₀, hconstruct]
  rw [← hkeep, hn]
  generalize s₀.handle context timestamp command = result at hresult
  obtain ⟨s', failure⟩ := result
  dsimp only at hresult
  subst hresult
  cases dividesByZero command <;> rfl

/-- Either way the handler leaves the ring to the loop. -/
theorem requestTurn_handled (hmessage : HasMessage label s.commandRingBuffer)
    {command : ClientCommand}
    (hconstruct : InboundCommand.construct label s.commandRingBuffer = .ok command) :
    ∃ s', s'.commandRingBuffer =
        s.commandRingBuffer.popN (InboundCommand.getSize command) ∧
      s.requestTurn context timestamp =
        if dividesByZero command then
          .failed .divisionByZero { s' with commandRingBuffer := s.commandRingBuffer }
        else .processed command s' := by
  have hkeep := (handle_step context timestamp command (s.interfere label)).commandRingBuffer
  rw [interfere_ring] at hkeep
  rw [requestTurn_read context timestamp hmessage hconstruct]
  generalize InboundCommand.getSize command = n
  refine ⟨{ ((s.interfere label).handle context timestamp command).1 with
    commandRingBuffer := s.commandRingBuffer.popN n }, rfl, ?_⟩
  rw [← hkeep]

/-- What one turn of the loop does to a session. -/
inductive Turned (s : CommandSession) : RequestTurn → Prop
  | rest (hrest : AtRest s.commandRingBuffer) : Turned s (.idle s)
  | skipped (h4 : 4 ≤ s.commandRingBuffer.getSize)
    (hfind : CommandLabel.find ((List.range 4).map s.commandRingBuffer.get) = none) :
    Turned s (.idle { s with commandRingBuffer := s.commandRingBuffer.pop })
  | unreadable {label : CommandLabel} {e : Exception}
    (hconstruct : InboundCommand.construct label s.commandRingBuffer = .error e) :
    Turned s (.failed (.exception e) (s.interfere label))
  | divided {label : CommandLabel} {command : ClientCommand}
    (hconstruct : InboundCommand.construct label s.commandRingBuffer = .ok command) :
    Turned s (.failed .divisionByZero ((s.interfere label).handle context timestamp command).1)
  | processed {label : CommandLabel} {command : ClientCommand}
    (hmessage : HasMessage label s.commandRingBuffer)
    (hconstruct : InboundCommand.construct label s.commandRingBuffer = .ok command) :
    Turned s (.processed command { ((s.interfere label).handle context timestamp command).1 with
      commandRingBuffer := s.commandRingBuffer.popN (InboundCommand.getSize command) })

/-- **The turns of the loop**, case by case. -/
theorem requestTurn_turned (s : CommandSession) :
    Turned context timestamp s (s.requestTurn context timestamp) := by
  by_cases h4 : 4 ≤ s.commandRingBuffer.getSize
  · cases hfind : CommandLabel.find ((List.range 4).map s.commandRingBuffer.get) with
    | none =>
      rw [requestTurn_skip context timestamp h4 hfind]
      exact .skipped h4 hfind
    | some label =>
      cases henough : InboundCommand.isEnoughData s.commandRingBuffer with
      | false =>
        have hrest : AtRest s.commandRingBuffer := fun _ => ⟨by rw [hfind]; rfl, henough⟩
        rw [requestTurn_rest context timestamp hrest]
        exact .rest hrest
      | true =>
        have hmessage : HasMessage label s.commandRingBuffer := ⟨hfind, henough⟩
        cases hconstruct : InboundCommand.construct label s.commandRingBuffer with
        | error e =>
          rw [requestTurn_unreadable context timestamp hmessage hconstruct]
          exact .unreadable hconstruct
        | ok command =>
          rw [requestTurn_read context timestamp hmessage hconstruct]
          split
          · exact .divided hconstruct
          · exact .processed hmessage hconstruct
  · have hrest : AtRest s.commandRingBuffer := fun h => absurd h h4
    rw [requestTurn_rest context timestamp hrest]
    exact .rest hrest

end Turn

/-! ### Turns on the messages of a player -/

/-- Every message a player is expected to send is one whose handler does not divide by
zero. -/
def Answerable (m : ClientMessage) : Prop :=
  m.label = .STAT →
    StatEvent.find (field m.encode 8 4) = some .STMl ∨
      StatEvent.find (field m.encode 8 4) = some .STMs →
    m.number 15 4 ≠ 0

instance (m : ClientMessage) : Decidable (Answerable m) :=
  inferInstanceAs (Decidable (m.label = .STAT →
    StatEvent.find (field m.encode 8 4) = some .STMl ∨
      StatEvent.find (field m.encode 8 4) = some .STMs →
    m.number 15 4 ≠ 0))

theorem decode_answerable {m : ClientMessage} (hm : Answerable m) (d : STAT)
    (hd : m.decode = .STAT d) (h0 : d.streamBufferSize = 0) :
    StatEvent.find d.event ≠ some .STMl ∧ StatEvent.find d.event ≠ some .STMs := by
  rw [ClientMessage.decode] at hd
  cases hl : m.label with
  | STAT =>
    simp only [hl, ClientCommand.STAT.injEq] at hd
    subst hd
    have hne := hm hl
    exact ⟨fun h => hne (Or.inl h) h0, fun h => hne (Or.inr h) h0⟩
  | _ => simp only [hl, reduceCtorEq] at hd

/-- The four octets at the front of the ring. -/
theorem label_octets {ring : Ring UInt8} (h : 4 ≤ ring.size) :
    (List.range 4).map ring.get = field ring.contents 0 4 :=
  Ring.map_get ring 4 0 h

/-- The octets of a complete message with a handler, of any length. -/
structure SupportedMessage where
  label : CommandLabel
  octets : List UInt8
  labelled : field octets 0 4 = label.LABEL
  fixed_size : label.sizeOf ≤ octets.length
  announced_size : 8 + announced octets = octets.length

namespace SupportedMessage

def command (m : SupportedMessage) : ClientCommand := ClientCommand.convert m.octets m.label

theorem eight_le_length (m : SupportedMessage) : 8 ≤ m.octets.length :=
  le_trans m.label.eight_le_sizeOf m.fixed_size

theorem getSize_command (m : SupportedMessage) :
    InboundCommand.getSize m.command = m.octets.length := by
  rw [command, InboundCommand.getSize_convert m.label m.eight_le_length, m.announced_size]

/-- A message of a player as a string of octets. -/
def ofClientMessage (m : ClientMessage) : SupportedMessage where
  label := m.label
  octets := m.encode
  labelled := m.field_label
  fixed_size := m.sizeOf_le_length
  announced_size := by rw [m.announced_encode, m.encode_length]

end SupportedMessage

/-- A turn on a complete message gives it to its handler. -/
theorem requestTurn_supported (context : Context) (timestamp : Timestamp) {s : CommandSession}
    (m : SupportedMessage) {rest : List UInt8}
    (hring : s.commandRingBuffer.contents = m.octets ++ rest) :
    ∃ s', s'.commandRingBuffer = s.commandRingBuffer.popN m.octets.length ∧
      s.requestTurn context timestamp =
        if dividesByZero m.command then
          .failed .divisionByZero { s' with commandRingBuffer := s.commandRingBuffer }
        else .processed m.command s' := by
  have hsize : s.commandRingBuffer.size = m.octets.length + rest.length := by
    rw [← Ring.contents_length, hring, List.length_append]
  have hlen := m.eight_le_length
  have hfind : CommandLabel.find ((List.range 4).map s.commandRingBuffer.get) = some m.label := by
    rw [label_octets (by omega), hring, field_append (by omega), m.labelled,
      CommandLabel.find_LABEL]
  have henough : InboundCommand.isEnoughData s.commandRingBuffer = true := by
    have hannounced := m.announced_size
    rw [InboundCommand.isEnoughData_iff, announced, hring, field_append (by omega), ← announced]
    omega
  have hconstruct : InboundCommand.construct m.label s.commandRingBuffer = .ok m.command :=
    InboundCommand.construct_ok m.label _ m.octets rest hring m.labelled m.fixed_size
      m.announced_size
  rw [← m.getSize_command]
  exact requestTurn_handled context timestamp ⟨hfind, henough⟩ hconstruct

/-- **A turn on a complete message** handles it and removes it. -/
theorem requestTurn_complete (context : Context) (timestamp : Timestamp) {s : CommandSession}
    {m : ClientMessage} {rest : List UInt8} (hm : Answerable m)
    (hring : s.commandRingBuffer.contents = m.encode ++ rest) :
    ∃ s', s.requestTurn context timestamp = .processed m.decode s' ∧
      s'.commandRingBuffer.contents = rest ∧
      s'.commandRingBuffer.getCapacity = s.commandRingBuffer.getCapacity := by
  obtain ⟨s', hring', hturn⟩ := requestTurn_supported context timestamp (.ofClientMessage m) hring
  have hcommand : (SupportedMessage.ofClientMessage m).command = m.decode := m.convert_encode
  have hdivides : dividesByZero m.decode = false := by
    have hfailure := handle_failure context timestamp m.decode s fun d hd =>
      decode_answerable hm d hd
    rw [handle_result] at hfailure
    cases hd : dividesByZero m.decode with
    | false => rfl
    | true => rw [hd] at hfailure; exact absurd hfailure (Option.some_ne_none _)
  refine ⟨s', ?_, ?_, ?_⟩
  · rw [hturn, hcommand, hdivides]
    rfl
  · rw [hring', Ring.contents_popN, hring]
    exact List.drop_left
  · rw [hring']
    exact Ring.storage_length_popN _ _

/-- **A turn on the beginning of a message** does nothing. -/
theorem requestTurn_partial (context : Context) (timestamp : Timestamp) {s : CommandSession}
    {messages : List ClientMessage} {r : List UInt8}
    (hr : BlockStream.Partial (messages.map ClientMessage.encode) r)
    (hring : s.commandRingBuffer.contents = r) :
    s.requestTurn context timestamp = .idle s := by
  have hsize : s.commandRingBuffer.size = r.length := by rw [← Ring.contents_length, hring]
  refine requestTurn_rest context timestamp fun h4 => ?_
  rw [Ring.getSize, hsize] at h4
  cases messages with
  | nil =>
    rw [show r = [] from hr, List.length_nil] at h4
    omega
  | cons m messages =>
    have hlt : r.length < m.encode.length := hr.length_lt
    obtain ⟨t, _, hrt⟩ := hr
    have hfind : CommandLabel.find ((List.range 4).map s.commandRingBuffer.get) =
        some m.label := by
      rw [label_octets (by omega), hring, ← field_append (b := t) (by omega), ← hrt,
        m.field_label, CommandLabel.find_LABEL]
    refine ⟨by rw [hfind]; rfl, ?_⟩
    rw [← Bool.not_eq_true, InboundCommand.isEnoughData_iff, hsize, announced, hring]
    rintro ⟨h8, hle⟩
    have hann := m.announced_encode
    rw [announced, hrt, field_append (by omega)] at hann
    rw [hann, ← m.encode_length] at hle
    omega

/-! ### The loop -/

theorem requestLoop_messages (timestamp : Timestamp) {rest : List ClientMessage}
    {r : List UInt8} (hr : BlockStream.Partial (rest.map ClientMessage.encode) r)
    (done : List ClientMessage) (hm : ∀ m ∈ done, Answerable m) :
    ∀ (fuel : ℕ) (contexts : ℕ → Context) (s : CommandSession), done.length < fuel →
      s.commandRingBuffer.contents = (done.map ClientMessage.encode).flatten ++ r →
      ∃ s', requestLoop timestamp fuel contexts s = ⟨s', done.map ClientMessage.decode, none⟩ ∧
        s'.commandRingBuffer.contents = r ∧
        s'.commandRingBuffer.getCapacity = s.commandRingBuffer.getCapacity := by
  induction done with
  | nil =>
    intro fuel contexts s hfuel hring
    obtain ⟨fuel, rfl⟩ : ∃ n, fuel = n + 1 := ⟨fuel - 1, by omega⟩
    have hring : s.commandRingBuffer.contents = r := by simpa using hring
    exact ⟨s, by rw [requestLoop, requestTurn_partial _ _ hr hring]; rfl, hring, rfl⟩
  | cons m done ih =>
    intro fuel contexts s hfuel hring
    obtain ⟨fuel, rfl⟩ : ∃ n, fuel = n + 1 := ⟨fuel - 1, by omega⟩
    rw [List.length_cons] at hfuel
    rw [List.map_cons, List.flatten_cons, List.append_assoc] at hring
    obtain ⟨s₁, hturn, hring₁, hcap₁⟩ :=
      requestTurn_complete (contexts 0) timestamp (hm m List.mem_cons_self) hring
    obtain ⟨s', hloop, hring', hcap'⟩ :=
      ih (fun m' h => hm m' (List.mem_cons_of_mem m h)) fuel (fun n => contexts (n + 1)) s₁
        (by omega) hring₁
    refine ⟨s', ?_, hring', hcap'.trans hcap₁⟩
    rw [requestLoop, hturn]
    simp only [hloop]
    rfl

/-- A turn that processes a message removes octets from the ring. -/
theorem requestTurn_processed {context : Context} {timestamp : Timestamp}
    {s s' : CommandSession} {command : ClientCommand}
    (h : s.requestTurn context timestamp = .processed command s') :
    s'.commandRingBuffer.size < s.commandRingBuffer.size := by
  have hturn := requestTurn_turned context timestamp s
  rw [h] at hturn
  cases hturn with
  | processed hmessage hconstruct =>
    have h4 := hmessage.four_le
    rw [Ring.getSize] at h4
    rw [← Ring.contents_length, Ring.contents_popN, List.length_drop, Ring.contents_length,
      InboundCommand.getSize]
    omega

/-! ### What a call of `onRequest` leaves alone -/

/-- The session a turn ends with. -/
def RequestTurn.session : RequestTurn → CommandSession
  | .idle s => s
  | .processed _ s => s
  | .failed _ s => s

section Rule

variable {R : CommandSession → CommandSession → Prop} (hrefl : ∀ s, R s s)
  (htrans : ∀ {s s' s''}, R s s' → R s' s'' → R s s'') {timestamp : Timestamp}
  (hturn : ∀ context s, R s (s.requestTurn context timestamp).session)

include hrefl htrans hturn

/-- The rule for the loop: it does what its turns do. -/
theorem requestLoop_rule (fuel : ℕ) : ∀ (contexts : ℕ → Context) (s : CommandSession),
    R s (requestLoop timestamp fuel contexts s).session := by
  induction fuel with
  | zero => intro contexts s; exact hrefl s
  | succ fuel ih =>
    intro contexts s
    have hfirst := hturn (contexts 0) s
    rw [requestLoop]
    generalize s.requestTurn (contexts 0) timestamp = turn at hfirst
    cases turn with
    | idle s' => exact hfirst
    | failed failure s' => exact hfirst
    | processed command s' => exact htrans hfirst (ih _ s')

/-- **The rule for `onRequest`**: it changes the ring, and does what the turns of its loop do. -/
theorem onRequest_rule (hring : ∀ s ring, R s { s with commandRingBuffer := ring })
    {receipt : Receipt} (hreceived : receipt.timestamp = timestamp) (s : CommandSession) :
    R s (s.onRequest receipt).session := by
  subst hreceived
  have hloop := htrans (hring s (s.commandRingBuffer.pushAll receipt.buffer))
    (requestLoop_rule hrefl htrans hturn
      ((s.commandRingBuffer.pushAll receipt.buffer).getSize + 1) receipt.contexts _)
  rw [onRequest, onException]
  split
  · exact htrans hloop (hring _ _)
  · exact hloop

end Rule

/-- The only way a session takes part in a stream or stops doing so is not a message. -/
theorem RequestStep.isInStream {s s' : CommandSession} (h : RequestStep s s') :
    s'.isInStream = s.isInStream := by
  rcases h.state with hs | ⟨hi, hi'⟩
  · rw [CommandSession.isInStream, CommandSession.isInStream, hs]
  · rw [CommandSession.isInStream, CommandSession.isInStream]
    rcases hi with hi | hi <;> rcases hi' with hi' | hi' <;> rw [hi, hi'] <;> rfl

theorem interfere_step (label : CommandLabel) (s : CommandSession) :
    RequestStep s (s.interfere label) := by
  rw [interfere]
  split <;> exact ⟨rfl, rfl, rfl, rfl, Or.inl rfl⟩

theorem requestTurn_step (context : Context) (timestamp : Timestamp) (s : CommandSession) :
    RequestStep s (s.requestTurn context timestamp).session := by
  have hturn := requestTurn_turned context timestamp s
  generalize s.requestTurn context timestamp = turn at hturn
  cases hturn with
  | rest hrest => exact ⟨rfl, rfl, rfl, rfl, Or.inl rfl⟩
  | skipped h4 hfind => exact ⟨rfl, rfl, rfl, rfl, Or.inl rfl⟩
  | unreadable hconstruct => exact interfere_step _ s
  | @divided label command hconstruct =>
    exact (interfere_step label s).trans (handle_step context timestamp command _).toRequestStep
  | @processed label command hmessage hconstruct =>
    have hhandle := (interfere_step label s).trans
      (handle_step context timestamp command _).toRequestStep
    exact hhandle.trans ⟨rfl, rfl, rfl, rfl, Or.inl rfl⟩

theorem onRequest_step (receipt : Receipt) (s : CommandSession) :
    RequestStep s (s.onRequest receipt).session :=
  onRequest_rule (R := RequestStep) (fun _ => ⟨rfl, rfl, rfl, rfl, Or.inl rfl⟩) RequestStep.trans
    (fun context s => requestTurn_step context receipt.timestamp s)
    (fun _ _ => ⟨rfl, rfl, rfl, rfl, Or.inl rfl⟩) rfl s

/-! ### One call of `onRequest`, and a sequence of calls -/

/-- What is left in the ring between two calls is at most one octet short of a message. -/
theorem partial_length_lt {messages : List ClientMessage} {r : List UInt8}
    (hr : BlockStream.Partial (messages.map ClientMessage.encode) r) :
    r.length < maxMessageSize := by
  cases messages with
  | nil =>
    rw [show r = [] from hr]
    decide
  | cons m messages => exact lt_of_lt_of_le hr.length_lt m.encode_length_le

theorem length_le_flatten (messages : List ClientMessage) :
    messages.length ≤ (messages.map ClientMessage.encode).flatten.length := by
  induction messages with
  | nil => exact Nat.zero_le _
  | cons m messages ih =>
    have hlen := m.encode_length
    rw [List.map_cons, List.flatten_cons, List.length_append, List.length_cons]
    omega

/-- Where a session is in the stream: the messages still to be handled, and the octets of them
still to be received. -/
structure Awaiting (pending : List ClientMessage) (later : List UInt8) (s : CommandSession) :
    Prop where
  partial_message :
    BlockStream.Partial (pending.map ClientMessage.encode) s.commandRingBuffer.contents
  stream : s.commandRingBuffer.contents ++ later = (pending.map ClientMessage.encode).flatten
  capacity : s.commandRingBuffer.getCapacity = 2048

theorem encodings_ne_nil (messages : List ClientMessage) :
    ∀ b ∈ messages.map ClientMessage.encode, b ≠ [] := by
  intro b hb
  obtain ⟨m, _, rfl⟩ := List.mem_map.mp hb
  exact m.encode_ne_nil

theorem onRequest_messages {pending : List ClientMessage} (hm : ∀ m ∈ pending, Answerable m)
    (receipt : Receipt) (hlen : receipt.buffer.length ≤ 1024) {later : List UInt8}
    {s : CommandSession} (hs : Awaiting pending (receipt.buffer ++ later) s) :
    ∃ done rest s', pending = done ++ rest ∧
      s.onRequest receipt = ⟨s', done.map ClientMessage.decode, none⟩ ∧
      Awaiting rest later s' := by
  have hlt := partial_length_lt hs.partial_message
  rw [Ring.contents_length] at hlt
  have hcap := hs.capacity
  rw [Ring.getCapacity] at hcap
  simp only [maxMessageSize] at hlt
  -- a partial message and a segment fit into the ring together
  have hpushed := Ring.contents_pushAll receipt.buffer s.commandRingBuffer (by omega)
  obtain ⟨done', rest', r, hsplit, hreceived, hpart, hrest⟩ :=
    BlockStream.flatten_cut (encodings_ne_nil pending) (s.commandRingBuffer.contents ++ receipt.buffer) later
      (by rw [List.append_assoc, hs.stream])
  obtain ⟨done, rest, rfl, rfl, rfl⟩ := List.map_eq_append_iff.mp hsplit
  rw [hreceived] at hpushed
  have hfuel : done.length < (s.commandRingBuffer.pushAll receipt.buffer).getSize + 1 := by
    have hle := length_le_flatten done
    rw [Ring.getSize_eq, hpushed, List.length_append]
    omega
  obtain ⟨s', hloop, hring', hcap'⟩ :=
    requestLoop_messages receipt.timestamp hpart done
      (fun m h => hm m (List.mem_append_left rest h)) _ receipt.contexts
      { s with commandRingBuffer := s.commandRingBuffer.pushAll receipt.buffer } hfuel hpushed
  refine ⟨done, rest, s', rfl, ?_, ?_⟩
  · rw [onRequest, hloop]
    rfl
  · refine ⟨by rw [hring']; exact hpart, by rw [hring']; exact hrest, ?_⟩
    rw [hcap', Ring.getCapacity, Ring.storage_length_pushAll, hcap]

theorem receive_messages {later : List UInt8} (receipts : List Receipt)
    (hlen : ∀ receipt ∈ receipts, receipt.buffer.length ≤ 1024) :
    ∀ {pending : List ClientMessage} {s : CommandSession}, (∀ m ∈ pending, Answerable m) →
      Awaiting pending (receipts.flatMap Receipt.buffer ++ later) s →
      ∃ done rest s', pending = done ++ rest ∧
        receive receipts s = ⟨s', done.map ClientMessage.decode, none⟩ ∧
        Awaiting rest later s' := by
  induction receipts with
  | nil =>
    intro pending s _ hs
    exact ⟨[], pending, s, rfl, rfl, hs⟩
  | cons receipt receipts ih =>
    intro pending s hm hs
    rw [List.flatMap_cons, List.append_assoc] at hs
    obtain ⟨done₁, rest₁, s₁, rfl, hfirst, hs₁⟩ :=
      onRequest_messages hm receipt (hlen receipt List.mem_cons_self) hs
    obtain ⟨done₂, rest, s', rfl, hothers, hs'⟩ :=
      ih (fun r h => hlen r (List.mem_cons_of_mem receipt h))
        (fun m h => hm m (List.mem_append_right done₁ h)) hs₁
    refine ⟨done₁ ++ done₂, rest, s', (List.append_assoc _ _ _).symm, ?_, hs'⟩
    rw [receive]
    simp only [hfirst, hothers, List.map_append]

/-- What an empty ring has made of the first segments of a stream. -/
theorem receive_earlier {messages : List ClientMessage} (hm : ∀ m ∈ messages, Answerable m)
    {earlier : List Receipt} (hlen : ∀ receipt ∈ earlier, receipt.buffer.length ≤ 1024)
    {later : List UInt8}
    (hstream : earlier.flatMap Receipt.buffer ++ later = messages.flatMap ClientMessage.encode)
    {s : CommandSession} (hnil : s.commandRingBuffer.contents = [])
    (hcap : s.commandRingBuffer.getCapacity = 2048) :
    ∃ done rest, messages = done ++ rest ∧
      (receive earlier s).handled = done.map ClientMessage.decode ∧
      (receive earlier s).failure = none ∧
      earlier.flatMap Receipt.buffer = done.flatMap ClientMessage.encode ++
        (receive earlier s).session.commandRingBuffer.contents ∧
      Awaiting rest later (receive earlier s).session := by
  have hstart : Awaiting messages (earlier.flatMap Receipt.buffer ++ later) s :=
    ⟨by rw [hnil]; exact BlockStream.partial_nil (encodings_ne_nil messages),
      by rw [hnil, List.nil_append, hstream]; rfl, hcap⟩
  obtain ⟨done, rest, s', rfl, hreceive, hs'⟩ := receive_messages earlier hlen hm hstart
  refine ⟨done, rest, rfl, by rw [hreceive], by rw [hreceive], ?_, by rw [hreceive]; exact hs'⟩
  rw [hreceive]
  refine (List.append_left_inj later).mp ?_
  rw [hstream, List.append_assoc, hs'.stream, List.flatMap_append]
  rfl

/-- **Framing.**  However the stream of a list of messages is cut into segments, an empty ring
that fits them handles each message once, in order and with its own fields; after each
segment the ring holds the octets of the incomplete message, and nothing fails. -/
theorem receive_segmented (messages : List ClientMessage) (hm : ∀ m ∈ messages, Answerable m)
    (receipts : List Receipt) (hlen : ∀ receipt ∈ receipts, receipt.buffer.length ≤ 1024)
    (hstream : receipts.flatMap Receipt.buffer = messages.flatMap ClientMessage.encode)
    (s : CommandSession) (hempty : s.commandRingBuffer.isEmpty = true)
    (hcap : s.commandRingBuffer.getCapacity = 2048) :
    (receive receipts s).handled = messages.map ClientMessage.decode ∧
      (receive receipts s).failure = none ∧
      (receive receipts s).session.commandRingBuffer.contents = [] ∧
      ∀ earlier later, receipts = earlier ++ later →
        ∃ done rest, messages = done ++ rest ∧
          (receive earlier s).handled = done.map ClientMessage.decode ∧
          (receive earlier s).failure = none ∧
          earlier.flatMap Receipt.buffer = done.flatMap ClientMessage.encode ++
            (receive earlier s).session.commandRingBuffer.contents ∧
          BlockStream.Partial (rest.map ClientMessage.encode)
            (receive earlier s).session.commandRingBuffer.contents := by
  have hnil : s.commandRingBuffer.contents = [] := by
    apply List.eq_nil_of_length_eq_zero
    rw [Ring.contents_length]
    exact beq_iff_eq.mp hempty
  obtain ⟨done, rest, hsplit, hhandled, hfailure, hreceived, hs'⟩ :=
    receive_earlier hm hlen ((List.append_nil _).trans hstream) hnil hcap
  have hrest : rest = [] := by
    have hstream' := hs'.stream
    rw [List.append_nil] at hstream'
    exact List.map_eq_nil_iff.mp (BlockStream.partial_of_all hs'.partial_message hstream')
  subst hrest
  rw [List.append_nil] at hsplit
  refine ⟨by rw [hhandled, hsplit], hfailure, hs'.partial_message, ?_⟩
  rintro earlier later rfl
  rw [List.flatMap_append] at hstream
  obtain ⟨done', rest', hsplit', hh, hf, hreceived', hs''⟩ :=
    receive_earlier hm (fun r h => hlen r (List.mem_append_left later h)) hstream hnil hcap
  exact ⟨done', rest', hsplit', hh, hf, hreceived', hs''.partial_message⟩

/-- A stream of two messages: a `DSCO`, and a `STAT` that reports `STMl`. -/
def twoMessages : List ClientMessage :=
  [⟨.DSCO, [4], by decide, by decide⟩,
    ⟨.STAT, octets ['S', 'T', 'M', 'l'] ++ List.replicate 49 1, by decide, by decide⟩]

/-- The stream, cut inside the label of the first message and inside the second one. -/
def threeSegments : List Receipt :=
  let stream := twoMessages.flatMap ClientMessage.encode
  let context : ℕ → Context := fun n => ⟨⟨44100, false, ⟨0⟩⟩, fun k => ⟨n + k⟩, ProbeSort.merge⟩
  [⟨stream.take 3, ⟨0⟩, context⟩, ⟨(stream.drop 3).take 30, ⟨1⟩, context⟩,
    ⟨stream.drop 33, ⟨2⟩, context⟩]

theorem receive_twoMessages :
    (receive threeSegments (create 0 [49] 9001 .FLAC none ⟨0⟩)).handled =
        twoMessages.map ClientMessage.decode ∧
      (receive threeSegments (create 0 [49] 9001 .FLAC none ⟨0⟩)).failure = none := by
  have h := receive_segmented twoMessages (by decide) threeSegments (by decide) (by decide)
    (create 0 [49] 9001 .FLAC none ⟨0⟩) rfl List.length_replicate
  exact ⟨h.1, h.2.1⟩

end CommandSession

end SlimStreamer
