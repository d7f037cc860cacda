import SlimStreamer.Lib.Execution
import SlimStreamer.Proto.MessageBoundary
import SlimStreamer.Proto.SessionRuns

/-!
# What a call makes of arbitrary octets

A turn of the loop over the received octets depends on the octets at the front of the ring only:
they are too few, or have no handler, or are a message that is too short for its structure, or one
that is handled.

* `front` — which of these;
* `requestTurn_waiting`, `requestTurn_unsupported`, `requestTurn_tooShort`, `requestTurn_message` —
  the turn in each case;
* `RequestEvent`, `requestSystem` — calls of `onRequest` with arbitrary octets, and the other calls
  to the session in between.
-/

namespace SlimStreamer

namespace CommandSession

/-! ### The front of the ring -/

/-- What the octets at the front of the ring are to a turn. -/
inductive Front where
  /-- Too few for a label, or for the message they announce. -/
  | waiting
  | unsupported
  /-- A message with fewer octets than the structure of its command, and nothing behind it. -/
  | tooShort
  | message (command : ClientCommand)
  deriving DecidableEq, Repr

def front (octets : List UInt8) : Front :=
  if octets.length < 4 then .waiting
  else match CommandLabel.find (octets.take 4) with
    | none => .unsupported
    | some label =>
      if octets.length < 8 ∨ octets.length < 8 + announced octets then .waiting
      else if octets.length < label.sizeOf then .tooShort
      else .message (ClientCommand.convert (octets.take (max label.sizeOf (8 + announced octets)))
        label)

/-- The octets of a complete message with a handler. -/
structure CompleteFront (octets : List UInt8) (label : CommandLabel) : Prop where
  found : CommandLabel.find (octets.take 4) = some label
  header : 8 ≤ octets.length
  complete : 8 + announced octets ≤ octets.length

/-- When the front is which. -/
inductive Fronted (octets : List UInt8) : Front → Prop
  | few (hfew : octets.length < 4) : Fronted octets .waiting
  | incomplete {label : CommandLabel} (hlabel : CommandLabel.find (octets.take 4) = some label)
    (hwaiting : octets.length < 8 ∨ octets.length < 8 + announced octets) :
    Fronted octets .waiting
  | unsupported (hfour : 4 ≤ octets.length) (hnone : CommandLabel.find (octets.take 4) = none) :
    Fronted octets .unsupported
  | tooShort {label : CommandLabel} (hfront : CompleteFront octets label)
    (hshort : octets.length < label.sizeOf) : Fronted octets .tooShort
  | message {label : CommandLabel} (hfront : CompleteFront octets label)
    (hfixed : label.sizeOf ≤ octets.length) :
    Fronted octets (.message
      (ClientCommand.convert (octets.take (max label.sizeOf (8 + announced octets))) label))

theorem front_fronted (octets : List UInt8) : Fronted octets (front octets) := by
  rw [front]
  split
  · rename_i hfew
    exact .few hfew
  · rename_i hfour
    split
    · rename_i hnone
      exact .unsupported (not_lt.mp hfour) hnone
    · rename_i label hlabel
      split
      · rename_i hwaiting
        exact .incomplete hlabel hwaiting
      · rename_i hcomplete
        have hfront : CompleteFront octets label := ⟨hlabel, by omega, by omega⟩
        split
        · rename_i hshort
          exact .tooShort hfront hshort
        · rename_i hfixed
          exact .message hfront (not_lt.mp hfixed)

/-- The front of the ring is waiting for more octets. -/
theorem front_eq_waiting {octets : List UInt8} (h : front octets = .waiting) :
    octets.length < 4 ∨ ∃ label, CommandLabel.find (octets.take 4) = some label ∧
      (octets.length < 8 ∨ octets.length < 8 + announced octets) := by
  have hfronted := front_fronted octets
  rw [h] at hfronted
  cases hfronted with
  | few hfew => exact Or.inl hfew
  | incomplete hlabel hwaiting => exact Or.inr ⟨_, hlabel, hwaiting⟩

theorem front_eq_unsupported {octets : List UInt8} (h : front octets = .unsupported) :
    4 ≤ octets.length ∧ CommandLabel.find (octets.take 4) = none := by
  have hfronted := front_fronted octets
  rw [h] at hfronted
  cases hfronted with
  | unsupported hfour hnone => exact ⟨hfour, hnone⟩

theorem front_eq_tooShort {octets : List UInt8} (h : front octets = .tooShort) :
    ∃ label, CompleteFront octets label ∧ octets.length < label.sizeOf := by
  have hfronted := front_fronted octets
  rw [h] at hfronted
  cases hfronted with
  | tooShort hfront hshort => exact ⟨_, hfront, hshort⟩

theorem front_eq_message {octets : List UInt8} {command : ClientCommand}
    (h : front octets = .message command) :
    ∃ label, CompleteFront octets label ∧ label.sizeOf ≤ octets.length ∧
      command = ClientCommand.convert (octets.take (max label.sizeOf (8 + announced octets)))
        label := by
  have hfronted := front_fronted octets
  rw [h] at hfronted
  cases hfronted with
  | message hfront hfixed => exact ⟨_, hfront, hfixed, rfl⟩

/-- A message takes as many octets as it announces, and these are there. -/
theorem getSize_of_front {octets : List UInt8} {command : ClientCommand}
    (h : front octets = .message command) :
    InboundCommand.getSize command = 8 + announced octets ∧
      InboundCommand.getSize command ≤ octets.length := by
  obtain ⟨label, hfront, hfixed, rfl⟩ := front_eq_message h
  have height := label.eight_le_sizeOf
  have hheader := hfront.header
  have htaken : announced (octets.take (max label.sizeOf (8 + announced octets))) =
      announced octets := by
    rw [announced, field_take (by omega), ← announced]
  have hlength : 8 ≤ (octets.take (max label.sizeOf (8 + announced octets))).length := by
    rw [List.length_take]
    omega
  have hcomplete := hfront.complete
  rw [InboundCommand.getSize_convert label hlength, htaken]
  exact ⟨rfl, hcomplete⟩

/-! ### The turns of the loop -/

section Turns

variable (context : Context) (timestamp : Timestamp) {s : CommandSession}

/-- The label a turn looks for. -/
theorem find_front {ring : Ring UInt8} (h : 4 ≤ ring.size) :
    CommandLabel.find ((List.range 4).map ring.get) = CommandLabel.find (ring.contents.take 4) := by
  rw [label_octets h]
  rfl

theorem requestTurn_waiting (h : front s.commandRingBuffer.contents = .waiting) :
    s.requestTurn context timestamp = .idle s := by
  refine requestTurn_rest context timestamp fun hfour => ?_
  rw [Ring.getSize] at hfour
  rcases front_eq_waiting h with hfew | ⟨label, hlabel, hincomplete⟩
  · rw [Ring.contents_length] at hfew
    omega
  · rw [Ring.contents_length] at hincomplete
    refine ⟨by rw [find_front hfour, hlabel]; rfl, ?_⟩
    rw [← Bool.not_eq_true, InboundCommand.isEnoughData_iff]
    omega

theorem requestTurn_unsupported (h : front s.commandRingBuffer.contents = .unsupported) :
    s.requestTurn context timestamp =
      .idle { s with commandRingBuffer := s.commandRingBuffer.pop } := by
  obtain ⟨hfour, hnone⟩ := front_eq_unsupported h
  rw [Ring.contents_length] at hfour
  exact requestTurn_skip context timestamp hfour ((find_front hfour).trans hnone)

theorem CompleteFront.hasMessage {ring : Ring UInt8} {label : CommandLabel}
    (h : CompleteFront ring.contents label) : HasMessage label ring := by
  have hheader := h.header
  have hcomplete := h.complete
  rw [Ring.contents_length] at hheader hcomplete
  exact ⟨(find_front (by omega)).trans h.found,
    (InboundCommand.isEnoughData_iff ring).mpr ⟨hheader, hcomplete⟩⟩

theorem requestTurn_tooShort (h : front s.commandRingBuffer.contents = .tooShort) :
    ∃ e s', s.requestTurn context timestamp = .failed (.exception e) s' ∧
      s'.commandRingBuffer = s.commandRingBuffer := by
  obtain ⟨label, hfront, hshort⟩ := front_eq_tooShort h
  rw [Ring.contents_length] at hshort
  exact ⟨_, _, requestTurn_unreadable context timestamp hfront.hasMessage
    (InboundCommand.construct_tooSmall hshort), interfere_ring label s⟩

/-- A turn on a message gives it to its handler. -/
theorem requestTurn_message {command : ClientCommand}
    (h : front s.commandRingBuffer.contents = .message command) :
    ∃ s', s'.commandRingBuffer =
        s.commandRingBuffer.popN (InboundCommand.getSize command) ∧
      s.requestTurn context timestamp =
        if dividesByZero command then
          .failed .divisionByZero { s' with commandRingBuffer := s.commandRingBuffer }
        else .processed command s' := by
  obtain ⟨label, hfront, hfixed, hcommand⟩ := front_eq_message h
  have hcomplete := hfront.complete
  rw [Ring.contents_length] at hfixed hcomplete
  have hlabel : field s.commandRingBuffer.contents 0 4 = label.LABEL :=
    CommandLabel.LABEL_of_find hfront.found
  have hconstruct : InboundCommand.construct label s.commandRingBuffer = .ok command := by
    rw [hcommand]
    exact InboundCommand.construct_eq hfixed hcomplete hlabel
  exact requestTurn_handled context timestamp hfront.hasMessage hconstruct

end Turns

/-! ### Calls with arbitrary octets -/

/-- A call to a session: octets that have arrived, or anything but octets. -/
inductive RequestEvent where
  | request (receipt : Receipt)
  | other (c : SessionCall)

/-- The calls that are not made of octets that have arrived. -/
def SessionCall.isOther : SessionCall → Bool
  | .buffered _ | .message _ _ _ | .unreadable => false
  | _ => true

/-- Octets may arrive at any time, also after an exception. -/
def requestSystem : GuardedExecution.System CommandSession RequestEvent where
  enabled _
    | .request _ => True
    | .other c => c.isOther = true
  step s
    | .request receipt => (s.onRequest receipt).session
    | .other c => s.call c

/-- What the Streamer calls does not touch the ring. -/
theorem Changes.commandRingBuffer {s s' : CommandSession} (h : Changes s s') :
    s'.commandRingBuffer = s.commandRingBuffer := by
  refine Changes.keeps (R := fun s s' => s'.commandRingBuffer = s.commandRingBuffer)
    (fun _ => rfl) (fun h h' => h'.trans h) ?_ h
  intro s s' hchange
  cases hchange with
  | stopped hs => split <;> rfl
  | _ => rfl

theorem call_ring {c : SessionCall} (h : c.isOther = true) (s : CommandSession) :
    (s.call c).commandRingBuffer = s.commandRingBuffer := by
  cases c with
  | pingTimer context => exact (onPingTimer_step context s).commandRingBuffer
  | pingHandler context => exact (onPingHandler_step context s).commandRingBuffer
  | prepare context rate => exact (prepare_changes context rate s).commandRingBuffer
  | setStreamingSession streamingSession => rfl
  | consumeChunk context answer chunk =>
    exact (consumeChunk_changes context answer chunk s).commandRingBuffer
  | stop context => exact (stop_changes context s).commandRingBuffer
  | _ => cases h

end CommandSession

end SlimStreamer
