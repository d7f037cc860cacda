import SlimStreamer.Proto.InboundCommand

/-!
# Well-formed client messages

What a player may send, stated without reference to the ring or to the structures of
`proto/client`: a label, the length of what follows in network byte order, and that many
octets, at least as many as the structure of the command asks for.  A `ClientMessage` carries
these bounds, so that a list of them is a legal stream.

* `encode` — the octets of a message;
* `decode` — its fields, read in network byte order at their offsets;
* `convert_encode` — what the conversion of a structure computes is `decode`.
-/

namespace SlimStreamer

open Octets

/-- The most octets a client message may have. -/
def maxMessageSize : ℕ := 1025

structure ClientMessage where
  label : CommandLabel
  /-- What follows the label and the length. -/
  body : List UInt8
  fixed_size : label.sizeOf ≤ 8 + body.length
  max_size : 8 + body.length ≤ maxMessageSize

namespace ClientMessage

def encode (m : ClientMessage) : List UInt8 :=
  m.label.LABEL ++ toBigEndian 4 m.body.length ++ m.body

/-- A number of the message in network byte order. -/
def number (m : ClientMessage) (offset len : ℕ) : ℕ := bigEndian (field m.encode offset len)

def decode (m : ClientMessage) : ClientCommand :=
  match m.label with
  | .DSCO => .DSCO { size := m.body.length, reason := m.number 8 1 }
  | .HELO => .HELO
    { size := m.body.length
      deviceID := m.number 8 1
      revision := m.number 9 1
      mac := field m.encode 10 6
      uuid := field m.encode 16 16
      wlanChannelList := m.number 32 2
      bytesReceivedHigh := m.number 34 4
      bytesReceivedLow := m.number 38 4
      language := field m.encode 42 2 }
  | .RESP => .RESP { size := m.body.length }
  | .SETD => .SETD { size := m.body.length, id := m.number 8 1 }
  | .STAT => .STAT
    { size := m.body.length
      event := field m.encode 8 4
      numberCRLF := m.number 12 1
      initializedMAS := m.number 13 1
      modeMAS := m.number 14 1
      streamBufferSize := m.number 15 4
      streamBufferFullness := m.number 19 4
      bytesReceived1 := m.number 23 4
      bytesReceived2 := m.number 27 4
      signalStrength := m.number 31 2
      jiffies := m.number 33 4
      outputBufferSize := m.number 37 4
      outputBufferFullness := m.number 41 4
      elapsedSeconds := m.number 45 4
      voltage := m.number 49 2
      elapsedMilliseconds := m.number 51 4
      -- the octets the server sent, in its own byte order
      serverTimestamp := littleEndian (field m.encode 55 4)
      errorCode := m.number 59 2 }

/-! ### The header -/

@[simp] theorem encode_length (m : ClientMessage) : m.encode.length = 8 + m.body.length := by
  simp only [encode, List.length_append, CommandLabel.LABEL_length, toBigEndian_length]

theorem encode_ne_nil (m : ClientMessage) : m.encode ≠ [] := by
  apply List.ne_nil_of_length_pos
  rw [encode_length]
  omega

theorem encode_length_le (m : ClientMessage) : m.encode.length ≤ maxMessageSize := by
  rw [encode_length]
  exact m.max_size

theorem field_label (m : ClientMessage) : field m.encode 0 4 = m.label.LABEL := by
  have h : 4 ≤ (m.label.LABEL ++ toBigEndian 4 m.body.length).length := by
    rw [List.length_append, CommandLabel.LABEL_length]
    omega
  rw [encode, field_append h, field_append m.label.LABEL_length.ge]
  show m.label.LABEL.take 4 = m.label.LABEL
  exact List.take_of_length_le m.label.LABEL_length.le

theorem announced_encode (m : ClientMessage) : announced m.encode = m.body.length := by
  have hlen : (toBigEndian 4 m.body.length).length = 4 := toBigEndian_length 4 _
  have hfield : field m.encode 4 4 = toBigEndian 4 m.body.length := by
    rw [encode, List.append_assoc, field]
    rw [List.drop_left' m.label.LABEL_length, List.take_left' hlen]
  have hmax := m.max_size
  rw [announced, hfield]
  refine bigEndian_toBigEndian 4 _ ?_
  simp only [maxMessageSize] at hmax
  omega

/-! ### Loading the fields -/

theorem field_length {b : List UInt8} {offset len : ℕ} (h : offset + len ≤ b.length) :
    (field b offset len).length = len := by
  simp only [field, List.length_take, List.length_drop]
  omega

theorem ntohl_load {b : List UInt8} {offset : ℕ} (h : offset + 4 ≤ b.length) :
    ntohl (load b offset 4) = bigEndian (field b offset 4) :=
  byteSwap_littleEndian _ (field_length h)

theorem ntohs_load {b : List UInt8} {offset : ℕ} (h : offset + 2 ≤ b.length) :
    ntohs (load b offset 2) = bigEndian (field b offset 2) :=
  byteSwap_littleEndian _ (field_length h)

/-- A single octet reads the same in both orders. -/
theorem load8_eq {b : List UInt8} {offset : ℕ} (h : offset + 1 ≤ b.length) :
    load8 b offset = bigEndian (field b offset 1) := by
  obtain ⟨x, hx⟩ := List.length_eq_one_iff.mp (field_length h)
  rw [load8, load, hx]
  rfl

theorem sizeOf_le_length (m : ClientMessage) : m.label.sizeOf ≤ m.encode.length := by
  rw [encode_length]
  exact m.fixed_size

/-- **The conversion of a structure reads the fields of the message.** -/
theorem convert_encode (m : ClientMessage) :
    ClientCommand.convert m.encode m.label = m.decode := by
  have hfixed := m.sizeOf_le_length
  have hsize : ntohl (load m.encode 4 4) = m.body.length := by
    rw [ntohl_load (by rw [encode_length]; omega)]
    exact m.announced_encode
  cases hl : m.label with
  | DSCO =>
    rw [hl, CommandLabel.sizeOf] at hfixed
    simp (disch := omega) only [ClientCommand.convert, DSCO.convert, decode, hl, hsize,
      load8_eq, number]
  | HELO =>
    rw [hl, CommandLabel.sizeOf] at hfixed
    simp (disch := omega) only [ClientCommand.convert, HELO.convert, decode, hl, hsize,
      load8_eq, ntohl_load, ntohs_load, number]
  | RESP => simp only [ClientCommand.convert, RESP.convert, decode, hl, hsize]
  | SETD =>
    rw [hl, CommandLabel.sizeOf] at hfixed
    simp (disch := omega) only [ClientCommand.convert, SETD.convert, decode, hl, hsize,
      load8_eq, number]
  | STAT =>
    rw [hl, CommandLabel.sizeOf] at hfixed
    simp (disch := omega) only [ClientCommand.convert, STAT.convert, decode, hl, hsize,
      load8_eq, ntohl_load, ntohs_load, number]
    -- `serverTimestamp` is loaded as it is
    rfl

end ClientMessage

/-- The command takes as many octets as it announces. -/
theorem InboundCommand.getSize_convert (label : CommandLabel) {octets : List UInt8} (h : 8 ≤ octets.length) :
    InboundCommand.getSize (ClientCommand.convert octets label) = 8 + announced octets := by
  have hload : ntohl (load octets 4 4) = announced octets := ClientMessage.ntohl_load h
  rw [InboundCommand.getSize, Nat.add_comm 8]
  cases label <;> exact congrArg (· + 4 + 4) hload

end SlimStreamer
