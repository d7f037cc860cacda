import SlimStreamer.Lib.Octets
import SlimStreamer.Util.Ring

/-!
# SlimProto messages sent by a player

The packed structures of `proto/client`, and `InboundCommand`, which copies a message out of
the command ring, checks it and converts the multi-byte fields to host order.

A structure is described by its size, its label and the reading of its fields from the
copied octets; `InboundCommand.construct` is then one definition for the five
commands.  The fields are loaded in the (little-endian) host order and swapped by `ntohs` and
`ntohl`, except `serverTimestamp`, which the server gets back as it sent it.

* `isEnoughData_iff` — the length test on the contents of the ring;
* `construct_eq` — the constructor, once these are complete;
* `construct_ok` — a complete message, long enough for its structure, is decoded from its own
  octets and reports its own length.
-/

namespace SlimStreamer

open Octets

def ntohs (n : ℕ) : ℕ := byteSwap 2 n

def ntohl (n : ℕ) : ℕ := byteSwap 4 n

/-- `len` octets of a structure, from the given offset. -/
def field (buffer : List UInt8) (offset len : ℕ) : List UInt8 := (buffer.drop offset).take len

/-- A field loaded in host order. -/
def load (buffer : List UInt8) (offset len : ℕ) : ℕ := littleEndian (field buffer offset len)

/-- An 8-bit field. -/
def load8 (buffer : List UInt8) (offset : ℕ) : ℕ := load buffer offset 1

def octets (cs : List Char) : List UInt8 := cs.map fun c => UInt8.ofNat c.toNat

/-! ### The labels -/

/-- The labels `commandHandlers` has an entry for. -/
inductive CommandLabel where
  | DSCO | HELO | RESP | SETD | STAT
  deriving DecidableEq, Repr

namespace CommandLabel

/-- The `LABEL` constant of the command's structure. -/
def LABEL : CommandLabel → List UInt8
  | DSCO => octets ['D', 'S', 'C', 'O']
  | HELO => octets ['H', 'E', 'L', 'O']
  | RESP => octets ['R', 'E', 'S', 'P']
  | SETD => octets ['S', 'E', 'T', 'D']
  | STAT => octets ['S', 'T', 'A', 'T']

/-- The search for a command handler. -/
def find (label : List UInt8) : Option CommandLabel :=
  [DSCO, HELO, RESP, SETD, STAT].find? fun l => l.LABEL == label

theorem find_LABEL (l : CommandLabel) : find l.LABEL = some l := by
  cases l <;> rfl

theorem LABEL_length (l : CommandLabel) : l.LABEL.length = 4 := by
  cases l <;> rfl

/-- The size of the packed structure. -/
def sizeOf : CommandLabel → ℕ
  | DSCO => 9
  | HELO => 44
  | RESP => 8
  | SETD => 9
  | STAT => 61

theorem eight_le_sizeOf (l : CommandLabel) : 8 ≤ l.sizeOf := by
  cases l <;> decide

end CommandLabel

/-! ### The packed structures -/

structure DSCO where
  size : ℕ
  reason : ℕ
  deriving DecidableEq, Repr

structure HELO where
  size : ℕ
  deviceID : ℕ
  revision : ℕ
  mac : List UInt8
  uuid : List UInt8
  wlanChannelList : ℕ
  bytesReceivedHigh : ℕ
  bytesReceivedLow : ℕ
  language : List UInt8
  deriving DecidableEq, Repr

structure RESP where
  size : ℕ
  deriving DecidableEq, Repr

structure SETD where
  size : ℕ
  id : ℕ
  deriving DecidableEq, Repr

structure STAT where
  size : ℕ
  event : List UInt8
  numberCRLF : ℕ
  initializedMAS : ℕ
  modeMAS : ℕ
  streamBufferSize : ℕ
  streamBufferFullness : ℕ
  bytesReceived1 : ℕ
  bytesReceived2 : ℕ
  signalStrength : ℕ
  jiffies : ℕ
  outputBufferSize : ℕ
  outputBufferFullness : ℕ
  elapsedSeconds : ℕ
  voltage : ℕ
  elapsedMilliseconds : ℕ
  serverTimestamp : ℕ
  errorCode : ℕ
  deriving DecidableEq, Repr

/-- A decoded message. -/
inductive ClientCommand where
  | DSCO (data : DSCO)
  | HELO (data : HELO)
  | RESP (data : RESP)
  | SETD (data : SETD)
  | STAT (data : STAT)
  deriving DecidableEq, Repr

namespace ClientCommand

/-- The `size` field of the structure. -/
def size : ClientCommand → ℕ
  | DSCO d => d.size
  | HELO d => d.size
  | RESP d => d.size
  | SETD d => d.size
  | STAT d => d.size

end ClientCommand

/-! ### `convert`, one per structure

The `size` field is converted by `InboundCommand` itself, before `convert` runs. -/

def DSCO.convert (b : List UInt8) : DSCO where
  size := ntohl (load b 4 4)
  reason := load8 b 8

def HELO.convert (b : List UInt8) : HELO where
  size := ntohl (load b 4 4)
  deviceID := load8 b 8
  revision := load8 b 9
  mac := field b 10 6
  uuid := field b 16 16
  wlanChannelList := ntohs (load b 32 2)
  bytesReceivedHigh := ntohl (load b 34 4)
  bytesReceivedLow := ntohl (load b 38 4)
  language := field b 42 2

def RESP.convert (b : List UInt8) : RESP where
  size := ntohl (load b 4 4)

def SETD.convert (b : List UInt8) : SETD where
  size := ntohl (load b 4 4)
  id := load8 b 8

def STAT.convert (b : List UInt8) : STAT where
  size := ntohl (load b 4 4)
  event := field b 8 4
  numberCRLF := load8 b 12
  initializedMAS := load8 b 13
  modeMAS := load8 b 14
  streamBufferSize := ntohl (load b 15 4)
  streamBufferFullness := ntohl (load b 19 4)
  bytesReceived1 := ntohl (load b 23 4)
  bytesReceived2 := ntohl (load b 27 4)
  signalStrength := ntohs (load b 31 2)
  jiffies := ntohl (load b 33 4)
  outputBufferSize := ntohl (load b 37 4)
  outputBufferFullness := ntohl (load b 41 4)
  elapsedSeconds := ntohl (load b 45 4)
  voltage := ntohs (load b 49 2)
  elapsedMilliseconds := ntohl (load b 51 4)
  -- the server's own value: it is echoed by the player and never converted
  serverTimestamp := load b 55 4
  errorCode := ntohs (load b 59 2)

def ClientCommand.convert (b : List UInt8) : CommandLabel → ClientCommand
  | .DSCO => .DSCO (DSCO.convert b)
  | .HELO => .HELO (HELO.convert b)
  | .RESP => .RESP (RESP.convert b)
  | .SETD => .SETD (SETD.convert b)
  | .STAT => .STAT (STAT.convert b)

/-! ### `InboundCommand` -/

/-- `slim::Exception`. -/
structure Exception where
  what : String
  deriving DecidableEq, Repr

namespace InboundCommand

/-- The four octets after the label, as a number in host order. -/
def sizeElement (ring : Ring UInt8) : ℕ :=
  littleEndian ((List.range 4).map fun i => ring.get (i + 4))

/-- Whether the ring holds the whole message its first eight octets announce. -/
def isEnoughData (ring : Ring UInt8) : Bool :=
  if 4 + 4 ≤ ring.getSize then decide (4 + 4 + ntohl (sizeElement ring) ≤ ring.getSize)
  else false

/-- The constructor for the command with the given label.  `buffer` is the part of the copy
that was written: the fixed part, then whatever of the message follows it. -/
def construct (label : CommandLabel) (ring : Ring UInt8) : Except Exception ClientCommand :=
  if label.sizeOf > ring.getSize then
    .error ⟨"Message is too small for the fixed part of the command"⟩
  else if !isEnoughData ring then
    .error ⟨"Message is too small for CommandType command"⟩
  else
    let fixed := (List.range label.sizeOf).map ring.get
    let messageSize := ntohl (load fixed 4 4) + 4 + 4
    if messageSize > ring.getCapacity then
      .error ⟨"Length provided in CommandType command is too big"⟩
    else
      let dynamic := (List.range (messageSize - label.sizeOf)).map fun i =>
        ring.get (i + label.sizeOf)
      let buffer := fixed ++ dynamic
      if field buffer 0 4 ≠ label.LABEL then
        .error ⟨"Missing 'TODO: <label>' label in the header"⟩
      else .ok (ClientCommand.convert buffer label)

/-- The number of octets the message takes in the ring. -/
def getSize (command : ClientCommand) : ℕ := command.size + 4 + 4

end InboundCommand

/-! ### Reading the ring -/

/-- Reading consecutive indices of a ring reads a stretch of its contents. -/
theorem Ring.map_get {α : Type} [Inhabited α] (r : Ring α) (n k : ℕ) (h : k + n ≤ r.size) :
    ((List.range n).map fun i => r.get (i + k)) = (r.contents.drop k).take n := by
  have hlen : r.contents.length = r.size := r.contents_length
  apply List.ext_getElem
  · simp only [List.length_map, List.length_range, List.length_take, List.length_drop, hlen]
    omega
  · intro i hi₁ _
    have hi : i < n := by simpa using hi₁
    have hidx : k + i < r.contents.length := by omega
    simp only [List.getElem_map, List.getElem_range, List.getElem_take, List.getElem_drop]
    rw [Ring.contents_getElem r hidx, Nat.add_comm]

/-- The announced length of a message with at least eight octets. -/
def announced (bytes : List UInt8) : ℕ := bigEndian (field bytes 4 4)

theorem InboundCommand.ntohl_sizeElement (ring : Ring UInt8) (h : 8 ≤ ring.size) :
    ntohl (sizeElement ring) = announced ring.contents := by
  have hlen : (field ring.contents 4 4).length = 4 := by
    simp only [field, List.length_take, List.length_drop, Ring.contents_length]
    omega
  rw [sizeElement, Ring.map_get ring 4 4 h, ntohl, announced]
  exact byteSwap_littleEndian _ hlen

/-- **The length test**: the ring holds the eight octets of the header and as many octets as
they announce. -/
theorem InboundCommand.isEnoughData_iff (ring : Ring UInt8) :
    isEnoughData ring = true ↔
      8 ≤ ring.size ∧ 8 + announced ring.contents ≤ ring.size := by
  unfold isEnoughData
  by_cases h : 8 ≤ ring.size
  · rw [if_pos (by exact h), decide_eq_true_iff, ntohl_sizeElement ring h]
    exact ⟨fun hle => ⟨h, hle⟩, fun hle => hle.2⟩
  · rw [if_neg (by exact h)]
    exact ⟨fun hf => absurd hf (by decide), fun hle => absurd hle.1 h⟩

theorem field_append {a b : List UInt8} {offset len : ℕ} (h : offset + len ≤ a.length) :
    field (a ++ b) offset len = field a offset len := by
  have hdrop : (a ++ b).drop offset = a.drop offset ++ b :=
    List.drop_append_of_le_length (by omega)
  have hle : len ≤ (a.drop offset).length := by
    rw [List.length_drop]
    omega
  rw [field, hdrop, List.take_append_of_le_length hle, field]

theorem field_take {a : List UInt8} {n offset len : ℕ} (h : offset + len ≤ n) :
    field (a.take n) offset len = field a offset len := by
  rw [field, field, List.drop_take, List.take_take, Nat.min_eq_left (by omega)]

theorem announced_append {message : List UInt8} (h : 8 ≤ message.length) (rest : List UInt8) :
    announced (message ++ rest) = announced message := by
  rw [announced, announced, field_append (show 4 + 4 ≤ message.length from h)]

/-- The size of the message that the copied structure announces. -/
theorem InboundCommand.messageSize_eq {label : CommandLabel} {ring : Ring UInt8}
    (hfixed : label.sizeOf ≤ ring.size) :
    ntohl (load ((List.range label.sizeOf).map ring.get) 4 4) + 4 + 4 =
      8 + announced ring.contents := by
  have h8 := label.eight_le_sizeOf
  have hfix : (List.range label.sizeOf).map ring.get = ring.contents.take label.sizeOf := by
    simpa using Ring.map_get ring label.sizeOf 0 (by omega)
  have hl : (field ring.contents 4 4).length = 4 := by
    simp only [field, List.length_take, List.length_drop, Ring.contents_length]
    omega
  rw [hfix, load, field_take (by omega), ntohl, byteSwap_littleEndian _ hl, announced]
  omega

/-- **The constructor on a ring that holds the announced octets**: it reads them, or as many as the
structure has if these are more. -/
theorem InboundCommand.construct_eq {label : CommandLabel} {ring : Ring UInt8}
    (hfixed : label.sizeOf ≤ ring.size) (hannounced : 8 + announced ring.contents ≤ ring.size)
    (hlabel : field ring.contents 0 4 = label.LABEL) :
    construct label ring = .ok (ClientCommand.convert
      (ring.contents.take (max label.sizeOf (8 + announced ring.contents))) label) := by
  have h8 := label.eight_le_sizeOf
  have henough : isEnoughData ring = true :=
    (isEnoughData_iff ring).mpr ⟨by omega, hannounced⟩
  have hfix : (List.range label.sizeOf).map ring.get = ring.contents.take label.sizeOf := by
    simpa using Ring.map_get ring label.sizeOf 0 (by omega)
  have hload : ntohl (load (ring.contents.take label.sizeOf) 4 4) + 4 + 4 =
      8 + announced ring.contents := by
    rw [← hfix]
    exact messageSize_eq hfixed
  have hdyn : ((List.range (8 + announced ring.contents - label.sizeOf)).map fun i =>
      ring.get (i + label.sizeOf)) =
      (ring.contents.drop label.sizeOf).take (8 + announced ring.contents - label.sizeOf) :=
    Ring.map_get ring _ _ (by omega)
  have hbuffer : ring.contents.take label.sizeOf ++
      (ring.contents.drop label.sizeOf).take (8 + announced ring.contents - label.sizeOf) =
      ring.contents.take (max label.sizeOf (8 + announced ring.contents)) := by
    rw [← List.take_add]
    congr 1
    omega
  have hcap : ¬ 8 + announced ring.contents > ring.getCapacity := by
    have hbound := ring.size_bound
    rw [Ring.getCapacity]
    omega
  have hgot : ¬ label.sizeOf > ring.getSize := not_lt.mpr hfixed
  have hread : field (ring.contents.take (max label.sizeOf (8 + announced ring.contents))) 0 4 =
      label.LABEL := by
    rw [field_take (by omega), hlabel]
  simp only [construct, hgot, henough, hfix, hload, hdyn, hcap, hbuffer, hread, if_false, ne_eq,
    not_true_eq_false, Bool.not_true, Bool.false_eq_true]

/-- **A complete message, long enough for its structure, is decoded from its own octets.** -/
theorem InboundCommand.construct_ok (label : CommandLabel) (ring : Ring UInt8)
    (message rest : List UInt8) (hring : ring.contents = message ++ rest)
    (hlabel : field message 0 4 = label.LABEL) (hfixed : label.sizeOf ≤ message.length)
    (hlen : 8 + announced message = message.length) :
    construct label ring = .ok (ClientCommand.convert message label) := by
  have h8 := label.eight_le_sizeOf
  have hsize : ring.size = message.length + rest.length := by
    rw [← Ring.contents_length, hring, List.length_append]
  have hann : announced ring.contents = announced message := by
    rw [hring, announced_append (by omega)]
  have htake : ring.contents.take (max label.sizeOf (8 + announced ring.contents)) = message := by
    rw [hann, hlen, Nat.max_eq_right hfixed, hring, List.take_left]
  rw [construct_eq (by omega) (by omega) (by rw [hring, field_append (by omega), hlabel]), htake]

end SlimStreamer
