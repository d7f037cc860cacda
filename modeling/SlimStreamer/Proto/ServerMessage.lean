import SlimStreamer.Proto.InboundCommand
import SlimStreamer.Proto.OutboundCommand
import Mathlib.Data.List.TakeWhile
import Mathlib.Order.Monotone.Defs

/-!
# The octets of the commands sent to a player

The packed structures of `proto/server`, as the constructors of the commands fill them on a
little-endian host, and the part of them that `send` writes.  A structure is the list of its
fields in order; a field that the player reads in network byte order is stored swapped.

* `ServerCommand.sent` — what is written for a command;
* `ServerMessage.decode` — what a player reads, by the offsets of the protocol;
* `roundTrips_iff` — which commands are read as they were meant: a gain of 100 % is not.
-/

namespace SlimStreamer

open Octets

/-- `htons` on a little-endian host; the argument is cut to 16 bits. -/
def htons (n : ℕ) : ℕ := byteSwap 2 n

def htonl (n : ℕ) : ℕ := byteSwap 4 n

inductive CommandSelection where
  | Start | Stop | Time | Pause | Unpause
  deriving DecidableEq, Repr

/-- The value of the enumerator. -/
def CommandSelection.key : CommandSelection → UInt8
  | Start => UInt8.ofNat 's'.toNat
  | Stop => UInt8.ofNat 'q'.toNat
  | Time => UInt8.ofNat 't'.toNat
  | Pause => UInt8.ofNat 'p'.toNat
  | Unpause => UInt8.ofNat 'u'.toNat

/-- `strlen` of a string in a buffer. -/
def strlen (s : List UInt8) : ℕ := (s.takeWhile fun b => b != 0).length

/-- `strcpy`: the text up to its first zero, and a zero; the rest of the buffer stays. -/
def strcpy (buffer s : List UInt8) : List UInt8 :=
  let text := s.takeWhile fun b => b != 0
  text ++ 0 :: buffer.drop (text.length + 1)

namespace Server

/-! ### `STRM` -/

structure STRMData where
  opcode : List UInt8
  command : UInt8
  autostart : UInt8
  format : UInt8
  sampleSize : UInt8
  samplingRate : UInt8
  channels : UInt8
  endianness : UInt8
  threshold : UInt8
  spdifEnable : UInt8
  transitionPeriod : UInt8
  transitionType : UInt8
  flags : UInt8
  outputThreshold : UInt8
  slaves : UInt8
  replayGain : ℕ
  serverPort : ℕ
  serverIP : ℕ
  httpHeader : List UInt8

structure STRM where
  size : ℕ
  data : STRMData

def STRMData.octets (d : STRMData) : List UInt8 :=
  d.opcode ++ [d.command, d.autostart, d.format, d.sampleSize, d.samplingRate, d.channels,
    d.endianness, d.threshold, d.spdifEnable, d.transitionPeriod, d.transitionType, d.flags,
    d.outputThreshold, d.slaves] ++ toLittleEndian 4 d.replayGain ++
    toLittleEndian 2 d.serverPort ++ toLittleEndian 4 d.serverIP ++ d.httpHeader

def STRM.octets (s : STRM) : List UInt8 := toLittleEndian 2 s.size ++ s.data.octets

namespace CommandSTRM

/-- The rates `mapSamplingRate` lists, with their characters. -/
def samplingRates : List (ℕ × Char) :=
  [(8000, '5'), (11025, '0'), (12000, '6'), (16000, '7'), (22500, '1'), (24000, '8'),
    (32000, '2'), (44100, '3'), (48000, '4'), (96000, '9')]

def mapSamplingRate (samplingRate : ℕ) : UInt8 :=
  UInt8.ofNat ((samplingRates.lookup samplingRate).getD '?').toNat

/-- A structure after `memset`. -/
def zeroed : STRMData where
  opcode := List.replicate 4 0
  command := 0
  autostart := 0
  format := 0
  sampleSize := 0
  samplingRate := 0
  channels := 0
  endianness := 0
  threshold := 0
  spdifEnable := 0
  transitionPeriod := 0
  transitionType := 0
  flags := 0
  outputThreshold := 0
  slaves := 0
  replayGain := 0
  serverPort := 0
  serverIP := 0
  httpHeader := List.replicate 64 0

/-- `sizeof(strm.data)`, less the part of the header that is not sent. -/
def getDataSize (d : STRMData) : ℕ :=
  if d.command = CommandSelection.Start.key then 92 - (64 - strlen d.httpHeader) else 92 - 64

/-- The request a player has to send to get its stream, but for the identifier. -/
def request : List UInt8 :=
  SlimStreamer.octets ['G', 'E', 'T', ' ', '/', 's', 't', 'r', 'e', 'a', 'm', '?', 'p', 'l', 'a',
    'y', 'e', 'r', '=']

def create (commandSelection : CommandSelection) (formatSelection : FormatSelection)
    (port samplingRate : ℕ) (clientID : List UInt8) : STRM :=
  let data := { zeroed with
    opcode := SlimStreamer.octets ['s', 't', 'r', 'm']
    command := commandSelection.key
    autostart := UInt8.ofNat '0'.toNat
    threshold := 200 }
  let data := match formatSelection with
    | .PCM => { data with
        format := UInt8.ofNat 'p'.toNat
        sampleSize := UInt8.ofNat '3'.toNat
        samplingRate := mapSamplingRate samplingRate
        channels := UInt8.ofNat '2'.toNat
        endianness := UInt8.ofNat '1'.toNat }
    | .FLAC => { data with
        format := UInt8.ofNat 'f'.toNat
        -- self-describing
        sampleSize := UInt8.ofNat '?'.toNat
        samplingRate := UInt8.ofNat '?'.toNat
        channels := UInt8.ofNat '?'.toNat
        endianness := UInt8.ofNat '?'.toNat }
  let data := if data.command = CommandSelection.Start.key then { data with
      serverPort := htons port
      httpHeader := strcpy data.httpHeader (request ++ clientID) }
    else data
  ⟨htons (getDataSize data), data⟩

/-- The constructor for the commands without further parameters. -/
def createPlain (commandSelection : CommandSelection) : STRM := create commandSelection .FLAC 0 0 []

/-- Setting `replayGain` of a command, as it is stored. -/
def setReplayGain (replayGain : ℕ) (s : STRM) : STRM :=
  { s with data := { s.data with replayGain := replayGain } }

def getSize (s : STRM) : ℕ := 2 + getDataSize s.data

end CommandSTRM

/-! ### `AUDG`, `AUDE`, `SETD` -/

structure AUDG where
  size : ℕ
  opcode : List UInt8
  oldGainLeft : ℕ
  oldGainRight : ℕ
  adjust : UInt8
  preamp : UInt8
  gainLeft1 : ℕ
  gainLeft2 : ℕ
  gainRight1 : ℕ
  gainRight2 : ℕ
  sequenceID : ℕ

def AUDG.octets (a : AUDG) : List UInt8 :=
  toLittleEndian 2 a.size ++ a.opcode ++ toLittleEndian 4 a.oldGainLeft ++
    toLittleEndian 4 a.oldGainRight ++ [a.adjust, a.preamp] ++ toLittleEndian 2 a.gainLeft1 ++
    toLittleEndian 2 a.gainLeft2 ++ toLittleEndian 2 a.gainRight1 ++
    toLittleEndian 2 a.gainRight2 ++ toLittleEndian 2 a.sequenceID

/-- The linear scale of the gain, in 32-bit arithmetic. -/
def gainValue (g : ℕ) : ℕ := 65536 * g % 4294967296 / 100

/-- `CommandAUDG`: a gain beyond 100 counts as 100. -/
def CommandAUDG (gain : Option ℕ) : AUDG :=
  let audg : AUDG :=
    { size := 0, opcode := SlimStreamer.octets ['a', 'u', 'd', 'g'], oldGainLeft := 0,
      oldGainRight := 0, adjust := 0, preamp := 0, gainLeft1 := 0, gainLeft2 := 0, gainRight1 := 0,
      gainRight2 := 0, sequenceID := 0 }
  let audg := match gain with
    | none => audg
    | some gain =>
      let g := if 100 < gain then 100 else gain
      { audg with
        adjust := 1
        preamp := 255
        gainLeft2 := htons (gainValue g)
        gainRight2 := htons (gainValue g) }
  { audg with size := htons 24 }

structure AUDE where
  size : ℕ
  opcode : List UInt8
  enableSPDIF : UInt8
  enableDAC : UInt8

def AUDE.octets (a : AUDE) : List UInt8 :=
  toLittleEndian 2 a.size ++ a.opcode ++ [a.enableSPDIF, a.enableDAC]

def CommandAUDE (spdif dac : Bool) : AUDE where
  size := htons 6
  opcode := SlimStreamer.octets ['a', 'u', 'd', 'e']
  enableSPDIF := if spdif then 1 else 0
  enableDAC := if dac then 1 else 0

structure SETD where
  size : ℕ
  opcode : List UInt8
  id : UInt8

def SETD.octets (s : SETD) : List UInt8 := toLittleEndian 2 s.size ++ s.opcode ++ [s.id]

/-- The value of the enumerator. -/
def deviceKey : DeviceID → UInt8
  | .RequestName => 0
  | .Squeezebox3 => 4

def CommandSETD (deviceID : DeviceID) : SETD where
  size := htons 5
  opcode := SlimStreamer.octets ['s', 'e', 't', 'd']
  id := deviceKey deviceID

/-! ### What is written -/

/-- `write(command.getBuffer(), command.getSize())`. -/
def STRM.sent (s : STRM) : List UInt8 := s.octets.take (CommandSTRM.getSize s)

def AUDG.sent (a : AUDG) : List UInt8 := a.octets.take 26

def AUDE.sent (a : AUDE) : List UInt8 := a.octets.take 8

def SETD.sent (s : SETD) : List UInt8 := s.octets.take 7

end Server

open Server in
/-- The octets `send` writes for a command. -/
def ServerCommand.sent : ServerCommand → List UInt8
  | .SETD deviceID => (CommandSETD deviceID).sent
  | .AUDE spdif dac => (CommandAUDE spdif dac).sent
  | .AUDG gain => (CommandAUDG gain).sent
  | .start format port samplingRate clientID =>
    (CommandSTRM.create .Start format port samplingRate clientID).sent
  | .stop => (CommandSTRM.createPlain .Stop).sent
  | .time replayGain =>
    -- the index of a ping is stored in host order: the player echoes it
    (CommandSTRM.setReplayGain replayGain (CommandSTRM.createPlain .Time)).sent
  | .unpause replayGain =>
    (CommandSTRM.setReplayGain (htonl replayGain) (CommandSTRM.createPlain .Unpause)).sent

/-! ### What a player reads -/

/-- A command as the protocol lays it out. -/
inductive ServerMessage where
  | strm (command : CommandSelection) (format : FormatSelection) (samplingRate : Option ℕ)
    (replayGain serverPort : ℕ) (httpHeader : List UInt8)
  /-- The gain of the two channels as 16.16 fixed-point numbers, if the volume is controlled. -/
  | audg (gain : Option (ℕ × ℕ))
  | aude (spdif dac : Bool)
  | setd (deviceID : DeviceID)
  deriving DecidableEq

namespace ServerMessage

/-- A number in network byte order. -/
def number (w : List UInt8) (offset len : ℕ) : ℕ := bigEndian (field w offset len)

def octetAt (w : List UInt8) (offset : ℕ) : UInt8 := w.getD offset 0

def commandOf (b : UInt8) : Option CommandSelection :=
  [CommandSelection.Start, .Stop, .Time, .Pause, .Unpause].find? fun c => c.key == b

def formatOf (b : UInt8) : Option FormatSelection :=
  if b = UInt8.ofNat 'p'.toNat then some .PCM
  else if b = UInt8.ofNat 'f'.toNat then some .FLAC
  else none

def samplingRateOf (b : UInt8) : Option ℕ :=
  (Server.CommandSTRM.samplingRates.find? fun e => UInt8.ofNat e.2.toNat == b).map Prod.fst

def deviceOf (b : UInt8) : Option DeviceID :=
  [DeviceID.RequestName, .Squeezebox3].find? fun d => Server.deviceKey d == b

/-- The length comes first, in network byte order, and then that many octets. -/
def Framed (w : List UInt8) : Prop := 2 ≤ w.length ∧ number w 0 2 = w.length - 2

instance (w : List UInt8) : Decidable (Framed w) :=
  inferInstanceAs (Decidable (2 ≤ w.length ∧ number w 0 2 = w.length - 2))

def decodeSTRM (w : List UInt8) : Option ServerMessage :=
  (commandOf (octetAt w 6)).bind fun command =>
    (formatOf (octetAt w 8)).map fun format =>
      .strm command format (samplingRateOf (octetAt w 10)) (number w 20 4) (number w 24 2)
        (w.drop 30)

def decodeAUDG (w : List UInt8) : ServerMessage :=
  .audg (if octetAt w 14 = 0 then none else some (number w 16 4, number w 20 4))

def decode (w : List UInt8) : Option ServerMessage :=
  if ¬ Framed w then none
  else if field w 2 4 = octets ['s', 't', 'r', 'm'] then decodeSTRM w
  else if field w 2 4 = octets ['a', 'u', 'd', 'g'] then some (decodeAUDG w)
  else if field w 2 4 = octets ['a', 'u', 'd', 'e'] then
    some (.aude (octetAt w 6 != 0) (octetAt w 7 != 0))
  else if field w 2 4 = octets ['s', 'e', 't', 'd'] then (deviceOf (octetAt w 6)).map .setd
  else none

/-- The gain as a 16.16 fixed-point number: at most 1. -/
def volume (g : ℕ) : ℕ := 65536 * min g 100 / 100

/-- What a command means. -/
def meaning : ServerCommand → ServerMessage
  | .SETD deviceID => .setd deviceID
  | .AUDE spdif dac => .aude spdif dac
  | .AUDG gain => .audg (gain.map fun g => (volume g, volume g))
  | .start format port samplingRate clientID =>
    .strm .Start format (if format = .PCM then some samplingRate else none) 0 port
      (Server.CommandSTRM.request ++ clientID)
  | .stop => .strm .Stop .FLAC none 0 0 []
  | .time replayGain => .strm .Time .FLAC none (ntohl replayGain) 0 []
  | .unpause replayGain => .strm .Unpause .FLAC none replayGain 0 []

/-! ### Round trips -/

/-- The commands a session can build: 16-bit ports, listed rates, identifiers that fit the header,
32-bit numbers. -/
def Buildable : ServerCommand → Prop
  | .AUDG gain => ∀ g ∈ gain, g < 4294967296
  | .start _ port samplingRate clientID => port < 65536 ∧
      samplingRate ∈ Server.CommandSTRM.samplingRates.map Prod.fst ∧ clientID.length ≤ 44
  | .time replayGain | .unpause replayGain => replayGain < 4294967296
  | _ => True

/-- The player reads what was meant. -/
def RoundTrips (c : ServerCommand) : Prop := Framed c.sent ∧ decode c.sent = some (meaning c)

/-! ### `STRM` -/

section STRM

open Server CommandSTRM

/-- What is written of an `STRM` structure: its first 30 octets, and the text of its header. -/
theorem sent_strm (s : STRM) {k : ℕ} (hopcode : s.data.opcode.length = 4)
    (hsize : getDataSize s.data = 28 + k) :
    s.sent = toLittleEndian 2 s.size ++ s.data.opcode ++ [s.data.command, s.data.autostart,
      s.data.format, s.data.sampleSize, s.data.samplingRate, s.data.channels, s.data.endianness,
      s.data.threshold, s.data.spdifEnable, s.data.transitionPeriod, s.data.transitionType,
      s.data.flags, s.data.outputThreshold, s.data.slaves] ++ toLittleEndian 4 s.data.replayGain ++
      toLittleEndian 2 s.data.serverPort ++ toLittleEndian 4 s.data.serverIP ++
      s.data.httpHeader.take k := by
  have hlength (a : List UInt8) (ha : a.length = 30) (b : List UInt8) :
      (a ++ b).take (2 + (28 + k)) = a ++ b.take k := by
    rw [show 2 + (28 + k) = a.length + k by omega, List.take_length_add_append]
  rw [STRM.sent, getSize, hsize, STRM.octets, STRMData.octets]
  simp only [← List.append_assoc]
  rw [hlength _ (by simp [hopcode])]

/-- **A player reads the fields of the structure**, swapped, and the text of its header. -/
theorem decode_strm (s : STRM) {k : ℕ} (hopcode : s.data.opcode = octets ['s', 't', 'r', 'm'])
    (hdata : getDataSize s.data = 28 + k) (hsize : ntohs s.size = 28 + k)
    (hheader : k ≤ s.data.httpHeader.length) :
    Framed s.sent ∧ decode s.sent = (commandOf s.data.command).bind fun command =>
      (formatOf s.data.format).map fun format =>
        .strm command format (samplingRateOf s.data.samplingRate) (ntohl s.data.replayGain)
          (ntohs s.data.serverPort) (s.data.httpHeader.take k) := by
  rw [sent_strm s (by rw [hopcode]; rfl) hdata, hopcode]
  generalize hw : (_ : List UInt8) ++ s.data.httpHeader.take k = w
  have hframed : Framed w := by
    have hlength : w.length = 30 + k := by
      rw [← hw]
      simp [octets, hheader]
      omega
    have hnumber : number w 0 2 = ntohs s.size := by
      rw [← hw]
      rfl
    refine ⟨by omega, ?_⟩
    rw [hnumber, hsize, hlength]
    omega
  have hop : field w 2 4 = octets ['s', 't', 'r', 'm'] := by
    rw [← hw]
    rfl
  refine ⟨hframed, ?_⟩
  rw [decode, if_neg (not_not.mpr hframed), if_pos hop, decodeSTRM, ← hw]
  rfl

theorem ntohs_htons {n : ℕ} (h : n < 65536) : ntohs (htons n) = n := by
  show byteSwap 2 (byteSwap 2 n) = n
  exact byteSwap_byteSwap h

theorem ntohl_htonl {n : ℕ} (h : n < 4294967296) : ntohl (htonl n) = n := by
  show byteSwap 4 (byteSwap 4 n) = n
  exact byteSwap_byteSwap h

/-- A command without a header, whatever its `replayGain` is. -/
theorem plain_roundTrips (selection : CommandSelection) (hselection : selection ≠ .Start)
    (replayGain : ℕ) :
    Framed (setReplayGain replayGain (createPlain selection)).sent ∧
      decode (setReplayGain replayGain (createPlain selection)).sent =
        some (.strm selection .FLAC none (ntohl replayGain) 0 []) := by
  have hopcode : (createPlain selection).data.opcode = octets ['s', 't', 'r', 'm'] := by
    cases selection <;> rfl
  have hdata : getDataSize (createPlain selection).data = 28 := by
    cases selection <;> first | exact absurd rfl hselection | decide
  have hsize : ntohs (createPlain selection).size = 28 := by
    cases selection <;> first | exact absurd rfl hselection | decide
  have hcommand : commandOf (createPlain selection).data.command = some selection := by
    cases selection <;> decide
  have hformat : formatOf (createPlain selection).data.format = some .FLAC := by
    cases selection <;> decide
  have hrate : samplingRateOf (createPlain selection).data.samplingRate = none := by
    cases selection <;> decide
  have hport : ntohs (createPlain selection).data.serverPort = 0 := by
    cases selection <;> first | exact absurd rfl hselection | decide
  obtain ⟨hframed, hdecode⟩ := decode_strm (k := 0)
    (setReplayGain replayGain (createPlain selection)) hopcode hdata hsize (Nat.zero_le _)
  refine ⟨hframed, hdecode.trans ?_⟩
  simp [setReplayGain, hcommand, hformat, hrate, hport]

/-- The rates of the list are told by their characters. -/
theorem samplingRateOf_map {rate : ℕ} (h : rate ∈ samplingRates.map Prod.fst) :
    samplingRateOf (mapSamplingRate rate) = some rate := by
  revert h
  simp only [samplingRates, List.map_cons, List.map_nil, List.mem_cons, List.not_mem_nil, or_false]
  rintro (rfl | rfl | rfl | rfl | rfl | rfl | rfl | rfl | rfl | rfl) <;> rfl

/-! The header -/

theorem takeWhile_request (clientID : List UInt8) :
    (request ++ clientID).takeWhile (fun b => b != 0) =
      request ++ clientID.takeWhile fun b => b != 0 := by
  refine List.takeWhile_append_of_pos fun b hb => ?_
  have hall : request.all (fun b => b != 0) = true := by decide
  exact List.all_eq_true.mp hall b hb

/-- The text that `strcpy` leaves in the header. -/
def headerText (clientID : List UInt8) : List UInt8 :=
  request ++ clientID.takeWhile fun b => b != 0

theorem headerText_length {clientID : List UInt8} (h : clientID.length ≤ 44) :
    (headerText clientID).length ≤ 63 := by
  have hle : (clientID.takeWhile fun b => b != 0).length ≤ clientID.length :=
    (List.takeWhile_sublist _).length_le
  have hrequest : request.length = 19 := rfl
  rw [headerText, List.length_append]
  omega

/-- The header as `strcpy` fills it. -/
theorem strcpy_header (buffer clientID : List UInt8) :
    strcpy buffer (request ++ clientID) =
      headerText clientID ++ 0 :: buffer.drop ((headerText clientID).length + 1) := by
  rw [strcpy, takeWhile_request]
  rfl

theorem strlen_header (buffer clientID : List UInt8) :
    strlen (strcpy buffer (request ++ clientID)) = (headerText clientID).length := by
  have hnonzero : ∀ b ∈ headerText clientID, (b != 0) = true := by
    rw [headerText, ← takeWhile_request]
    exact List.all_eq_true.mp List.all_takeWhile
  rw [strcpy_header, strlen, List.takeWhile_append_of_pos hnonzero]
  simp

/-- **`STRM` Start**: the player reads the identifier up to its first zero. -/
theorem start_decode (format : FormatSelection) {port rate : ℕ} (hport : port < 65536)
    (hrate : rate ∈ samplingRates.map Prod.fst) {clientID : List UInt8}
    (hclient : clientID.length ≤ 44) :
    Framed (create .Start format port rate clientID).sent ∧
      decode (create .Start format port rate clientID).sent =
        some (.strm .Start format (if format = .PCM then some rate else none) 0 port
          (headerText clientID)) := by
  have hlength := headerText_length hclient
  have hheader : (create .Start format port rate clientID).data.httpHeader =
      strcpy (List.replicate 64 0) (request ++ clientID) := by
    cases format <;> rfl
  have hopcode : (create .Start format port rate clientID).data.opcode =
      octets ['s', 't', 'r', 'm'] := by
    cases format <;> rfl
  have hkey : (create .Start format port rate clientID).data.command =
      CommandSelection.Start.key := by
    cases format <;> rfl
  have hdata : getDataSize (create .Start format port rate clientID).data =
      28 + (headerText clientID).length := by
    rw [getDataSize, if_pos hkey, hheader, strlen_header]
    omega
  have hsize : ntohs (create .Start format port rate clientID).size =
      28 + (headerText clientID).length := by
    have heq : (create .Start format port rate clientID).size =
        htons (getDataSize (create .Start format port rate clientID).data) := rfl
    rw [heq, hdata, ntohs_htons (by omega)]
  have htext : (create .Start format port rate clientID).data.httpHeader.take
      (headerText clientID).length = headerText clientID := by
    rw [hheader, strcpy_header, List.take_left]
  have hle : (headerText clientID).length ≤
      (create .Start format port rate clientID).data.httpHeader.length := by
    rw [hheader, strcpy_header, List.length_append]
    omega
  obtain ⟨hframed, hdecode⟩ := decode_strm _ hopcode hdata hsize hle
  refine ⟨hframed, hdecode.trans ?_⟩
  have hcommand : commandOf CommandSelection.Start.key = some .Start := by decide
  have hformat : formatOf (create .Start format port rate clientID).data.format = some format := by
    cases format <;> rfl
  have hread : samplingRateOf (create .Start format port rate clientID).data.samplingRate =
      if format = .PCM then some rate else none := by
    cases format with
    | PCM => exact samplingRateOf_map hrate
    | FLAC =>
      have hself : samplingRateOf (UInt8.ofNat '?'.toNat) = none := by decide
      exact hself
  have hgain : ntohl (create .Start format port rate clientID).data.replayGain = 0 := by
    have hzero : ntohl 0 = 0 := by decide
    cases format <;> exact hzero
  have hserver : ntohs (create .Start format port rate clientID).data.serverPort = port := by
    cases format <;> exact ntohs_htons hport
  simp [hkey, hcommand, hformat, hread, hgain, hserver, htext]

end STRM

/-! ### `AUDG` -/

/-- The four octets of a gain whose upper half is zero. -/
theorem gain_octets (v : ℕ) :
    bigEndian (toLittleEndian 2 0 ++ toLittleEndian 2 (htons v)) = v % 65536 := by
  rw [htons, toLittleEndian_byteSwap]
  simp only [toBigEndian, toLittleEndian, bigEndian, littleEndian, List.reverse_cons,
    List.reverse_nil, List.nil_append, List.cons_append, UInt8.toNat_ofNat']
  omega

theorem gainValue_eq (g : ℕ) : Server.gainValue (if 100 < g then 100 else g) = volume g := by
  rw [Server.gainValue, volume]
  split <;> omega

/-- **`AUDG`**: the gain is cut to 16 bits. -/
theorem audg_decode (g : ℕ) :
    Framed (ServerCommand.AUDG (some g)).sent ∧
      decode (ServerCommand.AUDG (some g)).sent =
        some (.audg (some (volume g % 65536, volume g % 65536))) := by
  have hsent : (ServerCommand.AUDG (some g)).sent = toLittleEndian 2 (htons 24) ++
      octets ['a', 'u', 'd', 'g'] ++ toLittleEndian 4 0 ++ toLittleEndian 4 0 ++ [1, 255] ++
      (toLittleEndian 2 0 ++ toLittleEndian 2 (htons (volume g))) ++
      (toLittleEndian 2 0 ++ toLittleEndian 2 (htons (volume g))) ++ toLittleEndian 2 0 := by
    rw [← gainValue_eq]
    rfl
  rw [hsent]
  generalize hw : (_ : List UInt8) ++ toLittleEndian 2 0 = w
  have hframed : Framed w := by
    have hlength : w.length = 26 := by
      rw [← hw]
      rfl
    have hnumber : number w 0 2 = ntohs (htons 24) := by
      rw [← hw]
      rfl
    refine ⟨by omega, ?_⟩
    rw [hnumber, hlength, ntohs_htons (by omega)]
  have hop : field w 2 4 = octets ['a', 'u', 'd', 'g'] := by
    rw [← hw]
    rfl
  have hleft : number w 16 4 = volume g % 65536 := by
    rw [← gain_octets, ← hw]
    rfl
  have hright : number w 20 4 = volume g % 65536 := by
    rw [← gain_octets, ← hw]
    rfl
  have hadjust : octetAt w 14 = 1 := by
    rw [← hw]
    rfl
  have hne : ¬ octets ['a', 'u', 'd', 'g'] = octets ['s', 't', 'r', 'm'] := by decide
  refine ⟨hframed, ?_⟩
  rw [decode, if_neg (not_not.mpr hframed), hop, if_neg hne, if_pos rfl, decodeAUDG, hadjust, hleft,
    hright]
  rfl

/-! ### All commands -/

/-- What the layout can carry: a gain below 100 %, and an identifier without a zero. -/
def Carried : ServerCommand → Prop
  | .AUDG (some g) => g < 100
  | .start _ _ _ clientID => 0 ∉ clientID
  | _ => True

instance : DecidablePred Carried
  | .AUDG (some g) => inferInstanceAs (Decidable (g < 100))
  | .start _ _ _ clientID => inferInstanceAs (Decidable (0 ∉ clientID))
  | .AUDG none | .SETD _ | .AUDE _ _ | .stop | .time _ | .unpause _ => isTrue trivial

theorem volume_mod_eq_iff (g : ℕ) : volume g % 65536 = volume g ↔ g < 100 := by
  rw [volume]
  constructor <;> intro h <;> omega

theorem headerText_eq_iff (clientID : List UInt8) :
    headerText clientID = Server.CommandSTRM.request ++ clientID ↔ 0 ∉ clientID := by
  rw [headerText, List.append_cancel_left_eq, List.takeWhile_eq_self_iff]
  constructor
  · intro h hzero
    simpa using h 0 hzero
  · intro h b hb
    rw [bne_iff_ne]
    rintro rfl
    exact h hb

/-- **What a player reads of a command** is what was meant when the layout carries it. -/
theorem roundTrips_iff (c : ServerCommand) (h : Buildable c) : RoundTrips c ↔ Carried c := by
  cases c with
  | SETD deviceID =>
    refine iff_of_true ?_ trivial
    cases deviceID <;> constructor <;> decide
  | AUDE spdif dac =>
    refine iff_of_true ?_ trivial
    cases spdif <;> cases dac <;> constructor <;> decide
  | AUDG gain =>
    cases gain with
    | none =>
      refine iff_of_true ?_ trivial
      constructor <;> decide
    | some g =>
      obtain ⟨hframed, hdecode⟩ := audg_decode g
      rw [RoundTrips, hdecode]
      simp only [hframed, true_and, meaning, Option.map_some, Option.some.injEq, audg.injEq,
        Prod.mk.injEq, and_self]
      exact volume_mod_eq_iff g
  | start format port samplingRate clientID =>
    obtain ⟨hport, hrate, hclient⟩ := h
    obtain ⟨hframed, hdecode⟩ := start_decode format hport hrate hclient
    rw [RoundTrips, ServerCommand.sent, hdecode]
    simp only [hframed, true_and, meaning, Option.some.injEq, strm.injEq]
    exact headerText_eq_iff clientID
  | stop =>
    refine iff_of_true ?_ trivial
    constructor <;> decide
  | time replayGain => exact iff_of_true (plain_roundTrips .Time (by decide) replayGain) trivial
  | unpause replayGain =>
    refine iff_of_true ?_ trivial
    have hplain := plain_roundTrips .Unpause (by decide) (htonl replayGain)
    rw [ntohl_htonl h] at hplain
    exact hplain

theorem volume_monotone : Monotone volume := by
  intro g g' h
  have hmin : min g 100 ≤ min g' 100 := min_le_min_right 100 h
  exact Nat.div_le_div_right (Nat.mul_le_mul_left 65536 hmin)

theorem unpauseAt_buildable (startAt : Timestamp) : Buildable (.unpauseAt startAt) := by
  show toUInt32 startAt.milliseconds < 4294967296
  rw [toUInt32]
  omega

/-- **Outbound commands round trip**: a command is read as it was meant exactly when the layout
carries it, the start time of an Unpause is read modulo `2 ^ 32`, and gains are meant to be
monotone. -/
theorem sent_readBack (c : ServerCommand) (hc : Buildable c) (startAt : Timestamp) :
    (RoundTrips c ↔ Carried c) ∧
      (Framed (ServerCommand.unpauseAt startAt).sent ∧
        decode (ServerCommand.unpauseAt startAt).sent =
          some (.strm .Unpause .FLAC none (startAt.milliseconds % 4294967296).toNat 0 [])) ∧
      Monotone volume :=
  ⟨roundTrips_iff c hc, (roundTrips_iff _ (unpauseAt_buildable startAt)).mpr trivial,
    volume_monotone⟩

/-- The identifier of the first session, PCM at 44100 Hz, and half the volume. -/
theorem sent_readBack_first :
    RoundTrips (.start .PCM 9000 44100 (octets ['1'])) ∧ RoundTrips (.AUDG (some 50)) := by
  have hstart : Buildable (.start .PCM 9000 44100 (octets ['1'])) :=
    ⟨by decide, by decide, by decide⟩
  have hgain : Buildable (.AUDG (some 50)) := by
    intro g hg
    cases hg
    decide
  exact ⟨(sent_readBack _ hstart ⟨0⟩).1.mpr (by decide),
    (sent_readBack _ hgain ⟨0⟩).1.mpr (by decide)⟩

/-- At full volume the player reads a gain of zero: 65536 is cut to 16 bits. -/
theorem full_volume_muted :
    Buildable (.AUDG (some 100)) ∧ ¬ RoundTrips (.AUDG (some 100)) ∧
      meaning (.AUDG (some 100)) = .audg (some (65536, 65536)) ∧
      decode (ServerCommand.AUDG (some 100)).sent = some (.audg (some (0, 0))) := by
  have hdecode : decode (ServerCommand.AUDG (some 100)).sent = some (.audg (some (0, 0))) :=
    (audg_decode 100).2
  refine ⟨?_, ?_, rfl, hdecode⟩
  · intro g hg
    cases hg
    decide
  · rintro ⟨-, hround⟩
    rw [hdecode] at hround
    exact absurd hround (by decide)

end ServerMessage

end SlimStreamer
