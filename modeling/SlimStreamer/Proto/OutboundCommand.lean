import SlimStreamer.Util.Timestamp
import Mathlib.Data.UInt

/-!
# SlimProto commands sent to a player

The commands of `proto/server`, by the parameters they are built from.
-/

namespace SlimStreamer

inductive FormatSelection where
  | PCM | FLAC
  deriving DecidableEq, Repr

inductive DeviceID where
  | RequestName | Squeezebox3
  deriving DecidableEq, Repr

inductive ServerCommand where
  | SETD (deviceID : DeviceID)
  | AUDE (spdif dac : Bool)
  | AUDG (gain : Option ℕ)
  /-- `STRM` with `CommandSelection::Start`. -/
  | start (format : FormatSelection) (port samplingRate : ℕ) (clientID : List UInt8)
  /-- `STRM` with `CommandSelection::Stop`. -/
  | stop
  /-- `STRM` with `CommandSelection::Time`; the value the player echoes. -/
  | time (replayGain : ℕ)
  /-- `STRM` with `CommandSelection::Unpause`; the start time on the player's clock, in
  milliseconds. -/
  | unpause (replayGain : ℕ)
  deriving DecidableEq, Repr

/-- `CommandSTRM{CommandSelection::Unpause, startAt}`. -/
def ServerCommand.unpauseAt (startAt : Timestamp) : ServerCommand :=
  .unpause (toUInt32 startAt.milliseconds)

end SlimStreamer
