import SlimStreamer.Proto.ClientMessage

/-!
# Where a message ends

The constructor of a command compares two sizes with all that is in the ring, and not with the
message: the size of the fixed structure, and the declared length.  The fixed structure is copied
whole, so when the message is shorter than it the octets that happen to follow decide whether the
message is read, and with what fields.

* `decodesAlone_iff` — the messages whose decoding depends on their own octets alone;
* `not_decodesAlone_shortDSCO` — one that does not.
-/

namespace SlimStreamer

open Octets

namespace CommandLabel

/-- A label that is found is the label of the command. -/
theorem LABEL_of_find {octets : List UInt8} {label : CommandLabel}
    (h : CommandLabel.find octets = some label) : octets = label.LABEL := by
  have hlabel := List.find?_some h
  exact (beq_iff_eq.mp hlabel).symm

end CommandLabel

namespace InboundCommand

/-- A command with fewer octets in the ring than its structure has. -/
theorem construct_tooSmall {label : CommandLabel} {ring : Ring UInt8}
    (h : ring.size < label.sizeOf) :
    construct label ring = .error ⟨"Message is too small for the fixed part of the command"⟩ := by
  rw [construct, if_pos]
  exact h

/-! ### Messages and what follows them -/

/-- Two outcomes of the constructor are the same: both throw, or both read the same command, which
takes the given number of octets. -/
def SameOutcome (consumed : ℕ) : Except Exception ClientCommand → Except Exception ClientCommand →
    Prop
  | .error _, .error _ => True
  | .ok command, .ok command' => command = command' ∧ getSize command = consumed
  | _, _ => False

/-- Whatever follows the message in a ring of the size of the command ring, the outcome is the
same. -/
def DecodesAlone (label : CommandLabel) (message : List UInt8) : Prop :=
  ∀ (ring ring' : Ring UInt8) (rest rest' : List UInt8), ring.getCapacity = 2048 →
    ring'.getCapacity = 2048 → ring.contents = message ++ rest → ring'.contents = message ++ rest' →
    SameOutcome message.length (construct label ring) (construct label ring')

/-- A ring of the size of the command ring that holds the given octets. -/
def ringOf (octets : List UInt8) : Ring UInt8 := (Ring.ofStorage (List.replicate 2048 0)).pushAll octets

theorem ringOf_capacity (octets : List UInt8) : (ringOf octets).getCapacity = 2048 := by
  rw [ringOf, Ring.getCapacity, Ring.storage_length_pushAll]
  exact List.length_replicate

theorem ringOf_contents {octets : List UInt8} (h : octets.length ≤ 2048) :
    (ringOf octets).contents = octets := by
  rw [ringOf, Ring.contents_pushAll, Ring.contents_ofStorage, List.nil_append]
  show 0 + octets.length ≤ (List.replicate 2048 (0 : UInt8)).length
  rw [List.length_replicate]
  omega

theorem ringOf_size {octets : List UInt8} (h : octets.length ≤ 2048) :
    (ringOf octets).size = octets.length := by
  rw [← Ring.contents_length, ringOf_contents h]

variable {label : CommandLabel} {message : List UInt8}

theorem decodesAlone_of_long (hlabel : field message 0 4 = label.LABEL)
    (hlength : 8 + announced message = message.length) (hfixed : label.sizeOf ≤ message.length) :
    DecodesAlone label message := by
  have h8 := label.eight_le_sizeOf
  have hsize : getSize (ClientCommand.convert message label) = message.length := by
    rw [getSize_convert label (by omega), hlength]
  intro ring ring' rest rest' _ _ hring hring'
  rw [construct_ok label ring message rest hring hlabel hfixed hlength,
    construct_ok label ring' message rest' hring' hlabel hfixed hlength]
  exact ⟨rfl, hsize⟩

/-- On its own a shorter message is refused; with enough octets behind it it is read. -/
theorem not_decodesAlone_of_short (hlabel : field message 0 4 = label.LABEL)
    (hlength : 8 + announced message = message.length) (hshort : message.length < label.sizeOf) :
    ¬ DecodesAlone label message := by
  have hsizeOf : label.sizeOf ≤ 61 := by cases label <;> decide
  have hfilled : (message ++ List.replicate 61 (0 : UInt8)).length = message.length + 61 := by
    simp
  have hfits : (message ++ List.replicate 61 (0 : UInt8)).length ≤ 2048 := by omega
  intro h
  have houtcome := h (ringOf message) (ringOf (message ++ List.replicate 61 0)) []
    (List.replicate 61 0) (ringOf_capacity _) (ringOf_capacity _)
    (by rw [ringOf_contents (by omega), List.append_nil]) (ringOf_contents (by omega))
  have hcontents := ringOf_contents hfits
  have hsize := ringOf_size hfits
  rw [construct_tooSmall (by rw [ringOf_size (by omega)]; exact hshort),
    construct_eq (by omega) (by rw [hcontents, announced_append (by omega)]; omega)
      (by rw [hcontents, field_append (by omega), hlabel])] at houtcome
  exact houtcome

/-- **A message is decoded from its own octets** if and only if it has as many as the structure of
its command. -/
theorem decodesAlone_iff (label : CommandLabel) (message : List UInt8)
    (hlabel : field message 0 4 = label.LABEL)
    (hlength : 8 + announced message = message.length) :
    DecodesAlone label message ↔ label.sizeOf ≤ message.length := by
  constructor
  · intro h
    by_contra hshort
    exact not_decodesAlone_of_short hlabel hlength (not_le.mp hshort) h
  · exact decodesAlone_of_long hlabel hlength

/-- A `DSCO` that announces one octet. -/
def wholeDSCO : List UInt8 := CommandLabel.DSCO.LABEL ++ [0, 0, 0, 1, 4]

theorem decodesAlone_iff_wholeDSCO :
    DecodesAlone .DSCO wholeDSCO ↔ CommandLabel.DSCO.sizeOf ≤ wholeDSCO.length :=
  decodesAlone_iff .DSCO wholeDSCO (by decide) (by decide)

/-- A `DSCO` that announces no octets: the reason is read from what follows. -/
def shortDSCO : List UInt8 := CommandLabel.DSCO.LABEL ++ [0, 0, 0, 0]

/-- **The reason of a `DSCO` is the first octet of the next message**, or the `DSCO` is refused. -/
theorem not_decodesAlone_shortDSCO : field shortDSCO 0 4 = CommandLabel.DSCO.LABEL ∧
    8 + announced shortDSCO = shortDSCO.length ∧ ¬ DecodesAlone .DSCO shortDSCO :=
  ⟨by decide, by decide, not_decodesAlone_of_short (by decide) (by decide) (by decide)⟩

end InboundCommand

end SlimStreamer
