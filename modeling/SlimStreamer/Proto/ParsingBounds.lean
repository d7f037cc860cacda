import SlimStreamer.Lib.DoWhile
import SlimStreamer.Proto.RequestOctets

/-!
# Parsing stays inside its buffers and ends

The indices of the command ring that a turn of the loop reads, and those of the command's own buffer
that it writes; and the loop as the source has it, without a number of turns.

* `construct_congr` — a command depends on the octets at the indices listed, and no others;
* `turnReads_lt`, `turnWrites_lt` — the indices are inside the ring and the buffer;
* `turn_processed` — a message takes as many octets as it announces;
* `onRequest_bounds_safe` — all turns of a call, and what a call leaves behind.
-/

namespace SlimStreamer

open DoWhile

namespace InboundCommand

/-! ### The indices -/

/-- What `isEnoughData` reads. -/
def enoughReads (ring : Ring UInt8) : List ℕ :=
  if 4 + 4 ≤ ring.getSize then (List.range 4).map fun i => i + 4 else []

/-- The octets that are copied: the fixed part, and what follows it of the message. -/
def copied (label : CommandLabel) (ring : Ring UInt8) : List ℕ :=
  if label.sizeOf > ring.getSize then []
  else if !isEnoughData ring then []
  else
    let messageSize := ntohl (load ((List.range label.sizeOf).map ring.get) 4 4) + 4 + 4
    List.range label.sizeOf ++
      if messageSize > ring.getCapacity then []
      else (List.range (messageSize - label.sizeOf)).map fun i => i + label.sizeOf

/-- What the constructor reads of the ring. -/
def constructReads (label : CommandLabel) (ring : Ring UInt8) : List ℕ :=
  if label.sizeOf > ring.getSize then [] else enoughReads ring ++ copied label ring

theorem isEnoughData_congr {ring ring' : Ring UInt8} (hsize : ring'.getSize = ring.getSize)
    (hreads : ∀ i ∈ enoughReads ring, ring'.get i = ring.get i) :
    isEnoughData ring' = isEnoughData ring := by
  unfold isEnoughData
  rw [hsize]
  split
  · rename_i h8
    have hsizeElement : sizeElement ring' = sizeElement ring := by
      refine congrArg Octets.littleEndian (List.map_congr_left fun i hi => hreads _ ?_)
      rw [enoughReads, if_pos h8]
      exact List.mem_map_of_mem hi
    rw [hsizeElement]
  · rfl

/-- **What the constructor depends on.** -/
theorem construct_congr {label : CommandLabel} {ring ring' : Ring UInt8}
    (hsize : ring'.getSize = ring.getSize) (hcapacity : ring'.getCapacity = ring.getCapacity)
    (hreads : ∀ i ∈ constructReads label ring, ring'.get i = ring.get i) :
    construct label ring' = construct label ring := by
  unfold construct
  rw [hsize, hcapacity]
  split
  · rfl
  · rename_i hfixed
    rw [constructReads, if_neg hfixed] at hreads
    have henough : isEnoughData ring' = isEnoughData ring :=
      isEnoughData_congr hsize fun i hi => hreads i (List.mem_append_left _ hi)
    rw [henough]
    split
    · rfl
    · rename_i hcomplete
      have hcopied : ∀ i ∈ copied label ring, ring'.get i = ring.get i :=
        fun i hi => hreads i (List.mem_append_right _ hi)
      simp only [copied, if_neg hfixed, if_neg hcomplete, List.mem_append] at hcopied
      have hstructure : (List.range label.sizeOf).map ring'.get =
          (List.range label.sizeOf).map ring.get :=
        List.map_congr_left fun i hi => hcopied i (Or.inl hi)
      simp only [hstructure]
      split
      · rfl
      · rename_i hfits
        rw [if_neg hfits] at hcopied
        have hdynamic : ((List.range (ntohl (load ((List.range label.sizeOf).map ring.get) 4 4) +
              4 + 4 - label.sizeOf)).map fun i => ring'.get (i + label.sizeOf)) =
            (List.range (ntohl (load ((List.range label.sizeOf).map ring.get) 4 4) + 4 + 4 -
              label.sizeOf)).map fun i => ring.get (i + label.sizeOf) :=
          List.map_congr_left fun i hi => hcopied _ (Or.inr (List.mem_map_of_mem hi))
        rw [hdynamic]

/-! ### Their bounds -/

theorem enoughReads_lt (ring : Ring UInt8) : ∀ i ∈ enoughReads ring, i < ring.getSize := by
  intro i hi
  rw [enoughReads] at hi
  split at hi
  · obtain ⟨j, hj, rfl⟩ := List.mem_map.mp hi
    rw [List.mem_range] at hj
    omega
  · cases hi

/-- **The length of a message** that is complete is no larger than the ring. -/
theorem messageSize_le {label : CommandLabel} {ring : Ring UInt8}
    (hfixed : ¬ label.sizeOf > ring.getSize) (hcomplete : ¬ (!isEnoughData ring) = true) :
    ntohl (load ((List.range label.sizeOf).map ring.get) 4 4) + 4 + 4 ≤ ring.getSize := by
  have henough : isEnoughData ring = true := by simpa using hcomplete
  rw [messageSize_eq (not_lt.mp hfixed)]
  exact ((isEnoughData_iff ring).mp henough).2

theorem getSize_le_getCapacity (ring : Ring UInt8) : ring.getSize ≤ ring.getCapacity :=
  ring.size_bound

theorem copied_lt (label : CommandLabel) (ring : Ring UInt8) :
    ∀ i ∈ copied label ring, i < ring.getSize := by
  intro i hi
  rw [copied] at hi
  split at hi
  · cases hi
  · rename_i hfixed
    split at hi
    · cases hi
    · rename_i hcomplete
      have hmessage := messageSize_le hfixed hcomplete
      rcases List.mem_append.mp hi with hstructure | hdynamic
      · rw [List.mem_range] at hstructure
        omega
      · split at hdynamic
        · cases hdynamic
        · obtain ⟨j, hj, rfl⟩ := List.mem_map.mp hdynamic
          rw [List.mem_range] at hj
          omega

theorem constructReads_lt (label : CommandLabel) (ring : Ring UInt8) :
    ∀ i ∈ constructReads label ring, i < ring.getSize := by
  intro i hi
  rw [constructReads] at hi
  split at hi
  · cases hi
  · rcases List.mem_append.mp hi with henough | hcopied
    · exact enoughReads_lt ring i henough
    · exact copied_lt label ring i hcopied

/-- **The length is never too big** for the buffer, which is as large as the ring. -/
theorem construct_ne_tooBig (label : CommandLabel) (ring : Ring UInt8) :
    construct label ring ≠ .error ⟨"Length provided in CommandType command is too big"⟩ := by
  have hcapacity := getSize_le_getCapacity ring
  intro h
  unfold construct at h
  split at h
  · simp at h
  · rename_i hfixed
    split at h
    · simp at h
    · rename_i hcomplete
      have hmessage := messageSize_le hfixed hcomplete
      rw [if_neg (by omega)] at h
      dsimp only at h
      split at h
      · simp at h
      · cases h

end InboundCommand

namespace CommandSession

open InboundCommand

/-! ### A turn -/

/-- What a turn reads of the ring: the label, and the message if the label has a handler. -/
def turnReads (ring : Ring UInt8) : List ℕ :=
  if 4 ≤ ring.getSize then
    List.range 4 ++
      match CommandLabel.find ((List.range 4).map ring.get) with
      | none => []
      | some label =>
        enoughReads ring ++ if isEnoughData ring then constructReads label ring else []
  else []

/-- The indices of the command's buffer that a turn writes to. -/
def turnWrites (ring : Ring UInt8) : List ℕ :=
  if 4 ≤ ring.getSize then
    match CommandLabel.find ((List.range 4).map ring.get) with
    | none => []
    | some label => if isEnoughData ring then copied label ring else []
  else []

theorem turnReads_lt (ring : Ring UInt8) : ∀ i ∈ turnReads ring, i < ring.getSize := by
  intro i hi
  rw [turnReads] at hi
  split at hi
  · rename_i h4
    rcases List.mem_append.mp hi with hlabel | hmessage
    · rw [List.mem_range] at hlabel
      omega
    · cases hfind : CommandLabel.find ((List.range 4).map ring.get) with
      | none =>
        rw [hfind] at hmessage
        cases hmessage
      | some label =>
        rw [hfind] at hmessage
        rcases List.mem_append.mp hmessage with henough | hconstruct
        · exact enoughReads_lt ring i henough
        · split at hconstruct
          · exact constructReads_lt label ring i hconstruct
          · cases hconstruct
  · cases hi

theorem turnWrites_lt (ring : Ring UInt8) : ∀ i ∈ turnWrites ring, i < ring.getCapacity := by
  intro i hi
  rw [turnWrites] at hi
  split at hi
  · cases hfind : CommandLabel.find ((List.range 4).map ring.get) with
    | none =>
      rw [hfind] at hi
      cases hi
    | some label =>
      rw [hfind] at hi
      dsimp only at hi
      split at hi
      · exact lt_of_lt_of_le (copied_lt label ring i hi) (getSize_le_getCapacity ring)
      · cases hi
  · cases hi

/-- **A message takes as many octets as it announces**, and the ring holds them. -/
theorem turn_processed {context : Context} {timestamp : Timestamp} {s s' : CommandSession}
    {command : ClientCommand} (h : s.requestTurn context timestamp = .processed command s') :
    8 + announced s.commandRingBuffer.contents ≤ s.commandRingBuffer.getSize ∧
      s'.commandRingBuffer.contents =
        s.commandRingBuffer.contents.drop (8 + announced s.commandRingBuffer.contents) := by
  have hfronted := front_fronted s.commandRingBuffer.contents
  cases hfront : front s.commandRingBuffer.contents with
  | waiting =>
    rw [requestTurn_waiting context timestamp hfront] at h
    cases h
  | unsupported =>
    rw [requestTurn_unsupported context timestamp hfront] at h
    cases h
  | tooShort =>
    obtain ⟨e, s₁, hturn, _⟩ := requestTurn_tooShort context timestamp hfront
    rw [hturn] at h
    cases h
  | message found =>
    obtain ⟨hsize, hbound⟩ := getSize_of_front hfront
    obtain ⟨s₁, hring, hturn⟩ := requestTurn_message context timestamp hfront
    rw [hturn] at h
    split at h
    · cases h
    · cases h
      rw [← hsize, hring, Ring.contents_popN, Ring.getSize_eq]
      exact ⟨hbound, rfl⟩

/-! ### The loop -/

/-- The loop between two turns. -/
structure LoopState where
  contexts : ℕ → Context
  session : CommandSession
  handled : List ClientCommand

/-- The body of the loop. -/
def loopBody (timestamp : Timestamp) (l : LoopState) : LoopState ⊕ RequestResult :=
  match l.session.requestTurn (l.contexts 0) timestamp with
  | .idle s => .inr ⟨s, l.handled, none⟩
  | .failed failure s => .inr ⟨s, l.handled, some failure⟩
  | .processed command s => .inl ⟨fun n => l.contexts (n + 1), s, l.handled ++ [command]⟩

/-- A turn that goes on has handled a message. -/
theorem loopBody_next {timestamp : Timestamp} {l l' : LoopState}
    (h : loopBody timestamp l = .inl l') :
    ∃ command, l.session.requestTurn (l.contexts 0) timestamp = .processed command l'.session ∧
      l' = ⟨fun n => l.contexts (n + 1), l'.session, l.handled ++ [command]⟩ := by
  rw [loopBody] at h
  cases hturn : l.session.requestTurn (l.contexts 0) timestamp with
  | idle s =>
    rw [hturn] at h
    cases h
  | failed failure s =>
    rw [hturn] at h
    cases h
  | processed command s =>
    rw [hturn] at h
    cases h
    exact ⟨command, rfl, rfl⟩

/-- **The loop of the source** ends as the one with enough turns does. -/
theorem requestLoop_of_evaluates {timestamp : Timestamp} {l : LoopState}
    {visited : List LoopState} {result : RequestResult}
    (h : Evaluates (loopBody timestamp) l visited result) {fuel : ℕ}
    (hfuel : l.session.commandRingBuffer.size < fuel) :
    result = { requestLoop timestamp fuel l.contexts l.session with
      handled := l.handled ++ (requestLoop timestamp fuel l.contexts l.session).handled } := by
  induction h generalizing fuel with
  | @done l result hdone =>
    obtain ⟨n, rfl⟩ : ∃ n, fuel = n + 1 := ⟨fuel - 1, by omega⟩
    rw [loopBody] at hdone
    rw [requestLoop]
    cases hturn : l.session.requestTurn (l.contexts 0) timestamp with
    | idle s =>
      rw [hturn] at hdone
      cases hdone
      simp
    | failed failure s =>
      rw [hturn] at hdone
      cases hdone
      simp
    | processed command s =>
      rw [hturn] at hdone
      cases hdone
  | @next l l' visited result hnext _ ih =>
    obtain ⟨n, rfl⟩ : ∃ n, fuel = n + 1 := ⟨fuel - 1, by omega⟩
    obtain ⟨command, hturn, hl'⟩ := loopBody_next hnext
    have hless := requestTurn_processed hturn
    have hrest := ih (show l'.session.commandRingBuffer.size < n by omega)
    rw [requestLoop, hturn, hrest, hl']
    simp

/-! ### A call -/

/-- A call before the first turn: the octets are in the ring. -/
def entered (receipt : Receipt) (s : CommandSession) : LoopState where
  contexts := receipt.contexts
  session := { s with commandRingBuffer := s.commandRingBuffer.pushAll receipt.buffer }
  handled := []

theorem onRequest_of_evaluates {receipt : Receipt} {s : CommandSession} {visited : List LoopState}
    {result : RequestResult}
    (h : Evaluates (loopBody receipt.timestamp) (entered receipt s) visited result) :
    s.onRequest receipt = onException result := by
  rw [requestLoop_of_evaluates h (Nat.lt_succ_self _)]
  rfl

/-- An exception leaves the ring empty. -/
theorem onException_empty {result : RequestResult} {e : Exception}
    (h : result.failure = some (.exception e)) :
    (onException result).session.commandRingBuffer.contents = [] := by
  rw [onException, h]
  exact Ring.contents_clear _

/-- **Parsing is safe and ends**, for any session and any octets.  The loop of a call has exactly one
end, after at most one turn for each eight octets and another one.  In all its turns the ring is read
below its size, the command's buffer is written below its own, the length is never too big, and a
message takes out as many octets as it announces.  An exception leaves the ring empty. -/
theorem onRequest_bounds_safe (receipt : Receipt) (s : CommandSession) :
    ∃ visited result,
      Evaluates (loopBody receipt.timestamp) (entered receipt s) visited result ∧
      (∀ visited' result',
        Evaluates (loopBody receipt.timestamp) (entered receipt s) visited' result' →
          visited' = visited ∧ result' = result) ∧
      s.onRequest receipt = onException result ∧
      visited.length ≤ (entered receipt s).session.commandRingBuffer.getSize / 8 + 1 ∧
      (∀ l ∈ visited,
        let ring := l.session.commandRingBuffer
        (∀ i ∈ turnReads ring, i < ring.getSize) ∧
        (∀ i ∈ turnWrites ring, i < ring.getCapacity) ∧
        (∀ label, construct label ring ≠
          .error ⟨"Length provided in CommandType command is too big"⟩) ∧
        ∀ l', loopBody receipt.timestamp l = .inl l' →
          8 + announced ring.contents ≤ ring.getSize ∧
            l'.session.commandRingBuffer.contents =
              ring.contents.drop (8 + announced ring.contents)) ∧
      ∀ e, (s.onRequest receipt).failure = some (.exception e) →
        (s.onRequest receipt).session.commandRingBuffer.contents = [] := by
  have hmeasure : ∀ l l', loopBody receipt.timestamp l = .inl l' →
      l'.session.commandRingBuffer.getSize / 8 < l.session.commandRingBuffer.getSize / 8 := by
    intro l l' h
    obtain ⟨command, hturn, _⟩ := loopBody_next h
    obtain ⟨hbound, hcontents⟩ := turn_processed hturn
    have hless : l'.session.commandRingBuffer.getSize + 8 ≤
        l.session.commandRingBuffer.getSize := by
      rw [Ring.getSize_eq l'.session.commandRingBuffer, hcontents, List.length_drop,
        ← Ring.getSize_eq]
      omega
    omega
  obtain ⟨visited, result, hloop, hlength⟩ :=
    evaluates_of_measure (fun l => l.session.commandRingBuffer.getSize / 8) hmeasure
      (entered receipt s)
  have hcall := onRequest_of_evaluates hloop
  refine ⟨visited, result, hloop, fun _ _ h => hloop.unique h, hcall, hlength, ?_, ?_⟩
  · intro l _ ring
    refine ⟨turnReads_lt ring, turnWrites_lt ring,
      fun label => construct_ne_tooBig label ring, ?_⟩
    intro l' h
    obtain ⟨command, hturn, _⟩ := loopBody_next h
    exact turn_processed hturn
  · intro e he
    rw [hcall] at he ⊢
    refine onException_empty (e := e) ?_
    rw [onException] at he
    split at he <;> assumption

end CommandSession

end SlimStreamer
