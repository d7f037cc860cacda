import SlimStreamer.Lib.Execution
import SlimStreamer.Util.RealTimeQueue

/-!
# The real-time queue between two threads

One producer and one consumer work on a `util::RealTimeQueue` at the same time.  A step is one
access to memory: the load of a counter, a write of a mover to its slot, the return of a mover,
the store of a counter.  The counters are sequentially consistent; they may start anywhere, since
the code only ever looks at masked differences.

* `Memory.queue` — the counters brought within one round, so that the queue of the previous
  module applies;
* `step` — one access by one of the threads, with what was committed so far beside it;
* `Sound` — what holds between the accesses, `sound_step`, `sound_exec`;
* `enqueue_alone`, `dequeue_alone` — without the other thread a call is the one step it was.
-/

namespace SlimStreamer

namespace RealTimeQueue

/-- The members of the queue, with the counters as they stand. -/
structure Memory (α : Type) where
  exponent : ℕ
  exponent_lt : exponent < 64
  slots : Fin (2 ^ exponent) → α
  head : BitVec 64
  tail : BitVec 64

namespace Memory

variable {α : Type}

def mask (m : Memory α) : BitVec 64 := BitVec.ofNat 64 (2 ^ m.exponent) - 1

theorem size_pos (m : Memory α) : 0 < 2 ^ m.exponent := Nat.two_pow_pos m.exponent

theorem and_mask (m : Memory α) (x : BitVec 64) :
    (x &&& m.mask).toNat = x.toNat % 2 ^ m.exponent :=
  RealTimeQueue.and_mask ⟨m.exponent, m.exponent_lt, m.slots, 0, 0, m.size_pos⟩ x

def slotIndex (m : Memory α) (counter : BitVec 64) : Fin (2 ^ m.exponent) :=
  ⟨(counter &&& m.mask).toNat, by
    rw [and_mask]
    exact Nat.mod_lt _ m.size_pos⟩

/-- The check of `dequeue` with the loaded tail. -/
def hasElement (m : Memory α) (tail : BitVec 64) : Bool := 1 ≤ ((m.head - tail) &&& m.mask).toNat

/-- The check of `enqueue` with the loaded head. -/
def hasSpace (m : Memory α) (head : BitVec 64) : Bool :=
  1 ≤ ((m.tail - (head + 1)) &&& m.mask).toNat

def setSlot (m : Memory α) (i : Fin (2 ^ m.exponent)) (x : α) : Memory α :=
  { m with slots := Function.update m.slots i x }

def storeHead (m : Memory α) (counter : BitVec 64) : Memory α := { m with head := counter }

def storeTail (m : Memory α) (counter : BitVec 64) : Memory α := { m with tail := counter }

/-! ### The queue in the memory -/

/-- The head in the same round as the tail. -/
def nearHead (m : Memory α) : BitVec 64 := m.tail + ((m.head - m.tail) &&& m.mask)

theorem nearHead_sub (m : Memory α) : m.nearHead - m.tail = (m.head - m.tail) &&& m.mask := by
  rw [nearHead, BitVec.add_comm, BitVec.add_sub_cancel]

/-- The queue that the memory holds. -/
def queue (m : Memory α) : RealTimeQueue α where
  exponent := m.exponent
  exponent_lt := m.exponent_lt
  slots := m.slots
  head := m.nearHead
  tail := m.tail
  bounded := by
    rw [nearHead_sub, and_mask]
    exact Nat.mod_lt _ m.size_pos

/-- Only the low bits of a counter matter to a masked value. -/
theorem and_mask_eq_iff (m : Memory α) (x y : BitVec 64) :
    x &&& m.mask = y &&& m.mask ↔ x.setWidth m.exponent = y.setWidth m.exponent := by
  rw [← BitVec.toNat_inj, ← BitVec.toNat_inj, and_mask, and_mask, BitVec.toNat_setWidth,
    BitVec.toNat_setWidth]

theorem setWidth_sub (m : Memory α) (x y : BitVec 64) :
    (x - y).setWidth m.exponent = x.setWidth m.exponent - y.setWidth m.exponent := by
  have hle := m.exponent_lt.le
  rw [BitVec.sub_eq_add_neg, BitVec.setWidth_add _ _ hle, BitVec.setWidth_neg_of_le hle,
    ← BitVec.sub_eq_add_neg]

theorem setWidth_and_mask (m : Memory α) (x : BitVec 64) :
    (x &&& m.mask).setWidth m.exponent = x.setWidth m.exponent := by
  rw [← and_mask_eq_iff, BitVec.and_assoc, BitVec.and_self]

theorem setWidth_nearHead (m : Memory α) :
    m.nearHead.setWidth m.exponent = m.head.setWidth m.exponent := by
  rw [nearHead, BitVec.setWidth_add _ _ m.exponent_lt.le, setWidth_and_mask, setWidth_sub,
    BitVec.add_comm, BitVec.sub_add_cancel]

theorem slotIndex_head (m : Memory α) : m.queue.slotIndex m.queue.head = m.slotIndex m.head := by
  apply Fin.ext
  show (m.nearHead &&& m.mask).toNat = (m.head &&& m.mask).toNat
  rw [(m.and_mask_eq_iff _ _).mpr m.setWidth_nearHead]

theorem slotIndex_tail (m : Memory α) : m.queue.slotIndex m.queue.tail = m.slotIndex m.tail := rfl

theorem hasElement_queue (m : Memory α) : m.queue.hasElement = m.hasElement m.tail := by
  have hmask : (m.queue.head - m.queue.tail) &&& m.queue.mask = (m.head - m.tail) &&& m.mask := by
    show (m.nearHead - m.tail) &&& m.mask = _
    rw [nearHead_sub, BitVec.and_assoc, BitVec.and_self]
  rw [RealTimeQueue.hasElement, hmask]
  rfl

theorem hasSpace_queue (m : Memory α) : m.queue.hasSpace = m.hasSpace m.head := by
  have hle := m.exponent_lt.le
  have hmask : (m.queue.tail - (m.queue.head + 1)) &&& m.queue.mask =
      (m.tail - (m.head + 1)) &&& m.mask := by
    show (m.tail - (m.nearHead + 1)) &&& m.mask = _
    rw [and_mask_eq_iff, setWidth_sub, setWidth_sub, BitVec.setWidth_add _ _ hle,
      BitVec.setWidth_add _ _ hle, setWidth_nearHead]
  rw [RealTimeQueue.hasSpace, hmask]
  rfl

theorem queue_setSlot (m : Memory α) (i : Fin (2 ^ m.exponent)) (x : α) :
    (m.setSlot i x).queue = m.queue.setSlot i x := rfl

/-- The count is the masked difference of the counters. -/
theorem queue_count (m : Memory α) : m.queue.count = (m.head - m.tail).toNat % 2 ^ m.exponent := by
  show (m.nearHead - m.tail).toNat = _
  rw [nearHead_sub, and_mask]

theorem size_lt (m : Memory α) : 2 ^ m.exponent < 2 ^ 64 :=
  Nat.pow_lt_pow_right (by decide) m.exponent_lt

theorem and_mask_succ (m : Memory α) {x : BitVec 64}
    (h : (x &&& m.mask).toNat + 1 < 2 ^ m.exponent) : (x + 1) &&& m.mask = (x &&& m.mask) + 1 := by
  have hlt := m.size_lt
  have hdvd : 2 ^ m.exponent ∣ 2 ^ 64 := Nat.pow_dvd_pow 2 m.exponent_lt.le
  have hsum : ((x &&& m.mask) + 1).toNat = (x &&& m.mask).toNat + 1 := by
    rw [BitVec.toNat_add]
    exact Nat.mod_eq_of_lt (lt_trans h hlt)
  rw [← BitVec.toNat_inj, hsum, and_mask, BitVec.toNat_add, Nat.mod_mod_of_dvd _ hdvd,
    ← Nat.mod_add_mod, ← and_mask]
  exact Nat.mod_eq_of_lt h

theorem and_mask_pred (m : Memory α) {x : BitVec 64} (h : 0 < (x &&& m.mask).toNat) :
    (x - 1) &&& m.mask = (x &&& m.mask) - 1 := by
  have hbelow : ((x - 1) &&& m.mask).toNat + 1 < 2 ^ m.exponent := by
    have hdvd : 2 ^ m.exponent ∣ 2 ^ 64 := Nat.pow_dvd_pow 2 m.exponent_lt.le
    have hlt := Nat.mod_lt (x - 1).toNat m.size_pos
    by_contra hnot
    -- else the masked value after the last of a round is not zero
    have hlast : (x - 1).toNat % 2 ^ m.exponent + 1 = 2 ^ m.exponent := by
      rw [and_mask] at hnot
      omega
    have hzero : (x - 1 + 1).toNat % 2 ^ m.exponent = 0 := by
      rw [BitVec.toNat_add, Nat.mod_mod_of_dvd _ hdvd, ← Nat.mod_add_mod]
      show ((x - 1).toNat % 2 ^ m.exponent + 1) % 2 ^ m.exponent = 0
      rw [hlast, Nat.mod_self]
    rw [BitVec.sub_add_cancel, ← and_mask] at hzero
    omega
  have hsucc := m.and_mask_succ hbelow
  rw [BitVec.sub_add_cancel] at hsucc
  rw [hsucc, BitVec.add_sub_cancel]

/-- Storing the next head is what `advanceHead` does. -/
theorem queue_storeHead (m : Memory α) (h : m.queue.hasSpace = true) :
    (m.storeHead (m.head + 1)).queue = m.queue.advanceHead h := by
  have hspace : ((m.head - m.tail) &&& m.mask).toNat + 1 < 2 ^ m.exponent := by
    rw [and_mask, ← queue_count]
    exact m.queue.hasSpace_iff.mp h
  have hhead : (m.storeHead (m.head + 1)).nearHead = m.nearHead + 1 := by
    have hdiff : m.head + 1 - m.tail = m.head - m.tail + 1 := by bv_omega
    show m.tail + ((m.head + 1 - m.tail) &&& m.mask) = m.tail + ((m.head - m.tail) &&& m.mask) + 1
    rw [hdiff, and_mask_succ _ hspace, BitVec.add_assoc]
  simp only [queue, advanceHead, hhead]
  rfl

/-- Storing the next tail is what `advanceTail` does. -/
theorem queue_storeTail (m : Memory α) (h : m.queue.hasElement = true) :
    (m.storeTail (m.tail + 1)).queue = m.queue.advanceTail h := by
  have hpos : 0 < ((m.head - m.tail) &&& m.mask).toNat := by
    rw [and_mask, ← queue_count]
    exact m.queue.hasElement_iff.mp h
  have hhead : (m.storeTail (m.tail + 1)).nearHead = m.nearHead := by
    have hdiff : m.head - (m.tail + 1) = m.head - m.tail - 1 := by bv_omega
    show m.tail + 1 + ((m.head - (m.tail + 1)) &&& m.mask) =
      m.tail + ((m.head - m.tail) &&& m.mask)
    rw [hdiff, and_mask_pred _ hpos]
    bv_omega
  simp only [queue, advanceTail, hhead]
  rfl

theorem contents_write_head (m : Memory α) (x : α) :
    (m.setSlot (m.slotIndex m.head) x).queue.contents = m.queue.contents := by
  rw [queue_setSlot, ← slotIndex_head, contents_setSlot_head]

theorem contents_write_tail (m : Memory α) {x : α} {rest : List α}
    (h : m.queue.contents = x :: rest) (y : α) :
    (m.setSlot (m.slotIndex m.tail) y).queue.contents = y :: rest := by
  rw [queue_setSlot, ← slotIndex_tail, contents_setSlot_tail _ h]

theorem contents_storeHead (m : Memory α) (h : m.queue.hasSpace = true) :
    (m.storeHead (m.head + 1)).queue.contents =
      m.queue.contents ++ [m.slots (m.slotIndex m.head)] := by
  rw [queue_storeHead m h, contents_advanceHead, slotIndex_head]
  rfl

theorem contents_storeTail (m : Memory α) (h : m.queue.hasElement = true) :
    (m.storeTail (m.tail + 1)).queue.contents = m.queue.contents.tail := by
  rw [queue_storeTail m h, contents_advanceTail]

theorem contents_front (m : Memory α) (h : m.queue.hasElement = true) :
    ∃ rest, m.queue.contents = m.slots (m.slotIndex m.tail) :: rest := by
  obtain ⟨x, rest, hcontents⟩ := List.exists_cons_of_ne_nil (m.queue.hasElement_contents.mp h)
  have hx : m.slots (m.slotIndex m.tail) = x := slots_tail m.queue hcontents
  exact ⟨rest, by rw [hx, hcontents]⟩

/-- An element in use is never in the slot that the next one goes to. -/
theorem slotIndex_ne (m : Memory α) (h : m.queue.hasElement = true) :
    m.slotIndex m.head ≠ m.slotIndex m.tail := by
  have hpos := m.queue.hasElement_iff.mp h
  have hlt := m.queue.count_lt
  rw [← slotIndex_head, ← slotIndex_tail, ← slotAt_count, ← slotAt_zero]
  intro heq
  exact absurd (m.queue.slotAt_injective hlt (lt_trans hpos hlt) heq) (by omega)

theorem hasSpace_storeTail (m : Memory α) (he : m.queue.hasElement = true)
    (hs : m.queue.hasSpace = true) : (m.storeTail (m.tail + 1)).queue.hasSpace = true := by
  rw [hasSpace_contents] at hs ⊢
  rw [contents_storeTail m he, List.length_tail]
  exact lt_of_le_of_lt (Nat.succ_le_succ (Nat.sub_le _ _)) hs

theorem hasElement_storeHead (m : Memory α) (hs : m.queue.hasSpace = true) :
    (m.storeHead (m.head + 1)).queue.hasElement = true := by
  rw [hasElement_contents, contents_storeHead m hs]
  exact List.append_ne_nil_of_right_ne_nil _ (List.cons_ne_nil _ _)

end Memory

/-! ### The two threads -/

/-- Where the producer is in `enqueue`. -/
inductive Producer where
  | idle
  | loaded (head : BitVec 64)
  | overflow
  | moving (head : BitVec 64)
  | storing (head : BitVec 64)
deriving DecidableEq

/-- Where the consumer is in `dequeue`.  The slot is found with a second load of the tail. -/
inductive Consumer where
  | idle
  | loaded (tail : BitVec 64)
  | checked (tail : BitVec 64)
  | underflow
  | moving (tail index : BitVec 64)
  | storing (tail : BitVec 64)
deriving DecidableEq

/-- The memory, the two threads and the history: what `enqueue` committed, what `dequeue`
committed (an element as it was when the consumer first got it), and the element that the
consumer got and has not committed yet. -/
structure Concurrent (α : Type) where
  memory : Memory α
  producer : Producer
  consumer : Consumer
  enqueued : List α
  dequeued : List α
  presented : Option α

/-- One access by one of the threads. -/
inductive Access (α : Type) where
  | enqueueHead
  | enqueueTail
  | enqueueWrite (x : α)
  | enqueueReturn (advance : Bool)
  | enqueueStore
  | overflowHandled
  | dequeueTail
  | dequeueHead
  | dequeueIndex
  | dequeueWrite (x : α)
  | dequeueReturn (advance : Bool)
  | dequeueStore
  | underflowHandled
deriving DecidableEq

namespace Concurrent

variable {α : Type}

/-- Both threads are outside of the queue. -/
def start (m : Memory α) : Concurrent α where
  memory := m
  producer := .idle
  consumer := .idle
  enqueued := []
  dequeued := []
  presented := none

/-- The access is the next one of its thread. -/
def enabled (s : Concurrent α) : Access α → Prop
  | .enqueueHead => s.producer = .idle
  | .enqueueTail => ∃ head, s.producer = .loaded head
  | .enqueueWrite _ => ∃ head, s.producer = .moving head
  | .enqueueReturn _ => ∃ head, s.producer = .moving head
  | .enqueueStore => ∃ head, s.producer = .storing head
  | .overflowHandled => s.producer = .overflow
  | .dequeueTail => s.consumer = .idle
  | .dequeueHead => ∃ tail, s.consumer = .loaded tail
  | .dequeueIndex => ∃ tail, s.consumer = .checked tail
  | .dequeueWrite _ => ∃ tail index, s.consumer = .moving tail index
  | .dequeueReturn _ => ∃ tail index, s.consumer = .moving tail index
  | .dequeueStore => ∃ tail, s.consumer = .storing tail
  | .underflowHandled => s.consumer = .underflow

def stepProducer (s : Concurrent α) : Producer → Access α → Concurrent α
  | .idle, .enqueueHead => { s with producer := .loaded s.memory.head }
  | .loaded head, .enqueueTail =>
    { s with producer := if s.memory.hasSpace head then .moving head else .overflow }
  | .moving head, .enqueueWrite x =>
    { s with memory := s.memory.setSlot (s.memory.slotIndex head) x }
  | .moving head, .enqueueReturn advance =>
    { s with producer := if advance then .storing head else .idle }
  | .storing head, .enqueueStore =>
    { s with
      memory := s.memory.storeHead (head + 1)
      producer := .idle
      enqueued := s.enqueued ++ [s.memory.slots (s.memory.slotIndex head)] }
  | .overflow, .overflowHandled => { s with producer := .idle }
  | _, _ => s

def stepConsumer (s : Concurrent α) : Consumer → Access α → Concurrent α
  | .idle, .dequeueTail => { s with consumer := .loaded s.memory.tail }
  | .loaded tail, .dequeueHead =>
    { s with consumer := if s.memory.hasElement tail then .checked tail else .underflow }
  | .checked tail, .dequeueIndex =>
    { s with
      consumer := .moving tail s.memory.tail
      presented := s.presented <|> some (s.memory.slots (s.memory.slotIndex s.memory.tail)) }
  | .moving _ index, .dequeueWrite x =>
    { s with memory := s.memory.setSlot (s.memory.slotIndex index) x }
  | .moving tail _, .dequeueReturn advance =>
    { s with consumer := if advance then .storing tail else .idle }
  | .storing tail, .dequeueStore =>
    { s with
      memory := s.memory.storeTail (tail + 1)
      consumer := .idle
      dequeued := s.dequeued ++ s.presented.toList
      presented := none }
  | .underflow, .underflowHandled => { s with consumer := .idle }
  | _, _ => s

/-- The accesses of the producer. -/
def isProducer : Access α → Bool
  | .enqueueHead | .enqueueTail | .enqueueWrite _ | .enqueueReturn _ | .enqueueStore
  | .overflowHandled => true
  | _ => false

def step (s : Concurrent α) (access : Access α) : Concurrent α :=
  if isProducer access then s.stepProducer s.producer access
  else s.stepConsumer s.consumer access

def system : GuardedExecution.System (Concurrent α) (Access α) where
  enabled := enabled
  step := step

/-! ### What holds between the accesses -/

/-- The producer knows the head, and has a slot when it works on one. -/
def ProducerOk (m : Memory α) : Producer → Prop
  | .idle | .overflow => True
  | .loaded head => head = m.head
  | .moving head | .storing head => head = m.head ∧ m.queue.hasSpace = true

/-- The consumer knows the tail, and has an element when it works on one. -/
def ConsumerOk (m : Memory α) (presented : Option α) : Consumer → Prop
  | .idle | .underflow => True
  | .loaded tail => tail = m.tail
  | .checked tail => tail = m.tail ∧ m.queue.hasElement = true
  | .moving tail index =>
    tail = m.tail ∧ index = m.tail ∧ m.queue.hasElement = true ∧ presented.isSome = true
  | .storing tail => tail = m.tail ∧ m.queue.hasElement = true ∧ presented.isSome = true

/-- The contents are what is pending, but for what the consumer wrote to the element it has. -/
def Agrees (contents pending : List α) : Option α → Prop
  | none => contents = pending
  | some x => ∃ y rest, contents = y :: rest ∧ pending = x :: rest

structure Sound (m : Memory α) (s : Concurrent α) : Prop where
  size : s.memory.exponent = m.exponent
  producer : ProducerOk s.memory s.producer
  consumer : ConsumerOk s.memory s.presented s.consumer
  order : ∃ pending, m.queue.contents ++ s.enqueued = s.dequeued ++ pending ∧
    Agrees s.memory.queue.contents pending s.presented

theorem sound_start (m : Memory α) : Sound m (start m) where
  size := rfl
  producer := trivial
  consumer := trivial
  order := ⟨m.queue.contents, List.append_nil _, rfl⟩

/-- What the producer knows stays true while the consumer works. -/
theorem ProducerOk.storeTail {m : Memory α} {p : Producer} (h : ProducerOk m p)
    (he : m.queue.hasElement = true) : ProducerOk (m.storeTail (m.tail + 1)) p := by
  have hspace := m.hasSpace_storeTail he
  cases p with
  | idle => trivial
  | overflow => trivial
  | loaded head => exact h
  | moving head => exact ⟨h.1, hspace h.2⟩
  | storing head => exact ⟨h.1, hspace h.2⟩

theorem ConsumerOk.storeHead {m : Memory α} {presented : Option α} {c : Consumer}
    (h : ConsumerOk m presented c) (hs : m.queue.hasSpace = true) :
    ConsumerOk (m.storeHead (m.head + 1)) presented c := by
  have helement := m.hasElement_storeHead hs
  cases c with
  | idle => trivial
  | underflow => trivial
  | loaded tail => exact h
  | checked tail => exact ⟨h.1, helement⟩
  | moving tail index => exact ⟨h.1, h.2.1, helement, h.2.2.2⟩
  | storing tail => exact ⟨h.1, helement, h.2.2⟩

/-- The threads know nothing about what the slots hold. -/
theorem ProducerOk.setSlot {m : Memory α} {p : Producer} (h : ProducerOk m p)
    (i : Fin (2 ^ m.exponent)) (x : α) : ProducerOk (m.setSlot i x) p := by
  cases p <;> exact h

theorem ConsumerOk.setSlot {m : Memory α} {presented : Option α} {c : Consumer}
    (h : ConsumerOk m presented c) (i : Fin (2 ^ m.exponent)) (x : α) :
    ConsumerOk (m.setSlot i x) presented c := by
  cases c <;> exact h

/-- A write to the slot after the elements changes nothing that counts. -/
theorem Sound.enqueueWrite {m : Memory α} {s : Concurrent α} (h : Sound m s) (x : α)
    (hp : ∃ head, s.producer = .moving head) :
    Sound m (s.stepProducer s.producer (.enqueueWrite x)) := by
  obtain ⟨head, hp⟩ := hp
  have hok := h.producer
  rw [hp] at hok
  obtain ⟨rfl, _⟩ := hok
  rw [hp]
  refine ⟨h.size, h.producer.setSlot _ x, h.consumer.setSlot _ x, ?_⟩
  obtain ⟨pending, horder, hagrees⟩ := h.order
  refine ⟨pending, horder, ?_⟩
  show Agrees (s.memory.setSlot (s.memory.slotIndex s.memory.head) x).queue.contents pending _
  rw [Memory.contents_write_head]
  exact hagrees

theorem Agrees.concat {contents pending : List α} {presented : Option α}
    (h : Agrees contents pending presented) (x : α) :
    Agrees (contents ++ [x]) (pending ++ [x]) presented := by
  cases presented with
  | none => exact congrArg (· ++ [x]) h
  | some z =>
    obtain ⟨y, rest, rfl, rfl⟩ := h
    exact ⟨y, rest ++ [x], rfl, rfl⟩

/-- A commit of the producer puts its element behind what is pending. -/
theorem Sound.enqueueStore {m : Memory α} {s : Concurrent α} (h : Sound m s)
    (hp : ∃ head, s.producer = .storing head) :
    Sound m (s.stepProducer s.producer .enqueueStore) := by
  obtain ⟨head, hp⟩ := hp
  have hok := h.producer
  rw [hp] at hok
  obtain ⟨rfl, hspace⟩ := hok
  rw [hp]
  refine ⟨h.size, trivial, h.consumer.storeHead hspace, ?_⟩
  obtain ⟨pending, horder, hagrees⟩ := h.order
  refine ⟨pending ++ [s.memory.slots (s.memory.slotIndex s.memory.head)], ?_, ?_⟩
  · show m.queue.contents ++ (s.enqueued ++ _) = s.dequeued ++ (pending ++ _)
    rw [← List.append_assoc, horder, List.append_assoc]
  · show Agrees (s.memory.storeHead (s.memory.head + 1)).queue.contents _ _
    rw [Memory.contents_storeHead _ hspace]
    exact hagrees.concat _

theorem Sound.producerLocal {m : Memory α} {s : Concurrent α} (h : Sound m s) {p : Producer}
    (hp : ProducerOk s.memory p) : Sound m { s with producer := p } :=
  ⟨h.size, hp, h.consumer, h.order⟩

theorem Sound.consumerLocal {m : Memory α} {s : Concurrent α} (h : Sound m s) {c : Consumer}
    (hc : ConsumerOk s.memory s.presented c) : Sound m { s with consumer := c } :=
  ⟨h.size, h.producer, hc, h.order⟩

/-- The first time the consumer gets an element, it is the oldest one pending. -/
theorem Sound.dequeueIndex {m : Memory α} {s : Concurrent α} (h : Sound m s)
    (hc : ∃ tail, s.consumer = .checked tail) :
    Sound m (s.stepConsumer s.consumer .dequeueIndex) := by
  obtain ⟨tail, hc⟩ := hc
  have hok := h.consumer
  rw [hc] at hok
  obtain ⟨rfl, helement⟩ := hok
  obtain ⟨rest, hfront⟩ := s.memory.contents_front helement
  rw [hc]
  refine ⟨h.size, h.producer, ⟨rfl, rfl, helement, ?_⟩, ?_⟩
  · show (s.presented <|> some _).isSome = true
    cases s.presented <;> rfl
  · obtain ⟨pending, horder, hagrees⟩ := h.order
    refine ⟨pending, horder, ?_⟩
    show Agrees s.memory.queue.contents pending (s.presented <|> some _)
    cases hpresented : s.presented with
    | none =>
      rw [hpresented] at hagrees
      exact ⟨_, rest, hfront, hagrees.symm.trans hfront⟩
    | some x =>
      rw [hpresented] at hagrees
      exact hagrees

/-- What the consumer writes, it writes to the element it has. -/
theorem Sound.dequeueWrite {m : Memory α} {s : Concurrent α} (h : Sound m s) (x : α)
    (hc : ∃ tail index, s.consumer = .moving tail index) :
    Sound m (s.stepConsumer s.consumer (.dequeueWrite x)) := by
  obtain ⟨tail, index, hc⟩ := hc
  have hok := h.consumer
  rw [hc] at hok
  obtain ⟨rfl, rfl, helement, hpresented⟩ := hok
  obtain ⟨z, hz⟩ := Option.isSome_iff_exists.mp hpresented
  obtain ⟨pending, horder, hagrees⟩ := h.order
  rw [hz] at hagrees
  obtain ⟨y, rest, hcontents, rfl⟩ := hagrees
  rw [hc]
  refine ⟨h.size, h.producer.setSlot _ x, h.consumer.setSlot _ x, z :: rest, horder, ?_⟩
  show Agrees (s.memory.setSlot (s.memory.slotIndex s.memory.tail) x).queue.contents _ s.presented
  rw [Memory.contents_write_tail _ hcontents, hz]
  exact ⟨x, rest, rfl, rfl⟩

/-- A commit of the consumer takes the oldest element pending. -/
theorem Sound.dequeueStore {m : Memory α} {s : Concurrent α} (h : Sound m s)
    (hc : ∃ tail, s.consumer = .storing tail) :
    Sound m (s.stepConsumer s.consumer .dequeueStore) := by
  obtain ⟨tail, hc⟩ := hc
  have hok := h.consumer
  rw [hc] at hok
  obtain ⟨rfl, helement, hpresented⟩ := hok
  obtain ⟨z, hz⟩ := Option.isSome_iff_exists.mp hpresented
  obtain ⟨pending, horder, hagrees⟩ := h.order
  rw [hz] at hagrees
  obtain ⟨y, rest, hcontents, rfl⟩ := hagrees
  rw [hc]
  refine ⟨h.size, h.producer.storeTail helement, trivial, rest, ?_, ?_⟩
  · show m.queue.contents ++ s.enqueued = s.dequeued ++ s.presented.toList ++ rest
    rw [horder, hz, List.append_assoc]
    rfl
  · show (s.memory.storeTail (s.memory.tail + 1)).queue.contents = rest
    rw [Memory.contents_storeTail _ helement, hcontents]
    rfl

theorem sound_stepProducer {m : Memory α} {s : Concurrent α} (h : Sound m s) {access : Access α}
    (hthread : isProducer access = true) (henabled : s.enabled access) :
    Sound m (s.stepProducer s.producer access) := by
  have hok := h.producer
  cases access with
  | enqueueHead =>
    have hidle : s.producer = .idle := henabled
    rw [hidle]
    exact h.producerLocal rfl
  | enqueueTail =>
    obtain ⟨head, hloaded⟩ := henabled
    rw [hloaded] at hok ⊢
    obtain rfl : head = s.memory.head := hok
    apply h.producerLocal
    split
    · rename_i hspace
      exact ⟨rfl, (Memory.hasSpace_queue _).trans hspace⟩
    · trivial
  | enqueueWrite x => exact h.enqueueWrite x henabled
  | enqueueReturn advance =>
    obtain ⟨head, hmoving⟩ := henabled
    rw [hmoving] at hok ⊢
    apply h.producerLocal
    cases advance with
    | false => trivial
    | true => exact hok
  | enqueueStore => exact h.enqueueStore henabled
  | overflowHandled =>
    have hoverflow : s.producer = .overflow := henabled
    rw [hoverflow]
    exact h.producerLocal trivial
  | dequeueTail => exact Bool.noConfusion hthread
  | dequeueHead => exact Bool.noConfusion hthread
  | dequeueIndex => exact Bool.noConfusion hthread
  | dequeueWrite x => exact Bool.noConfusion hthread
  | dequeueReturn advance => exact Bool.noConfusion hthread
  | dequeueStore => exact Bool.noConfusion hthread
  | underflowHandled => exact Bool.noConfusion hthread

theorem sound_stepConsumer {m : Memory α} {s : Concurrent α} (h : Sound m s) {access : Access α}
    (hthread : isProducer access = false) (henabled : s.enabled access) :
    Sound m (s.stepConsumer s.consumer access) := by
  have hok := h.consumer
  cases access with
  | dequeueTail =>
    have hidle : s.consumer = .idle := henabled
    rw [hidle]
    exact h.consumerLocal rfl
  | dequeueHead =>
    obtain ⟨tail, hloaded⟩ := henabled
    rw [hloaded] at hok ⊢
    obtain rfl : tail = s.memory.tail := hok
    apply h.consumerLocal
    split
    · rename_i helement
      exact ⟨rfl, (Memory.hasElement_queue _).trans helement⟩
    · trivial
  | dequeueIndex => exact h.dequeueIndex henabled
  | dequeueWrite x => exact h.dequeueWrite x henabled
  | dequeueReturn advance =>
    obtain ⟨tail, index, hmoving⟩ := henabled
    rw [hmoving] at hok ⊢
    apply h.consumerLocal
    cases advance with
    | false => trivial
    | true => exact ⟨hok.1, hok.2.2⟩
  | dequeueStore => exact h.dequeueStore henabled
  | underflowHandled =>
    have hunderflow : s.consumer = .underflow := henabled
    rw [hunderflow]
    exact h.consumerLocal trivial
  | enqueueHead => exact Bool.noConfusion hthread
  | enqueueTail => exact Bool.noConfusion hthread
  | enqueueWrite x => exact Bool.noConfusion hthread
  | enqueueReturn advance => exact Bool.noConfusion hthread
  | enqueueStore => exact Bool.noConfusion hthread
  | overflowHandled => exact Bool.noConfusion hthread

/-- **Each access keeps the queue sound.** -/
theorem sound_step {m : Memory α} (s : Concurrent α) (access : Access α) (h : Sound m s)
    (henabled : s.enabled access) : Sound m (s.step access) := by
  rw [step]
  cases hthread : isProducer access with
  | true => exact sound_stepProducer h hthread henabled
  | false => exact sound_stepConsumer h hthread henabled

theorem sound_exec (m : Memory α) (run : List (Access α)) (hrun : system.Admits (start m) run) :
    Sound m (system.exec (start m) run) :=
  system.exec_invariant (Sound m) sound_step run (start m) (sound_start m) hrun

/-! ### What an access does to the memory -/

theorem step_memory {m : Memory α} {s : Concurrent α} {access : Access α} (h : Sound m s)
    (henabled : s.enabled access) :
    (s.step access).memory = s.memory ∨
      (∃ i x, (s.step access).memory = s.memory.setSlot i x) ∨
      (access = .enqueueStore ∧ s.memory.queue.hasSpace = true ∧
        (s.step access).memory = s.memory.storeHead (s.memory.head + 1)) ∨
      access = .dequeueStore ∧ s.memory.queue.hasElement = true ∧
        (s.step access).memory = s.memory.storeTail (s.memory.tail + 1) := by
  have hproducer := h.producer
  have hconsumer := h.consumer
  cases access with
  | enqueueHead =>
    have hidle : s.producer = .idle := henabled
    exact .inl (by simp [step, isProducer, hidle, stepProducer])
  | enqueueTail =>
    obtain ⟨head, hloaded⟩ := henabled
    exact .inl (by simp [step, isProducer, hloaded, stepProducer])
  | enqueueWrite x =>
    obtain ⟨head, hmoving⟩ := henabled
    exact .inr (.inl ⟨s.memory.slotIndex head, x, by simp [step, isProducer, hmoving, stepProducer]⟩)
  | enqueueReturn advance =>
    obtain ⟨head, hmoving⟩ := henabled
    exact .inl (by simp [step, isProducer, hmoving, stepProducer])
  | enqueueStore =>
    obtain ⟨head, hstoring⟩ := henabled
    rw [hstoring] at hproducer
    obtain ⟨rfl, hspace⟩ := hproducer
    exact .inr (.inr (.inl ⟨rfl, hspace, by simp [step, isProducer, hstoring, stepProducer]⟩))
  | overflowHandled =>
    have hoverflow : s.producer = .overflow := henabled
    exact .inl (by simp [step, isProducer, hoverflow, stepProducer])
  | dequeueTail =>
    have hidle : s.consumer = .idle := henabled
    exact .inl (by simp [step, isProducer, hidle, stepConsumer])
  | dequeueHead =>
    obtain ⟨tail, hloaded⟩ := henabled
    exact .inl (by simp [step, isProducer, hloaded, stepConsumer])
  | dequeueIndex =>
    obtain ⟨tail, hchecked⟩ := henabled
    exact .inl (by simp [step, isProducer, hchecked, stepConsumer])
  | dequeueWrite x =>
    obtain ⟨tail, index, hmoving⟩ := henabled
    exact .inr (.inl ⟨s.memory.slotIndex index, x, by simp [step, isProducer, hmoving, stepConsumer]⟩)
  | dequeueReturn advance =>
    obtain ⟨tail, index, hmoving⟩ := henabled
    exact .inl (by simp [step, isProducer, hmoving, stepConsumer])
  | dequeueStore =>
    obtain ⟨tail, hstoring⟩ := henabled
    rw [hstoring] at hconsumer
    obtain ⟨rfl, helement, _⟩ := hconsumer
    exact .inr (.inr (.inr ⟨rfl, helement, by simp [step, isProducer, hstoring, stepConsumer]⟩))
  | underflowHandled =>
    have hunderflow : s.consumer = .underflow := henabled
    exact .inl (by simp [step, isProducer, hunderflow, stepConsumer])

/-- The elements that `enqueue` committed and `dequeue` did not, with those of the start. -/
def held (m : Memory α) (s : Concurrent α) : ℕ :=
  m.queue.contents.length + s.enqueued.length - s.dequeued.length

theorem Sound.held {m : Memory α} {s : Concurrent α} (h : Sound m s) :
    s.held m = s.memory.queue.contents.length := by
  obtain ⟨pending, horder, hagrees⟩ := h.order
  have hlength := congrArg List.length horder
  have hpending : s.memory.queue.contents.length = pending.length := by
    cases hpresented : s.presented with
    | none =>
      rw [hpresented] at hagrees
      exact congrArg List.length hagrees
    | some x =>
      rw [hpresented] at hagrees
      obtain ⟨y, rest, hcontents, rfl⟩ := hagrees
      rw [hcontents]
      rfl
  rw [List.length_append, List.length_append] at hlength
  rw [Concurrent.held, hpending]
  omega

theorem Sound.hasSpace_iff {m : Memory α} {s : Concurrent α} (h : Sound m s) :
    s.memory.queue.hasSpace = true ↔ s.held m + 1 < 2 ^ m.exponent := by
  rw [hasSpace_contents, h.held]
  show _ + 1 < 2 ^ s.memory.exponent ↔ _
  rw [h.size]

theorem Sound.hasElement_iff {m : Memory α} {s : Concurrent α} (h : Sound m s) :
    s.memory.queue.hasElement = true ↔ s.held m ≠ 0 := by
  rw [hasElement_contents, h.held, ne_eq, ne_eq, List.length_eq_zero_iff]

/-- At the start and after any run at most all slots but one are in use. -/
theorem Sound.held_lt {m : Memory α} {s : Concurrent α} (h : Sound m s) :
    s.held m < 2 ^ m.exponent := by
  have hlt := s.memory.queue.count_lt
  rw [h.held, contents_length, ← h.size]
  exact hlt

/-! ### Aborted calls -/

/-- The slot that the mover of `enqueue` works on. -/
def enqueueSlot (s : Concurrent α) : Option ℕ :=
  match s.producer with
  | .moving head => some (s.memory.slotIndex head)
  | _ => none

/-- The slot that the mover of `dequeue` works on. -/
def dequeueSlot (s : Concurrent α) : Option ℕ :=
  match s.consumer with
  | .moving _ index => some (s.memory.slotIndex index)
  | _ => none

theorem Sound.enqueueSlot {m : Memory α} {s : Concurrent α} (h : Sound m s) {i : ℕ}
    (hi : s.enqueueSlot = some i) : i = s.memory.head.toNat % 2 ^ m.exponent := by
  have hproducer := h.producer
  cases hp : s.producer with
  | moving head =>
    rw [hp] at hproducer
    obtain ⟨rfl, _⟩ := hproducer
    simp only [Concurrent.enqueueSlot, hp, Option.some.injEq] at hi
    rw [← hi, ← h.size]
    exact s.memory.and_mask s.memory.head
  | idle => simp [Concurrent.enqueueSlot, hp] at hi
  | loaded head => simp [Concurrent.enqueueSlot, hp] at hi
  | overflow => simp [Concurrent.enqueueSlot, hp] at hi
  | storing head => simp [Concurrent.enqueueSlot, hp] at hi

theorem Sound.dequeueSlot {m : Memory α} {s : Concurrent α} (h : Sound m s) {i : ℕ}
    (hi : s.dequeueSlot = some i) :
    i = s.memory.tail.toNat % 2 ^ m.exponent ∧ s.memory.queue.hasElement = true := by
  have hconsumer := h.consumer
  cases hc : s.consumer with
  | moving tail index =>
    rw [hc] at hconsumer
    obtain ⟨rfl, rfl, helement, _⟩ := hconsumer
    simp only [Concurrent.dequeueSlot, hc, Option.some.injEq] at hi
    rw [← hi, ← h.size]
    exact ⟨s.memory.and_mask s.memory.tail, helement⟩
  | idle => simp [Concurrent.dequeueSlot, hc] at hi
  | loaded tail => simp [Concurrent.dequeueSlot, hc] at hi
  | checked tail => simp [Concurrent.dequeueSlot, hc] at hi
  | underflow => simp [Concurrent.dequeueSlot, hc] at hi
  | storing tail => simp [Concurrent.dequeueSlot, hc] at hi

theorem stepConsumer_producer (s : Concurrent α) (c : Consumer) (access : Access α) :
    (s.stepConsumer c access).producer = s.producer := by
  cases c <;> cases access <;> rfl

theorem stepProducer_consumer (s : Concurrent α) (p : Producer) (access : Access α) :
    (s.stepProducer p access).consumer = s.consumer := by
  cases p <;> cases access <;> rfl

/-- An overflow is found at the load of the tail, when all slots but one are in use. -/
theorem Sound.overflow_iff {m : Memory α} {s : Concurrent α} (h : Sound m s) {access : Access α}
    (henabled : s.enabled access) (hbefore : s.producer ≠ .overflow) :
    (s.step access).producer = .overflow ↔
      access = .enqueueTail ∧ s.held m = 2 ^ m.exponent - 1 := by
  have hproducer := h.producer
  have hfull := h.hasSpace_iff
  have hlt := h.held_lt
  rw [step]
  cases access with
  | enqueueTail =>
    obtain ⟨head, hloaded⟩ := henabled
    rw [hloaded] at hproducer
    obtain rfl : head = s.memory.head := hproducer
    rw [Memory.hasSpace_queue] at hfull
    simp only [isProducer, if_true, hloaded, stepProducer]
    split
    · rename_i hspace
      have hroom := hfull.mp hspace
      simp only [reduceCtorEq, true_and, false_iff]
      omega
    · rename_i hspace
      have hroom : ¬ s.held m + 1 < 2 ^ m.exponent := fun hr => hspace (hfull.mpr hr)
      simp only [true_and, true_iff]
      omega
  | enqueueHead =>
    have hidle : s.producer = .idle := henabled
    simp [isProducer, hidle, stepProducer]
  | enqueueWrite x =>
    obtain ⟨head, hmoving⟩ := henabled
    simp [isProducer, hmoving, stepProducer]
  | enqueueReturn advance =>
    obtain ⟨head, hmoving⟩ := henabled
    cases advance <;> simp [isProducer, hmoving, stepProducer]
  | enqueueStore =>
    obtain ⟨head, hstoring⟩ := henabled
    simp [isProducer, hstoring, stepProducer]
  | overflowHandled => exact absurd henabled hbefore
  | dequeueTail => simp [isProducer, stepConsumer_producer, hbefore]
  | dequeueHead => simp [isProducer, stepConsumer_producer, hbefore]
  | dequeueIndex => simp [isProducer, stepConsumer_producer, hbefore]
  | dequeueWrite x => simp [isProducer, stepConsumer_producer, hbefore]
  | dequeueReturn advance => simp [isProducer, stepConsumer_producer, hbefore]
  | dequeueStore => simp [isProducer, stepConsumer_producer, hbefore]
  | underflowHandled => simp [isProducer, stepConsumer_producer, hbefore]

/-- An underflow is found at the load of the head, when no slot is in use. -/
theorem Sound.underflow_iff {m : Memory α} {s : Concurrent α} (h : Sound m s) {access : Access α}
    (henabled : s.enabled access) (hbefore : s.consumer ≠ .underflow) :
    (s.step access).consumer = .underflow ↔ access = .dequeueHead ∧ s.held m = 0 := by
  have hconsumer := h.consumer
  have hempty := h.hasElement_iff
  rw [step]
  cases access with
  | dequeueHead =>
    obtain ⟨tail, hloaded⟩ := henabled
    rw [hloaded] at hconsumer
    obtain rfl : tail = s.memory.tail := hconsumer
    rw [Memory.hasElement_queue] at hempty
    simp only [isProducer, Bool.false_eq_true, if_false, hloaded, stepConsumer]
    split
    · rename_i helement
      simp [hempty.mp helement]
    · rename_i helement
      have hnone : ¬ s.held m ≠ 0 := fun hr => helement (hempty.mpr hr)
      simp only [true_and, true_iff]
      omega
  | dequeueTail =>
    have hidle : s.consumer = .idle := henabled
    simp [isProducer, hidle, stepConsumer]
  | dequeueIndex =>
    obtain ⟨tail, hchecked⟩ := henabled
    simp [isProducer, hchecked, stepConsumer]
  | dequeueWrite x =>
    obtain ⟨tail, index, hmoving⟩ := henabled
    simp [isProducer, hmoving, stepConsumer]
  | dequeueReturn advance =>
    obtain ⟨tail, index, hmoving⟩ := henabled
    cases advance <;> simp [isProducer, hmoving, stepConsumer]
  | dequeueStore =>
    obtain ⟨tail, hstoring⟩ := henabled
    simp [isProducer, hstoring, stepConsumer]
  | underflowHandled => exact absurd henabled hbefore
  | enqueueHead => simp [isProducer, stepProducer_consumer, hbefore]
  | enqueueTail => simp [isProducer, stepProducer_consumer, hbefore]
  | enqueueWrite x => simp [isProducer, stepProducer_consumer, hbefore]
  | enqueueReturn advance => simp [isProducer, stepProducer_consumer, hbefore]
  | enqueueStore => simp [isProducer, stepProducer_consumer, hbefore]
  | overflowHandled => simp [isProducer, stepProducer_consumer, hbefore]

/-- Until the producer commits, its next slot is the one after the elements, and there is one. -/
structure SlotOffered (m : Memory α) (head : BitVec 64) (s : Concurrent α) : Prop where
  sound : Sound m s
  head : s.memory.head = head
  space : s.memory.queue.hasSpace = true
  noOverflow : s.producer ≠ .overflow

theorem slotOffered_step {m : Memory α} {head : BitVec 64} (s : Concurrent α) (access : Access α)
    (h : SlotOffered m head s) (henabled : s.enabled access ∧ access ≠ .enqueueStore) :
    SlotOffered m head (s.step access) := by
  have hmemory : (s.step access).memory.head = head ∧
      (s.step access).memory.queue.hasSpace = true := by
    rcases step_memory h.sound henabled.1 with hm | ⟨i, x, hm⟩ | ⟨hstore, _⟩ | ⟨_, he, hm⟩
    · rw [hm]
      exact ⟨h.head, h.space⟩
    · rw [hm]
      exact ⟨h.head, h.space⟩
    · exact absurd hstore henabled.2
    · rw [hm]
      exact ⟨h.head, s.memory.hasSpace_storeTail he h.space⟩
  refine ⟨sound_step s access h.sound henabled.1, hmemory.1, hmemory.2, ?_⟩
  intro hoverflow
  have hheld := ((h.sound.overflow_iff henabled.1 h.noOverflow).mp hoverflow).2
  have hspace := h.sound.hasSpace_iff.mp h.space
  omega

/-- Until the consumer commits, its next slot is that of the oldest element, and there is one. -/
structure ElementOffered (m : Memory α) (tail : BitVec 64) (s : Concurrent α) : Prop where
  sound : Sound m s
  tail : s.memory.tail = tail
  element : s.memory.queue.hasElement = true
  noUnderflow : s.consumer ≠ .underflow

theorem elementOffered_step {m : Memory α} {tail : BitVec 64} (s : Concurrent α)
    (access : Access α) (h : ElementOffered m tail s)
    (henabled : s.enabled access ∧ access ≠ .dequeueStore) :
    ElementOffered m tail (s.step access) := by
  have hmemory : (s.step access).memory.tail = tail ∧
      (s.step access).memory.queue.hasElement = true := by
    rcases step_memory h.sound henabled.1 with hm | ⟨i, x, hm⟩ | ⟨_, hs, hm⟩ | ⟨hstore, _⟩
    · rw [hm]
      exact ⟨h.tail, h.element⟩
    · rw [hm]
      exact ⟨h.tail, h.element⟩
    · rw [hm]
      exact ⟨h.tail, s.memory.hasElement_storeHead hs⟩
    · exact absurd hstore henabled.2
  refine ⟨sound_step s access h.sound henabled.1, hmemory.1, hmemory.2, ?_⟩
  intro hunderflow
  have hheld := ((h.sound.underflow_iff henabled.1 h.noUnderflow).mp hunderflow).2
  exact h.sound.hasElement_iff.mp h.element hheld

/-- What a bounded queue owes to its two threads, in a state of a run from `m`. -/
structure BoundedFIFO (m : Memory α) (s : Concurrent α) : Prop where
  /-- The two movers never work on the same slot. -/
  exclusive : ∀ i j, s.enqueueSlot = some i → s.dequeueSlot = some j → i ≠ j
  /-- The commits of `dequeue` are a prefix of those of `enqueue`. -/
  order : s.dequeued <+: m.queue.contents ++ s.enqueued
  capacity : s.held m ≤ 2 ^ m.exponent - 1
  overflow : ∀ access, s.enabled access → s.producer ≠ .overflow →
    ((s.step access).producer = .overflow ↔
      access = .enqueueTail ∧ s.held m = 2 ^ m.exponent - 1)
  underflow : ∀ access, s.enabled access → s.consumer ≠ .underflow →
    ((s.step access).consumer = .underflow ↔ access = .dequeueHead ∧ s.held m = 0)
  /-- What the mover of `enqueue` writes is not in the queue before it is committed. -/
  uncommitted : ∀ x, s.enabled (.enqueueWrite x) →
    (s.step (.enqueueWrite x)).memory.queue.contents = s.memory.queue.contents
  /-- After an aborted `enqueue` the next call gets the same slot, whatever happens between. -/
  enqueueAborted : s.enabled (.enqueueReturn false) →
    (s.step (.enqueueReturn false)).memory = s.memory ∧
      ∀ run, system.Admits (s.step (.enqueueReturn false)) run → .enqueueStore ∉ run →
        (system.exec (s.step (.enqueueReturn false)) run).producer ≠ .overflow ∧
          ∀ i, (system.exec (s.step (.enqueueReturn false)) run).enqueueSlot = some i →
            s.enqueueSlot = some i
  dequeueAborted : s.enabled (.dequeueReturn false) →
    (s.step (.dequeueReturn false)).memory = s.memory ∧
      ∀ run, system.Admits (s.step (.dequeueReturn false)) run → .dequeueStore ∉ run →
        (system.exec (s.step (.dequeueReturn false)) run).consumer ≠ .underflow ∧
          ∀ i, (system.exec (s.step (.dequeueReturn false)) run).dequeueSlot = some i →
            s.dequeueSlot = some i

/-- A run without an access is a run of the system that does not allow it. -/
theorem admits_without {banned : Access α} {run : List (Access α)} {s : Concurrent α}
    (hrun : system.Admits s run) (hnot : banned ∉ run) :
    (system.restrict fun _ access => access ≠ banned).Admits s run := by
  induction run generalizing s with
  | nil => trivial
  | cons access run ih =>
    rw [List.mem_cons, not_or] at hnot
    exact ⟨⟨hrun.1, fun heq => hnot.1 heq.symm⟩, ih hrun.2 hnot.2⟩

theorem Sound.enqueueAborted {m : Memory α} {s : Concurrent α} (h : Sound m s)
    (henabled : s.enabled (.enqueueReturn false)) {run : List (Access α)}
    (hrun : system.Admits (s.step (.enqueueReturn false)) run) (hnot : .enqueueStore ∉ run) :
    (system.exec (s.step (.enqueueReturn false)) run).producer ≠ .overflow ∧
      ∀ i, (system.exec (s.step (.enqueueReturn false)) run).enqueueSlot = some i →
        s.enqueueSlot = some i := by
  obtain ⟨head, hmoving⟩ := henabled
  have hproducer := h.producer
  rw [hmoving] at hproducer
  obtain ⟨rfl, hspace⟩ := hproducer
  have hoffered : SlotOffered m s.memory.head s :=
    ⟨h, rfl, hspace, by rw [hmoving]; exact Producer.noConfusion⟩
  have hreturned := slotOffered_step s (.enqueueReturn false) hoffered
    ⟨⟨s.memory.head, hmoving⟩, by simp⟩
  have hend := (system.restrict fun _ access => access ≠ Access.enqueueStore).exec_invariant
    (SlotOffered m s.memory.head) slotOffered_step run _ hreturned (admits_without hrun hnot)
  rw [GuardedExecution.System.restrict_exec] at hend
  refine ⟨hend.noOverflow, ?_⟩
  intro i hi
  rw [hend.sound.enqueueSlot hi, hend.head, ← h.size, ← s.memory.and_mask]
  simp only [Concurrent.enqueueSlot, hmoving]
  rfl

theorem Sound.dequeueAborted {m : Memory α} {s : Concurrent α} (h : Sound m s)
    (henabled : s.enabled (.dequeueReturn false)) {run : List (Access α)}
    (hrun : system.Admits (s.step (.dequeueReturn false)) run) (hnot : .dequeueStore ∉ run) :
    (system.exec (s.step (.dequeueReturn false)) run).consumer ≠ .underflow ∧
      ∀ i, (system.exec (s.step (.dequeueReturn false)) run).dequeueSlot = some i →
        s.dequeueSlot = some i := by
  obtain ⟨tail, index, hmoving⟩ := henabled
  have hconsumer := h.consumer
  rw [hmoving] at hconsumer
  obtain ⟨rfl, rfl, helement, _⟩ := hconsumer
  have hoffered : ElementOffered m s.memory.tail s :=
    ⟨h, rfl, helement, by rw [hmoving]; exact Consumer.noConfusion⟩
  have hreturned := elementOffered_step s (.dequeueReturn false) hoffered
    ⟨⟨_, _, hmoving⟩, by simp⟩
  have hend := (system.restrict fun _ access => access ≠ Access.dequeueStore).exec_invariant
    (ElementOffered m s.memory.tail) elementOffered_step run _ hreturned
    (admits_without hrun hnot)
  rw [GuardedExecution.System.restrict_exec] at hend
  refine ⟨hend.noUnderflow, ?_⟩
  intro i hi
  rw [(hend.sound.dequeueSlot hi).1, hend.tail, ← h.size, ← s.memory.and_mask]
  simp only [Concurrent.dequeueSlot, hmoving]
  rfl

theorem Sound.exclusive {m : Memory α} {s : Concurrent α} (h : Sound m s) {i j : ℕ}
    (hi : s.enqueueSlot = some i) (hj : s.dequeueSlot = some j) : i ≠ j := by
  obtain ⟨hj, helement⟩ := h.dequeueSlot hj
  have hdifferent := s.memory.slotIndex_ne helement
  rw [h.enqueueSlot hi, hj, ← h.size, ← Memory.and_mask, ← Memory.and_mask]
  exact fun heq => hdifferent (Fin.ext heq)

/-- **The queue is a bounded FIFO for its two threads**: for every power of two, from any pair of
counters and after any interleaving of the accesses. -/
theorem bounded_fifo (m : Memory α) (run : List (Access α)) (hrun : system.Admits (start m) run) :
    BoundedFIFO m (system.exec (start m) run) := by
  have h := sound_exec m run hrun
  generalize system.exec (start m) run = s at h
  refine ⟨fun i j => h.exclusive, ?_, Nat.le_sub_one_of_lt h.held_lt, fun access => h.overflow_iff,
    fun access => h.underflow_iff, ?_, ?_, ?_⟩
  · obtain ⟨pending, horder, _⟩ := h.order
    exact ⟨pending, horder.symm⟩
  · intro x henabled
    obtain ⟨head, hmoving⟩ := henabled
    have hproducer := h.producer
    rw [hmoving] at hproducer
    obtain ⟨rfl, _⟩ := hproducer
    simp only [step, isProducer, if_true, hmoving, stepProducer]
    exact s.memory.contents_write_head x
  · intro henabled
    refine ⟨?_, fun run => h.enqueueAborted henabled⟩
    obtain ⟨head, hmoving⟩ := henabled
    simp [step, isProducer, hmoving, stepProducer]
  · intro henabled
    refine ⟨?_, fun run => h.dequeueAborted henabled⟩
    obtain ⟨tail, index, hmoving⟩ := henabled
    simp [step, isProducer, hmoving, stepConsumer]

/-- Two slots, with both counters at the last value before they wrap. -/
def wrapping : Memory ℕ where
  exponent := 1
  exponent_lt := by decide
  slots := fun _ => 0
  head := BitVec.allOnes 64
  tail := BitVec.allOnes 64

/-- The consumer has loaded its counter before the producer commits. -/
def handover : List (Access ℕ) :=
  [.enqueueHead, .dequeueTail, .enqueueTail, .enqueueWrite 7, .enqueueReturn true, .enqueueStore,
    .dequeueHead, .dequeueIndex, .dequeueReturn true, .dequeueStore]

theorem bounded_fifo_handover : (system.exec (start wrapping) handover).dequeued = [7] ∧
    BoundedFIFO wrapping (system.exec (start wrapping) handover) :=
  ⟨by decide, bounded_fifo wrapping handover
    ⟨rfl, rfl, ⟨_, rfl⟩, ⟨_, rfl⟩, ⟨_, rfl⟩, ⟨_, rfl⟩, ⟨_, rfl⟩, ⟨_, rfl⟩, ⟨_, _, rfl⟩, ⟨_, rfl⟩,
      trivial⟩⟩

/-! ### One thread alone -/

/-- The accesses of a call of `enqueue` whose mover leaves `x` in the slot. -/
def enqueueCall (x : α) (advance : Bool) : List (Access α) :=
  [.enqueueHead, .enqueueTail, .enqueueWrite x, .enqueueReturn advance] ++
    if advance then [.enqueueStore] else []

/-- The accesses of a call of `dequeue` whose mover leaves `x` in the slot. -/
def dequeueCall (x : α) (advance : Bool) : List (Access α) :=
  [.dequeueTail, .dequeueHead, .dequeueIndex, .dequeueWrite x, .dequeueReturn advance] ++
    if advance then [.dequeueStore] else []

/-- Without accesses of the consumer a call of `enqueue` is the one step of the queue. -/
theorem enqueue_alone (s : Concurrent α) (x : α) (advance : Bool) (hidle : s.producer = .idle)
    (hspace : s.memory.queue.hasSpace = true) :
    (system.exec s (enqueueCall x advance)).memory.queue =
      (s.memory.queue.enqueue (fun _ _ => (advance, x, ())) id ()).1 := by
  obtain ⟨memory, producer, consumer, enqueued, dequeued, presented⟩ := s
  obtain rfl : producer = .idle := hidle
  have hwritten : (memory.setSlot (memory.slotIndex memory.head) x).queue.hasSpace = true := hspace
  have hloaded : system.exec ⟨memory, .idle, consumer, enqueued, dequeued, presented⟩
      [.enqueueHead, .enqueueTail] =
        ⟨memory, .moving memory.head, consumer, enqueued, dequeued, presented⟩ := by
    show Concurrent.mk _ (if memory.hasSpace memory.head then _ else _) _ _ _ _ = _
    rw [if_pos ((Memory.hasSpace_queue _).symm.trans hspace)]
    rfl
  have hsplit : enqueueCall x advance = [.enqueueHead, .enqueueTail] ++
      ([.enqueueWrite x, .enqueueReturn advance] ++ if advance then [.enqueueStore] else []) := rfl
  rw [RealTimeQueue.enqueue, dif_pos hspace, hsplit, GuardedExecution.System.exec_append, hloaded]
  show _ = if advance then ((memory.queue.setSlot _ x).advanceHead _) else memory.queue.setSlot _ x
  simp only [Memory.slotIndex_head]
  cases advance with
  | false => rfl
  | true => exact Memory.queue_storeHead _ hwritten

theorem dequeue_alone (s : Concurrent α) (x : α) (advance : Bool) (hidle : s.consumer = .idle)
    (helement : s.memory.queue.hasElement = true) :
    (system.exec s (dequeueCall x advance)).memory.queue =
      (s.memory.queue.dequeue (fun _ _ => (advance, x, ())) id ()).1 := by
  obtain ⟨memory, producer, consumer, enqueued, dequeued, presented⟩ := s
  obtain rfl : consumer = .idle := hidle
  have hwritten : (memory.setSlot (memory.slotIndex memory.tail) x).queue.hasElement = true :=
    helement
  have hloaded : system.exec ⟨memory, producer, .idle, enqueued, dequeued, presented⟩
      [.dequeueTail, .dequeueHead] =
        ⟨memory, producer, .checked memory.tail, enqueued, dequeued, presented⟩ := by
    show Concurrent.mk _ _ (if memory.hasElement memory.tail then _ else _) _ _ _ = _
    rw [if_pos ((Memory.hasElement_queue _).symm.trans helement)]
    rfl
  have hsplit : dequeueCall x advance = [.dequeueTail, .dequeueHead] ++
      ([.dequeueIndex, .dequeueWrite x, .dequeueReturn advance] ++
        if advance then [.dequeueStore] else []) := rfl
  rw [RealTimeQueue.dequeue, dif_pos helement, hsplit, GuardedExecution.System.exec_append, hloaded]
  cases advance with
  | false => rfl
  | true => exact Memory.queue_storeTail _ hwritten

end Concurrent

end RealTimeQueue

end SlimStreamer
