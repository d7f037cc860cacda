import Mathlib.Data.List.Chain
import SlimStreamer.Alsa.Capture
import SlimStreamer.Lib.SerialBlocks
import SlimStreamer.Multiplexor

/-!
# Streams are delivered one at a time

A multiplexor over sources: the producer threads fill the queues, the scheduler takes chunks out
and offers them to a consumer, which accepts or refuses.

* `SourceStep` — everything the delivery of a chunk can do to a source;
* `Serialised` — the invariant;
* `streams_serialised` — what the consumer accepts are whole streams, one after the other.
-/

namespace SlimStreamer

open GuardedExecution SerialBlocks

namespace Source

/-! ### The delivery of a chunk -/

/-- **Everything the delivery of a chunk can do to a source.** -/
inductive SourceStep (consumer : Chunk → Bool) (s : Source) : Delivery → Source → Prop where
  /-- There is no chunk. -/
  | idle (result : Option ℕ) (contents : s.queue.contents = [])
    (stays : result = none → s.consuming = false) :
    SourceStep consumer s ⟨result, s.consuming, none⟩ s
  /-- The consumer refuses. -/
  | refused (chunk : Chunk) (rest : List Chunk) (s' : Source)
    (contents : s.queue.contents = chunk :: rest) (answer : consumer chunk = false)
    (consuming : s'.consuming = true) (remaining : s'.queue.contents = chunk :: rest)
    (parameters : s'.parameters = s.parameters) (capturing : s'.capturing = s.capturing) :
    SourceStep consumer s ⟨some 10, true, some chunk⟩ s'
  /-- The consumer accepts. -/
  | accepted (chunk : Chunk) (rest : List Chunk) (s' : Source) (result : Option ℕ)
    (contents : s.queue.contents = chunk :: rest) (answer : consumer chunk = true)
    (consuming : s'.consuming = !chunk.endOfStream) (remaining : s'.queue.contents = rest)
    (stays : result = none → s'.consuming = false)
    (parameters : s'.parameters = s.parameters) (capturing : s'.capturing = s.capturing) :
    SourceStep consumer s ⟨result, s'.consuming, some chunk⟩ s'

theorem feed_refused {consumer : Chunk → Bool} {chunk : Chunk} (h : consumer chunk = false)
    (d : Delivery) : feed consumer chunk d = (false, chunk, ⟨some 10, true, some chunk⟩) := by
  simp [feed, h]

theorem feed_accepted {consumer : Chunk → Bool} {chunk : Chunk} (h : consumer chunk = true)
    (d : Delivery) :
    feed consumer chunk d = (true, chunk,
      ⟨if chunk.endOfStream then d.result else some 0, !chunk.endOfStream, some chunk⟩) := by
  cases hend : chunk.endOfStream <;> simp [feed, h, hend]

theorem producer_step (consumer : Chunk → Bool) (s : Source) :
    SourceStep consumer s (s.producer consumer).1 (s.producer consumer).2 := by
  cases hcontents : s.queue.contents with
  | nil =>
    have hanswer : underflow ⟨none, s.consuming, none⟩ =
        ⟨if s.consuming then some 10 else none, s.consuming, none⟩ := by
      cases s.consuming <;> rfl
    have hidle : s.producer consumer =
        (⟨if s.consuming then some 10 else none, s.consuming, none⟩, s) := by
      rw [producer, s.queue.dequeue_nil (feed consumer) underflow _ hcontents, hanswer]
    rw [hidle]
    refine .idle _ hcontents ?_
    intro hnone
    cases hconsuming : s.consuming with
    | true => simp [hconsuming] at hnone
    | false => rfl
  | cons chunk rest =>
    obtain ⟨hdelivery, hremaining⟩ := s.queue.dequeue_cons (feed consumer) underflow
      ⟨none, s.consuming, none⟩ hcontents
    obtain ⟨d, hd⟩ : ∃ d, (s.producer consumer).1 = d := ⟨_, rfl⟩
    obtain ⟨s', hs'⟩ : ∃ s', (s.producer consumer).2 = s' := ⟨_, rfl⟩
    have hconsuming : s'.consuming = d.consuming := by
      rw [← hs', ← hd]
      rfl
    have hparameters : s'.parameters = s.parameters := by rw [← hs']; rfl
    have hcapturing : s'.capturing = s.capturing := by rw [← hs']; rfl
    have hqueue : s'.queue.contents =
        if (feed consumer chunk ⟨none, s.consuming, none⟩).1 then rest
        else (feed consumer chunk ⟨none, s.consuming, none⟩).2.1 :: rest := by
      rw [← hs']
      exact hremaining
    have hanswer : d = (feed consumer chunk ⟨none, s.consuming, none⟩).2.2 := by
      rw [← hd]
      exact hdelivery
    rw [hd, hs']
    cases h : consumer chunk with
    | false =>
      rw [feed_refused h] at hqueue hanswer
      subst hanswer
      exact .refused chunk rest s' hcontents h hconsuming hqueue hparameters hcapturing
    | true =>
      rw [feed_accepted h] at hqueue hanswer
      subst hanswer
      have hstep := SourceStep.accepted chunk rest s' (if chunk.endOfStream then none else some 0)
        hcontents h hconsuming hqueue (by
          intro hnone
          cases hend : chunk.endOfStream with
          | true =>
            rw [hconsuming]
            simp [hend]
          | false => simp [hend] at hnone) hparameters hcapturing
      rw [hconsuming] at hstep
      exact hstep

/-! ### The order of the chunks of a source -/

/-- A chunk with frames of a stream, or the one that ends it. -/
def IsStreamChunk (chunk : Chunk) : Prop :=
  chunk.endOfStream = true ∧ chunk.frames = 0 ∨ chunk.endOfStream = false ∧ 1 ≤ chunk.frames

/-- What was accepted of a source is what it enqueued, up to what is in the queue, and it
enqueues whole streams. -/
structure Ordered (i : ℕ) (entries : List (ℕ × Chunk)) (s : Source) : Prop where
  valid : s.parameters.Valid
  allocated : s.Allocated
  order : fromSource i entries ++ s.queue.contents = s.capturing.enqueued
  blocks : track Chunk.endOfStream none (s.capturing.enqueued.map (Prod.mk i)) =
    some (if s.capturing.isBeginningOfStream then none else some i)
  chunks : ∀ chunk ∈ s.capturing.enqueued, IsStreamChunk chunk

theorem create_ordered {p : Alsa.Parameters} (hp : p.Valid) (now : Timestamp) (i : ℕ) :
    Ordered i [] (create p now) where
  valid := hp
  allocated := fun _ => List.length_replicate
  order := RealTimeQueue.contents_create _ _ _
  blocks := rfl
  chunks := List.forall_mem_nil _

/-- More chunks at the end of the queue. -/
structure Grows (s s' : Source) : Prop where
  consuming : s'.consuming = s.consuming
  chunks : ∃ more, s'.queue.contents = s.queue.contents ++ more ∧
    s'.capturing.enqueued = s.capturing.enqueued ++ more

theorem Grows.refl (s : Source) : Grows s s :=
  ⟨rfl, [], (List.append_nil _).symm, (List.append_nil _).symm⟩

variable {i : ℕ} {entries : List (ℕ × Chunk)} {s s' : Source}

/-- An enqueued chunk. -/
theorem Ordered.enqueues (hs : Ordered i entries s) {chunk : Chunk} (h : Enqueues s s' chunk)
    (hparameters : s'.parameters = s.parameters) (hallocated : s'.Allocated)
    (hchunk : IsStreamChunk chunk)
    (hopen : advance Chunk.endOfStream
      (if s.capturing.isBeginningOfStream then none else some i) (i, chunk) =
        some (if s'.capturing.isBeginningOfStream then none else some i)) :
    Ordered i entries s' where
  valid := by
    rw [hparameters]
    exact hs.valid
  allocated := hallocated
  order := by rw [h.contents, h.enqueued, ← List.append_assoc, hs.order]
  blocks := by
    rw [h.enqueued, List.map_append, List.map_singleton, track_concat, hs.blocks, Option.bind_some,
      hopen]
  chunks := by
    rw [h.enqueued]
    intro c hc
    rcases List.mem_append.mp hc with hc | hc
    · exact hs.chunks c hc
    · rw [List.mem_singleton.mp hc]
      exact hchunk

/-- **A read keeps the order.** -/
theorem Ordered.framesStep (hs : Ordered i entries s) {frames : List (List UInt8)}
    (h : FramesStep frames s s') (hparameters : s'.parameters = s.parameters)
    (hallocated : s'.Allocated) : Ordered i entries s' := by
  cases h with
  | idle kept outside result =>
    subst result
    exact ⟨hs.valid, hs.allocated, hs.order, hs.blocks, hs.chunks⟩
  | endOfStream chunk kept inside enqueues isEnd producing outside capturedFrames =>
    refine hs.enqueues enqueues hparameters hallocated (Or.inl isEnd) ?_
    simp [inside, outside, advance, isEnd.1]
  | data chunk kept enqueues holds producing inside capturedFrames total =>
    have hframes : 1 ≤ chunk.frames := by
      rw [holds.frames]
      exact List.length_pos_of_ne_nil kept
    refine hs.enqueues enqueues hparameters hallocated (Or.inr ⟨holds.endOfStream, hframes⟩) ?_
    cases s.capturing.isBeginningOfStream <;> simp [inside, advance, holds.endOfStream]
  | overflow contents enqueued overflows isBeginningOfStream =>
    refine ⟨?_, hallocated, ?_, ?_, ?_⟩
    · rw [hparameters]
      exact hs.valid
    · rw [contents, enqueued, hs.order]
    · rw [enqueued, isBeginningOfStream, hs.blocks]
    · rw [enqueued]
      exact hs.chunks

theorem FramesStep.grows {frames : List (List UInt8)} (h : FramesStep frames s s')
    (hconsuming : s'.consuming = s.consuming) : Grows s s' := by
  refine ⟨hconsuming, ?_⟩
  cases h with
  | idle kept outside result =>
    subst result
    exact ⟨[], (List.append_nil _).symm, (List.append_nil _).symm⟩
  | endOfStream chunk kept inside enqueues => exact ⟨[chunk], enqueues.contents, enqueues.enqueued⟩
  | data chunk kept enqueues => exact ⟨[chunk], enqueues.contents, enqueues.enqueued⟩
  | overflow contents enqueued =>
    refine ⟨[], ?_, ?_⟩
    · rw [contents, List.append_nil]
    · rw [enqueued, List.append_nil]

theorem onFrames_consuming (timestamp : Timestamp) (srcBuffer : List UInt8) (result : ℕ)
    (s : Source) : (s.onFrames timestamp srcBuffer result).consuming = s.consuming := by
  rw [onFrames]
  split
  · rfl
  · split <;> rfl

/-- A chunk that stays in the queue. -/
theorem Ordered.keeps (hs : Ordered i entries s) (hallocated : s'.Allocated)
    (hparameters : s'.parameters = s.parameters) (hcapturing : s'.capturing = s.capturing)
    (hcontents : s'.queue.contents = s.queue.contents) : Ordered i entries s' := by
  refine ⟨?_, hallocated, ?_, ?_, ?_⟩
  · rw [hparameters]
    exact hs.valid
  · rw [hcontents, hcapturing, hs.order]
  · rw [hcapturing, hs.blocks]
  · rw [hcapturing]
    exact hs.chunks

/-- A chunk that leaves the queue. -/
theorem Ordered.accepts (hs : Ordered i entries s) (hallocated : s'.Allocated)
    (hparameters : s'.parameters = s.parameters) (hcapturing : s'.capturing = s.capturing)
    {chunk : Chunk} {rest : List Chunk} (hcontents : s.queue.contents = chunk :: rest)
    (hremaining : s'.queue.contents = rest) : Ordered i (entries ++ [(i, chunk)]) s' := by
  refine ⟨?_, hallocated, ?_, ?_, ?_⟩
  · rw [hparameters]
    exact hs.valid
  · rw [fromSource_concat_self, hremaining, hcapturing, ← hs.order, hcontents, List.append_assoc]
    rfl
  · rw [hcapturing, hs.blocks]
  · rw [hcapturing]
    exact hs.chunks

theorem Ordered.mem_enqueued (hs : Ordered i entries s) {chunk : Chunk} {rest : List Chunk}
    (hcontents : s.queue.contents = chunk :: rest) : chunk ∈ s.capturing.enqueued := by
  rw [← hs.order, hcontents]
  exact List.mem_append_right _ List.mem_cons_self

/-- **The next chunk of a source fits**: it belongs to the open stream or begins one. -/
theorem Ordered.advance (hs : Ordered i entries s) {chunk : Chunk} {rest : List Chunk}
    (hcontents : s.queue.contents = chunk :: rest) {o : Option ℕ}
    (htrack : track Chunk.endOfStream none entries = some o) (ho : o = none ∨ o = some i) :
    track Chunk.endOfStream none (entries ++ [(i, chunk)]) =
      some (if chunk.endOfStream then none else some i) := by
  have hblocks := hs.blocks
  rw [← hs.order, hcontents, List.map_append, List.map_cons, track_append,
    track_source Chunk.endOfStream htrack i, Option.bind_some, openAt_self ho, track] at hblocks
  obtain ⟨after, hafter, _⟩ := Option.bind_eq_some_iff.mp hblocks
  rw [track_concat, htrack, Option.bind_some, hafter, (advance_some _ hafter).2]

end Source

/-! ### The pipeline -/

/-- A chunk of a source that was offered to the consumer, and its answer. -/
structure Offer where
  source : ℕ
  chunk : Chunk
  accepted : Bool
  deriving DecidableEq, Repr

structure Pipeline where
  multiplexor : Multiplexor Source
  /-- What the consumer was offered so far. -/
  offers : List Offer

namespace Pipeline

def create (sources : List Source) : Pipeline := ⟨Multiplexor.create sources, []⟩

/-- A turn of the producer thread of a source, or a call by the scheduler. -/
inductive Stimulus where
  | read (source : ℕ) (frames : List (List UInt8)) (stale : List UInt8) (timestamp : Timestamp)
  | produceChunk (consumer : Chunk → Bool)

/-- The source with the given index. -/
def source? (x : Pipeline) (i : ℕ) : Option Source := x.multiplexor.producers[i]?

def enabled (x : Pipeline) : Stimulus → Prop
  | .read i frames stale timestamp =>
    ∀ s ∈ x.source? i, s.enabled (.read frames stale timestamp)
  | .produceChunk _ => True

instance (x : Pipeline) : (e : Stimulus) → Decidable (x.enabled e)
  | .read i frames stale timestamp =>
    inferInstanceAs (Decidable (∀ s ∈ x.source? i, s.enabled (.read frames stale timestamp)))
  | .produceChunk _ => instDecidableTrue

/-- What the consumer was offered when a source was asked. -/
def offersOf (consumer : Chunk → Bool) : Option (ℕ × Source.Delivery) → List Offer
  | none => []
  | some (i, d) => d.offered.toList.map fun chunk => ⟨i, chunk, consumer chunk⟩

def onRead (i : ℕ) (frames : List (List UInt8)) (stale : List UInt8) (timestamp : Timestamp)
    (x : Pipeline) : Pipeline where
  multiplexor := x.multiplexor.setProducers
    (x.multiplexor.producers.modify i fun s => s.step (.read frames stale timestamp))
  offers := x.offers

def produceChunk (consumer : Chunk → Bool) (x : Pipeline) : Pipeline :=
  let produced := x.multiplexor.produceChunk (Source.producer consumer) Source.Delivery.result
  { multiplexor := produced.2.2
    offers := x.offers ++ offersOf consumer produced.2.1 }

def step (x : Pipeline) : Stimulus → Pipeline
  | .read i frames stale timestamp => x.onRead i frames stale timestamp
  | .produceChunk consumer => x.produceChunk consumer

def system : System Pipeline Stimulus where
  enabled := enabled
  step := step

instance (x : Pipeline) (e : Stimulus) : Decidable (system.enabled x e) :=
  inferInstanceAs (Decidable (x.enabled e))

/-- What the consumer accepted, and of which source. -/
def accepted (offers : List Offer) : List (ℕ × Chunk) :=
  (offers.filter Offer.accepted).map fun offer => (offer.source, offer.chunk)

/-- A refused chunk is the next one offered. -/
def Redelivers (offer next : Offer) : Prop :=
  offer.accepted = false → next.source = offer.source ∧ next.chunk = offer.chunk

/-! ### The invariant -/

/-- **The invariant of the pipeline.** -/
structure Serialised (x : Pipeline) : Prop where
  ordered : ∀ i s, x.source? i = some s → s.Ordered i (accepted x.offers)
  /-- The source of the open stream is being consumed. -/
  tracked : ∃ o, track Chunk.endOfStream none (accepted x.offers) = some o ∧
    ∀ i, o = some i → ∃ s, x.source? i = some s ∧ s.consuming = true
  current : ∀ i s, x.source? i = some s → s.consuming = true →
    x.multiplexor.currentProducer = some i
  known : ∀ offer ∈ x.offers,
    ∃ s, x.source? offer.source = some s ∧ offer.chunk ∈ s.capturing.enqueued
  redelivered : x.offers.IsChain Redelivers
  pending : ∀ offer, x.offers.getLast? = some offer → offer.accepted = false →
    ∃ s rest, x.source? offer.source = some s ∧ s.consuming = true ∧
      s.queue.contents = offer.chunk :: rest

theorem accepted_concat (offers : List Offer) (offer : Offer) :
    accepted (offers ++ [offer]) =
      accepted offers ++ if offer.accepted then [(offer.source, offer.chunk)] else [] := by
  cases h : offer.accepted <;> simp [accepted, h]

theorem create_serialised {sources : List Source}
    (hsources : ∀ s ∈ sources, ∃ p now, p.Valid ∧ s = Source.create p now) :
    Serialised (create sources) where
  ordered i s hs := by
    obtain ⟨p, now, hp, rfl⟩ := hsources s (List.mem_of_getElem? hs)
    exact Source.create_ordered hp now i
  tracked := ⟨none, rfl, fun i h => absurd h.symm (Option.some_ne_none i)⟩
  current i s hs hconsuming := by
    obtain ⟨p, now, _, rfl⟩ := hsources s (List.mem_of_getElem? hs)
    cases hconsuming
  known := List.forall_mem_nil _
  redelivered := .nil
  pending := fun offer h => absurd h.symm (Option.some_ne_none offer)

/-! ### Reads -/

theorem source?_onRead (i : ℕ) (frames : List (List UInt8)) (stale : List UInt8)
    (timestamp : Timestamp) (x : Pipeline) (j : ℕ) :
    (x.onRead i frames stale timestamp).source? j =
      (x.source? j).map fun s => if i = j then s.step (.read frames stale timestamp) else s :=
  List.getElem?_modify _ _ _ _

/-- What a read does to a source. -/
theorem read_source {i j : ℕ} {entries : List (ℕ × Chunk)} {s : Source}
    (hs : s.Ordered j entries) {frames : List (List UInt8)} {stale : List UInt8}
    {timestamp : Timestamp} (he : i = j → s.enabled (.read frames stale timestamp)) :
    (if i = j then s.step (.read frames stale timestamp) else s).Ordered j entries ∧
      s.Grows (if i = j then s.step (.read frames stale timestamp) else s) := by
  by_cases hij : i = j
  · obtain ⟨hne, hmax, hsizes⟩ := he hij
    obtain ⟨hstep, hallocated⟩ := Source.onFrames_step hs.valid hs.allocated
      (Source.holds_flatten hsizes stale) hmax timestamp
    rw [if_pos hij, Source.step_read hne]
    exact ⟨hs.framesStep hstep (Source.onFrames_parameters _ _ _ s) hallocated,
      hstep.grows (Source.onFrames_consuming _ _ _ s)⟩
  · rw [if_neg hij]
    exact ⟨hs, Source.Grows.refl s⟩

theorem read_serialised {x : Pipeline} (hx : x.Serialised) {i : ℕ} {frames : List (List UInt8)}
    {stale : List UInt8} {timestamp : Timestamp}
    (he : x.enabled (.read i frames stale timestamp)) :
    (x.onRead i frames stale timestamp).Serialised := by
  obtain ⟨o, htrack, hopen⟩ := hx.tracked
  have hread : ∀ j s, x.source? j = some s →
      (if i = j then s.step (.read frames stale timestamp) else s).Ordered j (accepted x.offers) ∧
        s.Grows (if i = j then s.step (.read frames stale timestamp) else s) := by
    intro j s hs
    apply read_source (hx.ordered j s hs)
    rintro rfl
    exact he s hs
  -- every source was there before, and has grown
  have hback : ∀ j s', (x.onRead i frames stale timestamp).source? j = some s' →
      ∃ s, x.source? j = some s ∧ s'.Ordered j (accepted x.offers) ∧ s.Grows s' := by
    intro j s' hs'
    rw [source?_onRead, Option.map_eq_some_iff] at hs'
    obtain ⟨s, hs, rfl⟩ := hs'
    exact ⟨s, hs, hread j s hs⟩
  have hforth : ∀ j s, x.source? j = some s →
      ∃ s', (x.onRead i frames stale timestamp).source? j = some s' ∧ s.Grows s' := by
    intro j s hs
    refine ⟨_, ?_, (hread j s hs).2⟩
    rw [source?_onRead, hs]
    rfl
  refine ⟨?_, ⟨o, htrack, ?_⟩, ?_, ?_, hx.redelivered, ?_⟩
  · intro j s' hs'
    obtain ⟨_, _, hordered, _⟩ := hback j s' hs'
    exact hordered
  · intro j hj
    obtain ⟨s, hs, hconsuming⟩ := hopen j hj
    obtain ⟨s', hs', hgrows⟩ := hforth j s hs
    exact ⟨s', hs', hgrows.consuming.trans hconsuming⟩
  · intro j s' hs' hconsuming
    obtain ⟨s, hs, _, hgrows⟩ := hback j s' hs'
    exact hx.current j s hs (hgrows.consuming.symm.trans hconsuming)
  · intro offer hoffer
    obtain ⟨s, hs, hmem⟩ := hx.known offer hoffer
    obtain ⟨s', hs', hgrows⟩ := hforth _ s hs
    obtain ⟨more, _, henqueued⟩ := hgrows.chunks
    refine ⟨s', hs', ?_⟩
    rw [henqueued]
    exact List.mem_append_left more hmem
  · intro offer hlast hrefused
    obtain ⟨s, rest, hs, hconsuming, hcontents⟩ := hx.pending offer hlast hrefused
    obtain ⟨s', hs', hgrows⟩ := hforth _ s hs
    obtain ⟨more, hmore, _⟩ := hgrows.chunks
    refine ⟨s', rest ++ more, hs', hgrows.consuming.trans hconsuming, ?_⟩
    rw [hmore, hcontents, List.cons_append]

/-! ### Offers -/

/-- Nobody is being consumed. -/
def Unconsumed (x : Pipeline) : Prop := ∀ i s, x.source? i = some s → s.consuming = false

def setMultiplexor (multiplexor : Multiplexor Source) (x : Pipeline) : Pipeline :=
  { x with multiplexor := multiplexor }

/-- Switching is fine when nobody is being consumed. -/
theorem switch_serialised {x : Pipeline} (hx : x.Serialised) (hnone : x.Unconsumed) (n : ℕ) :
    (x.setMultiplexor (x.multiplexor.switchToNextProducer.setEmptySwitches n)).Serialised := by
  refine ⟨hx.ordered, hx.tracked, ?_, hx.known, hx.redelivered, hx.pending⟩
  intro i s hs hconsuming
  rw [hnone i s hs] at hconsuming
  cases hconsuming

theorem setEmptySwitches_serialised {x : Pipeline} (hx : x.Serialised) (n : ℕ) :
    (x.setMultiplexor (x.multiplexor.setEmptySwitches n)).Serialised :=
  ⟨hx.ordered, hx.tracked, hx.current, hx.known, hx.redelivered, hx.pending⟩

/-- Without a current producer nobody is being consumed. -/
theorem Serialised.unconsumed {x : Pipeline} (hx : x.Serialised)
    (h : ∀ i s, x.multiplexor.currentProducer = some i → x.source? i = some s →
      s.consuming = false) : x.Unconsumed := by
  intro i s hs
  cases hconsuming : s.consuming with
  | false => rfl
  | true =>
    rw [h i s (hx.current i s hs hconsuming) hs] at hconsuming
    cases hconsuming

theorem setUp_serialised {x : Pipeline} (hx : x.Serialised) :
    (x.setMultiplexor x.multiplexor.setUp).Serialised := by
  rw [Multiplexor.setUp]
  split
  · exact hx
  · rename_i hnone
    have hunconsumed : x.Unconsumed := by
      apply hx.unconsumed
      intro i s hi
      rw [hi] at hnone
      exact absurd rfl hnone
    exact switch_serialised hx hunconsumed x.multiplexor.emptySwitches

/-- The pipeline once the source with the given index has been asked. -/
def asked (i : ℕ) (s' : Source) (offers : List Offer) (x : Pipeline) : Pipeline where
  multiplexor := x.multiplexor.setProducers (x.multiplexor.producers.set i s')
  offers := x.offers ++ offers

theorem source?_asked_self {x : Pipeline} {i : ℕ} {s : Source} (hs : x.source? i = some s)
    (s' : Source) (offers : List Offer) : (x.asked i s' offers).source? i = some s' := by
  obtain ⟨hi, _⟩ := List.getElem?_eq_some_iff.mp hs
  exact List.getElem?_set_self hi

theorem source?_asked_of_ne {x : Pipeline} {i j : ℕ} (hij : i ≠ j) (s' : Source)
    (offers : List Offer) : (x.asked i s' offers).source? j = x.source? j :=
  List.getElem?_set_ne hij

/-- Nothing was offered, and nothing has changed. -/
theorem asked_idle {x : Pipeline} {i : ℕ} {s : Source} (hs : x.source? i = some s) :
    x.asked i s [] = x := by
  obtain ⟨hi, hget⟩ := List.getElem?_eq_some_iff.mp hs
  obtain ⟨multiplexor, offers⟩ := x
  have hset : multiplexor.producers.set i s = multiplexor.producers := by
    rw [← hget]
    exact List.set_getElem_self hi
  rw [asked, hset, List.append_nil]
  rfl

theorem accepted_asked (x : Pipeline) (i : ℕ) (s' : Source) (chunk : Chunk) (answer : Bool) :
    accepted (x.asked i s' [⟨i, chunk, answer⟩]).offers =
      accepted x.offers ++ if answer then [(i, chunk)] else [] :=
  accepted_concat _ _

/-- The current source offers the first chunk of its queue, which leaves the queue and may end
the stream if it is accepted. -/
structure OfferStep (x : Pipeline) (i : ℕ) (s s' : Source) (chunk : Chunk) (rest : List Chunk)
    (answer : Bool) : Prop where
  serialised : x.Serialised
  current : x.multiplexor.currentProducer = some i
  source : x.source? i = some s
  allocated : s'.Allocated
  parameters : s'.parameters = s.parameters
  capturing : s'.capturing = s.capturing
  contents : s.queue.contents = chunk :: rest
  consuming : s'.consuming = !(answer && chunk.endOfStream)
  remaining : s'.queue.contents = if answer then rest else chunk :: rest

namespace OfferStep

variable {x : Pipeline} {i : ℕ} {s s' : Source} {chunk : Chunk} {rest : List Chunk} {answer : Bool}

/-- Only the current source is being consumed. -/
theorem eq_current (h : OfferStep x i s s' chunk rest answer) {j : ℕ} {t : Source}
    (ht : x.source? j = some t) (hconsuming : t.consuming = true) : i = j :=
  Option.some.inj (h.current.symm.trans (h.serialised.current j t ht hconsuming))

theorem source_self (h : OfferStep x i s s' chunk rest answer) :
    (x.asked i s' [⟨i, chunk, answer⟩]).source? i = some s' :=
  source?_asked_self h.source s' _

/-- What every source keeps: the others are the same, and this one has not captured anything. -/
theorem source_capturing (h : OfferStep x i s s' chunk rest answer) {j : ℕ} {t : Source}
    (ht : x.source? j = some t) :
    ∃ t', (x.asked i s' [⟨i, chunk, answer⟩]).source? j = some t' ∧ t'.capturing = t.capturing := by
  by_cases hij : i = j
  · subst hij
    obtain rfl := Option.some.inj (h.source.symm.trans ht)
    exact ⟨s', h.source_self, h.capturing⟩
  · exact ⟨t, by rw [source?_asked_of_ne hij, ht], rfl⟩

theorem ordered (h : OfferStep x i s s' chunk rest answer) {j : ℕ} {t : Source}
    (ht : (x.asked i s' [⟨i, chunk, answer⟩]).source? j = some t) :
    t.Ordered j (accepted (x.asked i s' [⟨i, chunk, answer⟩]).offers) := by
  have hremaining := h.remaining
  rw [accepted_asked]
  by_cases hij : i = j
  · subst hij
    obtain rfl := Option.some.inj (h.source_self.symm.trans ht)
    have hordered := h.serialised.ordered i s h.source
    cases answer with
    | true =>
      exact hordered.accepts h.allocated h.parameters h.capturing h.contents hremaining
    | false =>
      rw [if_neg (by decide), List.append_nil]
      exact hordered.keeps h.allocated h.parameters h.capturing
        (hremaining.trans h.contents.symm)
  · rw [source?_asked_of_ne hij] at ht
    have hkeep := h.serialised.ordered j t ht
    cases answer with
    | true =>
      refine ⟨hkeep.valid, hkeep.allocated, ?_, hkeep.blocks, hkeep.chunks⟩
      rw [if_pos rfl, fromSource_concat_of_ne hij, hkeep.order]
    | false =>
      rw [if_neg (by decide), List.append_nil]
      exact hkeep

/-- An accepted chunk continues the open stream, which can only be one of the current source. -/
theorem tracked (h : OfferStep x i s s' chunk rest answer) :
    ∃ o, track Chunk.endOfStream none (accepted (x.asked i s' [⟨i, chunk, answer⟩]).offers) =
        some o ∧
      ∀ j, o = some j → ∃ t, (x.asked i s' [⟨i, chunk, answer⟩]).source? j = some t ∧
        t.consuming = true := by
  obtain ⟨o, htrack, hopen⟩ := h.serialised.tracked
  have ho : o = none ∨ o = some i := by
    cases o with
    | none => exact Or.inl rfl
    | some j =>
      obtain ⟨t, ht, hconsuming⟩ := hopen j rfl
      exact Or.inr (by rw [h.eq_current ht hconsuming])
  have hconsuming := h.consuming
  rw [accepted_asked]
  cases answer with
  | true =>
    refine ⟨_, (h.serialised.ordered i s h.source).advance h.contents htrack ho, ?_⟩
    intro j hj
    split at hj
    · cases hj
    · rename_i hdata
      obtain rfl := Option.some.inj hj
      exact ⟨s', h.source_self, by simpa [hconsuming] using hdata⟩
  | false =>
    rw [if_neg (by decide), List.append_nil]
    refine ⟨o, htrack, ?_⟩
    rintro j rfl
    rcases ho with ho | ho
    · cases ho
    · obtain rfl := Option.some.inj ho
      exact ⟨s', h.source_self, hconsuming⟩

theorem current_asked (h : OfferStep x i s s' chunk rest answer) {j : ℕ} {t : Source}
    (ht : (x.asked i s' [⟨i, chunk, answer⟩]).source? j = some t) (hconsuming : t.consuming = true) :
    (x.asked i s' [⟨i, chunk, answer⟩]).multiplexor.currentProducer = some j := by
  by_cases hij : i = j
  · rw [← hij]
    exact h.current
  · rw [source?_asked_of_ne hij] at ht
    exact absurd (h.eq_current ht hconsuming) hij

theorem known (h : OfferStep x i s s' chunk rest answer) {offer : Offer}
    (hoffer : offer ∈ (x.asked i s' [⟨i, chunk, answer⟩]).offers) :
    ∃ t, (x.asked i s' [⟨i, chunk, answer⟩]).source? offer.source = some t ∧
      offer.chunk ∈ t.capturing.enqueued := by
  rcases List.mem_append.mp hoffer with hoffer | hoffer
  · obtain ⟨t, ht, hmem⟩ := h.serialised.known offer hoffer
    obtain ⟨t', ht', hcapturing⟩ := h.source_capturing ht
    exact ⟨t', ht', by rwa [hcapturing]⟩
  · rw [List.mem_singleton.mp hoffer]
    refine ⟨s', h.source_self, ?_⟩
    rw [h.capturing]
    exact (h.serialised.ordered i s h.source).mem_enqueued h.contents

/-- A chunk that was refused is the first one of the queue of the current source. -/
theorem redelivered (h : OfferStep x i s s' chunk rest answer) :
    (x.asked i s' [⟨i, chunk, answer⟩]).offers.IsChain Redelivers := by
  refine h.serialised.redelivered.append (.singleton _) ?_
  intro last hlast next hnext hrefused
  obtain rfl := Option.some.inj hnext
  obtain ⟨t, more, ht, hconsuming, hpending⟩ := h.serialised.pending last hlast hrefused
  have hsource := h.eq_current ht hconsuming
  rw [← hsource, h.source] at ht
  obtain rfl := Option.some.inj ht
  rw [h.contents] at hpending
  exact ⟨hsource, (List.cons.inj hpending).1⟩

theorem pending (h : OfferStep x i s s' chunk rest answer) {offer : Offer}
    (hlast : (x.asked i s' [⟨i, chunk, answer⟩]).offers.getLast? = some offer)
    (hrefused : offer.accepted = false) :
    ∃ t more, (x.asked i s' [⟨i, chunk, answer⟩]).source? offer.source = some t ∧
      t.consuming = true ∧ t.queue.contents = offer.chunk :: more := by
  rw [asked, List.getLast?_concat] at hlast
  obtain rfl := Option.some.inj hlast
  obtain rfl : answer = false := hrefused
  exact ⟨s', rest, h.source_self, h.consuming, h.remaining⟩

/-- **An offer keeps the invariant.** -/
theorem keeps_serialised (h : OfferStep x i s s' chunk rest answer) :
    (x.asked i s' [⟨i, chunk, answer⟩]).Serialised where
  ordered _ _ ht := h.ordered ht
  tracked := h.tracked
  current _ _ ht hconsuming := h.current_asked ht hconsuming
  known _ hoffer := h.known hoffer
  redelivered := h.redelivered
  pending _ hlast hrefused := h.pending hlast hrefused

end OfferStep

/-- The pipeline once the current producer has been asked. -/
def ask (consumer : Chunk → Bool) (x : Pipeline) : Pipeline where
  multiplexor := (x.multiplexor.ask (Source.producer consumer)).2
  offers := x.offers ++ offersOf consumer (x.multiplexor.ask (Source.producer consumer)).1

/-- The delay the current producer has answered with. -/
def delay (consumer : Chunk → Bool) (x : Pipeline) : Option ℕ :=
  (x.multiplexor.ask (Source.producer consumer)).1.bind fun answer => answer.2.result

/-- After the current source was asked, nobody is being consumed if that source is not. -/
theorem asked_unconsumed {x : Pipeline} {i : ℕ} (hcurrent : x.multiplexor.currentProducer = some i)
    {s s' : Source} (hs : x.source? i = some s) {offers : List Offer}
    (hserialised : (x.asked i s' offers).Serialised) (hconsuming : s'.consuming = false) :
    (x.asked i s' offers).Unconsumed := by
  apply hserialised.unconsumed
  intro j t hj ht
  obtain rfl := Option.some.inj (hcurrent.symm.trans hj)
  rw [source?_asked_self hs] at ht
  rw [← Option.some.inj ht]
  exact hconsuming

/-- What the delivery of a chunk does to the current source keeps the invariant. -/
theorem sourceStep_serialised {x : Pipeline} (hx : x.Serialised) {i : ℕ}
    (hcurrent : x.multiplexor.currentProducer = some i) {s s' : Source}
    (hs : x.source? i = some s) (hallocated : s'.Allocated) {consumer : Chunk → Bool}
    {d : Source.Delivery} (hstep : Source.SourceStep consumer s d s') :
    (x.asked i s' (offersOf consumer (some (i, d)))).Serialised ∧
      (d.result = none → s'.consuming = false) := by
  cases hstep with
  | idle result contents stays =>
    refine ⟨?_, stays⟩
    show (x.asked i s []).Serialised
    rw [asked_idle hs]
    exact hx
  | refused chunk rest _ contents answer consuming remaining parameters capturing =>
    refine ⟨?_, fun hnone => absurd hnone (Option.some_ne_none 10)⟩
    show (x.asked i s' [⟨i, chunk, consumer chunk⟩]).Serialised
    rw [answer]
    exact OfferStep.keeps_serialised ⟨hx, hcurrent, hs, hallocated, parameters, capturing,
      contents, consuming, remaining⟩
  | accepted chunk rest _ result contents answer consuming remaining stays parameters capturing =>
    refine ⟨?_, stays⟩
    show (x.asked i s' [⟨i, chunk, consumer chunk⟩]).Serialised
    rw [answer]
    exact OfferStep.keeps_serialised ⟨hx, hcurrent, hs, hallocated, parameters, capturing,
      contents, consuming, remaining⟩

/-- Asking keeps the invariant, and nobody is being consumed when there is no delay. -/
theorem ask_serialised {x : Pipeline} (hx : x.Serialised) (consumer : Chunk → Bool) :
    (x.ask consumer).Serialised ∧ (x.delay consumer = none → (x.ask consumer).Unconsumed) := by
  rw [ask, delay, Multiplexor.ask]
  cases hcurrent : x.multiplexor.currentProducer with
  | none =>
    have hunconsumed : x.Unconsumed := by
      apply hx.unconsumed
      intro i s hi
      rw [hcurrent] at hi
      cases hi
    simp only [offersOf, List.append_nil]
    exact ⟨hx, fun _ => hunconsumed⟩
  | some i =>
    cases hs : x.source? i with
    | none =>
      have hunconsumed : x.Unconsumed := by
        apply hx.unconsumed
        intro j t hj ht
        obtain rfl := Option.some.inj (hcurrent.symm.trans hj)
        rw [hs] at ht
        cases ht
      rw [source?] at hs
      simp only [hs, offersOf, List.append_nil]
      exact ⟨hx, fun _ => hunconsumed⟩
    | some s =>
      have hget : x.multiplexor.producers[i]? = some s := hs
      simp only [hget]
      obtain ⟨hserialised, hdelay⟩ := sourceStep_serialised hx hcurrent hs
        (Source.producer_allocated (hx.ordered i s hs).allocated consumer)
        (Source.producer_step consumer s)
      exact ⟨hserialised, fun hnone => asked_unconsumed hcurrent hs hserialised (hdelay hnone)⟩

/-- Moving on to the next producer keeps the invariant. -/
theorem conclude_serialised {x : Pipeline} (hx : x.Serialised) {result : Option ℕ}
    (h : result = none → x.Unconsumed) :
    (x.setMultiplexor (x.multiplexor.conclude result).2).Serialised := by
  cases result with
  | some delay => exact setEmptySwitches_serialised hx 0
  | none =>
    obtain ⟨n, hn⟩ := x.multiplexor.conclude_none
    rw [hn]
    exact switch_serialised hx (h rfl) n

/-- **A call by the scheduler keeps the invariant.** -/
theorem produceChunk_serialised {x : Pipeline} (hx : x.Serialised) (consumer : Chunk → Bool) :
    (x.produceChunk consumer).Serialised := by
  obtain ⟨hasked, hdelay⟩ := ask_serialised (setUp_serialised hx) consumer
  exact conclude_serialised hasked hdelay

/-- **Every step keeps the invariant.** -/
theorem step_serialised {x : Pipeline} {e : Stimulus} (hx : x.Serialised) (he : x.enabled e) :
    (x.step e).Serialised := by
  cases e with
  | read i frames stale timestamp => exact read_serialised hx he
  | produceChunk consumer => exact produceChunk_serialised hx consumer

/-! ### What is delivered -/

/-- **Streams are delivered one at a time.** -/
structure SerialStreams (x : Pipeline) : Prop where
  /-- What is accepted are streams; the last may be unfinished, and then its source is the
  current producer. -/
  streams : ∃ blocks rest, accepted x.offers = List.flatten blocks ++ rest ∧
    (∀ b ∈ blocks, IsBlock Chunk.endOfStream b) ∧
    (rest = [] ∨ ∃ i, IsUnfinished Chunk.endOfStream i rest ∧
      x.multiplexor.currentProducer = some i)
  /-- Each source's chunks are accepted in the order they were captured in. -/
  order : ∀ i s, x.source? i = some s →
    fromSource i (accepted x.offers) <+: s.capturing.enqueued
  /-- The chunks offered are data chunks with frames and end-of-stream chunks without. -/
  chunks : ∀ offer ∈ x.offers, Source.IsStreamChunk offer.chunk ∧
    ∃ s, x.source? offer.source = some s ∧ offer.chunk ∈ s.capturing.enqueued
  redelivered : x.offers.IsChain Redelivers

theorem Serialised.serialStreams {x : Pipeline} (hx : x.Serialised) : SerialStreams x where
  streams := by
    obtain ⟨o, htrack, hopen⟩ := hx.tracked
    obtain ⟨blocks, rest, haccepted, hblocks, hrest⟩ := blocks_of_track _ htrack
    refine ⟨blocks, rest, haccepted, hblocks, ?_⟩
    cases o with
    | none => exact Or.inl hrest
    | some i =>
      obtain ⟨s, hs, hconsuming⟩ := hopen i rfl
      exact Or.inr ⟨i, hrest, hx.current i s hs hconsuming⟩
  order i s hs := ⟨s.queue.contents, (hx.ordered i s hs).order⟩
  chunks offer hoffer := by
    obtain ⟨s, hs, hmem⟩ := hx.known offer hoffer
    exact ⟨(hx.ordered _ s hs).chunks _ hmem, s, hs, hmem⟩
  redelivered := hx.redelivered

/-- **Streams are never interleaved or left unterminated**, whatever the sources capture, however
often their queues are full, and whatever the consumer answers. -/
theorem streams_serialised {sources : List Source}
    (hsources : ∀ s ∈ sources, ∃ p now, p.Valid ∧ s = Source.create p now) {es : List Stimulus}
    (hes : system.Admits (create sources) es) : SerialStreams (system.exec (create sources) es) :=
  (system.exec_invariant Serialised (fun _ _ hx he => step_serialised hx he) es _
    (create_serialised hsources) hes).serialStreams

/-- Both sources capture a stream at the same time; the consumer refuses a chunk once. -/
def twoStreams : List Stimulus :=
  [.read 0 [[0, 1], [7, 3]] [] ⟨0⟩, .read 1 [[0, 1], [5, 3]] [] ⟨0⟩,
    .produceChunk fun _ => true, .read 0 [[8, 3], [0, 2]] [] ⟨1⟩, .produceChunk fun _ => false,
    .read 1 [[0, 2]] [5, 3] ⟨1⟩, .produceChunk fun _ => true, .produceChunk fun _ => true,
    .produceChunk fun _ => true]

theorem streams_serialised_twoStreams :
    SerialStreams (system.exec (create (List.replicate 2 (Source.create Source.narrow ⟨0⟩)))
        twoStreams) ∧
      (accepted (system.exec (create (List.replicate 2 (Source.create Source.narrow ⟨0⟩)))
        twoStreams).offers).map Prod.fst = [1, 1, 0, 0] := by
  refine ⟨streams_serialised ?_ (by decide +kernel), by decide +kernel⟩
  intro s hs
  exact ⟨Source.narrow, ⟨0⟩, ⟨by decide, by decide⟩, List.eq_of_mem_replicate hs⟩

end Pipeline

end SlimStreamer
