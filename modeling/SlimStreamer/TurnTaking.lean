import SlimStreamer.Lib.RoundRobin
import SlimStreamer.StreamSerialisation

/-!
# Whose turn it is

The multiplexor asks the sources in a circle, and one that has an open stream keeps its turn.  A
call in which the source asked has nothing passes the turn on; the multiplexor counts such calls
and issues a pause once there were as many in a row as there are sources.

* `Call`, `calls` — whom the calls of a run have asked, and what they have answered;
* `Asks`, `asks_produceChunk` — what one call does;
* `overtaken_once` — a chunk that waits is overtaken by one stream of each other source at most;
* `pauses_when_idle` — when there is a pause, and that there is one;
* `no_busy_waiting` — calls are made without a delay only while chunks are accepted.
-/

namespace SlimStreamer

open GuardedExecution RoundRobin

namespace Multiplexor

variable {π δ : Type}

/-- The current producer is the one at the index, once there is one. -/
structure Circular (m : Multiplexor π) : Prop where
  index_lt : m.currentProducerIndex < m.producers.length
  current : ∀ i, m.currentProducer = some i → i = m.currentProducerIndex
  emptySwitches_lt : m.emptySwitches < m.producers.length

theorem create_circular {producers : List π} (h : producers ≠ []) :
    Circular (create producers) where
  index_lt := List.length_pos_of_ne_nil h
  current := fun i hi => absurd hi.symm (Option.some_ne_none i)
  emptySwitches_lt := List.length_pos_of_ne_nil h

/-- The producer that the next call asks. -/
def due (m : Multiplexor π) : ℕ := m.setUp.currentProducer.getD 0

theorem switch_current {m : Multiplexor π} (h : 0 < m.producers.length) :
    m.switchToNextProducer.currentProducer =
      some (next m.producers.length m.currentProducerIndex) := by
  rw [switchToNextProducer]
  dsimp only
  rw [if_pos h]
  rfl

theorem Circular.switch {m : Multiplexor π} (h : Circular m) : Circular m.switchToNextProducer where
  index_lt := next_lt (Nat.zero_lt_of_lt h.index_lt) _
  current i hi := by
    rw [switch_current (Nat.zero_lt_of_lt h.index_lt)] at hi
    exact (Option.some.inj hi).symm
  emptySwitches_lt := h.emptySwitches_lt

theorem setUp_producers (m : Multiplexor π) : m.setUp.producers = m.producers := by
  rw [setUp]
  split <;> rfl

/-- Setting up leaves a current producer, the one that is due. -/
theorem Circular.setUp {m : Multiplexor π} (h : Circular m) :
    Circular m.setUp ∧ m.setUp.currentProducer = some m.due ∧
      m.due = m.setUp.currentProducerIndex := by
  have hcircular : Circular m.setUp := by
    rw [Multiplexor.setUp]
    split
    · exact h
    · exact h.switch
  have hcurrent : m.setUp.currentProducer = some m.due := by
    rw [due, Multiplexor.setUp]
    split
    · rename_i hsome
      obtain ⟨i, hi⟩ := Option.isSome_iff_exists.mp hsome
      rw [hi, Option.getD_some]
    · rw [switch_current (Nat.zero_lt_of_lt h.index_lt), Option.getD_some]
  exact ⟨hcircular, hcurrent, hcircular.current _ hcurrent⟩

theorem conclude_producers (result : Option ℕ) (m : Multiplexor π) :
    (m.conclude result).2.producers = m.producers := by
  cases result with
  | some delay => rfl
  | none =>
    rw [conclude]
    split <;> rfl

theorem setUp_emptySwitches (m : Multiplexor π) : m.setUp.emptySwitches = m.emptySwitches := by
  rw [setUp]
  split <;> rfl

theorem Circular.due_lt {m : Multiplexor π} (h : Circular m) : m.due < m.producers.length := by
  obtain ⟨hcircular, -, hindex⟩ := h.setUp
  rw [hindex, ← setUp_producers]
  exact hcircular.index_lt

/-- A producer that is current stays due. -/
theorem due_of_current {m : Multiplexor π} {i : ℕ} (h : m.currentProducer = some i) :
    m.due = i := by
  rw [due, setUp, h, if_pos (Option.isSome_some), h, Option.getD_some]

end Multiplexor

/-- A call of `produceChunk`: whose turn it was, what it has answered, and whether a chunk was
accepted. -/
structure Call where
  turn : Turn
  result : Option ℕ
  accepted : Bool
  deriving DecidableEq, Repr

/-- The producer had nothing, and the multiplexor has answered with a pause. -/
def Call.pauses (c : Call) : Bool := !c.turn.keeps && c.result.isSome

/-- The call has answered with a delay that is not zero. -/
def Call.delays (c : Call) : Prop := ∃ d, 0 < d ∧ c.result = some d

namespace Multiplexor

variable {π δ : Type}

/-- What a call does to the circle. -/
structure Asks (m m' : Multiplexor π) (c : Call) : Prop where
  who : c.turn.who = m.due
  lt : c.turn.who < m.producers.length
  circular : Circular m'
  length : m'.producers.length = m.producers.length
  due : m'.due = c.turn.after m.producers.length
  /-- A pause is issued when all have passed their turns on, and takes 100 milliseconds. -/
  pauses : c.pauses = true ↔
    c.turn.keeps = false ∧ m.emptySwitches + 1 = m.producers.length ∧ c.result = some 100
  pauses_of_idle : m.emptySwitches + 1 = m.producers.length → c.turn.keeps = false →
    c.pauses = true
  emptySwitches : m'.emptySwitches =
    if c.turn.keeps || c.pauses then 0 else m.emptySwitches + 1

/-- **Every call asks the producer that is due**, and the turn goes to the next one unless that
producer has answered with a delay. -/
theorem asks_produceChunk {produce : π → δ × π} {delay : δ → Option ℕ} {m : Multiplexor π}
    (h : Circular m) :
    ∃ (producer : π), m.producers[m.due]? = some producer ∧
      (m.produceChunk produce delay).2.1 = some (m.due, (produce producer).1) ∧
      (m.produceChunk produce delay).2.2.producers =
        m.producers.set m.due (produce producer).2 ∧
      ((delay (produce producer).1).isSome = true →
        (m.produceChunk produce delay).1 = delay (produce producer).1) ∧
      ∀ accepted, Asks m (m.produceChunk produce delay).2.2
        ⟨⟨m.due, (delay (produce producer).1).isSome⟩, (m.produceChunk produce delay).1,
          accepted⟩ := by
  obtain ⟨hcircular, hcurrent, hindex⟩ := h.setUp
  have hlt := h.due_lt
  obtain ⟨producer, hproducer⟩ : ∃ producer, m.producers[m.due]? = some producer :=
    ⟨_, List.getElem?_eq_getElem hlt⟩
  have hasked : m.setUp.ask produce = (some (m.due, (produce producer).1),
      m.setUp.setProducers (m.producers.set m.due (produce producer).2)) := by
    rw [ask, hcurrent]
    dsimp only
    rw [setUp_producers, hproducer]
  -- the circle after the producer has been asked
  obtain ⟨asked, hdef⟩ : ∃ asked,
      m.setUp.setProducers (m.producers.set m.due (produce producer).2) = asked := ⟨_, rfl⟩
  have hproducers : asked.producers = m.producers.set m.due (produce producer).2 := by
    rw [← hdef]
    rfl
  have hlength : asked.producers.length = m.producers.length := by
    rw [hproducers]
    exact List.length_set
  have hswitches : asked.emptySwitches = m.emptySwitches := by
    rw [← hdef]
    exact m.setUp_emptySwitches
  have hask : Circular asked := by
    refine ⟨?_, ?_, ?_⟩
    · rw [hlength, ← hdef]
      exact hindex ▸ hlt
    · rw [← hdef]
      exact hcircular.current
    · rw [hlength, hswitches]
      exact h.emptySwitches_lt
  have hcurrent' : asked.currentProducer = some m.due := by
    rw [← hdef]
    exact hcurrent
  rw [hdef] at hasked
  have hbound := h.emptySwitches_lt
  refine ⟨producer, hproducer, by rw [produceChunk, hasked], ?_, ?_, fun accepted => ?_⟩
  · rw [produceChunk, hasked]
    exact (conclude_producers _ _).trans hproducers
  · intro hsome
    obtain ⟨d, hd⟩ := Option.isSome_iff_exists.mp hsome
    rw [produceChunk, hasked]
    dsimp only [Option.bind_some]
    rw [hd]
    rfl
  rw [produceChunk, hasked]
  dsimp only [Option.bind_some]
  cases hdelay : delay (produce producer).1 with
  | some d =>
    exact
      { who := rfl
        lt := hlt
        circular := ⟨hask.index_lt, hask.current, hlength ▸ Nat.zero_lt_of_lt hlt⟩
        length := hlength
        due := due_of_current hcurrent'
        pauses := by simp [Call.pauses]
        pauses_of_idle := fun _ hkeeps => absurd hkeeps (by simp)
        emptySwitches := rfl }
  | none =>
    have hdue : ∀ n, (asked.switchToNextProducer.setEmptySwitches n).due =
        next m.producers.length m.due := by
      intro n
      apply due_of_current
      show asked.switchToNextProducer.currentProducer = _
      rw [switch_current (hlength ▸ Nat.zero_lt_of_lt hlt), hlength,
        ← hask.current _ hcurrent']
    have hlen : asked.switchToNextProducer.producers.length = m.producers.length := hlength
    have hsw : asked.switchToNextProducer.emptySwitches = m.emptySwitches := hswitches
    rw [conclude, hlen, hsw]
    split
    · rename_i hfull
      exact
        { who := rfl
          lt := hlt
          circular := ⟨hask.switch.index_lt, hask.switch.current, hlen ▸ Nat.zero_lt_of_lt hlt⟩
          length := hlen
          due := hdue 0
          pauses := by
            simp only [Call.pauses, Option.isSome_none, Option.isSome_some, Bool.not_false,
              Bool.and_self, true_and, and_true, true_iff]
            omega
          pauses_of_idle := fun _ _ => rfl
          emptySwitches := rfl }
    · rename_i hnot
      exact
        { who := rfl
          lt := hlt
          circular := ⟨hask.switch.index_lt, hask.switch.current, by
            show m.emptySwitches + 1 < asked.switchToNextProducer.producers.length
            omega⟩
          length := hlen
          due := hdue _
          pauses := by simp [Call.pauses]
          pauses_of_idle := fun hfull _ => absurd hfull (by omega)
          emptySwitches := rfl }

theorem setProducers_due {m : Multiplexor π} {producers : List π}
    (h : producers.length = m.producers.length) : (m.setProducers producers).due = m.due := by
  simp only [due, setUp, setProducers, switchToNextProducer, h]
  split <;> rfl

theorem Circular.setProducers {m : Multiplexor π} (hm : Circular m) {producers : List π}
    (h : producers.length = m.producers.length) : Circular (m.setProducers producers) where
  index_lt := lt_of_lt_of_eq hm.index_lt h.symm
  current := hm.current
  emptySwitches_lt := lt_of_lt_of_eq hm.emptySwitches_lt h.symm

end Multiplexor

namespace Source

variable {consumer : Chunk → Bool} {s : Source} {chunk : Chunk}

/-- A source that is asked offers the first chunk it has. -/
theorem producer_offers (consumer : Chunk → Bool) (h : s.queue.contents ≠ []) :
    ∃ chunk, (s.producer consumer).1.offered = some chunk := by
  have hstep := producer_step consumer s
  generalize (s.producer consumer).1 = d, (s.producer consumer).2 = s' at hstep
  cases hstep with
  | idle _ contents => exact absurd contents h
  | refused chunk => exact ⟨chunk, rfl⟩
  | accepted chunk => exact ⟨chunk, rfl⟩

/-- It has nothing more to say when the end of a stream was accepted. -/
theorem producer_ended (hoffered : (s.producer consumer).1.offered = some chunk)
    (haccepted : consumer chunk = true) (hend : chunk.endOfStream = true) :
    (s.producer consumer).1.result = none := by
  cases hcontents : s.queue.contents with
  | nil =>
    have hidle : (s.producer consumer).1.offered = none := by
      rw [producer, s.queue.dequeue_nil (feed consumer) underflow _ hcontents, underflow]
      split <;> rfl
    rw [hidle] at hoffered
    cases hoffered
  | cons first rest =>
    obtain ⟨hdelivery, -⟩ := s.queue.dequeue_cons (feed consumer) underflow
      ⟨none, s.consuming, none⟩ hcontents
    have hfirst : (feed consumer first ⟨none, s.consuming, none⟩).2.2.offered = some first := by
      rw [feed]
      split
      · split <;> rfl
      · rfl
    have heq : (s.producer consumer).1 = (feed consumer first ⟨none, s.consuming, none⟩).2.2 :=
      hdelivery
    rw [heq, hfirst] at hoffered
    obtain rfl := Option.some.inj hoffered
    rw [heq, feed_accepted haccepted, hend]
    rfl

/-- Without an accepted chunk, a delay is one of ten milliseconds. -/
theorem producer_delays {d : ℕ} (hresult : (s.producer consumer).1.result = some d)
    (hnot : (s.producer consumer).1.offered.any consumer = false) : d = 10 := by
  cases hcontents : s.queue.contents with
  | nil =>
    have hidle : (s.producer consumer).1 = underflow ⟨none, s.consuming, none⟩ := by
      rw [producer, s.queue.dequeue_nil (feed consumer) underflow _ hcontents]
    rw [hidle, underflow] at hresult
    split at hresult
    · exact (Option.some.inj hresult).symm
    · cases hresult
  | cons first rest =>
    have hfed : (s.producer consumer).1 = (feed consumer first ⟨none, s.consuming, none⟩).2.2 :=
      (s.queue.dequeue_cons (feed consumer) underflow ⟨none, s.consuming, none⟩ hcontents).1
    rw [hfed] at hresult hnot
    cases hanswer : consumer first with
    | true =>
      rw [feed_accepted hanswer] at hnot
      simp [hanswer] at hnot
    | false =>
      rw [feed_refused hanswer] at hresult
      exact (Option.some.inj hresult).symm

end Source

namespace Pipeline

/-! ### The calls of a run -/

/-- Whom the scheduler's call asks. -/
def callOf (x : Pipeline) : Stimulus → List Call
  | .read _ _ _ _ => []
  | .produceChunk consumer =>
    let produced := x.multiplexor.produceChunk (Source.producer consumer) Source.Delivery.result
    produced.2.1.toList.map fun asked =>
      ⟨⟨asked.1, asked.2.result.isSome⟩, produced.1, asked.2.offered.any consumer⟩

def calls : Pipeline → List Stimulus → List Call
  | _, [] => []
  | x, e :: es => x.callOf e ++ calls (x.step e) es

/-- What is offered by a step. -/
def offersOfStep (x : Pipeline) : Stimulus → List Offer
  | .read _ _ _ _ => []
  | .produceChunk consumer => offersOf consumer
      (x.multiplexor.produceChunk (Source.producer consumer) Source.Delivery.result).2.1

/-- What is offered during a run. -/
def offersDuring : Pipeline → List Stimulus → List Offer
  | _, [] => []
  | x, e :: es => x.offersOfStep e ++ offersDuring (x.step e) es

theorem step_offers (x : Pipeline) (e : Stimulus) :
    (x.step e).offers = x.offers ++ x.offersOfStep e := by
  cases e with
  | read i frames stale timestamp => exact (List.append_nil _).symm
  | produceChunk consumer => rfl

/-- How often the end of a stream of a source was accepted. -/
def endings (source : ℕ) (offers : List Offer) : ℕ :=
  offers.countP fun offer => offer.source == source && (offer.accepted && offer.chunk.endOfStream)

variable {x : Pipeline}

/-- A call is in turn, and what it offers comes from the source asked. -/
structure Calls (x : Pipeline) (consumer : Chunk → Bool) (s : Source) (c : Call) : Prop where
  source : x.source? x.multiplexor.due = some s
  callOf : x.callOf (.produceChunk consumer) = [c]
  offers : x.offersOfStep (.produceChunk consumer) =
    offersOf consumer (some (x.multiplexor.due, (s.producer consumer).1))
  keeps : c.turn.keeps = (s.producer consumer).1.result.isSome
  result : c.turn.keeps = true → c.result = (s.producer consumer).1.result
  accepted : c.accepted = (s.producer consumer).1.offered.any consumer
  producers : (x.produceChunk consumer).multiplexor.producers =
    x.multiplexor.producers.set x.multiplexor.due (s.producer consumer).2
  asks : Multiplexor.Asks x.multiplexor (x.produceChunk consumer).multiplexor c

theorem calls_produceChunk (h : x.multiplexor.Circular) (consumer : Chunk → Bool) :
    ∃ s c, Calls x consumer s c := by
  obtain ⟨s, hs, hasked, hproducers, hresult, hasks⟩ :=
    @Multiplexor.asks_produceChunk _ _ (Source.producer consumer) Source.Delivery.result _ h
  refine ⟨s, _, hs, ?_, ?_, rfl, hresult, rfl, hproducers,
    hasks ((s.producer consumer).1.offered.any consumer)⟩
  · rw [callOf, hasked]
    rfl
  · rw [offersOfStep, hasked]

theorem onRead_length (x : Pipeline) (i : ℕ) (frames : List (List UInt8)) (stale : List UInt8)
    (timestamp : Timestamp) :
    (x.onRead i frames stale timestamp).multiplexor.producers.length =
      x.multiplexor.producers.length :=
  List.length_modify _ _ _

/-- **Every step keeps the circle.** -/
theorem step_circular (h : x.multiplexor.Circular) (e : Stimulus) :
    (x.step e).multiplexor.Circular ∧
      (x.step e).multiplexor.producers.length = x.multiplexor.producers.length := by
  cases e with
  | read i frames stale timestamp =>
    have hlength := x.onRead_length i frames stale timestamp
    exact ⟨h.setProducers hlength, hlength⟩
  | produceChunk consumer =>
    obtain ⟨s, c, hcall⟩ := calls_produceChunk h consumer
    exact ⟨hcall.asks.circular, hcall.asks.length⟩

/-- **The turns of a run go round.** -/
theorem calls_follow (h : x.multiplexor.Circular) (es : List Stimulus) :
    Follows x.multiplexor.producers.length x.multiplexor.due ((calls x es).map Call.turn) := by
  induction es generalizing x with
  | nil => exact trivial
  | cons e es ih =>
    obtain ⟨hcircular, hlength⟩ := step_circular h e
    have hrest := ih hcircular
    rw [hlength] at hrest
    rw [calls]
    cases e with
    | read i frames stale timestamp =>
      have hdue : (x.onRead i frames stale timestamp).multiplexor.due = x.multiplexor.due :=
        Multiplexor.setProducers_due (x.onRead_length i frames stale timestamp)
      rw [← hdue]
      exact hrest
    | produceChunk consumer =>
      obtain ⟨s, c, hcall⟩ := calls_produceChunk h consumer
      rw [hcall.callOf, List.singleton_append, List.map_cons]
      refine ⟨hcall.asks.who, ?_⟩
      rw [← hcall.asks.due]
      exact hrest

/-! ### A chunk that waits -/

/-- The source has a chunk in its queue. -/
def Waits (i : ℕ) (x : Pipeline) : Prop := ∃ s, x.source? i = some s ∧ s.queue.contents ≠ []

theorem waits_read {i j : ℕ} {frames : List (List UInt8)} {stale : List UInt8}
    {timestamp : Timestamp} (hx : x.Serialised) (he : x.enabled (.read j frames stale timestamp))
    (h : x.Waits i) : (x.onRead j frames stale timestamp).Waits i := by
  obtain ⟨s, hs, hwaits⟩ := h
  have hgrows := (read_source (i := j) (hx.ordered i s hs) (fun hij => by
    subst hij
    exact he s hs)).2
  obtain ⟨more, hmore, -⟩ := hgrows.chunks
  refine ⟨_, by rw [source?_onRead, hs]; rfl, ?_⟩
  rw [hmore]
  exact List.append_ne_nil_of_left_ne_nil hwaits more

/-- Another source that is asked leaves the queue alone. -/
theorem waits_produceChunk {i : ℕ} {consumer : Chunk → Bool} (hx : x.multiplexor.Circular)
    (hother : x.multiplexor.due ≠ i) (h : x.Waits i) : (x.produceChunk consumer).Waits i := by
  obtain ⟨s, hs, hwaits⟩ := h
  obtain ⟨s', c, hcall⟩ := calls_produceChunk hx consumer
  refine ⟨s, ?_, hwaits⟩
  rw [source?, hcall.producers, List.getElem?_set_ne hother]
  exact hs

/-- A source that waits and is not heard is not asked. -/
theorem not_asked {i : ℕ} (hx : x.Serialised) (hcircular : x.multiplexor.Circular)
    (hwaits : x.Waits i) {es : List Stimulus} (hes : system.Admits x es)
    (hnever : ∀ offer ∈ offersDuring x es, offer.source ≠ i) :
    ∀ t ∈ (calls x es).map Call.turn, t.who ≠ i := by
  induction es generalizing x with
  | nil => exact List.forall_mem_nil _
  | cons e es ih =>
    rw [offersDuring, List.forall_mem_append] at hnever
    have hrest := fun hwaits' => ih (step_serialised hx hes.1) (step_circular hcircular e).1 hwaits'
      hes.2 hnever.2
    rw [calls, List.map_append, List.forall_mem_append]
    cases e with
    | read j frames stale timestamp =>
      exact ⟨List.forall_mem_nil _, hrest (waits_read hx hes.1 hwaits)⟩
    | produceChunk consumer =>
      obtain ⟨s, c, hcall⟩ := calls_produceChunk hcircular consumer
      have hother : x.multiplexor.due ≠ i := by
        intro hdue
        obtain ⟨s', hs', hcontents⟩ := hwaits
        obtain rfl : s = s' := by
          have hsource := hcall.source
          rw [hdue, hs'] at hsource
          exact (Option.some.inj hsource).symm
        obtain ⟨chunk, hchunk⟩ := Source.producer_offers consumer hcontents
        refine hnever.1 ⟨x.multiplexor.due, chunk, consumer chunk⟩ ?_ hdue
        rw [hcall.offers, offersOf, hchunk]
        exact List.mem_singleton_self _
      rw [hcall.callOf, List.map_singleton, List.forall_mem_singleton, hcall.asks.who]
      exact ⟨hother, hrest (waits_produceChunk hcircular hother hwaits)⟩

/-- Whoever has delivered the end of a stream has passed its turn on. -/
theorem endings_le_passes (hcircular : x.multiplexor.Circular) (j : ℕ) (es : List Stimulus) :
    endings j (offersDuring x es) ≤ passes j ((calls x es).map Call.turn) := by
  induction es generalizing x with
  | nil => exact le_rfl
  | cons e es ih =>
    have hrest := ih (step_circular hcircular e).1
    rw [offersDuring, calls, List.map_append, endings, passes, List.countP_append,
      List.countP_append]
    refine Nat.add_le_add ?_ hrest
    cases e with
    | read i frames stale timestamp => exact le_rfl
    | produceChunk consumer =>
      obtain ⟨s, c, hcall⟩ := calls_produceChunk hcircular consumer
      rw [hcall.callOf, hcall.offers, offersOf, List.map_singleton, List.countP_singleton]
      cases hoffered : (s.producer consumer).1.offered with
      | none => exact Nat.zero_le _
      | some chunk =>
        rw [Option.toList_some, List.map_singleton, List.countP_singleton]
        dsimp only
        by_cases hends : (x.multiplexor.due == j && (consumer chunk && chunk.endOfStream)) = true
        · obtain ⟨hj, haccepted, hend⟩ : x.multiplexor.due = j ∧ consumer chunk = true ∧
              chunk.endOfStream = true := by simpa using hends
          have hnone := Source.producer_ended hoffered haccepted hend
          rw [if_pos hends, hcall.asks.who, hcall.keeps, hnone, hj]
          simp
        · rw [if_neg hends]
          exact Nat.zero_le _

/-- The sources of a pipeline that has just been created. -/
theorem create_circular {sources : List Source} (h : sources ≠ []) :
    (create sources).multiplexor.Circular := Multiplexor.create_circular h

theorem exec_circular (h : x.multiplexor.Circular) (es : List Stimulus) :
    (system.exec x es).multiplexor.Circular ∧
      (system.exec x es).multiplexor.producers.length = x.multiplexor.producers.length := by
  induction es generalizing x with
  | nil => exact ⟨h, rfl⟩
  | cons e es ih =>
    obtain ⟨hcircular, hlength⟩ := step_circular h e
    obtain ⟨hexec, hrest⟩ := ih hcircular
    exact ⟨hexec, hrest.trans hlength⟩

/-- **A chunk that waits is overtaken by at most one stream of each source**, whatever the sources
capture and whatever the consumer answers: as long as its source is not heard, each other source
delivers the end of one stream at most, and the turn is passed on less often than there are
sources. -/
theorem overtaken_once {sources : List Source} (hne : sources ≠ [])
    (hsources : ∀ s ∈ sources, ∃ p now, p.Valid ∧ s = Source.create p now) {es es' : List Stimulus}
    (hes : system.Admits (create sources) (es ++ es')) {i : ℕ}
    (hwaits : (system.exec (create sources) es).Waits i)
    (hnever : ∀ offer ∈ offersDuring (system.exec (create sources) es) es', offer.source ≠ i) :
    (∀ j, endings j (offersDuring (system.exec (create sources) es) es') ≤ 1) ∧
      passed ((calls (system.exec (create sources) es) es').map Call.turn) < sources.length := by
  obtain ⟨hbefore, hafter⟩ := (system.admits_append _ es es').mp hes
  have hserialised := system.exec_invariant Serialised (fun _ _ hx he => step_serialised hx he) es _
    (create_serialised hsources) hbefore
  obtain ⟨hcircular, hlength⟩ := exec_circular (create_circular hne) es
  have hi : i < sources.length := by
    obtain ⟨s, hs, _⟩ := hwaits
    obtain ⟨hlt, _⟩ := List.getElem?_eq_some_iff.mp hs
    exact lt_of_lt_of_eq hlt hlength
  have hdue := lt_of_lt_of_eq hcircular.due_lt hlength
  have hasked := not_asked hserialised hcircular hwaits hafter hnever
  have hfollow := calls_follow hcircular es'
  rw [hlength] at hfollow
  refine ⟨fun j => ?_, passed_lt hfollow hdue hi hasked⟩
  exact (endings_le_passes hcircular j es').trans (passes_le_one hfollow hdue hi hasked j)

def twoSources : List Source := List.replicate 2 (Source.create Source.narrow ⟨0⟩)

theorem twoSources_created : ∀ s ∈ twoSources, ∃ p now, p.Valid ∧ s = Source.create p now := by
  intro s hs
  exact ⟨Source.narrow, ⟨0⟩, ⟨by decide, by decide⟩, List.eq_of_mem_replicate hs⟩

/-- Both sources have captured, and the second one is heard first. -/
theorem overtaken_once_twoStreams :
    (∀ j, endings j (offersDuring (system.exec (create twoSources) (twoStreams.take 2))
        ((twoStreams.drop 2).take 5)) ≤ 1) ∧
      passed ((calls (system.exec (create twoSources) (twoStreams.take 2))
        ((twoStreams.drop 2).take 5)).map Call.turn) < 2 :=
  overtaken_once (i := 0) (by decide) twoSources_created (by decide +kernel)
    ⟨_, rfl, by decide +kernel⟩ (by decide +kernel)

/-! ### Pauses -/

/-- The calls since the last pause, or since a producer has kept its turn. -/
def idleCalls (idle : ℕ) (c : Call) : ℕ := if c.turn.keeps || c.pauses then 0 else idle + 1

/-- Pauses are issued after as many idle calls as there are producers. -/
def Counted (n : ℕ) : ℕ → List Call → Prop
  | _, [] => True
  | idle, c :: cs =>
    (c.pauses = true ↔ c.turn.keeps = false ∧ idle + 1 = n ∧ c.result = some 100) ∧
      (idle + 1 = n → c.turn.keeps = false → c.pauses = true) ∧
      idle < n ∧ Counted n (idleCalls idle c) cs

variable {n idle : ℕ} {cs : List Call}

theorem Counted.of_append {before : List Call} (h : Counted n idle (before ++ cs)) :
    Counted n (before.foldl idleCalls idle) cs := by
  induction before generalizing idle with
  | nil => exact h
  | cons c before ih => exact ih h.2.2.2

/-- The idle calls are the last ones. -/
theorem idle_suffix (cs : List Call) :
    ∃ earlier recent, cs = earlier ++ recent ∧ recent.length = cs.foldl idleCalls 0 ∧
      ∀ c ∈ recent, c.turn.keeps = false ∧ c.pauses = false := by
  induction cs using List.reverseRecOn with
  | nil => exact ⟨[], [], rfl, rfl, List.forall_mem_nil _⟩
  | append_singleton cs c ih =>
    rw [List.foldl_append, List.foldl_cons, List.foldl_nil, idleCalls]
    split
    · exact ⟨cs ++ [c], [], (List.append_nil _).symm, rfl, List.forall_mem_nil _⟩
    · rename_i hidle
      obtain ⟨earlier, recent, hcs, hlength, hrecent⟩ := ih
      refine ⟨earlier, recent ++ [c], by rw [hcs, List.append_assoc], ?_, ?_⟩
      · rw [List.length_append, hlength, List.length_singleton]
      · rw [List.forall_mem_append, List.forall_mem_singleton]
        exact ⟨hrecent, by simpa using hidle⟩

/-- Idle calls without a pause are all counted. -/
theorem idle_counted (hidle : ∀ c ∈ cs, c.turn.keeps = false ∧ c.pauses = false) :
    cs.foldl idleCalls idle = idle + cs.length := by
  induction cs generalizing idle with
  | nil => rfl
  | cons c cs ih =>
    obtain ⟨⟨hkeeps, hpauses⟩, hrest⟩ := List.forall_mem_cons.mp hidle
    rw [List.foldl_cons, ih hrest, idleCalls, hkeeps, hpauses]
    simp only [Bool.or_self, Bool.false_eq_true, if_false, List.length_cons]
    omega

/-- **Every step counts.** -/
theorem calls_counted (h : x.multiplexor.Circular) (es : List Stimulus) :
    Counted x.multiplexor.producers.length x.multiplexor.emptySwitches (calls x es) := by
  induction es generalizing x with
  | nil => exact trivial
  | cons e es ih =>
    obtain ⟨hcircular, hlength⟩ := step_circular h e
    have hrest := ih hcircular
    rw [hlength] at hrest
    rw [calls]
    cases e with
    | read i frames stale timestamp => exact hrest
    | produceChunk consumer =>
      obtain ⟨s, c, hcall⟩ := calls_produceChunk h consumer
      rw [hcall.callOf, List.singleton_append]
      refine ⟨hcall.asks.pauses, hcall.asks.pauses_of_idle, h.emptySwitches_lt, ?_⟩
      rw [idleCalls, ← hcall.asks.emptySwitches]
      exact hrest

/-- There is a pause among as many idle calls in a row as there are sources. -/
theorem Counted.pauses (hcounted : Counted n idle cs) (hlength : n ≤ cs.length) (hn : 0 < n)
    (hidle : ∀ c ∈ cs, c.turn.keeps = false) : ∃ c ∈ cs, c.pauses = true := by
  by_contra hnot
  have hquiet : ∀ c ∈ cs, c.turn.keeps = false ∧ c.pauses = false := fun c hc =>
    ⟨hidle c hc, by simpa using fun hpauses => hnot ⟨c, hc, hpauses⟩⟩
  -- the last of them is counted when all the others have been
  obtain ⟨others, c, rfl⟩ : ∃ others c, cs = others ++ [c] := by
    refine ⟨cs.dropLast, cs.getLast ?_, (List.dropLast_append_getLast _).symm⟩
    rintro rfl
    rw [List.length_nil] at hlength
    omega
  rw [List.forall_mem_append, List.forall_mem_singleton] at hquiet
  have hlast := hcounted.of_append
  rw [idle_counted hquiet.1] at hlast
  obtain ⟨-, hfull, hlt, -⟩ := hlast
  rw [List.length_append, List.length_singleton] at hlength
  have hpauses := hfull (by omega) hquiet.2.1
  rw [hquiet.2.2] at hpauses
  cases hpauses

theorem Counted.append_left {after : List Call} (h : Counted n idle (cs ++ after)) :
    Counted n idle cs := by
  induction cs generalizing idle with
  | nil => exact trivial
  | cons c cs ih => exact ⟨h.1, h.2.1, h.2.2.1, ih h.2.2.2⟩

/-- When there are pauses in a run over `n` sources. -/
structure PausesWhenIdle (n : ℕ) (cs : List Call) : Prop where
  /-- A pause takes 100 milliseconds, and every source has been asked since the last one and has
  had nothing. -/
  idle : ∀ before c after, cs = before ++ c :: after → c.pauses = true →
    c.result = some 100 ∧ ∃ earlier recent, before = earlier ++ recent ∧ recent.length + 1 = n ∧
      (∀ c' ∈ recent, c'.turn.keeps = false ∧ c'.pauses = false) ∧
      ∀ j < n, ∃ c' ∈ recent ++ [c], c'.turn.who = j
  pauses : ∀ before idle after, cs = before ++ (idle ++ after) → n ≤ idle.length →
    (∀ c ∈ idle, c.turn.keeps = false) → ∃ c ∈ idle, c.pauses = true

/-- **There are pauses exactly while nobody has anything**, whatever the sources capture and
whatever the consumer answers. -/
theorem pauses_when_idle (sources : List Source) (hne : sources ≠ []) (es : List Stimulus) :
    PausesWhenIdle sources.length (calls (create sources) es) := by
  have hcircular := create_circular hne
  have hcounted : Counted sources.length 0 (calls (create sources) es) := calls_counted hcircular es
  have hfollow : Follows sources.length (create sources).multiplexor.due
      ((calls (create sources) es).map Call.turn) := calls_follow hcircular es
  refine ⟨?_, ?_⟩
  · intro before c after hcalls hpauses
    rw [hcalls] at hcounted hfollow
    obtain ⟨hpause, -⟩ := hcounted.of_append
    obtain ⟨hpassed, hfull, hresult⟩ := hpause.mp hpauses
    obtain ⟨earlier, recent, hbefore, hlength, hrecent⟩ := idle_suffix before
    rw [← hlength] at hfull
    refine ⟨hresult, earlier, recent, hbefore, hfull, hrecent, fun j hj => ?_⟩
    -- the last calls are as many as there are sources
    have hlast : ∃ k < sources.length,
        Follows sources.length k ((recent ++ [c]).map Call.turn) := by
      have hsplit : (before ++ c :: after).map Call.turn =
          earlier.map Call.turn ++ ((recent ++ [c]).map Call.turn ++ after.map Call.turn) := by
        rw [hbefore, ← List.map_append, ← List.map_append]
        simp only [List.append_assoc, List.cons_append, List.nil_append]
      rw [hsplit] at hfollow
      obtain ⟨k, hk, hrest⟩ := hfollow.of_append hcircular.due_lt
      exact ⟨k, hk, hrest.append_left⟩
    obtain ⟨k, hk, hfollow⟩ := hlast
    have hall : ∀ t ∈ (recent ++ [c]).map Call.turn, t.keeps = false := by
      rw [List.forall_mem_map, List.forall_mem_append, List.forall_mem_singleton]
      exact ⟨fun c' hc' => (hrecent c' hc').1, hpassed⟩
    obtain ⟨t, ht, hwho⟩ := all_asked hfollow hk hall (by simp [hfull]) hj
    obtain ⟨c', hc', rfl⟩ := List.mem_map.mp ht
    exact ⟨c', hc', hwho⟩
  · intro before idle after hcalls hlength hidle
    rw [hcalls] at hcounted
    exact hcounted.of_append.append_left.pauses hlength (List.length_pos_of_ne_nil hne) hidle

theorem pauses_when_idle_twoCalls :
    PausesWhenIdle 2 (calls (create twoSources)
        [.produceChunk fun _ => true, .produceChunk fun _ => true]) ∧
      (calls (create twoSources)
        [.produceChunk fun _ => true, .produceChunk fun _ => true]).map Call.pauses =
          [false, true] :=
  ⟨pauses_when_idle twoSources (by decide) _, by decide +kernel⟩

/-! ### Progress -/

/-- A call that neither delays nor accepts passes the turn on. -/
theorem calls_pass (h : x.multiplexor.Circular) (es : List Stimulus) :
    ∀ c ∈ calls x es, c.accepted = false → ¬ c.delays → c.turn.keeps = false := by
  induction es generalizing x with
  | nil => exact List.forall_mem_nil _
  | cons e es ih =>
    rw [calls, List.forall_mem_append]
    refine ⟨?_, ih (step_circular h e).1⟩
    cases e with
    | read i frames stale timestamp => exact List.forall_mem_nil _
    | produceChunk consumer =>
      obtain ⟨s, c, hcall⟩ := calls_produceChunk h consumer
      rw [hcall.callOf, List.forall_mem_singleton]
      intro hnot hdelays
      rw [← Bool.not_eq_true]
      intro hkeeps
      have hresult := hcall.result hkeeps
      obtain ⟨d, hd⟩ := Option.isSome_iff_exists.mp (hcall.keeps.symm.trans hkeeps)
      rw [hcall.accepted] at hnot
      obtain rfl := Source.producer_delays hd hnot
      exact hdelays ⟨10, by decide, hresult.trans hd⟩

/-- **The scheduler never spins**: of as many calls in a row as there are sources, one has a chunk
accepted, or one answers with a delay that is not zero. -/
theorem no_busy_waiting (sources : List Source) (hne : sources ≠ []) (es : List Stimulus)
    (before cs after : List Call) (hcalls : calls (create sources) es = before ++ (cs ++ after))
    (hlength : sources.length ≤ cs.length) :
    (∃ c ∈ cs, c.accepted = true) ∨ ∃ c ∈ cs, c.delays := by
  by_contra hnot
  rw [not_or, not_exists, not_exists] at hnot
  have hcircular := create_circular hne
  have hpass := calls_pass hcircular es
  have hcounted : Counted sources.length 0 (calls (create sources) es) := calls_counted hcircular es
  rw [hcalls] at hpass hcounted
  have hidle : ∀ c ∈ cs, c.turn.keeps = false := by
    intro c hc
    refine hpass c (List.mem_append_right _ (List.mem_append_left _ hc)) ?_ fun hdelays =>
      hnot.2 c ⟨hc, hdelays⟩
    rw [← Bool.not_eq_true]
    exact fun haccepted => hnot.1 c ⟨hc, haccepted⟩
  obtain ⟨c, hc, hpauses⟩ :=
    hcounted.of_append.append_left.pauses hlength (List.length_pos_of_ne_nil hne) hidle
  -- a pause is a delay
  have hcounts := (hcounted.of_append).append_left
  obtain ⟨earlier, later, rfl⟩ := List.append_of_mem hc
  obtain ⟨hpause, -⟩ := hcounts.of_append
  exact hnot.2 c ⟨hc, 100, by decide, (hpause.mp hpauses).2.2⟩

theorem no_busy_waiting_twoStreams :
    (∃ c ∈ (calls (create twoSources) twoStreams).drop 3, c.accepted = true) ∨
      ∃ c ∈ (calls (create twoSources) twoStreams).drop 3, c.delays := by
  refine no_busy_waiting twoSources (by decide) twoStreams
    ((calls (create twoSources) twoStreams).take 3) ((calls (create twoSources) twoStreams).drop 3)
    [] ?_ (by decide +kernel)
  rw [List.append_nil, List.take_append_drop]

end Pipeline

end SlimStreamer
