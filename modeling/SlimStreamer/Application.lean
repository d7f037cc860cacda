import SlimStreamer.Proto.ChunkCalls
import SlimStreamer.TurnTaking

/-!
# From the devices to the sessions

The sources, the multiplexor and the Streamer, put together as the scheduler does it: every call
of `produceChunk` is given `consumeChunk` for a consumer.  Producer threads and connections do
whatever they want in between.

Beside the state there are the number of the presentation, which goes up when a chunk is consumed
or a stream is prepared, and the chunks all sessions they were due for have accepted.

* `Plays`, `Linked` — what holds between the pipeline and the Streamer;
* `exactly_once_each` — each session gets each chunk of a stream once, in order;
* `consumed_iff_streamed` — no data chunk is consumed without being streamed;
* `one_source_plays` — a stream comes from one source, without gaps, at the announced rate.
-/

namespace SlimStreamer

open GuardedExecution SequencedBroadcast RoundRobin

namespace Source

/-- The chunks carry the sampling rate of the source. -/
def Rated (s : Source) : Prop :=
  ∀ chunk ∈ s.capturing.enqueued, chunk.samplingRate = s.parameters.samplingRate

theorem enqueue_rated {s : Source} (hs : s.Rated) (hallocated : s.Allocated)
    {mover : Chunk → Alsa.Capturing → Bool × Chunk × Alsa.Capturing}
    (hmover : ∀ chunk c, (mover chunk c).1 = true ∧
      (mover chunk c).2.1.samplingRate = s.parameters.samplingRate ∧
      (mover chunk c).2.2.enqueued = c.enqueued ++ [(mover chunk c).2.1]) :
    (s.enqueue mover).Rated := by
  intro chunk hchunk
  rcases enqueue_cases mover (fun chunk c => (hmover chunk c).1) hallocated with
    ⟨-, hcapturing⟩ | ⟨slot, -, hcapturing, -⟩
  · rw [hcapturing] at hchunk
    exact hs chunk hchunk
  · rw [hcapturing, (hmover slot s.capturing).2.2] at hchunk
    rcases List.mem_append.mp hchunk with hchunk | hchunk
    · exact hs chunk hchunk
    · rw [List.mem_singleton.mp hchunk]
      exact (hmover slot s.capturing).2.1

theorem onFrames_rated {s : Source} (hs : s.Rated) (hallocated : s.Allocated)
    (timestamp : Timestamp) (srcBuffer : List UInt8) (result : ℕ) :
    (s.onFrames timestamp srcBuffer result).Rated := by
  rw [onFrames]
  split
  · apply enqueue_rated
    · exact hs
    · exact hallocated
    · exact fun chunk c => ⟨rfl, rfl, rfl⟩
  · split
    · apply enqueue_rated
      · exact hs
      · exact hallocated
      · exact fun chunk c => ⟨rfl, rfl, rfl⟩
    · exact hs

end Source

namespace Pipeline

variable {x : Pipeline}

/-- **What a call by the scheduler does to the sources**: it may offer the first chunk of the
source that is due. -/
inductive ProduceStep (x : Pipeline) (consumer : Chunk → Bool) : Prop where
  | quiet (offers : x.offersOfStep (.produceChunk consumer) = [])
    (sources : ∀ i, (x.produceChunk consumer).source? i = x.source? i)
  | offers (s s' : Source) (chunk : Chunk) (rest : List Chunk)
    (source : x.source? x.multiplexor.due = some s)
    (contents : s.queue.contents = chunk :: rest)
    (offers : x.offersOfStep (.produceChunk consumer) =
      [⟨x.multiplexor.due, chunk, consumer chunk⟩])
    (asked : (x.produceChunk consumer).source? x.multiplexor.due = some s')
    (others : ∀ i ≠ x.multiplexor.due, (x.produceChunk consumer).source? i = x.source? i)
    (parameters : s'.parameters = s.parameters)
    (capturing : s'.capturing = s.capturing)
    (consuming : s'.consuming = (!consumer chunk || !chunk.endOfStream))

theorem produceStep (h : x.multiplexor.Circular) (consumer : Chunk → Bool) :
    ProduceStep x consumer := by
  obtain ⟨s, c, hcall⟩ := calls_produceChunk h consumer
  have hlt : x.multiplexor.due < x.multiplexor.producers.length := h.due_lt
  have hasked : (x.produceChunk consumer).source? x.multiplexor.due =
      some (s.producer consumer).2 := by
    rw [source?, hcall.producers, List.getElem?_set_self hlt]
  have hothers : ∀ i ≠ x.multiplexor.due,
      (x.produceChunk consumer).source? i = x.source? i := by
    intro i hi
    rw [source?, hcall.producers, List.getElem?_set_ne (Ne.symm hi)]
    rfl
  have hoffers := hcall.offers
  have hstep := Source.producer_step consumer s
  generalize (s.producer consumer).1 = d, (s.producer consumer).2 = s' at hstep hasked hoffers
  cases hstep with
  | idle result contents stays =>
    refine .quiet hoffers fun i => ?_
    by_cases hi : i = x.multiplexor.due
    · rw [hi, hasked, hcall.source]
    · exact hothers i hi
  | refused chunk rest _ contents answer consuming remaining parameters capturing =>
    refine .offers s s' chunk rest hcall.source contents hoffers hasked hothers parameters
      capturing ?_
    rw [consuming, answer]
    rfl
  | accepted chunk rest _ result contents answer consuming remaining stays parameters capturing =>
    refine .offers s s' chunk rest hcall.source contents hoffers hasked hothers parameters
      capturing ?_
    rw [consuming, answer]
    rfl

/-- A source that is being consumed is due. -/
theorem Serialised.due_of_consuming (hx : x.Serialised) {i : ℕ} {s : Source}
    (hs : x.source? i = some s) (hconsuming : s.consuming = true) : x.multiplexor.due = i :=
  Multiplexor.due_of_current (hx.current i s hs hconsuming)

/-- The chunk that was refused last is the first one of the source that is due. -/
theorem Serialised.refused_first (hx : x.Serialised) {last : Offer}
    (hlast : x.offers.getLast? = some last) (hrefused : last.accepted = false) {s : Source}
    {chunk : Chunk} {rest : List Chunk} (hs : x.source? x.multiplexor.due = some s)
    (hcontents : s.queue.contents = chunk :: rest) :
    last.source = x.multiplexor.due ∧ last.chunk = chunk := by
  obtain ⟨t, more, ht, hconsuming, hpending⟩ := hx.pending last hlast hrefused
  have hdue := hx.due_of_consuming ht hconsuming
  rw [← hdue, hs] at ht
  obtain rfl := Option.some.inj ht
  rw [hcontents] at hpending
  exact ⟨hdue.symm, (List.cons.inj hpending).1.symm⟩

/-- A read keeps the rates. -/
theorem read_rated (hx : x.Serialised) {i : ℕ} {frames : List (List UInt8)} {stale : List UInt8}
    {timestamp : Timestamp} (he : x.enabled (.read i frames stale timestamp)) {j : ℕ}
    {s : Source} (hs : x.source? j = some s) (hrated : s.Rated) :
    ∃ s', (x.onRead i frames stale timestamp).source? j = some s' ∧
      s'.parameters = s.parameters ∧ s'.consuming = s.consuming ∧ s'.Rated := by
  refine ⟨_, by rw [source?_onRead, hs]; rfl, ?_⟩
  have hread := @read_source i j _ s (hx.ordered j s hs) frames stale timestamp (fun hij => by
    subst hij
    exact he s hs)
  split
  · rename_i hij
    subst hij
    rw [if_pos rfl] at hread
    refine ⟨Source.step_parameters s _, hread.2.consuming, ?_⟩
    show (s.step (.read frames stale timestamp)).Rated
    rw [Source.step_read (he s hs).1]
    exact Source.onFrames_rated hrated (hx.ordered _ s hs).allocated _ _ _
  · exact ⟨rfl, rfl, hrated⟩

end Pipeline

namespace Streamer

/-- Only a chunk changes the sampling rate. -/
theorem step_samplingRate (t : Streamer) {e : Stimulus} (he : NoChunk e) :
    (step t e).samplingRate = t.samplingRate := by
  cases e with
  | start environment =>
    rw [step, Streamer.start, processEvent_start]
    split <;> rfl
  | stop environment =>
    rw [step, Streamer.stop, processEvent_stop]
    split <;> rfl
  | slimProtoOpen connection environment => rfl
  | slimProtoClose connection =>
    rw [step, onSlimProtoClose]
    split <;> rfl
  | slimProtoData connection buffer timestamp environments =>
    rw [step, onSlimProtoData]
    split
    · rfl
    · dsimp only
      split <;> rfl
  | chunk environment answers chunk => exact he.elim
  | pingTimer connection environment => rfl
  | pingHandler connection environment => rfl
  | httpData connection buffer =>
    show (t.onHTTPData connection buffer).1.samplingRate = _
    rw [onHTTPData]
    split
    · rfl
    · split
      · rfl
      · split <;> rfl
  | httpClose connection =>
    rw [step, onHTTPClose]
    split
    · rfl
    · dsimp only
      split <;> rfl
  | httpRemoved connection => rfl

/-- Only a chunk begins a stream, and makes it end. -/
theorem step_state (t : Streamer) {e : Stimulus} (he : NoChunk e) :
    (step t e).state = t.state ∨ (step t e).state = .started ∨ (step t e).state = .stopped := by
  cases e with
  | start environment =>
    rw [step, Streamer.start, processEvent_start]
    split
    · exact Or.inr (Or.inl rfl)
    · exact Or.inl rfl
  | stop environment =>
    rw [step, Streamer.stop, processEvent_stop]
    split
    · exact Or.inl rfl
    · exact Or.inr (Or.inr rfl)
  | slimProtoOpen connection environment => exact Or.inl rfl
  | slimProtoClose connection =>
    rw [step, onSlimProtoClose]
    split <;> exact Or.inl rfl
  | chunk environment answers chunk => exact he.elim
  | _ => exact Or.inl (step_forSession rfl t).state

/-- What is completed, pending or was presented does not depend on who joins or leaves. -/
theorem logOther_items (d : Delivery) (e : Stimulus) :
    (logOther d e).items = d.log.items ∧ (logOther d e).pending = d.log.pending ∧
      (logOther d e).presented = d.log.presented := by
  rw [logOther.eq_def]
  split
  · exact ⟨rfl, rfl, rfl⟩
  · split <;> exact ⟨rfl, rfl, rfl⟩
  · exact ⟨rfl, rfl, rfl⟩

end Streamer

/-! ### The application -/

structure Application where
  pipeline : Pipeline
  delivery : Streamer.Delivery
  /-- The number of the presentation. -/
  number : ℕ
  /-- The chunks that were offered to the sessions and refused by nobody, and their sources. -/
  streamed : List (ℕ × Chunk)

namespace Application

open Pipeline (twoSources)

/-- A turn of a producer thread, a call by the scheduler, or another call of the Streamer. -/
inductive Stimulus where
  | read (source : ℕ) (frames : List (List UInt8)) (stale : List UInt8) (timestamp : Timestamp)
  | produceChunk (environment : Environment) (answers : ℕ → Bool)
  | other (e : Streamer.Stimulus)

def create (sources : List Source) (streamingPort : ℕ) (format : FormatSelection)
    (gain : Option ℕ) (now : Timestamp) : Application where
  pipeline := Pipeline.create sources
  delivery := ⟨Streamer.create streamingPort format gain now, Log.empty⟩
  number := 0
  streamed := []

def enabled (x : Application) : Stimulus → Prop
  | .read i frames stale timestamp => x.pipeline.enabled (.read i frames stale timestamp)
  | .produceChunk _ _ => True
  | .other e => Streamer.NoChunk e ∧ Streamer.enabled x.delivery.streamer e

instance (x : Application) : DecidablePred x.enabled
  | .read i frames stale timestamp =>
    inferInstanceAs (Decidable (x.pipeline.enabled (.read i frames stale timestamp)))
  | .produceChunk _ _ => instDecidableTrue
  | .other e => inferInstanceAs (Decidable (Streamer.NoChunk e ∧ Streamer.enabled _ e))

/-- The number of the next presentation: a stream that is prepared begins with a new one. -/
def nextNumber (x : Application) : ℕ :=
  if x.delivery.streamer.state = .started then x.number + 1 else x.number

/-- `consumeChunk`. -/
def consumer (environment : Environment) (answers : ℕ → Bool) (x : Application) (chunk : Chunk) :
    Bool :=
  (x.delivery.streamer.consumeChunk environment answers chunk).1

/-- The Streamer is offered a chunk. -/
def present (environment : Environment) (answers : ℕ → Bool) (x : Application) (offer : Offer) :
    Application :=
  { x with
    delivery :=
      ⟨(x.delivery.streamer.consumeChunk environment answers offer.chunk).2,
        x.delivery.logAfter environment answers (x.nextNumber, offer.chunk)⟩
    number := if offer.accepted then x.nextNumber + 1 else x.nextNumber
    streamed := x.streamed ++
      if x.delivery.completes environment answers offer.chunk then [(offer.source, offer.chunk)]
      else [] }

/-- `producerPtr->produceChunk`, with `consumerPtr->consumeChunk`. -/
def produceChunk (environment : Environment) (answers : ℕ → Bool) (x : Application) :
    Application :=
  let consumer := x.consumer environment answers
  (x.pipeline.offersOfStep (.produceChunk consumer)).foldl (present environment answers)
    { x with pipeline := x.pipeline.produceChunk consumer }

def step (x : Application) : Stimulus → Application
  | .read i frames stale timestamp =>
    { x with pipeline := x.pipeline.onRead i frames stale timestamp }
  | .produceChunk environment answers => x.produceChunk environment answers
  | .other e => { x with delivery := Streamer.deliveryStep x.delivery (.other e) }

def system : System Application Stimulus where
  enabled := enabled
  step := step

instance (x : Application) (e : Stimulus) : Decidable (system.enabled x e) :=
  inferInstanceAs (Decidable (x.enabled e))

/-! ### The invariant -/

/-- **A stream of source `i` goes on**, with the given chunks so far. -/
structure Plays (x : Application) (i : ℕ) (s : Source) (epoch : List Chunk) : Prop where
  source : x.pipeline.source? i = some s
  consuming : s.consuming = true
  rate : s.parameters.samplingRate = x.delivery.streamer.samplingRate
  accepted : epoch.map (Prod.mk i) <:+ Pipeline.accepted x.pipeline.offers
  data : ∀ chunk ∈ epoch, chunk.endOfStream = false
  items : x.delivery.log.items.map Prod.snd = epoch
  /-- What is pending is offered again. -/
  pending : ∀ item, x.delivery.log.pending = some item →
    item.1 = x.number ∧ x.pipeline.offers.getLast? = some ⟨i, item.2, false⟩
  fresh : ∀ item ∈ x.delivery.log.presented, item.1 = x.number →
    x.delivery.log.pending = some item

/-- The data chunks of some sources. -/
def dataOf (chunks : List (ℕ × Chunk)) : List (ℕ × Chunk) :=
  chunks.filter fun e => !e.2.endOfStream

/-- **The invariant of the application.** -/
structure Linked (x : Application) : Prop where
  serialised : x.pipeline.Serialised
  circular : x.pipeline.multiplexor.Circular
  rated : ∀ i s, x.pipeline.source? i = some s → s.parameters.samplingRate ≠ 0 ∧ s.Rated
  numbers : ∀ item ∈ x.delivery.log.presented, item.1 ≤ x.number
  plays : x.delivery.streamer.inStream → ∃ i s epoch, x.Plays i s epoch
  /-- The end of a stream is presented until the sessions have finished. -/
  drains : x.delivery.streamer.state = .draining →
    ∃ last, x.pipeline.offers.getLast? = some last ∧ last.accepted = false ∧
      last.chunk.endOfStream = true
  streamed : dataOf x.streamed = dataOf (Pipeline.accepted x.pipeline.offers)

theorem dataOf_append (chunks more : List (ℕ × Chunk)) :
    dataOf (chunks ++ more) = dataOf chunks ++ dataOf more :=
  List.filter_append _ _

theorem create_linked {sources : List Source} (hne : sources ≠ [])
    (hsources : ∀ s ∈ sources,
      ∃ p now, p.Valid ∧ p.samplingRate ≠ 0 ∧ s = Source.create p now)
    (streamingPort : ℕ) (format : FormatSelection) (gain : Option ℕ) (now : Timestamp) :
    Linked (create sources streamingPort format gain now) where
  serialised := Pipeline.create_serialised fun s hs => by
    obtain ⟨p, now, hp, -, rfl⟩ := hsources s hs
    exact ⟨p, now, hp, rfl⟩
  circular := Pipeline.create_circular hne
  rated i s hs := by
    obtain ⟨p, now, -, hrate, rfl⟩ := hsources s (List.mem_of_getElem? hs)
    exact ⟨hrate, List.forall_mem_nil _⟩
  numbers := List.forall_mem_nil _
  plays h := by rcases h with h | h | h <;> cases h
  drains h := by cases h
  streamed := rfl

variable {x : Application}

/-- A turn of a producer thread. -/
theorem read_linked (hx : x.Linked) {i : ℕ} {frames : List (List UInt8)} {stale : List UInt8}
    {timestamp : Timestamp} (he : x.pipeline.enabled (.read i frames stale timestamp)) :
    Linked { x with pipeline := x.pipeline.onRead i frames stale timestamp } where
  serialised := Pipeline.read_serialised hx.serialised he
  circular := hx.circular.setProducers (Pipeline.onRead_length x.pipeline i frames stale timestamp)
  rated j s' hs' := by
    obtain ⟨s, hs, -⟩ : ∃ s, x.pipeline.source? j = some s ∧ _ := by
      rw [show ({ x with pipeline := x.pipeline.onRead i frames stale timestamp } :
        Application).pipeline.source? j = _ from Pipeline.source?_onRead i frames stale timestamp
          x.pipeline j, Option.map_eq_some_iff] at hs'
      exact hs'
    obtain ⟨hrate, hrated⟩ := hx.rated j s hs
    obtain ⟨s'', hs'', hparameters, -, hrated'⟩ := Pipeline.read_rated hx.serialised he hs hrated
    obtain rfl := Option.some.inj (hs'.symm.trans hs'')
    exact ⟨by rwa [hparameters], hrated'⟩
  numbers := hx.numbers
  plays h := by
    obtain ⟨j, s, epoch, hplays⟩ := hx.plays h
    obtain ⟨s', hs', hparameters, hconsuming, -⟩ :=
      Pipeline.read_rated hx.serialised he hplays.source (hx.rated j s hplays.source).2
    exact ⟨j, s', epoch, hs', hconsuming.trans hplays.consuming,
      (congrArg Alsa.Parameters.samplingRate hparameters).trans hplays.rate, hplays.accepted,
      hplays.data, hplays.items, hplays.pending, hplays.fresh⟩
  drains := hx.drains
  streamed := hx.streamed

/-- Another call of the Streamer. -/
theorem other_linked (hx : x.Linked) {e : Streamer.Stimulus} (he : Streamer.NoChunk e) :
    Linked { x with delivery := Streamer.deliveryStep x.delivery (.other e) } where
  serialised := hx.serialised
  circular := hx.circular
  rated := hx.rated
  numbers item hitem := by
    obtain ⟨-, -, hpresented⟩ := Streamer.logOther_items x.delivery e
    exact hx.numbers item (hpresented ▸ hitem)
  plays h := by
    obtain ⟨hitems, hpending, hpresented⟩ := Streamer.logOther_items x.delivery e
    have hin : x.delivery.streamer.inStream := by
      rcases Streamer.step_state x.delivery.streamer he with hstate | hstate | hstate
      · rw [Streamer.inStream, ← hstate]
        exact h
      all_goals
        rw [Streamer.inStream, show (Streamer.deliveryStep x.delivery (.other e)).streamer.state = _
          from hstate] at h
        rcases h with h | h | h <;> cases h
    obtain ⟨i, s, epoch, hplays⟩ := hx.plays hin
    refine ⟨i, s, epoch, hplays.source, hplays.consuming, ?_, hplays.accepted, hplays.data, ?_, ?_,
      ?_⟩
    · exact hplays.rate.trans (Streamer.step_samplingRate x.delivery.streamer he).symm
    · exact (congrArg (List.map Prod.snd) hitems).trans hplays.items
    · exact fun item hitem => hplays.pending item (hpending ▸ hitem)
    · intro item hitem hnumber
      exact hpending.trans (hplays.fresh item (hpresented ▸ hitem) hnumber)
  drains h := by
    rcases Streamer.step_state x.delivery.streamer he with hstate | hstate | hstate
    · exact hx.drains (hstate.symm.trans h)
    all_goals
      rw [show (Streamer.deliveryStep x.delivery (.other e)).streamer.state = _ from hstate] at h
      cases h
  streamed := hx.streamed

/-! ### The presentation of a chunk -/

/-- What is known of the log when the first chunk of the source that is due is presented. -/
structure Resumes (x : Application) (chunk : Chunk) (epoch : List Chunk) : Prop where
  accepted : epoch.map (Prod.mk x.pipeline.multiplexor.due) <:+
    Pipeline.accepted x.pipeline.offers
  data : ∀ chunk ∈ epoch, chunk.endOfStream = false
  items : x.delivery.logBefore.items.map Prod.snd = epoch
  pending : ∀ item, x.delivery.logBefore.pending = some item → item = (x.nextNumber, chunk)
  fresh : ∀ item ∈ x.delivery.logBefore.presented, item.1 = x.nextNumber →
    x.delivery.logBefore.pending = some item
  numbers : ∀ item ∈ x.delivery.logBefore.presented, item.1 ≤ x.nextNumber

/-- A stream that is prepared begins anew, and one that goes on, goes on. -/
theorem Linked.resumes (hx : x.Linked)
    (h : x.delivery.streamer.state = .started ∨ x.delivery.streamer.inStream) {s : Source}
    {chunk : Chunk} {rest : List Chunk}
    (hs : x.pipeline.source? x.pipeline.multiplexor.due = some s)
    (hcontents : s.queue.contents = chunk :: rest) : ∃ epoch, x.Resumes chunk epoch := by
  by_cases hstarted : x.delivery.streamer.state = .started
  · have hlog : x.delivery.logBefore = x.delivery.log.reset := if_pos hstarted
    have hnumber : x.nextNumber = x.number + 1 := if_pos hstarted
    refine ⟨[], List.nil_suffix, List.forall_mem_nil _, ?_, ?_, ?_, ?_⟩
    · rw [hlog]
      rfl
    · intro item hitem
      rw [hlog] at hitem
      cases hitem
    · intro item hitem heq
      rw [hlog] at hitem
      have hle := hx.numbers item hitem
      omega
    · intro item hitem
      rw [hlog] at hitem
      have hle := hx.numbers item hitem
      omega
  · have hlog : x.delivery.logBefore = x.delivery.log := if_neg hstarted
    have hnumber : x.nextNumber = x.number := if_neg hstarted
    obtain ⟨i, s', epoch, hplays⟩ := hx.plays (h.resolve_left hstarted)
    have hdue := hx.serialised.due_of_consuming hplays.source hplays.consuming
    refine ⟨epoch, ?_, hplays.data, ?_, ?_, ?_, ?_⟩
    · rw [hdue]
      exact hplays.accepted
    · rw [hlog]
      exact hplays.items
    · intro item hitem
      rw [hlog] at hitem
      obtain ⟨hitemNumber, hlast⟩ := hplays.pending item hitem
      obtain ⟨-, hchunk⟩ := hx.serialised.refused_first hlast rfl hs hcontents
      rw [hnumber, ← hitemNumber, ← hchunk]
    · rw [hlog, hnumber]
      exact hplays.fresh
    · rw [hlog, hnumber]
      exact hx.numbers

/-- The chunk may be offered to the sessions. -/
theorem Resumes.mayPresent {chunk : Chunk} {epoch : List Chunk} (h : x.Resumes chunk epoch) :
    x.delivery.logBefore.MayPresent (x.nextNumber, chunk) := by
  cases hpending : x.delivery.logBefore.pending with
  | some item =>
    left
    rw [hpending, h.pending item hpending]
  | none =>
    right
    refine ⟨hpending, fun hmem => ?_⟩
    have hsome := h.fresh _ hmem rfl
    rw [hpending] at hsome
    cases hsome

/-- The first chunk of the source that is due was offered, with the given result. -/
structure Offers (x : Application) (p : Pipeline) (chunk : Chunk) (result : Bool) : Prop where
  serialised : p.Serialised
  circular : p.multiplexor.Circular
  rated : ∀ i s, p.source? i = some s → s.parameters.samplingRate ≠ 0 ∧ s.Rated
  offers : p.offers = x.pipeline.offers ++ [⟨x.pipeline.multiplexor.due, chunk, result⟩]
  first : ∃ s rest, x.pipeline.source? x.pipeline.multiplexor.due = some s ∧
    s.queue.contents = chunk :: rest
  asked : ∃ s, p.source? x.pipeline.multiplexor.due = some s ∧
    s.parameters.samplingRate = chunk.samplingRate ∧
    s.consuming = (!result || !chunk.endOfStream)

namespace Offers

variable {p : Pipeline} {chunk : Chunk} {result : Bool}

theorem last (h : x.Offers p chunk result) :
    p.offers.getLast? = some ⟨x.pipeline.multiplexor.due, chunk, result⟩ := by
  rw [h.offers, List.getLast?_concat]

theorem accepted (h : x.Offers p chunk result) :
    Pipeline.accepted p.offers = Pipeline.accepted x.pipeline.offers ++
      if result then [(x.pipeline.multiplexor.due, chunk)] else [] := by
  rw [h.offers, Pipeline.accepted_concat]

/-- What a presentation leaves. -/
theorem linked (h : x.Offers p chunk result) (hx : x.Linked) {d : Streamer.Delivery}
    {completed : Bool}
    (hstep : Streamer.ChunkStep (x.nextNumber, chunk) x.delivery d completed result) :
    Linked
      { pipeline := p
        delivery := d
        number := if result then x.nextNumber + 1 else x.nextNumber
        streamed := x.streamed ++
          if completed then [(x.pipeline.multiplexor.due, chunk)] else [] } := by
  obtain ⟨s, rest, hs, hcontents⟩ := h.first
  obtain ⟨s', hs', hrate, hconsuming⟩ := h.asked
  have hnumber : x.nextNumber ≤ if result then x.nextNumber + 1 else x.nextNumber := by
    split <;> omega
  -- data is streamed and consumed, or neither
  have hstreamed : (chunk.endOfStream = false → completed = result) →
      dataOf (x.streamed ++ if completed then [(x.pipeline.multiplexor.due, chunk)] else []) =
        dataOf (Pipeline.accepted p.offers) := by
    intro hdata
    rw [h.accepted, dataOf_append, dataOf_append, hx.streamed]
    cases hend : chunk.endOfStream with
    | false => rw [hdata hend]
    | true => cases completed <;> cases result <;> simp [dataOf, hend]
  have hnumbers : ∀ {log : Log ℕ Streamer.Item}, (∀ item ∈ log.presented, item.1 ≤ x.nextNumber) →
      ∀ item ∈ log.presented, item.1 ≤ if result then x.nextNumber + 1 else x.nextNumber :=
    fun hlog item hitem => Nat.le_trans (hlog item hitem) hnumber
  cases hstep with
  | stopped before same =>
    subst same
    have hnext : x.nextNumber = x.number := if_neg (by rw [before]; decide)
    refine ⟨h.serialised, h.circular, h.rated, ?_, ?_, ?_, hstreamed fun _ => rfl⟩
    · exact hnumbers (hnext ▸ hx.numbers)
    · intro hin
      rw [Streamer.inStream, show x.delivery.streamer.state = .stopped from before] at hin
      rcases hin with hin | hin | hin <;> cases hin
    · intro hdraining
      rw [show x.delivery.streamer.state = .stopped from before] at hdraining
      cases hdraining
  | prepares before after log rate =>
    obtain ⟨epoch, hresumes⟩ := hx.resumes (before.imp_right Or.inl) hs hcontents
    refine ⟨h.serialised, h.circular, h.rated, ?_, ?_, ?_, hstreamed fun _ => rfl⟩
    · exact hnumbers (log ▸ hresumes.numbers)
    · intro _
      refine ⟨x.pipeline.multiplexor.due, s', epoch, hs', hconsuming, hrate.trans rate.symm, ?_,
        hresumes.data, ?_, ?_, ?_⟩
      · show _ <:+ Pipeline.accepted p.offers
        rw [h.accepted]
        simpa using hresumes.accepted
      · exact log ▸ hresumes.items
      · intro item hitem
        have hitem := hresumes.pending item (log ▸ hitem)
        subst hitem
        exact ⟨rfl, h.last⟩
      · exact log ▸ hresumes.fresh
    · intro hdraining
      rw [show d.streamer.state = .preparing from after] at hdraining
      cases hdraining
  | streams before isData after offers _ log rate =>
    obtain ⟨epoch, hresumes⟩ := hx.resumes before hs hcontents
    have hpresented : ∀ item ∈ d.log.presented, item.1 ≤ x.nextNumber := by
      rw [log]
      exact List.forall_mem_cons.mpr ⟨le_rfl, hresumes.numbers⟩
    refine ⟨h.serialised, h.circular, h.rated, hnumbers hpresented, ?_, ?_,
      hstreamed fun _ => rfl⟩
    · intro _
      cases result with
      | true =>
        refine ⟨x.pipeline.multiplexor.due, s', epoch ++ [chunk], hs', ?_, hrate.trans rate.symm,
          ?_, ?_, ?_, ?_, ?_⟩
        · rw [hconsuming, isData]
          rfl
        · show _ <:+ Pipeline.accepted p.offers
          obtain ⟨earlier, hearlier⟩ := hresumes.accepted
          refine ⟨earlier, ?_⟩
          rw [h.accepted, ← hearlier, List.map_append, List.append_assoc]
          rfl
        · rw [List.forall_mem_append, List.forall_mem_singleton]
          exact ⟨hresumes.data, isData⟩
        · show d.log.items.map Prod.snd = _
          rw [log, ← hresumes.items]
          exact List.map_append
        · intro item hitem
          rw [show d.log.pending = none from by rw [log]; rfl] at hitem
          cases hitem
        · intro item hitem heq
          have hle := hpresented item hitem
          have heq : item.1 = x.nextNumber + 1 := heq
          omega
      | false =>
        refine ⟨x.pipeline.multiplexor.due, s', epoch, hs', hconsuming, hrate.trans rate.symm, ?_,
          hresumes.data, ?_, ?_, ?_⟩
        · show _ <:+ Pipeline.accepted p.offers
          rw [h.accepted]
          simpa using hresumes.accepted
        · show d.log.items.map Prod.snd = _
          rw [log]
          exact hresumes.items
        · intro item hitem
          rw [show d.log.pending = some (x.nextNumber, chunk) from by rw [log]; rfl] at hitem
          obtain rfl := Option.some.inj hitem
          exact ⟨rfl, h.last⟩
        · intro item hitem heq
          show d.log.pending = some item
          rw [log] at hitem ⊢
          rcases List.mem_cons.mp hitem with rfl | hitem
          · rfl
          · exact congrArg some (hresumes.pending item (hresumes.fresh item hitem heq)).symm
    · intro hdraining
      rcases after with hafter | hafter <;>
        rw [show d.streamer.state = _ from hafter] at hdraining <;> cases hdraining
  | ends before isEnd offers _ _ after log =>
    obtain ⟨epoch, hresumes⟩ := hx.resumes before hs hcontents
    refine ⟨h.serialised, h.circular, h.rated, ?_, ?_, ?_, hstreamed fun hdata => ?_⟩
    · apply hnumbers
      rw [log]
      exact List.forall_mem_cons.mpr ⟨le_rfl, hresumes.numbers⟩
    · intro hin
      rw [Streamer.inStream, show d.streamer.state = _ from after] at hin
      cases result <;> rcases hin with hin | hin | hin <;> cases hin
    · intro hdraining
      rw [show d.streamer.state = _ from after] at hdraining
      cases result with
      | true => cases hdraining
      | false => exact ⟨_, h.last, rfl, isEnd⟩
    · rw [isEnd] at hdata
      cases hdata
  | drains before _ after log =>
    obtain ⟨last, hlast, hrefused, hlastEnd⟩ := hx.drains before
    obtain ⟨-, hchunk⟩ := hx.serialised.refused_first hlast hrefused hs hcontents
    have hend : chunk.endOfStream = true := hchunk ▸ hlastEnd
    have hnext : x.nextNumber = x.number := if_neg (by rw [before]; decide)
    refine ⟨h.serialised, h.circular, h.rated, ?_, ?_, ?_, hstreamed fun hdata => ?_⟩
    · apply hnumbers
      rw [log, hnext]
      exact hx.numbers
    · intro hin
      rw [Streamer.inStream, show d.streamer.state = _ from after] at hin
      cases result <;> rcases hin with hin | hin | hin <;> cases hin
    · intro hdraining
      rw [show d.streamer.state = _ from after] at hdraining
      cases result with
      | true => cases hdraining
      | false => exact ⟨_, h.last, rfl, hend⟩
    · rw [hend] at hdata
      cases hdata

end Offers

/-! ### The steps -/

variable {environment : Environment} {answers : ℕ → Bool}

/-- **A call by the scheduler** offers nothing and changes nothing the Streamer knows of, or it
offers the first chunk of the source that is due. -/
theorem produceChunk_cases (hx : x.Linked) (environment : Environment) (answers : ℕ → Bool) :
    (x.produceChunk environment answers =
        { x with pipeline := x.pipeline.produceChunk (x.consumer environment answers) } ∧
      Linked { x with pipeline := x.pipeline.produceChunk (x.consumer environment answers) } ∧
      x.pipeline.offersOfStep (.produceChunk (x.consumer environment answers)) = []) ∨
    ∃ chunk, x.Offers (x.pipeline.produceChunk (x.consumer environment answers)) chunk
        (x.consumer environment answers chunk) ∧
      x.produceChunk environment answers = present environment answers
        { x with pipeline := x.pipeline.produceChunk (x.consumer environment answers) }
        ⟨x.pipeline.multiplexor.due, chunk, x.consumer environment answers chunk⟩ ∧
      x.pipeline.offersOfStep (.produceChunk (x.consumer environment answers)) =
        [⟨x.pipeline.multiplexor.due, chunk, x.consumer environment answers chunk⟩] := by
  have hserialised := Pipeline.produceChunk_serialised hx.serialised
    (x.consumer environment answers)
  have hcircular := (Pipeline.step_circular hx.circular
    (.produceChunk (x.consumer environment answers))).1
  have happend := x.pipeline.step_offers (.produceChunk (x.consumer environment answers))
  cases Pipeline.produceStep hx.circular (x.consumer environment answers) with
  | quiet offers sources =>
    left
    rw [offers, List.append_nil] at happend
    have hoffers : (x.pipeline.produceChunk (x.consumer environment answers)).offers =
        x.pipeline.offers := happend
    refine ⟨by rw [produceChunk, offers]; rfl,
      ⟨hserialised, hcircular, ?_, hx.numbers, ?_, ?_, ?_⟩, offers⟩
    · intro i s hs
      exact hx.rated i s ((sources i).symm.trans hs)
    · intro hin
      obtain ⟨i, s, epoch, hplays⟩ := hx.plays hin
      refine ⟨i, s, epoch, (sources i).trans hplays.source, hplays.consuming, hplays.rate, ?_,
        hplays.data, hplays.items, ?_, hplays.fresh⟩
      · exact hoffers ▸ hplays.accepted
      · intro item hitem
        rw [hoffers]
        exact hplays.pending item hitem
    · intro hdraining
      rw [hoffers]
      exact hx.drains hdraining
    · rw [hoffers]
      exact hx.streamed
  | offers s s' chunk rest source contents offers asked others parameters capturing consuming =>
    right
    rw [offers] at happend
    obtain ⟨hrate, hrated⟩ := hx.rated _ s source
    have hmem := (hx.serialised.ordered _ s source).mem_enqueued contents
    refine ⟨chunk, ⟨hserialised, hcircular, ?_, happend, ⟨s, rest, source, contents⟩, s', asked, ?_,
      consuming⟩, by rw [produceChunk, offers]; rfl, offers⟩
    · intro i t ht
      by_cases hi : i = x.pipeline.multiplexor.due
      · rw [hi, asked] at ht
        obtain rfl := Option.some.inj ht
        rw [Source.Rated, parameters, capturing]
        exact ⟨hrate, hrated⟩
      · exact hx.rated i t ((others i hi).symm.trans ht)
    · rw [parameters, hrated chunk hmem]

namespace Offers

variable {p : Pipeline} {chunk : Chunk} {result : Bool}

theorem rate_ne_zero (h : x.Offers p chunk result) : chunk.samplingRate ≠ 0 := by
  obtain ⟨s, hs, hrate, -⟩ := h.asked
  rw [← hrate]
  exact (h.rated _ s hs).1

/-- The chunk belongs to the stream that goes on. -/
theorem same_rate (h : x.Offers p chunk result) (hx : x.Linked)
    (hin : x.delivery.streamer.inStream) :
    x.delivery.streamer.samplingRate = chunk.samplingRate := by
  obtain ⟨i, s, epoch, hplays⟩ := hx.plays hin
  obtain ⟨t, rest, ht, hcontents⟩ := h.first
  rw [hx.serialised.due_of_consuming hplays.source hplays.consuming, hplays.source] at ht
  obtain rfl := Option.some.inj ht
  rw [← hplays.rate]
  exact ((hx.rated i s hplays.source).2 chunk
    ((hx.serialised.ordered i s hplays.source).mem_enqueued hcontents)).symm

theorem chunkStep (h : x.Offers p chunk result) (hx : x.Linked) :
    Streamer.ChunkStep (x.nextNumber, chunk) x.delivery
      ⟨(x.delivery.streamer.consumeChunk environment answers chunk).2,
        x.delivery.logAfter environment answers (x.nextNumber, chunk)⟩
      (x.delivery.completes environment answers chunk) (x.consumer environment answers chunk) :=
  Streamer.consumeChunk_step (x.nextNumber, chunk) h.rate_ne_zero (h.same_rate hx)

end Offers

/-- **Every step keeps the invariant.** -/
theorem step_linked (hx : x.Linked) {e : Stimulus} (he : x.enabled e) : (x.step e).Linked := by
  cases e with
  | read i frames stale timestamp => exact read_linked hx he
  | produceChunk environment answers =>
    rcases x.produceChunk_cases hx environment answers with
      ⟨heq, hlinked, -⟩ | ⟨chunk, hoffers, heq, -⟩
    · rw [step, heq]
      exact hlinked
    · rw [step, heq]
      exact hoffers.linked hx (hoffers.chunkStep hx)
  | other e => exact other_linked hx he.1

theorem exec_linked (hx : x.Linked) {es : List Stimulus} (hes : system.Admits x es) :
    (system.exec x es).Linked :=
  system.exec_invariant Linked (fun _ _ hx he => step_linked hx he) es x hx hes

/-- A step is a few calls of the delivery. -/
theorem step_delivery (hx : x.Linked) {e : Stimulus} (he : x.enabled e) :
    ∃ calls, Streamer.deliverySystem.Admits x.delivery calls ∧
      Streamer.deliverySystem.exec x.delivery calls = (x.step e).delivery := by
  cases e with
  | read i frames stale timestamp => exact ⟨[], trivial, rfl⟩
  | produceChunk environment answers =>
    rcases x.produceChunk_cases hx environment answers with
      ⟨heq, -⟩ | ⟨chunk, hoffers, heq, -⟩
    · exact ⟨[], trivial, by rw [step, heq]; rfl⟩
    · refine ⟨Streamer.chunkCalls environment answers (x.nextNumber, chunk) x.delivery.streamer,
        Streamer.admits_chunkCalls hoffers.rate_ne_zero ?_, ?_⟩
      · intro hstreaming
        obtain ⟨s, rest, hs, hcontents⟩ := hoffers.first
        have hin : x.delivery.streamer.state = .started ∨ x.delivery.streamer.inStream :=
          Streamer.inStream_of_streaming hstreaming
        obtain ⟨epoch, hresumes⟩ := hx.resumes hin hs hcontents
        exact hresumes.mayPresent
      · rw [step, heq]
        exact Streamer.exec_chunkCalls (x.nextNumber, chunk) hoffers.rate_ne_zero _
  | other e => exact ⟨[.other e], ⟨he, trivial⟩, rfl⟩

/-! ### What gets to the sessions -/

/-- The deliveries of a run are those of a broadcast. -/
theorem exec_broadcasts {sources : List Source} {streamingPort : ℕ} {format : FormatSelection}
    {gain : Option ℕ} {now : Timestamp}
    (hx : (create sources streamingPort format gain now).Linked) {es : List Stimulus}
    (hes : system.Admits (create sources streamingPort format gain now) es) :
    Streamer.ExactlyOnce
      (system.exec (create sources streamingPort format gain now) es).delivery := by
  obtain ⟨calls, hcalls, -, hexec⟩ := System.exec_simulation system Streamer.deliverySystem
    (fun x d => x.Linked ∧ d = x.delivery) (by
      rintro x _ e ⟨hx, rfl⟩ he
      obtain ⟨calls, hadmits, hexec⟩ := step_delivery hx he
      exact ⟨calls, hadmits, step_linked hx he, hexec⟩) es _ _ ⟨hx, rfl⟩ hes
  have hstart : Streamer.Broadcasts (create sources streamingPort format gain now).delivery
      (⟨⟨0, []⟩, Log.empty⟩ : Run ℕ Streamer.Item) :=
    ⟨Streamer.registered_create streamingPort format gain now, List.forall_mem_nil _, rfl, rfl⟩
  obtain ⟨calls', hadmits, hbroadcasts⟩ := Streamer.delivery_simulates _ _ hstart calls hcalls
  rw [← hexec]
  refine Streamer.exactlyOnce_of_broadcasts hbroadcasts
    (delivered_exec delivered_empty calls' hadmits) ?_
  exact Streamer.deliverySystem.exec_invariant Streamer.CountsFrames
    (fun _ _ => Streamer.countsFrames_step) calls _ rfl hcalls

/-- A player connects, a source captures, and the player refuses the first chunk once. -/
def onePlayer : List Stimulus :=
  Streamer.helloPlayer.map .other ++
    [.read 0 [[0, 1], [7, 3]] [] ⟨0⟩, .produceChunk Streamer.quiet (fun _ => true),
      .produceChunk Streamer.quiet (fun _ => true), .other Streamer.playerRequest,
      .produceChunk Streamer.quiet (fun _ => false), .produceChunk Streamer.quiet (fun _ => true),
      .read 0 [[8, 3]] [] ⟨0⟩, .produceChunk Streamer.quiet (fun _ => true)]

theorem twoSources_rated : ∀ s ∈ twoSources,
    ∃ p now, p.Valid ∧ p.samplingRate ≠ 0 ∧ s = Source.create p now := by
  intro s hs
  exact ⟨Source.narrow, ⟨0⟩, ⟨by decide, by decide⟩, by decide, List.eq_of_mem_replicate hs⟩

/-- **Each session gets each chunk of a stream once, and in order**, from the one that was
current when it joined: whatever the sources capture, whatever the sessions answer, whoever joins
and leaves, and however often the Streamer is stopped and started. -/
theorem exactly_once_each {sources : List Source} (hne : sources ≠ [])
    (hsources : ∀ s ∈ sources,
      ∃ p now, p.Valid ∧ p.samplingRate ≠ 0 ∧ s = Source.create p now)
    (streamingPort : ℕ) (format : FormatSelection) (gain : Option ℕ) (now : Timestamp)
    {es : List Stimulus}
    (hes : system.Admits (create sources streamingPort format gain now) es) :
    Streamer.ExactlyOnce
      (system.exec (create sources streamingPort format gain now) es).delivery :=
  exec_broadcasts (create_linked hne hsources streamingPort format gain now) hes

theorem exactly_once_each_onePlayer :
    Streamer.ExactlyOnce
        (system.exec (create twoSources 9001 .FLAC none ⟨0⟩) onePlayer).delivery ∧
      (system.exec (create twoSources 9001 .FLAC none ⟨0⟩) onePlayer).delivery.log.offers.map
        (fun o => (o.key, o.item.1, o.accepted)) = [(1, 1, false), (1, 1, true), (1, 2, true)] :=
  ⟨exactly_once_each (by decide) twoSources_rated 9001 .FLAC none ⟨0⟩ (by decide +kernel),
    by decide +kernel⟩

/-- **No data chunk is consumed without being streamed**: of what the Streamer has consumed, the
chunks with data are those that were offered to all sessions they were due for and refused by
nobody, in the same order and no more often. -/
theorem consumed_iff_streamed {sources : List Source} (hne : sources ≠ [])
    (hsources : ∀ s ∈ sources,
      ∃ p now, p.Valid ∧ p.samplingRate ≠ 0 ∧ s = Source.create p now)
    (streamingPort : ℕ) (format : FormatSelection) (gain : Option ℕ) (now : Timestamp)
    {es : List Stimulus}
    (hes : system.Admits (create sources streamingPort format gain now) es) :
    dataOf (Pipeline.accepted (system.exec
        (create sources streamingPort format gain now) es).pipeline.offers) =
      dataOf (system.exec (create sources streamingPort format gain now) es).streamed :=
  (exec_linked (create_linked hne hsources streamingPort format gain now) hes).streamed.symm

theorem consumed_iff_streamed_onePlayer :
    dataOf (Pipeline.accepted
        (system.exec (create twoSources 9001 .FLAC none ⟨0⟩) onePlayer).pipeline.offers) =
        dataOf (system.exec (create twoSources 9001 .FLAC none ⟨0⟩) onePlayer).streamed ∧
      (system.exec (create twoSources 9001 .FLAC none ⟨0⟩) onePlayer).streamed.map Prod.fst =
        [0, 0] :=
  ⟨consumed_iff_streamed (by decide) twoSources_rated 9001 .FLAC none ⟨0⟩ (by decide +kernel),
    by decide +kernel⟩

/-- A stream goes on that comes from one source. -/
structure OneSource (x : Application) (s : Source) : Prop where
  rate : s.parameters.samplingRate = x.delivery.streamer.samplingRate
  /-- The chunks of the stream were captured one after the other. -/
  history : x.delivery.log.history.map Prod.snd <:+: s.capturing.enqueued
  rates : ∀ item ∈ x.delivery.log.history,
    item.2.samplingRate = x.delivery.streamer.samplingRate
  /-- Each session has accepted some of them, one after the other. -/
  sessions : ∀ e ∈ x.delivery.streamer.sessionToChunkSequenceMap,
    (x.delivery.log.acceptedBy e.1).map Prod.snd <:+: s.capturing.enqueued

theorem fromSource_map (i : ℕ) (chunks : List Chunk) :
    SerialBlocks.fromSource i (chunks.map (Prod.mk i)) = chunks := by
  induction chunks with
  | nil => rfl
  | cons chunk chunks ih => simpa [SerialBlocks.fromSource] using ih

/-- The chunks of the stream that goes on are a stretch of what its source has captured. -/
theorem Plays.history {i : ℕ} {s : Source} {epoch : List Chunk} (h : x.Plays i s epoch)
    (hx : x.Linked) : x.delivery.log.history.map Prod.snd <:+: s.capturing.enqueued := by
  obtain ⟨earlier, hearlier⟩ := h.accepted
  have horder := (hx.serialised.ordered i s h.source).order
  rw [← hearlier, SerialBlocks.fromSource, List.filter_append, List.map_append] at horder
  have hepoch : ((epoch.map (Prod.mk i)).filter fun e => e.1 = i).map Prod.snd = epoch :=
    fromSource_map i epoch
  rw [hepoch] at horder
  rw [Log.history, List.map_append, h.items, ← horder]
  cases hpending : x.delivery.log.pending with
  | none =>
    refine ⟨(earlier.filter fun e => e.1 = i).map Prod.snd, s.queue.contents, ?_⟩
    rw [Option.toList_none, List.map_nil, List.append_nil]
  | some item =>
    obtain ⟨-, hlast⟩ := h.pending item hpending
    obtain ⟨t, rest, ht, -, hcontents⟩ := hx.serialised.pending _ hlast rfl
    rw [h.source] at ht
    obtain rfl := Option.some.inj ht
    refine ⟨(earlier.filter fun e => e.1 = i).map Prod.snd, rest, ?_⟩
    rw [hcontents, Option.toList_some, List.map_singleton]
    simp only [List.append_assoc, List.cons_append, List.nil_append]

/-- **A stream comes from one source**: as long as it goes on, what was presented in it, and what
each session has accepted, is a stretch of what that source has captured, and all of it has the
sampling rate the players were told. -/
theorem one_source_plays {sources : List Source} (hne : sources ≠ [])
    (hsources : ∀ s ∈ sources,
      ∃ p now, p.Valid ∧ p.samplingRate ≠ 0 ∧ s = Source.create p now)
    (streamingPort : ℕ) (format : FormatSelection) (gain : Option ℕ) (now : Timestamp)
    {es : List Stimulus}
    (hes : system.Admits (create sources streamingPort format gain now) es)
    (hin : (system.exec (create sources streamingPort format gain now)
      es).delivery.streamer.inStream) :
    ∃ i s, (system.exec (create sources streamingPort format gain now)
        es).pipeline.source? i = some s ∧
      OneSource (system.exec (create sources streamingPort format gain now) es) s := by
  have hcreated := create_linked hne hsources streamingPort format gain now
  have hlinked := exec_linked hcreated hes
  have honce := exec_broadcasts hcreated hes
  obtain ⟨i, s, epoch, hplays⟩ := hlinked.plays hin
  have hhistory := hplays.history hlinked
  refine ⟨i, s, hplays.source, hplays.rate, hhistory, ?_, ?_⟩
  · intro item hitem
    have hmem := hhistory.subset (List.mem_map_of_mem (f := Prod.snd) hitem)
    rw [← hplays.rate]
    exact (hlinked.rated i s hplays.source).2 item.2 hmem
  · intro e he
    rw [honce.run e he]
    refine List.IsInfix.trans ?_ hhistory
    exact ((List.drop_suffix _ _).isInfix.trans (List.take_prefix _ _).isInfix).map Prod.snd

theorem one_source_plays_onePlayer :
    ∃ i s, (system.exec (create twoSources 9001 .FLAC none ⟨0⟩) onePlayer).pipeline.source? i =
        some s ∧
      OneSource (system.exec (create twoSources 9001 .FLAC none ⟨0⟩) onePlayer) s := by
  have hin : (system.exec (create twoSources 9001 .FLAC none ⟨0⟩)
      onePlayer).delivery.streamer.inStream := Or.inr (Or.inl (by decide +kernel))
  exact one_source_plays (by decide) twoSources_rated 9001 .FLAC none ⟨0⟩ (by decide +kernel) hin

end Application

end SlimStreamer
