import SlimStreamer.FileConsumer

/-!
# The demultiplexor

`Demultiplexor<FileConsumer>`: one consumer for each sampling rate.  The current one stays for
as long as the chunks have its rate, and a chunk nobody has a consumer for counts as consumed.

* `Serving` — the current consumer is the first one of some rate;
* `exec_consumers` — so that each consumer goes through its own share of the calls;
* `filesLeft_eq` — the files left are those the consumers leave on their own.
-/

namespace SlimStreamer

structure Demultiplexor where
  consumers : List FileConsumer
  /-- The consumer referred to, by its index. -/
  currentConsumer : Option ℕ
  deriving DecidableEq

namespace Demultiplexor

def create (consumers : List FileConsumer) : Demultiplexor := ⟨consumers, none⟩

/-- The sampling rate of the consumer with an index. -/
def samplingRateOf (d : Demultiplexor) (i : ℕ) : Option ℕ :=
  d.consumers[i]?.map FileConsumer.samplingRate

/-- Giving up the current consumer if its sampling rate does not match. -/
def keepMatching (samplingRate : ℕ) (d : Demultiplexor) : Demultiplexor :=
  if (d.currentConsumer.bind d.samplingRateOf).any (fun rate => rate != samplingRate) then
    { d with currentConsumer := none }
  else d

/-- Switching over to a consumer with the sampling rate if needed. -/
def switchOver (samplingRate : ℕ) (d : Demultiplexor) : Demultiplexor :=
  if d.currentConsumer.isSome then d
  else { d with currentConsumer :=
    d.consumers.findIdx? fun consumer => consumer.samplingRate == samplingRate }

def consumeChunk (chunk : Chunk) (d : Demultiplexor) : Demultiplexor × Bool :=
  let d := (d.keepMatching chunk.samplingRate).switchOver chunk.samplingRate
  match d.currentConsumer with
  -- consuming chunk without processing if there is no matching consumer
  | none => (d, true)
  | some i =>
    match d.consumers[i]? with
    | none => (d, true)
    | some consumer =>
      let consumed := consumer.consumeChunk chunk
      ({ d with consumers := d.consumers.set i consumed.1 }, consumed.2)

def isRunning (d : Demultiplexor) : Bool :=
  (d.currentConsumer.bind fun i => d.consumers[i]?).any FileConsumer.running

def start (d : Demultiplexor) : Demultiplexor :=
  { d with consumers := d.consumers.map FileConsumer.start }

/-- `stop(callback)`, with the callbacks it invokes: each consumer gets an empty one, and the
one that was given is dropped. -/
def stop {α : Type} (_callback : α) (d : Demultiplexor) : Demultiplexor × List α :=
  ({ d with consumers := d.consumers.map fun consumer => (consumer.stop ()).1 }, [])

/-! ### Runs -/

/-- What its owner calls. -/
def call (d : Demultiplexor) : FileConsumer.Call → Demultiplexor
  | .start => d.start
  | .stop => (d.stop ()).1
  | .consumeChunk chunk => (d.consumeChunk chunk).1

/-- The files after the consumers were built, called through a demultiplexor and destroyed. -/
def filesLeft (builders : List EncoderBuilder) (calls : List FileConsumer.Call) :
    List (List UInt8) :=
  (calls.foldl call (create (builders.map FileConsumer.construct))).consumers.map fun consumer =>
    consumer.destroy.writer.content

/-- A call that gets to the consumer with an index: a chunk is for the first one of its rate. -/
def concerns (rates : List ℕ) (i : ℕ) : FileConsumer.Call → Bool
  | .start | .stop => true
  | .consumeChunk chunk => rates.findIdx? (fun rate => rate == chunk.samplingRate) == some i

/-- **The invariant**: the current consumer is the first one of some rate. -/
structure Serving (rates : List ℕ) (d : Demultiplexor) : Prop where
  rated : d.consumers.map FileConsumer.samplingRate = rates
  current : ∀ i, d.currentConsumer = some i →
    ∃ rate, rates.findIdx? (fun r => r == rate) = some i

variable {rates : List ℕ} {d : Demultiplexor}

theorem Serving.samplingRateOf (h : Serving rates d) (i : ℕ) : d.samplingRateOf i = rates[i]? := by
  rw [Demultiplexor.samplingRateOf, ← h.rated, List.getElem?_map]

theorem Serving.findIdx (h : Serving rates d) (samplingRate : ℕ) :
    d.consumers.findIdx? (fun consumer => consumer.samplingRate == samplingRate) =
      rates.findIdx? fun rate => rate == samplingRate := by
  rw [← h.rated, List.findIdx?_map]
  rfl

/-- The first one of a rate has that rate. -/
theorem rate_of_findIdx {rate i : ℕ} (h : rates.findIdx? (fun r => r == rate) = some i) :
    rates[i]? = some rate := by
  obtain ⟨hlt, hrate, -⟩ := List.findIdx?_eq_some_iff_getElem.mp h
  rw [List.getElem?_eq_getElem hlt, beq_iff_eq.mp hrate]

/-- **A chunk goes to the first consumer of its sampling rate.** -/
theorem Serving.switchOver (h : Serving rates d) (samplingRate : ℕ) :
    (d.keepMatching samplingRate).switchOver samplingRate =
      { d with currentConsumer := rates.findIdx? fun rate => rate == samplingRate } := by
  have hnone : Demultiplexor.switchOver samplingRate { d with currentConsumer := none } =
      { d with currentConsumer := rates.findIdx? fun rate => rate == samplingRate } := by
    rw [Demultiplexor.switchOver, ← h.findIdx]
    rfl
  cases hcurrent : d.currentConsumer with
  | none =>
    have hkept : d.keepMatching samplingRate = d := by
      simp [keepMatching, hcurrent]
    rw [hkept, Demultiplexor.switchOver, hcurrent, Option.isSome_none, if_neg Bool.false_ne_true,
      h.findIdx]
  | some i =>
    obtain ⟨rate, hfirst⟩ := h.current i hcurrent
    by_cases hrate : rate = samplingRate
    · subst hrate
      have hkept : d.keepMatching rate = d := by
        simp [keepMatching, hcurrent, h.samplingRateOf, rate_of_findIdx hfirst]
      rw [hkept, Demultiplexor.switchOver, hcurrent, Option.isSome_some, if_pos rfl, hfirst,
        ← hcurrent]
    · have hgivenUp : d.keepMatching samplingRate = { d with currentConsumer := none } := by
        simp [keepMatching, hcurrent, h.samplingRateOf, rate_of_findIdx hfirst, hrate]
      rw [hgivenUp, hnone]

theorem Serving.consumeChunk_current (h : Serving rates d) (chunk : Chunk) :
    (d.consumeChunk chunk).1.currentConsumer =
      rates.findIdx? fun rate => rate == chunk.samplingRate := by
  rw [consumeChunk, h.switchOver]
  dsimp only
  cases rates.findIdx? fun rate => rate == chunk.samplingRate with
  | none => rfl
  | some i => cases hconsumer : d.consumers[i]? <;> simp [hconsumer]

/-- **Chunks are never refused.** -/
theorem consumeChunk_true (chunk : Chunk) (d : Demultiplexor) :
    (d.consumeChunk chunk).2 = true := by
  rw [consumeChunk]
  split
  · rfl
  · dsimp only
    split <;> rfl

/-- **A call gets to the consumers it concerns**, and to no others. -/
theorem call_consumer (h : Serving rates d) (c : FileConsumer.Call) (i : ℕ) :
    (d.call c).consumers[i]? =
      d.consumers[i]?.map fun consumer =>
        if concerns rates i c then consumer.call c else consumer := by
  cases c with
  | start => exact List.getElem?_map
  | stop => exact List.getElem?_map
  | consumeChunk chunk =>
    rw [call, consumeChunk, h.switchOver]
    dsimp only
    cases hfirst : rates.findIdx? fun rate => rate == chunk.samplingRate with
    | none => simp [concerns, hfirst]
    | some j =>
      cases hconsumer : d.consumers[j]? with
      | none =>
        by_cases hj : j = i
        · subst hj
          simp [hconsumer]
        · simp [hconsumer, concerns, hfirst, hj]
      | some consumer =>
        obtain ⟨hlt, hget⟩ := List.getElem?_eq_some_iff.mp hconsumer
        simp only [hconsumer, List.getElem?_set]
        by_cases hj : j = i
        · subst hj
          simp [concerns, hfirst, FileConsumer.call, hlt, hget]
        · simp [concerns, hfirst, hj]

/-- Its rate is the consumer's own. -/
theorem call_samplingRate (c : FileConsumer.Call) (consumer : FileConsumer) :
    (consumer.call c).samplingRate = consumer.samplingRate := by
  cases c with
  | start => rfl
  | stop => rfl
  | consumeChunk chunk =>
    rw [FileConsumer.call, FileConsumer.consumeChunk]
    dsimp only
    split <;> rfl

theorem call_serving (h : Serving rates d) (c : FileConsumer.Call) : Serving rates (d.call c) where
  rated := by
    rw [← h.rated]
    refine List.ext_getElem? fun i => ?_
    rw [List.getElem?_map, List.getElem?_map, call_consumer h c i, Option.map_map]
    refine congrArg (fun f => d.consumers[i]?.map f) (funext fun consumer => ?_)
    rw [Function.comp_apply]
    split
    · exact call_samplingRate c consumer
    · rfl
  current i hi := by
    cases c with
    | start => exact h.current i hi
    | stop => exact h.current i hi
    | consumeChunk chunk => exact ⟨chunk.samplingRate, (h.consumeChunk_current chunk).symm.trans hi⟩

/-- **Each consumer goes through its own share of the calls**, whatever the others get. -/
theorem exec_consumers (h : Serving rates d) (calls : List FileConsumer.Call) (i : ℕ) :
    (calls.foldl call d).consumers[i]? =
      d.consumers[i]?.map fun consumer =>
        (calls.filter (concerns rates i)).foldl FileConsumer.call consumer := by
  induction calls generalizing d with
  | nil => simp
  | cons c calls ih =>
    rw [List.foldl_cons, ih (call_serving h c), call_consumer h c i, Option.map_map]
    refine congrArg (fun f => d.consumers[i]?.map f) (funext fun consumer => ?_)
    rw [Function.comp_apply, List.filter_cons]
    split <;> rfl

theorem create_serving (builders : List EncoderBuilder) :
    Serving (builders.map EncoderBuilder.samplingRate)
      (create (builders.map FileConsumer.construct)) where
  rated := by
    rw [create, List.map_map]
    exact List.map_congr_left fun eb _ => (FileConsumer.construct_tallied eb).samplingRate
  current i hi := by cases hi

/-- **The files left are those the consumers leave on their own**, each with its share of the calls,
and no chunk is refused. -/
theorem filesLeft_eq (builders : List EncoderBuilder) (calls : List FileConsumer.Call) :
    filesLeft builders calls = builders.mapIdx (fun i eb =>
        FileConsumer.fileLeft eb
          (calls.filter (concerns (builders.map EncoderBuilder.samplingRate) i))) ∧
      ∀ chunk, ((calls.foldl call (create (builders.map FileConsumer.construct))).consumeChunk
        chunk).2 = true := by
  refine ⟨?_, fun chunk => consumeChunk_true chunk _⟩
  refine List.ext_getElem? fun i => ?_
  rw [filesLeft, List.getElem?_map, exec_consumers (create_serving builders), create,
    List.getElem?_map, List.getElem?_mapIdx, Option.map_map, Option.map_map]
  rfl

end Demultiplexor

end SlimStreamer
