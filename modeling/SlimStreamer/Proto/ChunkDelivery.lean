import SlimStreamer.Proto.StreamDraining

/-!
# The delivery of chunks to the sessions

`streamChunk` over a whole stream: chunks that are presented until everybody has taken them,
sessions that join and leave in between, and the reset at the beginning of the next stream.
The chunks are told apart by a tag, which stands for their identity.  Whatever else
`consumeChunk` does is a call of its own here: setting the sampling rate, and the events of
the state machine.

`Delivery` is the Streamer together with the log of the epoch, which is written from the calls
of `CommandSession::consumeChunk` that a round makes and from their results.  The sequence
numbers and the log follow the calls of a broadcast (`delivery_simulates`), so that the
invariant of the broadcast speaks about the Streamer.

* `ExactlyOnce` — what is delivered to whom;
* `exactly_once` — it holds in every reachable state.
-/

namespace SlimStreamer

namespace Streamer

open GuardedExecution SequencedBroadcast

/-- A chunk with its identity. -/
abbrev Item : Type := ℕ × Chunk

structure Delivery where
  streamer : Streamer
  log : Log ℕ Item

inductive DeliveryCall where
  | streamChunk (item : Item) (environment : Environment) (answers : ℕ → Bool)
  /-- The reset, when the next stream is prepared. -/
  | stateChangeToPreparing (environment : Environment)
  | setSamplingRate (samplingRate : ℕ)
  | processEvent (environment : Environment) (event : Event)
  /-- Any other call than `consumeChunk`. -/
  | other (e : Stimulus)

/-- The call is not `consumeChunk`. -/
def NoChunk : Stimulus → Prop
  | .chunk _ _ _ => False
  | _ => True

/-- A chunk that was refused is presented again before any other one, and after a reset there
are new ones only. -/
def deliveryEnabled (d : Delivery) : DeliveryCall → Prop
  | .streamChunk item _ _ => d.log.MayPresent item
  | .other e => NoChunk e ∧ enabled d.streamer e
  | _ => True

/-- The event prepares the next stream. -/
def prepares (t : Streamer) (event : Event) : Bool := event == .prepare && t.state == .started

instance : DecidablePred NoChunk
  | .chunk _ _ _ => isFalse id
  | .start _ | .stop _ | .slimProtoOpen _ _ | .slimProtoClose _ | .slimProtoData _ _ _ _
  | .pingTimer _ _ | .pingHandler _ _ | .httpData _ _ | .httpClose _ | .httpRemoved _ =>
    isTrue trivial

instance (d : Delivery) : DecidablePred (deliveryEnabled d)
  | .streamChunk item _ _ => inferInstanceAs (Decidable (d.log.MayPresent item))
  | .other e => inferInstanceAs (Decidable (NoChunk e ∧ enabled d.streamer e))
  | .stateChangeToPreparing _ | .setSamplingRate _ | .processEvent _ _ => isTrue trivial

/-- The log of a call to the Streamer. -/
def logOther (d : Delivery) : Stimulus → Log ℕ Item
  | .slimProtoOpen _ _ => d.log.join (d.streamer.nextID + 1)
  | .slimProtoClose connection =>
    match d.streamer.commandSessions.lookup connection with
    | none => d.log
    | some session => d.log.leave session.address
  | _ => d.log

def deliveryStep (d : Delivery) : DeliveryCall → Delivery
  | .streamChunk item environment answers =>
    let round := d.streamer.round environment answers item.2
    { streamer := (d.streamer.streamChunk environment answers item.2).2
      log := d.log.present item round.offers round.result }
  | .stateChangeToPreparing environment =>
    { streamer := d.streamer.stateChangeToPreparing environment
      log := d.log.reset }
  | .setSamplingRate samplingRate =>
    { streamer := d.streamer.setSamplingRate samplingRate
      log := d.log }
  | .processEvent environment event =>
    { streamer := (d.streamer.processEvent environment event).2
      log := if prepares d.streamer event then d.log.reset else d.log }
  | .other e =>
    { streamer := step d.streamer e
      log := logOther d e }

def deliverySystem : System Delivery DeliveryCall where
  enabled := deliveryEnabled
  step := deliveryStep

instance (d : Delivery) (call : DeliveryCall) : Decidable (deliverySystem.enabled d call) :=
  inferInstanceAs (Decidable (deliveryEnabled d call))

/-! ### What the other calls do -/

/-- What a chunk is delivered by stays the same. -/
structure KeepsNumbers (t t' : Streamer) : Prop where
  registry : SameRegistry t t'
  counters : t'.counters = t.counters
  streamedFrames : t'.streamedFrames = t.streamedFrames

/-- Only preparing a stream touches the numbers. -/
theorem transitions_keepsNumbers (environment : Environment) :
    ∀ transition ∈ transitions environment,
      (transition.event = .prepare ∧ transition.fromState = .started) ∨
      ∀ t, KeepsNumbers t (transition.action t) := by
  have hid : ∀ t : Streamer, KeepsNumbers t t := fun t => ⟨SameRegistry.refl t, rfl, rfl⟩
  have hbuffer : ∀ t, KeepsNumbers t (stateChangeToBuffering environment t) :=
    fun t => ⟨⟨rfl, rfl, rfl, rfl⟩, rfl, rfl⟩
  have hplay : ∀ t, KeepsNumbers t (stateChangeToPlaying t) :=
    fun t => ⟨⟨rfl, rfl, rfl, rfl⟩, rfl, rfl⟩
  have hstop : ∀ t, KeepsNumbers t (stateChangeToStopped environment t) := fun t =>
    have hsessions := map_sessions (f := fun e => (e.1, e.2.stop (t.context environment)))
      (fun e => ⟨rfl, CommandSession.stop_address (t.context environment) e.2⟩) t.commandSessions
    ⟨⟨rfl, hsessions.1, hsessions.2, rfl⟩, rfl, rfl⟩
  intro transition h
  rcases transitions_action h with haction | ⟨hprepare, _⟩ | ⟨_, haction⟩ | ⟨_, haction⟩ |
    ⟨_, haction⟩
  · exact Or.inr fun t => haction ▸ hid t
  · exact Or.inl hprepare
  · exact Or.inr fun t => haction ▸ hbuffer t
  · exact Or.inr fun t => haction ▸ hplay t
  · exact Or.inr fun t => haction ▸ hstop t

theorem processEvent_keepsNumbers (environment : Environment) {t : Streamer} {event : Event}
    (h : prepares t event = false) : KeepsNumbers t (t.processEvent environment event).2 := by
  rcases (stateMachine environment).processEvent_cases event id t with
    ⟨transition, hmem, hfrom, hevent, _, hfire⟩ | hsame | hsame
  · rw [processEvent, hfire]
    rcases transitions_keepsNumbers environment transition hmem with ⟨hprepare, hstarted⟩ | haction
    · have hstate : t.state = .started := hfrom.symm.trans hstarted
      rw [prepares, ← hevent, hprepare, hstate] at h
      cases h
    · obtain ⟨hregistry, hcounters, hframes⟩ := haction t
      exact ⟨hregistry.trans ⟨rfl, rfl, rfl, rfl⟩, hcounters, hframes⟩
  · rw [processEvent, hsame]
    exact ⟨SameRegistry.refl t, rfl, rfl⟩
  · rw [processEvent, hsame]
    exact ⟨SameRegistry.refl t, rfl, rfl⟩

theorem processEvent_prepares (environment : Environment) {t : Streamer} {event : Event}
    (h : prepares t event = true) :
    (t.processEvent environment event).2 =
      (t.stateChangeToPreparing environment).setState .preparing := by
  rw [prepares, Bool.and_eq_true, beq_iff_eq, beq_iff_eq] at h
  rw [h.1, processEvent_prepare environment h.2]

/-! ### The broadcast behind it -/

/-- The maps agree, the log only knows sessions there have been, and the broadcast has the same
numbers and the same log. -/
structure Broadcasts (d : Delivery) (r : Run ℕ Item) : Prop where
  registered : Registered d.streamer
  known : ∀ k ∈ d.log.known, k ≤ d.streamer.nextID
  counters : r.counters = d.streamer.counters
  log : r.log = d.log

/-- **Everything another call can do to the sequence numbers**: a session joins, or leaves, or
nothing happens. -/
inductive OtherStep (d : Delivery) (e : Stimulus) : Prop where
  | joins (connection : ℕ) (environment : Environment)
    (call : e = .slimProtoOpen connection environment)
    (nextID : (step d.streamer e).nextID = d.streamer.nextID + 1)
    (counters : (step d.streamer e).counters = d.streamer.counters.join (d.streamer.nextID + 1))
  | leaves (session : ℕ × CommandSession) (registered : session ∈ d.streamer.commandSessions)
    (nextID : (step d.streamer e).nextID = d.streamer.nextID)
    (log : logOther d e = d.log.leave session.2.address)
    (counters : (step d.streamer e).counters = d.streamer.counters.leave session.2.address)
  | keeps (nextID : (step d.streamer e).nextID = d.streamer.nextID)
    (log : logOther d e = d.log)
    (counters : (step d.streamer e).counters = d.streamer.counters)

theorem otherStep_close (d : Delivery) (connection : ℕ) :
    OtherStep d (.slimProtoClose connection) := by
  cases hs : d.streamer.commandSessions.lookup connection with
  | none =>
    have hsame : step d.streamer (.slimProtoClose connection) = d.streamer := by
      rw [step, onSlimProtoClose, hs]
    exact .keeps (by rw [hsame]) (by rw [logOther, hs]) (by rw [hsame])
  | some session =>
    have hleft : step d.streamer (.slimProtoClose connection) =
        { d.streamer with
          sessionToChunkSequenceMap :=
            eraseSession d.streamer.sessionToChunkSequenceMap session.address
          commandSessions := eraseSession d.streamer.commandSessions connection } := by
      rw [step, onSlimProtoClose, hs]
    refine .leaves (connection, session) (mem_of_lookup hs) (by rw [hleft])
      (by rw [logOther, hs]) ?_
    rw [hleft]
    rfl

theorem otherStep (d : Delivery) {e : Stimulus} (he : NoChunk e) : OtherStep d e := by
  cases e with
  | slimProtoOpen connection environment =>
    refine .joins connection environment rfl rfl ?_
    show (d.streamer.onSlimProtoOpen connection environment).counters = _
    rw [onSlimProtoOpen, counters, CommandSession.start_address]
    rfl
  | slimProtoClose connection => exact otherStep_close d connection
  | start environment =>
    have hstart := start_registry environment d.streamer
    refine .keeps hstart.nextID rfl ?_
    rw [step, Streamer.start, processEvent_start]
    split <;> rfl
  | stop environment =>
    have hstop := stop_registry environment d.streamer
    refine .keeps hstop.nextID rfl ?_
    rw [step, Streamer.stop, processEvent_stop]
    split <;> rfl
  | chunk environment answers chunk => exact he.elim
  | _ =>
    exact .keeps (step_forSession rfl d.streamer).nextID rfl
      (step_forSession rfl d.streamer).counters

/-- Only a chunk adds to the frames. -/
theorem step_streamedFrames (t : Streamer) {e : Stimulus} (he : NoChunk e) :
    (step t e).streamedFrames = t.streamedFrames := by
  cases e with
  | slimProtoOpen connection environment => rfl
  | slimProtoClose connection =>
    rw [step, onSlimProtoClose]
    split <;> rfl
  | start environment =>
    rw [step, Streamer.start, processEvent_start]
    split <;> rfl
  | stop environment =>
    rw [step, Streamer.stop, processEvent_stop]
    split <;> rfl
  | chunk environment answers chunk => exact he.elim
  | _ => exact (step_forSession rfl t).streamedFrames

/-- Presenting an item is a round of the broadcast. -/
theorem broadcasts_streamChunk {d : Delivery} {r : Run ℕ Item} (h : Broadcasts d r) (item : Item)
    (environment : Environment) (answers : ℕ → Bool) :
    Broadcasts (deliveryStep d (.streamChunk item environment answers))
      (SequencedBroadcast.step r
        (.present item (d.streamer.accepted environment answers item.2))) := by
  have hround := round_eq environment answers item.2 h.registered
  have hregistry := streamChunk_registry environment answers item.2 h.registered
  refine ⟨h.registered.of_same hregistry, ?_, ?_, ?_⟩
  · intro k hk
    show k ≤ (d.streamer.streamChunk environment answers item.2).2.nextID
    rw [hregistry.nextID]
    exact h.known k hk
  · show r.counters.present _ = (d.streamer.streamChunk environment answers item.2).2.counters
    rw [streamChunk_counters environment answers item.2 h.registered, h.counters]
  · show r.log.present item _ _ = d.log.present item _ _
    rw [hround, h.log, h.counters]

theorem broadcasts_reset {d : Delivery} {r : Run ℕ Item} (h : Broadcasts d r)
    (environment : Environment) :
    Broadcasts (deliveryStep d (.stateChangeToPreparing environment))
      (SequencedBroadcast.step r .reset) := by
  refine ⟨h.registered.of_same (stateChangeToPreparing_registry environment d.streamer),
    h.known, ?_, ?_⟩
  · show r.counters.reset = _
    rw [h.counters]
    rfl
  · show r.log.reset = d.log.reset
    rw [h.log]

theorem Broadcasts.keeps {d : Delivery} {r : Run ℕ Item} (h : Broadcasts d r) {t : Streamer}
    (ht : KeepsNumbers d.streamer t) : Broadcasts ⟨t, d.log⟩ r :=
  ⟨h.registered.of_same ht.registry, by rw [ht.registry.nextID]; exact h.known,
    by rw [ht.counters]; exact h.counters, h.log⟩

/-- An event is a reset or nothing. -/
theorem broadcasts_processEvent {d : Delivery} {r : Run ℕ Item} (h : Broadcasts d r)
    (environment : Environment) (event : Event) :
    ∃ calls, (SequencedBroadcast.system ℕ Item).Admits r calls ∧
      Broadcasts (deliveryStep d (.processEvent environment event))
        ((SequencedBroadcast.system ℕ Item).exec r calls) := by
  rw [deliveryStep]
  cases hp : prepares d.streamer event with
  | true =>
    have hreset := broadcasts_reset h environment
    rw [processEvent_prepares environment hp]
    exact ⟨[.reset], ⟨trivial, trivial⟩, hreset.keeps ⟨⟨rfl, rfl, rfl, rfl⟩, rfl, rfl⟩⟩
  | false => exact ⟨[], trivial, h.keeps (processEvent_keepsNumbers environment hp)⟩

/-- Any other call is a join, a leave, or nothing. -/
theorem broadcasts_other {d : Delivery} {r : Run ℕ Item} (h : Broadcasts d r) {e : Stimulus}
    (he : NoChunk e) (hen : enabled d.streamer e) :
    ∃ calls, (SequencedBroadcast.system ℕ Item).Admits r calls ∧
      Broadcasts (deliveryStep d (.other e))
        ((SequencedBroadcast.system ℕ Item).exec r calls) := by
  have hregistered : Registered (step d.streamer e) := registered_step h.registered hen
  cases otherStep d he with
  | joins connection environment call nextID counters =>
    subst call
    refine ⟨[.join (d.streamer.nextID + 1)], ⟨?_, trivial⟩, hregistered, ?_, ?_, ?_⟩
    · intro hk
      rw [h.log] at hk
      have hle := h.known _ hk
      omega
    · intro k hk
      show k ≤ (step d.streamer (.slimProtoOpen connection environment)).nextID
      rw [nextID]
      rcases List.mem_cons.mp hk with rfl | hk
      · exact le_rfl
      · exact Nat.le_succ_of_le (h.known k hk)
    · show r.counters.join _ = (step d.streamer (.slimProtoOpen connection environment)).counters
      rw [counters, h.counters]
    · show r.log.join _ = d.log.join _
      rw [h.log]
  | leaves session registered nextID log counters =>
    refine ⟨[.leave session.2.address], ⟨?_, trivial⟩, hregistered, ?_, ?_, ?_⟩
    · show session.2.address ∈ r.counters.entries.map Prod.fst
      rw [h.counters]
      show _ ∈ d.streamer.sessionToChunkSequenceMap.map Prod.fst
      rw [h.registered.same_sessions]
      exact List.mem_map.mpr ⟨session, registered, rfl⟩
    · show ∀ k ∈ (logOther d e).known, k ≤ (step d.streamer e).nextID
      rw [log, nextID]
      exact h.known
    · show r.counters.leave _ = (step d.streamer e).counters
      rw [counters, h.counters]
    · show r.log.leave _ = logOther d e
      rw [log, h.log]
  | keeps nextID log counters =>
    refine ⟨[], trivial, hregistered, ?_, ?_, ?_⟩
    · show ∀ k ∈ (logOther d e).known, k ≤ (step d.streamer e).nextID
      rw [log, nextID]
      exact h.known
    · show r.counters = (step d.streamer e).counters
      rw [counters, h.counters]
    · show r.log = logOther d e
      rw [log, h.log]

/-- **The deliveries of the Streamer are a broadcast**: every run of it is matched by one. -/
theorem delivery_simulates (d : Delivery) (r : Run ℕ Item) (h : Broadcasts d r)
    (calls : List DeliveryCall) (hcalls : deliverySystem.Admits d calls) :
    ∃ calls', (SequencedBroadcast.system ℕ Item).Admits r calls' ∧
      Broadcasts (deliverySystem.exec d calls)
        ((SequencedBroadcast.system ℕ Item).exec r calls') := by
  refine System.exec_simulation deliverySystem (SequencedBroadcast.system ℕ Item) Broadcasts
    (fun d r call h hcall => ?_) calls d r h hcalls
  cases call with
  | streamChunk item environment answers =>
    refine ⟨[.present item (d.streamer.accepted environment answers item.2)], ⟨?_, trivial⟩,
      broadcasts_streamChunk h item environment answers⟩
    show r.log.MayPresent item
    rw [h.log]
    exact hcall
  | stateChangeToPreparing environment =>
    exact ⟨[.reset], ⟨trivial, trivial⟩, broadcasts_reset h environment⟩
  | setSamplingRate samplingRate =>
    exact ⟨[], trivial, h.keeps ⟨⟨rfl, rfl, rfl, rfl⟩, rfl, rfl⟩⟩
  | processEvent environment event => exact broadcasts_processEvent h environment event
  | other e => exact broadcasts_other h hcall.1 hcall.2

/-! ### The frames -/

/-- `streamedFrames` counts the frames of the completed chunks. -/
def CountsFrames (d : Delivery) : Prop :=
  d.streamer.streamedFrames = (d.log.items.map fun item => item.2.frames).sum

theorem countsFrames_step {d : Delivery} {call : DeliveryCall} (hd : CountsFrames d)
    (hcall : deliveryEnabled d call) : CountsFrames (deliveryStep d call) := by
  cases call with
  | streamChunk item environment answers =>
    show (d.streamer.streamChunk environment answers item.2).2.streamedFrames =
      ((d.log.present item _ (d.streamer.round environment answers item.2).result).items.map
        fun item => item.2.frames).sum
    rw [streamChunk, Log.present]
    dsimp only
    split
    · rw [List.map_append, List.sum_append, ← hd]
      rfl
    · exact hd
  | stateChangeToPreparing environment => rfl
  | setSamplingRate samplingRate => exact hd
  | processEvent environment event =>
    show (d.streamer.processEvent environment event).2.streamedFrames =
      ((if prepares d.streamer event then d.log.reset else d.log).items.map _).sum
    cases hp : prepares d.streamer event with
    | true =>
      rw [processEvent_prepares environment hp]
      rfl
    | false =>
      rw [(processEvent_keepsNumbers environment hp).streamedFrames]
      exact hd
  | other e =>
    have hframes := step_streamedFrames d.streamer hcall.1
    have hitems : (logOther d e).items = d.log.items := by
      rw [logOther.eq_def]
      split
      · rfl
      · split <;> rfl
      · rfl
    show (step d.streamer e).streamedFrames = ((logOther d e).items.map _).sum
    rw [hframes, hitems]
    exact hd

/-! ### The result -/

/-- What is delivered to whom, in the current epoch. -/
structure ExactlyOnce (d : Delivery) : Prop where
  same_sessions : d.streamer.sessionToChunkSequenceMap.map Prod.fst =
    addresses d.streamer.commandSessions
  sessions_nodup : (addresses d.streamer.commandSessions).Nodup
  /-- A session is at the current chunk, or it has accepted the one that others refused. -/
  sequence : ∀ e ∈ d.streamer.sessionToChunkSequenceMap,
    e.2 = d.streamer.streamedChunks ∨
      e.2 = d.streamer.streamedChunks + 1 ∧ d.log.pending.isSome = true
  /-- The sequence number says where the run of the session ends. -/
  run : ∀ e ∈ d.streamer.sessionToChunkSequenceMap,
    d.log.acceptedBy e.1 = (d.log.history.take e.2).drop (d.log.joined e.1)
  left_run : ∀ address ∈ d.log.known,
    address ∈ addresses d.streamer.commandSessions ∨ d.log.Left address
  accepted_nodup : ∀ address ∈ d.log.known, (d.log.acceptedBy address).Nodup
  /-- What a session accepted is not offered to it again. -/
  never_again : d.log.offers.Pairwise fun a b =>
    a.key = b.key → a.item = b.item → a.accepted = false
  streamedChunks : d.streamer.streamedChunks = d.log.items.length
  streamedFrames : d.streamer.streamedFrames = (d.log.items.map fun item => item.2.frames).sum

theorem exactlyOnce_of_broadcasts {d : Delivery} {r : Run ℕ Item} (h : Broadcasts d r)
    (hr : Delivered r) (hframes : CountsFrames d) : ExactlyOnce d := by
  have hcompleted : d.streamer.streamedChunks = d.log.items.length := by
    have hc := hr.completed
    rw [h.counters, h.log] at hc
    exact hc
  have hentries : r.counters.entries = d.streamer.sessionToChunkSequenceMap := by
    rw [h.counters]
    rfl
  have hkeys : r.counters.entries.map Prod.fst = addresses d.streamer.commandSessions := by
    rw [hentries, h.registered.same_sessions]
  have hcurrent := hr.current
  have hrun := hr.run
  have hknown := hr.known_run
  have haccepted : ∀ address ∈ r.log.known, (r.log.acceptedBy address).Nodup :=
    fun _ hk => hr.accepted_nodup hk
  have honce := hr.once
  rw [hkeys] at hknown
  rw [hentries] at hcurrent hrun
  rw [h.log] at hcurrent hrun hknown haccepted honce
  refine ⟨h.registered.same_sessions, h.registered.addresses, ?_, hrun, hknown, haccepted, honce,
    hcompleted, hframes⟩
  rw [hcompleted]
  exact hcurrent

/-- **Exactly once, and in order.**  From a new Streamer, whatever the sessions answer, whoever
joins and leaves and whenever the stream is prepared anew: each session has accepted the
contiguous run of chunks from the one that was current when it joined. -/
theorem exactly_once (streamingPort : ℕ) (format : FormatSelection) (gain : Option ℕ)
    (now : Timestamp) (calls : List DeliveryCall)
    (hcalls : deliverySystem.Admits ⟨create streamingPort format gain now, Log.empty⟩ calls) :
    ExactlyOnce (deliverySystem.exec ⟨create streamingPort format gain now, Log.empty⟩ calls) := by
  have hstart : Broadcasts ⟨create streamingPort format gain now, Log.empty⟩
      (⟨⟨0, []⟩, Log.empty⟩ : Run ℕ Item) :=
    ⟨registered_create streamingPort format gain now, List.forall_mem_nil _, rfl, rfl⟩
  obtain ⟨calls', hadmits, hbroadcasts⟩ := delivery_simulates _ _ hstart calls hcalls
  refine exactlyOnce_of_broadcasts hbroadcasts
    (delivered_exec delivered_empty calls' hadmits) ?_
  exact deliverySystem.exec_invariant CountsFrames (fun _ _ => countsFrames_step) calls _ rfl hcalls

/-- A player refuses a chunk, another one joins before the chunk is presented again, and the
first one leaves. -/
def refusedOnce : List DeliveryCall :=
  helloPlayer.map .other ++
    [.setSamplingRate 44100, .processEvent quiet .prepare, .other playerRequest,
      .streamChunk (0, audio) quiet (fun _ => false), .other (.slimProtoOpen 3 quiet),
      .streamChunk (0, audio) quiet (fun _ => true), .streamChunk (1, audio) quiet (fun _ => true),
      .other (.slimProtoClose 1)]

theorem exactly_once_refusedOnce :
    ExactlyOnce (deliverySystem.exec ⟨create 9001 .FLAC none ⟨0⟩, Log.empty⟩ refusedOnce) :=
  exactly_once 9001 .FLAC none ⟨0⟩ refusedOnce (by decide +kernel)

/-- The offers of that run. -/
example : (deliverySystem.exec ⟨create 9001 .FLAC none ⟨0⟩, Log.empty⟩ refusedOnce).log.offers.map
    (fun o => (o.key, o.item.1, o.accepted)) =
      [(1, 0, false), (1, 0, true), (2, 0, true), (1, 1, true), (2, 1, true)] := by
  decide +kernel

end Streamer

end SlimStreamer
