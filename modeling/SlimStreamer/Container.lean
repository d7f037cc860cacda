import SlimStreamer.Demultiplexor
import SlimStreamer.Lib.HandlerQueue
import SlimStreamer.Multiplexor
import SlimStreamer.Proto.EventLoop

/-!
# Stopping the container

`Container::stop` stops the discovery server and then the `Scheduler`, whose `stop` stops the
producers, waits for them and stops the consumer with the callback it was given; this callback
stops the two TCP servers.  The `Streamer` posts a handler that calls back, behind those its
sessions have posted.  The `Demultiplexor` drops the callback.

All else that runs in the processor, `processTask` included, is arbitrary: it changes the
objects in any way and posts any handlers of its kind.  Only the handlers that call back and
the calls of `stop` the servers get are told apart.

* `schedulerStop`, `stop` — the two functions, on the queue of posted handlers;
* `schedulerStop_eq` — what the first does, for either consumer;
* `stop_completes_iff` — the callback is invoked, and the servers are stopped, once for every
  call if the consumer is the Streamer, and not otherwise.
-/

namespace SlimStreamer

open HandlerQueue

/-- `alsa::Source`, as far as starting and stopping it goes: its flag and its thread. -/
structure Producer where
  running : Bool
  /-- `producerThread.joinable()`. -/
  joinable : Bool
  deriving DecidableEq

/-- `stop`: the thread ends once the device was told to. -/
def Producer.stop (p : Producer) : Producer :=
  -- changing state to 'not running'
  let p := if p.running then { p with running := false } else p
  -- waiting producer thread to terminate
  if p.joinable then { p with joinable := false } else p

theorem Producer.stop_running (p : Producer) : p.stop.running = false := by
  obtain ⟨running, joinable⟩ := p
  cases running <;> cases joinable <;> rfl

/-- The consumer a scheduler owns; the Streamer is known to the event loop. -/
inductive Consumer where
  | streamer
  | demultiplexor (demultiplexor : Demultiplexor)

structure Scheduler where
  producer : Multiplexor Producer
  consumer : Consumer

/-- The Streamer with its HTTP sessions and the streaming server, the command server and the
scheduler. -/
structure Container where
  loop : EventLoop
  commandServer : Tcp.Server
  scheduler : Scheduler

namespace Container

/-- The callbacks `Scheduler::stop` is given: any, and the one of `Container::stop`. -/
inductive Callback where
  | given (number : ℕ)
  | stopServers
  deriving DecidableEq

/-- A posted handler that calls none of these. -/
inductive Work where
  | loop (handler : EventLoop.Handler)
  | other (number : ℕ)
  deriving DecidableEq

inductive Handler where
  | work (work : Work)
  /-- The handler `Streamer::stop` posts. -/
  | callback (callback : Callback)
  deriving DecidableEq

/-- The callbacks that were invoked, and how often `stop` of each server was called. -/
structure Calls where
  given : List ℕ
  discoveryServer : ℕ
  commandServer : ℕ
  streamingServer : ℕ
  deriving DecidableEq

/-- What other handlers and events do to the objects, and what they post. -/
abbrev Behaviour : Type := ℕ → Container → Container × List Work

end Container

/-- A container whose calls are recorded. -/
structure Running where
  container : Container
  calls : Container.Calls

namespace Container

def invoke (s : Running) : Callback → Running
  | .given number => { s with calls := { s.calls with given := s.calls.given ++ [number] } }
  | .stopServers =>
    { container := { s.container with
        commandServer := s.container.commandServer.stop
        loop := { s.container.loop with server := s.container.loop.server.stop } }
      calls := { s.calls with
        commandServer := s.calls.commandServer + 1
        streamingServer := s.calls.streamingServer + 1 } }

/-- Taking over what the event loop has posted. -/
def collect (loop : EventLoop) : EventLoop × List Work :=
  ({ loop with handlers := [] }, loop.handlers.map .loop)

def Work.run (others : Behaviour) (c : Container) : Work → Container × List Work
  | .loop handler =>
    let collected := collect { c.loop with handlers := handler :: c.loop.handlers }.runHandler
    ({ c with loop := collected.1 }, collected.2)
  | .other number => others number c

/-- The processor of the application. -/
def processor (others : Behaviour) : Processor Running Handler ℕ where
  run handler s :=
    match handler with
    | .work work =>
      let r := work.run others s.container
      ({ s with container := r.1 }, r.2.map .work)
    | .callback callback => (invoke s callback, [])
  occur event s :=
    let r := others event s.container
    ({ s with container := r.1 }, r.2.map .work)

/-- What a `stop` of the consumer leaves: the objects, the callbacks it has invoked itself and
the handlers it has posted. -/
structure Stopping where
  consumer : Consumer
  loop : EventLoop
  invoked : List Callback
  posted : List Handler

/-- `consumerPtr->stop(callback)`; `environment` and `finish` are what the sessions read. -/
def consumerStop (environment : Environment) (finish : ℕ → List (List UInt8))
    (callback : Callback) (loop : EventLoop) : Consumer → Stopping
  | .streamer =>
    let collected := collect (loop.stop environment finish)
    { consumer := .streamer
      loop := collected.1
      invoked := []
      posted := collected.2.map .work ++ [.callback callback] }
  | .demultiplexor d =>
    let stopped := d.stop callback
    { consumer := .demultiplexor stopped.1
      loop := loop
      invoked := stopped.2
      posted := [] }

/-- `Scheduler::stop(callback)`, with a bound on the polls of the producers. -/
def schedulerStop (environment : Environment) (finish : ℕ → List (List UInt8)) (polls : ℕ)
    (callback : Callback) (q : Queue Running Handler) : Option (Queue Running Handler) :=
  let c := q.state.container
  (c.scheduler.producer.stop Producer.running Producer.stop polls).map fun producer =>
    let stopping := consumerStop environment finish callback c.loop c.scheduler.consumer
    let state := { q.state with
      container := { c with
        loop := stopping.loop
        scheduler := ⟨producer, stopping.consumer⟩ } }
    { q with state := stopping.invoked.foldl invoke state }.post stopping.posted

/-- `discoveryServerPtr->stop()`. -/
def discoveryServerStop (q : Queue Running Handler) : Queue Running Handler :=
  { q with state := { q.state with
      calls := { q.state.calls with discoveryServer := q.state.calls.discoveryServer + 1 } } }

/-- `Container::stop`. -/
def stop (environment : Environment) (finish : ℕ → List (List UInt8)) (polls : ℕ)
    (q : Queue Running Handler) : Option (Queue Running Handler) :=
  schedulerStop environment finish polls .stopServers (discoveryServerStop q)

/-! ### What the processor counts -/

/-- Only a Streamer that is stopped posts a handler that calls back. -/
theorem callback_unposted (others : Behaviour) (callback : Callback) :
    Queue.Unposted (processor others) (Handler.callback callback) where
  run handler s := by
    cases handler with
    | work work => simp [processor]
    | callback callback => simp [processor]
  occur event s := by simp [processor]

theorem given_counts (others : Behaviour) (number : ℕ) :
    Queue.Counts (processor others) (.callback (.given number))
      fun s => s.calls.given.count number where
  run handler s := by
    cases handler with
    | work work => simp [processor]
    | callback callback =>
      cases callback with
      | given n => simp [processor, invoke, List.count_singleton]
      | stopServers => simp [processor, invoke]
  occur event s := rfl

theorem commandServer_counts (others : Behaviour) :
    Queue.Counts (processor others) (.callback .stopServers) fun s => s.calls.commandServer where
  run handler s := by
    cases handler with
    | work work => simp [processor]
    | callback callback => cases callback <;> simp [processor, invoke]
  occur event s := rfl

theorem streamingServer_counts (others : Behaviour) :
    Queue.Counts (processor others) (.callback .stopServers) fun s => s.calls.streamingServer where
  run handler s := by
    cases handler with
    | work work => simp [processor]
    | callback callback => cases callback <;> simp [processor, invoke]
  occur event s := rfl

/-! ### Stopping -/

/-- The handlers that call back, of those a consumer posts when it is stopped. -/
def posts (callback : Callback) : Consumer → List Handler
  | .streamer => [.callback callback]
  | .demultiplexor _ => []

/-- **What `Scheduler::stop` does**: it returns, it invokes nothing itself, and of the handlers
it posts one calls back if the consumer is the Streamer, and none otherwise. -/
theorem schedulerStop_eq (environment : Environment) (finish : ℕ → List (List UInt8))
    (callback : Callback) (q : Queue Running Handler) :
    ∃ (c : Container) (works : List Work),
      ∀ polls, schedulerStop environment finish (polls + 1) callback q =
        some { q with
          state := { q.state with container := c }
          posted := q.posted ++ (works.map .work ++
            posts callback q.state.container.scheduler.consumer) } := by
  let c := q.state.container
  let stopping := consumerStop environment finish callback c.loop c.scheduler.consumer
  let halted := c.scheduler.producer.setProducers (c.scheduler.producer.producers.map Producer.stop)
  let works : List Work :=
    match c.scheduler.consumer with
    | .streamer => (collect (c.loop.stop environment finish)).2
    | .demultiplexor _ => []
  have hposted : stopping.posted = works.map .work ++ posts callback c.scheduler.consumer ∧
      stopping.invoked = [] := by
    cases hconsumer : c.scheduler.consumer with
    | streamer => simp [stopping, works, hconsumer, consumerStop, posts]
    | demultiplexor d => simp [stopping, works, hconsumer, consumerStop, posts, Demultiplexor.stop]
  refine ⟨{ c with loop := stopping.loop, scheduler := ⟨halted, stopping.consumer⟩ }, works, ?_⟩
  intro polls
  rw [schedulerStop, Multiplexor.stop_eq Producer.stop_running]
  show some (Queue.post stopping.posted _) = _
  rw [hposted.1, hposted.2]
  rfl

theorem work_count (works : List Work) (callback : Callback) :
    (works.map Handler.work).count (.callback callback) = 0 := by
  apply List.count_eq_zero_of_not_mem
  simp

/-- A counter of a callback goes up by what was pending, and by what the stop posts. -/
theorem counter_stop {others : Behaviour} {callback : Callback} {f : Running → ℕ}
    (hf : Queue.Counts (processor others) (.callback callback) f)
    (hcalls : ∀ s c, f { s with container := c } = f s) (environment : Environment)
    (finish : ℕ → List (List UInt8)) (q : Queue Running Handler) :
    ∃ q', (∀ polls, schedulerStop environment finish (polls + 1) callback q = some q') ∧
      ∀ ts : List (Turn ℕ), q'.posted.length ≤ Turn.handlers ts →
        f (q'.turns (processor others) ts).state =
          f q.state + q.posted.count (.callback callback) +
            (posts callback q.state.container.scheduler.consumer).count (.callback callback) := by
  obtain ⟨c, works, hstop⟩ := schedulerStop_eq environment finish callback q
  refine ⟨_, hstop, ?_⟩
  intro ts hts
  rw [Queue.counter_turns hf (callback_unposted others callback) hts, hcalls, List.count_append,
    List.count_append, work_count]
  omega

/-- A call that stops returns, and once all handlers posted by then have run, it has added one
to a counter: what was counted before, and what was pending, is counted as well. -/
def Once (others : Behaviour) (stopping : ℕ → Option (Queue Running Handler))
    (callback : Callback) (f : Running → ℕ) (q : Queue Running Handler) : Prop :=
  ∃ q', (∀ polls, stopping (polls + 1) = some q') ∧
    ∀ ts : List (Turn ℕ), q'.posted.length ≤ Turn.handlers ts →
      f (q'.turns (processor others) ts).state =
        f q.state + q.posted.count (.callback callback) + 1

theorem once_iff {others : Behaviour} {callback : Callback} {f : Running → ℕ}
    (hf : Queue.Counts (processor others) (.callback callback) f)
    (hcalls : ∀ s c, f { s with container := c } = f s) (environment : Environment)
    (finish : ℕ → List (List UInt8)) (q : Queue Running Handler) :
    Once others (fun polls => schedulerStop environment finish polls callback q) callback f q ↔
      q.state.container.scheduler.consumer = .streamer := by
  obtain ⟨q', hstop, hcount⟩ := counter_stop hf hcalls environment finish q
  constructor
  · rintro ⟨q'', hstop', honce⟩
    obtain rfl : q'' = q' := Option.some_inj.mp ((hstop' 0).symm.trans (hstop 0))
    -- one turn for each of the posted handlers
    have hturns : q''.posted.length ≤
        Turn.handlers (List.replicate q''.posted.length (Turn.handler : Turn ℕ)) := by
      rw [Turn.handlers_replicate]
    have hone := honce _ hturns
    rw [hcount _ hturns] at hone
    cases hconsumer : q.state.container.scheduler.consumer with
    | streamer => rfl
    | demultiplexor d =>
      rw [hconsumer, posts, List.count_nil] at hone
      omega
  · intro hconsumer
    refine ⟨q', hstop, ?_⟩
    intro ts hts
    rw [hcount ts hts, hconsumer, posts, List.count_singleton_self]

/-- **Stopping completes**: `Scheduler::stop` invokes its callback once, whichever it is, and
`Container::stop` reaches the stop of each TCP server once. -/
structure Completes (others : Behaviour) (environment : Environment)
    (finish : ℕ → List (List UInt8)) (q : Queue Running Handler) : Prop where
  given : ∀ number, Once others
    (fun polls => schedulerStop environment finish polls (.given number) q)
    (.given number) (fun s => s.calls.given.count number) q
  commandServer : Once others (fun polls => stop environment finish polls q)
    .stopServers (fun s => s.calls.commandServer) q
  streamingServer : Once others (fun polls => stop environment finish polls q)
    .stopServers (fun s => s.calls.streamingServer) q

/-- **Stopping completes if and only if the consumer is the Streamer**, in whatever state the
Streamer, its sessions and the queue are: a Demultiplexor never calls back. -/
theorem stop_completes_iff (others : Behaviour) (environment : Environment)
    (finish : ℕ → List (List UInt8)) (q : Queue Running Handler) :
    Completes others environment finish q ↔
      q.state.container.scheduler.consumer = .streamer := by
  have hgiven : ∀ number, Once others
      (fun polls => schedulerStop environment finish polls (.given number) q)
      (.given number) (fun s => s.calls.given.count number) q ↔
        q.state.container.scheduler.consumer = .streamer := fun number =>
    once_iff (given_counts others number) (fun _ _ => rfl) environment finish q
  constructor
  · intro h
    exact (hgiven 0).mp (h.given 0)
  · intro hconsumer
    refine ⟨fun number => (hgiven number).mpr hconsumer, ?_, ?_⟩
    · exact (once_iff (commandServer_counts others) (fun _ _ => rfl) environment finish
        (discoveryServerStop q)).mpr hconsumer
    · exact (once_iff (streamingServer_counts others) (fun _ _ => rfl) environment finish
        (discoveryServerStop q)).mpr hconsumer

/-- An application that dumps PCM data to one file, while it is running. -/
def dumping : Queue Running Handler where
  state :=
    { container :=
        { loop := EventLoop.started 10 (Streamer.create 9000 .PCM none ⟨0⟩)
          commandServer := (Tcp.Server.create 10).start
          scheduler :=
            { producer := Multiplexor.create [⟨true, true⟩]
              consumer := .demultiplexor
                (Demultiplexor.create [FileConsumer.construct ⟨2, 32, 44100, true⟩]).start } }
      calls := ⟨[], 0, 0, 0⟩ }
  posted := []
  ran := []

/-- When it is stopped, no callback is invoked. -/
theorem not_completes_dumping :
    ¬ Completes (fun _ c => (c, [])) ⟨fun _ => ⟨0⟩, ProbeSort.merge⟩ (fun _ => []) dumping := by
  intro h
  have hconsumer := (once_iff (given_counts _ 0) (fun _ _ => rfl) _ _ dumping).mp (h.given 0)
  exact Consumer.noConfusion hconsumer

end Container

end SlimStreamer
