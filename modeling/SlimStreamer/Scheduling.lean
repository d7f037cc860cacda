import SlimStreamer.Application
import SlimStreamer.Container

/-!
# The scheduler

`Scheduler::processTask` produces and consumes up to five chunks and has itself called again, at
once or after the delay the last call has answered with, for as long as the producer or the
consumer is running.

The processor is a number of posted tasks and the armed timers; it runs any of them next.  The
producer and the consumer are arbitrary at first, and the sources with the Streamer later.

* `processTask_spec` — what a task does;
* `one_task_chain` — there are as many tasks as starts, less those that have found nothing running;
* `stops_after_last_task` — once stopped, each of them runs once more at most;
* `scheduler_delivers` — what the sources and the Streamer do under the scheduler.
-/

namespace SlimStreamer

open GuardedExecution

/-- What a call of `produceChunk` with the consumer does: it throws, or answers. -/
inductive Produced where
  | threw
  | answered (delay : Option ℕ)
  deriving DecidableEq, Repr

/-- The producer and the consumer of a scheduler.  A call reads an `ι` from outside, and an `ε`
is anything that happens in between. -/
structure Parts (ω ι ε : Type) where
  start : ι → ω → ω
  stop : ι → ω → ω
  isRunning : ω → Bool
  produceChunk : ι → ω → Produced × ω
  enabled : ω → ε → Prop
  occur : ω → ε → ω

/-- A scheduler with the processor it posts to. -/
structure Scheduling (ω : Type) where
  world : ω
  /-- The tasks in the queue of the processor. -/
  posted : ℕ
  /-- The armed timers, with their delays. -/
  timers : List (ℕ × ℕ)
  taskTimer : Option ℕ
  /-- How many timers there have been. -/
  nextTimer : ℕ
  /-- How many tasks have found nothing running. -/
  ended : ℕ

namespace Scheduling

variable {ω ι ε : Type}

def create (world : ω) : Scheduling ω := ⟨world, 0, [], none, 0, 0⟩

/-- What the loop of `processTask` leaves: the delay, whether it has thrown, and the producer and
the consumer. -/
structure Quantum (ω : Type) where
  delayProcessing : ℕ
  threw : Bool
  world : ω

/-- The loop of `processTask`, for the given number of chunks. -/
def processChunks (parts : Parts ω ι ε) (input : ℕ → ι) : ℕ → ω → Quantum ω
  | 0, w => ⟨0, false, w⟩
  | chunksToProcess + 1, w =>
    match parts.produceChunk (input chunksToProcess) w with
    | (.threw, w) => ⟨0, true, w⟩
    | (.answered delay, w) =>
      if delay.getD 0 = 0 then processChunks parts input chunksToProcess w
      else ⟨delay.getD 0, false, w⟩

/-- Having the task called again, if there is more PCM data to be processed. -/
def submit (parts : Parts ω ι ε) (delayProcessing : ℕ) (x : Scheduling ω) : Scheduling ω :=
  if parts.isRunning x.world then
    if 0 < delayProcessing then
      { x with
        timers := x.timers ++ [(x.nextTimer, delayProcessing)]
        taskTimer := some x.nextTimer
        nextTimer := x.nextTimer + 1 }
    else { x with posted := x.posted + 1 }
  else { x with ended := x.ended + 1 }

/-- `processTask`, with the input of the calls and of `stop`. -/
def processTask (parts : Parts ω ι ε) (input : ℕ → ι) (x : Scheduling ω) : Scheduling ω :=
  let quantum := processChunks parts input 5 x.world
  -- capturing consumer's errors
  let world := if quantum.threw then parts.stop (input 5) quantum.world else quantum.world
  { x with world := world, taskTimer := none }.submit parts quantum.delayProcessing

def start (parts : Parts ω ι ε) (input : ι) (x : Scheduling ω) : Scheduling ω :=
  { x with world := parts.start input x.world, posted := x.posted + 1 }

def stop (parts : Parts ω ι ε) (input : ι) (x : Scheduling ω) : Scheduling ω :=
  { x with world := parts.stop input x.world }

/-- The destructor: canceling deferred operation if any. -/
def destroy (x : Scheduling ω) : Scheduling ω :=
  { x with timers := x.timers.filter fun timer => some timer.1 ≠ x.taskTimer }

/-- The processor takes a posted task. -/
def takePosted (x : Scheduling ω) : Scheduling ω := { x with posted := x.posted - 1 }

/-- A timer elapses. -/
def takeTimer (number : ℕ) (x : Scheduling ω) : Scheduling ω :=
  { x with timers := x.timers.eraseP fun timer => timer.1 == number }

/-- What can happen to a scheduler. -/
inductive Stimulus (ι ε : Type) where
  | start (input : ι)
  | stop (input : ι)
  /-- The processor runs a posted task. -/
  | task (input : ℕ → ι)
  /-- It runs the task of a timer. -/
  | timer (number : ℕ) (input : ℕ → ι)
  | other (e : ε)

def enabled (parts : Parts ω ι ε) (x : Scheduling ω) : Stimulus ι ε → Prop
  | .task _ => 0 < x.posted
  | .timer number _ => number ∈ x.timers.map Prod.fst
  | .other e => parts.enabled x.world e
  | _ => True

def step (parts : Parts ω ι ε) (x : Scheduling ω) : Stimulus ι ε → Scheduling ω
  | .start input => x.start parts input
  | .stop input => x.stop parts input
  | .task input => x.takePosted.processTask parts input
  | .timer number input => (x.takeTimer number).processTask parts input
  | .other e => { x with world := parts.occur x.world e }

def system (parts : Parts ω ι ε) : System (Scheduling ω) (Stimulus ι ε) where
  enabled := enabled parts
  step := step parts

instance (parts : Parts ω ι ε) [∀ w e, Decidable (parts.enabled w e)] (x : Scheduling ω)
    (e : Stimulus ι ε) : Decidable ((system parts).enabled x e) :=
  match e with
  | .start _ | .stop _ => isTrue trivial
  | .task _ => inferInstanceAs (Decidable (0 < x.posted))
  | .timer number _ => inferInstanceAs (Decidable (number ∈ x.timers.map Prod.fst))
  | .other e => inferInstanceAs (Decidable (parts.enabled x.world e))

/-- How many tasks there are: posted, or waiting for a timer. -/
def pending (x : Scheduling ω) : ℕ := x.posted + x.timers.length

/-- How often the scheduler was started. -/
def starts (es : List (Stimulus ι ε)) : ℕ :=
  es.countP fun
    | .start _ => true
    | _ => false

/-! ### A task -/

variable {parts : Parts ω ι ε} {x : Scheduling ω}

/-- **Everything a task can do**, to the processor. -/
inductive TaskStep (x x' : Scheduling ω) : Prop where
  /-- It arms a timer. -/
  | waits (delay : ℕ) (delay_pos : 0 < delay) (posted : x'.posted = x.posted)
    (timers : x'.timers = x.timers ++ [(x.nextTimer, delay)])
    (taskTimer : x'.taskTimer = some x.nextTimer) (nextTimer : x'.nextTimer = x.nextTimer + 1)
    (ended : x'.ended = x.ended)
  /-- It is posted. -/
  | again (posted : x'.posted = x.posted + 1) (timers : x'.timers = x.timers)
    (taskTimer : x'.taskTimer = none) (nextTimer : x'.nextTimer = x.nextTimer)
    (ended : x'.ended = x.ended)
  /-- It was the last one. -/
  | ends (posted : x'.posted = x.posted) (timers : x'.timers = x.timers)
    (taskTimer : x'.taskTimer = none) (nextTimer : x'.nextTimer = x.nextTimer)
    (ended : x'.ended = x.ended + 1)

theorem processTask_step (parts : Parts ω ι ε) (input : ℕ → ι) (x : Scheduling ω) :
    TaskStep x (x.processTask parts input) := by
  rw [processTask]
  generalize (if (processChunks parts input 5 x.world).threw then _ else _) = world
  rw [submit]
  split
  · split
    · rename_i hdelay
      exact .waits _ hdelay rfl rfl rfl rfl rfl
    · exact .again rfl rfl rfl rfl rfl
  · exact .ends rfl rfl rfl rfl rfl

theorem TaskStep.ended_le {x' : Scheduling ω} (h : TaskStep x x') : x.ended ≤ x'.ended := by
  cases h with
  | waits delay delay_pos posted timers taskTimer nextTimer ended => exact ended.ge
  | again posted timers taskTimer nextTimer ended => exact ended.ge
  | ends posted timers taskTimer nextTimer ended => exact ended ▸ Nat.le_succ _

theorem TaskStep.pending {x' : Scheduling ω} (h : TaskStep x x') :
    x'.pending + x'.ended = x.pending + x.ended + 1 := by
  cases h with
  | waits delay delay_pos posted timers taskTimer nextTimer ended =>
    rw [Scheduling.pending, Scheduling.pending, posted, timers, ended, List.length_append,
      List.length_singleton]
    omega
  | again posted timers taskTimer nextTimer ended =>
    rw [Scheduling.pending, Scheduling.pending, posted, timers, ended]
    omega
  | ends posted timers taskTimer nextTimer ended =>
    rw [Scheduling.pending, Scheduling.pending, posted, timers, ended]
    omega

/-! ### The chain of tasks -/

theorem takePosted_pending (h : 0 < x.posted) : x.takePosted.pending + 1 = x.pending := by
  show x.posted - 1 + x.timers.length + 1 = x.posted + x.timers.length
  omega

theorem takeTimer_pending {number : ℕ} (h : number ∈ x.timers.map Prod.fst) :
    (x.takeTimer number).pending + 1 = x.pending := by
  obtain ⟨timer, htimer, heq⟩ := List.mem_map.mp h
  have hlength : (x.timers.eraseP fun timer => timer.1 == number).length + 1 = x.timers.length :=
    List.length_eraseP_add_one htimer (by simpa using heq)
  show x.posted + (x.timers.eraseP fun timer => timer.1 == number).length + 1 =
    x.posted + x.timers.length
  omega

/-- **Every step keeps count of the tasks.** -/
theorem step_pending {e : Stimulus ι ε} (he : enabled parts x e) :
    (step parts x e).pending + (step parts x e).ended = x.pending + x.ended + starts [e] := by
  cases e with
  | start input =>
    show x.posted + 1 + x.timers.length + x.ended = x.posted + x.timers.length + x.ended + 1
    omega
  | stop input => rfl
  | other e => rfl
  | task input =>
    rw [← takePosted_pending he]
    exact (processTask_step parts input x.takePosted).pending.trans (Nat.add_right_comm _ _ _)
  | timer number input =>
    rw [← takeTimer_pending he]
    exact (processTask_step parts input (x.takeTimer number)).pending.trans
      (Nat.add_right_comm _ _ _)

theorem step_ended (parts : Parts ω ι ε) (x : Scheduling ω) (e : Stimulus ι ε) :
    x.ended ≤ (step parts x e).ended := by
  cases e with
  | start input => exact le_rfl
  | stop input => exact le_rfl
  | other e => exact le_rfl
  | task input => exact (processTask_step parts input x.takePosted).ended_le
  | timer number input => exact (processTask_step parts input (x.takeTimer number)).ended_le

theorem starts_cons (e : Stimulus ι ε) (es : List (Stimulus ι ε)) :
    starts (e :: es) = starts [e] + starts es := by
  rw [← List.singleton_append, starts, List.countP_append]
  rfl

theorem exec_pending {es : List (Stimulus ι ε)} (hes : (system parts).Admits x es) :
    ((system parts).exec x es).pending + ((system parts).exec x es).ended =
      x.pending + x.ended + starts es := by
  induction es generalizing x with
  | nil => rfl
  | cons e es ih =>
    have hfirst := step_pending hes.1
    have hrest : ((system parts).exec (step parts x e) es).pending +
        ((system parts).exec (step parts x e) es).ended =
          (step parts x e).pending + (step parts x e).ended + starts es := ih hes.2
    rw [starts_cons e es, ← Nat.add_assoc, ← hfirst]
    exact hrest

/-- The timer that is referred to is the only one. -/
def Referred (x : Scheduling ω) : Prop :=
  x.timers = [] ∧ x.taskTimer = none ∨
    ∃ number delay, 0 < delay ∧ x.timers = [(number, delay)] ∧ x.taskTimer = some number

theorem TaskStep.referred {x' : Scheduling ω} (htimers : x.timers = []) (h : TaskStep x x') :
    x'.Referred := by
  cases h with
  | waits delay delay_pos posted timers taskTimer nextTimer ended =>
    rw [htimers] at timers
    exact Or.inr ⟨x.nextTimer, delay, delay_pos, timers, taskTimer⟩
  | again posted timers taskTimer nextTimer ended =>
    exact Or.inl ⟨timers.trans htimers, taskTimer⟩
  | ends posted timers taskTimer nextTimer ended =>
    exact Or.inl ⟨timers.trans htimers, taskTimer⟩

/-- As long as there is one task at most, its timer is referred to. -/
theorem step_referred (hx : x.Referred) (hpending : x.pending ≤ 1) {e : Stimulus ι ε}
    (he : enabled parts x e) : (step parts x e).Referred := by
  cases e with
  | start input => exact hx
  | stop input => exact hx
  | other e => exact hx
  | task input =>
    have hposted : 0 < x.posted := he
    refine (processTask_step parts input x.takePosted).referred ?_
    apply List.length_eq_zero_iff.mp
    show x.timers.length = 0
    rw [pending] at hpending
    omega
  | timer number input =>
    refine (processTask_step parts input (x.takeTimer number)).referred ?_
    apply List.length_eq_zero_iff.mp
    have hlength := takeTimer_pending he
    have hpos : (x.takeTimer number).timers.length ≤ (x.takeTimer number).pending :=
      Nat.le_add_left _ _
    omega

theorem exec_referred {es : List (Stimulus ι ε)} (hx : x.Referred)
    (hes : (system parts).Admits x es) (hone : x.pending + starts es ≤ 1) :
    ((system parts).exec x es).Referred := by
  induction es generalizing x with
  | nil => exact hx
  | cons e es ih =>
    rw [starts_cons] at hone
    have hcount := step_pending hes.1
    refine ih (step_referred hx (by omega) hes.1) hes.2 ?_
    have hgrows : x.ended ≤ (step parts x e).ended := step_ended parts x e
    show (step parts x e).pending + starts es ≤ 1
    omega

/-- How many tasks there are after the scheduler was started that often. -/
structure OneChain (started : ℕ) (x : Scheduling ω) : Prop where
  /-- Each start has a task, unless it has found nothing running. -/
  count : x.posted + x.timers.length + x.ended = started
  /-- After one start, deferred operations are canceled when the scheduler is deleted. -/
  canceled : started ≤ 1 → x.Referred ∧ x.destroy.timers = []

/-- **The tasks of a scheduler are as many as it was started**, less those that have found nothing
running, whatever the producer and the consumer do and throw.  Started once, there is never a
second task, and the only timer is the one that the destructor cancels. -/
theorem one_task_chain (parts : Parts ω ι ε) (world : ω) (es : List (Stimulus ι ε))
    (hes : (system parts).Admits (create world) es) :
    OneChain (starts es) ((system parts).exec (create world) es) where
  count := (exec_pending hes).trans (Nat.zero_add _)
  canceled hone := by
    have hreferred := exec_referred (x := create world) (Or.inl ⟨rfl, rfl⟩) hes
      (le_of_eq_of_le (Nat.zero_add _) hone)
    refine ⟨hreferred, ?_⟩
    rcases hreferred with ⟨htimers, -⟩ | ⟨number, delay, -, htimers, htask⟩
    · rw [destroy, htimers]
      rfl
    · rw [destroy, htimers, htask]
      simp

/-! ### Stopping -/

/-- Nothing runs once it was stopped, until it is started. -/
structure Halts (parts : Parts ω ι ε) : Prop where
  stop : ∀ input w, parts.isRunning (parts.stop input w) = false
  produceChunk : ∀ input w, parts.isRunning w = false →
    parts.isRunning (parts.produceChunk input w).2 = false
  occur : ∀ w e, parts.enabled w e → parts.isRunning w = false →
    parts.isRunning (parts.occur w e) = false

theorem processChunks_halted (h : Halts parts) (input : ℕ → ι) (n : ℕ) {w : ω}
    (hw : parts.isRunning w = false) :
    parts.isRunning (processChunks parts input n w).world = false := by
  induction n generalizing w with
  | zero => exact hw
  | succ n ih =>
    have hproduced := h.produceChunk (input n) w hw
    rw [processChunks]
    split
    · rename_i heq
      rwa [heq] at hproduced
    · rename_i heq
      rw [heq] at hproduced
      split
      · exact ih hproduced
      · exact hproduced

/-- A task that finds nothing running is the last one. -/
theorem processTask_halted (h : Halts parts) (input : ℕ → ι)
    (hx : parts.isRunning x.world = false) :
    parts.isRunning (x.processTask parts input).world = false ∧
      (x.processTask parts input).pending = x.pending := by
  rw [processTask]
  obtain ⟨world, hdef⟩ : ∃ world, (if (processChunks parts input 5 x.world).threw then
      parts.stop (input 5) (processChunks parts input 5 x.world).world
    else (processChunks parts input 5 x.world).world) = world := ⟨_, rfl⟩
  have hworld : parts.isRunning world = false := by
    rw [← hdef]
    split
    · exact h.stop _ _
    · exact processChunks_halted h input 5 hx
  rw [hdef, submit, if_neg (by rw [hworld]; decide)]
  exact ⟨hworld, rfl⟩

/-- How many tasks the processor has run. -/
def tasks (es : List (Stimulus ι ε)) : ℕ :=
  es.countP fun
    | .task _ => true
    | .timer _ _ => true
    | _ => false

theorem exec_halted (h : Halts parts) {es : List (Stimulus ι ε)}
    (hes : (system parts).Admits x es) (hstarts : starts es = 0)
    (hx : parts.isRunning x.world = false) :
    ((system parts).exec x es).pending + tasks es = x.pending := by
  induction es generalizing x with
  | nil => rfl
  | cons e es ih =>
    rw [starts_cons, Nat.add_eq_zero_iff] at hstarts
    have htasks : tasks (e :: es) = tasks [e] + tasks es := by
      rw [← List.singleton_append, tasks, List.countP_append]
      rfl
    have hstep : parts.isRunning (step parts x e).world = false ∧
        (step parts x e).pending + tasks [e] = x.pending := by
      cases e with
      | start input => cases hstarts.1
      | stop input => exact ⟨h.stop input x.world, rfl⟩
      | other e => exact ⟨h.occur x.world e hes.1 hx, rfl⟩
      | task input =>
        obtain ⟨hhalted, hpending⟩ := processTask_halted (x := x.takePosted) h input hx
        exact ⟨hhalted, hpending ▸ takePosted_pending hes.1⟩
      | timer number input =>
        obtain ⟨hhalted, hpending⟩ := processTask_halted (x := x.takeTimer number) h input hx
        exact ⟨hhalted, hpending ▸ takeTimer_pending hes.1⟩
    have hrest : ((system parts).exec (step parts x e) es).pending + tasks es =
        (step parts x e).pending := ih hes.2 hstarts.2 hstep.1
    show ((system parts).exec (step parts x e) es).pending + tasks (e :: es) = _
    omega

/-- **Once the scheduler was stopped, each task runs once more at most**, and then the processor
has none left: every task it runs is one less, and none is posted or armed. -/
theorem stops_after_last_task (h : Halts parts) (world : ω) (es fs : List (Stimulus ι ε))
    {input : ι} (hes : (system parts).Admits (create world) (es ++ .stop input :: fs))
    (hfs : starts fs = 0) :
    ((system parts).exec (create world) (es ++ .stop input :: fs)).pending + tasks fs =
        ((system parts).exec (create world) es).pending ∧
      tasks fs ≤ starts es := by
  rw [System.admits_append] at hes
  rw [System.exec_append]
  obtain ⟨hbefore, -, hafter⟩ := hes
  have hhalted : ((system parts).exec (step parts ((system parts).exec (create world) es)
      (.stop input)) fs).pending + tasks fs =
        ((system parts).exec (create world) es).pending :=
    exec_halted h hafter hfs (h.stop input _)
  have hcount := exec_pending hbefore
  have hzero : (create world : Scheduling ω).pending + (create world : Scheduling ω).ended = 0 :=
    rfl
  exact ⟨hhalted, by omega⟩

end Scheduling

/-! ### The sources and the Streamer -/

/-- `start`, which makes a new thread. -/
def Producer.start (p : Producer) : Producer := if p.running then p else ⟨true, true⟩

/-- The sources, by what they capture and by whether they are running, and the Streamer. -/
structure Streaming where
  application : Application
  producers : Multiplexor Producer

namespace Streaming

open Scheduling

/-- What a call reads from outside. -/
abbrev Input : Type := Environment × (ℕ → Bool)

/-- The scheduler starts and stops the Streamer, and calls it. -/
def IsOther : Application.Stimulus → Prop
  | .read _ _ _ _ => True
  | .other (.start _) => False
  | .other (.stop _) => False
  | .other _ => True
  | .produceChunk _ _ => False

instance : DecidablePred IsOther
  | .read _ _ _ _ => isTrue trivial
  | .produceChunk _ _ => isFalse id
  | .other (.start _) | .other (.stop _) => isFalse id
  | .other (.slimProtoOpen _ _) | .other (.slimProtoClose _) | .other (.slimProtoData _ _ _ _)
  | .other (.chunk _ _ _) | .other (.pingTimer _ _) | .other (.pingHandler _ _)
  | .other (.httpData _ _) | .other (.httpClose _) | .other (.httpRemoved _) => isTrue trivial

def mapProducers (f : Producer → Producer) (w : Streaming) : Multiplexor Producer :=
  w.producers.setProducers (w.producers.producers.map f)

/-- The answer of `Multiplexor::produceChunk`. -/
def answer (input : Input) (x : Application) : Option ℕ :=
  (x.pipeline.multiplexor.produceChunk (Source.producer (x.consumer input.1 input.2))
    Source.Delivery.result).1

/-- The sources and the Streamer.  Their calls answer and never throw, so that under these parts the
scheduler does not get to capture an error. -/
def parts : Parts Streaming Input Application.Stimulus where
  start input w := ⟨w.application.step (.other (.start input.1)), w.mapProducers Producer.start⟩
  stop input w := ⟨w.application.step (.other (.stop input.1)), w.mapProducers Producer.stop⟩
  isRunning w := w.producers.isRunning Producer.running ||
    w.application.delivery.streamer.isRunning
  produceChunk input w := (.answered (answer input w.application),
    { w with application := w.application.produceChunk input.1 input.2 })
  enabled w e := IsOther e ∧ w.application.enabled e
  occur w e := { w with application := w.application.step e }

instance (w : Streaming) (e : Application.Stimulus) : Decidable (parts.enabled w e) :=
  inferInstanceAs (Decidable (IsOther e ∧ w.application.enabled e))

/-- The Streamer that is stopped stays so. -/
theorem produceChunk_stopped {x : Application} (hx : x.delivery.streamer.state = .stopped)
    (environment : Environment) (answers : ℕ → Bool) :
    (x.produceChunk environment answers).delivery.streamer.state = .stopped := by
  have hpresent : ∀ offers (x : Application), x.delivery.streamer.state = .stopped →
      (List.foldl (Application.present environment answers) x offers).delivery.streamer.state =
        .stopped := by
    intro offers
    induction offers with
    | nil => intro x hx; exact hx
    | cons offer offers ih =>
      intro x hx
      apply ih
      show (x.delivery.streamer.consumeChunk environment answers offer.chunk).2.state = .stopped
      rw [Streamer.consumeChunk, Streamer.beforeStreaming, Streamer.consumeStarted,
        if_neg (by rw [hx]; decide), Streamer.consumePreparing, if_neg (by rw [hx]; decide),
        Streamer.consumeStreaming_of_not _ _ _ (by rw [Streamer.isStreaming, hx]; rfl),
        Streamer.consumeDraining_of_not (by rw [hx]; decide)]
      exact hx
  exact hpresent _ _ hx

theorem occur_stopped {t : Streamer} {e : Streamer.Stimulus} (he : Streamer.NoChunk e)
    (hother : IsOther (.other e)) (ht : t.state = .stopped) :
    (Streamer.step t e).state = .stopped := by
  rcases Streamer.step_state t he with hstate | hstate | hstate
  · exact hstate.trans ht
  · cases e with
    | start environment => exact hother.elim
    | stop environment => exact hother.elim
    | slimProtoOpen connection environment => exact ht
    | slimProtoClose connection =>
      rw [Streamer.step, Streamer.onSlimProtoClose]
      split <;> exact ht
    | chunk environment answers chunk => exact he.elim
    | _ => exact (Streamer.step_forSession rfl t).state.trans ht
  · exact hstate

/-- Once stopped, nothing runs. -/
theorem parts_halts : Halts parts where
  stop input w := by
    have hproducers : (w.mapProducers Producer.stop).isRunning Producer.running = false :=
      Multiplexor.stop_isRunning Producer.stop_running w.producers
    have hstate : (Streamer.step w.application.delivery.streamer (.stop input.1)).state =
        .stopped := by
      rw [Streamer.step, Streamer.stop, Streamer.processEvent_stop]
      split
      · assumption
      · rfl
    show (_ || (Streamer.step w.application.delivery.streamer
      (.stop input.1)).state != .stopped) = _
    rw [hstate]
    exact (Bool.or_false _).trans hproducers
  produceChunk input w hw := by
    obtain ⟨hproducers, hstreamer⟩ := Bool.or_eq_false_iff.mp hw
    have hstate := produceChunk_stopped (by simpa [Streamer.isRunning] using hstreamer) input.1
      input.2
    show (w.producers.isRunning _ || (w.application.produceChunk input.1
      input.2).delivery.streamer.state != .stopped) = _
    rw [hstate]
    exact (Bool.or_false _).trans hproducers
  occur w e he hw := by
    obtain ⟨hproducers, hstreamer⟩ := Bool.or_eq_false_iff.mp hw
    have hstopped : w.application.delivery.streamer.state = .stopped := by
      simpa [Streamer.isRunning] using hstreamer
    have hstate : (w.application.step e).delivery.streamer.state = .stopped := by
      cases e with
      | read i frames stale timestamp => exact hstopped
      | produceChunk environment answers => exact he.1.elim
      | other e => exact occur_stopped he.2.1 he.1 hstopped
    show (w.producers.isRunning _ || (w.application.step e).delivery.streamer.state != .stopped) = _
    rw [hstate]
    exact (Bool.or_false _).trans hproducers

/-! ### The scheduler over the application -/

theorem processChunks_application (input : ℕ → Input) (n : ℕ) (w : Streaming) :
    ∃ es, Application.system.Admits w.application es ∧
      (processChunks parts input n w).world.application =
        Application.system.exec w.application es := by
  induction n generalizing w with
  | zero => exact ⟨[], trivial, rfl⟩
  | succ n ih =>
    have hproduced : parts.produceChunk (input n) w = (.answered (answer (input n) w.application),
        { w with application := w.application.produceChunk (input n).1 (input n).2 }) := rfl
    rw [processChunks, hproduced]
    dsimp only
    split
    · obtain ⟨es, hes, hexec⟩ :=
        ih { w with application := w.application.produceChunk (input n).1 (input n).2 }
      exact ⟨.produceChunk (input n).1 (input n).2 :: es, ⟨trivial, hes⟩, hexec⟩
    · exact ⟨[.produceChunk (input n).1 (input n).2], ⟨trivial, trivial⟩, rfl⟩

theorem submit_world {ω ι ε : Type} (parts : Parts ω ι ε) (delay : ℕ) (x : Scheduling ω) :
    (x.submit parts delay).world = x.world := by
  rw [submit]
  split
  · split <;> rfl
  · rfl

/-- A task is a few calls of the application. -/
theorem processTask_application (input : ℕ → Input) (x : Scheduling Streaming) :
    ∃ es, Application.system.Admits x.world.application es ∧
      (x.processTask parts input).world.application =
        Application.system.exec x.world.application es := by
  obtain ⟨es, hes, hexec⟩ := processChunks_application input 5 x.world
  rw [processTask, submit_world]
  dsimp only
  split
  · refine ⟨es ++ [.other (.stop (input 5).1)], ?_, ?_⟩
    · rw [System.admits_append]
      exact ⟨hes, ⟨trivial, trivial⟩, trivial⟩
    · rw [System.exec_append, ← hexec]
      rfl
  · exact ⟨es, hes, hexec⟩

/-- **A step of the scheduler is a few steps of the application.** -/
theorem step_application (x : Scheduling Streaming)
    (e : Scheduling.Stimulus Input Application.Stimulus) (he : Scheduling.enabled parts x e) :
    ∃ es, Application.system.Admits x.world.application es ∧
      (Scheduling.step parts x e).world.application =
        Application.system.exec x.world.application es := by
  cases e with
  | start input => exact ⟨[.other (.start input.1)], ⟨⟨trivial, trivial⟩, trivial⟩, rfl⟩
  | stop input => exact ⟨[.other (.stop input.1)], ⟨⟨trivial, trivial⟩, trivial⟩, rfl⟩
  | task input => exact processTask_application input x.takePosted
  | timer number input => exact processTask_application input (x.takeTimer number)
  | other e => exact ⟨[e], ⟨he.2, trivial⟩, rfl⟩

/-- New sources and a new Streamer. -/
def create (sources : List Source) (streamingPort : ℕ) (format : FormatSelection)
    (gain : Option ℕ) (now : Timestamp) : Streaming where
  application := .create sources streamingPort format gain now
  producers := .create (sources.map fun _ => ⟨false, false⟩)

/-- Nobody refuses. -/
def quiet : Input := (Streamer.quiet, fun _ => true)

/-- The first task finds nothing and waits; a source captures, and the chunk is consumed. -/
def firstTasks : List (Scheduling.Stimulus Input Application.Stimulus) :=
  [.start quiet, .task fun _ => quiet, .other (.read 0 [[0, 1], [7, 3]] [] ⟨0⟩),
    .timer 0 fun _ => quiet]

theorem one_task_chain_firstTasks :
    OneChain 1 ((Scheduling.system parts).exec
        (.create (create Pipeline.twoSources 9001 .FLAC none ⟨0⟩)) firstTasks) ∧
      ((Scheduling.system parts).exec
        (.create (create Pipeline.twoSources 9001 .FLAC none ⟨0⟩)) firstTasks).timers = [(1, 10)] :=
  ⟨one_task_chain parts _ firstTasks (by decide +kernel), by decide +kernel⟩

theorem stops_after_last_task_firstTasks :
    ((Scheduling.system parts).exec (.create (create Pipeline.twoSources 9001 .FLAC none ⟨0⟩))
        (firstTasks ++ .stop quiet :: [.timer 1 fun _ => quiet])).pending + 1 =
      ((Scheduling.system parts).exec
        (.create (create Pipeline.twoSources 9001 .FLAC none ⟨0⟩)) firstTasks).pending :=
  (stops_after_last_task parts_halts _ firstTasks [.timer 1 fun _ => quiet]
    (by decide +kernel) (by decide)).1

/-- What was delivered by then. -/
structure Delivers (w : Streaming) : Prop where
  streams : Pipeline.SerialStreams w.application.pipeline
  once : Streamer.ExactlyOnce w.application.delivery
  streamed : Application.dataOf (Pipeline.accepted w.application.pipeline.offers) =
    Application.dataOf w.application.streamed

/-- **What the sources and the Streamer do under the scheduler** is a run of the application, so
that streams are delivered one at a time, to each session once and in order, and no data is
consumed without being streamed, however the processor runs the tasks, the timers and all else. -/
theorem scheduler_delivers {sources : List Source} (hne : sources ≠ [])
    (hsources : ∀ s ∈ sources,
      ∃ p now, p.Valid ∧ p.samplingRate ≠ 0 ∧ s = Source.create p now)
    (streamingPort : ℕ) (format : FormatSelection) (gain : Option ℕ) (now : Timestamp)
    {es : List (Scheduling.Stimulus Input Application.Stimulus)}
    (hes : (Scheduling.system parts).Admits
      (.create (create sources streamingPort format gain now)) es) :
    Delivers ((Scheduling.system parts).exec
      (.create (create sources streamingPort format gain now)) es).world := by
  obtain ⟨es', hes', hexec⟩ := System.exec_simulation (Scheduling.system parts) Application.system
    (fun x application => x.world.application = application) (by
      rintro x _ e rfl he
      exact step_application x e he) es _ _ rfl hes
  have hcreated := Application.create_linked hne hsources streamingPort format gain now
  have hlinked := Application.exec_linked hcreated hes'
  have honce := Application.exec_broadcasts hcreated hes'
  have hworld : ((Scheduling.system parts).exec
      (.create (create sources streamingPort format gain now)) es).world.application =
        Application.system.exec (.create sources streamingPort format gain now) es' := hexec
  refine ⟨?_, ?_, ?_⟩
  · rw [hworld]
    exact hlinked.serialised.serialStreams
  · rw [hworld]
    exact honce
  · rw [hworld]
    exact hlinked.streamed.symm

theorem scheduler_delivers_firstTasks :
    Delivers ((Scheduling.system parts).exec
        (.create (create Pipeline.twoSources 9001 .FLAC none ⟨0⟩)) firstTasks).world ∧
      (((Scheduling.system parts).exec (.create (create Pipeline.twoSources 9001 .FLAC none ⟨0⟩))
        firstTasks).world.application.pipeline.offers.map Offer.source) = [0] :=
  ⟨scheduler_delivers (by decide) Application.twoSources_rated 9001 .FLAC none ⟨0⟩
    (by decide +kernel), by decide +kernel⟩

end Streaming

end SlimStreamer
