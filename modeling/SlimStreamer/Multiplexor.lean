import Mathlib.Data.List.Basic
import Mathlib.Tactic.Common

/-!
# The multiplexor

`Multiplexor`: a number of producers, one of which is asked for a chunk.  It stays the current
one for as long as it answers with a delay, be it zero; an absent delay lets the next one have
its turn.

The producers and what they answer are arbitrary.  `produceChunk` also returns whom it has asked
and the answer.  `stop` signals all producers and polls them until none is running.
-/

namespace SlimStreamer

structure Multiplexor (π : Type) where
  producers : List π
  currentProducerIndex : ℕ
  /-- The producer referred to, by its index. -/
  currentProducer : Option ℕ
  emptySwitches : ℕ

namespace Multiplexor

variable {π δ : Type}

def create (producers : List π) : Multiplexor π := ⟨producers, 0, none, 0⟩

def setProducers (producers : List π) (m : Multiplexor π) : Multiplexor π :=
  { m with producers := producers }

def setEmptySwitches (emptySwitches : ℕ) (m : Multiplexor π) : Multiplexor π :=
  { m with emptySwitches := emptySwitches }

def switchToNextProducer (m : Multiplexor π) : Multiplexor π :=
  let index := if m.producers.length ≤ m.currentProducerIndex + 1 then 0
    else m.currentProducerIndex + 1
  { m with
    currentProducerIndex := index
    currentProducer := if 0 < m.producers.length then some index else none }

/-- Setting up a producer if needed. -/
def setUp (m : Multiplexor π) : Multiplexor π :=
  if m.currentProducer.isSome then m else m.switchToNextProducer

/-- Asking the current producer. -/
def ask (produce : π → δ × π) (m : Multiplexor π) : Option (ℕ × δ) × Multiplexor π :=
  match m.currentProducer with
  | none => (none, m)
  | some i =>
    match m.producers[i]? with
    | none => (none, m)
    | some producer =>
      (some (i, (produce producer).1), m.setProducers (m.producers.set i (produce producer).2))

/-- Switching to the next producer if there were no chunks produced. -/
def conclude (result : Option ℕ) (m : Multiplexor π) : Option ℕ × Multiplexor π :=
  match result with
  | none =>
    let m := m.switchToNextProducer
    -- counting 'empty switches' to issue pauses once none of the producers produce anything
    if m.producers.length ≤ m.emptySwitches + 1 then (some 100, m.setEmptySwitches 0)
    else (none, m.setEmptySwitches (m.emptySwitches + 1))
  | some delay => (some delay, m.setEmptySwitches 0)

/-- `produceChunk`.  A producer answers with a `δ`, from which its delay is read. -/
def produceChunk (produce : π → δ × π) (delay : δ → Option ℕ) (m : Multiplexor π) :
    Option ℕ × Option (ℕ × δ) × Multiplexor π :=
  let asked := m.setUp.ask produce
  let concluded := asked.2.conclude (asked.1.bind fun answer => delay answer.2)
  (concluded.1, asked.1, concluded.2)

/-! ### Stopping -/

def isRunning (running : π → Bool) (m : Multiplexor π) : Bool := m.producers.any running

/-- Waiting for all producers to stop, with a pause before every poll.  Only the thread that
waits here starts and stops producers, so a pause does not change whether they run. -/
def waitStopped (running : π → Bool) : ℕ → Multiplexor π → Option (Multiplexor π)
  | 0, _ => none
  | polls + 1, m => if m.isRunning running then waitStopped running polls m else some m

/-- `stop`, without the callback that it invokes when it is done. -/
def stop (running : π → Bool) (halt : π → π) (polls : ℕ) (m : Multiplexor π) :
    Option (Multiplexor π) :=
  -- signalling all producers to stop
  waitStopped running polls (m.setProducers (m.producers.map halt))

theorem stop_isRunning {running : π → Bool} {halt : π → π} (h : ∀ p, running (halt p) = false)
    (m : Multiplexor π) : (m.setProducers (m.producers.map halt)).isRunning running = false := by
  simp [isRunning, setProducers, h]

/-- **The first poll finds that producers have stopped** which stop when they are told to. -/
theorem stop_eq {running : π → Bool} {halt : π → π} (h : ∀ p, running (halt p) = false)
    (polls : ℕ) (m : Multiplexor π) :
    m.stop running halt (polls + 1) = some (m.setProducers (m.producers.map halt)) := by
  rw [stop, waitStopped, stop_isRunning h, if_neg Bool.false_ne_true]

theorem conclude_none (m : Multiplexor π) :
    ∃ n, (m.conclude none).2 = m.switchToNextProducer.setEmptySwitches n := by
  rw [conclude]
  split
  · exact ⟨0, rfl⟩
  · exact ⟨m.emptySwitches + 1, rfl⟩

end Multiplexor

end SlimStreamer
