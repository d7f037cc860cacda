import SlimStreamer.Alsa.Source
import SlimStreamer.Lib.Execution

/-!
# Starting and stopping a source

`start` and `stop` of `alsa::Source` can be called by any thread.  `threadLock` is held during
all of a call; `deviceLock` protects the opening and closing of the device by the producer thread
from the request to stop, which is made by a caller.

A step is what happens between two points at which another thread can interfere.  The functions
of the sound library are given a handle: one that is not open is a misuse, after which nothing is
known, and so nothing happens any more.  The same goes for a `std::thread` that is assigned to
while it can be joined, which terminates the program.

* `step` — the steps of the calls, of the threads and of the event loop;
* `Consistent`, `step_consistent` — what holds between the locks, the threads and the device.
-/

namespace SlimStreamer

open GuardedExecution Alsa

namespace ThreadedSource

/-- What `handlePtr` points to. -/
inductive Handle where
  | null
  | isOpen (capturing : Bool)
  | closed
  deriving DecidableEq, Repr

/-- How `open` ends. -/
inductive Opening where
  /-- `snd_pcm_open` fails, and leaves `handlePtr` as it is. -/
  | notOpened
  /-- A later function fails. -/
  | failed
  | started
  deriving DecidableEq, Repr

def Opening.opens (outcome : Opening) : Bool := outcome != .notOpened

def Opening.handle (outcome : Opening) (handlePtr : Handle) : Handle :=
  match outcome with
  | .notOpened => handlePtr
  | .failed => .isOpen false
  | .started => .isOpen true

/-- Where a producer thread stands. -/
inductive Thread where
  /-- To acquire `deviceLock`. -/
  | begun
  /-- Calls `open`, with `deviceLock`. -/
  | opening
  | producing
  /-- To acquire `deviceLock` again; whether it has opened the device. -/
  | leaving (opened : Bool)
  /-- Calls `close`, with `deviceLock`. -/
  | closing (opened : Bool)
  | finished
  deriving DecidableEq, Repr

/-- Where a call of `start` or `stop` stands. -/
inductive Call where
  /-- To acquire `threadLock`. -/
  | starting
  | startLocked
  /-- `running` is set. -/
  | creating
  /-- The optional delay for the producer thread. -/
  | delaying
  /-- To acquire `threadLock`. -/
  | stopping
  | stopLocked
  /-- To acquire `deviceLock`. -/
  | requesting
  /-- Calls `snd_pcm_drop`, with `deviceLock`. -/
  | dropping
  | dropped
  /-- Waits for the producer thread. -/
  | joining
  /-- `threadLock` is released. -/
  | callingBack
  deriving DecidableEq, Repr

/-- Whether the call holds `threadLock`. -/
def Call.locked : Call → Bool
  | .starting | .stopping | .callingBack => false
  | _ => true

/-- Who holds `deviceLock`. -/
inductive Holder where
  | caller (k : ℕ)
  | thread (i : ℕ)
  deriving DecidableEq, Repr

/-- What is done to the source. -/
inductive Turn where
  /-- A producer thread enters `produce`. -/
  | produce (i : ℕ)
  | read (i : ℕ) (read : Source.PcmRead)
  /-- The event loop takes a chunk. -/
  | produceChunk (consumer : Chunk → Bool)

namespace Turn

def apply (source : Source) : Turn → Source
  | .produce _ =>
    { source with capturing := { source.capturing with isBeginningOfStream := true } }
  | .read _ pcmRead => (source.onRead pcmRead).2
  | .produceChunk consumer => (source.producer consumer).2

/-- The producer thread whose turn it is. -/
def thread? : Turn → Option ℕ
  | .produce i => some i
  | .read i _ => some i
  | .produceChunk _ => none

end Turn

end ThreadedSource

structure ThreadedSource where
  source : Source
  running : Bool
  /-- The caller that holds it. -/
  threadLock : Option ℕ
  deviceLock : Option ThreadedSource.Holder
  /-- The thread of the member `producerThread`, if that is joinable. -/
  producerThread : Option ℕ
  /-- The threads there have been. -/
  threads : List ThreadedSource.Thread
  handlePtr : ThreadedSource.Handle
  /-- The calls that are in progress, by their callers. -/
  calls : ℕ → Option ThreadedSource.Call
  turns : List ThreadedSource.Turn
  /-- `std::terminate` was called. -/
  terminated : Bool
  /-- The library was given a handle that is not open. -/
  misused : Bool

namespace ThreadedSource

def create (source : Source) : ThreadedSource where
  source := source
  running := false
  threadLock := none
  deviceLock := none
  producerThread := none
  threads := []
  handlePtr := .null
  calls := fun _ => none
  turns := []
  terminated := false
  misused := false

def setCall (k : ℕ) (call : Option Call) (s : ThreadedSource) : ThreadedSource :=
  { s with calls := Function.update s.calls k call }

def setThread (i : ℕ) (thread : Thread) (s : ThreadedSource) : ThreadedSource :=
  { s with threads := s.threads.set i thread }

def setThreadLock (holder : Option ℕ) (s : ThreadedSource) : ThreadedSource :=
  { s with threadLock := holder }

def setDeviceLock (holder : Option Holder) (s : ThreadedSource) : ThreadedSource :=
  { s with deviceLock := holder }

def setRunning (running : Bool) (s : ThreadedSource) : ThreadedSource :=
  { s with running := running }

def setHandle (handlePtr : Handle) (s : ThreadedSource) : ThreadedSource :=
  { s with handlePtr := handlePtr }

def misuse (s : ThreadedSource) : ThreadedSource := { s with misused := true }

def take (turn : Turn) (s : ThreadedSource) : ThreadedSource :=
  { s with source := turn.apply s.source, turns := s.turns ++ [turn] }

/-! ### The calls -/

/-- `producerThread = std::thread{…}`. -/
def createThread (s : ThreadedSource) : ThreadedSource :=
  match s.producerThread with
  | some _ => { s with terminated := true }
  | none =>
    { s with threads := s.threads ++ [.begun], producerThread := some s.threads.length }

/-- `snd_pcm_drop(handlePtr)`. -/
def drop (s : ThreadedSource) : ThreadedSource :=
  match s.handlePtr with
  | .isOpen _ => s.setHandle (.isOpen false)
  | _ => s.misuse

/-- `snd_pcm_close(handlePtr)`. -/
def close (s : ThreadedSource) : ThreadedSource :=
  match s.handlePtr with
  | .isOpen _ => s.setHandle .closed
  | _ => s.misuse

/-- `producerThread.join()`, if it is joinable. -/
def join (s : ThreadedSource) : ThreadedSource := { s with producerThread := none }

/-- The next step of a call. -/
def proceed (k : ℕ) (s : ThreadedSource) : ThreadedSource :=
  match s.calls k with
  | none => s
  | some .starting => (s.setThreadLock (some k)).setCall k (some .startLocked)
  | some .startLocked =>
    if s.running then (s.setThreadLock none).setCall k none
    else (s.setRunning true).setCall k (some .creating)
  | some .creating => s.createThread.setCall k (some .delaying)
  | some .delaying => (s.setThreadLock none).setCall k none
  | some .stopping => (s.setThreadLock (some k)).setCall k (some .stopLocked)
  | some .stopLocked => s.setCall k (some (if s.running then .requesting else .joining))
  | some .requesting => (s.setDeviceLock (some (.caller k))).setCall k (some .dropping)
  | some .dropping => (s.drop.setDeviceLock none).setCall k (some .dropped)
  | some .dropped => (s.setRunning false).setCall k (some .joining)
  | some .joining => (s.join.setThreadLock none).setCall k (some .callingBack)
  | some .callingBack => s.setCall k none

/-- A step of a thread that is neither the end of `open` nor a read. -/
def runThread (i : ℕ) (s : ThreadedSource) : ThreadedSource :=
  match s.threads[i]? with
  | some .begun => (s.setDeviceLock (some (.thread i))).setThread i .opening
  | some (.leaving opened) =>
    (s.setDeviceLock (some (.thread i))).setThread i (.closing opened)
  | some (.closing _) => (s.close.setDeviceLock none).setThread i .finished
  | _ => s

/-- `open` returns, or throws. -/
def onOpened (i : ℕ) (outcome : Opening) (s : ThreadedSource) : ThreadedSource :=
  let s := (s.setHandle (outcome.handle s.handlePtr)).setDeviceLock none
  if outcome = .started then (s.take (.produce i)).setThread i .producing
  else s.setThread i (.leaving outcome.opens)

/-- A read returns: one turn of the loop of `produce`. -/
def onRead (i : ℕ) (read : Source.PcmRead) (s : ThreadedSource) : ThreadedSource :=
  let result := (s.source.onRead read).1
  let s := s.take (.read i read)
  if 0 ≤ result then s else s.setThread i (.leaving true)

/-! ### What can happen -/

inductive Stimulus where
  | start (k : ℕ)
  | stop (k : ℕ)
  | proceed (k : ℕ)
  | runThread (i : ℕ)
  | opened (i : ℕ) (outcome : Opening)
  | read (i : ℕ) (read : Source.PcmRead)
  | produceChunk (consumer : Chunk → Bool)

/-- `-EBADFD`. -/
def badState : ℤ := -77

/-- A locked mutex is waited for, and so is the thread that is joined. -/
def mayProceed (s : ThreadedSource) : Call → Prop
  | .starting | .stopping => s.threadLock = none
  | .requesting => s.deviceLock = none
  | .joining => ∀ i ∈ s.producerThread, s.threads[i]? = some .finished
  | _ => True

def mayRun (s : ThreadedSource) : Thread → Prop
  | .begun | .leaving _ => s.deviceLock = none
  | .closing _ => True
  | _ => False

/-- A device that does not capture any longer reports that to whoever reads. -/
def enabled (s : ThreadedSource) (e : Stimulus) : Prop :=
  (s.misused = false ∧ s.terminated = false) ∧
    match e with
    | .start k | .stop k => s.calls k = none
    | .proceed k => ∃ call ∈ s.calls k, s.mayProceed call
    | .runThread i => ∃ thread ∈ s.threads[i]?, s.mayRun thread
    | .opened i _ => s.threads[i]? = some .opening
    | .read i read =>
      s.threads[i]? = some .producing ∧ (s.handlePtr = .isOpen false → read.result = badState)
    | .produceChunk _ => True

def step (s : ThreadedSource) : Stimulus → ThreadedSource
  | .start k => s.setCall k (some .starting)
  | .stop k => s.setCall k (some .stopping)
  | .proceed k => s.proceed k
  | .runThread i => s.runThread i
  | .opened i outcome => s.onOpened i outcome
  | .read i read => s.onRead i read
  | .produceChunk consumer => s.take (.produceChunk consumer)

def system : System ThreadedSource Stimulus where
  enabled := enabled
  step := step

instance (s : ThreadedSource) : DecidablePred s.mayProceed
  | .starting | .stopping => inferInstanceAs (Decidable (s.threadLock = none))
  | .requesting => inferInstanceAs (Decidable (s.deviceLock = none))
  | .joining =>
    inferInstanceAs (Decidable (∀ i ∈ s.producerThread, s.threads[i]? = some .finished))
  | .startLocked | .creating | .delaying | .stopLocked | .dropping | .dropped | .callingBack =>
    isTrue trivial

instance (s : ThreadedSource) : DecidablePred s.mayRun
  | .begun | .leaving _ => inferInstanceAs (Decidable (s.deviceLock = none))
  | .closing _ => isTrue trivial
  | .opening | .producing | .finished => isFalse id

instance (s : ThreadedSource) : DecidablePred s.enabled
  | .start k | .stop k =>
    inferInstanceAs (Decidable ((s.misused = false ∧ s.terminated = false) ∧ s.calls k = none))
  | .proceed k =>
    inferInstanceAs (Decidable ((s.misused = false ∧ s.terminated = false) ∧
      ∃ call ∈ s.calls k, s.mayProceed call))
  | .runThread i =>
    inferInstanceAs (Decidable ((s.misused = false ∧ s.terminated = false) ∧
      ∃ thread ∈ s.threads[i]?, s.mayRun thread))
  | .opened i _ =>
    inferInstanceAs (Decidable ((s.misused = false ∧ s.terminated = false) ∧
      s.threads[i]? = some .opening))
  | .read i read =>
    inferInstanceAs (Decidable ((s.misused = false ∧ s.terminated = false) ∧
      s.threads[i]? = some .producing ∧ (s.handlePtr = .isOpen false → read.result = badState)))
  | .produceChunk _ =>
    inferInstanceAs (Decidable ((s.misused = false ∧ s.terminated = false) ∧ True))

instance (s : ThreadedSource) (e : Stimulus) : Decidable (system.enabled s e) :=
  inferInstanceAs (Decidable (s.enabled e))

/-! ### The invariant -/

/-- The thread calls `open` or `close`. -/
def Thread.usesDevice : Thread → Bool
  | .opening | .closing _ => true
  | _ => false

/-- The device is open on behalf of the thread. -/
def Thread.hasDevice : Thread → Bool
  | .producing => true
  | .leaving opened | .closing opened => opened
  | _ => false

/-- A request to stop was made, and whoever reads is told. -/
structure Halting (s : ThreadedSource) : Prop where
  handle : s.handlePtr ≠ .isOpen true
  late : ∀ (i : ℕ) (thread : Thread), s.threads[i]? = some thread →
    thread = .finished ∨ thread.hasDevice = true

/-- What a call that holds `threadLock` relies on. -/
def Fits (s : ThreadedSource) : Call → Prop
  | .startLocked | .stopLocked => s.running = s.producerThread.isSome
  | .creating => s.running = true ∧ s.producerThread = none
  | .delaying | .requesting | .dropping => s.running = true ∧ s.producerThread.isSome = true
  | .dropped => s.producerThread.isSome = true ∧ s.Halting
  | .joining => s.running = false ∧ s.Halting
  | .starting | .stopping | .callingBack => True

/-- What holds between the threads and the device. -/
structure Devices (s : ThreadedSource) : Prop where
  thread : ∀ i, s.deviceLock = some (.thread i) ↔
    ∃ thread : Thread, s.threads[i]? = some thread ∧ thread.usesDevice = true
  /-- The threads that were joined have finished. -/
  joined : ∀ (i : ℕ) (thread : Thread), s.threads[i]? = some thread → thread ≠ .finished →
    s.producerThread = some i
  last : ∀ i, s.producerThread = some i → i + 1 = s.threads.length
  handle : (∃ capturing, s.handlePtr = .isOpen capturing) ↔
    ∃ (i : ℕ) (thread : Thread), s.threads[i]? = some thread ∧ thread.hasDevice = true

/-- **The invariant of the locks and the threads.** -/
structure Consistent (s : ThreadedSource) : Prop extends Devices s where
  locked : ∀ k, s.threadLock = some k ↔ ∃ call : Call, s.calls k = some call ∧ call.locked = true
  caller : ∀ k, s.deviceLock = some (.caller k) ↔ s.calls k = some .dropping
  call : ∀ k call, s.calls k = some call → s.Fits call
  idle : s.threadLock = none → s.running = s.producerThread.isSome
  alive : s.terminated = false

theorem create_consistent (source : Source) : Consistent (create source) where
  thread i := by simp [create]
  joined i := by simp [create]
  last i := by simp [create]
  handle := by simp [create]
  locked k := by simp [create]
  caller k := by simp [create]
  call k := by simp [create]
  idle _ := rfl
  alive := rfl

theorem fits_of_not_locked {call : Call} (h : call.locked = false) (s : ThreadedSource) :
    s.Fits call := by
  cases call with
  | starting | stopping | callingBack => exact trivial
  | _ => cases h

variable {s s' : ThreadedSource}

/-! ### The steps of a call -/

section Calls

variable {k : ℕ} {call : Call}

/-- Nobody else holds `threadLock`. -/
theorem Consistent.others (hs : s.Consistent) (hcall : s.calls k = some call)
    (hmine : call.locked = true ∨ s.threadLock = none) {j : ℕ} (hj : j ≠ k) {other : Call}
    (hother : s.calls j = some other) : other.locked = false := by
  rw [← Bool.not_eq_true]
  intro hlocked
  have hlock := (hs.locked j).mpr ⟨other, hother, hlocked⟩
  rcases hmine with hmine | hmine
  · rw [(hs.locked k).mpr ⟨call, hcall, hmine⟩] at hlock
    exact hj (Option.some.inj hlock).symm
  · rw [hmine] at hlock
    cases hlock

/-- A step of the call that holds `threadLock`, or acquires it. -/
theorem Consistent.moveCall (hs : s.Consistent) (hcall : s.calls k = some call)
    (hmine : call.locked = true ∨ s.threadLock = none) {next : Option Call}
    (hcalls : s'.calls = Function.update s.calls k next)
    (hlock : s'.threadLock = if next.any Call.locked then some k else none)
    (hcaller : ∀ j, s'.deviceLock = some (.caller j) ↔ j = k ∧ next = some .dropping)
    (hdevices : s'.Devices) (hfits : ∀ call, next = some call → s'.Fits call)
    (hidle : next.any Call.locked = false → s'.running = s'.producerThread.isSome)
    (halive : s'.terminated = false) : s'.Consistent where
  toDevices := hdevices
  locked j := by
    rw [hlock, hcalls]
    by_cases hj : j = k
    · subst hj
      rw [Function.update_self]
      cases next <;> simp
    · rw [Function.update_of_ne hj]
      have hnot : ¬ ∃ other : Call, s.calls j = some other ∧ other.locked = true := by
        rintro ⟨other, hother, hlocked⟩
        rw [hs.others hcall hmine hj hother] at hlocked
        cases hlocked
      rw [iff_false_intro hnot, iff_false]
      split
      · exact fun h => hj (Option.some.inj h).symm
      · exact fun h => by cases h
  caller j := by
    rw [hcaller, hcalls]
    by_cases hj : j = k
    · subst hj
      rw [Function.update_self, and_iff_right rfl]
    · rw [Function.update_of_ne hj]
      refine ⟨fun h => absurd h.1 hj, fun h => ?_⟩
      cases hs.others hcall hmine hj h
  call j other hother := by
    rw [hcalls] at hother
    by_cases hj : j = k
    · subst hj
      rw [Function.update_self] at hother
      exact hfits other hother
    · rw [Function.update_of_ne hj] at hother
      exact fits_of_not_locked (hs.others hcall hmine hj hother) s'
  idle h := by
    refine hidle ?_
    rw [hlock] at h
    split at h
    · cases h
    · rename_i hnot
      exact Bool.eq_false_iff.mpr hnot
  alive := halive

/-- Nobody drops the device. -/
theorem Consistent.not_caller (hs : s.Consistent) (hcall : s.calls k = some call)
    (hmine : call.locked = true ∨ s.threadLock = none) (hne : call ≠ .dropping) {next : Option Call}
    (hnext : next ≠ some .dropping) (j : ℕ) :
    s.deviceLock = some (.caller j) ↔ j = k ∧ next = some .dropping := by
  rw [hs.caller j]
  refine ⟨fun h => ?_, fun h => absurd h.2 hnext⟩
  by_cases hj : j = k
  · subst hj
    rw [hcall] at h
    exact absurd (Option.some.inj h) hne
  · cases hs.others hcall hmine hj h

/-- A step of the call that leaves the device and the threads alone. -/
theorem Consistent.moveQuietly (hs : s.Consistent) (hcall : s.calls k = some call)
    (hmine : call.locked = true ∨ s.threadLock = none) (hne : call ≠ .dropping) (lock : Option ℕ)
    (running : Bool) (next : Option Call) (hnext : next ≠ some .dropping)
    (hlock : lock = if next.any Call.locked then some k else none)
    (hfits : ∀ call, next = some call →
      ((s.setThreadLock lock).setRunning running).Fits call)
    (hidle : next.any Call.locked = false → running = s.producerThread.isSome) :
    (((s.setThreadLock lock).setRunning running).setCall k next).Consistent := by
  refine hs.moveCall hcall hmine rfl hlock (hs.not_caller hcall hmine hne hnext)
    ⟨hs.thread, hs.joined, hs.last, hs.handle⟩ (fun call h => ?_) hidle hs.alive
  have h := hfits call h
  cases call with
  | dropped | joining => exact ⟨h.1, h.2.handle, h.2.late⟩
  | _ => exact h

/-- A step of a call outside the locks. -/
theorem Consistent.outside (hs : s.Consistent) (hbefore : (s.calls k).any Call.locked = false)
    {next : Option Call} (hnext : next.any Call.locked = false) :
    (s.setCall k next).Consistent where
  toDevices := ⟨hs.thread, hs.joined, hs.last, hs.handle⟩
  locked j := by
    show s.threadLock = some j ↔ ∃ call : Call, Function.update s.calls k next j = some call ∧ _
    rw [hs.locked j]
    by_cases hj : j = k
    · subst hj
      rw [Function.update_self]
      simp only [Option.any_eq_false] at hbefore hnext
      grind
    · rw [Function.update_of_ne hj]
  caller j := by
    show s.deviceLock = _ ↔ Function.update s.calls k next j = _
    rw [hs.caller j]
    by_cases hj : j = k
    · subst hj
      rw [Function.update_self]
      constructor
      · intro h
        rw [h] at hbefore
        cases hbefore
      · intro h
        rw [h] at hnext
        cases hnext
    · rw [Function.update_of_ne hj]
  call j other hother := by
    replace hother : Function.update s.calls k next j = some other := hother
    by_cases hj : j = k
    · subst hj
      rw [Function.update_self] at hother
      rw [hother] at hnext
      exact fits_of_not_locked hnext _
    · rw [Function.update_of_ne hj] at hother
      have hfits := hs.call j other hother
      cases other <;> first | exact hfits | exact ⟨hfits.1, ⟨hfits.2.handle, hfits.2.late⟩⟩
  idle := hs.idle
  alive := hs.alive

end Calls

/-- The handle after a drop, or a misuse. -/
theorem drop_cases (s : ThreadedSource) :
    ((∃ capturing, s.handlePtr = .isOpen capturing) ∧ s.drop = s.setHandle (.isOpen false)) ∨
      ((¬ ∃ capturing, s.handlePtr = .isOpen capturing) ∧ s.drop = s.misuse) := by
  cases h : s.handlePtr <;> simp [drop, h]

theorem close_cases (s : ThreadedSource) :
    ((∃ capturing, s.handlePtr = .isOpen capturing) ∧ s.close = s.setHandle .closed) ∨
      ((¬ ∃ capturing, s.handlePtr = .isOpen capturing) ∧ s.close = s.misuse) := by
  cases h : s.handlePtr <;> simp [close, h]

/-- The thread that is created is the only one that has not finished. -/
theorem createThread_devices (hs : s.Devices) (hnone : s.producerThread = none) :
    s.createThread.Devices := by
  have hfinished : ∀ (i : ℕ) (thread : Thread), s.threads[i]? = some thread →
      thread = .finished := by
    intro i thread hthread
    by_contra hne
    rw [hs.joined i thread hthread hne] at hnone
    cases hnone
  have hget : ∀ (i : ℕ) (thread : Thread), (s.threads ++ [Thread.begun])[i]? = some thread ↔
      s.threads[i]? = some thread ∨ i = s.threads.length ∧ thread = .begun := by
    intro i thread
    rw [List.getElem?_append]
    split
    · rename_i hlt
      exact ⟨Or.inl, fun h => h.resolve_right fun h => absurd h.1 (Nat.ne_of_lt hlt)⟩
    · rename_i hge
      rw [List.getElem?_eq_none (Nat.not_lt.mp hge), List.getElem?_singleton]
      grind
  rw [createThread, hnone]
  constructor
  · intro i
    show s.deviceLock = _ ↔ ∃ thread, (s.threads ++ [Thread.begun])[i]? = some thread ∧ _
    rw [hs.thread i]
    constructor
    · rintro ⟨thread, hthread, huses⟩
      exact ⟨thread, (hget i thread).mpr (Or.inl hthread), huses⟩
    · rintro ⟨thread, hthread, huses⟩
      rcases (hget i thread).mp hthread with hthread | ⟨-, rfl⟩
      · exact ⟨thread, hthread, huses⟩
      · cases huses
  · intro i thread hthread hne
    rcases (hget i thread).mp hthread with hthread | ⟨rfl, -⟩
    · exact absurd (hfinished i thread hthread) hne
    · rfl
  · intro i hi
    obtain rfl := Option.some.inj hi
    show s.threads.length + 1 = (s.threads ++ [Thread.begun]).length
    rw [List.length_append, List.length_singleton]
  · show (∃ capturing, s.handlePtr = _) ↔
      ∃ i thread, (s.threads ++ [Thread.begun])[i]? = some thread ∧ _
    rw [hs.handle]
    constructor
    · rintro ⟨i, thread, hthread, hdevice⟩
      exact ⟨i, thread, (hget i thread).mpr (Or.inl hthread), hdevice⟩
    · rintro ⟨i, thread, hthread, hdevice⟩
      rcases (hget i thread).mp hthread with hthread | ⟨-, rfl⟩
      · exact ⟨i, thread, hthread, hdevice⟩
      · cases hdevice

/-- Without a thread there is nothing to be told. -/
theorem Consistent.halting_of_not_running (hs : s.Consistent)
    (hfits : s.running = s.producerThread.isSome) (hrunning : ¬ s.running = true) : s.Halting := by
  have hfinished : ∀ (i : ℕ) (thread : Thread), s.threads[i]? = some thread →
      thread = .finished := by
    intro i thread hthread
    by_contra hne
    rw [hfits, hs.joined i thread hthread hne] at hrunning
    exact hrunning rfl
  refine ⟨fun h => ?_, fun i thread hthread => Or.inl (hfinished i thread hthread)⟩
  obtain ⟨i, thread, hthread, hdevice⟩ := hs.handle.mp ⟨true, h⟩
  rw [hfinished i thread hthread] at hdevice
  cases hdevice

/-- **Every step of a call keeps the invariant**, unless it misuses the handle. -/
theorem proceed_consistent (hs : s.Consistent) {k : ℕ} {call : Call} (hcall : s.calls k = some call)
    (hmay : s.mayProceed call) (hused : (s.proceed k).misused = false) :
    (s.proceed k).Consistent := by
  have hfits := hs.call k call hcall
  rw [proceed, hcall] at hused ⊢
  cases call with
  | starting =>
    exact hs.moveQuietly hcall (Or.inr hmay) (by decide) (some k) s.running (some .startLocked)
      (by decide) rfl (fun call h => Option.some.inj h ▸ hs.idle hmay) (fun h => by cases h)
  | stopping =>
    exact hs.moveQuietly hcall (Or.inr hmay) (by decide) (some k) s.running (some .stopLocked)
      (by decide) rfl (fun call h => Option.some.inj h ▸ hs.idle hmay) (fun h => by cases h)
  | startLocked =>
    have hlock := (hs.locked k).mpr ⟨_, hcall, rfl⟩
    have hfits : s.running = s.producerThread.isSome := hfits
    dsimp only
    split
    · exact hs.moveQuietly hcall (Or.inl rfl) (by decide) none s.running none (by decide) rfl
        (fun call h => by cases h) (fun _ => hfits)
    · rename_i hnot
      rw [hfits] at hnot
      refine hs.moveQuietly hcall (Or.inl rfl) (by decide) s.threadLock true (some .creating)
        (by decide) hlock (fun call h => ?_) (fun h => by cases h)
      obtain rfl := Option.some.inj h
      exact ⟨rfl, Option.not_isSome_iff_eq_none.mp hnot⟩
  | creating =>
    have hlock := (hs.locked k).mpr ⟨_, hcall, rfl⟩
    have hdevices := createThread_devices hs.toDevices hfits.2
    rw [createThread, hfits.2] at hdevices ⊢
    refine hs.moveCall hcall (Or.inl rfl) rfl hlock
      (hs.not_caller hcall (Or.inl rfl) (by decide) (by decide))
      ⟨hdevices.thread, hdevices.joined, hdevices.last, hdevices.handle⟩ (fun call h => ?_)
      (fun h => by cases h) hs.alive
    obtain rfl := Option.some.inj h
    exact ⟨hfits.1, rfl⟩
  | delaying =>
    exact hs.moveQuietly hcall (Or.inl rfl) (by decide) none s.running none (by decide) rfl
      (fun call h => by cases h) (fun _ => hfits.1.trans hfits.2.symm)
  | stopLocked =>
    have hlock := (hs.locked k).mpr ⟨_, hcall, rfl⟩
    have hfits : s.running = s.producerThread.isSome := hfits
    dsimp only
    split
    · rename_i hrunning
      refine hs.moveQuietly hcall (Or.inl rfl) (by decide) s.threadLock s.running
        (some .requesting) (by decide) hlock (fun call h => ?_) (fun h => by cases h)
      obtain rfl := Option.some.inj h
      exact ⟨hrunning, hfits.symm.trans hrunning⟩
    · rename_i hrunning
      refine hs.moveQuietly hcall (Or.inl rfl) (by decide) s.threadLock s.running (some .joining)
        (by decide) hlock (fun call h => ?_) (fun h => by cases h)
      obtain rfl := Option.some.inj h
      exact ⟨Bool.eq_false_iff.mpr hrunning, hs.halting_of_not_running hfits hrunning⟩
  | requesting =>
    have hlock := (hs.locked k).mpr ⟨_, hcall, rfl⟩
    refine hs.moveCall hcall (Or.inl rfl) rfl hlock (fun j => ?_)
      ⟨fun i => ?_, hs.joined, hs.last, hs.handle⟩ (fun call h => ?_) (fun h => by cases h) hs.alive
    · show some (Holder.caller k) = some (.caller j) ↔ _
      simp [eq_comm]
    · have hmay : s.deviceLock = none := hmay
      have hthread := hs.thread i
      rw [hmay] at hthread
      show some (Holder.caller k) = some (.thread i) ↔ _
      exact ⟨fun h => (by cases h), fun h => (by cases hthread.mpr h)⟩
    · obtain rfl := Option.some.inj h
      exact hfits
  | dropping =>
    have hlock := (hs.locked k).mpr ⟨_, hcall, rfl⟩
    have hdevice := (hs.caller k).mpr hcall
    have hnotUsed : ∀ i : ℕ, ¬ ∃ thread : Thread, s.threads[i]? = some thread ∧
        thread.usesDevice = true := by
      intro i h
      have hthread := (hs.thread i).mpr h
      rw [hdevice] at hthread
      cases hthread
    dsimp only at hused ⊢
    rcases s.drop_cases with ⟨hopen, hdrop⟩ | ⟨-, hdrop⟩
    · rw [hdrop]
      refine hs.moveCall hcall (Or.inl rfl) rfl hlock (fun j => ?_)
        ⟨fun i => ?_, hs.joined, hs.last, ?_⟩ (fun call h => ?_) (fun h => by cases h) hs.alive
      · show none = _ ↔ _
        simp
      · show none = _ ↔ _
        exact ⟨fun h => (by cases h), fun h => absurd h (hnotUsed i)⟩
      · exact ⟨fun _ => hs.handle.mp hopen, fun _ => ⟨false, rfl⟩⟩
      · obtain rfl := Option.some.inj h
        refine ⟨hfits.2, by simp [setCall, setHandle, setDeviceLock], fun i thread hthread => ?_⟩
        -- the thread that has opened the device is the only one there is
        obtain ⟨j, other, hother, hhas⟩ := hs.handle.mp hopen
        have hthread : s.threads[i]? = some thread := hthread
        by_cases hfinished : thread = .finished
        · exact Or.inl hfinished
        · have hij := (hs.joined i thread hthread hfinished).symm.trans
            (hs.joined j other hother (by rintro rfl; cases hhas))
          obtain rfl := Option.some.inj hij
          rw [hthread] at hother
          exact Or.inr (Option.some.inj hother ▸ hhas)
    · rw [hdrop] at hused
      cases hused
  | dropped =>
    have hlock := (hs.locked k).mpr ⟨_, hcall, rfl⟩
    refine hs.moveQuietly hcall (Or.inl rfl) (by decide) s.threadLock false (some .joining)
      (by decide) hlock (fun call h => ?_) (fun h => by cases h)
    obtain rfl := Option.some.inj h
    exact ⟨rfl, hfits.2.handle, hfits.2.late⟩
  | joining =>
    refine hs.moveCall hcall (Or.inl rfl) rfl rfl
      (hs.not_caller hcall (Or.inl rfl) (by decide) (by decide))
      ⟨hs.thread, fun i thread hthread hne => ?_, fun i h => (by cases h), hs.handle⟩
      (fun call h => Option.some.inj h ▸ trivial) (fun _ => hfits.1) hs.alive
    have hjoined := hs.joined i thread hthread hne
    have hfinished : s.threads[i]? = some .finished := hmay i hjoined
    have hthread : s.threads[i]? = some thread := hthread
    rw [hfinished] at hthread
    exact absurd (Option.some.inj hthread).symm hne
  | callingBack => exact hs.outside (by rw [hcall]; rfl) rfl

/-! ### The steps of a thread -/

/-- A step of a thread that has not finished. -/
theorem Consistent.moveThread (hs : s.Consistent) {i : ℕ} {thread next : Thread}
    (hthread : s.threads[i]? = some thread) (hlive : thread ≠ .finished)
    (hthreads : s'.threads = s.threads.set i next) (hcalls : s'.calls = s.calls)
    (hrunning : s'.running = s.running) (hlock : s'.threadLock = s.threadLock)
    (hproducer : s'.producerThread = s.producerThread)
    (hcaller : ∀ k, s'.deviceLock = some (.caller k) ↔ s.deviceLock = some (.caller k))
    (huses : ∀ j, s'.deviceLock = some (.thread j) ↔ j = i ∧ next.usesDevice = true)
    (hhandle : (∃ capturing, s'.handlePtr = .isOpen capturing) ↔ next.hasDevice = true)
    (hhalting : s.Halting →
      s'.handlePtr ≠ .isOpen true ∧ (next = .finished ∨ next.hasDevice = true))
    (halive : s'.terminated = false) : s'.Consistent := by
  have hi := hs.joined i thread hthread hlive
  have hlt : i < s.threads.length := (List.getElem?_eq_some_iff.mp hthread).1
  have hget : ∀ (j : ℕ) (other : Thread), s'.threads[j]? = some other ↔
      (j = i ∧ other = next) ∨ (j ≠ i ∧ s.threads[j]? = some other) := by
    intro j other
    rw [hthreads]
    by_cases hj : j = i
    · subst hj
      rw [List.getElem?_set_self hlt]
      simp [eq_comm]
    · rw [List.getElem?_set_ne (Ne.symm hj)]
      simp [hj]
  have hfinished : ∀ j ≠ i, ∀ other : Thread, s.threads[j]? = some other → other = .finished := by
    intro j hj other hother
    by_contra hne
    rw [hs.joined j other hother hne] at hi
    exact hj (Option.some.inj hi)
  have hfits : ∀ call, s.Fits call → s'.Fits call := by
    have hkeeps : s.Halting → s'.Halting := by
      intro h
      refine ⟨(hhalting h).1, fun j other hother => ?_⟩
      rcases (hget j other).mp hother with ⟨-, rfl⟩ | ⟨-, hother⟩
      · exact (hhalting h).2
      · exact h.late j other hother
    intro call h
    cases call with
    | dropped => exact ⟨hproducer ▸ h.1, hkeeps h.2⟩
    | joining => exact ⟨hrunning.trans h.1, hkeeps h.2⟩
    | starting | stopping | callingBack => exact trivial
    | startLocked | stopLocked => exact hrunning.trans (h.trans (hproducer ▸ rfl))
    | creating => exact ⟨hrunning.trans h.1, hproducer.trans h.2⟩
    | delaying | requesting | dropping => exact ⟨hrunning.trans h.1, hproducer ▸ h.2⟩
  refine ⟨⟨fun j => ?_, fun j other hother hne => ?_, ?_, ?_⟩, ?_, ?_, ?_, ?_, halive⟩
  · rw [huses j]
    constructor
    · rintro ⟨rfl, hnext⟩
      exact ⟨next, (hget j next).mpr (Or.inl ⟨rfl, rfl⟩), hnext⟩
    · rintro ⟨other, hother, hnext⟩
      rcases (hget j other).mp hother with ⟨hj, rfl⟩ | ⟨hj, hother⟩
      · exact ⟨hj, hnext⟩
      · rw [hfinished j hj other hother] at hnext
        cases hnext
  · rw [hproducer]
    rcases (hget j other).mp hother with ⟨rfl, -⟩ | ⟨hj, hother⟩
    · exact hi
    · exact absurd (hfinished j hj other hother) hne
  · rw [hproducer, hthreads, List.length_set]
    exact hs.last
  · rw [hhandle]
    constructor
    · exact fun h => ⟨i, next, (hget i next).mpr (Or.inl ⟨rfl, rfl⟩), h⟩
    · rintro ⟨j, other, hother, hhas⟩
      rcases (hget j other).mp hother with ⟨-, rfl⟩ | ⟨hj, hother⟩
      · exact hhas
      · rw [hfinished j hj other hother] at hhas
        cases hhas
  · rw [hlock, hcalls]
    exact hs.locked
  · intro k
    rw [hcaller, hcalls]
    exact hs.caller k
  · intro k call h
    rw [hcalls] at h
    exact hfits call (hs.call k call h)
  · rw [hlock, hrunning, hproducer]
    exact hs.idle

/-- The device is held by the thread. -/
theorem Consistent.uses (hs : s.Consistent) {i : ℕ} {thread : Thread}
    (hthread : s.threads[i]? = some thread) (h : thread.usesDevice = true) :
    s.deviceLock = some (.thread i) := (hs.thread i).mpr ⟨thread, hthread, h⟩

/-- The device is as the only thread that has not finished has left it. -/
theorem Consistent.handle_iff (hs : s.Consistent) {i : ℕ} {thread : Thread}
    (hthread : s.threads[i]? = some thread) (hlive : thread ≠ .finished) :
    (∃ capturing, s.handlePtr = .isOpen capturing) ↔ thread.hasDevice = true := by
  rw [hs.handle]
  refine ⟨?_, fun h => ⟨i, thread, hthread, h⟩⟩
  rintro ⟨j, other, hother, hhas⟩
  have hij := (hs.joined i thread hthread hlive).symm.trans
    (hs.joined j other hother (by rintro rfl; cases hhas))
  obtain rfl := Option.some.inj hij
  rw [hthread] at hother
  exact Option.some.inj hother ▸ hhas

theorem runThread_consistent (hs : s.Consistent) {i : ℕ} {thread : Thread}
    (hthread : s.threads[i]? = some thread) (hmay : s.mayRun thread)
    (hused : (s.runThread i).misused = false) : (s.runThread i).Consistent := by
  rw [runThread, hthread] at hused ⊢
  have hfree : ∀ k : ℕ, s.deviceLock = none →
      (some (Holder.thread i) = some (.caller k) ↔ s.deviceLock = some (.caller k)) := by
    intro k hnone
    rw [hnone]
    exact ⟨fun h => (by cases h), fun h => (by cases h)⟩
  cases thread with
  | begun =>
    have hmay : s.deviceLock = none := hmay
    refine hs.moveThread hthread (by decide) rfl rfl rfl rfl rfl (fun k => hfree k hmay)
      (fun j => ?_) ?_ (fun h => ?_) hs.alive
    · show some (Holder.thread i) = some (.thread j) ↔ _
      simp [Thread.usesDevice, eq_comm]
    · have hhandle := hs.handle_iff hthread (by decide)
      exact hhandle
    · rcases h.late i .begun hthread with h | h <;> cases h
  | leaving opened =>
    have hmay : s.deviceLock = none := hmay
    refine hs.moveThread hthread (by simp) rfl rfl rfl rfl rfl (fun k => hfree k hmay)
      (fun j => ?_) ?_ (fun h => ⟨h.handle, Or.inr ?_⟩) hs.alive
    · show some (Holder.thread i) = some (.thread j) ↔ _
      simp [Thread.usesDevice, eq_comm]
    · have hhandle := hs.handle_iff hthread (by simp)
      exact hhandle
    · exact (h.late i (.leaving opened) hthread).resolve_left (by simp)
  | closing opened =>
    have hdevice := hs.uses hthread rfl
    dsimp only at hused ⊢
    rcases s.close_cases with ⟨-, hclose⟩ | ⟨-, hclose⟩
    · rw [hclose]
      refine hs.moveThread hthread (by simp) rfl rfl rfl rfl rfl (fun k => ?_) (fun j => ?_) ?_
        (fun h => ⟨by simp [setThread, setDeviceLock, setHandle], Or.inl rfl⟩) hs.alive
      · rw [hdevice]
        exact ⟨fun h => (by cases h), fun h => (by cases h)⟩
      · exact ⟨fun h => (by cases h), fun h => (by cases h.2)⟩
      · exact ⟨fun h => (by cases h.choose_spec), fun h => (by cases h)⟩
    · rw [hclose] at hused
      cases hused
  | _ => exact hmay.elim

theorem onOpened_consistent (hs : s.Consistent) {i : ℕ} (hthread : s.threads[i]? = some .opening)
    (outcome : Opening) : (s.onOpened i outcome).Consistent := by
  have hdevice := hs.uses hthread rfl
  have hclosed := hs.handle_iff hthread (by decide)
  have hcaller : ∀ k : ℕ, (none : Option Holder) = some (.caller k) ↔
      s.deviceLock = some (.caller k) := by
    intro k
    rw [hdevice]
    exact ⟨fun h => (by cases h), fun h => (by cases h)⟩
  have hnotHalting : ¬ s.Halting := fun h => by
    rcases h.late i .opening hthread with h | h <;> cases h
  have hnotUsed : ∀ (j : ℕ) (next : Thread), next.usesDevice = false →
      ((none : Option Holder) = some (.thread j) ↔ j = i ∧ next.usesDevice = true) := by
    intro j next hnext
    rw [hnext]
    exact ⟨fun h => (by cases h), fun h => (by cases h.2)⟩
  rw [onOpened]
  cases outcome with
  | notOpened =>
    exact hs.moveThread hthread (by decide) rfl rfl rfl rfl rfl hcaller (fun j => hnotUsed j _ rfl)
      hclosed (fun h => absurd h hnotHalting) hs.alive
  | failed =>
    exact hs.moveThread hthread (by decide) rfl rfl rfl rfl rfl hcaller (fun j => hnotUsed j _ rfl)
      ⟨fun _ => rfl, fun _ => ⟨false, rfl⟩⟩ (fun h => absurd h hnotHalting) hs.alive
  | started =>
    exact hs.moveThread hthread (by decide) rfl rfl rfl rfl rfl hcaller (fun j => hnotUsed j _ rfl)
      ⟨fun _ => rfl, fun _ => ⟨true, rfl⟩⟩ (fun h => absurd h hnotHalting) hs.alive

theorem take_consistent (hs : s.Consistent) (turn : Turn) : (s.take turn).Consistent where
  thread := hs.thread
  joined := hs.joined
  last := hs.last
  handle := hs.handle
  locked := hs.locked
  caller := hs.caller
  call k call h := by
    have hfits := hs.call k call h
    cases call with
    | dropped | joining => exact ⟨hfits.1, hfits.2.handle, hfits.2.late⟩
    | _ => exact hfits
  idle := hs.idle
  alive := hs.alive

theorem onRead_consistent (hs : s.Consistent) {i : ℕ} (hthread : s.threads[i]? = some .producing)
    (read : Source.PcmRead) : (s.onRead i read).Consistent := by
  rw [onRead]
  split
  · exact take_consistent hs _
  · have hhandle := hs.handle_iff hthread (by decide)
    refine hs.moveThread hthread (by decide) rfl rfl rfl rfl rfl (fun _ => Iff.rfl) (fun j => ?_)
      hhandle (fun h => ⟨h.handle, Or.inr rfl⟩) hs.alive
    refine ⟨fun h => ?_, fun h => (by cases h.2)⟩
    obtain ⟨other, hother, huses⟩ := (hs.thread j).mp h
    have hij := (hs.joined i _ hthread (by decide)).symm.trans
      (hs.joined j other hother (by rintro rfl; cases huses))
    obtain rfl := Option.some.inj hij
    rw [hthread] at hother
    obtain rfl := Option.some.inj hother
    cases huses

/-- **Every step keeps the invariant**, unless it misuses the handle. -/
theorem step_consistent (hs : s.Consistent) {e : Stimulus} (he : s.enabled e)
    (hused : (s.step e).misused = false) : (s.step e).Consistent := by
  obtain ⟨-, he⟩ := he
  cases e with
  | start k => exact hs.outside (by rw [he]; rfl) rfl
  | stop k => exact hs.outside (by rw [he]; rfl) rfl
  | proceed k =>
    obtain ⟨call, hcall, hmay⟩ := he
    exact proceed_consistent hs hcall hmay hused
  | runThread i =>
    obtain ⟨thread, hthread, hmay⟩ := he
    exact runThread_consistent hs hthread hmay hused
  | opened i outcome => exact onOpened_consistent hs he outcome
  | read i read => exact onRead_consistent hs he.1 read
  | produceChunk consumer => exact take_consistent hs _

end ThreadedSource

end SlimStreamer
