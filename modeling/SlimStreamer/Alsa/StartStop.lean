import SlimStreamer.Alsa.Capture
import SlimStreamer.Alsa.ProducerThread

/-!
# What starting and stopping a source guarantees

In every run of the calls and of the threads, whoever calls and in whatever order the steps are
taken, as long as the handle of the device was not misused.

* `Serial` — the turns of the threads are those of one call of `produce` after the other;
* `OneProducer`, `one_producer` — there is one producer thread at a time;
* `misused_iff` — exactly when the handle is used while it is not open;
* `stop_ends` — a request to stop is followed by the end of the call, after a few steps.
-/

namespace SlimStreamer

open GuardedExecution Alsa

namespace ThreadedSource

variable {s s' : ThreadedSource}

/-! ### One thread after the other -/

theorem onRead_fst (source : Source) (read : Source.PcmRead) :
    (source.onRead read).1 = read.result := by
  rw [Source.onRead]
  split
  · rfl
  · split
    · rename_i h
      rw [Source.restore, decide_eq_true h.1] at h
      cases h.2
    · rfl

/-- The turns of a thread. -/
def turnsOf (i : ℕ) (turns : List Turn) : List Turn :=
  turns.filter fun turn => turn.thread? == some i

/-- The turns of a thread that is in the loop of `produce`: it has entered, and no read has
failed. -/
def Looping (i : ℕ) (turns : List Turn) : Prop :=
  ∃ reads : List Source.PcmRead, turns = .produce i :: reads.map (.read i) ∧
    ∀ read ∈ reads, 0 ≤ read.result

/-- The turns of a thread that has left it, with the first read that failed. -/
def Left (i : ℕ) (turns : List Turn) : Prop :=
  ∃ (reads : List Source.PcmRead) (last : Source.PcmRead),
    turns = .produce i :: (reads ++ [last]).map (.read i) ∧
      (∀ read ∈ reads, 0 ≤ read.result) ∧ last.result < 0

/-- The turns of a thread, by where it stands. -/
def Session (i : ℕ) (turns : List Turn) : Thread → Prop
  | .begun | .opening => turns = []
  | .producing => Looping i turns
  | .leaving _ | .closing _ | .finished => turns = [] ∨ Left i turns

/-- **The turns of the threads are those of one call of `produce` after the other.** -/
structure Serial (source : Source) (s : ThreadedSource) : Prop where
  order : (s.turns.filterMap Turn.thread?).Pairwise (· ≤ ·)
  sessions : ∀ (i : ℕ) (thread : Thread), s.threads[i]? = some thread →
    Session i (turnsOf i s.turns) thread
  known : ∀ turn ∈ s.turns, ∀ i, turn.thread? = some i → i < s.threads.length
  source : s.source = s.turns.foldl Turn.apply source

theorem turnsOf_concat (i : ℕ) (turns : List Turn) (turn : Turn) :
    turnsOf i (turns ++ [turn]) =
      turnsOf i turns ++ if turn.thread? = some i then [turn] else [] := by
  rw [turnsOf, List.filter_append, List.filter_singleton, turnsOf]
  simp

/-- A step that takes no turn. -/
theorem Serial.quiet {source : Source} (hs : s.Serial source) (hturns : s'.turns = s.turns)
    (hsource : s'.source = s.source) (hlength : s.threads.length ≤ s'.threads.length)
    (hthreads : ∀ (i : ℕ) (thread : Thread), s'.threads[i]? = some thread →
      Session i (turnsOf i s.turns) thread) : s'.Serial source where
  order := by
    rw [hturns]
    exact hs.order
  sessions i thread hthread := by
    rw [hturns]
    exact hthreads i thread hthread
  known turn hturn i hi := by
    rw [hturns] at hturn
    exact lt_of_lt_of_le (hs.known turn hturn i hi) hlength
  source := by
    rw [hturns, hsource]
    exact hs.source

/-- A step of a call takes no turn, and creates a thread at most. -/
theorem proceed_threads (k : ℕ) (s : ThreadedSource) :
    (s.proceed k).turns = s.turns ∧ (s.proceed k).source = s.source ∧
      ((s.proceed k).threads = s.threads ∨ (s.proceed k).threads = s.threads ++ [.begun]) := by
  rw [proceed]
  split
  · exact ⟨rfl, rfl, Or.inl rfl⟩
  · exact ⟨rfl, rfl, Or.inl rfl⟩
  · split <;> exact ⟨rfl, rfl, Or.inl rfl⟩
  · rw [createThread]
    split
    · exact ⟨rfl, rfl, Or.inl rfl⟩
    · exact ⟨rfl, rfl, Or.inr rfl⟩
  · exact ⟨rfl, rfl, Or.inl rfl⟩
  · exact ⟨rfl, rfl, Or.inl rfl⟩
  · exact ⟨rfl, rfl, Or.inl rfl⟩
  · exact ⟨rfl, rfl, Or.inl rfl⟩
  · rcases s.drop_cases with ⟨-, hdrop⟩ | ⟨-, hdrop⟩ <;> rw [hdrop] <;> exact ⟨rfl, rfl, Or.inl rfl⟩
  · exact ⟨rfl, rfl, Or.inl rfl⟩
  · exact ⟨rfl, rfl, Or.inl rfl⟩
  · exact ⟨rfl, rfl, Or.inl rfl⟩

theorem turnsOf_eq_nil {source : Source} (hs : s.Serial source) {i : ℕ}
    (hi : s.threads.length ≤ i) : turnsOf i s.turns = [] := by
  rw [turnsOf, List.filter_eq_nil_iff]
  intro turn hturn hthread
  have hlt := hs.known turn hturn i (by simpa using hthread)
  omega

theorem proceed_serial {source : Source} (hs : s.Serial source) (k : ℕ) :
    (s.proceed k).Serial source := by
  obtain ⟨hturns, hsource, hthreads | hthreads⟩ := s.proceed_threads k
  · exact hs.quiet hturns hsource (by rw [hthreads]) (by rw [hthreads]; exact hs.sessions)
  · refine hs.quiet hturns hsource (by rw [hthreads, List.length_append]; omega) ?_
    intro i thread hthread
    rw [hthreads, List.getElem?_append] at hthread
    split at hthread
    · exact hs.sessions i thread hthread
    · rename_i hge
      rw [List.getElem?_singleton] at hthread
      split at hthread
      · obtain rfl := Option.some.inj hthread
        exact turnsOf_eq_nil hs (Nat.not_lt.mp hge)
      · cases hthread

/-- A step of a thread that takes no turn. -/
theorem Serial.moveThread {source : Source} (hs : s.Serial source) {i : ℕ} {thread next : Thread}
    (hthread : s.threads[i]? = some thread) (hturns : s'.turns = s.turns)
    (hsource : s'.source = s.source) (hthreads : s'.threads = s.threads.set i next)
    (hnext : Session i (turnsOf i s.turns) thread → Session i (turnsOf i s.turns) next) :
    s'.Serial source := by
  refine hs.quiet hturns hsource (by rw [hthreads, List.length_set]) ?_
  intro j other hother
  rw [hthreads] at hother
  by_cases hj : j = i
  · subst hj
    rw [List.getElem?_set_self (List.getElem?_eq_some_iff.mp hthread).1] at hother
    obtain rfl := Option.some.inj hother
    exact hnext (hs.sessions j thread hthread)
  · rw [List.getElem?_set_ne (Ne.symm hj)] at hother
    exact hs.sessions j other hother

theorem runThread_serial {source : Source} (hs : s.Serial source) {i : ℕ} {thread : Thread}
    (hthread : s.threads[i]? = some thread) (hmay : s.mayRun thread) :
    (s.runThread i).Serial source := by
  rw [runThread, hthread]
  cases thread with
  | begun => exact hs.moveThread hthread rfl rfl rfl id
  | leaving opened => exact hs.moveThread hthread rfl rfl rfl id
  | closing opened =>
    dsimp only
    rcases s.close_cases with ⟨-, hclose⟩ | ⟨-, hclose⟩ <;> rw [hclose] <;>
      exact hs.moveThread hthread rfl rfl rfl id
  | _ => exact hmay.elim

/-- A turn of the event loop. -/
theorem produceChunk_serial {source : Source} (hs : s.Serial source) (consumer : Chunk → Bool) :
    (s.take (.produceChunk consumer)).Serial source where
  order := by
    show ((s.turns ++ [Turn.produceChunk consumer]).filterMap Turn.thread?).Pairwise _
    rw [List.filterMap_append]
    exact (List.append_nil _).symm ▸ hs.order
  sessions i thread hthread := by
    show Session i (turnsOf i (s.turns ++ [.produceChunk consumer])) thread
    rw [turnsOf_concat, if_neg (by simp [Turn.thread?]), List.append_nil]
    exact hs.sessions i thread hthread
  known turn hturn i hi := by
    rcases List.mem_append.mp hturn with hturn | hturn
    · exact hs.known turn hturn i hi
    · rw [List.mem_singleton.mp hturn] at hi
      cases hi
  source := by
    show Turn.apply s.source (.produceChunk consumer) =
      (s.turns ++ [Turn.produceChunk consumer]).foldl Turn.apply source
    rw [List.foldl_append, ← hs.source]
    rfl

/-- A turn of the only thread that has not finished. -/
theorem Serial.takeTurn {source : Source} (hs : s.Serial source) (hc : s.Consistent) {i : ℕ}
    {thread next : Thread} (hthread : s.threads[i]? = some thread) (hlive : thread ≠ .finished)
    (turn : Turn) (hturn : turn.thread? = some i) (hturns : s'.turns = s.turns ++ [turn])
    (hsource : s'.source = turn.apply s.source) (hthreads : s'.threads = s.threads.set i next)
    (hnext : Session i (turnsOf i s.turns) thread →
      Session i (turnsOf i s.turns ++ [turn]) next) : s'.Serial source where
  order := by
    have hlast : List.filterMap Turn.thread? [turn] = [i] := by simp [hturn]
    rw [hturns, List.filterMap_append, hlast, List.pairwise_append]
    refine ⟨hs.order, List.pairwise_singleton _ _, ?_⟩
    intro j hj i' hi'
    obtain rfl := List.mem_singleton.mp hi'
    obtain ⟨turn', hturn', hj⟩ := List.mem_filterMap.mp hj
    have hlt := hs.known turn' hturn' j hj
    have hlast := hc.last i' (hc.joined i' thread hthread hlive)
    omega
  sessions j other hother := by
    rw [hthreads] at hother
    rw [hturns, turnsOf_concat]
    by_cases hj : j = i
    · subst hj
      rw [List.getElem?_set_self (List.getElem?_eq_some_iff.mp hthread).1] at hother
      obtain rfl := Option.some.inj hother
      rw [if_pos hturn]
      exact hnext (hs.sessions j thread hthread)
    · rw [List.getElem?_set_ne (Ne.symm hj)] at hother
      rw [if_neg (by rw [hturn]; exact fun h => hj (Option.some.inj h).symm), List.append_nil]
      exact hs.sessions j other hother
  known turn' hturn' j hj := by
    rw [hthreads, List.length_set]
    rw [hturns] at hturn'
    rcases List.mem_append.mp hturn' with hturn' | hturn'
    · exact hs.known turn' hturn' j hj
    · rw [List.mem_singleton.mp hturn', hturn] at hj
      obtain rfl := Option.some.inj hj
      exact (List.getElem?_eq_some_iff.mp hthread).1
  source := by
    rw [hturns, hsource, List.foldl_append, ← hs.source]
    rfl

theorem onOpened_serial {source : Source} (hs : s.Serial source) (hc : s.Consistent) {i : ℕ}
    (hthread : s.threads[i]? = some .opening) (outcome : Opening) :
    (s.onOpened i outcome).Serial source := by
  rw [onOpened]
  cases outcome with
  | notOpened => exact hs.moveThread hthread rfl rfl rfl Or.inl
  | failed => exact hs.moveThread hthread rfl rfl rfl Or.inl
  | started =>
    refine hs.takeTurn hc hthread (by decide) (.produce i) rfl rfl rfl rfl ?_
    intro h
    have h : turnsOf i s.turns = [] := h
    rw [h]
    exact ⟨[], rfl, List.forall_mem_nil _⟩

theorem onRead_serial {source : Source} (hs : s.Serial source) (hc : s.Consistent) {i : ℕ}
    (hthread : s.threads[i]? = some .producing) (read : Source.PcmRead) :
    (s.onRead i read).Serial source := by
  have hself : s.threads.set i .producing = s.threads := by
    obtain ⟨hlt, hget⟩ := List.getElem?_eq_some_iff.mp hthread
    rw [← hget, List.set_getElem_self]
  rw [onRead, onRead_fst]
  split
  · rename_i hgoes
    refine hs.takeTurn hc hthread (by decide) (.read i read) rfl rfl rfl hself.symm ?_
    rintro ⟨reads, hturns, hreads⟩
    refine ⟨reads ++ [read], ?_, ?_⟩
    · rw [hturns, List.map_append, List.cons_append]
      rfl
    · rw [List.forall_mem_append, List.forall_mem_singleton]
      exact ⟨hreads, hgoes⟩
  · rename_i hfails
    refine hs.takeTurn hc hthread (by decide) (.read i read) rfl rfl rfl rfl ?_
    rintro ⟨reads, hturns, hreads⟩
    refine Or.inr ⟨reads, read, ?_, hreads, not_le.mp hfails⟩
    rw [hturns, List.map_append, List.cons_append]
    rfl

theorem step_serial {source : Source} (hs : s.Serial source) (hc : s.Consistent) {e : Stimulus}
    (he : s.enabled e) : (s.step e).Serial source := by
  obtain ⟨-, he⟩ := he
  cases e with
  | start k => exact hs.quiet rfl rfl le_rfl hs.sessions
  | stop k => exact hs.quiet rfl rfl le_rfl hs.sessions
  | proceed k => exact proceed_serial hs k
  | runThread i =>
    obtain ⟨thread, hthread, hmay⟩ := he
    exact runThread_serial hs hthread hmay
  | opened i outcome => exact onOpened_serial hs hc he outcome
  | read i read => exact onRead_serial hs hc he.1 read
  | produceChunk consumer => exact produceChunk_serial hs consumer

/-! ### One producer -/

/-- As long as the handle was not misused. -/
structure Running (source : Source) (s : ThreadedSource) : Prop where
  consistent : s.Consistent
  serial : s.Serial source

theorem create_running (source : Source) : Running source (create source) where
  consistent := create_consistent source
  serial :=
    { order := List.Pairwise.nil
      sessions := fun i thread h => by simp [create] at h
      known := List.forall_mem_nil _
      source := rfl }

theorem step_running {source : Source} (hs : s.Running source) {e : Stimulus} (he : s.enabled e)
    (hused : (s.step e).misused = false) : (s.step e).Running source :=
  ⟨step_consistent hs.consistent he hused, step_serial hs.serial hs.consistent he⟩

theorem exec_running {source : Source} {es : List Stimulus}
    (hes : system.Admits (create source) es)
    (hused : (system.exec (create source) es).misused = false) :
    (system.exec (create source) es).Running source :=
  system.exec_invariant (fun s => s.misused = false → s.Running source)
    (fun _ _ hs he hused => step_running (hs he.1.1) he hused) es _
    (fun _ => create_running source) hes hused

/-- **What starting and stopping guarantees**, whoever calls. -/
structure OneProducer (source : Source) (s : ThreadedSource) : Prop where
  /-- There is at most one thread that has not finished. -/
  one : ∀ (i j : ℕ) (thread other : Thread), s.threads[i]? = some thread → thread ≠ .finished →
    s.threads[j]? = some other → other ≠ .finished → i = j
  /-- No thread is replaced that is yet to be joined. -/
  alive : s.terminated = false
  /-- The device is not dropped by two callers, nor while it is opened or closed. -/
  device : ∀ k, s.calls k = some .dropping → (∀ j, s.calls j = some .dropping → j = k) ∧
    ∀ (i : ℕ) (thread : Thread), s.threads[i]? = some thread → thread.usesDevice = false
  /-- A source that is not running has no thread, once the call that stops it has returned. -/
  stopped : s.running = false → s.threadLock = none →
    ∀ (i : ℕ) (thread : Thread), s.threads[i]? = some thread → thread = .finished
  serial : s.Serial source

/-- **There is one producer thread at a time**, in every run, whoever calls `start` and `stop`, and
in whatever order the steps of the calls and of the threads are taken. -/
theorem one_producer (source : Source) {es : List Stimulus}
    (hes : system.Admits (create source) es)
    (hused : (system.exec (create source) es).misused = false) :
    OneProducer source (system.exec (create source) es) := by
  obtain ⟨hs, hserial⟩ := exec_running hes hused
  refine ⟨?_, hs.alive, ?_, ?_, hserial⟩
  · intro i j thread other hthread hlive hother hlive'
    have hij := (hs.joined i thread hthread hlive).symm.trans (hs.joined j other hother hlive')
    exact Option.some.inj hij
  · intro k hk
    have hlock := (hs.caller k).mpr hk
    refine ⟨fun j hj => ?_, fun i thread hthread => ?_⟩
    · have hlock' := (hs.caller j).mpr hj
      rw [hlock] at hlock'
      cases hlock'
      rfl
    · rw [← Bool.not_eq_true]
      intro huses
      have hlock' := (hs.thread i).mpr ⟨thread, hthread, huses⟩
      rw [hlock] at hlock'
      cases hlock'
  · intro hrunning hfree i thread hthread
    by_contra hlive
    have hidle := hs.idle hfree
    rw [hrunning, hs.joined i thread hthread hlive] at hidle
    cases hidle

/-- Two callers start a source at once, and one of them stops it. -/
def twoCallers : List Stimulus :=
  [.start 0, .start 1, .proceed 1, .proceed 1, .proceed 1, .runThread 0, .opened 0 .started,
    .read 0 ⟨1, [5, 1], ⟨0⟩⟩, .proceed 1, .proceed 0, .proceed 0, .stop 1, .proceed 1, .proceed 1,
    .proceed 1, .read 0 ⟨1, [7, 3], ⟨0⟩⟩, .proceed 1, .read 0 ⟨badState, [], ⟨0⟩⟩, .runThread 0,
    .proceed 1, .runThread 0, .proceed 1]

def quietSource : Source := Source.create Source.narrow ⟨0⟩

theorem one_producer_twoCallers :
    OneProducer quietSource (system.exec (create quietSource) twoCallers) ∧
      (system.exec (create quietSource) twoCallers).threads = [.finished] ∧
      (system.exec (create quietSource) twoCallers).running = false :=
  ⟨one_producer quietSource (by decide +kernel) (by decide +kernel), by decide +kernel,
    by decide +kernel⟩

/-! ### The handle -/

/-- The device is dropped while a thread has it open, and closed by a thread that has opened it. -/
def Timely (s : ThreadedSource) : Stimulus → Prop
  | .proceed k => s.calls k = some .dropping → ∃ thread ∈ s.threads, thread.hasDevice = true
  | .runThread i => s.threads[i]? ≠ some (.closing false)
  | _ => True

instance (s : ThreadedSource) : DecidablePred s.Timely
  | .proceed k =>
    inferInstanceAs (Decidable (s.calls k = some .dropping →
      ∃ thread ∈ s.threads, thread.hasDevice = true))
  | .runThread i => inferInstanceAs (Decidable (s.threads[i]? ≠ some (.closing false)))
  | .start _ | .stop _ | .opened _ _ | .read _ _ | .produceChunk _ => isTrue trivial

/-- The handle is open while a thread has the device. -/
theorem Consistent.isOpen_iff (hs : s.Consistent) :
    (∃ capturing, s.handlePtr = .isOpen capturing) ↔
      ∃ thread ∈ s.threads, thread.hasDevice = true := by
  rw [hs.handle]
  constructor
  · rintro ⟨i, thread, hthread, hhas⟩
    exact ⟨thread, List.mem_of_getElem? hthread, hhas⟩
  · rintro ⟨thread, hthread, hhas⟩
    obtain ⟨i, hi⟩ := List.getElem?_of_mem hthread
    exact ⟨i, thread, hi, hhas⟩

/-- **The only steps that can misuse the handle.** -/
theorem step_misused_iff (hs : s.Consistent) {e : Stimulus} (he : s.enabled e) :
    (s.step e).misused = false ↔ s.Timely e := by
  obtain ⟨⟨hused, -⟩, he⟩ := he
  cases e with
  | start k => exact iff_of_true hused trivial
  | stop k => exact iff_of_true hused trivial
  | proceed k =>
    obtain ⟨call, hcall, -⟩ := he
    show (s.proceed k).misused = false ↔ (s.calls k = some .dropping → _)
    rw [proceed, hcall]
    cases call with
    | dropping =>
      rw [← hs.isOpen_iff]
      dsimp only
      rcases s.drop_cases with ⟨hopen, hdrop⟩ | ⟨hclosed, hdrop⟩
      · rw [hdrop]
        exact iff_of_true hused fun _ => hopen
      · rw [hdrop]
        exact iff_of_false (fun h => (by cases h)) fun h => hclosed (h rfl)
    | startLocked =>
      refine iff_of_true ?_ (by simp)
      dsimp only
      split <;> exact hused
    | creating =>
      refine iff_of_true ?_ (by simp)
      rw [createThread]
      dsimp only
      split <;> exact hused
    | _ => exact iff_of_true hused (by simp)
  | runThread i =>
    obtain ⟨thread, hthread, hmay⟩ := he
    show (s.runThread i).misused = false ↔ s.threads[i]? ≠ some (.closing false)
    rw [runThread, hthread]
    cases thread with
    | begun => exact iff_of_true hused (by simp)
    | leaving opened => exact iff_of_true hused (by simp)
    | closing opened =>
      have hhandle := hs.handle_iff hthread (by simp)
      dsimp only
      rcases s.close_cases with ⟨hopen, hclose⟩ | ⟨hclosed, hclose⟩
      · rw [hclose]
        have hopened : opened = true := hhandle.mp hopen
        exact iff_of_true hused (by simp [hopened])
      · rw [hclose]
        have hopened : opened = false := by
          rw [← Bool.not_eq_true]
          exact fun h => hclosed (hhandle.mpr h)
        exact iff_of_false (fun h => (by cases h)) fun h => h (by rw [hopened])
    | _ => exact hmay.elim
  | opened i outcome =>
    refine iff_of_true ?_ trivial
    show (s.onOpened i outcome).misused = false
    cases outcome <;> exact hused
  | read i read =>
    refine iff_of_true ?_ trivial
    show (s.onRead i read).misused = false
    rw [onRead]
    split <;> exact hused
  | produceChunk consumer => exact iff_of_true hused trivial

/-- **Exactly when the handle is used while it is not open**: a caller stops the source before
its thread has opened the device, or after the thread has closed it, or the device cannot be
opened, so that the thread has nothing to close. -/
theorem misused_iff (source : Source) {es : List Stimulus}
    (hes : system.Admits (create source) es) :
    system.Always (fun s => s.misused = false) (create source) es ↔
      (system.restrict Timely).Admits (create source) es := by
  refine system.always_iff_admits_restrict (fun s => s.Consistent ∧ s.misused = false) _ Timely
    (fun _ hs => hs.2) ?_ ?_ es _ ⟨create_consistent source, rfl⟩ hes
  · intro s e hs he htimely
    have hused := (step_misused_iff hs.1 he).mpr htimely
    exact ⟨step_consistent hs.1 he hused, hused⟩
  · intro s e hs he hnot hused
    exact hnot ((step_misused_iff hs.1 he).mp hused)

theorem misused_iff_twoCallers :
    system.Always (fun s => s.misused = false) (create quietSource) twoCallers ↔
      (system.restrict Timely).Admits (create quietSource) twoCallers :=
  misused_iff quietSource (by decide +kernel)

/-- The run is one of those in which it is not, and the thread that is stopped before it has opened
the device one of the others. -/
example : (system.restrict Timely).Admits (create quietSource) twoCallers ∧
    ¬ (system.restrict Timely).Admits (create quietSource)
      [.start 0, .proceed 0, .proceed 0, .proceed 0, .proceed 0, .stop 0, .proceed 0, .proceed 0,
        .proceed 0, .proceed 0] := by
  decide +kernel

/-! ### The end of a call -/

/-- A step by the caller, or by a thread. -/
def drives (k : ℕ) : Stimulus → Bool
  | .proceed j => j == k
  | .runThread _ | .opened _ _ | .read _ _ => true
  | _ => false

/-- The steps a thread has yet to take, once the device was dropped. -/
def Thread.rank : Thread → ℕ
  | .producing => 3
  | .leaving _ => 2
  | .closing _ => 1
  | _ => 0

def Call.rank : Call → ℕ
  | .dropped => 2
  | .joining => 1
  | _ => 0

/-- The call has requested the thread to stop, and has not returned. -/
def Stops (k : ℕ) (s : ThreadedSource) : Prop :=
  s.calls k = some .dropped ∨ s.calls k = some .joining

/-- The steps there are until the call returns. -/
def rank (k : ℕ) (s : ThreadedSource) : ℕ :=
  ((s.calls k).map Call.rank).getD 0 +
    ((s.producerThread.bind (s.threads[·]?)).map Thread.rank).getD 0

theorem Stops.halting (hs : s.Consistent) {k : ℕ} (h : Stops k s) : s.Halting := by
  rcases h with h | h
  · exact (hs.call k _ h).2
  · exact (hs.call k _ h).2

/-- The handle is not misused any more. -/
theorem Stops.timely (hs : s.Consistent) {k : ℕ} (h : Stops k s) {e : Stimulus}
    (he : s.enabled e) : s.Timely e := by
  have hhalting := h.halting hs
  cases e with
  | proceed j =>
    intro hj
    have hlocked := hs.others hj (Or.inl rfl) (j := k)
    by_cases hk : k = j
    · subst hk
      rcases h with h | h <;> rw [h] at hj <;> cases hj
    · rcases h with h | h <;> cases hlocked hk h
  | runThread i =>
    intro hclosing
    rcases hhalting.late i _ hclosing with h | h <;> cases h
  | _ => exact trivial

/-- A step of somebody else, which leaves the call and the threads as they are. -/
theorem rank_congr {k : ℕ} (hcalls : s'.calls k = s.calls k)
    (hproducer : s'.producerThread = s.producerThread) (hthreads : s'.threads = s.threads) :
    rank k s' = rank k s := by
  rw [rank, rank, hcalls, hproducer, hthreads]

/-- The rank while thread `i` has not finished. -/
theorem rank_eq {k i : ℕ} {thread : Thread} (hproducer : s.producerThread = some i)
    (hthread : s.threads[i]? = some thread) :
    rank k s = ((s.calls k).map Call.rank).getD 0 + thread.rank := by
  rw [rank, hproducer, Option.bind_some, hthread]
  rfl

/-- A step of thread `i`. -/
theorem rank_moveThread (hs : s.Consistent) {k i : ℕ} {thread next : Thread}
    (hthread : s.threads[i]? = some thread) (hlive : thread ≠ .finished)
    (hcalls : s'.calls = s.calls) (hproducer : s'.producerThread = s.producerThread)
    (hthreads : s'.threads = s.threads.set i next) (hrank : next.rank + 1 = thread.rank) :
    rank k s' + 1 = rank k s := by
  have hi := hs.joined i thread hthread hlive
  have hnext : s'.threads[i]? = some next := by
    rw [hthreads, List.getElem?_set_self (List.getElem?_eq_some_iff.mp hthread).1]
  rw [rank_eq (hproducer.trans hi) hnext, rank_eq hi hthread, hcalls]
  omega

/-- **What a step does to a call that has requested the thread to stop**: the call returns, or the
steps of the call and of the threads bring that nearer. -/
theorem step_rank (hs : s.Consistent) {k : ℕ} (h : Stops k s) {e : Stimulus} (he : s.enabled e) :
    ((s.step e).calls k = some .callingBack ∧
        ∀ (i : ℕ) (thread : Thread), (s.step e).threads[i]? = some thread → thread = .finished) ∨
      (Stops k (s.step e) ∧
        rank k (s.step e) + (if drives k e = true then 1 else 0) ≤ rank k s) := by
  have hhalting := h.halting hs
  have hne : s.calls k ≠ none := by
    rcases h with h | h <;> rw [h] <;> exact Option.some_ne_none _
  have hstops : ∀ s' : ThreadedSource, s'.calls k = s.calls k → Stops k s' := by
    intro s' hcalls
    rw [Stops, hcalls]
    exact h
  have hmove : ∀ s' : ThreadedSource, s'.calls k = s.calls k → rank k s' + 1 = rank k s →
      Stops k s' ∧ rank k s' + 1 ≤ rank k s := fun s' hcalls hrank => ⟨hstops s' hcalls, hrank.le⟩
  obtain ⟨-, he⟩ := he
  cases e with
  | start j =>
    have hj : k ≠ j := fun hj => hne (hj ▸ he)
    have hcalls : (s.step (.start j)).calls k = s.calls k := Function.update_of_ne hj _ _
    have hrank : rank k (s.step (.start j)) = rank k s := rank_congr hcalls rfl rfl
    exact Or.inr ⟨hstops _ hcalls, hrank.le⟩
  | stop j =>
    have hj : k ≠ j := fun hj => hne (hj ▸ he)
    have hcalls : (s.step (.stop j)).calls k = s.calls k := Function.update_of_ne hj _ _
    have hrank : rank k (s.step (.stop j)) = rank k s := rank_congr hcalls rfl rfl
    exact Or.inr ⟨hstops _ hcalls, hrank.le⟩
  | proceed j =>
    obtain ⟨call, hcall, hmay⟩ := he
    by_cases hj : j = k
    · subst hj
      rcases h with h | h
      · -- the flag is reset
        right
        have hstep : s.step (.proceed j) = (s.setRunning false).setCall j (some .joining) := by
          rw [step, proceed, h]
        have hcalls : (s.step (.proceed j)).calls j = some .joining := by
          rw [hstep]
          exact Function.update_self ..
        refine ⟨Or.inr hcalls, ?_⟩
        rw [if_pos (by simp [drives]), rank, rank, hcalls, h, hstep]
        exact le_of_eq (Nat.add_right_comm _ _ _)
      · -- the thread was joined
        left
        rw [hcall] at h
        obtain rfl := Option.some.inj h
        have hstep : s.step (.proceed j) =
            (s.join.setThreadLock none).setCall j (some .callingBack) := by
          rw [step, proceed, hcall]
        refine ⟨by rw [hstep]; exact Function.update_self .., fun i thread hthread => ?_⟩
        rw [hstep] at hthread
        have hthread : s.threads[i]? = some thread := hthread
        by_contra hlive
        have hfinished := hmay i (hs.joined i thread hthread hlive)
        rw [hthread] at hfinished
        exact hlive (Option.some.inj hfinished)
    · -- whoever does not hold the lock only waits for it, or leaves
      right
      obtain ⟨mine, hmine, hlocked⟩ : ∃ mine : Call, s.calls k = some mine ∧
          mine.locked = true := by
        rcases h with h | h <;> exact ⟨_, h, rfl⟩
      have hlock := (hs.locked k).mpr ⟨mine, hmine, hlocked⟩
      have hother := hs.others hmine (Or.inl hlocked) hj hcall
      have hcallingBack : call = .callingBack := by
        cases call with
        | starting | stopping =>
          have hmay : s.threadLock = none := hmay
          rw [hlock] at hmay
          cases hmay
        | callingBack => rfl
        | _ => cases hother
      have hstep : s.step (.proceed j) = s.setCall j none := by
        rw [step, proceed, hcall, hcallingBack]
      have hcalls : (s.step (.proceed j)).calls k = s.calls k := by
        rw [hstep]
        exact Function.update_of_ne (Ne.symm hj) _ _
      refine ⟨hstops _ hcalls, ?_⟩
      rw [if_neg (by simp [drives, hj]),
        rank_congr hcalls (by rw [hstep]; rfl) (by rw [hstep]; rfl)]
      exact le_rfl
  | runThread i =>
    obtain ⟨thread, hthread, hmay⟩ := he
    have hstep : s.step (.runThread i) = s.runThread i := rfl
    rw [runThread, hthread] at hstep
    cases thread with
    | begun => rcases hhalting.late i _ hthread with h | h <;> cases h
    | leaving opened =>
      rw [hstep]
      exact Or.inr (hmove _ rfl (rank_moveThread hs hthread (by simp) rfl rfl rfl rfl))
    | closing opened =>
      rw [hstep]
      dsimp only
      rcases s.close_cases with ⟨-, hclose⟩ | ⟨-, hclose⟩ <;> rw [hclose] <;>
        exact Or.inr (hmove _ rfl (rank_moveThread hs hthread (by simp) rfl rfl rfl rfl))
    | _ => exact hmay.elim
  | opened i outcome => rcases hhalting.late i _ he with h | h <;> cases h
  | read i read =>
    -- the device reports that it was dropped
    obtain ⟨hthread, hread⟩ := he
    obtain ⟨capturing, hcapturing⟩ := (hs.handle_iff hthread (by decide)).mpr rfl
    have hdropped : s.handlePtr = .isOpen false := by
      cases capturing with
      | false => exact hcapturing
      | true => exact absurd hcapturing hhalting.handle
    have hstep : s.step (.read i read) =
        (s.take (.read i read)).setThread i (.leaving true) := by
      show s.onRead i read = _
      rw [onRead, onRead_fst, hread hdropped, if_neg (by decide)]
    rw [hstep]
    exact Or.inr (hmove _ rfl (rank_moveThread hs hthread (by decide) rfl rfl rfl rfl))
  | produceChunk consumer => exact Or.inr ⟨hstops _ rfl, le_rfl⟩

/-- The call, or the thread it waits for, can always take a step. -/
theorem Stops.progress (hs : s.Consistent) (hused : s.misused = false) {k : ℕ} (h : Stops k s) :
    ∃ e, drives k e = true ∧ s.enabled e := by
  have hhalting := h.halting hs
  rcases h with h | h
  · exact ⟨.proceed k, by simp [drives], ⟨hused, hs.alive⟩, _, h, trivial⟩
  · by_cases hmay : s.mayProceed .joining
    · exact ⟨.proceed k, by simp [drives], ⟨hused, hs.alive⟩, _, h, hmay⟩
    · -- the thread has not finished
      obtain ⟨i, hi, hlive⟩ : ∃ i, s.producerThread = some i ∧ s.threads[i]? ≠ some .finished := by
        by_contra hnone
        refine hmay fun i hi => ?_
        by_contra hlive
        exact hnone ⟨i, hi, hlive⟩
      have hlast := hs.last i hi
      obtain ⟨thread, hthread⟩ : ∃ thread, s.threads[i]? = some thread :=
        ⟨_, List.getElem?_eq_getElem (by omega)⟩
      have hhas := (hhalting.late i thread hthread).resolve_left fun h => hlive (h ▸ hthread)
      cases thread with
      | producing =>
        exact ⟨.read i ⟨badState, [], ⟨0⟩⟩, rfl, ⟨hused, hs.alive⟩, hthread, fun _ => rfl⟩
      | leaving opened =>
        refine ⟨.runThread i, rfl, ⟨hused, hs.alive⟩, _, hthread, ?_⟩
        show s.deviceLock = none
        cases hdevice : s.deviceLock with
        | none => rfl
        | some holder =>
          cases holder with
          | caller j =>
            have hj := (hs.caller j).mp hdevice
            by_cases hjk : k = j
            · subst hjk
              rw [h] at hj
              cases hj
            · cases hs.others hj (Or.inl rfl) hjk h
          | thread j =>
            obtain ⟨other, hother, huses⟩ := (hs.thread j).mp hdevice
            have hij := hi.symm.trans (hs.joined j other hother (by rintro rfl; cases huses))
            obtain rfl := Option.some.inj hij
            rw [hthread] at hother
            obtain rfl := Option.some.inj hother
            cases huses
      | closing opened => exact ⟨.runThread i, rfl, ⟨hused, hs.alive⟩, _, hthread, trivial⟩
      | _ => cases hhas

/-- The call ends within as many steps as its rank says. -/
theorem stops_exec {k : ℕ} (es : List Stimulus) :
    ∀ s : ThreadedSource, s.Consistent → s.misused = false → Stops k s → system.Admits s es →
      (∃ before after, es = before ++ after ∧
        (system.exec s before).calls k = some .callingBack ∧
        ∀ (i : ℕ) (thread : Thread), (system.exec s before).threads[i]? = some thread →
          thread = .finished) ∨
      ((system.exec s es).Consistent ∧ (system.exec s es).misused = false ∧
        Stops k (system.exec s es) ∧
        es.countP (drives k) + rank k (system.exec s es) ≤ rank k s) := by
  induction es with
  | nil =>
    intro s hs hused hstops _
    exact Or.inr ⟨hs, hused, hstops, by simp [System.exec]⟩
  | cons e es ih =>
    intro s hs hused hstops hes
    have hused' : (s.step e).misused = false :=
      (step_misused_iff hs hes.1).mpr (hstops.timely hs hes.1)
    have hs' : (s.step e).Consistent := step_consistent hs hes.1 hused'
    rcases step_rank hs hstops hes.1 with ⟨hcall, hfinished⟩ | ⟨hstops', hrank⟩
    · exact Or.inl ⟨[e], es, rfl, hcall, hfinished⟩
    · rcases ih (s.step e) hs' hused' hstops' hes.2 with ⟨before, after, heq, hreturned⟩ | hrest
      · exact Or.inl ⟨e :: before, after, by rw [heq]; rfl, hreturned⟩
      · obtain ⟨hconsistent, hused'', hstops'', hcount⟩ := hrest
        refine Or.inr ⟨hconsistent, hused'', hstops'', ?_⟩
        rw [List.countP_cons]
        show es.countP (drives k) + _ + rank k (system.exec (s.step e) es) ≤ _
        omega

theorem rank_le (k : ℕ) (s : ThreadedSource) : rank k s ≤ 5 := by
  have hcall : ∀ call : Option Call, (call.map Call.rank).getD 0 ≤ 2 := by
    rintro (_ | call)
    · exact Nat.zero_le _
    · cases call <;> simp [Call.rank]
  have hthread : ∀ thread : Option Thread, (thread.map Thread.rank).getD 0 ≤ 3 := by
    rintro (_ | thread)
    · exact Nat.zero_le _
    · cases thread <;> simp [Thread.rank]
  exact Nat.add_le_add (hcall _) (hthread _)

theorem Stops.rank_pos {k : ℕ} (h : Stops k s) : 0 < rank k s := by
  rcases h with h | h
  · rw [rank, h]
    exact Nat.add_pos_left Nat.two_pos _
  · rw [rank, h]
    exact Nat.add_pos_left Nat.one_pos _

/-- **A request to stop is followed by the end of the call**: once a caller has dropped the device,
then in whatever order things happen next, its call returns with every thread finished, or the
caller and the thread have taken less than five steps since, and one of them can take another. -/
theorem stop_ends (source : Source) {es : List Stimulus}
    (hes : system.Admits (create source) es)
    (hused : (system.exec (create source) es).misused = false) {k : ℕ}
    (hdropped : (system.exec (create source) es).calls k = some .dropped) {more : List Stimulus}
    (hmore : system.Admits (system.exec (create source) es) more) :
    (∃ before after, more = before ++ after ∧
      (system.exec (create source) (es ++ before)).calls k = some .callingBack ∧
      ∀ (i : ℕ) (thread : Thread),
        (system.exec (create source) (es ++ before)).threads[i]? = some thread →
          thread = .finished) ∨
    (more.countP (drives k) < 5 ∧
      ∃ e, drives k e = true ∧ system.enabled (system.exec (create source) (es ++ more)) e) := by
  simp only [System.exec_append]
  have hs := (exec_running hes hused).consistent
  rcases stops_exec more _ hs hused (Or.inl hdropped) hmore with hreturned | hrest
  · exact Or.inl hreturned
  · obtain ⟨hs', hused', hstops, hcount⟩ := hrest
    have hpos := hstops.rank_pos
    have hle := rank_le k (system.exec (create source) es)
    exact Or.inr ⟨by omega, hstops.progress hs' hused'⟩

/-- The steps of the call that stops the source. -/
theorem stop_ends_twoCallers :
    (∃ before after, twoCallers.drop 17 = before ++ after ∧
      (system.exec (create quietSource) (twoCallers.take 17 ++ before)).calls 1 =
        some .callingBack ∧
      ∀ (i : ℕ) (thread : Thread),
        (system.exec (create quietSource) (twoCallers.take 17 ++ before)).threads[i]? =
          some thread → thread = .finished) ∨
    ((twoCallers.drop 17).countP (drives 1) < 5 ∧
      ∃ e, drives 1 e = true ∧ system.enabled
        (system.exec (create quietSource) (twoCallers.take 17 ++ twoCallers.drop 17)) e) :=
  stop_ends quietSource (by decide +kernel) (by decide +kernel) (by decide +kernel)
    (by decide +kernel)

end ThreadedSource

end SlimStreamer
