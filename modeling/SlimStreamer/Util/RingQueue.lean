import SlimStreamer.Util.Ring

/-!
# The ring as a bounded queue

Any sequence of `push`, `pop` and `clear` on a ring, beside the same sequence on the queue a ring
stands for: a list with a capacity, which drops its oldest element when it is full.  The slots of
the storage that the operations use are read off the same definitions.

* `RingCall.apply` — the reference queue;
* `storage_push`, `accesses_lt` — the slot that `push` writes to;
* `contents_call`, `contents_run` — the ring follows the queue;
* `run_refines` — contents, fill level and slots after any run.
-/

namespace SlimStreamer

/-- The calls that change a ring. -/
inductive RingCall (α : Type)
  | push (item : α)
  | pop
  | clear

/-- What a call does to a queue that is bounded by `capacity`. -/
def RingCall.apply {α : Type} (capacity : ℕ) (xs : List α) : RingCall α → List α
  | .push item => pushBounded capacity xs item
  | .pop => xs.tail
  | .clear => []

namespace Ring

variable {α : Type}

/-- The slot that `push` writes to; it is written to after the head and the size have changed. -/
def writeIndex (r : Ring α) : Option ℕ :=
  if r.isFull then
    if r.isEmpty then none
    else some (r.normalizeIndex (r.normalizeIndex (r.head + 1) + r.size - 1))
  else some (r.normalizeIndex (r.head + (r.size + 1) - 1))

/-- **The storage after a push** differs in the slot written to, and in no other. -/
theorem storage_push (r : Ring α) (item : α) :
    (r.push item).storage = r.writeIndex.elim r.storage fun index => r.storage.set index item := by
  unfold push writeIndex isFull isEmpty
  split
  · rename_i hf
    rw [beq_iff_eq.mpr hf]
    split
    · rename_i he
      simp [he]
    · rename_i he
      simp [he]
  · rename_i hf
    simp [hf]

theorem writeIndex_lt (r : Ring α) {index : ℕ} (h : r.writeIndex = some index) :
    index < r.storage.length := by
  have hb := r.head_bound
  have hs := r.size_bound
  simp only [writeIndex, isFull, isEmpty, beq_iff_eq] at h
  unfold normalizeIndex at h
  split at h
  · rename_i hf
    split at h
    · cases h
    · rename_i he
      cases h
      split <;> split <;> omega
  · rename_i hf
    cases h
    split <;> omega

/-! ### Calls and runs -/

def call (r : Ring α) : RingCall α → Ring α
  | .push item => r.push item
  | .pop => r.pop
  | .clear => r.clear

/-- The slots a call uses. -/
def accesses (r : Ring α) : RingCall α → List ℕ
  | .push _ => r.writeIndex.toList
  | _ => []

def run (r : Ring α) (calls : List (RingCall α)) : Ring α := calls.foldl call r

/-- The slots all calls of a run use. -/
def runAccesses (r : Ring α) : List (RingCall α) → List ℕ
  | [] => []
  | c :: calls => r.accesses c ++ (r.call c).runAccesses calls

@[simp] theorem getCapacity_call (r : Ring α) (c : RingCall α) :
    (r.call c).getCapacity = r.getCapacity := by
  cases c with
  | push item => exact storage_length_push r item
  | pop => exact storage_length_pop r
  | clear => rfl

theorem accesses_lt (r : Ring α) (c : RingCall α) : ∀ index ∈ r.accesses c, index < r.getCapacity := by
  intro index hindex
  cases c with
  | push item => exact writeIndex_lt r (by simpa [accesses] using hindex)
  | pop => simp [accesses] at hindex
  | clear => simp [accesses] at hindex

/-- **One call** does to the contents what it does to the queue. -/
theorem contents_call [Inhabited α] (r : Ring α) (c : RingCall α) :
    (r.call c).contents = c.apply r.getCapacity r.contents := by
  cases c with
  | push item => exact contents_push r item
  | pop => exact contents_pop r
  | clear => exact contents_clear r

@[simp] theorem getCapacity_run (r : Ring α) (calls : List (RingCall α)) :
    (r.run calls).getCapacity = r.getCapacity := by
  induction calls generalizing r with
  | nil => rfl
  | cons c calls ih =>
    show ((r.call c).run calls).getCapacity = r.getCapacity
    rw [ih, getCapacity_call]

/-- **A run** of the ring follows the same run of the queue. -/
theorem contents_run [Inhabited α] (r : Ring α) (calls : List (RingCall α)) :
    (r.run calls).contents = calls.foldl (RingCall.apply r.getCapacity) r.contents := by
  induction calls generalizing r with
  | nil => rfl
  | cons c calls ih =>
    show ((r.call c).run calls).contents = _
    rw [ih, contents_call, getCapacity_call, List.foldl_cons]

theorem runAccesses_lt (r : Ring α) (calls : List (RingCall α)) :
    ∀ index ∈ r.runAccesses calls, index < r.getCapacity := by
  induction calls generalizing r with
  | nil => simp [runAccesses]
  | cons c calls ih =>
    intro index hindex
    rw [runAccesses, List.mem_append] at hindex
    cases hindex with
    | inl hfirst => exact accesses_lt r c index hfirst
    | inr hrest =>
      rw [← getCapacity_call r c]
      exact ih (r.call c) index hrest

/-! ### The observers -/

theorem isEmpty_iff [Inhabited α] (r : Ring α) : r.isEmpty = true ↔ r.contents = [] := by
  rw [← List.length_eq_zero_iff, contents_length, isEmpty, beq_iff_eq]

theorem isFull_iff [Inhabited α] (r : Ring α) :
    r.isFull = true ↔ r.contents.length = r.getCapacity := by
  rw [contents_length, isFull, beq_iff_eq, getCapacity]

/-- **The ring refines the bounded queue.**  After any calls on an empty ring its contents are those
of the queue, its observers agree with it, and all slots used are inside the storage, that of
`operator[]` for any index below the capacity included. -/
theorem run_refines [Inhabited α] (storage : List α) (calls : List (RingCall α)) :
    let r := (ofStorage storage).run calls
    let queue := calls.foldl (RingCall.apply storage.length) []
    r.contents = queue ∧
      r.getCapacity = storage.length ∧
      r.getSize = queue.length ∧
      (r.isEmpty = true ↔ queue = []) ∧
      (r.isFull = true ↔ queue.length = storage.length) ∧
      (r.head < storage.length ∨ r.head = 0) ∧
      (∀ index ∈ (ofStorage storage).runAccesses calls, index < storage.length) ∧
      ∀ i < storage.length, r.normalizeIndex (r.head + i) < storage.length := by
  intro r queue
  have hcontents : r.contents = queue := contents_run (ofStorage storage) calls
  have hcapacity : r.getCapacity = storage.length := getCapacity_run (ofStorage storage) calls
  rw [← hcontents, ← hcapacity]
  exact ⟨rfl, rfl, getSize_eq r, isEmpty_iff r, isFull_iff r, r.head_bound,
    fun index hindex => hcapacity ▸ runAccesses_lt (ofStorage storage) calls index hindex,
    fun i hi => normalizeIndex_lt r hi⟩

/-- A full ring of two elements drops the older one. -/
example : ((ofStorage [0, 0]).run [.push 1, .push 2, .push 3]).contents = [2, 3] := by decide

end Ring

end SlimStreamer
