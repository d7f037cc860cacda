import SlimStreamer.Lib.Execution
import SlimStreamer.Lib.OwnerTable
import SlimStreamer.Util.BufferPool

/-!
# Pools, buffers and who owns them

Any number of pool objects and of buffers handed out by them.  A pool object owns its storage by a
pointer and may be moved; the deleter of a buffer refers to the storage, so it does not matter which
pool object owns it when the buffer is given back.  Objects are named by the order they are created
in, storages by their addresses, which are never used again.

* `PoolEvent`, `PoolHeap.step` — creating, moving, assigning and destroying both kinds of objects;
* `Exclusive` — every buffer that is handed out is held by one object, and no other buffer is in use;
* `run_exclusive` — this holds in all runs.
-/

namespace SlimStreamer

open GuardedExecution OwnerTable

/-- The vector that a pool owns, with the sizes it was created with. -/
structure PoolStorage (α : Type*) where
  poolSize : ℕ
  bufferSize : ℕ
  wrappers : BufferPool α bufferSize
  size_eq : wrappers.getSize = poolSize

/-- A pool object; one that was moved from owns nothing. -/
structure PoolObject where
  bufferWrappersPtr : Option ℕ
  deriving DecidableEq

/-- A buffer that was handed out: the storage and the index that its deleter refers to. -/
structure PooledBuffer where
  data : Option (ℕ × ℕ)
  size : ℕ
  deriving DecidableEq

/-- All storages, pool objects and buffers.  What is destroyed leaves an empty place. -/
structure PoolHeap (α : Type*) where
  storages : List (Option (PoolStorage α))
  pools : List (Option PoolObject)
  handles : List (Option PooledBuffer)

namespace PoolStorage

variable {α : Type*}

def create (poolSize bufferSize : ℕ) (initial : α) : PoolStorage α where
  poolSize := poolSize
  bufferSize := bufferSize
  wrappers := BufferPool.create poolSize bufferSize initial
  size_eq := List.length_replicate

def setFree (index : ℕ) (free : Bool) (st : PoolStorage α) : PoolStorage α where
  poolSize := st.poolSize
  bufferSize := st.bufferSize
  wrappers := st.wrappers.setFree index free
  size_eq := by rw [BufferPool.getSize_setFree, st.size_eq]

end PoolStorage

namespace PoolHeap

variable {α : Type*}

def empty : PoolHeap α := ⟨[], [], []⟩

def storage (w : PoolHeap α) (address : ℕ) : Option (PoolStorage α) := (w.storages[address]?).join

def pool (w : PoolHeap α) (p : ℕ) : Option PoolObject := (w.pools[p]?).join

def handle (w : PoolHeap α) (h : ℕ) : Option PooledBuffer := (w.handles[h]?).join

/-- The storage a pool object owns. -/
def owned (w : PoolHeap α) (p : PoolObject) : Option (PoolStorage α) :=
  p.bufferWrappersPtr.bind w.storage

def getSize (w : PoolHeap α) (p : PoolObject) : ℕ :=
  (w.owned p).elim 0 fun st => st.wrappers.getSize

def getAvailableSize (w : PoolHeap α) (p : PoolObject) : ℕ :=
  (w.owned p).elim 0 fun st => st.wrappers.getAvailableSize

/-- The buffers held by objects that are not destroyed and hold one. -/
def live (w : PoolHeap α) : List (ℕ × ℕ) := held PooledBuffer.data w.handles

/-- The storages owned by pool objects. -/
def owners (w : PoolHeap α) : List ℕ := held PoolObject.bufferWrappersPtr w.pools

/-! ### The operations -/

/-- `BufferPool::allocate`: the buffer that is returned, and the heap after it. -/
def allocate (w : PoolHeap α) (p : PoolObject) : PooledBuffer × PoolHeap α :=
  match p.bufferWrappersPtr with
  | none => (⟨none, 0⟩, w)
  | some address =>
    match w.storage address with
    | none => (⟨none, 0⟩, w)
    | some st =>
      match st.wrappers.allocate.1 with
      | none => (⟨none, 0⟩, w)
      | some index =>
        (⟨some (address, index), st.bufferSize⟩,
          { w with storages := w.storages.set address (some (st.setFree index false)) })

/-- The deleter of a buffer. -/
def release (b : ℕ × ℕ) (w : PoolHeap α) : PoolHeap α :=
  match w.storage b.1 with
  | none => w
  | some st => { w with storages := w.storages.set b.1 (some (st.setFree b.2 true)) }

/-- An object lets go of its buffer, if it holds one, and becomes `next`. -/
def resetHandle (h : ℕ) (next : Option PooledBuffer) (w : PoolHeap α) : PoolHeap α :=
  let w' := (((w.handle h).bind PooledBuffer.data).elim w fun b => w.release b)
  { w' with handles := w'.handles.set h next }

/-- A pool object destroys its storage, if it owns one, and becomes `next`. -/
def resetPool (p : ℕ) (next : Option PoolObject) (w : PoolHeap α) : PoolHeap α :=
  let storages := ((w.pool p).bind PoolObject.bufferWrappersPtr).elim w.storages
    fun address => w.storages.set address none
  { w with storages := storages, pools := w.pools.set p next }

/-- A buffer object that was moved from keeps its size. -/
def movedFrom (b : PooledBuffer) : PooledBuffer := { b with data := none }

end PoolHeap

/-- What happens to pools and buffers. -/
inductive PoolEvent (α : Type*)
  /-- `BufferPool{poolSize, bufferSize}`; `initial` stands for what the memory holds. -/
  | createPool (poolSize bufferSize : ℕ) (initial : α)
  /-- A pool is created from another one. -/
  | movePool (source : ℕ)
  | assignPool (target source : ℕ)
  | destroyPool (pool : ℕ)
  | allocate (pool : ℕ)
  /-- `PooledBufferType{}`. -/
  | createNull
  /-- A buffer object is created from another one. -/
  | moveBuffer (source : ℕ)
  | assignBuffer (target source : ℕ)
  | destroyBuffer (handle : ℕ)

namespace PoolHeap

variable {α : Type*}

def step (w : PoolHeap α) : PoolEvent α → PoolHeap α
  | .createPool poolSize bufferSize initial =>
    { w with
      storages := w.storages ++ [some (.create poolSize bufferSize initial)]
      pools := w.pools ++ [some ⟨some w.storages.length⟩] }
  | .movePool source =>
    { w with pools := w.pools.set source (some ⟨none⟩) ++ [w.pool source] }
  | .assignPool target source =>
    if target = source then w
    else
      let w' := w.resetPool target (w.pool source)
      { w' with pools := w'.pools.set source (some ⟨none⟩) }
  | .destroyPool p => w.resetPool p none
  | .allocate p =>
    match w.pool p with
    | none => w
    | some pool => { (w.allocate pool).2 with handles := w.handles ++ [some (w.allocate pool).1] }
  | .createNull => { w with handles := w.handles ++ [some ⟨none, 0⟩] }
  | .moveBuffer source =>
    { w with
      handles := w.handles.set source ((w.handle source).map movedFrom) ++ [w.handle source] }
  | .assignBuffer target source =>
    if target = source then w
    else
      -- the buffer held before is given back by its own deleter
      let w' := w.resetHandle target (w.handle source)
      { w' with handles := w'.handles.set source ((w.handle source).map movedFrom) }
  | .destroyBuffer h => w.resetHandle h none

/-- No buffer of the storage of a pool object is held. -/
def Unused (w : PoolHeap α) (p : ℕ) : Prop :=
  ∀ address ∈ (w.pool p).bind PoolObject.bufferWrappersPtr, ∀ b ∈ w.live, b.1 ≠ address

instance (w : PoolHeap α) (p : ℕ) : Decidable (w.Unused p) :=
  inferInstanceAs (Decidable (∀ address ∈ (w.pool p).bind PoolObject.bufferWrappersPtr, _))

/-- Only objects that are not destroyed are used, and a storage is destroyed only when its buffers
are given back. -/
def enabled (w : PoolHeap α) : PoolEvent α → Prop
  | .createPool _ _ _ => True
  | .movePool source => (w.pool source).isSome
  | .assignPool target source =>
    (w.pool target).isSome ∧ (w.pool source).isSome ∧ (target ≠ source → w.Unused target)
  | .destroyPool p => (w.pool p).isSome ∧ w.Unused p
  | .allocate p => (w.pool p).isSome
  | .createNull => True
  | .moveBuffer source => (w.handle source).isSome
  | .assignBuffer target source => (w.handle target).isSome ∧ (w.handle source).isSome
  | .destroyBuffer h => (w.handle h).isSome

instance (w : PoolHeap α) : ∀ e, Decidable (w.enabled e)
  | .createPool _ _ _ => isTrue trivial
  | .movePool _ => inferInstanceAs (Decidable (_ = true))
  | .assignPool _ _ => inferInstanceAs (Decidable (_ ∧ _ ∧ _))
  | .destroyPool _ => inferInstanceAs (Decidable (_ ∧ _))
  | .allocate _ => inferInstanceAs (Decidable (_ = true))
  | .createNull => isTrue trivial
  | .moveBuffer _ => inferInstanceAs (Decidable (_ = true))
  | .assignBuffer _ _ => inferInstanceAs (Decidable (_ ∧ _))
  | .destroyBuffer _ => inferInstanceAs (Decidable (_ = true))

def system : System (PoolHeap α) (PoolEvent α) where
  enabled := enabled
  step := step

instance (w : PoolHeap α) (e : PoolEvent α) : Decidable (system.enabled w e) :=
  inferInstanceAs (Decidable (w.enabled e))

/-! ### The invariant -/

/-- **Exclusive ownership.** -/
structure Exclusive (w : PoolHeap α) : Prop where
  /-- No two objects hold the same buffer. -/
  live_nodup : w.live.Nodup
  /-- What is held is in use, in a storage that still exists. -/
  live_inUse : ∀ b ∈ w.live, ∃ st, w.storage b.1 = some st ∧ st.wrappers.inUse b.2 = true
  /-- The buffers of a storage are available or held. -/
  counted : ∀ address st, w.storage address = some st →
    st.wrappers.getAvailableSize + w.live.countP (fun b => b.1 = address) = st.poolSize
  /-- No two pool objects own the same storage. -/
  owners_nodup : w.owners.Nodup
  /-- What is owned still exists. -/
  owners_exist : ∀ address ∈ w.owners, (w.storage address).isSome

/-! ### Storages -/

theorem storage_set {w : PoolHeap α} {address : ℕ} {st : PoolStorage α}
    (h : w.storage address = some st) (new : Option (PoolStorage α)) (a : ℕ) :
    ((w.storages.set address new)[a]?).join = if a = address then new else w.storage a := by
  have hlt : address < w.storages.length := by
    by_contra hout
    rw [storage, List.getElem?_eq_none (not_lt.mp hout)] at h
    cases h
  rw [List.getElem?_set]
  by_cases ha : a = address
  · rw [if_pos ha.symm, ha, if_pos hlt, if_pos rfl]
    rfl
  · rw [if_neg (Ne.symm ha), if_neg ha, storage]

theorem release_storage {w : PoolHeap α} {b : ℕ × ℕ} {st : PoolStorage α}
    (h : w.storage b.1 = some st) (a : ℕ) :
    (w.release b).storage a = if a = b.1 then some (st.setFree b.2 true) else w.storage a := by
  rw [release, h]
  exact storage_set h _ a

/-! ### What the operations do to exclusive ownership -/

/-- Moving changes the order of the owners at most. -/
theorem Exclusive.moved {w w' : PoolHeap α} (h : w.Exclusive) (hstorages : w'.storages = w.storages)
    (hlive : w'.live.Perm w.live) (howners : w'.owners.Perm w.owners) : w'.Exclusive where
  live_nodup := hlive.nodup_iff.mpr h.live_nodup
  live_inUse b hb := by
    rw [storage, hstorages]
    exact h.live_inUse b (hlive.mem_iff.mp hb)
  counted address st hst := by
    rw [storage, hstorages] at hst
    rw [hlive.countP_eq]
    exact h.counted address st hst
  owners_nodup := howners.nodup_iff.mpr h.owners_nodup
  owners_exist address ha := by
    rw [storage, hstorages]
    exact h.owners_exist address (howners.mem_iff.mp ha)

/-- **A buffer is given back** by the object that held it. -/
theorem Exclusive.released {w w' : PoolHeap α} {b : ℕ × ℕ} (h : w.Exclusive)
    (hstorages : w'.storages = (w.release b).storages) (hlive : (b :: w'.live).Perm w.live)
    (howners : w'.owners = w.owners) : w'.Exclusive := by
  obtain ⟨st, hst, hused⟩ := h.live_inUse b (hlive.mem_iff.mp List.mem_cons_self)
  obtain ⟨hnot, hnodup⟩ := List.nodup_cons.mp (hlive.nodup_iff.mpr h.live_nodup)
  have hstorage : ∀ a, w'.storage a =
      if a = b.1 then some (st.setFree b.2 true) else w.storage a := by
    intro a
    rw [storage, hstorages]
    exact release_storage hst a
  refine ⟨hnodup, ?_, ?_, ?_, ?_⟩
  · intro c hc
    obtain ⟨st', hst', hused'⟩ := h.live_inUse c (hlive.mem_iff.mp (List.mem_cons_of_mem b hc))
    rw [hstorage]
    by_cases haddress : c.1 = b.1
    · rw [haddress, hst, Option.some.injEq] at hst'
      subst hst'
      have hindex : b.2 ≠ c.2 := by
        intro hindex
        exact hnot (Prod.ext haddress.symm hindex ▸ hc)
      refine ⟨st.setFree b.2 true, if_pos haddress, ?_⟩
      show (st.wrappers.setFree b.2 true).inUse c.2 = true
      rw [BufferPool.setFree_inUse, if_neg hindex]
      exact hused'
    · exact ⟨st', by rw [if_neg haddress, hst'], hused'⟩
  · intro a st' hst'
    rw [hstorage] at hst'
    have hcount := (hlive.countP_eq fun c => decide (c.1 = a)).symm
    rw [List.countP_cons] at hcount
    by_cases ha : a = b.1
    · rw [if_pos ha, Option.some.injEq] at hst'
      subst hst'
      have hbefore := h.counted a st (ha ▸ hst)
      have hspec : (st.wrappers.setFree b.2 true).getAvailableSize =
          st.wrappers.getAvailableSize + 1 := BufferPool.release_spec hused
      rw [if_pos (decide_eq_true ha.symm)] at hcount
      show (st.wrappers.setFree b.2 true).getAvailableSize + _ = st.poolSize
      omega
    · rw [if_neg ha] at hst'
      rw [if_neg (by simpa using Ne.symm ha)] at hcount
      rw [← h.counted a st' hst', hcount, Nat.add_zero]
  · rw [howners]
    exact h.owners_nodup
  · intro a ha
    rw [howners] at ha
    rw [hstorage]
    split
    · rfl
    · exact h.owners_exist a ha

/-- **A buffer is handed out** that was available. -/
theorem Exclusive.allocated {w w' : PoolHeap α} {address index : ℕ} {st : PoolStorage α}
    (h : w.Exclusive) (hst : w.storage address = some st)
    (hfree : st.wrappers.inUse index = false) (hindex : index < st.wrappers.getSize)
    (havailable : (st.wrappers.setFree index false).getAvailableSize + 1 =
      st.wrappers.getAvailableSize)
    (hstorages : w'.storages = w.storages.set address (some (st.setFree index false)))
    (hlive : w'.live = w.live ++ [(address, index)]) (howners : w'.owners = w.owners) :
    w'.Exclusive := by
  have hstorage : ∀ a, w'.storage a =
      if a = address then some (st.setFree index false) else w.storage a := by
    intro a
    rw [storage, hstorages]
    exact storage_set hst _ a
  have hnew : (address, index) ∉ w.live := by
    intro hmem
    obtain ⟨st', hst', hused⟩ := h.live_inUse _ hmem
    rw [hst, Option.some.injEq] at hst'
    subst hst'
    rw [hfree] at hused
    cases hused
  refine ⟨?_, ?_, ?_, ?_, ?_⟩
  · rw [hlive, (List.perm_append_singleton _ _).nodup_iff]
    exact List.nodup_cons.mpr ⟨hnew, h.live_nodup⟩
  · intro c hc
    rw [hlive, List.mem_append, List.mem_singleton] at hc
    rw [hstorage]
    by_cases haddress : c.1 = address
    · refine ⟨st.setFree index false, if_pos haddress, ?_⟩
      show (st.wrappers.setFree index false).inUse c.2 = true
      rw [BufferPool.setFree_inUse]
      cases hc with
      | inl hold =>
        obtain ⟨st', hst', hused⟩ := h.live_inUse c hold
        rw [haddress, hst, Option.some.injEq] at hst'
        subst hst'
        have hne : index ≠ c.2 := by
          intro heq
          rw [← heq, hfree] at hused
          cases hused
        rw [if_neg hne]
        exact hused
      | inr heq =>
        subst heq
        simp [hindex]
    · cases hc with
      | inl hold =>
        obtain ⟨st', hst', hused⟩ := h.live_inUse c hold
        exact ⟨st', by rw [if_neg haddress, hst'], hused⟩
      | inr heq => exact absurd (congrArg Prod.fst heq) haddress
  · intro a st' hst'
    rw [hstorage] at hst'
    rw [hlive, List.countP_append, List.countP_singleton]
    by_cases ha : a = address
    · rw [if_pos ha, Option.some.injEq] at hst'
      subst hst'
      have hbefore := h.counted a st (ha ▸ hst)
      rw [if_pos (decide_eq_true ha.symm)]
      show (st.wrappers.setFree index false).getAvailableSize + _ = st.poolSize
      omega
    · rw [if_neg ha] at hst'
      rw [if_neg (by simpa using Ne.symm ha)]
      exact h.counted a st' hst'
  · rw [howners]
    exact h.owners_nodup
  · intro a ha
    rw [howners] at ha
    rw [hstorage]
    split
    · rfl
    · exact h.owners_exist a ha

/-- **A storage is destroyed** by the pool object that owned it, with none of its buffers held. -/
theorem Exclusive.destroyed {w w' : PoolHeap α} {address : ℕ} (h : w.Exclusive)
    (hunused : ∀ b ∈ w.live, b.1 ≠ address)
    (hstorages : w'.storages = w.storages.set address none) (hlive : w'.live = w.live)
    (howners : (address :: w'.owners).Perm w.owners) : w'.Exclusive := by
  obtain ⟨hnot, hnodup⟩ := List.nodup_cons.mp (howners.nodup_iff.mpr h.owners_nodup)
  obtain ⟨st, hst⟩ := Option.isSome_iff_exists.mp
    (h.owners_exist address (howners.mem_iff.mp List.mem_cons_self))
  have hstorage : ∀ a, w'.storage a = if a = address then none else w.storage a := by
    intro a
    rw [storage, hstorages]
    exact storage_set hst _ a
  refine ⟨hlive ▸ h.live_nodup, ?_, ?_, hnodup, ?_⟩
  · intro c hc
    rw [hlive] at hc
    rw [hstorage, if_neg (hunused c hc)]
    exact h.live_inUse c hc
  · intro a st' hst'
    rw [hstorage] at hst'
    split at hst'
    · cases hst'
    · rw [hlive]
      exact h.counted a st' hst'
  · intro a ha
    have hne : a ≠ address := by
      rintro rfl
      exact hnot ha
    rw [hstorage, if_neg hne]
    exact h.owners_exist a (howners.mem_iff.mp (List.mem_cons_of_mem _ ha))

/-- **A pool is created** with a storage at an address that was never used. -/
theorem Exclusive.created {w w' : PoolHeap α} (h : w.Exclusive) (poolSize bufferSize : ℕ)
    (initial : α)
    (hstorages : w'.storages = w.storages ++ [some (.create poolSize bufferSize initial)])
    (hlive : w'.live = w.live) (howners : w'.owners = w.owners ++ [w.storages.length]) :
    w'.Exclusive := by
  have hbelow : ∀ a st, w.storage a = some st → a < w.storages.length := by
    intro a st hst
    by_contra hout
    rw [storage, List.getElem?_eq_none (not_lt.mp hout)] at hst
    cases hst
  have hold : ∀ a st, w.storage a = some st → w'.storage a = some st := by
    intro a st hst
    rw [storage, hstorages, List.getElem?_append_left (hbelow a st hst)]
    exact hst
  refine ⟨hlive ▸ h.live_nodup, ?_, ?_, ?_, ?_⟩
  · intro b hb
    obtain ⟨st, hst, hused⟩ := h.live_inUse b (hlive ▸ hb)
    exact ⟨st, hold _ _ hst, hused⟩
  · intro a st hst
    rw [hlive]
    by_cases ha : a < w.storages.length
    · rw [storage, hstorages, List.getElem?_append_left ha] at hst
      exact h.counted a st hst
    · rw [storage, hstorages, List.getElem?_append_right (not_lt.mp ha)] at hst
      have hnone : w.live.countP (fun b => b.1 = a) = 0 := by
        rw [List.countP_eq_zero]
        intro b hb
        obtain ⟨st', hst', _⟩ := h.live_inUse b hb
        have hlt := hbelow b.1 st' hst'
        simp only [decide_eq_true_eq]
        omega
      have hfirst : a - w.storages.length = 0 := by
        by_contra hlater
        rw [List.getElem?_eq_none (by rw [List.length_singleton]; omega)] at hst
        cases hst
      rw [hfirst] at hst
      cases hst
      rw [hnone]
      exact BufferPool.getAvailableSize_create poolSize bufferSize initial
  · rw [howners, (List.perm_append_singleton _ _).nodup_iff]
    refine List.nodup_cons.mpr ⟨?_, h.owners_nodup⟩
    intro hmem
    obtain ⟨st, hst⟩ := Option.isSome_iff_exists.mp (h.owners_exist _ hmem)
    exact absurd (hbelow _ st hst) (lt_irrefl _)
  · intro a ha
    rw [howners, List.mem_append, List.mem_singleton] at ha
    cases ha with
    | inl hmem =>
      obtain ⟨st, hst⟩ := Option.isSome_iff_exists.mp (h.owners_exist a hmem)
      rw [hold a st hst]
      rfl
    | inr heq =>
      subst heq
      simp [storage, hstorages]

/-! ### The steps -/

theorem pools_getElem {w : PoolHeap α} {p : ℕ} {o : PoolObject} (h : w.pool p = some o) :
    w.pools[p]? = some (some o) := Option.join_eq_some_iff.mp h

theorem handles_getElem {w : PoolHeap α} {i : ℕ} {b : PooledBuffer} (h : w.handle i = some b) :
    w.handles[i]? = some (some b) := Option.join_eq_some_iff.mp h

/-- A buffer object lets go of what it holds. -/
theorem Exclusive.resetHandle {w w' : PoolHeap α} {i : ℕ} {o : PooledBuffer} (h : w.Exclusive)
    (ho : w.handle i = some o) (next : Option PooledBuffer)
    (hstorages : w'.storages = (w.resetHandle i next).storages)
    (hlive : (o.data.toList ++ w'.live).Perm w.live) (howners : w'.owners = w.owners) :
    w'.Exclusive := by
  cases hdata : o.data with
  | none =>
    rw [hdata] at hlive
    refine h.moved ?_ hlive (howners ▸ List.Perm.refl _)
    rw [hstorages, PoolHeap.resetHandle, ho]
    simp [hdata]
  | some b =>
    rw [hdata] at hlive
    refine h.released ?_ hlive howners
    rw [hstorages, PoolHeap.resetHandle, ho]
    simp [hdata]

/-- A pool object lets go of what it owns. -/
theorem Exclusive.resetPool {w w' : PoolHeap α} {p : ℕ} {o : PoolObject} (h : w.Exclusive)
    (ho : w.pool p = some o) (hunused : w.Unused p) (next : Option PoolObject)
    (hstorages : w'.storages = (w.resetPool p next).storages) (hlive : w'.live = w.live)
    (howners : (o.bufferWrappersPtr.toList ++ w'.owners).Perm w.owners) : w'.Exclusive := by
  cases hptr : o.bufferWrappersPtr with
  | none =>
    rw [hptr] at howners
    refine h.moved ?_ (hlive ▸ List.Perm.refl _) howners
    rw [hstorages, PoolHeap.resetPool, ho]
    simp [hptr]
  | some address =>
    rw [hptr] at howners
    have howned : (address :: w'.owners).Perm w.owners := howners
    refine h.destroyed ?_ ?_ hlive howned
    · exact hunused address (by rw [ho]; exact hptr)
    · rw [hstorages, PoolHeap.resetPool, ho]
      simp [hptr]

@[simp] theorem resetHandle_handles (i : ℕ) (next : Option PooledBuffer) (w : PoolHeap α) :
    (w.resetHandle i next).handles = w.handles.set i next := by
  have hrelease : ∀ b, (w.release b).handles = w.handles := by
    intro b
    rw [release]
    split <;> rfl
  rw [resetHandle]
  cases (w.handle i).bind PooledBuffer.data with
  | none => rfl
  | some b => exact congrArg (fun l => l.set i next) (hrelease b)

@[simp] theorem resetHandle_pools (i : ℕ) (next : Option PooledBuffer) (w : PoolHeap α) :
    (w.resetHandle i next).pools = w.pools := by
  rw [resetHandle]
  cases (w.handle i).bind PooledBuffer.data with
  | none => rfl
  | some b =>
    show (w.release b).pools = w.pools
    rw [release]
    split <;> rfl

/-- What `allocate` returns, and the heap after it. -/
theorem allocate_cases {w : PoolHeap α} (h : w.Exclusive) {p : ℕ} {o : PoolObject}
    (ho : w.pool p = some o) :
    (w.getAvailableSize o = 0 ∧ w.allocate o = (⟨none, 0⟩, w)) ∨
      ∃ address st index, w.storage address = some st ∧
        w.getAvailableSize o = st.wrappers.getAvailableSize ∧ 0 < st.wrappers.getAvailableSize ∧
        st.wrappers.inUse index = false ∧ index < st.wrappers.getSize ∧
        (st.wrappers.setFree index false).getAvailableSize + 1 = st.wrappers.getAvailableSize ∧
        w.allocate o = (⟨some (address, index), st.bufferSize⟩,
          { w with storages := w.storages.set address (some (st.setFree index false)) }) := by
  cases hptr : o.bufferWrappersPtr with
  | none =>
    refine Or.inl ⟨?_, ?_⟩
    · rw [getAvailableSize, owned, hptr]
      rfl
    · rw [allocate, hptr]
  | some address =>
    have hmem : address ∈ w.owners := mem_held _ (pools_getElem ho) hptr
    obtain ⟨st, hst⟩ := Option.isSome_iff_exists.mp (h.owners_exist address hmem)
    have havailable : w.getAvailableSize o = st.wrappers.getAvailableSize := by
      rw [getAvailableSize, owned, hptr]
      show (w.storage address).elim 0 _ = _
      rw [hst]
      rfl
    by_cases hzero : st.wrappers.getAvailableSize = 0
    · refine Or.inl ⟨havailable.trans hzero, ?_⟩
      simp only [allocate, hptr, hst, BufferPool.allocate_eq_none hzero]
    · have hpos := Nat.pos_of_ne_zero hzero
      obtain ⟨index, halloc, hindex, hfree, hcount⟩ := BufferPool.allocate_spec hpos
      refine Or.inr ⟨address, st, index, hst, havailable, hpos, hfree, hindex, hcount, ?_⟩
      simp only [allocate, hptr, hst, halloc]

/-- **Every step** keeps the ownership exclusive. -/
theorem step_exclusive {w : PoolHeap α} (e : PoolEvent α) (h : w.Exclusive) (he : w.enabled e) :
    (w.step e).Exclusive := by
  cases e with
  | createPool poolSize bufferSize initial =>
    exact h.created poolSize bufferSize initial rfl rfl (held_concat _ _ _)
  | movePool source =>
    obtain ⟨o, ho⟩ := Option.isSome_iff_exists.mp he
    refine h.moved rfl (List.Perm.refl _) ?_
    rw [step, ho]
    exact held_move _ (pools_getElem ho) rfl
  | assignPool target source =>
    obtain ⟨htarget, hsource, hunused⟩ := he
    by_cases heq : target = source
    · rw [step, if_pos heq]
      exact h
    · obtain ⟨t, ht⟩ := Option.isSome_iff_exists.mp htarget
      obtain ⟨o, ho⟩ := Option.isSome_iff_exists.mp hsource
      rw [step, if_neg heq]
      refine h.resetPool ht (hunused heq) (w.pool source) rfl rfl ?_
      rw [ho]
      exact held_assign _ heq (pools_getElem ht) (pools_getElem ho) rfl
  | destroyPool p =>
    obtain ⟨hpool, hunused⟩ := he
    obtain ⟨o, ho⟩ := Option.isSome_iff_exists.mp hpool
    exact h.resetPool ho hunused none rfl rfl (held_set _ (pools_getElem ho) none)
  | allocate p =>
    obtain ⟨o, ho⟩ := Option.isSome_iff_exists.mp he
    simp only [step, ho]
    obtain ⟨_, hnone⟩ | ⟨address, st, index, hst, _, _, hfree, hindex, hcount, hsome⟩ :=
      allocate_cases h ho
    · rw [hnone]
      refine h.moved rfl ?_ (List.Perm.refl _)
      rw [live, held_concat]
      exact (List.append_nil _) ▸ List.Perm.refl _
    · rw [hsome]
      exact h.allocated hst hfree hindex hcount rfl (held_concat _ _ _) rfl
  | createNull =>
    refine h.moved rfl ?_ (List.Perm.refl _)
    rw [live, step, held_concat]
    exact (List.append_nil _) ▸ List.Perm.refl _
  | moveBuffer source =>
    obtain ⟨o, ho⟩ := Option.isSome_iff_exists.mp he
    refine h.moved rfl ?_ (List.Perm.refl _)
    rw [step, ho]
    exact held_move _ (handles_getElem ho) rfl
  | assignBuffer target source =>
    obtain ⟨htarget, hsource⟩ := he
    by_cases heq : target = source
    · rw [step, if_pos heq]
      exact h
    · obtain ⟨t, ht⟩ := Option.isSome_iff_exists.mp htarget
      obtain ⟨o, ho⟩ := Option.isSome_iff_exists.mp hsource
      rw [step, if_neg heq]
      refine h.resetHandle ht (w.handle source) rfl ?_ ?_
      · show (t.data.toList ++ held PooledBuffer.data
          ((w.resetHandle target (w.handle source)).handles.set source
            ((w.handle source).map movedFrom))).Perm w.live
        rw [resetHandle_handles, ho]
        exact held_assign _ heq (handles_getElem ht) (handles_getElem ho) rfl
      · exact congrArg (held _) (resetHandle_pools target (w.handle source) w)
  | destroyBuffer i =>
    obtain ⟨o, ho⟩ := Option.isSome_iff_exists.mp he
    refine h.resetHandle ho none rfl ?_ ?_
    · rw [live, step, resetHandle_handles]
      exact held_set _ (handles_getElem ho) none
    · rw [owners, step, resetHandle_pools, owners]

/-! ### Runs -/

theorem empty_exclusive : (empty : PoolHeap α).Exclusive where
  live_nodup := List.nodup_nil
  live_inUse b hb := by cases hb
  counted address st hst := by cases hst
  owners_nodup := List.nodup_nil
  owners_exist address ha := by cases ha

/-- **Ownership is exclusive in all runs.** -/
theorem run_exclusive {es : List (PoolEvent α)} (h : system.Admits empty es) :
    (system.exec empty es).Exclusive :=
  system.exec_invariant Exclusive (fun _ e hw he => step_exclusive e hw he) es empty
    empty_exclusive h

/-- A pool object that was moved from owns nothing, and the other one owns what it did. -/
theorem movePool_spec {w : PoolHeap α} {source : ℕ} {o : PoolObject} (ho : w.pool source = some o) :
    (w.step (.movePool source)).pool source = some ⟨none⟩ ∧
      (w.step (.movePool source)).pool w.pools.length = some o := by
  obtain ⟨hlt, _⟩ := List.getElem?_eq_some_iff.mp (pools_getElem ho)
  constructor
  · rw [pool, step, List.getElem?_append_left (by rwa [List.length_set]),
      List.getElem?_set_self hlt]
    rfl
  · simp [step, pool, ← ho]

theorem assignPool_spec {w : PoolHeap α} {target source : ℕ} {o t : PoolObject}
    (hne : target ≠ source) (ht : w.pool target = some t) (ho : w.pool source = some o) :
    (w.step (.assignPool target source)).pool source = some ⟨none⟩ ∧
      (w.step (.assignPool target source)).pool target = some o := by
  obtain ⟨hlt, _⟩ := List.getElem?_eq_some_iff.mp (pools_getElem ho)
  obtain ⟨hlt', _⟩ := List.getElem?_eq_some_iff.mp (pools_getElem ht)
  rw [step, if_neg hne, ho]
  constructor
  · simp [resetPool, pool, hlt]
  · simp [resetPool, pool, hlt', hne.symm]

/-- **Buffers are exclusive and none is lost.**  In all runs the buffers held by objects are pairwise
distinct buffers of existing storages; for a pool object that owns a storage, the available buffers
and the held ones make up the size the pool was created with; one that was moved from reports none
and hands out none; and exactly when none is available, nothing is handed out. -/
theorem buffers_exclusive {es : List (PoolEvent α)} (h : system.Admits empty es) :
    let w := system.exec empty es
    w.live.Nodup ∧
      (∀ b ∈ w.live, ∃ st, w.storage b.1 = some st ∧ b.2 < st.poolSize) ∧
      (∀ p o address, w.pool p = some o → o.bufferWrappersPtr = some address →
        ∃ st, w.storage address = some st ∧ w.getSize o = st.poolSize ∧
          w.getAvailableSize o + w.live.countP (fun b => b.1 = address) = st.poolSize) ∧
      (∀ p o, w.pool p = some o → o.bufferWrappersPtr = none →
        w.getSize o = 0 ∧ w.getAvailableSize o = 0 ∧ (w.allocate o).1.data = none) ∧
      (∀ p o, w.pool p = some o →
        ((w.allocate o).1.data = none ↔ w.getAvailableSize o = 0)) ∧
      (∀ source o, w.pool source = some o →
        (w.step (.movePool source)).pool source = some ⟨none⟩ ∧
          (w.step (.movePool source)).pool w.pools.length = some o) ∧
      ∀ target source t o, target ≠ source → w.pool target = some t → w.pool source = some o →
        (w.step (.assignPool target source)).pool source = some ⟨none⟩ ∧
          (w.step (.assignPool target source)).pool target = some o := by
  intro w
  have hw : w.Exclusive := run_exclusive h
  have hmoved : ∀ o : PoolObject, o.bufferWrappersPtr = none → w.owned o = none := by
    intro o hptr
    rw [owned, hptr]
    rfl
  refine ⟨hw.live_nodup, ?_, ?_, ?_, ?_, fun _ _ ho => movePool_spec ho,
    fun _ _ _ _ hne ht ho => assignPool_spec hne ht ho⟩
  · intro b hb
    obtain ⟨st, hst, hused⟩ := hw.live_inUse b hb
    refine ⟨st, hst, ?_⟩
    rw [← st.size_eq]
    exact BufferPool.lt_of_inUse hused
  · intro p o address ho hptr
    have hmem : address ∈ w.owners := mem_held _ (pools_getElem ho) hptr
    obtain ⟨st, hst⟩ := Option.isSome_iff_exists.mp (hw.owners_exist address hmem)
    have howned : w.owned o = some st := by
      rw [owned, hptr]
      exact hst
    refine ⟨st, hst, ?_, ?_⟩
    · rw [getSize, howned]
      exact st.size_eq
    · rw [getAvailableSize, howned]
      exact hw.counted address st hst
  · intro p o ho hptr
    refine ⟨?_, ?_, ?_⟩
    · rw [getSize, hmoved o hptr]
      rfl
    · rw [getAvailableSize, hmoved o hptr]
      rfl
    · rw [allocate, hptr]
  · intro p o ho
    obtain ⟨hzero, hnone⟩ | ⟨address, st, index, _, havailable, hpos, _, _, _, hsome⟩ :=
      allocate_cases hw ho
    · rw [hnone]
      exact iff_of_true rfl hzero
    · rw [hsome, havailable]
      exact iff_of_false (Option.some_ne_none _) (Nat.ne_of_gt hpos)

/-- Two buffers are handed out, the pool is moved, and one of them is given back afterwards. -/
def movedWhileUsed : List (PoolEvent ℕ) :=
  [.createPool 2 1 0, .allocate 0, .allocate 0, .movePool 0, .allocate 1, .assignBuffer 2 0,
    .destroyBuffer 1, .destroyPool 0, .allocate 1]

theorem movedWhileUsed_exclusive :
    let w := system.exec empty movedWhileUsed
    w.live.Nodup ∧
      (∀ b ∈ w.live, ∃ st, w.storage b.1 = some st ∧ b.2 < st.poolSize) ∧
      (∀ p o address, w.pool p = some o → o.bufferWrappersPtr = some address →
        ∃ st, w.storage address = some st ∧ w.getSize o = st.poolSize ∧
          w.getAvailableSize o + w.live.countP (fun b => b.1 = address) = st.poolSize) ∧
      (∀ p o, w.pool p = some o → o.bufferWrappersPtr = none →
        w.getSize o = 0 ∧ w.getAvailableSize o = 0 ∧ (w.allocate o).1.data = none) ∧
      (∀ p o, w.pool p = some o →
        ((w.allocate o).1.data = none ↔ w.getAvailableSize o = 0)) ∧
      (∀ source o, w.pool source = some o →
        (w.step (.movePool source)).pool source = some ⟨none⟩ ∧
          (w.step (.movePool source)).pool w.pools.length = some o) ∧
      ∀ target source t o, target ≠ source → w.pool target = some t → w.pool source = some o →
        (w.step (.assignPool target source)).pool source = some ⟨none⟩ ∧
          (w.step (.assignPool target source)).pool target = some o :=
  buffers_exclusive (by decide)

/-- Both buffers are held in the end, one of them by an object it was moved to. -/
example : (system.exec empty movedWhileUsed).live = [(0, 0), (0, 1)] := by decide

end PoolHeap

end SlimStreamer
