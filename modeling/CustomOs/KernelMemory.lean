import CustomOs.FrameOwnership
import CustomOs.KernelHeapCalls
import CustomOs.PageMapRefinement

/-! # The memory system of the kernel
The heap grows on frames of the physical allocator, mapped by the page mapper. The environment
of the heap is these two, with a record of the frames the growth loop obtained. Everyone else
may use the allocator, the mapper and the memory as they like between heap calls. -/
namespace KernelMemory

open MemoryMap PhysicalFrames Paging PageMapper KernelHeap KernelHeapCalls
open ByteMemory (Memory)

structure GrowthEnv where
  pmm : Pmm
  pages : PageMemory
  obtained : List UInt64

def kernelOps (frames : Stage5cFrameBookkeeping) (layout : TableLayout) : GrowthOps GrowthEnv where
  allocFrame env :=
    let reply := stage6bPmmAllocFrame frames env.pmm (some 0)
    (reply.result,
      { env with pmm := reply.pmm, obtained := env.obtained ++ reply.result.toList })
  mapPage env v p :=
    let reply := stage8bVmmMapPage layout env.pages v p
    (reply.1, { env with pages := reply.2 })

abbrev KernelHeapState := Kheap GrowthEnv

inductive KernelCall where
  | heapAlloc (size ptr : UInt32)
  | heapFree (ptr : UInt32) (accepted : Bool)
  | pmm (call : PmmCall)
  | mapper (call : MapperCall)
  | write
  deriving DecidableEq, Repr

inductive KernelStep (frames : Stage5cFrameBookkeeping) (layout : TableLayout) :
    KernelHeapState → KernelCall → KernelHeapState → Prop where
  | heapAlloc (s : KernelHeapState) (size : UInt32) :
      KernelStep frames layout s
        (.heapAlloc size (stage8cKheapAlloc (kernelOps frames layout) s size).1)
        (stage8cKheapAlloc (kernelOps frames layout) s size).2
  | heapFree (s : KernelHeapState) (ptr : UInt32) :
      KernelStep frames layout s (.heapFree ptr (stage9aKheapFree s ptr).1)
        (stage9aKheapFree s ptr).2
  | pmm (s : KernelHeapState) {call : PmmCall} {pmm : Pmm}
      (step : PmmStep frames s.env.pmm call pmm) :
      KernelStep frames layout s (.pmm call) { s with env := { s.env with pmm := pmm } }
  | mapper (s : KernelHeapState) {call : MapperCall} {pages : PageMemory}
      (step : MapperStep layout s.env.pages call pages) :
      KernelStep frames layout s (.mapper call) { s with env := { s.env with pages := pages } }
  | write (s : KernelHeapState) (memory : Memory) :
      KernelStep frames layout s .write { s with memory := memory }

/-- Seeded allocator, identity mapping, heap initialized, nothing obtained yet. -/
def booted (frames : Stage5cFrameBookkeeping) (layout : TableLayout) (pages : PageMemory)
    (memory : Memory) : KernelHeapState :=
  (stage8cKheapBootstrapInit ⟨⟨false, 0, 0, 0, 0⟩, memory,
    ⟨seeded frames, stage7bSetupEarlyIdentityPaging layout pages, []⟩⟩).2

abbrev KernelRun (frames : Stage5cFrameBookkeeping) (layout : TableLayout) (pages : PageMemory)
    (memory : Memory) : List KernelCall → KernelHeapState → Prop :=
  Transition.Execution (KernelStep frames layout) (booted frames layout pages memory)

/-! ## What an allocation asks of the environment -/

section Growth

variable {σ : Type*} (ops : GrowthOps σ) (heap : Kheap σ)

/-- The mapped limit a new block of `n` bytes needs, if the window has room for it. -/
def bumpRequired (n : UInt32) : Option UInt32 :=
  if heap.state.endExclusive - allocationHeaderSize < heap.state.current then none
  else if heap.state.endExclusive - (heap.state.current + allocationHeaderSize) < n then none
  else stage8cKheapAlignUp (heap.state.current + allocationHeaderSize + n) pageSize

/-- The mapped limit that the growth loop of an allocation is asked for, if the call gets
there: the size is sound and the walk has found no block to reuse and nothing corrupt. -/
def growthRequired (size : UInt32) : Option UInt32 :=
  if heap.state.isInitialized = false ∨ size = 0 then none
  else
    match stage8cKheapAlignUp size kheapMinAlignment with
    | none => none
    | some n =>
      if (stage9cKheapTryReuseAlignedAllocation heap.state heap.memory n).result = 0 then
        bumpRequired heap n
      else none

/-- The bounds and the environment after the growth loop, if the call gets there. -/
def afterGrowth (required : Option UInt32) : Stage8cKheapState × σ :=
  match required with
  | none => (heap.state, heap.env)
  | some required => (stage8cKheapEnsureMappedUntil ops heap.state heap.env required).2

theorem bump_growth (n : UInt32) (memory : Memory) :
    ∃ current, (kheapBump ops { heap with memory := memory } n).2.state =
        { (afterGrowth ops heap (bumpRequired heap n)).1 with current := current } ∧
      (kheapBump ops { heap with memory := memory } n).2.env =
        (afterGrowth ops heap (bumpRequired heap n)).2 := by
  simp only [kheapBump, bumpRequired]
  by_cases hheader : heap.state.endExclusive - allocationHeaderSize < heap.state.current
  · rw [if_pos hheader, if_pos hheader]
    exact ⟨_, rfl, rfl⟩
  rw [if_neg hheader, if_neg hheader]
  by_cases hroom : heap.state.endExclusive - (heap.state.current + allocationHeaderSize) < n
  · rw [if_pos hroom, if_pos hroom]
    exact ⟨_, rfl, rfl⟩
  rw [if_neg hroom, if_neg hroom]
  cases stage8cKheapAlignUp (heap.state.current + allocationHeaderSize + n) pageSize with
  | none => exact ⟨_, rfl, rfl⟩
  | some required =>
    simp only [afterGrowth]
    cases stage8cKheapEnsureMappedUntil ops heap.state heap.env required with
    | mk ok rest =>
      cases ok with
      | false => exact ⟨_, rfl, rfl⟩
      | true => exact ⟨_, rfl, rfl⟩

/-- An allocation changes the bounds and the environment by its growth loop alone, except that
it may move `current`. -/
theorem alloc_growth (size : UInt32) :
    ∃ current, (stage8cKheapAlloc ops heap size).2.state =
        { (afterGrowth ops heap (growthRequired heap size)).1 with current := current } ∧
      (stage8cKheapAlloc ops heap size).2.env =
        (afterGrowth ops heap (growthRequired heap size)).2 := by
  simp only [stage8cKheapAlloc, growthRequired]
  by_cases hargs : heap.state.isInitialized = false ∨ size = 0
  · rw [if_pos hargs, if_pos hargs]
    exact ⟨_, rfl, rfl⟩
  rw [if_neg hargs, if_neg hargs]
  cases stage8cKheapAlignUp size kheapMinAlignment with
  | none => exact ⟨_, rfl, rfl⟩
  | some n =>
    simp only
    by_cases hzero : (stage9cKheapTryReuseAlignedAllocation heap.state heap.memory n).result = 0
    · rw [if_pos hzero, if_neg (by omega), if_neg (by omega)]
      exact bump_growth ops heap n _
    · rw [if_neg hzero]
      by_cases hneg : (stage9cKheapTryReuseAlignedAllocation heap.state heap.memory n).result < 0
      · rw [if_pos hneg]
        exact ⟨_, rfl, rfl⟩
      · rw [if_neg hneg, if_pos (by omega)]
        exact ⟨_, rfl, rfl⟩

/-- A limit is only asked for when the new block ends inside the window. -/
theorem bumpRequired_room {heap : Kheap σ} {n required : UInt32}
    (hend : heap.state.endExclusive = VmmLayout.futureHeapReservedEndExclusive)
    (h : bumpRequired heap n = some required) :
    heap.state.current.toNat + 16 + n.toNat ≤ 0x800000 ∧
      (heap.state.current + allocationHeaderSize + n).toNat =
        heap.state.current.toNat + 16 + n.toNat ∧
      stage8cKheapAlignUp (heap.state.current + allocationHeaderSize + n) pageSize =
        some required := by
  simp only [bumpRequired] at h
  by_cases hheader : heap.state.endExclusive - allocationHeaderSize < heap.state.current
  · rw [if_pos hheader] at h
    cases h
  rw [if_neg hheader] at h
  by_cases hpayload : heap.state.endExclusive - (heap.state.current + allocationHeaderSize) < n
  · rw [if_pos hpayload] at h
    cases h
  rw [if_neg hpayload] at h
  have hroom := (bump_room n hend).mp ⟨hheader, hpayload⟩
  exact ⟨hroom, (bump_end hroom).2, h⟩

theorem bumpRequired_le {heap : Kheap σ} {n required : UInt32}
    (hend : heap.state.endExclusive = VmmLayout.futureHeapReservedEndExclusive)
    (h : bumpRequired heap n = some required) :
    required.toNat ≤ 0x800000 ∧ required.toNat % 4096 = 0 := by
  obtain ⟨hroom, hstop, halign⟩ := bumpRequired_room hend h
  rcases alignUp_page (heap.state.current + allocationHeaderSize + n) with
    ⟨hnone, _⟩ | ⟨w, hw, hval⟩
  · rw [hnone] at halign
    cases halign
  · obtain rfl := Option.some.inj (hw.symm.trans halign)
    omega

/-- Growth is asked for whole pages inside the window. -/
theorem growthRequired_le {heap : Kheap σ} {size required : UInt32}
    (hend : heap.state.endExclusive = VmmLayout.futureHeapReservedEndExclusive)
    (h : growthRequired heap size = some required) :
    required.toNat ≤ 0x800000 ∧ required.toNat % 4096 = 0 := by
  simp only [growthRequired] at h
  split_ifs at h
  cases halign : stage8cKheapAlignUp size kheapMinAlignment with
  | none =>
    rw [halign] at h
    cases h
  | some n =>
    rw [halign] at h
    simp only at h
    split_ifs at h
    exact bumpRequired_le hend h

end Growth

def pagesFrom : UInt32 → ℕ → List UInt32
  | _, 0 => []
  | v, k + 1 => v :: pagesFrom (v + pageSize) k

/-- The pages an allocation has still to map, in order. -/
def growthPages {σ : Type*} (heap : Kheap σ) (size : UInt32) : List UInt32 :=
  match growthRequired heap size with
  | none => []
  | some required =>
    pagesFrom heap.state.mappedEndExclusive
      ((required.toNat - heap.state.mappedEndExclusive.toNat) / 4096)

/-- The frames the allocator will hand out next, in order: the waiting ones, then those the
cursor has still to reach. -/
def nextFrames (frames : Stage5cFrameBookkeeping) (pmm : Pmm) : List ℕ :=
  PhysicalFrameTracking.pendingFrames pmm ++
    Sweep.sweep (frames.spans.drop pmm.stage6a.rangeIndex) pmm.stage6a.nextFrameIndex.toNat

end KernelMemory
