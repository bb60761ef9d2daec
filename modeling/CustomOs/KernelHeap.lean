import CustomOs.Library.ByteMemory
import CustomOs.Library.Loop
import CustomOs.Paging
import CustomOs.VmmLayout

/-! # Kernel heap (Stages 8C, 9A and 9C)
The allocator keeps a 16-byte header in front of every block, in the memory it hands out. Both
walks over the headers make the same checks and differ in what they look for. The frame
allocator and the page mapper that growth calls are the operations of an environment. -/
namespace KernelHeap

open ByteMemory Loop

def kheapMinAlignment : UInt32 := 8
def allocationHeaderMagic : UInt32 := 0x39414C48
def allocationStateAllocated : UInt32 := 1
def allocationStateFreed : UInt32 := 2
def allocationHeaderSize : UInt32 := 16
def uint32Max : UInt32 := 0xFFFFFFFF

structure Stage8cKheapState where
  isInitialized : Bool
  start : UInt32
  current : UInt32
  endExclusive : UInt32
  mappedEndExclusive : UInt32
  deriving DecidableEq, Repr

/-- `stage6b_pmm_alloc_frame` (`none` when it returns 0) and `stage8b_vmm_map_page`. -/
structure GrowthOps (σ : Type*) where
  allocFrame : σ → Option UInt64 × σ
  mapPage : σ → UInt32 → UInt32 → Bool × σ

structure Kheap (σ : Type*) where
  state : Stage8cKheapState
  memory : Memory
  env : σ

/-! ## Headers -/

def headerMagic (memory : Memory) (header : UInt32) : UInt32 := load32 memory header
def headerPayloadSize (memory : Memory) (header : UInt32) : UInt32 := load32 memory (header + 4)
def headerState (memory : Memory) (header : UInt32) : UInt32 := load32 memory (header + 8)

def setHeaderMagic (memory : Memory) (header w : UInt32) : Memory := store32 memory header w
def setHeaderPayloadSize (memory : Memory) (header w : UInt32) : Memory :=
  store32 memory (header + 4) w
def setHeaderState (memory : Memory) (header w : UInt32) : Memory :=
  store32 memory (header + 8) w
def setHeaderReserved (memory : Memory) (header w : UInt32) : Memory :=
  store32 memory (header + 12) w

def writeHeader (memory : Memory) (header payloadSize state : UInt32) : Memory :=
  let memory := setHeaderMagic memory header allocationHeaderMagic
  let memory := setHeaderPayloadSize memory header payloadSize
  let memory := setHeaderState memory header state
  setHeaderReserved memory header 0

/-! ## The walks -/

/-- One iteration of a header walk. The four checks come first, then `visit` may leave with a
result, given the header, the payload start, the payload size and the payload end. -/
def walkIteration {ρ : Type*} (state : Stage8cKheapState) (memory : Memory) (finished corrupt : ρ)
    (visit : UInt32 → UInt32 → UInt32 → UInt32 → Option ρ) (cursor : UInt32) :
    Iteration UInt32 ρ :=
  if ¬ cursor < state.current then .leave finished
  else if state.current - allocationHeaderSize < cursor then .leave corrupt
  else if headerMagic memory cursor ≠ allocationHeaderMagic then .leave corrupt
  else if headerPayloadSize memory cursor = 0 ∨
      headerPayloadSize memory cursor &&& (kheapMinAlignment - 1) ≠ 0 then .leave corrupt
  else
    let payloadStart := cursor + allocationHeaderSize
    if state.current - payloadStart < headerPayloadSize memory cursor then .leave corrupt
    else
      let payloadEndExclusive := payloadStart + headerPayloadSize memory cursor
      match visit cursor payloadStart (headerPayloadSize memory cursor) payloadEndExclusive with
      | some result => .leave result
      | none =>
        if payloadEndExclusive ≤ cursor then .leave corrupt else .next payloadEndExclusive

/-- Enough iterations for any walk: every one moves the cursor up. -/
def walkFuel (state : Stage8cKheapState) : ℕ := state.current.toNat - state.start.toNat + 1

/-- Return value, word behind the pointer argument, memory. -/
structure ReuseOutcome where
  result : Int
  payloadStart : UInt32
  memory : Memory

/-- The block at `header` becomes allocated, split when the rest can hold a block. -/
def takeBlock (memory : Memory) (header payloadStart payloadSize alignedSize : UInt32) : Memory :=
  let remainder := payloadSize - alignedSize
  if allocationHeaderSize + kheapMinAlignment ≤ remainder then
    let splitHeaderStart := payloadStart + alignedSize
    let memory := setHeaderPayloadSize memory header alignedSize
    let memory := setHeaderState memory header allocationStateAllocated
    writeHeader memory splitHeaderStart (remainder - allocationHeaderSize) allocationStateFreed
  else setHeaderState memory header allocationStateAllocated

def reuseVisit (memory : Memory) (alignedSize header payloadStart payloadSize _end : UInt32) :
    Option ReuseOutcome :=
  if headerState memory header = allocationStateFreed ∧ alignedSize ≤ payloadSize then
    some ⟨1, payloadStart, takeBlock memory header payloadStart payloadSize alignedSize⟩
  else none

def stage9cKheapTryReuseAlignedAllocation (state : Stage8cKheapState) (memory : Memory)
    (alignedSize : UInt32) : ReuseOutcome :=
  (run (walkIteration state memory ⟨0, 0, memory⟩ ⟨-1, 0, memory⟩ (reuseVisit memory alignedSize))
    (walkFuel state) state.start).getD ⟨-1, 0, memory⟩

def freeVisit (memory : Memory) (targetPtr header payloadStart _size payloadEndExclusive : UInt32) :
    Option (Bool × Memory) :=
  if targetPtr = payloadStart then
    if headerState memory header ≠ allocationStateAllocated then some (false, memory)
    else some (true, setHeaderState memory header allocationStateFreed)
  else if payloadStart < targetPtr ∧ targetPtr < payloadEndExclusive then some (false, memory)
  else none

section Environment

variable {σ : Type*}

def stage9aKheapFree (heap : Kheap σ) (ptr : UInt32) : Bool × Kheap σ :=
  if heap.state.isInitialized = false ∨ ptr = 0 then (false, heap)
  else if ptr < heap.state.start ∨ heap.state.current ≤ ptr then (false, heap)
  else
    let outcome := (run (walkIteration heap.state heap.memory (false, heap.memory)
      (false, heap.memory) (freeVisit heap.memory ptr)) (walkFuel heap.state)
      heap.state.start).getD (false, heap.memory)
    (outcome.1, { heap with memory := outcome.2 })

/-! ## Growth and allocation -/

def stage8cKheapAlignUp (value alignment : UInt32) : Option UInt32 :=
  let mask := alignment - 1
  if alignment = 0 ∨ alignment &&& mask ≠ 0 then none
  else if value &&& mask = 0 then some value
  else if uint32Max - mask < value then none
  else some ((value + mask) &&& ~~~mask)

/-- One iteration of the growth loop: map one more page, or leave with a verdict. -/
def ensureMappedIteration (ops : GrowthOps σ) (requiredEndExclusive : UInt32)
    (loop : Stage8cKheapState × σ) :
    Iteration (Stage8cKheapState × σ) (Bool × Stage8cKheapState × σ) :=
  let (state, env) := loop
  if ¬ state.mappedEndExclusive < requiredEndExclusive then .leave (true, state, env)
  else if state.endExclusive ≤ state.mappedEndExclusive then .leave (false, state, env)
  else
    match ops.allocFrame env with
    | (none, env) => .leave (false, state, env)
    | (some physicalFrameAddr64, env) =>
      if uint32Max.toUInt64 < physicalFrameAddr64 then .leave (false, state, env)
      else
        let physicalFrameAddr := Paging.stage7aPagingFrameAddr physicalFrameAddr64.toUInt32
        match ops.mapPage env state.mappedEndExclusive physicalFrameAddr with
        | (false, env) => .leave (false, state, env)
        | (true, env) =>
          .next ({ state with
            mappedEndExclusive := state.mappedEndExclusive + Paging.pageSize }, env)

def stage8cKheapEnsureMappedUntil (ops : GrowthOps σ) (state : Stage8cKheapState) (env : σ)
    (requiredEndExclusive : UInt32) : Bool × Stage8cKheapState × σ :=
  (run (ensureMappedIteration ops requiredEndExclusive) (requiredEndExclusive.toNat + 1)
    (state, env)).getD (false, state, env)

def stage8cKheapBootstrapInit (heap : Kheap σ) : Bool × Kheap σ :=
  if heap.state.isInitialized then (true, heap)
  else if !VmmLayout.stage8aValidatePolicy then (false, heap)
  else
    (true, { heap with
      state := ⟨true, VmmLayout.futureHeapReservedStart, VmmLayout.futureHeapReservedStart,
        VmmLayout.futureHeapReservedEndExclusive, VmmLayout.futureHeapReservedStart⟩ })

/-- The tail of `stage8c_kheap_alloc`: carve a new block at `current`. -/
def kheapBump (ops : GrowthOps σ) (heap : Kheap σ) (alignedSize : UInt32) : UInt32 × Kheap σ :=
  let allocationHeaderStart := heap.state.current
  if heap.state.endExclusive - allocationHeaderSize < allocationHeaderStart then (0, heap)
  else
    let payloadStart := allocationHeaderStart + allocationHeaderSize
    if heap.state.endExclusive - payloadStart < alignedSize then (0, heap)
    else
      let allocationEndExclusive := payloadStart + alignedSize
      match stage8cKheapAlignUp allocationEndExclusive Paging.pageSize with
      | none => (0, heap)
      | some requiredMappedEndExclusive =>
        match stage8cKheapEnsureMappedUntil ops heap.state heap.env requiredMappedEndExclusive with
        | (false, state, env) => (0, ⟨state, heap.memory, env⟩)
        | (true, state, env) =>
          (payloadStart,
            ⟨{ state with current := allocationEndExclusive },
              writeHeader heap.memory allocationHeaderStart alignedSize allocationStateAllocated,
              env⟩)

def stage8cKheapAlloc (ops : GrowthOps σ) (heap : Kheap σ) (size : UInt32) : UInt32 × Kheap σ :=
  if heap.state.isInitialized = false ∨ size = 0 then (0, heap)
  else
    match stage8cKheapAlignUp size kheapMinAlignment with
    | none => (0, heap)
    | some alignedSize =>
      let outcome := stage9cKheapTryReuseAlignedAllocation heap.state heap.memory alignedSize
      let heap := { heap with memory := outcome.memory }
      if outcome.result < 0 then (0, heap)
      else if 0 < outcome.result then (outcome.payloadStart, heap)
      else kheapBump ops heap alignedSize

end Environment

end KernelHeap
