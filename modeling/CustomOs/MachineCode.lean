import CustomOs.KernelHeapCorruption
import CustomOs.KernelServices
import CustomOs.Library.PagedMemory

/-! # The memory management as code
The functions of the page mapper, the heap and the object layer again, as code that loads and
stores words one by one and asks for frames. In the part of the heap in use the code of the
heap and of the objects does what the functions do to a flat memory. -/
namespace MachineCode

open ByteMemory CheckedMemory Interaction PagedMemory Paging PageMapper KernelHeap
open KernelHeapCorruption KernelObject
open HeapReference (HeapCall stage8cKheapGetState)
open KernelServices (ServiceCall)
open Loop (Iteration)

/-- `stage6b_pmm_alloc_frame`, with `none` when it returns 0. -/
abbrev frameInterface : Interface := ⟨Unit, fun _ => Option UInt64⟩

/-- Code stops when a loop has not ended within its bound. -/
abbrev Code (α : Type) := Program (withAccess frameInterface) Unit α

def allocFrame : Code (Option UInt64) := .call (.inr ()) .pure

/-! ## The page mapper -/

def loadEntry (table i : UInt32) : Code UInt32 := load (table + 4 * i)

def storeEntry (table i entry : UInt32) : Code Unit := store (table + 4 * i) entry

/-- Clears these entries of the table. -/
def clearEntries (table : UInt32) : List ℕ → Code Unit
  | [] => pure ()
  | i :: rest => do
    storeEntry table (UInt32.ofNat i) 0
    clearEntries table rest

def clearPageTableCode (table : UInt32) : Code Unit :=
  clearEntries table (List.range entriesPerTable)

/-- The end of `stage8b_vmm_map_page`, once the table is linked. -/
def mapIntoTableCode (expectedPageTable virtualPageAddr physicalFrameAddr : UInt32) :
    Code Bool := do
  let ptIndex := stage7aPagingPtIndex virtualPageAddr
  let pte ← loadEntry expectedPageTable ptIndex
  if pte &&& flagPresent ≠ 0 then pure false
  else do
    storeEntry expectedPageTable ptIndex
      (stage7aPagingMakeEntry physicalFrameAddr (flagPresent ||| flagWritable))
    pure true

def mapPageCode (layout : TableLayout) (virtualPageAddr physicalFrameAddr : UInt32) : Code Bool :=
  let mappingFlags := flagPresent ||| flagWritable
  if !stage8bVmmIsPageAligned virtualPageAddr then pure false
  else if !stage8bVmmIsPageAligned physicalFrameAddr then pure false
  else
    match stage8bVmmGetReservedMappingSlot virtualPageAddr with
    | none => pure false
    | some (pdIndex, tableSlot) => do
      let expectedPageTable := layout.reservedTable tableSlot
      let pde ← loadEntry layout.earlyPageDirectory pdIndex
      if pde &&& flagPresent = 0 then do
        clearPageTableCode expectedPageTable
        storeEntry layout.earlyPageDirectory pdIndex
          (stage7aPagingMakeEntry expectedPageTable mappingFlags)
        mapIntoTableCode expectedPageTable virtualPageAddr physicalFrameAddr
      else if stage7aPagingFrameAddr pde ≠ stage7aPagingFrameAddr expectedPageTable then pure false
      else mapIntoTableCode expectedPageTable virtualPageAddr physicalFrameAddr

/-! ## The heap -/

def writeHeaderCode (header payloadSize state : UInt32) : Code Unit := do
  store header allocationHeaderMagic
  store (header + 4) payloadSize
  store (header + 8) state
  store (header + 12) 0

def walkIterationCode {ρ : Type} (state : Stage8cKheapState) (finished corrupt : ρ)
    (visit : UInt32 → UInt32 → UInt32 → UInt32 → Code (Option ρ)) (cursor : UInt32) :
    Code (Iteration UInt32 ρ) :=
  if ¬ cursor < state.current then pure (.leave finished)
  else if state.current - allocationHeaderSize < cursor then pure (.leave corrupt)
  else do
    let magic ← load cursor
    if magic ≠ allocationHeaderMagic then pure (.leave corrupt)
    else do
      let payloadSize ← load (cursor + 4)
      if payloadSize = 0 ∨ payloadSize &&& (kheapMinAlignment - 1) ≠ 0 then pure (.leave corrupt)
      else if state.current - (cursor + allocationHeaderSize) < payloadSize then
        pure (.leave corrupt)
      else do
        let payloadEndExclusive := cursor + allocationHeaderSize + payloadSize
        let answer ← visit cursor (cursor + allocationHeaderSize) payloadSize payloadEndExclusive
        match answer with
        | some result => pure (.leave result)
        | none =>
          if payloadEndExclusive ≤ cursor then pure (.leave corrupt)
          else pure (.next payloadEndExclusive)

def takeBlockCode (header payloadStart payloadSize alignedSize : UInt32) : Code Unit :=
  let remainder := payloadSize - alignedSize
  if allocationHeaderSize + kheapMinAlignment ≤ remainder then do
    store (header + 4) alignedSize
    store (header + 8) allocationStateAllocated
    writeHeaderCode (payloadStart + alignedSize) (remainder - allocationHeaderSize)
      allocationStateFreed
  else store (header + 8) allocationStateAllocated

/-- Return value and word behind the pointer argument. -/
def reuseVisitCode (alignedSize header payloadStart payloadSize _end : UInt32) :
    Code (Option (Int × UInt32)) := do
  let state ← load (header + 8)
  if state = allocationStateFreed ∧ alignedSize ≤ payloadSize then do
    takeBlockCode header payloadStart payloadSize alignedSize
    pure (some (1, payloadStart))
  else pure none

def tryReuseCode (state : Stage8cKheapState) (alignedSize : UInt32) : Code (Int × UInt32) := do
  let outcome ← repeating (walkIterationCode state (0, 0) (-1, 0) (reuseVisitCode alignedSize))
    (walkFuel state) state.start
  match outcome with
  | some result => pure result
  | none => .stop ()

def freeVisitCode (targetPtr header payloadStart _size payloadEndExclusive : UInt32) :
    Code (Option Bool) :=
  if targetPtr = payloadStart then do
    let state ← load (header + 8)
    if state ≠ allocationStateAllocated then pure (some false)
    else do
      store (header + 8) allocationStateFreed
      pure (some true)
  else if payloadStart < targetPtr ∧ targetPtr < payloadEndExclusive then pure (some false)
  else pure none

def kheapFreeCode (state : Stage8cKheapState) (ptr : UInt32) : Code Bool :=
  if state.isInitialized = false ∨ ptr = 0 then pure false
  else if ptr < state.start ∨ state.current ≤ ptr then pure false
  else do
    let outcome ← repeating (walkIterationCode state false false (freeVisitCode ptr))
      (walkFuel state) state.start
    match outcome with
    | some accepted => pure accepted
    | none => .stop ()

def growthIterationCode (layout : TableLayout) (requiredEndExclusive : UInt32)
    (state : Stage8cKheapState) : Code (Iteration Stage8cKheapState (Bool × Stage8cKheapState)) :=
  if ¬ state.mappedEndExclusive < requiredEndExclusive then pure (.leave (true, state))
  else if state.endExclusive ≤ state.mappedEndExclusive then pure (.leave (false, state))
  else do
    let frame ← allocFrame
    match frame with
    | none => pure (.leave (false, state))
    | some physicalFrameAddr64 =>
      if uint32Max.toUInt64 < physicalFrameAddr64 then pure (.leave (false, state))
      else do
        let mapped ← mapPageCode layout state.mappedEndExclusive
          (stage7aPagingFrameAddr physicalFrameAddr64.toUInt32)
        if mapped then
          pure (.next { state with mappedEndExclusive := state.mappedEndExclusive + pageSize })
        else pure (.leave (false, state))

def ensureMappedCode (layout : TableLayout) (state : Stage8cKheapState)
    (requiredEndExclusive : UInt32) : Code (Bool × Stage8cKheapState) := do
  let outcome ← repeating (growthIterationCode layout requiredEndExclusive)
    (requiredEndExclusive.toNat + 1) state
  match outcome with
  | some result => pure result
  | none => .stop ()

def kheapBootstrapInitCode (state : Stage8cKheapState) : Code (Bool × Stage8cKheapState) :=
  if state.isInitialized then pure (true, state)
  else if !VmmLayout.stage8aValidatePolicy then pure (false, state)
  else
    pure (true, ⟨true, VmmLayout.futureHeapReservedStart, VmmLayout.futureHeapReservedStart,
      VmmLayout.futureHeapReservedEndExclusive, VmmLayout.futureHeapReservedStart⟩)

/-- The tail of `stage8c_kheap_alloc`: carve a new block at `current`. -/
def kheapBumpCode (layout : TableLayout) (state : Stage8cKheapState) (alignedSize : UInt32) :
    Code (UInt32 × Stage8cKheapState) :=
  let payloadStart := state.current + allocationHeaderSize
  if state.endExclusive - allocationHeaderSize < state.current then pure (0, state)
  else if state.endExclusive - payloadStart < alignedSize then pure (0, state)
  else
    match stage8cKheapAlignUp (payloadStart + alignedSize) pageSize with
    | none => pure (0, state)
    | some requiredMappedEndExclusive => do
      let (grown, after) ← ensureMappedCode layout state requiredMappedEndExclusive
      if grown then do
        writeHeaderCode state.current alignedSize allocationStateAllocated
        pure (payloadStart, { after with current := payloadStart + alignedSize })
      else pure (0, after)

def kheapAllocCode (layout : TableLayout) (state : Stage8cKheapState) (size : UInt32) :
    Code (UInt32 × Stage8cKheapState) :=
  if state.isInitialized = false ∨ size = 0 then pure (0, state)
  else
    match stage8cKheapAlignUp size kheapMinAlignment with
    | none => pure (0, state)
    | some alignedSize => do
      let (result, reusedPayloadStart) ← tryReuseCode state alignedSize
      if result < 0 then pure (0, state)
      else if 0 < result then pure (reusedPayloadStart, state)
      else kheapBumpCode layout state alignedSize

def kmallocCode (layout : TableLayout) (state : Stage8cKheapState) (size : UInt32) :
    Code (UInt32 × Stage8cKheapState) :=
  if size = 0 then pure (0, state) else kheapAllocCode layout state size

def kfreeCode (state : Stage8cKheapState) (ptr : UInt32) : Code Bool :=
  if ptr = 0 then pure false else kheapFreeCode state ptr

/-! ## The objects -/

def nodeCode (node : UInt32) : Code KernelServices.KobjectNode := do
  let id ← load node
  let value ← load (node + 4)
  let next ← load (node + 8)
  pure ⟨id, value, next⟩

def initNodeCode (node id value : UInt32) : Code Unit := do
  store node id
  store (node + 4) value
  store (node + 8) 0

def kobjectNodeCreateCode (layout : TableLayout) (state : Stage8cKheapState) (id value : UInt32) :
    Code (UInt32 × Stage8cKheapState) := do
  let (node, state) ← kmallocCode layout state kobjectNodeSize
  if node = 0 then pure (0, state)
  else do
    initNodeCode node id value
    pure (node, state)

def kobjectNodeDestroyCode (state : Stage8cKheapState) (node : UInt32) : Code Bool :=
  if node = 0 then pure false else kfreeCode state node

def kobjectListAppendCode (list : Option KobjectList) (node : UInt32) :
    Code (Bool × Option KobjectList) :=
  match list with
  | none => pure (false, none)
  | some list =>
    if node = 0 then pure (false, some list)
    else do
      let next ← load (node + 8)
      if next ≠ 0 then pure (false, some list)
      else if list.head = 0 then pure (true, some ⟨node, node, 1⟩)
      else if list.tail = 0 then pure (false, some list)
      else do
        store (list.tail + 8) node
        pure (true, some ⟨list.head, node, list.count + 1⟩)

def findIterationCode (id cursor : UInt32) : Code (Iteration UInt32 UInt32) :=
  if cursor = 0 then pure (.leave 0)
  else do
    let nodeId ← load cursor
    if nodeId = id then pure (.leave cursor)
    else do
      let next ← load (cursor + 8)
      pure (.next next)

def kobjectListFindByIdCode (fuel : ℕ) (list : Option KobjectList) (id : UInt32) : Code UInt32 :=
  match list with
  | none => pure 0
  | some list => do
    let outcome ← repeating (findIterationCode id) fuel list.head
    match outcome with
    | some node => pure node
    | none => .stop ()

/-- Taking `cursor` out of the list, `prev` in front of it or null. -/
def unlinkCode (list : KobjectList) (prev cursor : UInt32) : Code (Bool × Option KobjectList) := do
  let next ← load (cursor + 8)
  if prev = 0 then do
    store (cursor + 8) 0
    pure (true, some (KernelServices.unlinkedRecord list prev cursor next))
  else do
    store (prev + 8) next
    store (cursor + 8) 0
    pure (true, some (KernelServices.unlinkedRecord list prev cursor next))

def removeIterationCode (list : KobjectList) (id : UInt32) (loop : UInt32 × UInt32) :
    Code (Iteration (UInt32 × UInt32) (Bool × Option KobjectList)) :=
  let (prev, cursor) := loop
  if cursor = 0 then pure (.leave (false, some list))
  else do
    let nodeId ← load cursor
    if nodeId = id then do
      let result ← unlinkCode list prev cursor
      pure (.leave result)
    else do
      let next ← load (cursor + 8)
      pure (.next (cursor, next))

def kobjectListRemoveByIdCode (fuel : ℕ) (list : Option KobjectList) (id : UInt32) :
    Code (Bool × Option KobjectList) :=
  match list with
  | none => pure (false, none)
  | some list => do
    let outcome ← repeating (removeIterationCode list id) fuel (0, list.head)
    match outcome with
    | some result => pure result
    | none => .stop ()

/-! ## The services -/

/-- A service from the bounds of the heap before it to those after it. -/
def serviceCode (fuel : ℕ) (layout : TableLayout) (state : Stage8cKheapState) :
    (call : ServiceCall) → Code (call.Answer × Stage8cKheapState)
  | .heap .bootstrapInit => kheapBootstrapInitCode state
  | .heap (.alloc size) => kheapAllocCode layout state size
  | .heap (.free ptr) => do
    let accepted ← kheapFreeCode state ptr
    pure (accepted, state)
  | .heap (.getState out) => pure (stage8cKheapGetState state out, state)
  | .kmalloc size => kmallocCode layout state size
  | .kfree ptr => do
    let accepted ← kfreeCode state ptr
    pure (accepted, state)
  | .kobjectNodeCreate id value => kobjectNodeCreateCode layout state id value
  | .kobjectNodeDestroy node => do
    let accepted ← kobjectNodeDestroyCode state node
    pure (accepted, state)
  | .node ptr => do
    let node ← nodeCode ptr
    pure (node, state)
  | .kobjectListAppend list node => do
    let reply ← kobjectListAppendCode list node
    pure (reply, state)
  | .kobjectListFindById list id => do
    let node ← kobjectListFindByIdCode fuel list id
    pure (node, state)
  | .kobjectListRemoveById list id => do
    let reply ← kobjectListRemoveByIdCode fuel list id
    pure (reply, state)

end MachineCode
