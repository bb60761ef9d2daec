import CustomOs.Library.Transition
import CustomOs.Paging
import CustomOs.VmmLayout

/-! # Page mapper (Stage 8B)
Mapping and unmapping single pages of the two reserved windows through three static tables,
linked into the early page directory on first use and unlinked when they run empty. -/
namespace PageMapper

open Paging VmmLayout

def mutableReservedStart : UInt32 := futureHeapReservedStart
def mutableTableCount : UInt32 := 3

def stage8bVmmIsPageAligned (addr : UInt32) : Bool := stage7aPagingPageOffset addr = 0

def stage8bVmmPageTableFromEntry (entry : UInt32) : UInt32 := stage7aPagingFrameAddr entry

def stage8bVmmClearPageTable (memory : PageMemory) (pageTable : UInt32) : PageMemory :=
  clearTable memory pageTable

def stage8bVmmTableIsEmpty (memory : PageMemory) (pageTable : UInt32) : Bool :=
  (List.range entriesPerTable).all fun i => memory pageTable (UInt32.ofNat i) &&& flagPresent = 0

/-- The directory index and the table slot of a page of the mutable windows. -/
def stage8bVmmGetReservedMappingSlot (virtualPageAddr : UInt32) : Option (UInt32 × UInt32) :=
  let reservedStartPdIndex := stage7aPagingPdIndex mutableReservedStart
  let pdIndex := stage7aPagingPdIndex virtualPageAddr
  if !stage8aIsAddrInFutureHeapReserved virtualPageAddr &&
      !stage8aIsAddrInFutureMappingReserved virtualPageAddr then none
  else if pdIndex < reservedStartPdIndex then none
  else if mutableTableCount ≤ pdIndex - reservedStartPdIndex then none
  else some (pdIndex, pdIndex - reservedStartPdIndex)

def stage8bVmmIsPageMapped (layout : TableLayout) (memory : PageMemory)
    (virtualPageAddr : UInt32) : Bool :=
  let pde := memory layout.earlyPageDirectory (stage7aPagingPdIndex virtualPageAddr)
  if !stage8bVmmIsPageAligned virtualPageAddr then false
  else if pde &&& flagPresent = 0 then false
  else
    let pageTable := stage8bVmmPageTableFromEntry pde
    memory pageTable (stage7aPagingPtIndex virtualPageAddr) &&& flagPresent ≠ 0

/-- The pointer argument is the word behind it, `none` when it is null. -/
def stage8bVmmResolvePageFrame (layout : TableLayout) (memory : PageMemory)
    (virtualPageAddr : UInt32) (outPhysicalFrameAddr : Option UInt32) : Bool × Option UInt32 :=
  let pde := memory layout.earlyPageDirectory (stage7aPagingPdIndex virtualPageAddr)
  match outPhysicalFrameAddr with
  | none => (false, none)
  | some out =>
    if !stage8bVmmIsPageAligned virtualPageAddr then (false, some out)
    else if pde &&& flagPresent = 0 then (false, some out)
    else
      let pageTable := stage8bVmmPageTableFromEntry pde
      let pte := memory pageTable (stage7aPagingPtIndex virtualPageAddr)
      if pte &&& flagPresent = 0 then (false, some out)
      else (true, some (stage7aPagingFrameAddr pte))

/-- The end of `stage8b_vmm_map_page`, once the table is linked. -/
def mapIntoTable (memory : PageMemory)
    (expectedPageTable virtualPageAddr physicalFrameAddr : UInt32) : Bool × PageMemory :=
  let ptIndex := stage7aPagingPtIndex virtualPageAddr
  if memory expectedPageTable ptIndex &&& flagPresent ≠ 0 then (false, memory)
  else
    (true, memory.write expectedPageTable ptIndex
      (stage7aPagingMakeEntry physicalFrameAddr (flagPresent ||| flagWritable)))

def stage8bVmmMapPage (layout : TableLayout) (memory : PageMemory)
    (virtualPageAddr physicalFrameAddr : UInt32) : Bool × PageMemory :=
  let mappingFlags := flagPresent ||| flagWritable
  if !stage8bVmmIsPageAligned virtualPageAddr then (false, memory)
  else if !stage8bVmmIsPageAligned physicalFrameAddr then (false, memory)
  else
    match stage8bVmmGetReservedMappingSlot virtualPageAddr with
    | none => (false, memory)
    | some (pdIndex, tableSlot) =>
      let expectedPageTable := layout.reservedTable tableSlot
      let pde := memory layout.earlyPageDirectory pdIndex
      if pde &&& flagPresent = 0 then
        let memory := stage8bVmmClearPageTable memory expectedPageTable
        let memory := memory.write layout.earlyPageDirectory pdIndex
          (stage7aPagingMakeEntry expectedPageTable mappingFlags)
        mapIntoTable memory expectedPageTable virtualPageAddr physicalFrameAddr
      else if stage7aPagingFrameAddr pde ≠ stage7aPagingFrameAddr expectedPageTable then
        (false, memory)
      else mapIntoTable memory expectedPageTable virtualPageAddr physicalFrameAddr

def stage8bVmmUnmapPage (layout : TableLayout) (memory : PageMemory) (virtualPageAddr : UInt32) :
    Bool × PageMemory :=
  if !stage8bVmmIsPageAligned virtualPageAddr then (false, memory)
  else
    match stage8bVmmGetReservedMappingSlot virtualPageAddr with
    | none => (false, memory)
    | some (pdIndex, tableSlot) =>
      let expectedPageTable := layout.reservedTable tableSlot
      let pde := memory layout.earlyPageDirectory pdIndex
      if pde &&& flagPresent = 0 then (false, memory)
      else if stage7aPagingFrameAddr pde ≠ stage7aPagingFrameAddr expectedPageTable then
        (false, memory)
      else
        let ptIndex := stage7aPagingPtIndex virtualPageAddr
        if memory expectedPageTable ptIndex &&& flagPresent = 0 then (false, memory)
        else
          let memory := memory.write expectedPageTable ptIndex 0
          if stage8bVmmTableIsEmpty memory expectedPageTable then
            (true, memory.write layout.earlyPageDirectory pdIndex 0)
          else (true, memory)

/-! ## Histories -/

inductive MapperCall where
  | map (virtualPageAddr physicalFrameAddr : UInt32) (accepted : Bool)
  | unmap (virtualPageAddr : UInt32) (accepted : Bool)
  deriving DecidableEq, Repr

inductive MapperStep (layout : TableLayout) : PageMemory → MapperCall → PageMemory → Prop where
  | map (memory : PageMemory) (v p : UInt32) :
      MapperStep layout memory (.map v p (stage8bVmmMapPage layout memory v p).1)
        (stage8bVmmMapPage layout memory v p).2
  | unmap (memory : PageMemory) (v : UInt32) :
      MapperStep layout memory (.unmap v (stage8bVmmUnmapPage layout memory v).1)
        (stage8bVmmUnmapPage layout memory v).2

/-- Runs that start with the identity mapping set up over any memory. -/
abbrev MapperRun (layout : TableLayout) (memory : PageMemory) :
    List MapperCall → PageMemory → Prop :=
  Transition.Execution (MapperStep layout) (stage7bSetupEarlyIdentityPaging layout memory)

/-! ## Slots -/

/-- The slot lookup in numbers: it succeeds exactly on the two reserved windows. -/
theorem getReservedMappingSlot_eq (v : UInt32) :
    stage8bVmmGetReservedMappingSlot v =
      if 0x400000 ≤ v.toNat ∧ v.toNat < 0x1000000
      then some (stage7aPagingPdIndex v, stage7aPagingPdIndex v - 1) else none := by
  have hstart : stage7aPagingPdIndex mutableReservedStart = 1 := by decide
  have hpd := pdIndex_toNat v
  have hheap := isAddrInFutureHeapReserved_iff v
  have hmapping := isAddrInFutureMappingReserved_iff v
  by_cases hwin : 0x400000 ≤ v.toNat ∧ v.toNat < 0x1000000
  · have hin : ¬ (!stage8aIsAddrInFutureHeapReserved v &&
        !stage8aIsAddrInFutureMappingReserved v) = true := by
      simp only [Bool.and_eq_true, Bool.not_eq_true', ← Bool.not_eq_true, hheap, hmapping]
      omega
    have hlow : ¬ stage7aPagingPdIndex v < 1 := by
      rw [UInt32.lt_iff_toNat_lt, hpd, UInt32.toNat_one]
      omega
    have hone : (1 : UInt32) ≤ stage7aPagingPdIndex v := by
      rw [UInt32.le_iff_toNat_le, hpd, UInt32.toNat_one]
      omega
    have hcount : ¬ mutableTableCount ≤ stage7aPagingPdIndex v - 1 := by
      have hthree : mutableTableCount.toNat = 3 := rfl
      rw [UInt32.le_iff_toNat_le, UInt32.toNat_sub_of_le _ _ hone, hpd, hthree, UInt32.toNat_one]
      omega
    simp only [stage8bVmmGetReservedMappingSlot, hstart]
    rw [if_neg hin, if_neg hlow, if_neg hcount, if_pos hwin]
  · have hout : (!stage8aIsAddrInFutureHeapReserved v &&
        !stage8aIsAddrInFutureMappingReserved v) = true := by
      simp only [Bool.and_eq_true, Bool.not_eq_true', ← Bool.not_eq_true, hheap, hmapping]
      omega
    simp only [stage8bVmmGetReservedMappingSlot, hstart]
    rw [if_pos hout, if_neg hwin]

theorem isPageAligned_iff {v : UInt32} :
    stage8bVmmIsPageAligned v = true ↔ v.toNat % 4096 = 0 := by
  rw [stage8bVmmIsPageAligned, decide_eq_true_eq, ← UInt32.toNat_inj, pageOffset_toNat,
    UInt32.toNat_zero]

theorem tableIsEmpty_iff {memory : PageMemory} {table : UInt32} :
    stage8bVmmTableIsEmpty memory table = true ↔
      ∀ i : UInt32, i.toNat < 1024 → memory table i &&& flagPresent = 0 := by
  simp only [stage8bVmmTableIsEmpty, List.all_eq_true, List.mem_range, decide_eq_true_eq]
  constructor
  · intro h i hi
    have := h i.toNat hi
    rwa [UInt32.ofNat_toNat] at this
  · intro h i hi
    have hi' : i < 1024 := hi
    exact h _ (by rw [UInt32.toNat_ofNat', Nat.mod_eq_of_lt (by omega)]; exact hi')

end PageMapper
