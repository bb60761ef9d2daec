import CustomOs.FrameConservation

/-! # The stages before the heap (Stages 5D to 8B)
Four frames are taken from the allocator, the identity mapping is set up and switched on, and
the layout and the page mapper are tried out. From the state the boot is in none of the checks
fails, and the switch to paging does not move the code that makes it. -/
namespace EarlyStages

open MemoryMap FrameEligibility PhysicalFrames PhysicalFrameTracking VmmLayout Paging PageMapper
open PageMapRefinement KernelMemory FrameConservation
open Sweep (sweep)

/-! ## Stage 5D -/

def stage5dTestAllocCount : ℕ := 4

/-- The loop of Stage 5D with so many allocations to go. -/
def allocateTestFrames (frames : Stage5cFrameBookkeeping) : ℕ → Pmm → Pmm
  | 0, pmm => pmm
  | n + 1, pmm =>
    let reply := stage6bPmmAllocFrame frames pmm (some 0)
    if reply.accepted then allocateTestFrames frames n reply.pmm else reply.pmm

def stage5dRunBootAllocationTest (frames : Stage5cFrameBookkeeping) (pmm : Pmm) : Pmm :=
  allocateTestFrames frames stage5dTestAllocCount (stage6aPmmSeedFromStage5c frames pmm)

section BootAllocation

variable {frames : Stage5cFrameBookkeeping} {pmm : Pmm}

theorem allocateTestFrames_tracks (ht : SoundTable frames) (n : ℕ)
    (h : ∃ queue fresh, Tracks frames pmm queue fresh) :
    (∃ queue fresh, Tracks frames (allocateTestFrames frames n pmm) queue fresh) ∧
      nextFrames frames (allocateTestFrames frames n pmm) = (nextFrames frames pmm).drop n := by
  induction n generalizing pmm with
  | zero => exact ⟨h, rfl⟩
  | succ n ih =>
    obtain ⟨queue, fresh, htracks⟩ := h
    rw [allocateTestFrames, nextFrames_eq htracks]
    rcases htracks.alloc ht 0 with
      ⟨f, addr, pmm', queue', fresh', heq, _, hlist, htracks', _⟩ |
      ⟨rfl, rfl, state, heq, htracks', _⟩
    · obtain ⟨hkept, hnext⟩ := ih ⟨queue', fresh', htracks'⟩
      simp only [heq, if_true, hlist, List.drop_succ_cons]
      rw [nextFrames_eq htracks'] at hnext
      exact ⟨hkept, hnext⟩
    · simp only [heq, Bool.false_eq_true, if_false]
      exact ⟨⟨_, _, htracks'⟩, nextFrames_eq htracks'⟩

/-- The frames left for the rest of the boot are those of the map behind the first four. -/
theorem bootAllocation_tracks (ht : SoundTable frames) :
    (∃ queue fresh, Tracks frames (stage5dRunBootAllocationTest frames bootPmm) queue fresh) ∧
      nextFrames frames (stage5dRunBootAllocationTest frames bootPmm) =
        (sweep frames.spans 0).drop 4 := by
  have hseeded : Tracks frames (stage6aPmmSeedFromStage5c frames bootPmm) []
      (sweep frames.spans 0) := seeded_tracks ht
  obtain ⟨htracks, hnext⟩ := allocateTestFrames_tracks ht stage5dTestAllocCount
    ⟨_, _, hseeded⟩
  rw [nextFrames_eq hseeded] at hnext
  exact ⟨htracks, hnext⟩

end BootAllocation

/-! ## Paging -/

structure ControlRegisters where
  cr0 : UInt32
  cr3 : UInt32
  deriving DecidableEq, Repr

def cr0PgMask : UInt32 := 0x80000000

def stage7cLoadCr3WithEarlyPageDirectory (layout : TableLayout) (cpu : ControlRegisters) :
    ControlRegisters :=
  { cpu with cr3 := stage7aPagingFrameAddr layout.earlyPageDirectory }

def stage7cSetCr0PagingEnable (cpu : ControlRegisters) : ControlRegisters :=
  { cpu with cr0 := cpu.cr0 ||| cr0PgMask }

def stage7cRunPagingActivationSelfCheck (layout : TableLayout) (cpu : ControlRegisters) :
    Except Panic ControlRegisters :=
  let expectedCr3 := stage7aPagingFrameAddr layout.earlyPageDirectory
  let cpu := stage7cSetCr0PagingEnable (stage7cLoadCr3WithEarlyPageDirectory layout cpu)
  if stage7aPagingFrameAddr cpu.cr3 ≠ expectedCr3 ∨ cpu.cr0 &&& cr0PgMask = 0 then
    .error ⟨"Stage 7C paging activation failed", cpu.cr0⟩
  else .ok cpu

def probeAddrLowPage : UInt32 := 0x00001000
def probeAddrVgaText : UInt32 := 0x000B8000
def pfAwareAddr : UInt32 := 0x00400000
def identityMapMaxAddr : UInt32 := 0x003FFFFF

/-- The words read through the two probes are only printed. -/
def stage7dRunIdentityValidationSelfCheck (layout : TableLayout) (cpu : ControlRegisters)
    (pages : PageMemory) : Except Panic Unit :=
  let expectedCr3 := stage7aPagingFrameAddr layout.earlyPageDirectory
  let probePte (addr : UInt32) := pages layout.earlyIdentityPageTable (stage7aPagingPtIndex addr)
  let expectedPte (addr : UInt32) := stage7aPagingMakeEntry addr (flagPresent ||| flagWritable)
  if cpu.cr0 &&& cr0PgMask = 0 ∨ stage7aPagingFrameAddr cpu.cr3 ≠ expectedCr3 ∨
      stage7aPagingPdIndex probeAddrLowPage ≠ 0 ∨ stage7aPagingPdIndex probeAddrVgaText ≠ 0 ∨
      pages layout.earlyPageDirectory 0 = 0 ∨
      probePte probeAddrLowPage ≠ expectedPte probeAddrLowPage ∨
      probePte probeAddrVgaText ≠ expectedPte probeAddrVgaText ∨
      stage7aPagingPdIndex pfAwareAddr ≠ 1 ∨ pfAwareAddr ≤ identityMapMaxAddr ∨
      pages layout.earlyPageDirectory 1 ≠ 0 then
    .error ⟨"Stage 7D paging validation failed", cpu.cr0⟩
  else .ok ()

/-- The address that an access reaches: itself while paging is off, else what the walk finds. -/
def translate (cpu : ControlRegisters) (pages : PageMemory) (addr : UInt32) : Option UInt32 :=
  if cpu.cr0 &&& cr0PgMask = 0 then some addr
  else hardwareWalk pages (cpu.cr3 &&& frameAddrMask) addr

/-! ## Layout and mapper -/

/-- The addresses of Stage 8A with the class each is to get. -/
def layoutSamples : List (UInt32 × RegionClass) :=
  [(0x00001000, .activeIdentity), (0x00400000, .futureHeapReserved),
    (0x00800000, .futureMappingReserved), (0x01000000, .unclassified)]

/-- The tests on one sample, by the class it is to get. -/
def sampleOk (addr : UInt32) (expected : RegionClass) : Bool :=
  decide (stage8aClassifyAddr addr = expected) &&
    match expected with
    | .activeIdentity => stage8aIsAddrInActiveIdentity addr
    | .futureHeapReserved => stage8aIsAddrInFutureHeapReserved addr
    | .futureMappingReserved => stage8aIsAddrInFutureMappingReserved addr
    | .unclassified =>
      !stage8aIsAddrInActiveIdentity addr && !stage8aIsAddrInFutureHeapReserved addr &&
      !stage8aIsAddrInFutureMappingReserved addr

def stage8aRunVmmLayoutPolicySelfCheck : Except Panic Unit :=
  if stage8aValidatePolicy &&
      stage8aIsRegionInActiveIdentity activeIdentityStart
        (activeIdentityEndExclusive - activeIdentityStart) &&
      stage8aIsRegionInFutureHeapReserved futureHeapReservedStart
        (futureHeapReservedEndExclusive - futureHeapReservedStart) &&
      stage8aIsRegionInFutureMappingReserved futureMappingReservedStart
        (futureMappingReservedEndExclusive - futureMappingReservedStart) &&
      !stage8aIsRegionInActiveIdentity futureHeapReservedStart vmmLayoutPageSize4k &&
      layoutSamples.all fun sample => sampleOk sample.1 sample.2 then .ok ()
  else .error ⟨"Stage 8A layout policy failed", 0x000800A0⟩

def testVirtualPage : UInt32 := futureMappingReservedStart
def testPhysicalFrame : UInt32 := 0x00300000

/-- Returns the tables as the check leaves them. -/
def stage8bRunVmmMappingInterfaceSelfCheck (layout : TableLayout) (pages : PageMemory) :
    Except Panic PageMemory :=
  let expectedFrame := stage7aPagingFrameAddr testPhysicalFrame
  let initialUnmapped := !stage8bVmmIsPageMapped layout pages testVirtualPage
  let (mapResult, pages) := stage8bVmmMapPage layout pages testVirtualPage expectedFrame
  let resolved := stage8bVmmResolvePageFrame layout pages testVirtualPage (some 0)
  let (unmapResult, pages) := stage8bVmmUnmapPage layout pages testVirtualPage
  let finalUnmapped := !stage8bVmmIsPageMapped layout pages testVirtualPage
  if initialUnmapped && mapResult && resolved = (true, some expectedFrame) && unmapResult &&
      finalUnmapped then .ok pages
  else .error ⟨"Stage 8B mapping interface failed", 0x000800B0⟩

/-! ## None of the checks fails -/

section Passing

variable {layout : TableLayout} {cpu : ControlRegisters} {pages : PageMemory} {map : PageMap}

theorem frameAddr_frameAddr (addr : UInt32) :
    stage7aPagingFrameAddr (stage7aPagingFrameAddr addr) = stage7aPagingFrameAddr addr := by
  apply frameAddr_of_aligned
  rw [frameAddr_toNat]
  omega

theorem pg_set (cpu : ControlRegisters) :
    (stage7cSetCr0PagingEnable cpu).cr0 &&& cr0PgMask ≠ 0 := by
  intro h
  have hbit := congrArg (fun w : UInt32 => w.toBitVec.getLsbD 31) h
  simp [stage7cSetCr0PagingEnable, cr0PgMask] at hbit

def activated (layout : TableLayout) (cpu : ControlRegisters) : ControlRegisters :=
  stage7cSetCr0PagingEnable (stage7cLoadCr3WithEarlyPageDirectory layout cpu)

theorem activation_passes (layout : TableLayout) (cpu : ControlRegisters) :
    stage7cRunPagingActivationSelfCheck layout cpu = .ok (activated layout cpu) := by
  have hframe : stage7aPagingFrameAddr (activated layout cpu).cr3 =
      stage7aPagingFrameAddr layout.earlyPageDirectory := frameAddr_frameAddr _
  have hpg : (activated layout cpu).cr0 &&& cr0PgMask ≠ 0 := pg_set _
  exact if_neg (not_or.mpr ⟨not_not.mpr hframe, hpg⟩)

theorem unmapped_entry (h : Refines layout pages fun _ => none) :
    pages layout.earlyPageDirectory 1 = 0 := by
  cases h.slot 1 (by decide) (by decide) with
  | unlinked entry free => exact entry
  | linked entry table used =>
    obtain ⟨_, _, hused⟩ := used
    exact absurd rfl hused

theorem identityValidation_passes (h : Refines layout pages fun _ => none) :
    stage7dRunIdentityValidationSelfCheck layout (activated layout cpu) pages = .ok () := by
  have hpg : (activated layout cpu).cr0 &&& cr0PgMask ≠ 0 := pg_set _
  have hframe : stage7aPagingFrameAddr (activated layout cpu).cr3 =
      stage7aPagingFrameAddr layout.earlyPageDirectory := frameAddr_frameAddr _
  have hdirectory : pages layout.earlyPageDirectory 0 ≠ 0 := by
    rw [h.identity_entry]
    intro hzero
    apply makeEntry_present layout.earlyIdentityPageTable
    rw [hzero]
    rfl
  have hlow := h.identity_table (stage7aPagingPtIndex probeAddrLowPage) (by decide)
  have hvga := h.identity_table (stage7aPagingPtIndex probeAddrVgaText) (by decide)
  have hnext := unmapped_entry h
  simp only [stage7dRunIdentityValidationSelfCheck, hframe, hlow, hvga, hnext]
  apply if_neg
  simp only [not_or, not_not]
  refine ⟨hpg, trivial, ?_, ?_, hdirectory, ?_, ?_, ?_, ?_, trivial⟩ <;> decide

theorem layoutPolicy_passes : stage8aRunVmmLayoutPolicySelfCheck = .ok () := by rfl

/-- The page that is mapped and unmapped again leaves the map as it was. -/
theorem mappingInterface_passes (h : Refines layout pages map)
    (hfree : map testVirtualPage = none) :
    ∃ pages', stage8bRunVmmMappingInterfaceSelfCheck layout pages = .ok pages' ∧
      Refines layout pages' map := by
  have hpage : MutablePage testVirtualPage := by decide
  have haligned : (stage7aPagingFrameAddr testPhysicalFrame).toNat % 4096 = 0 := by decide
  obtain ⟨hmap, _, hmapped⟩ := h.mapPage testVirtualPage (stage7aPagingFrameAddr testPhysicalFrame)
  have hmapResult := hmap.mpr ⟨hpage, haligned, hfree⟩
  have h₁ := hmapped hmapResult
  obtain ⟨hunmap, _, hunmapped⟩ := h₁.unmapPage testVirtualPage
  have hunmapResult := hunmap.mpr ⟨hpage, by simp⟩
  have h₂ := hunmapped hunmapResult
  have hinitial := h.isPageMapped hpage
  have hresolve := h₁.resolve hpage 0
  have hfinal := h₂.isPageMapped hpage
  simp only [hfree, Option.isSome_none] at hinitial
  simp only [PageMap.set_same, Option.isSome_none] at hresolve hfinal
  have hback : (map.set testVirtualPage (some (stage7aPagingFrameAddr testPhysicalFrame))).set
      testVirtualPage none = map := by
    funext v
    by_cases hv : v = testVirtualPage
    · rw [hv, PageMap.set_same, hfree]
    · rw [PageMap.set_ne _ _ hv, PageMap.set_ne _ _ hv]
  rw [hback] at h₂
  refine ⟨_, ?_, h₂⟩
  simp only [stage8bRunVmmMappingInterfaceSelfCheck, hinitial, hmapResult, hresolve, hunmapResult,
    hfinal]
  rfl

/-- Switching paging on moves no address below 4 MiB, and leaves the others to the map. -/
theorem activation_transparent (h : Refines layout pages map) (cpu : ControlRegisters)
    (addr : UInt32) :
    translate (activated layout cpu) pages addr =
      if addr.toNat < 0x400000 then some addr
      else (map (stage7aPagingFrameAddr addr)).map (· + stage7aPagingPageOffset addr) := by
  have hpg : (activated layout cpu).cr0 &&& cr0PgMask ≠ 0 := pg_set _
  have hcr3 : (activated layout cpu).cr3 &&& frameAddrMask = layout.earlyPageDirectory := by
    have hdirectory := frameAddr_of_aligned layout.directory_aligned
    exact (frameAddr_frameAddr _).trans hdirectory
  rw [translate, if_neg hpg, hcr3]
  exact h.hardwareWalk addr

end Passing

end EarlyStages
