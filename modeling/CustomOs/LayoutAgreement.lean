import CustomOs.PageMapper
import Mathlib.Order.Interval.Set.LinearOrder

/-! # Regions, classes and slots agree
Each window is a set of addresses. The region checks decide inclusion in it and the
classification decides membership; the slot lookup succeeds on the two reserved windows and
numbers their pages one to one. -/
namespace LayoutAgreement

open Paging VmmLayout PageMapper

inductive LayoutWindow where
  | activeIdentity
  | futureHeapReserved
  | futureMappingReserved
  deriving DecidableEq, Repr

def LayoutWindow.regionClass : LayoutWindow → RegionClass
  | .activeIdentity => .activeIdentity
  | .futureHeapReserved => .futureHeapReserved
  | .futureMappingReserved => .futureMappingReserved

/-- The region check of the window. -/
def LayoutWindow.isRegionIn : LayoutWindow → UInt32 → UInt32 → Bool
  | .activeIdentity => stage8aIsRegionInActiveIdentity
  | .futureHeapReserved => stage8aIsRegionInFutureHeapReserved
  | .futureMappingReserved => stage8aIsRegionInFutureMappingReserved

def LayoutWindow.addresses : LayoutWindow → Set ℕ
  | .activeIdentity => Set.Ico 0 0x400000
  | .futureHeapReserved => Set.Ico 0x400000 0x800000
  | .futureMappingReserved => Set.Ico 0x800000 0x1000000

/-- The addresses of a region, not reduced modulo `2 ^ 32`. -/
def regionAddresses (startAddr length : UInt32) : Set ℕ :=
  Set.Ico startAddr.toNat (startAddr.toNat + length.toNat)

variable {startAddr length lower upper v w : UInt32}

/-! ## Regions -/

/-- The end of a region is computed exactly when there is one and it is a word. -/
theorem computeRegionEnd_eq (startAddr length : UInt32) :
    stage8aComputeRegionEnd startAddr length =
      if 0 < length.toNat ∧ startAddr.toNat + length.toNat < 2 ^ 32 then some (startAddr + length)
      else none := by
  have hs := startAddr.toNat_lt
  have hl := length.toNat_lt
  have hsum : (startAddr.toUInt64 + length.toUInt64).toNat =
      startAddr.toNat + length.toNat := by
    rw [MachineWord.toNat_add64] <;> simp only [UInt32.toNat_toUInt64]
    omega
  have hmax : (0xFFFFFFFF : UInt64).toNat = 2 ^ 32 - 1 := rfl
  have hword : (startAddr.toUInt64 + length.toUInt64).toUInt32 = startAddr + length := by
    rw [← UInt32.toNat_inj, UInt64.toNat_toUInt32, hsum, UInt32.toNat_add]
  simp only [stage8aComputeRegionEnd, hword]
  by_cases hzero : length = 0
  · rw [if_pos hzero, if_neg]
    simp [hzero]
  have hpos := MachineWord.ne_zero32_iff.mp hzero
  rw [if_neg hzero]
  by_cases hfits : startAddr.toNat + length.toNat < 2 ^ 32
  · have hlow : ¬ (0xFFFFFFFF : UInt64) < startAddr.toUInt64 + length.toUInt64 := by
      rw [UInt64.lt_iff_toNat_lt, hsum, hmax]
      omega
    rw [if_neg hlow, if_pos ((MachineWord.lt_add32_iff hpos).mpr hfits), if_pos ⟨hpos, hfits⟩]
  · have hhigh : (0xFFFFFFFF : UInt64) < startAddr.toUInt64 + length.toUInt64 := by
      rw [UInt64.lt_iff_toNat_lt, hsum, hmax]
      omega
    rw [if_pos hhigh, if_neg fun hc => hfits hc.2]

/-- The check of a region is inclusion of its addresses, of which there is one at least. -/
theorem regionInHalfOpenRange_iff :
    stage8aRegionInHalfOpenRange startAddr length lower upper = true ↔
      0 < length.toNat ∧ regionAddresses startAddr length ⊆ Set.Ico lower.toNat upper.toNat := by
  have hupper := upper.toNat_lt
  rw [stage8aRegionInHalfOpenRange, computeRegionEnd_eq]
  by_cases hpos : 0 < length.toNat
  · rw [regionAddresses, Set.Ico_subset_Ico_iff (by omega)]
    by_cases hfits : startAddr.toNat + length.toNat < 2 ^ 32
    · rw [if_pos ⟨hpos, hfits⟩]
      simp only [decide_eq_true_eq, UInt32.le_iff_toNat_le, MachineWord.toNat_add32 hfits, hpos,
        true_and]
    · rw [if_neg fun hc => hfits hc.2]
      simp only [Bool.false_eq_true, false_iff]
      omega
  · rw [if_neg fun hc => hpos hc.1]
    simp [hpos]

theorem isRegionIn_iff (window : LayoutWindow) :
    window.isRegionIn startAddr length = true ↔
      0 < length.toNat ∧ regionAddresses startAddr length ⊆ window.addresses := by
  cases window <;> exact regionInHalfOpenRange_iff

/-! ## Classes -/

theorem addresses_lt (window : LayoutWindow) {a : ℕ} (h : a ∈ window.addresses) : a < 2 ^ 32 := by
  cases window <;> exact lt_trans h.2 (by decide)

/-- The windows do not meet, so the first one that matches is the only one. -/
theorem classifyAddr_iff (window : LayoutWindow) :
    stage8aClassifyAddr v = window.regionClass ↔ v.toNat ∈ window.addresses := by
  have hidentity : stage8aIsAddrInActiveIdentity v = true ↔ v.toNat < 0x400000 := by
    rw [stage8aIsAddrInActiveIdentity, addrInHalfOpenRange_iff]
    exact and_iff_right (Nat.zero_le _)
  simp only [stage8aClassifyAddr, hidentity, isAddrInFutureHeapReserved_iff,
    isAddrInFutureMappingReserved_iff]
  cases window <;> simp only [LayoutWindow.regionClass, LayoutWindow.addresses, Set.mem_Ico]
  all_goals
    split_ifs <;> simp only [false_iff, true_iff] <;> omega

/-! ## Slots -/

theorem reservedMappingSlot_iff :
    (∃ slot, stage8bVmmGetReservedMappingSlot v = some slot) ↔
      stage8aClassifyAddr v = .futureHeapReserved ∨
        stage8aClassifyAddr v = .futureMappingReserved := by
  have hheap := classifyAddr_iff (v := v) .futureHeapReserved
  have hmapping := classifyAddr_iff (v := v) .futureMappingReserved
  simp only [LayoutWindow.regionClass, LayoutWindow.addresses, Set.mem_Ico] at hheap hmapping
  rw [hheap, hmapping, getReservedMappingSlot_eq]
  split_ifs with hwindow
  · simp only [Option.some.injEq, exists_eq', true_iff]
    omega
  · simp only [exists_false, false_iff]
    omega

/-- A page in numbers: its directory slot and its place in the table of the slot. -/
theorem reservedMappingSlot_toNat {pdIndex tableSlot : UInt32}
    (h : stage8bVmmGetReservedMappingSlot v = some (pdIndex, tableSlot)) :
    tableSlot.toNat < 3 ∧ v.toNat / 4096 =
      (tableSlot.toNat + 1) * 1024 + (stage7aPagingPtIndex v).toNat := by
  rw [getReservedMappingSlot_eq] at h
  split_ifs at h with hwindow
  obtain ⟨rfl, rfl⟩ := Prod.mk.inj (Option.some.inj h)
  have hpd := pdIndex_toNat v
  have hslot : (stage7aPagingPdIndex v - 1).toNat = v.toNat / 2 ^ 22 - 1 := by
    rw [UInt32.toNat_sub_of_le _ _ (by rw [UInt32.le_iff_toNat_le, hpd, UInt32.toNat_one]; omega),
      hpd, UInt32.toNat_one]
  rw [hslot, ptIndex_toNat]
  omega

theorem windows_agree :
    (∀ (window : LayoutWindow) (startAddr length : UInt32),
      window.isRegionIn startAddr length = true ↔
        0 < length ∧ ∀ a : ℕ, startAddr.toNat ≤ a → a < startAddr.toNat + length.toNat →
          a < 2 ^ 32 ∧ stage8aClassifyAddr (UInt32.ofNat a) = window.regionClass) ∧
    (∀ v, (∃ slot, stage8bVmmGetReservedMappingSlot v = some slot) ↔
      stage8aClassifyAddr v = .futureHeapReserved ∨
        stage8aClassifyAddr v = .futureMappingReserved) ∧
    (∀ v pdIndex tableSlot, stage8bVmmGetReservedMappingSlot v = some (pdIndex, tableSlot) →
      tableSlot < 3 ∧ stage7aPagingPtIndex v < 1024) ∧
    ∀ v w pdIndex tableSlot pdIndex' tableSlot',
      stage8bVmmGetReservedMappingSlot v = some (pdIndex, tableSlot) →
      stage8bVmmGetReservedMappingSlot w = some (pdIndex', tableSlot') →
      stage7aPagingFrameAddr v ≠ stage7aPagingFrameAddr w →
      (tableSlot, stage7aPagingPtIndex v) ≠ (tableSlot', stage7aPagingPtIndex w) := by
  refine ⟨fun window startAddr length => ?_, fun v => reservedMappingSlot_iff,
    fun v pdIndex tableSlot h => ?_,
    fun v w pdIndex tableSlot pdIndex' tableSlot' h k hne heq => ?_⟩
  · have hpos : 0 < length.toNat ↔ 0 < length := by rw [UInt32.lt_iff_toNat_lt, UInt32.toNat_zero]
    rw [isRegionIn_iff]
    refine and_congr hpos ⟨fun hsub a hlow hhigh => ?_, fun hall a ha => ?_⟩
    · have ha := hsub ⟨hlow, hhigh⟩
      have hlt := addresses_lt window ha
      refine ⟨hlt, (classifyAddr_iff window).mpr ?_⟩
      rwa [UInt32.toNat_ofNat', Nat.mod_eq_of_lt hlt]
    · obtain ⟨hlt, hclass⟩ := hall a ha.1 ha.2
      have hmem := (classifyAddr_iff window).mp hclass
      rwa [UInt32.toNat_ofNat', Nat.mod_eq_of_lt hlt] at hmem
  · have hindex := ptIndex_toNat v
    rw [UInt32.lt_iff_toNat_lt, UInt32.lt_iff_toNat_lt, hindex]
    exact ⟨(reservedMappingSlot_toNat h).1, Nat.mod_lt _ (by decide)⟩
  · obtain ⟨rfl, hindex⟩ := Prod.mk.inj heq
    have hv := (reservedMappingSlot_toNat h).2
    have hw := (reservedMappingSlot_toNat k).2
    rw [hindex, ← hw] at hv
    apply hne
    rw [← UInt32.toNat_inj, frameAddr_toNat, frameAddr_toNat, hv]

end LayoutAgreement
