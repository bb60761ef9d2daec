import CustomOs.Library.MachineWord
import Mathlib.Data.List.Range

/-! # Page tables and the early identity mapping (Stages 7A and 7B)
Memory that holds page tables is read by table and entry: `memory table i` is the word of entry
`i` of the table at address `table`. The addresses of the static tables are a parameter. -/
namespace Paging

def pageShift : UInt32 := 12
def pageSize : UInt32 := 0x1000
def pageOffsetMask : UInt32 := 0x00000FFF
def frameAddrMask : UInt32 := 0xFFFFF000
def indexMask : UInt32 := 0x000003FF
def ptIndexShift : UInt32 := 12
def pdIndexShift : UInt32 := 22
def entriesPerTable : ℕ := 1024
def flagMask : UInt32 := 0x00000FFF
def flagPresent : UInt32 := 1
def flagWritable : UInt32 := 2

abbrev PageMemory := UInt32 → UInt32 → UInt32

def PageMemory.write (memory : PageMemory) (table i entry : UInt32) : PageMemory :=
  fun t j => if t = table ∧ j = i then entry else memory t j

def stage7aPagingPdIndex (virtualAddr : UInt32) : UInt32 :=
  (virtualAddr >>> pdIndexShift) &&& indexMask

def stage7aPagingPtIndex (virtualAddr : UInt32) : UInt32 :=
  (virtualAddr >>> ptIndexShift) &&& indexMask

def stage7aPagingPageOffset (virtualAddr : UInt32) : UInt32 := virtualAddr &&& pageOffsetMask

def stage7aPagingFrameAddr (addr : UInt32) : UInt32 := addr &&& frameAddrMask

def stage7aPagingMakeEntry (frameAddr flags : UInt32) : UInt32 :=
  stage7aPagingFrameAddr frameAddr ||| (flags &&& flagMask)

/-- Where the linker put the static tables: on distinct 4 KiB pages. -/
structure TableLayout where
  earlyPageDirectory : UInt32
  earlyIdentityPageTable : UInt32
  mutableReservedPageTables : UInt32
  directory_aligned : earlyPageDirectory.toNat % 4096 = 0
  identity_aligned : earlyIdentityPageTable.toNat % 4096 = 0
  reserved_aligned : mutableReservedPageTables.toNat % 4096 = 0
  reserved_fits : mutableReservedPageTables.toNat + 0x3000 ≤ 2 ^ 32
  directory_ne_identity : earlyPageDirectory ≠ earlyIdentityPageTable
  directory_clear : ∀ k < 3, earlyPageDirectory.toNat ≠ mutableReservedPageTables.toNat + 4096 * k
  identity_clear :
    ∀ k < 3, earlyIdentityPageTable.toNat ≠ mutableReservedPageTables.toNat + 4096 * k

/-- `&g_stage8b_mutable_reserved_page_tables[slot]`. -/
def TableLayout.reservedTable (layout : TableLayout) (slot : UInt32) : UInt32 :=
  layout.mutableReservedPageTables + pageSize * slot

/-- The loop shared by `stage7b_clear_page_table`, `stage7b_clear_page_directory` and
`stage8b_vmm_clear_page_table`. -/
def clearTable (memory : PageMemory) (table : UInt32) : PageMemory :=
  (List.range entriesPerTable).foldl
    (fun memory i => memory.write table (UInt32.ofNat i) 0) memory

def stage7bClearPageTable (memory : PageMemory) (table : UInt32) : PageMemory :=
  clearTable memory table

def stage7bClearPageDirectory (memory : PageMemory) (directory : UInt32) : PageMemory :=
  clearTable memory directory

def stage7bSetupEarlyIdentityPaging (layout : TableLayout) (memory : PageMemory) : PageMemory :=
  let baseFlags := flagPresent ||| flagWritable
  let identityTableFrame := stage7aPagingFrameAddr layout.earlyIdentityPageTable
  let memory := stage7bClearPageDirectory memory layout.earlyPageDirectory
  let memory := stage7bClearPageTable memory layout.earlyIdentityPageTable
  let memory := (List.range entriesPerTable).foldl
    (fun memory i => memory.write layout.earlyIdentityPageTable (UInt32.ofNat i)
      (stage7aPagingMakeEntry (UInt32.ofNat i <<< pageShift) baseFlags)) memory
  memory.write layout.earlyPageDirectory 0 (stage7aPagingMakeEntry identityTableFrame baseFlags)

/-- The two-level walk of the processor: directory entry, table entry, page offset. -/
def hardwareWalk (memory : PageMemory) (directory virtualAddr : UInt32) : Option UInt32 :=
  let pde := memory directory (virtualAddr >>> 22)
  if pde &&& flagPresent = 0 then none
  else
    let pte := memory (pde &&& frameAddrMask) ((virtualAddr >>> 12) &&& 0x3FF)
    if pte &&& flagPresent = 0 then none
    else some ((pte &&& frameAddrMask) + (virtualAddr &&& 0xFFF))

/-! ## Words of an entry -/

theorem pdIndex_toNat (v : UInt32) : (stage7aPagingPdIndex v).toNat = v.toNat / 2 ^ 22 := by
  have hv := v.toNat_lt
  rw [stage7aPagingPdIndex, MachineWord.and_mask32 _ 10 rfl,
    MachineWord.shiftRight32 v 22 rfl (by decide)]
  omega

theorem ptIndex_toNat (v : UInt32) :
    (stage7aPagingPtIndex v).toNat = v.toNat / 4096 % 1024 := by
  rw [stage7aPagingPtIndex, MachineWord.and_mask32 _ 10 rfl,
    MachineWord.shiftRight32 v 12 rfl (by decide)]
  simp only [Nat.reducePow]

theorem pageOffset_toNat (v : UInt32) : (stage7aPagingPageOffset v).toNat = v.toNat % 4096 :=
  MachineWord.and_mask32 v 12 rfl

theorem frameAddr_toNat (v : UInt32) :
    (stage7aPagingFrameAddr v).toNat = v.toNat / 4096 * 4096 :=
  MachineWord.and_not_mask32 (m := 0xFFF) v 12 (by decide) rfl

theorem frameAddr_of_aligned {v : UInt32} (h : v.toNat % 4096 = 0) :
    stage7aPagingFrameAddr v = v := by
  apply UInt32.toNat_inj.mp
  rw [frameAddr_toNat]
  omega

/-- The index the processor takes is the one the code computes. -/
theorem pdIndex_eq (addr : UInt32) : addr >>> 22 = stage7aPagingPdIndex addr := by
  apply UInt32.toNat_inj.mp
  rw [pdIndex_toNat, MachineWord.shiftRight32 addr 22 rfl (by decide)]

/-! An address and its page have the same indices. -/

theorem pdIndex_frameAddr (addr : UInt32) :
    stage7aPagingPdIndex (stage7aPagingFrameAddr addr) = stage7aPagingPdIndex addr := by
  have hframe := frameAddr_toNat addr
  apply UInt32.toNat_inj.mp
  rw [pdIndex_toNat, pdIndex_toNat]
  omega

theorem ptIndex_frameAddr (addr : UInt32) :
    stage7aPagingPtIndex (stage7aPagingFrameAddr addr) = stage7aPagingPtIndex addr := by
  have hframe := frameAddr_toNat addr
  apply UInt32.toNat_inj.mp
  rw [ptIndex_toNat, ptIndex_toNat]
  omega

theorem makeEntry_present (p : UInt32) :
    stage7aPagingMakeEntry p (flagPresent ||| flagWritable) &&& flagPresent ≠ 0 := by
  intro h
  have hb := congrArg UInt32.toBitVec h
  have hbit := congrArg (fun b => b.getLsbD 0) hb
  simp [stage7aPagingMakeEntry, stage7aPagingFrameAddr, frameAddrMask, flagPresent, flagWritable,
    flagMask] at hbit

theorem makeEntry_frame {p : UInt32} (h : p.toNat % 4096 = 0) :
    stage7aPagingFrameAddr (stage7aPagingMakeEntry p (flagPresent ||| flagWritable)) = p := by
  have hflags : (flagPresent ||| flagWritable) &&& flagMask = 3 := by decide
  have hlow : (3 : UInt32) &&& frameAddrMask = 0 := by decide
  rw [stage7aPagingMakeEntry, frameAddr_of_aligned h, hflags, stage7aPagingFrameAddr]
  apply UInt32.toBitVec_inj.mp
  have hp := congrArg UInt32.toBitVec (frameAddr_of_aligned h)
  have hlow' := congrArg UInt32.toBitVec hlow
  simp only [stage7aPagingFrameAddr, UInt32.toBitVec_and] at hp hlow'
  simp only [UInt32.toBitVec_and, UInt32.toBitVec_or]
  rw [BitVec.and_or_distrib_right, hp, hlow']
  simp

/-! ## Tables -/

@[simp] theorem write_same (memory : PageMemory) (table i entry : UInt32) :
    memory.write table i entry table i = entry := by simp [PageMemory.write]

theorem write_table_ne (memory : PageMemory) {table t : UInt32} (i j entry : UInt32)
    (h : t ≠ table) : memory.write table i entry t j = memory t j := by
  simp [PageMemory.write, h]

theorem write_index_ne (memory : PageMemory) (table t : UInt32) {i j : UInt32} (entry : UInt32)
    (h : j ≠ i) : memory.write table i entry t j = memory t j := by
  simp [PageMemory.write, h]

/-- Filling a table entry by entry, as the clearing and the identity loops do. -/
theorem fillTable (f : UInt32 → UInt32) (memory : PageMemory) (table : UInt32) (n : ℕ)
    (hn : n ≤ 1024) (t j : UInt32) :
    (List.range n).foldl
      (fun memory i => memory.write table (UInt32.ofNat i) (f (UInt32.ofNat i))) memory t j =
      if t = table ∧ j.toNat < n then f j else memory t j := by
  induction n with
  | zero => simp
  | succ n ih =>
    have hword : (UInt32.ofNat n).toNat = n := by
      rw [UInt32.toNat_ofNat', Nat.mod_eq_of_lt (by omega)]
    have hj : j = UInt32.ofNat n ↔ j.toNat = n := by
      rw [← UInt32.toNat_inj, hword]
    simp only [List.range_succ, List.foldl_append, List.foldl_cons, List.foldl_nil,
      PageMemory.write]
    rw [ih (by omega)]
    by_cases ht : t = table
    · by_cases hjn : j.toNat = n
      · have hlast : j = UInt32.ofNat n := hj.mpr hjn
        rw [if_pos ⟨ht, hlast⟩, if_pos ⟨ht, by omega⟩, ← hlast]
      · have hlast : ¬ (t = table ∧ j = UInt32.ofNat n) := fun hc => hjn (hj.mp hc.2)
        rw [if_neg hlast]
        by_cases hlt : j.toNat < n
        · rw [if_pos ⟨ht, hlt⟩, if_pos ⟨ht, by omega⟩]
        · have h₁ : ¬ (t = table ∧ j.toNat < n) := fun hc => hlt hc.2
          have h₂ : ¬ (t = table ∧ j.toNat < n + 1) := fun hc => by omega
          rw [if_neg h₁, if_neg h₂]
    · simp [ht]

theorem clearTable_apply (memory : PageMemory) (table t j : UInt32) :
    clearTable memory table t j =
      if t = table ∧ j.toNat < 1024 then 0 else memory t j :=
  fillTable (fun _ => 0) memory table 1024 le_rfl t j

theorem reservedTable_toNat (layout : TableLayout) {slot : UInt32} (h : slot.toNat < 3) :
    (layout.reservedTable slot).toNat =
      layout.mutableReservedPageTables.toNat + 4096 * slot.toNat := by
  have hfits := layout.reserved_fits
  have hsize : pageSize.toNat = 4096 := rfl
  have hmul : (pageSize * slot).toNat = 4096 * slot.toNat := by
    rw [UInt32.toNat_mul, hsize, Nat.mod_eq_of_lt (by omega)]
  rw [TableLayout.reservedTable, MachineWord.toNat_add32 (by omega), hmul]

theorem reservedTable_aligned (layout : TableLayout) {slot : UInt32} (h : slot.toNat < 3) :
    (layout.reservedTable slot).toNat % 4096 = 0 := by
  have := layout.reserved_aligned
  rw [reservedTable_toNat layout h]
  omega

theorem reservedTable_ne_directory (layout : TableLayout) {slot : UInt32} (h : slot.toNat < 3) :
    layout.reservedTable slot ≠ layout.earlyPageDirectory := by
  intro heq
  apply layout.directory_clear slot.toNat h
  rw [← heq, reservedTable_toNat layout h]

theorem reservedTable_ne_identity (layout : TableLayout) {slot : UInt32} (h : slot.toNat < 3) :
    layout.reservedTable slot ≠ layout.earlyIdentityPageTable := by
  intro heq
  apply layout.identity_clear slot.toNat h
  rw [← heq, reservedTable_toNat layout h]

theorem reservedTable_inj (layout : TableLayout) {a b : UInt32} (ha : a.toNat < 3)
    (hb : b.toNat < 3) (h : layout.reservedTable a = layout.reservedTable b) : a = b := by
  have heq := congrArg UInt32.toNat h
  rw [reservedTable_toNat layout ha, reservedTable_toNat layout hb] at heq
  apply UInt32.toNat_inj.mp
  omega

end Paging
