import CustomOs.Library.MachineWord
import CustomOs.Library.Sweep

/-! # Memory map and frame bookkeeping (Stages 5B and 5C)
The fixed arrays of regions and ranges are lists with the source's capacity checks: a stored
count is the length of its list. The two linker symbols are parameters of Stage 5C. -/
namespace MemoryMap

open Sweep (Span)

/-- The text and the detail word that `panic` prints before it halts the machine. -/
structure Panic where
  reason : String
  detail : UInt32
  deriving DecidableEq, Repr

def uint64Max : UInt64 := 0xFFFFFFFFFFFFFFFF
def multiboot2MemoryAvailable : UInt32 := 1
def stage5bMaxRegions : ℕ := 128
def stage5bPolicyMinAddr : UInt64 := 0x00100000
def stage5bRegionFlagRawUsable : UInt32 := 0x01
def stage5bRegionFlagPolicyUsable : UInt32 := 0x02
def stage5cMaxRanges : ℕ := 128
def stage5cFrameShift : UInt64 := 12
def stage5cFrameSize : UInt64 := 0x1000

/-- `__kernel_phys_start` as the linker script fixes it: `. = 1M`. -/
def kernelPhysStart : UInt32 := 0x00100000

structure Multiboot2MmapEntry where
  baseAddr : UInt64
  length : UInt64
  type : UInt32
  reserved : UInt32
  deriving DecidableEq, Repr

structure Stage5bRegion where
  baseAddr : UInt64
  length : UInt64
  endAddr : UInt64
  multibootType : UInt32
  flags : UInt32
  deriving DecidableEq, Repr

structure Stage5bMemoryBookkeeping where
  regions : List Stage5bRegion
  droppedRegions : UInt32
  rawUsableBytes : UInt64
  rawReservedBytes : UInt64
  policyUsableBytes : UInt64
  highestUsableEnd : UInt64
  deriving DecidableEq, Repr

structure Stage5cFrameRange where
  startFrame : UInt64
  frameCount : UInt64
  deriving DecidableEq, Repr

structure Stage5cFrameBookkeeping where
  ranges : List Stage5cFrameRange
  droppedRanges : UInt32
  eligibleFrames : UInt64
  highestEligibleFrame : UInt64
  highestEligibleAddr : UInt64
  kernelReservedStart : UInt64
  kernelReservedEnd : UInt64
  deriving DecidableEq, Repr

def addClampU64 (accumulator increment : UInt64) : UInt64 :=
  let sum := accumulator + increment
  if sum < accumulator then uint64Max else sum

/-- The flag is the C return value: true when the sum carried. -/
def checkedAddU64 (a b : UInt64) : Bool × UInt64 := (decide (a + b < a), a + b)

def stage5bResetBookkeeping : Stage5bMemoryBookkeeping := ⟨[], 0, 0, 0, 0, 0⟩

def stage5bRecordRegion (memory : Stage5bMemoryBookkeeping) (region : Stage5bRegion) :
    Stage5bMemoryBookkeeping :=
  if stage5bMaxRegions ≤ memory.regions.length then
    { memory with droppedRegions := memory.droppedRegions + 1 }
  else
    { memory with regions := memory.regions ++ [region] }

def stage5bPolicyUsableLength (base length : UInt64) (type : UInt32) : UInt64 :=
  if type ≠ multiboot2MemoryAvailable ∨ length = 0 then 0
  else
    let (overflow, last) := checkedAddU64 base length
    if overflow then 0
    else if last ≤ stage5bPolicyMinAddr then 0
    else if stage5bPolicyMinAddr ≤ base then length
    else last - stage5bPolicyMinAddr

def stage5bRegionEnd (entry : Multiboot2MmapEntry) : UInt64 :=
  let (overflow, sum) := checkedAddU64 entry.baseAddr entry.length
  if overflow then uint64Max else sum

/-- The record that `stage5b_account_entry` passes to `stage5b_record_region`. -/
def stage5bRegionOf (entry : Multiboot2MmapEntry) : Stage5bRegion :=
  let rawFlag := if entry.type = multiboot2MemoryAvailable then stage5bRegionFlagRawUsable else 0
  let policyFlag :=
    if 0 < stage5bPolicyUsableLength entry.baseAddr entry.length entry.type
    then stage5bRegionFlagPolicyUsable else 0
  ⟨entry.baseAddr, entry.length, stage5bRegionEnd entry, entry.type, rawFlag ||| policyFlag⟩

def stage5bAccountEntry (memory : Stage5bMemoryBookkeeping) (entry : Multiboot2MmapEntry) :
    Stage5bMemoryBookkeeping :=
  let regionEnd := stage5bRegionEnd entry
  let policyUsableLength := stage5bPolicyUsableLength entry.baseAddr entry.length entry.type
  let memory :=
    if 0 < policyUsableLength then
      { memory with
        policyUsableBytes := addClampU64 memory.policyUsableBytes policyUsableLength
        highestUsableEnd :=
          if memory.highestUsableEnd < regionEnd then regionEnd else memory.highestUsableEnd }
    else memory
  stage5bRecordRegion memory (stage5bRegionOf entry)

/-- The Stage 5B bookkeeping of a whole map, one entry after another. -/
def stage5bAccountEntries (entries : List Multiboot2MmapEntry) : Stage5bMemoryBookkeeping :=
  entries.foldl stage5bAccountEntry stage5bResetBookkeeping

def stage5cResetBookkeeping : Stage5cFrameBookkeeping := ⟨[], 0, 0, 0, 0, 0, 0⟩

def stage5cRecordRange (frames : Stage5cFrameBookkeeping) (startFrame frameCount : UInt64) :
    Stage5cFrameBookkeeping :=
  if stage5cMaxRanges ≤ frames.ranges.length then
    { frames with droppedRanges := frames.droppedRanges + 1 }
  else
    { frames with ranges := frames.ranges ++ [⟨startFrame, frameCount⟩] }

def stage5cAlignUp4k (value : UInt64) : Bool × UInt64 :=
  let (overflow, rounded) := checkedAddU64 value (stage5cFrameSize - 1)
  if overflow then (true, uint64Max) else (false, rounded &&& ~~~(stage5cFrameSize - 1))

def stage5cRecordEligibleSpan (frames : Stage5cFrameBookkeeping) (startAddr endAddr : UInt64) :
    Stage5cFrameBookkeeping :=
  if endAddr ≤ startAddr then frames
  else
    let (overflow, startAddr) := stage5cAlignUp4k startAddr
    if overflow then frames
    else
      let endAddr := endAddr &&& ~~~(stage5cFrameSize - 1)
      if endAddr ≤ startAddr then frames
      else
        let frameCount := (endAddr - startAddr) >>> stage5cFrameShift
        let startFrame := startAddr >>> stage5cFrameShift
        let highestFrameAddr := endAddr - stage5cFrameSize
        let highestFrame := highestFrameAddr >>> stage5cFrameShift
        let frames := stage5cRecordRange frames startFrame frameCount
        let frames :=
          { frames with eligibleFrames := addClampU64 frames.eligibleFrames frameCount }
        if frames.highestEligibleFrame < highestFrame then
          { frames with
            highestEligibleFrame := highestFrame, highestEligibleAddr := highestFrameAddr }
        else frames

/-- One iteration of the region loop of `stage5c_prepare_frame_bookkeeping`. -/
def stage5cRegionIteration (frames : Stage5cFrameBookkeeping) (region : Stage5bRegion) :
    Stage5cFrameBookkeeping :=
  let kernelReservedStart := frames.kernelReservedStart
  let kernelReservedEnd := frames.kernelReservedEnd
  if region.flags &&& stage5bRegionFlagPolicyUsable = 0 then frames
  else if region.multibootType ≠ multiboot2MemoryAvailable then frames
  else
    let startAddr :=
      if region.baseAddr < stage5bPolicyMinAddr then stage5bPolicyMinAddr else region.baseAddr
    let endAddr := region.endAddr
    if endAddr ≤ startAddr then frames
    else if endAddr ≤ kernelReservedStart ∨ kernelReservedEnd ≤ startAddr then
      stage5cRecordEligibleSpan frames startAddr endAddr
    else
      let frames :=
        if startAddr < kernelReservedStart then
          stage5cRecordEligibleSpan frames startAddr kernelReservedStart
        else frames
      if kernelReservedEnd < endAddr then
        stage5cRecordEligibleSpan frames kernelReservedEnd endAddr
      else frames

def stage5cPrepareFrameBookkeeping (kernelPhysStart kernelPhysEnd : UInt32)
    (memory : Stage5bMemoryBookkeeping) : Except Panic Stage5cFrameBookkeeping :=
  let kernelReservedStart := kernelPhysStart.toUInt64 &&& ~~~(stage5cFrameSize - 1)
  let (overflow, kernelReservedEnd) := stage5cAlignUp4k kernelPhysEnd.toUInt64
  if overflow ∨ kernelReservedEnd ≤ kernelReservedStart then
    .error ⟨"invalid kernel reservation bounds", 0x000500C0⟩
  else
    .ok (memory.regions.foldl stage5cRegionIteration
      { stage5cResetBookkeeping with
        kernelReservedStart := kernelReservedStart, kernelReservedEnd := kernelReservedEnd })

/-- The frames of a stored range as a half-open span of numbers. -/
def Stage5cFrameRange.span (range : Stage5cFrameRange) : Span :=
  ⟨range.startFrame.toNat, range.frameCount.toNat⟩

def Stage5cFrameBookkeeping.spans (frames : Stage5cFrameBookkeeping) : List Span :=
  frames.ranges.map Stage5cFrameRange.span

/-! ## Words as numbers -/

theorem addClampU64_toNat {a b : UInt64} (h : a.toNat + b.toNat < 2 ^ 64) :
    (addClampU64 a b).toNat = a.toNat + b.toNat := by
  have hn : ¬ a + b < a := fun hc => by have := MachineWord.add64_lt_iff.mp hc; omega
  simp only [addClampU64, hn, if_false]
  exact MachineWord.toNat_add64 h

theorem checkedAddU64_fst (a b : UInt64) :
    (checkedAddU64 a b).1 = true ↔ 2 ^ 64 ≤ a.toNat + b.toNat := by
  simp only [checkedAddU64, decide_eq_true_eq]
  exact MachineWord.add64_lt_iff

theorem checkedAddU64_snd {a b : UInt64} (h : (checkedAddU64 a b).1 = false) :
    (checkedAddU64 a b).2.toNat = a.toNat + b.toNat ∧ a.toNat + b.toNat < 2 ^ 64 := by
  have hlt : a.toNat + b.toNat < 2 ^ 64 := by
    by_contra hc
    have := (checkedAddU64_fst a b).mpr (by omega)
    simp [this] at h
  exact ⟨MachineWord.toNat_add64 hlt, hlt⟩

theorem frameSize_mask_toNat : (stage5cFrameSize - 1).toNat = 4095 := rfl

theorem alignDown_toNat (x : UInt64) :
    (x &&& ~~~(stage5cFrameSize - 1)).toNat = x.toNat / 4096 * 4096 :=
  MachineWord.and_not_mask64 x 12 (by decide) frameSize_mask_toNat

theorem frameShift_toNat (x : UInt64) : (x >>> stage5cFrameShift).toNat = x.toNat / 4096 :=
  MachineWord.shiftRight64 x 12 rfl (by decide)

theorem frameShift_left {frame : UInt64} (h : frame.toNat < 2 ^ 52) :
    (frame <<< stage5cFrameShift).toNat = 4096 * frame.toNat := by
  rw [MachineWord.shiftLeft64 frame 12 rfl (by decide) (by omega)]
  omega

theorem alignUp4k_overflow (x : UInt64) :
    (stage5cAlignUp4k x).1 = true ↔ 2 ^ 64 ≤ x.toNat + 4095 := by
  have hc := checkedAddU64_fst x (stage5cFrameSize - 1)
  rw [frameSize_mask_toNat] at hc
  rw [stage5cAlignUp4k]
  cases h : (checkedAddU64 x (stage5cFrameSize - 1)).1
  · simp only [h, Bool.false_eq_true, if_false, false_iff]
    rw [h] at hc
    simpa using hc
  · simp only [h, if_true, true_iff]
    exact hc.mp h

theorem alignUp4k_toNat {x : UInt64} (h : (stage5cAlignUp4k x).1 = false) :
    (stage5cAlignUp4k x).2.toNat = (x.toNat + 4095) / 4096 * 4096 ∧ x.toNat + 4095 < 2 ^ 64 := by
  have hlt : x.toNat + 4095 < 2 ^ 64 := by
    by_contra hc
    have := (alignUp4k_overflow x).mpr (by omega)
    simp [this] at h
  have hf : (checkedAddU64 x (stage5cFrameSize - 1)).1 = false := by
    rw [← Bool.not_eq_true, checkedAddU64_fst, frameSize_mask_toNat]
    omega
  refine ⟨?_, hlt⟩
  simp only [stage5cAlignUp4k, hf, Bool.false_eq_true, if_false, alignDown_toNat]
  rw [(checkedAddU64_snd hf).1, frameSize_mask_toNat]

end MemoryMap
