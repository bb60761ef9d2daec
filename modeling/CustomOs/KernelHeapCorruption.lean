import CustomOs.KernelHeapRepresentation
import CustomOs.Library.CheckedMemory

/-! # Header walks on corrupted memory
Both walks again, with arithmetic and accesses that fault: a word operation that wraps, or an
access outside the used part of the heap, stops the program. Whatever the memory holds, they
do not fault and end within as many iterations as the smallest blocks would need. -/
namespace KernelHeapCorruption

open ByteMemory Loop CheckedMemory KernelHeap KernelHeapTiling KernelHeapCalls
open KernelHeapIsolation KernelHeapRepresentation

/-- The addresses a walk may touch. -/
def usedWindow (state : Stage8cKheapState) : Window := ⟨state.start.toNat, state.current.toNat⟩

/-! ## The walks with faults -/

def checkedIteration {ρ : Type} (state : Stage8cKheapState) (memory : Memory)
    (finished corrupt : ρ) (visit : UInt32 → UInt32 → UInt32 → UInt32 → Option (Option ρ))
    (cursor : UInt32) : Option (Iteration UInt32 ρ) :=
  if ¬ cursor < state.current then some (.leave finished)
  else do
    let lastHeader ← subChecked state.current allocationHeaderSize
    if lastHeader < cursor then some (.leave corrupt)
    else do
      let magic ← loadField (usedWindow state) memory cursor 0
      if magic ≠ allocationHeaderMagic then some (.leave corrupt)
      else do
        let payloadSize ← loadField (usedWindow state) memory cursor 4
        if payloadSize = 0 ∨ payloadSize &&& (kheapMinAlignment - 1) ≠ 0 then
          some (.leave corrupt)
        else do
          let payloadStart ← addChecked cursor allocationHeaderSize
          let room ← subChecked state.current payloadStart
          if room < payloadSize then some (.leave corrupt)
          else do
            let payloadEndExclusive ← addChecked payloadStart payloadSize
            match ← visit cursor payloadStart payloadSize payloadEndExclusive with
            | some result => some (.leave result)
            | none =>
              if payloadEndExclusive ≤ cursor then some (.leave corrupt)
              else some (.next payloadEndExclusive)

def checkedTakeBlock (w : Window) (memory : Memory)
    (header payloadStart payloadSize alignedSize : UInt32) : Option Memory := do
  let remainder ← subChecked payloadSize alignedSize
  if allocationHeaderSize + kheapMinAlignment ≤ remainder then do
    let splitHeaderStart ← addChecked payloadStart alignedSize
    let memory ← storeField w memory header 4 alignedSize
    let memory ← storeField w memory header 8 allocationStateAllocated
    let memory ← storeField w memory splitHeaderStart 0 allocationHeaderMagic
    let splitPayloadSize ← subChecked remainder allocationHeaderSize
    let memory ← storeField w memory splitHeaderStart 4 splitPayloadSize
    let memory ← storeField w memory splitHeaderStart 8 allocationStateFreed
    storeField w memory splitHeaderStart 12 0
  else storeField w memory header 8 allocationStateAllocated

def checkedReuseVisit (w : Window) (memory : Memory)
    (alignedSize header payloadStart payloadSize _end : UInt32) :
    Option (Option ReuseOutcome) := do
  let state ← loadField w memory header 8
  if state = allocationStateFreed ∧ alignedSize ≤ payloadSize then do
    let memory ← checkedTakeBlock w memory header payloadStart payloadSize alignedSize
    some (some ⟨1, payloadStart, memory⟩)
  else some none

def checkedFreeVisit (w : Window) (memory : Memory)
    (targetPtr header payloadStart _size payloadEndExclusive : UInt32) :
    Option (Option (Bool × Memory)) :=
  if targetPtr = payloadStart then do
    let state ← loadField w memory header 8
    if state ≠ allocationStateAllocated then some (some (false, memory))
    else do
      let memory ← storeField w memory header 8 allocationStateFreed
      some (some (true, memory))
  else if payloadStart < targetPtr ∧ targetPtr < payloadEndExclusive then
    some (some (false, memory))
  else some none

/-- The walk of the reuse scan within `fuel` iterations; the inner `none` is a fault. -/
def checkedReuse (fuel : ℕ) (state : Stage8cKheapState) (memory : Memory)
    (alignedSize : UInt32) : Option (Option ReuseOutcome) :=
  run (guarded (checkedIteration state memory ⟨0, 0, memory⟩ ⟨-1, 0, memory⟩
    (checkedReuseVisit (usedWindow state) memory alignedSize))) fuel state.start

def checkedFree (fuel : ℕ) (state : Stage8cKheapState) (memory : Memory) (ptr : UInt32) :
    Option (Option (Bool × Memory)) :=
  if state.isInitialized = false ∨ ptr = 0 then some (some (false, memory))
  else if ptr < state.start ∨ state.current ≤ ptr then some (some (false, memory))
  else
    run (guarded (checkedIteration state memory (false, memory) (false, memory)
      (checkedFreeVisit (usedWindow state) memory ptr))) fuel state.start

/-- The most blocks the used part could hold, and one more look at the end. -/
def walkBound (state : Stage8cKheapState) : ℕ :=
  (state.current.toNat - state.start.toNat) / 24 + 1

/-! ## One iteration -/

/-- What every reachable heap says about the used part, whatever its bytes. -/
structure Used (state : Stage8cKheapState) : Prop where
  low : 16 ≤ state.start.toNat
  le : state.start.toNat ≤ state.current.toNat
  aligned : state.start.toNat % 8 = 0

/-- The checks passed for the header at `cursor`. -/
structure Passes (state : Stage8cKheapState) (memory : Memory) (cursor size : UInt32) : Prop where
  magic : headerMagic memory cursor = allocationHeaderMagic
  size_eq : headerPayloadSize memory cursor = size
  pos : 0 < size.toNat
  multiple : size.toNat % 8 = 0
  fits : cursor.toNat + 16 + size.toNat ≤ state.current.toNat

section Step

variable {ρ : Type} {state : Stage8cKheapState} {memory : Memory} {finished corrupt : ρ}
  {visit : UInt32 → UInt32 → UInt32 → UInt32 → Option ρ}
  {visitChecked : UInt32 → UInt32 → UInt32 → UInt32 → Option (Option ρ)} {cursor : UInt32}

/-- All that an iteration can do, on any memory. -/
inductive WalkStep (state : Stage8cKheapState) (memory : Memory) (finished corrupt : ρ)
    (visit : UInt32 → UInt32 → UInt32 → UInt32 → Option ρ) (cursor : UInt32) :
    Iteration UInt32 ρ → Prop where
  | finished : WalkStep state memory finished corrupt visit cursor (.leave finished)
  | corrupt : WalkStep state memory finished corrupt visit cursor (.leave corrupt)
  | answer {size : UInt32} {r : ρ} (passes : Passes state memory cursor size)
      (hvisit : visit cursor (cursor + allocationHeaderSize) size
        (cursor + allocationHeaderSize + size) = some r) :
      WalkStep state memory finished corrupt visit cursor (.leave r)
  | next {size : UInt32} (passes : Passes state memory cursor size) :
      WalkStep state memory finished corrupt visit cursor
        (.next (cursor + allocationHeaderSize + size))

/-- From a cursor in the used part no operation of an iteration faults. -/
theorem checkedIteration_eq (hused : Used state) (hcursor : state.start.toNat ≤ cursor.toNat)
    (hvisit : ∀ size, Passes state memory cursor size →
      visitChecked cursor (cursor + allocationHeaderSize) size
        (cursor + allocationHeaderSize + size) =
        some (visit cursor (cursor + allocationHeaderSize) size
          (cursor + allocationHeaderSize + size))) :
    checkedIteration state memory finished corrupt visitChecked cursor =
        some (walkIteration state memory finished corrupt visit cursor) ∧
      WalkStep state memory finished corrupt visit cursor
        (walkIteration state memory finished corrupt visit cursor) := by
  have hlow := hused.low
  have hle := hused.le
  have hcurrent := state.current.toNat_lt
  have h16 : allocationHeaderSize.toNat = 16 := rfl
  have hlast := subChecked_eq (a := state.current) (b := allocationHeaderSize) (by omega)
  have hlast' : (state.current - allocationHeaderSize).toNat = state.current.toNat - 16 :=
    UInt32.toNat_sub_of_le _ _ (UInt32.le_iff_toNat_le.mpr (by omega))
  simp only [checkedIteration, walkIteration, hlast, Option.bind_eq_bind, Option.bind_some]
  by_cases hin : cursor < state.current
  swap
  · simp only [hin, not_false_eq_true, if_true]
    exact ⟨trivial, .finished⟩
  by_cases hroom : state.current - allocationHeaderSize < cursor
  · simp only [hin, hroom, not_true_eq_false, if_true, if_false]
    exact ⟨trivial, .corrupt⟩
  have hroom' := UInt32.le_iff_toNat_le.mp (UInt32.not_lt.mp hroom)
  have hwithin : ∀ offset : UInt32, offset.toNat + 4 ≤ 16 →
      Within (usedWindow state) cursor offset := by
    intro offset hoffset
    refine ⟨?_, ?_, ?_⟩ <;> simp only [usedWindow] <;> omega
  have hmagic :
      loadField (usedWindow state) memory cursor 0 = some (headerMagic memory cursor) := by
    simpa only [headerMagic, UInt32.add_zero] using loadField_eq (hwithin 0 (by decide)) memory
  have hsize : loadField (usedWindow state) memory cursor 4 =
      some (headerPayloadSize memory cursor) := loadField_eq (hwithin 4 (by decide)) memory
  have hadd := addChecked_eq (a := cursor) (b := allocationHeaderSize) (by omega)
  have hadd' : (cursor + allocationHeaderSize).toNat = cursor.toNat + 16 :=
    MachineWord.toNat_add32 (by omega)
  have hsub := subChecked_eq (a := state.current) (b := cursor + allocationHeaderSize) (by omega)
  have hsub' : (state.current - (cursor + allocationHeaderSize)).toNat =
      state.current.toNat - (cursor.toNat + 16) := by
    rw [UInt32.toNat_sub_of_le _ _ (UInt32.le_iff_toNat_le.mpr (by omega)), hadd']
  simp only [hin, hroom, hmagic, hsize, hadd, hsub, not_true_eq_false, if_false, Option.bind_some]
  by_cases hbad : headerMagic memory cursor ≠ allocationHeaderMagic
  · simp only [if_pos hbad]
    exact ⟨trivial, .corrupt⟩
  by_cases hshape : headerPayloadSize memory cursor = 0 ∨
      headerPayloadSize memory cursor &&& (kheapMinAlignment - 1) ≠ 0
  · simp only [if_neg hbad, if_pos hshape]
    exact ⟨trivial, .corrupt⟩
  by_cases hlong : state.current - (cursor + allocationHeaderSize) < headerPayloadSize memory cursor
  · simp only [if_neg hbad, if_neg hshape, if_pos hlong]
    exact ⟨trivial, .corrupt⟩
  have hlong' := UInt32.le_iff_toNat_le.mp (UInt32.not_lt.mp hlong)
  obtain ⟨hne, hmask⟩ := not_or.mp hshape
  have hpasses : Passes state memory cursor (headerPayloadSize memory cursor) := by
    have hrem := MachineWord.and_mask32 (m := kheapMinAlignment - 1)
      (headerPayloadSize memory cursor) 3 rfl
    rw [not_not.mp hmask, UInt32.toNat_zero] at hrem
    exact ⟨not_not.mp hbad, rfl, MachineWord.ne_zero32_iff.mp hne, hrem.symm, by omega⟩
  have hend := addChecked_eq (a := cursor + allocationHeaderSize)
    (b := headerPayloadSize memory cursor) (by omega)
  have hgrow : ¬ cursor + allocationHeaderSize + headerPayloadSize memory cursor ≤ cursor := by
    rw [UInt32.le_iff_toNat_le, MachineWord.toNat_add32 (by omega), hadd']
    omega
  simp only [if_neg hbad, if_neg hshape, if_neg hlong, if_neg hgrow, hend, hvisit _ hpasses,
    Option.bind_some]
  cases hanswer : visit cursor (cursor + allocationHeaderSize) (headerPayloadSize memory cursor)
      (cursor + allocationHeaderSize + headerPayloadSize memory cursor) with
  | some r => exact ⟨rfl, .answer hpasses hanswer⟩
  | none => exact ⟨rfl, .next hpasses⟩

/-- The address after the block whose checks passed. -/
theorem Passes.next_toNat {size : UInt32} (h : Passes state memory cursor size) :
    (cursor + allocationHeaderSize + size).toNat = cursor.toNat + 16 + size.toNat := by
  have hfits := h.fits
  have hcurrent := state.current.toNat_lt
  have h16 : allocationHeaderSize.toNat = 16 := rfl
  have hadd : (cursor + allocationHeaderSize).toNat = cursor.toNat + 16 :=
    MachineWord.toNat_add32 (by omega)
  rw [MachineWord.toNat_add32 (by omega), hadd]

/-! ## A whole walk -/

/-- Where an answer of the walk may come from. -/
structure Answers (state : Stage8cKheapState) (memory : Memory)
    (visit : UInt32 → UInt32 → UInt32 → UInt32 → Option ρ) (cursor size : UInt32) (r : ρ) :
    Prop where
  start_le : state.start.toNat ≤ cursor.toNat
  aligned : cursor.toNat % 8 = 0
  passes : Passes state memory cursor size
  answer : visit cursor (cursor + allocationHeaderSize) size
    (cursor + allocationHeaderSize + size) = some r

/-- On any memory a walk ends in bounded time without a fault, with the result of the plain walk:
at the end, at a corrupt header, or at a block in the used part. -/
theorem walk_safe (hused : Used state)
    (hvisit : ∀ cursor size, state.start.toNat ≤ cursor.toNat →
      Passes state memory cursor size →
      visitChecked cursor (cursor + allocationHeaderSize) size
        (cursor + allocationHeaderSize + size) =
        some (visit cursor (cursor + allocationHeaderSize) size
          (cursor + allocationHeaderSize + size))) :
    ∃ r, run (guarded (checkedIteration state memory finished corrupt visitChecked))
        (walkBound state) state.start = some (some r) ∧
      run (walkIteration state memory finished corrupt visit) (walkFuel state) state.start =
        some r ∧
      (r = finished ∨ r = corrupt ∨ ∃ cursor size, Answers state memory visit cursor size r) := by
  have hstep : ∀ cursor : UInt32, state.start.toNat ≤ cursor.toNat →
      checkedIteration state memory finished corrupt visitChecked cursor =
          some (walkIteration state memory finished corrupt visit cursor) ∧
        WalkStep state memory finished corrupt visit cursor
          (walkIteration state memory finished corrupt visit cursor) :=
    fun cursor hcursor => checkedIteration_eq hused hcursor (hvisit cursor · hcursor)
  have hnext : ∀ cursor next : UInt32,
      state.start.toNat ≤ cursor.toNat ∧ cursor.toNat % 8 = 0 →
      walkIteration state memory finished corrupt visit cursor = .next next →
      (state.start.toNat ≤ next.toNat ∧ next.toNat % 8 = 0) ∧
        (state.current.toNat - next.toNat) / 24 < (state.current.toNat - cursor.toNat) / 24 := by
    intro cursor next hcursor hbody
    have hwalk := (hstep cursor hcursor.1).2
    rw [hbody] at hwalk
    cases hwalk with
    | next passes =>
      have hnext := passes.next_toNat
      have hpos := passes.pos
      have hmul := passes.multiple
      have hfits := passes.fits
      simp only [hnext]
      omega
  have hleave : ∀ (cursor : UInt32) (r : ρ),
      state.start.toNat ≤ cursor.toNat ∧ cursor.toNat % 8 = 0 →
      walkIteration state memory finished corrupt visit cursor = .leave r →
      r = finished ∨ r = corrupt ∨ ∃ cursor size, Answers state memory visit cursor size r := by
    intro cursor r hcursor hbody
    have hwalk := (hstep cursor hcursor.1).2
    rw [hbody] at hwalk
    cases hwalk with
    | finished => exact Or.inl rfl
    | corrupt => exact Or.inr (Or.inl rfl)
    | answer passes hanswer =>
      exact Or.inr (Or.inr ⟨cursor, _, hcursor.1, hcursor.2, passes, hanswer⟩)
  obtain ⟨r, hchecked, hplain, hr⟩ := run_guarded (fun cursor h => (hstep cursor h.1).1) hnext
    hleave ⟨le_rfl, hused.aligned⟩ (Nat.lt_succ_self _)
  refine ⟨r, hchecked, run_mono hplain ?_, hr⟩
  have := Nat.div_le_self (state.current.toNat - state.start.toNat) 24
  simp only [walkFuel]
  omega

end Step

/-! ## The visits -/

section Visits

variable {state : Stage8cKheapState} {memory : Memory} {cursor size n : UInt32}

/-- Every field of a header whose checks passed is in the used part. -/
theorem Passes.within (hcursor : state.start.toNat ≤ cursor.toNat)
    (h : Passes state memory cursor size) {offset : UInt32} (hoffset : offset.toNat + 4 ≤ 16) :
    Within (usedWindow state) cursor offset := by
  have hfits := h.fits
  have hcurrent := state.current.toNat_lt
  refine ⟨?_, ?_, ?_⟩ <;> simp only [usedWindow] <;> omega

/-- Taking a block whose checks passed does not fault. -/
theorem checkedTakeBlock_eq (hcursor : state.start.toNat ≤ cursor.toNat)
    (h : Passes state memory cursor size) (hn : n.toNat ≤ size.toNat) :
    checkedTakeBlock (usedWindow state) memory cursor (cursor + allocationHeaderSize) size n =
      some (takeBlock memory cursor (cursor + allocationHeaderSize) size n) := by
  have hfits := h.fits
  have hcurrent := state.current.toNat_lt
  have h16 : allocationHeaderSize.toNat = 16 := rfl
  have h24 : (allocationHeaderSize + kheapMinAlignment).toNat = 24 := rfl
  have hpayload : (cursor + allocationHeaderSize).toNat = cursor.toNat + 16 :=
    MachineWord.toNat_add32 (by omega)
  have hrest : (size - n).toNat = size.toNat - n.toNat :=
    UInt32.toNat_sub_of_le _ _ (UInt32.le_iff_toNat_le.mpr hn)
  have hfield : ∀ (m : Memory) (offset v : UInt32), offset.toNat + 4 ≤ 16 →
      storeField (usedWindow state) m cursor offset v = some (store32 m (cursor + offset) v) :=
    fun m offset v hoffset => storeField_eq (h.within hcursor hoffset) m v
  simp only [checkedTakeBlock, takeBlock, subChecked_eq hn, Option.bind_eq_bind, Option.bind_some]
  by_cases hsplit : allocationHeaderSize + kheapMinAlignment ≤ size - n
  · have hsplit' := UInt32.le_iff_toNat_le.mp hsplit
    have hplace : (cursor + allocationHeaderSize + n).toNat = cursor.toNat + 16 + n.toNat := by
      rw [MachineWord.toNat_add32 (by omega), hpayload]
    have hsplitField : ∀ (m : Memory) (offset v : UInt32), offset.toNat + 4 ≤ 16 →
        storeField (usedWindow state) m (cursor + allocationHeaderSize + n) offset v =
          some (store32 m (cursor + allocationHeaderSize + n + offset) v) := by
      intro m offset v hoffset
      apply storeField_eq
      refine ⟨?_, ?_, ?_⟩ <;> simp only [usedWindow] <;> omega
    simp only [hsplit, if_true, addChecked_eq (a := cursor + allocationHeaderSize) (b := n)
      (by omega), subChecked_eq (a := size - n) (b := allocationHeaderSize) (by omega),
      hfield _ 4 _ (by decide), hfield _ 8 _ (by decide), hsplitField _ 0 _ (by decide),
      hsplitField _ 4 _ (by decide), hsplitField _ 8 _ (by decide),
      hsplitField _ 12 _ (by decide), Option.bind_some, UInt32.add_zero]
    rfl
  · simp only [hsplit, if_false, hfield _ 8 _ (by decide)]
    rfl

theorem checkedReuseVisit_eq (hcursor : state.start.toNat ≤ cursor.toNat)
    (h : Passes state memory cursor size) (end_ : UInt32) :
    checkedReuseVisit (usedWindow state) memory n cursor (cursor + allocationHeaderSize) size
        end_ =
      some (reuseVisit memory n cursor (cursor + allocationHeaderSize) size end_) := by
  have hload : loadField (usedWindow state) memory cursor 8 = some (headerState memory cursor) :=
    loadField_eq (h.within hcursor (by decide)) memory
  simp only [checkedReuseVisit, reuseVisit, hload, Option.bind_eq_bind, Option.bind_some]
  by_cases hfits : headerState memory cursor = allocationStateFreed ∧ n ≤ size
  · have hn := UInt32.le_iff_toNat_le.mp hfits.2
    simp only [if_pos hfits, checkedTakeBlock_eq hcursor h hn, Option.bind_some]
  · simp only [if_neg hfits]

theorem checkedFreeVisit_eq (hcursor : state.start.toNat ≤ cursor.toNat)
    (h : Passes state memory cursor size) (ptr end_ : UInt32) :
    checkedFreeVisit (usedWindow state) memory ptr cursor (cursor + allocationHeaderSize) size
        end_ =
      some (freeVisit memory ptr cursor (cursor + allocationHeaderSize) size end_) := by
  have hload : loadField (usedWindow state) memory cursor 8 = some (headerState memory cursor) :=
    loadField_eq (h.within hcursor (by decide)) memory
  have hstore : storeField (usedWindow state) memory cursor 8 allocationStateFreed =
      some (setHeaderState memory cursor allocationStateFreed) :=
    storeField_eq (h.within hcursor (by decide)) memory _
  simp only [checkedFreeVisit, freeVisit, hload, hstore, Option.bind_eq_bind, Option.bind_some]
  split_ifs <;> rfl

/-- A header the scan takes is that of a freed block. -/
theorem Passes.headerAt (h : Passes state memory cursor size)
    (hfreed : headerState memory cursor = allocationStateFreed) :
    HeaderAt memory cursor.toNat ⟨size.toNat, false⟩ := by
  refine ⟨?_, ?_, ?_, h.pos, h.multiple⟩ <;> simp only [UInt32.ofNat_toNat]
  · exact h.magic
  · rw [h.size_eq]
  · exact hfreed

end Visits

/-! ## Both calls -/

/-- The scan took the block `b` with its header at `c`, and all it wrote lies in that block. -/
structure Consumed (state : Stage8cKheapState) (memory : Memory) (n : UInt32)
    (outcome : ReuseOutcome) (c : ℕ) (b : Block) : Prop where
  header : HeaderAt memory c b
  freed : b.allocated = false
  start_le : state.start.toNat ≤ c
  end_le : c + b.extent ≤ state.current.toNat
  payload : outcome.payloadStart.toNat = c + 16
  payload_aligned : outcome.payloadStart.toNat % 8 = 0
  payload_end : outcome.payloadStart.toNat + n.toNat ≤ c + b.extent
  carved : ∀ d e, (d, e) ∈ layoutFrom c (carve n.toNat b) →
    HeaderAt outcome.memory d e ∧ c ≤ d ∧ d + e.extent ≤ c + b.extent
  same : SameOutside outcome.memory memory c b.extent

section Calls

variable {state : Stage8cKheapState} {memory : Memory} {n : UInt32}

theorem HeapInv.used {σ : Type*} {heap : Kheap σ} {blocks : List Block}
    (h : HeapInv heap blocks) : Used heap.state := by
  have hstart := h.start_toNat
  have hext := h.tiles.extent
  exact ⟨by omega, by omega, by omega⟩

/-- An answer of the reuse scan comes from taking one block. -/
theorem Answers.consumed {cursor size : UInt32} {outcome : ReuseOutcome} (hpos : 0 < n.toNat)
    (hmul : n.toNat % 8 = 0)
    (h : Answers state memory (reuseVisit memory n) cursor size outcome) :
    outcome.result = 1 ∧ ∃ c b, Consumed state memory n outcome c b := by
  have hanswer := h.answer
  have hfits := h.passes.fits
  have haligned := h.aligned
  have hcurrent := state.current.toNat_lt
  simp only [reuseVisit] at hanswer
  split at hanswer
  swap
  · cases hanswer
  next hcond =>
  obtain rfl := Option.some.inj hanswer
  have hheader := h.passes.headerAt hcond.1
  have hn : n.toNat ≤ size.toNat := UInt32.le_iff_toNat_le.mp hcond.2
  have hpayload : cursor + allocationHeaderSize = UInt32.ofNat (cursor.toNat + 16) := by
    rw [UInt32.ofNat_add, UInt32.ofNat_toNat]
    rfl
  have hpayload' : (cursor + allocationHeaderSize).toNat = cursor.toNat + 16 := by
    rw [hpayload, word_toNat (by omega)]
  obtain ⟨hnew, hsame⟩ := takeBlock_spec hheader
    (show cursor.toNat + (16 + size.toNat) < 2 ^ 32 by omega) hpos hmul hn
  simp only [UInt32.ofNat_toNat, ← hpayload] at hnew hsame
  refine ⟨rfl, cursor.toNat, ⟨size.toNat, false⟩, hheader, rfl, h.start_le, ?_, hpayload', ?_, ?_,
    fun d e hde => ⟨hnew d e hde, ?_⟩, hsame⟩
  · simp only [Block.extent]
    omega
  · simp only [hpayload']
    omega
  · simp only [hpayload', Block.extent]
    omega
  · have hbounds := layout_bounds hde
    rw [extentOf_carve hn] at hbounds
    exact hbounds

theorem reuse_safe (hused : Used state) (memory : Memory) (hpos : 0 < n.toNat)
    (hmul : n.toNat % 8 = 0) :
    ∃ outcome, checkedReuse (walkBound state) state memory n = some (some outcome) ∧
      stage9cKheapTryReuseAlignedAllocation state memory n = outcome ∧
      ((outcome.result = 1 ∧ ∃ c b, Consumed state memory n outcome c b) ∨
        ((outcome.result = 0 ∨ outcome.result = -1) ∧ outcome.memory = memory)) := by
  obtain ⟨outcome, hchecked, hplain, hwhere⟩ :=
    @walk_safe ReuseOutcome state memory ⟨0, 0, memory⟩ ⟨-1, 0, memory⟩ _ _ hused
      fun cursor size hcursor hpasses => checkedReuseVisit_eq hcursor hpasses _
  refine ⟨outcome, hchecked, ?_, ?_⟩
  · simp only [stage9cKheapTryReuseAlignedAllocation, hplain, Option.getD_some]
  · rcases hwhere with rfl | rfl | ⟨cursor, size, hanswer⟩
    · exact Or.inr ⟨Or.inl rfl, rfl⟩
    · exact Or.inr ⟨Or.inr rfl, rfl⟩
    · exact Or.inl (Answers.consumed hpos hmul hanswer)

/-- An answer of the free walk changes nothing or the state word in front of the pointer. -/
theorem Answers.freed {cursor size ptr : UInt32} {answer : Bool × Memory}
    (h : Answers state memory (freeVisit memory ptr) cursor size answer) :
    answer = (false, memory) ∨ answer = (true,
      setHeaderState memory (ptr - allocationHeaderSize) allocationStateFreed) := by
  have hanswer := h.answer
  simp only [freeVisit] at hanswer
  split_ifs at hanswer with hptr hstate hinside
  · exact Or.inl (Option.some.inj hanswer).symm
  · right
    have hheader : ptr - allocationHeaderSize = cursor := by rw [hptr, UInt32.add_sub_cancel]
    rw [hheader]
    exact (Option.some.inj hanswer).symm
  · exact Or.inl (Option.some.inj hanswer).symm

theorem free_safe {σ : Type*} {heap : Kheap σ} (hused : Used heap.state) (ptr : UInt32) :
    ∃ accepted memory,
      checkedFree (walkBound heap.state) heap.state heap.memory ptr =
        some (some (accepted, memory)) ∧
      stage9aKheapFree heap ptr = (accepted, { heap with memory := memory }) ∧
      ((accepted = false ∧ memory = heap.memory) ∨ (accepted = true ∧
        memory = setHeaderState heap.memory (ptr - allocationHeaderSize)
          allocationStateFreed)) := by
  simp only [checkedFree, stage9aKheapFree]
  by_cases hnull : heap.state.isInitialized = false ∨ ptr = 0
  · simp only [if_pos hnull]
    exact ⟨false, heap.memory, rfl, rfl, Or.inl ⟨rfl, rfl⟩⟩
  by_cases hrange : ptr < heap.state.start ∨ heap.state.current ≤ ptr
  · simp only [if_neg hnull, if_pos hrange]
    exact ⟨false, heap.memory, rfl, rfl, Or.inl ⟨rfl, rfl⟩⟩
  obtain ⟨⟨accepted, memory⟩, hchecked, hplain, hwhere⟩ :=
    @walk_safe (Bool × Memory) heap.state heap.memory (false, heap.memory) (false, heap.memory) _ _
      hused fun cursor size hcursor hpasses => checkedFreeVisit_eq hcursor hpasses ptr _
  simp only [if_neg hnull, if_neg hrange, hplain, Option.getD_some]
  refine ⟨accepted, memory, hchecked, rfl, ?_⟩
  have hresult : (accepted, memory) = (false, heap.memory) ∨ (accepted, memory) = (true,
      setHeaderState heap.memory (ptr - allocationHeaderSize) allocationStateFreed) := by
    rcases hwhere with h | h | ⟨cursor, size, hanswer⟩
    · exact Or.inl h
    · exact Or.inl h
    · exact hanswer.freed
  simpa only [Prod.mk.injEq] using hresult

end Calls

theorem walks_safe_on_corruption {σ : Type*} (ops : GrowthOps σ) (memory : Memory) (env : σ)
    (events : List HeapEvent) (s : HeapSystem σ) (run : PayloadRun ops memory env events s)
    (corrupted : Memory) :
    (∀ alignedSize : UInt32, 0 < alignedSize.toNat → alignedSize.toNat % 8 = 0 →
      ∃ outcome,
        checkedReuse (walkBound s.heap.state) s.heap.state corrupted alignedSize =
          some (some outcome) ∧
        stage9cKheapTryReuseAlignedAllocation s.heap.state corrupted alignedSize = outcome ∧
        ((outcome.result = 1 ∧
          ∃ c b, Consumed s.heap.state corrupted alignedSize outcome c b) ∨
          ((outcome.result = 0 ∨ outcome.result = -1) ∧ outcome.memory = corrupted))) ∧
    ∀ ptr : UInt32, ∃ accepted memory',
      checkedFree (walkBound s.heap.state) s.heap.state corrupted ptr =
        some (some (accepted, memory')) ∧
      stage9aKheapFree { s.heap with memory := corrupted } ptr =
        (accepted, { s.heap with memory := memory' }) ∧
      ((accepted = false ∧ memory' = corrupted) ∨ (accepted = true ∧
        memory' = setHeaderState corrupted (ptr - allocationHeaderSize)
          allocationStateFreed)) := by
  obtain ⟨blocks, hinv, _⟩ := payloadRun_blocks run
  have hused := HeapInv.used hinv
  have hfree : Used { s.heap with memory := corrupted }.state := hused
  exact ⟨fun n hpos hmul => reuse_safe hused corrupted hpos hmul, free_safe hfree⟩

/-- Every byte of the heap overwritten by one that is no header. -/
theorem walks_safe_on_corruption_filled : ∃ s : HeapSystem UInt64, s.held 0x400010 = some 5 ∧
    ∃ accepted memory, checkedFree (walkBound s.heap.state) s.heap.state (fun _ => 0xFF) 0x400010 =
      some (some (accepted, memory)) := by
  obtain ⟨events, s, run, hheld, _⟩ := split_run
  obtain ⟨accepted, memory, hfree, _⟩ :=
    (walks_safe_on_corruption plentifulOps _ _ events s run fun _ => 0xFF).2 0x400010
  exact ⟨s, hheld, accepted, memory, hfree⟩

end KernelHeapCorruption
