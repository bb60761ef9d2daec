import CustomOs.KernelHeapRepresentation

/-! # First fit, split, and bump
An allocation takes the lowest freed block with room and splits it when the rest can hold a
block; with no such block it appends one, provided the pages it needs can be had. -/
namespace KernelHeapFirstFit

open ByteMemory Loop KernelHeap KernelHeapTiling KernelHeapCalls KernelHeapIsolation KernelObject
open KernelHeapRepresentation

/-- From `env` on, that many pages from `page` on each get a frame below 4 GiB and are mapped. -/
inductive Obtainable {σ : Type*} (ops : GrowthOps σ) : ℕ → UInt32 → σ → Prop where
  | nothing (page : UInt32) (env : σ) : Obtainable ops 0 page env
  | page {pages : ℕ} {page : UInt32} {frame : UInt64} {env env₁ env₂ : σ}
      (halloc : ops.allocFrame env = (some frame, env₁)) (hlow : frame.toNat < 2 ^ 32)
      (hmap : ops.mapPage env₁ page (Paging.stage7aPagingFrameAddr frame.toUInt32) = (true, env₂))
      (rest : Obtainable ops pages (page + Paging.pageSize) env₂) :
      Obtainable ops (pages + 1) page env

/-- The size with its rounding. -/
def roundedSize (size : UInt32) : ℕ := (size.toNat + 7) / 8 * 8

/-- The pages between the mapped limit and the end of a new block of `n` bytes. -/
def missingPages {σ : Type*} (heap : Kheap σ) (n : ℕ) : ℕ :=
  ((heap.state.current.toNat + 16 + n + 4095) / 4096 * 4096 -
    heap.state.mappedEndExclusive.toNat) / 4096

/-- There is room in the window for a new block, and the pages for it can be had. -/
def CanBump {σ : Type*} (ops : GrowthOps σ) (heap : Kheap σ) (n : ℕ) : Prop :=
  heap.state.current.toNat + 16 + n ≤ heap.state.endExclusive.toNat ∧
    Obtainable ops (missingPages heap n) heap.state.mappedEndExclusive heap.env

def HasBlocks {σ : Type*} (heap : Kheap σ) (blocks : List Block) : Prop :=
  Tiles heap.memory heap.state.start.toNat blocks heap.state.current.toNat

/-- Block `b` is taken for `n` bytes: only its own bytes change. -/
structure Takes {σ : Type*} (heap : Kheap σ) (outcome : UInt32 × Kheap σ) (pre : List Block)
    (b : Block) (post : List Block) (n : ℕ) : Prop where
  ptr : outcome.1.toNat = heap.state.start.toNat + extentOf pre + 16
  state : outcome.2.state = heap.state
  env : outcome.2.env = heap.env
  blocks : HasBlocks outcome.2 (pre ++ carve n b ++ post)
  same : SameOutside outcome.2.memory heap.memory (heap.state.start.toNat + extentOf pre) b.extent

/-- A block of `n` bytes is appended: only its header is written. -/
structure Appends {σ : Type*} (heap : Kheap σ) (outcome : UInt32 × Kheap σ)
    (blocks : List Block) (n : ℕ) : Prop where
  ptr : outcome.1.toNat = heap.state.current.toNat + 16
  current : outcome.2.state.current.toNat = heap.state.current.toNat + 16 + n
  blocks : HasBlocks outcome.2 (blocks ++ [⟨n, true⟩])
  same : SameOutside outcome.2.memory heap.memory heap.state.current.toNat 16

/-- Null, and the blocks are as they were. -/
structure Refuses {σ : Type*} (heap : Kheap σ) (outcome : UInt32 × Kheap σ) : Prop where
  ptr : outcome.1 = 0
  current : outcome.2.state.current = heap.state.current
  same : outcome.2.memory = heap.memory

variable {σ : Type*} {ops : GrowthOps σ} {heap : Kheap σ} {blocks : List Block}

/-! ## Growth -/

theorem low_iff (frame : UInt64) : ¬ uint32Max.toUInt64 < frame ↔ frame.toNat < 2 ^ 32 := by
  have hmax : uint32Max.toUInt64.toNat = 2 ^ 32 - 1 := rfl
  simp only [UInt64.lt_iff_toNat_lt, hmax]
  omega

/-- The growth loop gets to its limit exactly when every page on the way can be had. -/
theorem growth_run {required : UInt32} (hrequired : required.toNat ≤ 0x800000)
    (haligned : required.toNat % 4096 = 0) {pages fuel : ℕ} {state : Stage8cKheapState} {env : σ}
    (hend : state.endExclusive.toNat = 0x800000)
    (hmapped : state.mappedEndExclusive.toNat % 4096 = 0)
    (hpages : pages = (required.toNat - state.mappedEndExclusive.toNat) / 4096)
    (hfuel : pages < fuel) :
    ∃ r, run (ensureMappedIteration ops required) fuel (state, env) = some r ∧
      (r.1 = true ↔ Obtainable ops pages state.mappedEndExclusive env) := by
  have hpage : Paging.pageSize.toNat = 4096 := rfl
  have hstep := growthStep ops required state env
  obtain ⟨fuel, rfl⟩ : ∃ k, fuel = k + 1 := ⟨fuel - 1, by omega⟩
  induction pages generalizing state env fuel with
  | zero =>
    have hdone : ¬ state.mappedEndExclusive < required := by
      rw [UInt32.lt_iff_toNat_lt]
      omega
    generalize hbody : ensureMappedIteration ops required (state, env) = outcome at hstep
    cases hstep with
    | done h => exact ⟨_, run_leave hbody _, by simpa using Obtainable.nothing _ _⟩
    | full h => exact absurd h hdone
    | noFrame h => exact absurd h hdone
    | highFrame h => exact absurd h hdone
    | refused h => exact absurd h hdone
    | mapped h => exact absurd h hdone
  | succ pages ih =>
    have hlt : state.mappedEndExclusive < required := by
      rw [UInt32.lt_iff_toNat_lt]
      omega
    generalize hbody : ensureMappedIteration ops required (state, env) = outcome at hstep
    cases hstep with
    | done h => exact absurd hlt h
    | full h hfull =>
      have hfull' := UInt32.le_iff_toNat_le.mp hfull
      have hlt' := UInt32.lt_iff_toNat_lt.mp hlt
      omega
    | noFrame h halloc =>
      refine ⟨_, run_leave hbody _, by simp, fun hobtain => ?_⟩
      cases hobtain with
      | page halloc' hlow hmap rest => simp [halloc] at halloc'
    | highFrame h halloc hhigh =>
      refine ⟨_, run_leave hbody _, by simp, fun hobtain => ?_⟩
      cases hobtain with
      | page halloc' hlow hmap rest =>
        obtain ⟨rfl, rfl⟩ : _ = _ ∧ _ = _ := by simpa [halloc] using halloc'
        exact absurd hhigh ((low_iff _).mpr hlow)
    | refused h halloc hlow hmap =>
      refine ⟨_, run_leave hbody _, by simp, fun hobtain => ?_⟩
      cases hobtain with
      | page halloc' hlow' hmap' rest =>
        obtain ⟨rfl, rfl⟩ : _ = _ ∧ _ = _ := by simpa [halloc] using halloc'
        simp [hmap] at hmap'
    | mapped h hroom halloc hlow hmap =>
      have hadd : (state.mappedEndExclusive + Paging.pageSize).toNat =
          state.mappedEndExclusive.toNat + 4096 :=
        MachineWord.toNat_add32 (by rw [hpage]; omega)
      obtain ⟨fuel, rfl⟩ : ∃ k, fuel = k + 1 := ⟨fuel - 1, by omega⟩
      have hnext : Stage8cKheapState.endExclusive { state with
          mappedEndExclusive := state.mappedEndExclusive + Paging.pageSize } = state.endExclusive :=
        rfl
      obtain ⟨r, hrun, hiff⟩ := ih ((congrArg UInt32.toNat hnext).trans hend)
        (by rw [hadd]; omega) (by rw [hadd]; omega) (growthStep ops required _ _) fuel (by omega)
      refine ⟨r, (run_next hbody _).trans hrun, hiff.trans ⟨fun hrest => ?_, fun hobtain => ?_⟩⟩
      · exact .page halloc ((low_iff _).mp hlow) hmap hrest
      · cases hobtain with
        | page halloc' hlow' hmap' rest =>
          obtain ⟨rfl, rfl⟩ : _ = _ ∧ _ = _ := by simpa [halloc] using halloc'
          obtain rfl : _ = _ := by simpa [hmap] using hmap'
          exact rest

/-- The tail of an allocation succeeds exactly when a block can be appended. -/
theorem kheapBump_ne_zero (h : HeapInv heap blocks) (n : UInt32) :
    (kheapBump ops heap n).1 ≠ 0 ↔ CanBump ops heap n.toNat := by
  have hend := h.end_toNat
  simp only [CanBump, hend]
  by_cases hroom : heap.state.current.toNat + 16 + n.toNat ≤ 0x800000
  swap
  · rw [kheapBump_full ops h.end_eq hroom]
    simp [hroom]
  obtain ⟨required, hrequired, hcases⟩ := kheapBump_room ops h.end_eq hroom
  obtain ⟨⟨ok, state, env⟩, hrun, hiff⟩ : ∃ r, run (ensureMappedIteration ops required)
      (required.toNat + 1) (heap.state, heap.env) = some r ∧ _ :=
    growth_run (by omega) (by omega) hend h.mapped_aligned rfl (by omega)
  have hgrow : stage8cKheapEnsureMappedUntil ops heap.state heap.env required =
      (ok, state, env) := by
    simp only [stage8cKheapEnsureMappedUntil, hrun, Option.getD_some]
  have hmissing : missingPages heap n.toNat =
      (required.toNat - heap.state.mappedEndExclusive.toNat) / 4096 := by
    rw [missingPages, hrequired]
  simp only [hcases _ _ _ hgrow, hmissing, hroom, true_and, ← hiff]
  cases ok with
  | false => simp
  | true =>
    have hpay := (bump_end hroom).1
    have hne : heap.state.current + allocationHeaderSize ≠ 0 :=
      MachineWord.ne_zero32_iff.mpr (by omega)
    simpa using hne

/-! ## First fit -/

theorem stage8cKheapAlloc_bump (h : HeapInv heap blocks) {size n : UInt32} (hsize : size ≠ 0)
    (heq : stage8cKheapAlignUp size kheapMinAlignment = some n)
    (hreuse : stage9cKheapTryReuseAlignedAllocation heap.state heap.memory n =
      ⟨0, 0, heap.memory⟩) : stage8cKheapAlloc ops heap size = kheapBump ops heap n := by
  simp [stage8cKheapAlloc, h.initialized, hsize, heq, hreuse]

theorem stage8cKheapAlloc_reuse (h : HeapInv heap blocks) {size n ptr : UInt32} {memory : Memory}
    (hsize : size ≠ 0) (heq : stage8cKheapAlignUp size kheapMinAlignment = some n)
    (hreuse : stage9cKheapTryReuseAlignedAllocation heap.state heap.memory n =
      ⟨1, ptr, memory⟩) :
    stage8cKheapAlloc ops heap size = (ptr, { heap with memory := memory }) := by
  simp [stage8cKheapAlloc, h.initialized, hsize, heq, hreuse]

theorem kmalloc_eq (ops : GrowthOps σ) (heap : Kheap σ) {size : UInt32} (hsize : size ≠ 0) :
    kmalloc ops heap size = stage8cKheapAlloc ops heap size := if_neg hsize

/-- A block that fits is taken. -/
theorem takes_of_reuse (h : HeapInv heap blocks) {pre post : List Block} {b : Block} {n : ℕ}
    {memory : Memory} (hsplit : blocks = pre ++ b :: post)
    (htiles : Tiles memory 0x400000 (pre ++ carve n b ++ post) heap.state.current.toNat)
    (hsame : SameOutside memory heap.memory (0x400000 + extentOf pre) b.extent) :
    Takes heap (UInt32.ofNat (0x400000 + extentOf pre + 16), { heap with memory := memory })
      pre b post n := by
  have hmem : (0x400000 + extentOf pre, b) ∈ layoutFrom 0x400000 blocks := by
    rw [hsplit]
    exact mem_layout_split b
  have hb := h.bounds hmem
  have hstart := h.start_toNat
  refine ⟨?_, rfl, rfl, ?_, ?_⟩
  · simp only [hstart, word_toNat (n := 0x400000 + extentOf pre + 16) (by omega)]
  · simpa only [HasBlocks, hstart] using htiles
  · simpa only [hstart] using hsame

/-- With no block that fits, the heap is extended or left alone. -/
theorem bump_or_refuse (h : HeapInv heap blocks) {n size : UInt32} (hpos : 0 < n.toNat)
    (hround : n.toNat = roundedSize size) (hnone : ∀ b ∈ blocks, b.fits n.toNat = false) :
    (CanBump ops heap n.toNat → Appends heap (kheapBump ops heap n) blocks n.toNat) ∧
    (¬ CanBump ops heap n.toNat → Refuses heap (kheapBump ops heap n)) := by
  have hiff : (kheapBump ops heap n).1 ≠ 0 ↔ _ := kheapBump_ne_zero h n
  obtain ⟨blocks', heffect, hinv⟩ := h.bump ops hpos hround hnone
  refine ⟨fun hcan => ?_, fun hcannot => ?_⟩
  · have hne := hiff.mpr hcan
    cases heffect with
    | failed hptr grown same => exact absurd hptr hne
    | reused pre b post m round split fits first hptr state same =>
      have hno := hnone b (by simp [split])
      rw [hround] at hno
      rw [round] at fits
      exact absurd fits (by simpa [roundedSize] using hno)
    | bumped m round none_fits hptr current mapped same =>
      obtain rfl : m = n.toNat := round.trans hround.symm
      exact ⟨hptr, current, HeapInv.tiles_start hinv, same⟩
  · have hzero : (kheapBump ops heap n).1 = 0 := by
      by_contra hne
      exact hcannot (hiff.mp hne)
    cases heffect with
    | failed hptr grown same => exact ⟨hptr, congrArg (·.current) grown.same, same⟩
    | reused pre b post m round split fits first hptr state same => simp [hzero] at hptr
    | bumped m round none_fits hptr current mapped same => simp [hzero] at hptr

theorem kmalloc_first_fit {σ : Type*} (ops : GrowthOps σ) (memory : Memory) (env : σ)
    (events : List HeapEvent) (s : HeapSystem σ) (run : PayloadRun ops memory env events s)
    (size : UInt32) (hsize : size ≠ 0) :
    ∃ blocks, HasBlocks s.heap blocks ∧
      kmalloc ops s.heap size = stage8cKheapAlloc ops s.heap size ∧
      (2 ^ 32 ≤ roundedSize size → stage8cKheapAlloc ops s.heap size = (0, s.heap)) ∧
      (roundedSize size < 2 ^ 32 →
        (∃ pre b post, blocks = pre ++ b :: post ∧ b.fits (roundedSize size) = true ∧
          (∀ x ∈ pre, x.fits (roundedSize size) = false) ∧
          Takes s.heap (stage8cKheapAlloc ops s.heap size) pre b post (roundedSize size) ∧
          extentOf (pre ++ carve (roundedSize size) b ++ post) = extentOf blocks) ∨
        ((∀ b ∈ blocks, b.fits (roundedSize size) = false) ∧
          (CanBump ops s.heap (roundedSize size) →
            Appends s.heap (stage8cKheapAlloc ops s.heap size) blocks (roundedSize size)) ∧
          (¬ CanBump ops s.heap (roundedSize size) →
            Refuses s.heap (stage8cKheapAlloc ops s.heap size)))) := by
  obtain ⟨blocks, h, _⟩ := payloadRun_blocks run
  have hpos := MachineWord.ne_zero32_iff.mp hsize
  refine ⟨blocks, HeapInv.tiles_start h, kmalloc_eq ops s.heap hsize, ?_⟩
  rcases alignUp_eight size with ⟨heq, hbig⟩ | ⟨n, heq, hround⟩
  · refine ⟨fun _ => by simp [stage8cKheapAlloc, h.initialized, hsize, heq], fun hlt => ?_⟩
    simp only [roundedSize] at hlt
    omega
  · have hn : n.toNat = roundedSize size := hround
    have hlt := n.toNat_lt
    have hnpos : 0 < n.toNat := by omega
    have hnmul : n.toNat % 8 = 0 := by omega
    refine ⟨fun hge => absurd hge (by omega), fun _ => ?_⟩
    rw [← hn]
    rcases h.reuse hnpos hnmul with ⟨hnone, hreuse⟩ |
      ⟨pre, b, post, memory', hsplit, hfit, hpre, hreuse, htiles, hsame⟩
    · right
      rw [stage8cKheapAlloc_bump h hsize heq hreuse]
      exact ⟨hnone, bump_or_refuse h hnpos hn hnone⟩
    · left
      have hroom : n.toNat ≤ b.payloadSize := by
        simp only [Block.fits, Bool.and_eq_true, decide_eq_true_eq] at hfit
        exact hfit.2
      rw [stage8cKheapAlloc_reuse h hsize heq hreuse]
      refine ⟨pre, b, post, hsplit, hfit, hpre, takes_of_reuse h hsplit htiles hsame, ?_⟩
      simp only [hsplit, extentOf_append, extentOf_cons, extentOf_carve hroom]
      omega

/-- A small block beside the freed rest of a split one. -/
theorem kmalloc_first_fit_split : ∃ s : HeapSystem UInt64, s.held 0x400010 = some 5 ∧
    ∃ blocks, HasBlocks s.heap blocks ∧
      ((∃ pre b post, blocks = pre ++ b :: post ∧
        Takes s.heap (stage8cKheapAlloc plentifulOps s.heap 8) pre b post 8) ∨
      ∀ b ∈ blocks, b.fits 8 = false) := by
  obtain ⟨events, s, run, hheld, _⟩ := split_run
  obtain ⟨blocks, hblocks, _, _, hfit⟩ :=
    kmalloc_first_fit plentifulOps _ _ events s run 8 (by decide)
  refine ⟨s, hheld, blocks, hblocks, ?_⟩
  rcases hfit (by decide) with ⟨pre, b, post, hsplit, _, _, htakes, _⟩ | ⟨hnone, _⟩
  · exact Or.inl ⟨pre, b, post, hsplit, htakes⟩
  · exact Or.inr hnone

end KernelHeapFirstFit
