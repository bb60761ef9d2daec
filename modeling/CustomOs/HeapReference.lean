import CustomOs.FrameConservation
import CustomOs.KernelHeapFirstFit
import CustomOs.Library.Interaction

/-! # The heap as its callers see it
The reference knows the blocks of the heap in order and how many pages are behind them. It has
neither headers nor page tables nor a frame allocator: for each page it asks whether there is
one. Over any program of heap calls the kernel heap, on the frame allocator and the page mapper,
answers as the reference does when the pages it asks for are the frames of the memory map in
the order they are issued, and a frame at or above 4 GiB is a page that cannot be had. -/
namespace HeapReference

open Interaction Loop MemoryMap FrameEligibility PhysicalFrames PhysicalFrameTracking Paging
open PageMapper PageMapRefinement KernelHeap KernelHeapTiling KernelHeapCalls KernelMemory
open FrameConservation KernelHeapFirstFit
open ByteMemory (Memory)

/-! ## Heap calls -/

/-- The words behind the four pointers of `stage8c_kheap_get_state`. -/
structure KheapBounds where
  start : UInt32
  current : UInt32
  endExclusive : UInt32
  mappedEndExclusive : UInt32
  deriving DecidableEq, Repr

/-- The argument is `none` when one of the four pointers is null. -/
def stage8cKheapGetState (state : Stage8cKheapState) (out : Option KheapBounds) :
    Bool × Option KheapBounds :=
  if state.isInitialized = false ∨ out = none then (false, out)
  else (true,
    some ⟨state.start, state.current, state.endExclusive, state.mappedEndExclusive⟩)

inductive HeapCall where
  | bootstrapInit
  | alloc (size : UInt32)
  | free (ptr : UInt32)
  | getState (out : Option KheapBounds)
  deriving DecidableEq, Repr

abbrev HeapCall.Answer : HeapCall → Type
  | .bootstrapInit => Bool
  | .alloc _ => UInt32
  | .free _ => Bool
  | .getState _ => Bool × Option KheapBounds

abbrev heapInterface : Interface := ⟨HeapCall, HeapCall.Answer⟩

def heapHandler {σ : Type*} (ops : GrowthOps σ) : Handler heapInterface (Kheap σ)
  | heap, .bootstrapInit => some (stage8cKheapBootstrapInit heap)
  | heap, .alloc size => some (stage8cKheapAlloc ops heap size)
  | heap, .free ptr => some (stage9aKheapFree heap ptr)
  | heap, .getState out => some (stage8cKheapGetState heap.state out, heap)

/-! ## The reference -/

structure ReferenceHeap where
  initialized : Bool
  blocks : List Block
  pages : ℕ
  deriving DecidableEq, Repr

def heapStart : ℕ := 0x400000
def heapEnd : ℕ := 0x800000

def ReferenceHeap.unused : ReferenceHeap := ⟨false, [], 0⟩

def ReferenceHeap.current (r : ReferenceHeap) : ℕ := heapStart + extentOf r.blocks

/-- The end of the pages. -/
def ReferenceHeap.limit (r : ReferenceHeap) : ℕ := heapStart + 4096 * r.pages

/-- The header of the lowest freed block with room for `n` bytes, the first header standing at
`a`, and the blocks once it is taken. -/
def firstFit (n : ℕ) : ℕ → List Block → Option (ℕ × List Block)
  | _, [] => none
  | a, b :: bs =>
    if b.fits n then some (a, carve n b ++ bs)
    else (firstFit n (a + b.extent) bs).map fun taken => (taken.1, b :: taken.2)

/-- The blocks once the allocated one with its payload at `ptr` is freed. -/
def release (ptr : ℕ) : ℕ → List Block → Option (List Block)
  | _, [] => none
  | a, b :: bs =>
    if ptr = a + 16 ∧ b.allocated = true then some (⟨b.payloadSize, false⟩ :: bs)
    else (release ptr (a + b.extent) bs).map (b :: ·)

/-- Asks for so many pages more, until one cannot be had. -/
def obtain {ε : Type} : ℕ → ℕ → Program question ε (Bool × ℕ)
  | 0, pages => .pure (true, pages)
  | missing + 1, pages => .call () fun (found : Bool) =>
    if found then obtain missing (pages + 1) else .pure (false, pages)

/-- The pages a new block of `n` bytes needs on top of those there are. -/
def ReferenceHeap.missing (r : ReferenceHeap) (n : ℕ) : ℕ :=
  ((r.current + 16 + n + 4095) / 4096 * 4096 - r.limit) / 4096

/-- A new block behind the others, if the window and the pages allow it. -/
def ReferenceHeap.extend {ε : Type} (r : ReferenceHeap) (n : ℕ) :
    Program question ε (UInt32 × ReferenceHeap) :=
  if heapEnd < r.current + 16 + n then .pure (0, r)
  else
    (obtain (r.missing n) r.pages).bind fun reply =>
      if reply.1 then
        .pure (UInt32.ofNat (r.current + 16),
          { r with blocks := r.blocks ++ [⟨n, true⟩], pages := reply.2 })
      else .pure (0, { r with pages := reply.2 })

def ReferenceHeap.alloc {ε : Type} (r : ReferenceHeap) (size : UInt32) :
    Program question ε (UInt32 × ReferenceHeap) :=
  if r.initialized = false ∨ size = 0 ∨ 2 ^ 32 ≤ roundedSize size then .pure (0, r)
  else
    match firstFit (roundedSize size) heapStart r.blocks with
    | some (header, blocks) => .pure (UInt32.ofNat (header + 16), { r with blocks := blocks })
    | none => r.extend (roundedSize size)

def ReferenceHeap.free (r : ReferenceHeap) (ptr : UInt32) : Bool × ReferenceHeap :=
  match release ptr.toNat heapStart r.blocks with
  | some blocks => (true, { r with blocks := blocks })
  | none => (false, r)

def ReferenceHeap.getState (r : ReferenceHeap) (out : Option KheapBounds) :
    Bool × Option KheapBounds :=
  if r.initialized = false ∨ out = none then (false, out)
  else (true, some ⟨VmmLayout.futureHeapReservedStart, UInt32.ofNat r.current,
    VmmLayout.futureHeapReservedEndExclusive, UInt32.ofNat r.limit⟩)

def reference {ε : Type} : Implementation heapInterface question ReferenceHeap ε
  | r, .bootstrapInit => .pure (true, { r with initialized := true })
  | r, .alloc size => r.alloc size
  | r, .free ptr => .pure (r.free ptr)
  | r, .getState out => .pure (r.getState out, r)

/-! ### Searching the blocks -/

section Search

variable {n a ptr : ℕ} {b : Block} {pre post blocks : List Block}

theorem firstFit_none (h : ∀ b ∈ blocks, b.fits n = false) : firstFit n a blocks = none := by
  induction blocks generalizing a with
  | nil => rfl
  | cons x xs ih =>
    have hx := h x List.mem_cons_self
    have hrest := ih (a := a + x.extent) fun b hb => h b (List.mem_cons_of_mem _ hb)
    simp [firstFit, hx, hrest]

theorem firstFit_split (hfit : b.fits n = true) (hpre : ∀ x ∈ pre, x.fits n = false) :
    firstFit n a (pre ++ b :: post) = some (a + extentOf pre, pre ++ carve n b ++ post) := by
  induction pre generalizing a with
  | nil => simp [firstFit, hfit]
  | cons x xs ih =>
    have hx := hpre x List.mem_cons_self
    have hrest := ih (a := a + x.extent) fun b hb => hpre b (List.mem_cons_of_mem _ hb)
    simp [firstFit, hx, hrest, Nat.add_assoc]

theorem release_none (h : ∀ c b, (c, b) ∈ layoutFrom a blocks → b.allocated = true →
    ptr ≠ c + 16) : release ptr a blocks = none := by
  induction blocks generalizing a with
  | nil => rfl
  | cons x xs ih =>
    have hx : ¬ (ptr = a + 16 ∧ x.allocated = true) := fun hc =>
      h a x (by simp [layoutFrom]) hc.2 hc.1
    have hrest := ih (a := a + x.extent) fun c b hcb =>
      h c b (by simp [layoutFrom, hcb])
    simp [release, hx, hrest]

theorem release_split (halloc : b.allocated = true) (hptr : ptr = a + extentOf pre + 16) :
    release ptr a (pre ++ b :: post) = some (pre ++ ⟨b.payloadSize, false⟩ :: post) := by
  induction pre generalizing a with
  | nil =>
    rw [extentOf_nil] at hptr
    simp [release, halloc, hptr]
  | cons x xs ih =>
    have hext : x.extent = 16 + x.payloadSize := rfl
    rw [extentOf_cons] at hptr
    have hx : ¬ (ptr = a + 16 ∧ x.allocated = true) := fun hc => by omega
    have hrest := ih (a := a + x.extent) (by omega)
    simp [release, hx, hrest]

end Search

/-! ## The kernel heap -/

/-- The frame with this number lies below 4 GiB. -/
def lowFrame (f : ℕ) : Bool := f < 2 ^ 20

/-- What the next requests for pages come to. -/
def pageSupply (frames : Stage5cFrameBookkeeping) (pmm : Pmm) : List Bool :=
  (nextFrames frames pmm).map lowFrame

/-- The allocator is in a reachable state, and no page of the heap window from `limit` on is
mapped. -/
def PagesFree (frames : Stage5cFrameBookkeeping) (layout : TableLayout) (env : GrowthEnv)
    (limit : ℕ) : Prop :=
  ∃ pages, Tracked frames layout env pages ∧
    ∀ v : UInt32, limit ≤ v.toNat → v.toNat < heapEnd → pages v = none

/-- The bounds and the blocks of the heap are those of the reference. -/
inductive Bounded {σ : Type*} (heap : Kheap σ) (r : ReferenceHeap) : Prop where
  | unused (unused : r = .unused) (state : heap.state.isInitialized = false)
  | live (initialized : r.initialized = true) (inv : HeapInv heap r.blocks)
      (limit : heap.state.mappedEndExclusive.toNat = r.limit)

structure Represents (frames : Stage5cFrameBookkeeping) (layout : TableLayout)
    (s : KernelHeapState) (r : ReferenceHeap) (supply : List Bool) : Prop where
  bounded : Bounded s r
  pages : PagesFree frames layout s.env r.limit
  supply : supply = pageSupply frames s.env.pmm

section Growth

variable {frames : Stage5cFrameBookkeeping} {layout : TableLayout} {env : GrowthEnv}
  {state : Stage8cKheapState} {required : UInt32} {missing n fuel : ℕ} {ε : Type}

/-- Where the growth loop of the kernel ends, the requests of the reference end. -/
structure GrowthAgrees (frames : Stage5cFrameBookkeeping) (layout : TableLayout) (ε : Type)
    (state : Stage8cKheapState) (missing n : ℕ) (supply : List Bool)
    (result : Bool × Stage8cKheapState × GrowthEnv) (k : ℕ) : Prop where
  requests : run answered (obtain missing n : Program question ε _) supply =
    some (.ok (result.1, k), pageSupply frames result.2.2.pmm)
  same : result.2.1 = { state with mappedEndExclusive := result.2.1.mappedEndExclusive }
  limit : result.2.1.mappedEndExclusive.toNat = heapStart + 4096 * k
  pages : PagesFree frames layout result.2.2 (heapStart + 4096 * k)

theorem obtain_refused (missing n : ℕ) {supply rest : List Bool}
    (h : answered supply () = some (false, rest)) :
    run answered (obtain (missing + 1) n : Program question ε _) supply =
      some (.ok (false, n), rest) := by
  rw [obtain, run_call h]
  rfl

theorem growth_agrees (ht : SoundTable frames) (hrequired : required.toNat ≤ heapEnd)
    (haligned : required.toNat % 4096 = 0) (hend : state.endExclusive.toNat = heapEnd)
    (hlimit : state.mappedEndExclusive.toNat = heapStart + 4096 * n)
    (hmissing : missing = (required.toNat - state.mappedEndExclusive.toNat) / 4096)
    (hfuel : missing < fuel) (hpages : PagesFree frames layout env (heapStart + 4096 * n)) :
    ∃ result k, Loop.run (ensureMappedIteration (kernelOps frames layout) required) fuel
        (state, env) = some result ∧
      GrowthAgrees frames layout ε state missing n (pageSupply frames env.pmm) result k := by
  have hpage : pageSize.toNat = 4096 := rfl
  have hstart : heapStart = 0x400000 := rfl
  have hstop : heapEnd = 0x800000 := rfl
  obtain ⟨fuel, rfl⟩ : ∃ k, fuel = k + 1 := ⟨fuel - 1, by omega⟩
  induction missing generalizing state env n fuel with
  | zero =>
    have hstep := growthStep (kernelOps frames layout) required state env
    generalize hbody : ensureMappedIteration (kernelOps frames layout) required (state, env) =
      outcome at hstep
    have hdone : ¬ state.mappedEndExclusive < required := by
      rw [UInt32.lt_iff_toNat_lt]
      omega
    cases hstep with
    | done h => exact ⟨_, n, run_leave hbody _, ⟨rfl, rfl, hlimit, hpages⟩⟩
    | full h => exact absurd h hdone
    | noFrame h => exact absurd h hdone
    | highFrame h => exact absurd h hdone
    | refused h => exact absurd h hdone
    | mapped h => exact absurd h hdone
  | succ missing ih =>
    have hstep := growthStep (kernelOps frames layout) required state env
    generalize hbody : ensureMappedIteration (kernelOps frames layout) required (state, env) =
      outcome at hstep
    obtain ⟨pages, htracked, hfree⟩ := hpages
    have hlt : state.mappedEndExclusive < required := by
      rw [UInt32.lt_iff_toNat_lt]
      omega
    cases hstep with
    | done h => exact absurd hlt h
    | full h hfull =>
      have hfull' := UInt32.le_iff_toNat_le.mp hfull
      have hlt' := UInt32.lt_iff_toNat_lt.mp hlt
      omega
    | noFrame h halloc =>
      obtain ⟨hnone, hnone', _, htracked'⟩ := htracked.exhausted ht halloc
      refine ⟨_, n, run_leave hbody _, ⟨obtain_refused missing n ?_, rfl, hlimit,
        ⟨pages, htracked', hfree⟩⟩⟩
      simp [pageSupply, hnone, hnone', answered]
    | @highFrame frame env' h halloc hhigh =>
      obtain ⟨haddr, hnext, _, htracked'⟩ := htracked.drawn ht halloc
      have hhigh' : ¬ frame.toNat < 2 ^ 32 := (low_iff frame).not.mp (not_not.mpr hhigh)
      have hlow : lowFrame (frameOf frame) = false := by
        simp only [lowFrame, decide_eq_false_iff_not]
        omega
      refine ⟨_, n, run_leave hbody _, ⟨obtain_refused missing n ?_, rfl, hlimit,
        ⟨pages, htracked', hfree⟩⟩⟩
      simp only [pageSupply, hnext, List.map_cons, hlow, answered]
    | @refused frame env₁ env' h halloc hlow hmap =>
      obtain ⟨haddr, hnext, _, htracked'⟩ := htracked.drawn ht halloc
      exfalso
      have hlt' := UInt32.lt_iff_toNat_lt.mp hlt
      have hv : MutablePage state.mappedEndExclusive := ⟨by omega, by omega, by omega⟩
      have hp := frameAddr_toNat frame.toUInt32
      exact (htracked'.refused hv (by omega) hmap).1 (hfree _ (by omega) (by omega))
    | @mapped frame env₁ env' h hroom halloc hlow hmap =>
      obtain ⟨haddr, hnext, _, htracked'⟩ := htracked.drawn ht halloc
      obtain ⟨_, hpmm, _, htracked''⟩ := htracked'.mapped hmap
      have hlow' : lowFrame (frameOf frame) = true := by
        have := (low_iff frame).mp hlow
        simp only [lowFrame, decide_eq_true_eq]
        omega
      have hadd : (state.mappedEndExclusive + pageSize).toNat =
          state.mappedEndExclusive.toNat + 4096 :=
        MachineWord.toNat_add32 (by omega)
      have hfree' : PagesFree frames layout env' (heapStart + 4096 * (n + 1)) := by
        refine ⟨_, htracked'', fun v hl hu => ?_⟩
        rw [PageMap.set_ne]
        · exact hfree v (by omega) hu
        · rintro rfl
          omega
      obtain ⟨fuel, rfl⟩ : ∃ k, fuel = k + 1 := ⟨fuel - 1, by omega⟩
      obtain ⟨result, k, hrun, hagrees⟩ := @ih env'
        { state with mappedEndExclusive := state.mappedEndExclusive + pageSize } (n + 1) hend
        (by simp only [hadd]; omega) (by simp only [hadd]; omega) hfree' fuel (by omega)
      refine ⟨result, k, (run_next hbody _).trans hrun, ⟨?_, hagrees.same, hagrees.limit,
        hagrees.pages⟩⟩
      have hanswer : answered (pageSupply frames env.pmm) () =
          some (true, pageSupply frames env'.pmm) := by
        simp only [pageSupply, hnext, List.map_cons, hlow', answered, hpmm]
      rw [obtain, run_call hanswer]
      exact hagrees.requests

end Growth

section Calls

variable {frames : Stage5cFrameBookkeeping} {layout : TableLayout} {s : KernelHeapState}
  {r : ReferenceHeap} {supply : List Bool} {ε : Type}

theorem current_eq {σ : Type*} {heap : Kheap σ} (h : HeapInv heap r.blocks) :
    heap.state.current.toNat = r.current := h.tiles.extent.symm

/-- With no block that fits, the blocks stay or one is added. -/
theorem bump_blocks {heap heap' : Kheap GrowthEnv} {blocks blocks' : List Block}
    {size ptr : UInt32} {n : ℕ} (h : AllocEffect heap heap' blocks size ptr blocks')
    (hround : n = roundedSize size) (hnone : ∀ b ∈ blocks, b.fits n = false) :
    blocks' = if ptr = 0 then blocks else blocks ++ [⟨n, true⟩] := by
  cases h with
  | failed hptr grown same => rw [if_pos hptr]
  | reused pre b post m round split fits first hptr state same =>
    obtain rfl : m = n := round.trans hround.symm
    have hno := hnone b (by simp [split])
    rw [hno] at fits
    cases fits
  | bumped m round none_fits hptr current mapped same =>
    obtain rfl : m = n := round.trans hround.symm
    rw [if_neg (MachineWord.ne_zero32_iff.mpr (by omega))]

/-- A new block behind the others. -/
theorem extend_agrees (ht : SoundTable frames) (hinit : r.initialized = true)
    (hinv : HeapInv s r.blocks) (hlimit : s.state.mappedEndExclusive.toNat = r.limit)
    (hpages : PagesFree frames layout s.env r.limit) {n size : UInt32} (hpos : 0 < n.toNat)
    (hround : n.toNat = roundedSize size) (hnone : ∀ b ∈ r.blocks, b.fits n.toNat = false) :
    ∃ r', run answered (r.extend n.toNat : Program question ε _) (pageSupply frames s.env.pmm) =
        some (.ok ((kheapBump (kernelOps frames layout) s n).1, r'),
          pageSupply frames (kheapBump (kernelOps frames layout) s n).2.env.pmm) ∧
      r'.initialized = true ∧ HeapInv (kheapBump (kernelOps frames layout) s n).2 r'.blocks ∧
      (kheapBump (kernelOps frames layout) s n).2.state.mappedEndExclusive.toNat = r'.limit ∧
      PagesFree frames layout (kheapBump (kernelOps frames layout) s n).2.env r'.limit := by
  have hcurrent := current_eq hinv
  have hstop : heapEnd = 0x800000 := rfl
  by_cases hroom : s.state.current.toNat + 16 + n.toNat ≤ 0x800000
  swap
  · have hfull : heapEnd < r.current + 16 + n.toNat := by omega
    rw [kheapBump_full _ hinv.end_eq hroom, ReferenceHeap.extend, if_pos hfull]
    exact ⟨r, rfl, hinit, hinv, hlimit, hpages⟩
  have hfits : ¬ heapEnd < r.current + 16 + n.toNat := by omega
  obtain ⟨required, hrequired, hcases⟩ := kheapBump_room (kernelOps frames layout) hinv.end_eq hroom
  obtain ⟨blocks', heffect, hinv'⟩ :=
    hinv.bump (kernelOps frames layout) hpos hround hnone
  rw [bump_blocks heffect hround hnone] at hinv'
  have hmissing : r.missing n.toNat =
      (required.toNat - s.state.mappedEndExclusive.toNat) / 4096 := by
    rw [ReferenceHeap.missing, hrequired, hcurrent, hlimit]
  obtain ⟨⟨ok, state, env⟩, k, hrun, hagrees⟩ :=
    @growth_agrees frames layout s.env s.state required (r.missing n.toNat) r.pages
      (required.toNat + 1) ε ht (by omega) (by omega) hinv.end_toNat hlimit hmissing (by omega)
      hpages
  have hgrow : stage8cKheapEnsureMappedUntil (kernelOps frames layout) s.state s.env required =
      (ok, state, env) := by
    simp only [stage8cKheapEnsureMappedUntil, hrun, Option.getD_some]
  have hbump := hcases _ _ _ hgrow
  have hpay := (bump_end hroom).1
  rw [ReferenceHeap.extend, if_neg hfits, run_bind_ok hagrees.requests]
  cases ok with
  | false =>
    simp only [Bool.false_eq_true, if_false] at hbump ⊢
    rw [hbump] at hinv' ⊢
    rw [if_pos rfl] at hinv'
    exact ⟨{ r with pages := k }, rfl, hinit, hinv', hagrees.limit, hagrees.pages⟩
  | true =>
    simp only [if_true] at hbump ⊢
    have hne : s.state.current + allocationHeaderSize ≠ 0 :=
      MachineWord.ne_zero32_iff.mpr (by omega)
    rw [hbump] at hinv' ⊢
    rw [if_neg hne] at hinv'
    have hptr : s.state.current + allocationHeaderSize = UInt32.ofNat (r.current + 16) := by
      rw [← hcurrent, ← hpay, UInt32.ofNat_toNat]
    rw [← hptr]
    exact ⟨{ r with blocks := r.blocks ++ [⟨n.toNat, true⟩], pages := k }, rfl, hinit, hinv',
      hagrees.limit, hagrees.pages⟩

/-- An allocation answers as the reference does. -/
theorem Represents.alloc (h : Represents frames layout s r supply) (ht : SoundTable frames)
    (size : UInt32) :
    ∃ r', run answered (r.alloc size : Program question ε _) supply =
        some (.ok ((stage8cKheapAlloc (kernelOps frames layout) s size).1, r'),
          pageSupply frames (stage8cKheapAlloc (kernelOps frames layout) s size).2.env.pmm) ∧
      Represents frames layout (stage8cKheapAlloc (kernelOps frames layout) s size).2 r'
        (pageSupply frames (stage8cKheapAlloc (kernelOps frames layout) s size).2.env.pmm) := by
  obtain ⟨hbounded, hpages, rfl⟩ := h
  cases hbounded with
  | unused hunused hstate =>
    have halloc : stage8cKheapAlloc (kernelOps frames layout) s size = (0, s) := by
      simp [stage8cKheapAlloc, hstate]
    have hnull : r.initialized = false ∨ size = 0 ∨ 2 ^ 32 ≤ roundedSize size :=
      Or.inl (by rw [hunused]; rfl)
    rw [halloc, ReferenceHeap.alloc, if_pos hnull]
    exact ⟨r, rfl, .unused hunused hstate, hpages, rfl⟩
  | live hinit hinv hlimit =>
    have hstay : Represents frames layout s r (pageSupply frames s.env.pmm) :=
      ⟨.live hinit hinv hlimit, hpages, rfl⟩
    by_cases hsize : size = 0
    · have halloc : stage8cKheapAlloc (kernelOps frames layout) s size = (0, s) := by
        simp [stage8cKheapAlloc, hsize]
      rw [halloc, ReferenceHeap.alloc, if_pos (Or.inr (Or.inl hsize))]
      exact ⟨r, rfl, hstay⟩
    rcases alignUp_eight size with ⟨heq, hbig⟩ | ⟨n, heq, hround⟩
    · have halloc : stage8cKheapAlloc (kernelOps frames layout) s size = (0, s) := by
        simp [stage8cKheapAlloc, hinv.initialized, hsize, heq]
      have hbig' : 2 ^ 32 ≤ roundedSize size := hbig
      rw [halloc, ReferenceHeap.alloc, if_pos (Or.inr (Or.inr hbig'))]
      exact ⟨r, rfl, hstay⟩
    have hpos := MachineWord.ne_zero32_iff.mp hsize
    have hn : roundedSize size = n.toNat := hround.symm
    have hword := n.toNat_lt
    have hgo : ¬ (r.initialized = false ∨ size = 0 ∨ 2 ^ 32 ≤ roundedSize size) := by
      simp only [hinit, hsize, hn]
      simpa using hword
    rw [ReferenceHeap.alloc, if_neg hgo, hn]
    rcases hinv.reuse (n := n) (by omega) (by omega) with ⟨hnone, hreuse⟩ |
      ⟨pre, b, post, memory', hsplit, hfit, hpre, hreuse, htiles, hsame⟩
    · rw [firstFit_none hnone, stage8cKheapAlloc_bump hinv hsize heq hreuse]
      obtain ⟨r', hrun, hinit', hinv', hlimit', hpages'⟩ :=
        @extend_agrees frames layout s r ε ht hinit hinv hlimit hpages n size (by omega) hround
          hnone
      exact ⟨r', hrun, .live hinit' hinv' hlimit', hpages', rfl⟩
    · rw [stage8cKheapAlloc_reuse hinv hsize heq hreuse, hsplit, firstFit_split hfit hpre]
      refine ⟨{ r with blocks := pre ++ carve n.toNat b ++ post }, rfl, ?_, hpages, rfl⟩
      exact .live hinit ⟨hinv.initialized, hinv.start_eq, hinv.end_eq, htiles, hinv.current_le,
        hinv.mapped_le, hinv.mapped_aligned⟩ hlimit

theorem Represents.free (h : Represents frames layout s r supply) (ptr : UInt32) :
    (stage9aKheapFree s ptr).1 = (r.free ptr).1 ∧
      Represents frames layout (stage9aKheapFree s ptr).2 (r.free ptr).2 supply := by
  obtain ⟨hbounded, hpages, hsupply⟩ := h
  cases hbounded with
  | unused hunused hstate =>
    have hfree : stage9aKheapFree s ptr = (false, s) := by simp [stage9aKheapFree, hstate]
    have hnone : r.free ptr = (false, r) := by
      simp [ReferenceHeap.free, hunused, ReferenceHeap.unused, release]
    rw [hfree, hnone]
    exact ⟨rfl, .unused hunused hstate, hpages, hsupply⟩
  | live hinit hinv hlimit =>
    rcases hinv.free ptr with ⟨pre, b, post, memory', hsplit, halloc, hptr, heq, hinv', _⟩ |
      ⟨hmiss, heq⟩
    · have hfree : r.free ptr =
          (true, { r with blocks := pre ++ ⟨b.payloadSize, false⟩ :: post }) := by
        rw [ReferenceHeap.free, hsplit, release_split (a := heapStart) halloc hptr]
      rw [heq, hfree]
      exact ⟨rfl, .live hinit hinv' hlimit, hpages, hsupply⟩
    · have hfree : r.free ptr = (false, r) := by
        rw [ReferenceHeap.free, heapStart, release_none hmiss]
      rw [heq, hfree]
      exact ⟨rfl, .live hinit hinv hlimit, hpages, hsupply⟩

theorem Represents.getState (h : Represents frames layout s r supply)
    (out : Option KheapBounds) : stage8cKheapGetState s.state out = r.getState out := by
  cases h.bounded with
  | unused hunused hstate =>
    simp [stage8cKheapGetState, ReferenceHeap.getState, hunused, hstate, ReferenceHeap.unused]
  | live hinit hinv hlimit =>
    have hcurrent : UInt32.ofNat r.current = s.state.current := by
      rw [← current_eq hinv, UInt32.ofNat_toNat]
    have hmapped : UInt32.ofNat r.limit = s.state.mappedEndExclusive := by
      rw [← hlimit, UInt32.ofNat_toNat]
    simp only [stage8cKheapGetState, ReferenceHeap.getState, hinit, hinv.initialized, hcurrent,
      hmapped, hinv.start_eq, hinv.end_eq]

theorem Represents.bootstrap (h : Represents frames layout s r supply) :
    (stage8cKheapBootstrapInit s).1 = true ∧
      Represents frames layout (stage8cKheapBootstrapInit s).2 { r with initialized := true }
        supply := by
  obtain ⟨hbounded, hpages, hsupply⟩ := h
  cases hbounded with
  | unused hunused hstate =>
    obtain ⟨hok, hinv⟩ := bootstrap_inv s hstate
    have hblocks : r.blocks = [] := by rw [hunused]; rfl
    have henv : (stage8cKheapBootstrapInit s).2.env = s.env ∧
        (stage8cKheapBootstrapInit s).2.state.mappedEndExclusive.toNat = r.limit := by
      simp only [stage8cKheapBootstrapInit, hstate, VmmLayout.validatePolicy_eq, hunused]
      exact ⟨rfl, rfl⟩
    refine ⟨hok, .live rfl (by rwa [hblocks]) henv.2, ?_, ?_⟩
    · rw [henv.1]
      exact hpages
    · rw [henv.1]
      exact hsupply
  | live hinit hinv hlimit =>
    have hagain : stage8cKheapBootstrapInit s = (true, s) := by
      simp [stage8cKheapBootstrapInit, hinv.initialized]
    have hsame : { r with initialized := true } = r := by rw [← hinit]
    rw [hagain, hsame]
    exact ⟨rfl, .live hinit hinv hlimit, hpages, hsupply⟩

/-- The reference answers every call, and the kernel heap alike. -/
theorem Represents.call (h : Represents frames layout s r supply) (ht : SoundTable frames)
    (call : HeapCall) :
    ∃ x t r' supply', heapHandler (kernelOps frames layout) s call = some (x, t) ∧
      run answered (reference r call : Program question ε _) supply = some (.ok (x, r'), supply') ∧
      Represents frames layout t r' supply' := by
  cases call with
  | bootstrapInit =>
    obtain ⟨hok, hrep⟩ := h.bootstrap
    refine ⟨(stage8cKheapBootstrapInit s).1, _, _, supply, rfl, ?_, hrep⟩
    rw [hok]
    rfl
  | alloc size =>
    obtain ⟨r', hrun, hrep⟩ := h.alloc (ε := ε) ht size
    exact ⟨_, _, r', _, rfl, hrun, hrep⟩
  | free ptr =>
    obtain ⟨hok, hrep⟩ := h.free ptr
    refine ⟨(stage9aKheapFree s ptr).1, _, _, supply, rfl, ?_, hrep⟩
    rw [hok]
    rfl
  | getState out =>
    refine ⟨stage8cKheapGetState s.state out, _, _, supply, rfl, ?_, h⟩
    rw [h.getState out]
    rfl

/-- Nothing is given out before the heap is initialized. -/
theorem unused_represents (memory : Memory) {pmm : Pmm} {pages : PageMemory} {map : PageMap}
    (htracks : ∃ queue fresh, Tracks frames pmm queue fresh) (hrefines : Refines layout pages map)
    (hfree : ∀ v : UInt32, heapStart ≤ v.toNat → v.toNat < heapEnd → map v = none) :
    Represents frames layout ⟨⟨false, 0, 0, 0, 0⟩, memory, ⟨pmm, pages, []⟩⟩ .unused
      (pageSupply frames pmm) :=
  ⟨.unused rfl rfl, ⟨map, ⟨htracks, hrefines⟩, fun v hl hu => hfree v hl hu⟩, rfl⟩

/-- Over any program the kernel heap and the reference give the same answers. -/
theorem Represents.program (h : Represents frames layout s r supply) (ht : SoundTable frames)
    {α : Type} (p : Program heapInterface ε α) :
    Matches (heapHandler (kernelOps frames layout)) id (Represents frames layout) p s
      (run answered (implement reference id p r) supply) := by
  apply run_simulation (R := Represents frames layout) Function.injective_id _ _ p h
  · intro s r supply o x r' supply' hrep hserve
    obtain ⟨y, t, q, rest, hhandle, hreference, hrep'⟩ := hrep.call (ε := ε) ht o
    rw [hreference] at hserve
    obtain ⟨⟨rfl, rfl⟩, rfl⟩ : (y = x ∧ q = r') ∧ rest = supply' := by simpa using hserve
    exact ⟨t, hhandle, hrep'⟩
  · intro s r supply o e supply' hrep hserve
    obtain ⟨y, t, q, rest, _, hreference, _⟩ := hrep.call (ε := ε) ht o
    rw [hreference] at hserve
    simp at hserve

end Calls

theorem heap_programs_agree {ε α : Type} (kernelEnd : UInt32)
    (entries : List Multiboot2MmapEntry) (frames : Stage5cFrameBookkeeping)
    (table : TableBuilt kernelEnd entries frames) (layout : TableLayout) (start : PageMemory)
    (memory : Memory) (pmmCalls : List PmmCall) (pmm : Pmm)
    (frameRun : PmmRun frames pmmCalls pmm) (mapperCalls : List MapperCall) (pages : PageMemory)
    (mapperRun : MapperRun layout start mapperCalls pages)
    (unmapped : ∀ v : UInt32, 0x400000 ≤ v.toNat → v.toNat < 0x800000 →
      mappedAfter mapperCalls v = none)
    (p : Program heapInterface ε α) :
    ∃ result s, run (heapHandler (kernelOps frames layout)) p
        ⟨⟨false, 0, 0, 0, 0⟩, memory, ⟨pmm, pages, []⟩⟩ = some (result, s) ∧
      ∃ outcome rest, run answered (implement reference id p .unused) (pageSupply frames pmm) =
        some (outcome, rest) ∧ outcome.map Prod.fst = result ∧
      ∀ x r, outcome = .ok (x, r) → Represents frames layout s r rest := by
  obtain ⟨queue, fresh, hledger⟩ := FrameOwnership.ledger_of_run table.sound frameRun
  have hrep := unused_represents memory ⟨_, _, hledger.tracks⟩ (refines_of_run mapperRun) unmapped
  have hmatches := hrep.program table.sound p
  obtain ⟨outcome, rest, hrun⟩ :=
    answered_total (implement reference id p .unused) (pageSupply frames pmm)
  rw [hrun] at hmatches
  cases outcome with
  | ok reply =>
    obtain ⟨s, hkernel, hrep'⟩ := hmatches
    refine ⟨.ok reply.1, s, hkernel, .ok reply, rest, hrun, rfl, fun x r heq => ?_⟩
    obtain rfl : reply = (x, r) := by simpa using heq
    exact hrep'
  | error e =>
    obtain ⟨s, hkernel⟩ := hmatches e rfl
    exact ⟨.error e, s, hkernel, .error e, rest, hrun, rfl, by simp⟩

def twoBlocks : Program heapInterface Panic (UInt32 × UInt32) :=
  .call .bootstrapInit fun _ => .call (.alloc 24) fun a => .call (.alloc 40) fun b => .pure (a, b)

/-- Two blocks in a row on the small map. -/
theorem heap_programs_agree_twoBlocks :
    ∃ s, run (heapHandler (kernelOps smallMapFrames rowLayout)) twoBlocks
      ⟨⟨false, 0, 0, 0, 0⟩, fun _ => 0, ⟨seeded smallMapFrames,
        stage7bSetupEarlyIdentityPaging rowLayout fun _ _ => 0, []⟩⟩ =
      some (.ok (0x400010, 0x400038), s) := by
  obtain ⟨result, s, hkernel, outcome, rest, hrun, hresult, _⟩ :=
    heap_programs_agree 0x11F800 smallMap smallMapFrames tableBuilt_smallMap rowLayout
      (fun _ _ => 0) (fun _ => 0) [] _ .start [] _ .start (fun _ _ _ => rfl) twoBlocks
  have heval : ((run answered (implement reference id twoBlocks .unused)
      (pageSupply smallMapFrames (seeded smallMapFrames))).map fun o =>
        o.1.toOption.map Prod.fst) = some (some (0x400010, 0x400038)) := by decide +kernel
  rw [hrun] at heval
  cases outcome with
  | error e => simp [Except.toOption] at heval
  | ok reply =>
    have hreply : reply.1 = (0x400010, 0x400038) := by
      simpa [Except.toOption] using heval
    obtain rfl : .ok (0x400010, 0x400038) = result := by
      rw [← hresult, ← hreply]
      rfl
    exact ⟨s, hkernel⟩

end HeapReference
