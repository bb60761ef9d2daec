import CustomOs.KernelObject
import Mathlib.Data.Finset.Basic

/-! # Representation of the heap over whole runs
Clients may fill the whole payload of what they hold, rounding included. However they mix calls
and writes, the used part of the window stays tiled, blocks are split but their boundaries stay,
and a free is accepted exactly on the start of a block that is out. -/
namespace KernelHeapRepresentation

open ByteMemory Loop KernelHeap KernelHeapTiling KernelHeapCalls KernelHeapIsolation KernelObject

/-- The payload size in the header in front of a block. -/
def payloadSizeAt (memory : Memory) (ptr : UInt32) : UInt32 :=
  headerPayloadSize memory (ptr - allocationHeaderSize)

/-- Steps of the heap, with client writes anywhere in a held payload. -/
inductive PayloadStep {σ : Type*} (ops : GrowthOps σ) :
    HeapSystem σ → HeapEvent → HeapSystem σ → Prop where
  | call {s t : HeapSystem σ} {e : HeapEvent} (step : HeapStep ops s e t) : PayloadStep ops s e t
  | fill (s : HeapSystem σ) (ptr addr : UInt32) (byte : UInt8) (hheld : s.held ptr ≠ none)
      (hin : InRange ptr.toNat (payloadSizeAt s.heap.memory ptr).toNat addr) :
      PayloadStep ops s (.write addr byte)
        { s with heap := { s.heap with memory := store8 s.heap.memory addr byte } }

abbrev PayloadRun {σ : Type*} (ops : GrowthOps σ) (memory : Memory) (env : σ) :
    List HeapEvent → HeapSystem σ → Prop :=
  Transition.Execution (PayloadStep ops) (bootstrapped memory env)

/-- The effect of an event on the set of blocks that are out. -/
def liveEvent (live : Finset UInt32) : HeapEvent → Finset UInt32
  | .alloc _ ptr => if ptr = 0 then live else insert ptr live
  | .free ptr true => live.erase ptr
  | .free _ false => live
  | .write _ _ => live
  | .environment => live

/-- The pointers some allocation returned and no accepted free has taken back since. -/
def liveAfter (events : List HeapEvent) : Finset UInt32 := events.foldl liveEvent ∅

theorem liveAfter_append (events : List HeapEvent) (e : HeapEvent) :
    liveAfter (events ++ [e]) = liveEvent (liveAfter events) e := by
  simp [liveAfter]

/-- Address `c` is where some block begins. -/
def Boundary {σ : Type*} (heap : Kheap σ) (c : ℕ) : Prop :=
  ∃ blocks b, Tiles heap.memory heap.state.start.toNat blocks heap.state.current.toNat ∧
    (c, b) ∈ layoutFrom heap.state.start.toNat blocks

structure Representation {σ : Type*} (heap : Kheap σ) : Prop where
  tiled : ∃ blocks,
    Tiles heap.memory heap.state.start.toNat blocks heap.state.current.toNat
  aligned : heap.state.mappedEndExclusive.toNat % 4096 = 0
  start_le : heap.state.start ≤ heap.state.current
  current_le : heap.state.current ≤ heap.state.mappedEndExclusive
  mapped_le : heap.state.mappedEndExclusive ≤ heap.state.endExclusive

variable {σ : Type*} {ops : GrowthOps σ} {s t : HeapSystem σ} {heap : Kheap σ}
  {blocks blocks' : List Block} {held : UInt32 → Option UInt32} {e : HeapEvent}

/-! ## Payloads -/

/-- The header in front of a payload start. -/
theorem header_of_payload {c : ℕ} {p : UInt32} (hp : p.toNat = c + 16) :
    p - allocationHeaderSize = UInt32.ofNat c := by
  have hplt := p.toNat_lt
  have h16 : allocationHeaderSize.toNat = 16 := rfl
  have hle : allocationHeaderSize ≤ p := by
    rw [UInt32.le_iff_toNat_le]
    omega
  apply UInt32.toNat_inj.mp
  rw [UInt32.toNat_sub_of_le _ _ hle, word_toNat (n := c) (by omega)]
  omega

/-- The header in front of a held block gives the size of its payload. -/
theorem payloadSizeAt_eq {memory : Memory} {c : ℕ} {b : Block} {p : UInt32}
    (h : HeaderAt memory c b) (hp : p.toNat = c + 16) :
    (payloadSizeAt memory p).toNat = b.payloadSize := by
  simp only [payloadSizeAt, header_of_payload hp]
  exact h.size

/-- A byte of a held payload is in no header. -/
theorem payload_not_header (hinv : HeapInv heap blocks) (hheld : HeldBlocks held blocks)
    {ptr addr : UInt32} (hptr : held ptr ≠ none)
    (hin : InRange ptr.toNat (payloadSizeAt heap.memory ptr).toNat addr) {d : ℕ} {e : Block}
    (hde : (d, e) ∈ layoutFrom 0x400000 blocks) : ¬ InRange d 16 addr := by
  obtain ⟨size, hsize⟩ := Option.ne_none_iff_exists'.mp hptr
  obtain ⟨c, b, hcb, _, hpc, _⟩ := hheld.held_block ptr size hsize
  have hpayload := payloadSizeAt_eq (hinv.tiles.headers c b hcb) hpc
  have hext : b.extent = 16 + b.payloadSize := rfl
  have hext' : e.extent = 16 + e.payloadSize := rfl
  intro hx
  obtain ⟨hl, hu⟩ := hin
  obtain ⟨hl', hu'⟩ := hx
  rcases layout_apart hcb hde with ⟨rfl, rfl⟩ | hapart | hapart <;> omega

/-- Storing a byte outside the headers. -/
theorem HeapInv.storeByte (hinv : HeapInv heap blocks) {addr : UInt32} (byte : UInt8)
    (hout : ∀ c b, (c, b) ∈ layoutFrom 0x400000 blocks → ¬ InRange c 16 addr) :
    HeapInv { heap with memory := store8 heap.memory addr byte } blocks := by
  refine hinv.rewrite _ fun c b hcb x hx => store8_ne _ _ fun heq => ?_
  subst heq
  exact hout c b hcb hx

/-! ## What a step keeps -/

/-- Every block boundary of `blocks` is one of `blocks'`. -/
def Refined (blocks blocks' : List Block) : Prop :=
  ∀ c b, (c, b) ∈ layoutFrom 0x400000 blocks → ∃ b', (c, b') ∈ layoutFrom 0x400000 blocks'

theorem Refined.refl (blocks : List Block) : Refined blocks blocks := fun _ b h => ⟨b, h⟩

/-- Cutting a block up keeps its start. -/
theorem refined_replace {pre post news : List Block} {b first : Block}
    (hextent : extentOf news = b.extent)
    (hfirst : (0x400000 + extentOf pre, first) ∈ layoutFrom (0x400000 + extentOf pre) news) :
    Refined (pre ++ b :: post) (pre ++ news ++ post) := by
  intro c x hcx
  rcases mem_layout_middle.mp hcx with hpre | ⟨rfl, rfl⟩ | hpost
  · exact ⟨x, (mem_layout_replace hextent).mpr (Or.inl hpre)⟩
  · exact ⟨first, (mem_layout_replace hextent).mpr (Or.inr (Or.inl hfirst))⟩
  · exact ⟨x, (mem_layout_replace hextent).mpr (Or.inr (Or.inr hpost))⟩

/-- What every step of a heap keeps between two states with these blocks. -/
structure Grows (s t : HeapSystem σ) (blocks blocks' : List Block) : Prop where
  current : s.heap.state.current ≤ t.heap.state.current
  mapped : s.heap.state.mappedEndExclusive ≤ t.heap.state.mappedEndExclusive
  refined : Refined blocks blocks'

theorem Grows.same (hcurrent : t.heap.state = s.heap.state) (blocks : List Block) :
    Grows s t blocks blocks := by
  refine ⟨?_, ?_, .refl blocks⟩ <;> simp [hcurrent]

theorem AllocEffect.grows {size ptr : UInt32}
    (he : AllocEffect s.heap t.heap blocks size ptr blocks') : Grows s t blocks blocks' := by
  cases he with
  | failed hptr grown same =>
    have hcurrent : t.heap.state.current = s.heap.state.current := congrArg (·.current) grown.same
    exact ⟨by simp [hcurrent], UInt32.le_iff_toNat_le.mpr grown.lower, .refl _⟩
  | reused pre b post n round split fits first hptr state same =>
    simp only [Block.fits, Bool.and_eq_true, decide_eq_true_eq] at fits
    obtain ⟨⟨first, hmem, _⟩, _⟩ := carve_first (0x400000 + extentOf pre) fits.2
    subst split
    exact ⟨by simp [state], by simp [state], refined_replace (extentOf_carve fits.2) hmem⟩
  | bumped n round none_fits hptr current mapped same =>
    refine ⟨UInt32.le_iff_toNat_le.mpr (by omega), UInt32.le_iff_toNat_le.mpr mapped, ?_⟩
    intro c b hcb
    exact ⟨b, by simp [layoutFrom_append, hcb]⟩

/-- The event is a call of the heap. -/
def isCall : HeapEvent → Bool
  | .alloc _ _ => true
  | .free _ _ => true
  | .write _ _ => false
  | .environment => false

/-- Between calls the bounds and the blocks stay. -/
theorem payloadStep_idle (hinv : HeapInv s.heap blocks) (hheld : HeldBlocks s.held blocks)
    (hs : PayloadStep ops s e t) (hidle : isCall e = false) :
    t.heap.state = s.heap.state ∧ t.held = s.held ∧ HeapInv t.heap blocks := by
  cases hs with
  | call step =>
    cases step with
    | alloc size => cases hidle
    | free ptr => cases hidle
    | write ptr size addr byte hp hin =>
      exact ⟨rfl, rfl, HeapInv.storeByte hinv byte fun c b hcb hx =>
        hheld.not_header hp hin hcb hx⟩
    | environment env memory same =>
      exact ⟨rfl, rfl, hinv.rewrite env fun c b hcb x hx =>
        HeapInv.header_inside hinv same hcb hx⟩
  | fill ptr addr byte hp hin =>
    exact ⟨rfl, rfl, HeapInv.storeByte hinv byte fun c b => payload_not_header hinv hheld hp hin⟩

/-- One step keeps the invariant, moves the bounds up and the boundaries nowhere. -/
theorem payloadStep_grows (hinv : HeapInv s.heap blocks) (hheld : HeldBlocks s.held blocks)
    (hs : PayloadStep ops s e t) :
    ∃ blocks', HeapInv t.heap blocks' ∧ HeldBlocks t.held blocks' ∧ Grows s t blocks blocks' := by
  by_cases hidle : isCall e = false
  · obtain ⟨hstate, hsame, hinv'⟩ := payloadStep_idle hinv hheld hs hidle
    exact ⟨blocks, hinv', hsame ▸ hheld, .same hstate blocks⟩
  cases hs with
  | call step =>
    cases step with
    | alloc size =>
      obtain ⟨blocks', heffect, hinv'⟩ := hinv.alloc ops size
      exact ⟨blocks', hinv', hheld.alloc hinv heffect, AllocEffect.grows heffect⟩
    | free ptr =>
      rcases hinv.free ptr with ⟨pre, b, post, memory', rfl, _, hptr, heq, hinv', _⟩ | ⟨_, heq⟩
      · simp only [heq, if_true]
        have hcut := @refined_replace pre post [⟨b.payloadSize, false⟩] b ⟨b.payloadSize, false⟩
          (by simp [Block.extent]) (by simp [layoutFrom])
        exact ⟨_, hinv', hheld.free hptr, UInt32.le_refl _, UInt32.le_refl _, by simpa using hcut⟩
      · simp only [heq, Bool.false_eq_true, if_false]
        exact ⟨blocks, hinv, hheld, .same rfl blocks⟩
    | write ptr size addr byte hp hin => exact absurd rfl hidle
    | environment env memory same => exact absurd rfl hidle
  | fill ptr addr byte hp hin => exact absurd rfl hidle

/-- From a state with these blocks on, over any number of steps. -/
theorem payloadExecution_grows (hinv : HeapInv s.heap blocks) (hheld : HeldBlocks s.held blocks)
    {events : List HeapEvent} (run : Transition.Execution (PayloadStep ops) s events t) :
    ∃ blocks', HeapInv t.heap blocks' ∧ HeldBlocks t.held blocks' ∧ Grows s t blocks blocks' := by
  induction run with
  | start => exact ⟨blocks, hinv, hheld, .same rfl blocks⟩
  | step _ hs ih =>
    obtain ⟨mid, hinv', hheld', hgrows⟩ := ih
    obtain ⟨blocks', hinv'', hheld'', hgrows'⟩ := payloadStep_grows hinv' hheld' hs
    refine ⟨blocks', hinv'', hheld'', UInt32.le_trans hgrows.current hgrows'.current,
      UInt32.le_trans hgrows.mapped hgrows'.mapped, fun c b hcb => ?_⟩
    obtain ⟨x, hcx⟩ := hgrows.refined c b hcb
    exact hgrows'.refined c x hcx

/-- Every run from the bootstrap leaves a tiled heap whose allocated blocks are the held ones. -/
theorem payloadRun_blocks {memory : Memory} {env : σ} {events : List HeapEvent}
    (run : PayloadRun ops memory env events s) :
    ∃ blocks, HeapInv s.heap blocks ∧ HeldBlocks s.held blocks := by
  have hinv := (bootstrap_inv (⟨⟨false, 0, 0, 0, 0⟩, memory, env⟩ : Kheap σ) rfl).2
  have hheld : HeldBlocks (bootstrapped memory env).held [] := by
    refine ⟨fun p size hp => ?_, fun c b hcb => ?_⟩
    · simp [bootstrapped] at hp
    · simp [layoutFrom] at hcb
  obtain ⟨blocks, hinv', hheld', _⟩ := payloadExecution_grows hinv hheld run
  exact ⟨blocks, hinv', hheld'⟩

/-! ## The representation -/

theorem HeapInv.tiles_start (hinv : HeapInv heap blocks) :
    Tiles heap.memory heap.state.start.toNat blocks heap.state.current.toNat := by
  rw [hinv.start_toNat]
  exact hinv.tiles

theorem HeapInv.representation (hinv : HeapInv heap blocks) : Representation heap where
  tiled := ⟨blocks, HeapInv.tiles_start hinv⟩
  aligned := hinv.mapped_aligned
  start_le := by
    have hext := hinv.tiles.extent
    rw [UInt32.le_iff_toNat_le, hinv.start_toNat]
    omega
  current_le := UInt32.le_iff_toNat_le.mpr hinv.current_le
  mapped_le := by
    rw [UInt32.le_iff_toNat_le, hinv.end_toNat]
    exact hinv.mapped_le

/-- The boundaries are those of the one list of blocks that the headers give. -/
theorem HeapInv.boundary_iff (hinv : HeapInv heap blocks) {c : ℕ} :
    Boundary heap c ↔ ∃ b, (c, b) ∈ layoutFrom 0x400000 blocks := by
  have hstart := hinv.start_toNat
  constructor
  · rintro ⟨blocks', b, htiles, hcb⟩
    rw [hstart] at htiles hcb
    obtain rfl := htiles.unique hinv.tiles
    exact ⟨b, hcb⟩
  · rintro ⟨b, hcb⟩
    refine ⟨blocks, b, HeapInv.tiles_start hinv, ?_⟩
    rw [hstart]
    exact hcb

/-- On a tiled heap the scan finds a block or runs to the end. -/
theorem HeapInv.reuse_answers (hinv : HeapInv heap blocks) (n : UInt32) :
    (stage9cKheapTryReuseAlignedAllocation heap.state heap.memory n).result = 0 ∨
    (stage9cKheapTryReuseAlignedAllocation heap.state heap.memory n).result = 1 := by
  simp only [stage9cKheapTryReuseAlignedAllocation, hinv.walk, Option.getD_some]
  cases hfind : (layoutFrom 0x400000 blocks).findSome? (visitBlock (reuseVisit heap.memory n)) with
  | none => exact Or.inl rfl
  | some outcome =>
    right
    obtain ⟨place, _, hvisit⟩ := List.exists_of_findSome?_eq_some hfind
    simp only [visitBlock, reuseVisit] at hvisit
    split at hvisit
    · simp [← Option.some.inj hvisit]
    · cases hvisit

theorem heap_representation {σ : Type*} (ops : GrowthOps σ) (memory : Memory) (env : σ)
    (events : List HeapEvent) (s : HeapSystem σ) (run : PayloadRun ops memory env events s) :
    Representation s.heap ∧
    (∀ alignedSize : UInt32,
      (stage9cKheapTryReuseAlignedAllocation s.heap.state s.heap.memory alignedSize).result ≠
        -1) ∧
    (∀ c, Boundary s.heap c →
      Visits (walkIteration s.heap.state s.heap.memory () () fun _ _ _ _ => none)
        s.heap.state.start (UInt32.ofNat c)) ∧
    ∀ later t, Transition.Execution (PayloadStep ops) s later t →
      s.heap.state.current ≤ t.heap.state.current ∧
      s.heap.state.mappedEndExclusive ≤ t.heap.state.mappedEndExclusive ∧
      ∀ c, Boundary s.heap c → Boundary t.heap c := by
  obtain ⟨blocks, hinv, hheld⟩ := payloadRun_blocks run
  refine ⟨HeapInv.representation hinv, fun n => ?_, fun c hc => ?_, fun later t hlater => ?_⟩
  · rcases HeapInv.reuse_answers hinv n with h | h <;> simp [h]
  · obtain ⟨b, hcb⟩ := (HeapInv.boundary_iff hinv).mp hc
    have hstart : s.heap.state.start = UInt32.ofNat 0x400000 := hinv.start_eq
    rw [hstart]
    exact walk_visits hinv.tiles hcb
  · obtain ⟨blocks', hinv', _, hgrows⟩ := payloadExecution_grows hinv hheld hlater
    refine ⟨hgrows.current, hgrows.mapped, fun c hc => ?_⟩
    obtain ⟨b, hcb⟩ := (HeapInv.boundary_iff hinv).mp hc
    exact (HeapInv.boundary_iff hinv').mpr (hgrows.refined c b hcb)

/-- A block freed and given out again in part. -/
theorem split_run : ∃ events s, PayloadRun plentifulOps (fun _ => 0) 0x200000 events s ∧
    s.held 0x400010 = some 5 ∧ liveAfter events = {0x400010} := by
  have hfirst := @HeapStep.alloc UInt64 plentifulOps (bootstrapped (fun _ => 0) 0x200000) 100
  have hrun := (Transition.Execution.single (PayloadStep.call hfirst)).step
    (PayloadStep.call (HeapStep.free _ 0x400010))
  refine ⟨_, _, hrun.step (PayloadStep.call (HeapStep.alloc _ 5)), ?_, ?_⟩
  · decide +kernel
  · decide +kernel

theorem heap_representation_split :
    ∃ s : HeapSystem UInt64, s.held 0x400010 = some 5 ∧ Representation s.heap := by
  obtain ⟨events, s, run, hheld, _⟩ := split_run
  exact ⟨s, hheld, (heap_representation plentifulOps _ _ events s run).1⟩

/-! ## Accepted frees -/

/-- Pointer `p` is the payload start of an allocated block. -/
def AllocatedAt {σ : Type*} (heap : Kheap σ) (p : UInt32) : Prop :=
  ∃ blocks c b, Tiles heap.memory heap.state.start.toNat blocks heap.state.current.toNat ∧
    (c, b) ∈ layoutFrom heap.state.start.toNat blocks ∧ b.allocated = true ∧ p.toNat = c + 16

theorem HeapInv.allocatedAt_iff (hinv : HeapInv heap blocks) {p : UInt32} :
    AllocatedAt heap p ↔
      ∃ c b, (c, b) ∈ layoutFrom 0x400000 blocks ∧ b.allocated = true ∧ p.toNat = c + 16 := by
  have hstart := hinv.start_toNat
  constructor
  · rintro ⟨blocks', c, b, htiles, hcb, halloc, hp⟩
    rw [hstart] at htiles hcb
    obtain rfl := htiles.unique hinv.tiles
    exact ⟨c, b, hcb, halloc, hp⟩
  · rintro ⟨c, b, hcb, halloc, hp⟩
    refine ⟨blocks, c, b, HeapInv.tiles_start hinv, ?_, halloc, hp⟩
    rw [hstart]
    exact hcb

/-- The held blocks are the live ones of the history. -/
theorem held_iff_live {memory : Memory} {env : σ} {events : List HeapEvent}
    (run : PayloadRun ops memory env events s) (p : UInt32) :
    s.held p ≠ none ↔ p ∈ liveAfter events := by
  induction run with
  | start => simp [bootstrapped, liveAfter]
  | step _ hs ih =>
    rw [liveAfter_append]
    cases hs with
    | fill ptr addr byte hheld hin => exact ih
    | call hs =>
      cases hs with
      | alloc size =>
        simp only [liveEvent]
        split
        · exact ih
        · rw [Finset.mem_insert, ← ih, hold]
          split <;> simp_all
      | free ptr =>
        simp only
        cases hfree : (stage9aKheapFree _ ptr).1 with
        | false => exact ih
        | true =>
          simp only [if_true, liveEvent, Finset.mem_erase, ← ih, hold]
          split <;> simp_all
      | write ptr size addr byte hheld hin => exact ih
      | environment env memory same => exact ih

theorem kfree_eq (heap : Kheap σ) (p : UInt32) : kfree heap p = stage9aKheapFree heap p := by
  simp only [kfree]
  split
  · next hp => simp [stage9aKheapFree, hp]
  · rfl

theorem kfree_accepts_live {σ : Type*} (ops : GrowthOps σ) (memory : Memory) (env : σ)
    (events : List HeapEvent) (s : HeapSystem σ) (run : PayloadRun ops memory env events s)
    (p : UInt32) :
    kfree s.heap p = stage9aKheapFree s.heap p ∧
    ((stage9aKheapFree s.heap p).1 = true ↔ AllocatedAt s.heap p) ∧
    (AllocatedAt s.heap p ↔ p ∈ liveAfter events) ∧
    ((stage9aKheapFree s.heap p).1 = true →
      headerState s.heap.memory (p - allocationHeaderSize) = allocationStateAllocated ∧
      (stage9aKheapFree s.heap p).2 = { s.heap with
        memory := setHeaderState s.heap.memory (p - allocationHeaderSize)
          allocationStateFreed }) ∧
    ((stage9aKheapFree s.heap p).1 = false → (stage9aKheapFree s.heap p).2 = s.heap) := by
  obtain ⟨blocks, hinv, hheld⟩ := payloadRun_blocks run
  have hlive : AllocatedAt s.heap p ↔ p ∈ liveAfter events := by
    rw [HeapInv.allocatedAt_iff hinv, ← held_iff_live run]
    constructor
    · rintro ⟨c, b, hcb, halloc, hp⟩
      obtain ⟨q, hq, hne⟩ := hheld.block_held c b hcb halloc
      obtain rfl : q = p := UInt32.toNat_inj.mp (hq.trans hp.symm)
      exact hne
    · intro hne
      obtain ⟨size, hsize⟩ := Option.ne_none_iff_exists'.mp hne
      obtain ⟨c, b, hcb, halloc, hp, _⟩ := hheld.held_block p size hsize
      exact ⟨c, b, hcb, halloc, hp⟩
  refine ⟨kfree_eq s.heap p, ?_, hlive, ?_⟩
  all_goals
    rcases hinv.free p with ⟨pre, b, post, memory', rfl, halloc, hp, heq, _, _, hmem⟩ | ⟨hmiss, heq⟩
  · simp only [heq, true_iff]
    exact (HeapInv.allocatedAt_iff hinv).mpr ⟨_, b, mem_layout_split b, halloc, hp⟩
  · simp only [heq, Bool.false_eq_true, false_iff, HeapInv.allocatedAt_iff hinv]
    rintro ⟨c, b, hcb, halloc, hp⟩
    exact hmiss c b hcb halloc hp
  · have hheader := hinv.tiles.headers _ b (mem_layout_split b)
    simp only [heq, header_of_payload hp, hmem, true_implies, Bool.true_eq_false, false_implies,
      and_true]
    exact hheader.state.trans ((stateWord_allocated b).mpr halloc)
  · simp [heq]

/-- The block is accepted and the rest split off from it is not. -/
theorem kfree_accepts_live_split : ∃ s : HeapSystem UInt64,
    (stage9aKheapFree s.heap 0x400010).1 = true ∧
    (stage9aKheapFree s.heap 0x400028).1 = false := by
  obtain ⟨events, s, run, _, hlive⟩ := split_run
  have haccept := fun p => (kfree_accepts_live plentifulOps _ _ events s run p).2
  have hiff := fun p => (haccept p).1.trans (haccept p).2.1
  refine ⟨s, (hiff 0x400010).mpr (by simp [hlive]), ?_⟩
  rw [← Bool.not_eq_true, hiff 0x400028, hlive]
  decide

end KernelHeapRepresentation
