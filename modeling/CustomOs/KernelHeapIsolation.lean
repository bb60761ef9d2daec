import CustomOs.KernelHeapCalls
import CustomOs.Library.Transition

/-! # Isolation of heap blocks
Clients allocate, free and write inside what they hold, in any order, while the frame allocator
and the page mapper answer as they please. The blocks that are held stay apart from each other
and from every header, and no call changes a byte of theirs. -/
namespace KernelHeapIsolation

open ByteMemory KernelHeap KernelHeapTiling KernelHeapCalls

/-- The heap with the sizes asked for of the blocks that clients hold. -/
structure HeapSystem (σ : Type*) where
  heap : Kheap σ
  held : UInt32 → Option UInt32

def hold (held : UInt32 → Option UInt32) (ptr : UInt32) (size : Option UInt32) :
    UInt32 → Option UInt32 :=
  fun q => if q = ptr then size else held q

theorem hold_same (held : UInt32 → Option UInt32) (ptr : UInt32) (size : Option UInt32) :
    hold held ptr size ptr = size := by simp [hold]

theorem hold_ne (held : UInt32 → Option UInt32) {ptr q : UInt32} (size : Option UInt32)
    (h : q ≠ ptr) : hold held ptr size q = held q := by simp [hold, h]

inductive HeapEvent where
  | alloc (size ptr : UInt32)
  | free (ptr : UInt32) (accepted : Bool)
  | write (addr : UInt32) (byte : UInt8)
  | environment
  deriving DecidableEq, Repr

/-- The environment may change its own state and all memory beyond the blocks. -/
inductive HeapStep {σ : Type*} (ops : GrowthOps σ) :
    HeapSystem σ → HeapEvent → HeapSystem σ → Prop where
  | alloc (s : HeapSystem σ) (size : UInt32) :
      HeapStep ops s (.alloc size (stage8cKheapAlloc ops s.heap size).1)
        ⟨(stage8cKheapAlloc ops s.heap size).2,
          if (stage8cKheapAlloc ops s.heap size).1 = 0 then s.held
          else hold s.held (stage8cKheapAlloc ops s.heap size).1 (some size)⟩
  | free (s : HeapSystem σ) (ptr : UInt32) :
      HeapStep ops s (.free ptr (stage9aKheapFree s.heap ptr).1)
        ⟨(stage9aKheapFree s.heap ptr).2,
          if (stage9aKheapFree s.heap ptr).1 then hold s.held ptr none else s.held⟩
  | write (s : HeapSystem σ) (ptr size addr : UInt32) (byte : UInt8)
      (hheld : s.held ptr = some size) (hin : InRange ptr.toNat size.toNat addr) :
      HeapStep ops s (.write addr byte)
        { s with heap := { s.heap with memory := store8 s.heap.memory addr byte } }
  | environment (s : HeapSystem σ) (env : σ) (memory : Memory)
      (same : ∀ x : UInt32, s.heap.state.start ≤ x → x < s.heap.state.current →
        memory x = s.heap.memory x) :
      HeapStep ops s .environment { s with heap := ⟨s.heap.state, memory, env⟩ }

/-- Right after `stage8c_kheap_bootstrap_init`, over any memory. -/
def bootstrapped {σ : Type*} (memory : Memory) (env : σ) : HeapSystem σ :=
  ⟨(stage8cKheapBootstrapInit ⟨⟨false, 0, 0, 0, 0⟩, memory, env⟩).2, fun _ => none⟩

abbrev HeapRun {σ : Type*} (ops : GrowthOps σ) (memory : Memory) (env : σ) :
    List HeapEvent → HeapSystem σ → Prop :=
  Transition.Execution (HeapStep ops) (bootstrapped memory env)

/-! ## Held blocks are the allocated blocks -/

structure HeldBlocks (held : UInt32 → Option UInt32) (blocks : List Block) : Prop where
  held_block : ∀ p size, held p = some size → ∃ c b, (c, b) ∈ layoutFrom 0x400000 blocks ∧
    b.allocated = true ∧ p.toNat = c + 16 ∧ size.toNat ≤ b.payloadSize
  block_held : ∀ c b, (c, b) ∈ layoutFrom 0x400000 blocks → b.allocated = true →
    ∃ p, p.toNat = c + 16 ∧ held p ≠ none

variable {σ : Type*} {ops : GrowthOps σ} {s t : HeapSystem σ} {blocks blocks' : List Block}
  {held : UInt32 → Option UInt32}

theorem mem_layout_replace {a c : ℕ} {b e : Block} {pre post news : List Block}
    (hextent : extentOf news = b.extent) : (c, e) ∈ layoutFrom a (pre ++ news ++ post) ↔
      (c, e) ∈ layoutFrom a pre ∨ (c, e) ∈ layoutFrom (a + extentOf pre) news ∨
      (c, e) ∈ layoutFrom (a + extentOf pre + b.extent) post := by
  rw [List.append_assoc, layoutFrom_append, layoutFrom_append, List.mem_append, List.mem_append,
    hextent]

theorem mem_layout_middle {a c : ℕ} {b e : Block} {pre post : List Block} :
    (c, e) ∈ layoutFrom a (pre ++ b :: post) ↔ (c, e) ∈ layoutFrom a pre ∨
      (c = a + extentOf pre ∧ e = b) ∨
      (c, e) ∈ layoutFrom (a + extentOf pre + b.extent) post := by
  rw [layoutFrom_append, layoutFrom, List.mem_append, List.mem_cons, Prod.mk.injEq]

/-- Replacing one freed block by an allocated one and freed leftovers, for a new holder. -/
theorem HeldBlocks.take {pre post news : List Block} {b first : Block} {p size : UInt32}
    (h : HeldBlocks held (pre ++ b :: post)) (hfree : b.allocated = false)
    (hextent : extentOf news = b.extent)
    (hfirst : (0x400000 + extentOf pre, first) ∈ layoutFrom (0x400000 + extentOf pre) news)
    (halloc : first.allocated = true) (hsize : size.toNat ≤ first.payloadSize)
    (honly : ∀ c e, (c, e) ∈ layoutFrom (0x400000 + extentOf pre) news → e.allocated = true →
      c = 0x400000 + extentOf pre)
    (hp : p.toNat = 0x400000 + extentOf pre + 16) :
    HeldBlocks (hold held p (some size)) (pre ++ news ++ post) := by
  have hne : ∀ q c e, (c, e) ∈ layoutFrom 0x400000 pre ∨
      (c, e) ∈ layoutFrom (0x400000 + extentOf pre + b.extent) post →
      q.toNat = c + 16 → q ≠ p := by
    rintro q c e hce hq rfl
    have hext : b.extent = 16 + b.payloadSize := rfl
    have hext' : e.extent = 16 + e.payloadSize := rfl
    rcases hce with hce | hce
    · have := layout_bounds hce
      omega
    · have := layout_bounds hce
      omega
  refine ⟨?_, ?_⟩
  · intro q n hq
    by_cases hqp : q = p
    · subst hqp
      rw [hold_same] at hq
      obtain rfl := Option.some.inj hq
      exact ⟨_, first, (mem_layout_replace hextent).mpr (Or.inr (Or.inl hfirst)), halloc, hp, hsize⟩
    · rw [hold_ne _ _ hqp] at hq
      obtain ⟨c, e, hce, he, hqc, hn⟩ := h.held_block q n hq
      refine ⟨c, e, (mem_layout_replace hextent).mpr ?_, he, hqc, hn⟩
      rcases mem_layout_middle.mp hce with hce | ⟨rfl, rfl⟩ | hce
      · exact Or.inl hce
      · rw [hfree] at he
        exact absurd he (by simp)
      · exact Or.inr (Or.inr hce)
  · intro c e hce he
    have hother : (c, e) ∈ layoutFrom 0x400000 pre ∨
        (c, e) ∈ layoutFrom (0x400000 + extentOf pre + b.extent) post →
        ∃ q, q.toNat = c + 16 ∧ hold held p (some size) q ≠ none := by
      intro hce
      obtain ⟨q, hq, hheld⟩ := h.block_held c e (mem_layout_middle.mpr (by tauto)) he
      exact ⟨q, hq, by rw [hold_ne _ _ (hne q c e hce hq)]; exact hheld⟩
    rcases (mem_layout_replace hextent).mp hce with hce | hce | hce
    · exact hother (Or.inl hce)
    · obtain rfl := honly c e hce he
      exact ⟨p, hp, by rw [hold_same]; simp⟩
    · exact hother (Or.inr hce)

theorem carve_first {n : ℕ} {b : Block} (c : ℕ) (hn : n ≤ b.payloadSize) :
    (∃ first, (c, first) ∈ layoutFrom c (carve n b) ∧ first.allocated = true ∧
      n ≤ first.payloadSize) ∧
    ∀ d e, (d, e) ∈ layoutFrom c (carve n b) → e.allocated = true → d = c := by
  rw [carve]
  split
  · refine ⟨⟨⟨n, true⟩, by simp [layoutFrom], rfl, le_rfl⟩, ?_⟩
    intro d e hde he
    simp only [layoutFrom, List.mem_cons, List.not_mem_nil, or_false, Prod.mk.injEq] at hde
    rcases hde with ⟨rfl, _⟩ | ⟨_, rfl⟩
    · rfl
    · simp at he
  · refine ⟨⟨⟨b.payloadSize, true⟩, by simp [layoutFrom], rfl, hn⟩, ?_⟩
    intro d e hde _
    simp only [layoutFrom, List.mem_singleton, Prod.mk.injEq] at hde
    exact hde.1

theorem HeldBlocks.alloc {heap' : Kheap σ} {size ptr : UInt32}
    (h : HeldBlocks s.held blocks) (hinv : HeapInv s.heap blocks)
    (he : AllocEffect s.heap heap' blocks size ptr blocks') :
    HeldBlocks (if ptr = 0 then s.held else hold s.held ptr (some size)) blocks' := by
  cases he with
  | failed hptr grown same =>
    rw [if_pos hptr]
    exact h
  | reused pre b post n round split fits first hptr state same =>
    rw [Block.fits, Bool.and_eq_true, Bool.not_eq_true', decide_eq_true_eq] at fits
    obtain ⟨⟨fst, hmem, halloc, hn⟩, honly⟩ := carve_first (0x400000 + extentOf pre) fits.2
    have hne : ptr ≠ 0 := MachineWord.ne_zero32_iff.mpr (by omega)
    rw [if_neg hne]
    rw [split] at h
    exact h.take fits.1 (extentOf_carve fits.2) hmem halloc (by omega) honly hptr
  | bumped n round none_fits hptr current mapped same =>
    have hne : ptr ≠ 0 := MachineWord.ne_zero32_iff.mpr (by omega)
    have hext := hinv.tiles.extent
    rw [if_neg hne]
    refine ⟨?_, ?_⟩
    · intro q m hq
      by_cases hqp : q = ptr
      · subst hqp
        rw [hold_same] at hq
        obtain rfl := Option.some.inj hq
        refine ⟨_, ⟨n, true⟩, ?_, rfl, hptr, by simp only; omega⟩
        rw [layoutFrom_append, hext]
        exact List.mem_append_right _ (by simp [layoutFrom])
      · rw [hold_ne _ _ hqp] at hq
        obtain ⟨c, e, hce, hrest⟩ := h.held_block q m hq
        refine ⟨c, e, ?_, hrest⟩
        rw [layoutFrom_append]
        exact List.mem_append_left _ hce
    · intro c e hce he
      rw [layoutFrom_append, hext] at hce
      rcases List.mem_append.mp hce with hce | hce
      · obtain ⟨q, hq, hheld⟩ := h.block_held c e hce he
        have hb := layout_bounds hce
        have hextent : e.extent = 16 + e.payloadSize := rfl
        have hqp : q ≠ ptr := by
          rintro rfl
          omega
        exact ⟨q, hq, by rw [hold_ne _ _ hqp]; exact hheld⟩
      · simp only [layoutFrom, List.mem_singleton, Prod.mk.injEq] at hce
        obtain ⟨rfl, rfl⟩ := hce
        exact ⟨ptr, hptr, by rw [hold_same]; simp⟩

theorem HeldBlocks.free {pre post : List Block} {b : Block} {ptr : UInt32}
    (h : HeldBlocks held (pre ++ b :: post)) (hptr : ptr.toNat = 0x400000 + extentOf pre + 16) :
    HeldBlocks (hold held ptr none) (pre ++ ⟨b.payloadSize, false⟩ :: post) := by
  have hextent : Block.extent ⟨b.payloadSize, false⟩ = b.extent := rfl
  have happly : ∀ c e, (c, e) ∈ layoutFrom 0x400000 (pre ++ b :: post) → e.allocated = true →
      c ≠ 0x400000 + extentOf pre →
      (c, e) ∈ layoutFrom 0x400000 (pre ++ ⟨b.payloadSize, false⟩ :: post) := by
    intro c e hce _ hc
    rw [mem_layout_middle, hextent]
    rcases mem_layout_middle.mp hce with hce | ⟨rfl, rfl⟩ | hce
    · exact Or.inl hce
    · exact absurd rfl hc
    · exact Or.inr (Or.inr hce)
  refine ⟨?_, ?_⟩
  · intro q n hq
    by_cases hqp : q = ptr
    · subst hqp
      rw [hold_same] at hq
      cases hq
    · rw [hold_ne _ _ hqp] at hq
      obtain ⟨c, e, hce, he, hqc, hn⟩ := h.held_block q n hq
      refine ⟨c, e, happly c e hce he ?_, he, hqc, hn⟩
      rintro rfl
      exact hqp (UInt32.toNat_inj.mp (by omega))
  · intro c e hce he
    have hback : (c, e) ∈ layoutFrom 0x400000 (pre ++ b :: post) ∧
        c ≠ 0x400000 + extentOf pre := by
      have hbext : b.extent = 16 + b.payloadSize := rfl
      have heext : e.extent = 16 + e.payloadSize := rfl
      rw [mem_layout_middle, hextent] at hce
      rw [mem_layout_middle]
      rcases hce with hce | ⟨_, rfl⟩ | hce
      · have := layout_bounds hce
        exact ⟨Or.inl hce, by omega⟩
      · simp at he
      · have := layout_bounds hce
        exact ⟨Or.inr (Or.inr hce), by omega⟩
    obtain ⟨q, hq, hheld⟩ := h.block_held c e hback.1 he
    refine ⟨q, hq, ?_⟩
    rw [hold_ne]
    · exact hheld
    · rintro rfl
      exact hback.2 (by omega)

/-! ## Every run keeps the blocks apart -/

def Isolated (s : HeapSystem σ) : Prop :=
  ∃ blocks, HeapInv s.heap blocks ∧ HeldBlocks s.held blocks

/-- The bytes of a held block lie in the payload of its block. -/
theorem HeldBlocks.payload (h : HeldBlocks held blocks) {p size : UInt32}
    (hp : held p = some size) : ∃ c b, (c, b) ∈ layoutFrom 0x400000 blocks ∧
      b.allocated = true ∧ p.toNat = c + 16 ∧
      ∀ x, InRange p.toNat size.toNat x → c + 16 ≤ x.toNat ∧ x.toNat < c + b.extent := by
  obtain ⟨c, b, hcb, halloc, hpc, hsize⟩ := h.held_block p size hp
  have hext : b.extent = 16 + b.payloadSize := rfl
  refine ⟨c, b, hcb, halloc, hpc, ?_⟩
  rintro x ⟨hl, hu⟩
  omega

/-- A held byte is in no header. -/
theorem HeldBlocks.not_header (h : HeldBlocks held blocks) {p size x : UInt32}
    (hp : held p = some size) (hx : InRange p.toNat size.toNat x) {c : ℕ} {b : Block}
    (hcb : (c, b) ∈ layoutFrom 0x400000 blocks) : ¬ InRange c 16 x := by
  rintro ⟨hl, hu⟩
  obtain ⟨d, e, hde, _, _, hin⟩ := h.payload hp
  have hxin := hin x hx
  have hext : b.extent = 16 + b.payloadSize := rfl
  have hext' : e.extent = 16 + e.payloadSize := rfl
  rcases layout_apart hcb hde with ⟨rfl, rfl⟩ | hapart | hapart <;> omega

/-- A block that is given out is not one that is held. -/
theorem apart_of_fits {c d n : ℕ} {b e : Block} (hcb : (c, b) ∈ layoutFrom 0x400000 blocks)
    (hde : (d, e) ∈ layoutFrom 0x400000 blocks) (halloc : b.allocated = true)
    (hfits : e.fits n = true) : c + b.extent ≤ d ∨ d + e.extent ≤ c := by
  rcases layout_apart hcb hde with ⟨_, rfl⟩ | hapart
  · rw [Block.fits, halloc] at hfits
    simp at hfits
  · exact hapart

/-- Writing inside held blocks. -/
theorem Isolated.write (h : Isolated s) {memory : Memory}
    (same : ∀ x, (∀ p size, s.held p = some size → ¬ InRange p.toNat size.toNat x) →
      memory x = s.heap.memory x) :
    Isolated { s with heap := { s.heap with memory := memory } } := by
  obtain ⟨blocks, hinv, hheld⟩ := h
  refine ⟨blocks, hinv.rewrite _ fun c b hcb x hx => ?_, hheld⟩
  apply same
  intro p size hp hin
  exact hheld.not_header hp hin hcb hx

/-- An allocation returns null or a block nobody holds. -/
theorem Isolated.alloc_fresh (h : Isolated s) (ops : GrowthOps σ) (size : UInt32)
    (hne : (stage8cKheapAlloc ops s.heap size).1 ≠ 0) :
    s.held (stage8cKheapAlloc ops s.heap size).1 = none := by
  obtain ⟨blocks, hinv, hheld⟩ := h
  obtain ⟨blocks', heffect, _⟩ := hinv.alloc ops size
  cases hq : s.held (stage8cKheapAlloc ops s.heap size).1 with
  | none => rfl
  | some n =>
    obtain ⟨c, b, hcb, halloc, hpc, _⟩ := hheld.held_block _ n hq
    cases heffect with
    | failed hptr grown same => exact absurd hptr hne
    | reused pre e post m round split fits first hptr state same =>
      have hde : (0x400000 + extentOf pre, e) ∈ layoutFrom 0x400000 blocks := by
        rw [split]
        exact mem_layout_split e
      have hext : b.extent = 16 + b.payloadSize := rfl
      have hext' : e.extent = 16 + e.payloadSize := rfl
      rcases apart_of_fits hcb hde halloc fits with hapart | hapart <;> omega
    | bumped m round none_fits hptr current mapped same =>
      have hb := layout_bounds hcb
      have hext := hinv.tiles.extent
      have hbext : b.extent = 16 + b.payloadSize := rfl
      omega

/-- Headers lie in the used part of the window. -/
theorem HeapInv.header_inside {heap : Kheap σ} (h : HeapInv heap blocks) {memory : Memory}
    (same : ∀ x : UInt32, heap.state.start ≤ x → x < heap.state.current →
      memory x = heap.memory x) {c : ℕ} {b : Block} (hcb : (c, b) ∈ layoutFrom 0x400000 blocks)
    {x : UInt32} (hx : InRange c 16 x) : memory x = heap.memory x := by
  have hstart := h.start_toNat
  have hb := h.bounds hcb
  obtain ⟨hl, hu⟩ := hx
  apply same
  · rw [UInt32.le_iff_toNat_le, hstart]
    omega
  · rw [UInt32.lt_iff_toNat_lt]
    omega

theorem Isolated.step {e : HeapEvent} (hs : HeapStep ops s e t) (h : Isolated s) : Isolated t := by
  obtain ⟨blocks, hinv, hheld⟩ := h
  cases hs with
  | alloc size =>
    obtain ⟨blocks', heffect, hinv'⟩ := hinv.alloc ops size
    exact ⟨blocks', hinv', hheld.alloc hinv heffect⟩
  | free ptr =>
    rcases hinv.free ptr with ⟨pre, b, post, memory', rfl, halloc, hptr, heq, hinv', _⟩ | ⟨_, heq⟩
    · simp only [heq, if_true]
      exact ⟨_, hinv', hheld.free hptr⟩
    · simp only [heq, Bool.false_eq_true, if_false]
      exact ⟨blocks, hinv, hheld⟩
  | write ptr size addr byte hp hin =>
    apply Isolated.write ⟨blocks, hinv, hheld⟩
    intro x hx
    apply store8_ne
    rintro rfl
    exact hx ptr size hp hin
  | environment env memory same =>
    exact ⟨blocks, hinv.rewrite env fun c b hcb x hx => HeapInv.header_inside hinv same hcb hx,
      hheld⟩

theorem isolated_start (memory : Memory) (env : σ) : Isolated (bootstrapped memory env) :=
  ⟨[], (bootstrap_inv _ rfl).2, ⟨by simp [bootstrapped], by simp [layoutFrom]⟩⟩

theorem isolated_of_run {memory : Memory} {env : σ} {events : List HeapEvent}
    (hrun : HeapRun ops memory env events s) : Isolated s :=
  hrun.invariant (I := fun _ s => Isolated s) (isolated_start memory env)
    fun _ _ _ _ h hs => h.step hs

/-- What clients may rely on in a state of the heap. -/
structure Isolation (s : HeapSystem σ) : Prop where
  aligned : ∀ p size, s.held p = some size → p.toNat % 8 = 0
  disjoint : ∀ p q size size', s.held p = some size → s.held q = some size' → p ≠ q →
    p.toNat + size.toNat ≤ q.toNat ∨ q.toNat + size'.toNat ≤ p.toNat
  contained : ∀ p size, s.held p = some size →
    s.heap.state.start.toNat ≤ p.toNat ∧ p.toNat + size.toNat ≤ s.heap.state.current.toNat
  headers : ∃ blocks,
    Tiles s.heap.memory s.heap.state.start.toNat blocks s.heap.state.current.toNat ∧
    ∀ p size, s.held p = some size →
      ∀ c b, (c, b) ∈ layoutFrom s.heap.state.start.toNat blocks →
        p.toNat + size.toNat ≤ c ∨ c + 16 ≤ p.toNat
  bounds : s.heap.state.current ≤ s.heap.state.mappedEndExclusive ∧
    s.heap.state.mappedEndExclusive ≤ s.heap.state.endExclusive

theorem Isolated.isolation (h : Isolated s) : Isolation s := by
  obtain ⟨blocks, hinv, hheld⟩ := h
  have hstart := hinv.start_toNat
  have hend := hinv.end_toNat
  refine ⟨?_, ?_, ?_, ⟨blocks, by rw [hstart]; exact hinv.tiles, ?_⟩, ?_, ?_⟩
  · intro p size hp
    obtain ⟨c, b, hcb, _, hpc, _⟩ := hheld.held_block p size hp
    have := layout_aligned hinv.tiles (by decide) hcb
    omega
  · intro p q size size' hp hq hne
    obtain ⟨c, b, hcb, _, hpc, hsize⟩ := hheld.held_block p size hp
    obtain ⟨d, e, hde, _, hqd, hsize'⟩ := hheld.held_block q size' hq
    have hext : b.extent = 16 + b.payloadSize := rfl
    have hext' : e.extent = 16 + e.payloadSize := rfl
    rcases layout_apart hcb hde with ⟨rfl, rfl⟩ | hapart | hapart
    · exact absurd (UInt32.toNat_inj.mp (by omega)) hne
    · left; omega
    · right; omega
  · intro p size hp
    obtain ⟨c, b, hcb, _, hpc, hsize⟩ := hheld.held_block p size hp
    have hb := hinv.bounds hcb
    omega
  · intro p size hp c b hcb
    rw [hstart] at hcb
    obtain ⟨d, e, hde, _, hpd, hsize⟩ := hheld.held_block p size hp
    have hext : b.extent = 16 + b.payloadSize := rfl
    have hext' : e.extent = 16 + e.payloadSize := rfl
    rcases layout_apart hcb hde with ⟨rfl, rfl⟩ | hapart | hapart
    · right; omega
    · right; omega
    · left; omega
  · exact UInt32.le_iff_toNat_le.mpr hinv.current_le
  · rw [UInt32.le_iff_toNat_le, hend]
    exact hinv.mapped_le

/-- A byte of a held block survives every call. -/
theorem Isolated.calls_keep (h : Isolated s) (ops : GrowthOps σ) {p size x : UInt32}
    (hp : s.held p = some size) (hx : InRange p.toNat size.toNat x) :
    (∀ n, (stage8cKheapAlloc ops s.heap n).2.memory x = s.heap.memory x) ∧
    ∀ q, (stage9aKheapFree s.heap q).2.memory x = s.heap.memory x := by
  obtain ⟨blocks, hinv, hheld⟩ := h
  obtain ⟨c, b, hcb, halloc, hpc, hin⟩ := hheld.payload hp
  have hxin := hin x hx
  refine ⟨fun n => ?_, fun q => ?_⟩
  · obtain ⟨blocks', heffect, _⟩ := hinv.alloc ops n
    cases heffect with
    | failed hptr grown same => rw [same]
    | reused pre e post m round split fits first hptr state same =>
      apply same
      rintro ⟨hl, hu⟩
      have hde : (0x400000 + extentOf pre, e) ∈ layoutFrom 0x400000 blocks := by
        rw [split]
        exact mem_layout_split e
      rcases apart_of_fits hcb hde halloc fits with hapart | hapart <;> omega
    | bumped m round none_fits hptr current mapped same =>
      apply same
      rintro ⟨hl, hu⟩
      have hb := layout_bounds hcb
      have hext := hinv.tiles.extent
      omega
  · rcases hinv.free q with ⟨pre, e, post, memory', rfl, _, _, heq, _, hsame, _⟩ | ⟨_, heq⟩
    · rw [heq]
      exact hsame x (hheld.not_header hp hx (mem_layout_split e))
    · rw [heq]

/-- Frames in a row from 2 MiB on, and a mapper that accepts every page. -/
def plentifulOps : GrowthOps UInt64 :=
  ⟨fun frame => (some frame, frame + 0x1000), fun frame _ _ => (true, frame)⟩

end KernelHeapIsolation
