import CustomOs.KernelHeapTiling

/-! # What each heap call does to the blocks
One invariant, `HeapInv`, and one theorem for each call that says how the list of blocks, the
bounds and the memory change. Callers use these and never the walks. -/
namespace KernelHeapCalls

open ByteMemory Loop KernelHeap KernelHeapTiling

structure HeapInv {σ : Type*} (heap : Kheap σ) (blocks : List Block) : Prop where
  initialized : heap.state.isInitialized = true
  start_eq : heap.state.start = VmmLayout.futureHeapReservedStart
  end_eq : heap.state.endExclusive = VmmLayout.futureHeapReservedEndExclusive
  tiles : Tiles heap.memory 0x400000 blocks heap.state.current.toNat
  current_le : heap.state.current.toNat ≤ heap.state.mappedEndExclusive.toNat
  mapped_le : heap.state.mappedEndExclusive.toNat ≤ 0x800000
  mapped_aligned : heap.state.mappedEndExclusive.toNat % 4096 = 0

variable {σ : Type*} {heap : Kheap σ} {blocks : List Block} {ops : GrowthOps σ}

theorem HeapInv.start_toNat (h : HeapInv heap blocks) : heap.state.start.toNat = 0x400000 := by
  rw [h.start_eq]
  rfl

theorem HeapInv.end_toNat (h : HeapInv heap blocks) :
    heap.state.endExclusive.toNat = 0x800000 := by
  rw [h.end_eq]
  rfl

theorem HeapInv.bounds (h : HeapInv heap blocks) {c : ℕ} {b : Block}
    (hcb : (c, b) ∈ layoutFrom 0x400000 blocks) :
    0x400000 ≤ c ∧ c + 16 + b.payloadSize ≤ heap.state.current.toNat ∧
      c + 16 + b.payloadSize ≤ 0x800000 := by
  have hb := layout_bounds hcb
  have he := h.tiles.extent
  have h₁ := h.current_le
  have h₂ := h.mapped_le
  rw [Block.extent] at hb
  omega

/-- Sizes are multiples of 8, so headers and payloads are 8-byte aligned. -/
theorem layout_aligned {memory : Memory} {start stop : ℕ} (h : Tiles memory start blocks stop)
    (hstart : start % 8 = 0) {c : ℕ} {b : Block} (hcb : (c, b) ∈ layoutFrom start blocks) :
    c % 8 = 0 := by
  induction blocks generalizing start with
  | nil => simp [layoutFrom] at hcb
  | cons x xs ih =>
    have hx := h.headers start x (by rw [layoutFrom]; exact List.mem_cons_self)
    have hmul := hx.multiple
    rw [layoutFrom] at hcb
    rcases List.mem_cons.mp hcb with hcb | hcb
    · obtain ⟨rfl, rfl⟩ := Prod.mk.inj hcb
      exact hstart
    · exact ih h.tail (by rw [Block.extent]; omega) hcb

/-! ## Rounding -/

theorem alignUp_eq {alignment : UInt32} (v : UInt32) (k : ℕ) (hk : k < 32)
    (hmask : (alignment - 1).toNat = 2 ^ k - 1) (hne : alignment ≠ 0)
    (hpow : alignment &&& (alignment - 1) = 0) :
    (stage8cKheapAlignUp v alignment = none ∧
      2 ^ 32 ≤ (v.toNat + (2 ^ k - 1)) / 2 ^ k * 2 ^ k) ∨
    ∃ w, stage8cKheapAlignUp v alignment = some w ∧
      w.toNat = (v.toNat + (2 ^ k - 1)) / 2 ^ k * 2 ^ k := by
  have hlt := v.toNat_lt
  have hpos : 0 < 2 ^ k := Nat.two_pow_pos k
  have hdvd : 2 ^ 32 = 2 ^ k * 2 ^ (32 - k) := by rw [← Nat.pow_add]; congr 1; omega
  have hvalid : ¬ (alignment = 0 ∨ alignment &&& (alignment - 1) ≠ 0) := by
    rw [not_or, not_not]
    exact ⟨hne, hpow⟩
  have hrem := MachineWord.and_mask32 v k hmask
  have hmax : uint32Max.toNat = 2 ^ 32 - 1 := rfl
  have hmod := Nat.mod_lt v.toNat hpos
  have hdiv := Nat.div_add_mod v.toNat (2 ^ k)
  simp only [stage8cKheapAlignUp]
  rw [if_neg hvalid]
  by_cases haligned : v &&& (alignment - 1) = 0
  · have hzero : v.toNat % 2 ^ k = 0 := by
      rw [← hrem, haligned, UInt32.toNat_zero]
    right
    refine ⟨v, by rw [if_pos haligned], ?_⟩
    have hround : (v.toNat + (2 ^ k - 1)) / 2 ^ k = v.toNat / 2 ^ k := by
      rw [Nat.div_eq_iff hpos]
      constructor
      · rw [Nat.mul_comm]; omega
      · rw [Nat.mul_comm]; omega
    rw [hround, Nat.mul_comm]
    omega
  · have hle : alignment - 1 ≤ uint32Max := by
      have := (alignment - 1).toNat_lt
      rw [UInt32.le_iff_toNat_le, hmax]
      omega
    have hsub := UInt32.toNat_sub_of_le _ _ hle
    rw [if_neg haligned]
    by_cases hover : uint32Max - (alignment - 1) < v
    · left
      rw [if_pos hover]
      refine ⟨rfl, ?_⟩
      have hover' := UInt32.lt_iff_toNat_lt.mp hover
      rw [hsub, hmax, hmask] at hover'
      have hge : 2 ^ (32 - k) ≤ (v.toNat + (2 ^ k - 1)) / 2 ^ k := by
        rw [Nat.le_div_iff_mul_le hpos, Nat.mul_comm, ← hdvd]
        have hkle : 2 ^ k ≤ 2 ^ 32 := Nat.pow_le_pow_right (by decide) (by omega)
        omega
      calc 2 ^ 32 = 2 ^ (32 - k) * 2 ^ k := by rw [Nat.mul_comm, hdvd]
        _ ≤ (v.toNat + (2 ^ k - 1)) / 2 ^ k * 2 ^ k := Nat.mul_le_mul_right _ hge
    · right
      have hover' := UInt32.le_iff_toNat_le.mp (UInt32.not_lt.mp hover)
      rw [hsub, hmax, hmask] at hover'
      have hkle : 2 ^ k ≤ 2 ^ 32 := Nat.pow_le_pow_right (by decide) (by omega)
      rw [if_neg hover]
      refine ⟨_, rfl, ?_⟩
      rw [MachineWord.and_not_mask32 _ k (by omega) hmask,
        MachineWord.toNat_add32 (by rw [hmask]; omega), hmask]

theorem alignUp_eight (v : UInt32) :
    (stage8cKheapAlignUp v kheapMinAlignment = none ∧ 2 ^ 32 ≤ (v.toNat + 7) / 8 * 8) ∨
    ∃ w, stage8cKheapAlignUp v kheapMinAlignment = some w ∧ w.toNat = (v.toNat + 7) / 8 * 8 :=
  alignUp_eq v 3 (by decide) rfl (by decide) (by decide)

theorem alignUp_page (v : UInt32) :
    (stage8cKheapAlignUp v Paging.pageSize = none ∧
      2 ^ 32 ≤ (v.toNat + 4095) / 4096 * 4096) ∨
    ∃ w, stage8cKheapAlignUp v Paging.pageSize = some w ∧
      w.toNat = (v.toNat + 4095) / 4096 * 4096 :=
  alignUp_eq v 12 (by decide) rfl (by decide) (by decide)

/-! ## Growth -/

/-- All that one iteration of the growth loop can do. -/
inductive GrowthStep (ops : GrowthOps σ) (required : UInt32) (state : Stage8cKheapState) (env : σ) :
    Iteration (Stage8cKheapState × σ) (Bool × Stage8cKheapState × σ) → Prop where
  | done (h : ¬ state.mappedEndExclusive < required) :
      GrowthStep ops required state env (.leave (true, state, env))
  | full (h : state.mappedEndExclusive < required)
      (hfull : state.endExclusive ≤ state.mappedEndExclusive) :
      GrowthStep ops required state env (.leave (false, state, env))
  | noFrame {env' : σ} (h : state.mappedEndExclusive < required)
      (halloc : ops.allocFrame env = (none, env')) :
      GrowthStep ops required state env (.leave (false, state, env'))
  | highFrame {frame : UInt64} {env' : σ} (h : state.mappedEndExclusive < required)
      (halloc : ops.allocFrame env = (some frame, env'))
      (hhigh : uint32Max.toUInt64 < frame) :
      GrowthStep ops required state env (.leave (false, state, env'))
  | refused {frame : UInt64} {env₁ env' : σ} (h : state.mappedEndExclusive < required)
      (halloc : ops.allocFrame env = (some frame, env₁))
      (hlow : ¬ uint32Max.toUInt64 < frame)
      (hmap : ops.mapPage env₁ state.mappedEndExclusive
        (Paging.stage7aPagingFrameAddr frame.toUInt32) = (false, env')) :
      GrowthStep ops required state env (.leave (false, state, env'))
  | mapped {frame : UInt64} {env₁ env' : σ} (h : state.mappedEndExclusive < required)
      (hroom : ¬ state.endExclusive ≤ state.mappedEndExclusive)
      (halloc : ops.allocFrame env = (some frame, env₁))
      (hlow : ¬ uint32Max.toUInt64 < frame)
      (hmap : ops.mapPage env₁ state.mappedEndExclusive
        (Paging.stage7aPagingFrameAddr frame.toUInt32) = (true, env')) :
      GrowthStep ops required state env (.next ({ state with
        mappedEndExclusive := state.mappedEndExclusive + Paging.pageSize }, env'))

theorem growthStep (ops : GrowthOps σ) (required : UInt32) (state : Stage8cKheapState) (env : σ) :
    GrowthStep ops required state env (ensureMappedIteration ops required (state, env)) := by
  simp only [ensureMappedIteration]
  by_cases h : state.mappedEndExclusive < required
  swap
  · rw [if_pos h]
    exact .done h
  rw [if_neg (not_not.mpr h)]
  by_cases hfull : state.endExclusive ≤ state.mappedEndExclusive
  · rw [if_pos hfull]
    exact .full h hfull
  rw [if_neg hfull]
  cases halloc : ops.allocFrame env with
  | mk frame env₁ =>
    cases frame with
    | none => exact .noFrame h halloc
    | some frame =>
      simp only
      by_cases hhigh : uint32Max.toUInt64 < frame
      · rw [if_pos hhigh]
        exact .highFrame h halloc hhigh
      rw [if_neg hhigh]
      cases hmap : ops.mapPage env₁ state.mappedEndExclusive
          (Paging.stage7aPagingFrameAddr frame.toUInt32) with
      | mk ok env' =>
        cases ok with
        | false => exact .refused h halloc hhigh hmap
        | true => exact .mapped h hfull halloc hhigh hmap

/-- `next` is `state` with its mapped limit moved up within the window. -/
structure Grown (state next : Stage8cKheapState) : Prop where
  same : next = { state with mappedEndExclusive := next.mappedEndExclusive }
  lower : state.mappedEndExclusive.toNat ≤ next.mappedEndExclusive.toNat
  upper : next.mappedEndExclusive.toNat ≤ 0x800000
  aligned : next.mappedEndExclusive.toNat % 4096 = 0

/-- One more page, while there is room in the window. -/
theorem Grown.page {state s : Stage8cKheapState} (h : Grown state s)
    (hend : state.endExclusive = VmmLayout.futureHeapReservedEndExclusive)
    (hroom : ¬ s.endExclusive ≤ s.mappedEndExclusive) :
    Grown state { s with mappedEndExclusive := s.mappedEndExclusive + Paging.pageSize } ∧
      (s.mappedEndExclusive + Paging.pageSize).toNat = s.mappedEndExclusive.toNat + 4096 := by
  have hend' : state.endExclusive.toNat = 0x800000 := by rw [hend]; rfl
  have hpage : Paging.pageSize.toNat = 4096 := rfl
  have hroom' := UInt32.lt_iff_toNat_lt.mp (UInt32.not_le.mp hroom)
  have hends : s.endExclusive = state.endExclusive := congrArg (·.endExclusive) h.same
  rw [hends, hend'] at hroom'
  have hlower := h.lower
  have haligned := h.aligned
  have hadd : (s.mappedEndExclusive + Paging.pageSize).toNat =
      s.mappedEndExclusive.toNat + 4096 :=
    MachineWord.toNat_add32 (by rw [hpage]; omega)
  refine ⟨⟨?_, ?_, ?_, ?_⟩, hadd⟩
  · exact congrArg (fun q : Stage8cKheapState =>
      { q with mappedEndExclusive := s.mappedEndExclusive + Paging.pageSize }) h.same
  · simp only [hadd]; omega
  · simp only [hadd]; omega
  · simp only [hadd]; omega

/-- The rule of the growth loop: what every page added keeps holds where the loop is left. -/
theorem ensureMapped_rule {ops : GrowthOps σ} {state : Stage8cKheapState} {env : σ}
    {required : UInt32} {I : Stage8cKheapState × σ → Prop}
    {Q : Bool × Stage8cKheapState × σ → Prop}
    (hend : state.endExclusive = VmmLayout.futureHeapReservedEndExclusive)
    (hle : state.mappedEndExclusive.toNat ≤ 0x800000)
    (haligned : state.mappedEndExclusive.toNat % 4096 = 0) (hstart : I (state, env))
    (hpage : ∀ s t, Grown state s.1 → I s → GrowthStep ops required s.1 s.2 (.next t) → I t)
    (hleave : ∀ s r, Grown state s.1 → I s → GrowthStep ops required s.1 s.2 (.leave r) → Q r) :
    Q (stage8cKheapEnsureMappedUntil ops state env required) := by
  have hiteration : ∀ s t, Grown state s.1 ∧ I s → ensureMappedIteration ops required s = .next t →
      (Grown state t.1 ∧ I t) ∧ required.toNat - t.1.mappedEndExclusive.toNat <
        required.toNat - s.1.mappedEndExclusive.toNat := by
    intro s t hs hbody
    obtain ⟨hgrown, hinv⟩ := hs
    have hstep := growthStep ops required s.1 s.2
    rw [hbody] at hstep
    have hkept := hpage s t hgrown hinv hstep
    cases hstep with
    | mapped h hroom halloc hlow hmap =>
      have hlt := UInt32.lt_iff_toNat_lt.mp h
      obtain ⟨hgrown', hadd⟩ := hgrown.page hend hroom
      exact ⟨⟨hgrown', hkept⟩, by simp only [hadd]; omega⟩
  have hexit : ∀ s r, Grown state s.1 ∧ I s → ensureMappedIteration ops required s = .leave r →
      Q r := by
    intro s r hs hbody
    have hstep := growthStep ops required s.1 s.2
    rw [hbody] at hstep
    exact hleave s r hs.1 hs.2 hstep
  have hgrown : Grown state state := ⟨rfl, le_rfl, hle, haligned⟩
  have hfuel : required.toNat - state.mappedEndExclusive.toNat < required.toNat + 1 := by omega
  obtain ⟨r, hrun, hr⟩ :=
    run_spec hiteration hexit (s := (state, env)) ⟨hgrown, hstart⟩ hfuel
  rw [stage8cKheapEnsureMappedUntil, hrun, Option.getD_some]
  exact hr

/-- The growth loop moves the mapped limit up and nothing else; it succeeds exactly when the
limit gets where it should. -/
theorem ensureMapped_spec (ops : GrowthOps σ) (state : Stage8cKheapState) (env : σ)
    {required : UInt32} (hend : state.endExclusive = VmmLayout.futureHeapReservedEndExclusive)
    (hle : state.mappedEndExclusive.toNat ≤ 0x800000)
    (haligned : state.mappedEndExclusive.toNat % 4096 = 0) :
    ∃ ok next env', stage8cKheapEnsureMappedUntil ops state env required = (ok, next, env') ∧
      Grown state next ∧ (ok = true ↔ required.toNat ≤ next.mappedEndExclusive.toNat) := by
  have hleave : ∀ (s : Stage8cKheapState × σ) (r : Bool × Stage8cKheapState × σ),
      Grown state s.1 → True → GrowthStep ops required s.1 s.2 (.leave r) →
      Grown state r.2.1 ∧ (r.1 = true ↔ required.toNat ≤ r.2.1.mappedEndExclusive.toNat) := by
    intro s r hs _ hstep
    have hfail : s.1.mappedEndExclusive < required →
        ((false = true) ↔ required.toNat ≤ s.1.mappedEndExclusive.toNat) := by
      intro h
      have := UInt32.lt_iff_toNat_lt.mp h
      simp only [Bool.false_eq_true, false_iff]
      omega
    cases hstep with
    | done h =>
      have := UInt32.le_iff_toNat_le.mp (UInt32.not_lt.mp h)
      exact ⟨hs, by simpa using this⟩
    | full h hfull => exact ⟨hs, hfail h⟩
    | noFrame h halloc => exact ⟨hs, hfail h⟩
    | highFrame h halloc hhigh => exact ⟨hs, hfail h⟩
    | refused h halloc hlow hmap => exact ⟨hs, hfail h⟩
  refine ⟨_, _, _, rfl, ?_⟩
  exact ensureMapped_rule (I := fun _ => True)
    (Q := fun r => Grown state r.2.1 ∧
      (r.1 = true ↔ required.toNat ≤ r.2.1.mappedEndExclusive.toNat))
    hend hle haligned trivial (fun _ _ _ _ _ => trivial) hleave

/-! ## Reuse -/

/-- What taking `n` bytes leaves of a block: the rest is split off when it can hold a block. -/
def carve (n : ℕ) (b : Block) : List Block :=
  if 24 ≤ b.payloadSize - n then [⟨n, true⟩, ⟨b.payloadSize - n - 16, false⟩]
  else [⟨b.payloadSize, true⟩]

theorem extentOf_carve {n : ℕ} {b : Block} (hn : n ≤ b.payloadSize) :
    extentOf (carve n b) = b.extent := by
  rw [carve]
  split
  · simp only [extentOf_cons, extentOf_nil, Block.extent]
    omega
  · simp [Block.extent]

theorem first_match (p : Block → Bool) (blocks : List Block) :
    (∀ b ∈ blocks, p b = false) ∨
    ∃ pre b post, blocks = pre ++ b :: post ∧ p b = true ∧ ∀ x ∈ pre, p x = false := by
  cases hfind : blocks.find? p with
  | none =>
    left
    intro b hb
    simpa using List.find?_eq_none.mp hfind b hb
  | some b =>
    right
    obtain ⟨hp, pre, post, heq, hpre⟩ := List.find?_eq_some_iff_append.mp hfind
    exact ⟨pre, b, post, heq, hp, fun x hx => by simpa using hpre x hx⟩

theorem stateWord_freed (b : Block) : b.stateWord = allocationStateFreed ↔ b.allocated = false := by
  rw [Block.stateWord]
  cases b.allocated <;> decide

theorem stateWord_allocated (b : Block) :
    b.stateWord = allocationStateAllocated ↔ b.allocated = true := by
  rw [Block.stateWord]
  cases b.allocated <;> decide

section Reuse

variable {memory : Memory} {c : ℕ} {b : Block} {n : UInt32}

theorem visit_reuse (h : HeaderAt memory c b) (hc : c + b.extent < 2 ^ 32) (n : UInt32) :
    visitBlock (reuseVisit memory n) (c, b) =
      if b.fits n.toNat then
        some ⟨1, UInt32.ofNat (c + 16), takeBlock memory (UInt32.ofNat c) (UInt32.ofNat (c + 16))
          (UInt32.ofNat b.payloadSize) n⟩
      else none := by
  rw [Block.extent] at hc
  have hsize : (UInt32.ofNat b.payloadSize).toNat = b.payloadSize := word_toNat (by omega)
  have hiff : (headerState memory (UInt32.ofNat c) = allocationStateFreed ∧
      n ≤ UInt32.ofNat b.payloadSize) ↔ b.fits n.toNat = true := by
    rw [h.state, stateWord_freed, UInt32.le_iff_toNat_le, hsize, Block.fits, Bool.and_eq_true,
      Bool.not_eq_true', decide_eq_true_eq]
  simp only [visitBlock, reuseVisit]
  by_cases hfit : b.fits n.toNat = true
  · rw [if_pos (hiff.mpr hfit), if_pos hfit]
  · rw [if_neg fun hx => hfit (hiff.mp hx), if_neg hfit]

/-- Taking a block writes the headers of what it leaves, inside the block. -/
theorem takeBlock_spec (h : HeaderAt memory c b) (hc : c + b.extent < 2 ^ 32)
    (hpos : 0 < n.toNat) (hmul : n.toNat % 8 = 0) (hn : n.toNat ≤ b.payloadSize) :
    (∀ d e, (d, e) ∈ layoutFrom c (carve n.toNat b) →
      HeaderAt (takeBlock memory (UInt32.ofNat c) (UInt32.ofNat (c + 16))
        (UInt32.ofNat b.payloadSize) n) d e) ∧
    SameOutside (takeBlock memory (UInt32.ofNat c) (UInt32.ofNat (c + 16))
      (UInt32.ofNat b.payloadSize) n) memory c b.extent := by
  have hbmul := h.multiple
  rw [Block.extent] at hc ⊢
  have hsize : (UInt32.ofNat b.payloadSize).toNat = b.payloadSize := word_toNat (by omega)
  have hle : n ≤ UInt32.ofNat b.payloadSize := by
    rw [UInt32.le_iff_toNat_le, hsize]
    exact hn
  have hrem : (UInt32.ofNat b.payloadSize - n).toNat = b.payloadSize - n.toNat := by
    rw [UInt32.toNat_sub_of_le _ _ hle, hsize]
  have hthreshold : (allocationHeaderSize + kheapMinAlignment).toNat = 24 := rfl
  have htest : allocationHeaderSize + kheapMinAlignment ≤ UInt32.ofNat b.payloadSize - n ↔
      24 ≤ b.payloadSize - n.toNat := by
    rw [UInt32.le_iff_toNat_le, hrem, hthreshold]
  simp only [takeBlock, carve]
  by_cases hsplit : 24 ≤ b.payloadSize - n.toNat
  · rw [if_pos (htest.mpr hsplit), if_pos hsplit]
    have hplace : UInt32.ofNat (c + 16) + n = UInt32.ofNat (c + 16 + n.toNat) := by
      rw [UInt32.ofNat_add (c + 16), UInt32.ofNat_toNat]
    have h16 : allocationHeaderSize.toNat = 16 := rfl
    have hrest : (UInt32.ofNat b.payloadSize - n - allocationHeaderSize).toNat =
        b.payloadSize - n.toNat - 16 := by
      rw [UInt32.toNat_sub_of_le _ _ (by rw [UInt32.le_iff_toNat_le, hrem, h16]; omega), hrem, h16]
    rw [hplace]
    have hfirst := (h.setPayloadSize (by omega) n hpos hmul).setState (by omega) true
    have hoff₁ := setPayloadSize_sameOutside memory (a := c) (by omega) n
    have hoff₂ := setState_sameOutside (setHeaderPayloadSize memory (UInt32.ofNat c) n) (a := c)
      (by omega) allocationStateAllocated
    have hoff₃ := writeHeader_sameOutside
      (setHeaderState (setHeaderPayloadSize memory (UInt32.ofNat c) n) (UInt32.ofNat c)
        allocationStateAllocated) (a := c + 16 + n.toNat) (by omega)
      (UInt32.ofNat b.payloadSize - n - allocationHeaderSize) allocationStateFreed
    have hsecond := writeHeader_headerAt
      (setHeaderState (setHeaderPayloadSize memory (UInt32.ofNat c) n) (UInt32.ofNat c)
        allocationStateAllocated) (a := c + 16 + n.toNat) (by omega)
      (UInt32.ofNat b.payloadSize - n - allocationHeaderSize) false (by omega) (by omega)
    refine ⟨?_, ?_⟩
    · intro d e hde
      simp only [layoutFrom, List.mem_cons, List.not_mem_nil, or_false, Block.extent] at hde
      rcases hde with hde | hde
      · obtain ⟨rfl, rfl⟩ := Prod.mk.inj hde
        apply hfirst.congr (by omega)
        rintro x ⟨hl, hu⟩
        apply hoff₃
        rintro ⟨hl', hu'⟩
        omega
      · obtain ⟨rfl, rfl⟩ := Prod.mk.inj hde
        rw [hrest] at hsecond
        rw [← Nat.add_assoc]
        exact hsecond
    · exact (hoff₃.mono (by omega) (by omega)).trans
        ((hoff₂.mono le_rfl (by omega)).trans (hoff₁.mono le_rfl (by omega)))
  · rw [if_neg fun hx => hsplit (htest.mp hx), if_neg hsplit]
    refine ⟨?_, (setState_sameOutside memory (by omega) _).mono le_rfl (by omega)⟩
    intro d e hde
    simp only [layoutFrom, List.mem_singleton] at hde
    obtain ⟨rfl, rfl⟩ := Prod.mk.inj hde
    exact h.setState (by omega) true

/-- Replacing a block by blocks of the same extent, written inside it, keeps the tiling. -/
theorem Tiles.replace {start stop : ℕ} {pre post : List Block} (memory' : Memory)
    (news : List Block) (h : Tiles memory start (pre ++ b :: post) stop) (hstop : stop ≤ 2 ^ 32)
    (hextent : extentOf news = b.extent)
    (hnew : ∀ d e, (d, e) ∈ layoutFrom (start + extentOf pre) news → HeaderAt memory' d e)
    (hsame : SameOutside memory' memory (start + extentOf pre) b.extent) :
    Tiles memory' start (pre ++ news ++ post) stop := by
  have he := h.extent
  rw [extentOf_append, extentOf_cons] at he
  refine ⟨by rw [extentOf_append, extentOf_append, hextent]; omega, ?_⟩
  have hold : ∀ d e, (d, e) ∈ layoutFrom start pre ∨
      (d, e) ∈ layoutFrom (start + extentOf pre + b.extent) post →
      HeaderAt memory d e := by
    intro d e hde
    apply h.headers
    rw [layoutFrom_append, layoutFrom, List.mem_append, List.mem_cons]
    tauto
  intro d e hde
  rw [List.append_assoc, layoutFrom_append, layoutFrom_append, List.mem_append, List.mem_append,
    hextent] at hde
  rcases hde with hde | hde | hde
  · have hb := layout_bounds hde
    rw [Block.extent] at hb
    apply (hold d e (Or.inl hde)).congr (by omega)
    rintro x ⟨hl, hu⟩
    apply hsame
    rintro ⟨hl', hu'⟩
    omega
  · exact hnew d e hde
  · have hb := layout_bounds hde
    have hextent : e.extent = 16 + e.payloadSize := rfl
    apply (hold d e (Or.inr hde)).congr (by omega)
    rintro x ⟨hl, hu⟩
    apply hsame
    rintro ⟨hl', hu'⟩
    omega

theorem HeapInv.current_lt (h : HeapInv heap blocks) :
    heap.state.current.toNat ≤ 0x800000 := le_trans h.current_le h.mapped_le

/-- Memory may change wherever there is no header. -/
theorem HeapInv.rewrite (h : HeapInv heap blocks) {memory : Memory} (env : σ)
    (same : ∀ c b, (c, b) ∈ layoutFrom 0x400000 blocks → ∀ x, InRange c 16 x →
      memory x = heap.memory x) :
    HeapInv { heap with memory := memory, env := env } blocks :=
  ⟨h.initialized, h.start_eq, h.end_eq,
    h.tiles.congr (le_trans h.current_lt (by decide)) same, h.current_le, h.mapped_le,
    h.mapped_aligned⟩

theorem HeapInv.extent_lt (h : HeapInv heap blocks) {c : ℕ} {b : Block}
    (hcb : (c, b) ∈ layoutFrom 0x400000 blocks) : c + b.extent < 2 ^ 32 := by
  have := h.bounds hcb
  rw [Block.extent]
  omega

theorem mem_layout_split {start : ℕ} {pre post : List Block} (b : Block) :
    (start + extentOf pre, b) ∈ layoutFrom start (pre ++ b :: post) := by
  rw [layoutFrom_append, layoutFrom]
  exact List.mem_append_right _ List.mem_cons_self

/-- The answer of a whole walk from the start of the heap. -/
theorem HeapInv.walk {ρ : Type*} (h : HeapInv heap blocks) (finished corrupt : ρ)
    (visit : UInt32 → UInt32 → UInt32 → UInt32 → Option ρ) :
    run (walkIteration heap.state heap.memory finished corrupt visit) (walkFuel heap.state)
      heap.state.start =
      some (((layoutFrom 0x400000 blocks).findSome? (visitBlock visit)).getD finished) := by
  have hstart : heap.state.start = UInt32.ofNat 0x400000 := by rw [h.start_eq]; rfl
  have hnat := h.start_toNat
  have hrun := @walk_run ρ heap.state heap.memory finished corrupt visit 0x400000 blocks h.tiles
    (walkFuel heap.state) (by rw [walkFuel, hnat]; omega)
  rw [← hrun, hstart]

/-- First fit: no freed block has room, or the first one that has is taken. -/
theorem HeapInv.reuse (h : HeapInv heap blocks) (hpos : 0 < n.toNat) (hmul : n.toNat % 8 = 0) :
    ((∀ b ∈ blocks, b.fits n.toNat = false) ∧
      stage9cKheapTryReuseAlignedAllocation heap.state heap.memory n = ⟨0, 0, heap.memory⟩) ∨
    ∃ pre b post memory', blocks = pre ++ b :: post ∧ b.fits n.toNat = true ∧
      (∀ x ∈ pre, x.fits n.toNat = false) ∧
      stage9cKheapTryReuseAlignedAllocation heap.state heap.memory n =
        ⟨1, UInt32.ofNat (0x400000 + extentOf pre + 16), memory'⟩ ∧
      Tiles memory' 0x400000 (pre ++ carve n.toNat b ++ post) heap.state.current.toNat ∧
      SameOutside memory' heap.memory (0x400000 + extentOf pre) b.extent := by
  rw [stage9cKheapTryReuseAlignedAllocation, h.walk]
  have hvisit : ∀ c b, (c, b) ∈ layoutFrom 0x400000 blocks →
      visitBlock (reuseVisit heap.memory n) (c, b) = if b.fits n.toNat then
        some ⟨1, UInt32.ofNat (c + 16), takeBlock heap.memory (UInt32.ofNat c)
          (UInt32.ofNat (c + 16)) (UInt32.ofNat b.payloadSize) n⟩
      else none :=
    fun c b hcb => visit_reuse (h.tiles.headers c b hcb) (h.extent_lt hcb) n
  rcases first_match (Block.fits n.toNat) blocks with hnone | ⟨pre, b, post, hsplit, hfit, hpre⟩
  · left
    have hsearch : (layoutFrom 0x400000 blocks).findSome? (visitBlock (reuseVisit heap.memory n)) =
        none := by
      rw [List.findSome?_eq_none_iff]
      rintro ⟨c, b⟩ hcb
      rw [hvisit c b hcb, hnone b (mem_of_layout hcb)]
      simp
    rw [hsearch]
    exact ⟨hnone, rfl⟩
  · right
    have hmem : (0x400000 + extentOf pre, b) ∈ layoutFrom 0x400000 blocks := by
      rw [hsplit]
      exact mem_layout_split b
    have hn : n.toNat ≤ b.payloadSize := by
      rw [Block.fits, Bool.and_eq_true, decide_eq_true_eq] at hfit
      exact hfit.2
    obtain ⟨hnew, hsame⟩ :=
      takeBlock_spec (h.tiles.headers _ b hmem) (h.extent_lt hmem) hpos hmul hn
    refine ⟨pre, b, post, _, hsplit, hfit, hpre, ?_, ?_, hsame⟩
    · have hbefore : ∀ d e, (d, e) ∈ layoutFrom 0x400000 pre →
          visitBlock (reuseVisit heap.memory n) (d, e) = none := by
        intro d e hde
        rw [hvisit d e (by rw [hsplit, layoutFrom_append]; exact List.mem_append_left _ hde),
          hpre e (mem_of_layout hde)]
        simp
      have hhere := hvisit _ b hmem
      rw [if_pos hfit] at hhere
      rw [hsplit, search_hits hbefore hhere]
      rfl
    · have htiles := h.tiles
      rw [hsplit] at htiles
      exact Tiles.replace _ _ htiles (le_trans h.current_lt (by decide)) (extentOf_carve hn) hnew
        hsame

end Reuse

/-! ## Free -/

theorem visit_free {memory : Memory} {c : ℕ} {b : Block} (h : HeaderAt memory c b)
    (hc : c + b.extent < 2 ^ 32) (ptr : UInt32) :
    visitBlock (freeVisit memory ptr) (c, b) =
      if ptr.toNat = c + 16 then
        if b.allocated then
          some (true, setHeaderState memory (UInt32.ofNat c) allocationStateFreed)
        else some (false, memory)
      else if c + 16 < ptr.toNat ∧ ptr.toNat < c + b.extent then some (false, memory)
      else none := by
  have hextent : b.extent = 16 + b.payloadSize := rfl
  have hpay : (UInt32.ofNat (c + 16)).toNat = c + 16 := word_toNat (by omega)
  have hend : (UInt32.ofNat (c + b.extent)).toNat = c + b.extent := word_toNat (by omega)
  have hstate := stateWord_allocated b
  simp only [visitBlock, freeVisit, ← UInt32.toNat_inj (a := ptr), UInt32.lt_iff_toNat_lt, hpay,
    hend, h.state]
  by_cases hptr : ptr.toNat = c + 16
  · rw [if_pos hptr, if_pos hptr]
    by_cases hb : b.allocated = true
    · rw [if_pos hb, if_neg (not_not.mpr (hstate.mpr hb))]
    · rw [if_neg hb, if_pos fun hx => hb (hstate.mp hx)]
  · rw [if_neg hptr, if_neg hptr]

/-- Writing the freed state into the header of a block frees that block. -/
theorem HeapInv.markFreed (h : HeapInv heap blocks) {pre post : List Block} {b : Block}
    (hsplit : blocks = pre ++ b :: post) :
    HeapInv
      { heap with
        memory := setHeaderState heap.memory (UInt32.ofNat (0x400000 + extentOf pre))
          allocationStateFreed }
      (pre ++ ⟨b.payloadSize, false⟩ :: post) ∧
    SameOutside (setHeaderState heap.memory (UInt32.ofNat (0x400000 + extentOf pre))
      allocationStateFreed) heap.memory (0x400000 + extentOf pre) 16 := by
  have hmem : (0x400000 + extentOf pre, b) ∈ layoutFrom 0x400000 blocks := by
    rw [hsplit]
    exact mem_layout_split b
  have hb := h.bounds hmem
  have hcur := h.current_lt
  have hext : b.extent = 16 + b.payloadSize := rfl
  have hsame := setState_sameOutside heap.memory (a := 0x400000 + extentOf pre) (by omega)
    allocationStateFreed
  refine ⟨?_, hsame⟩
  have htiles := h.tiles
  rw [hsplit] at htiles
  have hreplaced := Tiles.replace
    (setHeaderState heap.memory (UInt32.ofNat (0x400000 + extentOf pre)) allocationStateFreed)
    [⟨b.payloadSize, false⟩] htiles (le_trans h.current_lt (by decide))
    (by simp [Block.extent]) ?_ (hsame.mono le_rfl (by omega))
  · rw [List.append_assoc, List.singleton_append] at hreplaced
    exact ⟨h.initialized, h.start_eq, h.end_eq, hreplaced, h.current_le, h.mapped_le,
      h.mapped_aligned⟩
  · intro d e hde
    rw [layoutFrom, layoutFrom, List.mem_singleton] at hde
    obtain ⟨rfl, rfl⟩ := Prod.mk.inj hde
    exact (h.tiles.headers _ b hmem).setState (by omega) false

/-- A free succeeds exactly on the payload of an allocated block, which becomes freed. -/
theorem HeapInv.free (h : HeapInv heap blocks) (ptr : UInt32) :
    (∃ pre b post memory', blocks = pre ++ b :: post ∧ b.allocated = true ∧
      ptr.toNat = 0x400000 + extentOf pre + 16 ∧
      stage9aKheapFree heap ptr = (true, { heap with memory := memory' }) ∧
      HeapInv { heap with memory := memory' } (pre ++ ⟨b.payloadSize, false⟩ :: post) ∧
      SameOutside memory' heap.memory (0x400000 + extentOf pre) 16 ∧
      memory' = setHeaderState heap.memory (UInt32.ofNat (0x400000 + extentOf pre))
        allocationStateFreed) ∨
    ((∀ c b, (c, b) ∈ layoutFrom 0x400000 blocks → b.allocated = true → ptr.toNat ≠ c + 16) ∧
      stage9aKheapFree heap ptr = (false, heap)) := by
  have hstart := h.start_toNat
  have hvisit := fun (c : ℕ) (b : Block) (hcb : (c, b) ∈ layoutFrom 0x400000 blocks) =>
    visit_free (h.tiles.headers c b hcb) (h.extent_lt hcb) ptr
  by_cases htarget : ∃ c b, (c, b) ∈ layoutFrom 0x400000 blocks ∧ b.allocated = true ∧
      ptr.toNat = c + 16
  · left
    obtain ⟨c, b, hcb, halloc, hptr⟩ := htarget
    obtain ⟨before, after, hlist⟩ := List.append_of_mem hcb
    obtain ⟨pre, post, hsplit, rfl, rfl⟩ := layout_split hlist
    have hb := h.bounds hcb
    have hpos := (h.tiles.headers _ b hcb).pos
    have hcur := h.current_lt
    have hinit : ¬ (heap.state.isInitialized = false ∨ ptr = 0) := by
      rw [not_or, h.initialized, ← UInt32.toNat_inj, UInt32.toNat_zero]
      exact ⟨by simp, by omega⟩
    have hrange : ¬ (ptr < heap.state.start ∨ heap.state.current ≤ ptr) := by
      rw [UInt32.lt_iff_toNat_lt, UInt32.le_iff_toNat_le, hstart]
      omega
    have hbefore : ∀ d e, (d, e) ∈ layoutFrom 0x400000 pre →
        visitBlock (freeVisit heap.memory ptr) (d, e) = none := by
      intro d e hde
      have hin : (d, e) ∈ layoutFrom 0x400000 blocks := by
        rw [hsplit, layoutFrom_append]
        exact List.mem_append_left _ hde
      have hd := layout_bounds hde
      have hext : e.extent = 16 + e.payloadSize := rfl
      have hfar : ¬ ptr.toNat = d + 16 := by omega
      have hfar' : ¬ (d + 16 < ptr.toNat ∧ ptr.toNat < d + e.extent) := by omega
      rw [hvisit d e hin, if_neg hfar, if_neg hfar']
    have hhere := hvisit _ b hcb
    rw [if_pos hptr, if_pos halloc] at hhere
    obtain ⟨hinv, hsame⟩ := h.markFreed hsplit
    refine ⟨pre, b, post, _, hsplit, halloc, hptr, ?_, hinv, hsame, rfl⟩
    rw [stage9aKheapFree, if_neg hinit, if_neg hrange, h.walk]
    nth_rewrite 1 [hsplit]
    rw [search_hits hbefore hhere]
    rfl
  · right
    have hmiss : ∀ c b, (c, b) ∈ layoutFrom 0x400000 blocks → b.allocated = true →
        ptr.toNat ≠ c + 16 := fun c b hcb halloc hptr => htarget ⟨c, b, hcb, halloc, hptr⟩
    refine ⟨hmiss, ?_⟩
    rw [stage9aKheapFree]
    split_ifs with hinit hrange
    · rfl
    · rfl
    · rw [h.walk]
      cases hsearch : (layoutFrom 0x400000 blocks).findSome?
          (visitBlock (freeVisit heap.memory ptr)) with
      | none => rfl
      | some r =>
        obtain ⟨⟨c, b⟩, hcb, hr⟩ := List.exists_of_findSome?_eq_some hsearch
        rw [hvisit c b hcb] at hr
        have hr' : r = (false, heap.memory) := by
          split_ifs at hr with hptr halloc hinside
          · exact absurd hptr (hmiss c b hcb halloc)
          · exact (Option.some.inj hr).symm
          · exact (Option.some.inj hr).symm
        rw [hr']
        rfl

/-! ## Allocation -/

theorem Tiles.append {memory memory' : Memory} {start stop : ℕ} {blocks : List Block} {b : Block}
    (h : Tiles memory start blocks stop) (hstop : stop ≤ 2 ^ 32) (hnew : HeaderAt memory' stop b)
    (hsame : SameOutside memory' memory stop 16) :
    Tiles memory' start (blocks ++ [b]) (stop + b.extent) := by
  have he := h.extent
  refine ⟨by rw [extentOf_append, extentOf_cons, extentOf_nil]; omega, ?_⟩
  intro d e hde
  rw [layoutFrom_append, he] at hde
  rcases List.mem_append.mp hde with hde | hde
  · have hb := layout_bounds hde
    have hext : e.extent = 16 + e.payloadSize := rfl
    apply (h.headers d e hde).congr (by omega)
    rintro x ⟨hl, hu⟩
    apply hsame
    rintro ⟨hl', hu'⟩
    omega
  · rw [layoutFrom, layoutFrom, List.mem_singleton] at hde
    obtain ⟨rfl, rfl⟩ := Prod.mk.inj hde
    exact hnew

theorem Grown.inv {heap' : Kheap σ} (h : HeapInv heap blocks) (hg : Grown heap.state heap'.state)
    (hmem : heap'.memory = heap.memory) : HeapInv heap' blocks := by
  have hcur : heap'.state.current = heap.state.current := congrArg (·.current) hg.same
  have hlower := hg.lower
  have hle := h.current_le
  refine ⟨?_, ?_, ?_, ?_, ?_, hg.upper, hg.aligned⟩
  · rw [hg.same]; exact h.initialized
  · rw [hg.same]; exact h.start_eq
  · rw [hg.same]; exact h.end_eq
  · rw [hmem, hcur]; exact h.tiles
  · rw [hcur]; omega

/-- What an allocation can do, with the list of blocks it leaves. -/
inductive AllocEffect (heap heap' : Kheap σ) (blocks : List Block) (size ptr : UInt32) :
    List Block → Prop where
  | failed (hptr : ptr = 0) (grown : Grown heap.state heap'.state)
      (same : heap'.memory = heap.memory) : AllocEffect heap heap' blocks size ptr blocks
  | reused (pre : List Block) (b : Block) (post : List Block) (n : ℕ)
      (round : n = (size.toNat + 7) / 8 * 8) (split : blocks = pre ++ b :: post)
      (fits : b.fits n = true) (first : ∀ x ∈ pre, x.fits n = false)
      (hptr : ptr.toNat = 0x400000 + extentOf pre + 16) (state : heap'.state = heap.state)
      (same : SameOutside heap'.memory heap.memory (0x400000 + extentOf pre) b.extent) :
      AllocEffect heap heap' blocks size ptr (pre ++ carve n b ++ post)
  | bumped (n : ℕ) (round : n = (size.toNat + 7) / 8 * 8)
      (none_fits : ∀ b ∈ blocks, b.fits n = false)
      (hptr : ptr.toNat = heap.state.current.toNat + 16)
      (current : heap'.state.current.toNat = heap.state.current.toNat + 16 + n)
      (mapped : heap.state.mappedEndExclusive.toNat ≤ heap'.state.mappedEndExclusive.toNat)
      (same : SameOutside heap'.memory heap.memory heap.state.current.toNat 16) :
      AllocEffect heap heap' blocks size ptr (blocks ++ [⟨n, true⟩])

theorem AllocEffect.refl_failed (h : HeapInv heap blocks) (size : UInt32) :
    AllocEffect heap heap blocks size 0 blocks :=
  .failed rfl ⟨rfl, le_rfl, h.mapped_le, h.mapped_aligned⟩ rfl

/-- The payload and the end of a new block, once there is room for it in the window. -/
theorem bump_end {state : Stage8cKheapState} {n : UInt32}
    (hroom : state.current.toNat + 16 + n.toNat ≤ 0x800000) :
    (state.current + allocationHeaderSize).toNat = state.current.toNat + 16 ∧
      (state.current + allocationHeaderSize + n).toNat = state.current.toNat + 16 + n.toNat := by
  have h16 : allocationHeaderSize.toNat = 16 := rfl
  have hpay : (state.current + allocationHeaderSize).toNat = state.current.toNat + 16 :=
    MachineWord.toNat_add32 (by omega)
  exact ⟨hpay, by rw [MachineWord.toNat_add32 (by omega), hpay]⟩

/-- The comparisons in front of the growth loop ask whether a new block ends in the window. -/
theorem bump_room {state : Stage8cKheapState} (n : UInt32)
    (hend : state.endExclusive = VmmLayout.futureHeapReservedEndExclusive) :
    ¬ state.endExclusive - allocationHeaderSize < state.current ∧
      ¬ state.endExclusive - (state.current + allocationHeaderSize) < n ↔
    state.current.toNat + 16 + n.toNat ≤ 0x800000 := by
  have hend' : state.endExclusive.toNat = 0x800000 := by rw [hend]; rfl
  have h16 : allocationHeaderSize.toNat = 16 := rfl
  have hle16 : allocationHeaderSize ≤ state.endExclusive := by
    rw [UInt32.le_iff_toNat_le]
    omega
  have hsub := UInt32.toNat_sub_of_le _ _ hle16
  rw [UInt32.not_lt, UInt32.not_lt, UInt32.le_iff_toNat_le, UInt32.le_iff_toNat_le, hsub]
  constructor
  · intro h
    obtain ⟨hheader, hpayload⟩ := h
    have hpay : (state.current + allocationHeaderSize).toNat = state.current.toNat + 16 :=
      MachineWord.toNat_add32 (by omega)
    rw [UInt32.toNat_sub_of_le _ _ (by rw [UInt32.le_iff_toNat_le]; omega)] at hpayload
    omega
  · intro hroom
    have hpay := (bump_end hroom).1
    rw [UInt32.toNat_sub_of_le _ _ (by rw [UInt32.le_iff_toNat_le]; omega)]
    omega

theorem kheapBump_full {n : UInt32} (ops : GrowthOps σ)
    (hend : heap.state.endExclusive = VmmLayout.futureHeapReservedEndExclusive)
    (hfull : ¬ heap.state.current.toNat + 16 + n.toNat ≤ 0x800000) :
    kheapBump ops heap n = (0, heap) := by
  simp only [kheapBump]
  by_cases hheader : heap.state.endExclusive - allocationHeaderSize < heap.state.current
  · rw [if_pos hheader]
  rw [if_neg hheader, if_pos]
  by_contra hpayload
  exact hfull ((bump_room n hend).mp ⟨hheader, hpayload⟩)

/-- With room in the window, all depends on the growth loop. -/
theorem kheapBump_room {n : UInt32} (ops : GrowthOps σ)
    (hend : heap.state.endExclusive = VmmLayout.futureHeapReservedEndExclusive)
    (hroom : heap.state.current.toNat + 16 + n.toNat ≤ 0x800000) :
    ∃ required : UInt32,
      required.toNat = (heap.state.current.toNat + 16 + n.toNat + 4095) / 4096 * 4096 ∧
      ∀ ok state env,
        stage8cKheapEnsureMappedUntil ops heap.state heap.env required = (ok, state, env) →
        kheapBump ops heap n =
          if ok then
            (heap.state.current + allocationHeaderSize,
              ⟨{ state with current := heap.state.current + allocationHeaderSize + n },
                writeHeader heap.memory heap.state.current n allocationStateAllocated, env⟩)
          else (0, ⟨state, heap.memory, env⟩) := by
  obtain ⟨hheader, hpayload⟩ := (bump_room n hend).mpr hroom
  have hstop := (bump_end hroom).2
  rcases alignUp_page (heap.state.current + allocationHeaderSize + n) with
    ⟨_, hbig⟩ | ⟨required, heq, hrequired⟩
  · omega
  refine ⟨required, by rw [hrequired, hstop], fun ok state env hgrow => ?_⟩
  simp only [kheapBump, if_neg hheader, if_neg hpayload, heq, hgrow]
  cases ok with
  | false => rfl
  | true => rfl

theorem HeapInv.bump (h : HeapInv heap blocks) (ops : GrowthOps σ) {n size : UInt32}
    (hpos : 0 < n.toNat) (hround : n.toNat = (size.toNat + 7) / 8 * 8)
    (hnone : ∀ b ∈ blocks, b.fits n.toNat = false) :
    ∃ blocks', AllocEffect heap (kheapBump ops heap n).2 blocks size (kheapBump ops heap n).1
        blocks' ∧ HeapInv (kheapBump ops heap n).2 blocks' := by
  by_cases hroom : heap.state.current.toNat + 16 + n.toNat ≤ 0x800000
  swap
  · rw [kheapBump_full ops h.end_eq hroom]
    exact ⟨blocks, .refl_failed h size, h⟩
  obtain ⟨hpay, hallocEnd⟩ := bump_end hroom
  obtain ⟨required, hrequired, hcases⟩ := kheapBump_room ops h.end_eq hroom
  obtain ⟨ok, next, env', hgrow, hgrown, hok⟩ :=
    @ensureMapped_spec σ ops heap.state heap.env required h.end_eq h.mapped_le h.mapped_aligned
  rw [hcases _ _ _ hgrow]
  cases ok with
  | false =>
    exact ⟨blocks, .failed rfl hgrown rfl, Grown.inv h hgrown rfl⟩
  | true =>
    have hreach := hok.mp rfl
    have hstart : heap.state.current = UInt32.ofNat heap.state.current.toNat :=
      (UInt32.ofNat_toNat).symm
    have hsame := writeHeader_sameOutside heap.memory (a := heap.state.current.toNat) (by omega) n
      allocationStateAllocated
    have hheader := writeHeader_headerAt heap.memory (a := heap.state.current.toNat) (by omega)
      n true hpos (by omega)
    rw [← hstart] at hsame hheader
    refine ⟨blocks ++ [⟨n.toNat, true⟩], .bumped n.toNat hround hnone hpay hallocEnd hgrown.lower
      hsame, ⟨?_, ?_, ?_, ?_, ?_, hgrown.upper, hgrown.aligned⟩⟩
    · exact (congrArg (·.isInitialized) hgrown.same).trans h.initialized
    · exact (congrArg (·.start) hgrown.same).trans h.start_eq
    · exact (congrArg (·.endExclusive) hgrown.same).trans h.end_eq
    · have htiles := Tiles.append h.tiles (by omega) hheader hsame
      rw [Block.extent, ← Nat.add_assoc, ← hallocEnd] at htiles
      exact htiles
    · simp only [if_pos, hallocEnd]
      omega

/-- An allocation fails without touching memory, reuses the first freed block that fits, or
appends a block. -/
theorem HeapInv.alloc (h : HeapInv heap blocks) (ops : GrowthOps σ) (size : UInt32) :
    ∃ blocks', AllocEffect heap (stage8cKheapAlloc ops heap size).2 blocks size
        (stage8cKheapAlloc ops heap size).1 blocks' ∧
      HeapInv (stage8cKheapAlloc ops heap size).2 blocks' := by
  have hstay : ∃ blocks', AllocEffect heap heap blocks size 0 blocks' ∧ HeapInv heap blocks' :=
    ⟨blocks, .refl_failed h size, h⟩
  simp only [stage8cKheapAlloc]
  by_cases hargs : heap.state.isInitialized = false ∨ size = 0
  · rw [if_pos hargs]
    exact hstay
  rw [if_neg hargs]
  have hsize := MachineWord.ne_zero32_iff.mp (not_or.mp hargs).2
  rcases alignUp_eight size with ⟨heq, _⟩ | ⟨n, heq, hround⟩
  · rw [heq]
    exact hstay
  rw [heq]
  have hpos : 0 < n.toNat := by omega
  rcases h.reuse hpos (by omega) with ⟨hnone, hreuse⟩ |
    ⟨pre, b, post, memory', hsplit, hfit, hpre, hreuse, htiles, hsame⟩
  · simp only [hreuse]
    exact h.bump ops hpos hround hnone
  · have hmem : (0x400000 + extentOf pre, b) ∈ layoutFrom 0x400000 blocks := by
      rw [hsplit]
      exact mem_layout_split b
    have hb := h.bounds hmem
    rw [Block.fits, Bool.and_eq_true, decide_eq_true_eq] at hfit
    simp only [hreuse]
    refine ⟨pre ++ carve n.toNat b ++ post, .reused pre b post n.toNat hround hsplit ?_ hpre ?_ rfl
      hsame, ⟨h.initialized, h.start_eq, h.end_eq, htiles, h.current_le, h.mapped_le,
        h.mapped_aligned⟩⟩
    · rw [Block.fits, Bool.and_eq_true, decide_eq_true_eq]
      exact hfit
    · exact word_toNat (by omega)

theorem bootstrap_inv (heap : Kheap σ) (hboot : heap.state.isInitialized = false) :
    (stage8cKheapBootstrapInit heap).1 = true ∧ HeapInv (stage8cKheapBootstrapInit heap).2 [] := by
  have hpolicy : ¬ (!VmmLayout.stage8aValidatePolicy) = true := by
    simp [VmmLayout.validatePolicy_eq]
  have hupper : VmmLayout.futureHeapReservedStart.toNat ≤ 0x800000 := by decide
  have haligned : VmmLayout.futureHeapReservedStart.toNat % 4096 = 0 := by decide
  rw [stage8cKheapBootstrapInit, if_neg (by simp [hboot]), if_neg hpolicy]
  exact ⟨rfl, rfl, rfl, rfl, ⟨rfl, by simp [layoutFrom]⟩, le_rfl, hupper, haligned⟩

end KernelHeapCalls
