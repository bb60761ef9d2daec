import CustomOs.KernelHeap
import Mathlib.Algebra.BigOperators.Group.List.Basic

/-! # Tiling of the heap
The list of blocks behind the headers: `Tiles` says that headers and payloads fill a range
without gap or overlap. On a tiled range a walk is a search through the list. -/
namespace KernelHeapTiling

open ByteMemory Loop KernelHeap

structure Block where
  payloadSize : ℕ
  allocated : Bool
  deriving DecidableEq, Repr

/-- Header and payload together. -/
def Block.extent (b : Block) : ℕ := 16 + b.payloadSize

def Block.stateWord (b : Block) : UInt32 :=
  if b.allocated then allocationStateAllocated else allocationStateFreed

/-- A freed block with room for `n` bytes. -/
def Block.fits (n : ℕ) (b : Block) : Bool := !b.allocated && decide (n ≤ b.payloadSize)

def extentOf (blocks : List Block) : ℕ := (blocks.map Block.extent).sum

/-- Every block with the address of its header. -/
def layoutFrom : ℕ → List Block → List (ℕ × Block)
  | _, [] => []
  | a, b :: bs => (a, b) :: layoutFrom (a + b.extent) bs

@[simp] theorem extentOf_nil : extentOf [] = 0 := rfl

@[simp] theorem extentOf_cons (b : Block) (bs : List Block) :
    extentOf (b :: bs) = b.extent + extentOf bs := by simp [extentOf]

@[simp] theorem extentOf_append (xs ys : List Block) :
    extentOf (xs ++ ys) = extentOf xs + extentOf ys := by simp [extentOf]

theorem layoutFrom_append (a : ℕ) (xs ys : List Block) :
    layoutFrom a (xs ++ ys) = layoutFrom a xs ++ layoutFrom (a + extentOf xs) ys := by
  induction xs generalizing a with
  | nil => simp [layoutFrom]
  | cons b bs ih => simp [layoutFrom, ih, Nat.add_assoc]

theorem layout_bounds {a c : ℕ} {b : Block} {blocks : List Block}
    (h : (c, b) ∈ layoutFrom a blocks) : a ≤ c ∧ c + b.extent ≤ a + extentOf blocks := by
  induction blocks generalizing a with
  | nil => simp [layoutFrom] at h
  | cons x xs ih =>
    rw [layoutFrom] at h
    rw [extentOf_cons]
    rcases List.mem_cons.mp h with h | h
    · obtain ⟨rfl, rfl⟩ := Prod.mk.inj h
      omega
    · have := ih h
      omega

/-- Two blocks of a layout are the same one or lie apart. -/
theorem layout_apart {a c d : ℕ} {b e : Block} {blocks : List Block}
    (hb : (c, b) ∈ layoutFrom a blocks) (he : (d, e) ∈ layoutFrom a blocks) :
    (c = d ∧ b = e) ∨ c + b.extent ≤ d ∨ d + e.extent ≤ c := by
  induction blocks generalizing a with
  | nil => simp [layoutFrom] at hb
  | cons x xs ih =>
    rw [layoutFrom] at hb he
    rcases List.mem_cons.mp hb with hb | hb <;> rcases List.mem_cons.mp he with he | he
    · obtain ⟨rfl, rfl⟩ := Prod.mk.inj hb
      obtain ⟨rfl, rfl⟩ := Prod.mk.inj he
      exact Or.inl ⟨rfl, rfl⟩
    · obtain ⟨rfl, rfl⟩ := Prod.mk.inj hb
      have := layout_bounds he
      omega
    · obtain ⟨rfl, rfl⟩ := Prod.mk.inj he
      have := layout_bounds hb
      omega
    · exact ih hb he

/-- A place in the layout is a place in the list. -/
theorem layout_split {a c : ℕ} {b : Block} {blocks : List Block} {before after : List (ℕ × Block)}
    (h : layoutFrom a blocks = before ++ (c, b) :: after) :
    ∃ pre post, blocks = pre ++ b :: post ∧ c = a + extentOf pre ∧ before = layoutFrom a pre := by
  induction before generalizing a blocks with
  | nil =>
    cases blocks with
    | nil => simp [layoutFrom] at h
    | cons x xs =>
      rw [layoutFrom, List.nil_append] at h
      obtain ⟨hx, _⟩ := List.cons.inj h
      obtain ⟨rfl, rfl⟩ := Prod.mk.inj hx
      exact ⟨[], xs, rfl, rfl, rfl⟩
  | cons p before ih =>
    cases blocks with
    | nil => simp [layoutFrom] at h
    | cons x xs =>
      rw [layoutFrom, List.cons_append] at h
      obtain ⟨rfl, hrest⟩ := List.cons.inj h
      obtain ⟨pre, post, rfl, rfl, rfl⟩ := ih hrest
      exact ⟨x :: pre, post, rfl, by rw [extentOf_cons]; omega, rfl⟩

theorem mem_of_layout {a c : ℕ} {b : Block} {blocks : List Block}
    (h : (c, b) ∈ layoutFrom a blocks) : b ∈ blocks := by
  obtain ⟨before, after, hlist⟩ := List.append_of_mem h
  obtain ⟨pre, post, rfl, _⟩ := layout_split hlist
  simp

/-! ## Headers in memory -/

/-- The header of block `b` stands at address `a`. -/
structure HeaderAt (memory : Memory) (a : ℕ) (b : Block) : Prop where
  magic : headerMagic memory (UInt32.ofNat a) = allocationHeaderMagic
  size : (headerPayloadSize memory (UInt32.ofNat a)).toNat = b.payloadSize
  state : headerState memory (UInt32.ofNat a) = b.stateWord
  pos : 0 < b.payloadSize
  multiple : b.payloadSize % 8 = 0

/-- Memories that agree outside the `n` bytes from `a` on. -/
def SameOutside (m' m : Memory) (a n : ℕ) : Prop := ∀ x, ¬ InRange a n x → m' x = m x

theorem SameOutside.trans {m m' m'' : Memory} {a n : ℕ} (h : SameOutside m'' m' a n)
    (k : SameOutside m' m a n) : SameOutside m'' m a n :=
  fun x hx => (h x hx).trans (k x hx)

theorem SameOutside.mono {m m' : Memory} {a n b k : ℕ} (h : SameOutside m' m a n) (hb : b ≤ a)
    (hk : a + n ≤ b + k) : SameOutside m' m b k := by
  intro x hx
  apply h
  rintro ⟨hl, hu⟩
  exact hx ⟨by omega, by omega⟩

theorem word_toNat {n : ℕ} (h : n < 2 ^ 32) : (UInt32.ofNat n).toNat = n := by
  rw [UInt32.toNat_ofNat', Nat.mod_eq_of_lt h]

/-- Address of a field: `header + k` in words is `a + k` in numbers. -/
theorem field_toNat {a : ℕ} {k : UInt32} (h : a + k.toNat < 2 ^ 32) :
    (UInt32.ofNat a + k).toNat = a + k.toNat := by
  have ha := word_toNat (n := a) (by omega)
  rw [MachineWord.toNat_add32 (by rw [ha]; exact h), ha]

section Fields

variable {memory memory' : Memory} {a : ℕ} {b : Block}

theorem HeaderAt.congr (h : HeaderAt memory a b) (ha : a + 16 ≤ 2 ^ 32)
    (same : ∀ x, InRange a 16 x → memory' x = memory x) : HeaderAt memory' a b := by
  have h0 : (UInt32.ofNat a).toNat = a := word_toNat (by omega)
  have h4 : (UInt32.ofNat a + 4).toNat = a + 4 := field_toNat (k := 4) (by simp; omega)
  have h8 : (UInt32.ofNat a + 8).toNat = a + 8 := field_toNat (k := 8) (by simp; omega)
  have hload : ∀ addr : UInt32, a ≤ addr.toNat → addr.toNat + 4 ≤ a + 16 →
      load32 memory' addr = load32 memory addr := by
    intro addr hl hu
    apply load32_congr (by omega)
    rintro x ⟨hxl, hxu⟩
    exact same x ⟨by omega, by omega⟩
  refine ⟨?_, ?_, ?_, h.pos, h.multiple⟩
  · rw [headerMagic, hload _ (by omega) (by omega)]
    exact h.magic
  · rw [headerPayloadSize, hload _ (by omega) (by omega)]
    exact h.size
  · rw [headerState, hload _ (by omega) (by omega)]
    exact h.state

theorem store_sameOutside (memory : Memory) (ha : a + 16 ≤ 2 ^ 32) {k : UInt32}
    (hk : k.toNat + 4 ≤ 16) (w : UInt32) :
    SameOutside (store32 memory (UInt32.ofNat a + k) w) memory a 16 := by
  have hfield := field_toNat (a := a) (k := k) (by omega)
  intro x hx
  apply store32_outside _ _ (by omega)
  rw [hfield]
  rintro ⟨hl, hu⟩
  exact hx ⟨by omega, by omega⟩

theorem setState_sameOutside (memory : Memory) (ha : a + 16 ≤ 2 ^ 32) (w : UInt32) :
    SameOutside (setHeaderState memory (UInt32.ofNat a) w) memory a 16 :=
  store_sameOutside memory ha (k := 8) (by decide) w

theorem setPayloadSize_sameOutside (memory : Memory) (ha : a + 16 ≤ 2 ^ 32) (w : UInt32) :
    SameOutside (setHeaderPayloadSize memory (UInt32.ofNat a) w) memory a 16 :=
  store_sameOutside memory ha (k := 4) (by decide) w

theorem writeHeader_sameOutside (memory : Memory) (ha : a + 16 ≤ 2 ^ 32) (size state : UInt32) :
    SameOutside (writeHeader memory (UInt32.ofNat a) size state) memory a 16 := by
  have hmagic : ∀ m w, SameOutside (setHeaderMagic m (UInt32.ofNat a) w) m a 16 := by
    intro m w
    have h := store_sameOutside m ha (k := 0) (by decide) w
    rwa [UInt32.add_zero] at h
  exact (store_sameOutside _ ha (k := 12) (by decide) _).trans
    ((setState_sameOutside _ ha _).trans ((setPayloadSize_sameOutside _ ha _).trans (hmagic _ _)))

/-- Fields of one header do not overlap. -/
theorem load_store_field (memory : Memory) (ha : a + 16 ≤ 2 ^ 32) {j k : UInt32}
    (hj : j.toNat + 4 ≤ 16) (hk : k.toNat + 4 ≤ 16)
    (hne : j.toNat + 4 ≤ k.toNat ∨ k.toNat + 4 ≤ j.toNat) (w : UInt32) :
    load32 (store32 memory (UInt32.ofNat a + k) w) (UInt32.ofNat a + j) =
      load32 memory (UInt32.ofNat a + j) := by
  have h₁ := field_toNat (a := a) (k := j) (by omega)
  have h₂ := field_toNat (a := a) (k := k) (by omega)
  exact load32_store32_ne _ _ (by omega) (by omega) (by omega)

theorem writeHeader_headerAt (memory : Memory) (ha : a + 16 ≤ 2 ^ 32) (size : UInt32)
    (allocated : Bool) (hpos : 0 < size.toNat) (hmul : size.toNat % 8 = 0) :
    HeaderAt (writeHeader memory (UInt32.ofNat a) size
      (Block.stateWord ⟨size.toNat, allocated⟩)) a ⟨size.toNat, allocated⟩ := by
  have hzero : UInt32.ofNat a = UInt32.ofNat a + 0 := (UInt32.add_zero _).symm
  refine ⟨?_, ?_, ?_, hpos, hmul⟩
  · simp only [writeHeader, headerMagic, setHeaderReserved, setHeaderState, setHeaderPayloadSize]
    have h12 := load_store_field (a := a) (j := 0) (k := 12)
    have h8 := load_store_field (a := a) (j := 0) (k := 8)
    have h4 := load_store_field (a := a) (j := 0) (k := 4)
    rw [← hzero] at h12 h8 h4
    rw [h12 _ ha (by decide) (by decide) (by decide), h8 _ ha (by decide) (by decide) (by decide),
      h4 _ ha (by decide) (by decide) (by decide), setHeaderMagic, load32_store32_same]
  · simp only [writeHeader, headerPayloadSize, setHeaderReserved, setHeaderState,
      setHeaderPayloadSize]
    rw [load_store_field _ ha (by decide) (by decide) (by decide),
      load_store_field _ ha (by decide) (by decide) (by decide), load32_store32_same]
  · simp only [writeHeader, headerState, setHeaderReserved, setHeaderState]
    rw [load_store_field _ ha (by decide) (by decide) (by decide), load32_store32_same]

theorem HeaderAt.setState (h : HeaderAt memory a b) (ha : a + 16 ≤ 2 ^ 32) (allocated : Bool) :
    HeaderAt (setHeaderState memory (UInt32.ofNat a) (Block.stateWord ⟨b.payloadSize, allocated⟩)) a
      ⟨b.payloadSize, allocated⟩ := by
  have h8 := load_store_field (a := a) (j := 0) (k := 8) memory ha (by decide) (by decide)
    (by decide) (Block.stateWord ⟨b.payloadSize, allocated⟩)
  rw [UInt32.add_zero] at h8
  refine ⟨?_, ?_, ?_, h.pos, h.multiple⟩
  · rw [headerMagic, setHeaderState, h8]
    exact h.magic
  · rw [headerPayloadSize, setHeaderState,
      load_store_field _ ha (by decide) (by decide) (by decide)]
    exact h.size
  · rw [headerState, setHeaderState, load32_store32_same]

theorem HeaderAt.setPayloadSize (h : HeaderAt memory a b) (ha : a + 16 ≤ 2 ^ 32) (size : UInt32)
    (hpos : 0 < size.toNat) (hmul : size.toNat % 8 = 0) :
    HeaderAt (setHeaderPayloadSize memory (UInt32.ofNat a) size) a
      ⟨size.toNat, b.allocated⟩ := by
  have h4 := load_store_field (a := a) (j := 0) (k := 4) memory ha (by decide) (by decide)
    (by decide) size
  rw [UInt32.add_zero] at h4
  refine ⟨?_, ?_, ?_, hpos, hmul⟩
  · rw [headerMagic, setHeaderPayloadSize, h4]
    exact h.magic
  · rw [headerPayloadSize, setHeaderPayloadSize, load32_store32_same]
  · rw [headerState, setHeaderPayloadSize,
      load_store_field _ ha (by decide) (by decide) (by decide)]
    exact h.state

end Fields

/-! ## Tiled ranges -/

/-- The blocks fill `[start, stop)` with their headers in place. -/
structure Tiles (memory : Memory) (start : ℕ) (blocks : List Block) (stop : ℕ) : Prop where
  extent : start + extentOf blocks = stop
  headers : ∀ c b, (c, b) ∈ layoutFrom start blocks → HeaderAt memory c b

theorem Tiles.congr {memory memory' : Memory} {start stop : ℕ} {blocks : List Block}
    (h : Tiles memory start blocks stop) (hstop : stop ≤ 2 ^ 32)
    (same : ∀ c b, (c, b) ∈ layoutFrom start blocks →
      ∀ x, InRange c 16 x → memory' x = memory x) : Tiles memory' start blocks stop := by
  refine ⟨h.extent, fun c b hcb => (h.headers c b hcb).congr ?_ (same c b hcb)⟩
  have hb := layout_bounds hcb
  have he := h.extent
  rw [Block.extent] at hb
  omega

theorem Tiles.tail {memory : Memory} {start stop : ℕ} {b : Block} {blocks : List Block}
    (h : Tiles memory start (b :: blocks) stop) : Tiles memory (start + b.extent) blocks stop := by
  have he := h.extent
  rw [extentOf_cons] at he
  refine ⟨by omega, fun c e hce => h.headers c e ?_⟩
  rw [layoutFrom]
  exact List.mem_cons_of_mem _ hce

theorem HeaderAt.unique {memory : Memory} {a : ℕ} {b e : Block} (h : HeaderAt memory a b)
    (k : HeaderAt memory a e) : b = e := by
  have hsize : b.payloadSize = e.payloadSize := h.size.symm.trans k.size
  have hstate : b.stateWord = e.stateWord := h.state.symm.trans k.state
  have hallocated : b.allocated = e.allocated := by
    simp only [Block.stateWord] at hstate
    cases hb : b.allocated <;> cases he : e.allocated <;> simp only [hb, he] at hstate ⊢
    · exact absurd hstate (by decide)
    · exact absurd hstate (by decide)
  obtain ⟨n, allocated⟩ := b
  obtain ⟨m, allocated'⟩ := e
  simp only at hsize hallocated
  rw [hsize, hallocated]

/-- The headers determine the blocks. -/
theorem Tiles.unique {memory : Memory} {start stop : ℕ} {xs ys : List Block}
    (h : Tiles memory start xs stop) (k : Tiles memory start ys stop) : xs = ys := by
  have hpos : ∀ b : Block, 0 < b.extent := fun b => by simp only [Block.extent]; omega
  induction xs generalizing start ys with
  | nil =>
    cases ys with
    | nil => rfl
    | cons y ys =>
      have hx := h.extent
      have hy := k.extent
      have := hpos y
      simp only [extentOf_nil, extentOf_cons] at hx hy
      omega
  | cons x xs ih =>
    cases ys with
    | nil =>
      have hx := h.extent
      have hy := k.extent
      have := hpos x
      simp only [extentOf_nil, extentOf_cons] at hx hy
      omega
    | cons y ys =>
      have hx := h.headers start x (by simp [layoutFrom])
      have hy := k.headers start y (by simp [layoutFrom])
      obtain rfl := hx.unique hy
      rw [ih h.tail k.tail]

section Walk

variable {ρ : Type*} {state : Stage8cKheapState} {memory : Memory} {finished corrupt : ρ}
  {visit : UInt32 → UInt32 → UInt32 → UInt32 → Option ρ}

/-- What a walk asks about the block with its header at `c`. -/
def visitBlock (visit : UInt32 → UInt32 → UInt32 → UInt32 → Option ρ) (place : ℕ × Block) :
    Option ρ :=
  visit (UInt32.ofNat place.1) (UInt32.ofNat (place.1 + 16)) (UInt32.ofNat place.2.payloadSize)
    (UInt32.ofNat (place.1 + place.2.extent))

/-- At a block of a tiled range all four checks pass. -/
theorem walkIteration_block {a : ℕ} {b : Block} (h : HeaderAt memory a b)
    (hstop : a + b.extent ≤ state.current.toNat) :
    walkIteration state memory finished corrupt visit (UInt32.ofNat a) =
      match visitBlock visit (a, b) with
      | some result => .leave result
      | none => .next (UInt32.ofNat (a + b.extent)) := by
  have hlt := state.current.toNat_lt
  have hpos := h.pos
  rw [Block.extent] at hstop
  have ha : (UInt32.ofNat a).toNat = a := word_toNat (by omega)
  have hsize : headerPayloadSize memory (UInt32.ofNat a) = UInt32.ofNat b.payloadSize := by
    apply UInt32.toNat_inj.mp
    rw [h.size, word_toNat (by omega)]
  have hsizeNat : (UInt32.ofNat b.payloadSize).toNat = b.payloadSize := word_toNat (by omega)
  have hpayload : UInt32.ofNat a + allocationHeaderSize = UInt32.ofNat (a + 16) :=
    (UInt32.ofNat_add a 16).symm
  have hend : UInt32.ofNat (a + 16) + UInt32.ofNat b.payloadSize = UInt32.ofNat (a + b.extent) := by
    rw [← UInt32.ofNat_add, Block.extent]
    congr 1
    omega
  have hpayloadNat : (UInt32.ofNat (a + 16)).toNat = a + 16 := word_toNat (by omega)
  have hendNat : (UInt32.ofNat (a + b.extent)).toNat = a + 16 + b.payloadSize := by
    rw [Block.extent, word_toNat (by omega)]
    omega
  have hin : ¬ ¬ UInt32.ofNat a < state.current := by
    rw [not_not, UInt32.lt_iff_toNat_lt, ha]
    omega
  have h16 : allocationHeaderSize ≤ state.current := by
    rw [UInt32.le_iff_toNat_le]
    exact le_trans (show (16 : ℕ) ≤ a + (16 + b.payloadSize) by omega) hstop
  have hroom : ¬ state.current - allocationHeaderSize < UInt32.ofNat a := by
    have hsz : allocationHeaderSize.toNat = 16 := rfl
    rw [UInt32.lt_iff_toNat_lt, UInt32.toNat_sub_of_le _ _ h16, ha, hsz]
    omega
  have hmagic : ¬ headerMagic memory (UInt32.ofNat a) ≠ allocationHeaderMagic :=
    not_not.mpr h.magic
  have hshape : ¬ (headerPayloadSize memory (UInt32.ofNat a) = 0 ∨
      headerPayloadSize memory (UInt32.ofNat a) &&& (kheapMinAlignment - 1) ≠ 0) := by
    rw [not_or, not_not, ← ne_eq, MachineWord.ne_zero32_iff, hsize, hsizeNat]
    refine ⟨hpos, ?_⟩
    apply UInt32.toNat_inj.mp
    rw [MachineWord.and_mask32 _ 3 rfl, hsizeNat]
    exact h.multiple
  have hfits : ¬ state.current - UInt32.ofNat (a + 16) < UInt32.ofNat b.payloadSize := by
    have hle : UInt32.ofNat (a + 16) ≤ state.current := by
      rw [UInt32.le_iff_toNat_le, hpayloadNat]
      omega
    rw [UInt32.lt_iff_toNat_lt, UInt32.toNat_sub_of_le _ _ hle, hpayloadNat, hsizeNat]
    omega
  have hgrow : ¬ UInt32.ofNat (a + b.extent) ≤ UInt32.ofNat a := by
    rw [UInt32.le_iff_toNat_le, hendNat, ha]
    omega
  rw [walkIteration, if_neg hin, if_neg hroom, if_neg hmagic, if_neg hshape]
  simp only [hsize, hpayload, hend]
  rw [if_neg hfits, visitBlock]
  simp only
  cases visit (UInt32.ofNat a) (UInt32.ofNat (a + 16)) (UInt32.ofNat b.payloadSize)
    (UInt32.ofNat (a + b.extent)) with
  | some result => rfl
  | none => simp only [hgrow, if_false]

/-- A walk that asks for nothing comes by every block. -/
theorem walk_visits {a c : ℕ} {b : Block} {blocks : List Block}
    (h : Tiles memory a blocks state.current.toNat) (hcb : (c, b) ∈ layoutFrom a blocks) :
    Visits (walkIteration state memory finished corrupt fun _ _ _ _ => none) (UInt32.ofNat a)
      (UInt32.ofNat c) := by
  induction blocks generalizing a with
  | nil => simp [layoutFrom] at hcb
  | cons x xs ih =>
    have hx := h.headers a x (by simp [layoutFrom])
    have hstop := h.extent
    simp only [extentOf_cons] at hstop
    rw [layoutFrom] at hcb
    rcases List.mem_cons.mp hcb with hcb | hcb
    · obtain ⟨rfl, rfl⟩ := Prod.mk.inj hcb
      exact .here
    · exact Visits.head (walkIteration_block hx (by omega)) (ih h.tail hcb)

/-- On a tiled range a walk is a search: the first block that answers decides. -/
theorem walk_run {a : ℕ} {blocks : List Block} (h : Tiles memory a blocks state.current.toNat)
    {fuel : ℕ} (hfuel : state.current.toNat - a < fuel) :
    run (walkIteration state memory finished corrupt visit) fuel (UInt32.ofNat a) =
      some (((layoutFrom a blocks).findSome? (visitBlock visit)).getD finished) := by
  induction blocks generalizing a fuel with
  | nil =>
    obtain ⟨fuel, rfl⟩ : ∃ k, fuel = k + 1 := ⟨fuel - 1, by omega⟩
    have hend : UInt32.ofNat a = state.current := by
      have he := h.extent
      rw [extentOf_nil, Nat.add_zero] at he
      rw [he, UInt32.ofNat_toNat]
    have hleave : walkIteration state memory finished corrupt visit (UInt32.ofNat a) =
        .leave finished := by
      rw [walkIteration, hend, if_pos (UInt32.lt_irrefl _)]
    rw [run_leave hleave]
    rfl
  | cons b bs ih =>
    obtain ⟨fuel, rfl⟩ : ∃ k, fuel = k + 1 := ⟨fuel - 1, by omega⟩
    have hmem : (a, b) ∈ layoutFrom a (b :: bs) := by
      rw [layoutFrom]
      exact List.mem_cons_self
    have hb := layout_bounds hmem
    have he := h.extent
    have hstep := @walkIteration_block ρ state memory finished corrupt visit a b
      (h.headers a b hmem) (by omega)
    rw [layoutFrom, List.findSome?_cons]
    cases hvisit : visitBlock visit (a, b) with
    | some result =>
      rw [hvisit] at hstep
      rw [run_leave hstep]
      rfl
    | none =>
      rw [hvisit] at hstep
      rw [run_next hstep]
      apply ih h.tail
      have hpos := Nat.le_add_right 16 b.payloadSize
      rw [← Block.extent] at hpos
      omega

/-- The first block that answers, behind blocks that do not. -/
theorem search_hits {a : ℕ} {pre post : List Block} {b : Block} {result : ρ}
    (hbefore : ∀ d e, (d, e) ∈ layoutFrom a pre → visitBlock visit (d, e) = none)
    (hhere : visitBlock visit (a + extentOf pre, b) = some result) :
    (layoutFrom a (pre ++ b :: post)).findSome? (visitBlock visit) = some result := by
  have hnone : (layoutFrom a pre).findSome? (visitBlock visit) = none := by
    rw [List.findSome?_eq_none_iff]
    rintro ⟨d, e⟩ hde
    exact hbefore d e hde
  rw [layoutFrom_append, List.findSome?_append, hnone, Option.none_or, layoutFrom,
    List.findSome?_cons, hhere]

end Walk

end KernelHeapTiling
