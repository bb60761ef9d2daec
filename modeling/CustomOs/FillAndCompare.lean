import CustomOs.KernelMemoryPrimitives

/-! # Filling and comparing bytes (Stages 10C and 10E)
A fill lays constant bytes over a range, a copy lays the bytes of another; a comparison orders
two ranges as the lists of their bytes, the first difference deciding. The checks on local arrays
pass wherever the arrays lie. -/
namespace FillAndCompare

open ByteMemory Loop KernelMemoryPrimitives

/-! ## The primitives -/

def fillIteration (out count : UInt32) (byteValue : UInt8) (loop : Memory × UInt32) :
    Iteration (Memory × UInt32) Memory :=
  let (memory, i) := loop
  if ¬ i < count then .leave memory
  else .next (store8 memory (out + i) byteValue, i + 1)

/-- `value` is the bit pattern of the `int` argument. -/
def kmemset (fuel : ℕ) (memory : Memory) (dest value count : UInt32) : Option (UInt32 × Memory) :=
  (run (fillIteration dest count value.toUInt8) fuel (memory, 0)).map fun memory => (dest, memory)

def compareIteration (memory : Memory) (lhs rhs count i : UInt32) : Iteration UInt32 ℤ :=
  if ¬ i < count then .leave 0
  else if memory (lhs + i) ≠ memory (rhs + i) then
    .leave ((memory (lhs + i)).toNat - (memory (rhs + i)).toNat)
  else .next (i + 1)

def kmemcmp (fuel : ℕ) (memory : Memory) (a b count : UInt32) : Option ℤ :=
  run (compareIteration memory a b count) fuel 0

/-! ## Ranges of bytes -/

def bytesAt (memory : Memory) (a : UInt32) (n : ℕ) : List UInt8 :=
  (List.range n).map fun i => memory (a + UInt32.ofNat i)

/-- Memory with `n` bytes from `a` on replaced. -/
def overlay (memory : Memory) (a : UInt32) (n : ℕ) (bytes : ℕ → UInt8) : Memory :=
  fun x => if (x - a).toNat < n then bytes (x - a).toNat else memory x

/-- Two ranges that do not meet, neither of which runs past the end of the address space. -/
structure Apart (a : UInt32) (n : ℕ) (b : UInt32) (m : ℕ) : Prop where
  fits : a.toNat + n ≤ 2 ^ 32
  fits' : b.toNat + m ≤ 2 ^ 32
  disjoint : a.toNat + n ≤ b.toNat ∨ b.toNat + m ≤ a.toNat

section Ranges

variable {memory memory' : Memory} {a b x : UInt32} {n m i : ℕ} {bytes : ℕ → UInt8}

theorem offset_toNat (a : UInt32) (hi : i < 2 ^ 32) : (a + UInt32.ofNat i - a).toNat = i := by
  have hcancel : a + UInt32.ofNat i - a = UInt32.ofNat i := by grind
  rw [hcancel, UInt32.toNat_ofNat', Nat.mod_eq_of_lt hi]

theorem offset_eq (a x : UInt32) : a + UInt32.ofNat (x - a).toNat = x := by
  rw [UInt32.ofNat_toNat]
  grind

theorem bytesAt_succ (memory : Memory) (a : UInt32) (n : ℕ) :
    bytesAt memory a (n + 1) = memory a :: bytesAt memory (a + 1) n := by
  have hshift : ∀ i : ℕ, a + UInt32.ofNat (i + 1) = a + 1 + UInt32.ofNat i := by
    intro i
    rw [UInt32.ofNat_add]
    grind
  simp only [bytesAt, List.range_succ_eq_map, List.map_cons, List.map_map, Function.comp_def,
    Nat.succ_eq_add_one, hshift]
  simp

theorem bytesAt_length (memory : Memory) (a : UInt32) (n : ℕ) : (bytesAt memory a n).length = n := by
  simp [bytesAt]

theorem bytesAt_congr (h : ∀ i, i < n →
    memory' (b + UInt32.ofNat i) = memory (a + UInt32.ofNat i)) :
    bytesAt memory' b n = bytesAt memory a n := by
  apply List.map_congr_left
  intro i hi
  exact h i (List.mem_range.mp hi)

theorem overlay_inside (memory : Memory) (bytes : ℕ → UInt8) (hi : i < n) (hn : n ≤ 2 ^ 32) :
    overlay memory a n bytes (a + UInt32.ofNat i) = bytes i := by
  have hoffset := offset_toNat a (i := i) (by omega)
  rw [overlay, hoffset, if_pos hi]

theorem overlay_outside (memory : Memory) (bytes : ℕ → UInt8) (hx : n ≤ (x - a).toNat) :
    overlay memory a n bytes x = memory x := by
  rw [overlay, if_neg (by omega)]

theorem overlay_zero (memory : Memory) (a : UInt32) (bytes : ℕ → UInt8) :
    overlay memory a 0 bytes = memory := by
  funext x
  exact overlay_outside memory bytes (Nat.zero_le _)

/-- One byte more. -/
theorem store8_overlay (memory : Memory) (a : UInt32) (bytes : ℕ → UInt8) (hi : i < 2 ^ 32) :
    store8 (overlay memory a i bytes) (a + UInt32.ofNat i) (bytes i) =
      overlay memory a (i + 1) bytes := by
  funext x
  by_cases hx : x = a + UInt32.ofNat i
  · have hoffset := offset_toNat a hi
    rw [hx, store8, if_pos rfl, overlay, hoffset, if_pos (Nat.lt_succ_self i)]
  · have hne : (x - a).toNat ≠ i := by
      rintro rfl
      exact hx (offset_eq a x).symm
    rw [store8_ne _ _ hx, overlay, overlay]
    by_cases hlt : (x - a).toNat < i
    · rw [if_pos hlt, if_pos (by omega)]
    · rw [if_neg hlt, if_neg (by omega)]

/-- A byte of one range is at no offset of the other. -/
theorem Apart.offset (h : Apart a n b m) (hi : i < n) : m ≤ (a + UInt32.ofNat i - b).toNat := by
  obtain ⟨hfits, hfits', hdisjoint⟩ := h
  have haddr : (a + UInt32.ofNat i).toNat = a.toNat + i := addr_add (by omega)
  rw [UInt32.toNat_sub, haddr]
  omega

theorem Apart.symm (h : Apart a n b m) : Apart b m a n := ⟨h.fits', h.fits, h.disjoint.symm⟩

theorem overlay_apart (memory : Memory) (bytes : ℕ → UInt8) (h : Apart a n b m) (hi : i < n) :
    overlay memory b m bytes (a + UInt32.ofNat i) = memory (a + UInt32.ofNat i) :=
  overlay_outside memory bytes (h.offset hi)

end Ranges

/-! ## Fill -/

theorem fill_run (memory : Memory) (dest count : UInt32) (byteValue : UInt8) {fuel : ℕ}
    (hfuel : count.toNat < fuel) :
    ∃ memory', run (fillIteration dest count byteValue) fuel (memory, 0) = some memory' ∧
      memory' = overlay memory dest count.toNat fun _ => byteValue := by
  apply run_spec
    (I := fun s => s.2.toNat ≤ count.toNat ∧ s.1 = overlay memory dest s.2.toNat fun _ => byteValue)
    (V := fun s => count.toNat - s.2.toNat)
  case hs => exact ⟨Nat.zero_le _, (overlay_zero _ _ _).symm⟩
  case hn => exact lt_of_le_of_lt (Nat.sub_le _ _) hfuel
  case hnext =>
    rintro ⟨m, i⟩ t ⟨hle, hm⟩ hbody
    simp only [fillIteration] at hbody hle hm
    split_ifs at hbody with hmore
    obtain rfl := Iteration.next.inj hbody
    have hlt := UInt32.lt_iff_toNat_lt.mp hmore
    have hword := count.toNat_lt
    have hsucc : (i + 1).toNat = i.toNat + 1 :=
      MachineWord.toNat_add32 (by rw [UInt32.toNat_one]; omega)
    have hstep := store8_overlay memory dest (fun _ => byteValue) (i := i.toNat) (by omega)
    rw [UInt32.ofNat_toNat] at hstep
    simp only [hsucc, hm]
    exact ⟨⟨by omega, hstep⟩, by omega⟩
  case hleave =>
    rintro ⟨m, i⟩ r ⟨hle, hm⟩ hbody
    simp only [fillIteration] at hbody hle hm
    split_ifs at hbody with hdone
    obtain rfl := Iteration.leave.inj hbody
    have hend := UInt32.lt_iff_toNat_lt.not.mp hdone
    rwa [show count.toNat = i.toNat by omega]

theorem kmemset_run (memory : Memory) (dest value count : UInt32) {fuel : ℕ}
    (hfuel : count.toNat < fuel) :
    kmemset fuel memory dest value count =
      some (dest, overlay memory dest count.toNat fun _ => value.toUInt8) := by
  obtain ⟨memory', hrun, rfl⟩ := fill_run memory dest count value.toUInt8 hfuel
  rw [kmemset, hrun, Option.map_some]

/-! ## Comparison -/

/-- The difference of the first bytes that are not the same. -/
def difference : List UInt8 → List UInt8 → ℤ
  | x :: xs, y :: ys => if x ≠ y then x.toNat - y.toNat else difference xs ys
  | _, _ => 0

theorem compare_run (memory : Memory) (a b count : UInt32) {fuel : ℕ} (n : ℕ) (i : UInt32)
    (hi : i.toNat + n = count.toNat) (hfuel : n < fuel) :
    run (compareIteration memory a b count) fuel i =
      some (difference (bytesAt memory (a + i) n) (bytesAt memory (b + i) n)) := by
  induction n generalizing i fuel with
  | zero =>
    obtain ⟨fuel, rfl⟩ : ∃ k, fuel = k + 1 := ⟨fuel - 1, by omega⟩
    have hdone : ¬ i < count := by
      rw [UInt32.lt_iff_toNat_lt]
      omega
    exact run_leave (by simp only [compareIteration, hdone, not_false_eq_true, if_true]; rfl) _
  | succ n ih =>
    obtain ⟨fuel, rfl⟩ : ∃ k, fuel = k + 1 := ⟨fuel - 1, by omega⟩
    have hmore : i < count := by
      rw [UInt32.lt_iff_toNat_lt]
      omega
    have hword := count.toNat_lt
    have hsucc : (i + 1).toNat = i.toNat + 1 :=
      MachineWord.toNat_add32 (by rw [UInt32.toNat_one]; omega)
    rw [bytesAt_succ, bytesAt_succ, difference]
    by_cases hne : memory (a + i) ≠ memory (b + i)
    · rw [if_pos hne]
      exact run_leave (by simp only [compareIteration, hmore, not_true, if_false, if_pos hne]) _
    · have hnext : compareIteration memory a b count i = .next (i + 1) := by
        simp only [compareIteration, hmore, not_true, if_false, if_neg hne]
      rw [if_neg hne, run_next hnext, ih (i + 1) (by omega) (by omega), UInt32.add_assoc,
        UInt32.add_assoc]

theorem kmemcmp_run (memory : Memory) (a b count : UInt32) {fuel : ℕ}
    (hfuel : count.toNat < fuel) :
    kmemcmp fuel memory a b count =
      some (difference (bytesAt memory a count.toNat) (bytesAt memory b count.toNat)) := by
  have hrun := compare_run memory a b count count.toNat 0 (by simp) hfuel
  rwa [UInt32.add_zero, UInt32.add_zero] at hrun

theorem toNat_sub_neg_iff (x y : UInt8) : (x.toNat : ℤ) - y.toNat < 0 ↔ x < y := by
  rw [UInt8.lt_iff_toNat_lt]
  omega

theorem difference_eq_zero_iff {xs ys : List UInt8} (h : xs.length = ys.length) :
    difference xs ys = 0 ↔ xs = ys := by
  induction xs generalizing ys with
  | nil =>
    cases ys with
    | nil => simp [difference]
    | cons y ys => simp at h
  | cons x xs ih =>
    cases ys with
    | nil => simp at h
    | cons y ys =>
      rw [difference]
      by_cases hxy : x = y
      · rw [if_neg (not_not.mpr hxy), ih (by simpa using h), hxy]
        simp
      · have hnat : x.toNat ≠ y.toNat := UInt8.toNat_inj.not.mpr hxy
        rw [if_pos hxy]
        simp only [List.cons.injEq, hxy, false_and, iff_false]
        omega

theorem difference_neg_iff {xs ys : List UInt8} (h : xs.length = ys.length) :
    difference xs ys < 0 ↔ xs < ys := by
  induction xs generalizing ys with
  | nil =>
    cases ys with
    | nil => simp [difference]
    | cons y ys => simp at h
  | cons x xs ih =>
    cases ys with
    | nil => simp at h
    | cons y ys =>
      rw [difference, List.cons_lt_cons_iff]
      by_cases hxy : x = y
      · have hirrefl : ¬ y < y := UInt8.lt_irrefl y
        rw [if_neg (not_not.mpr hxy), ih (by simpa using h), hxy]
        simp [hirrefl]
      · rw [if_pos hxy, toNat_sub_neg_iff]
        simp [hxy]

theorem difference_swap (xs ys : List UInt8) : difference ys xs = -difference xs ys := by
  induction xs generalizing ys with
  | nil => cases ys <;> rfl
  | cons x xs ih =>
    cases ys with
    | nil => rfl
    | cons y ys =>
      rw [difference, difference, ih]
      by_cases hxy : x = y
      · rw [if_neg (not_not.mpr hxy.symm), if_neg (not_not.mpr hxy)]
      · rw [if_pos (Ne.symm hxy), if_pos hxy]
        omega

/-- The sign of a comparison is the lexicographic order of the two ranges, which may meet or wrap
around. -/
theorem kmemcmp_lexicographic (memory : Memory) (a b count : UInt32) :
    ∃ r : ℤ, (∀ fuel, count.toNat < fuel → kmemcmp fuel memory a b count = some r) ∧
      (r = 0 ↔ bytesAt memory a count.toNat = bytesAt memory b count.toNat) ∧
      (r < 0 ↔ bytesAt memory a count.toNat < bytesAt memory b count.toNat) ∧
      (0 < r ↔ bytesAt memory b count.toNat < bytesAt memory a count.toNat) := by
  have hlength : (bytesAt memory a count.toNat).length = (bytesAt memory b count.toNat).length := by
    rw [bytesAt_length, bytesAt_length]
  have hswap := difference_swap (bytesAt memory a count.toNat) (bytesAt memory b count.toNat)
  refine ⟨_, fun fuel hfuel => kmemcmp_run memory a b count hfuel,
    difference_eq_zero_iff hlength, difference_neg_iff hlength, ?_⟩
  rw [← difference_neg_iff hlength.symm, hswap]
  omega

/-! ## The checks on local arrays -/

/-- Where the arrays of a stage lie. -/
structure LocalArrays where
  memset : UInt32
  src : UInt32
  dst : UInt32
  move : UInt32

/-- Locals do not overlap. -/
structure LocalArrays.Separate (l : LocalArrays) : Prop where
  srcDst : Apart l.src 16 l.dst 16
  srcMove : Apart l.src 16 l.move 8
  dstMove : Apart l.dst 16 l.move 8

/-- `memcpy_src[i] = i + first` and `memcpy_dst[i] = 0` for the first `n` bytes. -/
def fillCopyArrays (memory : Memory) (l : LocalArrays) (first : ℕ) : ℕ → Memory
  | 0 => memory
  | i + 1 =>
    let memory := fillCopyArrays memory l first i
    let memory := store8 memory (l.src + UInt32.ofNat i) (UInt8.ofNat (i + first))
    store8 memory (l.dst + UInt32.ofNat i) 0

/-- `move_buffer[i] = i` for the first `n` bytes. -/
def fillMoveBuffer (memory : Memory) (move : UInt32) : ℕ → Memory
  | 0 => memory
  | i + 1 => store8 (fillMoveBuffer memory move i) (move + UInt32.ofNat i) (UInt8.ofNat i)

def expectedMove : List UInt8 := [0, 1, 0, 1, 2, 3, 4, 5]

/-- `array[k] ^= 0x01`. -/
def flipByte (memory : Memory) (a : UInt32) : Memory := store8 memory a (memory a ^^^ 0x01)

/-- `kmemset` of the array, and whether every byte is as set. -/
def memsetCheck (fuel : ℕ) (memory : Memory) (array value : UInt32) : Option (Bool × Memory) :=
  (kmemset fuel memory array value 16).map fun reply =>
    ((bytesAt reply.2 array 16).all (· = value.toUInt8), reply.2)

/-- `kmemmove` of six bytes up by two, and whether the buffer is as expected. -/
def moveCheck (fuel : ℕ) (memory : Memory) (move : UInt32) : Option (Bool × Memory) :=
  (kmemmove fuel (fillMoveBuffer memory move 8) (move + 2) move 6).map fun reply =>
    (bytesAt reply.2 move 8 = expectedMove, reply.2)

/-- Whether the checks of Stage 10C pass. -/
def stage10cPrimitives (fuel : ℕ) (memory : Memory) (l : LocalArrays) : Option Bool := do
  let (setOk, memory) ← memsetCheck fuel memory l.memset 0xA5
  let memory := fillCopyArrays memory l 1 16
  let (_, memory) ← kmemcpy fuel memory l.dst l.src 16
  let copyOk : Bool := bytesAt memory l.dst 16 = bytesAt memory l.src 16
  let (moveOk, memory) ← moveCheck fuel memory l.move
  let equality ← kmemcmp fuel memory l.src l.dst 16
  let memory := flipByte memory (l.dst + 7)
  let unequal ← kmemcmp fuel memory l.src l.dst 16
  return setOk && copyOk && moveOk && equality = 0 && unequal ≠ 0

/-- Whether the checks of Stage 10E on its local arrays pass. -/
def stage10ePrimitives (fuel : ℕ) (memory : Memory) (l : LocalArrays) : Option Bool := do
  let (setOk, memory) ← memsetCheck fuel memory l.memset 0x5A
  let memory := fillCopyArrays memory l 3 16
  let (_, memory) ← kmemcpy fuel memory l.dst l.src 16
  let equality ← kmemcmp fuel memory l.src l.dst 16
  let (moveOk, memory) ← moveCheck fuel memory l.move
  let memory := flipByte memory (l.dst + 5)
  let unequal ← kmemcmp fuel memory l.src l.dst 16
  return setOk && equality = 0 && moveOk && unequal ≠ 0

section Checks

variable {memory : Memory} {l : LocalArrays} {fuel : ℕ}

theorem Apart.not_inRange {a b : UInt32} {n m i : ℕ} (h : Apart a n b m) (hi : i < n) :
    ¬ InRange b.toNat m (a + UInt32.ofNat i) := by
  obtain ⟨hfits, hfits', hdisjoint⟩ := h
  rw [InRange, addr_add (by omega)]
  omega

theorem memsetCheck_run (memory : Memory) (array value : UInt32) (hfuel : 16 < fuel) :
    ∃ memory', memsetCheck fuel memory array value = some (true, memory') := by
  refine ⟨overlay memory array 16 fun _ => value.toUInt8, ?_⟩
  have hcount : (16 : UInt32).toNat = 16 := rfl
  rw [memsetCheck, kmemset_run memory array value 16 hfuel, Option.map_some, hcount]
  congr 2
  simp only [bytesAt, List.all_eq_true, List.mem_map, List.mem_range]
  rintro _ ⟨i, hi, rfl⟩
  rw [overlay_inside _ _ hi (by decide)]
  exact decide_eq_true rfl

theorem fillMoveBuffer_eq (memory : Memory) (move : UInt32) {n : ℕ} (hn : n ≤ 8) :
    fillMoveBuffer memory move n = overlay memory move n fun i => UInt8.ofNat i := by
  induction n with
  | zero => exact (overlay_zero _ _ _).symm
  | succ n ih => rw [fillMoveBuffer, ih (by omega), store8_overlay _ _ _ (by omega)]

/-- After the copy both arrays hold what the source held. -/
theorem copy_run (h : Apart l.src 16 l.dst 16) (hfuel : 16 < fuel) :
    ∃ memory', kmemcpy fuel memory l.dst l.src 16 = some (l.dst, memory') ∧
      (∀ i, i < 16 → memory' (l.dst + UInt32.ofNat i) = memory (l.src + UInt32.ofNat i)) ∧
      ∀ i, i < 16 → memory' (l.src + UInt32.ofNat i) = memory (l.src + UInt32.ofNat i) := by
  have hcount : (16 : UInt32).toNat = 16 := rfl
  have hfits : Fits l.dst l.src 16 := ⟨h.fits', h.fits⟩
  obtain ⟨memory', hrun, hmoved⟩ := @kmemcpy_run memory _ _ _ hfits
    (by have := h.disjoint; omega) fuel (by omega)
  refine ⟨memory', hrun, fun i hi => hmoved.moved i (Nat.zero_le _) (by omega), fun i hi => ?_⟩
  apply hmoved.kept
  exact h.not_inRange hi

theorem moveCheck_run (memory : Memory) {move : UInt32} (hfit : move.toNat + 8 ≤ 2 ^ 32)
    (hfuel : 16 < fuel) :
    ∃ memory', moveCheck fuel memory move = some (true, memory') ∧
      ∀ x, ¬ InRange move.toNat 8 x → memory' x = memory x := by
  have hcount : (6 : UInt32).toNat = 6 := rfl
  have htwo : (move + 2).toNat = move.toNat + 2 := addr_add (k := 2) (by omega)
  have hfits : Fits (move + 2) move 6 := ⟨by omega, by omega⟩
  obtain ⟨memory', hrun, hmoved⟩ := @kmemmove_run (fillMoveBuffer memory move 8) _ _ _ hfits fuel
    (by omega)
  have hinitial : ∀ i, i < 8 →
      fillMoveBuffer memory move 8 (move + UInt32.ofNat i) = UInt8.ofNat i := by
    intro i hi
    rw [fillMoveBuffer_eq memory move le_rfl, overlay_inside _ _ hi (by decide)]
  have hlow : ∀ i, i < 2 → memory' (move + UInt32.ofNat i) = UInt8.ofNat i := by
    intro i hi
    rw [hmoved.kept, hinitial i (by omega)]
    rw [InRange, addr_add (by omega), htwo]
    omega
  have hhigh : ∀ i, i < 6 → memory' (move + UInt32.ofNat (i + 2)) = UInt8.ofNat i := by
    intro i hi
    have haddr : move + UInt32.ofNat (i + 2) = move + 2 + UInt32.ofNat i := by
      rw [UInt32.ofNat_add]
      grind
    rw [haddr, hmoved.moved i (Nat.zero_le _) (by omega), hinitial i (by omega)]
  have hbytes : bytesAt memory' move 8 = expectedMove := by
    have hrange : List.range 8 = [0, 1, 0 + 2, 1 + 2, 2 + 2, 3 + 2, 4 + 2, 5 + 2] := rfl
    simp only [bytesAt, hrange, List.map_cons, List.map_nil, hlow 0 (by omega), hlow 1 (by omega),
      hhigh 0 (by omega), hhigh 1 (by omega), hhigh 2 (by omega), hhigh 3 (by omega),
      hhigh 4 (by omega), hhigh 5 (by omega)]
    rfl
  refine ⟨memory', ?_, fun x hx => ?_⟩
  · rw [moveCheck, hrun, Option.map_some, hbytes]
    rfl
  · rw [hmoved.kept, fillMoveBuffer_eq memory move le_rfl, overlay_outside]
    · have hx' := hx
      rw [InRange] at hx
      rw [UInt32.toNat_sub]
      have := x.toNat_lt
      omega
    · rw [InRange] at hx ⊢
      omega

theorem bytesAt_eq_iff {a b : UInt32} {n : ℕ} : bytesAt memory a n = bytesAt memory b n ↔
    ∀ i, i < n → memory (a + UInt32.ofNat i) = memory (b + UInt32.ofNat i) := by
  simp only [bytesAt, List.map_inj_left, List.mem_range]

theorem flip_ne (x : UInt8) : x ≠ x ^^^ 0x01 := by
  intro h
  have hzero : x ^^^ x = x ^^^ (x ^^^ 0x01) := congrArg (x ^^^ ·) h
  rw [← UInt8.xor_assoc, UInt8.xor_self, UInt8.zero_xor] at hzero
  exact absurd hzero (by decide)

/-- With one byte of the copy flipped the comparison sees a difference. -/
theorem flipped_differs (h : Apart l.src 16 l.dst 16) {k : ℕ} (hk : k < 16)
    (hsame : bytesAt memory l.src 16 = bytesAt memory l.dst 16) :
    difference (bytesAt (flipByte memory (l.dst + UInt32.ofNat k)) l.src 16)
      (bytesAt (flipByte memory (l.dst + UInt32.ofNat k)) l.dst 16) ≠ 0 := by
  rw [ne_eq, difference_eq_zero_iff (by simp only [bytesAt_length]), bytesAt_eq_iff]
  intro hall
  have hbyte := hall k hk
  have hne : l.src + UInt32.ofNat k ≠ l.dst + UInt32.ofNat k := by
    intro heq
    apply h.not_inRange hk
    rw [heq, InRange, addr_add (by have := h.fits'; omega)]
    omega
  rw [flipByte, store8_ne _ _ hne, store8, if_pos rfl, bytesAt_eq_iff.mp hsame k hk] at hbyte
  exact flip_ne _ hbyte

/-- The copy makes the arrays equal, and the move next to them leaves them so. -/
theorem arrays_agree (hl : l.Separate) (hfuel : 16 < fuel) :
    ∃ copied moved, kmemcpy fuel memory l.dst l.src 16 = some (l.dst, copied) ∧
      moveCheck fuel copied l.move = some (true, moved) ∧
      bytesAt copied l.src 16 = bytesAt copied l.dst 16 ∧
      bytesAt moved l.src 16 = bytesAt moved l.dst 16 := by
  obtain ⟨copied, hcopy, hdst, hsrc⟩ := @copy_run memory _ _ hl.srcDst hfuel
  obtain ⟨moved, hmove, hkept⟩ := moveCheck_run copied hl.srcMove.fits' hfuel
  refine ⟨copied, moved, hcopy, hmove, ?_, ?_⟩
  · rw [bytesAt_eq_iff]
    intro i hi
    rw [hdst i hi, hsrc i hi]
  · rw [bytesAt_eq_iff]
    intro i hi
    rw [hkept _ (hl.srcMove.not_inRange hi), hkept _ (hl.dstMove.not_inRange hi),
      hdst i hi, hsrc i hi]

theorem difference_bytesAt {a b : UInt32} {n : ℕ} (h : bytesAt memory a n = bytesAt memory b n) :
    difference (bytesAt memory a n) (bytesAt memory b n) = 0 :=
  (difference_eq_zero_iff (by simp only [bytesAt_length])).mpr h

theorem stage10c_primitives_pass (hl : l.Separate) (hfuel : 16 < fuel) :
    stage10cPrimitives fuel memory l = some true := by
  have hcount : (16 : UInt32).toNat = 16 := rfl
  obtain ⟨filled, hset⟩ := memsetCheck_run memory l.memset 0xA5 hfuel
  obtain ⟨copied, moved, hcopy, hmove, hcopied, hmoved⟩ :=
    @arrays_agree (fillCopyArrays filled l 1 16) _ _ hl hfuel
  have hdiffer := flipped_differs hl.srcDst (k := 7) (by omega) hmoved
  have hseven : l.dst + 7 = l.dst + UInt32.ofNat 7 := rfl
  simp only [stage10cPrimitives, hset, hcopy, hmove, kmemcmp_run _ _ _ _ (hcount ▸ hfuel),
    Option.bind_eq_bind, Option.bind_some, hcount]
  rw [hseven, decide_eq_true hcopied.symm, decide_eq_true (difference_bytesAt hmoved),
    decide_eq_true hdiffer]
  rfl

theorem stage10e_primitives_pass (hl : l.Separate) (hfuel : 16 < fuel) :
    stage10ePrimitives fuel memory l = some true := by
  have hcount : (16 : UInt32).toNat = 16 := rfl
  obtain ⟨filled, hset⟩ := memsetCheck_run memory l.memset 0x5A hfuel
  obtain ⟨copied, moved, hcopy, hmove, hcopied, hmoved⟩ :=
    @arrays_agree (fillCopyArrays filled l 3 16) _ _ hl hfuel
  have hdiffer := flipped_differs hl.srcDst (k := 5) (by omega) hmoved
  have hfive : l.dst + 5 = l.dst + UInt32.ofNat 5 := rfl
  simp only [stage10ePrimitives, hset, hcopy, hmove, kmemcmp_run _ _ _ _ (hcount ▸ hfuel),
    Option.bind_eq_bind, Option.bind_some, hcount]
  rw [hfive, decide_eq_true (difference_bytesAt hcopied), decide_eq_true hdiffer]
  rfl

end Checks

end FillAndCompare
