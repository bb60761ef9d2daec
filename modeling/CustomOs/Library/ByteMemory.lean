import CustomOs.Library.MachineWord

/-! # Byte memory with little-endian words
A 32-bit address space of bytes and its aligned or unaligned 32-bit accesses. A word access
touches four bytes in a row; the lemmas say what a store leaves alone. -/
namespace ByteMemory

abbrev Memory := UInt32 → UInt8

def load32 (m : Memory) (a : UInt32) : UInt32 :=
  UInt32.ofNat ((m a).toNat + 2 ^ 8 * (m (a + 1)).toNat + 2 ^ 16 * (m (a + 2)).toNat +
    2 ^ 24 * (m (a + 3)).toNat)

/-- Byte `k` of a word, the lowest first. -/
def byteOf (w : UInt32) (k : ℕ) : UInt8 := UInt8.ofNat (w.toNat / 2 ^ (8 * k))

def store32 (m : Memory) (a w : UInt32) : Memory := fun x =>
  if x = a then byteOf w 0
  else if x = a + 1 then byteOf w 1
  else if x = a + 2 then byteOf w 2
  else if x = a + 3 then byteOf w 3
  else m x

def store8 (m : Memory) (a : UInt32) (b : UInt8) : Memory := fun x => if x = a then b else m x

/-- Address `x` lies in the `n` bytes from `a` on. -/
def InRange (a : ℕ) (n : ℕ) (x : UInt32) : Prop := a ≤ x.toNat ∧ x.toNat < a + n

instance (a n : ℕ) (x : UInt32) : Decidable (InRange a n x) :=
  inferInstanceAs (Decidable (a ≤ x.toNat ∧ x.toNat < a + n))

variable {m m' : Memory} {a b w x : UInt32}

theorem store8_ne (m : Memory) {a x : UInt32} (b : UInt8) (h : x ≠ a) : store8 m a b x = m x := by
  simp [store8, h]

theorem byteOf_toNat (w : UInt32) (k : ℕ) :
    (byteOf w k).toNat = w.toNat / 2 ^ (8 * k) % 2 ^ 8 := by
  rw [byteOf, UInt8.toNat_ofNat']

theorem load32_store32_same (m : Memory) (a w : UInt32) : load32 (store32 m a w) a = w := by
  have h01 : a + 1 ≠ a := by grind
  have h02 : a + 2 ≠ a := by grind
  have h03 : a + 3 ≠ a := by grind
  have h12 : a + 2 ≠ a + 1 := by grind
  have h13 : a + 3 ≠ a + 1 := by grind
  have h23 : a + 3 ≠ a + 2 := by grind
  have hw := w.toNat_lt
  apply UInt32.toNat_inj.mp
  simp only [load32, store32, if_true, h01, h02, h03, h12, h13, h23, if_false, byteOf_toNat,
    UInt32.toNat_ofNat']
  omega

theorem addr_add {k : ℕ} (h : a.toNat + k < 2 ^ 32) :
    (a + UInt32.ofNat k).toNat = a.toNat + k := by
  have hk : (UInt32.ofNat k).toNat = k := by
    rw [UInt32.toNat_ofNat', Nat.mod_eq_of_lt (by omega)]
  rw [MachineWord.toNat_add32 (by rw [hk]; exact h), hk]

/-- A store changes nothing outside its four bytes. -/
theorem store32_outside (m : Memory) {a x : UInt32} (w : UInt32) (ha : a.toNat + 4 ≤ 2 ^ 32)
    (h : ¬ InRange a.toNat 4 x) : store32 m a w x = m x := by
  have h1 := addr_add (a := a) (k := 1) (by omega)
  have h2 := addr_add (a := a) (k := 2) (by omega)
  have h3 := addr_add (a := a) (k := 3) (by omega)
  have hne : ∀ y : UInt32, InRange a.toNat 4 y → x ≠ y := by
    rintro y hy rfl
    exact h hy
  simp only [store32]
  rw [if_neg (hne a ⟨le_rfl, by omega⟩), if_neg (hne (a + 1) ?_), if_neg (hne (a + 2) ?_),
    if_neg (hne (a + 3) ?_)]
  · exact ⟨le_trans (by omega) h3.ge, lt_of_le_of_lt h3.le (by omega)⟩
  · exact ⟨le_trans (by omega) h2.ge, lt_of_le_of_lt h2.le (by omega)⟩
  · exact ⟨le_trans (by omega) h1.ge, lt_of_le_of_lt h1.le (by omega)⟩

/-- A load depends on its four bytes only. -/
theorem load32_congr (ha : a.toNat + 4 ≤ 2 ^ 32)
    (h : ∀ x, InRange a.toNat 4 x → m' x = m x) : load32 m' a = load32 m a := by
  have h1 := addr_add (a := a) (k := 1) (by omega)
  have h2 := addr_add (a := a) (k := 2) (by omega)
  have h3 := addr_add (a := a) (k := 3) (by omega)
  rw [load32, load32, h a ⟨le_rfl, by omega⟩, h (a + 1) ?_, h (a + 2) ?_, h (a + 3) ?_]
  · exact ⟨le_trans (by omega) h3.ge, lt_of_le_of_lt h3.le (by omega)⟩
  · exact ⟨le_trans (by omega) h2.ge, lt_of_le_of_lt h2.le (by omega)⟩
  · exact ⟨le_trans (by omega) h1.ge, lt_of_le_of_lt h1.le (by omega)⟩

theorem load32_store32_ne (m : Memory) {a b : UInt32} (w : UInt32) (ha : a.toNat + 4 ≤ 2 ^ 32)
    (hb : b.toNat + 4 ≤ 2 ^ 32) (h : a.toNat + 4 ≤ b.toNat ∨ b.toNat + 4 ≤ a.toNat) :
    load32 (store32 m b w) a = load32 m a := by
  apply load32_congr ha
  rintro x ⟨hl, hu⟩
  apply store32_outside m w hb
  rintro ⟨hl', hu'⟩
  omega

end ByteMemory
