import CustomOs.Library.ByteMemory
import CustomOs.Library.Loop

/-! # Copying bytes in place (Stage 10C)
Both copies run over the memory they change. Whichever way a copy goes, the bytes it has moved
are an interval of the destination, and the source bytes still to be read are as they were. -/
namespace KernelMemoryPrimitives

open ByteMemory Loop

/-- The ascending loop of `kmemcpy` and `kmemmove`. -/
def ascendingIteration (out input count : UInt32) (loop : Memory × UInt32) :
    Iteration (Memory × UInt32) Memory :=
  let (memory, i) := loop
  if ¬ i < count then .leave memory
  else .next (store8 memory (out + i) (memory (input + i)), i + 1)

/-- The descending loop of `kmemmove`. -/
def descendingIteration (out input : UInt32) (loop : Memory × UInt32) :
    Iteration (Memory × UInt32) Memory :=
  let (memory, i) := loop
  if i = 0 then .leave memory
  else
    let i := i - 1
    .next (store8 memory (out + i) (memory (input + i)), i)

/-- The pointer returned and the memory left behind, if the loop ends within the fuel. -/
def kmemcpy (fuel : ℕ) (memory : Memory) (dest src count : UInt32) : Option (UInt32 × Memory) :=
  (run (ascendingIteration dest src count) fuel (memory, 0)).map fun memory => (dest, memory)

def kmemmove (fuel : ℕ) (memory : Memory) (dest src count : UInt32) :
    Option (UInt32 × Memory) :=
  if dest = src ∨ count = 0 then some (dest, memory)
  else if dest < src ∨ src + count ≤ dest then
    (run (ascendingIteration dest src count) fuel (memory, 0)).map fun memory => (dest, memory)
  else
    (run (descendingIteration dest src) fuel (memory, count)).map fun memory => (dest, memory)

/-! ## An interval of moved bytes -/

/-- Bytes `lower` to below `upper` of the destination hold what the source held at first, and
no other byte has changed. -/
structure Moved (memory memory' : Memory) (dest src : UInt32) (lower upper : ℕ) : Prop where
  moved : ∀ i, lower ≤ i → i < upper →
    memory' (dest + UInt32.ofNat i) = memory (src + UInt32.ofNat i)
  kept : ∀ x, ¬ InRange (dest.toNat + lower) (upper - lower) x → memory' x = memory x

/-- Neither range runs past the end of the address space. -/
structure Fits (dest src count : UInt32) : Prop where
  dest : dest.toNat + count.toNat ≤ 2 ^ 32
  src : src.toNat + count.toNat ≤ 2 ^ 32

variable {memory memory' : Memory} {dest src count : UInt32} {lower upper i : ℕ}

theorem Moved.nothing (memory : Memory) (dest src : UInt32) (i : ℕ) :
    Moved memory memory dest src i i :=
  ⟨fun _ hl hu => absurd hu (by omega), fun _ _ => rfl⟩

/-- One more byte, read while it was still there. -/
theorem Moved.extend (h : Moved memory memory' dest src lower upper) {lower' upper' : ℕ}
    (hi : lower' ≤ i ∧ i < upper') (hbound : dest.toNat + upper' ≤ 2 ^ 32)
    (hcover : ∀ j, lower' ≤ j ∧ j < upper' ↔ j = i ∨ lower ≤ j ∧ j < upper)
    (hunread : memory' (src + UInt32.ofNat i) = memory (src + UInt32.ofNat i)) :
    Moved memory (store8 memory' (dest + UInt32.ofNat i) (memory' (src + UInt32.ofNat i)))
      dest src lower' upper' := by
  have haddr : ∀ j, j < upper' → (dest + UInt32.ofNat j).toNat = dest.toNat + j :=
    fun j hj => addr_add (by omega)
  constructor
  · intro j hl hu
    by_cases hji : j = i
    · rw [hji, store8, if_pos rfl, hunread]
    · have hne : dest + UInt32.ofNat j ≠ dest + UInt32.ofNat i := by
        intro heq
        have hnat := congrArg UInt32.toNat heq
        rw [haddr j hu, haddr i hi.2] at hnat
        omega
      obtain ⟨hl', hu'⟩ := ((hcover j).mp ⟨hl, hu⟩).resolve_left hji
      rw [store8_ne _ _ hne]
      exact h.moved j hl' hu'
  · intro x hx
    have hne : x ≠ dest + UInt32.ofNat i := by
      rintro rfl
      apply hx
      rw [InRange, haddr i hi.2]
      omega
    rw [store8_ne _ _ hne]
    apply h.kept
    intro hin
    obtain ⟨hl, hu⟩ := hin
    have hj := (hcover (x.toNat - dest.toNat)).mpr (Or.inr (by omega))
    exact hx ⟨by omega, by omega⟩

theorem Moved.up (h : Moved memory memory' dest src lower upper) (hle : lower ≤ upper)
    (hbound : dest.toNat + (upper + 1) ≤ 2 ^ 32)
    (hunread : memory' (src + UInt32.ofNat upper) = memory (src + UInt32.ofNat upper)) :
    Moved memory (store8 memory' (dest + UInt32.ofNat upper)
      (memory' (src + UInt32.ofNat upper))) dest src lower (upper + 1) :=
  h.extend (by omega) hbound (fun j => by omega) hunread

theorem Moved.down (h : Moved memory memory' dest src (lower + 1) upper) (hlt : lower < upper)
    (hbound : dest.toNat + upper ≤ 2 ^ 32)
    (hunread : memory' (src + UInt32.ofNat lower) = memory (src + UInt32.ofNat lower)) :
    Moved memory (store8 memory' (dest + UInt32.ofNat lower)
      (memory' (src + UInt32.ofNat lower))) dest src lower upper :=
  h.extend (by omega) hbound (fun j => by omega) hunread

/-- A source byte outside the interval is still the one it was. -/
theorem Moved.unread (h : Moved memory memory' dest src lower upper) (hsrc : src.toNat + i < 2 ^ 32)
    (hapart : src.toNat + i < dest.toNat + lower ∨ dest.toNat + upper ≤ src.toNat + i) :
    memory' (src + UInt32.ofNat i) = memory (src + UInt32.ofNat i) := by
  apply h.kept
  rw [InRange, addr_add hsrc]
  omega

/-! ## The loops -/

/-- The ascending loop is right when no byte is written before it is read. -/
theorem ascending_run (h : Fits dest src count)
    (horder : dest.toNat ≤ src.toNat ∨ src.toNat + count.toNat ≤ dest.toNat) {fuel : ℕ}
    (hfuel : count.toNat < fuel) :
    ∃ memory', run (ascendingIteration dest src count) fuel (memory, 0) = some memory' ∧
      Moved memory memory' dest src 0 count.toNat := by
  apply run_spec
    (I := fun s => s.2.toNat ≤ count.toNat ∧ Moved memory s.1 dest src 0 s.2.toNat)
    (V := fun s => count.toNat - s.2.toNat)
  case hs => exact ⟨Nat.zero_le _, .nothing memory dest src 0⟩
  case hn => exact lt_of_le_of_lt (Nat.sub_le _ _) hfuel
  case hnext =>
    rintro ⟨m, i⟩ t ⟨hle, hmoved⟩ hbody
    simp only [ascendingIteration] at hbody hle hmoved
    split_ifs at hbody with hmore
    obtain rfl := Iteration.next.inj hbody
    have hlt := UInt32.lt_iff_toNat_lt.mp hmore
    have hword := count.toNat_lt
    have hsucc : (i + 1).toNat = i.toNat + 1 :=
      MachineWord.toNat_add32 (by rw [UInt32.toNat_one]; omega)
    have hd := h.dest
    have hs := h.src
    have hstep := hmoved.up (Nat.zero_le _) (by omega)
      (hmoved.unread (i := i.toNat) (by omega) (by omega))
    rw [UInt32.ofNat_toNat] at hstep
    simp only [hsucc]
    exact ⟨⟨by omega, hstep⟩, by omega⟩
  case hleave =>
    rintro ⟨m, i⟩ r ⟨hle, hmoved⟩ hbody
    simp only [ascendingIteration] at hbody hle hmoved
    split_ifs at hbody with hdone
    obtain rfl := Iteration.leave.inj hbody
    have hend := UInt32.lt_iff_toNat_lt.not.mp hdone
    rwa [show count.toNat = i.toNat by omega]

/-- The descending loop is right when the destination lies above the source. -/
theorem descending_run (h : Fits dest src count) (horder : src.toNat ≤ dest.toNat) {fuel : ℕ}
    (hfuel : count.toNat < fuel) :
    ∃ memory', run (descendingIteration dest src) fuel (memory, count) = some memory' ∧
      Moved memory memory' dest src 0 count.toNat := by
  apply run_spec
    (I := fun s => s.2.toNat ≤ count.toNat ∧ Moved memory s.1 dest src s.2.toNat count.toNat)
    (V := fun s => s.2.toNat)
  case hs => exact ⟨le_rfl, .nothing memory dest src count.toNat⟩
  case hn => exact hfuel
  case hnext =>
    rintro ⟨m, i⟩ t ⟨hle, hmoved⟩ hbody
    simp only [descendingIteration] at hbody hle hmoved
    split_ifs at hbody with hmore
    obtain rfl := Iteration.next.inj hbody
    have hpos := MachineWord.ne_zero32_iff.mp hmore
    have hpred : (i - 1).toNat = i.toNat - 1 :=
      UInt32.toNat_sub_of_le _ _ (by rw [UInt32.le_iff_toNat_le]; exact hpos)
    have hd := h.dest
    have hs := h.src
    rw [show i.toNat = (i - 1).toNat + 1 by omega] at hmoved
    have hstep := hmoved.down (by omega) hd
      (hmoved.unread (i := (i - 1).toNat) (by omega) (by omega))
    rw [UInt32.ofNat_toNat] at hstep
    exact ⟨⟨by simp only; omega, hstep⟩, by simp only; omega⟩
  case hleave =>
    rintro ⟨m, i⟩ r ⟨hle, hmoved⟩ hbody
    simp only [descendingIteration] at hbody hle hmoved
    split_ifs at hbody with hdone
    obtain rfl := Iteration.leave.inj hbody
    rwa [hdone, UInt32.toNat_zero] at hmoved

/-! ## The direction -/

/-- The test that picks the direction is the one without wrapping: a source range that ends at
the end of the address space leaves no room for a destination above its start. -/
theorem direction_iff (h : Fits dest src count) (hne : dest ≠ src) :
    dest < src ∨ src + count ≤ dest ↔
      dest.toNat < src.toNat ∨ src.toNat + count.toNat ≤ dest.toNat := by
  have hd := h.dest
  have hs := h.src
  have hne' := UInt32.toNat_inj.not.mpr hne
  rw [UInt32.lt_iff_toNat_lt, UInt32.le_iff_toNat_le, UInt32.toNat_add]
  omega

theorem kmemcpy_run (h : Fits dest src count)
    (horder : dest.toNat ≤ src.toNat ∨ src.toNat + count.toNat ≤ dest.toNat) {fuel : ℕ}
    (hfuel : count.toNat < fuel) :
    ∃ memory', kmemcpy fuel memory dest src count = some (dest, memory') ∧
      Moved memory memory' dest src 0 count.toNat := by
  obtain ⟨memory', hrun, hmoved⟩ := @ascending_run memory _ _ _ h horder _ hfuel
  exact ⟨memory', by rw [kmemcpy, hrun, Option.map_some], hmoved⟩

theorem kmemmove_run (h : Fits dest src count) {fuel : ℕ} (hfuel : count.toNat < fuel) :
    ∃ memory', kmemmove fuel memory dest src count = some (dest, memory') ∧
      Moved memory memory' dest src 0 count.toNat := by
  by_cases hidle : dest = src ∨ count = 0
  · refine ⟨memory, if_pos hidle, fun i _ hi => ?_, fun _ _ => rfl⟩
    rcases hidle with rfl | rfl
    · rfl
    · exact absurd hi (Nat.not_lt_zero i)
  have hne : dest ≠ src := fun hc => hidle (Or.inl hc)
  have hdirection := direction_iff h hne
  simp only [kmemmove, if_neg hidle]
  by_cases hup : dest < src ∨ src + count ≤ dest
  · have horder := hdirection.mp hup
    obtain ⟨memory', hrun, hmoved⟩ := @ascending_run memory _ _ _ h (by omega) _ hfuel
    exact ⟨memory', by rw [if_pos hup, hrun, Option.map_some], hmoved⟩
  · have horder := hdirection.not.mp hup
    obtain ⟨memory', hrun, hmoved⟩ := @descending_run memory _ _ _ h (by omega) _ hfuel
    exact ⟨memory', by rw [if_neg hup, hrun, Option.map_some], hmoved⟩

/-- What is moved is determined: two results agree at every address. -/
theorem Moved.unique {memory'' : Memory} (h : Moved memory memory' dest src lower upper)
    (k : Moved memory memory'' dest src lower upper) : memory' = memory'' := by
  funext x
  by_cases hx : InRange (dest.toNat + lower) (upper - lower) x
  · obtain ⟨hl, hu⟩ := hx
    have haddr : x = dest + UInt32.ofNat (x.toNat - dest.toNat) := by
      have hword := x.toNat_lt
      rw [← UInt32.toNat_inj, addr_add (by omega)]
      omega
    rw [haddr, h.moved _ (by omega) (by omega), k.moved _ (by omega) (by omega)]
  · rw [h.kept x hx, k.kept x hx]

theorem kmemmove_correct (memory : Memory) (dest src count : UInt32)
    (hdest : dest.toNat + count.toNat ≤ 2 ^ 32) (hsrc : src.toNat + count.toNat ≤ 2 ^ 32) :
    ∃ memory', (∀ fuel, count.toNat < fuel →
        kmemmove fuel memory dest src count = some (dest, memory')) ∧
      (∀ i, i < count.toNat →
        memory' (dest + UInt32.ofNat i) = memory (src + UInt32.ofNat i)) ∧
      (∀ x, ¬ InRange dest.toNat count.toNat x → memory' x = memory x) ∧
      (dest ≠ src → (dest < src ∨ src + count ≤ dest ↔
        dest.toNat < src.toNat ∨ src.toNat + count.toNat ≤ dest.toNat)) ∧
      (dest ≤ src ∨
          (∀ x, InRange dest.toNat count.toNat x → ¬ InRange src.toNat count.toNat x) →
        ∀ fuel, count.toNat < fuel →
          kmemcpy fuel memory dest src count = some (dest, memory')) := by
  have h : Fits dest src count := ⟨hdest, hsrc⟩
  obtain ⟨memory', hrun, hmoved⟩ := @kmemmove_run memory _ _ _ h _ (Nat.lt_succ_self _)
  refine ⟨memory', fun fuel hfuel => ?_, fun i hi => hmoved.moved i (Nat.zero_le i) hi,
    fun x hx => hmoved.kept x hx, direction_iff h, fun horder fuel hfuel => ?_⟩
  · obtain ⟨memory'', hrun', hmoved'⟩ := @kmemmove_run memory _ _ _ h _ hfuel
    rw [hrun', hmoved'.unique hmoved]
  · have horder' : dest.toNat ≤ src.toNat ∨ src.toNat + count.toNat ≤ dest.toNat := by
      rcases horder with hle | hapart
      · exact Or.inl (UInt32.le_iff_toNat_le.mp hle)
      · by_contra hover
        push Not at hover
        exact hapart dest ⟨le_rfl, by omega⟩ ⟨by omega, by omega⟩
    obtain ⟨memory'', hrun', hmoved'⟩ := @kmemcpy_run memory _ _ _ h horder' _ hfuel
    rw [hrun', hmoved'.unique hmoved]

/-- Four bytes move up by two, over themselves, and end with the address space. -/
theorem kmemmove_correct_overlap : ∃ memory' : Memory,
    kmemmove 5 (fun x => x.toUInt8) 0xFFFFFFFC 0xFFFFFFFA 4 = some (0xFFFFFFFC, memory') ∧
    memory' 0xFFFFFFFE = 0xFC := by
  obtain ⟨memory', hrun, hmoved, _⟩ := kmemmove_correct (fun x => x.toUInt8) 0xFFFFFFFC
    0xFFFFFFFA 4 (by decide) (by decide)
  exact ⟨memory', hrun 5 (by decide), hmoved 2 (by decide)⟩

end KernelMemoryPrimitives
