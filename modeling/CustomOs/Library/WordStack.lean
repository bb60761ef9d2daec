import CustomOs.Library.ByteMemory

/-! # Stacks of words that grow downwards
A stack pointer into byte memory, and the words that lie from it upwards. Pushing and popping
are described by the list of these words, and by what stays as it was above them. -/
namespace WordStack

open ByteMemory

structure Stack where
  pointer : UInt32
  memory : Memory

def Stack.push (s : Stack) (w : UInt32) : Stack :=
  ⟨s.pointer - 4, store32 s.memory (s.pointer - 4) w⟩

def Stack.pushAll (s : Stack) (ws : List UInt32) : Stack := ws.foldl Stack.push s

/-- The word that so many others lie above. -/
def Stack.word (s : Stack) (k : ℕ) : UInt32 := load32 s.memory (s.pointer + 4 * UInt32.ofNat k)

/-- So many words are popped. -/
def Stack.drop (s : Stack) (k : ℕ) : Stack := { s with pointer := s.pointer + 4 * UInt32.ofNat k }

def Words (m : Memory) : UInt32 → List UInt32 → Prop
  | _, [] => True
  | a, w :: ws => load32 m a = w ∧ Words m (a + 4) ws

/-- The stack has these words on top, and they end inside the address space. -/
structure Holds (s : Stack) (ws : List UInt32) : Prop where
  fits : s.pointer.toNat + 4 * ws.length ≤ 2 ^ 32
  words : Words s.memory s.pointer ws

/-- From this address up to a bound nothing has been written. -/
def SameFrom (a bound : ℕ) (m m' : Memory) : Prop :=
  ∀ x : UInt32, a ≤ x.toNat → x.toNat < bound → m' x = m x

variable {m m' : Memory} {a w : UInt32} {s t : Stack} {ws : List UInt32} {n bound : ℕ}

theorem SameFrom.trans {m'' : Memory} (h : SameFrom n bound m m') (k : SameFrom n bound m' m'') :
    SameFrom n bound m m'' := by
  intro x hx hbound
  rw [k x hx hbound, h x hx hbound]

theorem SameFrom.mono {n' : ℕ} (h : SameFrom n bound m m') (hle : n ≤ n') :
    SameFrom n' bound m m' := by
  intro x hx hbound
  exact h x (by omega) hbound

theorem next_toNat (h : a.toNat + 4 < 2 ^ 32) : (a + 4).toNat = a.toNat + 4 :=
  addr_add (k := 4) h

theorem Words.congr (h : Words m a ws) (fits : a.toNat + 4 * ws.length ≤ bound)
    (hbound : bound ≤ 2 ^ 32) (same : SameFrom a.toNat bound m m') : Words m' a ws := by
  induction ws generalizing a with
  | nil => trivial
  | cons w ws ih =>
    obtain ⟨hword, hrest⟩ := h
    rw [List.length_cons] at fits
    have hload : load32 m' a = load32 m a := by
      apply load32_congr (by omega)
      rintro x ⟨hl, hu⟩
      exact same x hl (by omega)
    refine ⟨hload.trans hword, ?_⟩
    cases ws with
    | nil => trivial
    | cons v vs =>
      rw [List.length_cons] at fits
      have hnext := next_toNat (a := a) (by omega)
      refine ih hrest ?_ (same.mono (by omega))
      rw [hnext, List.length_cons]
      omega

theorem pointer_push (room : 4 ≤ s.pointer.toNat) :
    (s.push w).pointer.toNat + 4 = s.pointer.toNat := by
  have hle : (4 : UInt32) ≤ s.pointer := UInt32.le_iff_toNat_le.mpr room
  have hfour : (4 : UInt32).toNat = 4 := rfl
  rw [Stack.push, UInt32.toNat_sub_of_le _ _ hle, hfour]
  omega

theorem push_same (room : 4 ≤ s.pointer.toNat) (w : UInt32) :
    SameFrom s.pointer.toNat (2 ^ 32) s.memory (s.push w).memory := by
  have hpointer := pointer_push (w := w) room
  have hlt := s.pointer.toNat_lt
  intro x hx _
  apply store32_outside
  · change (s.push w).pointer.toNat + 4 ≤ _
    omega
  · rintro ⟨_, hu⟩
    change x.toNat < (s.push w).pointer.toNat + 4 at hu
    omega

theorem Holds.push (h : Holds s ws) (room : 4 ≤ s.pointer.toNat) (w : UInt32) :
    Holds (s.push w) (w :: ws) := by
  have hpointer := pointer_push (w := w) room
  have hback : (s.push w).pointer + 4 = s.pointer := by
    simp [Stack.push]
  constructor
  · rw [List.length_cons]
    have := h.fits
    omega
  · refine ⟨load32_store32_same _ _ _, ?_⟩
    rw [hback]
    exact h.words.congr h.fits le_rfl (push_same room w)

theorem pushAll_spec (h : Holds s ws) (vs : List UInt32)
    (room : 4 * vs.length ≤ s.pointer.toNat) :
    Holds (s.pushAll vs) (vs.reverse ++ ws) ∧
      (s.pushAll vs).pointer.toNat + 4 * vs.length = s.pointer.toNat ∧
      SameFrom s.pointer.toNat (2 ^ 32) s.memory (s.pushAll vs).memory := by
  induction vs generalizing s ws with
  | nil => exact ⟨h, rfl, fun _ _ _ => rfl⟩
  | cons v vs ih =>
    rw [List.length_cons] at room
    have hpointer := pointer_push (w := v) (s := s) (by omega)
    obtain ⟨hholds, hlower, hsame⟩ := ih (h.push (by omega) v) (by omega)
    refine ⟨?_, ?_, ?_⟩
    · rw [List.reverse_cons, List.append_assoc]
      exact hholds
    · rw [List.length_cons]
      change ((s.push v).pushAll vs).pointer.toNat + _ = _
      omega
    · exact (push_same (by omega) v).trans (hsame.mono (by omega))

/-- The words stay when everything below a bound above them does. -/
theorem Holds.congr (h : Holds s ws) (pointer : t.pointer = s.pointer)
    (same : SameFrom s.pointer.toNat bound s.memory t.memory)
    (below : s.pointer.toNat + 4 * ws.length ≤ bound) (hbound : bound ≤ 2 ^ 32) :
    Holds t ws := by
  constructor
  · rw [pointer]
    exact h.fits
  · rw [pointer]
    exact h.words.congr below hbound same

theorem Words.drop (h : Words m a ws) (k : ℕ) :
    Words m (a + 4 * UInt32.ofNat k) (ws.drop k) := by
  induction k generalizing a ws with
  | zero => simpa using h
  | succ k ih =>
    cases ws with
    | nil => trivial
    | cons w ws =>
      have haddr : a + 4 * UInt32.ofNat (k + 1) = a + 4 + 4 * UInt32.ofNat k := by
        have hone : UInt32.ofNat 1 = 1 := rfl
        rw [UInt32.ofNat_add, hone]
        grind
      rw [haddr, List.drop_succ_cons]
      exact ih h.2

theorem Holds.word (h : Holds s ws) {k : ℕ} (hk : k < ws.length) : s.word k = ws[k] := by
  have hrest := h.words.drop k
  rw [List.drop_eq_getElem_cons hk] at hrest
  exact hrest.1

theorem pointer_drop {k : ℕ} (h : s.pointer.toNat + 4 * k < 2 ^ 32) :
    (s.drop k).pointer.toNat = s.pointer.toNat + 4 * k := by
  have hword : 4 * UInt32.ofNat k = UInt32.ofNat (4 * k) := by
    have hfour : UInt32.ofNat 4 = 4 := rfl
    rw [UInt32.ofNat_mul, hfour]
  rw [Stack.drop, hword, addr_add h]

theorem Holds.drop (h : Holds s ws) {k : ℕ} (hk : k ≤ ws.length)
    (hlt : s.pointer.toNat + 4 * k < 2 ^ 32) : Holds (s.drop k) (ws.drop k) := by
  have hfits := h.fits
  constructor
  · rw [pointer_drop hlt, List.length_drop]
    omega
  · exact h.words.drop k

end WordStack
