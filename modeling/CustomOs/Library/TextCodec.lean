import Mathlib.Algebra.Ring.Nat
import Mathlib.Data.List.Nodup
import Mathlib.Data.Nat.Notation

/-! # Texts that can be read back
Numbers written with a fixed number of digits, digits written as symbols of an alphabet, and
streams of items each of which can be read off the front. -/
namespace TextCodec

/-! ## Positional notation -/

/-- The last `w` digits of a number to base `b`, the highest first. -/
def fixedDigits (b : ℕ) : ℕ → ℕ → List ℕ
  | 0, _ => []
  | w + 1, n => fixedDigits b w (n / b) ++ [n % b]

def value (b : ℕ) (ds : List ℕ) : ℕ := ds.foldl (fun acc d => acc * b + d) 0

theorem value_fixedDigits {b w n : ℕ} (h : n < b ^ w) : value b (fixedDigits b w n) = n := by
  induction w generalizing n with
  | zero =>
    have hzero : n = 0 := by simpa using h
    rw [hzero]
    rfl
  | succ w ih =>
    have hquotient : n / b < b ^ w := by
      apply Nat.div_lt_of_lt_mul
      rwa [Nat.pow_succ, Nat.mul_comm] at h
    rw [fixedDigits, value, List.foldl_append]
    change value b (fixedDigits b w (n / b)) * b + n % b = n
    rw [ih hquotient, Nat.mul_comm, Nat.div_add_mod]

theorem fixedDigits_lt {b w n d : ℕ} (hb : 0 < b) (h : d ∈ fixedDigits b w n) : d < b := by
  induction w generalizing n with
  | zero => cases h
  | succ w ih =>
    rcases List.mem_append.mp h with hhigh | hlow
    · exact ih hhigh
    · rw [List.mem_singleton.mp hlow]
      exact Nat.mod_lt _ hb

theorem fixedDigits_length (b w n : ℕ) : (fixedDigits b w n).length = w := by
  induction w generalizing n with
  | zero => rfl
  | succ w ih => rw [fixedDigits, List.length_append, ih, List.length_singleton]

theorem fixedDigits_eq (b w n : ℕ) :
    fixedDigits b w n = (List.range w).map fun i => n / b ^ (w - 1 - i) % b := by
  induction w generalizing n with
  | zero => rfl
  | succ w ih =>
    rw [fixedDigits, ih, List.range_succ, List.map_append, List.map_singleton]
    congr 1
    · apply List.map_congr_left
      intro i hi
      have hi := List.mem_range.mp hi
      have hpower : b ^ (w + 1 - 1 - i) = b * b ^ (w - 1 - i) := by
        rw [← Nat.pow_succ']
        congr 1
        omega
      rw [hpower, Nat.div_div_eq_div_mul]
    · simp

/-! ## Alphabets -/

structure Alphabet (σ : Type*) where
  symbols : List σ
  nodup : symbols.Nodup

variable {σ α β : Type*} [DecidableEq σ]

def Alphabet.write (A : Alphabet σ) [Inhabited σ] (ds : List ℕ) : List σ :=
  ds.map fun d => A.symbols.getD d default

def Alphabet.read (A : Alphabet σ) : List σ → Option (List ℕ)
  | [] => some []
  | c :: text =>
    if c ∈ A.symbols then (A.read text).map fun ds => A.symbols.idxOf c :: ds else none

theorem Alphabet.read_write (A : Alphabet σ) [Inhabited σ] {ds : List ℕ}
    (h : ∀ d ∈ ds, d < A.symbols.length) : A.read (A.write ds) = some ds := by
  induction ds with
  | nil => rfl
  | cons d ds ih =>
    have hd := h d List.mem_cons_self
    have hrest := ih fun d' hd' => h d' (List.mem_cons_of_mem _ hd')
    have hsymbol : A.symbols.getD d default = A.symbols[d] := by
      simp [hd]
    have hindex : A.symbols.idxOf A.symbols[d] = d := A.nodup.idxOf_getElem d hd
    have hstep : A.write (d :: ds) = A.symbols[d] :: A.write ds := by
      rw [← hsymbol]
      rfl
    rw [hstep, Alphabet.read, if_pos (List.getElem_mem hd), hrest, hindex]
    rfl

/-! ## Streams -/

/-- Items are read off the front until nothing is left; the number bounds how many. -/
def decodeAll (decode : List β → Option (α × List β)) : ℕ → List β → Option (List α)
  | _, [] => some []
  | 0, _ :: _ => none
  | n + 1, text@(_ :: _) =>
    match decode text with
    | none => none
    | some (a, rest) => (decodeAll decode n rest).map (a :: ·)

theorem decodeAll_flatMap {encode : α → List β} {decode : List β → Option (α × List β)}
    (undoes : ∀ a rest, decode (encode a ++ rest) = some (a, rest))
    (nonempty : ∀ a, encode a ≠ []) (items : List α) {n : ℕ} (hn : items.length ≤ n) :
    decodeAll decode n (items.flatMap encode) = some items := by
  induction items generalizing n with
  | nil => cases n <;> rfl
  | cons a items ih =>
    obtain ⟨m, rfl⟩ : ∃ m, n = m + 1 := ⟨n - 1, by rw [List.length_cons] at hn; omega⟩
    rw [List.length_cons] at hn
    rw [List.flatMap_cons]
    cases hencoded : encode a with
    | nil => exact absurd hencoded (nonempty a)
    | cons c cs =>
      have hdecode := undoes a (items.flatMap encode)
      rw [hencoded] at hdecode
      rw [List.cons_append] at hdecode ⊢
      have hrest : decodeAll decode m (items.flatMap encode) = some items := ih (by omega)
      simp only [decodeAll, hdecode, hrest, Option.map_some]

/-- Items are read off the front as long as one is there; the number bounds how many. -/
def decodeWhile (decode : List β → Option (α × List β)) : ℕ → List β → List α × List β
  | 0, text => ([], text)
  | n + 1, text =>
    match decode text with
    | none => ([], text)
    | some (a, rest) =>
      let more := decodeWhile decode n rest
      (a :: more.1, more.2)

theorem decodeWhile_flatMap {encode : α → List β} {decode : List β → Option (α × List β)}
    (undoes : ∀ a rest, decode (encode a ++ rest) = some (a, rest)) {rest : List β}
    (stops : decode rest = none) (items : List α) {n : ℕ} (hn : items.length ≤ n) :
    decodeWhile decode n (items.flatMap encode ++ rest) = (items, rest) := by
  induction items generalizing n with
  | nil =>
    cases n with
    | zero => rfl
    | succ n => simp only [List.flatMap_nil, List.nil_append, decodeWhile, stops]
  | cons a items ih =>
    obtain ⟨m, rfl⟩ : ∃ m, n = m + 1 := ⟨n - 1, by rw [List.length_cons] at hn; omega⟩
    rw [List.length_cons] at hn
    have hdecode := undoes a (items.flatMap encode ++ rest)
    have hrest := ih (n := m) (by omega)
    rw [List.flatMap_cons, List.append_assoc]
    simp only [decodeWhile, hdecode, hrest]

/-- A text is long enough to bound how many items there are in it. -/
theorem length_le_flatMap {encode : α → List β} (nonempty : ∀ a, encode a ≠ []) (items : List α) :
    items.length ≤ (items.flatMap encode).length := by
  induction items with
  | nil => exact Nat.le_refl 0
  | cons a items ih =>
    have hfirst : 0 < (encode a).length := List.length_pos_iff.mpr (nonempty a)
    rw [List.flatMap_cons, List.length_append, List.length_cons]
    omega

/-- A fixed text in front is checked and taken off. -/
def expect [DecidableEq β] (pre text : List β) : Option (List β) :=
  if text.take pre.length = pre then some (text.drop pre.length) else none

theorem expect_append [DecidableEq β] (pre rest : List β) :
    expect pre (pre ++ rest) = some rest := by
  rw [expect, List.take_left', List.drop_left'] <;> simp

end TextCodec
