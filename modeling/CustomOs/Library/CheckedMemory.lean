import CustomOs.Library.ByteMemory
import CustomOs.Library.Loop

/-! # Checked words and windows
Arithmetic that faults when it would wrap, field accesses that fault outside a window of the
address space, and loops that stop at a fault. A program written with these and proved equal to
its plain form neither wraps nor leaves the window. -/
namespace CheckedMemory

open ByteMemory Loop

/-- The addresses from `lower` to below `upper`. -/
structure Window where
  lower : ℕ
  upper : ℕ
  deriving DecidableEq, Repr

def addChecked (a b : UInt32) : Option UInt32 :=
  if a.toNat + b.toNat < 2 ^ 32 then some (a + b) else none

def subChecked (a b : UInt32) : Option UInt32 := if b ≤ a then some (a - b) else none

def loadField (w : Window) (m : Memory) (base offset : UInt32) : Option UInt32 := do
  let address ← addChecked base offset
  if w.lower ≤ address.toNat ∧ address.toNat + 4 ≤ w.upper then some (load32 m address) else none

def storeField (w : Window) (m : Memory) (base offset v : UInt32) : Option Memory := do
  let address ← addChecked base offset
  if w.lower ≤ address.toNat ∧ address.toNat + 4 ≤ w.upper then some (store32 m address v)
  else none

variable {w : Window} {a b base offset : UInt32}

theorem addChecked_eq (h : a.toNat + b.toNat < 2 ^ 32) : addChecked a b = some (a + b) := if_pos h

theorem subChecked_eq (h : b.toNat ≤ a.toNat) : subChecked a b = some (a - b) :=
  if_pos (UInt32.le_iff_toNat_le.mpr h)

/-- Base and offset name four bytes of the window. -/
def Within (w : Window) (base offset : UInt32) : Prop :=
  w.upper ≤ 2 ^ 32 ∧ w.lower ≤ base.toNat ∧ base.toNat + offset.toNat + 4 ≤ w.upper

theorem Within.address (h : Within w base offset) :
    addChecked base offset = some (base + offset) ∧
      w.lower ≤ (base + offset).toNat ∧ (base + offset).toNat + 4 ≤ w.upper := by
  obtain ⟨hw, hl, hu⟩ := h
  have hsum : (base + offset).toNat = base.toNat + offset.toNat :=
    MachineWord.toNat_add32 (by omega)
  exact ⟨addChecked_eq (by omega), by omega, by omega⟩

theorem loadField_eq (h : Within w base offset) (m : Memory) :
    loadField w m base offset = some (load32 m (base + offset)) := by
  obtain ⟨haddress, hbounds⟩ := h.address
  simp only [loadField, haddress, Option.bind_eq_bind, Option.bind_some, if_pos hbounds]

theorem storeField_eq (h : Within w base offset) (m : Memory) (v : UInt32) :
    storeField w m base offset v = some (store32 m (base + offset) v) := by
  obtain ⟨haddress, hbounds⟩ := h.address
  simp only [storeField, haddress, Option.bind_eq_bind, Option.bind_some, if_pos hbounds]

section Faults

variable {σ ρ : Type*} {body : σ → Iteration σ ρ} {checked : σ → Option (Iteration σ ρ)}

/-- A loop that leaves with no result at a fault of its body. -/
def guarded (checked : σ → Option (Iteration σ ρ)) (s : σ) : Iteration σ (Option ρ) :=
  match checked s with
  | none => .leave none
  | some (.next t) => .next t
  | some (.leave r) => .leave (some r)

/-- Where the checked body agrees with the plain one, so do the loops: no fault occurs. -/
theorem run_guarded {I : σ → Prop} {V : σ → ℕ} {Q : ρ → Prop}
    (hsafe : ∀ s, I s → checked s = some (body s))
    (hnext : ∀ s t, I s → body s = .next t → I t ∧ V t < V s)
    (hleave : ∀ s r, I s → body s = .leave r → Q r) {s : σ} (hs : I s) {n : ℕ} (hn : V s < n) :
    ∃ r, run (guarded checked) n s = some (some r) ∧ run body n s = some r ∧ Q r := by
  induction n generalizing s with
  | zero => omega
  | succ n ih =>
    have hagree := hsafe s hs
    cases hb : body s with
    | next t =>
      obtain ⟨ht, hv⟩ := hnext s t hs hb
      have hstep : guarded checked s = .next t := by simp only [guarded, hagree, hb]
      simpa only [run_next hb, run_next hstep] using ih ht (by omega)
    | leave r =>
      have hstep : guarded checked s = .leave (some r) := by simp only [guarded, hagree, hb]
      exact ⟨r, run_leave hstep n, run_leave hb n, hleave s r hs hb⟩

end Faults

end CheckedMemory
