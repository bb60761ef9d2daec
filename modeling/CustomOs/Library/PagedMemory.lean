import CustomOs.Library.CheckedMemory
import CustomOs.Library.Interaction

/-! # Code over an address translation
Code that loads and stores words, next to other operations, is a program. It runs on a window of
a flat memory, where it faults outside, and on a machine that translates the address of every
byte. The translation may be read from the memory itself. As long as it sends different
addresses of the window to different places and is read from none of these, the code cannot tell
the machine from the flat memory. -/
namespace PagedMemory

open ByteMemory CheckedMemory Interaction
open Loop (Iteration run_next run_leave)

inductive Access where
  | load (addr : UInt32)
  | store (addr w : UInt32)
  deriving DecidableEq, Repr

abbrev Access.Answer : Access → Type
  | .load _ => UInt32
  | .store _ _ => Unit

/-- The accesses to memory with the operations of another interface. -/
abbrev withAccess (I : Interface) : Interface :=
  ⟨Access ⊕ I.Operation, Sum.elim Access.Answer I.Answer⟩

section Code

variable {I : Interface} {ε : Type}

def load (addr : UInt32) : Program (withAccess I) ε UInt32 := .call (.inl (.load addr)) .pure

def store (addr w : UInt32) : Program (withAccess I) ε Unit := .call (.inl (.store addr w)) .pure

/-- A while loop whose body is a program; `none` when it has not left by then. -/
def repeating {J : Interface} {σ ρ : Type} (body : σ → Program J ε (Iteration σ ρ)) :
    ℕ → σ → Program J ε (Option ρ)
  | 0, _ => .pure none
  | n + 1, s => (body s).bind fun outcome =>
    match outcome with
    | .next t => repeating body n t
    | .leave r => .pure (some r)

end Code

/-! ## A window of a flat memory -/

def Window.Holds (w : Window) (addr : UInt32) : Prop :=
  w.lower ≤ addr.toNat ∧ addr.toNat + 4 ≤ w.upper

instance (w : Window) (addr : UInt32) : Decidable (Window.Holds w addr) :=
  inferInstanceAs (Decidable (w.lower ≤ addr.toNat ∧ addr.toNat + 4 ≤ w.upper))

/-- No access leaves the window, and no other operation comes back. -/
def windowed (I : Interface) (w : Window) : Handler (withAccess I) Memory
  | m, .inl (.load addr) => if Window.Holds w addr then some (load32 m addr, m) else none
  | m, .inl (.store addr v) => if Window.Holds w addr then some ((), store32 m addr v) else none
  | _, .inr _ => none

/-- The code goes through in the window, with this result and this memory behind it. -/
def Does {I : Interface} {ε α : Type} (w : Window) (p : Program (withAccess I) ε α) (m : Memory)
    (result : α) (m' : Memory) : Prop :=
  run (windowed I w) p m = some (.ok result, m')

section Windowed

variable {I : Interface} {ε α β : Type} {w w' : Window} {m m' m'' : Memory} {addr v : UInt32}

theorem Does.pure (a : α) (m : Memory) : Does w (.pure a : Program (withAccess I) ε α) m a m := rfl

theorem Does.bind {p : Program (withAccess I) ε α} {f : α → Program (withAccess I) ε β} {a : α}
    {b : β} (h : Does w p m a m') (h' : Does w (f a) m' b m'') : Does w (p.bind f) m b m'' :=
  (run_bind_ok h).trans h'

theorem Does.load (h : Window.Holds w addr) (m : Memory) :
    Does w (load addr : Program (withAccess I) ε UInt32) m (load32 m addr) m :=
  run_call (if_pos h)

theorem Does.store (h : Window.Holds w addr) (m : Memory) (v : UInt32) :
    Does w (store addr v : Program (withAccess I) ε Unit) m () (store32 m addr v) :=
  run_call (if_pos h)

/-- Checked field accesses that succeed are loads and stores in the window. -/
theorem Does.field {base offset : UInt32} (h : loadField w m base offset = some v) :
    Does w (PagedMemory.load (base + offset) : Program (withAccess I) ε UInt32) m v m := by
  simp only [loadField, addChecked, Option.bind_eq_bind] at h
  split_ifs at h with hsum
  · simp only [Option.bind_some] at h
    split_ifs at h with hin
    obtain rfl := Option.some.inj h
    exact .load hin m
  · cases h

theorem Does.setField {base offset : UInt32} (h : storeField w m base offset v = some m') :
    Does w (PagedMemory.store (base + offset) v : Program (withAccess I) ε Unit) m () m' := by
  simp only [storeField, addChecked, Option.bind_eq_bind] at h
  split_ifs at h with hsum
  · simp only [Option.bind_some] at h
    split_ifs at h with hin
    obtain rfl := Option.some.inj h
    exact .store hin m v
  · cases h

/-- A guarded loop that ends without a fault is the loop of the code, when the bodies agree and
only the last iteration changes the memory. -/
theorem Does.repeating {σ ρ ρ' : Type} {body : σ → Program (withAccess I) ε (Iteration σ ρ)}
    {checked : σ → Option (Iteration σ ρ')} (result : ρ' → ρ) (after : ρ' → Memory)
    (hnext : ∀ s t, checked s = some (.next t) → Does w (body s) m (.next t) m)
    (hleave : ∀ s r, checked s = some (.leave r) →
      Does w (body s) m (.leave (result r)) (after r))
    {n : ℕ} {s : σ} {r : ρ'} (h : Loop.run (guarded checked) n s = some (some r)) :
    Does w (repeating body n s) m (some (result r)) (after r) := by
  induction n generalizing s with
  | zero => simp at h
  | succ n ih =>
    cases hstep : checked s with
    | none =>
      rw [run_leave (r := none) (by simp only [guarded, hstep])] at h
      cases h
    | some outcome =>
      cases outcome with
      | next t =>
        rw [run_next (t := t) (by simp only [guarded, hstep])] at h
        exact (hnext s t hstep).bind (ih h)
      | leave q =>
        rw [run_leave (r := some q) (by simp only [guarded, hstep])] at h
        obtain rfl : q = r := by simpa using h
        exact (hleave s q hstep).bind (.pure _ _)

/-- A larger window does as well. -/
theorem Does.mono {p : Program (withAccess I) ε α} {a : α} (h : Does w p m a m')
    (hlower : w'.lower ≤ w.lower) (hupper : w.upper ≤ w'.upper) : Does w' p m a m' := by
  rw [Does] at h ⊢
  induction p generalizing m with
  | pure a => exact h
  | stop e => exact h
  | call o next ih =>
    rcases o with (addr | ⟨addr, v⟩) | o
    · by_cases hin : Window.Holds w addr
      · have hin' : Window.Holds w' addr := ⟨hlower.trans hin.1, hin.2.trans hupper⟩
        rw [run_call (t := m) (x := load32 m addr) (if_pos hin)] at h
        rw [run_call (t := m) (x := load32 m addr) (if_pos hin')]
        exact ih _ h
      · simp [run, windowed, hin] at h
    · by_cases hin : Window.Holds w addr
      · have hin' : Window.Holds w' addr := ⟨hlower.trans hin.1, hin.2.trans hupper⟩
        rw [run_call (t := store32 m addr v) (x := ()) (if_pos hin)] at h
        rw [run_call (t := store32 m addr v) (x := ()) (if_pos hin')]
        exact ih _ h
      · simp [run, windowed, hin] at h
    · simp [run, windowed] at h

end Windowed

/-! ## The machine -/

/-- Where an address leads, `none` for a fault; the memory may hold the translation. -/
abbrev Mmu := Memory → UInt32 → Option UInt32

/-- The bytes of a word are translated one by one. -/
def loadThrough (mmu : Mmu) (ram : Memory) (addr : UInt32) : Option UInt32 := do
  let p₀ ← mmu ram addr
  let p₁ ← mmu ram (addr + 1)
  let p₂ ← mmu ram (addr + 2)
  let p₃ ← mmu ram (addr + 3)
  some (UInt32.ofNat ((ram p₀).toNat + 2 ^ 8 * (ram p₁).toNat + 2 ^ 16 * (ram p₂).toNat +
    2 ^ 24 * (ram p₃).toNat))

/-- The bytes of a word put into four places. -/
def putWord (ram : Memory) (p₀ p₁ p₂ p₃ v : UInt32) : Memory := fun p =>
  if p = p₀ then byteOf v 0
  else if p = p₁ then byteOf v 1
  else if p = p₂ then byteOf v 2
  else if p = p₃ then byteOf v 3
  else ram p

def storeThrough (mmu : Mmu) (ram : Memory) (addr v : UInt32) : Option Memory := do
  let p₀ ← mmu ram addr
  let p₁ ← mmu ram (addr + 1)
  let p₂ ← mmu ram (addr + 2)
  let p₃ ← mmu ram (addr + 3)
  some (putWord ram p₀ p₁ p₂ p₃ v)

/-- The other operations work on a state of their own. -/
def translated {I : Interface} {κ : Type*} (mmu : Mmu) (others : Handler I κ) :
    Handler (withAccess I) (Memory × κ)
  | (ram, k), .inl (.load addr) => (loadThrough mmu ram addr).map fun v => (v, ram, k)
  | (ram, k), .inl (.store addr v) => (storeThrough mmu ram addr v).map fun ram => ((), ram, k)
  | (ram, k), .inr o => (others k o).map fun reply => (reply.1, ram, reply.2)

/-- Nothing has changed but bytes of the window. -/
def SameElsewhere (w : Window) (place : UInt32 → UInt32) (ram ram' : Memory) : Prop :=
  ∀ p, (∀ a : UInt32, w.lower ≤ a.toNat → a.toNat < w.upper → place a ≠ p) → ram' p = ram p

/-- The bytes of a window of the flat memory stand in the RAM where the translation leads. -/
structure Shows (mmu : Mmu) (w : Window) (place : UInt32 → UInt32) (flat ram : Memory) : Prop where
  fits : w.upper ≤ 2 ^ 32
  translates : ∀ a : UInt32, w.lower ≤ a.toNat → a.toNat < w.upper → mmu ram a = some (place a)
  bytes : ∀ a : UInt32, w.lower ≤ a.toNat → a.toNat < w.upper → ram (place a) = flat a
  injective : ∀ a b : UInt32, w.lower ≤ a.toNat → a.toNat < w.upper → w.lower ≤ b.toNat →
    b.toNat < w.upper → place a = place b → a = b
  settled : ∀ ram', SameElsewhere w place ram ram' → mmu ram' = mmu ram

section Machine

variable {I : Interface} {κ : Type*} {ε α : Type} {mmu : Mmu} {others : Handler I κ} {k : κ}
  {w : Window} {place : UInt32 → UInt32} {flat flat' ram ram' : Memory} {addr v : UInt32}

theorem SameElsewhere.refl : SameElsewhere w place ram ram := fun _ _ => rfl

theorem SameElsewhere.trans {ram'' : Memory} (h : SameElsewhere w place ram ram')
    (h' : SameElsewhere w place ram' ram'') : SameElsewhere w place ram ram'' :=
  fun p hp => (h' p hp).trans (h p hp)

/-- The four bytes of a word in the window are in the window. -/
theorem Shows.word (h : Shows mmu w place flat ram) (hin : Window.Holds w addr) {k : ℕ}
    (hk : k < 4) :
    w.lower ≤ (addr + UInt32.ofNat k).toNat ∧ (addr + UInt32.ofNat k).toNat < w.upper := by
  obtain ⟨hlower, hupper⟩ := hin
  have hfits := h.fits
  rw [addr_add (by omega)]
  omega

theorem Shows.load (h : Shows mmu w place flat ram) (hin : Window.Holds w addr) :
    loadThrough mmu ram addr = some (load32 flat addr) := by
  have h₀ := h.word hin (k := 0) (by decide)
  have h₁ := h.word hin (k := 1) (by decide)
  have h₂ := h.word hin (k := 2) (by decide)
  have h₃ := h.word hin (k := 3) (by decide)
  have hzero : addr + UInt32.ofNat 0 = addr := UInt32.add_zero addr
  rw [hzero] at h₀
  simp only [loadThrough, h.translates addr h₀.1 h₀.2, h.translates (addr + 1) h₁.1 h₁.2,
    h.translates (addr + 2) h₂.1 h₂.2, h.translates (addr + 3) h₃.1 h₃.2, h.bytes addr h₀.1 h₀.2,
    h.bytes (addr + 1) h₁.1 h₁.2, h.bytes (addr + 2) h₂.1 h₂.2, h.bytes (addr + 3) h₃.1 h₃.2,
    Option.bind_eq_bind, Option.bind_some, load32]

theorem Shows.store (h : Shows mmu w place flat ram) (hin : Window.Holds w addr) (v : UInt32) :
    ∃ ram', storeThrough mmu ram addr v = some ram' ∧
      Shows mmu w place (store32 flat addr v) ram' ∧ SameElsewhere w place ram ram' := by
  have h₀ := h.word hin (k := 0) (by decide)
  have h₁ := h.word hin (k := 1) (by decide)
  have h₂ := h.word hin (k := 2) (by decide)
  have h₃ := h.word hin (k := 3) (by decide)
  have hzero : addr + UInt32.ofNat 0 = addr := UInt32.add_zero addr
  rw [hzero] at h₀
  have hsame : SameElsewhere w place ram
      (putWord ram (place addr) (place (addr + 1)) (place (addr + 2)) (place (addr + 3)) v) := by
    intro p hp
    rw [putWord, if_neg (hp addr h₀.1 h₀.2).symm, if_neg (hp (addr + 1) h₁.1 h₁.2).symm,
      if_neg (hp (addr + 2) h₂.1 h₂.2).symm, if_neg (hp (addr + 3) h₃.1 h₃.2).symm]
  refine ⟨_, ?_, ⟨h.fits, ?_, ?_, h.injective, ?_⟩, hsame⟩
  · simp only [storeThrough, h.translates addr h₀.1 h₀.2, h.translates (addr + 1) h₁.1 h₁.2,
      h.translates (addr + 2) h₂.1 h₂.2, h.translates (addr + 3) h₃.1 h₃.2, Option.bind_eq_bind,
      Option.bind_some]
  · rw [h.settled _ hsame]
    exact h.translates
  · intro a hl hu
    have hplace : ∀ b : UInt32, w.lower ≤ b.toNat → b.toNat < w.upper →
        (place a = place b ↔ a = b) :=
      fun b hbl hbu => ⟨h.injective a b hl hu hbl hbu, congrArg place⟩
    simp only [putWord, hplace addr h₀.1 h₀.2, hplace (addr + 1) h₁.1 h₁.2,
      hplace (addr + 2) h₂.1 h₂.2, hplace (addr + 3) h₃.1 h₃.2, h.bytes a hl hu, store32]
  · intro ram' hram'
    rw [h.settled _ (hsame.trans hram'), h.settled _ hsame]

/-- A smaller window, and a flat memory that is the same there. -/
theorem Shows.narrow {w' : Window} (h : Shows mmu w place flat ram) (hlower : w.lower ≤ w'.lower)
    (hupper : w'.upper ≤ w.upper)
    (same : ∀ a : UInt32, w'.lower ≤ a.toNat → a.toNat < w'.upper → flat' a = flat a) :
    Shows mmu w' place flat' ram where
  fits := hupper.trans h.fits
  translates a hl hu := h.translates a (hlower.trans hl) (hu.trans_le hupper)
  bytes a hl hu := (h.bytes a (hlower.trans hl) (hu.trans_le hupper)).trans (same a hl hu).symm
  injective a b hal hau hbl hbu :=
    h.injective a b (hlower.trans hal) (hau.trans_le hupper) (hlower.trans hbl)
      (hbu.trans_le hupper)
  settled ram' hsame := h.settled ram' fun p hp =>
    hsame p fun a hl hu => hp a (hlower.trans hl) (hu.trans_le hupper)

/-- What code does in the window of the flat memory it does on the machine. -/
theorem Does.translated {p : Program (withAccess I) ε α} {result : α}
    (hdoes : Does w p flat result flat') (h : Shows mmu w place flat ram) :
    ∃ ram', run (translated mmu others) p (ram, k) = some (.ok result, ram', k) ∧
      Shows mmu w place flat' ram' ∧ SameElsewhere w place ram ram' := by
  rw [Does] at hdoes
  induction p generalizing flat ram with
  | pure a =>
    obtain ⟨rfl, rfl⟩ : a = result ∧ flat = flat' := by simpa [run] using hdoes
    exact ⟨ram, rfl, h, .refl⟩
  | stop e => simp [run] at hdoes
  | call o next ih =>
    rcases o with (addr | ⟨addr, v⟩) | o
    · by_cases hin : Window.Holds w addr
      · rw [run_call (t := flat) (x := load32 flat addr) (if_pos hin)] at hdoes
        obtain ⟨ram', hmachine, hrest⟩ := ih _ hdoes h
        refine ⟨ram', ?_, hrest⟩
        rw [run_call (t := (ram, k)) (x := load32 flat addr)]
        · exact hmachine
        · rw [PagedMemory.translated, h.load hin]
          rfl
      · simp [run, windowed, hin] at hdoes
    · by_cases hin : Window.Holds w addr
      · rw [run_call (t := store32 flat addr v) (x := ()) (if_pos hin)] at hdoes
        obtain ⟨ram₁, hstore, hshows, hsame⟩ := h.store hin v
        obtain ⟨ram', hmachine, hshows', hsame'⟩ := ih _ hdoes hshows
        refine ⟨ram', ?_, hshows', hsame.trans hsame'⟩
        rw [run_call (t := (ram₁, k)) (x := ())]
        · exact hmachine
        · rw [PagedMemory.translated, hstore]
          rfl
      · simp [run, windowed, hin] at hdoes
    · simp [run, windowed] at hdoes

/-- Where addresses lead to themselves a word is where it is. -/
theorem loadThrough_identity (h : ∀ k < 4, mmu ram (addr + UInt32.ofNat k) =
    some (addr + UInt32.ofNat k)) : loadThrough mmu ram addr = some (load32 ram addr) := by
  have h₀ := h 0 (by decide)
  have h₁ := h 1 (by decide)
  have h₂ := h 2 (by decide)
  have h₃ := h 3 (by decide)
  have hzero : addr + UInt32.ofNat 0 = addr := UInt32.add_zero addr
  rw [hzero] at h₀
  simp only [loadThrough, h₀, show mmu ram (addr + 1) = some (addr + 1) from h₁,
    show mmu ram (addr + 2) = some (addr + 2) from h₂,
    show mmu ram (addr + 3) = some (addr + 3) from h₃, Option.bind_eq_bind, Option.bind_some,
    load32]

theorem storeThrough_identity (h : ∀ k < 4, mmu ram (addr + UInt32.ofNat k) =
    some (addr + UInt32.ofNat k)) (v : UInt32) :
    storeThrough mmu ram addr v = some (store32 ram addr v) := by
  have h₀ := h 0 (by decide)
  have h₁ := h 1 (by decide)
  have h₂ := h 2 (by decide)
  have h₃ := h 3 (by decide)
  have hzero : addr + UInt32.ofNat 0 = addr := UInt32.add_zero addr
  rw [hzero] at h₀
  simp only [storeThrough, h₀, show mmu ram (addr + 1) = some (addr + 1) from h₁,
    show mmu ram (addr + 2) = some (addr + 2) from h₂,
    show mmu ram (addr + 3) = some (addr + 3) from h₃, Option.bind_eq_bind, Option.bind_some]
  rfl

end Machine

end PagedMemory
