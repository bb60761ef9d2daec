import Mathlib.Algebra.GroupWithZero.Nat
import Mathlib.Data.Finset.Card
import Mathlib.Data.Finset.Union
import Mathlib.Data.List.Range

/-! # Sweeping a list of half-open spans
A sweep walks a list of spans with one cursor that never moves back: inside a span it yields
every number from the cursor on, then goes to the next span. On a list in any order, with
overlaps, the sweep is increasing, and it yields every covered number once exactly when no
later span falls below an earlier one. -/
namespace Sweep

structure Span where
  start : ℕ
  count : ℕ
  deriving DecidableEq, Repr

def Span.stop (r : Span) : ℕ := r.start + r.count

instance : Membership ℕ Span := ⟨fun r f => r.start ≤ f ∧ f < r.stop⟩

theorem Span.mem_iff {r : Span} {f : ℕ} : f ∈ r ↔ r.start ≤ f ∧ f < r.stop := Iff.rfl

instance (f : ℕ) (r : Span) : Decidable (f ∈ r) :=
  inferInstanceAs (Decidable (r.start ≤ f ∧ f < r.stop))

def Span.elements (r : Span) : List ℕ := List.range' r.start r.count

@[simp] theorem Span.mem_elements {r : Span} {f : ℕ} : f ∈ r.elements ↔ f ∈ r := by
  simp [Span.elements, Span.mem_iff, Span.stop, List.mem_range'_1]

/-- The distinct numbers that lie in some span of the list. -/
def cover (rs : List Span) : Finset ℕ := (rs.flatMap Span.elements).toFinset

def total (rs : List Span) : ℕ := (rs.map Span.count).sum

theorem mem_cover {rs : List Span} {f : ℕ} : f ∈ cover rs ↔ ∃ r ∈ rs, f ∈ r := by
  simp [cover]

/-- The remaining numbers of one span once the cursor stands at `n`. -/
def Span.from (r : Span) (n : ℕ) : List ℕ := List.range' (max n r.start) (r.stop - max n r.start)

theorem Span.mem_from {r : Span} {n f : ℕ} : f ∈ r.from n ↔ n ≤ f ∧ f ∈ r := by
  simp only [Span.from, List.mem_range'_1, Span.mem_iff]
  omega

theorem Span.from_length (r : Span) (n : ℕ) : (r.from n).length = r.stop - max n r.start := by
  simp [Span.from]

theorem Span.from_eq_nil {r : Span} {n : ℕ} (h : r.stop ≤ n) : r.from n = [] := by
  simp only [Span.from, List.range'_eq_nil_iff]
  omega

/-- The head of what is left is the cursor itself, moved up to the start of the span. -/
theorem Span.from_eq_cons {r : Span} {n : ℕ} (h : n < r.stop) (hs : r.start ≤ n) :
    r.from n = n :: r.from (n + 1) := by
  have hl : r.stop - max n r.start = (r.stop - max (n + 1) r.start) + 1 := by omega
  rw [Span.from, hl, List.range'_succ, Span.from]
  rw [Nat.max_eq_left hs, Nat.max_eq_left (by omega)]

theorem Span.from_max (r : Span) (n : ℕ) : r.from (max n r.start) = r.from n := by
  simp [Span.from]

def sweep : List Span → ℕ → List ℕ
  | [], _ => []
  | r :: rs, n => r.from n ++ sweep rs (max n r.stop)

@[simp] theorem sweep_nil (n : ℕ) : sweep [] n = [] := rfl

theorem sweep_cons (r : Span) (rs : List Span) (n : ℕ) :
    sweep (r :: rs) n = r.from n ++ sweep rs (max n r.stop) := rfl

theorem sweep_skip {r : Span} {n : ℕ} (rs : List Span) (h : r.stop ≤ n) :
    sweep (r :: rs) n = sweep rs n := by
  rw [sweep_cons, Span.from_eq_nil h, List.nil_append, Nat.max_eq_left h]

theorem sweep_raise (r : Span) (rs : List Span) (n : ℕ) :
    sweep (r :: rs) (max n r.start) = sweep (r :: rs) n := by
  have hm : max (max n r.start) r.stop = max n r.stop := by
    have : r.start ≤ r.stop := Nat.le_add_right _ _
    omega
  rw [sweep_cons, sweep_cons, Span.from_max, hm]

theorem sweep_take {r : Span} {n : ℕ} (rs : List Span) (h : n < r.stop) (hs : r.start ≤ n) :
    sweep (r :: rs) n = n :: sweep (r :: rs) (n + 1) := by
  have hm : max (n + 1) r.stop = max n r.stop := by omega
  rw [sweep_cons, sweep_cons, Span.from_eq_cons h hs, hm, List.cons_append]

theorem le_of_mem_sweep {rs : List Span} {n f : ℕ} (h : f ∈ sweep rs n) : n ≤ f := by
  induction rs generalizing n with
  | nil => simp at h
  | cons r rs ih =>
    rcases List.mem_append.mp h with h | h
    · exact (Span.mem_from.mp h).1
    · exact le_trans (Nat.le_max_left _ _) (ih h)

/-- A sweep yields the numbers of a span that no earlier span reaches beyond. -/
theorem mem_sweep {rs : List Span} {n f : ℕ} :
    f ∈ sweep rs n ↔ n ≤ f ∧ ∃ pre r post, rs = pre ++ r :: post ∧ f ∈ r ∧
      ∀ q ∈ pre, q.stop ≤ f := by
  induction rs generalizing n with
  | nil => simp
  | cons x xs ih =>
    rw [sweep_cons, List.mem_append, Span.mem_from, ih]
    constructor
    · rintro (⟨hn, hx⟩ | ⟨hn, pre, r, post, rfl, hr, hp⟩)
      · exact ⟨hn, [], x, xs, rfl, hx, by simp⟩
      · refine ⟨by omega, x :: pre, r, post, rfl, hr, ?_⟩
        intro q hq
        rcases List.mem_cons.mp hq with rfl | hq
        · omega
        · exact hp q hq
    · rintro ⟨hn, pre, r, post, he, hr, hp⟩
      cases pre with
      | nil =>
        obtain ⟨rfl, rfl⟩ := List.cons.inj he
        exact Or.inl ⟨hn, hr⟩
      | cons y pre =>
        obtain ⟨rfl, rfl⟩ := List.cons.inj he
        have hy := hp x List.mem_cons_self
        exact Or.inr ⟨by omega, pre, r, post, rfl, hr,
          fun q hq => hp q (List.mem_cons_of_mem _ hq)⟩

theorem sweep_subset_cover {rs : List Span} {n f : ℕ} (h : f ∈ sweep rs n) : f ∈ cover rs := by
  obtain ⟨_, pre, r, post, rfl, hr, _⟩ := mem_sweep.mp h
  exact mem_cover.mpr ⟨r, by simp, hr⟩

theorem sweep_increasing (rs : List Span) (n : ℕ) : (sweep rs n).Pairwise (· < ·) := by
  induction rs generalizing n with
  | nil => exact List.Pairwise.nil
  | cons r rs ih =>
    rw [sweep_cons, List.pairwise_append]
    refine ⟨List.pairwise_lt_range', ih _, ?_⟩
    intro a ha b hb
    have hr := (Span.mem_from.mp ha).2.2
    have hs := le_of_mem_sweep hb
    omega

theorem sweep_nodup (rs : List Span) (n : ℕ) : (sweep rs n).Nodup :=
  (sweep_increasing rs n).imp Nat.ne_of_lt

theorem sweep_length_le_total (rs : List Span) (n : ℕ) : (sweep rs n).length ≤ total rs := by
  induction rs generalizing n with
  | nil => simp [total]
  | cons r rs ih =>
    have h := ih (max n r.stop)
    simp only [sweep_cons, List.length_append, Span.from_length, total, List.map_cons,
      List.sum_cons, Span.stop] at h ⊢
    omega

/-- In list order, every span ends at or before the start of each later one. -/
def Ascending (rs : List Span) : Prop := rs.Pairwise fun a b => a.stop ≤ b.start

instance (rs : List Span) : Decidable (Ascending rs) :=
  inferInstanceAs (Decidable (rs.Pairwise _))

/-- A sweep of ascending spans from below is all of them in a row. -/
theorem sweep_ascending {rs : List Span} {n : ℕ} (h : Ascending rs)
    (hn : ∀ r ∈ rs, n ≤ r.start) : sweep rs n = rs.flatMap Span.elements := by
  induction rs generalizing n with
  | nil => rfl
  | cons r rs ih =>
    obtain ⟨hr, hrest⟩ := List.pairwise_cons.mp h
    have hhead : n ≤ r.start := hn r List.mem_cons_self
    have hstop : r.start ≤ r.stop := Nat.le_add_right _ _
    have hfrom : r.from n = r.elements := by
      simp only [Span.from, Span.elements, Nat.max_eq_right hhead, Span.stop,
        Nat.add_sub_cancel_left]
    have htail := ih (n := max n r.stop) hrest fun q hq => by have := hr q hq; omega
    simp only [sweep_cons, hfrom, htail, List.flatMap_cons]

/-- With non-empty spans, the sweep counts every span in full exactly when they ascend. -/
theorem sweep_length_eq_total_iff {rs : List Span} (pos : ∀ r ∈ rs, 0 < r.count) (n : ℕ) :
    (sweep rs n).length = total rs ↔ (∀ r ∈ rs, n ≤ r.start) ∧ Ascending rs := by
  induction rs generalizing n with
  | nil => simp [total, Ascending]
  | cons r rs ih =>
    have hr := pos r List.mem_cons_self
    have hle := sweep_length_le_total rs (max n r.stop)
    have hi := ih (fun q hq => pos q (List.mem_cons_of_mem _ hq)) (max n r.stop)
    simp only [Ascending] at hi ⊢
    simp only [sweep_cons, List.length_append, Span.from_length, List.pairwise_cons,
      List.forall_mem_cons]
    have ht : total (r :: rs) = r.count + total rs := by simp [total]
    constructor
    · intro h
      have hn : n ≤ r.start := by simp only [Span.stop] at h hle; omega
      have hs : (sweep rs (max n r.stop)).length = total rs := by
        simp only [Span.stop] at h hle ⊢; omega
      obtain ⟨hq, ha⟩ := hi.mp hs
      refine ⟨⟨hn, fun q hm => ?_⟩, fun q hm => ?_, ha⟩
      · have := hq q hm; omega
      · have := hq q hm; omega
    · rintro ⟨⟨hn, hq⟩, hr', ha⟩
      have hs := hi.mpr ⟨fun q hm => Nat.max_le.mpr ⟨hq q hm, hr' q hm⟩, ha⟩
      simp only [Span.stop] at hs ⊢
      omega

/-- Every number of a later span that lies below an earlier span is in a still earlier one. -/
def NothingBehind (rs : List Span) : Prop :=
  ∀ pre r post, rs = pre ++ r :: post → ∀ q ∈ post, ∀ f ∈ q, f < r.start → ∃ p ∈ pre, f ∈ p

/-- A sweep from below leaves out no covered number exactly when nothing lies behind it. -/
theorem sweep_complete_iff (rs : List Span) :
    (∀ f ∈ cover rs, f ∈ sweep rs 0) ↔ NothingBehind rs := by
  constructor
  · intro h pre r post he q hq f hf hlt
    have hc : f ∈ cover rs := mem_cover.mpr ⟨q, by simp [he, hq], hf⟩
    obtain ⟨_, pre', x, post', he', hx, hp⟩ := mem_sweep.mp (h f hc)
    have hr : ¬ r.stop ≤ f := by have : r.start ≤ r.stop := Nat.le_add_right _ _; omega
    rcases List.append_eq_append_iff.mp (he.symm.trans he') with ⟨as, ha, hb⟩ | ⟨as, ha, hb⟩
    · cases as with
      | nil =>
        obtain ⟨rfl, _⟩ := List.cons.inj hb
        exact absurd hx.1 (by omega)
      | cons y as =>
        obtain ⟨rfl, _⟩ := List.cons.inj hb
        exact absurd (hp r (by simp [ha])) hr
    · cases as with
      | nil =>
        obtain ⟨rfl, _⟩ := List.cons.inj hb
        exact absurd hx.1 (by omega)
      | cons y as =>
        obtain ⟨rfl, _⟩ := List.cons.inj hb
        exact ⟨x, by simp [ha], hx⟩
  · intro h f hf
    obtain ⟨r, hr, hfr⟩ := mem_cover.mp hf
    obtain ⟨x, hx⟩ : ∃ x, rs.find? (fun r => decide (f ∈ r)) = some x := by
      rw [← Option.isSome_iff_exists, List.find?_isSome]
      exact ⟨r, hr, by simpa using hfr⟩
    obtain ⟨hfx, pre, post, he, hp⟩ := List.find?_eq_some_iff_append.mp hx
    refine mem_sweep.mpr ⟨Nat.zero_le _, pre, x, post, he, by simpa using hfx, ?_⟩
    intro q hq
    by_contra hlt
    have hnq : f ∉ q := by simpa using hp q hq
    have hbelow : f < q.start := by
      by_contra hge
      exact hnq ⟨by omega, by omega⟩
    obtain ⟨a, b, rfl⟩ := List.append_of_mem hq
    obtain ⟨p, hpa, hfp⟩ := h a q (b ++ x :: post) (by simp [he]) x (by simp) f
      (by simpa using hfx) hbelow
    exact absurd hfp (by simpa using hp p (by simp [hpa]))

end Sweep
