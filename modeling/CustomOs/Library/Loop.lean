import Mathlib.Data.Nat.Notation

/-! # While loops with an exit value
A loop is one function from the loop state to the outcome of an iteration. `run` executes a
bounded number of iterations, `Visits` collects the states at which an iteration starts, and
`Halts` says that some bound suffices. The rules below are the usual total-correctness rule
(invariant and variant) and its converse for loops that come back to a state. -/
namespace Loop

/-- One iteration either goes round again with a new state or leaves the loop with a result. -/
inductive Iteration (σ ρ : Type*) where
  | next (s : σ)
  | leave (r : ρ)
  deriving DecidableEq, Repr

variable {σ ρ : Type*} {body : σ → Iteration σ ρ}

def run (body : σ → Iteration σ ρ) : ℕ → σ → Option ρ
  | 0, _ => none
  | n + 1, s => match body s with
    | .next t => run body n t
    | .leave r => some r

inductive Visits (body : σ → Iteration σ ρ) (s : σ) : σ → Prop where
  | here : Visits body s s
  | next {t u} : Visits body s t → body t = .next u → Visits body s u

def Halts (body : σ → Iteration σ ρ) (s : σ) : Prop := ∃ n r, run body n s = some r

@[simp] theorem run_zero (s : σ) : run body 0 s = none := rfl

theorem run_next {s t : σ} (h : body s = .next t) (n : ℕ) : run body (n + 1) s = run body n t := by
  simp [run, h]

theorem run_leave {s : σ} {r : ρ} (h : body s = .leave r) (n : ℕ) :
    run body (n + 1) s = some r := by
  simp [run, h]

/-- More fuel does not change a result. -/
theorem run_mono {n m : ℕ} {s : σ} {r : ρ} (h : run body n s = some r) (hnm : n ≤ m) :
    run body m s = some r := by
  induction n generalizing s m with
  | zero => simp at h
  | succ n ih =>
    obtain ⟨m, rfl⟩ : ∃ k, m = k + 1 := ⟨m - 1, by omega⟩
    cases hb : body s with
    | next t => rw [run_next hb] at h ⊢; exact ih h (by omega)
    | leave q => rw [run_leave hb] at h ⊢; exact h

theorem run_unique {n m : ℕ} {s : σ} {r q : ρ} (h : run body n s = some r)
    (k : run body m s = some q) : r = q := by
  have hn := run_mono h (Nat.le_max_left n m)
  have hm := run_mono k (Nat.le_max_right n m)
  exact Option.some.inj (hn.symm.trans hm)

theorem Visits.trans {s t u : σ} (h : Visits body s t) (k : Visits body t u) :
    Visits body s u := by
  induction k with
  | here => exact h
  | next _ hb ih => exact ih.next hb

theorem Visits.head {s t u : σ} (hb : body s = .next t) (h : Visits body t u) :
    Visits body s u := (Visits.here.next hb).trans h

theorem Visits.first {s t : σ} (h : Visits body s t) :
    t = s ∨ ∃ u, body s = .next u ∧ Visits body u t := by
  induction h with
  | here => exact Or.inl rfl
  | @next t u ht hb ih =>
    right
    rcases ih with rfl | ⟨v, hv, hvt⟩
    · exact ⟨u, hb, .here⟩
    · exact ⟨v, hv, hvt.next hb⟩

/-- What holds at entry and is kept by every iteration holds wherever an iteration starts. -/
theorem Visits.invariant {s t : σ} {I : σ → Prop} (h : Visits body s t) (hs : I s)
    (step : ∀ u v, I u → body u = .next v → I v) : I t := by
  induction h with
  | here => exact hs
  | next _ hb ih => exact step _ _ ih hb

/-- The result of a run is the exit value of the last state it visits. -/
theorem exit_of_run {n : ℕ} {s : σ} {r : ρ} (h : run body n s = some r) :
    ∃ t, Visits body s t ∧ body t = .leave r := by
  induction n generalizing s with
  | zero => simp at h
  | succ n ih =>
    cases hb : body s with
    | next t =>
      rw [run_next hb] at h
      obtain ⟨u, hu, hr⟩ := ih h
      exact ⟨u, Visits.head hb hu, hr⟩
    | leave q =>
      rw [run_leave hb] at h
      exact ⟨s, .here, hb.trans (congrArg _ (Option.some.inj h))⟩

/-- A loop that gets to a state runs on from there. -/
theorem Visits.run {s t : σ} {r : ρ} {m : ℕ} (h : Visits body s t)
    (hrun : Loop.run body m t = some r) : ∃ n, Loop.run body n s = some r := by
  induction h generalizing m with
  | here => exact ⟨m, hrun⟩
  | next _ hb ih => exact ih ((run_next hb m).trans hrun)

/-- The total-correctness rule: an invariant, a variant that every iteration decreases, and
a postcondition that the exit establishes. Any fuel above the variant is enough. -/
theorem run_spec {I : σ → Prop} {V : σ → ℕ} {Q : ρ → Prop}
    (hnext : ∀ s t, I s → body s = .next t → I t ∧ V t < V s)
    (hleave : ∀ s r, I s → body s = .leave r → Q r)
    {s : σ} (hs : I s) {n : ℕ} (hn : V s < n) : ∃ r, run body n s = some r ∧ Q r := by
  induction n generalizing s with
  | zero => omega
  | succ n ih =>
    cases hb : body s with
    | next t =>
      obtain ⟨ht, hv⟩ := hnext s t hs hb
      rw [run_next hb]
      exact ih ht (by omega)
    | leave r => exact ⟨r, run_leave hb n, hleave s r hs hb⟩

theorem halts_of_variant {I : σ → Prop} {V : σ → ℕ}
    (hnext : ∀ s t, I s → body s = .next t → I t ∧ V t < V s) {s : σ} (hs : I s) :
    Halts body s := by
  obtain ⟨r, hr, _⟩ := run_spec (Q := fun _ => True) hnext (fun _ _ _ _ => trivial) hs
    (Nat.lt_succ_self (V s))
  exact ⟨V s + 1, r, hr⟩

/-- Checks a test wherever an iteration starts, in a loop that ends within the fuel. -/
def visitsAll (body : σ → Iteration σ ρ) (p : σ → Bool) : ℕ → σ → Bool
  | 0, _ => false
  | n + 1, s => p s && match body s with
    | .next t => visitsAll body p n t
    | .leave _ => true

theorem visitsAll_sound {p : σ → Bool} {n : ℕ} {s t : σ} (h : visitsAll body p n s = true)
    (ht : Visits body s t) : p t = true := by
  induction n generalizing s with
  | zero => cases h
  | succ n ih =>
    rw [visitsAll, Bool.and_eq_true] at h
    rcases ht.first with rfl | ⟨u, hb, hu⟩
    · exact h.1
    · have hrest := h.2
      rw [hb] at hrest
      exact ih hrest hu

/-- A loop caught in a set of states that never leave it does not halt. -/
theorem not_halts_of_trap {T : σ → Prop} (trap : ∀ s, T s → ∃ t, body s = .next t ∧ T t)
    {s : σ} (hs : T s) : ¬ Halts body s := by
  rintro ⟨n, r, h⟩
  induction n generalizing s with
  | zero => simp at h
  | succ n ih =>
    obtain ⟨t, hb, ht⟩ := trap s hs
    rw [run_next hb] at h
    exact ih ht h

/-! ## Output -/

section Output

variable {β : Type*} {out : σ → List β} {last : ρ → List β}

/-- The loop with what every iteration writes, and what the exit writes last. -/
def telling (body : σ → Iteration σ ρ) (out : σ → List β) (last : ρ → List β)
    (s : σ × List β) : Iteration (σ × List β) (ρ × List β) :=
  match body s.1 with
  | .next t => .next (t, s.2 ++ out s.1)
  | .leave r => .leave (r, s.2 ++ out s.1 ++ last r)

/-- Writing does not change what the loop computes. -/
theorem run_telling (n : ℕ) (s : σ) (text : List β) :
    (run (telling body out last) n (s, text)).map Prod.fst = run body n s := by
  induction n generalizing s text with
  | zero => rfl
  | succ n ih =>
    cases hb : body s with
    | next t =>
      rw [run_next hb, run_next (t := (t, text ++ out s)) (by simp only [telling, hb]), ih]
    | leave r =>
      rw [run_leave hb, run_leave (r := (r, text ++ out s ++ last r)) (by simp only [telling, hb])]
      rfl

/-- What the loop has written is given by an invariant over the text so far. -/
theorem telling_exit {n : ℕ} {s : σ} {text : List β} {result : ρ × List β}
    {I : σ → List β → Prop} (h : run (telling body out last) n (s, text) = some result)
    (init : I s text) (step : ∀ s t text, I s text → body s = .next t → I t (text ++ out s)) :
    ∃ t written, I t written ∧ body t = .leave result.1 ∧
      result.2 = written ++ out t ++ last result.1 := by
  obtain ⟨⟨t, written⟩, hvisits, hleave⟩ := exit_of_run h
  have hinv : I t written := by
    refine hvisits.invariant (I := fun s => I s.1 s.2) init ?_
    intro u v hu hb
    cases hbody : body u.1 with
    | next w =>
      simp only [telling, hbody] at hb
      obtain rfl := Iteration.next.inj hb
      exact step u.1 w u.2 hu hbody
    | leave r =>
      simp only [telling, hbody] at hb
      cases hb
  cases hbody : body t with
  | next w =>
    simp only [telling, hbody] at hleave
    cases hleave
  | leave r =>
    simp only [telling, hbody] at hleave
    obtain rfl := Iteration.leave.inj hleave
    exact ⟨t, written, hinv, hbody, rfl⟩

end Output

end Loop
