import Mathlib.Data.List.Basic

/-! # Labelled executions
An execution is a finite sequence of labelled steps, oldest first. The label of a step records
both the call and what it returned, so a statement about a history is one about a list. -/
namespace Transition

inductive Execution {σ ε : Type*} (Step : σ → ε → σ → Prop) (s₀ : σ) : List ε → σ → Prop where
  | start : Execution Step s₀ [] s₀
  | step {tr s e t} : Execution Step s₀ tr s → Step s e t → Execution Step s₀ (tr ++ [e]) t

variable {σ ε : Type*} {Step : σ → ε → σ → Prop} {s₀ s t : σ} {tr tr' : List ε} {e : ε}

/-- An invariant may speak about the history: it holds initially and every step, from a state
where it holds, extends the history by its own label. -/
theorem Execution.invariant {I : List ε → σ → Prop} (h : Execution Step s₀ tr s)
    (init : I [] s₀) (step : ∀ tr s e t, I tr s → Step s e t → I (tr ++ [e]) t) : I tr s := by
  induction h with
  | start => exact init
  | step _ hs ih => exact step _ _ _ _ ih hs

theorem Execution.append (h : Execution Step s₀ tr s) (k : Execution Step s tr' t) :
    Execution Step s₀ (tr ++ tr') t := by
  induction k with
  | start => simpa using h
  | step _ hs ih =>
    rw [← List.append_assoc]
    exact ih.step hs

theorem Execution.single (h : Step s e t) : Execution Step s [e] t := by
  have hstart : Execution Step s [] s := .start
  exact hstart.step h

/-- Every prefix of a history is the history of a state on the way. -/
theorem Execution.split (h : Execution Step s₀ (tr ++ tr') t) :
    ∃ s, Execution Step s₀ tr s ∧ Execution Step s tr' t := by
  generalize hw : tr ++ tr' = w at h
  induction h generalizing tr' with
  | start =>
    obtain ⟨rfl, rfl⟩ := List.append_eq_nil_iff.mp hw
    exact ⟨s₀, .start, .start⟩
  | @step w u e v hu hs ih =>
    rcases List.eq_nil_or_concat tr' with rfl | ⟨mid, last, rfl⟩
    · rw [List.append_nil] at hw
      subst hw
      exact ⟨v, hu.step hs, .start⟩
    · rw [List.concat_eq_append, ← List.append_assoc] at hw
      obtain ⟨hw, he⟩ := List.append_inj' hw rfl
      obtain ⟨s, hs₁, hs₂⟩ := ih hw
      obtain rfl := (List.cons.inj he).1
      exact ⟨s, hs₁, by rw [List.concat_eq_append]; exact hs₂.step hs⟩

/-- A history whose last label is `e` ends with a step labelled `e`. -/
theorem Execution.last (h : Execution Step s₀ (tr ++ [e]) t) :
    ∃ s, Execution Step s₀ tr s ∧ Step s e t := by
  generalize hw : tr ++ [e] = w at h
  cases h with
  | start => simp at hw
  | step hu hs =>
    obtain ⟨rfl, he⟩ := List.append_inj' hw rfl
    obtain rfl := (List.cons.inj he).1
    exact ⟨_, hu, hs⟩

/-- Weakening the step relation keeps every execution. -/
theorem Execution.mono {Step' : σ → ε → σ → Prop} (h : Execution Step s₀ tr s)
    (sub : ∀ s e t, Step s e t → Step' s e t) : Execution Step' s₀ tr s := by
  induction h with
  | start => exact .start
  | step _ hs ih => exact ih.step (sub _ _ _ hs)

/-! ## Replaying a history on a reference -/

section Replay

variable {α ι : Type*} {respond : α → ι → ε × α} {request : ε → ι}

/-- A reference answers one request after another. -/
def replay (respond : α → ι → ε × α) : α → List ι → List ε × α
  | a, [] => ([], a)
  | a, i :: requests =>
    let first := respond a i
    let rest := replay respond first.2 requests
    (first.1 :: rest.1, rest.2)

theorem replay_append (a : α) (xs ys : List ι) :
    replay respond a (xs ++ ys) =
      ((replay respond a xs).1 ++ (replay respond (replay respond a xs).2 ys).1,
        (replay respond (replay respond a xs).2 ys).2) := by
  induction xs generalizing a with
  | nil => rfl
  | cons i xs ih => simp only [List.cons_append, replay, ih]

/-- Forward simulation: when every step is the answer of the reference to its request, the
whole history is what the reference answers. -/
theorem Execution.refines {R : List ε → σ → α → Prop} {a₀ : α} (h : Execution Step s₀ tr s)
    (init : R [] s₀ a₀) (step : ∀ tr s e t a, R tr s a → Step s e t →
      ∃ b, respond a (request e) = (e, b) ∧ R (tr ++ [e]) t b) :
    ∃ a, replay respond a₀ (tr.map request) = (tr, a) ∧ R tr s a := by
  induction h with
  | start => exact ⟨a₀, rfl, init⟩
  | step _ hs ih =>
    obtain ⟨a, heq, hr⟩ := ih
    obtain ⟨b, hb, hr'⟩ := step _ _ _ _ a hr hs
    exact ⟨b, by simp [replay_append, heq, replay, hb], hr'⟩

end Replay

end Transition
