import Mathlib.Data.List.TakeWhile
import Mathlib.Data.Nat.Notation

/-! # Programs over an interface
A program calls the operations of an interface and goes on by their answers, until it returns or
stops with an error. A handler serves the operations on a state of its own; an implementation
serves them by programs over another interface, again on a state of its own. The rule of
simulation relates one program over a handler to the same program over an implementation, and a
program that asks yes-or-no questions only can be explored along every path. -/
namespace Interaction

structure Interface where
  Operation : Type
  Answer : Operation → Type

inductive Program (I : Interface) (ε α : Type) where
  | pure (a : α)
  | stop (e : ε)
  | call (o : I.Operation) (next : I.Answer o → Program I ε α)

variable {I J : Interface} {ε ε' α β : Type} {σ τ κ : Type*}

def Program.bind : Program I ε α → (α → Program I ε β) → Program I ε β
  | .pure a, f => f a
  | .stop e, _ => .stop e
  | .call o next, f => .call o fun x => (next x).bind f

instance : Monad (Program I ε) where
  pure := .pure
  bind := .bind

/-- The program that makes one call. -/
def Program.ask (o : I.Operation) : Program I ε (I.Answer o) := .call o .pure

/-- Serves an operation, or does not come back from it. -/
abbrev Handler (I : Interface) (σ : Type*) := σ → (o : I.Operation) → Option (I.Answer o × σ)

def run (handle : Handler I σ) : Program I ε α → σ → Option (Except ε α × σ)
  | .pure a, s => some (.ok a, s)
  | .stop e, s => some (.error e, s)
  | .call o next, s =>
    match handle s o with
    | none => none
    | some (x, t) => run handle (next x) t

/-- Serves an operation of `I` by a program over `J`. -/
abbrev Implementation (I J : Interface) (σ ε : Type) :=
  σ → (o : I.Operation) → Program J ε (I.Answer o × σ)

/-- The program over `J` that a program over `I` comes to; `lift` names its errors there. -/
def implement {σ : Type} (serve : Implementation I J σ ε') (lift : ε → ε') :
    Program I ε α → σ → Program J ε' (α × σ)
  | .pure a, s => .pure (a, s)
  | .stop e, _ => .stop (lift e)
  | .call o next, s => (serve s o).bind fun reply => implement serve lift (next reply.1) reply.2

section Runs

variable {handle : Handler I σ}

theorem run_call {o : I.Operation} {next : I.Answer o → Program I ε α} {s t : σ} {x : I.Answer o}
    (h : handle s o = some (x, t)) : run handle (.call o next) s = run handle (next x) t := by
  simp only [run, h]

theorem run_bind (p : Program I ε α) (f : α → Program I ε β) (s : σ) :
    run handle (p.bind f) s =
      match run handle p s with
      | none => none
      | some (.ok a, t) => run handle (f a) t
      | some (.error e, t) => some (.error e, t) := by
  induction p generalizing s with
  | pure a => rfl
  | stop e => rfl
  | call o next ih =>
    simp only [Program.bind, run]
    cases handle s o with
    | none => rfl
    | some reply => exact ih reply.1 reply.2

theorem run_bind_ok {p : Program I ε α} {f : α → Program I ε β} {s t : σ} {a : α}
    (h : run handle p s = some (.ok a, t)) : run handle (p.bind f) s = run handle (f a) t := by
  rw [run_bind, h]

theorem run_bind_error {p : Program I ε α} {f : α → Program I ε β} {s t : σ} {e : ε}
    (h : run handle p s = some (.error e, t)) :
    run handle (p.bind f) s = some (.error e, t) := by
  rw [run_bind, h]

end Runs

/-! ## Simulation -/

section Simulation

variable {τ : Type} {handle : Handler I σ} {serve : Implementation I J τ ε'}
  {below : Handler J κ} {lift : ε → ε'} {R : σ → τ → κ → Prop}

/-- What a run of the implementation says about the run it stands for. Errors of the
implementation itself say nothing. -/
def Matches (handle : Handler I σ) (lift : ε → ε') (R : σ → τ → κ → Prop) (p : Program I ε α)
    (s : σ) : Option (Except ε' (α × τ) × κ) → Prop
  | none => True
  | some (.ok (x, b), k) => ∃ t, run handle p s = some (.ok x, t) ∧ R t b k
  | some (.error e', _) => ∀ e, e' = lift e → ∃ t, run handle p s = some (.error e, t)

/-- The rule: one call at a time, from related states the handler answers what the
implementation answers and the states stay related. -/
theorem run_simulation (names : Function.Injective lift)
    (step : ∀ s a k o x b k', R s a k → run below (serve a o) k = some (.ok (x, b), k') →
      ∃ t, handle s o = some (x, t) ∧ R t b k')
    (breach : ∀ s a k o e k', R s a k → run below (serve a o) k ≠ some (.error (lift e), k'))
    (p : Program I ε α) {s : σ} {a : τ} {k : κ} (h : R s a k) :
    Matches handle lift R p s (run below (implement serve lift p a) k) := by
  induction p generalizing s a k with
  | pure x => exact ⟨s, rfl, h⟩
  | stop e =>
    intro e' he
    obtain rfl := names he
    exact ⟨s, rfl⟩
  | call o next ih =>
    rw [implement, run_bind]
    cases hserve : run below (serve a o) k with
    | none => trivial
    | some result =>
      obtain ⟨reply, k'⟩ := result
      cases reply with
      | error e' =>
        intro e he
        exact absurd (he ▸ hserve) (breach s a k o e k' h)
      | ok reply =>
        obtain ⟨x, b⟩ := reply
        obtain ⟨t, hhandle, hrelated⟩ := step s a k o x b k' h hserve
        have hrest := ih x hrelated
        simp only [Matches, run_call hhandle] at hrest ⊢
        exact hrest

end Simulation

/-! ## Exploring the answers -/

/-- One yes-or-no question, asked again and again. -/
abbrev question : Interface := ⟨Unit, fun _ => Bool⟩

/-- Answers from a list, and no once it has run out. -/
def answered : Handler question (List Bool)
  | [], _ => some (false, [])
  | b :: bs, _ => some (b, bs)

theorem answered_total (p : Program question ε α) (supply : List Bool) :
    ∃ result rest, run answered p supply = some (result, rest) := by
  induction p generalizing supply with
  | pure a => exact ⟨.ok a, supply, rfl⟩
  | stop e => exact ⟨.error e, supply, rfl⟩
  | call o next ih =>
    cases supply with
    | nil => exact ih false []
    | cons b bs => exact ih b bs

/-- Whether a check accepts the end of every path below `path`. -/
def explore (check : List Bool → Except ε α → Bool) : Program question ε α → List Bool → Bool
  | .pure a, path => check path (.ok a)
  | .stop e, path => check path (.error e)
  | .call _ next, path =>
    explore check (next true) (path ++ [true]) && explore check (next false) (path ++ [false])

/-- Whatever the answers, a run ends on one of the paths explored: the answers it has read are
the first of the list, padded with as many refusals as it has asked for beyond its end. -/
theorem explore_sound {check : List Bool → Except ε α → Bool} {p : Program question ε α}
    {path : List Bool} (h : explore check p path = true) (supply : List Bool) :
    ∃ result read rest n, run answered p supply = some (result, rest) ∧
      check (path ++ read) result = true ∧ read ++ rest = supply ++ List.replicate n false ∧
      (rest = [] ∨ n = 0) := by
  induction p generalizing path supply with
  | pure a => exact ⟨.ok a, [], supply, 0, rfl, by simpa [explore] using h, by simp, Or.inr rfl⟩
  | stop e => exact ⟨.error e, [], supply, 0, rfl, by simpa [explore] using h, by simp, Or.inr rfl⟩
  | call o next ih =>
    simp only [explore, Bool.and_eq_true] at h
    have hanswer : ∀ b : Bool, explore check (next b) (path ++ [b]) = true := by
      intro b
      cases b
      · exact h.2
      · exact h.1
    cases supply with
    | nil =>
      obtain ⟨result, read, rest, n, hrun, hcheck, hread, hend⟩ := ih false (hanswer false) []
      refine ⟨result, false :: read, rest, n + 1, hrun, by simpa using hcheck, ?_, Or.inl ?_⟩
      · rw [List.cons_append, hread, List.nil_append, List.nil_append, List.replicate_succ]
      · rcases hend with hend | rfl
        · exact hend
        · exact (List.append_eq_nil_iff.mp hread).2
    | cons b bs =>
      obtain ⟨result, read, rest, n, hrun, hcheck, hread, hend⟩ := ih b (hanswer b) bs
      refine ⟨result, b :: read, rest, n, hrun, by simpa using hcheck, ?_, hend⟩
      rw [List.cons_append, hread, List.cons_append]

/-- The answers in front of the first refusal. -/
def granted (supply : List Bool) : ℕ := (supply.takeWhile id).length

theorem granted_padded (supply : List Bool) (n : ℕ) :
    granted (supply ++ List.replicate n false) = granted supply := by
  induction supply with
  | nil => cases n <;> rfl
  | cons b bs ih =>
    cases b
    · rfl
    · simpa [granted] using ih

theorem granted_refused (xs ys : List Bool) :
    granted (xs ++ false :: ys) = granted xs := by
  induction xs with
  | nil => rfl
  | cons b bs ih =>
    cases b
    · rfl
    · simpa [granted] using ih

theorem granted_replicate (n : ℕ) (rest : List Bool) :
    granted (List.replicate n true ++ rest) = n + granted rest := by
  induction n with
  | zero => simp
  | succ n ih =>
    rw [List.replicate_succ, List.cons_append]
    simp only [granted, List.takeWhile_cons, id, if_true, List.length_cons] at ih ⊢
    omega

end Interaction
