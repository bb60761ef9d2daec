import Mathlib.Data.List.Basic
import Mathlib.Data.List.Nodup

/-! # Singly linked chains
A store gives every address its successor. `Segment` says which addresses are met on the way
from one address to another, and a chain is a segment that ends at the null address. The
operations of a linked list change the successor of one or two members, and the rules below
say what that does to a chain. -/
namespace LinkedChain

variable {α : Type*}

def Segment (next : α → α) (null : α) : α → List α → α → Prop
  | a, [], b => a = b
  | a, x :: xs, b => a = x ∧ a ≠ null ∧ Segment next null (next a) xs b

abbrev Chain (next : α → α) (null head : α) (xs : List α) : Prop :=
  Segment next null head xs null

variable {next next' : α → α} {null a b c x y : α} {xs ys : List α}

@[simp] theorem segment_nil : Segment next null a [] b ↔ a = b := Iff.rfl

@[simp] theorem segment_cons : Segment next null a (x :: xs) b ↔
    a = x ∧ a ≠ null ∧ Segment next null (next a) xs b := Iff.rfl

theorem segment_append : Segment next null a (xs ++ ys) c ↔
    ∃ b, Segment next null a xs b ∧ Segment next null b ys c := by
  induction xs generalizing a with
  | nil => simp
  | cons x xs ih =>
    simp only [List.cons_append, segment_cons, ih]
    constructor
    · rintro ⟨rfl, hne, b, hxs, hys⟩
      exact ⟨b, ⟨rfl, hne, hxs⟩, hys⟩
    · rintro ⟨b, ⟨rfl, hne, hxs⟩, hys⟩
      exact ⟨rfl, hne, b, hxs, hys⟩

theorem Segment.ne_null (h : Segment next null a xs b) (hx : x ∈ xs) : x ≠ null := by
  induction xs generalizing a with
  | nil => simp at hx
  | cons y ys ih =>
    obtain ⟨rfl, hne, hys⟩ := h
    rcases List.mem_cons.mp hx with rfl | hx
    · exact hne
    · exact ih hys hx

/-- A segment depends on the successors of its members only. -/
theorem Segment.congr (h : Segment next null a xs b) (same : ∀ x ∈ xs, next' x = next x) :
    Segment next' null a xs b := by
  induction xs generalizing a with
  | nil => exact h
  | cons x xs ih =>
    obtain ⟨rfl, hne, hxs⟩ := h
    refine ⟨rfl, hne, ?_⟩
    rw [same a List.mem_cons_self]
    exact ih hxs fun y hy => same y (List.mem_cons_of_mem _ hy)

theorem Segment.head_eq (h : Segment next null a (x :: xs) b) : a = x := h.1

theorem chain_null_iff (h : Chain next null a xs) : a = null ↔ xs = [] := by
  cases xs with
  | nil => simpa using h
  | cons x xs => simpa using h.2.1

theorem Chain.unique (h : Chain next null a xs) (k : Chain next null a ys) : xs = ys := by
  induction xs generalizing a ys with
  | nil => exact ((chain_null_iff k).mp h).symm
  | cons x xs ih =>
    obtain ⟨rfl, hne, hxs⟩ := h
    cases ys with
    | nil => exact absurd k hne
    | cons y ys =>
      obtain ⟨rfl, _, hys⟩ := k
      rw [ih hxs hys]

/-- What reaches the null address never comes back to a member. -/
theorem Chain.nodup (h : Chain next null a xs) : xs.Nodup := by
  induction xs generalizing a with
  | nil => exact List.nodup_nil
  | cons x xs ih =>
    have hchain := h
    obtain ⟨rfl, hne, hxs⟩ := h
    refine List.nodup_cons.mpr ⟨fun hmem => ?_, ih hxs⟩
    obtain ⟨pre, post, rfl⟩ := List.append_of_mem hmem
    obtain ⟨b, _, hpost⟩ := segment_append.mp hxs
    have hb := hpost.head_eq
    subst hb
    have hlength := congrArg List.length (Chain.unique hchain hpost)
    simp only [List.length_cons, List.length_append] at hlength
    omega

/-- The last member, or `d` in front of an empty chain. -/
def lastOr (d : α) (xs : List α) : α := xs.getLast?.getD d

@[simp] theorem lastOr_nil (d : α) : lastOr d [] = d := rfl

@[simp] theorem lastOr_concat (d x : α) (xs : List α) : lastOr d (xs ++ [x]) = x := by
  simp [lastOr]

@[simp] theorem lastOr_cons (d x : α) (xs : List α) : lastOr d (x :: xs) = lastOr x xs := by
  cases xs with
  | nil => rfl
  | cons y ys => simp [lastOr, List.getLast?_cons]

theorem lastOr_append_cons (d x : α) (xs ys : List α) :
    lastOr d (xs ++ x :: ys) = lastOr x ys := by
  induction xs generalizing d with
  | nil => simp
  | cons y xs ih => rw [List.cons_append, lastOr_cons, ih]

theorem lastOr_mem (x : α) (xs : List α) : lastOr x xs ∈ x :: xs := by
  induction xs generalizing x with
  | nil => simp
  | cons y ys ih =>
    rw [lastOr_cons]
    exact List.mem_cons_of_mem _ (ih y)

theorem lastOr_mem_of_ne {d : α} (h : lastOr d xs ≠ d) : lastOr d xs ∈ xs := by
  cases xs with
  | nil => exact absurd rfl h
  | cons x xs =>
    rw [lastOr_cons]
    exact lastOr_mem x xs

/-- A member is the last one exactly when its successor is null. -/
theorem Chain.next_null_iff (h : Chain next null a xs) (hx : x ∈ xs) :
    next x = null ↔ lastOr null xs = x := by
  obtain ⟨pre, post, rfl⟩ := List.append_of_mem hx
  have hnodup := h.nodup
  obtain ⟨b, _, hpost⟩ := segment_append.mp h
  obtain ⟨rfl, hne, hrest⟩ := hpost
  rw [chain_null_iff hrest, lastOr_append_cons]
  cases post with
  | nil => simp
  | cons y post =>
    have hmem := lastOr_mem y post
    rw [← lastOr_cons b y post] at hmem
    simp only [List.cons_ne_nil, false_iff]
    intro heq
    rw [heq] at hmem
    rw [List.nodup_append] at hnodup
    exact (List.nodup_cons.mp hnodup.2.1).1 hmem

/-- All members but the last. -/
theorem mem_dropLast_iff (d : α) (h : xs.Nodup) (hx : x ∈ xs) :
    x ∈ xs.dropLast ↔ lastOr d xs ≠ x := by
  rcases List.eq_nil_or_concat xs with rfl | ⟨ys, z, rfl⟩
  · cases hx
  · rw [List.concat_eq_append] at *
    rw [List.dropLast_concat, lastOr_concat]
    constructor
    · rintro hys rfl
      exact (List.nodup_append.mp h).2.2 z hys z (by simp) rfl
    · intro hne
      rcases List.mem_append.mp hx with hx | hx
      · exact hx
      · exact absurd (List.mem_singleton.mp hx).symm hne

/-- Linking a node behind the last member appends it. -/
theorem Chain.append (h : Chain next null a (xs ++ [x])) (hy : y ≠ null)
    (hlink : next' x = y) (hend : next' y = null) (same : ∀ z ∈ xs, next' z = next z) :
    Chain next' null a (xs ++ [x] ++ [y]) := by
  obtain ⟨b, hxs, hx⟩ := segment_append.mp h
  obtain ⟨rfl, hne, _⟩ := hx
  rw [List.append_assoc]
  refine segment_append.mpr ⟨b, hxs.congr same, rfl, hne, hlink, ?_⟩
  rw [hlink]
  exact ⟨hy, hend⟩

/-- Linking the predecessor to the successor takes a member out. -/
theorem Chain.unlink {p : α} (h : Chain next null a (xs ++ [p] ++ x :: ys))
    (hlink : next' p = next x) (same : ∀ z ∈ xs ++ ys, next' z = next z) :
    Chain next' null a (xs ++ [p] ++ ys) := by
  obtain ⟨b, hp, hx⟩ := segment_append.mp h
  obtain ⟨c, hxs, hpb⟩ := segment_append.mp hp
  obtain ⟨rfl, hne, _⟩ := hpb
  obtain ⟨rfl, _, hys⟩ := hx
  rw [List.append_assoc]
  refine segment_append.mpr ⟨c, hxs.congr fun z hz => same z (by simp [hz]), rfl, hne, ?_⟩
  rw [hlink]
  exact hys.congr fun z hz => same z (by simp [hz])

/-- Taking the first member out. -/
theorem Chain.behead (h : Chain next null a (x :: ys)) (same : ∀ z ∈ ys, next' z = next z) :
    Chain next' null (next x) ys := by
  obtain ⟨rfl, _, hys⟩ := h
  exact hys.congr same

/-- The last member once `x` is taken out. -/
theorem lastOr_unlink [DecidableEq α] (d : α) (h : (xs ++ x :: ys).Nodup) :
    (if lastOr x ys = x then lastOr d xs else lastOr x ys) = lastOr d (xs ++ ys) := by
  cases ys with
  | nil => simp
  | cons y ys =>
    have hne : lastOr x (y :: ys) ≠ x := by
      intro heq
      have hmem := lastOr_mem y ys
      rw [← lastOr_cons x y ys, heq] at hmem
      exact (List.nodup_cons.mp (List.nodup_append.mp h).2.1).1 hmem
    rw [if_neg hne, lastOr_append_cons, lastOr_cons]

/-- Following successors, whether the way ends or not. -/
inductive Reaches (next : α → α) (null head : α) : α → Prop where
  | head (h : head ≠ null) : Reaches next null head head
  | next {a : α} (h : Reaches next null head a) (hne : next a ≠ null) :
      Reaches next null head (next a)

theorem Reaches.behind (h : Reaches next null (next a) x) (ha : a ≠ null) :
    Reaches next null a x := by
  induction h with
  | head hnext => exact .next (.head ha) hnext
  | next _ hnext ih => exact ih.next hnext

theorem Chain.reaches_iff (h : Chain next null a xs) : Reaches next null a x ↔ x ∈ xs := by
  constructor
  · intro hx
    induction hx with
    | head hne =>
      cases xs with
      | nil => exact absurd h hne
      | cons y ys =>
        rw [h.head_eq]
        exact List.mem_cons_self
    | @next y _ hne ih =>
      obtain ⟨pre, post, rfl⟩ := List.append_of_mem ih
      obtain ⟨b, _, hy⟩ := segment_append.mp h
      obtain ⟨rfl, _, hpost⟩ := hy
      cases post with
      | nil => exact absurd hpost hne
      | cons z post =>
        rw [hpost.head_eq]
        simp
  · induction xs generalizing a x with
    | nil => simp
    | cons y ys ih =>
      intro hx
      obtain ⟨rfl, hne, hys⟩ := h
      rcases List.mem_cons.mp hx with rfl | hx
      · exact .head hne
      · exact (ih hys hx).behind hne

end LinkedChain
