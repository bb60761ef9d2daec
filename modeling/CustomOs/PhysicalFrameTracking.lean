import CustomOs.FrameEligibility
import CustomOs.PhysicalFrames

/-! # What the frame allocator keeps track of
Two lists say all there is to know about the globals: the frames waiting in the pending-free
queue and the fresh frames the cursor has still to reach. `Tracks` ties them to the concrete
state; an allocation takes the head of one of them and an accepted free appends to the first. -/
namespace PhysicalFrameTracking

open Sweep (Span cover total sweep)
open MemoryMap FrameEligibility PhysicalFrames

section Queue

def pendingFrames (pmm : Pmm) : List ℕ :=
  (List.range pmm.pendingFreeCount.toNat).map fun i => pmm.pendingFreeFrames[i]!.toNat

theorem pendingFrames_length (pmm : Pmm) :
    (pendingFrames pmm).length = pmm.pendingFreeCount.toNat := by
  simp [pendingFrames]

theorem queue_set {queue : Vector UInt64 64} {i : ℕ} (hi : i < 64) (frame : UInt64) (j : ℕ) :
    (queue.set! i frame)[j]! = if i = j then frame else queue[j]! := by
  by_cases hj : j < 64
  · rw [getElem!_pos _ j hj, getElem!_pos _ j hj, Vector.getElem_set!]
  · rw [getElem!_neg _ j hj, getElem!_neg _ j hj, if_neg (by omega)]

theorem shiftDown_get {queue : Vector UInt64 64} {n : ℕ} (hn : n ≤ 64) (j : ℕ) :
    (shiftDown queue n)[j]! = if j + 1 < n then queue[j + 1]! else queue[j]! := by
  have hfold : ∀ k, k ≤ 63 → ∀ j, ((List.range k).foldl
      (fun queue i => queue.set! i queue[i + 1]!) queue)[j]! =
      if j < k then queue[j + 1]! else queue[j]! := by
    intro k
    induction k with
    | zero => simp
    | succ k ih =>
      intro hk j
      have hlast : ¬ k + 1 < k := by omega
      rw [List.range_succ, List.foldl_append, List.foldl_cons, List.foldl_nil,
        queue_set (by omega), ih (by omega), ih (by omega), if_neg hlast]
      by_cases hj : k = j
      · rw [if_pos hj, if_pos (by omega), hj]
      · rw [if_neg hj]
        by_cases hlt : j < k
        · rw [if_pos hlt, if_pos (by omega)]
        · have hlt' : ¬ j < k + 1 := by omega
          rw [if_neg hlt, if_neg hlt']
  rw [shiftDown, hfold (n - 1) (by omega) j]
  by_cases hj : j + 1 < n
  · rw [if_pos hj, if_pos (by omega)]
  · rw [if_neg hj, if_neg (by omega)]

/-- Popping returns the head of the queue and leaves its tail, in order. -/
theorem popPendingFree {pmm : Pmm} {f : ℕ} {queue : List ℕ}
    (hcount : pmm.pendingFreeCount.toNat ≤ 64) (hq : pendingFrames pmm = f :: queue) :
    ∃ frame rest, stage6dPmmPopPendingFreeFifo pmm = some (frame, rest) ∧ frame.toNat = f ∧
      pendingFrames rest = queue ∧ rest.stage6a = pmm.stage6a ∧
      rest.pendingFreeCount.toNat ≤ 64 := by
  obtain ⟨n, hn⟩ : ∃ n, pmm.pendingFreeCount.toNat = n + 1 := by
    have := congrArg List.length hq
    rw [pendingFrames_length, List.length_cons] at this
    exact ⟨_, this⟩
  have hne : pmm.pendingFreeCount ≠ 0 := MachineWord.ne_zero64_iff.mpr (by omega)
  have hone : (1 : UInt64) ≤ pmm.pendingFreeCount := by
    rw [UInt64.le_iff_toNat_le, UInt64.toNat_one]
    omega
  have hpred : (pmm.pendingFreeCount - 1).toNat = n := by
    rw [UInt64.toNat_sub_of_le _ _ hone, hn, UInt64.toNat_one]
    omega
  rw [pendingFrames, hn, List.range_succ_eq_map, List.map_cons, List.map_map] at hq
  obtain ⟨hf, hrest⟩ := List.cons.inj hq
  refine ⟨_, _, if_neg hne, hf, ?_, rfl, ?_⟩
  · rw [pendingFrames, hpred, ← hrest]
    apply List.map_congr_left
    intro i hi
    have hi' := List.mem_range.mp hi
    simp only [Function.comp_apply, hn, Nat.succ_eq_add_one]
    rw [shiftDown_get (by omega), if_pos (by omega)]
  · simp only [hpred]
    omega

theorem popPendingFree_empty {pmm : Pmm} (hq : pendingFrames pmm = []) :
    stage6dPmmPopPendingFreeFifo pmm = none := by
  have hlen := congrArg List.length hq
  rw [pendingFrames_length, List.length_nil] at hlen
  have hz : pmm.pendingFreeCount = 0 := UInt64.toNat_inj.mp hlen
  simp [stage6dPmmPopPendingFreeFifo, hz]

/-- Storing at the count and raising it appends to the queue. -/
theorem pendingFrames_push {pmm : Pmm} (hcount : pmm.pendingFreeCount.toNat < 64)
    (frame : UInt64) (stage6a : Stage6aPmmState) :
    pendingFrames ⟨stage6a, pmm.pendingFreeFrames.set! pmm.pendingFreeCount.toNat frame,
      pmm.pendingFreeCount + 1⟩ = pendingFrames pmm ++ [frame.toNat] := by
  have hsucc : (pmm.pendingFreeCount + 1).toNat = pmm.pendingFreeCount.toNat + 1 :=
    MachineWord.toNat_add64 (by rw [UInt64.toNat_one]; omega)
  simp only [pendingFrames, hsucc]
  rw [List.range_succ, List.map_append]
  congr 1
  · apply List.map_congr_left
    intro i hi
    have hi' := List.mem_range.mp hi
    rw [queue_set hcount, if_neg (by omega)]
  · rw [List.map_singleton, queue_set hcount, if_pos rfl]

theorem isPending_iff (pmm : Pmm) (frame : UInt64) :
    isPending pmm frame = true ↔ frame.toNat ∈ pendingFrames pmm := by
  simp only [isPending, pendingFrames, List.any_eq_true, List.mem_map, beq_iff_eq,
    UInt64.toNat_inj]

end Queue

section Table

variable {frames : Stage5cFrameBookkeeping}

theorem rangeEndFrame_toNat {range : Stage5cFrameRange} (h : GoodSpan range.span) :
    (rangeEndFrame range).toNat = range.span.stop := by
  have htop := h.top
  simp only [Span.stop, Stage5cFrameRange.span] at htop ⊢
  have hov : (checkedAddU64 range.startFrame range.frameCount).1 = false := by
    rw [← Bool.not_eq_true, checkedAddU64_fst]
    omega
  simp only [rangeEndFrame, hov, Bool.false_eq_true, if_false]
  exact (checkedAddU64_snd hov).1

/-- The containment test of the lookup is membership in the range. -/
theorem contains_iff {range : Stage5cFrameRange} (h : GoodSpan range.span) (frame : UInt64) :
    (range.frameCount ≠ 0 ∧ range.startFrame ≤ frame ∧ frame < rangeEndFrame range) ↔
      frame.toNat ∈ range.span := by
  have hpos := h.pos
  rw [MachineWord.ne_zero64_iff, UInt64.le_iff_toNat_le, UInt64.lt_iff_toNat_lt,
    rangeEndFrame_toNat h, Span.mem_iff]
  exact ⟨fun ⟨_, h₁, h₂⟩ => ⟨h₁, h₂⟩, fun ⟨h₁, h₂⟩ => ⟨hpos, h₁, h₂⟩⟩

theorem isEligible_iff (h : SoundTable frames) (frame : UInt64) :
    stage6cIsEligibleFrame frames frame = true ↔ frame.toNat ∈ cover frames.spans := by
  rw [stage6cIsEligibleFrame, stage6dPmmFindFrameRange, List.findIdx?_isSome, List.any_eq_true,
    mem_cover_spans]
  constructor
  · rintro ⟨range, hr, hc⟩
    exact ⟨range, hr, (contains_iff (h.good_range hr) frame).mp (of_decide_eq_true hc)⟩
  · rintro ⟨range, hr, hf⟩
    exact ⟨range, hr, decide_eq_true ((contains_iff (h.good_range hr) frame).mpr hf)⟩

/-- The cursor went past a range that holds `f`, or past `f` in the range it stands in. -/
def Issued (frames : Stage5cFrameBookkeeping) (state : Stage6aPmmState) (f : ℕ) : Prop :=
  (∃ r ∈ frames.spans.take state.rangeIndex, f ∈ r) ∨
    ∃ r, frames.spans[state.rangeIndex]? = some r ∧ f ∈ r ∧ f < state.nextFrameIndex.toNat

/-- The verdict of the source goes by the first range alone, which is enough. -/
theorem wasFrameIssued_iff (h : SoundTable frames) {state : Stage6aPmmState}
    (hinit : state.isInitialized = true) (frame : UInt64) :
    stage6dPmmWasFrameIssued frames state frame = true ↔ Issued frames state frame.toNat := by
  have hlen : frames.spans.length = frames.ranges.length := by
    simp [Stage5cFrameBookkeeping.spans]
  simp only [stage6dPmmWasFrameIssued, hinit, Bool.not_true, Bool.false_eq_true, if_false]
  cases hfind : stage6dPmmFindFrameRange frames frame with
  | none =>
    have hno : ¬ stage6cIsEligibleFrame frames frame = true := by
      simp [stage6cIsEligibleFrame, hfind]
    rw [isEligible_iff h] at hno
    simp only [Bool.false_eq_true, false_iff]
    rintro (⟨r, hr, hf⟩ | ⟨r, hr, hf, _⟩)
    · exact hno (Sweep.mem_cover.mpr ⟨r, List.mem_of_mem_take hr, hf⟩)
    · exact hno (Sweep.mem_cover.mpr ⟨r, List.mem_of_getElem? hr, hf⟩)
  | some i =>
    obtain ⟨hi, hin, hno⟩ := List.findIdx?_eq_some_iff_getElem.mp hfind
    have hget : ∀ (j : ℕ) (r : Span), frames.spans[j]? = some r →
        ∃ range : Stage5cFrameRange, frames.ranges[j]? = some range ∧ range.span = r := by
      intro j r hr
      rw [Stage5cFrameBookkeeping.spans, List.getElem?_map] at hr
      exact Option.map_eq_some_iff.mp hr
    obtain ⟨first, hfirst, hmem⟩ : ∃ r, frames.spans[i]? = some r ∧ frame.toNat ∈ r := by
      refine ⟨frames.ranges[i].span, ?_, ?_⟩
      · rw [Stage5cFrameBookkeeping.spans, List.getElem?_map, List.getElem?_eq_getElem hi]
        rfl
      · exact (contains_iff (h.good_range (List.getElem_mem hi)) frame).mp
          (of_decide_eq_true hin)
    have hbefore : ∀ (j : ℕ) (r : Span), j < i → frames.spans[j]? = some r → frame.toNat ∉ r := by
      intro j r hj hr hf
      obtain ⟨range, hrange, rfl⟩ := hget j r hr
      obtain ⟨hlt, rfl⟩ := List.getElem?_eq_some_iff.mp hrange
      exact hno j hj (decide_eq_true
        ((contains_iff (h.good_range (List.getElem_mem hlt)) frame).mpr hf))
    have htake : (∃ r ∈ frames.spans.take state.rangeIndex, frame.toNat ∈ r) ↔
        i < state.rangeIndex := by
      constructor
      · rintro ⟨r, hr, hf⟩
        obtain ⟨j, hj, rfl⟩ := List.mem_take_iff_getElem.mp hr
        by_contra hlt
        exact hbefore j _ (by omega) (List.getElem?_eq_getElem (by omega)) hf
      · intro hlt
        obtain ⟨hbound, hfirst⟩ := List.getElem?_eq_some_iff.mp hfirst
        exact ⟨first, List.mem_take_iff_getElem.mpr ⟨i, by omega, hfirst⟩, hmem⟩
    by_cases hend : frames.ranges.length ≤ state.rangeIndex
    · simp only [hend, if_true, true_iff]
      exact Or.inl (htake.mpr (by omega))
    simp only [hend, if_false]
    by_cases hlt : i < state.rangeIndex
    · simp only [hlt, if_true, true_iff]
      exact Or.inl (htake.mpr hlt)
    simp only [hlt, if_false]
    by_cases hgt : state.rangeIndex < i
    · simp only [hgt, if_true, Bool.false_eq_true, false_iff]
      rintro (hin | ⟨r, hr, hf, _⟩)
      · exact hlt (htake.mp hin)
      · exact hbefore _ r hgt hr hf
    · obtain rfl : i = state.rangeIndex := by omega
      simp only [lt_irrefl, if_false, decide_eq_true_eq, UInt64.lt_iff_toNat_lt]
      constructor
      · intro hf
        exact Or.inr ⟨first, hfirst, hmem, hf⟩
      · rintro (hin | ⟨_, _, _, hf⟩)
        · exact absurd (htake.mp hin) (lt_irrefl _)
        · exact hf

end Table

section Cursor

variable {frames : Stage5cFrameBookkeeping} {state : Stage6aPmmState} {fresh : List ℕ}

/-- The cursor loop skips ranges it has run past and yields the same frames afterwards. -/
theorem advanceOver_spec (ranges : List Stage5cFrameRange) (i : ℕ) (next : UInt64)
    (good : ∀ range ∈ ranges, GoodSpan range.span) (hn : next.toNat < 2 ^ 52) :
    ∃ skipped rest i' next', stage6aAdvanceOver ranges i next = (i', next') ∧
      ranges = skipped ++ rest ∧ i' = i + skipped.length ∧
      next.toNat ≤ next'.toNat ∧ next'.toNat < 2 ^ 52 ∧
      (∀ range ∈ skipped, range.span.stop ≤ next'.toNat) ∧
      (∀ range ∈ rest.head?, next'.toNat ∈ range.span) ∧
      sweep (rest.map Stage5cFrameRange.span) next'.toNat =
        sweep (ranges.map Stage5cFrameRange.span) next.toNat := by
  induction ranges generalizing i next with
  | nil => exact ⟨[], [], i, next, rfl, rfl, rfl, le_rfl, hn, by simp, by simp, rfl⟩
  | cons range ranges ih =>
    have hg := good range List.mem_cons_self
    have htop := hg.top
    have hpos := hg.pos
    have hne : ¬ range.frameCount = 0 := MachineWord.ne_zero64_iff.mpr hpos
    obtain ⟨raised, hraised, hr⟩ : ∃ raised : UInt64,
        raised = (if next < range.startFrame then range.startFrame else next) ∧
        raised.toNat = max next.toNat range.span.start := by
      refine ⟨_, rfl, ?_⟩
      simp only [Stage5cFrameRange.span]
      split
      · rename_i hlt
        have := UInt64.lt_iff_toNat_lt.mp hlt
        omega
      · rename_i hlt
        have := UInt64.le_iff_toNat_le.mp (UInt64.not_lt.mp hlt)
        omega
    have hstep : stage6aAdvanceOver (range :: ranges) i next =
        if raised < rangeEndFrame range then (i, raised)
        else stage6aAdvanceOver ranges (i + 1) raised := by
      simp only [stage6aAdvanceOver, hne, if_false, ← hraised]
    have hraise := Sweep.sweep_raise range.span (ranges.map Stage5cFrameRange.span) next.toNat
    rw [← hr] at hraise
    have hstart : range.span.start < range.span.stop := by simp only [Span.stop]; omega
    rw [hstep]
    by_cases hin : raised < rangeEndFrame range
    · have hlt := UInt64.lt_iff_toNat_lt.mp hin
      rw [rangeEndFrame_toNat hg] at hlt
      rw [if_pos hin]
      refine ⟨[], range :: ranges, i, raised, rfl, rfl, rfl, by omega, by omega, by simp,
        ?_, ?_⟩
      · intro q hq
        obtain rfl := Option.some.inj hq
        exact Span.mem_iff.mpr ⟨by omega, hlt⟩
      · rw [List.map_cons]
        exact hraise
    · have hge : range.span.stop ≤ raised.toNat := by
        rw [← rangeEndFrame_toNat hg]
        exact UInt64.le_iff_toNat_le.mp (UInt64.not_lt.mp hin)
      rw [if_neg hin]
      obtain ⟨skipped, rest, i', next', heq, hsplit, hi, hle, hlt, hskip, hhead, hsweep⟩ :=
        ih (i + 1) raised (fun q hq => good q (List.mem_cons_of_mem _ hq)) (by omega)
      refine ⟨range :: skipped, rest, i', next', heq, by rw [hsplit, List.cons_append],
        by rw [hi, List.length_cons]; omega, by omega, hlt, ?_, hhead, ?_⟩
      · intro q hq
        rcases List.mem_cons.mp hq with rfl | hq
        · omega
        · exact hskip q hq
      · rw [hsweep, List.map_cons, ← hraise, Sweep.sweep_skip _ hge]

/-- Where the cursor stands, and the frames it has still to reach. -/
structure CursorAt (frames : Stage5cFrameBookkeeping) (state : Stage6aPmmState)
    (fresh : List ℕ) : Prop where
  initialized : state.isInitialized = true
  index_le : state.rangeIndex ≤ frames.ranges.length
  passed : ∀ r ∈ frames.spans.take state.rangeIndex, r.stop ≤ state.nextFrameIndex.toNat
  next_lt : state.nextFrameIndex.toNat < 2 ^ 52
  fresh_eq : sweep (frames.spans.drop state.rangeIndex) state.nextFrameIndex.toNat = fresh

theorem CursorAt.nodup (h : CursorAt frames state fresh) : fresh.Nodup := by
  rw [← h.fresh_eq]
  exact Sweep.sweep_nodup _ _

theorem CursorAt.mem_cover (h : CursorAt frames state fresh) {f : ℕ} (hf : f ∈ fresh) :
    f ∈ cover frames.spans := by
  rw [← h.fresh_eq] at hf
  obtain ⟨r, hr, hmem⟩ := Sweep.mem_cover.mp (Sweep.sweep_subset_cover hf)
  exact Sweep.mem_cover.mpr ⟨r, List.mem_of_mem_drop hr, hmem⟩

/-- A frame the cursor has gone past is not waiting in front of it. -/
theorem CursorAt.not_mem_of_issued (h : CursorAt frames state fresh) {f : ℕ}
    (hf : Issued frames state f) : f ∉ fresh := by
  intro hmem
  rw [← h.fresh_eq] at hmem
  have hle := Sweep.le_of_mem_sweep hmem
  rcases hf with ⟨r, hr, hin⟩ | ⟨_, _, _, hlt⟩
  · have := h.passed r hr
    have := (Span.mem_iff.mp hin).2
    omega
  · omega

/-- Moving the cursor up keeps what it has passed and what is left. -/
theorem CursorAt.advance (h : CursorAt frames state fresh) (ht : SoundTable frames) :
    ∃ i next, stage6aPmmAdvanceToNextEligible frames state =
        { state with rangeIndex := i, nextFrameIndex := next } ∧
      CursorAt frames { state with rangeIndex := i, nextFrameIndex := next } fresh ∧
      (∀ r ∈ frames.spans[i]?, next.toNat ∈ r) ∧
      ∀ f, Issued frames state f →
        Issued frames { state with rangeIndex := i, nextFrameIndex := next } f := by
  have hgood : ∀ range ∈ frames.ranges.drop state.rangeIndex, GoodSpan range.span :=
    fun range hr => ht.good_range (List.mem_of_mem_drop hr)
  obtain ⟨skipped, rest, i, next, heq, hsplit, hi, hle, hlt, hskip, hhead, hsweep⟩ :=
    advanceOver_spec _ state.rangeIndex state.nextFrameIndex hgood h.next_lt
  have hlen := congrArg List.length hsplit
  simp only [List.length_drop, List.length_append] at hlen
  have hle' := h.index_le
  have hrest : frames.ranges.drop i = rest := by
    rw [hi, ← List.drop_drop, hsplit, List.drop_left]
  have htake : frames.ranges.take i = frames.ranges.take state.rangeIndex ++ skipped := by
    rw [hi, List.take_add, hsplit, List.take_left]
  have htake' : frames.spans.take i =
      frames.spans.take state.rangeIndex ++ skipped.map Stage5cFrameRange.span := by
    simp only [Stage5cFrameBookkeeping.spans, ← List.map_take, htake, List.map_append]
  refine ⟨i, next, by simp [stage6aPmmAdvanceToNextEligible, heq], ?_, ?_, ?_⟩
  · refine ⟨h.initialized, by simp only; omega, ?_, hlt, ?_⟩
    · intro r hr
      rw [htake'] at hr
      rcases List.mem_append.mp hr with hr | hr
      · exact le_trans (h.passed r hr) hle
      · obtain ⟨range, hmem, rfl⟩ := List.mem_map.mp hr
        exact hskip range hmem
    · rw [← h.fresh_eq]
      simp only [Stage5cFrameBookkeeping.spans, ← List.map_drop, hrest]
      exact hsweep
  · intro r hr
    rw [Stage5cFrameBookkeeping.spans, List.getElem?_map] at hr
    obtain ⟨range, hrange, rfl⟩ := Option.map_eq_some_iff.mp hr
    apply hhead
    rw [← hrest, List.head?_drop]
    exact hrange
  · rintro f (⟨r, hr, hf⟩ | ⟨r, hr, hf, hfn⟩)
    · exact Or.inl ⟨r, by rw [htake']; exact List.mem_append_left _ hr, hf⟩
    · by_cases hmoved : i = state.rangeIndex
      · exact Or.inr ⟨r, by rw [← hr, hmoved], hf, by simp only; omega⟩
      · left
        refine ⟨r, List.mem_take_iff_getElem.mpr ?_, hf⟩
        obtain ⟨hbound, hget⟩ := List.getElem?_eq_some_iff.mp hr
        exact ⟨state.rangeIndex, by simp only; omega, hget⟩

/-- Taking the frame under the cursor. -/
theorem CursorAt.take (h : CursorAt frames state fresh) {r : Span}
    (hr : frames.spans[state.rangeIndex]? = some r) (hmem : state.nextFrameIndex.toNat ∈ r)
    (hg : GoodSpan r) (remaining allocations : UInt64) :
    ∃ rest, fresh = state.nextFrameIndex.toNat :: rest ∧
      CursorAt frames ⟨state.isInitialized, state.rangeIndex, state.nextFrameIndex + 1,
        remaining, allocations⟩ rest ∧
      Issued frames ⟨state.isInitialized, state.rangeIndex, state.nextFrameIndex + 1,
        remaining, allocations⟩ state.nextFrameIndex.toNat ∧
      ∀ f, Issued frames state f → Issued frames ⟨state.isInitialized, state.rangeIndex,
        state.nextFrameIndex + 1, remaining, allocations⟩ f := by
  obtain ⟨hbound, hget⟩ := List.getElem?_eq_some_iff.mp hr
  obtain ⟨hlow, hhigh⟩ := Span.mem_iff.mp hmem
  have htop := hg.top
  have hsucc : (state.nextFrameIndex + 1).toNat = state.nextFrameIndex.toNat + 1 :=
    MachineWord.toNat_add64 (by rw [UInt64.toNat_one]; omega)
  have hdrop : frames.spans.drop state.rangeIndex =
      r :: frames.spans.drop (state.rangeIndex + 1) := by
    rw [List.drop_eq_getElem_cons hbound, hget]
  have hfresh := h.fresh_eq
  rw [hdrop, Sweep.sweep_take _ hhigh hlow] at hfresh
  refine ⟨_, hfresh.symm, ⟨h.initialized, h.index_le, ?_, ?_, ?_⟩, ?_, ?_⟩
  · intro q hq
    have := h.passed q hq
    simp only [hsucc]
    omega
  · simp only [hsucc]
    omega
  · rw [hdrop, hsucc]
  · exact Or.inr ⟨r, hr, hmem, by simp only [hsucc]; omega⟩
  · rintro f (hf | ⟨q, hq, hf, hlt⟩)
    · exact Or.inl hf
    · exact Or.inr ⟨q, hq, hf, by simp only [hsucc]; omega⟩

end Cursor

section Calls

variable {frames : Stage5cFrameBookkeeping} {pmm : Pmm} {queue fresh : List ℕ} {f : ℕ}

/-- How far the stored total exceeds what a sweep of the table can reach. -/
def surplus (frames : Stage5cFrameBookkeeping) : ℕ :=
  total frames.spans - (sweep frames.spans 0).length

/-- The globals hold exactly these waiting and fresh frames. -/
structure Tracks (frames : Stage5cFrameBookkeeping) (pmm : Pmm) (queue fresh : List ℕ) :
    Prop where
  cursor : CursorAt frames pmm.stage6a fresh
  count_le : pmm.pendingFreeCount.toNat ≤ 64
  queue_eq : pendingFrames pmm = queue
  queue_nodup : queue.Nodup
  queue_mem : ∀ f ∈ queue, f ∈ cover frames.spans
  queue_issued : ∀ f ∈ queue, Issued frames pmm.stage6a f
  remaining :
    pmm.stage6a.remainingFrameCount.toNat = queue.length + fresh.length + surplus frames

theorem Tracks.disjoint (h : Tracks frames pmm queue fresh) : ∀ f ∈ queue, f ∉ fresh :=
  fun f hf => h.cursor.not_mem_of_issued (h.queue_issued f hf)

theorem Tracks.nodup (h : Tracks frames pmm queue fresh) : (queue ++ fresh).Nodup := by
  rw [List.nodup_append]
  refine ⟨h.queue_nodup, h.cursor.nodup, ?_⟩
  rintro a ha b hb rfl
  exact h.disjoint a ha hb

theorem Tracks.mem_cover (h : Tracks frames pmm queue fresh) {f : ℕ}
    (hf : f ∈ queue ++ fresh) : f ∈ cover frames.spans := by
  rcases List.mem_append.mp hf with hf | hf
  · exact h.queue_mem f hf
  · exact h.cursor.mem_cover hf

theorem Tracks.queue_length (h : Tracks frames pmm queue fresh) :
    queue.length = pmm.pendingFreeCount.toNat := by
  rw [← h.queue_eq, pendingFrames_length]

theorem total_drop_le (rs : List Span) (i : ℕ) : total (rs.drop i) ≤ total rs := by
  have h := FrameEligibility.total_append (rs.take i) (rs.drop i)
  rw [List.take_append_drop] at h
  omega

theorem Tracks.remaining_lt (h : Tracks frames pmm queue fresh) (ht : SoundTable frames) :
    pmm.stage6a.remainingFrameCount.toNat < 2 ^ 61 := by
  have hfresh : fresh.length ≤ total frames.spans := by
    rw [← h.cursor.fresh_eq]
    exact le_trans (Sweep.sweep_length_le_total _ _) (total_drop_le _ _)
  have hq := h.queue_length
  have hc := h.count_le
  have ht := ht.total_le
  have hr := h.remaining
  rw [surplus] at hr
  omega

theorem frameLimit_not_lt {frame : UInt64} (h : frame.toNat < 2 ^ 52) :
    ¬ uint64Max >>> stage5cFrameShift < frame := by
  have hlimit : (uint64Max >>> stage5cFrameShift).toNat = 2 ^ 52 - 1 := by decide
  rw [UInt64.lt_iff_toNat_lt, hlimit]
  omega

theorem pred_toNat {x : UInt64} {n : ℕ} (h : x.toNat = n + 1) : (x - 1).toNat = n := by
  have hone : (1 : UInt64) ≤ x := by
    rw [UInt64.le_iff_toNat_le, UInt64.toNat_one]
    omega
  rw [UInt64.toNat_sub_of_le _ _ hone, h, UInt64.toNat_one]
  omega

/-- Seeding starts with an empty queue and the sweep of the whole table. -/
theorem seeded_tracks (ht : SoundTable frames) :
    Tracks frames (seeded frames) [] (sweep frames.spans 0) := by
  have hsum : frames.eligibleFrames.toNat = (sweep frames.spans 0).length + surplus frames := by
    have := Sweep.sweep_length_le_total frames.spans 0
    rw [ht.eligible, surplus]
    omega
  have hboot : bootPmm.pendingFreeCount.toNat ≤ 64 := by decide
  cases hranges : frames.ranges with
  | nil =>
    have hspans : frames.spans = [] := by simp [Stage5cFrameBookkeeping.spans, hranges]
    have hseed : seeded frames =
        { bootPmm with stage6a := ⟨true, 0, 0, frames.eligibleFrames, 0⟩ } := by
      simp [seeded, stage6aPmmSeedFromStage5c, hranges, stage6aPmmResetState]
    rw [hseed]
    refine ⟨⟨rfl, Nat.zero_le _, by simp, by simp, rfl⟩, hboot, rfl, List.nodup_nil,
      by simp, by simp, ?_⟩
    simpa using hsum
  | cons first rest =>
    have hfirst : first ∈ frames.ranges := by rw [hranges]; exact List.mem_cons_self
    have hg := ht.good_range hfirst
    have htop := hg.top
    have hpos := hg.pos
    have hspans : frames.spans = first.span :: rest.map Stage5cFrameRange.span := by
      simp [Stage5cFrameBookkeeping.spans, hranges]
    have hne : ¬ frames.eligibleFrames = 0 := by
      apply MachineWord.ne_zero64_iff.mpr
      rw [ht.eligible, hspans]
      simp only [total, List.map_cons, List.sum_cons]
      omega
    have hraise := Sweep.sweep_raise first.span (rest.map Stage5cFrameRange.span) 0
    rw [← hspans, Nat.zero_max] at hraise
    have hstart : CursorAt frames ⟨true, 0, first.startFrame, frames.eligibleFrames, 0⟩
        (sweep frames.spans 0) := by
      refine ⟨rfl, Nat.zero_le _, by simp, ?_, hraise⟩
      simp only [Span.stop, Stage5cFrameRange.span] at htop hpos ⊢
      omega
    obtain ⟨i, next, heq, hcursor, _, _⟩ := hstart.advance ht
    have hseed : seeded frames =
        { bootPmm with stage6a := ⟨true, i, next, frames.eligibleFrames, 0⟩ } := by
      simp only [stage6aPmmAdvanceToNextEligible, Stage6aPmmState.mk.injEq] at heq
      simp only [seeded, stage6aPmmSeedFromStage5c, hranges, hne, if_false,
        stage6aPmmResetState, stage6aPmmAdvanceToNextEligible]
      rw [← hranges, heq.2.1, heq.2.2.1]
    rw [hseed]
    refine ⟨hcursor, hboot, rfl, List.nodup_nil, by simp, by simp, ?_⟩
    simpa using hsum

/-- The fresh path hands out the head of what the cursor has still to reach. -/
theorem Tracks.takeFresh (h : Tracks frames pmm queue (f :: fresh)) (ht : SoundTable frames)
    (out : UInt64) :
    ∃ physAddr pmm', stage6aPmmTryAllocateFrame frames pmm (some out) =
        ⟨true, some physAddr, pmm'⟩ ∧ physAddr.toNat = 4096 * f ∧
      Tracks frames pmm' queue fresh ∧ Issued frames pmm'.stage6a f ∧
      ∀ g, Issued frames pmm.stage6a g → Issued frames pmm'.stage6a g := by
  obtain ⟨i, next, heq, hcursor, hin, hmono⟩ := h.cursor.advance ht
  have hremaining := h.remaining
  rw [List.length_cons] at hremaining
  have hlen : frames.spans.length = frames.ranges.length := by
    simp [Stage5cFrameBookkeeping.spans]
  have hi : i < frames.spans.length := by
    by_contra hge
    have hnil := hcursor.fresh_eq
    simp only [List.drop_eq_nil_of_le (Nat.le_of_not_lt hge), Sweep.sweep_nil] at hnil
    exact absurd hnil (List.cons_ne_nil _ _).symm
  have hget : frames.spans[i]? = some frames.spans[i] := List.getElem?_eq_getElem hi
  have hmem : next.toNat ∈ frames.spans[i] := hin _ hget
  have hlt : next.toNat < 2 ^ 52 := hcursor.next_lt
  obtain ⟨rest, hrest, hnext, hissued, hmono'⟩ := hcursor.take hget hmem
    (ht.good _ (List.getElem_mem hi)) (pmm.stage6a.remainingFrameCount - 1)
    (addClampU64 pmm.stage6a.allocationCount 1)
  obtain ⟨rfl, rfl⟩ := List.cons.inj hrest
  have hne : ¬ pmm.stage6a.remainingFrameCount = 0 :=
    MachineWord.ne_zero64_iff.mpr (by omega)
  have hi' : ¬ frames.ranges.length ≤ i := by omega
  refine ⟨next <<< stage5cFrameShift, { pmm with stage6a := _ }, ?_, frameShift_left hlt,
    ⟨hnext, h.count_le, h.queue_eq, h.queue_nodup, h.queue_mem,
      fun g hg => hmono' g (hmono g (h.queue_issued g hg)), ?_⟩, hissued,
    fun g hg => hmono' g (hmono g hg)⟩
  · simp only [stage6aPmmTryAllocateFrame, h.cursor.initialized, if_true, stage6aPmmTakeFresh,
      hne, if_false, heq, hi', frameLimit_not_lt hlt]
  · simp only
    rw [pred_toNat (n := queue.length + fresh.length + surplus frames) (by omega)]

/-- With nothing left in front, the fresh path fails; a positive count sends the cursor to
the end of the table. -/
theorem Tracks.takeFresh_none (h : Tracks frames pmm queue []) (ht : SoundTable frames)
    (out : UInt64) :
    ∃ state, stage6aPmmTryAllocateFrame frames pmm (some out) =
        ⟨false, some out, { pmm with stage6a := state }⟩ ∧
      Tracks frames { pmm with stage6a := state } queue [] ∧
      state.remainingFrameCount = pmm.stage6a.remainingFrameCount ∧
      state.allocationCount = pmm.stage6a.allocationCount ∧
      (pmm.stage6a.remainingFrameCount ≠ 0 → state.rangeIndex = frames.ranges.length) ∧
      ∀ g, Issued frames pmm.stage6a g → Issued frames state g := by
  by_cases hz : pmm.stage6a.remainingFrameCount = 0
  · refine ⟨pmm.stage6a, ?_, h, rfl, rfl, fun hne => absurd hz hne, fun _ hg => hg⟩
    simp only [stage6aPmmTryAllocateFrame, h.cursor.initialized, if_true, stage6aPmmTakeFresh,
      hz]
  · obtain ⟨i, next, heq, hcursor, hin, hmono⟩ := h.cursor.advance ht
    have hlen : frames.spans.length = frames.ranges.length := by
      simp [Stage5cFrameBookkeeping.spans]
    have hi : frames.ranges.length ≤ i := by
      by_contra hlt
      have hi : i < frames.spans.length := by omega
      have hget : frames.spans[i]? = some frames.spans[i] := List.getElem?_eq_getElem hi
      obtain ⟨rest, hrest, _⟩ := hcursor.take hget (hin _ hget)
        (ht.good _ (List.getElem_mem hi)) 0 0
      exact absurd hrest (List.cons_ne_nil _ _).symm
    have hile := hcursor.index_le
    simp only at hile
    refine ⟨{ pmm.stage6a with rangeIndex := i, nextFrameIndex := next }, ?_,
      ⟨hcursor, h.count_le, h.queue_eq, h.queue_nodup, h.queue_mem,
        fun g hg => hmono g (h.queue_issued g hg), h.remaining⟩, rfl, rfl,
      fun _ => by simp only; omega, hmono⟩
    simp only [stage6aPmmTryAllocateFrame, h.cursor.initialized, if_true, stage6aPmmTakeFresh,
      hz, if_false, heq, hi]

/-- A waiting frame is reused before any fresh one. -/
theorem Tracks.allocReused (h : Tracks frames pmm (f :: queue) fresh) (ht : SoundTable frames)
    (out : UInt64) :
    ∃ physAddr pmm', stage6bPmmAllocFrame frames pmm (some out) =
        ⟨true, some physAddr, pmm'⟩ ∧ physAddr.toNat = 4096 * f ∧
      Tracks frames pmm' queue fresh ∧ Issued frames pmm'.stage6a f ∧
      ∀ g, Issued frames pmm.stage6a g → Issued frames pmm'.stage6a g := by
  obtain ⟨frame, rest, hpop, rfl, hqueue, hstage, hcount⟩ := popPendingFree h.count_le h.queue_eq
  have hremaining := h.remaining
  rw [List.length_cons] at hremaining
  have hne : ¬ pmm.stage6a.remainingFrameCount = 0 :=
    MachineWord.ne_zero64_iff.mpr (by omega)
  have hlt := (ht.mem_lt (h.queue_mem _ List.mem_cons_self)).2
  obtain ⟨hnot, hnodup⟩ := List.nodup_cons.mp h.queue_nodup
  have hcursor := h.cursor
  have hissued := h.queue_issued
  rw [← hstage] at hcursor hremaining hissued
  refine ⟨frame <<< stage5cFrameShift, { rest with stage6a :=
      { rest.stage6a with
        remainingFrameCount := rest.stage6a.remainingFrameCount - 1
        allocationCount := addClampU64 rest.stage6a.allocationCount 1 } },
    ?_, frameShift_left hlt,
    ⟨⟨hcursor.initialized, hcursor.index_le, hcursor.passed, hcursor.next_lt, hcursor.fresh_eq⟩,
      hcount, hqueue, hnodup, fun g hg => h.queue_mem g (List.mem_cons_of_mem _ hg),
      fun g hg => hissued g (List.mem_cons_of_mem _ hg), ?_⟩,
    hissued _ List.mem_cons_self, fun g hg => by rw [← hstage] at hg; exact hg⟩
  · simp only [stage6bPmmAllocFrame, stage6dPmmTryAllocateReusedFrame, hne, if_false, hpop,
      frameLimit_not_lt hlt, if_true]
  · simp only
    rw [pred_toNat (n := queue.length + fresh.length + surplus frames) (by omega)]

/-- With an empty queue an allocation is the fresh path. -/
theorem Tracks.allocFresh (h : Tracks frames pmm [] fresh) (out : UInt64) :
    stage6bPmmAllocFrame frames pmm (some out) =
      stage6aPmmTryAllocateFrame frames pmm (some out) := by
  have hpop := popPendingFree_empty h.queue_eq
  simp only [stage6bPmmAllocFrame, stage6dPmmTryAllocateReusedFrame, hpop]
  split_ifs <;> simp_all

/-- An allocation takes the head of the waiting frames followed by the fresh ones, and fails
only when there is none. -/
theorem Tracks.alloc (h : Tracks frames pmm queue fresh) (ht : SoundTable frames)
    (out : UInt64) :
    (∃ f physAddr pmm' queue' fresh', stage6bPmmAllocFrame frames pmm (some out) =
        ⟨true, some physAddr, pmm'⟩ ∧ physAddr.toNat = 4096 * f ∧
      queue ++ fresh = f :: (queue' ++ fresh') ∧ Tracks frames pmm' queue' fresh' ∧
      Issued frames pmm'.stage6a f ∧
      ∀ g, Issued frames pmm.stage6a g → Issued frames pmm'.stage6a g) ∨
    (queue = [] ∧ fresh = [] ∧ ∃ state, stage6bPmmAllocFrame frames pmm (some out) =
        ⟨false, some out, { pmm with stage6a := state }⟩ ∧
      Tracks frames { pmm with stage6a := state } [] [] ∧
      (pmm.stage6a.remainingFrameCount ≠ 0 → state.rangeIndex = frames.ranges.length) ∧
      ∀ g, Issued frames pmm.stage6a g → Issued frames state g) := by
  cases queue with
  | cons f queue =>
    obtain ⟨physAddr, pmm', heq, haddr, htracks, hissued, hmono⟩ := h.allocReused ht out
    exact Or.inl ⟨f, physAddr, pmm', queue, fresh, heq, haddr, rfl, htracks, hissued, hmono⟩
  | nil =>
    rw [h.allocFresh]
    cases fresh with
    | cons f fresh =>
      obtain ⟨physAddr, pmm', heq, haddr, htracks, hissued, hmono⟩ := h.takeFresh ht out
      exact Or.inl ⟨f, physAddr, pmm', [], fresh, heq, haddr, rfl, htracks, hissued, hmono⟩
    | nil =>
      obtain ⟨state, heq, htracks, _, _, hend, hmono⟩ := h.takeFresh_none ht out
      exact Or.inr ⟨rfl, rfl, state, heq, htracks, hend, hmono⟩

theorem freeFrame_accepted (frames : Stage5cFrameBookkeeping) (pmm : Pmm) (physAddr : UInt64) :
    (stage6cPmmFreeFrame frames pmm physAddr).1 = true ↔
      physAddr &&& (stage5cFrameSize - 1) = 0 ∧ ¬ physAddr < stage5bPolicyMinAddr ∧
      stage6cIsEligibleFrame frames (physAddr >>> stage5cFrameShift) = true ∧
      stage6dPmmWasFrameIssued frames pmm.stage6a (physAddr >>> stage5cFrameShift) = true ∧
      ¬ isPending pmm (physAddr >>> stage5cFrameShift) = true ∧
      ¬ 64 ≤ pmm.pendingFreeCount.toNat := by
  have hmax : stage6cMaxPendingFree = 64 := rfl
  simp only [stage6cPmmFreeFrame, apply_ite Prod.fst, hmax]
  simp

/-- Exactly when a free is accepted. -/
theorem Tracks.free_accepted (h : Tracks frames pmm queue fresh) (ht : SoundTable frames)
    (physAddr : UInt64) :
    (stage6cPmmFreeFrame frames pmm physAddr).1 = true ↔
      physAddr.toNat % 4096 = 0 ∧ frameOf physAddr ∈ cover frames.spans ∧
      Issued frames pmm.stage6a (frameOf physAddr) ∧ frameOf physAddr ∉ queue ∧
      queue.length < 64 := by
  have hmask : physAddr &&& (stage5cFrameSize - 1) = 0 ↔ physAddr.toNat % 4096 = 0 := by
    rw [← UInt64.toNat_inj, MachineWord.and_mask64 physAddr 12 frameSize_mask_toNat]
    rfl
  have hframe : (physAddr >>> stage5cFrameShift).toNat = frameOf physAddr :=
    frameShift_toNat physAddr
  have hlow : frameOf physAddr ∈ cover frames.spans → ¬ physAddr < stage5bPolicyMinAddr := by
    intro hf hlt
    have hfloor : stage5bPolicyMinAddr.toNat = 0x100000 := rfl
    have := (ht.mem_lt hf).1
    have := UInt64.lt_iff_toNat_lt.mp hlt
    rw [frameOf] at *
    omega
  have helig := isEligible_iff ht (physAddr >>> stage5cFrameShift)
  have hissue := wasFrameIssued_iff ht h.cursor.initialized (physAddr >>> stage5cFrameShift)
  have hpend := isPending_iff pmm (physAddr >>> stage5cFrameShift)
  rw [hframe] at helig hissue hpend
  rw [h.queue_eq] at hpend
  rw [freeFrame_accepted, hmask, helig, hissue, hpend, h.queue_length, Nat.not_le]
  constructor
  · rintro ⟨ha, _, he, hi, hp, hc⟩
    exact ⟨ha, he, hi, hp, hc⟩
  · rintro ⟨ha, he, hi, hp, hc⟩
    exact ⟨ha, hlow he, he, hi, hp, hc⟩

/-- A rejected free changes nothing; an accepted one appends its frame to the queue. -/
theorem Tracks.free (h : Tracks frames pmm queue fresh) (ht : SoundTable frames)
    (physAddr : UInt64) :
    ((stage6cPmmFreeFrame frames pmm physAddr).1 = false →
      (stage6cPmmFreeFrame frames pmm physAddr).2 = pmm) ∧
    ((stage6cPmmFreeFrame frames pmm physAddr).1 = true →
      Tracks frames (stage6cPmmFreeFrame frames pmm physAddr).2 (queue ++ [frameOf physAddr])
        fresh ∧
      ∀ g, Issued frames (stage6cPmmFreeFrame frames pmm physAddr).2.stage6a g ↔
        Issued frames pmm.stage6a g) := by
  constructor
  · simp only [stage6cPmmFreeFrame]
    split_ifs <;> simp
  · intro haccept
    obtain ⟨_, hmem, hissued, hnot, hroom⟩ := (h.free_accepted ht physAddr).mp haccept
    have hcount : pmm.pendingFreeCount.toNat < 64 := by rw [← h.queue_length]; exact hroom
    have hsucc : (pmm.pendingFreeCount + 1).toNat = pmm.pendingFreeCount.toNat + 1 :=
      MachineWord.toNat_add64 (by rw [UInt64.toNat_one]; omega)
    have hframe : (physAddr >>> stage5cFrameShift).toNat = frameOf physAddr :=
      frameShift_toNat physAddr
    have hreturn : (stage6cPmmFreeFrame frames pmm physAddr).2 =
        ⟨{ pmm.stage6a with
            remainingFrameCount := addClampU64 pmm.stage6a.remainingFrameCount 1 },
          pmm.pendingFreeFrames.set! pmm.pendingFreeCount.toNat (physAddr >>> stage5cFrameShift),
          pmm.pendingFreeCount + 1⟩ := by
      simp only [stage6cPmmFreeFrame] at haccept ⊢
      split_ifs at haccept ⊢
      rfl
    have hpush := pendingFrames_push hcount (physAddr >>> stage5cFrameShift)
      { pmm.stage6a with
        remainingFrameCount := addClampU64 pmm.stage6a.remainingFrameCount 1 }
    rw [hframe, h.queue_eq] at hpush
    have hlt := h.remaining_lt ht
    rw [hreturn]
    refine ⟨⟨⟨h.cursor.initialized, h.cursor.index_le, h.cursor.passed, h.cursor.next_lt,
      h.cursor.fresh_eq⟩, by simp only [hsucc]; omega, hpush, ?_, ?_, ?_, ?_⟩, fun _ => Iff.rfl⟩
    · rw [List.nodup_append]
      refine ⟨h.queue_nodup, List.nodup_singleton _, ?_⟩
      rintro a ha b hb rfl
      exact hnot (List.mem_singleton.mp hb ▸ ha)
    · intro g hg
      rcases List.mem_append.mp hg with hg | hg
      · exact h.queue_mem g hg
      · rw [List.mem_singleton.mp hg]
        exact hmem
    · intro g hg
      rcases List.mem_append.mp hg with hg | hg
      · exact h.queue_issued g hg
      · rw [List.mem_singleton.mp hg]
        exact hissued
    · simp only [List.length_append, List.length_singleton]
      rw [addClampU64_toNat (by rw [UInt64.toNat_one]; omega), h.remaining, UInt64.toNat_one]
      omega

end Calls

end PhysicalFrameTracking
