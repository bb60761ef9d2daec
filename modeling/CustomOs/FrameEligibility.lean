import CustomOs.MemoryMap

/-! # Stage 5C eligibility
The range table as a list of spans of frame numbers: `regionSpans` says which spans one stored
region contributes, and the region loop appends exactly these. Everything later stages need to
know about a table built from a memory map follows from `TableBuilt`. -/
namespace FrameEligibility

open Sweep (Span cover total)
open MemoryMap

/-- The whole frames inside `[s, e)`, as at most one span. -/
def eligibleSpan (s e : ℕ) : List Span :=
  if (s + 4095) / 4096 < e / 4096 then
    [⟨(s + 4095) / 4096, e / 4096 - (s + 4095) / 4096⟩]
  else []

theorem mem_cover_eligibleSpan {s e f : ℕ} :
    f ∈ cover (eligibleSpan s e) ↔ s ≤ f * 4096 ∧ (f + 1) * 4096 ≤ e := by
  rw [Sweep.mem_cover, eligibleSpan]
  split
  · simp only [List.mem_singleton, exists_eq_left, Span.mem_iff, Span.stop]
    omega
  · simp only [List.not_mem_nil, false_and, exists_false, false_iff]
    omega

theorem eligibleSpan_eq_nil {s e : ℕ} (h : e ≤ s) : eligibleSpan s e = [] := by
  rw [eligibleSpan, if_neg (by omega)]

theorem eligibleSpan_length (s e : ℕ) : (eligibleSpan s e).length ≤ 1 := by
  rw [eligibleSpan]
  split <;> simp

/-- What the rest of the kernel may rely on in a single range. -/
structure GoodSpan (r : Span) : Prop where
  pos : 0 < r.count
  floor : 256 ≤ r.start
  top : r.stop < 2 ^ 52

theorem eligibleSpan_good {s e : ℕ} (hs : 0x100000 ≤ s) (he : e < 2 ^ 64) :
    ∀ r ∈ eligibleSpan s e, GoodSpan r := by
  intro r hr
  rw [eligibleSpan] at hr
  split at hr
  · obtain rfl := List.mem_singleton.mp hr
    refine ⟨?_, ?_, ?_⟩ <;> simp only [Span.stop] <;> omega
  · simp at hr

/-- The bookkeeping agrees with a list of spans, with nothing dropped or saturated. -/
structure Records (frames : Stage5cFrameBookkeeping) (spans : List Span) : Prop where
  spans_eq : frames.spans = spans
  dropped : frames.droppedRanges = 0
  eligible : frames.eligibleFrames.toNat = total spans
  highest_le : ∀ f ∈ cover spans, f ≤ frames.highestEligibleFrame.toNat
  highest_mem : spans ≠ [] → frames.highestEligibleFrame.toNat ∈ cover spans
  highest_none : spans = [] → frames.highestEligibleFrame = 0
  highest_addr : frames.highestEligibleAddr.toNat = 4096 * frames.highestEligibleFrame.toNat
  good : ∀ r ∈ spans, GoodSpan r

theorem total_append (a b : List Span) : total (a ++ b) = total a + total b := by
  simp [total]

theorem mem_cover_append {a b : List Span} {f : ℕ} :
    f ∈ cover (a ++ b) ↔ f ∈ cover a ∨ f ∈ cover b := by
  simp [Sweep.mem_cover, or_and_right, exists_or]

/-- Good spans number frames below `2 ^ 52`, so a bounded table cannot saturate a total. -/
theorem total_le {spans : List Span} (h : ∀ r ∈ spans, GoodSpan r) :
    total spans ≤ spans.length * 2 ^ 52 := by
  induction spans with
  | nil => simp [total]
  | cons r rs ih =>
    have hr := (h r List.mem_cons_self).top
    have hs := ih fun q hq => h q (List.mem_cons_of_mem _ hq)
    simp only [total, List.map_cons, List.sum_cons, List.length_cons, Span.stop] at hr hs ⊢
    omega

section RecordSpan

variable {frames : Stage5cFrameBookkeeping} {spans : List Span} {s e : UInt64}

/-- The two ways `stage5c_record_eligible_span` can end: nothing to record, or one range. -/
theorem recordEligibleSpan_cases (frames : Stage5cFrameBookkeeping) (s e : UInt64) :
    (eligibleSpan s.toNat e.toNat = [] ∧ stage5cRecordEligibleSpan frames s e = frames) ∨
    ∃ first count last : UInt64,
      eligibleSpan s.toNat e.toNat = [⟨first.toNat, count.toNat⟩] ∧
      last.toNat + 1 = first.toNat + count.toNat ∧ last.toNat < 2 ^ 52 ∧
      stage5cRecordEligibleSpan frames s e =
        (let frames := stage5cRecordRange frames first count
         let frames := { frames with eligibleFrames := addClampU64 frames.eligibleFrames count }
         if frames.highestEligibleFrame < last then
           { frames with highestEligibleFrame := last, highestEligibleAddr := last <<< 12 }
         else frames) := by
  have he := e.toNat_lt
  by_cases hes : e ≤ s
  · have hes' := UInt64.le_iff_toNat_le.mp hes
    exact Or.inl ⟨eligibleSpan_eq_nil hes', by simp [stage5cRecordEligibleSpan, hes]⟩
  cases ho : (stage5cAlignUp4k s).1 with
  | true =>
    have hs := (alignUp4k_overflow s).mp ho
    refine Or.inl ⟨?_, by simp [stage5cRecordEligibleSpan, hes, ho]⟩
    rw [eligibleSpan, if_neg (by omega)]
  | false =>
    obtain ⟨ha, hlt⟩ := alignUp4k_toNat ho
    have hd := alignDown_toNat e
    by_cases hle : e &&& ~~~(stage5cFrameSize - 1) ≤ (stage5cAlignUp4k s).2
    · have hle' := UInt64.le_iff_toNat_le.mp hle
      rw [ha, hd] at hle'
      refine Or.inl ⟨?_, by simp [stage5cRecordEligibleSpan, hes, ho, hle]⟩
      rw [eligibleSpan, if_neg (by omega)]
    · have hle' : ¬ (e &&& ~~~(stage5cFrameSize - 1)).toNat ≤ (stage5cAlignUp4k s).2.toNat :=
        fun h => hle (UInt64.le_iff_toNat_le.mpr h)
      have hge : (stage5cAlignUp4k s).2 ≤ e &&& ~~~(stage5cFrameSize - 1) :=
        UInt64.le_iff_toNat_le.mpr (by omega)
      have hsub := UInt64.toNat_sub_of_le _ _ hge
      rw [ha, hd] at hle' hsub
      have hsz : stage5cFrameSize.toNat = 4096 := rfl
      have hpage : stage5cFrameSize ≤ e &&& ~~~(stage5cFrameSize - 1) := by
        rw [UInt64.le_iff_toNat_le, hsz, hd]
        omega
      have htop := UInt64.toNat_sub_of_le _ _ hpage
      rw [hsz, hd] at htop
      have hfirst := frameShift_toNat (stage5cAlignUp4k s).2
      have hcount := frameShift_toNat ((e &&& ~~~(stage5cFrameSize - 1)) - (stage5cAlignUp4k s).2)
      have hlast := frameShift_toNat ((e &&& ~~~(stage5cFrameSize - 1)) - stage5cFrameSize)
      rw [ha] at hfirst
      rw [hsub] at hcount
      rw [htop] at hlast
      refine Or.inr ⟨(stage5cAlignUp4k s).2 >>> stage5cFrameShift,
        ((e &&& ~~~(stage5cFrameSize - 1)) - (stage5cAlignUp4k s).2) >>> stage5cFrameShift,
        ((e &&& ~~~(stage5cFrameSize - 1)) - stage5cFrameSize) >>> stage5cFrameShift,
        ?_, by omega, by omega, ?_⟩
      · rw [eligibleSpan, if_pos (by omega), hfirst, hcount]
        congr 2 <;> omega
      · have haddr : (e &&& ~~~(stage5cFrameSize - 1)) - stage5cFrameSize =
            (((e &&& ~~~(stage5cFrameSize - 1)) - stage5cFrameSize) >>> stage5cFrameShift) <<<
              12 := by
          apply UInt64.toNat_inj.mp
          refine Eq.trans ?_ (frameShift_left (by omega)).symm
          rw [hlast, htop]
          omega
        simp only [stage5cRecordEligibleSpan, hes, ho, hle, if_false, Bool.false_eq_true]
        rw [← haddr]

/-- Recording a span appends what it contributes and keeps every total exact. -/
theorem Records.recordEligibleSpan (h : Records frames spans) (hroom : spans.length < 128)
    (hs : 0x100000 ≤ s.toNat) :
    Records (stage5cRecordEligibleSpan frames s e) (spans ++ eligibleSpan s.toNat e.toNat) := by
  have hgood := eligibleSpan_good hs e.toNat_lt
  rcases recordEligibleSpan_cases frames s e with
    ⟨hnil, heq⟩ | ⟨first, count, last, hone, hl, hb, heq⟩
  · rw [heq, hnil, List.append_nil]
    exact h
  · rw [hone] at hgood ⊢
    have hsum := total_le h.good
    have hcount : total [⟨first.toNat, count.toNat⟩] = count.toNat := by simp [total]
    have hlen : frames.ranges.length = spans.length := by
      rw [← h.spans_eq, Stage5cFrameBookkeeping.spans, List.length_map]
    have hg := (hgood _ (List.mem_singleton_self _))
    have htop := hg.top
    have hrange : stage5cRecordRange frames first count =
        { frames with ranges := frames.ranges ++ [⟨first, count⟩] } := by
      rw [stage5cRecordRange, if_neg (by simp only [stage5cMaxRanges]; omega)]
    have helig : (addClampU64 frames.eligibleFrames count).toNat =
        total (spans ++ [⟨first.toNat, count.toNat⟩]) := by
      rw [addClampU64_toNat, h.eligible, total_append, hcount]
      rw [h.eligible]
      simp only [Span.stop] at htop
      omega
    have hspans : List.map Stage5cFrameRange.span (frames.ranges ++ [⟨first, count⟩]) =
        spans ++ [⟨first.toNat, count.toNat⟩] := by
      rw [List.map_append, ← h.spans_eq]
      rfl
    have hall : ∀ r ∈ spans ++ [⟨first.toNat, count.toNat⟩], GoodSpan r := by
      intro r hr
      rcases List.mem_append.mp hr with hr | hr
      · exact h.good r hr
      · exact hgood r hr
    have hnew : ∀ f, f ∈ cover [⟨first.toNat, count.toNat⟩] ↔
        first.toNat ≤ f ∧ f < first.toNat + count.toNat := by
      intro f
      simp [Sweep.mem_cover, Span.mem_iff, Span.stop]
    have hpos := hg.pos
    have hlast : last.toNat ∈ cover (spans ++ [⟨first.toNat, count.toNat⟩]) := by
      rw [mem_cover_append, hnew]
      simp only at hpos
      omega
    have haddr : (last <<< 12).toNat = 4096 * last.toNat := frameShift_left hb
    rw [heq, hrange]
    by_cases hhigh : frames.highestEligibleFrame < last
    · have hhigh' := UInt64.lt_iff_toNat_lt.mp hhigh
      simp only [hhigh, if_true]
      refine ⟨hspans, h.dropped, helig, ?_, fun _ => hlast, by simp, haddr, hall⟩
      intro f hf
      rcases mem_cover_append.mp hf with hf | hf
      · have := h.highest_le f hf; simp only; omega
      · have := (hnew f).mp hf; simp only; omega
    · have hhigh' : last.toNat ≤ frames.highestEligibleFrame.toNat :=
        Nat.le_of_not_lt fun hc => hhigh (UInt64.lt_iff_toNat_lt.mpr hc)
      simp only [hhigh, if_false]
      have hne : spans ≠ [] := by
        intro hnil
        have hz := h.highest_none hnil
        have hf := hg.floor
        rw [hz] at hhigh'
        simp only [UInt64.toNat_zero] at hhigh' hf hpos
        omega
      refine ⟨hspans, h.dropped, helig, ?_, fun _ => ?_, by simp, h.highest_addr, hall⟩
      · intro f hf
        rcases mem_cover_append.mp hf with hf | hf
        · exact h.highest_le f hf
        · have := (hnew f).mp hf; simp only; omega
      · exact mem_cover_append.mpr (Or.inl (h.highest_mem hne))

end RecordSpan

/-- The spans one stored region contributes beside the reserved kernel image. -/
def regionSpans (kernelStart kernelEnd : ℕ) (region : Stage5bRegion) : List Span :=
  if region.flags &&& stage5bRegionFlagPolicyUsable = 0 ∨
      region.multibootType ≠ multiboot2MemoryAvailable then []
  else
    let s := max region.baseAddr.toNat 0x100000
    if region.endAddr.toNat ≤ kernelStart ∨ kernelEnd ≤ s then
      eligibleSpan s region.endAddr.toNat
    else eligibleSpan s kernelStart ++ eligibleSpan kernelEnd region.endAddr.toNat

theorem recordEligibleSpan_reserved (frames : Stage5cFrameBookkeeping) (s e : UInt64) :
    (stage5cRecordEligibleSpan frames s e).kernelReservedStart = frames.kernelReservedStart ∧
    (stage5cRecordEligibleSpan frames s e).kernelReservedEnd = frames.kernelReservedEnd := by
  have hrange : ∀ a b, (stage5cRecordRange frames a b).kernelReservedStart =
      frames.kernelReservedStart ∧
      (stage5cRecordRange frames a b).kernelReservedEnd = frames.kernelReservedEnd := by
    intro a b
    rw [stage5cRecordRange]
    split <;> exact ⟨rfl, rfl⟩
  rcases recordEligibleSpan_cases frames s e with ⟨_, heq⟩ | ⟨first, count, last, _, _, _, heq⟩
  · rw [heq]; exact ⟨rfl, rfl⟩
  · rw [heq]
    dsimp only
    split <;> exact hrange first count

/-- With the kernel at the policy floor a region lies beside the image on one side at most. -/
theorem regionSpans_length (kernelEnd : ℕ) (region : Stage5bRegion) :
    (regionSpans 0x100000 kernelEnd region).length ≤ 1 := by
  rw [regionSpans]
  split
  · simp
  · dsimp only
    split
    · exact eligibleSpan_length _ _
    · rw [eligibleSpan_eq_nil (by omega), List.nil_append]
      exact eligibleSpan_length _ _

/-- The start of a stored region, cut at the policy floor. -/
theorem policyStart_toNat (baseAddr : UInt64) :
    (if baseAddr < stage5bPolicyMinAddr then stage5bPolicyMinAddr else baseAddr).toNat =
      max baseAddr.toNat 0x100000 := by
  have hfloor : stage5bPolicyMinAddr.toNat = 0x100000 := rfl
  by_cases hlow : baseAddr < stage5bPolicyMinAddr
  · have hlow' := UInt64.lt_iff_toNat_lt.mp hlow
    rw [if_pos hlow]
    omega
  · have hlow' := UInt64.le_iff_toNat_le.mp (UInt64.not_lt.mp hlow)
    rw [if_neg hlow]
    omega

theorem Records.regionIteration {frames : Stage5cFrameBookkeeping} {spans : List Span}
    (h : Records frames spans) (hroom : spans.length < 128)
    (hk : frames.kernelReservedStart.toNat = 0x100000)
    (hke : frames.kernelReservedStart.toNat ≤ frames.kernelReservedEnd.toNat)
    (region : Stage5bRegion) :
    Records (stage5cRegionIteration frames region)
      (spans ++ regionSpans 0x100000 frames.kernelReservedEnd.toNat region) := by
  by_cases hflag : region.flags &&& stage5bRegionFlagPolicyUsable = 0
  · simp only [stage5cRegionIteration, regionSpans, hflag, if_true, true_or, List.append_nil]
    exact h
  by_cases htype : region.multibootType = multiboot2MemoryAvailable
  swap
  · simp only [stage5cRegionIteration, regionSpans, hflag, htype, if_false, ne_eq,
      not_false_eq_true, if_true, or_true, List.append_nil]
    exact h
  have hs := policyStart_toNat region.baseAddr
  simp only [stage5cRegionIteration, regionSpans, hflag, htype, if_false, ne_eq,
    not_true_eq_false, or_self]
  generalize (if region.baseAddr < stage5bPolicyMinAddr then stage5bPolicyMinAddr
    else region.baseAddr) = start at hs ⊢
  rw [← hs]
  simp only [UInt64.le_iff_toNat_le, UInt64.lt_iff_toNat_lt, hk]
  by_cases hempty : region.endAddr.toNat ≤ start.toNat
  · rw [if_pos hempty]
    split
    · rw [eligibleSpan_eq_nil hempty, List.append_nil]; exact h
    · rw [eligibleSpan_eq_nil (by omega), eligibleSpan_eq_nil (by omega), List.append_nil]
      simpa using h
  · rw [if_neg hempty]
    by_cases hbeside : region.endAddr.toNat ≤ 0x100000 ∨
        frames.kernelReservedEnd.toNat ≤ start.toNat
    · rw [if_pos hbeside, if_pos hbeside]
      exact h.recordEligibleSpan hroom (by omega)
    · have hfloor' : ¬ start.toNat < 1048576 := by omega
      rw [if_neg hbeside, if_neg hbeside, if_neg hfloor', eligibleSpan_eq_nil (by omega),
        List.nil_append]
      by_cases habove : frames.kernelReservedEnd.toNat < region.endAddr.toNat
      · rw [if_pos habove]
        exact h.recordEligibleSpan hroom (by omega)
      · rw [if_neg habove, eligibleSpan_eq_nil (by omega), List.append_nil]
        exact h

theorem regionIteration_reserved (frames : Stage5cFrameBookkeeping) (region : Stage5bRegion) :
    (stage5cRegionIteration frames region).kernelReservedStart = frames.kernelReservedStart ∧
    (stage5cRegionIteration frames region).kernelReservedEnd = frames.kernelReservedEnd := by
  have hrec := recordEligibleSpan_reserved
  simp only [stage5cRegionIteration]
  split_ifs <;> simp [hrec]

/-- The region loop over a stored list: every region appends the spans it contributes. -/
theorem Records.regionLoop {frames : Stage5cFrameBookkeeping} {spans : List Span}
    (h : Records frames spans) (regions : List Stage5bRegion)
    (hroom : spans.length + regions.length ≤ 128)
    (hk : frames.kernelReservedStart.toNat = 0x100000)
    (hke : frames.kernelReservedStart.toNat ≤ frames.kernelReservedEnd.toNat) :
    Records (regions.foldl stage5cRegionIteration frames)
      (spans ++ regions.flatMap (regionSpans 0x100000 frames.kernelReservedEnd.toNat)) := by
  induction regions generalizing frames spans with
  | nil => simpa using h
  | cons region regions ih =>
    simp only [List.length_cons] at hroom
    have hstep := h.regionIteration (by omega) hk hke region
    have hlen := regionSpans_length frames.kernelReservedEnd.toNat region
    obtain ⟨hks, hkend⟩ := regionIteration_reserved frames region
    have hloop := ih hstep (by rw [List.length_append]; omega) (by rw [hks]; exact hk)
      (by rw [hks, hkend]; exact hke)
    rw [hkend] at hloop
    rw [List.foldl_cons, List.flatMap_cons, ← List.append_assoc]
    exact hloop

/-! ## From map entries to the table -/

theorem recordRegion_regions (memory : Stage5bMemoryBookkeeping) (region : Stage5bRegion) :
    (stage5bRecordRegion memory region).regions = (memory.regions ++ [region]).take 128 ∨
    128 < memory.regions.length := by
  rw [stage5bRecordRegion]
  split
  · rename_i h
    simp only [stage5bMaxRegions] at h
    rcases Nat.lt_or_eq_of_le h with h | h
    · exact Or.inr h
    · left; simp [← h]
  · rename_i h
    simp only [stage5bMaxRegions] at h
    left
    rw [List.take_of_length_le (by simp; omega)]

/-- The stored regions are the records of the first 128 entries, in order. -/
theorem accountEntries_regions (entries : List Multiboot2MmapEntry) :
    (stage5bAccountEntries entries).regions = (entries.map stage5bRegionOf).take 128 := by
  induction entries using List.reverseRecOn with
  | nil => rfl
  | append_singleton entries entry ih =>
    have hfold : stage5bAccountEntries (entries ++ [entry]) =
        stage5bAccountEntry (stage5bAccountEntries entries) entry := by
      simp [stage5bAccountEntries]
    have hregions : ∀ memory, (stage5bAccountEntry memory entry).regions =
        (stage5bRecordRegion memory (stage5bRegionOf entry)).regions := by
      intro memory
      simp only [stage5bAccountEntry, stage5bRecordRegion]
      split_ifs <;> rfl
    rw [hfold, hregions]
    rcases recordRegion_regions (stage5bAccountEntries entries) (stage5bRegionOf entry) with h | h
    · rw [h, ih, List.map_append, List.map_singleton]
      by_cases hlen : (entries.map stage5bRegionOf).length ≤ 128
      · rw [List.take_of_length_le hlen]
      · rw [List.take_append_of_le_length (by simp only [List.length_take]; omega),
          List.take_append_of_le_length (by omega), List.take_take, Nat.min_self]
    · rw [ih, List.length_take] at h
      omega

theorem accountEntries_length (entries : List Multiboot2MmapEntry) :
    (stage5bAccountEntries entries).regions.length ≤ 128 := by
  rw [accountEntries_regions, List.length_take]
  omega

/-- An entry is usable by policy when some byte of it is available and above the floor. -/
theorem policyUsableLength_pos (entry : Multiboot2MmapEntry) :
    0 < stage5bPolicyUsableLength entry.baseAddr entry.length entry.type ↔
      entry.type = multiboot2MemoryAvailable ∧ 0 < entry.length.toNat ∧
      entry.baseAddr.toNat + entry.length.toNat < 2 ^ 64 ∧
      0x100000 < entry.baseAddr.toNat + entry.length.toNat := by
  have hfloor : stage5bPolicyMinAddr.toNat = 0x100000 := rfl
  by_cases hout : entry.type ≠ multiboot2MemoryAvailable ∨ entry.length = 0
  · simp only [stage5bPolicyUsableLength, hout, if_true]
    constructor
    · intro h; exact absurd h (by decide)
    · rintro ⟨ht, hl, _⟩
      rcases hout with h | h
      · exact absurd ht h
      · simp [h] at hl
  · rw [not_or, not_not] at hout
    have hl := MachineWord.ne_zero64_iff.mp hout.2
    simp only [stage5bPolicyUsableLength, hout.1, hout.2, ne_eq, not_true_eq_false, or_self,
      if_false, true_and]
    cases hov : (checkedAddU64 entry.baseAddr entry.length).1 with
    | true =>
      have hwrap := (checkedAddU64_fst _ _).mp hov
      simp only [if_true]
      constructor
      · intro h; exact absurd h (by decide)
      · rintro ⟨_, h, _⟩; omega
    | false =>
      obtain ⟨hsum, hlt⟩ := checkedAddU64_snd hov
      simp only [Bool.false_eq_true, if_false, UInt64.le_iff_toNat_le, hsum, hfloor]
      split_ifs with h1 h2
      · constructor
        · intro h; exact absurd h (by decide)
        · rintro ⟨_, _, h⟩; omega
      · constructor
        · intro _; exact ⟨hl, hlt, by omega⟩
        · intro _; rw [UInt64.lt_iff_toNat_lt]; exact hl
      · have hsub := UInt64.toNat_sub_of_le (checkedAddU64 entry.baseAddr entry.length).2
          stage5bPolicyMinAddr (by rw [UInt64.le_iff_toNat_le, hsum, hfloor]; omega)
        rw [hsum, hfloor] at hsub
        constructor
        · intro _; exact ⟨hl, hlt, by omega⟩
        · intro _; rw [UInt64.lt_iff_toNat_lt, hsub]; simp; omega

theorem regionOf_policyFlag (entry : Multiboot2MmapEntry) :
    (stage5bRegionOf entry).flags &&& stage5bRegionFlagPolicyUsable = 0 ↔
      ¬ 0 < stage5bPolicyUsableLength entry.baseAddr entry.length entry.type := by
  simp only [stage5bRegionOf, stage5bRegionFlagRawUsable, stage5bRegionFlagPolicyUsable]
  split_ifs with _ hpolicy hpolicy <;>
    simp only [hpolicy, not_true_eq_false, not_false_eq_true, iff_true, iff_false] <;> decide

theorem regionOf_endAddr {entry : Multiboot2MmapEntry}
    (h : entry.baseAddr.toNat + entry.length.toNat < 2 ^ 64) :
    (stage5bRegionOf entry).endAddr.toNat = entry.baseAddr.toNat + entry.length.toNat := by
  have hov : (checkedAddU64 entry.baseAddr entry.length).1 = false := by
    rw [← Bool.not_eq_true, checkedAddU64_fst]
    omega
  simp only [stage5bRegionOf, stage5bRegionEnd, hov, Bool.false_eq_true, if_false]
  exact (checkedAddU64_snd hov).1

/-- Frame `f` is a whole available frame of the region, above the floor and clear of the
page-rounded kernel image `[kernelStart, kernelEnd)`. -/
structure RegionEligible (kernelStart kernelEnd : ℕ) (region : Stage5bRegion) (f : ℕ) :
    Prop where
  available : region.multibootType = multiboot2MemoryAvailable
  noWrap : region.baseAddr.toNat + region.length.toNat ≤ 2 ^ 64 - 1
  above : max region.baseAddr.toNat 0x100000 ≤ f * 4096
  below : (f + 1) * 4096 ≤ region.baseAddr.toNat + region.length.toNat
  clear : ∀ a, f * 4096 ≤ a → a < (f + 1) * 4096 →
    ¬ (kernelStart / 4096 * 4096 ≤ a ∧ a < (kernelEnd + 4095) / 4096 * 4096)

/-- The spans of a recorded entry cover exactly its eligible frames. -/
theorem mem_cover_regionSpans (kernelEnd : ℕ) (entry : Multiboot2MmapEntry) (f : ℕ) :
    f ∈ cover (regionSpans 0x100000 ((kernelEnd + 4095) / 4096 * 4096) (stage5bRegionOf entry)) ↔
      RegionEligible 0x100000 kernelEnd (stage5bRegionOf entry) f := by
  have htype : (stage5bRegionOf entry).multibootType = entry.type := rfl
  have hbase : (stage5bRegionOf entry).baseAddr = entry.baseAddr := rfl
  have hlength : (stage5bRegionOf entry).length = entry.length := rfl
  have hpos := policyUsableLength_pos entry
  have hflag := regionOf_policyFlag entry
  rw [regionSpans]
  by_cases husable : 0 < stage5bPolicyUsableLength entry.baseAddr entry.length entry.type
  · obtain ⟨havail, hlen, hwrap, htop⟩ := hpos.mp husable
    have hin : ¬ ((stage5bRegionOf entry).flags &&& stage5bRegionFlagPolicyUsable = 0 ∨
        (stage5bRegionOf entry).multibootType ≠ multiboot2MemoryAvailable) :=
      not_or.mpr ⟨hflag.not.mpr (not_not.mpr husable), not_not.mpr havail⟩
    rw [if_neg hin]
    dsimp only
    rw [regionOf_endAddr hwrap, hbase]
    constructor
    · intro h
      have hin : max entry.baseAddr.toNat 0x100000 ≤ f * 4096 ∧
          (f + 1) * 4096 ≤ entry.baseAddr.toNat + entry.length.toNat ∧
          ((kernelEnd + 4095) / 4096 * 4096 ≤ f * 4096 ∨ (f + 1) * 4096 ≤ 0x100000) := by
        split at h
        · have := mem_cover_eligibleSpan.mp h; omega
        · rcases mem_cover_append.mp h with h | h
          · have := mem_cover_eligibleSpan.mp h; omega
          · have := mem_cover_eligibleSpan.mp h; omega
      refine ⟨havail, by rw [hbase, hlength]; omega, by rw [hbase]; exact hin.1,
        by rw [hbase, hlength]; exact hin.2.1, ?_⟩
      rintro a ha hb ⟨hc, hd⟩
      omega
    · rintro ⟨_, _, habove, hbelow, hclear⟩
      rw [hbase] at habove
      rw [hbase, hlength] at hbelow
      have hc := hclear (f * 4096) le_rfl (by omega)
      split
      · exact mem_cover_eligibleSpan.mpr ⟨habove, hbelow⟩
      · have hstart : (kernelEnd + 4095) / 4096 * 4096 ≤ f * 4096 :=
          Nat.le_of_not_lt fun hlt => hc ⟨le_trans (Nat.le_max_right _ _) habove, hlt⟩
        rw [mem_cover_append, mem_cover_eligibleSpan, mem_cover_eligibleSpan]
        exact Or.inr ⟨hstart, hbelow⟩
  · rw [if_pos (Or.inl (hflag.mpr husable))]
    simp only [Sweep.mem_cover, List.not_mem_nil, false_and, exists_false, false_iff]
    rintro ⟨ha, hw, habove, hbelow, _⟩
    rw [htype] at ha
    rw [hbase, hlength] at hw hbelow
    rw [hbase] at habove
    exact husable (hpos.mpr ⟨ha, by omega, by omega, by omega⟩)

/-- `frames` is the Stage 5C bookkeeping of the recorded map with the kernel ending at
`kernelEnd`; the code accepted those bounds. -/
def TableBuilt (kernelEnd : UInt32) (entries : List Multiboot2MmapEntry)
    (frames : Stage5cFrameBookkeeping) : Prop :=
  stage5cPrepareFrameBookkeeping kernelPhysStart kernelEnd (stage5bAccountEntries entries) =
    .ok frames

instance (kernelEnd : UInt32) (entries : List Multiboot2MmapEntry)
    (frames : Stage5cFrameBookkeeping) : Decidable (TableBuilt kernelEnd entries frames) :=
  match h : stage5cPrepareFrameBookkeeping kernelPhysStart kernelEnd
      (stage5bAccountEntries entries) with
  | .error _ => isFalse fun hb => by simp [TableBuilt, h] at hb
  | .ok built => decidable_of_iff (built = frames) (by simp [TableBuilt, h])

section Built

variable {kernelEnd : UInt32} {entries : List Multiboot2MmapEntry}
  {frames : Stage5cFrameBookkeeping}

/-- The spans that the stored regions contribute, in list order. -/
def mapSpans (kernelEnd : UInt32) (entries : List Multiboot2MmapEntry) : List Span :=
  (stage5bAccountEntries entries).regions.flatMap
    (regionSpans 0x100000 ((kernelEnd.toNat + 4095) / 4096 * 4096))

theorem mapSpans_length (kernelEnd : UInt32) (entries : List Multiboot2MmapEntry) :
    (mapSpans kernelEnd entries).length ≤ 128 := by
  have hone : ∀ regions : List Stage5bRegion, (regions.flatMap
      (regionSpans 0x100000 ((kernelEnd.toNat + 4095) / 4096 * 4096))).length ≤
      regions.length := by
    intro regions
    induction regions with
    | nil => simp
    | cons region regions ih =>
      have hr := regionSpans_length ((kernelEnd.toNat + 4095) / 4096 * 4096) region
      rw [List.flatMap_cons, List.length_append, List.length_cons]
      omega
  exact le_trans (hone _) (accountEntries_length entries)

/-- Everything later stages rely on: the table records the spans of the stored regions. -/
theorem TableBuilt.records (h : TableBuilt kernelEnd entries frames) :
    Records frames (mapSpans kernelEnd entries) ∧
      0x100000 < (kernelEnd.toNat + 4095) / 4096 * 4096 := by
  have hstart : kernelPhysStart.toUInt64 &&& ~~~(stage5cFrameSize - 1) = 0x100000 := by decide
  have hlt := kernelEnd.toNat_lt
  have hov : (stage5cAlignUp4k kernelEnd.toUInt64).1 = false := by
    rw [← Bool.not_eq_true, alignUp4k_overflow, UInt32.toNat_toUInt64]
    omega
  have hend := (alignUp4k_toNat hov).1
  rw [UInt32.toNat_toUInt64] at hend
  rw [TableBuilt, stage5cPrepareFrameBookkeeping] at h
  simp only [hov, hstart, Bool.false_eq_true, false_or] at h
  by_cases hle : (stage5cAlignUp4k kernelEnd.toUInt64).2 ≤ 0x100000
  · simp [hle] at h
  have hgt : 0x100000 < (stage5cAlignUp4k kernelEnd.toUInt64).2.toNat := by
    have := UInt64.lt_iff_toNat_lt.mp (UInt64.not_le.mp hle)
    simpa using this
  rw [if_neg hle] at h
  obtain rfl := Except.ok.inj h
  have hempty : Records { stage5cResetBookkeeping with
      kernelReservedStart := 0x100000
      kernelReservedEnd := (stage5cAlignUp4k kernelEnd.toUInt64).2 } [] :=
    ⟨rfl, rfl, rfl, by simp [Sweep.mem_cover], by simp, fun _ => rfl, rfl, by simp⟩
  have hloop := hempty.regionLoop (stage5bAccountEntries entries).regions
    (by simpa using accountEntries_length entries) rfl (le_of_lt hgt)
  rw [List.nil_append] at hloop
  refine ⟨?_, by rw [← hend]; exact hgt⟩
  rw [mapSpans, ← hend]
  exact hloop

/-- What the frame allocator relies on in a table. -/
structure SoundTable (frames : Stage5cFrameBookkeeping) : Prop where
  good : ∀ r ∈ frames.spans, GoodSpan r
  length : frames.ranges.length ≤ 128
  eligible : frames.eligibleFrames.toNat = total frames.spans

theorem TableBuilt.sound (h : TableBuilt kernelEnd entries frames) : SoundTable frames := by
  have hrec := h.records.1
  have hspans := congrArg List.length hrec.spans_eq
  rw [Stage5cFrameBookkeeping.spans, List.length_map] at hspans
  refine ⟨?_, ?_, ?_⟩
  · rw [hrec.spans_eq]
    exact hrec.good
  · rw [hspans]
    exact mapSpans_length kernelEnd entries
  · rw [hrec.spans_eq]
    exact hrec.eligible

theorem SoundTable.good_range (h : SoundTable frames) {range : Stage5cFrameRange}
    (hr : range ∈ frames.ranges) : GoodSpan range.span :=
  h.good _ (List.mem_map_of_mem hr)

theorem SoundTable.mem_lt (h : SoundTable frames) {f : ℕ} (hf : f ∈ cover frames.spans) :
    256 ≤ f ∧ f < 2 ^ 52 := by
  obtain ⟨r, hr, hmem⟩ := Sweep.mem_cover.mp hf
  have hg := h.good r hr
  have h₁ := hg.floor
  have h₂ := hg.top
  have h₃ := Span.mem_iff.mp hmem
  omega

theorem SoundTable.total_le (h : SoundTable frames) : total frames.spans ≤ 2 ^ 59 := by
  have hle := FrameEligibility.total_le h.good
  have hlen := h.length
  rw [Stage5cFrameBookkeeping.spans, List.length_map] at hle
  have : frames.ranges.length * 2 ^ 52 ≤ 128 * 2 ^ 52 := Nat.mul_le_mul_right _ hlen
  rw [← Stage5cFrameBookkeeping.spans] at hle
  omega

theorem mem_cover_spans {f : ℕ} :
    f ∈ cover frames.spans ↔ ∃ range ∈ frames.ranges, f ∈ range.span := by
  simp [Sweep.mem_cover, Stage5cFrameBookkeeping.spans]

/-- The stored ranges hold exactly the eligible frames of the stored regions. -/
theorem TableBuilt.mem_cover (h : TableBuilt kernelEnd entries frames) (f : ℕ) :
    f ∈ cover frames.spans ↔ ∃ region ∈ (stage5bAccountEntries entries).regions,
      RegionEligible kernelPhysStart.toNat kernelEnd.toNat region f := by
  have hentry := mem_cover_regionSpans kernelEnd.toNat (f := f)
  have hregions := accountEntries_regions entries
  rw [h.records.1.spans_eq, mapSpans, Sweep.mem_cover]
  constructor
  · rintro ⟨r, hr, hf⟩
    obtain ⟨region, hregion, hr⟩ := List.mem_flatMap.mp hr
    obtain ⟨entry, _, rfl⟩ := List.mem_map.mp (List.mem_of_mem_take (hregions ▸ hregion))
    exact ⟨_, hregion, (hentry entry).mp (Sweep.mem_cover.mpr ⟨r, hr, hf⟩)⟩
  · rintro ⟨region, hregion, helig⟩
    obtain ⟨entry, _, rfl⟩ := List.mem_map.mp (List.mem_of_mem_take (hregions ▸ hregion))
    obtain ⟨r, hr, hf⟩ := Sweep.mem_cover.mp ((hentry entry).mpr helig)
    exact ⟨r, List.mem_flatMap.mpr ⟨_, hregion, hr⟩, hf⟩

end Built

/-! ## Eligibility of a whole map -/

/-- `highest` is the largest frame of the ranges, or zero when there is none. -/
structure HighestFrame (ranges : List Stage5cFrameRange) (highest : UInt64) : Prop where
  upper : ∀ range ∈ ranges, ∀ f ∈ range.span, f ≤ highest.toNat
  attained : ranges ≠ [] → ∃ range ∈ ranges, highest.toNat ∈ range.span
  none : ranges = [] → highest = 0

theorem eligibility_exact (kernelEnd : UInt32) (entries : List Multiboot2MmapEntry)
    (frames : Stage5cFrameBookkeeping) (built : TableBuilt kernelEnd entries frames) :
    (∀ f, (∃ range ∈ frames.ranges, f ∈ range.span) ↔
      ∃ region ∈ (stage5bAccountEntries entries).regions,
        RegionEligible kernelPhysStart.toNat kernelEnd.toNat region f) ∧
    frames.droppedRanges = 0 ∧
    frames.eligibleFrames.toNat = (frames.ranges.map fun range => range.frameCount.toNat).sum ∧
    (∀ range ∈ frames.ranges, 0 < range.frameCount) ∧
    HighestFrame frames.ranges frames.highestEligibleFrame := by
  have hrec := built.records.1
  have hmem : ∀ f, f ∈ cover (mapSpans kernelEnd entries) ↔
      ∃ range ∈ frames.ranges, f ∈ range.span := by
    intro f
    rw [← hrec.spans_eq]
    exact mem_cover_spans
  have hnil : frames.ranges = [] ↔ mapSpans kernelEnd entries = [] := by
    rw [← hrec.spans_eq, Stage5cFrameBookkeeping.spans, List.map_eq_nil_iff]
  refine ⟨fun f => ?_, hrec.dropped, ?_, ?_, ?_, ?_, ?_⟩
  · rw [← mem_cover_spans]
    exact built.mem_cover f
  · rw [built.sound.eligible, Stage5cFrameBookkeeping.spans, total, List.map_map]
    rfl
  · intro range hrange
    rw [UInt64.lt_iff_toNat_lt]
    exact (built.sound.good _ (List.mem_map_of_mem hrange)).pos
  · intro range hrange f hf
    exact hrec.highest_le f ((hmem f).mpr ⟨range, hrange, hf⟩)
  · intro hne
    exact (hmem _).mp (hrec.highest_mem fun h => hne (hnil.mpr h))
  · intro h
    exact hrec.highest_none (hnil.mp h)

/-- Low memory, the memory around the kernel image, a reserved entry, memory above 4 GiB. -/
def smallMap : List Multiboot2MmapEntry :=
  [⟨0, 0x9FC00, 1, 0⟩, ⟨0x100000, 0x7EE0000, 1, 0⟩, ⟨0xFFFC0000, 0x40000, 2, 0⟩,
    ⟨0x100000000, 0x40000000, 1, 0⟩]

def smallMapFrames : Stage5cFrameBookkeeping :=
  ⟨[⟨0x120, 0x7EC0⟩, ⟨0x100000, 0x40000⟩], 0, 0x47EC0, 0x13FFFF, 0x13FFFF000, 0x100000,
    0x120000⟩

theorem tableBuilt_smallMap : TableBuilt 0x11F800 smallMap smallMapFrames := by decide +kernel

theorem eligibility_exact_smallMap :
    HighestFrame smallMapFrames.ranges smallMapFrames.highestEligibleFrame :=
  (eligibility_exact 0x11F800 smallMap smallMapFrames tableBuilt_smallMap).2.2.2.2

end FrameEligibility
