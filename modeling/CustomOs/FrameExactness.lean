import CustomOs.FrameOwnership

/-! # Exact counts and exact frees
On a map in ascending order the remaining count is the number of frames that are not out, and
on a table with nothing behind the cursor the free verdict is exact. Both conditions are
necessary: an alloc-only run that empties the allocator reaches a state that shows it. -/
namespace FrameExactness

open Sweep (Span cover total sweep Ascending NothingBehind)
open MemoryMap FrameEligibility PhysicalFrames PhysicalFrameTracking FrameOwnership

variable {frames : Stage5cFrameBookkeeping} {calls : List PmmCall} {pmm : Pmm}
  {queue fresh : List ℕ}

/-- Allocating on and on empties the allocator; the frames it hands out were in it. A count
that is still positive then has moved the cursor to the end of the table. -/
theorem exhaust (ht : SoundTable frames) (hrun : PmmRun frames calls pmm)
    (h : Tracks frames pmm queue fresh) :
    ∃ more pmm', PmmRun frames (calls ++ more) pmm' ∧ Tracks frames pmm' [] [] ∧
      (surplus frames ≠ 0 → pmm'.stage6a.rangeIndex = frames.ranges.length) ∧
      ∀ f ∈ handedOut (calls ++ more), f ∈ handedOut calls ∨ f ∈ queue ++ fresh := by
  generalize hn : (queue ++ fresh).length = n
  induction n generalizing calls pmm queue fresh with
  | zero =>
    obtain ⟨rfl, rfl⟩ := List.append_eq_nil_iff.mp (List.eq_nil_of_length_eq_zero hn)
    rcases h.alloc ht 0 with ⟨_, _, _, _, _, _, _, hlist, _⟩ | ⟨_, _, state, heq, htracks, hend, _⟩
    · simp at hlist
    · have hstep := @PmmStep.alloc frames pmm 0
      rw [heq] at hstep
      simp only [Reply.result, Bool.false_eq_true, if_false] at hstep
      refine ⟨[.alloc none], _, hrun.step hstep, htracks, ?_, ?_⟩
      · intro hsurplus
        apply hend
        have hr := h.remaining
        rw [MachineWord.ne_zero64_iff, hr]
        simp only [List.length_nil]
        omega
      · intro f hf
        rw [handedOut_append] at hf
        exact Or.inl hf
  | succ n ih =>
    rcases h.alloc ht 0 with ⟨f, a, pmm', queue', fresh', heq, haddr, hlist, htracks, _⟩ |
      ⟨rfl, rfl, _⟩
    · have hstep := @PmmStep.alloc frames pmm 0
      rw [heq] at hstep
      simp only [Reply.result, if_true] at hstep
      have hlen := congrArg List.length hlist
      rw [hn, List.length_cons] at hlen
      obtain ⟨more, last, hmore, hlast, hend, hout⟩ :=
        ih (hrun.step hstep) htracks (by omega)
      refine ⟨.alloc (some a) :: more, last, ?_, hlast, hend, ?_⟩
      · rw [List.append_cons]
        exact hmore
      · intro g hg
        rw [List.append_cons] at hg
        rcases hout g hg with hg | hg
        · rw [handedOut_append] at hg
          simp only [handOut, frameOf_eq haddr] at hg
          rcases Finset.mem_insert.mp hg with rfl | hg
          · right
            rw [hlist]
            exact List.mem_cons_self
          · exact Or.inl hg
        · right
          rw [hlist]
          exact List.mem_cons_of_mem _ hg
    · simp at hn

/-! ## The order of a map -/

/-- Every eligible frame of an earlier stored entry lies below every one of a later entry. -/
def EntriesInOrder (kernelEnd : UInt32) (entries : List Multiboot2MmapEntry) : Prop :=
  (entries.take 128).Pairwise fun earlier later => ∀ f g,
    RegionEligible kernelPhysStart.toNat kernelEnd.toNat (stage5bRegionOf earlier) f →
    RegionEligible kernelPhysStart.toNat kernelEnd.toNat (stage5bRegionOf later) g → f < g

theorem regionSpans_pos {kernelStart kernelEnd : ℕ} {region : Stage5bRegion} :
    ∀ r ∈ regionSpans kernelStart kernelEnd region, 0 < r.count := by
  have hspan : ∀ s e, ∀ r ∈ eligibleSpan s e, 0 < r.count := by
    intro s e r hr
    rw [eligibleSpan] at hr
    split at hr
    · obtain rfl := List.mem_singleton.mp hr
      simp only
      omega
    · simp at hr
  intro r hr
  rw [regionSpans] at hr
  split at hr
  · simp at hr
  · dsimp only at hr
    split at hr
    · exact hspan _ _ r hr
    · rcases List.mem_append.mp hr with hr | hr
      · exact hspan _ _ r hr
      · exact hspan _ _ r hr

theorem ascending_iff_entriesInOrder {kernelEnd : UInt32} {entries : List Multiboot2MmapEntry}
    (built : TableBuilt kernelEnd entries frames) :
    Ascending frames.spans ↔ EntriesInOrder kernelEnd entries := by
  have hmem := mem_cover_regionSpans kernelEnd.toNat
  rw [built.records.1.spans_eq, mapSpans, accountEntries_regions, ← List.map_take, Ascending,
    List.pairwise_flatMap, EntriesInOrder, List.pairwise_map]
  have hone : ∀ region ∈ (entries.take 128).map stage5bRegionOf,
      (regionSpans 0x100000 ((kernelEnd.toNat + 4095) / 4096 * 4096) region).Pairwise
        fun a b => a.stop ≤ b.start := by
    intro region _
    have hlen := regionSpans_length ((kernelEnd.toNat + 4095) / 4096 * 4096) region
    rcases hspans : regionSpans 0x100000 ((kernelEnd.toNat + 4095) / 4096 * 4096) region with
      _ | ⟨r, _ | ⟨q, rest⟩⟩
    · exact List.Pairwise.nil
    · exact List.pairwise_singleton _ r
    · rw [hspans] at hlen
      simp at hlen
  rw [and_iff_right hone]
  apply List.Pairwise.iff
  intro earlier later
  constructor
  · intro h f g hf hg
    obtain ⟨r, hr, hfr⟩ := Sweep.mem_cover.mp ((hmem earlier f).mpr hf)
    obtain ⟨q, hq, hgq⟩ := Sweep.mem_cover.mp ((hmem later g).mpr hg)
    have := h r hr q hq
    have := (Span.mem_iff.mp hfr).2
    have := (Span.mem_iff.mp hgq).1
    omega
  · intro h r hr q hq
    have hrpos := regionSpans_pos r hr
    have hqpos := regionSpans_pos q hq
    have hf : r.stop - 1 ∈ r := Span.mem_iff.mpr (by simp only [Span.stop]; omega)
    have hg : q.start ∈ q := Span.mem_iff.mpr (by simp only [Span.stop]; omega)
    have := h _ _ ((hmem earlier _).mp (Sweep.mem_cover.mpr ⟨r, hr, hf⟩))
      ((hmem later _).mp (Sweep.mem_cover.mpr ⟨q, hq, hg⟩))
    omega

theorem nothingBehind_of_ascending {rs : List Span} (h : Ascending rs) : NothingBehind rs := by
  rintro pre r post rfl q hq f hf hlt
  rw [Ascending, List.pairwise_append, List.pairwise_cons] at h
  have hrq := h.2.1.1 q hq
  have hfq := (Span.mem_iff.mp hf).1
  have : r.start ≤ r.stop := Nat.le_add_right _ _
  omega

theorem surplus_eq_zero_iff (ht : SoundTable frames) :
    surplus frames = 0 ↔ Ascending frames.spans := by
  have hle := Sweep.sweep_length_le_total frames.spans 0
  have hiff := Sweep.sweep_length_eq_total_iff (fun r hr => (ht.good r hr).pos) 0
  simp only [Nat.zero_le, implies_true, true_and] at hiff
  rw [← hiff, surplus]
  omega

/-! ## The remaining count -/

/-- In every reachable state the reported count is the number of stored frames that are not
handed out, and an allocation fails exactly when it is zero. -/
def CountIsTrue (frames : Stage5cFrameBookkeeping) : Prop :=
  ∀ calls pmm, PmmRun frames calls pmm →
    (stage6bPmmGetRemainingFrames pmm).toNat = (cover frames.spans \ handedOut calls).card ∧
    ∀ out, (stage6bPmmAllocFrame frames pmm (some out)).accepted = false ↔
      (cover frames.spans \ handedOut calls).card = 0

/-- When a sweep reaches every stored frame, those not handed out are waiting or fresh. -/
theorem available_card (h : Ledger frames calls pmm queue fresh)
    (complete : ∀ f ∈ cover frames.spans, f ∈ sweep frames.spans 0) :
    (cover frames.spans \ handedOut calls).card = queue.length + fresh.length := by
  have hset : cover frames.spans \ handedOut calls = (queue ++ fresh).toFinset := by
    ext f
    rw [Finset.mem_sdiff, List.mem_toFinset]
    constructor
    · rintro ⟨hf, hout⟩
      exact (h.conserved f (complete f hf)).resolve_left hout
    · intro hf
      exact ⟨h.tracks.mem_cover hf, fun hout => h.out_free f hout hf⟩
  rw [hset, List.toFinset_card_of_nodup h.tracks.nodup, List.length_append]

theorem alloc_fails_iff (h : Tracks frames pmm queue fresh) (ht : SoundTable frames)
    (out : UInt64) : (stage6bPmmAllocFrame frames pmm (some out)).accepted = false ↔
      queue.length + fresh.length = 0 := by
  rcases h.alloc ht out with ⟨f, _, _, queue', fresh', heq, _, hlist, _⟩ | ⟨rfl, rfl, state, heq, _⟩
  · have hlen := congrArg List.length hlist
    simp only [List.length_append, List.length_cons] at hlen
    simp only [heq, Bool.true_eq_false, false_iff]
    omega
  · simp [heq]

theorem remaining_count_true_iff (kernelEnd : UInt32) (entries : List Multiboot2MmapEntry)
    (frames : Stage5cFrameBookkeeping) (built : TableBuilt kernelEnd entries frames) :
    CountIsTrue frames ↔ EntriesInOrder kernelEnd entries := by
  have ht := built.sound
  rw [← ascending_iff_entriesInOrder built]
  constructor
  · intro htrue
    obtain ⟨more, pmm', hrun, htracks, _⟩ := exhaust ht .start (seeded_tracks ht)
    obtain ⟨hcount, hfails⟩ := htrue _ _ hrun
    have hfail := (alloc_fails_iff htracks ht 0).mpr rfl
    have hzero := (hfails 0).mp hfail
    have hremaining := htracks.remaining
    rw [stage6bPmmGetRemainingFrames] at hcount
    rw [← surplus_eq_zero_iff ht]
    simp only [List.length_nil] at hremaining
    omega
  · intro hasc calls pmm hrun
    obtain ⟨queue, fresh, hledger⟩ := ledger_of_run ht hrun
    have hcomplete := (Sweep.sweep_complete_iff _).mpr (nothingBehind_of_ascending hasc)
    have hcard := available_card hledger hcomplete
    have hremaining := hledger.tracks.remaining
    rw [(surplus_eq_zero_iff ht).mpr hasc] at hremaining
    refine ⟨?_, fun out => ?_⟩
    · rw [stage6bPmmGetRemainingFrames, hcard]
      exact hremaining
    · rw [hcard]
      exact alloc_fails_iff hledger.tracks ht out

theorem remaining_count_true_smallMap : CountIsTrue smallMapFrames :=
  (remaining_count_true_iff 0x11F800 smallMap smallMapFrames tableBuilt_smallMap).mpr
    ((ascending_iff_entriesInOrder tableBuilt_smallMap).mp (by decide))

/-- Two single frames, the higher one listed first. -/
def descendingMap : List Multiboot2MmapEntry :=
  [⟨0x300000, 0x1000, 1, 0⟩, ⟨0x200000, 0x1000, 1, 0⟩]

def descendingFrames : Stage5cFrameBookkeeping :=
  ⟨[⟨0x300, 1⟩, ⟨0x200, 1⟩], 0, 2, 0x300, 0x300000, 0x100000, 0x110000⟩

theorem tableBuilt_descendingMap : TableBuilt 0x110000 descendingMap descendingFrames := by
  decide +kernel

/-- After one allocation the count is 1 and frame `0x200` is free, but allocation fails. -/
theorem remaining_count_descendingMap :
    TableBuilt 0x110000 descendingMap descendingFrames ∧ ¬ CountIsTrue descendingFrames := by
  refine ⟨tableBuilt_descendingMap, fun htrue => ?_⟩
  have hfail := ((htrue _ _ (serve_run descendingFrames [.alloc])).2 0).mp (by decide +kernel)
  have hcard : (cover descendingFrames.spans \ handedOut
      (serve descendingFrames (seeded descendingFrames) [.alloc]).1).card = 1 := by
    decide +kernel
  omega

/-! ## The free verdict -/

/-- In every reachable state a free is accepted exactly for the aligned address of a frame
that is handed out, while the queue has room. -/
def FreeIsExact (frames : Stage5cFrameBookkeeping) : Prop :=
  ∀ calls pmm, PmmRun frames calls pmm → ∀ physAddr,
    (stage6cPmmFreeFrame frames pmm physAddr).1 = true ↔
      physAddr.toNat % 4096 = 0 ∧ frameOf physAddr ∈ handedOut calls ∧
      (pendingFrames pmm).length < 64

/-- A table with a stored frame out of the sweep's reach counts it all the same. -/
theorem surplus_ne_zero (ht : SoundTable frames) (h : ¬ NothingBehind frames.spans) :
    surplus frames ≠ 0 :=
  fun hz => h (nothingBehind_of_ascending ((surplus_eq_zero_iff ht).mp hz))

theorem free_exact_iff (kernelEnd : UInt32) (entries : List Multiboot2MmapEntry)
    (frames : Stage5cFrameBookkeeping) (built : TableBuilt kernelEnd entries frames) :
    FreeIsExact frames ↔ NothingBehind frames.spans := by
  have ht := built.sound
  constructor
  · intro hexact
    by_contra hbehind
    have hmissing : ∃ f ∈ cover frames.spans, f ∉ sweep frames.spans 0 := by
      by_contra hall
      push Not at hall
      exact hbehind ((Sweep.sweep_complete_iff _).mp hall)
    obtain ⟨f, hf, hnot⟩ := hmissing
    obtain ⟨more, pmm', hrun, htracks, hend, hout⟩ := exhaust ht .start (seeded_tracks ht)
    have hidx := hend (surplus_ne_zero ht hbehind)
    obtain ⟨r, hr, hfr⟩ := Sweep.mem_cover.mp hf
    have hlen : frames.spans.length = frames.ranges.length := by
      simp [Stage5cFrameBookkeeping.spans]
    have hissued : Issued frames pmm'.stage6a f :=
      Or.inl ⟨r, by rw [hidx, ← hlen, List.take_length]; exact hr, hfr⟩
    have hbound := (ht.mem_lt hf).2
    have haddr : (UInt64.ofNat (4096 * f)).toNat = 4096 * f := by
      rw [UInt64.toNat_ofNat', Nat.mod_eq_of_lt (by omega)]
    have hframe := frameOf_eq haddr
    have haccept := (htracks.free_accepted ht (UInt64.ofNat (4096 * f))).mpr
      ⟨by omega, by rw [hframe]; exact hf, by rw [hframe]; exact hissued, by simp, by simp⟩
    obtain ⟨_, hheld, _⟩ := (hexact _ _ hrun _).mp haccept
    rw [hframe] at hheld
    rcases hout f hheld with h | h
    · simp [handedOut] at h
    · exact hnot (by simpa using h)
  · intro hbehind calls pmm hrun physAddr
    obtain ⟨queue, fresh, hledger⟩ := ledger_of_run ht hrun
    have hcomplete := (Sweep.sweep_complete_iff _).mpr hbehind
    rw [hledger.tracks.free_accepted ht, hledger.tracks.queue_eq]
    constructor
    · rintro ⟨halign, hmem, hissued, hnot, hroom⟩
      refine ⟨halign, (hledger.conserved _ (hcomplete _ hmem)).resolve_right ?_, hroom⟩
      rw [List.mem_append, not_or]
      exact ⟨hnot, hledger.tracks.cursor.not_mem_of_issued hissued⟩
    · rintro ⟨halign, hheld, hroom⟩
      exact ⟨halign, hledger.out_mem _ hheld, hledger.out_issued _ hheld,
        hledger.out_queue _ hheld, hroom⟩

theorem free_exact_smallMap : FreeIsExact smallMapFrames :=
  (free_exact_iff 0x11F800 smallMap smallMapFrames tableBuilt_smallMap).mpr
    (nothingBehind_of_ascending (by decide))

/-- Two allocations empty the allocator; frame `0x200`, which neither returned, is then freed
with success. -/
theorem free_exact_descendingMap :
    TableBuilt 0x110000 descendingMap descendingFrames ∧ ¬ FreeIsExact descendingFrames := by
  refine ⟨tableBuilt_descendingMap, fun hexact => ?_⟩
  have hfree := (hexact _ _ (serve_run descendingFrames [.alloc, .alloc]) 0x200000).mp
    (by decide +kernel)
  exact absurd hfree.2.1 (by decide +kernel)

end FrameExactness
