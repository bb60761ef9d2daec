import CustomOs.FrameOwnership

/-! # Failed calls of the frame allocator
Two failure returns of the source come after the state was changed: a queued frame was popped,
or the cursor moved on and the count went down, and only then the frame turns out to have no
address. What the lists of `Tracks` hold is below 2^52, so no run gets there, and the failures
that remain happen before anything a caller can see has changed. -/
namespace AllocatorFailures

open MemoryMap FrameEligibility PhysicalFrames PhysicalFrameTracking FrameOwnership

variable {frames : Stage5cFrameBookkeeping} {pmm : Pmm} {queue fresh : List ℕ}

/-- The frame is past the limit both allocation paths compare it with. -/
def Unaddressable (frame : UInt64) : Prop := uint64Max >>> stage5cFrameShift < frame

instance (frame : UInt64) : Decidable (Unaddressable frame) :=
  inferInstanceAs (Decidable (_ < _))

/-- The reuse path pops a frame and then refuses it. -/
def PopsAndFails (pmm : Pmm) : Prop :=
  ∃ frame rest, stage6dPmmPopPendingFreeFifo pmm = some (frame, rest) ∧ Unaddressable frame

/-- The fresh path takes the frame under the cursor and then refuses it. -/
def TakesAndFails (frames : Stage5cFrameBookkeeping) (pmm : Pmm) : Prop :=
  (stage6aPmmAdvanceToNextEligible frames pmm.stage6a).rangeIndex < frames.ranges.length ∧
    Unaddressable (stage6aPmmAdvanceToNextEligible frames pmm.stage6a).nextFrameIndex

/-- The counters and the pending-free queue, which a failed allocation leaves alone. -/
structure SameAccounts (pmm pmm' : Pmm) : Prop where
  remaining : pmm'.stage6a.remainingFrameCount = pmm.stage6a.remainingFrameCount
  allocations : pmm'.stage6a.allocationCount = pmm.stage6a.allocationCount
  queue : pmm'.pendingFreeFrames = pmm.pendingFreeFrames
  pending : pmm'.pendingFreeCount = pmm.pendingFreeCount

theorem SameAccounts.refl (pmm : Pmm) : SameAccounts pmm pmm := ⟨rfl, rfl, rfl, rfl⟩

/-! ## The two late failures -/

theorem not_unaddressable {frame : UInt64} (h : frame.toNat < 2 ^ 52) : ¬ Unaddressable frame :=
  frameLimit_not_lt h

/-- What waits in the queue was stored by a range, so it lies below the limit. -/
theorem not_popsAndFails (h : Tracks frames pmm queue fresh) (ht : SoundTable frames) :
    ¬ PopsAndFails pmm := by
  intro hpop
  obtain ⟨frame, rest, hpop, hlarge⟩ := hpop
  cases queue with
  | nil =>
    rw [popPendingFree_empty h.queue_eq] at hpop
    cases hpop
  | cons f queue =>
    obtain ⟨head, rest', hhead, hf, _⟩ := popPendingFree h.count_le h.queue_eq
    have hsame := hhead.symm.trans hpop
    simp only [Option.some.injEq, Prod.mk.injEq] at hsame
    obtain ⟨rfl, _⟩ := hsame
    have hlt := (ht.mem_lt (h.queue_mem f List.mem_cons_self)).2
    exact not_unaddressable (by omega) hlarge

/-- The cursor stops inside a range or at the end of the table, below the limit either way. -/
theorem not_takesAndFails (h : Tracks frames pmm queue fresh) (ht : SoundTable frames) :
    ¬ TakesAndFails frames pmm := by
  intro htake
  obtain ⟨_, hlarge⟩ := htake
  obtain ⟨i, next, heq, hcursor, _⟩ := h.cursor.advance ht
  rw [heq] at hlarge
  exact not_unaddressable hcursor.next_lt hlarge

/-! ## What a call leaves behind -/

/-- A null pointer is turned away by both paths before they look at the state. -/
theorem alloc_null (frames : Stage5cFrameBookkeeping) (pmm : Pmm) :
    stage6bPmmAllocFrame frames pmm none = ⟨false, none, pmm⟩ := by
  simp only [stage6bPmmAllocFrame, stage6dPmmTryAllocateReusedFrame, stage6aPmmTryAllocateFrame,
    Bool.false_eq_true, if_false]

/-- A refusal found both lists empty, and moves the cursor at most. -/
theorem alloc_refused (h : Tracks frames pmm queue fresh) (ht : SoundTable frames)
    {out : Option UInt64} (hfail : (stage6bPmmAllocFrame frames pmm out).accepted = false) :
    (stage6bPmmAllocFrame frames pmm out).out = out ∧
      SameAccounts pmm (stage6bPmmAllocFrame frames pmm out).pmm := by
  cases out with
  | none =>
    rw [alloc_null]
    exact ⟨rfl, .refl pmm⟩
  | some out =>
    rcases h.alloc ht out with ⟨f, physAddr, pmm', queue', fresh', heq, _⟩ | ⟨rfl, rfl, _⟩
    · rw [heq] at hfail
      cases hfail
    · obtain ⟨state, heq, _, hremaining, hallocations, _⟩ := h.takeFresh_none ht out
      rw [h.allocFresh, heq]
      exact ⟨rfl, hremaining, hallocations, rfl, rfl⟩

/-- A success takes one frame off the lists and one off the count. -/
theorem alloc_accepted (h : Tracks frames pmm queue fresh) (ht : SoundTable frames)
    {out : Option UInt64} (haccept : (stage6bPmmAllocFrame frames pmm out).accepted = true) :
    (stage6bPmmAllocFrame frames pmm out).pmm.stage6a.remainingFrameCount.toNat + 1 =
      pmm.stage6a.remainingFrameCount.toNat := by
  cases out with
  | none =>
    rw [alloc_null] at haccept
    cases haccept
  | some out =>
    rcases h.alloc ht out with
      ⟨f, physAddr, pmm', queue', fresh', heq, _, hlist, htracks, _⟩ | ⟨_, _, state, heq, _⟩
    · have hlength := congrArg List.length hlist
      simp only [List.length_append, List.length_cons] at hlength
      have hbefore := h.remaining
      have hafter := htracks.remaining
      rw [heq]
      simp only
      omega
    · rw [heq] at haccept
      cases haccept

theorem pending_le_remaining (h : Tracks frames pmm queue fresh) :
    pmm.pendingFreeCount.toNat ≤ pmm.stage6a.remainingFrameCount.toNat := by
  have hlength := h.queue_length
  have hremaining := h.remaining
  omega

/-- A waiting frame is served, by its own address. -/
theorem alloc_queued (h : Tracks frames pmm queue fresh) (ht : SoundTable frames)
    (hpending : pmm.pendingFreeCount ≠ 0) (out : UInt64) :
    ∃ physAddr pmm', stage6bPmmAllocFrame frames pmm (some out) = ⟨true, some physAddr, pmm'⟩ ∧
      physAddr.toNat = 4096 * pmm.pendingFreeFrames[0]!.toNat ∧
      pendingFrames pmm' = (pendingFrames pmm).tail := by
  have hpos := MachineWord.ne_zero64_iff.mp hpending
  cases queue with
  | nil =>
    have hlength := h.queue_length
    rw [List.length_nil] at hlength
    omega
  | cons f queue =>
    obtain ⟨physAddr, pmm', heq, haddr, htracks, _⟩ := h.allocReused ht out
    have hhead : (pendingFrames pmm)[0]? = some pmm.pendingFreeFrames[0]!.toNat := by
      rw [pendingFrames, List.getElem?_map, List.getElem?_range hpos]
      rfl
    rw [h.queue_eq] at hhead ⊢
    obtain rfl : f = pmm.pendingFreeFrames[0]!.toNat := Option.some.inj hhead
    exact ⟨physAddr, pmm', heq, haddr, htracks.queue_eq⟩

theorem failures_are_clean (kernelEnd : UInt32) (entries : List Multiboot2MmapEntry)
    (frames : Stage5cFrameBookkeeping) (built : TableBuilt kernelEnd entries frames)
    (calls : List PmmCall) (pmm : Pmm) (run : PmmRun frames calls pmm) :
    (∀ out, (stage6bPmmAllocFrame frames pmm out).accepted = false →
      (stage6bPmmAllocFrame frames pmm out).out = out ∧
        SameAccounts pmm (stage6bPmmAllocFrame frames pmm out).pmm) ∧
    stage6bPmmAllocFrame frames pmm none = ⟨false, none, pmm⟩ ∧
    (∀ physAddr, (stage6cPmmFreeFrame frames pmm physAddr).1 = false →
      (stage6cPmmFreeFrame frames pmm physAddr).2 = pmm) ∧
    ¬ PopsAndFails pmm ∧ ¬ TakesAndFails frames pmm ∧
    (∀ out, (stage6bPmmAllocFrame frames pmm out).accepted = true →
      (stage6bPmmAllocFrame frames pmm out).pmm.stage6a.remainingFrameCount.toNat + 1 =
        pmm.stage6a.remainingFrameCount.toNat) ∧
    pmm.pendingFreeCount.toNat ≤ pmm.stage6a.remainingFrameCount.toNat ∧
    (pmm.pendingFreeCount ≠ 0 → ∀ out, ∃ physAddr pmm',
      stage6bPmmAllocFrame frames pmm (some out) = ⟨true, some physAddr, pmm'⟩ ∧
        physAddr.toNat = 4096 * pmm.pendingFreeFrames[0]!.toNat ∧
        pendingFrames pmm' = (pendingFrames pmm).tail) := by
  have ht := built.sound
  obtain ⟨queue, fresh, hledger⟩ := ledger_of_run ht run
  have h := hledger.tracks
  exact ⟨fun _ => alloc_refused h ht, alloc_null frames pmm, fun physAddr => (h.free ht physAddr).1,
    not_popsAndFails h ht, not_takesAndFails h ht, fun _ => alloc_accepted h ht,
    pending_le_remaining h, fun hpending => alloc_queued h ht hpending⟩

/-- A frame is taken and returned; the queue then holds it and it can be had again. -/
theorem failures_are_clean_smallMap :
    (serve smallMapFrames (seeded smallMapFrames) [.alloc, .free 0x120000]).2.pendingFreeCount = 1 ∧
    ∃ physAddr pmm', stage6bPmmAllocFrame smallMapFrames
      (serve smallMapFrames (seeded smallMapFrames) [.alloc, .free 0x120000]).2 (some 0) =
        ⟨true, some physAddr, pmm'⟩ := by
  have hpending : (serve smallMapFrames (seeded smallMapFrames)
      [.alloc, .free 0x120000]).2.pendingFreeCount = 1 := by decide
  obtain ⟨_, _, _, _, _, _, _, hreuse⟩ := failures_are_clean 0x11F800 smallMap smallMapFrames
    tableBuilt_smallMap _ _ (serve_run smallMapFrames [.alloc, .free 0x120000])
  obtain ⟨physAddr, pmm', heq, _⟩ := hreuse (by rw [hpending]; decide) 0
  exact ⟨hpending, physAddr, pmm', heq⟩

end AllocatorFailures
