import CustomOs.FrameExactness

/-! # The allocator against a reference
What the allocator is for: a queue of returned frames served first, then the frames of the
ranges in ascending order. On an ascending table the globals are an encoding of this model, and
every call answers as the model does. -/
namespace FrameReference

open Sweep (Span cover sweep Ascending)
open MemoryMap FrameEligibility PhysicalFrames PhysicalFrameTracking FrameOwnership FrameExactness
open Transition (replay)

structure QueueModel where
  queue : List ℕ
  fresh : List ℕ
  deriving DecidableEq, Repr

def allFrames (frames : Stage5cFrameBookkeeping) : List ℕ := frames.spans.flatMap Span.elements

def QueueModel.start (frames : Stage5cFrameBookkeeping) : QueueModel := ⟨[], allFrames frames⟩

def QueueModel.alloc (model : QueueModel) : Option ℕ × QueueModel :=
  match model with
  | ⟨f :: queue, fresh⟩ => (some f, ⟨queue, fresh⟩)
  | ⟨[], f :: fresh⟩ => (some f, ⟨[], fresh⟩)
  | ⟨[], []⟩ => (none, ⟨[], []⟩)

/-- The frame of an aligned address in a range, not waiting in the model already. -/
def QueueModel.Takes (frames : Stage5cFrameBookkeeping) (model : QueueModel)
    (physAddr : UInt64) : Prop :=
  physAddr.toNat % 4096 = 0 ∧ frameOf physAddr ∉ model.queue ∧ frameOf physAddr ∉ model.fresh ∧
    (∃ range ∈ frames.ranges, frameOf physAddr ∈ range.span) ∧ model.queue.length < 64

instance (frames : Stage5cFrameBookkeeping) (model : QueueModel) (physAddr : UInt64) :
    Decidable (model.Takes frames physAddr) :=
  inferInstanceAs (Decidable (_ ∧ _))

def QueueModel.free (frames : Stage5cFrameBookkeeping) (model : QueueModel) (physAddr : UInt64) :
    Bool × QueueModel :=
  if model.Takes frames physAddr then (true, ⟨model.queue ++ [frameOf physAddr], model.fresh⟩)
  else (false, model)

def requestOf : PmmCall → PmmRequest
  | .alloc _ => .alloc
  | .free physAddr _ => .free physAddr

def QueueModel.respond (frames : Stage5cFrameBookkeeping) (model : QueueModel) :
    PmmRequest → PmmCall × QueueModel
  | .alloc => (.alloc (model.alloc.1.map fun f => UInt64.ofNat (4096 * f)), model.alloc.2)
  | .free physAddr =>
    (.free physAddr (model.free frames physAddr).1, (model.free frames physAddr).2)

def succeeds : PmmCall → Bool
  | .alloc (some _) => true
  | _ => false

/-- The allocations of a history that returned a frame. -/
def successes (calls : List PmmCall) : ℕ := calls.countP succeeds

/-- The globals encode the model. -/
structure Agrees (calls : List PmmCall) (pmm : Pmm) (model : QueueModel) : Prop where
  remaining : pmm.stage6a.remainingFrameCount.toNat = model.queue.length + model.fresh.length
  pending : pmm.pendingFreeCount.toNat = model.queue.length
  array : ∀ i (h : i < model.queue.length), pmm.pendingFreeFrames[i]!.toNat = model.queue[i]
  allocations : successes calls < 2 ^ 64 →
    pmm.stage6a.allocationCount.toNat = successes calls

variable {frames : Stage5cFrameBookkeeping} {calls : List PmmCall} {pmm pmm' : Pmm}
  {model : QueueModel} {call : PmmCall}

/-! ## The model on an ascending table -/

theorem allFrames_eq (h : Ascending frames.spans) : allFrames frames = sweep frames.spans 0 :=
  (Sweep.sweep_ascending h fun _ _ => Nat.zero_le _).symm

/-! ## The count of allocations -/

/-- An allocation that succeeds is counted once, on either path. -/
theorem alloc_counted (hinit : pmm.stage6a.isInitialized = true) (out : UInt64)
    (haccept : (stage6bPmmAllocFrame frames pmm (some out)).accepted = true) :
    (stage6bPmmAllocFrame frames pmm (some out)).pmm.stage6a.allocationCount =
      addClampU64 pmm.stage6a.allocationCount 1 := by
  have hreuse : ∀ reply, stage6dPmmTryAllocateReusedFrame pmm (some out) = reply →
      (reply.accepted = true → reply.pmm.stage6a.allocationCount =
        addClampU64 pmm.stage6a.allocationCount 1) ∧
      (reply.accepted = false → reply.pmm.stage6a = pmm.stage6a ∧ reply.out = some out) := by
    rintro reply rfl
    by_cases hzero : pmm.stage6a.remainingFrameCount = 0
    · simp [stage6dPmmTryAllocateReusedFrame, hzero]
    by_cases hempty : pmm.pendingFreeCount = 0
    · simp [stage6dPmmTryAllocateReusedFrame, stage6dPmmPopPendingFreeFifo, hzero, hempty]
    simp only [stage6dPmmTryAllocateReusedFrame, stage6dPmmPopPendingFreeFifo, hzero, hempty,
      if_false]
    split <;> simp
  obtain ⟨hreused, hfallen⟩ := hreuse _ rfl
  simp only [stage6bPmmAllocFrame] at haccept ⊢
  split_ifs at haccept ⊢ with hverdict
  · exact hreused hverdict
  · obtain ⟨hstate, hout⟩ := hfallen (by simpa using hverdict)
    simp only [hout, stage6aPmmTryAllocateFrame, hstate, hinit, if_true, stage6aPmmTakeFresh,
      stage6aPmmAdvanceToNextEligible] at haccept ⊢
    split_ifs at haccept ⊢
    rfl

theorem addClampU64_succ {count : UInt64} {n : ℕ} (h : n + 1 < 2 ^ 64) (hc : count.toNat = n) :
    (addClampU64 count 1).toNat = n + 1 := by
  simp [addClampU64_toNat (a := count) (b := 1) (by simp; omega), hc]

/-! ## Simulation -/

/-- The model is what the globals track, and every frame it has let go of counts as issued. -/
structure Encodes (frames : Stage5cFrameBookkeeping) (calls : List PmmCall) (pmm : Pmm)
    (model : QueueModel) : Prop where
  tracks : Tracks frames pmm model.queue model.fresh
  issued : ∀ f ∈ cover frames.spans, f ∉ model.queue → f ∉ model.fresh →
    Issued frames pmm.stage6a f
  counted : successes calls < 2 ^ 64 → pmm.stage6a.allocationCount.toNat = successes calls

theorem successes_append (calls : List PmmCall) (call : PmmCall) :
    successes (calls ++ [call]) = successes calls + if succeeds call then 1 else 0 := by
  simp [successes, List.countP_append, List.countP_cons]

theorem seeded_encodes (ht : SoundTable frames) (hasc : Ascending frames.spans) :
    Encodes frames [] (seeded frames) (.start frames) := by
  have hcomplete := (Sweep.sweep_complete_iff _).mpr (nothingBehind_of_ascending hasc)
  have hcount : (seeded frames).stage6a.allocationCount = 0 := by
    simp only [seeded, stage6aPmmSeedFromStage5c, stage6aPmmResetState,
      stage6aPmmAdvanceToNextEligible]
    split
    · rfl
    · split_ifs <;> rfl
  refine ⟨?_, fun f hf _ hnot => ?_, fun _ => by simp [hcount, successes]⟩
  · simpa only [QueueModel.start, allFrames_eq hasc] using seeded_tracks ht
  · simp only [QueueModel.start, allFrames_eq hasc] at hnot
    exact absurd (hcomplete f hf) hnot

/-- Taking the head of the queue, or of the fresh frames behind an empty queue. -/
theorem Encodes.taken {queue fresh : List ℕ} {f : ℕ} {out physAddr : UInt64}
    (h : Encodes frames calls pmm model)
    (heq : stage6bPmmAllocFrame frames pmm (some out) = ⟨true, some physAddr, pmm'⟩)
    (hlist : model.queue ++ model.fresh = f :: (queue ++ fresh))
    (htracks : Tracks frames pmm' queue fresh) (hf : Issued frames pmm'.stage6a f)
    (hmono : ∀ g, Issued frames pmm.stage6a g → Issued frames pmm'.stage6a g) :
    Encodes frames (calls ++ [.alloc (some physAddr)]) pmm' ⟨queue, fresh⟩ := by
  have hresult : (stage6bPmmAllocFrame frames pmm (some out)).accepted = true := by rw [heq]
  have hcount := alloc_counted h.tracks.cursor.initialized out hresult
  refine ⟨htracks, fun g hg hq hfresh => ?_, fun hbound => ?_⟩
  · by_cases hgf : g = f
    · subst hgf
      exact hf
    · have hnot : g ∉ model.queue ++ model.fresh := by
        simp only [hlist, List.mem_cons, List.mem_append, not_or]
        exact ⟨hgf, hq, hfresh⟩
      simp only [List.mem_append, not_or] at hnot
      exact hmono g (h.issued g hg hnot.1 hnot.2)
  · simp only [heq] at hcount
    simp only [successes_append, succeeds, if_true] at hbound ⊢
    rw [hcount]
    exact addClampU64_succ hbound (h.counted (by omega))

theorem addr_eq {physAddr : UInt64} {f : ℕ} (h : physAddr.toNat = 4096 * f) :
    UInt64.ofNat (4096 * f) = physAddr := by
  rw [← h, UInt64.ofNat_toNat]

theorem Encodes.alloc (h : Encodes frames calls pmm model) (ht : SoundTable frames)
    (out : UInt64) :
    ∃ model', model.respond frames .alloc =
        (.alloc (stage6bPmmAllocFrame frames pmm (some out)).result, model') ∧
      Encodes frames (calls ++ [.alloc (stage6bPmmAllocFrame frames pmm (some out)).result])
        (stage6bPmmAllocFrame frames pmm (some out)).pmm model' := by
  obtain ⟨queue, fresh⟩ := model
  have htracks := h.tracks
  cases queue with
  | cons f queue =>
    obtain ⟨physAddr, pmm', heq, haddr, htracks', hissued, hmono⟩ := htracks.allocReused ht out
    have hnext := h.taken heq rfl htracks' hissued hmono
    refine ⟨⟨queue, fresh⟩, ?_, ?_⟩
    · simp only [QueueModel.respond, QueueModel.alloc, heq, Reply.result, if_true, Option.map_some,
        addr_eq haddr]
    · simpa only [heq, Reply.result, if_true] using hnext
  | nil =>
    have hfresh := htracks.allocFresh out
    cases fresh with
    | cons f fresh =>
      obtain ⟨physAddr, pmm', heq, haddr, htracks', hissued, hmono⟩ := htracks.takeFresh ht out
      simp only [← hfresh] at heq
      have hnext := h.taken heq rfl htracks' hissued hmono
      refine ⟨⟨[], fresh⟩, ?_, ?_⟩
      · simp only [QueueModel.respond, QueueModel.alloc, heq, Reply.result, if_true,
          Option.map_some, addr_eq haddr]
      · simpa only [heq, Reply.result, if_true] using hnext
    | nil =>
      obtain ⟨state, heq, htracks', _, hcount, _, hmono⟩ := htracks.takeFresh_none ht out
      simp only [← hfresh] at heq
      refine ⟨⟨[], []⟩, ?_, ?_⟩
      · simp [QueueModel.respond, QueueModel.alloc, heq, Reply.result]
      · simp only [heq, Reply.result, Bool.false_eq_true, if_false]
        refine ⟨htracks', fun f hf hq hn => hmono f (h.issued f hf hq hn), fun hbound => ?_⟩
        simp only [successes_append, succeeds, Bool.false_eq_true, if_false, Nat.add_zero]
          at hbound ⊢
        simpa only [hcount] using h.counted hbound

/-- The verdict of a free is the test of the model. -/
theorem Encodes.takes_iff (h : Encodes frames calls pmm model) (ht : SoundTable frames)
    (physAddr : UInt64) :
    (stage6cPmmFreeFrame frames pmm physAddr).1 = true ↔ model.Takes frames physAddr := by
  rw [h.tracks.free_accepted ht, QueueModel.Takes, ← mem_cover_spans]
  constructor
  · rintro ⟨haligned, hmem, hissued, hqueue, hroom⟩
    exact ⟨haligned, hqueue, h.tracks.cursor.not_mem_of_issued hissued, hmem, hroom⟩
  · rintro ⟨haligned, hqueue, hfresh, hmem, hroom⟩
    exact ⟨haligned, hmem, h.issued _ hmem hqueue hfresh, hqueue, hroom⟩

theorem Encodes.free (h : Encodes frames calls pmm model) (ht : SoundTable frames)
    (physAddr : UInt64) :
    ∃ model', model.respond frames (.free physAddr) =
        (.free physAddr (stage6cPmmFreeFrame frames pmm physAddr).1, model') ∧
      Encodes frames (calls ++ [.free physAddr (stage6cPmmFreeFrame frames pmm physAddr).1])
        (stage6cPmmFreeFrame frames pmm physAddr).2 model' := by
  have hiff := h.takes_iff ht physAddr
  obtain ⟨hreject, haccept⟩ := h.tracks.free ht physAddr
  have hcalls : ∀ accepted, successes (calls ++ [.free physAddr accepted]) = successes calls := by
    simp [successes_append, succeeds]
  cases hverdict : (stage6cPmmFreeFrame frames pmm physAddr).1 with
  | false =>
    have hnot : ¬ model.Takes frames physAddr := by
      rw [← hiff, hverdict]
      exact Bool.false_ne_true
    refine ⟨model, by simp only [QueueModel.respond, QueueModel.free, if_neg hnot], ?_⟩
    simp only [hreject hverdict]
    exact ⟨h.tracks, h.issued, by simpa only [hcalls] using h.counted⟩
  | true =>
    obtain ⟨htracks, hissued⟩ := haccept hverdict
    have hcount : (stage6cPmmFreeFrame frames pmm physAddr).2.stage6a.allocationCount =
        pmm.stage6a.allocationCount := by
      simp only [stage6cPmmFreeFrame]
      split_ifs <;> rfl
    refine ⟨⟨model.queue ++ [frameOf physAddr], model.fresh⟩,
      by simp only [QueueModel.respond, QueueModel.free, if_pos (hiff.mp hverdict)],
      htracks, fun f hf hq hn => ?_, by simpa only [hcalls, hcount] using h.counted⟩
    simp only [List.mem_append, not_or] at hq
    exact (hissued f).mpr (h.issued f hf hq.1 hn)

theorem Encodes.agrees (h : Encodes frames calls pmm model) (hasc : Ascending frames.spans)
    (ht : SoundTable frames) : Agrees calls pmm model := by
  have hsurplus := (surplus_eq_zero_iff ht).mpr hasc
  refine ⟨by simpa only [hsurplus, Nat.add_zero] using h.tracks.remaining,
    h.tracks.queue_length.symm, fun i hi => ?_, h.counted⟩
  have hi' : i < pmm.pendingFreeCount.toNat := by rwa [← h.tracks.queue_length]
  simp only [← h.tracks.queue_eq, pendingFrames, List.getElem_map, List.getElem_range]

theorem allocator_refines_reference (kernelEnd : UInt32) (entries : List Multiboot2MmapEntry)
    (frames : Stage5cFrameBookkeeping) (built : TableBuilt kernelEnd entries frames)
    (ascending : Ascending frames.spans) (calls : List PmmCall) (pmm : Pmm)
    (run : PmmRun frames calls pmm) :
    (allFrames frames).Pairwise (· < ·) ∧
    (∃ model, replay (QueueModel.respond frames) (.start frames)
        (calls.map requestOf) = (calls, model) ∧ Agrees calls pmm model) ∧
    ∀ physAddr, (stage6cPmmFreeFrame frames pmm physAddr).1 = false →
      (stage6cPmmFreeFrame frames pmm physAddr).2 = pmm := by
  have ht := built.sound
  obtain ⟨model, heq, h⟩ : ∃ model, replay (QueueModel.respond frames) (.start frames)
      (calls.map requestOf) = (calls, model) ∧ Encodes frames calls pmm model :=
    run.refines (seeded_encodes ht ascending) fun calls s call t model h hs => by
      cases hs with
      | alloc out => exact h.alloc ht out
      | free physAddr => exact h.free ht physAddr
  refine ⟨?_, ⟨model, heq, h.agrees ascending ht⟩, fun physAddr => (h.tracks.free ht physAddr).1⟩
  simpa only [allFrames_eq ascending] using Sweep.sweep_increasing frames.spans 0

/-- Two frames are allocated, the first one is freed and comes back. -/
theorem allocator_refines_reference_smallMap : ∃ model,
    replay (QueueModel.respond smallMapFrames) (.start smallMapFrames)
      ((serve smallMapFrames (seeded smallMapFrames)
        [.alloc, .alloc, .free 0x120000, .alloc]).1.map requestOf) =
      ((serve smallMapFrames (seeded smallMapFrames)
        [.alloc, .alloc, .free 0x120000, .alloc]).1, model) := by
  obtain ⟨model, heq, _⟩ := (allocator_refines_reference 0x11F800 smallMap smallMapFrames
    tableBuilt_smallMap (by decide) _ _
    (serve_run smallMapFrames [.alloc, .alloc, .free 0x120000, .alloc])).2.1
  exact ⟨model, heq⟩

end FrameReference
