import CustomOs.PhysicalFrameTracking

/-! # Exclusive ownership of frames
The history of the calls fixes which frames are out with a client. `Ledger` says that these,
the waiting and the fresh frames never meet, and that no frame a sweep reaches is lost. -/
namespace FrameOwnership

open Sweep (Span cover sweep)
open MemoryMap FrameEligibility PhysicalFrames PhysicalFrameTracking

variable {frames : Stage5cFrameBookkeeping} {calls : List PmmCall} {pmm pmm' : Pmm}
  {queue fresh : List ℕ} {call : PmmCall}

structure Ledger (frames : Stage5cFrameBookkeeping) (calls : List PmmCall) (pmm : Pmm)
    (queue fresh : List ℕ) : Prop where
  tracks : Tracks frames pmm queue fresh
  out_mem : ∀ f ∈ handedOut calls, f ∈ cover frames.spans
  out_issued : ∀ f ∈ handedOut calls, Issued frames pmm.stage6a f
  out_queue : ∀ f ∈ handedOut calls, f ∉ queue
  conserved : ∀ f ∈ sweep frames.spans 0, f ∈ handedOut calls ∨ f ∈ queue ++ fresh

theorem Ledger.out_free (h : Ledger frames calls pmm queue fresh) :
    ∀ f ∈ handedOut calls, f ∉ queue ++ fresh := by
  intro f hf hmem
  rcases List.mem_append.mp hmem with hq | hq
  · exact h.out_queue f hf hq
  · exact h.tracks.cursor.not_mem_of_issued (h.out_issued f hf) hq

theorem frameOf_eq {physAddr : UInt64} {f : ℕ} (h : physAddr.toNat = 4096 * f) :
    frameOf physAddr = f := by
  rw [frameOf]
  omega

theorem ledger_seeded (ht : SoundTable frames) :
    Ledger frames [] (seeded frames) [] (sweep frames.spans 0) :=
  ⟨seeded_tracks ht, by simp [handedOut], by simp [handedOut], by simp [handedOut],
    fun _ hf => Or.inr hf⟩

/-- An allocation moves the next frame from the free ones to the handed out ones. -/
theorem Ledger.allocated (h : Ledger frames calls pmm queue fresh) {physAddr : UInt64}
    {queue' fresh' : List ℕ} (htracks : Tracks frames pmm' queue' fresh')
    (hlist : queue ++ fresh = frameOf physAddr :: (queue' ++ fresh'))
    (hissued : Issued frames pmm'.stage6a (frameOf physAddr))
    (hmono : ∀ g, Issued frames pmm.stage6a g → Issued frames pmm'.stage6a g) :
    Ledger frames (calls ++ [.alloc (some physAddr)]) pmm' queue' fresh' := by
  have hnodup := h.tracks.nodup
  have hin : frameOf physAddr ∈ queue ++ fresh := by
    rw [hlist]
    exact List.mem_cons_self
  rw [hlist, List.nodup_cons] at hnodup
  refine ⟨htracks, ?_, ?_, ?_, ?_⟩ <;> rw [handedOut_append, handOut]
  · intro g hg
    rcases Finset.mem_insert.mp hg with rfl | hg
    · exact h.tracks.mem_cover hin
    · exact h.out_mem g hg
  · intro g hg
    rcases Finset.mem_insert.mp hg with rfl | hg
    · exact hissued
    · exact hmono g (h.out_issued g hg)
  · intro g hg hq
    rcases Finset.mem_insert.mp hg with rfl | hg
    · exact hnodup.1 (List.mem_append_left _ hq)
    · apply h.out_free g hg
      rw [hlist]
      exact List.mem_cons_of_mem _ (List.mem_append_left _ hq)
  · intro g hg
    rcases h.conserved g hg with hout | hin
    · exact Or.inl (Finset.mem_insert_of_mem hout)
    · rw [hlist] at hin
      rcases List.mem_cons.mp hin with rfl | hin
      · exact Or.inl (Finset.mem_insert_self _ _)
      · exact Or.inr hin

/-- A free moves its frame from the handed out ones to the end of the queue. -/
theorem Ledger.freed (h : Ledger frames calls pmm queue fresh) {physAddr : UInt64}
    (htracks : Tracks frames pmm' (queue ++ [frameOf physAddr]) fresh)
    (hissued : ∀ g, Issued frames pmm'.stage6a g ↔ Issued frames pmm.stage6a g) :
    Ledger frames (calls ++ [.free physAddr true]) pmm' (queue ++ [frameOf physAddr]) fresh := by
  refine ⟨htracks, ?_, ?_, ?_, ?_⟩ <;> rw [handedOut_append, handOut]
  · exact fun g hg => h.out_mem g (Finset.mem_of_mem_erase hg)
  · exact fun g hg => (hissued g).mpr (h.out_issued g (Finset.mem_of_mem_erase hg))
  · intro g hg hq
    rcases List.mem_append.mp hq with hq | hq
    · exact h.out_queue g (Finset.mem_of_mem_erase hg) hq
    · exact Finset.ne_of_mem_erase hg (List.mem_singleton.mp hq)
  · intro g hg
    by_cases hgf : g = frameOf physAddr
    · subst hgf
      exact Or.inr (by simp)
    · rcases h.conserved g hg with hout | hin
      · exact Or.inl (Finset.mem_erase.mpr ⟨hgf, hout⟩)
      · right
        rcases List.mem_append.mp hin with hin | hin
        · exact List.mem_append_left _ (List.mem_append_left _ hin)
        · exact List.mem_append_right _ hin

/-- A call that hands nothing out and takes nothing back. -/
theorem Ledger.idle (h : Ledger frames calls pmm queue fresh)
    (hidle : handedOut (calls ++ [call]) = handedOut calls)
    (htracks : Tracks frames pmm' queue fresh)
    (hmono : ∀ g, Issued frames pmm.stage6a g → Issued frames pmm'.stage6a g) :
    Ledger frames (calls ++ [call]) pmm' queue fresh := by
  refine ⟨htracks, ?_, ?_, ?_, ?_⟩ <;> rw [hidle]
  · exact h.out_mem
  · exact fun g hg => hmono g (h.out_issued g hg)
  · exact h.out_queue
  · exact h.conserved

/-- What a step does to the ledger, with what a successful allocation returns. -/
theorem Ledger.step (h : Ledger frames calls pmm queue fresh) (ht : SoundTable frames)
    (hs : PmmStep frames pmm call pmm') :
    (∃ queue' fresh', Ledger frames (calls ++ [call]) pmm' queue' fresh') ∧
    ∀ physAddr, call = .alloc (some physAddr) →
      physAddr.toNat % 4096 = 0 ∧ frameOf physAddr ∈ queue ++ fresh := by
  cases hs with
  | alloc out =>
    rcases h.tracks.alloc ht out with
      ⟨f, physAddr, pmm', queue', fresh', heq, haddr, hlist, htracks, hissued, hmono⟩ |
      ⟨rfl, rfl, state, heq, htracks, _, hmono⟩
    · obtain rfl := frameOf_eq haddr
      rw [heq]
      simp only [Reply.result, if_true]
      refine ⟨⟨queue', fresh', h.allocated htracks hlist hissued hmono⟩, ?_⟩
      intro a ha
      obtain rfl : physAddr = a := by simpa using ha
      rw [hlist]
      exact ⟨by omega, List.mem_cons_self⟩
    · rw [heq]
      simp only [Reply.result, Bool.false_eq_true, if_false]
      exact ⟨⟨[], [], h.idle (handedOut_append _ _) htracks hmono⟩, by simp⟩
  | free physAddr =>
    obtain ⟨hreject, haccept⟩ := h.tracks.free ht physAddr
    refine ⟨?_, by simp⟩
    cases hverdict : (stage6cPmmFreeFrame frames pmm physAddr).1 with
    | false =>
      rw [hreject hverdict]
      exact ⟨queue, fresh, h.idle (handedOut_append _ _) h.tracks fun _ hg => hg⟩
    | true =>
      obtain ⟨htracks, hissued⟩ := haccept hverdict
      exact ⟨_, fresh, h.freed htracks hissued⟩

theorem ledger_of_run (ht : SoundTable frames) (hrun : PmmRun frames calls pmm) :
    ∃ queue fresh, Ledger frames calls pmm queue fresh :=
  hrun.invariant (I := fun calls pmm => ∃ queue fresh, Ledger frames calls pmm queue fresh)
    ⟨_, _, ledger_seeded ht⟩ fun _ _ _ _ ⟨_, _, h⟩ hs => (h.step ht hs).1

/-- Every allocation of a run returns the address of a stored frame that is not out. -/
theorem alloc_of_run (ht : SoundTable frames) {physAddr : UInt64}
    (hrun : PmmRun frames (calls ++ [.alloc (some physAddr)]) pmm) :
    physAddr.toNat % 4096 = 0 ∧ frameOf physAddr ∈ cover frames.spans ∧
      frameOf physAddr ∉ handedOut calls := by
  obtain ⟨before, hbefore, hstep⟩ := hrun.last
  obtain ⟨queue, fresh, hledger⟩ := ledger_of_run ht hbefore
  obtain ⟨halign, hmem⟩ := (hledger.step ht hstep).2 physAddr rfl
  exact ⟨halign, hledger.tracks.mem_cover hmem, fun hout => hledger.out_free _ hout hmem⟩

/-- A frame that is out stays out until an accepted free takes it back. -/
theorem handedOut_persists {f : ℕ} (before during : List PmmCall) (h : f ∈ handedOut before)
    (kept : ∀ physAddr, .free physAddr true ∈ during → frameOf physAddr ≠ f) :
    f ∈ handedOut (before ++ during) := by
  induction during using List.reverseRecOn with
  | nil => simpa using h
  | append_singleton during call ih =>
    have hprev := ih fun a ha => kept a (List.mem_append_left _ ha)
    rw [← List.append_assoc, handedOut_append]
    cases call with
    | alloc result =>
      cases result with
      | none => exact hprev
      | some a => exact Finset.mem_insert_of_mem hprev
    | free a accepted =>
      cases accepted with
      | false => exact hprev
      | true => exact Finset.mem_erase.mpr ⟨(kept a (by simp)).symm, hprev⟩

/-- Two allocations of one frame have an accepted free of it between them. -/
def OwnedOnce (calls : List PmmCall) : Prop :=
  ∀ before a during b after,
    calls = before ++ .alloc (some a) :: (during ++ .alloc (some b) :: after) →
    frameOf a = frameOf b → ∃ c, .free c true ∈ during ∧ frameOf c = frameOf a

theorem ownedOnce_of_run (ht : SoundTable frames) (hrun : PmmRun frames calls pmm) :
    OwnedOnce calls := by
  rintro before a during b after rfl hsame
  by_contra hnone
  have hsplit : before ++ .alloc (some a) :: (during ++ .alloc (some b) :: after) =
      (before ++ [.alloc (some a)] ++ during) ++ [.alloc (some b)] ++ after := by
    simp
  rw [hsplit] at hrun
  obtain ⟨_, hprefix, _⟩ := hrun.split
  refine (alloc_of_run ht hprefix).2.2 ?_
  apply handedOut_persists
  · rw [handedOut_append, handOut, hsame]
    exact Finset.mem_insert_self _ _
  · intro c hc heq
    exact hnone ⟨c, hc, heq.trans hsame.symm⟩

theorem exclusive_frame_ownership (kernelEnd : UInt32) (entries : List Multiboot2MmapEntry)
    (frames : Stage5cFrameBookkeeping) (built : TableBuilt kernelEnd entries frames)
    (calls : List PmmCall) (pmm : Pmm) (run : PmmRun frames calls pmm) :
    (∀ physAddr, .alloc (some physAddr) ∈ calls → physAddr.toNat % 4096 = 0 ∧
      ∃ range ∈ frames.ranges, frameOf physAddr ∈ range.span) ∧
    OwnedOnce calls ∧
    (∀ out physAddr, (stage6aPmmTryAllocateFrame frames pmm (some out)).result = some physAddr →
      frameOf physAddr ∉ pendingFrames pmm) ∧
    (pendingFrames pmm).Nodup ∧ (∀ f ∈ pendingFrames pmm, f ∉ handedOut calls) := by
  have ht := built.sound
  obtain ⟨queue, fresh, hledger⟩ := ledger_of_run ht run
  have htracks := hledger.tracks
  rw [htracks.queue_eq]
  refine ⟨?_, ownedOnce_of_run ht run, ?_, htracks.queue_nodup,
    fun f hf hout => hledger.out_queue f hout hf⟩
  · intro physAddr hmem
    obtain ⟨before, after, rfl⟩ := List.append_of_mem hmem
    have hsplit : before ++ PmmCall.alloc (some physAddr) :: after =
        (before ++ [.alloc (some physAddr)]) ++ after := by simp
    rw [hsplit] at run
    obtain ⟨_, hprefix, _⟩ := run.split
    obtain ⟨halign, hcover, _⟩ := alloc_of_run ht hprefix
    exact ⟨halign, mem_cover_spans.mp hcover⟩
  · intro out physAddr hresult hq
    cases fresh with
    | nil =>
      obtain ⟨state, heq, _⟩ := htracks.takeFresh_none ht out
      simp [heq, Reply.result] at hresult
    | cons f fresh =>
      obtain ⟨a, pmm', heq, haddr, _⟩ := htracks.takeFresh ht out
      obtain rfl : a = physAddr := by simpa [heq, Reply.result] using hresult
      rw [frameOf_eq haddr] at hq
      exact htracks.disjoint f hq List.mem_cons_self

/-- Allocating, freeing the frame and allocating it again. -/
theorem exclusive_frame_ownership_smallMap :
    OwnedOnce (serve smallMapFrames (seeded smallMapFrames) [.alloc, .free 0x120000, .alloc]).1 :=
  (exclusive_frame_ownership 0x11F800 smallMap smallMapFrames tableBuilt_smallMap _ _
    (serve_run smallMapFrames [.alloc, .free 0x120000, .alloc])).2.1

end FrameOwnership
