import CustomOs.FrameConservation
import CustomOs.FrameOwnership

/-! # Reuse self-test (Stage 6D)
The test takes two frames, gives them back and takes them again. It finds no fault in the
allocator, but it passes in some of its states only. -/
namespace ReuseSelfTest

open MemoryMap FrameEligibility PhysicalFrames PhysicalFrameTracking FrameOwnership
open KernelMemory (nextFrames)

/-- The address that is written, if any, and whether there is a place for it. -/
def stage6cPmmGetPendingFreeFrames (pmm : Pmm) : Option UInt64 → Bool × Option UInt64
  | none => (false, none)
  | some _ => (true, some pmm.pendingFreeCount)

/-- The verdicts, by the names under which they are printed. -/
structure ReuseChecks where
  allocAB : Bool
  freeAAccept : Bool
  freeBAccept : Bool
  duplicateFreeReject : Bool
  neverIssuedReject : Bool
  pendingCountAfterFree : Bool
  fifoReuseOrder : Bool
  pendingDrained : Bool
  deriving DecidableEq, Repr

def ReuseChecks.overall (c : ReuseChecks) : Bool :=
  c.allocAB && c.freeAAccept && c.freeBAccept && c.duplicateFreeReject && c.neverIssuedReject &&
    c.pendingCountAfterFree && c.fifoReuseOrder && c.pendingDrained

/-- Two allocations, the second only when the first succeeds. A variable that is not written
stays 0. -/
def allocPair (frames : Stage5cFrameBookkeeping) (pmm : Pmm) : Bool × UInt64 × UInt64 × Pmm :=
  let first := stage6bPmmAllocFrame frames pmm (some 0)
  if first.accepted then
    let second := stage6bPmmAllocFrame frames first.pmm (some 0)
    (second.accepted, first.out.getD 0, second.out.getD 0, second.pmm)
  else (false, first.out.getD 0, 0, first.pmm)

/-- The frame under the cursor is given back although it was never taken. -/
def freeNeverIssued (frames : Stage5cFrameBookkeeping) (pmm : Pmm) : Bool × Pmm :=
  let state := stage6aPmmAdvanceToNextEligible frames pmm.stage6a
  let pmm := { pmm with stage6a := state }
  if state.rangeIndex < frames.ranges.length ∧
      state.nextFrameIndex ≤ uint64Max >>> stage5cFrameShift then
    let reply := stage6cPmmFreeFrame frames pmm (state.nextFrameIndex <<< stage5cFrameShift)
    (!reply.1, reply.2)
  else (false, pmm)

def stage6dRunReuseSelfTest (frames : Stage5cFrameBookkeeping) (pmm : Pmm) : ReuseChecks × Pmm :=
  let (allocated, allocA, allocB, pmm) := allocPair frames pmm
  let (freeA, pmm) := stage6cPmmFreeFrame frames pmm allocA
  let (freeB, pmm) := stage6cPmmFreeFrame frames pmm allocB
  let (duplicate, pmm) := stage6cPmmFreeFrame frames pmm allocA
  let (neverIssued, pmm) := freeNeverIssued frames pmm
  let pending := stage6cPmmGetPendingFreeFrames pmm (some 0)
  let (reallocated, reuseA, reuseB, pmm) := allocPair frames pmm
  let drained := stage6cPmmGetPendingFreeFrames pmm (some 0)
  (⟨allocated && allocA ≠ allocB, freeA, freeB, !duplicate, neverIssued,
    pending.1 && pending.2 = some 2, reallocated && reuseA = allocA && reuseB = allocB,
    drained.1 && drained.2 = some 0⟩, pmm)

section Calls

variable {frames : Stage5cFrameBookkeeping} {pmm : Pmm} {queue fresh : List ℕ}

/-- Moving the cursor shows the first fresh frame, or that there is none. -/
theorem advanced (h : Tracks frames pmm queue fresh) (ht : SoundTable frames) :
    ∃ state, stage6aPmmAdvanceToNextEligible frames pmm.stage6a = state ∧
      Tracks frames { pmm with stage6a := state } queue fresh ∧
      (∀ g, Issued frames pmm.stage6a g → Issued frames state g) ∧
      match fresh with
      | [] => frames.ranges.length ≤ state.rangeIndex
      | f :: _ => state.rangeIndex < frames.ranges.length ∧ state.nextFrameIndex.toNat = f := by
  obtain ⟨i, next, heq, hcursor, hin, hmono⟩ := h.cursor.advance ht
  have hlen : frames.spans.length = frames.ranges.length := by
    simp [Stage5cFrameBookkeeping.spans]
  refine ⟨_, heq, ⟨hcursor, h.count_le, h.queue_eq, h.queue_nodup, h.queue_mem,
    fun g hg => hmono g (h.queue_issued g hg), h.remaining⟩, hmono, ?_⟩
  by_cases hi : i < frames.spans.length
  · have hget : frames.spans[i]? = some frames.spans[i] := List.getElem?_eq_getElem hi
    obtain ⟨rest, rfl, -⟩ := hcursor.take hget (hin _ hget) (ht.good _ (List.getElem_mem hi)) 0 0
    exact ⟨hlen ▸ hi, rfl⟩
  · have hempty : fresh = [] := by
      rw [← hcursor.fresh_eq, List.drop_eq_nil_of_le (Nat.le_of_not_lt hi)]
      rfl
    subst hempty
    exact hlen ▸ Nat.le_of_not_lt hi

/-- A frame that was never taken is not taken back. -/
theorem freeNeverIssued_spec (h : Tracks frames pmm queue fresh) (ht : SoundTable frames) :
    ∃ pmm', freeNeverIssued frames pmm = (decide (fresh ≠ []), pmm') ∧
      Tracks frames pmm' queue fresh ∧
      ∀ g, Issued frames pmm.stage6a g → Issued frames pmm'.stage6a g := by
  obtain ⟨state, hstate, htracks, hmono, hfirst⟩ := advanced h ht
  refine ⟨{ pmm with stage6a := state }, ?_, htracks, hmono⟩
  cases fresh with
  | nil =>
    have hpast : ¬ state.rangeIndex < frames.ranges.length := Nat.not_lt.mpr hfirst
    simp [freeNeverIssued, hstate, hpast]
  | cons f rest =>
    obtain ⟨hinside, rfl⟩ := hfirst
    have hlow := htracks.cursor.next_lt
    have hlimit := UInt64.not_lt.mp (frameLimit_not_lt hlow)
    have hframe : frameOf (state.nextFrameIndex <<< stage5cFrameShift) =
        state.nextFrameIndex.toNat := frameOf_eq (frameShift_left hlow)
    have hrefused : (stage6cPmmFreeFrame frames { pmm with stage6a := state }
        (state.nextFrameIndex <<< stage5cFrameShift)).1 = false := by
      rw [← Bool.not_eq_true, htracks.free_accepted ht]
      rintro ⟨-, -, hissued, -⟩
      rw [hframe] at hissued
      exact htracks.cursor.not_mem_of_issued hissued List.mem_cons_self
    have hkept := (htracks.free ht _).1 hrefused
    simp [freeNeverIssued, hstate, hinside, hlimit, hrefused, hkept]

theorem alloc_head (h : Tracks frames pmm queue fresh) (ht : SoundTable frames) {f : ℕ}
    {rest : List ℕ} (hlist : queue ++ fresh = f :: rest) :
    ∃ addr pmm' fresh', stage6bPmmAllocFrame frames pmm (some 0) = ⟨true, some addr, pmm'⟩ ∧
      addr.toNat = 4096 * f ∧ queue.tail ++ fresh' = rest ∧
      Tracks frames pmm' queue.tail fresh' ∧ Issued frames pmm'.stage6a f ∧
      ∀ g, Issued frames pmm.stage6a g → Issued frames pmm'.stage6a g := by
  cases queue with
  | cons q queue =>
    obtain ⟨rfl, rfl⟩ := List.cons.inj hlist
    obtain ⟨addr, pmm', heq, haddr, htracks, hissued, hmono⟩ := h.allocReused ht 0
    exact ⟨addr, pmm', fresh, heq, haddr, rfl, htracks, hissued, hmono⟩
  | nil =>
    obtain rfl : fresh = f :: rest := hlist
    obtain ⟨addr, pmm', heq, haddr, htracks, hissued, hmono⟩ := h.takeFresh ht 0
    exact ⟨addr, pmm', rest, (h.allocFresh 0).trans heq, haddr, rfl, htracks, hissued, hmono⟩

theorem allocPair_some (h : Tracks frames pmm queue fresh) (ht : SoundTable frames) {a b : ℕ}
    {rest : List ℕ} (hlist : queue ++ fresh = a :: b :: rest) :
    ∃ addrA addrB pmm' fresh', allocPair frames pmm = (true, addrA, addrB, pmm') ∧
      addrA.toNat = 4096 * a ∧ addrB.toNat = 4096 * b ∧ queue.tail.tail ++ fresh' = rest ∧
      Tracks frames pmm' queue.tail.tail fresh' ∧ Issued frames pmm'.stage6a a ∧
      Issued frames pmm'.stage6a b := by
  obtain ⟨addrA, first, fresh₁, hfirst, haddrA, hrest, htracks, hissuedA, -⟩ := alloc_head h ht hlist
  obtain ⟨addrB, second, fresh₂, hsecond, haddrB, hrest', htracks', hissuedB, hmono⟩ :=
    alloc_head htracks ht hrest
  refine ⟨addrA, addrB, second, fresh₂, ?_, haddrA, haddrB, hrest', htracks',
    hmono a hissuedA, hissuedB⟩
  simp [allocPair, hfirst, hsecond]

theorem allocPair_none (h : Tracks frames pmm queue fresh) (ht : SoundTable frames)
    (hshort : (queue ++ fresh).length < 2) : (allocPair frames pmm).1 = false := by
  rcases h.alloc ht 0 with
    ⟨f, addr, pmm', queue', fresh', heq, -, hlist, htracks, -⟩ | ⟨-, -, state, heq, -⟩
  · rw [hlist, List.length_cons] at hshort
    have hempty : queue' ++ fresh' = [] := List.length_eq_zero_iff.mp (by omega)
    rcases htracks.alloc ht 0 with ⟨g, _, _, _, _, -, -, hcons, -⟩ | ⟨-, -, state, heq', -⟩
    · rw [hempty] at hcons
      cases hcons
    · simp [allocPair, heq, heq']
  · simp [allocPair, heq]

theorem free_issued (h : Tracks frames pmm queue fresh) (ht : SoundTable frames) {addr : UInt64}
    {f : ℕ} (haddr : addr.toNat = 4096 * f) (hmem : f ∈ Sweep.cover frames.spans)
    (hissued : Issued frames pmm.stage6a f) (hnot : f ∉ queue) (hroom : queue.length < 64) :
    ∃ pmm', stage6cPmmFreeFrame frames pmm addr = (true, pmm') ∧
      Tracks frames pmm' (queue ++ [f]) fresh ∧
      ∀ g, Issued frames pmm.stage6a g → Issued frames pmm'.stage6a g := by
  obtain rfl := frameOf_eq haddr
  have haccept := (h.free_accepted ht addr).mpr ⟨by omega, hmem, hissued, hnot, hroom⟩
  obtain ⟨htracks, hiff⟩ := (h.free ht addr).2 haccept
  refine ⟨_, Prod.ext haccept rfl, htracks, ?_⟩
  intro g hg
  exact (hiff g).mpr hg

theorem free_waiting (h : Tracks frames pmm queue fresh) (ht : SoundTable frames) {addr : UInt64}
    {f : ℕ} (haddr : addr.toNat = 4096 * f) (hin : f ∈ queue) :
    stage6cPmmFreeFrame frames pmm addr = (false, pmm) := by
  obtain rfl := frameOf_eq haddr
  have hrefused : (stage6cPmmFreeFrame frames pmm addr).1 = false := by
    rw [← Bool.not_eq_true, h.free_accepted ht]
    rintro ⟨-, -, -, hnot, -⟩
    exact hnot hin
  exact Prod.ext hrefused ((h.free ht addr).1 hrefused)

/-- What the test finds and leaves when it gets its two frames. -/
theorem selfTest_finds (h : Tracks frames pmm queue fresh) (ht : SoundTable frames) {a b : ℕ}
    {rest : List ℕ} (hlist : queue ++ fresh = a :: b :: rest) :
    ((stage6dRunReuseSelfTest frames pmm).1.overall = true ↔
      queue.tail.tail = [] ∧ rest ≠ []) ∧
    ((stage6dRunReuseSelfTest frames pmm).1.overall = true →
      nextFrames frames (stage6dRunReuseSelfTest frames pmm).2 = rest) := by
  obtain ⟨addrA, addrB, taken, fresh', hpair, haddrA, haddrB, hrest, htaken, hissuedA, hissuedB⟩ :=
    allocPair_some h ht hlist
  have hlength := h.count_le
  rw [← h.queue_length] at hlength
  have hroom : queue.tail.tail.length = queue.length - 1 - 1 := by simp
  have hnodup := h.nodup
  rw [hlist, ← hrest, List.nodup_cons, List.nodup_cons] at hnodup
  obtain ⟨hnotA, hnotB, -⟩ := hnodup
  simp only [List.mem_cons, List.mem_append, not_or] at hnotA hnotB
  have hmemA : a ∈ Sweep.cover frames.spans := h.mem_cover (hlist ▸ List.mem_cons_self)
  have hmemB : b ∈ Sweep.cover frames.spans :=
    h.mem_cover (hlist ▸ List.mem_cons_of_mem _ List.mem_cons_self)
  obtain ⟨freedA, hfreeA, htracksA, hmono⟩ :=
    free_issued htaken ht haddrA hmemA hissuedA hnotA.2.1 (by omega)
  have hnotB' : b ∉ queue.tail.tail ++ [a] := by
    simp only [List.mem_append, List.mem_singleton, not_or]
    exact ⟨hnotB.1, Ne.symm hnotA.1⟩
  obtain ⟨freedB, hfreeB, htracksB, -⟩ :=
    free_issued htracksA ht haddrB hmemB (hmono b hissuedB) hnotB' (by simp; omega)
  have hagain := free_waiting htracksB ht haddrA (by simp)
  obtain ⟨tried, htried, htracks, -⟩ := freeNeverIssued_spec htracksB ht
  have hdiffer : addrA ≠ addrB := by
    rintro rfl
    omega
  have hcount := htracks.queue_length
  by_cases htwo : queue.tail.tail = []
  · rw [htwo] at htracks hcount hrest
    have hpending : tried.pendingFreeCount = 2 := UInt64.toNat_inj.mp hcount.symm
    obtain rfl : fresh' = rest := hrest
    have hlist' : [] ++ [a] ++ [b] ++ fresh' = a :: b :: fresh' := rfl
    obtain ⟨addrA', addrB', last, fresh'', hpair', haddrA', haddrB', hfresh, hlast, -, -⟩ :=
      allocPair_some htracks ht hlist'
    obtain rfl : addrA' = addrA := UInt64.toNat_inj.mp (haddrA'.trans haddrA.symm)
    obtain rfl : addrB' = addrB := UInt64.toNat_inj.mp (haddrB'.trans haddrB.symm)
    obtain rfl : fresh'' = fresh' := hfresh
    have hdrained : last.pendingFreeCount = 0 := UInt64.toNat_inj.mp hlast.queue_length.symm
    have hnext : nextFrames frames last = fresh'' := FrameConservation.nextFrames_eq hlast
    simp [stage6dRunReuseSelfTest, ReuseChecks.overall, stage6cPmmGetPendingFreeFrames, hpair,
      hfreeA, hfreeB, hagain, htried, hpair', hdiffer, hpending, hdrained, hnext, htwo]
  · -- A frame was waiting behind the two, so the count of two is missed.
    have hpositive : 0 < queue.tail.tail.length := List.length_pos_iff.mpr htwo
    have hpending : tried.pendingFreeCount ≠ 2 := by
      intro htwo'
      rw [htwo'] at hcount
      simp only [List.length_append, List.length_singleton] at hcount
      have h2 : (2 : UInt64).toNat = 2 := rfl
      omega
    simp [stage6dRunReuseSelfTest, ReuseChecks.overall, stage6cPmmGetPendingFreeFrames, hpair,
      hfreeA, hfreeB, hagain, htried, hpending, htwo]

end Calls

/-- In every state the allocator can be in, the test passes just when at most two frames wait to
be reused and at least three are left; it keeps the two it has taken. -/
theorem reuse_test_exact (kernelEnd : UInt32) (entries : List Multiboot2MmapEntry)
    (frames : Stage5cFrameBookkeeping) (built : TableBuilt kernelEnd entries frames)
    (calls : List PmmCall) (pmm : Pmm) (run : PmmRun frames calls pmm) :
    ((stage6dRunReuseSelfTest frames pmm).1.overall = true ↔
      pmm.pendingFreeCount.toNat ≤ 2 ∧ 3 ≤ (nextFrames frames pmm).length) ∧
    ((stage6dRunReuseSelfTest frames pmm).1.overall = true →
      nextFrames frames (stage6dRunReuseSelfTest frames pmm).2 = (nextFrames frames pmm).drop 2) := by
  have ht := built.sound
  obtain ⟨queue, fresh, hledger⟩ := ledger_of_run ht run
  have h := hledger.tracks
  rw [FrameConservation.nextFrames_eq h, ← h.queue_length]
  match hlist : queue ++ fresh with
  | [] | [_] =>
    have hfails := allocPair_none h ht (by rw [hlist]; simp)
    have hoverall : (stage6dRunReuseSelfTest frames pmm).1.overall = false := by
      simp [stage6dRunReuseSelfTest, ReuseChecks.overall, hfails]
    simp [hoverall]
  | a :: b :: rest =>
    obtain ⟨hiff, hleft⟩ := selfTest_finds h ht hlist
    refine ⟨?_, hleft⟩
    rw [hiff, ← List.length_eq_zero_iff, ← List.length_pos_iff]
    simp only [List.length_tail, List.length_cons]
    omega

/-- Three frames are waiting: the test fails, and nothing is wrong with the allocator. -/
theorem reuse_test_exact_threeWaiting :
    (stage6dRunReuseSelfTest smallMapFrames (serve smallMapFrames (seeded smallMapFrames)
      [.alloc, .alloc, .alloc, .free 0x120000, .free 0x121000, .free 0x122000]).2).1.overall ≠
      true := by
  intro hpasses
  have hwaiting := ((reuse_test_exact 0x11F800 smallMap smallMapFrames tableBuilt_smallMap _ _
    (serve_run smallMapFrames
      [.alloc, .alloc, .alloc, .free 0x120000, .free 0x121000, .free 0x122000])).1.mp hpasses).1
  exact absurd hwaiting (by decide +kernel)

end ReuseSelfTest
