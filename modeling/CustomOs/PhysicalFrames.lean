import CustomOs.Library.Transition
import CustomOs.MemoryMap
import Mathlib.Data.Finset.Basic

/-! # Physical frame allocator (Stages 6A to 6D)
The globals of the allocator are one record, the table built by Stage 5C is an argument. A
pointer argument is the word it points to, `none` when it is null. -/
namespace PhysicalFrames

open MemoryMap

def stage6cMaxPendingFree : ℕ := 64

structure Stage6aPmmState where
  isInitialized : Bool
  rangeIndex : ℕ
  nextFrameIndex : UInt64
  remainingFrameCount : UInt64
  allocationCount : UInt64
  deriving DecidableEq, Repr

/-- `g_stage6a_pmm` and the pending-free queue. -/
structure Pmm where
  stage6a : Stage6aPmmState
  pendingFreeFrames : Vector UInt64 64
  pendingFreeCount : UInt64
  deriving DecidableEq, Repr

/-- What a call leaves behind: its return value, the word behind its pointer, the globals. -/
structure Reply where
  accepted : Bool
  out : Option UInt64
  pmm : Pmm
  deriving DecidableEq, Repr

/-- The state of the globals before the first call. -/
def bootPmm : Pmm := ⟨⟨false, 0, 0, 0, 0⟩, Vector.replicate 64 0, 0⟩

def stage6aPmmResetState (_ : Stage6aPmmState) : Stage6aPmmState := ⟨false, 0, 0, 0, 0⟩

/-- `range_end_frame` as the cursor and the lookup compute it. -/
def rangeEndFrame (range : Stage5cFrameRange) : UInt64 :=
  let (overflow, sum) := checkedAddU64 range.startFrame range.frameCount
  if overflow then uint64Max else sum

/-- The cursor loop over the ranges from `rangeIndex` on. -/
def stage6aAdvanceOver : List Stage5cFrameRange → ℕ → UInt64 → ℕ × UInt64
  | [], rangeIndex, nextFrameIndex => (rangeIndex, nextFrameIndex)
  | range :: rest, rangeIndex, nextFrameIndex =>
    if range.frameCount = 0 then stage6aAdvanceOver rest (rangeIndex + 1) nextFrameIndex
    else
      let nextFrameIndex :=
        if nextFrameIndex < range.startFrame then range.startFrame else nextFrameIndex
      if nextFrameIndex < rangeEndFrame range then (rangeIndex, nextFrameIndex)
      else stage6aAdvanceOver rest (rangeIndex + 1) nextFrameIndex

def stage6aPmmAdvanceToNextEligible (frames : Stage5cFrameBookkeeping)
    (state : Stage6aPmmState) : Stage6aPmmState :=
  let (rangeIndex, nextFrameIndex) :=
    stage6aAdvanceOver (frames.ranges.drop state.rangeIndex) state.rangeIndex
      state.nextFrameIndex
  { state with rangeIndex := rangeIndex, nextFrameIndex := nextFrameIndex }

def stage6aPmmSeedFromStage5c (frames : Stage5cFrameBookkeeping) (pmm : Pmm) : Pmm :=
  let state := { stage6aPmmResetState pmm.stage6a with
    remainingFrameCount := frames.eligibleFrames }
  match frames.ranges with
  | [] => { pmm with stage6a := { state with isInitialized := true } }
  | first :: _ =>
    if frames.eligibleFrames = 0 then
      { pmm with stage6a := { state with isInitialized := true } }
    else
      let state := stage6aPmmAdvanceToNextEligible frames
        { state with nextFrameIndex := first.startFrame }
      { pmm with stage6a := { state with isInitialized := true } }

/-- The second half of `stage6a_pmm_try_allocate_frame`, past the initialization check. -/
def stage6aPmmTakeFresh (frames : Stage5cFrameBookkeeping) (pmm : Pmm) (out : UInt64) : Reply :=
  if pmm.stage6a.remainingFrameCount = 0 then ⟨false, some out, pmm⟩
  else
    let state := stage6aPmmAdvanceToNextEligible frames pmm.stage6a
    if frames.ranges.length ≤ state.rangeIndex then
      ⟨false, some out, { pmm with stage6a := state }⟩
    else
      let frame := state.nextFrameIndex
      let state :=
        { state with
          nextFrameIndex := frame + 1
          remainingFrameCount := state.remainingFrameCount - 1
          allocationCount := addClampU64 state.allocationCount 1 }
      if uint64Max >>> stage5cFrameShift < frame then
        ⟨false, some out, { pmm with stage6a := state }⟩
      else ⟨true, some (frame <<< stage5cFrameShift), { pmm with stage6a := state }⟩

def stage6aPmmTryAllocateFrame (frames : Stage5cFrameBookkeeping) (pmm : Pmm)
    (outPhysAddr : Option UInt64) : Reply :=
  match outPhysAddr with
  | none => ⟨false, none, pmm⟩
  | some out =>
    stage6aPmmTakeFresh frames
      (if pmm.stage6a.isInitialized then pmm else stage6aPmmSeedFromStage5c frames pmm) out

/-- The queue after its first `count - 1` cells took the value of their right neighbours. -/
def shiftDown (queue : Vector UInt64 64) (count : ℕ) : Vector UInt64 64 :=
  (List.range (count - 1)).foldl (fun queue i => queue.set! i queue[i + 1]!) queue

def stage6dPmmPopPendingFreeFifo (pmm : Pmm) : Option (UInt64 × Pmm) :=
  if pmm.pendingFreeCount = 0 then none
  else
    some (pmm.pendingFreeFrames[0]!,
      { pmm with
        pendingFreeFrames := shiftDown pmm.pendingFreeFrames pmm.pendingFreeCount.toNat
        pendingFreeCount := pmm.pendingFreeCount - 1 })

def stage6dPmmTryAllocateReusedFrame (pmm : Pmm) (outPhysAddr : Option UInt64) : Reply :=
  match outPhysAddr with
  | none => ⟨false, none, pmm⟩
  | some out =>
    if pmm.stage6a.remainingFrameCount = 0 then ⟨false, some out, pmm⟩
    else
      match stage6dPmmPopPendingFreeFifo pmm with
      | none => ⟨false, some out, pmm⟩
      | some (frame, pmm) =>
        if uint64Max >>> stage5cFrameShift < frame then ⟨false, some out, pmm⟩
        else
          ⟨true, some (frame <<< stage5cFrameShift),
            { pmm with
              stage6a :=
                { pmm.stage6a with
                  remainingFrameCount := pmm.stage6a.remainingFrameCount - 1
                  allocationCount := addClampU64 pmm.stage6a.allocationCount 1 } }⟩

def stage6bPmmAllocFrame (frames : Stage5cFrameBookkeeping) (pmm : Pmm)
    (outPhysAddr : Option UInt64) : Reply :=
  let reply := stage6dPmmTryAllocateReusedFrame pmm outPhysAddr
  if reply.accepted then reply
  else stage6aPmmTryAllocateFrame frames reply.pmm reply.out

def stage6bPmmGetRemainingFrames (pmm : Pmm) : UInt64 := pmm.stage6a.remainingFrameCount

/-- The index of the first range that contains the frame. -/
def stage6dPmmFindFrameRange (frames : Stage5cFrameBookkeeping) (frame : UInt64) : Option ℕ :=
  frames.ranges.findIdx? fun range =>
    decide (range.frameCount ≠ 0 ∧ range.startFrame ≤ frame ∧ frame < rangeEndFrame range)

def stage6cIsEligibleFrame (frames : Stage5cFrameBookkeeping) (frame : UInt64) : Bool :=
  (stage6dPmmFindFrameRange frames frame).isSome

def stage6dPmmWasFrameIssued (frames : Stage5cFrameBookkeeping) (state : Stage6aPmmState)
    (frame : UInt64) : Bool :=
  if !state.isInitialized then false
  else
    match stage6dPmmFindFrameRange frames frame with
    | none => false
    | some frameRangeIndex =>
      if frames.ranges.length ≤ state.rangeIndex then true
      else if frameRangeIndex < state.rangeIndex then true
      else if state.rangeIndex < frameRangeIndex then false
      else decide (frame < state.nextFrameIndex)

def isPending (pmm : Pmm) (frame : UInt64) : Bool :=
  (List.range pmm.pendingFreeCount.toNat).any fun i => pmm.pendingFreeFrames[i]! == frame

def stage6cPmmFreeFrame (frames : Stage5cFrameBookkeeping) (pmm : Pmm) (physAddr : UInt64) :
    Bool × Pmm :=
  let frame := physAddr >>> stage5cFrameShift
  if physAddr &&& (stage5cFrameSize - 1) ≠ 0 then (false, pmm)
  else if physAddr < stage5bPolicyMinAddr then (false, pmm)
  else if !stage6cIsEligibleFrame frames frame then (false, pmm)
  else if !stage6dPmmWasFrameIssued frames pmm.stage6a frame then (false, pmm)
  else if isPending pmm frame then (false, pmm)
  else if stage6cMaxPendingFree ≤ pmm.pendingFreeCount.toNat then (false, pmm)
  else
    (true,
      { pmm with
        pendingFreeFrames := pmm.pendingFreeFrames.set! pmm.pendingFreeCount.toNat frame
        pendingFreeCount := pmm.pendingFreeCount + 1
        stage6a :=
          { pmm.stage6a with
            remainingFrameCount := addClampU64 pmm.stage6a.remainingFrameCount 1 } })

/-! ## Histories -/

/-- A call with what it returned: the address of an allocation, the verdict of a free. -/
inductive PmmCall where
  | alloc (result : Option UInt64)
  | free (physAddr : UInt64) (accepted : Bool)
  deriving DecidableEq, Repr

def Reply.result (reply : Reply) : Option UInt64 := if reply.accepted then reply.out else none

inductive PmmStep (frames : Stage5cFrameBookkeeping) : Pmm → PmmCall → Pmm → Prop where
  | alloc (pmm : Pmm) (out : UInt64) :
      PmmStep frames pmm (.alloc (stage6bPmmAllocFrame frames pmm (some out)).result)
        (stage6bPmmAllocFrame frames pmm (some out)).pmm
  | free (pmm : Pmm) (physAddr : UInt64) :
      PmmStep frames pmm (.free physAddr (stage6cPmmFreeFrame frames pmm physAddr).1)
        (stage6cPmmFreeFrame frames pmm physAddr).2

/-- The globals right after `stage6a_pmm_seed_from_stage5c`, the only seeding at boot. -/
def seeded (frames : Stage5cFrameBookkeeping) : Pmm := stage6aPmmSeedFromStage5c frames bootPmm

abbrev PmmRun (frames : Stage5cFrameBookkeeping) : List PmmCall → Pmm → Prop :=
  Transition.Execution (PmmStep frames) (seeded frames)

inductive PmmRequest where
  | alloc
  | free (physAddr : UInt64)
  deriving DecidableEq, Repr

def serveOne (frames : Stage5cFrameBookkeeping) (pmm : Pmm) : PmmRequest → PmmCall × Pmm
  | .alloc =>
    let reply := stage6bPmmAllocFrame frames pmm (some 0)
    (.alloc reply.result, reply.pmm)
  | .free physAddr =>
    let (accepted, pmm) := stage6cPmmFreeFrame frames pmm physAddr
    (.free physAddr accepted, pmm)

/-- Serving a list of requests in order. -/
def serve (frames : Stage5cFrameBookkeeping) (pmm : Pmm) : List PmmRequest → List PmmCall × Pmm
  | [] => ([], pmm)
  | request :: requests =>
    let first := serveOne frames pmm request
    let rest := serve frames first.2 requests
    (first.1 :: rest.1, rest.2)

theorem serve_execution (frames : Stage5cFrameBookkeeping) (pmm : Pmm)
    (requests : List PmmRequest) :
    Transition.Execution (PmmStep frames) pmm (serve frames pmm requests).1
      (serve frames pmm requests).2 := by
  induction requests generalizing pmm with
  | nil => exact .start
  | cons request requests ih =>
    have hone : PmmStep frames pmm (serveOne frames pmm request).1
        (serveOne frames pmm request).2 := by
      cases request with
      | alloc => exact .alloc pmm 0
      | free physAddr => exact .free pmm physAddr
    exact (Transition.Execution.single hone).append (ih _)

theorem serve_run (frames : Stage5cFrameBookkeeping) (requests : List PmmRequest) :
    PmmRun frames (serve frames (seeded frames) requests).1
      (serve frames (seeded frames) requests).2 :=
  serve_execution frames _ requests

/-- The frame number of a physical address. -/
def frameOf (physAddr : UInt64) : ℕ := physAddr.toNat / 4096

/-- The effect of a call on the set of frames that are out with a client. -/
def handOut (out : Finset ℕ) : PmmCall → Finset ℕ
  | .alloc (some physAddr) => insert (frameOf physAddr) out
  | .alloc none => out
  | .free physAddr true => out.erase (frameOf physAddr)
  | .free _ false => out

/-- The frames some allocation returned and no accepted free has taken back since. -/
def handedOut (calls : List PmmCall) : Finset ℕ := calls.foldl handOut ∅

theorem handedOut_append (calls : List PmmCall) (call : PmmCall) :
    handedOut (calls ++ [call]) = handOut (handedOut calls) call := by
  simp [handedOut]

end PhysicalFrames
