import CustomOs.KernelServices

/-! # Self-checks of the heap and of the objects (Stages 8C to 11E)
Each stage calls the services and panics unless what it gets is what it expects. What it prints
on the way is left out. Conditions keep the order in which the source evaluates them, so that a
call behind a condition that has failed is not made. -/
namespace SelfChecks

open Interaction MemoryMap FrameEligibility VmmLayout Paging KernelMemory KernelObject
open KernelObjectLifecycle KernelServices
open HeapReference hiding Represents

abbrev Stage := Program serviceInterface Panic

/-! ## Calls of a stage -/

def service (call : ServiceCall) : Stage call.Answer := .ask (I := serviceInterface) call

def bootstrapInit : Stage Bool := service (.heap .bootstrapInit)
def kheapAlloc (size : UInt32) : Stage UInt32 := service (.heap (.alloc size))
def kheapFree (ptr : UInt32) : Stage Bool := service (.heap (.free ptr))
def kmalloc (size : UInt32) : Stage UInt32 := service (.kmalloc size)
def kfree (ptr : UInt32) : Stage Bool := service (.kfree ptr)
def nodeCreate (id value : UInt32) : Stage UInt32 := service (.kobjectNodeCreate id value)
def nodeDestroy (node : UInt32) : Stage Bool := service (.kobjectNodeDestroy node)
def readNode (node : UInt32) : Stage KobjectNode := service (.node node)

/-- The four locals keep their values when the call fails. -/
def getState (locals : KheapBounds) : Stage (Bool × KheapBounds) := do
  let (ok, out) ← service (.heap (.getState (some locals)))
  return (ok, out.getD locals)

def listAppend (list : KobjectList) (node : UInt32) : Stage (Bool × KobjectList) := do
  let (ok, out) ← service (.kobjectListAppend (some list) node)
  return (ok, out.getD list)

def listFind (list : KobjectList) (id : UInt32) : Stage UInt32 :=
  service (.kobjectListFindById (some list) id)

def listRemove (list : KobjectList) (id : UInt32) : Stage (Bool × KobjectList) := do
  let (ok, out) ← service (.kobjectListRemoveById (some list) id)
  return (ok, out.getD list)

def panicUnless (passed : Bool) (reason : String) (detail : UInt32) : Stage Unit :=
  if passed then .pure () else .stop ⟨reason, detail⟩

def noBounds : KheapBounds := ⟨0, 0, 0, 0⟩
/-- What `kobject_list_init` leaves. -/
def emptyList : KobjectList := ⟨0, 0, 0⟩

def aligned (ptr : UInt32) : Bool := ptr &&& 0x7 = 0

def inHeapWindow (ptr : UInt32) : Bool :=
  futureHeapReservedStart ≤ ptr && ptr < futureHeapReservedEndExclusive

/-! ## The heap -/

def stage8cRunKheapBootstrapSelfCheck : Stage Unit := do
  let booted ← bootstrapInit
  let (known, bounds) ← getState noBounds
  let first ← kheapAlloc 24
  let second ← kheapAlloc 40
  let (knownPost, bounds) ← getState bounds
  let alignmentOrdering : Bool :=
    first ≠ 0 && second ≠ 0 && first ≠ second && aligned first && aligned second &&
    first < second && inHeapWindow first && inHeapWindow second &&
    bounds.start = futureHeapReservedStart &&
    bounds.endExclusive = futureHeapReservedEndExclusive &&
    bounds.start ≤ bounds.mappedEndExclusive &&
    bounds.mappedEndExclusive ≤ bounds.endExclusive &&
    bounds.mappedEndExclusive &&& vmmLayoutPageMask4k = 0 &&
    bounds.start ≤ bounds.current && bounds.current ≤ bounds.mappedEndExclusive
  panicUnless (booted && known && knownPost && alignmentOrdering)
    "Stage 8C heap bootstrap failed" 0x000800C0

/-- The loop of Stage 8D over the sizes: the blocks, whether none is null, and whether each is
aligned and above the one before, `prev` at first. -/
def allocateAll : List UInt32 → Option UInt32 → Stage (List UInt32 × Bool × Bool)
  | [], _ => return ([], true, true)
  | size :: sizes, prev => do
    let ptr ← kheapAlloc size
    let above : Bool := prev.all (· < ptr)
    let (ptrs, nonNull, ordered) ← allocateAll sizes (some ptr)
    return (ptr :: ptrs, ptr ≠ 0 && nonNull, aligned ptr && above && ordered)

def stage8dRunKheapValidationSelfCheck : Stage Unit := do
  let (knownPre, pre) ← getState noBounds
  let (ptrs, nonNull, ordered) ← allocateAll [0x80, 0x180, 0x300, 0x1000] none
  let (knownPost, post) ← getState noBounds
  let mappedGrowth : Bool :=
    pre.mappedEndExclusive < post.mappedEndExclusive &&
    post.start + 2 * pageSize ≤ post.mappedEndExclusive
  let bounds : Bool :=
    ptrs.all inHeapWindow && post.start = futureHeapReservedStart &&
    post.endExclusive = futureHeapReservedEndExclusive &&
    post.start ≤ post.current && post.current ≤ post.mappedEndExclusive &&
    post.mappedEndExclusive ≤ post.endExclusive &&
    post.mappedEndExclusive &&& vmmLayoutPageMask4k = 0
  panicUnless (knownPre && knownPost && nonNull && ordered && mappedGrowth && bounds)
    "Stage 8D heap validation failed" 0x000800D0

def stage9aRunKheapFreeGroundworkSelfCheck : Stage Unit := do
  let a ← kheapAlloc 32
  let b ← kheapAlloc 48
  let (known, before) ← getState noBounds
  let validFree ← kheapFree a
  let duplicateFree ← kheapFree a
  let invalidFree ← kheapFree (before.start + 4)
  let nullFree ← kheapFree 0
  let (knownPost, after) ←
    getState { before with current := 0, mappedEndExclusive := 0 }
  let c ← kheapAlloc 64
  let passed : Bool :=
    a ≠ 0 && b ≠ 0 && a < b && known && validFree && !duplicateFree && !invalidFree &&
    !nullFree && knownPost && after.current = before.current &&
    after.mappedEndExclusive = before.mappedEndExclusive && c ≠ 0 && b < c
  panicUnless passed "Stage 9A heap free groundwork failed" 0x000900A0

def stage9bRunKheapReuseActivationSelfCheck : Stage Unit := do
  let a ← kheapAlloc 56
  let b ← kheapAlloc 88
  let (known, before) ← getState noBounds
  let freeA ← kheapFree a
  let c ← kheapAlloc 56
  let (knownPost, after) ← getState { before with current := 0 }
  let passed : Bool :=
    a ≠ 0 && b ≠ 0 && a < b && known && freeA && c = a && knownPost &&
    after.current = before.current
  panicUnless passed "Stage 9B heap reuse activation failed" 0x000900B0

def stage9cRunKheapFragmentationReuseSelfCheck : Stage Unit := do
  let large ← kheapAlloc 96
  let (known, before) ← getState noBounds
  let freeLarge ← kheapFree large
  let small ← kheapAlloc 40
  let leftover ← kheapAlloc 40
  let (knownPost, after) ← getState { before with current := 0 }
  let passed : Bool :=
    large ≠ 0 && known && freeLarge && small = large && leftover = large + 40 + 16 &&
    knownPost && after.current = before.current
  panicUnless passed "Stage 9C fragmentation reuse failed" 0x000900C0

def stage9dRunKheapLifecycleValidationSelfCheck : Stage Unit := do
  let a ← kheapAlloc 32
  let b ← kheapAlloc 64
  let c ← kheapAlloc 96
  let (known, before) ← getState noBounds
  let freeB ← kheapFree b
  let d ← kheapAlloc 64
  let freeC ← kheapFree c
  let e ← kheapAlloc 40
  let f ← kheapAlloc 40
  let invalidFree ← kheapFree (before.start + 4)
  let freeD ← kheapFree d
  let doubleFree ← kheapFree d
  let (knownPost, after) ← getState { before with current := 0 }
  let passed : Bool :=
    a ≠ 0 && b ≠ 0 && c ≠ 0 && a < b && b < c && known && freeB && d = b && freeC && e = c &&
    f = c + 40 + 16 && !invalidFree && freeD && !doubleFree && knownPost &&
    after.current = before.current
  panicUnless passed "Stage 9D heap lifecycle validation failed" 0x000900D0

/-! ## The wrappers -/

def stage10aRunKmallocInterfaceSelfCheck : Stage Unit := do
  let large ← kmalloc 1536
  let freeLarge ← kfree large
  let reused ← kmalloc 1536
  let invalidFree ← kfree (reused + 4)
  let freeOnce ← kfree reused
  let doubleFree ← kfree reused
  let passed : Bool :=
    large ≠ 0 && freeLarge && reused = large && !invalidFree && freeOnce && !doubleFree
  panicUnless passed "Stage 10A kmalloc interface failed" 0x000A00A0

def stage10bRunKmallocAllocationSemanticsSelfCheck : Stage Unit := do
  let zeroSize ← kmalloc 0
  let nullFree ← kfree 0
  let valid ← kmalloc 128
  let validFree ← kfree valid
  let invalidFree ← kfree (valid + 4)
  let passed : Bool := zeroSize = 0 && !nullFree && valid ≠ 0 && validFree && !invalidFree
  panicUnless passed "Stage 10B allocation semantics failed" 0x000A00B0

/-- The checks of Stage 10C work on local arrays only. -/
def stage10cRunKmemoryPrimitivesSelfCheck (primitivesOk : Bool) : Stage Unit :=
  panicUnless primitivesOk "Stage 10C memory primitives failed" 0x000A00C0

def stage10dRunKmallocLifecycleHardeningSelfCheck : Stage Unit := do
  let a ← kmalloc 32
  let b ← kmalloc 64
  let c ← kmalloc 96
  let freeB ← kfree b
  let d ← kmalloc 64
  let splitLarge ← kmalloc 4096
  let freeLarge ← kfree splitLarge
  let e ← kmalloc 2048
  let f ← kmalloc 1800
  let invalidFree ← kfree (d + 4)
  let freeD ← kfree d
  let doubleFree ← kfree d
  let passed : Bool :=
    a ≠ 0 && b ≠ 0 && c ≠ 0 && a < b && b < c && aligned a && aligned b && aligned c &&
    freeB && d = b && splitLarge ≠ 0 && freeLarge && e = splitLarge &&
    f = splitLarge + 2048 + 16 && !invalidFree && freeD && !doubleFree
  panicUnless passed "Stage 10D allocator hardening failed" 0x000A00D0

def stage10eRunAllocationApiValidationSuiteSelfCheck (primitivesOk : Bool) : Stage Unit := do
  let a ← kmalloc 48
  let b ← kmalloc 80
  let c ← kmalloc 112
  let freeB ← kfree b
  let exactFit ← kmalloc 80
  let splitLarge ← kmalloc 4096
  let freeLarge ← kfree splitLarge
  let split ← kmalloc 2048
  let leftover ← kmalloc 1800
  let invalidFree ← kfree (exactFit + 4)
  let freeExact ← kfree exactFit
  let doubleFree ← kfree exactFit
  let lifecycleOk : Bool :=
    a ≠ 0 && b ≠ 0 && c ≠ 0 && a < b && b < c && aligned a && aligned b && aligned c &&
    freeB && exactFit = b && splitLarge ≠ 0 && freeLarge && split = splitLarge &&
    leftover = splitLarge + 2048 + 16 && !invalidFree && freeExact && !doubleFree
  let zeroSize ← kmalloc 0
  let nullFree ← if zeroSize ≠ 0 then pure true else kfree 0
  let wrapperOk : Bool := !nullFree
  let continuity ← kmalloc 72
  let freeContinuity ← if continuity = 0 then pure false else kfree continuity
  let continuityOk : Bool := freeContinuity && lifecycleOk && wrapperOk && primitivesOk
  panicUnless (lifecycleOk && wrapperOk && primitivesOk && continuityOk)
    "Stage 10E allocation API suite failed" 0x000A00E0

/-! ## Objects -/

def stage11aRunKobjectGroundworkSelfCheck : Stage Unit := do
  let node ← nodeCreate 0x11A00001 0x0000BEEF
  let fields ← if node = 0 then pure ⟨0, 0, 0⟩ else readNode node
  let fieldInit : Bool := node ≠ 0 && fields.id = 0x11A00001 && fields.value = 0x0000BEEF
  let nextNull : Bool := node ≠ 0 && fields.next = 0
  let freeOk ← nodeDestroy node
  panicUnless (fieldInit && nextNull && freeOk) "Stage 11A kobject groundwork failed" 0x000B00A0

/-- `node != NULL && node->next == next`. -/
def nextIs (node next : UInt32) : Stage Bool :=
  if node = 0 then pure false
  else do
    let fields ← readNode node
    return fields.next = next

/-- `node == NULL || kobject_node_destroy(node) != 0`. -/
def cleanUp (node : UInt32) : Stage Bool :=
  if node = 0 then pure true else nodeDestroy node

/-- The checks of Stage 11B behind an append: the record, and that the node is the last one. -/
def appendedLast (appended : Bool) (list : KobjectList) (head node count : UInt32) :
    Stage Bool :=
  if appended && list.head = head && list.tail = node && list.count = count then nextIs node 0
  else pure false

def stage11bRunKobjectLinkedStructureSelfCheck : Stage Unit := do
  let list := emptyList
  let node1 ← nodeCreate 0x11B00001 0x00001001
  let (appended, list) ← listAppend list node1
  let firstAppend ← appendedLast appended list node1 node1 1
  let node2 ← nodeCreate 0x11B00002 0x00001002
  let (appended, list) ← listAppend list node2
  let secondAppend ← appendedLast appended list node1 node2 2
  let linkage ← if node1 ≠ 0 && node2 ≠ 0 then nextIs node1 node2 else pure false
  let cleanup2 ← cleanUp node2
  let cleanup1 ← cleanUp node1
  panicUnless (firstAppend && secondAppend && linkage && cleanup2 && cleanup1)
    "Stage 11B linked structure validation failed" 0x000B00B0

/-- `kobject_list_append(&list, a) == 0 || kobject_list_append(&list, b) == 0 || ...`, negated:
the appends stop at the first that fails. -/
def appendAll (list : KobjectList) : List UInt32 → Stage (Bool × KobjectList)
  | [] => return (true, list)
  | node :: nodes => do
    let (appended, list) ← listAppend list node
    if appended then appendAll list nodes else pure (false, list)

def stage11cRunKobjectTraversalSelfCheck : Stage Unit := do
  let node1 ← nodeCreate 0x11C00001 0x00002001
  let node2 ← nodeCreate 0x11C00002 0x00002002
  let (appended, list) ← appendAll emptyList [node1, node2]
  let first ← listFind list 0x11C00001
  let second ← listFind list 0x11C00002
  let missing ← listFind list 0x11C0FFFF
  let count := kobjectListCount (some list)
  let cleanup2 ← cleanUp node2
  let cleanup1 ← cleanUp node1
  let passed : Bool :=
    appended && first = node1 && second = node2 && missing = 0 && count = 2 && cleanup2 &&
    cleanup1
  panicUnless passed "Stage 11C list traversal validation failed" 0x000B00C0

/-- `kobject_list_remove_by_id(&list, id) != 0 && kobject_node_destroy(node) != 0`. -/
def removeAndDestroy (list : KobjectList) (id node : UInt32) : Stage (Bool × KobjectList) := do
  let (removed, list) ← listRemove list id
  let destroyed ← if removed then nodeDestroy node else pure false
  return (destroyed, list)

/-- Finds in a row, which stop at the first that is not as expected. -/
def findsAll (list : KobjectList) : List (UInt32 × UInt32) → Stage Bool
  | [] => return true
  | (id, node) :: rest => do
    let found ← listFind list id
    if found = node then findsAll list rest else pure false

def stage11dRunKobjectRemovalSelfCheck : Stage Unit := do
  let node1 ← nodeCreate 0x11D00001 0x00003001
  let node2 ← nodeCreate 0x11D00002 0x00003002
  let node3 ← nodeCreate 0x11D00003 0x00003003
  let node4 ← nodeCreate 0x11D00004 0x00003004
  let (appended, list) ← appendAll emptyList [node1, node2, node3, node4]
  let (removed, list) ← removeAndDestroy list 0x11D00001 node1
  let removeHead : Bool := removed && list.head = node2 && list.tail = node4 && list.count = 3
  let (removed, list) ← removeAndDestroy list 0x11D00003 node3
  let removeMiddle ←
    if removed && list.head = node2 && list.tail = node4 && list.count = 2 then nextIs node2 node4
    else pure false
  let (removed, list) ← removeAndDestroy list 0x11D00004 node4
  let removeTail ←
    if removed && list.head = node2 && list.tail = node2 && list.count = 1 then nextIs node2 0
    else pure false
  let found ← findsAll list
    [(0x11D00001, 0), (0x11D00003, 0), (0x11D00004, 0), (0x11D00002, node2)]
  let integrity : Bool :=
    found && kobjectListCount (some list) = 1 && list.head = node2 && list.tail = node2
  let (emptied, list) ← removeAndDestroy list 0x11D00002 node2
  let emptyState ←
    if kobjectListCount (some list) = 0 && list.head = 0 && list.tail = 0 then
      findsAll list [(0x11D00002, 0)]
    else pure false
  let passed : Bool :=
    appended && removeHead && removeMiddle && removeTail && integrity && emptied && emptyState
  panicUnless passed "Stage 11D list removal validation failed" 0x000B00D0

def stage11eRunKobjectLifecycleValidationSuiteSelfCheck : Stage Unit := do
  let node1 ← nodeCreate 0x11E00001 0x00004001
  let node2 ← nodeCreate 0x11E00002 0x00004002
  let node3 ← nodeCreate 0x11E00003 0x00004003
  let creation : Bool := node1 ≠ 0 && node2 ≠ 0 && node3 ≠ 0
  let (appended, list) ←
    if creation then appendAll emptyList [node1, node2, node3] else pure (false, emptyList)
  let record : Bool := appended && list.head = node1 && list.tail = node3 && list.count = 3
  let link1 ← if record then nextIs node1 node2 else pure false
  let link2 ← if link1 then nextIs node2 node3 else pure false
  let append ← if link2 then nextIs node3 0 else pure false
  let found ← findsAll list
    [(0x11E00001, node1), (0x11E00002, node2), (0x11E00003, node3)]
  let lookup : Bool := found && kobjectListCount (some list) = 3
  let (removed, list) ← removeAndDestroy list 0x11E00002 node2
  let rest2 := if removed then 0 else node2
  let found ←
    if removed then
      findsAll list [(0x11E00002, 0), (0x11E00001, node1), (0x11E00003, node3)]
    else pure false
  let removal : Bool := found && kobjectListCount (some list) = 2
  let (removed1, list) ← removeAndDestroy list 0x11E00001 node1
  let rest1 := if removed1 then 0 else node1
  let (removed3, list) ← removeAndDestroy list 0x11E00003 node3
  let rest3 := if removed3 then 0 else node3
  let finalEmpty ←
    if kobjectListCount (some list) = 0 && list.head = 0 && list.tail = 0 then
      findsAll list [(0x11E00001, 0), (0x11E00002, 0), (0x11E00003, 0)]
    else pure false
  let continuity : Bool := creation && append && lookup && removal && finalEmpty
  let cleanup1 ← cleanUp rest1
  let cleanup2 ← cleanUp rest2
  let cleanup3 ← cleanUp rest3
  let passed : Bool :=
    creation && append && lookup && removal && removed1 && removed3 && finalEmpty &&
    continuity && cleanup1 && cleanup2 && cleanup3
  panicUnless passed "Stage 11E object lifecycle validation suite failed" 0x000B00E0

/-! ## All stages -/

/-- In the order of `stage0_main`; the two flags are what the checks of Stages 10C and 10E on
local arrays come to. -/
def selfChecks (primitivesOk primitivesAgainOk : Bool) : Stage Unit := do
  stage8cRunKheapBootstrapSelfCheck
  stage8dRunKheapValidationSelfCheck
  stage9aRunKheapFreeGroundworkSelfCheck
  stage9bRunKheapReuseActivationSelfCheck
  stage9cRunKheapFragmentationReuseSelfCheck
  stage9dRunKheapLifecycleValidationSelfCheck
  stage10aRunKmallocInterfaceSelfCheck
  stage10bRunKmallocAllocationSemanticsSelfCheck
  stage10cRunKmemoryPrimitivesSelfCheck primitivesOk
  stage10dRunKmallocLifecycleHardeningSelfCheck
  stage10eRunAllocationApiValidationSuiteSelfCheck primitivesAgainOk
  stage11aRunKobjectGroundworkSelfCheck
  stage11bRunKobjectLinkedStructureSelfCheck
  stage11cRunKobjectTraversalSelfCheck
  stage11dRunKobjectRemovalSelfCheck
  stage11eRunKobjectLifecycleValidationSuiteSelfCheck

/-! ## Where the checks end -/

/-- The panic of the first stage that so many pages are too few for. -/
def shortage : ℕ → Option Panic
  | 0 => some ⟨"Stage 8C heap bootstrap failed", 0x000800C0⟩
  | 1 => some ⟨"Stage 8D heap validation failed", 0x000800D0⟩
  | 2 => some ⟨"Stage 10D allocator hardening failed", 0x000A00D0⟩
  | 3 => some ⟨"Stage 10E allocation API suite failed", 0x000A00E0⟩
  | _ + 4 => none

theorem shortage_isSome_iff (k : ℕ) : (shortage k).isSome ↔ k < 4 := by
  match k with
  | 0 | 1 | 2 | 3 => simp [shortage]
  | k + 4 => simp [shortage]

/-- After four pages the checks pass, with this much of the heap in use; after a refusal they
end in the panic for the pages there have been. -/
def asExpected (path : List Bool) : Except (Option Panic) (Unit × ReferenceKernel) → Bool
  | .ok (_, r) =>
    path = [true, true, true, true] && r.heap.initialized && r.heap.pages = 4 &&
    r.heap.current = 0x403E70
  | .error e => path.contains false && e.isSome && e = shortage (granted path)

theorem granted_of_refused {read rest supply : List Bool} {n : ℕ} (hrefused : false ∈ read)
    (hread : read ++ rest = supply ++ List.replicate n false) : granted read = granted supply := by
  obtain ⟨xs, ys, rfl⟩ := List.append_of_mem hrefused
  rw [granted_refused, ← granted_padded supply n, ← hread, List.append_assoc, List.cons_append,
    granted_refused]

/-- The reference reads four pages and passes, or panics for want of one. -/
theorem selfChecks_reference (supply : List Bool) :
    ∃ result rest, run answered (implement (referenceServices 5) some (selfChecks true true) .unused)
        supply = some (result, rest) ∧
      (∀ e, shortage (granted supply) = some e → result = .error (some e)) ∧
      (shortage (granted supply) = none → ∃ r, result = .ok ((), r) ∧
        r.heap.initialized = true ∧ r.heap.pages = 4 ∧ r.heap.current = 0x403E70 ∧
        rest = supply.drop 4) := by
  have hexplored : explore asExpected
      (implement (referenceServices 5) some (selfChecks true true) .unused) [] = true := by
    decide +kernel
  obtain ⟨result, read, rest, n, hrun, hcheck, hread, hend⟩ := explore_sound hexplored supply
  rw [List.nil_append] at hcheck
  refine ⟨result, rest, hrun, ?_⟩
  cases result with
  | error e =>
    simp only [asExpected, Bool.and_eq_true, List.contains_iff_mem, decide_eq_true_eq] at hcheck
    obtain ⟨⟨hrefused, hsome⟩, rfl⟩ := hcheck
    rw [granted_of_refused hrefused hread] at hsome ⊢
    constructor
    · intro e he
      rw [he]
    · intro hnone
      rw [hnone] at hsome
      cases hsome
  | ok reply =>
    obtain ⟨⟨⟩, r⟩ := reply
    simp only [asExpected, Bool.and_eq_true, decide_eq_true_eq] at hcheck
    obtain ⟨⟨⟨rfl, hinit⟩, hpages⟩, hcurrent⟩ := hcheck
    have hcount : granted supply = 4 + granted rest := by
      rw [← granted_padded supply n, ← hread]
      exact granted_replicate 4 rest
    rw [hcount, Nat.add_comm 4]
    constructor
    · intro e he
      cases he
    · intro _
      have hzero : n = 0 := by
        rcases hend with rfl | hzero
        · by_contra hne
          have hmem : false ∈ supply ++ List.replicate n false := by simp [hne]
          rw [← hread] at hmem
          simp at hmem
        · exact hzero
      rw [hzero, List.replicate_zero, List.append_nil] at hread
      refine ⟨r, rfl, hinit, hpages, hcurrent, ?_⟩
      rw [← hread]
      rfl

/-- The kernel runs the checks as the reference does. -/
theorem selfChecks_run {frames : Stage5cFrameBookkeeping} {layout : TableLayout}
    {s : KernelHeapState} {supply : List Bool} (h : Represents frames layout s .unused supply)
    (ht : SoundTable frames) {fuel : ℕ} (hfuel : 5 ≤ fuel) :
    (∀ e, shortage (granted supply) = some e →
      ∃ t, run (serviceHandler fuel (kernelOps frames layout)) (selfChecks true true) s =
        some (.error e, t)) ∧
    (shortage (granted supply) = none →
      ∃ t r, run (serviceHandler fuel (kernelOps frames layout)) (selfChecks true true) s =
          some (.ok (), t) ∧ Represents frames layout t r (supply.drop 4) ∧
        r.heap.initialized = true ∧ r.heap.pages = 4 ∧ r.heap.current = 0x403E70) := by
  have hmatches := h.program ht hfuel (selfChecks true true)
  obtain ⟨result, rest, hrun, hpanic, hpass⟩ := selfChecks_reference supply
  rw [hrun] at hmatches
  constructor
  · intro e he
    obtain rfl := hpanic e he
    exact hmatches e rfl
  · intro hnone
    obtain ⟨r, rfl, hinit, hpages, hcurrent, rfl⟩ := hpass hnone
    obtain ⟨t, hkernel, hrep⟩ := hmatches
    exact ⟨t, r, hkernel, hrep, hinit, hpages, hcurrent⟩

end SelfChecks
