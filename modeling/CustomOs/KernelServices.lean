import CustomOs.HeapReference
import CustomOs.KernelObjectLifecycle

/-! # The services of the kernel
The heap, `kmalloc` and `kfree`, and the object layer work on one memory. The reference has no
memory: it keeps the blocks of the heap and a table of the live nodes, and it gives up where a
call reads something else than a live node. Wherever the reference does not give up, the kernel
answers as it does. -/
namespace KernelServices

open Interaction Loop MemoryMap FrameEligibility PhysicalFrames PhysicalFrameTracking
open Paging PageMapper PageMapRefinement KernelHeap KernelHeapTiling KernelHeapCalls
open KernelHeapIsolation KernelMemory FrameConservation KernelObject KernelObjectIntegrity
open KernelObjectLifecycle HeapReference
open ByteMemory (Memory InRange)
open Function (update)

/-! ## Calls -/

structure KobjectNode where
  id : UInt32
  value : UInt32
  next : UInt32
  deriving DecidableEq, Repr

/-- The calls a stage makes, and `node` for the three fields read through a node pointer. The
record behind a list pointer goes in and comes back. -/
inductive ServiceCall where
  | heap (call : HeapCall)
  | kmalloc (size : UInt32)
  | kfree (ptr : UInt32)
  | kobjectNodeCreate (id value : UInt32)
  | kobjectNodeDestroy (node : UInt32)
  | node (ptr : UInt32)
  | kobjectListAppend (list : Option KobjectList) (node : UInt32)
  | kobjectListFindById (list : Option KobjectList) (id : UInt32)
  | kobjectListRemoveById (list : Option KobjectList) (id : UInt32)
  deriving DecidableEq, Repr

abbrev ServiceCall.Answer : ServiceCall → Type
  | .heap call => call.Answer
  | .kmalloc _ => UInt32
  | .kfree _ => Bool
  | .kobjectNodeCreate _ _ => UInt32
  | .kobjectNodeDestroy _ => Bool
  | .node _ => KobjectNode
  | .kobjectListAppend _ _ => Bool × Option KobjectList
  | .kobjectListFindById _ _ => UInt32
  | .kobjectListRemoveById _ _ => Bool × Option KobjectList

abbrev serviceInterface : Interface := ⟨ServiceCall, ServiceCall.Answer⟩

/-- `none` when the walk along a list does not end within `fuel` iterations. -/
def serviceHandler {σ : Type*} (fuel : ℕ) (ops : GrowthOps σ) : Handler serviceInterface (Kheap σ)
  | heap, .heap call => heapHandler ops heap call
  | heap, .kmalloc size => some (kmalloc ops heap size)
  | heap, .kfree ptr => some (kfree heap ptr)
  | heap, .kobjectNodeCreate id value => some (kobjectNodeCreate ops heap id value)
  | heap, .kobjectNodeDestroy node => some (kobjectNodeDestroy heap node)
  | heap, .node ptr =>
    some (⟨nodeId heap.memory ptr, nodeValue heap.memory ptr, nodeNext heap.memory ptr⟩, heap)
  | heap, .kobjectListAppend list node =>
    let outcome := kobjectListAppend list heap.memory node
    some ((outcome.result, outcome.list), { heap with memory := outcome.memory })
  | heap, .kobjectListFindById list id =>
    (kobjectListFindById fuel list heap.memory id).map fun node => (node, heap)
  | heap, .kobjectListRemoveById list id =>
    (kobjectListRemoveById fuel list heap.memory id).map fun outcome =>
      ((outcome.result, outcome.list), { heap with memory := outcome.memory })

/-! ## The reference -/

structure ReferenceKernel where
  heap : ReferenceHeap
  objects : UInt32 → Option KobjectNode

def ReferenceKernel.unused : ReferenceKernel := ⟨.unused, fun _ => none⟩

abbrev Objects := UInt32 → Option KobjectNode

def Objects.setNext (objects : Objects) (ptr next : UInt32) : Objects :=
  update objects ptr ((objects ptr).map fun node => { node with next := next })

/-- The node with the id and the one in front of it, null when there is none; `none` when the
walk leaves the table or does not end in time. -/
def Objects.locate (objects : Objects) (id : UInt32) :
    ℕ → UInt32 → UInt32 → Option (UInt32 × UInt32)
  | 0, _, _ => none
  | fuel + 1, prev, cursor =>
    if cursor = 0 then some (prev, 0)
    else (objects cursor).bind fun node =>
      if node.id = id then some (prev, cursor) else objects.locate id fuel cursor node.next

/-- The record once `cursor` is out of its list, between `prev` and `next`. -/
def unlinkedRecord (list : KobjectList) (prev cursor next : UInt32) : KobjectList :=
  let list := if prev = 0 then { list with head := next } else list
  let list := if list.tail = cursor then { list with tail := prev } else list
  let list := if 0 < list.count then { list with count := list.count - 1 } else list
  if list.count = 0 then { list with head := 0, tail := 0 } else list

def Objects.unlinked (objects : Objects) (prev cursor next : UInt32) : Objects :=
  (if prev = 0 then objects else objects.setNext prev next).setNext cursor 0

section Reference

variable {ε : Type}

def ReferenceKernel.alloc (r : ReferenceKernel) (size : UInt32) :
    Program question (Option ε) (UInt32 × ReferenceKernel) :=
  (r.heap.alloc size).bind fun reply => .pure (reply.1, { r with heap := reply.2 })

/-- A node that is freed leaves the table. -/
def ReferenceKernel.free (r : ReferenceKernel) (ptr : UInt32) : Bool × ReferenceKernel :=
  ((r.heap.free ptr).1, ⟨(r.heap.free ptr).2,
    if (r.heap.free ptr).1 then update r.objects ptr none else r.objects⟩)

def ReferenceKernel.create (r : ReferenceKernel) (id value : UInt32) :
    Program question (Option ε) (UInt32 × ReferenceKernel) :=
  (r.heap.alloc kobjectNodeSize).bind fun reply =>
    if reply.1 = 0 then .pure (0, { r with heap := reply.2 })
    else .pure (reply.1, ⟨reply.2, update r.objects reply.1 (some ⟨id, value, 0⟩)⟩)

def ReferenceKernel.append (r : ReferenceKernel) (list : KobjectList) (node : UInt32) :
    Program question (Option ε) ((Bool × Option KobjectList) × ReferenceKernel) :=
  if node = 0 then .pure ((false, some list), r)
  else
    match r.objects node with
    | none => .stop none
    | some fields =>
      if fields.next ≠ 0 then .pure ((false, some list), r)
      else if list.head = 0 then .pure ((true, some ⟨node, node, 1⟩), r)
      else if list.tail = 0 then .pure ((false, some list), r)
      else
        match r.objects list.tail with
        | none => .stop none
        | some _ =>
          .pure ((true, some ⟨list.head, node, list.count + 1⟩),
            { r with objects := Objects.setNext r.objects list.tail node })

def ReferenceKernel.remove (fuel : ℕ) (r : ReferenceKernel) (list : KobjectList) (id : UInt32) :
    Program question (Option ε) ((Bool × Option KobjectList) × ReferenceKernel) :=
  match Objects.locate r.objects id fuel 0 list.head with
  | none => .stop none
  | some (prev, cursor) =>
    if cursor = 0 then .pure ((false, some list), r)
    else
      match r.objects cursor with
      | none => .stop none
      | some fields =>
        .pure ((true, some (unlinkedRecord list prev cursor fields.next)),
          { r with objects := Objects.unlinked r.objects prev cursor fields.next })

def referenceServices (fuel : ℕ) : Implementation serviceInterface question ReferenceKernel (Option ε)
  | r, .heap .bootstrapInit => .pure (true, { r with heap := { r.heap with initialized := true } })
  | r, .heap (.alloc size) => r.alloc size
  | r, .heap (.free ptr) => .pure (r.free ptr)
  | r, .heap (.getState out) => .pure (r.heap.getState out, r)
  | r, .kmalloc size => r.alloc size
  | r, .kfree ptr => .pure (r.free ptr)
  | r, .kobjectNodeCreate id value => r.create id value
  | r, .kobjectNodeDestroy node => .pure (r.free node)
  | r, .node ptr =>
    match r.objects ptr with
    | none => .stop none
    | some fields => .pure (fields, r)
  | r, .kobjectListAppend none _ => .pure ((false, none), r)
  | r, .kobjectListAppend (some list) node => r.append list node
  | r, .kobjectListFindById none _ => .pure (0, r)
  | r, .kobjectListFindById (some list) id =>
    match Objects.locate r.objects id fuel 0 list.head with
    | none => .stop none
    | some found => .pure (found.2, r)
  | r, .kobjectListRemoveById none _ => .pure ((false, none), r)
  | r, .kobjectListRemoveById (some list) id => r.remove fuel list id

end Reference

/-! ## Live nodes -/

structure NodeAt (memory : Memory) (ptr : UInt32) (node : KobjectNode) : Prop where
  id : nodeId memory ptr = node.id
  value : nodeValue memory ptr = node.value
  next : nodeNext memory ptr = node.next

/-- Live nodes are held blocks with their fields in them. -/
structure Keeps {σ : Type*} (heap : Kheap σ) (held : UInt32 → Option UInt32)
    (objects : Objects) : Prop where
  isolated : Isolated ⟨heap, held⟩
  held : ∀ p node, objects p = some node → held p = some kobjectNodeSize
  fields : ∀ p node, objects p = some node → NodeAt heap.memory p node

section Nodes

variable {σ : Type*} {heap : Kheap σ} {held : UInt32 → Option UInt32} {objects : Objects}
  {p q w : UInt32} {node : KobjectNode}

theorem Keeps.nodesApart (h : Keeps heap held objects) (nodes : List UInt32)
    (hlive : ∀ p ∈ nodes, objects p ≠ none) : NodesApart nodes := by
  apply nodes_apart (s := ⟨⟨heap, held⟩, nodes, fun _ => none⟩) h.isolated
  intro p hp
  obtain ⟨node, hnode⟩ := Option.ne_none_iff_exists'.mp (hlive p hp)
  exact h.held p node hnode

theorem Keeps.upper (h : Keeps heap held objects) (hp : objects p = some node) :
    p.toNat + 12 ≤ 0x800000 :=
  (h.nodesApart [p] (by simp [hp])).upper p (by simp)

theorem Keeps.ne_zero (h : Keeps heap held objects) (hp : objects p = some node) : p ≠ 0 :=
  (h.nodesApart [p] (by simp [hp])).ne_zero (by simp)

/-- Fields whose bytes are the same. -/
theorem NodeAt.congr {memory memory' : Memory} (h : NodeAt memory p node)
    (hfit : p.toNat + 12 ≤ 0x800000)
    (same : ∀ x, InRange p.toNat 12 x → memory' x = memory x) : NodeAt memory' p node := by
  obtain ⟨hid, hvalue, hnext⟩ := node_congr hfit same
  exact ⟨hid.trans h.id, hvalue.trans h.value, hnext.trans h.next⟩

/-- A call of the heap that keeps the bytes of the live nodes, and their holders. -/
theorem Keeps.frame (h : Keeps heap held objects) {heap' : Kheap σ}
    {held' : UInt32 → Option UInt32} {objects' : Objects} (isolated : Isolated ⟨heap', held'⟩)
    (kept : ∀ p node, objects' p = some node →
      objects p = some node ∧ held' p = some kobjectNodeSize)
    (bytes : ∀ p size x, held p = some size → InRange p.toNat size.toNat x →
      heap'.memory x = heap.memory x) : Keeps heap' held' objects' := by
  refine ⟨isolated, fun p node hp => (kept p node hp).2, fun p node hp => ?_⟩
  have hlive := (kept p node hp).1
  exact (h.fields p node hlive).congr (h.upper hlive) fun x hx =>
    bytes p kobjectNodeSize x (h.held p node hlive) hx

theorem Keeps.alloc (h : Keeps heap held objects) (ops : GrowthOps σ) (size : UInt32) :
    Keeps (stage8cKheapAlloc ops heap size).2
      (if (stage8cKheapAlloc ops heap size).1 = 0 then held
        else hold held (stage8cKheapAlloc ops heap size).1 (some size)) objects := by
  apply h.frame (h.isolated.step (@HeapStep.alloc _ ops ⟨heap, held⟩ size))
  · intro p node hp
    refine ⟨hp, ?_⟩
    split
    · exact h.held p node hp
    · next hne =>
      rw [hold_ne]
      · exact h.held p node hp
      · rintro rfl
        have hfresh := h.isolated.alloc_fresh ops size hne
        simp [h.held _ node hp] at hfresh
  · intro p n x hp hx
    exact (h.isolated.calls_keep ops hp hx).1 size

theorem Keeps.free (h : Keeps heap held objects) (ops : GrowthOps σ) (ptr : UInt32) :
    ∃ held', Keeps (stage9aKheapFree heap ptr).2 held'
      (if (stage9aKheapFree heap ptr).1 then update objects ptr none else objects) := by
  refine ⟨_, h.frame (h.isolated.step (@HeapStep.free _ ops ⟨heap, held⟩ ptr)) ?_ ?_⟩
  · intro p node hp
    by_cases hok : (stage9aKheapFree heap ptr).1 = true
    · simp only [hok, if_true] at hp ⊢
      have hne : p ≠ ptr := by
        rintro rfl
        simp at hp
      rw [Function.update_of_ne hne] at hp
      exact ⟨hp, (hold_ne _ _ hne).trans (h.held p node hp)⟩
    · simp only [hok] at hp ⊢
      exact ⟨hp, h.held p node hp⟩
  · intro p n x hp hx
    exact (h.isolated.calls_keep ops hp hx).2 ptr

/-- Writing the link of a live node. -/
theorem Keeps.setNext (h : Keeps heap held objects) (hp : objects p = some node)
    (w : UInt32) :
    Keeps { heap with memory := setNodeNext heap.memory p w } held (objects.setNext p w) := by
  have hother : ∀ q n, q ≠ p → objects.setNext p w q = some n → objects q = some n := by
    intro q n hne hq
    rwa [Objects.setNext, Function.update_of_ne hne] at hq
  have hsame : ∀ n, objects.setNext p w p = some n → n = { node with next := w } := by
    intro n hn
    rw [Objects.setNext, Function.update_self, hp] at hn
    exact (Option.some.inj hn).symm
  have hone := h.nodesApart [p] (by simp [hp])
  have honly := onlyLinks_set hone (p := p) (by simp) heap.memory w
  refine ⟨?_, ?_, ?_⟩
  · apply h.isolated.write
    intro x hx
    apply honly.onlyNodes
    intro q hq
    obtain rfl := List.mem_singleton.mp hq
    exact hx q _ (h.held q node hp)
  · intro q n hq
    by_cases hne : q = p
    · rw [hne]
      exact h.held p node hp
    · exact h.held q n (hother q n hne hq)
  · intro q n hq
    by_cases hne : q = p
    · subst hne
      obtain rfl := hsame n hq
      obtain ⟨hid, hvalue⟩ := honly.fields hone (p := q) (by simp)
      have hfields := h.fields q node hp
      exact ⟨hid.trans hfields.id, hvalue.trans hfields.value, nodeNext_set_same _ _ _⟩
    · have hlive := hother q n hne hq
      have hfields := h.fields q n hlive
      have htwo := h.nodesApart [p, q] (by simp [hp, hlive])
      obtain ⟨hid, hvalue⟩ :=
        (onlyLinks_set htwo (p := p) (by simp) heap.memory w).fields htwo (p := q) (by simp)
      have hnext := nodeNext_set_ne htwo (p := p) (q := q) (by simp) (by simp) hne heap.memory w
      exact ⟨hid.trans hfields.id, hvalue.trans hfields.value, hnext.trans hfields.next⟩

/-- Filling in a block that has just been given out. -/
theorem Keeps.create (h : Keeps heap held objects) (ops : GrowthOps σ) (id value : UInt32) :
    ∃ held', Keeps (kobjectNodeCreate ops heap id value).2 held'
      (if (kobjectNodeCreate ops heap id value).1 = 0 then objects
        else update objects (kobjectNodeCreate ops heap id value).1 (some ⟨id, value, 0⟩)) := by
  have hcreated := created_isolated (s := ⟨⟨heap, held⟩, [], fun _ => none⟩) h.isolated ops id value
  have hbytes := fun (p size x : UInt32) (hp : held p = some size) =>
    create_bytes (s := ⟨⟨heap, held⟩, [], fun _ => none⟩) h.isolated ops id value (x := x) hp
  obtain ⟨node, heap', _, ⟨_, hcreate⟩ | ⟨hne, hfresh, hupper, hcreate⟩⟩ :=
    create_cases (s := ⟨⟨heap, held⟩, [], fun _ => none⟩) h.isolated ops id value
  · simp only [hcreate, created, if_true] at hcreated hbytes ⊢
    exact ⟨held, h.frame hcreated (fun p n hp => ⟨hp, h.held p n hp⟩) hbytes⟩
  · simp only [hcreate, created, if_neg hne] at hcreated hbytes ⊢
    have hframe := @Keeps.frame _ _ _ _ h _ _ objects hcreated (fun p n hp => ⟨hp, ?_⟩) hbytes
    swap
    · rw [hold_ne]
      · exact h.held p n hp
      · rintro rfl
        simp [h.held _ n hp] at hfresh
    refine ⟨_, hcreated, ?_, ?_⟩
    · intro p n hp
      by_cases hpn : p = node
      · rw [hpn, hold_same]
      · rw [Function.update_of_ne hpn] at hp
        exact hframe.held p n hp
    · intro p n hp
      by_cases hpn : p = node
      · subst hpn
        rw [Function.update_self] at hp
        obtain rfl := Option.some.inj hp
        obtain ⟨hid, hvalue, hnext⟩ := initNode_fields hupper heap'.memory id value
        exact ⟨hid, hvalue, hnext⟩
      · rw [Function.update_of_ne hpn] at hp
        exact hframe.fields p n hp

/-! ### Walks -/

theorem unlink_eq (list : KobjectList) (memory : Memory) (prev cursor : UInt32) :
    unlink list memory prev cursor =
      ⟨true, some (unlinkedRecord list prev cursor (nodeNext memory cursor)),
        setNodeNext (if prev = 0 then memory else setNodeNext memory prev (nodeNext memory cursor))
          cursor 0⟩ := rfl

/-- A walk in the table is the walk in memory. -/
structure WalkAgrees (memory : Memory) (objects : Objects) (list : KobjectList) (id : UInt32)
    (fuel : ℕ) (prev start before found : UInt32) : Prop where
  find : run (findIteration memory id) fuel start = some found
  remove : run (removeIteration list memory id) fuel (prev, start) =
    some (if found = 0 then ⟨false, some list, memory⟩ else unlink list memory before found)
  found : found ≠ 0 → ∃ node, objects found = some node
  before : before = prev ∨ ∃ node, objects before = some node

theorem walk_agrees {memory : Memory} {id prev start before found : UInt32} {fuel fuel' : ℕ}
    (fields : ∀ p node, objects p = some node → NodeAt memory p node) (list : KobjectList)
    (hlocate : objects.locate id fuel prev start = some (before, found)) (hfuel : fuel ≤ fuel') :
    WalkAgrees memory objects list id fuel' prev start before found := by
  induction fuel generalizing prev start fuel' with
  | zero => simp [Objects.locate] at hlocate
  | succ fuel ih =>
    obtain ⟨fuel', rfl⟩ : ∃ k, fuel' = k + 1 := ⟨fuel' - 1, by omega⟩
    rw [Objects.locate] at hlocate
    by_cases hzero : start = 0
    · rw [if_pos hzero] at hlocate
      obtain ⟨rfl, rfl⟩ : prev = before ∧ 0 = found := by simpa using hlocate
      subst hzero
      exact ⟨run_leave (by simp [findIteration]) _, run_leave (by simp [removeIteration]) _,
        by simp, Or.inl rfl⟩
    · rw [if_neg hzero] at hlocate
      obtain ⟨node, hnode, hstep⟩ := Option.bind_eq_some_iff.mp hlocate
      have hat := fields start node hnode
      by_cases hid : node.id = id
      · rw [if_pos hid] at hstep
        obtain ⟨rfl, rfl⟩ : prev = before ∧ start = found := by simpa using hstep
        have hmatch : nodeId memory start = id := hat.id.trans hid
        refine ⟨run_leave (by simp [findIteration, hzero, hmatch]) _, ?_, fun _ => ⟨node, hnode⟩,
          Or.inl rfl⟩
        rw [if_neg hzero]
        exact run_leave (by simp [removeIteration, hzero, hmatch]) _
      · rw [if_neg hid] at hstep
        have hmiss : ¬ nodeId memory start = id := fun h => hid (hat.id.symm.trans h)
        obtain ⟨hfind, hremove, hfound, hbefore⟩ := ih hstep (Nat.le_of_succ_le_succ hfuel)
        have hgo : findIteration memory id start = .next node.next := by
          simp [findIteration, hzero, hmiss, hat.next]
        have hgo' : removeIteration list memory id (prev, start) = .next (start, node.next) := by
          simp [removeIteration, hzero, hmiss, hat.next]
        refine ⟨(run_next hgo _).trans hfind, (run_next hgo' _).trans hremove, hfound, ?_⟩
        rcases hbefore with rfl | hlive
        · exact Or.inr ⟨node, hnode⟩
        · exact Or.inr hlive

end Nodes

/-! ## The relation -/

inductive Holds {σ : Type*} (heap : Kheap σ) (objects : Objects) : Prop where
  | unused (state : heap.state.isInitialized = false) (none : ∀ p, objects p = none)
  | live (held : UInt32 → Option UInt32) (keeps : Keeps heap held objects)

structure Represents (frames : Stage5cFrameBookkeeping) (layout : TableLayout)
    (s : KernelHeapState) (r : ReferenceKernel) (supply : List Bool) : Prop where
  heap : HeapReference.Represents frames layout s r.heap supply
  holds : Holds s r.objects

section Calls

variable {frames : Stage5cFrameBookkeeping} {layout : TableLayout} {s : KernelHeapState}
  {r : ReferenceKernel} {supply : List Bool} {ε : Type} {p w : UInt32} {node : KobjectNode}

/-- The blocks stay when memory changes inside what is held. -/
theorem Represents.rewrite {held : UInt32 → Option UInt32} {memory : Memory}
    (h : HeapReference.Represents frames layout s r.heap supply) (hiso : Isolated ⟨s, held⟩)
    (same : ∀ x, (∀ p size, held p = some size → ¬ InRange p.toNat size.toNat x) →
      memory x = s.memory x) :
    HeapReference.Represents frames layout { s with memory := memory } r.heap supply := by
  obtain ⟨hbounded, hpages, hsupply⟩ := h
  refine ⟨?_, hpages, hsupply⟩
  cases hbounded with
  | unused hunused hstate => exact .unused hunused hstate
  | live hinit hinv hlimit =>
    obtain ⟨blocks, hinv', hheld⟩ := hiso
    obtain rfl := hinv.tiles.unique hinv'.tiles
    refine .live hinit (hinv.rewrite s.env fun c b hcb x hx => ?_) hlimit
    apply same
    intro p size hp hin
    exact hheld.not_header hp hin hcb hx

theorem Represents.setNext (h : Represents frames layout s r supply)
    (hp : r.objects p = some node) (w : UInt32) :
    Represents frames layout { s with memory := setNodeNext s.memory p w }
      { r with objects := Objects.setNext r.objects p w } supply := by
  obtain ⟨hheap, hholds⟩ := h
  cases hholds with
  | unused _ hnone => simp [hnone p] at hp
  | live held keeps =>
    refine ⟨Represents.rewrite hheap keeps.isolated ?_, .live held (keeps.setNext hp w)⟩
    intro x hx
    have hone := keeps.nodesApart [p] (by simp [hp])
    apply (onlyLinks_set hone (p := p) (by simp) s.memory w).onlyNodes
    intro q hq
    obtain rfl := List.mem_singleton.mp hq
    exact hx q _ (keeps.held q node hp)

/-! ### One call -/

/-- What the answer of the reference to a call says about the kernel. -/
def Served (frames : Stage5cFrameBookkeeping) (layout : TableLayout) (fuel : ℕ)
    (s : KernelHeapState) (call : ServiceCall) :
    Option (Except (Option ε) (call.Answer × ReferenceKernel) × List Bool) → Prop
  | some (.ok (x, r'), supply') =>
    ∃ t, serviceHandler fuel (kernelOps frames layout) s call = some (x, t) ∧
      Represents frames layout t r' supply'
  | some (.error none, _) => True
  | _ => False

theorem kfree_eq {σ : Type*} (heap : Kheap σ) (ptr : UInt32) :
    kfree heap ptr = stage9aKheapFree heap ptr := by
  rw [kfree]
  split
  · next hzero =>
    rw [stage9aKheapFree, if_pos (Or.inr hzero)]
  · rfl

theorem destroy_eq {σ : Type*} (heap : Kheap σ) (node : UInt32) :
    kobjectNodeDestroy heap node = stage9aKheapFree heap node := by
  rw [kobjectNodeDestroy, ← kfree_eq]
  split
  · next hzero => rw [kfree, if_pos hzero]
  · rfl

theorem Represents.bootstrap (h : Represents frames layout s r supply) :
    (stage8cKheapBootstrapInit s).1 = true ∧
      Represents frames layout (stage8cKheapBootstrapInit s).2
        { r with heap := { r.heap with initialized := true } } supply := by
  obtain ⟨hheap, hholds⟩ := h
  obtain ⟨hok, hheap'⟩ := hheap.bootstrap
  refine ⟨hok, hheap', ?_⟩
  cases hholds with
  | unused hstate hnone =>
    refine .live (fun _ => none) ⟨⟨[], (bootstrap_inv s hstate).2, ?_⟩, ?_, ?_⟩
    · exact ⟨by simp, by simp [layoutFrom]⟩
    · simp [hnone]
    · simp [hnone]
  | live held keeps =>
    obtain ⟨_, hinv, _⟩ := keeps.isolated
    have hinit : s.state.isInitialized = true := hinv.initialized
    have hagain : stage8cKheapBootstrapInit s = (true, s) := by
      simp [stage8cKheapBootstrapInit, hinit]
    rw [hagain]
    exact .live held keeps

theorem Represents.alloc (h : Represents frames layout s r supply) (ht : SoundTable frames)
    (size : UInt32) :
    ∃ r' supply', run answered (r.alloc size : Program question (Option ε) _) supply =
        some (.ok ((stage8cKheapAlloc (kernelOps frames layout) s size).1, r'), supply') ∧
      Represents frames layout (stage8cKheapAlloc (kernelOps frames layout) s size).2 r'
        supply' := by
  obtain ⟨hheap, hholds⟩ := h
  obtain ⟨heap', hrun, hheap'⟩ := hheap.alloc (ε := Option ε) ht size
  refine ⟨{ r with heap := heap' }, _, run_bind_ok hrun, hheap', ?_⟩
  cases hholds with
  | unused hstate hnone =>
    have hstay : stage8cKheapAlloc (kernelOps frames layout) s size = (0, s) := by
      simp [stage8cKheapAlloc, hstate]
    rw [hstay]
    exact .unused hstate hnone
  | live held keeps => exact .live _ (keeps.alloc _ size)

theorem Represents.free (h : Represents frames layout s r supply) (ptr : UInt32) :
    (stage9aKheapFree s ptr).1 = (r.heap.free ptr).1 ∧
      Represents frames layout (stage9aKheapFree s ptr).2 (r.free ptr).2 supply := by
  obtain ⟨hheap, hholds⟩ := h
  obtain ⟨hok, hheap'⟩ := hheap.free ptr
  refine ⟨hok, hheap', ?_⟩
  rw [ReferenceKernel.free, ← hok]
  cases hholds with
  | unused hstate hnone =>
    have hstay : stage9aKheapFree s ptr = (false, s) := by simp [stage9aKheapFree, hstate]
    rw [hstay]
    exact .unused hstate hnone
  | live held keeps =>
    obtain ⟨held', keeps'⟩ := keeps.free (kernelOps frames layout) ptr
    exact .live held' keeps'

theorem Represents.create (h : Represents frames layout s r supply) (ht : SoundTable frames)
    (id value : UInt32) :
    ∃ r' supply', run answered (r.create id value : Program question (Option ε) _) supply =
        some (.ok ((kobjectNodeCreate (kernelOps frames layout) s id value).1, r'), supply') ∧
      Represents frames layout (kobjectNodeCreate (kernelOps frames layout) s id value).2 r'
        supply' := by
  obtain ⟨hheap, hholds⟩ := h
  obtain ⟨heap', hrun, hheap'⟩ := hheap.alloc (ε := Option ε) ht kobjectNodeSize
  rw [ReferenceKernel.create, run_bind_ok hrun]
  cases hholds with
  | unused hstate hnone =>
    have hstay : stage8cKheapAlloc (kernelOps frames layout) s kobjectNodeSize = (0, s) := by
      simp [stage8cKheapAlloc, hstate]
    have hnode : kobjectNodeCreate (kernelOps frames layout) s id value = (0, s) := by
      simp [kobjectNodeCreate, kmalloc_eq, hstay]
    rw [hstay] at hheap' ⊢
    rw [hnode]
    exact ⟨{ r with heap := heap' }, _, rfl, hheap', .unused hstate hnone⟩
  | live held keeps =>
    obtain ⟨held', keeps'⟩ := keeps.create (kernelOps frames layout) id value
    have hiso := (keeps.alloc (kernelOps frames layout) kobjectNodeSize).isolated
    obtain ⟨node, heap, hcall, ⟨hnull, hcreate⟩ | ⟨hne, _, hupper, hcreate⟩⟩ :=
      create_cases (s := ⟨⟨s, held⟩, [], fun _ => none⟩) keeps.isolated (kernelOps frames layout)
        id value
    · simp only [hcreate, hcall, hnull] at hheap' keeps' ⊢
      exact ⟨{ r with heap := heap' }, _, rfl, hheap', .live held' keeps'⟩
    · simp only [hcreate, hcall, if_neg hne] at hheap' keeps' hiso ⊢
      refine ⟨⟨heap', update r.objects node (some ⟨id, value, 0⟩)⟩, _, rfl, ?_, .live held' keeps'⟩
      apply Represents.rewrite (r := ⟨heap', r.objects⟩) hheap' hiso
      intro x hx
      exact initNode_outside hupper (hx node _ (hold_same _ _ _))

theorem Represents.fields (h : Represents frames layout s r supply) :
    ∀ p node, r.objects p = some node → NodeAt s.memory p node := by
  intro p node hp
  cases h.holds with
  | unused _ hnone => simp [hnone p] at hp
  | live held keeps => exact keeps.fields p node hp

theorem Represents.append (h : Represents frames layout s r supply) (fuel : ℕ)
    (list : KobjectList) (node : UInt32) :
    Served frames layout fuel s (.kobjectListAppend (some list) node)
      (run answered (r.append list node : Program question (Option ε) _) supply) := by
  rw [ReferenceKernel.append]
  by_cases hnull : node = 0
  · rw [if_pos hnull]
    exact ⟨s, by simp [serviceHandler, kobjectListAppend, hnull], h⟩
  rw [if_neg hnull]
  cases hnode : r.objects node with
  | none => trivial
  | some fields =>
    have hnext := (h.fields node fields hnode).next
    by_cases hlinked : fields.next ≠ 0
    · simp only [if_pos hlinked]
      exact ⟨s, by simp [serviceHandler, kobjectListAppend, hnull, hnext, hlinked], h⟩
    have hloose : fields.next = 0 := not_not.mp hlinked
    simp only [if_neg hlinked]
    by_cases hhead : list.head = 0
    · rw [if_pos hhead]
      exact ⟨s, by simp [serviceHandler, kobjectListAppend, hnull, hnext, hloose, hhead], h⟩
    rw [if_neg hhead]
    by_cases htail : list.tail = 0
    · rw [if_pos htail]
      exact ⟨s, by simp [serviceHandler, kobjectListAppend, hnull, hnext, hloose, hhead, htail], h⟩
    rw [if_neg htail]
    cases hlast : r.objects list.tail with
    | none => trivial
    | some last =>
      refine ⟨_, ?_, h.setNext hlast node⟩
      simp [serviceHandler, kobjectListAppend, hnull, hnext, hloose, hhead, htail]

theorem Represents.find (h : Represents frames layout s r supply) {fuel fuel' : ℕ}
    (hfuel : fuel ≤ fuel') (list : KobjectList) (id : UInt32) :
    Served frames layout fuel' s (.kobjectListFindById (some list) id)
      (run answered (referenceServices fuel r (.kobjectListFindById (some list) id) :
        Program question (Option ε) _) supply) := by
  rw [referenceServices]
  cases hlocate : Objects.locate r.objects id fuel 0 list.head with
  | none => trivial
  | some found =>
    have hwalk := walk_agrees h.fields list hlocate hfuel
    exact ⟨s, by simp [serviceHandler, kobjectListFindById, hwalk.find], h⟩

theorem Represents.remove (h : Represents frames layout s r supply) {fuel fuel' : ℕ}
    (hfuel : fuel ≤ fuel') (list : KobjectList) (id : UInt32) :
    Served frames layout fuel' s (.kobjectListRemoveById (some list) id)
      (run answered (r.remove fuel list id : Program question (Option ε) _) supply) := by
  rw [ReferenceKernel.remove]
  cases hlocate : Objects.locate r.objects id fuel 0 list.head with
  | none => trivial
  | some found =>
    obtain ⟨prev, cursor⟩ := found
    have hwalk := walk_agrees h.fields list hlocate hfuel
    by_cases hmissing : cursor = 0
    · simp only [if_pos hmissing]
      refine ⟨s, ?_, h⟩
      simp [serviceHandler, kobjectListRemoveById, hwalk.remove, hmissing]
    obtain ⟨fields, hcursor⟩ := hwalk.found hmissing
    have hnext := (h.fields cursor fields hcursor).next
    simp only [if_neg hmissing, hcursor]
    refine ⟨{ s with memory := (unlink list s.memory prev cursor).memory }, ?_, ?_⟩
    · simp [serviceHandler, kobjectListRemoveById, hwalk.remove, hmissing, unlink_eq, hnext]
    rw [unlink_eq, hnext, Objects.unlinked]
    by_cases hfirst : prev = 0
    · simp only [if_pos hfirst]
      exact h.setNext hcursor 0
    · simp only [if_neg hfirst]
      obtain ⟨before, hbefore⟩ := hwalk.before.resolve_left hfirst
      have hmiddle := h.setNext hbefore fields.next
      obtain ⟨fields', hcursor'⟩ : ∃ fields',
          Objects.setNext r.objects prev fields.next cursor = some fields' := by
        by_cases hsame : cursor = prev
        · rw [hsame, Objects.setNext, Function.update_self, hbefore]
          exact ⟨_, rfl⟩
        · rw [Objects.setNext, Function.update_of_ne hsame]
          exact ⟨fields, hcursor⟩
      exact hmiddle.setNext hcursor' 0

/-- Wherever the reference answers, the kernel answers alike and stays represented. -/
theorem Represents.call (h : Represents frames layout s r supply) (ht : SoundTable frames)
    {fuel fuel' : ℕ} (hfuel : fuel ≤ fuel') (call : ServiceCall) :
    Served frames layout fuel' s call
      (run answered (referenceServices fuel r call : Program question (Option ε) _) supply) := by
  have halloc : ∀ size, ∃ r' supply',
      run answered (r.alloc size : Program question (Option ε) _) supply =
        some (.ok ((stage8cKheapAlloc (kernelOps frames layout) s size).1, r'), supply') ∧
      Represents frames layout (stage8cKheapAlloc (kernelOps frames layout) s size).2 r'
        supply' := h.alloc ht
  cases call with
  | heap call =>
    cases call with
    | bootstrapInit =>
      obtain ⟨hok, hrep⟩ := h.bootstrap
      refine ⟨_, ?_, hrep⟩
      rw [← hok]
      rfl
    | alloc size =>
      obtain ⟨r', supply', hrun, hrep⟩ := halloc size
      rw [referenceServices, hrun]
      exact ⟨_, rfl, hrep⟩
    | free ptr =>
      obtain ⟨hok, hrep⟩ := h.free ptr
      refine ⟨_, ?_, hrep⟩
      rw [← hok]
      rfl
    | getState out =>
      refine ⟨s, ?_, h⟩
      rw [← h.heap.getState out]
      rfl
  | kmalloc size =>
    obtain ⟨r', supply', hrun, hrep⟩ := halloc size
    rw [referenceServices, hrun]
    refine ⟨_, ?_, hrep⟩
    rw [serviceHandler, kmalloc_eq]
  | kfree ptr =>
    obtain ⟨hok, hrep⟩ := h.free ptr
    refine ⟨_, ?_, hrep⟩
    rw [serviceHandler, kfree_eq, ← hok]
  | kobjectNodeCreate id value =>
    obtain ⟨r', supply', hrun, hrep⟩ := h.create (ε := ε) ht id value
    rw [referenceServices, hrun]
    exact ⟨_, rfl, hrep⟩
  | kobjectNodeDestroy node =>
    obtain ⟨hok, hrep⟩ := h.free node
    refine ⟨_, ?_, hrep⟩
    rw [serviceHandler, destroy_eq, ← hok]
  | node ptr =>
    rw [referenceServices]
    cases hlive : r.objects ptr with
    | none => trivial
    | some fields =>
      have hat := h.fields ptr fields hlive
      refine ⟨s, ?_, h⟩
      rw [serviceHandler, hat.id, hat.value, hat.next]
  | kobjectListAppend list node =>
    cases list with
    | none => exact ⟨s, rfl, h⟩
    | some list => exact h.append fuel' list node
  | kobjectListFindById list id =>
    cases list with
    | none => exact ⟨s, rfl, h⟩
    | some list => exact h.find hfuel list id
  | kobjectListRemoveById list id =>
    cases list with
    | none => exact ⟨s, rfl, h⟩
    | some list => exact h.remove hfuel list id

/-- Over any program the kernel gives the answers of the reference, as long as that does not
give up. -/
theorem Represents.program (h : Represents frames layout s r supply) (ht : SoundTable frames)
    {fuel fuel' : ℕ} (hfuel : fuel ≤ fuel') {α : Type} (p : Program serviceInterface ε α) :
    Matches (serviceHandler fuel' (kernelOps frames layout)) some (Represents frames layout) p s
      (run answered (implement (referenceServices fuel) some p r) supply) := by
  apply run_simulation (R := Represents frames layout) (Option.some_injective ε) _ _ p h
  · intro s r supply call x r' supply' hrep hserve
    have hserved := hrep.call (ε := ε) ht hfuel call
    rw [hserve] at hserved
    exact hserved
  · intro s r supply call e supply' hrep hserve
    have hserved := hrep.call (ε := ε) ht hfuel call
    rw [hserve] at hserved
    exact hserved

/-- Nothing is given out before the heap is initialized. -/
theorem unused_represents (memory : Memory) {pmm : Pmm} {pages : PageMemory} {map : PageMap}
    (htracks : ∃ queue fresh, Tracks frames pmm queue fresh) (hrefines : Refines layout pages map)
    (hfree : ∀ v : UInt32, heapStart ≤ v.toNat → v.toNat < heapEnd → map v = none) :
    Represents frames layout ⟨⟨false, 0, 0, 0, 0⟩, memory, ⟨pmm, pages, []⟩⟩ .unused
      (pageSupply frames pmm) :=
  ⟨HeapReference.unused_represents memory htracks hrefines hfree, .unused rfl fun _ => rfl⟩

end Calls

/-- Two nodes in one list, and the node that is found by the id of the second. -/
def findSecond : Program serviceInterface Panic UInt32 :=
  .call (.heap .bootstrapInit) fun _ =>
  .call (.kobjectNodeCreate 1 10) fun a =>
  .call (.kobjectNodeCreate 2 20) fun b =>
  .call (.kobjectListAppend (some ⟨0, 0, 0⟩) a) fun reply =>
  .call (.kobjectListAppend reply.2 b) fun reply =>
  .call (.kobjectListFindById reply.2 2) fun found => .pure found

end KernelServices
