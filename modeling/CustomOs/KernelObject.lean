import CustomOs.KernelHeapIsolation
import CustomOs.Library.LinkedChain

/-! # Kernel objects (Stages 11A to 11E)
Nodes live in heap blocks and are linked by address; the list records belong to their callers.
A list argument is the record behind the pointer, `none` when it is null. -/
namespace KernelObject

open ByteMemory Loop KernelHeap KernelHeapIsolation

/-! ## Nodes -/

def kobjectNodeSize : UInt32 := 12

def nodeId (memory : Memory) (node : UInt32) : UInt32 := load32 memory node
def nodeValue (memory : Memory) (node : UInt32) : UInt32 := load32 memory (node + 4)
def nodeNext (memory : Memory) (node : UInt32) : UInt32 := load32 memory (node + 8)

def setNodeId (memory : Memory) (node w : UInt32) : Memory := store32 memory node w
def setNodeValue (memory : Memory) (node w : UInt32) : Memory := store32 memory (node + 4) w
def setNodeNext (memory : Memory) (node w : UInt32) : Memory := store32 memory (node + 8) w

section Create

variable {σ : Type*} (ops : GrowthOps σ) (heap : Kheap σ)

def kmalloc (size : UInt32) : UInt32 × Kheap σ :=
  if size = 0 then (0, heap) else stage8cKheapAlloc ops heap size

def kfree (ptr : UInt32) : Bool × Kheap σ :=
  if ptr = 0 then (false, heap) else stage9aKheapFree heap ptr

def kobjectNodeCreate (id value : UInt32) : UInt32 × Kheap σ :=
  let (node, heap) := kmalloc ops heap kobjectNodeSize
  if node = 0 then (0, heap)
  else
    let memory := setNodeId heap.memory node id
    let memory := setNodeValue memory node value
    (node, { heap with memory := setNodeNext memory node 0 })

end Create

/-! ## Lists -/

structure KobjectList where
  head : UInt32
  tail : UInt32
  count : UInt32
  deriving DecidableEq, Repr

/-- Return value, record behind the list pointer, memory. -/
structure ListOutcome where
  result : Bool
  list : Option KobjectList
  memory : Memory

def kobjectListInit : Option KobjectList → Option KobjectList
  | none => none
  | some _ => some ⟨0, 0, 0⟩

def kobjectListAppend (list : Option KobjectList) (memory : Memory) (node : UInt32) :
    ListOutcome :=
  match list with
  | none => ⟨false, none, memory⟩
  | some list =>
    if node = 0 then ⟨false, some list, memory⟩
    else if nodeNext memory node ≠ 0 then ⟨false, some list, memory⟩
    else if list.head = 0 then ⟨true, some ⟨node, node, 1⟩, memory⟩
    else if list.tail = 0 then ⟨false, some list, memory⟩
    else
      ⟨true, some ⟨list.head, node, list.count + 1⟩, setNodeNext memory list.tail node⟩

/-- The loop of `kobject_list_find_by_id`; it leaves with the node, or null. -/
def findIteration (memory : Memory) (id cursor : UInt32) : Iteration UInt32 UInt32 :=
  if cursor = 0 then .leave 0
  else if nodeId memory cursor = id then .leave cursor
  else .next (nodeNext memory cursor)

/-- Taking `cursor` out of the list, `prev` in front of it or null. -/
def unlink (list : KobjectList) (memory : Memory) (prev cursor : UInt32) : ListOutcome :=
  let next := nodeNext memory cursor
  let list := if prev = 0 then { list with head := next } else list
  let memory := if prev = 0 then memory else setNodeNext memory prev next
  let list := if list.tail = cursor then { list with tail := prev } else list
  let memory := setNodeNext memory cursor 0
  let list := if 0 < list.count then { list with count := list.count - 1 } else list
  let list := if list.count = 0 then { list with head := 0, tail := 0 } else list
  ⟨true, some list, memory⟩

/-- The loop of `kobject_list_remove_by_id` on `prev` and `cursor`. -/
def removeIteration (list : KobjectList) (memory : Memory) (id : UInt32)
    (loop : UInt32 × UInt32) : Iteration (UInt32 × UInt32) ListOutcome :=
  let (prev, cursor) := loop
  if cursor = 0 then .leave ⟨false, some list, memory⟩
  else if nodeId memory cursor = id then .leave (unlink list memory prev cursor)
  else .next (cursor, nodeNext memory cursor)

/-- The result within so many iterations, if the loop leaves by then. -/
def kobjectListFindById (fuel : ℕ) (list : Option KobjectList) (memory : Memory) (id : UInt32) :
    Option UInt32 :=
  match list with
  | none => some 0
  | some list => run (findIteration memory id) fuel list.head

def kobjectListRemoveById (fuel : ℕ) (list : Option KobjectList) (memory : Memory)
    (id : UInt32) : Option ListOutcome :=
  match list with
  | none => some ⟨false, none, memory⟩
  | some list => run (removeIteration list memory id) fuel (0, list.head)

/-! ## Histories -/

/-- The heap and its holders, the nodes created, and the lists by number. -/
structure KobjectSystem (σ : Type*) where
  heap : HeapSystem σ
  nodes : List UInt32
  lists : ℕ → Option KobjectList

def KobjectSystem.memory {σ : Type*} (s : KobjectSystem σ) : Memory := s.heap.heap.memory

/-- The effect of a list call on the list passed and on the memory. -/
def KobjectSystem.update {σ : Type*} (s : KobjectSystem σ) (l : ℕ) (list : Option KobjectList)
    (memory : Memory) : KobjectSystem σ :=
  { s with
    heap := { s.heap with heap := { s.heap.heap with memory := memory } }
    lists := fun k => if k = l then list else s.lists k }

inductive KobjectCall where
  | init (l : ℕ)
  | create (id value node : UInt32)
  | append (l : ℕ) (node : UInt32) (accepted : Bool)
  | remove (l : ℕ) (id : UInt32) (removed : Bool)
  deriving DecidableEq, Repr

/-- A node is held like any other block; a failed creation changes nothing but the heap. -/
def created {σ : Type*} (s : KobjectSystem σ) (node : UInt32) (heap : Kheap σ) :
    KobjectSystem σ :=
  if node = 0 then { s with heap := { s.heap with heap := heap } }
  else
    { s with
      heap := ⟨heap, hold s.heap.held node (some kobjectNodeSize)⟩
      nodes := node :: s.nodes }

theorem created_lists {σ : Type*} (s : KobjectSystem σ) (node : UInt32) (heap : Kheap σ) :
    (created s node heap).lists = s.lists := by
  rw [created]
  split <;> rfl

/-- Callers initialize fresh lists and append live nodes, linked or not. A removal is a step
when its loop ends. -/
inductive KobjectStep {σ : Type*} (ops : GrowthOps σ) :
    KobjectSystem σ → KobjectCall → KobjectSystem σ → Prop where
  | init (s : KobjectSystem σ) (l : ℕ) (list : KobjectList) (fresh : s.lists l = none) :
      KobjectStep ops s (.init l) (s.update l (kobjectListInit (some list)) s.memory)
  | create (s : KobjectSystem σ) (id value : UInt32) :
      KobjectStep ops s (.create id value (kobjectNodeCreate ops s.heap.heap id value).1)
        (created s (kobjectNodeCreate ops s.heap.heap id value).1
          (kobjectNodeCreate ops s.heap.heap id value).2)
  | append (s : KobjectSystem σ) (l : ℕ) (node : UInt32) (live : node = 0 ∨ node ∈ s.nodes) :
      KobjectStep ops s
        (.append l node (kobjectListAppend (s.lists l) s.memory node).result)
        (s.update l (kobjectListAppend (s.lists l) s.memory node).list
          (kobjectListAppend (s.lists l) s.memory node).memory)
  | remove (s : KobjectSystem σ) (l : ℕ) (id : UInt32) (fuel : ℕ) {outcome : ListOutcome}
      (ends : kobjectListRemoveById fuel (s.lists l) s.memory id = some outcome) :
      KobjectStep ops s (.remove l id outcome.result)
        (s.update l outcome.list outcome.memory)

/-- Before any call of the object layer. -/
def noObjects {σ : Type*} (memory : Memory) (env : σ) : KobjectSystem σ :=
  ⟨bootstrapped memory env, [], fun _ => none⟩

abbrev KobjectRun {σ : Type*} (ops : GrowthOps σ) (memory : Memory) (env : σ) :
    List KobjectCall → KobjectSystem σ → Prop :=
  Transition.Execution (KobjectStep ops) (noObjects memory env)

end KernelObject
