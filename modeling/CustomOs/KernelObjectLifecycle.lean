import CustomOs.KernelHeapRepresentation
import CustomOs.KernelObjectIntegrity
import Mathlib.Data.List.Find

/-! # Kernel objects over their whole life
Objects are created, linked, removed, destroyed and their blocks reused, between allocations,
frees and writes of others. The reference knows the live objects and the sequence of each list
and nothing of memory; what the object layer answers over any history is what it answers. -/
namespace KernelObjectLifecycle

open ByteMemory Loop LinkedChain KernelHeap KernelHeapTiling KernelHeapIsolation
open KernelHeapRepresentation KernelObject KernelObjectIntegrity
open Function (update)

def kobjectNodeDestroy {σ : Type*} (heap : Kheap σ) (node : UInt32) : Bool × Kheap σ :=
  if node = 0 then (false, heap) else kfree heap node

def kobjectListCount : Option KobjectList → UInt32
  | none => 0
  | some list => list.count

/-! ## Histories -/

inductive LifecycleCall where
  | init (l : ℕ)
  | create (id value node : UInt32)
  | append (l : ℕ) (node : UInt32) (accepted : Bool)
  | find (l : ℕ) (id node : UInt32)
  | count (l : ℕ) (n : UInt32)
  | remove (l : ℕ) (id : UInt32) (removed : Bool)
  | destroy (node : UInt32) (accepted : Bool)
  | heap (event : HeapEvent)
  deriving DecidableEq, Repr

/-- Destroyed nodes are no longer held. -/
def destroyed {σ : Type*} (s : KobjectSystem σ) (node : UInt32) (outcome : Bool × Kheap σ) :
    KobjectSystem σ :=
  if outcome.1 then
    { s with
      heap := ⟨outcome.2, hold s.heap.held node none⟩
      nodes := s.nodes.filter (· ≠ node) }
  else { s with heap := { s.heap with heap := outcome.2 } }

/-- What others do with the heap, through `kmalloc` and `kfree`: they free no node and write into
none. -/
def Foreign {σ : Type*} (s : KobjectSystem σ) : HeapEvent → Prop
  | .free ptr _ => ptr ∉ s.nodes
  | .write addr _ => ∀ p ∈ s.nodes, ¬ InRange p.toNat 12 addr
  | _ => True

/-- A live node that is in no list, or null. -/
def Loose {σ : Type*} (s : KobjectSystem σ) (node : UInt32) : Prop :=
  node = 0 ∨ node ∈ s.nodes ∧ ¬ Linked s node

/-- Lists may be initialized at any time, over any contents of their record. The two loops are
steps when they end. -/
inductive LifecycleStep {σ : Type*} (ops : GrowthOps σ) :
    KobjectSystem σ → LifecycleCall → KobjectSystem σ → Prop where
  | init (s : KobjectSystem σ) (l : ℕ) (list : KobjectList) :
      LifecycleStep ops s (.init l) (s.update l (kobjectListInit (some list)) s.memory)
  | create (s : KobjectSystem σ) (id value : UInt32) :
      LifecycleStep ops s (.create id value (kobjectNodeCreate ops s.heap.heap id value).1)
        (created s (kobjectNodeCreate ops s.heap.heap id value).1
          (kobjectNodeCreate ops s.heap.heap id value).2)
  | append (s : KobjectSystem σ) (l : ℕ) (node : UInt32) (loose : Loose s node) :
      LifecycleStep ops s
        (.append l node (kobjectListAppend (s.lists l) s.memory node).result)
        (s.update l (kobjectListAppend (s.lists l) s.memory node).list
          (kobjectListAppend (s.lists l) s.memory node).memory)
  | find (s : KobjectSystem σ) (l : ℕ) (id : UInt32) (fuel : ℕ) {node : UInt32}
      (ends : kobjectListFindById fuel (s.lists l) s.memory id = some node) :
      LifecycleStep ops s (.find l id node) s
  | count (s : KobjectSystem σ) (l : ℕ) :
      LifecycleStep ops s (.count l (kobjectListCount (s.lists l))) s
  | remove (s : KobjectSystem σ) (l : ℕ) (id : UInt32) (fuel : ℕ) {outcome : ListOutcome}
      (ends : kobjectListRemoveById fuel (s.lists l) s.memory id = some outcome) :
      LifecycleStep ops s (.remove l id outcome.result)
        (s.update l outcome.list outcome.memory)
  | destroy (s : KobjectSystem σ) (node : UInt32) (loose : Loose s node) :
      LifecycleStep ops s (.destroy node (kobjectNodeDestroy s.heap.heap node).1)
        (destroyed s node (kobjectNodeDestroy s.heap.heap node))
  | heap {s : KobjectSystem σ} {event : HeapEvent} {heap : HeapSystem σ}
      (step : PayloadStep ops s.heap event heap) (foreign : Foreign s event) :
      LifecycleStep ops s (.heap event) { s with heap := heap }

abbrev LifecycleRun {σ : Type*} (ops : GrowthOps σ) (memory : Memory) (env : σ) :
    List LifecycleCall → KobjectSystem σ → Prop :=
  Transition.Execution (LifecycleStep ops) (noObjects memory env)

/-! ## The reference -/

/-- The id and the value of each live node, the nodes of each list in order, and the nodes that
the initialization of a list in use has left behind with a successor. -/
structure ObjectSpace where
  objects : UInt32 → Option (UInt32 × UInt32)
  sequences : ℕ → Option (List UInt32)
  stale : Finset UInt32

def ObjectSpace.empty : ObjectSpace := ⟨fun _ => none, fun _ => none, ∅⟩

def ObjectSpace.chain (a : ObjectSpace) (l : ℕ) : List UInt32 := (a.sequences l).getD []

def ObjectSpace.hasId (a : ObjectSpace) (id node : UInt32) : Bool :=
  (a.objects node).any fun object => object.1 == id

/-- A call without the answer of the object layer. Where a creation gets its block, and what
others do with the heap, is not for the object layer to answer. -/
inductive LifecycleRequest where
  | init (l : ℕ)
  | create (id value node : UInt32)
  | append (l : ℕ) (node : UInt32)
  | find (l : ℕ) (id : UInt32)
  | count (l : ℕ)
  | remove (l : ℕ) (id : UInt32)
  | destroy (node : UInt32)
  | heap (event : HeapEvent)

def LifecycleCall.request : LifecycleCall → LifecycleRequest
  | .init l => .init l
  | .create id value node => .create id value node
  | .append l node _ => .append l node
  | .find l id _ => .find l id
  | .count l _ => .count l
  | .remove l id _ => .remove l id
  | .destroy node _ => .destroy node
  | .heap event => .heap event

def reference (a : ObjectSpace) : LifecycleRequest → LifecycleCall × ObjectSpace
  | .init l => (.init l,
    { a with
      sequences := update a.sequences l (some [])
      stale := a.stale ∪ (a.chain l).dropLast.toFinset })
  | .create id value node => (.create id value node,
    if node = 0 then a else { a with objects := update a.objects node (some (id, value)) })
  | .append l node =>
    if node = 0 ∨ a.sequences l = none ∨ node ∈ a.stale then (.append l node false, a)
    else
      (.append l node true,
        { a with sequences := update a.sequences l (some (a.chain l ++ [node])) })
  | .find l id => (.find l id (((a.chain l).find? (a.hasId id)).getD 0), a)
  | .count l => (.count l (UInt32.ofNat (a.chain l).length), a)
  | .remove l id =>
    if (a.chain l).any (a.hasId id) then
      (.remove l id true,
        { a with sequences := update a.sequences l (some ((a.chain l).eraseP (a.hasId id))) })
    else (.remove l id false, a)
  | .destroy node =>
    if node = 0 then (.destroy node false, a)
    else
      (.destroy node true,
        { a with objects := update a.objects node none, stale := a.stale.erase node })
  | .heap event => (.heap event, a)

/-! ## The memory holds what the reference knows -/

structure Models {σ : Type*} (s : KobjectSystem σ) (a : ObjectSpace) : Prop where
  chains : ChainsOf s a.chain
  listed : ∀ l, s.lists l = none ↔ a.sequences l = none
  live : ∀ p, p ∈ s.nodes ↔ a.objects p ≠ none
  contents : ∀ p id value, a.objects p = some (id, value) →
    nodeId s.memory p = id ∧ nodeValue s.memory p = value
  loose : ∀ p ∈ s.nodes, (∀ l, p ∉ a.chain l) → (nodeNext s.memory p ≠ 0 ↔ p ∈ a.stale)
  stale : ∀ p ∈ a.stale, p ∈ s.nodes ∧ ∀ l, p ∉ a.chain l

section Calls

variable {σ : Type*} {ops : GrowthOps σ} {s t : KobjectSystem σ} {a : ObjectSpace} {l : ℕ}
  {id value node : UInt32}

theorem noObjects_models (memory : Memory) (env : σ) :
    Models (noObjects memory env) .empty := by
  refine ⟨noObjects_chains memory env, fun l => ⟨fun _ => rfl, fun _ => rfl⟩, fun p => ?_,
    fun p id value h => ?_, fun p hp => ?_, fun p hp => ?_⟩
  · simp [noObjects, ObjectSpace.empty]
  · cases h
  · cases hp
  · simp [ObjectSpace.empty] at hp

theorem Models.hasId_iff (h : Models s a) (hp : node ∈ s.nodes) :
    a.hasId id node = true ↔ nodeId s.memory node = id := by
  obtain ⟨⟨id', value'⟩, hobject⟩ := Option.ne_none_iff_exists'.mp ((h.live node).mp hp)
  rw [ObjectSpace.hasId, hobject, Option.any_some, beq_iff_eq, (h.contents _ _ _ hobject).1]

/-- Members of a list have the id that their memory says. -/
theorem Models.hasId_member (h : Models s a) (hp : node ∈ a.chain l) :
    a.hasId id node = (nodeId s.memory node == id) := by
  rw [Bool.eq_iff_iff, h.hasId_iff (h.chains.members l node hp), beq_iff_eq]

theorem ObjectSpace.not_mem_of_others (hl : node ∉ a.chain l)
    (hother : ∀ k, k ≠ l → node ∉ a.chain k) : ∀ k, node ∉ a.chain k := by
  intro k
  by_cases hk : k = l
  · rwa [hk]
  · exact hother k hk

theorem Models.loose_iff (h : Models s a) :
    ¬ Linked s node ↔ ∀ l, node ∉ a.chain l := by
  rw [h.chains.linked_iff, not_exists]

/-- Whatever leaves the nodes and the records alone leaves the objects alone. -/
theorem Models.frame (h : Models s a) (isolated : Isolated t.heap)
    (held : ∀ p ∈ s.nodes, t.heap.held p = some kobjectNodeSize) (lists : t.lists = s.lists)
    (nodes : t.nodes = s.nodes)
    (bytes : ∀ p ∈ s.nodes, ∀ x, InRange p.toNat 12 x → t.memory x = s.memory x) :
    Models t a := by
  have hfields := h.chains.fields_kept bytes
  refine ⟨?_, fun l => ?_, fun p => ?_, fun p id value hobject => ?_, fun p hp => ?_,
    fun p hp => ?_⟩
  · rw [← nodes] at held
    exact h.chains.frame isolated held lists bytes (by rw [nodes]; exact h.chains.members)
  · rw [lists]
    exact h.listed l
  · rw [nodes]
    exact h.live p
  · have hp := (h.live p).mpr (by simp [hobject])
    rw [(hfields p hp).1, (hfields p hp).2.1]
    exact h.contents p id value hobject
  · rw [nodes] at hp
    rw [(hfields p hp).2.2]
    exact h.loose p hp
  · rw [nodes]
    exact h.stale p hp

/-! ### The calls on lists -/

theorem chain_update (objects : UInt32 → Option (UInt32 × UInt32))
    (sequences : ℕ → Option (List UInt32)) (l : ℕ) (xs : List UInt32) (stale : Finset UInt32) :
    ObjectSpace.chain ⟨objects, update sequences l (some xs), stale⟩ =
      fun k => if k = l then xs else (sequences k).getD [] := by
  funext k
  simp only [ObjectSpace.chain, Function.update_apply]
  split <;> rfl

/-- A call that gives one list another chain and writes links only. -/
theorem Models.relink (h : Models s a) {list' : Option KobjectList} {memory' : Memory}
    {xs' : List UInt32} {stale' : Finset UInt32}
    (chains : ChainsOf (s.update l list' memory') fun k => if k = l then xs' else a.chain k)
    (some_list : list' ≠ none) (links : OnlyLinks s.nodes s.memory memory')
    (loose : ∀ p ∈ s.nodes, p ∉ xs' → (∀ k, k ≠ l → p ∉ a.chain k) →
      (nodeNext memory' p ≠ 0 ↔ p ∈ stale'))
    (stale : ∀ p ∈ stale', p ∈ s.nodes ∧ p ∉ xs' ∧ ∀ k, k ≠ l → p ∉ a.chain k) :
    Models (s.update l list' memory') ⟨a.objects, update a.sequences l (some xs'), stale'⟩ := by
  have hsplit : ∀ p, (∀ k, p ∉ if k = l then xs' else a.chain k) ↔
      p ∉ xs' ∧ ∀ k, k ≠ l → p ∉ a.chain k := by
    intro p
    constructor
    · intro hall
      have hl := hall l
      rw [if_pos rfl] at hl
      refine ⟨hl, fun k hk => ?_⟩
      have hk' := hall k
      rwa [if_neg hk] at hk'
    · rintro ⟨hl, hother⟩ k
      by_cases hk : k = l
      · rwa [if_pos hk]
      · rw [if_neg hk]
        exact hother k hk
  constructor
  case chains =>
    rw [chain_update]
    exact chains
  case listed =>
    intro k
    by_cases hk : k = l
    · simp [KobjectSystem.update, hk, some_list]
    · simp only [KobjectSystem.update, if_neg hk, Function.update_of_ne hk]
      exact h.listed k
  case live => exact h.live
  case contents =>
    intro p id value hobject
    have hp := (h.live p).mpr (by simp [show a.objects p = some (id, value) from hobject])
    obtain ⟨hid, hvalue⟩ := links.fields h.chains.nodesApart hp
    have hold := h.contents p id value hobject
    exact ⟨hid.trans hold.1, hvalue.trans hold.2⟩
  case loose =>
    intro p hp
    rw [chain_update]
    intro hall
    obtain ⟨hl, hother⟩ := (hsplit p).mp hall
    exact loose p hp hl hother
  case stale =>
    intro p hp
    rw [chain_update]
    obtain ⟨hnode, hl, hother⟩ := stale p hp
    exact ⟨hnode, (hsplit p).mpr ⟨hl, hother⟩⟩

theorem Models.init (h : Models s a) (l : ℕ) (list : KobjectList) :
    Models (s.update l (kobjectListInit (some list)) s.memory)
      (reference a (.init l)).2 := by
  apply h.relink
  · exact h.chains.update (represents_init _) (fun _ _ => rfl) (fun _ _ _ => rfl) (by simp)
      (by simp)
  · simp [kobjectListInit]
  · exact .refl _ _
  · intro p hp _ hother
    rw [Finset.mem_union, List.mem_toFinset]
    by_cases hpl : p ∈ a.chain l
    · have hstale : p ∉ a.stale := fun hp' => (h.stale p hp').2 l hpl
      obtain ⟨record, hrecord⟩ := h.chains.list_of_mem hpl
      have hchain := (h.chains.represents l record hrecord).chain
      rw [mem_dropLast_iff 0 hchain.nodup hpl, ne_eq, hchain.next_null_iff hpl]
      simp [hstale]
    · have hdrop : p ∉ (a.chain l).dropLast := fun hp' => hpl (List.mem_of_mem_dropLast hp')
      simp only [hdrop, or_false]
      exact h.loose p hp (a.not_mem_of_others hpl hother)
  · intro p hp
    rw [Finset.mem_union, List.mem_toFinset] at hp
    rcases hp with hp | hp
    · exact ⟨(h.stale p hp).1, by simp, fun k _ => (h.stale p hp).2 k⟩
    · have hpl := List.mem_of_mem_dropLast hp
      exact ⟨h.chains.members l p hpl, by simp, fun k hk hpk => hk (h.chains.apart k l p hpk hpl)⟩

/-- A loose node is accepted by an initialized list unless it is stale. -/
theorem Models.append_accepted_iff (h : Models s a) (hloose : Loose s node) :
    (kobjectListAppend (s.lists l) s.memory node).result = true ↔
      ¬ (node = 0 ∨ a.sequences l = none ∨ node ∈ a.stale) := by
  rw [KernelObjectIntegrity.append_accepted_iff, not_or, not_or, ← h.listed]
  constructor
  · rintro ⟨record, hrecord, hne, hnext, _⟩
    obtain ⟨hnode, hlinked⟩ := hloose.resolve_left hne
    refine ⟨hne, by simp [hrecord], fun hstale => ?_⟩
    exact (h.loose node hnode (h.loose_iff.mp hlinked)).mpr hstale hnext
  · rintro ⟨hne, hlist, hstale⟩
    obtain ⟨hnode, hlinked⟩ := hloose.resolve_left hne
    obtain ⟨record, hrecord⟩ := Option.ne_none_iff_exists'.mp hlist
    refine ⟨record, hrecord, hne, ?_, h.chains.head_or_tail hrecord⟩
    by_contra hnext
    exact hstale ((h.loose node hnode (h.loose_iff.mp hlinked)).mp hnext)

theorem Models.append (h : Models s a) (hloose : Loose s node) :
    (reference a (.append l node)).1 =
        .append l node (kobjectListAppend (s.lists l) s.memory node).result ∧
      Models (s.update l (kobjectListAppend (s.lists l) s.memory node).list
        (kobjectListAppend (s.lists l) s.memory node).memory)
        (reference a (.append l node)).2 := by
  have hiff := h.append_accepted_iff hloose (l := l)
  by_cases hreject : node = 0 ∨ a.sequences l = none ∨ node ∈ a.stale
  · have hresult : (kobjectListAppend (s.lists l) s.memory node).result ≠ true :=
      fun haccept => hiff.mp haccept hreject
    obtain ⟨hlist, hmemory⟩ := append_rejected hresult
    simp only [reference, if_pos hreject]
    rw [hlist, hmemory, update_self]
    exact ⟨by simp [Bool.eq_false_iff.mpr hresult], h⟩
  · have haccept := hiff.mpr hreject
    simp only [reference, if_neg hreject, haccept, true_and]
    obtain ⟨hne, hlist, hstale⟩ : node ≠ 0 ∧ a.sequences l ≠ none ∧ node ∉ a.stale := by
      simpa only [not_or] using hreject
    obtain ⟨hnode, hlinked⟩ := hloose.resolve_left hne
    have hnot := h.loose_iff.mp hlinked
    obtain ⟨hchains, hlinks, hsome, hother⟩ := h.chains.link hnode hnot haccept
    apply h.relink hchains hsome hlinks
    · intro p hp hpl hpk
      simp only [List.mem_append, List.mem_singleton, not_or] at hpl
      rw [hother p hp hpl.1]
      exact h.loose p hp (a.not_mem_of_others hpl.1 hpk)
    · intro p hp
      refine ⟨(h.stale p hp).1, ?_, fun k _ => (h.stale p hp).2 k⟩
      simp only [List.mem_append, List.mem_singleton, not_or]
      refine ⟨(h.stale p hp).2 l, ?_⟩
      rintro rfl
      exact hstale hp

theorem Models.find_eq (h : Models s a) (id : UInt32) :
    ((a.chain l).find? fun x => nodeId s.memory x == id) = (a.chain l).find? (a.hasId id) :=
  List.find?_congr fun _ hx => (h.hasId_member hx).symm

/-- The search ends, on the first node with the id. -/
theorem Models.find_run (h : Models s a) (l : ℕ) (id : UInt32) :
    ∃ fuel, kobjectListFindById fuel (s.lists l) s.memory id =
      some (((a.chain l).find? (a.hasId id)).getD 0) := by
  cases hl : s.lists l with
  | none =>
    have hchain : a.chain l = [] := h.chains.absent l hl
    exact ⟨0, by simp [kobjectListFindById, hchain]⟩
  | some list =>
    have hrun := KernelObjectIntegrity.find_run (h.chains.represents l list hl).chain id
    rw [h.find_eq] at hrun
    simp only [kobjectListFindById]
    exact ⟨_, hrun⟩

theorem find_unique {list : Option KobjectList} {memory : Memory} {n m : ℕ} {p q : UInt32}
    (h : kobjectListFindById n list memory id = some p)
    (k : kobjectListFindById m list memory id = some q) : p = q := by
  cases list with
  | none => exact Option.some.inj (h.symm.trans k)
  | some list => exact run_unique h k

theorem Models.count_eq (h : Models s a) (l : ℕ) :
    kobjectListCount (s.lists l) = UInt32.ofNat (a.chain l).length := by
  cases hl : s.lists l with
  | none =>
    have hchain : a.chain l = [] := h.chains.absent l hl
    simp [kobjectListCount, hchain]
  | some list => rw [← (h.chains.represents l list hl).count, UInt32.ofNat_toNat, kobjectListCount]

theorem Models.remove (h : Models s a) {fuel : ℕ} {outcome : ListOutcome}
    (hends : kobjectListRemoveById fuel (s.lists l) s.memory id = some outcome) :
    (reference a (.remove l id)).1 = .remove l id outcome.result ∧
      Models (s.update l outcome.list outcome.memory) (reference a (.remove l id)).2 ∧
      (outcome.result = false → s.update l outcome.list outcome.memory = s) ∧
      (outcome.result = true → ∃ c, (a.chain l).find? (a.hasId id) = some c ∧
        nodeNext outcome.memory c = 0 ∧ ∀ k, c ∉ (reference a (.remove l id)).2.chain k) := by
  rcases h.chains.removed hends with
    ⟨rfl, hnone⟩ | ⟨pre, c, post, hxs, hpre, hc, hresult, hsome, hchains, hfree, hlinks, hother⟩
  · have hany : ¬ (a.chain l).any (a.hasId id) = true := by
      simp only [List.any_eq_true, not_exists, not_and]
      intro x hx
      rw [h.hasId_member hx, beq_iff_eq]
      exact hnone x hx
    simp only [reference, if_neg hany, update_self, true_and]
    exact ⟨h, fun _ => trivial, by simp⟩
  · have hids : ∀ x ∈ a.chain l, a.hasId id x = true ↔ nodeId s.memory x = id := fun x hx => by
      rw [h.hasId_member hx, beq_iff_eq]
    have hcl : c ∈ a.chain l := by simp [hxs]
    have hany : (a.chain l).any (a.hasId id) = true :=
      List.any_eq_true.mpr ⟨c, hcl, (hids c hcl).mpr hc⟩
    have hmiss : ∀ x ∈ pre, ¬ a.hasId id x = true := fun x hx =>
      (hids x (by simp [hxs, hx])).not.mpr (hpre x hx)
    have herase : (a.chain l).eraseP (a.hasId id) = pre ++ post := by
      rw [hxs, List.eraseP_append_right _ hmiss, List.eraseP_cons_of_pos ((hids c hcl).mpr hc)]
    have hfind : (a.chain l).find? (a.hasId id) = some c := by
      rw [hxs, List.find?_append, List.find?_eq_none.mpr hmiss, Option.none_or,
        List.find?_cons_of_pos ((hids c hcl).mpr hc)]
    have hgone : ∀ k, c ∉ if k = l then pre ++ post else a.chain k := by
      intro k hck
      split_ifs at hck with hk
      · obtain ⟨list, hlist⟩ := h.chains.list_of_mem hcl
        have hnodup := (h.chains.represents l list hlist).chain.nodup
        rw [hxs, List.nodup_middle, List.nodup_cons] at hnodup
        exact hnodup.1 hck
      · exact hk (h.chains.apart k l c hck hcl)
    simp only [reference, if_pos hany, hresult, herase, true_and]
    refine ⟨?_, by simp, fun _ => ⟨c, hfind, hfree, by rw [chain_update]; exact hgone⟩⟩
    apply h.relink hchains hsome hlinks
    · intro p hp hpl hpk
      by_cases hpc : p = c
      · subst hpc
        have hstale : p ∉ a.stale := fun hp' => (h.stale p hp').2 l hcl
        simp [hfree, hstale]
      · have hpchain : p ∉ a.chain l := by
          rw [hxs]
          simp only [List.mem_append, List.mem_cons, not_or] at hpl ⊢
          exact ⟨hpl.1, hpc, hpl.2⟩
        rw [hother p hp hpchain]
        exact h.loose p hp (a.not_mem_of_others hpchain hpk)
    · intro p hp
      refine ⟨(h.stale p hp).1, fun hpl => ?_, fun k _ => (h.stale p hp).2 k⟩
      apply (h.stale p hp).2 l
      rw [hxs]
      rcases List.mem_append.mp hpl with hpl | hpl <;> simp [hpl]

/-- The removal ends. -/
theorem Models.remove_ends (h : Models s a) (l : ℕ) (id : UInt32) :
    ∃ fuel outcome, kobjectListRemoveById fuel (s.lists l) s.memory id = some outcome :=
  h.chains.integrity.remove_ends l id

/-! ### The calls on the heap -/

/-- A held block is accepted by a free. -/
theorem free_held (h : Isolated s.heap) {p size : UInt32} (hp : s.heap.held p = some size) :
    (stage9aKheapFree s.heap.heap p).1 = true := by
  obtain ⟨blocks, hinv, hheld⟩ := h
  rcases hinv.free p with ⟨_, _, _, _, _, _, _, heq, _⟩ | ⟨hmiss, _⟩
  · rw [heq]
  · obtain ⟨c, b, hcb, halloc, hpc, _⟩ := hheld.held_block p size hp
    exact absurd hpc (hmiss c b hcb halloc)

theorem Models.destroy (h : Models s a) (ops : GrowthOps σ) (hloose : Loose s node) :
    (reference a (.destroy node)).1 =
        .destroy node (kobjectNodeDestroy s.heap.heap node).1 ∧
      Models (destroyed s node (kobjectNodeDestroy s.heap.heap node))
        (reference a (.destroy node)).2 := by
  by_cases hnull : node = 0
  · simp only [kobjectNodeDestroy, reference, if_pos hnull, destroyed, Bool.false_eq_true,
      if_false, true_and]
    exact h
  · obtain ⟨hnode, hlinked⟩ := hloose.resolve_left hnull
    have hheld := h.chains.held node hnode
    have haccept := free_held h.chains.isolated hheld
    have hstep := h.chains.isolated.step (@HeapStep.free σ ops s.heap node)
    have hbytes : ∀ p ∈ s.nodes, ∀ x, InRange p.toNat 12 x →
        (stage9aKheapFree s.heap.heap node).2.memory x = s.memory x := fun p hp x hx =>
      (h.chains.isolated.calls_keep ops (h.chains.held p hp) hx).2 node
    have hfields := h.chains.fields_kept hbytes
    rw [haccept, if_pos rfl] at hstep
    simp only [kobjectNodeDestroy, reference, if_neg hnull, destroyed, kfree_eq, haccept, if_true,
      true_and]
    have hrest : ∀ p, p ∈ s.nodes.filter (· ≠ node) ↔ p ∈ s.nodes ∧ p ≠ node := by simp
    have hnot := h.loose_iff.mp hlinked
    constructor
    case chains =>
      change ChainsOf _ a.chain
      refine ChainsOf.frame h.chains hstep ?_ rfl hbytes ?_
      · intro p hp
        obtain ⟨hp, hpn⟩ := (hrest p).mp hp
        exact (hold_ne _ _ hpn).trans (h.chains.held p hp)
      · intro l x hx
        refine (hrest x).mpr ⟨h.chains.members l x hx, ?_⟩
        rintro rfl
        exact hnot l hx
    case listed => exact h.listed
    case live =>
      intro p
      refine (hrest p).trans ?_
      change _ ↔ update a.objects node none p ≠ none
      by_cases hpn : p = node
      · simp [hpn]
      · rw [Function.update_of_ne hpn, ← h.live]
        simp [hpn]
    case contents =>
      intro p id value hobject
      by_cases hpn : p = node
      · simp [hpn] at hobject
      · simp only [Function.update_of_ne hpn] at hobject
        have hp := (h.live p).mpr (by simp [hobject])
        obtain ⟨hid, hvalue, _⟩ := hfields p hp
        have hold := h.contents p id value hobject
        exact ⟨hid.trans hold.1, hvalue.trans hold.2⟩
    case loose =>
      intro p hp hall
      obtain ⟨hp, hpn⟩ := (hrest p).mp hp
      have hnext := (hfields p hp).2.2
      rw [Finset.mem_erase]
      refine (not_congr (Eq.congr_left hnext)).trans ?_
      rw [and_iff_right hpn]
      exact h.loose p hp hall
    case stale =>
      intro p hp
      obtain ⟨hpn, hp⟩ := Finset.mem_erase.mp hp
      exact ⟨(hrest p).mpr ⟨(h.stale p hp).1, hpn⟩, (h.stale p hp).2⟩

/-- What others do with the heap touches no node. -/
theorem Models.heap (h : Models s a) {event : HeapEvent} {heap : HeapSystem σ}
    (hs : PayloadStep ops s.heap event heap) (hforeign : Foreign s event) :
    Models { s with heap := heap } a := by
  have hisolated : Isolated heap := by
    obtain ⟨blocks, hinv, hheld⟩ := h.chains.isolated
    obtain ⟨blocks', hinv', hheld', _⟩ := payloadStep_grows hinv hheld hs
    exact ⟨blocks', hinv', hheld'⟩
  have hkeep : ∀ p ∈ s.nodes, heap.held p = some kobjectNodeSize ∧
      ∀ x, InRange p.toNat 12 x → heap.heap.memory x = s.memory x := by
    intro p hp
    have hheld := h.chains.held p hp
    cases hs with
    | call step =>
      cases step with
      | alloc size =>
        refine ⟨?_, fun x hx => (h.chains.isolated.calls_keep ops hheld hx).1 size⟩
        simp only
        split_ifs with hnull
        · exact hheld
        · refine (hold_ne _ _ ?_).trans hheld
          rintro rfl
          rw [h.chains.isolated.alloc_fresh ops size hnull] at hheld
          cases hheld
      | free ptr =>
        refine ⟨?_, fun x hx => (h.chains.isolated.calls_keep ops hheld hx).2 ptr⟩
        simp only
        split_ifs
        · refine (hold_ne _ _ ?_).trans hheld
          rintro rfl
          exact hforeign hp
        · exact hheld
      | write ptr size addr byte hptr hin =>
        refine ⟨hheld, fun x hx => store8_ne _ _ ?_⟩
        rintro rfl
        exact hforeign p hp hx
      | environment env memory same =>
        refine ⟨hheld, fun x ⟨hl, hu⟩ => same x ?_ ?_⟩
        · have := (h.chains.isolated.isolation.contained p _ hheld).1
          rw [UInt32.le_iff_toNat_le]
          omega
        · have := (h.chains.isolated.isolation.contained p _ hheld).2
          have hsize : kobjectNodeSize.toNat = 12 := rfl
          rw [UInt32.lt_iff_toNat_lt]
          omega
    | fill ptr addr byte hptr hin =>
      refine ⟨hheld, fun x hx => store8_ne _ _ ?_⟩
      rintro rfl
      exact hforeign p hp hx
  exact h.frame hisolated (fun p hp => (hkeep p hp).1) rfl rfl fun p hp => (hkeep p hp).2

theorem Models.create (h : Models s a) (ops : GrowthOps σ) (id value : UInt32) :
    Models (created s (kobjectNodeCreate ops s.heap.heap id value).1
        (kobjectNodeCreate ops s.heap.heap id value).2)
      (reference a (.create id value (kobjectNodeCreate ops s.heap.heap id value).1)).2 := by
  have hisolated := created_isolated h.chains.isolated ops id value
  have hchains := h.chains.create ops id value
  have hbytes : ∀ p ∈ s.nodes, ∀ x, InRange p.toNat 12 x →
      (kobjectNodeCreate ops s.heap.heap id value).2.memory x = s.memory x := fun p hp x hx =>
    create_bytes h.chains.isolated ops id value (h.chains.held p hp) hx
  obtain ⟨node, heap, _, ⟨rfl, hcreate⟩ | ⟨hne, hfresh, hupper, hcreate⟩⟩ :=
    create_cases h.chains.isolated ops id value
  · rw [hcreate] at hisolated hbytes ⊢
    simp only [created, reference, if_true] at hisolated ⊢
    exact h.frame hisolated h.chains.held rfl rfl hbytes
  · rw [hcreate] at hchains hbytes ⊢
    simp only [created, reference, if_neg hne] at hchains ⊢
    have hnew : node ∉ s.nodes := by
      intro hnode
      rw [h.chains.held node hnode] at hfresh
      cases hfresh
    have hfields := initNode_fields hupper heap.memory id value
    have hkept := h.chains.fields_kept hbytes
    constructor
    case chains => exact hchains
    case listed => exact h.listed
    case live =>
      intro p
      change _ ↔ update a.objects node (some (id, value)) p ≠ none
      by_cases hpn : p = node
      · simp [hpn]
      · rw [Function.update_of_ne hpn, ← h.live]
        simp [hpn]
    case contents =>
      intro p id' value' hobject
      by_cases hpn : p = node
      · subst hpn
        simp only [Function.update_self, Option.some.injEq, Prod.mk.injEq] at hobject
        obtain ⟨rfl, rfl⟩ := hobject
        exact ⟨hfields.1, hfields.2.1⟩
      · simp only [Function.update_of_ne hpn] at hobject
        obtain ⟨hid, hvalue, _⟩ := hkept p ((h.live p).mpr (by simp [hobject]))
        have hold := h.contents p id' value' hobject
        exact ⟨hid.trans hold.1, hvalue.trans hold.2⟩
    case loose =>
      intro p hp hall
      by_cases hpn : p = node
      · subst hpn
        have hstale : p ∉ a.stale := fun hp' => hnew (h.stale p hp').1
        have hnext : nodeNext (initNode heap.memory p id value) p = 0 := hfields.2.2
        exact iff_of_false (not_not.mpr hnext) hstale
      · have hp := (List.mem_cons.mp hp).resolve_left hpn
        exact (not_congr (Eq.congr_left (hkept p hp).2.2)).trans (h.loose p hp hall)
    case stale =>
      exact fun p hp => ⟨List.mem_cons_of_mem _ (h.stale p hp).1, (h.stale p hp).2⟩

/-! ## Runs -/

/-- Every step is the answer of the reference to its request. -/
theorem Models.step {call : LifecycleCall} (h : Models s a) (hs : LifecycleStep ops s call t) :
    ∃ b, reference a call.request = (call, b) ∧ Models t b := by
  cases hs with
  | init l list => exact ⟨_, rfl, h.init l list⟩
  | create id value => exact ⟨_, rfl, h.create ops id value⟩
  | append l node loose =>
    obtain ⟨hanswer, hmodels⟩ := h.append loose
    exact ⟨_, Prod.ext hanswer rfl, hmodels⟩
  | find l id fuel ends =>
    obtain ⟨fuel', hrun⟩ := h.find_run l id
    obtain rfl := find_unique ends hrun
    exact ⟨a, rfl, h⟩
  | count l => exact ⟨a, by rw [h.count_eq]; rfl, h⟩
  | remove l id fuel ends =>
    obtain ⟨hanswer, hmodels, _⟩ := h.remove ends
    exact ⟨_, Prod.ext hanswer rfl, hmodels⟩
  | destroy node loose =>
    obtain ⟨hanswer, hmodels⟩ := h.destroy ops loose
    exact ⟨_, Prod.ext hanswer rfl, hmodels⟩
  | heap step foreign => exact ⟨a, rfl, h.heap step foreign⟩

/-- Every history is what the reference answers, and the memory holds what it knows. -/
theorem run_models {memory : Memory} {env : σ} {calls : List LifecycleCall}
    (run : LifecycleRun ops memory env calls s) :
    ∃ a, Transition.replay reference .empty (calls.map LifecycleCall.request) = (calls, a) ∧
      Models s a :=
  run.refines (R := fun _ s a => Models s a) (noObjects_models memory env)
    fun _ _ _ _ _ h hs => h.step hs

end Calls

/-! ## Sequences -/

/-- The record is that of the sequence, and the links lead through it from head to tail. -/
structure SequenceOf {σ : Type*} (s : KobjectSystem σ) (list : KobjectList) (xs : List UInt32) :
    Prop where
  linked : Chain (nodeNext s.memory) 0 list.head xs
  distinct : xs.Nodup
  live : ∀ x ∈ xs, x ∈ s.nodes
  nonnull : 0 ∉ xs
  head : list.head = xs.head?.getD 0
  tail : list.tail = xs.getLast?.getD 0
  count : list.count.toNat = xs.length

/-- Every list is in use in both or in neither, and is its sequence. -/
def Sequenced {σ : Type*} (s : KobjectSystem σ) (a : ObjectSpace) : Prop :=
  (∀ l, s.lists l = none ↔ a.sequences l = none) ∧
  ∀ l list, s.lists l = some list → SequenceOf s list (a.chain l)

def LifecycleCall.OnLists : LifecycleCall → Prop
  | .init _ | .append _ _ _ | .find _ _ _ | .count _ _ | .remove _ _ _ => True
  | .create _ _ _ | .destroy _ _ | .heap _ => False

/-- Calls that fail or only look. -/
def LifecycleCall.Idle : LifecycleCall → Prop
  | .append _ _ accepted => accepted = false
  | .remove _ _ removed => removed = false
  | .find _ _ _ | .count _ _ => True
  | _ => False

section Sequences

variable {σ : Type*} {ops : GrowthOps σ} {s t : KobjectSystem σ} {a : ObjectSpace}
  {call : LifecycleCall}

theorem Models.sequenced (h : Models s a) : Sequenced s a := by
  refine ⟨h.listed, fun l list hl => ?_⟩
  have hrep := h.chains.represents l list hl
  refine ⟨hrep.chain, hrep.chain.nodup, h.chains.members l, fun hzero => ?_, ?_, hrep.tail,
    hrep.count⟩
  · exact hrep.chain.ne_null hzero rfl
  · have hchain := hrep.chain
    cases hxs : a.chain l with
    | nil => exact (chain_null_iff hchain).mpr hxs
    | cons x xs =>
      rw [hxs] at hchain
      exact hchain.head_eq

theorem reference_objects (a : ObjectSpace) (hlists : call.OnLists) :
    (reference a call.request).2.objects = a.objects := by
  cases call with
  | create | destroy | heap => exact hlists.elim
  | init | find | count => rfl
  | append | remove =>
    simp only [LifecycleCall.request, reference]
    split_ifs <;> rfl

/-- The calls on lists leave the ids and values of all nodes alone. -/
theorem Models.fields_kept (h : Models s a) (hs : LifecycleStep ops s call t)
    (hlists : call.OnLists) {p : UInt32} (hp : p ∈ s.nodes) :
    nodeId t.memory p = nodeId s.memory p ∧ nodeValue t.memory p = nodeValue s.memory p := by
  obtain ⟨⟨id, value⟩, hobject⟩ := Option.ne_none_iff_exists'.mp ((h.live p).mp hp)
  obtain ⟨b, hanswer, hmodels⟩ := h.step hs
  have hsame : b.objects = a.objects := by
    rw [← reference_objects a hlists, hanswer]
  obtain ⟨hid, hvalue⟩ := h.contents p id value hobject
  obtain ⟨hid', hvalue'⟩ := hmodels.contents p id value (by rw [hsame, hobject])
  exact ⟨hid'.trans hid.symm, hvalue'.trans hvalue.symm⟩

/-- Nothing changes in a call that fails or only looks. -/
theorem Models.idle (h : Models s a) (hs : LifecycleStep ops s call t) (hidle : call.Idle) :
    t = s := by
  cases hs with
  | append l node loose =>
    have hresult : (kobjectListAppend (s.lists l) s.memory node).result ≠ true :=
      Bool.eq_false_iff.mp hidle
    obtain ⟨hlist, hmemory⟩ := append_rejected hresult
    rw [hlist, hmemory, update_self]
  | remove l id fuel ends => exact (h.remove ends).2.2.1 hidle
  | find | count => rfl
  | init | create | destroy | heap => exact hidle.elim

/-- A removed node is loose again, without a successor. -/
theorem Models.removed_loose (h : Models s a) {l : ℕ} {id : UInt32}
    (hs : LifecycleStep ops s (.remove l id true) t) :
    ∃ c, (a.chain l).find? (a.hasId id) = some c ∧ nodeNext t.memory c = 0 ∧ Loose t c := by
  generalize hcall : LifecycleCall.remove l id true = call at hs
  cases hs with
  | init | create | append | find | count | destroy | heap => cases hcall
  | remove l' id' fuel ends =>
    obtain ⟨rfl, rfl, hresult⟩ := LifecycleCall.remove.inj hcall
    obtain ⟨_, hmodels, _, hremoved⟩ := h.remove ends
    obtain ⟨c, hfind, hnext, hgone⟩ := hremoved hresult.symm
    have hnode := h.chains.members l c (List.mem_of_find?_eq_some hfind)
    exact ⟨c, hfind, hnext, Or.inr ⟨hnode, hmodels.loose_iff.mpr hgone⟩⟩

/-- A loose node without a successor is accepted by every initialized list. -/
theorem Models.fresh_accepted (h : Models s a) {l : ℕ} {node : UInt32} {accepted : Bool}
    (hs : LifecycleStep ops s (.append l node accepted) t) (hne : node ≠ 0)
    (hlist : s.lists l ≠ none) (hnext : nodeNext s.memory node = 0) : accepted = true := by
  generalize hcall : LifecycleCall.append l node accepted = call at hs
  cases hs with
  | init | create | remove | find | count | destroy | heap => cases hcall
  | append l' node' loose =>
    obtain ⟨rfl, rfl, rfl⟩ := LifecycleCall.append.inj hcall
    obtain ⟨hnode, hlinked⟩ := loose.resolve_left hne
    rw [h.append_accepted_iff loose, not_or, not_or, ← h.listed]
    refine ⟨hne, hlist, fun hstale => ?_⟩
    exact (h.loose node hnode (h.loose_iff.mp hlinked)).mpr hstale hnext

end Sequences

theorem list_refines_sequence {σ : Type*} (ops : GrowthOps σ) (memory : Memory) (env : σ)
    (calls : List LifecycleCall) (s : KobjectSystem σ) (run : LifecycleRun ops memory env calls s) :
    ∃ a, Transition.replay reference .empty (calls.map LifecycleCall.request) = (calls, a) ∧
      Sequenced s a ∧
      (∀ l, ∀ x ∈ a.chain l, ∀ id, a.hasId id x = true ↔ nodeId s.memory x = id) ∧
      (∀ l id, (∃ fuel node, kobjectListFindById fuel (s.lists l) s.memory id = some node) ∧
        ∃ fuel outcome, kobjectListRemoveById fuel (s.lists l) s.memory id = some outcome) ∧
      ∀ call t, LifecycleStep ops s call t → call.OnLists →
        (∃ b, reference a call.request = (call, b) ∧ Sequenced t b) ∧
        (∀ p ∈ s.nodes, nodeId t.memory p = nodeId s.memory p ∧
          nodeValue t.memory p = nodeValue s.memory p) ∧
        (call.Idle → t = s) ∧
        (∀ l id, call = .remove l id true → ∃ c, (a.chain l).find? (a.hasId id) = some c ∧
          nodeNext t.memory c = 0 ∧ Loose t c) ∧
        ∀ l node accepted, call = .append l node accepted → node ≠ 0 → s.lists l ≠ none →
          nodeNext s.memory node = 0 → accepted = true := by
  obtain ⟨a, hreplay, h⟩ := run_models run
  refine ⟨a, hreplay, h.sequenced, fun l x hx id => ?_, fun l id => ⟨?_, h.remove_ends l id⟩,
    fun call t hs hlists => ⟨?_, fun p hp => h.fields_kept hs hlists hp, h.idle hs, ?_, ?_⟩⟩
  · exact h.hasId_iff (h.chains.members l x hx)
  · obtain ⟨fuel, hrun⟩ := h.find_run l id
    exact ⟨fuel, _, hrun⟩
  · obtain ⟨b, hanswer, hmodels⟩ := h.step hs
    exact ⟨b, hanswer, hmodels.sequenced⟩
  · rintro l id rfl
    exact h.removed_loose hs
  · rintro l node accepted rfl hne hlist hnext
    exact h.fresh_accepted hs hne hlist hnext

theorem listAndNode_run : LifecycleRun plentifulOps (fun _ => 0) 0x200000
    [.init 0, .create 7 1 0x400010] listAndNode :=
  (Transition.Execution.start.step (.init _ 0 ⟨0, 0, 0⟩)).step (.create _ 7 1)

theorem listAndNode_loose : Loose listAndNode 0x400010 := by
  refine Or.inr ⟨by decide +kernel, ?_⟩
  rintro ⟨l, list, hl, hreach⟩
  rw [listAndNode, created_lists] at hl
  simp only [KobjectSystem.update, kobjectListInit, noObjects] at hl
  split at hl
  · obtain rfl := Option.some.inj hl
    have hempty : Chain (nodeNext listAndNode.memory) 0 0 [] := rfl
    exact List.not_mem_nil (hempty.reaches_iff.mp hreach)
  · cases hl

/-- A node appended to a list, and looked up. -/
theorem list_refines_sequence_oneNode : ∃ a,
    Transition.replay reference .empty [.init 0, .create 7 1 0x400010, .append 0 0x400010] =
      ([.init 0, .create 7 1 0x400010, .append 0 0x400010 true], a) ∧
    Sequenced oneNode a := by
  have haccept : (kobjectListAppend (listAndNode.lists 0) listAndNode.memory 0x400010).result =
      true := by decide +kernel
  have hstep := @LifecycleStep.append UInt64 plentifulOps listAndNode 0 0x400010 listAndNode_loose
  rw [haccept] at hstep
  obtain ⟨a, hreplay, hsequenced, _⟩ := list_refines_sequence plentifulOps (fun _ => 0) 0x200000 _ _
    (listAndNode_run.step hstep)
  exact ⟨a, hreplay, hsequenced⟩

/-! ## Lifecycle -/

/-- The payloads of the two blocks, rounding included, do not overlap. -/
def PayloadsApart (memory : Memory) (p q : UInt32) : Prop :=
  p.toNat + (payloadSizeAt memory p).toNat ≤ q.toNat ∨
    q.toNat + (payloadSizeAt memory q).toNat ≤ p.toNat

section Lifecycle

variable {σ : Type*} {ops : GrowthOps σ} {s t : KobjectSystem σ} {a : ObjectSpace}

theorem held_payloads_apart (h : Isolated s.heap) {p q : UInt32} (hp : s.heap.held p ≠ none)
    (hq : s.heap.held q ≠ none) (hne : p ≠ q) : PayloadsApart s.memory p q := by
  obtain ⟨blocks, hinv, hheld⟩ := h
  obtain ⟨n, hn⟩ := Option.ne_none_iff_exists'.mp hp
  obtain ⟨m, hm⟩ := Option.ne_none_iff_exists'.mp hq
  obtain ⟨c, b, hcb, _, hpc, _⟩ := hheld.held_block p n hn
  obtain ⟨d, e, hde, _, hqd, _⟩ := hheld.held_block q m hm
  have hpsize : (payloadSizeAt s.memory p).toNat = b.payloadSize :=
    payloadSizeAt_eq (hinv.tiles.headers c b hcb) hpc
  have hqsize : (payloadSizeAt s.memory q).toNat = e.payloadSize :=
    payloadSizeAt_eq (hinv.tiles.headers d e hde) hqd
  have hext : b.extent = 16 + b.payloadSize := rfl
  have hext' : e.extent = 16 + e.payloadSize := rfl
  rw [PayloadsApart, hpsize, hqsize]
  rcases layout_apart hcb hde with ⟨rfl, rfl⟩ | hapart | hapart
  · exact absurd (UInt32.toNat_inj.mp (by omega)) hne
  · left
    omega
  · right
    omega

/-- A new node is apart from every block that was held before. -/
theorem Models.create_apart (h : Models s a) {id value node : UInt32}
    (hs : LifecycleStep ops s (.create id value node) t) (hne : node ≠ 0) {p : UInt32}
    (hp : s.heap.held p ≠ none) : PayloadsApart t.memory node p := by
  generalize hcall : LifecycleCall.create id value node = call at hs
  cases hs with
  | init | append | remove | find | count | destroy | heap => cases hcall
  | create id' value' =>
    obtain ⟨rfl, rfl, hnode⟩ := LifecycleCall.create.inj hcall
    have hisolated := created_isolated h.chains.isolated ops id value
    obtain ⟨node', heap, _, ⟨rfl, hcreate⟩ | ⟨_, hfresh, _, hcreate⟩⟩ :=
      create_cases h.chains.isolated ops id value
    · rw [hcreate] at hnode
      exact absurd hnode hne
    · rw [hcreate] at hnode hisolated ⊢
      obtain rfl : node = node' := hnode
      simp only [created, if_neg hne] at hisolated ⊢
      have hpn : p ≠ node := by
        rintro rfl
        exact hp hfresh
      apply held_payloads_apart hisolated
      · simp [hold_same]
      · simp only [hold_ne _ _ hpn]
        exact hp
      · exact hpn.symm

theorem Models.destroy_accepted (h : Models s a) {node : UInt32} {accepted : Bool}
    (hs : LifecycleStep ops s (.destroy node accepted) t) (hne : node ≠ 0) : accepted = true := by
  obtain ⟨b, hanswer, _⟩ := h.step hs
  simp only [LifecycleCall.request, reference, if_neg hne, Prod.mk.injEq,
    LifecycleCall.destroy.injEq, true_and] at hanswer
  exact hanswer.1.symm

end Lifecycle

theorem object_lifecycle {σ : Type*} (ops : GrowthOps σ) (memory : Memory) (env : σ)
    (calls : List LifecycleCall) (s : KobjectSystem σ) (run : LifecycleRun ops memory env calls s) :
    ∃ a, Transition.replay reference .empty (calls.map LifecycleCall.request) = (calls, a) ∧
      (∀ p, p ∈ s.nodes ↔ a.objects p ≠ none) ∧
      (∀ p id value, a.objects p = some (id, value) →
        nodeId s.memory p = id ∧ nodeValue s.memory p = value) ∧
      Sequenced s a ∧
      (∀ p ∈ s.nodes, s.heap.held p = some kobjectNodeSize) ∧
      (∀ id value node t, LifecycleStep ops s (.create id value node) t → node ≠ 0 →
        ∀ p, s.heap.held p ≠ none → PayloadsApart t.memory node p) ∧
      ∀ node accepted t, LifecycleStep ops s (.destroy node accepted) t → node ≠ 0 →
        accepted = true := by
  obtain ⟨a, hreplay, h⟩ := run_models run
  exact ⟨a, hreplay, h.live, h.contents, h.sequenced, h.chains.held,
    fun id value node t hs hne p hp => h.create_apart hs hne hp,
    fun node accepted t hs hne => h.destroy_accepted hs hne⟩

/-- The node is destroyed. -/
theorem object_lifecycle_oneNode :
    (kobjectNodeDestroy listAndNode.heap.heap 0x400010).1 = true := by
  obtain ⟨_, _, _, _, _, _, _, hdestroy⟩ :=
    object_lifecycle plentifulOps (fun _ => 0) 0x200000 _ _ listAndNode_run
  exact hdestroy _ _ _ (.destroy listAndNode 0x400010 listAndNode_loose) (by decide)

end KernelObjectLifecycle
