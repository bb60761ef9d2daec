import CustomOs.KernelObject
import Mathlib.Order.Interval.Finset.Nat

/-! # Integrity of the object lists
A list record represents the chain of nodes from its head. The test on the successor by which
an append recognizes a linked node does not see the last node of a list; as long as no caller
passes one, every list stays a chain that ends, apart from all the others. -/
namespace KernelObjectIntegrity

open ByteMemory Loop KernelHeap KernelHeapIsolation KernelObject LinkedChain

/-! ## Nodes in memory -/

/-- Node blocks do not touch each other. -/
structure NodesApart (nodes : List UInt32) : Prop where
  lower : ∀ p ∈ nodes, 0x400000 ≤ p.toNat
  upper : ∀ p ∈ nodes, p.toNat + 12 ≤ 0x800000
  disjoint : ∀ p ∈ nodes, ∀ q ∈ nodes, p ≠ q →
    p.toNat + 12 ≤ q.toNat ∨ q.toNat + 12 ≤ p.toNat

/-- The memories differ inside nodes only. -/
def OnlyNodes (nodes : List UInt32) (memory memory' : Memory) : Prop :=
  ∀ x, (∀ p ∈ nodes, ¬ InRange p.toNat 12 x) → memory' x = memory x

/-- The memories differ in the links of nodes only. -/
def OnlyLinks (nodes : List UInt32) (memory memory' : Memory) : Prop :=
  ∀ x, (∀ p ∈ nodes, ¬ InRange (p.toNat + 8) 4 x) → memory' x = memory x

variable {nodes : List UInt32} {memory memory' memory'' : Memory} {p q w : UInt32}

theorem NodesApart.ne_zero (h : NodesApart nodes) (hp : p ∈ nodes) : p ≠ 0 := by
  have := h.lower p hp
  exact MachineWord.ne_zero32_iff.mpr (by omega)

theorem nextField_toNat (h : NodesApart nodes) (hp : p ∈ nodes) :
    (p + 8).toNat = p.toNat + 8 := by
  have := h.upper p hp
  exact addr_add (k := 8) (by omega)

theorem nodeNext_set_same (memory : Memory) (p w : UInt32) :
    nodeNext (setNodeNext memory p w) p = w := load32_store32_same _ _ _

theorem nodeNext_set_ne (h : NodesApart nodes) (hp : p ∈ nodes) (hq : q ∈ nodes) (hne : q ≠ p)
    (memory : Memory) (w : UInt32) :
    nodeNext (setNodeNext memory p w) q = nodeNext memory q := by
  have hp8 := nextField_toNat h hp
  have hq8 := nextField_toNat h hq
  have hpu := h.upper p hp
  have hqu := h.upper q hq
  have hdisjoint := h.disjoint q hq p hp hne
  exact load32_store32_ne memory w (by omega) (by omega) (by omega)

theorem onlyLinks_set (h : NodesApart nodes) (hp : p ∈ nodes) (memory : Memory) (w : UInt32) :
    OnlyLinks nodes memory (setNodeNext memory p w) := by
  intro x hx
  have hp8 := nextField_toNat h hp
  have hpu := h.upper p hp
  apply store32_outside memory w (by omega)
  rw [hp8]
  exact hx p hp

theorem OnlyLinks.refl (nodes : List UInt32) (memory : Memory) : OnlyLinks nodes memory memory :=
  fun _ _ => rfl

theorem OnlyLinks.trans (h : OnlyLinks nodes memory memory')
    (k : OnlyLinks nodes memory' memory'') : OnlyLinks nodes memory memory'' :=
  fun x hx => (k x hx).trans (h x hx)

theorem OnlyLinks.onlyNodes (h : OnlyLinks nodes memory memory') :
    OnlyNodes nodes memory memory' := by
  intro x hx
  apply h
  rintro p hp ⟨hl, hu⟩
  exact hx p hp ⟨by omega, by omega⟩

/-- Links are no part of an id or of a value. -/
theorem OnlyLinks.fields (h : OnlyLinks nodes memory memory') (hapart : NodesApart nodes)
    (hp : p ∈ nodes) :
    nodeId memory' p = nodeId memory p ∧ nodeValue memory' p = nodeValue memory p := by
  have hpu := hapart.upper p hp
  have hp4 : (p + 4).toNat = p.toNat + 4 := addr_add (k := 4) (by omega)
  have hsame : ∀ x, InRange p.toNat 8 x → memory' x = memory x := by
    rintro x ⟨hl, hu⟩
    apply h
    rintro q hq ⟨hl', hu'⟩
    by_cases hqp : q = p
    · subst hqp
      omega
    · have := hapart.disjoint q hq p hp hqp
      omega
  constructor
  · exact load32_congr (by omega) fun x ⟨hl, hu⟩ => hsame x ⟨hl, by omega⟩
  · exact load32_congr (by omega) fun x ⟨hl, hu⟩ => hsame x ⟨by omega, by omega⟩

/-- Distinct non-null addresses are fewer than 2^32. -/
theorem length_lt {xs : List UInt32} (hnodup : xs.Nodup) (hne : ∀ x ∈ xs, x ≠ 0) :
    xs.length < 2 ^ 32 := by
  have hmap : (xs.map UInt32.toNat).Nodup :=
    hnodup.map fun a b h => UInt32.toNat_inj.mp h
  have hsub : (xs.map UInt32.toNat).toFinset ⊆ Finset.Ioo 0 (2 ^ 32) := by
    intro n hn
    obtain ⟨x, hx, rfl⟩ := List.mem_map.mp (List.mem_toFinset.mp hn)
    have hpos := MachineWord.ne_zero32_iff.mp (hne x hx)
    exact Finset.mem_Ioo.mpr ⟨hpos, x.toNat_lt⟩
  have hcard := Finset.card_le_card hsub
  rw [List.toFinset_card_of_nodup hmap, List.length_map, Nat.card_Ioo] at hcard
  omega

/-! ## One list -/

/-- The record and the nodes behind it are the chain `xs`. -/
structure Represents (memory : Memory) (list : KobjectList) (xs : List UInt32) : Prop where
  chain : Chain (nodeNext memory) 0 list.head xs
  tail : list.tail = lastOr 0 xs
  count : list.count.toNat = xs.length

section List

variable {list : KobjectList} {xs : List UInt32} {id cursor prev node : UInt32}

theorem Represents.congr (h : Represents memory list xs)
    (same : ∀ x ∈ xs, nodeNext memory' x = nodeNext memory x) : Represents memory' list xs :=
  ⟨h.chain.congr same, h.tail, h.count⟩

theorem represents_init (memory : Memory) : Represents memory ⟨0, 0, 0⟩ [] := ⟨rfl, rfl, rfl⟩

theorem find_run (h : Chain (nodeNext memory) 0 cursor xs) (id : UInt32) :
    run (findIteration memory id) (xs.length + 1) cursor =
      some ((xs.find? fun x => nodeId memory x == id).getD 0) := by
  induction xs generalizing cursor with
  | nil =>
    have hend : cursor = 0 := h
    apply run_leave
    rw [findIteration, if_pos hend]
    rfl
  | cons x xs ih =>
    obtain ⟨rfl, hne, hxs⟩ := h
    by_cases hid : nodeId memory cursor = id
    · rw [List.find?_cons_of_pos (by simpa using hid)]
      apply run_leave
      rw [findIteration, if_neg hne, if_pos hid]
      rfl
    · rw [List.find?_cons_of_neg (by simpa using hid), ← ih hxs]
      apply run_next
      rw [findIteration, if_neg hne, if_neg hid]

/-- The loop of a removal ends, at the first node with the id if there is one. -/
theorem remove_run (h : Chain (nodeNext memory) 0 cursor xs) (list : KobjectList)
    (id prev : UInt32) :
    ((∀ x ∈ xs, nodeId memory x ≠ id) ∧
      run (removeIteration list memory id) (xs.length + 1) (prev, cursor) =
        some ⟨false, some list, memory⟩) ∨
    ∃ pre c post, xs = pre ++ c :: post ∧ (∀ x ∈ pre, nodeId memory x ≠ id) ∧
      nodeId memory c = id ∧
      run (removeIteration list memory id) (xs.length + 1) (prev, cursor) =
        some (unlink list memory (lastOr prev pre) c) := by
  induction xs generalizing cursor prev with
  | nil =>
    have hend : cursor = 0 := h
    refine Or.inl ⟨by simp, ?_⟩
    apply run_leave
    rw [removeIteration, if_pos hend]
  | cons x xs ih =>
    obtain ⟨rfl, hne, hxs⟩ := h
    by_cases hid : nodeId memory cursor = id
    · refine Or.inr ⟨[], cursor, xs, rfl, by simp, hid, ?_⟩
      apply run_leave
      rw [removeIteration, if_neg hne, if_pos hid, lastOr_nil]
    · have hrun : run (removeIteration list memory id) ((cursor :: xs).length + 1)
          (prev, cursor) = run (removeIteration list memory id) (xs.length + 1)
          (cursor, nodeNext memory cursor) := by
        apply run_next
        rw [removeIteration, if_neg hne, if_neg hid]
      rw [hrun]
      rcases ih hxs cursor with ⟨hnone, hfail⟩ | ⟨pre, c, post, rfl, hpre, hc, hok⟩
      · exact Or.inl ⟨List.forall_mem_cons.mpr ⟨hid, hnone⟩, hfail⟩
      · refine Or.inr ⟨cursor :: pre, c, post, rfl, List.forall_mem_cons.mpr ⟨hid, hpre⟩, hc, ?_⟩
        rw [hok, lastOr_cons]

/-- Appending a node that is in no list and has no successor. -/
theorem Represents.append (h : Represents memory list xs) (hapart : NodesApart nodes)
    (hxs : ∀ x ∈ xs, x ∈ nodes) (hnode : node ∈ nodes) (hnot : node ∉ xs)
    (hnext : nodeNext memory node = 0) :
    ∃ list' memory', kobjectListAppend (some list) memory node =
        ⟨true, some list', memory'⟩ ∧ Represents memory' list' (xs ++ [node]) ∧
      OnlyLinks nodes memory memory' ∧
      ∀ q ∈ nodes, q ∉ xs → nodeNext memory' q = nodeNext memory q := by
  have hne := hapart.ne_zero hnode
  rcases List.eq_nil_or_concat xs with rfl | ⟨ys, last, rfl⟩
  · have hhead : list.head = 0 := h.chain
    refine ⟨⟨node, node, 1⟩, memory, ?_, ⟨⟨rfl, hne, hnext⟩, rfl, UInt32.toNat_one⟩, .refl _ _,
      fun _ _ _ => rfl⟩
    rw [kobjectListAppend, if_neg hne, if_neg (not_not.mpr hnext), if_pos hhead]
  · rw [List.concat_eq_append] at *
    have hhead : list.head ≠ 0 := by
      rw [ne_eq, chain_null_iff h.chain]
      simp
    have htail : list.tail = last := by rw [h.tail, lastOr_concat]
    have hlast : last ∈ nodes := hxs last (by simp)
    have hchain : Chain (nodeNext (setNodeNext memory list.tail node)) 0 list.head
        (ys ++ [last] ++ [node]) := by
      rw [htail]
      have hnodup := h.chain.nodup
      rw [List.nodup_append] at hnodup
      apply h.chain.append hne (nodeNext_set_same _ _ _)
      · rw [nodeNext_set_ne hapart hlast hnode ?_, hnext]
        rintro rfl
        simp at hnot
      · intro z hz
        apply nodeNext_set_ne hapart hlast (hxs z (by simp [hz]))
        exact hnodup.2.2 z hz last (by simp)
    refine ⟨⟨list.head, node, list.count + 1⟩, setNodeNext memory list.tail node, ?_,
      ⟨hchain, ?_, ?_⟩, ?_, ?_⟩
    · rw [kobjectListAppend, if_neg hne, if_neg (not_not.mpr hnext), if_neg hhead,
        if_neg (by rw [htail]; exact hapart.ne_zero hlast)]
    · rw [lastOr_concat]
    · have hlength := length_lt hchain.nodup fun x hx => hchain.ne_null hx
      have hcount := h.count
      rw [List.length_append, List.length_singleton] at hlength ⊢
      rw [MachineWord.toNat_add32 (by rw [UInt32.toNat_one]; omega), UInt32.toNat_one, hcount]
    · rw [htail]
      exact onlyLinks_set hapart hlast _ _
    · intro q hq hqx
      rw [htail]
      apply nodeNext_set_ne hapart hlast hq
      rintro rfl
      simp at hqx

/-- The chain and the memory once `c` is taken out from behind `pre`. -/
theorem Represents.unlink_chain {pre post : List UInt32} {c : UInt32}
    (h : Represents memory list (pre ++ c :: post)) (hapart : NodesApart nodes)
    (hxs : ∀ x ∈ pre ++ c :: post, x ∈ nodes) :
    ∃ head' memory', head' = (if lastOr 0 pre = 0 then nodeNext memory c else list.head) ∧
      memory' = setNodeNext (if lastOr 0 pre = 0 then memory
        else setNodeNext memory (lastOr 0 pre) (nodeNext memory c)) c 0 ∧
      Chain (nodeNext memory') 0 head' (pre ++ post) ∧ OnlyLinks nodes memory memory' ∧
      ∀ q ∈ nodes, q ∉ pre ++ c :: post → nodeNext memory' q = nodeNext memory q := by
  have hc : c ∈ nodes := hxs c (by simp)
  have hnodup := h.chain.nodup
  have hcnot : ∀ z ∈ pre ++ post, z ≠ c := by
    have := List.nodup_middle.mp hnodup
    rintro z hz rfl
    exact (List.nodup_cons.mp this).1 hz
  refine ⟨_, _, rfl, rfl, ?_⟩
  rcases List.eq_nil_or_concat pre with rfl | ⟨ys, p, rfl⟩
  · rw [lastOr_nil, if_pos rfl, if_pos rfl]
    refine ⟨?_, onlyLinks_set hapart hc _ _, ?_⟩
    · apply Chain.behead h.chain
      intro z hz
      exact nodeNext_set_ne hapart hc (hxs z (by simp [hz])) (hcnot z hz) _ _
    · intro q hq hqx
      apply nodeNext_set_ne hapart hc hq
      rintro rfl
      simp at hqx
  · rw [List.concat_eq_append] at *
    have hp : p ∈ nodes := hxs p (by simp)
    have hpc : p ≠ c := hcnot p (by simp)
    have hne : lastOr 0 (ys ++ [p]) ≠ 0 := by
      rw [lastOr_concat]
      exact hapart.ne_zero hp
    rw [if_neg hne, if_neg hne, lastOr_concat]
    refine ⟨?_, (onlyLinks_set hapart hp _ _).trans (onlyLinks_set hapart hc _ _), ?_⟩
    · apply Chain.unlink h.chain
      · rw [nodeNext_set_ne hapart hc hp hpc, nodeNext_set_same]
      · intro z hz
        have hz' : z ∈ ys ++ [p] ++ post := by
          rcases List.mem_append.mp hz with hz | hz <;> simp [hz]
        have hzp : z ≠ p := by
          rintro rfl
          rw [List.append_assoc] at hnodup
          rcases List.mem_append.mp hz with hz | hz
          · exact (List.nodup_append.mp hnodup).2.2 z hz z (by simp) rfl
          · have := (List.nodup_append.mp hnodup).2.1
            simp [hz] at this
        have hzn : z ∈ nodes := by
          apply hxs
          rcases List.mem_append.mp hz with hz | hz <;> simp [hz]
        rw [nodeNext_set_ne hapart hc hzn (hcnot z hz'), nodeNext_set_ne hapart hp hzn hzp]
    · intro q hq hqx
      rw [nodeNext_set_ne hapart hc hq, nodeNext_set_ne hapart hp hq]
      · rintro rfl
        simp at hqx
      · rintro rfl
        simp at hqx

/-- The record that `unlink` leaves is the one of the shorter chain. -/
theorem Represents.unlink {pre post : List UInt32} {c : UInt32}
    (h : Represents memory list (pre ++ c :: post)) (hapart : NodesApart nodes)
    (hxs : ∀ x ∈ pre ++ c :: post, x ∈ nodes) :
    ∃ list' memory', unlink list memory (lastOr 0 pre) c = ⟨true, some list', memory'⟩ ∧
      Represents memory' list' (pre ++ post) ∧ nodeNext memory' c = 0 ∧
      OnlyLinks nodes memory memory' ∧
      ∀ q ∈ nodes, q ∉ pre ++ c :: post → nodeNext memory' q = nodeNext memory q := by
  obtain ⟨head', memory', hhead, hmemory, hchain, honly, hother⟩ := h.unlink_chain hapart hxs
  have htail : (if list.tail = c then lastOr 0 pre else list.tail) = lastOr 0 (pre ++ post) := by
    rw [h.tail, lastOr_append_cons]
    exact lastOr_unlink 0 h.chain.nodup
  have hcount := h.count
  rw [List.length_append, List.length_cons] at hcount
  have hpos : 0 < list.count := by
    rw [UInt32.lt_iff_toNat_lt, UInt32.toNat_zero]
    omega
  have hone : (1 : UInt32) ≤ list.count := by
    rw [UInt32.le_iff_toNat_le, UInt32.toNat_one]
    omega
  have hpred : (list.count - 1).toNat = (pre ++ post).length := by
    rw [UInt32.toNat_sub_of_le _ _ hone, UInt32.toNat_one, List.length_append]
    omega
  have hreset : list.count - 1 = 0 → head' = 0 ∧ lastOr 0 (pre ++ post) = 0 := by
    intro hzero
    rw [hzero, UInt32.toNat_zero] at hpred
    have hnil := List.eq_nil_of_length_eq_zero hpred.symm
    rw [hnil] at hchain ⊢
    exact ⟨hchain, rfl⟩
  have hfree : nodeNext memory' c = 0 := by
    rw [hmemory]
    exact nodeNext_set_same _ _ _
  refine ⟨⟨head', lastOr 0 (pre ++ post), list.count - 1⟩, memory', ?_, ⟨hchain, rfl, hpred⟩,
    hfree, honly, hother⟩
  have hlist : (if lastOr 0 pre = 0 then { list with head := nodeNext memory c } else list) =
      ⟨head', list.tail, list.count⟩ := by
    rw [hhead]
    by_cases hprev : lastOr 0 pre = 0
    · rw [if_pos hprev, if_pos hprev]
    · rw [if_neg hprev, if_neg hprev]
  simp only [KernelObject.unlink, ListOutcome.mk.injEq, true_and, Option.some.injEq, hlist]
  refine ⟨?_, hmemory.symm⟩
  have hfields : (if list.tail = c then (⟨head', lastOr 0 pre, list.count⟩ : KobjectList)
      else ⟨head', list.tail, list.count⟩) = ⟨head', lastOr 0 (pre ++ post), list.count⟩ := by
    rw [← htail]
    by_cases hlast : list.tail = c
    · rw [if_pos hlast, if_pos hlast]
    · rw [if_neg hlast, if_neg hlast]
  rw [hfields]
  simp only [if_pos hpos]
  by_cases hzero : list.count - 1 = 0
  · obtain ⟨rfl, hlast⟩ := hreset hzero
    rw [if_pos hzero, hlast]
  · rw [if_neg hzero]

end List

/-! ## The system -/

section System

variable {σ : Type*} {ops : GrowthOps σ} {s t : KobjectSystem σ} {chains : ℕ → List UInt32}

/-- The lists are chains of live nodes that do not meet. -/
structure ChainsOf (s : KobjectSystem σ) (chains : ℕ → List UInt32) : Prop where
  isolated : Isolated s.heap
  held : ∀ p ∈ s.nodes, s.heap.held p = some kobjectNodeSize
  absent : ∀ l, s.lists l = none → chains l = []
  represents : ∀ l list, s.lists l = some list → Represents s.memory list (chains l)
  members : ∀ l, ∀ x ∈ chains l, x ∈ s.nodes
  apart : ∀ l k x, x ∈ chains l → x ∈ chains k → l = k

theorem nodes_apart (h : Isolated s.heap)
    (held : ∀ p ∈ s.nodes, s.heap.held p = some kobjectNodeSize) : NodesApart s.nodes := by
  have hsize : kobjectNodeSize.toNat = 12 := rfl
  have hisolation := h.isolation
  obtain ⟨blocks, hinv, _⟩ := h
  have hstart := hinv.start_toNat
  have hcurrent := hinv.current_le
  have hmapped := hinv.mapped_le
  refine ⟨fun p hp => ?_, fun p hp => ?_, fun p hp q hq hne => ?_⟩
  · have := (hisolation.contained p _ (held p hp)).1
    omega
  · have := (hisolation.contained p _ (held p hp)).2
    omega
  · have := hisolation.disjoint p q _ _ (held p hp) (held q hq) hne
    omega

theorem ChainsOf.nodesApart (h : ChainsOf s chains) : NodesApart s.nodes :=
  nodes_apart h.isolated h.held

/-- A list call that changes one chain and writes inside nodes. -/
theorem ChainsOf.update (h : ChainsOf s chains) {l : ℕ} {list' : KobjectList}
    {memory' : Memory} {xs' : List UInt32} (hrep : Represents memory' list' xs')
    (honly : OnlyNodes s.nodes s.memory memory')
    (hother : ∀ q ∈ s.nodes, q ∉ chains l → nodeNext memory' q = nodeNext s.memory q)
    (hmembers : ∀ x ∈ xs', x ∈ s.nodes) (hnew : ∀ k, k ≠ l → ∀ x ∈ xs', x ∉ chains k) :
    ChainsOf (s.update l (some list') memory') fun k => if k = l then xs' else chains k := by
  refine ⟨?_, h.held, ?_, ?_, ?_, ?_⟩
  · apply h.isolated.write
    intro x hx
    exact honly x fun p hp => hx p _ (h.held p hp)
  · intro k hk
    by_cases hkl : k = l
    · simp only [KobjectSystem.update, hkl, if_true] at hk
      cases hk
    · simp only [KobjectSystem.update, hkl, if_false] at hk ⊢
      exact h.absent k hk
  · intro k list hk
    by_cases hkl : k = l
    · simp only [KobjectSystem.update, hkl, if_true] at hk ⊢
      rwa [← Option.some.inj hk]
    · simp only [KobjectSystem.update, hkl, if_false] at hk ⊢
      apply (h.represents k list hk).congr
      intro x hx
      apply hother x (h.members k x hx)
      intro hxl
      exact hkl (h.apart k l x hx hxl)
  · intro k x hx
    by_cases hkl : k = l
    · simp only [hkl, if_true] at hx
      exact hmembers x hx
    · simp only [hkl, if_false] at hx
      exact h.members k x hx
  · intro k j x hxk hxj
    by_cases hkl : k = l <;> by_cases hjl : j = l
    · rw [hkl, hjl]
    · simp only [hkl, hjl, if_true, if_false] at hxk hxj
      exact absurd hxj (hnew j hjl x hxk)
    · simp only [hkl, hjl, if_true, if_false] at hxk hxj
      exact absurd hxk (hnew k hkl x hxj)
    · simp only [hkl, hjl, if_false] at hxk hxj
      exact h.apart k j x hxk hxj

/-- The fields of a node whose bytes are the same. -/
theorem node_congr {memory memory' : Memory} {p : UInt32} (hfit : p.toNat + 12 ≤ 0x800000)
    (same : ∀ x, InRange p.toNat 12 x → memory' x = memory x) :
    nodeId memory' p = nodeId memory p ∧ nodeValue memory' p = nodeValue memory p ∧
      nodeNext memory' p = nodeNext memory p := by
  have hp4 : (p + 4).toNat = p.toNat + 4 := addr_add (k := 4) (by omega)
  have hp8 : (p + 8).toNat = p.toNat + 8 := addr_add (k := 8) (by omega)
  refine ⟨load32_congr (by omega) ?_, load32_congr (by omega) ?_, load32_congr (by omega) ?_⟩
  all_goals
    rintro x ⟨hl, hu⟩
    exact same x ⟨by omega, by omega⟩

theorem ChainsOf.fields_kept (h : ChainsOf s chains) {memory' : Memory}
    (bytes : ∀ p ∈ s.nodes, ∀ x, InRange p.toNat 12 x → memory' x = s.memory x) :
    ∀ p ∈ s.nodes, nodeId memory' p = nodeId s.memory p ∧
      nodeValue memory' p = nodeValue s.memory p ∧ nodeNext memory' p = nodeNext s.memory p :=
  fun p hp => node_congr (h.nodesApart.upper p hp) (bytes p hp)

/-- Whatever leaves the nodes and the records alone leaves the chains alone. -/
theorem ChainsOf.frame (h : ChainsOf s chains) (isolated : Isolated t.heap)
    (held : ∀ p ∈ t.nodes, t.heap.held p = some kobjectNodeSize) (lists : t.lists = s.lists)
    (bytes : ∀ p ∈ s.nodes, ∀ x, InRange p.toNat 12 x → t.memory x = s.memory x)
    (members : ∀ l, ∀ x ∈ chains l, x ∈ t.nodes) : ChainsOf t chains where
  isolated := isolated
  held := held
  absent l hl := h.absent l (by rw [← lists, hl])
  represents l list hl := by
    rw [lists] at hl
    apply (h.represents l list hl).congr
    intro x hx
    exact (h.fields_kept bytes x (h.members l x hx)).2.2
  members := members
  apart := h.apart

/-- The memory with a new node filled in. -/
def initNode (memory : Memory) (node id value : UInt32) : Memory :=
  setNodeNext (setNodeValue (setNodeId memory node id) node value) node 0

theorem initNode_outside {memory : Memory} {node id value x : UInt32}
    (hfit : node.toNat + 12 ≤ 0x800000) (hx : ¬ InRange node.toNat 12 x) :
    initNode memory node id value x = memory x := by
  have h4 : (node + 4).toNat = node.toNat + 4 := addr_add (k := 4) (by omega)
  have h8 : (node + 8).toNat = node.toNat + 8 := addr_add (k := 8) (by omega)
  have hout : ∀ k, k ≤ 8 → ¬ InRange (node.toNat + k) 4 x := by
    rintro k hk ⟨hl, hu⟩
    exact hx ⟨by omega, by omega⟩
  have h0 : ¬ InRange node.toNat 4 x := hout 0 (by omega)
  rw [initNode, setNodeNext, store32_outside _ _ (by omega) (by rw [h8]; exact hout 8 le_rfl),
    setNodeValue, store32_outside _ _ (by omega) (by rw [h4]; exact hout 4 (by omega)),
    setNodeId, store32_outside _ _ (by omega) h0]

theorem initNode_fields {node : UInt32} (hfit : node.toNat + 12 ≤ 0x800000) (memory : Memory)
    (id value : UInt32) :
    nodeId (initNode memory node id value) node = id ∧
      nodeValue (initNode memory node id value) node = value ∧
      nodeNext (initNode memory node id value) node = 0 := by
  have h4 : (node + 4).toNat = node.toNat + 4 := addr_add (k := 4) (by omega)
  have h8 : (node + 8).toNat = node.toNat + 8 := addr_add (k := 8) (by omega)
  refine ⟨?_, ?_, load32_store32_same _ _ _⟩
  · rw [nodeId, initNode, setNodeNext, load32_store32_ne _ _ (by omega) (by omega) (by omega),
      setNodeValue, load32_store32_ne _ _ (by omega) (by omega) (by omega), setNodeId,
      load32_store32_same]
  · rw [nodeValue, initNode, setNodeNext,
      load32_store32_ne _ _ (by omega) (by omega) (by omega), setNodeValue, load32_store32_same]

theorem kmalloc_eq (ops : GrowthOps σ) (heap : Kheap σ) (size : UInt32) :
    kmalloc ops heap size = stage8cKheapAlloc ops heap size := by
  rw [kmalloc]
  split
  · next hzero => rw [stage8cKheapAlloc, if_pos (Or.inr hzero)]
  · rfl

/-- A creation fails with its allocation, or fills in a block that nobody held. -/
theorem create_cases (h : Isolated s.heap) (ops : GrowthOps σ) (id value : UInt32) :
    ∃ node heap, stage8cKheapAlloc ops s.heap.heap kobjectNodeSize = (node, heap) ∧
      ((node = 0 ∧ kobjectNodeCreate ops s.heap.heap id value = (0, heap)) ∨
        (node ≠ 0 ∧ s.heap.held node = none ∧ node.toNat + 12 ≤ 0x800000 ∧
          kobjectNodeCreate ops s.heap.heap id value =
            (node, { heap with memory := initNode heap.memory node id value }))) := by
  have hsize : kobjectNodeSize.toNat = 12 := rfl
  have hstep := h.step (@HeapStep.alloc σ ops s.heap kobjectNodeSize)
  have hfresh := h.alloc_fresh ops kobjectNodeSize
  obtain ⟨node, heap, hcall⟩ : ∃ node heap,
      stage8cKheapAlloc ops s.heap.heap kobjectNodeSize = (node, heap) := ⟨_, _, rfl⟩
  refine ⟨node, heap, hcall, ?_⟩
  simp only [kobjectNodeCreate, kmalloc_eq]
  rw [hcall] at hstep hfresh ⊢
  simp only at hstep hfresh ⊢
  by_cases hnull : node = 0
  · rw [if_pos hnull]
    exact Or.inl ⟨hnull, rfl⟩
  · rw [if_neg hnull] at hstep ⊢
    have hcontained := (hstep.isolation.contained node _ (hold_same _ _ _)).2
    obtain ⟨blocks, hinv, _⟩ := hstep
    have hcurrent := hinv.current_le
    have hmapped := hinv.mapped_le
    simp only [hsize] at hcontained hcurrent hmapped
    exact Or.inr ⟨hnull, hfresh hnull, by omega, rfl⟩

/-- A creation leaves the bytes of the nodes there are alone. -/
theorem create_bytes (h : Isolated s.heap) (ops : GrowthOps σ) (id value : UInt32) {p size : UInt32}
    (hp : s.heap.held p = some size) {x : UInt32} (hx : InRange p.toNat size.toNat x) :
    (kobjectNodeCreate ops s.heap.heap id value).2.memory x = s.memory x := by
  have hstep := h.step (@HeapStep.alloc σ ops s.heap kobjectNodeSize)
  have hsame := (h.calls_keep ops hp hx).1 kobjectNodeSize
  obtain ⟨node, heap, hcall, ⟨_, hcreate⟩ | ⟨hne, hfresh, hupper, hcreate⟩⟩ :=
    create_cases h ops id value
  · rw [hcall] at hsame
    rw [hcreate]
    exact hsame
  · rw [hcall] at hsame hstep
    rw [if_neg hne] at hstep
    have hpn : p ≠ node := by
      rintro rfl
      rw [hp] at hfresh
      cases hfresh
    have hdisjoint := hstep.isolation.disjoint p node size kobjectNodeSize
      ((hold_ne _ _ hpn).trans hp) (hold_same _ _ _) hpn
    have hsize : kobjectNodeSize.toNat = 12 := rfl
    rw [hcreate]
    refine (initNode_outside hupper ?_).trans hsame
    rintro ⟨hl, hu⟩
    have := hx.1
    have := hx.2
    omega

/-- A creation keeps the heap sound. -/
theorem created_isolated (h : Isolated s.heap) (ops : GrowthOps σ) (id value : UInt32) :
    Isolated (created s (kobjectNodeCreate ops s.heap.heap id value).1
      (kobjectNodeCreate ops s.heap.heap id value).2).heap := by
  have hstep := h.step (@HeapStep.alloc σ ops s.heap kobjectNodeSize)
  obtain ⟨node, heap, hcall, ⟨hnull, hcreate⟩ | ⟨hne, _, hupper, hcreate⟩⟩ :=
    create_cases h ops id value
  · rw [hcall, if_pos hnull] at hstep
    simp only [hcreate, created, if_true]
    exact hstep
  · rw [hcall, if_neg hne] at hstep
    simp only [hcreate, created, if_neg hne]
    apply hstep.write
    intro x hx
    exact initNode_outside hupper (hx node _ (hold_same _ _ _))

theorem created_held (held : ∀ p ∈ s.nodes, s.heap.held p = some kobjectNodeSize)
    (node : UInt32) (heap : Kheap σ) :
    ∀ p ∈ (created s node heap).nodes,
      (created s node heap).heap.held p = some kobjectNodeSize := by
  rw [created]
  by_cases hnull : node = 0
  · simpa only [if_pos hnull] using held
  · simp only [if_neg hnull]
    intro p hp
    by_cases hpn : p = node
    · rw [hpn, hold_same]
    · rw [hold_ne _ _ hpn]
      exact held p ((List.mem_cons.mp hp).resolve_left hpn)

theorem created_nodes (node : UInt32) (heap : Kheap σ) {p : UInt32} (hp : p ∈ s.nodes) :
    p ∈ (created s node heap).nodes := by
  rw [created]
  split
  · exact hp
  · exact List.mem_cons_of_mem _ hp

theorem created_memory (s : KobjectSystem σ) (node : UInt32) (heap : Kheap σ) :
    (created s node heap).memory = heap.memory := by
  rw [created]
  split <;> rfl

theorem ChainsOf.create (h : ChainsOf s chains) (ops : GrowthOps σ) (id value : UInt32) :
    ChainsOf (created s (kobjectNodeCreate ops s.heap.heap id value).1
      (kobjectNodeCreate ops s.heap.heap id value).2) chains := by
  apply h.frame (created_isolated h.isolated ops id value) (created_held h.held _ _)
    (created_lists _ _ _)
  · intro p hp x hx
    rw [created_memory]
    exact create_bytes h.isolated ops id value (h.held p hp) hx
  · exact fun l x hx => created_nodes _ _ (h.members l x hx)

/-! ## What an append accepts -/

def IsTail (s : KobjectSystem σ) (node : UInt32) : Prop :=
  node ≠ 0 ∧ ∃ l list, s.lists l = some list ∧ list.tail = node

/-- The node can be reached from the head of some list. -/
def Linked (s : KobjectSystem σ) (node : UInt32) : Prop :=
  ∃ l list, s.lists l = some list ∧ Reaches (nodeNext s.memory) 0 list.head node

theorem append_accepted_iff (list : Option KobjectList) (memory : Memory) (node : UInt32) :
    (kobjectListAppend list memory node).result = true ↔
      ∃ record, list = some record ∧ node ≠ 0 ∧ nodeNext memory node = 0 ∧
        (record.head = 0 ∨ record.tail ≠ 0) := by
  cases list with
  | none => simp [kobjectListAppend]
  | some record =>
    simp only [kobjectListAppend]
    split_ifs <;> simp_all

/-- A rejected append changes nothing. -/
theorem append_rejected {list : Option KobjectList} {memory : Memory} {node : UInt32}
    (h : (kobjectListAppend list memory node).result ≠ true) :
    (kobjectListAppend list memory node).list = list ∧
      (kobjectListAppend list memory node).memory = memory := by
  cases list with
  | none => exact ⟨rfl, rfl⟩
  | some record =>
    simp only [kobjectListAppend] at h ⊢
    split_ifs at h ⊢ <;> simp_all

theorem update_self (s : KobjectSystem σ) (l : ℕ) : s.update l (s.lists l) s.memory = s := by
  have hlists : (fun k => if k = l then s.lists l else s.lists k) = s.lists := by
    funext k
    split
    · rename_i hk
      rw [hk]
    · rfl
  simp only [KobjectSystem.update, hlists]
  rfl

/-- Only a list in use has members. -/
theorem ChainsOf.list_of_mem (h : ChainsOf s chains) {l : ℕ} {node : UInt32}
    (hnode : node ∈ chains l) : ∃ list, s.lists l = some list := by
  rw [← Option.ne_none_iff_exists']
  intro hnone
  rw [h.absent l hnone] at hnode
  cases hnode

theorem ChainsOf.linked_iff (h : ChainsOf s chains) {node : UInt32} :
    Linked s node ↔ ∃ l, node ∈ chains l := by
  constructor
  · rintro ⟨l, list, hl, hreach⟩
    exact ⟨l, (h.represents l list hl).chain.reaches_iff.mp hreach⟩
  · rintro ⟨l, hnode⟩
    obtain ⟨list, hl⟩ := h.list_of_mem hnode
    exact ⟨l, list, hl, (h.represents l list hl).chain.reaches_iff.mpr hnode⟩

/-- The last node of a list is the one linked node without a successor. -/
theorem ChainsOf.isTail_iff (h : ChainsOf s chains) {node : UInt32} :
    IsTail s node ↔ Linked s node ∧ nodeNext s.memory node = 0 := by
  constructor
  · rintro ⟨hne, l, list, hl, htail⟩
    have hrep := h.represents l list hl
    rw [hrep.tail] at htail
    have hmem : node ∈ chains l := by
      rw [← htail] at hne ⊢
      exact lastOr_mem_of_ne hne
    exact ⟨h.linked_iff.mpr ⟨l, hmem⟩, (hrep.chain.next_null_iff hmem).mpr htail⟩
  · rintro ⟨hlinked, hnext⟩
    obtain ⟨l, hmem⟩ := h.linked_iff.mp hlinked
    obtain ⟨list, hl⟩ := h.list_of_mem hmem
    have hrep := h.represents l list hl
    refine ⟨hrep.chain.ne_null hmem, l, list, hl, ?_⟩
    rw [hrep.tail]
    exact (hrep.chain.next_null_iff hmem).mp hnext

/-- A list in use has a tail. -/
theorem ChainsOf.head_or_tail (h : ChainsOf s chains) {l : ℕ} {list : KobjectList}
    (hl : s.lists l = some list) : list.head = 0 ∨ list.tail ≠ 0 := by
  have hrep := h.represents l list hl
  by_cases hempty : list.head = 0
  · exact Or.inl hempty
  · right
    obtain ⟨x, xs, hxs⟩ := List.exists_cons_of_ne_nil ((chain_null_iff hrep.chain).not.mp hempty)
    rw [hrep.tail, hxs, lastOr_cons]
    apply h.nodesApart.ne_zero
    apply h.members l
    rw [hxs]
    exact lastOr_mem x xs

/-- Of the linked nodes an append accepts the tails and no others. -/
theorem ChainsOf.accepts_linked_iff (h : ChainsOf s chains) {l : ℕ} {node : UInt32}
    (hl : s.lists l ≠ none) (hlinked : Linked s node) :
    (kobjectListAppend (s.lists l) s.memory node).result = true ↔ IsTail s node := by
  rw [append_accepted_iff, h.isTail_iff]
  constructor
  · rintro ⟨_, _, _, hnext, _⟩
    exact ⟨hlinked, hnext⟩
  · rintro ⟨_, hnext⟩
    obtain ⟨list, hlist⟩ := Option.ne_none_iff_exists'.mp hl
    obtain ⟨k, hmem⟩ := h.linked_iff.mp hlinked
    exact ⟨list, hlist, h.nodesApart.ne_zero (h.members k node hmem), hnext, h.head_or_tail hlist⟩

/-! ## Runs -/

/-- No append, to a list, of a node that is the tail of a list. -/
def AppendsNoTail (s : KobjectSystem σ) (call : KobjectCall) : Prop :=
  ∀ l node accepted, call = .append l node accepted → s.lists l ≠ none → ¬ IsTail s node

/-- No append that accepts a linked node. -/
def AcceptsNoLinked (s : KobjectSystem σ) (call : KobjectCall) : Prop :=
  ∀ l node, call = .append l node true → ¬ Linked s node

theorem ChainsOf.acceptsNoLinked_iff {call : KobjectCall} (h : ChainsOf s chains)
    (hs : KobjectStep ops s call t) : AcceptsNoLinked s call ↔ AppendsNoTail s call := by
  constructor
  · rintro hsound l node accepted rfl hl htail
    have hlinked := (h.isTail_iff.mp htail).1
    cases hs with
    | append _ _ live =>
      have haccept := (h.accepts_linked_iff hl hlinked).mpr htail
      exact hsound l node (by rw [haccept]) hlinked
  · rintro hcareful l node rfl hlinked
    generalize hcall : KobjectCall.append l node true = call at hs
    cases hs with
    | init | create | remove => cases hcall
    | append k node' live =>
      injection hcall with hk hnode haccept
      subst hk hnode
      have hl : s.lists l ≠ none := by
        obtain ⟨record, hrecord, _⟩ := (append_accepted_iff _ _ _).mp haccept.symm
        rw [hrecord]
        simp
      exact hcareful l node true rfl hl ((h.accepts_linked_iff hl hlinked).mp haccept.symm)

/-- An accepted append of a node that is in no list puts it behind the chain of its list. -/
theorem ChainsOf.link (h : ChainsOf s chains) {l : ℕ} {node : UInt32} (hnode : node ∈ s.nodes)
    (hnot : ∀ k, node ∉ chains k)
    (haccept : (kobjectListAppend (s.lists l) s.memory node).result = true) :
    ChainsOf (s.update l (kobjectListAppend (s.lists l) s.memory node).list
        (kobjectListAppend (s.lists l) s.memory node).memory)
      (fun k => if k = l then chains l ++ [node] else chains k) ∧
    OnlyLinks s.nodes s.memory (kobjectListAppend (s.lists l) s.memory node).memory ∧
    (kobjectListAppend (s.lists l) s.memory node).list ≠ none ∧
    ∀ q ∈ s.nodes, q ∉ chains l → nodeNext (kobjectListAppend (s.lists l) s.memory node).memory q =
      nodeNext s.memory q := by
  obtain ⟨list, hl, hne, hnext, _⟩ := (append_accepted_iff _ _ _).mp haccept
  obtain ⟨list', memory', heq, hrep, honly, hother⟩ :=
    (h.represents l list hl).append h.nodesApart (h.members l) hnode (hnot l) hnext
  rw [hl, heq]
  refine ⟨h.update hrep honly.onlyNodes hother ?_ ?_, honly, by simp, hother⟩
  · intro x hx
    rcases List.mem_append.mp hx with hx | hx
    · exact h.members l x hx
    · rw [List.mem_singleton.mp hx]
      exact hnode
  · intro k hkl x hx hxk
    rcases List.mem_append.mp hx with hx | hx
    · exact hkl (h.apart k l x hxk hx)
    · rw [List.mem_singleton.mp hx] at hxk
      exact hnot k hxk

theorem ChainsOf.append (h : ChainsOf s chains) {l : ℕ} {node : UInt32}
    (hlive : node = 0 ∨ node ∈ s.nodes) (htail : s.lists l ≠ none → ¬ IsTail s node) :
    ∃ chains', ChainsOf (s.update l (kobjectListAppend (s.lists l) s.memory node).list
      (kobjectListAppend (s.lists l) s.memory node).memory) chains' := by
  by_cases haccept : (kobjectListAppend (s.lists l) s.memory node).result = true
  · obtain ⟨list, hl, hne, hnext, _⟩ := (append_accepted_iff _ _ _).mp haccept
    have hnot : ∀ k, node ∉ chains k := fun k hk =>
      htail (by rw [hl]; simp) (h.isTail_iff.mpr ⟨h.linked_iff.mpr ⟨k, hk⟩, hnext⟩)
    exact ⟨_, (h.link (hlive.resolve_left hne) hnot haccept).1⟩
  · obtain ⟨hlist, hmemory⟩ := append_rejected haccept
    rw [hlist, hmemory, update_self]
    exact ⟨chains, h⟩

/-- A removal that ends leaves everything alone, or takes the first node with the id out. -/
theorem ChainsOf.removed (h : ChainsOf s chains) {l fuel : ℕ} {id : UInt32}
    {outcome : ListOutcome}
    (hends : kobjectListRemoveById fuel (s.lists l) s.memory id = some outcome) :
    (outcome = ⟨false, s.lists l, s.memory⟩ ∧ ∀ x ∈ chains l, nodeId s.memory x ≠ id) ∨
    ∃ pre c post, chains l = pre ++ c :: post ∧ (∀ x ∈ pre, nodeId s.memory x ≠ id) ∧
      nodeId s.memory c = id ∧ outcome.result = true ∧ outcome.list ≠ none ∧
      ChainsOf (s.update l outcome.list outcome.memory)
        (fun k => if k = l then pre ++ post else chains k) ∧
      nodeNext outcome.memory c = 0 ∧ OnlyLinks s.nodes s.memory outcome.memory ∧
      ∀ q ∈ s.nodes, q ∉ chains l → nodeNext outcome.memory q = nodeNext s.memory q := by
  cases hl : s.lists l with
  | none =>
    rw [hl] at hends
    obtain rfl := Option.some.inj hends
    exact Or.inl ⟨rfl, by simp [h.absent l hl]⟩
  | some list =>
    rw [hl] at hends
    have hrep := h.represents l list hl
    rcases remove_run hrep.chain list id 0 with
      ⟨hnone, hrun⟩ | ⟨pre, c, post, hxs, hpre, hc, hrun⟩
    · exact Or.inl ⟨run_unique hends hrun, hnone⟩
    · have hmembers := h.members l
      rw [hxs] at hrep hmembers
      obtain ⟨list', memory', heq, hrep', hfree, honly, hother⟩ :=
        hrep.unlink h.nodesApart hmembers
      have hsub : ∀ x ∈ pre ++ post, x ∈ chains l := by
        intro x hx
        rw [hxs]
        rcases List.mem_append.mp hx with hx | hx <;> simp [hx]
      rw [run_unique hends hrun, heq]
      refine Or.inr ⟨pre, c, post, hxs, hpre, hc, rfl, by simp,
        h.update hrep' honly.onlyNodes ?_ ?_ ?_, hfree, honly, ?_⟩
      · rw [hxs]
        exact hother
      · exact fun x hx => h.members l x (hsub x hx)
      · intro k hkl x hx hxk
        exact hkl (h.apart k l x hxk (hsub x hx))
      · rw [hxs]
        exact hother

theorem ChainsOf.remove (h : ChainsOf s chains) {l fuel : ℕ} {id : UInt32}
    {outcome : ListOutcome}
    (hends : kobjectListRemoveById fuel (s.lists l) s.memory id = some outcome) :
    ∃ chains', ChainsOf (s.update l outcome.list outcome.memory) chains' := by
  rcases h.removed hends with ⟨rfl, _⟩ | ⟨pre, c, post, _, _, _, _, _, hchains, _⟩
  · simp only [update_self]
    exact ⟨chains, h⟩
  · exact ⟨_, hchains⟩

theorem ChainsOf.step {call : KobjectCall} (h : ChainsOf s chains)
    (hs : KobjectStep ops s call t) (hcareful : AppendsNoTail s call) :
    ∃ chains', ChainsOf t chains' := by
  cases hs with
  | init l list fresh =>
    exact ⟨_, h.update (represents_init _) (fun _ _ => rfl) (fun _ _ _ => rfl) (by simp) (by simp)⟩
  | create id value => exact ⟨chains, h.create ops id value⟩
  | append l node live => exact h.append live (hcareful l node _ rfl)
  | remove l id fuel ends => exact h.remove ends

/-- A step that is no append of the tail of a list. -/
def CarefulStep (ops : GrowthOps σ) (s : KobjectSystem σ) (call : KobjectCall)
    (t : KobjectSystem σ) : Prop :=
  KobjectStep ops s call t ∧ AppendsNoTail s call

/-- A step that is no accepted append of a linked node. -/
def SoundStep (ops : GrowthOps σ) (s : KobjectSystem σ) (call : KobjectCall)
    (t : KobjectSystem σ) : Prop :=
  KobjectStep ops s call t ∧ AcceptsNoLinked s call

/-- Every list ends without coming back to a node, its tail and count are right, and both loops
over it end. -/
structure Integrity (s : KobjectSystem σ) : Prop where
  lists : ∀ l list, s.lists l = some list → ∃ xs : List UInt32,
    Chain (nodeNext s.memory) 0 list.head xs ∧ xs.Nodup ∧ list.tail = xs.getLast?.getD 0 ∧
    (list.tail = 0 ↔ list.head = 0) ∧ list.count.toNat = xs.length
  find_ends : ∀ l id, ∃ fuel node,
    kobjectListFindById fuel (s.lists l) s.memory id = some node
  remove_ends : ∀ l id, ∃ fuel outcome,
    kobjectListRemoveById fuel (s.lists l) s.memory id = some outcome

theorem ChainsOf.integrity (h : ChainsOf s chains) : Integrity s := by
  refine ⟨fun l list hl => ?_, fun l id => ?_, fun l id => ?_⟩
  · have hrep := h.represents l list hl
    refine ⟨chains l, hrep.chain, hrep.chain.nodup, hrep.tail, ?_, hrep.count⟩
    rw [chain_null_iff hrep.chain, hrep.tail]
    constructor
    · intro hlast
      by_contra hne
      obtain ⟨x, xs, hxs⟩ := List.exists_cons_of_ne_nil hne
      rw [hxs, lastOr_cons] at hlast
      have hmem := lastOr_mem x xs
      rw [hlast, ← hxs] at hmem
      exact hrep.chain.ne_null hmem rfl
    · intro hnil
      rw [hnil, lastOr_nil]
  · cases hl : s.lists l with
    | none => exact ⟨0, 0, rfl⟩
    | some list =>
      simp only [kobjectListFindById]
      exact ⟨_, _, find_run (h.represents l list hl).chain id⟩
  · cases hl : s.lists l with
    | none => exact ⟨0, _, rfl⟩
    | some list =>
      simp only [kobjectListRemoveById]
      rcases remove_run (h.represents l list hl).chain list id 0 with
        ⟨_, hrun⟩ | ⟨_, _, _, _, _, _, hrun⟩
      · exact ⟨_, _, hrun⟩
      · exact ⟨_, _, hrun⟩

theorem noObjects_chains (memory : Memory) (env : σ) :
    ChainsOf (noObjects memory env) fun _ => [] := by
  refine ⟨isolated_start memory env,
    ?_, fun _ _ => rfl, ?_, ?_, ?_⟩
  · intro p hp
    cases hp
  · intro l list hl
    cases hl
  · intro l x hx
    cases hx
  · intro l k x hx
    cases hx

theorem careful_run {memory : Memory} {env : σ} {calls : List KobjectCall}
    (run : Transition.Execution (CarefulStep ops) (noObjects memory env) calls s) :
    Transition.Execution (SoundStep ops) (noObjects memory env) calls s ∧
      ∃ chains, ChainsOf s chains := by
  induction run with
  | start => exact ⟨.start, _, noObjects_chains memory env⟩
  | step _ hs ih =>
    obtain ⟨hrun, chains, h⟩ := ih
    exact ⟨hrun.step ⟨hs.1, (h.acceptsNoLinked_iff hs.1).mpr hs.2⟩, h.step hs.1 hs.2⟩

theorem careful_of_sound {memory : Memory} {env : σ} {calls : List KobjectCall}
    (run : Transition.Execution (SoundStep ops) (noObjects memory env) calls s) :
    Transition.Execution (CarefulStep ops) (noObjects memory env) calls s := by
  induction run with
  | start => exact .start
  | step _ hs ih =>
    obtain ⟨_, chains, h⟩ := careful_run ih
    exact ih.step ⟨hs.1, (h.acceptsNoLinked_iff hs.1).mp hs.2⟩

end System

theorem list_integrity_iff {σ : Type*} (ops : GrowthOps σ) (memory : Memory) (env : σ)
    (calls : List KobjectCall) (s : KobjectSystem σ) :
    (Transition.Execution (SoundStep ops) (noObjects memory env) calls s ↔
      Transition.Execution (CarefulStep ops) (noObjects memory env) calls s) ∧
    (Transition.Execution (CarefulStep ops) (noObjects memory env) calls s → Integrity s) := by
  refine ⟨⟨careful_of_sound, fun run => (careful_run run).1⟩, fun run => ?_⟩
  obtain ⟨_, chains, h⟩ := careful_run run
  exact h.integrity

/-- A list and a node, not linked yet. -/
def listAndNode : KobjectSystem UInt64 :=
  let s := noObjects (fun _ => 0) 0x200000
  let s := s.update 0 (kobjectListInit (some ⟨0, 0, 0⟩)) s.memory
  created s (kobjectNodeCreate plentifulOps s.heap.heap 7 1).1
    (kobjectNodeCreate plentifulOps s.heap.heap 7 1).2

/-- The node is the whole list. -/
def oneNode : KobjectSystem UInt64 :=
  listAndNode.update 0 (kobjectListAppend (listAndNode.lists 0) listAndNode.memory 0x400010).list
    (kobjectListAppend (listAndNode.lists 0) listAndNode.memory 0x400010).memory

theorem oneNode_run : ∃ calls, Transition.Execution (CarefulStep plentifulOps)
    (noObjects (fun _ => 0) 0x200000) calls oneNode := by
  have hnode : 0x400010 ∈ listAndNode.nodes := by decide +kernel
  have hlists : ∀ l list, listAndNode.lists l = some list → list.tail = 0 := by
    intro l list hl
    rw [listAndNode, created_lists] at hl
    simp only [KobjectSystem.update, kobjectListInit, noObjects] at hl
    split at hl
    · obtain rfl := Option.some.inj hl
      rfl
    · cases hl
  refine ⟨_, ((Transition.Execution.start.step
    ⟨.init _ 0 ⟨0, 0, 0⟩ rfl, ?_⟩).step ⟨.create _ 7 1, ?_⟩).step
    ⟨.append listAndNode 0 0x400010 (Or.inr hnode), ?_⟩⟩
  case refine_1 =>
    rintro l node accepted hcall _ ⟨hne, k, list, hk, rfl⟩
    exact hne (hlists k list hk)
  all_goals
    intro l node accepted hcall
    cases hcall

theorem list_integrity_oneNode : Integrity oneNode := by
  obtain ⟨calls, hrun⟩ := oneNode_run
  exact (list_integrity_iff plentifulOps (fun _ => 0) 0x200000 calls oneNode).2 hrun

/-- Appending the node once more is accepted and closes a loop on it, which a search for an
absent id never leaves. -/
theorem list_integrity_selfLoop : ∃ calls s t,
    KobjectRun plentifulOps (fun _ => 0) 0x200000 calls s ∧ Linked s 0x400010 ∧
    KobjectStep plentifulOps s (.append 0 0x400010 true) t ∧
    ¬ ∃ fuel node, kobjectListFindById fuel (t.lists 0) t.memory 8 = some node := by
  obtain ⟨calls, hrun⟩ := oneNode_run
  have hnode : 0x400010 ∈ oneNode.nodes := by decide +kernel
  have haccept : (kobjectListAppend (oneNode.lists 0) oneNode.memory 0x400010).result = true := by
    decide +kernel
  have hstep := @KobjectStep.append UInt64 plentifulOps oneNode 0 0x400010 (Or.inr hnode)
  rw [haccept] at hstep
  refine ⟨calls, oneNode, _, hrun.mono fun _ _ _ hs => hs.1,
    ⟨0, ⟨0x400010, 0x400010, 1⟩, by decide +kernel, .head (by decide)⟩, hstep, ?_⟩
  have hlist : (oneNode.update 0
      (kobjectListAppend (oneNode.lists 0) oneNode.memory 0x400010).list
      (kobjectListAppend (oneNode.lists 0) oneNode.memory 0x400010).memory).lists 0 =
      some ⟨0x400010, 0x400010, 2⟩ := by decide +kernel
  rw [hlist]
  refine not_halts_of_trap (T := fun cursor => cursor = 0x400010) ?_ rfl
  rintro _ rfl
  exact ⟨0x400010, by decide +kernel, rfl⟩

end KernelObjectIntegrity
