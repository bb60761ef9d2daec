import CustomOs.Library.TranslationCache
import CustomOs.PageMapRefinement
import Mathlib.Order.BooleanAlgebra.Set

/-! # No stale translation after map or unmap
The processor caches translations and directory entries while the mapper writes the tables. The
calls are spelled out as the writes and invalidations they make, in order; the processor may fill
its cache between any two of them. Whenever a call has returned, the cache agrees with memory. -/
namespace CachedTranslations

open Paging PageMapper PageMapRefinement TranslationCache

/-! ## The calls in single steps -/

inductive Action where
  | write (table i entry : UInt32)
  | invlpg (addr : UInt32)
  deriving DecidableEq, Repr

def Action.onMemory (memory : PageMemory) : Action → PageMemory
  | .write table i entry => memory.write table i entry
  | .invlpg _ => memory

def applyActions (memory : PageMemory) (actions : List Action) : PageMemory :=
  actions.foldl Action.onMemory memory

def stage8bVmmInvalidatePage (virtualPageAddr : UInt32) : Action := .invlpg virtualPageAddr

def clearActions (pageTable : UInt32) : List Action :=
  (List.range entriesPerTable).map fun i => .write pageTable (UInt32.ofNat i) 0

/-- The end of `stage8b_vmm_map_page`: the table entry, then the invalidation. -/
def mapIntoTableActions (memory : PageMemory)
    (expectedPageTable virtualPageAddr physicalFrameAddr : UInt32) : Bool × List Action :=
  let ptIndex := stage7aPagingPtIndex virtualPageAddr
  if memory expectedPageTable ptIndex &&& flagPresent ≠ 0 then (false, [])
  else
    (true, [.write expectedPageTable ptIndex
      (stage7aPagingMakeEntry physicalFrameAddr (flagPresent ||| flagWritable)),
      stage8bVmmInvalidatePage virtualPageAddr])

def mapPageActions (layout : TableLayout) (memory : PageMemory)
    (virtualPageAddr physicalFrameAddr : UInt32) : Bool × List Action :=
  let mappingFlags := flagPresent ||| flagWritable
  if !stage8bVmmIsPageAligned virtualPageAddr then (false, [])
  else if !stage8bVmmIsPageAligned physicalFrameAddr then (false, [])
  else
    match stage8bVmmGetReservedMappingSlot virtualPageAddr with
    | none => (false, [])
    | some (pdIndex, tableSlot) =>
      let expectedPageTable := layout.reservedTable tableSlot
      let pde := memory layout.earlyPageDirectory pdIndex
      if pde &&& flagPresent = 0 then
        let link := clearActions expectedPageTable ++
          [.write layout.earlyPageDirectory pdIndex
            (stage7aPagingMakeEntry expectedPageTable mappingFlags)]
        let rest := mapIntoTableActions (applyActions memory link) expectedPageTable
          virtualPageAddr physicalFrameAddr
        (rest.1, link ++ rest.2)
      else if stage7aPagingFrameAddr pde ≠ stage7aPagingFrameAddr expectedPageTable then (false, [])
      else mapIntoTableActions memory expectedPageTable virtualPageAddr physicalFrameAddr

/-- The invalidation stands between the table entry and the unlinking of an empty table. -/
def unmapPageActions (layout : TableLayout) (memory : PageMemory) (virtualPageAddr : UInt32) :
    Bool × List Action :=
  if !stage8bVmmIsPageAligned virtualPageAddr then (false, [])
  else
    match stage8bVmmGetReservedMappingSlot virtualPageAddr with
    | none => (false, [])
    | some (pdIndex, tableSlot) =>
      let expectedPageTable := layout.reservedTable tableSlot
      let pde := memory layout.earlyPageDirectory pdIndex
      if pde &&& flagPresent = 0 then (false, [])
      else if stage7aPagingFrameAddr pde ≠ stage7aPagingFrameAddr expectedPageTable then (false, [])
      else
        let ptIndex := stage7aPagingPtIndex virtualPageAddr
        if memory expectedPageTable ptIndex &&& flagPresent = 0 then (false, [])
        else
          let clear : List Action :=
            [.write expectedPageTable ptIndex 0, stage8bVmmInvalidatePage virtualPageAddr]
          let memory := memory.write expectedPageTable ptIndex 0
          if stage8bVmmTableIsEmpty memory expectedPageTable then
            (true, clear ++ [.write layout.earlyPageDirectory pdIndex 0])
          else (true, clear)

/-! ## The processor -/

/-- Addresses of one page share a cached translation. -/
structure Page where
  addr : UInt32
  aligned : addr.toNat % 4096 = 0
  deriving DecidableEq

def pageOf (addr : UInt32) : Page :=
  ⟨stage7aPagingFrameAddr addr, by rw [frameAddr_toNat]; omega⟩

/-- The translation an entry makes. -/
def decode (entry : UInt32) : Option UInt32 :=
  if entry &&& flagPresent = 0 then none else some (entry &&& frameAddrMask)

def tableIndex (v : Page) : UInt32 := (v.addr >>> 12) &&& 0x3FF

/-- The tables the processor walks: directory by the top ten bits, table by the next ten. -/
def tablesOf (layout : TableLayout) (memory : PageMemory) :
    Tables UInt32 UInt32 Page UInt32 where
  index v := v.addr >>> 22
  directory d :=
    if memory layout.earlyPageDirectory d &&& flagPresent = 0 then none
    else some (memory layout.earlyPageDirectory d)
  table e v := decode (memory (e &&& frameAddrMask) (tableIndex v))

abbrev TranslationBuffer := Cache UInt32 UInt32 Page UInt32

def Action.onCache (cache : TranslationBuffer) : Action → TranslationBuffer
  | .write _ _ _ => cache
  | .invlpg addr => cache.invalidate (pageOf addr)

/-- Memory, cache, and the call under way with what it has still to do. -/
structure MapperSystem where
  memory : PageMemory
  cache : TranslationBuffer
  pending : Option (MapperCall × List Action)

/-- Calls go on one action at a time, with cache fills anywhere between. A step is labelled with
the call it returns from. -/
inductive CachedStep (layout : TableLayout) :
    MapperSystem → Option MapperCall → MapperSystem → Prop where
  | map (s : MapperSystem) (v p : UInt32) (idle : s.pending = none) :
      CachedStep layout s none { s with
        pending := some (.map v p (mapPageActions layout s.memory v p).1,
          (mapPageActions layout s.memory v p).2) }
  | unmap (s : MapperSystem) (v : UInt32) (idle : s.pending = none) :
      CachedStep layout s none { s with
        pending := some (.unmap v (unmapPageActions layout s.memory v).1,
          (unmapPageActions layout s.memory v).2) }
  | act (s : MapperSystem) {call : MapperCall} {action : Action} {rest : List Action}
      (pending : s.pending = some (call, action :: rest)) :
      CachedStep layout s none
        ⟨action.onMemory s.memory, action.onCache s.cache, some (call, rest)⟩
  | done (s : MapperSystem) {call : MapperCall} (pending : s.pending = some (call, [])) :
      CachedStep layout s (some call) { s with pending := none }
  | fill (s : MapperSystem) {cache : TranslationBuffer}
      (hfill : Fill (tablesOf layout s.memory) s.cache cache) :
      CachedStep layout s none { s with cache := cache }

/-- From the identity mapping on, with a cache that holds what the tables give. -/
abbrev CachedRun (layout : TableLayout) (memory : PageMemory) (cache : TranslationBuffer) :
    List (Option MapperCall) → MapperSystem → Prop :=
  Transition.Execution (CachedStep layout)
    ⟨stage7bSetupEarlyIdentityPaging layout memory, cache, none⟩

/-- The calls that have returned. -/
def returned (events : List (Option MapperCall)) : List MapperCall := events.filterMap id

variable {layout : TableLayout} {memory memory' : PageMemory} {cache : TranslationBuffer}
  {stale stale' : Set Page} {i j d e x : UInt32}

/-! ## The steps add up to the calls -/

theorem applyActions_append (memory : PageMemory) (xs ys : List Action) :
    applyActions memory (xs ++ ys) = applyActions (applyActions memory xs) ys := by
  simp [applyActions]

theorem applyActions_write (memory : PageMemory) (table i entry : UInt32) :
    applyActions memory [.write table i entry] = memory.write table i entry := rfl

theorem applyActions_clear (memory : PageMemory) (pageTable : UInt32) :
    applyActions memory (clearActions pageTable) = stage8bVmmClearPageTable memory pageTable := by
  simp only [applyActions, clearActions, List.foldl_map, Action.onMemory,
    stage8bVmmClearPageTable, clearTable]

theorem mapIntoTableActions_adds_up (memory : PageMemory) (expectedPageTable v p : UInt32) :
    (mapIntoTableActions memory expectedPageTable v p).1 =
        (mapIntoTable memory expectedPageTable v p).1 ∧
      applyActions memory (mapIntoTableActions memory expectedPageTable v p).2 =
        (mapIntoTable memory expectedPageTable v p).2 := by
  simp only [mapIntoTableActions, mapIntoTable]
  split_ifs <;> exact ⟨rfl, rfl⟩

theorem mapPageActions_adds_up (layout : TableLayout) (memory : PageMemory) (v p : UInt32) :
    (mapPageActions layout memory v p).1 = (stage8bVmmMapPage layout memory v p).1 ∧
      applyActions memory (mapPageActions layout memory v p).2 =
        (stage8bVmmMapPage layout memory v p).2 := by
  simp only [mapPageActions, stage8bVmmMapPage]
  split_ifs
  · exact ⟨rfl, rfl⟩
  · exact ⟨rfl, rfl⟩
  cases stage8bVmmGetReservedMappingSlot v with
  | none => exact ⟨rfl, rfl⟩
  | some slot =>
    simp only
    split_ifs
    · simp only [applyActions_append, applyActions_clear, applyActions_write]
      exact mapIntoTableActions_adds_up _ _ v p
    · exact ⟨rfl, rfl⟩
    · exact mapIntoTableActions_adds_up memory _ v p

theorem unmapPageActions_adds_up (layout : TableLayout) (memory : PageMemory) (v : UInt32) :
    (unmapPageActions layout memory v).1 = (stage8bVmmUnmapPage layout memory v).1 ∧
      applyActions memory (unmapPageActions layout memory v).2 =
        (stage8bVmmUnmapPage layout memory v).2 := by
  simp only [unmapPageActions, stage8bVmmUnmapPage]
  split_ifs
  · exact ⟨rfl, rfl⟩
  cases stage8bVmmGetReservedMappingSlot v with
  | none => exact ⟨rfl, rfl⟩
  | some slot =>
    simp only
    split_ifs <;> exact ⟨rfl, rfl⟩

/-! ## What one write does to the walk -/

/-- The only present entry a directory slot ever has: the link to its own static table. -/
inductive OwnEntry (layout : TableLayout) : UInt32 → UInt32 → Prop where
  | identity : OwnEntry layout 0
      (stage7aPagingMakeEntry layout.earlyIdentityPageTable (flagPresent ||| flagWritable))
  | reserved {d : UInt32} (hlower : 1 ≤ d.toNat) (hupper : d.toNat < 4) : OwnEntry layout d
      (stage7aPagingMakeEntry (layout.reservedTable (d - 1)) (flagPresent ||| flagWritable))

def Links (layout : TableLayout) (memory : PageMemory) : Prop :=
  ∀ d : UInt32, d.toNat < 1024 → memory layout.earlyPageDirectory d &&& flagPresent ≠ 0 →
    OwnEntry layout d (memory layout.earlyPageDirectory d)

theorem OwnEntry.ne_directory (h : OwnEntry layout d e) :
    e &&& frameAddrMask ≠ layout.earlyPageDirectory := by
  cases h with
  | identity =>
    have hframe := makeEntry_frame layout.identity_aligned
    rw [stage7aPagingFrameAddr] at hframe
    rw [hframe]
    exact layout.directory_ne_identity.symm
  | reserved hlower hupper =>
    have hframe := makeEntry_frame (reservedTable_aligned layout (slot_lt hlower hupper))
    rw [stage7aPagingFrameAddr] at hframe
    rw [hframe]
    exact reservedTable_ne_directory layout (slot_lt hlower hupper)

/-- An entry leads to the table of slot `i` when it is the entry of slot `i`. -/
theorem OwnEntry.table_iff (h : OwnEntry layout d e) (hlower : 1 ≤ i.toNat)
    (hupper : i.toNat < 4) : e &&& frameAddrMask = layout.reservedTable (i - 1) ↔ d = i := by
  cases h with
  | identity =>
    have hframe := makeEntry_frame layout.identity_aligned
    rw [stage7aPagingFrameAddr] at hframe
    rw [hframe]
    constructor
    · intro heq
      exact absurd heq (reservedTable_ne_identity layout (slot_lt hlower hupper)).symm
    · rintro rfl
      simp at hlower
  | reserved hdlower hdupper =>
    have hframe := makeEntry_frame (reservedTable_aligned layout (slot_lt hdlower hdupper))
    rw [stage7aPagingFrameAddr] at hframe
    rw [hframe]
    constructor
    · intro heq
      have hslots := congrArg UInt32.toNat (reservedTable_inj layout (slot_lt hdlower hdupper)
        (slot_lt hlower hupper) heq)
      rw [slot_toNat hdlower, slot_toNat hlower] at hslots
      exact UInt32.toNat_inj.mp (by omega)
    · rintro rfl
      rfl

theorem index_lt (v : Page) : (v.addr >>> 22).toNat < 1024 := by
  have hv := v.addr.toNat_lt
  rw [MachineWord.shiftRight32 v.addr 22 rfl (by decide)]
  omega

/-- A word of table `i`, seen through the entry of some slot. -/
theorem OwnEntry.write_table (h : OwnEntry layout d e) (hlower : 1 ≤ i.toNat)
    (hupper : i.toNat < 4) (memory : PageMemory) (j k x : UInt32) :
    memory.write (layout.reservedTable (i - 1)) j x (e &&& frameAddrMask) k =
      if d = i ∧ k = j then x else memory (e &&& frameAddrMask) k := by
  simp only [PageMemory.write, h.table_iff hlower hupper]

theorem OwnEntry.write_directory (h : OwnEntry layout d e) (memory : PageMemory)
    (i k x : UInt32) : memory.write layout.earlyPageDirectory i x (e &&& frameAddrMask) k =
      memory (e &&& frameAddrMask) k :=
  write_table_ne memory i k x h.ne_directory

theorem write_table_directory (hlower : 1 ≤ i.toNat) (hupper : i.toNat < 4)
    (memory : PageMemory) (j x d : UInt32) :
    memory.write (layout.reservedTable (i - 1)) j x layout.earlyPageDirectory d =
      memory layout.earlyPageDirectory d :=
  write_table_ne memory j d x (reservedTable_ne_directory layout (slot_lt hlower hupper)).symm

/-- The walk for a page whose directory entry is present. -/
theorem walk_present {v : Page}
    (hpresent : memory layout.earlyPageDirectory (v.addr >>> 22) &&& flagPresent ≠ 0) :
    (tablesOf layout memory).walk v =
      (tablesOf layout memory).table (memory layout.earlyPageDirectory (v.addr >>> 22)) v := by
  simp only [Tables.walk, tablesOf, if_neg hpresent, Option.bind_some]

theorem walk_absent {v : Page}
    (habsent : memory layout.earlyPageDirectory (v.addr >>> 22) &&& flagPresent = 0) :
    (tablesOf layout memory).walk v = none := by
  simp only [Tables.walk, tablesOf, if_pos habsent, Option.bind_none]

theorem decode_none : decode x = none ↔ x &&& flagPresent = 0 := by
  simp only [decode]
  split <;> simp [*]

theorem table_write_table (h : OwnEntry layout d e) (hlower : 1 ≤ i.toNat) (hupper : i.toNat < 4)
    (memory : PageMemory) (j x : UInt32) (v : Page) :
    (tablesOf layout (memory.write (layout.reservedTable (i - 1)) j x)).table e v =
      if d = i ∧ tableIndex v = j then decode x else (tablesOf layout memory).table e v := by
  simp only [tablesOf, h.write_table hlower hupper, apply_ite decode]

theorem walk_write_table (hlinks : Links layout memory) (hlower : 1 ≤ i.toNat)
    (hupper : i.toNat < 4) (j x : UInt32) (v : Page) :
    (tablesOf layout (memory.write (layout.reservedTable (i - 1)) j x)).walk v =
      if memory layout.earlyPageDirectory (v.addr >>> 22) &&& flagPresent ≠ 0 ∧
          v.addr >>> 22 = i ∧ tableIndex v = j then decode x
      else (tablesOf layout memory).walk v := by
  have hsame : memory.write (layout.reservedTable (i - 1)) j x layout.earlyPageDirectory
      (v.addr >>> 22) = memory layout.earlyPageDirectory (v.addr >>> 22) :=
    write_table_directory hlower hupper memory j x _
  by_cases hpresent : memory layout.earlyPageDirectory (v.addr >>> 22) &&& flagPresent = 0
  · rw [walk_absent (by rw [hsame]; exact hpresent), walk_absent hpresent]
    simp [hpresent]
  · have hown := hlinks _ (index_lt v) hpresent
    rw [walk_present (by rw [hsame]; exact hpresent), walk_present hpresent, hsame,
      table_write_table hown hlower hupper]
    simp [hpresent]

theorem walk_write_directory (hlinks : Links layout memory) (i x : UInt32) {v : Page}
    (hne : v.addr >>> 22 ≠ i) :
    (tablesOf layout (memory.write layout.earlyPageDirectory i x)).walk v =
      (tablesOf layout memory).walk v := by
  have hsame := write_index_ne memory layout.earlyPageDirectory layout.earlyPageDirectory x hne
  by_cases hpresent : memory layout.earlyPageDirectory (v.addr >>> 22) &&& flagPresent = 0
  · rw [walk_absent (by rw [hsame]; exact hpresent), walk_absent hpresent]
  · have hown := hlinks _ (index_lt v) hpresent
    rw [walk_present (by rw [hsame]; exact hpresent), walk_present hpresent, hsame]
    simp only [tablesOf, hown.write_directory]

/-- An empty table translates nothing, through whichever entry of its slot. -/
theorem OwnEntry.table_empty (h : OwnEntry layout i e) (hlower : 1 ≤ i.toNat)
    (hupper : i.toNat < 4) {v : Page}
    (hempty : memory (layout.reservedTable (i - 1)) (tableIndex v) &&& flagPresent = 0) :
    (tablesOf layout memory).table e v = none := by
  have htable := (h.table_iff hlower hupper).mpr rfl
  simp only [tablesOf, htable]
  exact decode_none.mpr hempty

theorem walk_empty (hlinks : Links layout memory) (hlower : 1 ≤ i.toNat) (hupper : i.toNat < 4)
    {v : Page} (hv : v.addr >>> 22 = i)
    (hempty : memory (layout.reservedTable (i - 1)) (tableIndex v) &&& flagPresent = 0) :
    (tablesOf layout memory).walk v = none := by
  by_cases hpresent : memory layout.earlyPageDirectory (v.addr >>> 22) &&& flagPresent = 0
  · exact walk_absent hpresent
  · have hown := hlinks _ (index_lt v) hpresent
    rw [walk_present hpresent]
    rw [hv] at hown ⊢
    exact hown.table_empty hlower hupper hempty

/-! ## Coherence -/

/-- Memory and cache agree, but for the pages in `stale`. -/
structure Coherent (layout : TableLayout) (memory : PageMemory) (cache : TranslationBuffer)
    (stale : Set Page) : Prop where
  links : Links layout memory
  owned : ∀ (v : Page) e, (v.addr >>> 22, e) ∈ cache.entries → OwnEntry layout (v.addr >>> 22) e
  sound : Sound (tablesOf layout memory) cache stale

theorem Coherent.fill {cache' : TranslationBuffer} (h : Coherent layout memory cache stale)
    (hfill : Fill (tablesOf layout memory) cache cache') :
    Coherent layout memory cache' stale := by
  refine ⟨h.links, fun v e hcached => ?_, h.sound.fill hfill⟩
  cases hfill with
  | page husable htable => exact h.owned v e hcached
  | entry hentry =>
    rcases hcached with hnew | hold
    · obtain ⟨rfl, rfl⟩ := Prod.mk.inj hnew
      simp only [tablesOf] at hentry
      split at hentry
      · cases hentry
      · next hpresent =>
        obtain rfl := Option.some.inj hentry
        exact h.links _ (index_lt v) hpresent
    · exact h.owned v e hold
  | evict hpages hentries => exact h.owned v e (hentries hcached)

theorem Coherent.invlpg (h : Coherent layout memory cache stale) (v : Page) :
    Coherent layout memory (cache.invalidate v) (stale \ {v}) :=
  ⟨h.links, fun _ _ hcached => absurd hcached (Set.notMem_empty _), h.sound.invalidate v⟩

/-- Writing a table entry that no fresh page is translated by. -/
theorem Coherent.writeTable (h : Coherent layout memory cache stale) (hlower : 1 ≤ i.toNat)
    (hupper : i.toNat < 4) (hsub : stale ⊆ stale')
    (hunused : ∀ v : Page, v ∉ stale' → v.addr >>> 22 = i → tableIndex v = j →
      (tablesOf layout memory).walk v = none)
    (hlinked : x &&& flagPresent ≠ 0 →
      memory layout.earlyPageDirectory i &&& flagPresent ≠ 0) :
    Coherent layout (memory.write (layout.reservedTable (i - 1)) j x) cache stale' := by
  have hwalk := walk_write_table h.links hlower hupper j x
  refine ⟨fun d hd hpresent => ?_, h.owned, h.sound.change rfl hsub ?_ ?_⟩
  · rw [write_table_directory hlower hupper] at hpresent ⊢
    exact h.links d hd hpresent
  · intro v f hv hold
    rw [hwalk v]
    split
    · next hhit => rw [hunused v hv hhit.2.1 hhit.2.2] at hold; cases hold
    · exact hold
  · intro v e f hcached htable
    have hown := h.owned v e hcached
    rw [table_write_table hown hlower hupper] at htable
    rw [hwalk v]
    split at htable
    · next hhit =>
      have hx : x &&& flagPresent ≠ 0 := fun hzero => by
        rw [decode_none.mpr hzero] at htable
        cases htable
      have hpresent := hlinked hx
      rw [← hhit.1] at hpresent
      rw [if_pos ⟨hpresent, hhit⟩]
      exact htable
    · next hmiss =>
      rw [if_neg fun hc => hmiss hc.2]
      exact h.sound.entries v e f hcached htable

/-- Linking or unlinking an empty table. -/
theorem Coherent.writeDirectory (h : Coherent layout memory cache stale) (hlower : 1 ≤ i.toNat)
    (hupper : i.toNat < 4) (hown : x &&& flagPresent ≠ 0 → OwnEntry layout i x)
    (hempty : ∀ k : UInt32, k.toNat < 1024 →
      memory (layout.reservedTable (i - 1)) k &&& flagPresent = 0) :
    Coherent layout (memory.write layout.earlyPageDirectory i x) cache stale := by
  have hlinks : Links layout (memory.write layout.earlyPageDirectory i x) := by
    intro d hd hpresent
    by_cases hdi : d = i
    · subst hdi
      rw [write_same] at hpresent ⊢
      exact hown hpresent
    · rw [write_index_ne _ _ _ _ hdi] at hpresent ⊢
      exact h.links d hd hpresent
  have hindex : ∀ v : Page, (tableIndex v).toNat < 1024 := fun v => ptIndex_lt v.addr
  have hempty' : ∀ k : UInt32, k.toNat < 1024 →
      memory.write layout.earlyPageDirectory i x (layout.reservedTable (i - 1)) k &&& flagPresent =
        0 := by
    intro k hk
    rw [write_table_ne _ _ _ _ (reservedTable_ne_directory layout (slot_lt hlower hupper))]
    exact hempty k hk
  have hwalk : ∀ v, (tablesOf layout (memory.write layout.earlyPageDirectory i x)).walk v =
      (tablesOf layout memory).walk v := by
    intro v
    by_cases hv : v.addr >>> 22 = i
    · rw [walk_empty hlinks hlower hupper hv (hempty' _ (hindex v)),
        walk_empty h.links hlower hupper hv (hempty _ (hindex v))]
    · exact walk_write_directory h.links i x hv
  refine ⟨hlinks, h.owned, h.sound.change rfl subset_rfl ?_ ?_⟩
  · intro v f _ hold
    rw [hwalk v]
    exact hold
  · intro v e f hcached htable
    have hsame : (tablesOf layout (memory.write layout.earlyPageDirectory i x)).table e v =
        (tablesOf layout memory).table e v := by
      simp only [tablesOf, (h.owned v e hcached).write_directory]
    rw [hwalk v]
    exact h.sound.entries v e f hcached (hsame.symm.trans htable)

/-! ## What a call has still to do -/

/-- Done to the end, these actions keep memory and cache coherent and leave nothing stale. -/
inductive Keeps (layout : TableLayout) : PageMemory → Set Page → List Action → Prop where
  | done {memory : PageMemory} : Keeps layout memory ∅ []
  | write {memory : PageMemory} {stale : Set Page} {table i entry : UInt32} {rest : List Action}
      (stale' : Set Page)
      (hkeeps : ∀ cache, Coherent layout memory cache stale →
        Coherent layout (memory.write table i entry) cache stale')
      (hrest : Keeps layout (memory.write table i entry) stale' rest) :
      Keeps layout memory stale (.write table i entry :: rest)
  | invlpg {memory : PageMemory} {stale : Set Page} {addr : UInt32} {rest : List Action}
      (hrest : Keeps layout memory (stale \ {pageOf addr}) rest) :
      Keeps layout memory stale (.invlpg addr :: rest)

/-- After the invalidation of the only stale page. -/
theorem keeps_invlpg {addr : UInt32} {rest : List Action} (hsub : stale ⊆ {pageOf addr})
    (hrest : Keeps layout memory ∅ rest) :
    Keeps layout memory stale (stage8bVmmInvalidatePage addr :: rest) := by
  refine .invlpg ?_
  rw [Set.sdiff_eq_empty.mpr hsub]
  exact hrest

/-- Clearing the table of a slot that is not linked. -/
theorem keeps_clear (hlower : 1 ≤ i.toNat) (hupper : i.toNat < 4) (indices : List ℕ)
    {rest : List Action} (habsent : memory layout.earlyPageDirectory i &&& flagPresent = 0)
    (hrest : Keeps layout (applyActions memory (indices.map fun k =>
      .write (layout.reservedTable (i - 1)) (UInt32.ofNat k) 0)) ∅ rest) :
    Keeps layout memory ∅ ((indices.map fun k =>
      .write (layout.reservedTable (i - 1)) (UInt32.ofNat k) 0) ++ rest) := by
  induction indices generalizing memory with
  | nil => exact hrest
  | cons k indices ih =>
    refine .write ∅ (fun cache h => ?_) (ih ?_ hrest)
    · apply h.writeTable hlower hupper subset_rfl
      · rintro v _ rfl _
        exact walk_absent habsent
      · intro hzero
        exact absurd UInt32.zero_and hzero
    · rw [write_table_directory hlower hupper]
      exact habsent

theorem keeps_clearActions (hlower : 1 ≤ i.toNat) (hupper : i.toNat < 4) {rest : List Action}
    (habsent : memory layout.earlyPageDirectory i &&& flagPresent = 0)
    (hrest : Keeps layout (stage8bVmmClearPageTable memory (layout.reservedTable (i - 1))) ∅
      rest) :
    Keeps layout memory ∅ (clearActions (layout.reservedTable (i - 1)) ++ rest) := by
  rw [← applyActions_clear] at hrest
  rw [clearActions] at hrest ⊢
  exact keeps_clear hlower hupper (List.range entriesPerTable) habsent hrest

variable {v p : UInt32}

theorem keeps_mapIntoTable (hv : MutablePage v)
    (hlinked : memory layout.earlyPageDirectory (stage7aPagingPdIndex v) &&& flagPresent ≠ 0) :
    Keeps layout memory ∅ (mapIntoTableActions memory
      (layout.reservedTable (stage7aPagingPdIndex v - 1)) v p).2 := by
  obtain ⟨hlower, hupper⟩ := hv.pdIndex
  simp only [mapIntoTableActions]
  split
  · exact .done
  · next hfree =>
    refine .write ∅ (fun cache h => ?_) (keeps_invlpg (Set.empty_subset _) .done)
    apply h.writeTable hlower hupper subset_rfl
    · intro w _ hw hindex
      apply walk_empty h.links hlower hupper hw
      rw [hindex]
      exact not_not.mp hfree
    · exact fun _ => hlinked

theorem slot_of_lookup {slot : UInt32 × UInt32}
    (haligned : ¬ (!stage8bVmmIsPageAligned v) = true)
    (hslot : stage8bVmmGetReservedMappingSlot v = some slot) :
    MutablePage v ∧ slot = (stage7aPagingPdIndex v, stage7aPagingPdIndex v - 1) := by
  rw [getReservedMappingSlot_eq] at hslot
  split at hslot
  · next hwin =>
    have haligned' : stage8bVmmIsPageAligned v = true := by simpa using haligned
    exact ⟨⟨isPageAligned_iff.mp haligned', hwin.1, hwin.2⟩, (Option.some.inj hslot).symm⟩
  · cases hslot

/-- Mapping leaves nothing stale at any point. -/
theorem keeps_mapPage (layout : TableLayout) (memory : PageMemory) (v p : UInt32) :
    Keeps layout memory ∅ (mapPageActions layout memory v p).2 := by
  simp only [mapPageActions]
  split_ifs with haligned hframe
  · exact .done
  · exact .done
  cases hslot : stage8bVmmGetReservedMappingSlot v with
  | none => exact .done
  | some slot =>
    obtain ⟨hv, rfl⟩ := slot_of_lookup haligned hslot
    obtain ⟨hlower, hupper⟩ := hv.pdIndex
    simp only
    by_cases habsent : memory layout.earlyPageDirectory (stage7aPagingPdIndex v) &&& flagPresent =
        0
    · rw [if_pos habsent, List.append_assoc]
      apply keeps_clearActions hlower hupper habsent
      refine .write ∅ (fun cache h => ?_) ?_
      · apply h.writeDirectory hlower hupper
        · exact fun _ => .reserved hlower hupper
        · intro k hk
          rw [stage8bVmmClearPageTable, clearTable_apply, if_pos ⟨rfl, hk⟩]
          exact UInt32.zero_and
      · rw [applyActions_append, applyActions_clear, applyActions_write]
        apply keeps_mapIntoTable hv
        rw [write_same]
        exact makeEntry_present _
    · rw [if_neg habsent]
      split
      · exact .done
      · exact keeps_mapIntoTable hv habsent

/-- Unmapping leaves its page stale until the invalidation, and nothing after it. -/
theorem keeps_unmapPage (layout : TableLayout) (memory : PageMemory) (v : UInt32) :
    Keeps layout memory ∅ (unmapPageActions layout memory v).2 := by
  simp only [unmapPageActions]
  split_ifs with haligned
  · exact .done
  cases hslot : stage8bVmmGetReservedMappingSlot v with
  | none => exact .done
  | some slot =>
    obtain ⟨hv, rfl⟩ := slot_of_lookup haligned hslot
    obtain ⟨hlower, hupper⟩ := hv.pdIndex
    have hclear : ∀ cache, Coherent layout memory cache ∅ →
        Coherent layout (memory.write (layout.reservedTable (stage7aPagingPdIndex v - 1))
          (stage7aPagingPtIndex v) 0) cache {pageOf v} := by
      intro cache h
      apply h.writeTable hlower hupper (Set.empty_subset _)
      · intro w hw hdirectory hindex
        rw [pdIndex_eq] at hdirectory
        have hwv := page_inj w.aligned hv.aligned hdirectory hindex
        refine absurd ?_ hw
        obtain ⟨w, hw⟩ := w
        obtain rfl : w = v := hwv
        simp only [pageOf, frameAddr_of_aligned hv.aligned, Set.mem_singleton_iff]
      · intro hzero
        exact absurd UInt32.zero_and hzero
    simp only
    split
    · exact .done
    split
    · exact .done
    split
    · exact .done
    split
    · next hempty =>
      refine .write _ hclear (keeps_invlpg subset_rfl (.write ∅ (fun cache h => ?_) .done))
      apply h.writeDirectory hlower hupper
      · intro hzero
        exact absurd UInt32.zero_and hzero
      · exact tableIsEmpty_iff.mp hempty
    · exact .write _ hclear (keeps_invlpg subset_rfl .done)

/-! ## Runs -/

/-- Between calls the run of plain calls has come this far; during one, its actions lead on. -/
def Ongoing (layout : TableLayout) (start : PageMemory) (calls : List MapperCall)
    (memory : PageMemory) (stale : Set Page) : Option (MapperCall × List Action) → Prop
  | none => stale = ∅ ∧ MapperRun layout start calls memory
  | some (call, actions) => Keeps layout memory stale actions ∧
    ∃ before, MapperRun layout start calls before ∧
      MapperStep layout before call (applyActions memory actions)

structure CacheInv (layout : TableLayout) (start : PageMemory) (events : List (Option MapperCall))
    (s : MapperSystem) (stale : Set Page) : Prop where
  coherent : Coherent layout s.memory s.cache stale
  ongoing : Ongoing layout start (returned events) s.memory stale s.pending

variable {start : PageMemory} {events : List (Option MapperCall)} {s t : MapperSystem}

theorem returned_none (events : List (Option MapperCall)) :
    returned (events ++ [none]) = returned events := by simp [returned]

theorem returned_some (events : List (Option MapperCall)) (call : MapperCall) :
    returned (events ++ [some call]) = returned events ++ [call] := by simp [returned]

theorem CacheInv.step {label : Option MapperCall} (h : CacheInv layout start events s stale)
    (hs : CachedStep layout s label t) :
    ∃ stale', CacheInv layout start (events ++ [label]) t stale' := by
  obtain ⟨hcoherent, hongoing⟩ := h
  cases hs with
  | map v p idle =>
    simp only [idle, Ongoing] at hongoing
    obtain ⟨rfl, hrun⟩ := hongoing
    obtain ⟨hresult, hmemory⟩ := mapPageActions_adds_up layout s.memory v p
    refine ⟨∅, hcoherent, ?_⟩
    rw [returned_none]
    refine ⟨keeps_mapPage layout s.memory v p, s.memory, hrun, ?_⟩
    simp only [hresult, hmemory]
    exact .map s.memory v p
  | unmap v idle =>
    simp only [idle, Ongoing] at hongoing
    obtain ⟨rfl, hrun⟩ := hongoing
    obtain ⟨hresult, hmemory⟩ := unmapPageActions_adds_up layout s.memory v
    refine ⟨∅, hcoherent, ?_⟩
    rw [returned_none]
    refine ⟨keeps_unmapPage layout s.memory v, s.memory, hrun, ?_⟩
    simp only [hresult, hmemory]
    exact .unmap s.memory v
  | act pending =>
    simp only [pending, Ongoing] at hongoing
    obtain ⟨hkeeps, before, hrun, hcall⟩ := hongoing
    cases hkeeps with
    | write stale' hkeep hrest =>
      refine ⟨stale', hkeep _ hcoherent, ?_⟩
      rw [returned_none]
      exact ⟨hrest, before, hrun, hcall⟩
    | invlpg hrest =>
      refine ⟨_, hcoherent.invlpg _, ?_⟩
      rw [returned_none]
      exact ⟨hrest, before, hrun, hcall⟩
  | done pending =>
    simp only [pending, Ongoing] at hongoing
    obtain ⟨hkeeps, before, hrun, hcall⟩ := hongoing
    cases hkeeps
    refine ⟨∅, hcoherent, ?_⟩
    rw [returned_some]
    exact ⟨rfl, hrun.step hcall⟩
  | fill hfill =>
    refine ⟨stale, hcoherent.fill hfill, ?_⟩
    rw [returned_none]
    exact hongoing

theorem links_of_refines {pages : PageMap} (h : Refines layout memory pages) :
    Links layout memory := by
  intro d hd hpresent
  by_cases hzero : d.toNat = 0
  · obtain rfl : d = 0 := UInt32.toNat_inj.mp hzero
    rw [h.identity_entry]
    exact .identity
  by_cases hhigh : 4 ≤ d.toNat
  · rw [h.beyond d hhigh hd] at hpresent
    exact absurd UInt32.zero_and hpresent
  · cases h.slot d (by omega) (by omega) with
    | unlinked entry free =>
      rw [entry] at hpresent
      exact absurd UInt32.zero_and hpresent
    | linked entry table used =>
      rw [entry]
      exact .reserved (by omega) (by omega)

/-- A cache that holds what the tables give is coherent. -/
theorem coherent_start (hlinks : Links layout memory)
    (hpages : ∀ v f, (v, f) ∈ cache.pages → (tablesOf layout memory).walk v = some f)
    (hentries : ∀ d e, (d, e) ∈ cache.entries → (tablesOf layout memory).directory d = some e) :
    Coherent layout memory cache ∅ := by
  refine ⟨hlinks, fun v e hcached => ?_, fun v f hpage _ => hpages v f hpage,
    fun v e f hcached => walk_of_directory (hentries _ e hcached)⟩
  have hentry := hentries _ e hcached
  simp only [tablesOf] at hentry
  split at hentry
  · cases hentry
  · next hpresent =>
    obtain rfl := Option.some.inj hentry
    exact hlinks _ (index_lt v) hpresent

/-! ## Reading through the cache -/

/-- The walk of the processor, page by page. -/
theorem hardwareWalk_eq (layout : TableLayout) (memory : PageMemory) (addr : UInt32) :
    hardwareWalk memory layout.earlyPageDirectory addr =
      ((tablesOf layout memory).walk (pageOf addr)).map (· + stage7aPagingPageOffset addr) := by
  have hdirectory : (pageOf addr).addr >>> 22 = addr >>> 22 := by
    rw [pdIndex_eq, pdIndex_eq]
    exact pdIndex_frameAddr addr
  have hindex : tableIndex (pageOf addr) = (addr >>> 12) &&& 0x3FF := ptIndex_frameAddr addr
  simp only [hardwareWalk, Tables.walk, tablesOf, hdirectory, hindex]
  by_cases habsent : memory layout.earlyPageDirectory (addr >>> 22) &&& flagPresent = 0
  · simp only [if_pos habsent, Option.bind_none, Option.map_none]
  · simp only [if_neg habsent, Option.bind_some, decode]
    split
    · rfl
    · rfl

/-- The call is an accepted one on page `v`. -/
def Changes (v : UInt32) : MapperCall → Prop
  | .map w _ accepted => w = v ∧ accepted = true
  | .unmap w accepted => w = v ∧ accepted = true

theorem apply_unchanged {pages : PageMap} {call : MapperCall} (h : ¬ Changes v call) :
    pages.apply call v = pages v := by
  cases call with
  | map w p accepted =>
    cases accepted with
    | false => rfl
    | true =>
      have hne : v ≠ w := fun heq => h ⟨heq.symm, rfl⟩
      exact PageMap.set_ne pages _ hne
  | unmap w accepted =>
    cases accepted with
    | false => rfl
    | true =>
      have hne : v ≠ w := fun heq => h ⟨heq.symm, rfl⟩
      exact PageMap.set_ne pages _ hne

/-- A page stays as the last accepted call on it left it. -/
theorem mappedAfter_unchanged (before after : List MapperCall)
    (h : ∀ call ∈ after, ¬ Changes v call) :
    mappedAfter (before ++ after) v = mappedAfter before v := by
  induction after using List.reverseRecOn with
  | nil => simp
  | append_singleton after call ih =>
    rw [← List.append_assoc, mappedAfter_append, apply_unchanged (h call (by simp))]
    exact ih fun other hother => h other (by simp [hother])

/-- A call that is under way can always be brought to its return. -/
theorem call_returns (layout : TableLayout) (actions : List Action) (memory : PageMemory)
    (cache : TranslationBuffer) (call : MapperCall) :
    ∃ events cache', Transition.Execution (CachedStep layout) ⟨memory, cache, some (call, actions)⟩
      events ⟨applyActions memory actions, cache', none⟩ ∧ returned events = [call] := by
  induction actions generalizing memory cache with
  | nil => exact ⟨[some call], cache, .single (.done _ rfl), rfl⟩
  | cons action rest ih =>
    obtain ⟨events, cache', hrest, hreturned⟩ := ih (action.onMemory memory) (action.onCache cache)
    have hact : CachedStep layout ⟨memory, cache, some (call, action :: rest)⟩ none _ :=
      .act _ rfl
    refine ⟨none :: events, cache', (Transition.Execution.single hact).append hrest, ?_⟩
    simpa [returned] using hreturned

/-- A page an accepted call was on lies in the reserved windows. -/
theorem mutablePage_of_changes {before after : List MapperCall} {call : MapperCall}
    (hrun : MapperRun layout start (before ++ call :: after) memory) (h : Changes v call) :
    MutablePage v := by
  have hsplit : MapperRun layout start (before ++ [call] ++ after) memory := by
    simpa using hrun
  obtain ⟨mid, hmid, _⟩ := hsplit.split
  obtain ⟨last, hlast, hcall⟩ := hmid.last
  have hrefines := refines_of_run hlast
  cases hcall with
  | map w p =>
    obtain ⟨rfl, haccepted⟩ := h
    exact ((hrefines.mapPage w p).1.mp haccepted).1
  | unmap w =>
    obtain ⟨rfl, haccepted⟩ := h
    exact ((hrefines.unmapPage w).1.mp haccepted).1

/-- For a page of the windows the tables give what the calls have left. -/
theorem walk_mapped (hrun : MapperRun layout start (returned events) memory) {addr : UInt32}
    (hpage : MutablePage (stage7aPagingFrameAddr addr)) :
    (tablesOf layout memory).walk (pageOf addr) =
      mappedAfter (returned events) (stage7aPagingFrameAddr addr) := by
  have hframe := frameAddr_toNat addr
  have hlower := hpage.lower
  have hhigh : ¬ addr.toNat < 0x400000 := by omega
  have hwalk := (refines_of_run hrun).hardwareWalk addr
  rw [hardwareWalk_eq, if_neg hhigh] at hwalk
  have hinj : Function.Injective (· + stage7aPagingPageOffset addr) := fun a b hab => by
    simpa using hab
  exact Option.map_injective hinj hwalk

theorem no_stale_translation (layout : TableLayout) (start : PageMemory)
    (cache : TranslationBuffer)
    (hpages : ∀ v f, (v, f) ∈ cache.pages →
      (tablesOf layout (stage7bSetupEarlyIdentityPaging layout start)).walk v = some f)
    (hentries : ∀ d e, (d, e) ∈ cache.entries →
      (tablesOf layout (stage7bSetupEarlyIdentityPaging layout start)).directory d = some e)
    (events : List (Option MapperCall)) (s : MapperSystem)
    (run : CachedRun layout start cache events s) (idle : s.pending = none) :
    MapperRun layout start (returned events) s.memory ∧
    (∀ v f, (v, f) ∈ s.cache.pages → (tablesOf layout s.memory).walk v = some f) ∧
    (∀ addr f, Translates (tablesOf layout s.memory) s.cache (pageOf addr) f →
      hardwareWalk s.memory layout.earlyPageDirectory addr =
        some (f + stage7aPagingPageOffset addr)) ∧
    (∀ before after v, returned events = before ++ .unmap v true :: after →
      (∀ call ∈ after, ¬ Changes v call) → ∀ addr, stage7aPagingFrameAddr addr = v →
      ∀ f, ¬ Translates (tablesOf layout s.memory) s.cache (pageOf addr) f) ∧
    ∀ before after v p, returned events = before ++ .map v p true :: after →
      (∀ call ∈ after, ¬ Changes v call) → ∀ addr, stage7aPagingFrameAddr addr = v →
      ∀ f, Translates (tablesOf layout s.memory) s.cache (pageOf addr) f ↔ f = p := by
  obtain ⟨stale, hinv⟩ : ∃ stale, CacheInv layout start events s stale :=
    run.invariant (I := fun events s => ∃ stale, CacheInv layout start events s stale)
      ⟨∅, coherent_start (links_of_refines (setup_refines layout start)) hpages hentries,
        rfl, .start⟩
      fun _ _ _ _ h hs => h.elim fun _ h => h.step hs
  have hongoing := hinv.ongoing
  simp only [idle, Ongoing] at hongoing
  obtain ⟨rfl, hrun⟩ := hongoing
  have hsound := hinv.coherent.sound
  have hrefines := refines_of_run hrun
  have hread : ∀ addr f, Translates (tablesOf layout s.memory) s.cache (pageOf addr) f ↔
      (tablesOf layout s.memory).walk (pageOf addr) = some f := fun _ _ => hsound.translates_iff
  refine ⟨hrun, fun v f hpage => hsound.pages v f hpage (Set.notMem_empty v), ?_, ?_, ?_⟩
  · intro addr f htranslates
    rw [hardwareWalk_eq, (hread addr f).mp htranslates, Option.map_some]
  · rintro before after v hcalls hafter addr rfl f htranslates
    have hchanges : Changes (stage7aPagingFrameAddr addr)
        (.unmap (stage7aPagingFrameAddr addr) true) := ⟨rfl, rfl⟩
    have hpage := mutablePage_of_changes (hcalls ▸ hrun) hchanges
    have hnone : mappedAfter (returned events) (stage7aPagingFrameAddr addr) = none := by
      rw [hcalls, List.append_cons, mappedAfter_unchanged _ _ hafter, mappedAfter_append]
      exact PageMap.set_same _ _ _
    have hwalk := (hread addr f).mp htranslates
    simp [walk_mapped hrun hpage, hnone] at hwalk
  · rintro before after v p hcalls hafter addr rfl f
    have hchanges : Changes (stage7aPagingFrameAddr addr)
        (.map (stage7aPagingFrameAddr addr) p true) := ⟨rfl, rfl⟩
    have hpage := mutablePage_of_changes (hcalls ▸ hrun) hchanges
    have hsome : mappedAfter (returned events) (stage7aPagingFrameAddr addr) = some p := by
      rw [hcalls, List.append_cons, mappedAfter_unchanged _ _ hafter, mappedAfter_append]
      exact PageMap.set_same _ _ _
    rw [hread, walk_mapped hrun hpage, hsome, Option.some.injEq, eq_comm]

/-- The first page of the heap window, mapped with fills on the way. -/
theorem no_stale_translation_firstPage : ∃ s : MapperSystem,
    ∀ f, Translates (tablesOf rowLayout s.memory) s.cache (pageOf 0x400123) f ↔ f = 0x200000 := by
  have haccepted : (mapPageActions rowLayout
      (stage7bSetupEarlyIdentityPaging rowLayout fun _ _ => 0) 0x400000 0x200000).1 = true := by
    rw [(mapPageActions_adds_up rowLayout _ _ _).1]
    exact ((setup_refines rowLayout fun _ _ => 0).mapPage _ _).1.mpr
      ⟨by decide, by decide, rfl⟩
  have hstart : CachedStep rowLayout ⟨_, ⟨∅, ∅⟩, none⟩ none _ :=
    .map ⟨stage7bSetupEarlyIdentityPaging rowLayout fun _ _ => 0, ⟨∅, ∅⟩, none⟩ 0x400000 0x200000
      rfl
  obtain ⟨events, cache, hrest, hreturned⟩ := call_returns rowLayout
    (mapPageActions rowLayout (stage7bSetupEarlyIdentityPaging rowLayout fun _ _ => 0) 0x400000
      0x200000).2 _ ⟨∅, ∅⟩ (.map 0x400000 0x200000 true)
  rw [haccepted] at hstart
  have hcalls : returned ([none] ++ events) = [] ++ .map 0x400000 0x200000 true :: [] := by
    simpa [returned] using hreturned
  exact ⟨_, (no_stale_translation rowLayout (fun _ _ => 0) ⟨∅, ∅⟩ (by simp) (by simp) _ _
    ((Transition.Execution.single hstart).append hrest) rfl).2.2.2.2 [] [] 0x400000 0x200000
    hcalls (by simp) 0x400123 (by decide)⟩

end CachedTranslations
