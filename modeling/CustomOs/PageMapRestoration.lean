import CustomOs.CachedTranslations

/-! # Undoing and reordering page mappings
The partial map of `Refines` leaves the words of an unlinked table open. When the static tables
start out zero they never are: `Canonical` says which word every managed entry holds, so the map
and the words nobody touches determine the memory. What holds of partial maps (removing a page
undoes adding it, changes of different pages commute) then holds of the concrete tables. -/
namespace PageMapRestoration

open Paging PageMapper PageMapRefinement CachedTranslations

variable {layout : TableLayout} {base memory memory' : PageMemory} {pages pages' : PageMap}
  {v w p i t j : UInt32} {call : MapperCall}

/-- The words the mapper may write: three directory entries and the reserved tables. -/
def Managed (layout : TableLayout) (t j : UInt32) : Prop :=
  (t = layout.earlyPageDirectory ∧ 1 ≤ j.toNat ∧ j.toNat < 4) ∨
    ∃ slot : UInt32, slot.toNat < 3 ∧ t = layout.reservedTable slot ∧ j.toNat < 1024

structure Canonical (layout : TableLayout) (base memory : PageMemory) (pages : PageMap) :
    Prop where
  refines : Refines layout memory pages
  tables : ∀ v, MutablePage v →
    memory (layout.reservedTable (stage7aPagingPdIndex v - 1)) (stage7aPagingPtIndex v) =
      encode (pages v)
  elsewhere : ∀ t j, ¬ Managed layout t j → memory t j = base t j

/-! ## The map determines the memory -/

theorem Canonical.table_word (h : Canonical layout base memory pages) (h₁ : 1 ≤ i.toNat)
    (h₂ : i.toNat < 4) (hj : j.toNat < 1024) :
    ∃ v, MutablePage v ∧ stage7aPagingPdIndex v = i ∧
      memory (layout.reservedTable (i - 1)) j = encode (pages v) := by
  obtain ⟨v, hv, rfl, rfl⟩ := page_of_index h₁ h₂ hj
  exact ⟨v, hv, rfl, h.tables v hv⟩

theorem slot_of_table {slot : UInt32} (h : slot.toNat < 3) :
    ∃ i : UInt32, 1 ≤ i.toNat ∧ i.toNat < 4 ∧ slot = i - 1 := by
  have hsucc : (slot + 1).toNat = slot.toNat + 1 :=
    MachineWord.toNat_add32 (by rw [UInt32.toNat_one]; omega)
  refine ⟨slot + 1, by omega, by omega, ?_⟩
  apply UInt32.toNat_inj.mp
  rw [slot_toNat (by omega), hsucc]
  omega

theorem slot_entry_eq (h : SlotRefines layout memory pages i)
    (h' : SlotRefines layout memory' pages i) :
    memory layout.earlyPageDirectory i = memory' layout.earlyPageDirectory i := by
  cases h with
  | unlinked entry free =>
    cases h' with
    | unlinked entry' _ => rw [entry, entry']
    | linked _ _ used =>
      obtain ⟨v, hv, hmapped⟩ := used
      exact absurd (free v hv) hmapped
  | linked entry _ used =>
    cases h' with
    | unlinked _ free =>
      obtain ⟨v, hv, hmapped⟩ := used
      exact absurd (free v hv) hmapped
    | linked entry' _ _ => rw [entry, entry']

theorem Canonical.unique (h : Canonical layout base memory pages)
    (h' : Canonical layout base memory' pages) : memory = memory' := by
  funext t j
  by_cases hmanaged : Managed layout t j
  · rcases hmanaged with ⟨rfl, h₁, h₂⟩ | ⟨slot, hslot, rfl, hj⟩
    · exact slot_entry_eq (h.refines.slot j h₁ h₂) (h'.refines.slot j h₁ h₂)
    · obtain ⟨i, h₁, h₂, rfl⟩ := slot_of_table hslot
      obtain ⟨v, hv, rfl, rfl⟩ := page_of_index h₁ h₂ hj
      rw [h.tables v hv, h'.tables v hv]
  · rw [h.elsewhere t j hmanaged, h'.elsewhere t j hmanaged]

/-! ## What the calls leave alone -/

theorem write_elsewhere {entry : UInt32} (hi : Managed layout t i) {t' j : UInt32}
    (h : ¬ Managed layout t' j) : memory.write t i entry t' j = memory t' j := by
  rw [PageMemory.write, if_neg]
  intro heq
  obtain ⟨rfl, rfl⟩ := heq
  exact h hi

theorem clearPageTable_elsewhere {slot : UInt32} (hslot : slot.toNat < 3)
    (h : ¬ Managed layout t j) :
    stage8bVmmClearPageTable memory (layout.reservedTable slot) t j = memory t j := by
  rw [stage8bVmmClearPageTable, clearTable_apply, if_neg]
  intro heq
  exact h (Or.inr ⟨slot, hslot, heq.1, heq.2⟩)

theorem managed_directory (hv : MutablePage v) :
    Managed layout layout.earlyPageDirectory (stage7aPagingPdIndex v) :=
  Or.inl ⟨rfl, hv.pdIndex⟩

theorem managed_table (hv : MutablePage v) :
    Managed layout (layout.reservedTable (stage7aPagingPdIndex v - 1))
      (stage7aPagingPtIndex v) :=
  Or.inr ⟨_, slot_lt hv.pdIndex.1 hv.pdIndex.2, rfl, ptIndex_lt v⟩

theorem mapIntoTable_elsewhere (hv : MutablePage v) (h : ¬ Managed layout t j) :
    (mapIntoTable memory (layout.reservedTable (stage7aPagingPdIndex v - 1)) v p).2 t j =
      memory t j := by
  rw [mapIntoTable]
  split_ifs
  · rfl
  · exact write_elsewhere (managed_table hv) h

theorem mapPage_elsewhere (hv : MutablePage v) (h : ¬ Managed layout t j) :
    (stage8bVmmMapPage layout memory v p).2 t j = memory t j := by
  simp only [stage8bVmmMapPage, getSlot hv]
  split_ifs
  · rfl
  · rfl
  · rw [mapIntoTable_elsewhere hv h, write_elsewhere (managed_directory hv) h,
      clearPageTable_elsewhere (slot_lt hv.pdIndex.1 hv.pdIndex.2) h]
  · rfl
  · exact mapIntoTable_elsewhere hv h

theorem unmapPage_elsewhere (hv : MutablePage v) (h : ¬ Managed layout t j) :
    (stage8bVmmUnmapPage layout memory v).2 t j = memory t j := by
  simp only [stage8bVmmUnmapPage, getSlot hv]
  split_ifs
  · rfl
  · rfl
  · rfl
  · rfl
  · dsimp only
    rw [write_elsewhere (managed_directory hv) h, write_elsewhere (managed_table hv) h]
  · exact write_elsewhere (managed_table hv) h

/-- An accepted unmapping writes one table word; what else it writes is in the directory. -/
theorem unmapPage_table (hv : MutablePage v)
    (haccept : (stage8bVmmUnmapPage layout memory v).1 = true)
    (ht : t ≠ layout.earlyPageDirectory) :
    (stage8bVmmUnmapPage layout memory v).2 t j =
      memory.write (layout.reservedTable (stage7aPagingPdIndex v - 1))
        (stage7aPagingPtIndex v) 0 t j := by
  simp only [stage8bVmmUnmapPage, getSlot hv] at haccept ⊢
  split_ifs at haccept ⊢
  · exact write_table_ne _ _ _ _ ht
  · rfl

theorem reservedTable_other (hv : MutablePage v) (hw : MutablePage w)
    (h : stage7aPagingPdIndex w ≠ stage7aPagingPdIndex v) :
    layout.reservedTable (stage7aPagingPdIndex w - 1) ≠
      layout.reservedTable (stage7aPagingPdIndex v - 1) := by
  obtain ⟨hv₁, hv₂⟩ := hv.pdIndex
  obtain ⟨hw₁, hw₂⟩ := hw.pdIndex
  intro heq
  have hslot := congrArg UInt32.toNat
    (reservedTable_inj layout (slot_lt hw₁ hw₂) (slot_lt hv₁ hv₂) heq)
  rw [slot_toNat hw₁, slot_toNat hv₁] at hslot
  exact h (UInt32.toNat_inj.mp (by omega))

/-! ## The calls keep the words determined -/

theorem Canonical.map (h : Canonical layout base memory pages)
    (haccept : (stage8bVmmMapPage layout memory v p).1 = true) :
    Canonical layout base (stage8bVmmMapPage layout memory v p).2 (pages.set v (some p)) := by
  obtain ⟨hiff, _, hrefines⟩ := h.refines.mapPage v p
  obtain ⟨hv, hp, hfree⟩ := hiff.mp haccept
  refine ⟨hrefines haccept, ?_, ?_⟩
  · obtain ⟨linked, heq, _, _, htable, _, hframe⟩ := mapPage_eq h.refines hv hp
    have habsent : ¬ linked (layout.reservedTable (stage7aPagingPdIndex v - 1))
        (stage7aPagingPtIndex v) &&& flagPresent ≠ 0 := by
      rw [htable v hv rfl]
      exact not_not.mpr (encode_present.mpr hfree)
    rw [heq, mapIntoTable, if_neg habsent]
    dsimp only
    intro w hw
    by_cases hslot : stage7aPagingPdIndex w = stage7aPagingPdIndex v
    · rw [hslot]
      exact table_set hv.aligned htable (some p) w hw hslot
    · have hother : layout.reservedTable (stage7aPagingPdIndex w - 1) ≠
          layout.reservedTable (stage7aPagingPdIndex v - 1) := reservedTable_other hv hw hslot
      have hdir := reservedTable_ne_directory layout (slot_lt hw.pdIndex.1 hw.pdIndex.2)
      rw [write_table_ne _ _ _ _ hother, hframe _ _ hdir hother, h.tables w hw,
        pages.set_other_slot _ hslot]
  · intro t j hmanaged
    rw [mapPage_elsewhere hv hmanaged]
    exact h.elsewhere t j hmanaged

theorem Canonical.unmap (h : Canonical layout base memory pages)
    (haccept : (stage8bVmmUnmapPage layout memory v).1 = true) :
    Canonical layout base (stage8bVmmUnmapPage layout memory v).2 (pages.set v none) := by
  obtain ⟨hiff, _, hrefines⟩ := h.refines.unmapPage v
  obtain ⟨hv, _⟩ := hiff.mp haccept
  refine ⟨hrefines haccept, ?_, ?_⟩
  · intro w hw
    rw [unmapPage_table hv haccept
      (reservedTable_ne_directory layout (slot_lt hw.pdIndex.1 hw.pdIndex.2))]
    by_cases hslot : stage7aPagingPdIndex w = stage7aPagingPdIndex v
    · have htable : ∀ u, MutablePage u → stage7aPagingPdIndex u = stage7aPagingPdIndex v →
          memory (layout.reservedTable (stage7aPagingPdIndex v - 1)) (stage7aPagingPtIndex u) =
            encode (pages u) := by
        intro u hu hd
        rw [← hd]
        exact h.tables u hu
      rw [hslot]
      exact table_set hv.aligned htable none w hw hslot
    · rw [write_table_ne _ _ _ _ (reservedTable_other hv hw hslot), h.tables w hw,
        pages.set_other_slot _ hslot]
  · intro t j hmanaged
    rw [unmapPage_elsewhere hv hmanaged]
    exact h.elsewhere t j hmanaged

theorem Canonical.step (h : Canonical layout base memory pages)
    (hs : MapperStep layout memory call memory') :
    Canonical layout base memory' (pages.apply call) := by
  cases hs with
  | map v p =>
    obtain ⟨_, hfail, _⟩ := h.refines.mapPage v p
    cases hverdict : (stage8bVmmMapPage layout memory v p).1 with
    | false => rw [hfail hverdict]; exact h
    | true => exact h.map hverdict
  | unmap v =>
    obtain ⟨_, hfail, _⟩ := h.refines.unmapPage v
    cases hverdict : (stage8bVmmUnmapPage layout memory v).1 with
    | false => rw [hfail hverdict]; exact h
    | true => exact h.unmap hverdict

/-- The boot code clears the directory and fills the identity table, nothing else. -/
theorem setup_elsewhere {start : PageMemory} (hdir : t ≠ layout.earlyPageDirectory)
    (hident : t ≠ layout.earlyIdentityPageTable) :
    stage7bSetupEarlyIdentityPaging layout start t j = start t j := by
  simp only [stage7bSetupEarlyIdentityPaging, entriesPerTable]
  rw [write_table_ne _ _ _ _ hdir, fillTable (fun i =>
    stage7aPagingMakeEntry (i <<< pageShift) (flagPresent ||| flagWritable)) _ _ 1024 le_rfl,
    if_neg fun hc => hident hc.1, stage7bClearPageTable, clearTable_apply,
    if_neg fun hc => hident hc.1, stage7bClearPageDirectory, clearTable_apply,
    if_neg fun hc => hdir hc.1]

theorem setup_canonical {start : PageMemory} (hzero : ∀ slot j : UInt32, slot.toNat < 3 →
      j.toNat < 1024 → start (layout.reservedTable slot) j = 0) :
    Canonical layout (stage7bSetupEarlyIdentityPaging layout start)
      (stage7bSetupEarlyIdentityPaging layout start) fun _ => none := by
  refine ⟨setup_refines layout start, fun v hv => ?_, fun _ _ _ => rfl⟩
  have hslot := slot_lt hv.pdIndex.1 hv.pdIndex.2
  rw [setup_elsewhere (reservedTable_ne_directory layout hslot)
    (reservedTable_ne_identity layout hslot), hzero _ _ hslot (ptIndex_lt v), encode]

theorem canonical_of_run {start : PageMemory} {calls : List MapperCall}
    (hzero : ∀ slot j : UInt32, slot.toNat < 3 → j.toNat < 1024 →
      start (layout.reservedTable slot) j = 0)
    (hrun : MapperRun layout start calls memory) :
    Canonical layout (stage7bSetupEarlyIdentityPaging layout start) memory
      (mappedAfter calls) :=
  hrun.invariant (I := fun calls memory =>
      Canonical layout (stage7bSetupEarlyIdentityPaging layout start) memory (mappedAfter calls))
    (setup_canonical hzero) fun calls s e t h hs => by
      rw [mappedAfter_append]
      exact h.step hs

/-! ## Directory entries and their tables -/

theorem Canonical.entry_present (h : Canonical layout base memory pages) (h₁ : 1 ≤ i.toNat)
    (h₂ : i.toNat < 4) :
    memory layout.earlyPageDirectory i &&& flagPresent ≠ 0 ↔
      ∃ j : UInt32, j.toNat < 1024 ∧
        memory (layout.reservedTable (i - 1)) j &&& flagPresent ≠ 0 := by
  cases h.refines.slot i h₁ h₂ with
  | unlinked entry free =>
    rw [entry]
    refine ⟨fun hpresent => absurd UInt32.zero_and hpresent, ?_⟩
    intro hused
    obtain ⟨j, hj, hword⟩ := hused
    obtain ⟨v, _, hd, htable⟩ := h.table_word h₁ h₂ hj
    rw [htable, free v hd] at hword
    exact absurd (encode_present.mpr rfl) hword
  | linked entry _ used =>
    refine ⟨fun _ => ?_, fun _ => by rw [entry]; exact makeEntry_present _⟩
    obtain ⟨v, rfl, hmapped⟩ := used
    obtain ⟨p, hp⟩ := Option.ne_none_iff_exists'.mp hmapped
    refine ⟨stage7aPagingPtIndex v, ptIndex_lt v, ?_⟩
    rw [h.tables v (h.refines.domain v p hp).1]
    exact fun hc => hmapped (encode_present.mp hc)

theorem Canonical.entry_absent (h : Canonical layout base memory pages) (h₁ : 1 ≤ i.toNat)
    (h₂ : i.toNat < 4) (habsent : memory layout.earlyPageDirectory i &&& flagPresent = 0) :
    memory layout.earlyPageDirectory i = 0 := by
  cases h.refines.slot i h₁ h₂ with
  | unlinked entry _ => exact entry
  | linked entry _ _ =>
    rw [entry] at habsent
    exact absurd habsent (makeEntry_present _)

theorem Canonical.word_absent (h : Canonical layout base memory pages) (h₁ : 1 ≤ i.toNat)
    (h₂ : i.toNat < 4) (hj : j.toNat < 1024)
    (habsent : memory (layout.reservedTable (i - 1)) j &&& flagPresent = 0) :
    memory (layout.reservedTable (i - 1)) j = 0 := by
  obtain ⟨v, _, _, hword⟩ := h.table_word h₁ h₂ hj
  rw [hword] at habsent ⊢
  rw [encode_present.mp habsent, encode]

/-! ## Restoration -/

theorem set_restore (hfree : pages v = none) (frame : Option UInt32) :
    (pages.set v frame).set v none = pages := by
  funext w
  by_cases hw : w = v
  · rw [hw, PageMap.set_same, hfree]
  · rw [PageMap.set_ne _ _ hw, PageMap.set_ne _ _ hw]

/-- Unmapping a page right after it was mapped gives the memory back as it was. -/
theorem Canonical.unmap_map (h : Canonical layout base memory pages)
    (haccept : (stage8bVmmMapPage layout memory v p).1 = true) :
    stage8bVmmUnmapPage layout (stage8bVmmMapPage layout memory v p).2 v = (true, memory) := by
  obtain ⟨hv, _, hfree⟩ := (h.refines.mapPage v p).1.mp haccept
  have hmapped := h.map haccept
  have hunmap : (stage8bVmmUnmapPage layout (stage8bVmmMapPage layout memory v p).2 v).1 =
      true := by
    apply (hmapped.refines.unmapPage v).1.mpr
    refine ⟨hv, ?_⟩
    rw [PageMap.set_same]
    exact Option.some_ne_none p
  have hrestored := hmapped.unmap hunmap
  rw [set_restore hfree] at hrestored
  exact Prod.ext hunmap (hrestored.unique h)

/-! ## Reordering -/

/-- The call is one the map accepts. -/
def Allowed (pages : PageMap) : MapperCall → Prop
  | .map v p _ => MutablePage v ∧ p.toNat % 4096 = 0 ∧ pages v = none
  | .unmap v _ => MutablePage v ∧ pages v ≠ none

/-- A call looks at its own page of the map only. -/
theorem Allowed.of_eq (h : Allowed pages call) (hchanges : Changes v call)
    (hsame : pages' v = pages v) : Allowed pages' call := by
  cases call with
  | map w p accepted =>
    obtain ⟨rfl, _⟩ := hchanges
    obtain ⟨hw, hp, hfree⟩ := h
    exact ⟨hw, hp, hsame.trans hfree⟩
  | unmap w accepted =>
    obtain ⟨rfl, _⟩ := hchanges
    obtain ⟨hw, hmapped⟩ := h
    refine ⟨hw, ?_⟩
    rw [hsame]
    exact hmapped

theorem Canonical.allowed (h : Canonical layout base memory pages) (hchanges : Changes v call)
    (hs : MapperStep layout memory call memory') : Allowed pages call := by
  cases hs with
  | map w p => exact (h.refines.mapPage w p).1.mp hchanges.2
  | unmap w => exact (h.refines.unmapPage w).1.mp hchanges.2

/-- A call the map accepts can be made. -/
theorem Canonical.perform (h : Canonical layout base memory pages) (hchanges : Changes v call)
    (hallowed : Allowed pages call) :
    ∃ memory', MapperStep layout memory call memory' ∧
      Canonical layout base memory' (pages.apply call) := by
  cases call with
  | map w p accepted =>
    obtain ⟨_, rfl⟩ := hchanges
    have haccept := (h.refines.mapPage w p).1.mpr hallowed
    have hstep : MapperStep layout memory _ _ := MapperStep.map memory w p
    rw [haccept] at hstep
    exact ⟨_, hstep, h.map haccept⟩
  | unmap w accepted =>
    obtain ⟨_, rfl⟩ := hchanges
    have haccept := (h.refines.unmapPage w).1.mpr hallowed
    have hstep : MapperStep layout memory _ _ := MapperStep.unmap memory w
    rw [haccept] at hstep
    exact ⟨_, hstep, h.unmap haccept⟩

theorem not_changes (hne : w ≠ v) (hchanges : Changes v call) : ¬ Changes w call := by
  intro hother
  cases call with
  | map u p accepted => exact hne (hother.1.symm.trans hchanges.1)
  | unmap u accepted => exact hne (hother.1.symm.trans hchanges.1)

/-- What an accepted call leaves on its own page. -/
def leaves : MapperCall → Option UInt32
  | .map _ p _ => some p
  | .unmap _ _ => none

theorem apply_changes (hchanges : Changes v call) :
    pages.apply call = pages.set v (leaves call) := by
  cases call with
  | map w p accepted =>
    obtain ⟨rfl, rfl⟩ := hchanges
    rfl
  | unmap w accepted =>
    obtain ⟨rfl, rfl⟩ := hchanges
    rfl

theorem set_comm (hne : v ≠ w) (frame frame' : Option UInt32) :
    (pages.set v frame).set w frame' = (pages.set w frame').set v frame := by
  funext u
  by_cases hv : u = v
  · subst hv
    rw [PageMap.set_ne _ _ hne, PageMap.set_same, PageMap.set_same]
  · rw [PageMap.set_ne _ _ hv]
    by_cases hw : u = w
    · rw [hw, PageMap.set_same, PageMap.set_same]
    · rw [PageMap.set_ne _ _ hw, PageMap.set_ne _ _ hv, PageMap.set_ne _ _ hw]

/-- Accepted calls on two pages are accepted in the other order and end in the same memory. -/
theorem Canonical.commute (h : Canonical layout base memory pages) (hne : v ≠ w)
    {a b : MapperCall} (ha : Changes v a) (hb : Changes w b) {middle : PageMemory}
    (hsa : MapperStep layout memory a middle) (hsb : MapperStep layout middle b memory') :
    ∃ middle', MapperStep layout memory b middle' ∧ MapperStep layout middle' a memory' := by
  have hmiddle := h.step hsa
  have hend := hmiddle.step hsb
  have hallowed := hmiddle.allowed hb hsb
  have hb' : Allowed pages b :=
    hallowed.of_eq hb (apply_unchanged (not_changes hne.symm ha)).symm
  obtain ⟨middle', hsb', hcanonical⟩ := h.perform hb hb'
  have ha' : Allowed (pages.apply b) a :=
    (h.allowed ha hsa).of_eq ha (apply_unchanged (not_changes hne hb))
  obtain ⟨last, hsa', hlast⟩ := hcanonical.perform ha ha'
  have hsame : (pages.apply b).apply a = (pages.apply a).apply b := by
    rw [apply_changes ha, apply_changes hb, apply_changes ha, apply_changes hb, set_comm hne]
  rw [hsame] at hlast
  obtain rfl := hlast.unique hend
  exact ⟨middle', hsb', hsa'⟩

theorem unmap_undoes_map (layout : TableLayout) (start : PageMemory)
    (zeroed : ∀ slot j : UInt32, slot.toNat < 3 → j.toNat < 1024 →
      start (layout.reservedTable slot) j = 0)
    (calls : List MapperCall) (memory : PageMemory) (run : MapperRun layout start calls memory) :
    (∀ k : UInt32, 1 ≤ k.toNat → k.toNat < 4 →
      (memory layout.earlyPageDirectory k &&& flagPresent ≠ 0 ↔
        ∃ j : UInt32, j.toNat < 1024 ∧
          memory (layout.reservedTable (k - 1)) j &&& flagPresent ≠ 0) ∧
      (memory layout.earlyPageDirectory k &&& flagPresent = 0 →
        memory layout.earlyPageDirectory k = 0) ∧
      ∀ j : UInt32, j.toNat < 1024 →
        memory (layout.reservedTable (k - 1)) j &&& flagPresent = 0 →
        memory (layout.reservedTable (k - 1)) j = 0) ∧
    (∀ v p, (stage8bVmmMapPage layout memory v p).1 = true →
      stage8bVmmUnmapPage layout (stage8bVmmMapPage layout memory v p).2 v = (true, memory)) ∧
    ∀ v w a b middle last, v ≠ w → Changes v a → Changes w b →
      MapperStep layout memory a middle → MapperStep layout middle b last →
      ∃ middle', MapperStep layout memory b middle' ∧ MapperStep layout middle' a last := by
  have h := canonical_of_run zeroed run
  refine ⟨fun k h₁ h₂ => ?_, fun _ _ => h.unmap_map, ?_⟩
  · exact ⟨h.entry_present h₁ h₂, h.entry_absent h₁ h₂, fun j => h.word_absent h₁ h₂⟩
  · intro v w a b middle last hne ha hb hsa hsb
    exact h.commute hne ha hb hsa hsb

/-- The first page of the heap window, mapped and unmapped on zeroed tables. -/
theorem unmap_undoes_map_firstPage :
    stage8bVmmUnmapPage rowLayout (stage8bVmmMapPage rowLayout
      (stage7bSetupEarlyIdentityPaging rowLayout fun _ _ => 0) 0x400000 0x200000).2 0x400000 =
      (true, stage7bSetupEarlyIdentityPaging rowLayout fun _ _ => 0) := by
  have haccept := ((setup_refines rowLayout fun _ _ => 0).mapPage 0x400000 0x200000).1.mpr
    ⟨⟨by decide, by decide, by decide⟩, by decide, rfl⟩
  exact (unmap_undoes_map rowLayout (fun _ _ => 0) (fun _ _ _ _ => rfl) [] _ .start).2.1
    0x400000 0x200000 haccept

end PageMapRestoration
