import CustomOs.PageMapper

/-! # The page mapper refines a partial map
What the mapper is for: a partial map from the pages of the two reserved windows to frames.
`Refines` ties such a map to the directory and the tables; every call acts on both alike, and
the processor's walk reads the map back. -/
namespace PageMapRefinement

open Paging PageMapper

abbrev PageMap := UInt32 → Option UInt32

/-- A page the mapper may map: aligned, in one of the reserved windows. -/
structure MutablePage (v : UInt32) : Prop where
  aligned : v.toNat % 4096 = 0
  lower : 0x400000 ≤ v.toNat
  upper : v.toNat < 0x1000000

instance (v : UInt32) : Decidable (MutablePage v) :=
  decidable_of_iff (v.toNat % 4096 = 0 ∧ 0x400000 ≤ v.toNat ∧ v.toNat < 0x1000000)
    ⟨fun ⟨a, b, c⟩ => ⟨a, b, c⟩, fun ⟨a, b, c⟩ => ⟨a, b, c⟩⟩

def PageMap.set (pages : PageMap) (v : UInt32) (frame : Option UInt32) : PageMap :=
  fun w => if w = v then frame else pages w

@[simp] theorem PageMap.set_same (pages : PageMap) (v : UInt32) (frame : Option UInt32) :
    pages.set v frame v = frame := by simp [PageMap.set]

theorem PageMap.set_ne (pages : PageMap) {v w : UInt32} (frame : Option UInt32) (h : w ≠ v) :
    pages.set v frame w = pages w := by simp [PageMap.set, h]

/-- The effect of a call on the map. -/
def PageMap.apply (pages : PageMap) : MapperCall → PageMap
  | .map v p true => pages.set v (some p)
  | .map _ _ false => pages
  | .unmap v true => pages.set v none
  | .unmap _ false => pages

/-- The map that a history leaves behind. -/
def mappedAfter (calls : List MapperCall) : PageMap :=
  calls.foldl PageMap.apply fun _ => none

theorem mappedAfter_append (calls : List MapperCall) (call : MapperCall) :
    mappedAfter (calls ++ [call]) = (mappedAfter calls).apply call := by
  simp [mappedAfter]

/-- The table word of a page. -/
def encode : Option UInt32 → UInt32
  | none => 0
  | some p => stage7aPagingMakeEntry p (flagPresent ||| flagWritable)

theorem encode_present {frame : Option UInt32} :
    encode frame &&& flagPresent = 0 ↔ frame = none := by
  cases frame with
  | none => simp [encode]
  | some p => simpa [encode] using makeEntry_present p

/-- A directory entry of a reserved window: empty, or linked to its own table, which then holds
exactly the pages of the map and at least one. -/
inductive SlotRefines (layout : TableLayout) (memory : PageMemory) (pages : PageMap)
    (i : UInt32) : Prop where
  | unlinked (entry : memory layout.earlyPageDirectory i = 0)
      (free : ∀ v, stage7aPagingPdIndex v = i → pages v = none)
  | linked (entry : memory layout.earlyPageDirectory i =
        stage7aPagingMakeEntry (layout.reservedTable (i - 1)) (flagPresent ||| flagWritable))
      (table : ∀ v, MutablePage v → stage7aPagingPdIndex v = i →
        memory (layout.reservedTable (i - 1)) (stage7aPagingPtIndex v) = encode (pages v))
      (used : ∃ v, stage7aPagingPdIndex v = i ∧ pages v ≠ none)

structure Refines (layout : TableLayout) (memory : PageMemory) (pages : PageMap) : Prop where
  domain : ∀ v p, pages v = some p → MutablePage v ∧ p.toNat % 4096 = 0
  identity_entry : memory layout.earlyPageDirectory 0 =
    stage7aPagingMakeEntry layout.earlyIdentityPageTable (flagPresent ||| flagWritable)
  identity_table : ∀ i : UInt32, i.toNat < 1024 → memory layout.earlyIdentityPageTable i =
    stage7aPagingMakeEntry (i <<< pageShift) (flagPresent ||| flagWritable)
  beyond : ∀ i : UInt32, 4 ≤ i.toNat → i.toNat < 1024 → memory layout.earlyPageDirectory i = 0
  slot : ∀ i : UInt32, 1 ≤ i.toNat → i.toNat < 4 → SlotRefines layout memory pages i

variable {layout : TableLayout} {memory memory' : PageMemory} {pages pages' : PageMap}
  {v w p i : UInt32}

theorem MutablePage.pdIndex (h : MutablePage v) :
    1 ≤ (stage7aPagingPdIndex v).toNat ∧ (stage7aPagingPdIndex v).toNat < 4 := by
  have h₁ := h.lower
  have h₂ := h.upper
  rw [pdIndex_toNat]
  omega

theorem slot_toNat (h₁ : 1 ≤ i.toNat) : (i - 1).toNat = i.toNat - 1 :=
  UInt32.toNat_sub_of_le i 1 (by rw [UInt32.le_iff_toNat_le]; exact h₁)

theorem slot_lt (h₁ : 1 ≤ i.toNat) (h₂ : i.toNat < 4) : (i - 1).toNat < 3 := by
  rw [slot_toNat h₁]
  omega

/-- Directory index and table index determine an aligned page. -/
theorem page_inj (hv : v.toNat % 4096 = 0) (hw : w.toNat % 4096 = 0)
    (hd : stage7aPagingPdIndex v = stage7aPagingPdIndex w)
    (ht : stage7aPagingPtIndex v = stage7aPagingPtIndex w) : v = w := by
  have hd' := congrArg UInt32.toNat hd
  have ht' := congrArg UInt32.toNat ht
  rw [pdIndex_toNat, pdIndex_toNat] at hd'
  rw [ptIndex_toNat, ptIndex_toNat] at ht'
  apply UInt32.toNat_inj.mp
  omega

/-- Every entry of a reserved table belongs to a page. -/
theorem page_of_index (h₁ : 1 ≤ i.toNat) (h₂ : i.toNat < 4) {j : UInt32} (hj : j.toNat < 1024) :
    ∃ v, MutablePage v ∧ stage7aPagingPdIndex v = i ∧ stage7aPagingPtIndex v = j := by
  have hv : (UInt32.ofNat (i.toNat * 2 ^ 22 + j.toNat * 4096)).toNat =
      i.toNat * 2 ^ 22 + j.toNat * 4096 := by
    rw [UInt32.toNat_ofNat', Nat.mod_eq_of_lt (by omega)]
  refine ⟨UInt32.ofNat (i.toNat * 2 ^ 22 + j.toNat * 4096), ⟨?_, ?_, ?_⟩, ?_, ?_⟩
  · rw [hv]; omega
  · rw [hv]; omega
  · rw [hv]; omega
  · apply UInt32.toNat_inj.mp
    rw [pdIndex_toNat, hv]
    omega
  · apply UInt32.toNat_inj.mp
    rw [ptIndex_toNat, hv]
    omega

theorem getSlot (h : MutablePage v) : stage8bVmmGetReservedMappingSlot v =
    some (stage7aPagingPdIndex v, stage7aPagingPdIndex v - 1) := by
  rw [getReservedMappingSlot_eq, if_pos ⟨h.lower, h.upper⟩]

theorem ptIndex_lt (v : UInt32) : (stage7aPagingPtIndex v).toNat < 1024 := by
  rw [ptIndex_toNat]
  omega

/-- A call that touches one directory entry and its table leaves the other slots refined. -/
theorem Refines.change (h : Refines layout memory pages) (h₁ : 1 ≤ i.toNat) (h₂ : i.toNat < 4)
    (domain : ∀ v p, pages' v = some p → MutablePage v ∧ p.toNat % 4096 = 0)
    (directory : ∀ j, j ≠ i →
      memory' layout.earlyPageDirectory j = memory layout.earlyPageDirectory j)
    (tables : ∀ t j, t ≠ layout.earlyPageDirectory → t ≠ layout.reservedTable (i - 1) →
      memory' t j = memory t j)
    (others : ∀ v, stage7aPagingPdIndex v ≠ i → pages' v = pages v)
    (slot : SlotRefines layout memory' pages' i) : Refines layout memory' pages' := by
  have hne : ∀ j : UInt32, j.toNat < 1 ∨ 4 ≤ j.toNat → j ≠ i := by
    rintro j hj rfl
    omega
  refine ⟨domain, ?_, ?_, ?_, ?_⟩
  · rw [directory 0 (hne 0 (by simp))]
    exact h.identity_entry
  · intro j hj
    rw [tables _ _ layout.directory_ne_identity.symm
      (reservedTable_ne_identity layout (slot_lt h₁ h₂)).symm]
    exact h.identity_table j hj
  · intro j hj hlt
    rw [directory j (hne j (Or.inr hj))]
    exact h.beyond j hj hlt
  · intro j hj₁ hj₂
    by_cases hji : j = i
    · subst hji
      exact slot
    · have htable : ∀ k, memory' (layout.reservedTable (j - 1)) k =
          memory (layout.reservedTable (j - 1)) k := by
        intro k
        apply tables _ _ (reservedTable_ne_directory layout (slot_lt hj₁ hj₂))
        intro heq
        have hs := reservedTable_inj layout (slot_lt hj₁ hj₂) (slot_lt h₁ h₂) heq
        have hs' := congrArg UInt32.toNat hs
        rw [slot_toNat hj₁, slot_toNat h₁] at hs'
        exact hji (UInt32.toNat_inj.mp (by omega))
      cases h.slot j hj₁ hj₂ with
      | unlinked entry free =>
        refine .unlinked ?_ ?_
        · rw [directory j hji, entry]
        · intro v hv
          rw [others v (by rw [hv]; exact hji)]
          exact free v hv
      | linked entry table used =>
        refine .linked ?_ ?_ ?_
        · rw [directory j hji, entry]
        · intro v hv hd
          rw [htable, others v (by rw [hd]; exact hji)]
          exact table v hv hd
        · obtain ⟨v, hv, hmapped⟩ := used
          exact ⟨v, hv, by rw [others v (by rw [hv]; exact hji)]; exact hmapped⟩

/-! ### What the calls share -/

/-- Both calls turn a page outside the windows away before they look at the directory. -/
theorem rejected_of_not_mutable (h : ¬ MutablePage v) :
    (!stage8bVmmIsPageAligned v) = true ∨ stage8bVmmGetReservedMappingSlot v = none := by
  by_cases hva : v.toNat % 4096 = 0
  · have hout : ¬ (0x400000 ≤ v.toNat ∧ v.toNat < 0x1000000) := fun hc => h ⟨hva, hc.1, hc.2⟩
    rw [getReservedMappingSlot_eq, if_neg hout]
    exact Or.inr rfl
  · left
    simpa [← Bool.not_eq_true] using isPageAligned_iff.not.mpr hva

theorem not_misaligned (h : v.toNat % 4096 = 0) : ¬ (!stage8bVmmIsPageAligned v) = true := by
  simpa using isPageAligned_iff.mpr h

theorem frame_matches (layout : TableLayout) (h₁ : 1 ≤ i.toNat) (h₂ : i.toNat < 4) :
    stage7aPagingFrameAddr (stage7aPagingMakeEntry (layout.reservedTable (i - 1))
      (flagPresent ||| flagWritable)) =
      stage7aPagingFrameAddr (layout.reservedTable (i - 1)) := by
  have haligned := reservedTable_aligned layout (slot_lt h₁ h₂)
  rw [makeEntry_frame haligned, frameAddr_of_aligned haligned]

/-- A linked entry passes both checks of the calls. -/
theorem linked_entry (layout : TableLayout) (h₁ : 1 ≤ i.toNat) (h₂ : i.toNat < 4) {pde : UInt32}
    (entry : pde = stage7aPagingMakeEntry (layout.reservedTable (i - 1))
      (flagPresent ||| flagWritable)) :
    ¬ pde &&& flagPresent = 0 ∧
      ¬ stage7aPagingFrameAddr pde ≠ stage7aPagingFrameAddr (layout.reservedTable (i - 1)) := by
  rw [entry]
  exact ⟨makeEntry_present _, not_not.mpr (frame_matches layout h₁ h₂)⟩

theorem Refines.set_domain (h : Refines layout memory pages) {frame : Option UInt32}
    (hframe : ∀ q, frame = some q → MutablePage v ∧ q.toNat % 4096 = 0) :
    ∀ w q, pages.set v frame w = some q → MutablePage w ∧ q.toNat % 4096 = 0 := by
  intro w q hw
  by_cases hwv : w = v
  · subst hwv
    rw [PageMap.set_same] at hw
    exact hframe q hw
  · rw [PageMap.set_ne _ _ hwv] at hw
    exact h.domain w q hw

theorem PageMap.set_other_slot (pages : PageMap) (frame : Option UInt32)
    (h : stage7aPagingPdIndex w ≠ stage7aPagingPdIndex v) : pages.set v frame w = pages w := by
  apply PageMap.set_ne
  rintro rfl
  exact h rfl

/-- Writing the word of one page changes that page of the table and no other. -/
theorem table_set {t : UInt32} (hv : v.toNat % 4096 = 0)
    (table : ∀ w, MutablePage w → stage7aPagingPdIndex w = stage7aPagingPdIndex v →
      memory t (stage7aPagingPtIndex w) = encode (pages w)) (frame : Option UInt32) :
    ∀ w, MutablePage w → stage7aPagingPdIndex w = stage7aPagingPdIndex v →
      memory.write t (stage7aPagingPtIndex v) (encode frame) t (stage7aPagingPtIndex w) =
        encode (pages.set v frame w) := by
  intro w hw hd
  by_cases hwv : w = v
  · subst hwv
    rw [write_same, PageMap.set_same]
  · have hidx : stage7aPagingPtIndex w ≠ stage7aPagingPtIndex v :=
      fun hc => hwv (page_inj hw.aligned hv hd hc)
    rw [write_index_ne _ _ _ _ hidx, PageMap.set_ne _ _ hwv]
    exact table w hw hd

/-- The table of a slot has no present entry exactly when no page of the slot is mapped. -/
theorem tableIsEmpty_slot {t : UInt32} (h₁ : 1 ≤ i.toNat) (h₂ : i.toNat < 4)
    (domain : ∀ w q, pages w = some q → MutablePage w)
    (table : ∀ w, MutablePage w → stage7aPagingPdIndex w = i →
      memory t (stage7aPagingPtIndex w) = encode (pages w)) :
    stage8bVmmTableIsEmpty memory t = true ↔ ∀ w, stage7aPagingPdIndex w = i → pages w = none := by
  rw [tableIsEmpty_iff]
  constructor
  · intro hempty w hd
    by_contra hw
    obtain ⟨q, hq⟩ := Option.ne_none_iff_exists'.mp hw
    have hword := hempty (stage7aPagingPtIndex w) (ptIndex_lt w)
    rw [table w (domain w q hq) hd, encode_present] at hword
    exact hw hword
  · intro hnone j hj
    obtain ⟨w, hpage, hd, rfl⟩ := page_of_index h₁ h₂ hj
    rw [table w hpage hd]
    exact encode_present.mpr (hnone w hd)

/-! ### The calls -/

section Outcome

variable {outcome : Bool × PageMemory} {condition : Prop}

/-- A call that is refused leaves memory alone. -/
theorem refused_call (houtcome : outcome = (false, memory)) (hcondition : ¬ condition) :
    (outcome.1 = true ↔ condition) ∧ (outcome.1 = false → outcome.2 = memory) ∧
      (outcome.1 = true → Refines layout outcome.2 pages) := by
  subst houtcome
  refine ⟨⟨fun hc => ?_, fun hc => absurd hc hcondition⟩, fun _ => rfl, fun hc => ?_⟩
  · cases hc
  · cases hc

theorem accepted_call (houtcome : outcome = (true, memory')) (hcondition : condition)
    (hafter : Refines layout memory' pages) :
    (outcome.1 = true ↔ condition) ∧ (outcome.1 = false → outcome.2 = memory) ∧
      (outcome.1 = true → Refines layout outcome.2 pages) := by
  subst houtcome
  refine ⟨⟨fun _ => hcondition, fun _ => rfl⟩, fun hc => ?_, fun _ => hafter⟩
  cases hc

end Outcome

/-- The table of the slot after linking it if need be. -/
theorem mapPage_eq (h : Refines layout memory pages) (hv : MutablePage v)
    (hp : p.toNat % 4096 = 0) :
    ∃ linked, stage8bVmmMapPage layout memory v p = mapIntoTable linked
        (layout.reservedTable (stage7aPagingPdIndex v - 1)) v p ∧
      (pages v ≠ none → linked = memory) ∧
      linked layout.earlyPageDirectory (stage7aPagingPdIndex v) =
        stage7aPagingMakeEntry (layout.reservedTable (stage7aPagingPdIndex v - 1))
          (flagPresent ||| flagWritable) ∧
      (∀ w, MutablePage w → stage7aPagingPdIndex w = stage7aPagingPdIndex v →
        linked (layout.reservedTable (stage7aPagingPdIndex v - 1)) (stage7aPagingPtIndex w) =
          encode (pages w)) ∧
      (∀ j, j ≠ stage7aPagingPdIndex v →
        linked layout.earlyPageDirectory j = memory layout.earlyPageDirectory j) ∧
      ∀ t j, t ≠ layout.earlyPageDirectory →
        t ≠ layout.reservedTable (stage7aPagingPdIndex v - 1) → linked t j = memory t j := by
  obtain ⟨h₁, h₂⟩ := hv.pdIndex
  have hdir := reservedTable_ne_directory layout (slot_lt h₁ h₂)
  simp only [stage8bVmmMapPage, getSlot hv]
  rw [if_neg (not_misaligned hv.aligned), if_neg (not_misaligned hp)]
  cases h.slot _ h₁ h₂ with
  | unlinked entry free =>
    have habsent : memory layout.earlyPageDirectory (stage7aPagingPdIndex v) &&& flagPresent =
        0 := by
      rw [entry]
      exact UInt32.zero_and
    rw [if_pos habsent]
    refine ⟨_, rfl, fun hmapped => absurd (free v rfl) hmapped, write_same _ _ _ _, ?_, ?_, ?_⟩
    · intro w hw hd
      rw [write_table_ne _ _ _ _ hdir, stage8bVmmClearPageTable, clearTable_apply,
        if_pos ⟨rfl, ptIndex_lt w⟩, free w hd, encode]
    · intro j hj
      rw [write_index_ne _ _ _ _ hj, stage8bVmmClearPageTable, clearTable_apply,
        if_neg fun hc => hdir hc.1.symm]
    · intro t j ht ht'
      rw [write_table_ne _ _ _ _ ht, stage8bVmmClearPageTable, clearTable_apply,
        if_neg fun hc => ht' hc.1]
  | linked entry table used =>
    obtain ⟨hpresent, hframe⟩ := linked_entry layout h₁ h₂ entry
    rw [if_neg hpresent, if_neg hframe]
    exact ⟨memory, rfl, fun _ => rfl, entry, table, fun _ _ => rfl, fun _ _ _ _ => rfl⟩

/-- Mapping succeeds exactly on a free page of the windows, and then adds that page. -/
theorem Refines.mapPage (h : Refines layout memory pages) (v p : UInt32) :
    ((stage8bVmmMapPage layout memory v p).1 = true ↔
      MutablePage v ∧ p.toNat % 4096 = 0 ∧ pages v = none) ∧
    ((stage8bVmmMapPage layout memory v p).1 = false →
      (stage8bVmmMapPage layout memory v p).2 = memory) ∧
    ((stage8bVmmMapPage layout memory v p).1 = true →
      Refines layout (stage8bVmmMapPage layout memory v p).2 (pages.set v (some p))) := by
  by_cases hv : MutablePage v
  swap
  · have hfail : stage8bVmmMapPage layout memory v p = (false, memory) := by
      simp only [stage8bVmmMapPage]
      rcases rejected_of_not_mutable hv with hbad | hbad
      · rw [if_pos hbad]
      · rw [hbad]
        split_ifs <;> rfl
    exact refused_call hfail fun hc => hv hc.1
  by_cases hp : p.toNat % 4096 = 0
  swap
  · have hbad : (!stage8bVmmIsPageAligned p) = true := by
      simpa [← Bool.not_eq_true] using isPageAligned_iff.not.mpr hp
    have hfail : stage8bVmmMapPage layout memory v p = (false, memory) := by
      simp only [stage8bVmmMapPage]
      rw [if_pos hbad]
      split_ifs <;> rfl
    exact refused_call hfail fun hc => hp hc.2.1
  obtain ⟨h₁, h₂⟩ := hv.pdIndex
  have hdir := reservedTable_ne_directory layout (slot_lt h₁ h₂)
  obtain ⟨linked, heq, hsame, hentry, htable, hother, hframe⟩ := mapPage_eq h hv hp
  have hword := htable v hv rfl
  rw [mapIntoTable] at heq
  by_cases hfree : pages v = none
  · have habsent : ¬ linked (layout.reservedTable (stage7aPagingPdIndex v - 1))
        (stage7aPagingPtIndex v) &&& flagPresent ≠ 0 := by
      rw [hword]
      exact not_not.mpr (encode_present.mpr hfree)
    rw [if_neg habsent] at heq
    apply accepted_call heq ⟨hv, hp, hfree⟩
    apply h.change h₁ h₂
    · apply h.set_domain
      intro q hq
      obtain rfl := Option.some.inj hq
      exact ⟨hv, hp⟩
    · intro j hj
      rw [write_table_ne _ _ _ _ hdir.symm]
      exact hother j hj
    · intro t j ht ht'
      rw [write_table_ne _ _ _ _ ht']
      exact hframe t j ht ht'
    · exact fun w hw => pages.set_other_slot _ hw
    · refine .linked ?_ (table_set hv.aligned htable (some p)) ⟨v, rfl, by simp⟩
      rw [write_table_ne _ _ _ _ hdir.symm]
      exact hentry
  · have hpresent : linked (layout.reservedTable (stage7aPagingPdIndex v - 1))
        (stage7aPagingPtIndex v) &&& flagPresent ≠ 0 := by
      rw [hword]
      exact fun hc => hfree (encode_present.mp hc)
    rw [if_pos hpresent, hsame hfree] at heq
    exact refused_call heq fun hc => hfree hc.2.2

/-- Unmapping succeeds exactly on a mapped page, and then removes that page. -/
theorem Refines.unmapPage (h : Refines layout memory pages) (v : UInt32) :
    ((stage8bVmmUnmapPage layout memory v).1 = true ↔ MutablePage v ∧ pages v ≠ none) ∧
    ((stage8bVmmUnmapPage layout memory v).1 = false →
      (stage8bVmmUnmapPage layout memory v).2 = memory) ∧
    ((stage8bVmmUnmapPage layout memory v).1 = true →
      Refines layout (stage8bVmmUnmapPage layout memory v).2 (pages.set v none)) := by
  by_cases hv : MutablePage v
  swap
  · have hfail : stage8bVmmUnmapPage layout memory v = (false, memory) := by
      simp only [stage8bVmmUnmapPage]
      rcases rejected_of_not_mutable hv with hbad | hbad
      · rw [if_pos hbad]
      · rw [hbad]
        split_ifs <;> rfl
    exact refused_call hfail fun hc => hv hc.1
  obtain ⟨h₁, h₂⟩ := hv.pdIndex
  have hdir := reservedTable_ne_directory layout (slot_lt h₁ h₂)
  simp only [stage8bVmmUnmapPage, getSlot hv]
  rw [if_neg (not_misaligned hv.aligned)]
  cases h.slot _ h₁ h₂ with
  | unlinked entry free =>
    have habsent : memory layout.earlyPageDirectory (stage7aPagingPdIndex v) &&& flagPresent =
        0 := by
      rw [entry]
      exact UInt32.zero_and
    rw [if_pos habsent]
    exact refused_call rfl fun hc => hc.2 (free v rfl)
  | linked entry table used =>
    obtain ⟨hpresent, hframe⟩ := linked_entry layout h₁ h₂ entry
    rw [if_neg hpresent, if_neg hframe, table v hv rfl]
    by_cases hfree : pages v = none
    · rw [if_pos (encode_present.mpr hfree)]
      exact refused_call rfl fun hc => hc.2 hfree
    have hmapped : ¬ encode (pages v) &&& flagPresent = 0 :=
      fun hc => hfree (encode_present.mp hc)
    rw [if_neg hmapped]
    have hdomain : ∀ w q, pages.set v none w = some q → MutablePage w ∧ q.toNat % 4096 = 0 :=
      h.set_domain (by simp)
    have hcleared := table_set hv.aligned table none
    have hempty_iff := tableIsEmpty_slot h₁ h₂ (fun w q hw => (hdomain w q hw).1) hcleared
    rw [encode] at hcleared hempty_iff
    by_cases hempty : stage8bVmmTableIsEmpty
        (memory.write (layout.reservedTable (stage7aPagingPdIndex v - 1))
          (stage7aPagingPtIndex v) 0)
        (layout.reservedTable (stage7aPagingPdIndex v - 1)) = true
    · have hnone := hempty_iff.mp hempty
      rw [if_pos hempty]
      apply accepted_call rfl ⟨hv, hfree⟩
      apply h.change h₁ h₂ hdomain
      · intro j hj
        rw [write_index_ne _ _ _ _ hj, write_table_ne _ _ _ _ hdir.symm]
      · intro t j ht ht'
        rw [write_table_ne _ _ _ _ ht, write_table_ne _ _ _ _ ht']
      · exact fun w hw => pages.set_other_slot _ hw
      · exact .unlinked (write_same _ _ _ _) hnone
    · have hused : ∃ w, stage7aPagingPdIndex w = stage7aPagingPdIndex v ∧
          pages.set v none w ≠ none := by
        rw [hempty_iff] at hempty
        push Not at hempty
        exact hempty
      rw [if_neg hempty]
      apply accepted_call rfl ⟨hv, hfree⟩
      apply h.change h₁ h₂ hdomain
      · intro j hj
        rw [write_table_ne _ _ _ _ hdir.symm]
      · intro t j ht ht'
        rw [write_table_ne _ _ _ _ ht']
      · exact fun w hw => pages.set_other_slot _ hw
      · refine .linked ?_ hcleared hused
        rw [write_table_ne _ _ _ _ hdir.symm]
        exact entry

/-- Setting up the identity mapping leaves the reserved windows unmapped. -/
theorem setup_refines (layout : TableLayout) (memory : PageMemory) :
    Refines layout (stage7bSetupEarlyIdentityPaging layout memory) fun _ => none := by
  have hne := layout.directory_ne_identity
  have hdirectory : ∀ i : UInt32, i ≠ 0 → i.toNat < 1024 →
      stage7bSetupEarlyIdentityPaging layout memory layout.earlyPageDirectory i = 0 := by
    intro i hi hlt
    simp only [stage7bSetupEarlyIdentityPaging, entriesPerTable]
    rw [write_index_ne _ _ _ _ hi, fillTable (fun i =>
      stage7aPagingMakeEntry (i <<< pageShift) (flagPresent ||| flagWritable)) _ _ 1024 le_rfl,
      if_neg fun hc => hne hc.1, stage7bClearPageTable, clearTable_apply,
      if_neg fun hc => hne hc.1, stage7bClearPageDirectory, clearTable_apply, if_pos ⟨rfl, hlt⟩]
  refine ⟨by simp, ?_, ?_, ?_, ?_⟩
  · simp only [stage7bSetupEarlyIdentityPaging]
    rw [write_same, frameAddr_of_aligned layout.identity_aligned]
  · intro i hi
    simp only [stage7bSetupEarlyIdentityPaging, entriesPerTable]
    rw [write_table_ne _ _ _ _ hne.symm, fillTable (fun i =>
      stage7aPagingMakeEntry (i <<< pageShift) (flagPresent ||| flagWritable)) _ _ 1024 le_rfl,
      if_pos ⟨rfl, hi⟩]
  · intro i hi hlt
    apply hdirectory i _ hlt
    rintro rfl
    simp at hi
  · intro i h₁ h₂
    refine .unlinked (hdirectory i ?_ (by omega)) fun _ _ => rfl
    rintro rfl
    simp at h₁

theorem Refines.step {call : MapperCall} (h : Refines layout memory pages)
    (hs : MapperStep layout memory call memory') : Refines layout memory' (pages.apply call) := by
  cases hs with
  | map v p =>
    obtain ⟨_, hfail, hok⟩ := h.mapPage v p
    cases hverdict : (stage8bVmmMapPage layout memory v p).1 with
    | false => rw [hfail hverdict]; exact h
    | true => exact hok hverdict
  | unmap v =>
    obtain ⟨_, hfail, hok⟩ := h.unmapPage v
    cases hverdict : (stage8bVmmUnmapPage layout memory v).1 with
    | false => rw [hfail hverdict]; exact h
    | true => exact hok hverdict

theorem refines_of_run {start : PageMemory} {calls : List MapperCall}
    (hrun : MapperRun layout start calls memory) :
    Refines layout memory (mappedAfter calls) :=
  hrun.invariant (I := fun calls memory => Refines layout memory (mappedAfter calls))
    (setup_refines layout start) fun calls s e t h hs => by
      rw [mappedAfter_append]
      exact h.step hs

/-! ## Reading the map back -/

section Read

theorem linked_table (h : Refines layout memory pages) (hv : MutablePage v)
    (hpresent : memory layout.earlyPageDirectory (stage7aPagingPdIndex v) &&& flagPresent ≠ 0) :
    memory (stage8bVmmPageTableFromEntry
        (memory layout.earlyPageDirectory (stage7aPagingPdIndex v)))
      (stage7aPagingPtIndex v) = encode (pages v) := by
  obtain ⟨h₁, h₂⟩ := hv.pdIndex
  cases h.slot _ h₁ h₂ with
  | unlinked entry free =>
    rw [entry] at hpresent
    exact absurd UInt32.zero_and hpresent
  | linked entry table used =>
    rw [entry, stage8bVmmPageTableFromEntry,
      makeEntry_frame (reservedTable_aligned layout (slot_lt h₁ h₂))]
    exact table v hv rfl

theorem none_of_absent (h : Refines layout memory pages) (hv : MutablePage v)
    (habsent : memory layout.earlyPageDirectory (stage7aPagingPdIndex v) &&& flagPresent = 0) :
    pages v = none := by
  obtain ⟨h₁, h₂⟩ := hv.pdIndex
  cases h.slot _ h₁ h₂ with
  | unlinked entry free => exact free v rfl
  | linked entry table used =>
    rw [entry] at habsent
    exact absurd habsent (makeEntry_present _)

/-- Resolving an aligned page of the windows reads the map. -/
theorem Refines.resolve (h : Refines layout memory pages) (hv : MutablePage v) (out : UInt32) :
    stage8bVmmResolvePageFrame layout memory v (some out) =
      match pages v with
      | some p => (true, some p)
      | none => (false, some out) := by
  simp only [stage8bVmmResolvePageFrame]
  rw [if_neg (not_misaligned hv.aligned)]
  by_cases hpde : memory layout.earlyPageDirectory (stage7aPagingPdIndex v) &&& flagPresent = 0
  · rw [if_pos hpde, none_of_absent h hv hpde]
  · rw [if_neg hpde, linked_table h hv hpde]
    cases hpage : pages v with
    | none => rw [if_pos (encode_present.mpr rfl)]
    | some p =>
      have hpte : ¬ encode (some p) &&& flagPresent = 0 :=
        fun hc => by simp [encode_present] at hc
      rw [if_neg hpte, encode, makeEntry_frame (h.domain v p hpage).2]

theorem Refines.isPageMapped (h : Refines layout memory pages) (hv : MutablePage v) :
    stage8bVmmIsPageMapped layout memory v = (pages v).isSome := by
  simp only [stage8bVmmIsPageMapped]
  rw [if_neg (not_misaligned hv.aligned)]
  by_cases hpde : memory layout.earlyPageDirectory (stage7aPagingPdIndex v) &&& flagPresent = 0
  · rw [if_pos hpde, none_of_absent h hv hpde, Option.isSome_none]
  · rw [if_neg hpde, linked_table h hv hpde, Bool.eq_iff_iff, decide_eq_true_eq,
      ne_eq, encode_present, Option.isSome_iff_ne_none]

/-- Below 4 MiB the directory leads to the identity table. -/
theorem identity_word (h : Refines layout memory pages) {addr : UInt32}
    (hlow : addr.toNat < 0x400000) :
    memory layout.earlyPageDirectory (stage7aPagingPdIndex addr) &&& flagPresent ≠ 0 ∧
      memory (stage8bVmmPageTableFromEntry
          (memory layout.earlyPageDirectory (stage7aPagingPdIndex addr)))
        (stage7aPagingPtIndex addr) =
      stage7aPagingMakeEntry (stage7aPagingPtIndex addr <<< pageShift)
        (flagPresent ||| flagWritable) := by
  have hzero : stage7aPagingPdIndex addr = 0 := by
    apply UInt32.toNat_inj.mp
    rw [pdIndex_toNat, UInt32.toNat_zero]
    omega
  rw [hzero, h.identity_entry, stage8bVmmPageTableFromEntry,
    makeEntry_frame layout.identity_aligned]
  exact ⟨makeEntry_present _, h.identity_table _ (ptIndex_lt addr)⟩

/-- Above the windows the directory is empty. -/
theorem beyond_entry (h : Refines layout memory pages) {addr : UInt32}
    (hhigh : 0x1000000 ≤ addr.toNat) :
    memory layout.earlyPageDirectory (stage7aPagingPdIndex addr) = 0 := by
  have hlt := addr.toNat_lt
  have hindex := pdIndex_toNat addr
  exact h.beyond _ (by omega) (by omega)

/-- Outside the reserved windows the pages below 4 MiB are mapped, and no others. -/
theorem Refines.isPageMapped_other (h : Refines layout memory pages) (hv : ¬ MutablePage v) :
    stage8bVmmIsPageMapped layout memory v = true ↔ v.toNat % 4096 = 0 ∧ v.toNat < 0x400000 := by
  simp only [stage8bVmmIsPageMapped]
  by_cases haligned : v.toNat % 4096 = 0
  swap
  · have hmisaligned : (!stage8bVmmIsPageAligned v) = true := by
      simpa [← Bool.not_eq_true] using isPageAligned_iff.not.mpr haligned
    rw [if_pos hmisaligned]
    exact ⟨fun hc => absurd hc (by simp), fun hc => absurd hc.1 haligned⟩
  rw [if_neg (not_misaligned haligned)]
  by_cases hlow : v.toNat < 0x400000
  · obtain ⟨hpresent, hword⟩ := identity_word h hlow
    rw [if_neg hpresent, hword]
    exact ⟨fun _ => ⟨haligned, hlow⟩, fun _ => decide_eq_true (makeEntry_present _)⟩
  · have hhigh : 0x1000000 ≤ v.toNat := by
      by_contra hc
      exact hv ⟨haligned, by omega, by omega⟩
    rw [beyond_entry h hhigh, if_pos UInt32.zero_and]
    exact ⟨fun hc => absurd hc (by simp), fun hc => absurd hc.2 hlow⟩

/-- The walk of the processor: identity below 4 MiB, the map above. -/
theorem Refines.hardwareWalk (h : Refines layout memory pages) (addr : UInt32) :
    hardwareWalk memory layout.earlyPageDirectory addr =
      if addr.toNat < 0x400000 then some addr
      else (pages (stage7aPagingFrameAddr addr)).map (· + stage7aPagingPageOffset addr) := by
  have hframe := frameAddr_toNat addr
  have hwalk : Paging.hardwareWalk memory layout.earlyPageDirectory addr =
      if memory layout.earlyPageDirectory (stage7aPagingPdIndex addr) &&& flagPresent = 0
      then none
      else if memory (stage8bVmmPageTableFromEntry
          (memory layout.earlyPageDirectory (stage7aPagingPdIndex addr)))
          (stage7aPagingPtIndex addr) &&& flagPresent = 0 then none
      else some (stage7aPagingFrameAddr (memory (stage8bVmmPageTableFromEntry
          (memory layout.earlyPageDirectory (stage7aPagingPdIndex addr)))
          (stage7aPagingPtIndex addr)) + stage7aPagingPageOffset addr) := by
    rw [← pdIndex_eq]
    rfl
  rw [hwalk]
  by_cases hlow : addr.toNat < 0x400000
  · have hshift : (stage7aPagingPtIndex addr <<< pageShift).toNat = addr.toNat / 4096 * 4096 := by
      have hk : pageShift.toNat = 12 := rfl
      rw [UInt32.toNat_shiftLeft, ptIndex_toNat, hk, Nat.shiftLeft_eq]
      simp only [Nat.reduceMod, Nat.reducePow]
      omega
    obtain ⟨hpresent, hword⟩ := identity_word h hlow
    rw [if_pos hlow, if_neg hpresent, hword, if_neg (makeEntry_present _),
      makeEntry_frame (by rw [hshift]; omega)]
    congr 1
    apply UInt32.toNat_inj.mp
    have hoff := pageOffset_toNat addr
    rw [MachineWord.toNat_add32 (by rw [hshift, hoff]; omega), hshift, hoff]
    omega
  rw [if_neg hlow]
  by_cases hhigh : addr.toNat < 0x1000000
  · have hpage : MutablePage (stage7aPagingFrameAddr addr) :=
      ⟨by rw [hframe]; omega, by rw [hframe]; omega, by rw [hframe]; omega⟩
    have htable := linked_table h hpage
    have hnone := none_of_absent h hpage
    rw [pdIndex_frameAddr, ptIndex_frameAddr] at htable
    rw [pdIndex_frameAddr] at hnone
    by_cases hpde : memory layout.earlyPageDirectory (stage7aPagingPdIndex addr) &&&
        flagPresent = 0
    · rw [if_pos hpde, hnone hpde, Option.map_none]
    · rw [if_neg hpde, htable hpde]
      cases hmapped : pages (stage7aPagingFrameAddr addr) with
      | none => rw [if_pos (encode_present.mpr rfl), Option.map_none]
      | some p =>
        have hpte : ¬ encode (some p) &&& flagPresent = 0 :=
          fun hc => by simp [encode_present] at hc
        rw [if_neg hpte, encode, makeEntry_frame (h.domain _ p hmapped).2, Option.map_some]
  · have hunmapped : pages (stage7aPagingFrameAddr addr) = none := by
      by_contra hc
      obtain ⟨p, hp⟩ := Option.ne_none_iff_exists'.mp hc
      have := (h.domain _ p hp).1.upper
      rw [hframe] at this
      omega
    rw [beyond_entry h (by omega), if_pos UInt32.zero_and, hunmapped, Option.map_none]

end Read

theorem page_map_refinement (layout : TableLayout) (start : PageMemory)
    (calls : List MapperCall) (memory : PageMemory) (run : MapperRun layout start calls memory) :
    (∀ v p, mappedAfter calls v = some p → MutablePage v ∧ p.toNat % 4096 = 0) ∧
    (∀ v p, ((stage8bVmmMapPage layout memory v p).1 = true ↔
        v.toNat % 4096 = 0 ∧ p.toNat % 4096 = 0 ∧ (0x400000 ≤ v.toNat ∧ v.toNat < 0x1000000) ∧
        mappedAfter calls v = none) ∧
      ((stage8bVmmMapPage layout memory v p).1 = false →
        (stage8bVmmMapPage layout memory v p).2 = memory)) ∧
    (∀ v, ((stage8bVmmUnmapPage layout memory v).1 = true ↔
        MutablePage v ∧ mappedAfter calls v ≠ none) ∧
      ((stage8bVmmUnmapPage layout memory v).1 = false →
        (stage8bVmmUnmapPage layout memory v).2 = memory)) ∧
    (∀ v, MutablePage v →
      stage8bVmmIsPageMapped layout memory v = (mappedAfter calls v).isSome ∧
      ∀ out, stage8bVmmResolvePageFrame layout memory v (some out) =
        match mappedAfter calls v with
        | some p => (true, some p)
        | none => (false, some out)) ∧
    ∀ addr, hardwareWalk memory layout.earlyPageDirectory addr =
      if addr.toNat < 0x400000 then some addr
      else (mappedAfter calls (stage7aPagingFrameAddr addr)).map
        (· + stage7aPagingPageOffset addr) := by
  have h := refines_of_run run
  refine ⟨h.domain, fun v p => ?_, fun v => ?_, fun v hv => ?_, h.hardwareWalk⟩
  · obtain ⟨hiff, hfail, _⟩ := h.mapPage v p
    refine ⟨hiff.trans ⟨?_, ?_⟩, hfail⟩
    · rintro ⟨⟨ha, hl, hu⟩, hp, hfree⟩
      exact ⟨ha, hp, ⟨hl, hu⟩, hfree⟩
    · rintro ⟨ha, hp, ⟨hl, hu⟩, hfree⟩
      exact ⟨⟨ha, hl, hu⟩, hp, hfree⟩
  · obtain ⟨hiff, hfail, _⟩ := h.unmapPage v
    exact ⟨hiff, hfail⟩
  · exact ⟨h.isPageMapped hv, h.resolve hv⟩

/-- Five static pages in a row, the directory first. -/
def rowLayout : TableLayout where
  earlyPageDirectory := 0x103000
  earlyIdentityPageTable := 0x104000
  mutableReservedPageTables := 0x105000
  directory_aligned := by decide
  identity_aligned := by decide
  reserved_aligned := by decide
  reserved_fits := by decide
  directory_ne_identity := by decide
  directory_clear := by decide
  identity_clear := by decide

/-- The first page of the heap window, mapped to the frame at 2 MiB. -/
theorem page_map_refinement_firstPage :
    hardwareWalk (stage8bVmmMapPage rowLayout
      (stage7bSetupEarlyIdentityPaging rowLayout fun _ _ => 0) 0x400000 0x200000).2
      rowLayout.earlyPageDirectory 0x400123 = some 0x200123 := by
  have hmap := ((page_map_refinement rowLayout (fun _ _ => 0) [] _ .start).2.1
    0x400000 0x200000).1.mpr ⟨by decide, by decide, by decide, rfl⟩
  have hrun := Transition.Execution.single (@MapperStep.map rowLayout
    (stage7bSetupEarlyIdentityPaging rowLayout fun _ _ => 0) 0x400000 0x200000)
  rw [hmap] at hrun
  rw [(page_map_refinement rowLayout (fun _ _ => 0) _ _ hrun).2.2.2.2 0x400123]
  decide

end PageMapRefinement
