import CustomOs.FrameEligibility
import CustomOs.ParserSafety

/-! # Exact decoding of the memory map
A block is described by its tags, and a memory map tag by its entries. Over any memory that holds
such a block the parse returns, and its bookkeeping is what the entries of all memory map tags,
in order, add up to in unbounded arithmetic. -/
namespace MultibootDecoding

open ByteMemory Loop MemoryMap MultibootParser

/-! ## What the entries add up to -/

def available (entry : Multiboot2MmapEntry) : Bool := entry.type = multiboot2MemoryAvailable

/-- Where the entry ends, above `2 ^ 64` or not. -/
def entryEnd (entry : Multiboot2MmapEntry) : ℕ := entry.baseAddr.toNat + entry.length.toNat

/-- The bytes of the entry at or above 1 MiB, if it is available and its end is an address. -/
def policyBytes (entry : Multiboot2MmapEntry) : ℕ :=
  if available entry ∧ entryEnd entry < 2 ^ 64 then
    entryEnd entry - max entry.baseAddr.toNat 0x100000
  else 0

def saturated (n : ℕ) : ℕ := min n (2 ^ 64 - 1)

def rawBytes (p : Multiboot2MmapEntry → Bool) (entries : List Multiboot2MmapEntry) : ℕ :=
  ((entries.filter p).map fun entry => entry.length.toNat).sum

/-- The highest end of an entry with bytes for the policy, zero when there is none. -/
def highestPolicyEnd (entries : List Multiboot2MmapEntry) : ℕ :=
  ((entries.filter fun entry => 0 < policyBytes entry).map entryEnd).foldr max 0

structure Describes (region : Stage5bRegion) (entry : Multiboot2MmapEntry) : Prop where
  base : region.baseAddr = entry.baseAddr
  length : region.length = entry.length
  type : region.multibootType = entry.type
  endAddr : region.endAddr.toNat = saturated (entryEnd entry)
  flags : region.flags = (if available entry then stage5bRegionFlagRawUsable else 0) |||
    if 0 < policyBytes entry then stage5bRegionFlagPolicyUsable else 0

/-- The bookkeeping is that of the entries. -/
structure Decoded (entries : List Multiboot2MmapEntry) (memory : Stage5bMemoryBookkeeping) :
    Prop where
  regions : ∀ i entry, i < 128 → entries[i]? = some entry →
    ∃ region, memory.regions[i]? = some region ∧ Describes region entry
  regionCount : memory.regions.length = min entries.length 128
  dropped : memory.droppedRegions.toNat = entries.length - memory.regions.length
  rawUsable : memory.rawUsableBytes.toNat = saturated (rawBytes available entries)
  rawReserved : memory.rawReservedBytes.toNat = saturated (rawBytes (!available ·) entries)
  policyUsable : memory.policyUsableBytes.toNat = saturated (entries.map policyBytes).sum
  highest : memory.highestUsableEnd.toNat = highestPolicyEnd entries

theorem saturated_add (a b : ℕ) : saturated (saturated a + b) = saturated (a + b) := by
  simp only [saturated]
  omega

theorem addClampU64_saturated (a b : UInt64) :
    (addClampU64 a b).toNat = saturated (a.toNat + b.toNat) := by
  have hmax : uint64Max.toNat = 2 ^ 64 - 1 := rfl
  have ha := a.toNat_lt
  simp only [addClampU64, saturated]
  by_cases hover : a + b < a
  · have := MachineWord.add64_lt_iff.mp hover
    rw [if_pos hover, hmax]
    omega
  · have := MachineWord.add64_lt_iff.not.mp hover
    rw [if_neg hover, MachineWord.toNat_add64 (by omega)]
    omega

theorem regionEnd_saturated (entry : Multiboot2MmapEntry) :
    (stage5bRegionEnd entry).toNat = saturated (entryEnd entry) := by
  have heq : stage5bRegionEnd entry = addClampU64 entry.baseAddr entry.length := by
    simp only [stage5bRegionEnd, checkedAddU64, addClampU64, decide_eq_true_eq]
  rw [heq]
  exact addClampU64_saturated entry.baseAddr entry.length

theorem policyUsableLength_eq (entry : Multiboot2MmapEntry) :
    (stage5bPolicyUsableLength entry.baseAddr entry.length entry.type).toNat =
      policyBytes entry := by
  have hfloor : stage5bPolicyMinAddr.toNat = 0x100000 := rfl
  simp only [stage5bPolicyUsableLength, policyBytes, available, decide_eq_true_eq, entryEnd]
  by_cases htype : entry.type = multiboot2MemoryAvailable
  swap
  · rw [if_pos (Or.inl htype), if_neg fun h => htype h.1]
    rfl
  by_cases hempty : entry.length = 0
  · rw [if_pos (Or.inr hempty)]
    simp only [hempty, UInt64.toNat_zero]
    split_ifs <;> omega
  rw [if_neg (not_or.mpr ⟨not_not.mpr htype, hempty⟩)]
  cases hover : (checkedAddU64 entry.baseAddr entry.length).1 with
  | true =>
    have := (checkedAddU64_fst entry.baseAddr entry.length).mp hover
    rw [if_pos rfl, if_neg (by omega)]
    rfl
  | false =>
    obtain ⟨hsum, hlt⟩ := checkedAddU64_snd hover
    have hcounted := And.intro htype hlt
    rw [if_neg Bool.false_ne_true, if_pos hcounted]
    by_cases hlow : (checkedAddU64 entry.baseAddr entry.length).2 ≤ stage5bPolicyMinAddr
    · have := UInt64.le_iff_toNat_le.mp hlow
      rw [if_pos hlow, UInt64.toNat_zero]
      omega
    have hhigh := UInt64.le_iff_toNat_le.not.mp hlow
    rw [if_neg hlow]
    by_cases hbase : stage5bPolicyMinAddr ≤ entry.baseAddr
    · have := UInt64.le_iff_toNat_le.mp hbase
      rw [if_pos hbase]
      omega
    · have := UInt64.le_iff_toNat_le.not.mp hbase
      rw [if_neg hbase, UInt64.toNat_sub_of_le _ _ (UInt64.le_iff_toNat_le.mpr (by omega))]
      omega

theorem policyUsableLength_pos_iff (entry : Multiboot2MmapEntry) :
    0 < stage5bPolicyUsableLength entry.baseAddr entry.length entry.type ↔
      0 < policyBytes entry := by
  rw [UInt64.lt_iff_toNat_lt, policyUsableLength_eq, UInt64.toNat_zero]

theorem describes_regionOf (entry : Multiboot2MmapEntry) :
    Describes (stage5bRegionOf entry) entry where
  base := rfl
  length := rfl
  type := rfl
  endAddr := regionEnd_saturated entry
  flags := by
    simp only [stage5bRegionOf, policyUsableLength_pos_iff, available, decide_eq_true_eq]

/-! ## The accounts of a whole map -/

theorem accountEntries_append (entries : List Multiboot2MmapEntry) (entry : Multiboot2MmapEntry) :
    stage5bAccountEntries (entries ++ [entry]) =
      stage5bAccountEntry (stage5bAccountEntries entries) entry := by
  simp [stage5bAccountEntries]

theorem recordRegion_dropped (memory : Stage5bMemoryBookkeeping) (region : Stage5bRegion) :
    (stage5bRecordRegion memory region).droppedRegions =
      if stage5bMaxRegions ≤ memory.regions.length then memory.droppedRegions + 1
      else memory.droppedRegions := by
  by_cases hfull : stage5bMaxRegions ≤ memory.regions.length
  · rw [stage5bRecordRegion, if_pos hfull, if_pos hfull]
  · rw [stage5bRecordRegion, if_neg hfull, if_neg hfull]

@[simp] theorem recordRegion_policy (memory : Stage5bMemoryBookkeeping) (region : Stage5bRegion) :
    (stage5bRecordRegion memory region).policyUsableBytes = memory.policyUsableBytes := by
  simp only [stage5bRecordRegion]
  split_ifs <;> rfl

@[simp] theorem recordRegion_highest (memory : Stage5bMemoryBookkeeping) (region : Stage5bRegion) :
    (stage5bRecordRegion memory region).highestUsableEnd = memory.highestUsableEnd := by
  simp only [stage5bRecordRegion]
  split_ifs <;> rfl

theorem accountEntry_dropped (memory : Stage5bMemoryBookkeeping) (entry : Multiboot2MmapEntry) :
    (stage5bAccountEntry memory entry).droppedRegions =
      if stage5bMaxRegions ≤ memory.regions.length then memory.droppedRegions + 1
      else memory.droppedRegions := by
  simp only [stage5bAccountEntry, recordRegion_dropped]
  split_ifs <;> rfl

theorem accountEntry_policy (memory : Stage5bMemoryBookkeeping) (entry : Multiboot2MmapEntry) :
    (stage5bAccountEntry memory entry).policyUsableBytes.toNat =
      saturated (memory.policyUsableBytes.toNat + policyBytes entry) := by
  have hword := memory.policyUsableBytes.toNat_lt
  simp only [stage5bAccountEntry, recordRegion_policy]
  by_cases husable : 0 < stage5bPolicyUsableLength entry.baseAddr entry.length entry.type
  · rw [if_pos husable, addClampU64_saturated, policyUsableLength_eq]
  · have hnone := (policyUsableLength_pos_iff entry).not.mp husable
    rw [if_neg husable, saturated]
    omega

theorem entryEnd_lt {entry : Multiboot2MmapEntry} (h : 0 < policyBytes entry) :
    entryEnd entry < 2 ^ 64 := by
  rw [policyBytes] at h
  split_ifs at h with hcounted
  · exact hcounted.2
  · omega

theorem accountEntry_highest (memory : Stage5bMemoryBookkeeping) (entry : Multiboot2MmapEntry) :
    (stage5bAccountEntry memory entry).highestUsableEnd.toNat =
      if 0 < policyBytes entry then max memory.highestUsableEnd.toNat (entryEnd entry)
      else memory.highestUsableEnd.toNat := by
  simp only [stage5bAccountEntry, recordRegion_highest]
  by_cases husable : 0 < stage5bPolicyUsableLength entry.baseAddr entry.length entry.type
  · have hpos := (policyUsableLength_pos_iff entry).mp husable
    have hend : (stage5bRegionEnd entry).toNat = entryEnd entry := by
      have := entryEnd_lt hpos
      rw [regionEnd_saturated, saturated]
      omega
    rw [if_pos husable, if_pos hpos]
    by_cases hhigher : memory.highestUsableEnd < stage5bRegionEnd entry
    · have := UInt64.lt_iff_toNat_lt.mp hhigher
      simp only [if_pos hhigher, hend]
      omega
    · have := UInt64.lt_iff_toNat_lt.not.mp hhigher
      simp only [if_neg hhigher]
      omega
  · rw [if_neg husable, if_neg ((policyUsableLength_pos_iff entry).not.mp husable)]

theorem accountEntries_dropped {entries : List Multiboot2MmapEntry}
    (h : entries.length < 2 ^ 32) :
    (stage5bAccountEntries entries).droppedRegions.toNat = entries.length - 128 := by
  induction entries using List.reverseRecOn with
  | nil => rfl
  | append_singleton entries entry ih =>
    rw [List.length_append, List.length_singleton] at h ⊢
    have ih := ih (by omega)
    have hcount : (stage5bAccountEntries entries).regions.length = min 128 entries.length := by
      rw [FrameEligibility.accountEntries_regions, List.length_take, List.length_map]
    have hone : (1 : UInt32).toNat = 1 := rfl
    have hmax : stage5bMaxRegions = 128 := rfl
    rw [accountEntries_append, accountEntry_dropped, hcount]
    split_ifs with hfull
    · rw [MachineWord.toNat_add32 (by omega)]
      omega
    · omega

theorem accountEntries_policy (entries : List Multiboot2MmapEntry) :
    (stage5bAccountEntries entries).policyUsableBytes.toNat =
      saturated (entries.map policyBytes).sum := by
  induction entries using List.reverseRecOn with
  | nil => rfl
  | append_singleton entries entry ih =>
    rw [accountEntries_append, accountEntry_policy, ih, saturated_add, List.map_append,
      List.sum_append, List.map_singleton, List.sum_singleton]

theorem foldr_max_append (xs : List ℕ) (x : ℕ) :
    (xs ++ [x]).foldr max 0 = max (xs.foldr max 0) x := by
  induction xs with
  | nil => simp
  | cons y xs ih => rw [List.cons_append, List.foldr_cons, List.foldr_cons, ih, max_assoc]

theorem highestPolicyEnd_concat (entries : List Multiboot2MmapEntry) (entry : Multiboot2MmapEntry) :
    highestPolicyEnd (entries ++ [entry]) =
      if 0 < policyBytes entry then max (highestPolicyEnd entries) (entryEnd entry)
      else highestPolicyEnd entries := by
  rw [highestPolicyEnd, highestPolicyEnd, List.filter_append, List.map_append]
  by_cases hpos : 0 < policyBytes entry
  · rw [if_pos hpos, List.filter_cons_of_pos (by simpa using hpos), List.filter_nil,
      List.map_singleton, foldr_max_append]
  · rw [if_neg hpos, List.filter_cons_of_neg (by simpa using hpos), List.filter_nil,
      List.map_nil, List.append_nil]

theorem accountEntries_highest (entries : List Multiboot2MmapEntry) :
    (stage5bAccountEntries entries).highestUsableEnd.toNat = highestPolicyEnd entries := by
  induction entries using List.reverseRecOn with
  | nil => rfl
  | append_singleton entries entry ih =>
    rw [accountEntries_append, accountEntry_highest, ih, highestPolicyEnd_concat]

theorem rawBytes_append (p : Multiboot2MmapEntry → Bool) (entries : List Multiboot2MmapEntry)
    (entry : Multiboot2MmapEntry) :
    rawBytes p (entries ++ [entry]) =
      rawBytes p entries + if p entry then entry.length.toNat else 0 := by
  rw [rawBytes, rawBytes, List.filter_append, List.map_append, List.sum_append]
  cases hp : p entry with
  | true => simp [hp]
  | false => simp [hp]

theorem totals_raw (entries : List Multiboot2MmapEntry) :
    (entries.foldl accountTotals stage5ParseTotalsReset).rawUsableBytes.toNat =
      saturated (rawBytes available entries) ∧
    (entries.foldl accountTotals stage5ParseTotalsReset).rawReservedBytes.toNat =
      saturated (rawBytes (!available ·) entries) := by
  induction entries using List.reverseRecOn with
  | nil => exact ⟨rfl, rfl⟩
  | append_singleton entries entry ih =>
    obtain ⟨husable, hreserved⟩ := ih
    rw [List.foldl_append, List.foldl_cons, List.foldl_nil, accountTotals, rawBytes_append,
      rawBytes_append]
    by_cases htype : entry.type = multiboot2MemoryAvailable
    · have hp : available entry = true := decide_eq_true htype
      simp only [htype, if_true, hp, Bool.not_true, Bool.false_eq_true, if_false, Nat.add_zero,
        addClampU64_saturated, husable, hreserved, saturated_add, and_self]
    · have hp : available entry = false := decide_eq_false htype
      simp only [htype, hp, Bool.not_false, Bool.false_eq_true, if_false, if_true, Nat.add_zero,
        addClampU64_saturated, husable, hreserved, saturated_add, and_self]

/-- The bookkeeping the parse leaves after these entries. -/
def decodedBookkeeping (entries : List Multiboot2MmapEntry) : Stage5bMemoryBookkeeping :=
  { stage5bAccountEntries entries with
    rawUsableBytes := (entries.foldl accountTotals stage5ParseTotalsReset).rawUsableBytes
    rawReservedBytes := (entries.foldl accountTotals stage5ParseTotalsReset).rawReservedBytes }

theorem decodedBookkeeping_decoded {entries : List Multiboot2MmapEntry}
    (h : entries.length < 2 ^ 32) : Decoded entries (decodedBookkeeping entries) := by
  have hregions := FrameEligibility.accountEntries_regions entries
  have hcount : (stage5bAccountEntries entries).regions.length = min entries.length 128 := by
    rw [hregions, List.length_take, List.length_map, min_comm]
  obtain ⟨husable, hreserved⟩ := totals_raw entries
  refine ⟨?_, hcount, ?_, husable, hreserved, accountEntries_policy entries,
    accountEntries_highest entries⟩
  · intro i entry hi hentry
    refine ⟨stage5bRegionOf entry, ?_, describes_regionOf entry⟩
    simp only [decodedBookkeeping, hregions]
    rw [List.getElem?_take_of_lt hi, List.getElem?_map, hentry, Option.map_some]
  · simp only [decodedBookkeeping, accountEntries_dropped h, hcount]
    omega

/-! ## Blocks -/

/-- A memory map tag: its entries, each in a stride of `entrySize`, and what is left of the tag
behind the last stride. -/
structure MmapTag where
  entrySize : ℕ
  entries : List Multiboot2MmapEntry
  tail : ℕ
  stride : 24 ≤ entrySize
  short : tail < entrySize

inductive BlockTag where
  | other (type : UInt32) (size : ℕ)
      (foreign : type ≠ multiboot2TagEnd ∧ type ≠ multiboot2TagMmap) (header : 8 ≤ size)
  | mmap (tag : MmapTag)

def BlockTag.size : BlockTag → ℕ
  | .other _ size _ _ => size
  | .mmap tag => 16 + tag.entries.length * tag.entrySize + tag.tail

def BlockTag.extent (tag : BlockTag) : ℕ := (tag.size + 7) / 8 * 8

def BlockTag.entries : BlockTag → List Multiboot2MmapEntry
  | .other _ _ _ _ => []
  | .mmap tag => tag.entries

def BlockTag.isMmap : BlockTag → Bool
  | .other _ _ _ _ => false
  | .mmap _ => true

def tagsExtent (tags : List BlockTag) : ℕ := (tags.map BlockTag.extent).sum

/-- The entries stand in memory from `a` on, one in every stride. -/
def EntriesAt (memory : Memory) (entrySize : ℕ) : ℕ → List Multiboot2MmapEntry → Prop
  | _, [] => True
  | a, entry :: entries =>
    entryAt memory (UInt32.ofNat a) = entry ∧ EntriesAt memory entrySize (a + entrySize) entries

def BlockTag.At (memory : Memory) (a : ℕ) : BlockTag → Prop
  | .other type size _ _ => tagType memory (UInt32.ofNat a) = type ∧
    (tagLength memory (UInt32.ofNat a)).toNat = size
  | .mmap tag => tagType memory (UInt32.ofNat a) = multiboot2TagMmap ∧
    (tagLength memory (UInt32.ofNat a)).toNat = (BlockTag.mmap tag).size ∧
    (mmapTagEntrySize memory (UInt32.ofNat a)).toNat = tag.entrySize ∧
    EntriesAt memory tag.entrySize (a + 16) tag.entries

/-- The tags stand in memory from `a` on, with the end tag behind them. -/
def TagsAt (memory : Memory) : ℕ → List BlockTag → Prop
  | a, [] => tagType memory (UInt32.ofNat a) = multiboot2TagEnd ∧
    tagLength memory (UInt32.ofNat a) = 8
  | a, tag :: tags => tag.At memory a ∧ TagsAt memory (a + tag.extent) tags

structure WellFormedBlock (memory : Memory) (infoAddr : UInt32) (tags : List BlockTag) :
    Prop where
  tags_at : TagsAt memory (infoAddr.toNat + 8) tags
  covered : 8 + tagsExtent tags + 8 ≤ (infoTotalSize memory infoAddr).toNat
  mmap : ∃ tag, .mmap tag ∈ tags
  fits : ∀ tag, .mmap tag ∈ tags →
    infoAddr.toNat + (infoTotalSize memory infoAddr).toNat + tag.entrySize < 2 ^ 32

/-! ## The walk -/

section Walk

variable {memory : Memory} {endAddr : UInt32} {s t u : ParseState} {a : ℕ}

theorem ofNat_add_word (a : ℕ) (w : UInt32) :
    UInt32.ofNat a + w = UInt32.ofNat (a + w.toNat) := by
  rw [UInt32.ofNat_add, UInt32.ofNat_toNat]

theorem ofNat_le_iff {w : UInt32} (h : a < 2 ^ 32) : UInt32.ofNat a ≤ w ↔ a ≤ w.toNat := by
  rw [UInt32.le_iff_toNat_le, UInt32.toNat_ofNat', Nat.mod_eq_of_lt h]

theorem lt_ofNat_iff {w : UInt32} (h : a < 2 ^ 32) : w < UInt32.ofNat a ↔ w.toNat < a := by
  rw [UInt32.lt_iff_toNat_lt, UInt32.toNat_ofNat', Nat.mod_eq_of_lt h]

theorem alignUp8_toNat {v : UInt32} (h : (v.toNat + 7) / 8 * 8 < 2 ^ 32) :
    (alignUp8 v).toNat = (v.toNat + 7) / 8 * 8 := by
  have h7 : (7 : UInt32).toNat = 7 := rfl
  rw [alignUp8, MachineWord.and_not_mask32 (v + 7) 3 (by decide) rfl,
    MachineWord.toNat_add32 (by omega), h7]
  rfl

/-- From `s` the walk gets to this phase, and has accounted these entries on its way. -/
structure Reaches (memory : Memory) (endAddr : UInt32) (s t : ParseState) (phase : Phase)
    (entries : List Multiboot2MmapEntry) (mmap : Bool) : Prop where
  visits : Visits (parseIteration memory endAddr) s t
  phase_eq : t.phase = phase
  totals : t.totals = entries.foldl accountTotals s.totals
  account : t.memory = entries.foldl stage5bAccountEntry s.memory
  foundMmap : t.foundMmap = (s.foundMmap || mmap)

theorem Reaches.trans {phase phase' : Phase} {entries entries' : List Multiboot2MmapEntry}
    {mmap mmap' : Bool} (h : Reaches memory endAddr s t phase entries mmap)
    (k : Reaches memory endAddr t u phase' entries' mmap') :
    Reaches memory endAddr s u phase' (entries ++ entries') (mmap || mmap') where
  visits := h.visits.trans k.visits
  phase_eq := k.phase_eq
  totals := by rw [k.totals, h.totals, List.foldl_append]
  account := by rw [k.account, h.account, List.foldl_append]
  foundMmap := by rw [k.foundMmap, h.foundMmap, Bool.or_assoc]

/-- The end of a tag with something behind it. -/
theorem stepOverTag_eq {size : ℕ} (hlength : (tagLength memory (UInt32.ofNat a)).toNat = size)
    (hpos : 8 ≤ size) (hend : a + (size + 7) / 8 * 8 ≤ endAddr.toNat) :
    stepOverTag memory endAddr s (UInt32.ofNat a) =
      .next { s with phase := .tags (UInt32.ofNat (a + (size + 7) / 8 * 8)) } := by
  have hlt := endAddr.toNat_lt
  have halign : (alignUp8 (tagLength memory (UInt32.ofNat a))).toNat = (size + 7) / 8 * 8 := by
    rw [alignUp8_toNat (by omega), hlength]
  have hnext : UInt32.ofNat a + alignUp8 (tagLength memory (UInt32.ofNat a)) =
      UInt32.ofNat (a + (size + 7) / 8 * 8) := by rw [ofNat_add_word, halign]
  have hgood : ¬ (alignUp8 (tagLength memory (UInt32.ofNat a)) = 0 ∨
      endAddr < UInt32.ofNat (a + (size + 7) / 8 * 8)) := by
    rw [lt_ofNat_iff (by omega), not_or]
    refine ⟨fun hzero => ?_, by omega⟩
    rw [hzero, UInt32.toNat_zero] at halign
    omega
  simp only [stepOverTag, hnext]
  rw [if_neg hgood]

/-- The tests every tag of a block passes. -/
theorem tag_header {size : ℕ} (hlength : (tagLength memory (UInt32.ofNat a)).toNat = size)
    (hpos : 8 ≤ size) (hend : a + size ≤ endAddr.toNat) :
    UInt32.ofNat a + tagSize ≤ endAddr ∧ ¬ tagLength memory (UInt32.ofNat a) < tagSize ∧
      ¬ endAddr < UInt32.ofNat a + tagLength memory (UInt32.ofNat a) := by
  have hlt := endAddr.toNat_lt
  have h8 : tagSize.toNat = 8 := rfl
  refine ⟨?_, ?_, ?_⟩
  · rw [ofNat_add_word, h8, ofNat_le_iff (by omega)]
    omega
  · rw [UInt32.lt_iff_toNat_lt, hlength, h8]
    omega
  · rw [ofNat_add_word, hlength, lt_ofNat_iff (by omega)]
    omega

theorem other_reaches {type : UInt32} {size : ℕ}
    {foreign : type ≠ multiboot2TagEnd ∧ type ≠ multiboot2TagMmap} {header : 8 ≤ size}
    (hphase : s.phase = .tags (UInt32.ofNat a))
    (hat : (BlockTag.other type size foreign header).At memory a)
    (hend : a + (size + 7) / 8 * 8 ≤ endAddr.toNat) :
    ∃ t, Reaches memory endAddr s t (.tags (UInt32.ofNat (a + (size + 7) / 8 * 8))) [] false := by
  obtain ⟨htype, hlength⟩ := hat
  have hfit : a + size ≤ endAddr.toNat := by omega
  obtain ⟨hheader, hsize, hfits⟩ := tag_header hlength header hfit
  refine ⟨{ s.read (UInt32.ofNat a) 8 with
    phase := .tags (UInt32.ofNat (a + (size + 7) / 8 * 8)) },
    Visits.here.next ?_, rfl, rfl, rfl, by simp [ParseState.read]⟩
  simp only [parseIteration, hphase, tagIteration]
  rw [if_neg (not_not.mpr hheader), if_neg hsize, if_neg hfits, if_neg (htype ▸ foreign.1),
    if_neg (htype ▸ foreign.2), stepOverTag_eq hlength header hend]

/-- The entry walk, from the entry at `e` on, by induction on the entries ahead. -/
theorem entries_reaches {size entrySize e : ℕ} {entries : List Multiboot2MmapEntry}
    (hphase : s.phase = .entries (UInt32.ofNat a) (UInt32.ofNat e))
    (hlength : (tagLength memory (UInt32.ofNat a)).toNat = size)
    (hstride : (mmapTagEntrySize memory (UInt32.ofNat a)).toNat = entrySize)
    (hat : EntriesAt memory entrySize e entries)
    (hroom : e + entries.length * entrySize ≤ a + size) (hfit : a + size + entrySize < 2 ^ 32) :
    ∃ t, Reaches memory endAddr s t (.entries (UInt32.ofNat a)
      (UInt32.ofNat (e + entries.length * entrySize))) entries false := by
  induction entries generalizing s e with
  | nil =>
    rw [List.length_nil, Nat.zero_mul, Nat.add_zero]
    exact ⟨s, .here, hphase, rfl, rfl, by simp⟩
  | cons entry entries ih =>
    obtain ⟨hentry, hat⟩ := hat
    rw [List.length_cons, Nat.succ_mul] at hroom ⊢
    have hnext : UInt32.ofNat e + mmapTagEntrySize memory (UInt32.ofNat a) =
        UInt32.ofNat (e + entrySize) := by rw [ofNat_add_word, hstride]
    have htest : UInt32.ofNat e + mmapTagEntrySize memory (UInt32.ofNat a) ≤
        UInt32.ofNat a + tagLength memory (UInt32.ofNat a) := by
      rw [hnext, ofNat_add_word, hlength, UInt32.le_iff_toNat_le, UInt32.toNat_ofNat',
        UInt32.toNat_ofNat']
      omega
    obtain ⟨t, h⟩ := @ih { s with
        phase := .entries (UInt32.ofNat a) (UInt32.ofNat (e + entrySize))
        totals := accountTotals s.totals entry
        memory := stage5bAccountEntry s.memory entry
        reads := ((s.read (UInt32.ofNat a + 8) 4).read (UInt32.ofNat e) 24).reads }
      (e + entrySize) rfl hat (by omega)
    have hsum : e + entrySize + entries.length * entrySize =
        e + (entries.length * entrySize + entrySize) := by omega
    rw [hsum] at h
    refine ⟨t, Visits.head ?_ h.visits, h.phase_eq, h.totals, h.account, h.foundMmap⟩
    simp only [parseIteration, hphase, entryIteration]
    rw [if_pos htest, hentry, hnext]
    rfl

/-- Into a memory map tag, past the checks of its two sizes. -/
theorem mmap_enter {size : ℕ} (hphase : s.phase = .tags (UInt32.ofNat a))
    (htype : tagType memory (UInt32.ofNat a) = multiboot2TagMmap)
    (hlength : (tagLength memory (UInt32.ofNat a)).toNat = size) (hsize : 16 ≤ size)
    (hstride : 24 ≤ (mmapTagEntrySize memory (UInt32.ofNat a)).toNat)
    (hend : a + size ≤ endAddr.toNat) :
    ∃ t, Reaches memory endAddr s t
      (.entries (UInt32.ofNat a) (UInt32.ofNat (a + 16))) [] true := by
  have h16 : mmapTagSize.toNat = 16 := rfl
  have h24 : mmapEntrySize.toNat = 24 := rfl
  have hpos : 8 ≤ size := by omega
  obtain ⟨hheader, hlong, hfits⟩ := tag_header hlength hpos hend
  have hforeign : ¬ tagType memory (UInt32.ofNat a) = multiboot2TagEnd := by
    rw [htype]
    decide
  have hshort : ¬ tagLength memory (UInt32.ofNat a) < mmapTagSize := by
    rw [UInt32.lt_iff_toNat_lt]
    omega
  have hwide : ¬ mmapTagEntrySize memory (UInt32.ofNat a) < mmapEntrySize := by
    rw [UInt32.lt_iff_toNat_lt]
    omega
  have hfirst : UInt32.ofNat a + mmapTagSize = UInt32.ofNat (a + 16) := by
    rw [ofNat_add_word, h16]
  refine ⟨{ (s.read (UInt32.ofNat a) 8).read (UInt32.ofNat a + 8) 4 with
    phase := .entries (UInt32.ofNat a) (UInt32.ofNat (a + 16)), foundMmap := true },
    Visits.here.next ?_, rfl, rfl, rfl, by simp⟩
  simp only [parseIteration, hphase, tagIteration]
  rw [if_neg (not_not.mpr hheader), if_neg hlong, if_neg hfits, if_neg hforeign, if_pos htype,
    if_neg hshort, if_neg hwide, hfirst]
  rfl

/-- Out of a memory map tag, where the next entry would not fit. -/
theorem mmap_leave {size e : ℕ}
    (hphase : s.phase = .entries (UInt32.ofNat a) (UInt32.ofNat e))
    (hlength : (tagLength memory (UInt32.ofNat a)).toNat = size) (hsize : 8 ≤ size)
    (hpast : a + size < e + (mmapTagEntrySize memory (UInt32.ofNat a)).toNat)
    (hword : e + (mmapTagEntrySize memory (UInt32.ofNat a)).toNat < 2 ^ 32)
    (hend : a + (size + 7) / 8 * 8 ≤ endAddr.toNat) :
    ∃ t, Reaches memory endAddr s t (.tags (UInt32.ofNat (a + (size + 7) / 8 * 8))) [] false := by
  have htest : ¬ UInt32.ofNat e + mmapTagEntrySize memory (UInt32.ofNat a) ≤
      UInt32.ofNat a + tagLength memory (UInt32.ofNat a) := by
    rw [ofNat_add_word, ofNat_add_word, hlength, UInt32.le_iff_toNat_le, UInt32.toNat_ofNat',
      UInt32.toNat_ofNat']
    omega
  refine ⟨{ s.read (UInt32.ofNat a + 8) 4 with
    phase := .tags (UInt32.ofNat (a + (size + 7) / 8 * 8)) },
    Visits.here.next ?_, rfl, rfl, rfl, by simp [ParseState.read]⟩
  simp only [parseIteration, hphase, entryIteration]
  rw [if_neg htest, stepOverTag_eq hlength hsize hend]

theorem mmap_reaches {tag : MmapTag} (hphase : s.phase = .tags (UInt32.ofNat a))
    (hat : (BlockTag.mmap tag).At memory a)
    (hend : a + (BlockTag.mmap tag).extent ≤ endAddr.toNat)
    (hfit : endAddr.toNat + tag.entrySize < 2 ^ 32) :
    ∃ t, Reaches memory endAddr s t
      (.tags (UInt32.ofNat (a + (BlockTag.mmap tag).extent))) tag.entries true := by
  obtain ⟨htype, hlength, hstride, hentries⟩ := hat
  have hshort := tag.short
  have hwide := tag.stride
  have hsize : (BlockTag.mmap tag).size =
      16 + tag.entries.length * tag.entrySize + tag.tail := rfl
  rw [BlockTag.extent] at hend ⊢
  generalize (BlockTag.mmap tag).size = size at hlength hsize hend ⊢
  obtain ⟨t, henter⟩ := mmap_enter (s := s) hphase htype hlength (by omega) (by omega)
    (show a + size ≤ endAddr.toNat by omega)
  obtain ⟨u, hwalk⟩ := entries_reaches henter.phase_eq hlength hstride hentries (by omega)
    (by omega)
  obtain ⟨v, hleave⟩ := mmap_leave hwalk.phase_eq hlength (by omega) (by omega) (by omega) hend
  refine ⟨v, ?_⟩
  have hreaches := (henter.trans hwalk).trans hleave
  rwa [List.nil_append, List.append_nil, Bool.or_false, Bool.or_false] at hreaches

theorem tag_reaches {tag : BlockTag} (hphase : s.phase = .tags (UInt32.ofNat a))
    (hat : tag.At memory a) (hend : a + tag.extent ≤ endAddr.toNat)
    (hfit : ∀ mmap, tag = .mmap mmap → endAddr.toNat + mmap.entrySize < 2 ^ 32) :
    ∃ t, Reaches memory endAddr s t (.tags (UInt32.ofNat (a + tag.extent))) tag.entries
      tag.isMmap := by
  cases tag with
  | other type size foreign header => exact other_reaches hphase hat hend
  | mmap tag => exact mmap_reaches hphase hat hend (hfit tag rfl)

/-- The tag walk up to the end tag, by induction on the tags ahead. -/
theorem tags_reach {tags : List BlockTag} (hphase : s.phase = .tags (UInt32.ofNat a))
    (hat : TagsAt memory a tags) (hend : a + tagsExtent tags ≤ endAddr.toNat)
    (hfit : ∀ tag, .mmap tag ∈ tags → endAddr.toNat + tag.entrySize < 2 ^ 32) :
    ∃ t, Reaches memory endAddr s t (.tags (UInt32.ofNat (a + tagsExtent tags)))
      (tags.flatMap BlockTag.entries) (tags.any BlockTag.isMmap) ∧
      TagsAt memory (a + tagsExtent tags) [] := by
  induction tags generalizing s a with
  | nil =>
    refine ⟨s, ⟨.here, ?_, rfl, rfl, by simp⟩, ?_⟩
    · simpa [tagsExtent] using hphase
    · simpa [tagsExtent] using hat
  | cons tag tags ih =>
    obtain ⟨hfirst, hrest⟩ := hat
    have hextent : tagsExtent (tag :: tags) = tag.extent + tagsExtent tags := by
      rw [tagsExtent, List.map_cons, List.sum_cons, tagsExtent]
    rw [hextent] at hend ⊢
    obtain ⟨t, hstep⟩ := tag_reaches hphase hfirst (by omega)
      fun mmap heq => hfit mmap (heq ▸ List.mem_cons_self)
    obtain ⟨u, hwalk, hstop⟩ := ih hstep.phase_eq hrest (by omega)
      fun mmap hmem => hfit mmap (List.mem_cons_of_mem _ hmem)
    rw [← Nat.add_assoc]
    exact ⟨u, hstep.trans hwalk, hstop⟩

/-- The end tag ends the walk. -/
theorem end_leaves (hphase : s.phase = .tags (UInt32.ofNat a)) (hat : TagsAt memory a [])
    (hend : a + 8 ≤ endAddr.toNat) :
    parseIteration memory endAddr s = .leave (s.read (UInt32.ofNat a) 8).finish := by
  obtain ⟨htype, hlength⟩ := hat
  have hsize : (tagLength memory (UInt32.ofNat a)).toNat = 8 := by rw [hlength]; rfl
  obtain ⟨hheader, hlong, hfits⟩ := tag_header hsize le_rfl hend
  simp only [parseIteration, hphase, tagIteration]
  rw [if_neg (not_not.mpr hheader), if_neg hlong, if_neg hfits, if_pos htype,
    if_neg (not_not.mpr hlength)]

end Walk

/-- Entries take up at least 24 bytes each. -/
theorem entries_length_le (tags : List BlockTag) :
    24 * (tags.flatMap BlockTag.entries).length ≤ tagsExtent tags := by
  induction tags with
  | nil => exact Nat.zero_le _
  | cons tag tags ih =>
    have hfirst : 24 * tag.entries.length ≤ tag.extent := by
      cases tag with
      | other type size foreign header => exact Nat.zero_le _
      | mmap tag =>
        have hwide : 24 * tag.entries.length ≤ tag.entries.length * tag.entrySize := by
          rw [Nat.mul_comm]
          exact Nat.mul_le_mul_left _ tag.stride
        simp only [BlockTag.entries, BlockTag.extent, BlockTag.size]
        omega
    rw [List.flatMap_cons, List.length_append, tagsExtent, List.map_cons, List.sum_cons]
    rw [tagsExtent] at ih
    omega

theorem mmap_decoding_exact (memory : Memory) (infoAddr : UInt32) (tags : List BlockTag)
    (h : WellFormedBlock memory infoAddr tags) :
    ∃ fuel bookkeeping, stage5aParseMmap fuel memory infoAddr = some (.ok bookkeeping) ∧
      Decoded (tags.flatMap BlockTag.entries) bookkeeping := by
  obtain ⟨mmap, hmmap⟩ := h.mmap
  have hcovered := h.covered
  have hfits := h.fits mmap hmmap
  have h8 : infoHeaderSize.toNat = 8 := rfl
  have hend : (infoEnd memory infoAddr).toNat =
      infoAddr.toNat + (infoTotalSize memory infoAddr).toNat := MachineWord.toNat_add32 (by omega)
  have hlarge : ¬ infoTotalSize memory infoAddr < infoHeaderSize := by
    rw [UInt32.lt_iff_toNat_lt]
    omega
  have hover : ¬ infoEnd memory infoAddr < infoAddr := by
    rw [UInt32.lt_iff_toNat_lt]
    omega
  have hfirst : infoAddr + infoHeaderSize = UInt32.ofNat (infoAddr.toNat + 8) := by
    rw [← h8, UInt32.ofNat_add, UInt32.ofNat_toNat, UInt32.ofNat_toNat]
  have hroom : infoAddr.toNat + 8 + tagsExtent tags + 8 ≤ (infoEnd memory infoAddr).toNat := by
    omega
  have hstrides : ∀ tag, .mmap tag ∈ tags →
      (infoEnd memory infoAddr).toNat + tag.entrySize < 2 ^ 32 := by
    rw [hend]
    exact h.fits
  obtain ⟨t, hreach, hstop⟩ := tags_reach
    (s := ⟨.tags (infoAddr + infoHeaderSize), false, stage5ParseTotalsReset,
      stage5bResetBookkeeping, []⟩)
    (congrArg Phase.tags hfirst) h.tags_at (le_trans (Nat.le_add_right _ 8) hroom) hstrides
  have hfound : t.foundMmap = true := by
    rw [hreach.foundMmap, Bool.false_or]
    exact List.any_eq_true.mpr ⟨_, hmmap, rfl⟩
  have hleave := end_leaves hreach.phase_eq hstop hroom
  obtain ⟨fuel, hrun⟩ := hreach.visits.run (run_leave hleave 0)
  have hcount := entries_length_le tags
  refine ⟨fuel, decodedBookkeeping (tags.flatMap BlockTag.entries), ?_,
    decodedBookkeeping_decoded (by omega)⟩
  have hresult : (t.read (UInt32.ofNat (infoAddr.toNat + 8 + tagsExtent tags)) 8).finish.result =
      .ok (decodedBookkeeping (tags.flatMap BlockTag.entries)) := by
    simp only [ParseState.finish, ParseState.read, hfound, Bool.true_eq_false, if_false,
      hreach.totals, hreach.account, decodedBookkeeping, stage5bAccountEntries]
  simp only [stage5aParseMmap, parseStart]
  rw [if_neg hlarge, if_neg hover]
  simp only [hrun, Option.map_some, hresult]

theorem mmap_decoding_exact_smallBlock :
    ∃ fuel bookkeeping, stage5aParseMmap fuel ParserSafety.smallBlock 0x10000 =
        some (.ok bookkeeping) ∧ Decoded [⟨0x100000, 0x7EE0000, 1, 0⟩] bookkeeping := by
  have hat : TagsAt ParserSafety.smallBlock ((0x10000 : UInt32).toNat + 8)
      [.mmap ⟨24, [⟨0x100000, 0x7EE0000, 1, 0⟩], 0, by decide, by decide⟩] := by
    refine ⟨⟨?_, ?_, ?_, ?_, trivial⟩, ?_, ?_⟩ <;> decide +kernel
  refine mmap_decoding_exact _ _ _ ⟨hat, by decide +kernel, ⟨_, List.mem_singleton_self _⟩, ?_⟩
  intro tag hmem
  obtain rfl := BlockTag.mmap.inj (List.mem_singleton.mp hmem)
  decide +kernel

end MultibootDecoding
