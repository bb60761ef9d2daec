import CustomOs.MultibootParser

/-! # Safety and termination of the parser
Every bounds test of the parser adds a size that it has just read to a 32-bit cursor. As long
as no such sum carries, the cursors only move up and stay inside the block; a sum that carries
passes the test and takes a cursor back. -/
namespace ParserSafety

open ByteMemory Loop MemoryMap MultibootParser

variable {memory : Memory} {infoAddr endAddr : UInt32} {s t : ParseState}

/-! ## The condition -/

/-- The sum that moves a cursor from `s` to `t` does not carry. -/
def NoCarryStep (memory : Memory) (s t : ParseState) : Prop :=
  match s.phase, t.phase with
  | .tags cursor, .tags _ | .entries cursor _, .tags _ =>
    cursor.toNat + (alignUp8 (tagLength memory cursor)).toNat < 2 ^ 32
  | .entries cursor entryCursor, .entries _ _ =>
    entryCursor.toNat + (mmapTagEntrySize memory cursor).toNat < 2 ^ 32
  | .tags _, .entries _ _ => True

instance (memory : Memory) (s t : ParseState) : Decidable (NoCarryStep memory s t) := by
  unfold NoCarryStep
  split <;> infer_instance

/-- The tests at a tag do not carry: of its header, and of its size when its entries are read. -/
def NoCarryTag (memory : Memory) (endAddr : UInt32) (s : ParseState) : Prop :=
  match s.phase with
  | .tags cursor => cursor.toNat + 8 < 2 ^ 32 ∧
    (tagType memory cursor = multiboot2TagMmap →
      cursor + tagLength memory cursor ≤ endAddr →
      cursor.toNat + (tagLength memory cursor).toNat < 2 ^ 32)
  | .entries _ _ => True

instance (memory : Memory) (endAddr : UInt32) (s : ParseState) :
    Decidable (NoCarryTag memory endAddr s) := by
  unfold NoCarryTag
  split <;> infer_instance

/-- No sum in a test that the iteration passes carries. -/
def NoCarry (memory : Memory) (endAddr : UInt32) (s : ParseState) : Prop :=
  NoCarryTag memory endAddr s ∧
    match parseIteration memory endAddr s with
    | .next t => NoCarryStep memory s t
    | .leave _ => True

instance (memory : Memory) (endAddr : UInt32) (s : ParseState) :
    Decidable (NoCarry memory endAddr s) := by
  unfold NoCarry
  split <;> infer_instance

/-! ## The start -/

theorem parseStart_ok {start : ParseState} (h : parseStart memory infoAddr = .ok start) :
    (infoEnd memory infoAddr).toNat = infoAddr.toNat + (infoTotalSize memory infoAddr).toNat ∧
      (infoAddr + infoHeaderSize).toNat = infoAddr.toNat + 8 ∧
      infoAddr.toNat + 8 ≤ (infoEnd memory infoAddr).toNat ∧
      start = ⟨.tags (infoAddr + infoHeaderSize), false, stage5ParseTotalsReset,
        stage5bResetBookkeeping, []⟩ := by
  have h8 : infoHeaderSize.toNat = 8 := rfl
  simp only [parseStart] at h
  split_ifs at h with hsmall hover
  have hsize := UInt32.le_iff_toNat_le.mp (UInt32.not_lt.mp hsmall)
  have hend := UInt32.le_iff_toNat_le.mp (UInt32.not_lt.mp hover)
  have hfit : infoAddr.toNat + (infoTotalSize memory infoAddr).toNat < 2 ^ 32 := by
    by_contra hcarry
    have hwrapped := MachineWord.toNat_add32_of_carry (not_lt.mp hcarry)
    have := (infoTotalSize memory infoAddr).toNat_lt
    rw [infoEnd, hwrapped] at hend
    omega
  have hsum : (infoEnd memory infoAddr).toNat =
      infoAddr.toNat + (infoTotalSize memory infoAddr).toNat := MachineWord.toNat_add32 hfit
  refine ⟨hsum, ?_, by omega, ?_⟩
  · rw [MachineWord.toNat_add32 (by omega), h8]
  · injection h with h
    exact h.symm

/-- An invariant of the parse: what the start has and every iteration keeps. -/
theorem parsing_invariant {I : ParseState → Prop} (h : Parsing memory infoAddr s)
    (init : ∀ start, parseStart memory infoAddr = .ok start → I start)
    (step : ∀ u v, Parsing memory infoAddr u → I u →
      parseIteration memory (infoEnd memory infoAddr) u = .next v → I v) : I s := by
  obtain ⟨start, hstart, hvisits⟩ := h
  have hboth := hvisits.invariant (I := fun u => Visits
    (parseIteration memory (infoEnd memory infoAddr)) start u ∧ I u)
    ⟨.here, init start hstart⟩
    fun u v ⟨hu, hi⟩ hb => ⟨hu.next hb, step u v ⟨start, hstart, hu⟩ hi hb⟩
  exact hboth.2

/-! ## Reads -/

/-- The access lies in `[info_addr, info_addr + total_size)`. -/
def InBlock (memory : Memory) (infoAddr : UInt32) (access : Access) : Prop :=
  infoAddr.toNat ≤ access.addr.toNat ∧ access.addr.toNat + access.length ≤
    infoAddr.toNat + (infoTotalSize memory infoAddr).toNat

instance (memory : Memory) (infoAddr : UInt32) (access : Access) :
    Decidable (InBlock memory infoAddr access) :=
  inferInstanceAs (Decidable (_ ∧ _))

/-- The parse makes this access, before it ends or on its endless way. -/
def ReadBy (memory : Memory) (infoAddr : UInt32) (access : Access) : Prop :=
  ∃ s, Parsing memory infoAddr s ∧ (access ∈ s.reads ∨ ∃ outcome,
    parseIteration memory (infoEnd memory infoAddr) s = .leave outcome ∧ access ∈ outcome.reads)

/-- The reads so far are in the block and the cursors stand where the walk has checked. -/
structure Sound (memory : Memory) (infoAddr endAddr : UInt32) (s : ParseState) : Prop where
  reads : ∀ access ∈ s.reads, InBlock memory infoAddr access
  tags : ∀ cursor, s.phase = .tags cursor → infoAddr.toNat ≤ cursor.toNat
  entries : ∀ cursor entryCursor, s.phase = .entries cursor entryCursor →
    infoAddr.toNat ≤ cursor.toNat ∧ cursor.toNat + 16 ≤ entryCursor.toNat ∧
    16 ≤ (tagLength memory cursor).toNat ∧
    cursor.toNat + (tagLength memory cursor).toNat ≤ endAddr.toNat ∧
    24 ≤ (mmapTagEntrySize memory cursor).toNat

theorem inBlock_of_le (hend : endAddr.toNat =
    infoAddr.toNat + (infoTotalSize memory infoAddr).toNat) {addr : UInt32} {length : ℕ}
    (hlow : infoAddr.toNat ≤ addr.toNat) (hup : addr.toNat + length ≤ endAddr.toNat) :
    InBlock memory infoAddr ⟨addr, length⟩ := ⟨hlow, by rw [← hend]; exact hup⟩

theorem mem_read {access : Access} {addr : UInt32} {length : ℕ} :
    access ∈ (s.read addr length).reads ↔ access ∈ s.reads ∨ access = ⟨addr, length⟩ := by
  simp [ParseState.read]

theorem Sound.reads_append (h : Sound memory infoAddr endAddr s) {addr : UInt32} {length : ℕ}
    (haccess : InBlock memory infoAddr ⟨addr, length⟩) :
    ∀ access ∈ (s.read addr length).reads, InBlock memory infoAddr access := by
  intro access hmem
  rcases mem_read.mp hmem with hmem | rfl
  · exact h.reads access hmem
  · exact haccess

/-- The header of a tag that passes the first test without a carry. -/
theorem header_fits {cursor : UInt32} (hcarry : cursor.toNat + 8 < 2 ^ 32)
    (h : cursor + tagSize ≤ endAddr) : cursor.toNat + 8 ≤ endAddr.toNat := by
  have h8 : tagSize.toNat = 8 := rfl
  have hle := UInt32.le_iff_toNat_le.mp h
  rw [MachineWord.toNat_add32 (by rw [h8]; exact hcarry), h8] at hle
  exact hle

theorem sum_fits {a b c : UInt32} (hcarry : a.toNat + b.toNat < 2 ^ 32) (h : a + b ≤ c) :
    a.toNat + b.toNat ≤ c.toNat := by
  have hle := UInt32.le_iff_toNat_le.mp h
  rwa [MachineWord.toNat_add32 hcarry] at hle

theorem field_toNat {cursor : UInt32} (h : cursor.toNat + 16 < 2 ^ 32) :
    (cursor + 8).toNat = cursor.toNat + 8 ∧
      (cursor + mmapTagSize).toNat = cursor.toNat + 16 := by
  have h8 : (8 : UInt32).toNat = 8 := rfl
  have h16 : mmapTagSize.toNat = 16 := rfl
  rw [MachineWord.toNat_add32 (by omega), MachineWord.toNat_add32 (by omega), h8, h16]
  exact ⟨rfl, rfl⟩

/-- One iteration keeps the walk sound. -/
theorem Sound.step (h : Sound memory infoAddr endAddr s)
    (hend : endAddr.toNat = infoAddr.toNat + (infoTotalSize memory infoAddr).toNat)
    (hnocarry : NoCarry memory endAddr s) (hb : parseIteration memory endAddr s = .next t) :
    Sound memory infoAddr endAddr t := by
  have hlt := endAddr.toNat_lt
  obtain ⟨htag, hmove⟩ := hnocarry
  rw [hb] at hmove
  cases parseStep hb with
  | @overTag cursor phase header aligned fits =>
    simp only [NoCarryTag, NoCarryStep, phase] at htag hmove
    have hlow := h.tags cursor phase
    have hheader := header_fits htag.1 header
    refine ⟨h.reads_append (inBlock_of_le hend hlow hheader), ?_, ?_⟩
    · rintro _ ⟨⟩
      rw [MachineWord.toNat_add32 hmove]
      omega
    · rintro _ _ ⟨⟩
  | @intoTag cursor phase header size fits entrySize type =>
    simp only [NoCarryTag, phase] at htag
    have hlow := h.tags cursor phase
    have hheader := header_fits htag.1 header
    have hsum := sum_fits (htag.2 type fits) fits
    have hsize := UInt32.le_iff_toNat_le.mp size
    have hentry := UInt32.le_iff_toNat_le.mp entrySize
    have h16 : mmapTagSize.toNat = 16 := rfl
    have h24 : mmapEntrySize.toNat = 24 := rfl
    obtain ⟨h8, hfirst⟩ := @field_toNat cursor (by omega)
    refine ⟨?_, ?_, ?_⟩
    · intro access hmem
      rcases mem_read.mp hmem with hmem | rfl
      · exact h.reads_append (inBlock_of_le hend hlow hheader) access hmem
      · exact inBlock_of_le hend (by omega) (by omega)
    · rintro _ ⟨⟩
    · rintro _ _ ⟨⟩
      omega
  | @entry cursor entryCursor phase fits =>
    simp only [NoCarryStep, phase] at hmove
    obtain ⟨hlow, hfirst, hsize, hsum, hentry⟩ := h.entries cursor entryCursor phase
    obtain ⟨h8, _⟩ := @field_toNat cursor (by omega)
    have hstop : (cursor + tagLength memory cursor).toNat =
        cursor.toNat + (tagLength memory cursor).toNat := MachineWord.toNat_add32 (by omega)
    have hpast := sum_fits hmove fits
    rw [hstop] at hpast
    refine ⟨?_, ?_, ?_⟩
    · intro access hmem
      rcases mem_read.mp hmem with hmem | rfl
      · exact h.reads_append (inBlock_of_le hend (by omega) (by omega)) access hmem
      · exact inBlock_of_le hend (by omega) (by omega)
    · rintro _ ⟨⟩
    · rintro _ _ ⟨⟩
      rw [MachineWord.toNat_add32 hmove]
      omega
  | @outOfTag cursor entryCursor phase past aligned fits =>
    simp only [NoCarryStep, phase] at hmove
    obtain ⟨hlow, hfirst, hsize, hsum, hentry⟩ := h.entries cursor entryCursor phase
    obtain ⟨h8, _⟩ := @field_toNat cursor (by omega)
    refine ⟨h.reads_append (inBlock_of_le hend (by omega) (by omega)), ?_, ?_⟩
    · rintro _ ⟨⟩
      rw [MachineWord.toNat_add32 hmove]
      omega
    · rintro _ _ ⟨⟩

/-- What an iteration reads before it leaves is in the block. -/
theorem Sound.leave (h : Sound memory infoAddr endAddr s)
    (hend : endAddr.toNat = infoAddr.toNat + (infoTotalSize memory infoAddr).toNat)
    (hnocarry : NoCarry memory endAddr s) {outcome : ParseOutcome}
    (hb : parseIteration memory endAddr s = .leave outcome) :
    ∀ access ∈ outcome.reads, InBlock memory infoAddr access := by
  have hlt := endAddr.toNat_lt
  have htag := hnocarry.1
  cases parseLeave hb with
  | noHeader phase header reads =>
    rw [reads]
    exact h.reads
  | @atHeader cursor _ phase header reads =>
    simp only [NoCarryTag, phase] at htag
    rw [reads]
    exact h.reads_append (inBlock_of_le hend (h.tags cursor phase) (header_fits htag.1 header))
  | @atEntrySize cursor _ phase header size fits type reads =>
    simp only [NoCarryTag, phase] at htag
    have hlow := h.tags cursor phase
    have hheader := header_fits htag.1 header
    have hsum := sum_fits (htag.2 type fits) fits
    have hsize := UInt32.le_iff_toNat_le.mp size
    have h16 : mmapTagSize.toNat = 16 := rfl
    obtain ⟨h8, _⟩ := @field_toNat cursor (by omega)
    rw [reads]
    intro access hmem
    rcases mem_read.mp hmem with hmem | rfl
    · exact h.reads_append (inBlock_of_le hend hlow hheader) access hmem
    · exact inBlock_of_le hend (by omega) (by omega)
  | @afterEntries cursor entryCursor _ phase reads =>
    obtain ⟨hlow, hfirst, hsize, hsum, _⟩ := h.entries cursor entryCursor phase
    obtain ⟨h8, _⟩ := @field_toNat cursor (by omega)
    rw [reads]
    exact h.reads_append (inBlock_of_le hend (by omega) (by omega))

/-- A block at 64 KiB: one memory map tag with one entry, then the end tag. -/
def smallBlock : Memory := fun a =>
  let bytes : List UInt8 := [
    56, 0, 0, 0, 0, 0, 0, 0,
    6, 0, 0, 0, 40, 0, 0, 0, 24, 0, 0, 0, 0, 0, 0, 0,
    0, 0, 0x10, 0, 0, 0, 0, 0, 0, 0, 0xEE, 7, 0, 0, 0, 0, 1, 0, 0, 0, 0, 0, 0, 0,
    0, 0, 0, 0, 8, 0, 0, 0]
  bytes.getD (a - 0x10000).toNat 0

theorem smallBlock_noCarry (s : ParseState) (h : Parsing smallBlock 0x10000 s) :
    NoCarry smallBlock (infoEnd smallBlock 0x10000) s := by
  obtain ⟨start, hstart, hvisits⟩ := h
  obtain rfl := (parseStart_ok hstart).2.2.2
  have hall : visitsAll (parseIteration smallBlock (infoEnd smallBlock 0x10000))
      (fun s => decide (NoCarry smallBlock (infoEnd smallBlock 0x10000) s)) 5
      ⟨.tags (0x10000 + infoHeaderSize), false, stage5ParseTotalsReset,
        stage5bResetBookkeeping, []⟩ = true := by decide +kernel
  have hs := visitsAll_sound hall hvisits
  exact of_decide_eq_true hs

/-- The end tag would stand at 64 KiB + 8, but the tag there is 2^32 - 24 bytes long. -/
def wrappingBlock : Memory := fun a =>
  let bytes : List UInt8 := [24, 0, 0, 0, 0, 0, 0, 0, 1, 0, 0, 0, 0xE8, 0xFF, 0xFF, 0xFF]
  bytes.getD (a - 0x10000).toNat 0

/-- The cursor that moves gets closer to its end: of the block for tags, of the tag for
entries. -/
def Advances (memory : Memory) (endAddr : UInt32) (s t : ParseState) : Prop :=
  match s.phase, t.phase with
  | .tags cursor, .tags cursor' | .entries cursor _, .tags cursor' =>
    cursor < cursor' ∧ cursor' ≤ endAddr
  | .entries cursor entryCursor, .entries cursor' entryCursor' =>
    cursor' = cursor ∧ entryCursor < entryCursor' ∧
      entryCursor' ≤ cursor + tagLength memory cursor
  | .tags cursor, .entries cursor' _ => cursor' = cursor

/-- The parse returns or reaches a panic. -/
def ParseEnds (memory : Memory) (infoAddr : UInt32) : Prop :=
  ∃ fuel result, stage5aParseMmap fuel memory infoAddr = some result

theorem parseEnds_iff : ParseEnds memory infoAddr ↔
    ∀ start, parseStart memory infoAddr = .ok start →
      Halts (parseIteration memory (infoEnd memory infoAddr)) start := by
  simp only [ParseEnds, stage5aParseMmap]
  cases parseStart memory infoAddr with
  | error panic => simp
  | ok start =>
    simp only [Except.ok.injEq, forall_eq', Option.map_eq_some_iff]
    constructor
    · rintro ⟨fuel, _, outcome, hrun, _⟩
      exact ⟨fuel, outcome, hrun⟩
    · rintro ⟨fuel, outcome, hrun⟩
      exact ⟨fuel, _, outcome, hrun, rfl⟩

/-- Entry strides have been checked before the entry walk begins. -/
def StrideChecked (memory : Memory) (s : ParseState) : Prop :=
  ∀ cursor entryCursor, s.phase = .entries cursor entryCursor →
    0 < (mmapTagEntrySize memory cursor).toNat

theorem strideChecked_of_parsing (h : Parsing memory infoAddr s) : StrideChecked memory s := by
  have h24 : mmapEntrySize.toNat = 24 := rfl
  apply parsing_invariant h
  · intro start hstart
    obtain ⟨_, _, _, rfl⟩ := parseStart_ok hstart
    rintro _ _ ⟨⟩
  · intro u v _ hu hb
    cases parseStep hb with
    | overTag phase header aligned fits => rintro _ _ ⟨⟩
    | intoTag phase header size fits entrySize type =>
      rintro _ _ ⟨⟩
      have := UInt32.le_iff_toNat_le.mp entrySize
      omega
    | entry phase fits =>
      rintro _ _ ⟨⟩
      exact hu _ _ phase
    | outOfTag phase past aligned fits => rintro _ _ ⟨⟩

/-- A cursor advances exactly when the sum that moves it does not carry. -/
theorem advances_iff (hstride : StrideChecked memory s)
    (hb : parseIteration memory endAddr s = .next t) :
    Advances memory endAddr s t ↔ NoCarryStep memory s t := by
  cases parseStep hb with
  | overTag phase header aligned fits =>
    simp only [Advances, NoCarryStep, phase]
    rw [MachineWord.lt_add32_iff (MachineWord.ne_zero32_iff.mp aligned)]
    exact and_iff_left fits
  | intoTag phase header size fits entrySize type => simp only [Advances, NoCarryStep, phase]
  | entry phase fits =>
    simp only [Advances, NoCarryStep, phase, true_and]
    rw [MachineWord.lt_add32_iff (hstride _ _ phase)]
    exact and_iff_left fits
  | outOfTag phase past aligned fits =>
    simp only [Advances, NoCarryStep, phase]
    rw [MachineWord.lt_add32_iff (MachineWord.ne_zero32_iff.mp aligned)]
    exact and_iff_left fits

/-- Tags ahead count for more than any number of entries ahead. -/
def remainingWork (s : ParseState) : ℕ :=
  match s.phase with
  | .tags cursor => (2 ^ 32 - cursor.toNat) * 2 ^ 33
  | .entries cursor entryCursor => (2 ^ 32 - cursor.toNat) * 2 ^ 33 - entryCursor.toNat - 1

theorem remainingWork_lt (h : Advances memory endAddr s t) :
    remainingWork t < remainingWork s := by
  have hword : ∀ w : UInt32, w.toNat < 2 ^ 32 := fun w => w.toNat_lt
  cases hs : s.phase with
  | tags cursor =>
    have hc := hword cursor
    cases ht : t.phase with
    | tags cursor' =>
      simp only [Advances, hs, ht] at h
      have hlt := UInt32.lt_iff_toNat_lt.mp h.1
      simp only [remainingWork, hs, ht]
      omega
    | entries cursor' entryCursor' =>
      simp only [Advances, hs, ht] at h
      simp only [remainingWork, hs, ht, h]
      omega
  | entries cursor entryCursor =>
    have hc := hword cursor
    have he := hword entryCursor
    cases ht : t.phase with
    | tags cursor' =>
      simp only [Advances, hs, ht] at h
      have hlt := UInt32.lt_iff_toNat_lt.mp h.1
      simp only [remainingWork, hs, ht]
      omega
    | entries cursor' entryCursor' =>
      simp only [Advances, hs, ht] at h
      have hlt := UInt32.lt_iff_toNat_lt.mp h.2.1
      have he' := hword entryCursor'
      simp only [remainingWork, hs, ht, h.1]
      omega

theorem parser_terminates_iff (memory : Memory) (infoAddr : UInt32) :
    (ParseEnds memory infoAddr ∧ ∀ s t, Parsing memory infoAddr s →
      parseIteration memory (infoEnd memory infoAddr) s = .next t →
      Advances memory (infoEnd memory infoAddr) s t) ↔
    ∀ s t, Parsing memory infoAddr s →
      parseIteration memory (infoEnd memory infoAddr) s = .next t → NoCarryStep memory s t := by
  constructor
  · rintro ⟨_, hall⟩ s t hs hb
    exact (advances_iff (strideChecked_of_parsing hs) hb).mp (hall s t hs hb)
  · intro hall
    have hadvances : ∀ s t, Parsing memory infoAddr s →
        parseIteration memory (infoEnd memory infoAddr) s = .next t →
        Advances memory (infoEnd memory infoAddr) s t := fun s t hs hb =>
      (advances_iff (strideChecked_of_parsing hs) hb).mpr (hall s t hs hb)
    refine ⟨parseEnds_iff.mpr fun start hstart => ?_, hadvances⟩
    apply halts_of_variant (I := Parsing memory infoAddr) (V := remainingWork)
    · intro s t hs hb
      refine ⟨?_, remainingWork_lt (hadvances s t hs hb)⟩
      obtain ⟨first, hfirst, hvisits⟩ := hs
      exact ⟨first, hfirst, hvisits.next hb⟩
    · exact ⟨start, hstart, .here⟩

/-- A tag of 2^32 - 8 bytes takes the cursor back to the info header, whose two words read as a
tag of 8 bytes. -/
def loopingBlock : Memory := fun a =>
  let bytes : List UInt8 := [24, 0, 0, 0, 8, 0, 0, 0, 1, 0, 0, 0, 0xF8, 0xFF, 0xFF, 0xFF]
  bytes.getD (a - 0x10000).toNat 0

theorem loopingBlock_step (s : ParseState) {cursor next : UInt32}
    (hphase : s.phase = .tags cursor)
    (hcursor : cursor = 0x10008 ∧ next = 0x10000 ∨ cursor = 0x10000 ∧ next = 0x10008) :
    ∃ t, parseIteration loopingBlock (infoEnd loopingBlock 0x10000) s = .next t ∧
      t.phase = .tags next := by
  have htests : cursor + tagSize ≤ infoEnd loopingBlock 0x10000 ∧
      ¬ tagLength loopingBlock cursor < tagSize ∧
      ¬ infoEnd loopingBlock 0x10000 < cursor + tagLength loopingBlock cursor ∧
      tagType loopingBlock cursor ≠ multiboot2TagEnd ∧
      tagType loopingBlock cursor ≠ multiboot2TagMmap ∧
      ¬ (alignUp8 (tagLength loopingBlock cursor) = 0 ∨ infoEnd loopingBlock 0x10000 <
        cursor + alignUp8 (tagLength loopingBlock cursor)) ∧
      cursor + alignUp8 (tagLength loopingBlock cursor) = next := by
    rcases hcursor with ⟨rfl, rfl⟩ | ⟨rfl, rfl⟩ <;> decide +kernel
  obtain ⟨hheader, hsize, hfits, hend, hmmap, haligned, hnext⟩ := htests
  refine ⟨{ s.read cursor 8 with
    phase := .tags (cursor + alignUp8 (tagLength loopingBlock cursor)) }, ?_,
    congrArg Phase.tags hnext⟩
  simp only [parseIteration, hphase, tagIteration]
  rw [if_neg (not_not.mpr hheader), if_neg hsize, if_neg hfits, if_neg hend, if_neg hmmap,
    stepOverTag, if_neg haligned]

/-- The two cursors follow each other for ever. -/
theorem parser_terminates_loopingBlock : ¬ ParseEnds loopingBlock 0x10000 := by
  intro hends
  refine not_halts_of_trap (T := fun s : ParseState =>
    s.phase = .tags 0x10008 ∨ s.phase = .tags 0x10000) ?_ (Or.inl rfl)
    (parseEnds_iff.mp hends _ rfl)
  rintro s (hs | hs)
  · obtain ⟨t, ht, hphase⟩ := loopingBlock_step s hs (Or.inl ⟨rfl, rfl⟩)
    exact ⟨t, ht, Or.inr hphase⟩
  · obtain ⟨t, ht, hphase⟩ := loopingBlock_step s hs (Or.inr ⟨rfl, rfl⟩)
    exact ⟨t, ht, Or.inl hphase⟩

end ParserSafety
