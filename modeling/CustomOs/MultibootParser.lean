import CustomOs.Library.ByteMemory
import CustomOs.Library.Loop
import CustomOs.MemoryMap

/-! # Multiboot2 parser (Stage 5A)
The tag walk and the entry walk inside it are one loop over a phase: at a tag, or at an entry
of the tag. Every iteration records what it reads of the block. Addresses are 32-bit words, as
`uintptr_t` is on this machine. -/
namespace MultibootParser

open ByteMemory Loop MemoryMap

def multiboot2TagEnd : UInt32 := 0
def multiboot2TagMmap : UInt32 := 6
def infoHeaderSize : UInt32 := 8
def tagSize : UInt32 := 8
def mmapTagSize : UInt32 := 16
def mmapEntrySize : UInt32 := 24

def alignUp8 (value : UInt32) : UInt32 := (value + 7) &&& ~~~7

/-! ## Fields of the block -/

def infoTotalSize (memory : Memory) (infoAddr : UInt32) : UInt32 := load32 memory infoAddr
def tagType (memory : Memory) (tag : UInt32) : UInt32 := load32 memory tag
def tagLength (memory : Memory) (tag : UInt32) : UInt32 := load32 memory (tag + 4)
def mmapTagEntrySize (memory : Memory) (tag : UInt32) : UInt32 := load32 memory (tag + 8)

def load64 (memory : Memory) (a : UInt32) : UInt64 :=
  (load32 memory a).toUInt64 ||| ((load32 memory (a + 4)).toUInt64 <<< 32)

def entryAt (memory : Memory) (entry : UInt32) : Multiboot2MmapEntry :=
  ⟨load64 memory entry, load64 memory (entry + 8), load32 memory (entry + 16),
    load32 memory (entry + 20)⟩

/-! ## State -/

structure Stage5ParseTotals where
  entryCount : UInt32
  usableRegions : UInt32
  reservedRegions : UInt32
  rawUsableBytes : UInt64
  rawReservedBytes : UInt64
  deriving DecidableEq, Repr

def stage5ParseTotalsReset : Stage5ParseTotals := ⟨0, 0, 0, 0, 0⟩

/-- Where the next iteration starts: `cursor`, or `entry_cursor` in the tag at `cursor`. -/
inductive Phase where
  | tags (cursor : UInt32)
  | entries (cursor entryCursor : UInt32)
  deriving DecidableEq, Repr

/-- An access to the block: its first address and its length. -/
structure Access where
  addr : UInt32
  length : ℕ
  deriving DecidableEq, Repr

structure ParseState where
  phase : Phase
  foundMmap : Bool
  totals : Stage5ParseTotals
  memory : Stage5bMemoryBookkeeping
  reads : List Access
  deriving DecidableEq, Repr

/-- How the parse ends: the bookkeeping it leaves, or a panic. -/
structure ParseOutcome where
  result : Except Panic Stage5bMemoryBookkeeping
  totals : Stage5ParseTotals
  reads : List Access

def ParseState.read (s : ParseState) (addr : UInt32) (length : ℕ) : ParseState :=
  { s with reads := s.reads ++ [⟨addr, length⟩] }

def ParseState.panic (s : ParseState) (reason : String) (detail : UInt32) : ParseOutcome :=
  ⟨.error ⟨reason, detail⟩, s.totals, s.reads⟩

/-- What follows the tag walk. -/
def ParseState.finish (s : ParseState) : ParseOutcome :=
  if s.foundMmap = false then s.panic "missing Multiboot2 mmap tag" 0
  else
    ⟨.ok { s.memory with
        rawUsableBytes := s.totals.rawUsableBytes
        rawReservedBytes := s.totals.rawReservedBytes }, s.totals, s.reads⟩

def accountTotals (totals : Stage5ParseTotals) (entry : Multiboot2MmapEntry) :
    Stage5ParseTotals :=
  if entry.type = multiboot2MemoryAvailable then
    { totals with
      usableRegions := totals.usableRegions + 1
      rawUsableBytes := addClampU64 totals.rawUsableBytes entry.length
      entryCount := totals.entryCount + 1 }
  else
    { totals with
      reservedRegions := totals.reservedRegions + 1
      rawReservedBytes := addClampU64 totals.rawReservedBytes entry.length
      entryCount := totals.entryCount + 1 }

/-! ## The walk -/

section Walk

variable (memory : Memory) (endAddr : UInt32)

/-- The end of an iteration of the tag walk: on to the next tag. -/
def stepOverTag (s : ParseState) (cursor : UInt32) : Iteration ParseState ParseOutcome :=
  let alignedTagSize := alignUp8 (tagLength memory cursor)
  if alignedTagSize = 0 ∨ endAddr < cursor + alignedTagSize then
    .leave (s.panic "invalid aligned tag size" (tagLength memory cursor))
  else .next { s with phase := .tags (cursor + alignedTagSize) }

def tagIteration (s : ParseState) (cursor : UInt32) : Iteration ParseState ParseOutcome :=
  if ¬ cursor + tagSize ≤ endAddr then .leave s.finish
  else
    let s := s.read cursor 8
    let size := tagLength memory cursor
    let type := tagType memory cursor
    if size < tagSize then .leave (s.panic "invalid Multiboot2 tag size" size)
    else if endAddr < cursor + size then .leave (s.panic "truncated Multiboot2 tag" type)
    else if type = multiboot2TagEnd then
      if size ≠ 8 then .leave (s.panic "invalid Multiboot2 end tag" size) else .leave s.finish
    else if type = multiboot2TagMmap then
      let s := { s with foundMmap := true }
      if size < mmapTagSize then .leave (s.panic "invalid mmap tag size" size)
      else
        let s := s.read (cursor + 8) 4
        let entrySize := mmapTagEntrySize memory cursor
        if entrySize < mmapEntrySize then .leave (s.panic "invalid mmap entry size" entrySize)
        else .next { s with phase := .entries cursor (cursor + mmapTagSize) }
    else stepOverTag memory endAddr s cursor

def entryIteration (s : ParseState) (cursor entryCursor : UInt32) :
    Iteration ParseState ParseOutcome :=
  let s := s.read (cursor + 8) 4
  let entrySize := mmapTagEntrySize memory cursor
  let entryEnd := cursor + tagLength memory cursor
  if entryCursor + entrySize ≤ entryEnd then
    let s := s.read entryCursor 24
    let entry := entryAt memory entryCursor
    .next { s with
      phase := .entries cursor (entryCursor + entrySize)
      totals := accountTotals s.totals entry
      memory := stage5bAccountEntry s.memory entry }
  else stepOverTag memory endAddr s cursor

def parseIteration (s : ParseState) : Iteration ParseState ParseOutcome :=
  match s.phase with
  | .tags cursor => tagIteration memory endAddr s cursor
  | .entries cursor entryCursor => entryIteration memory endAddr s cursor entryCursor

end Walk

/-- `end_addr`. -/
def infoEnd (memory : Memory) (infoAddr : UInt32) : UInt32 :=
  infoAddr + infoTotalSize memory infoAddr

/-- The checks in front of the walk, and the state they let it start in. -/
def parseStart (memory : Memory) (infoAddr : UInt32) : Except Panic ParseState :=
  let totalSize := infoTotalSize memory infoAddr
  if totalSize < infoHeaderSize then .error ⟨"invalid Multiboot2 info size", totalSize⟩
  else if infoEnd memory infoAddr < infoAddr then .error ⟨"Multiboot2 size overflow", totalSize⟩
  else
    .ok ⟨.tags (infoAddr + infoHeaderSize), false, stage5ParseTotalsReset,
      stage5bResetBookkeeping, []⟩

/-- The parse within so many iterations, if it ends by then. -/
def stage5aParseMmap (fuel : ℕ) (memory : Memory) (infoAddr : UInt32) :
    Option (Except Panic Stage5bMemoryBookkeeping) :=
  match parseStart memory infoAddr with
  | .error panic => some (.error panic)
  | .ok start =>
    (run (parseIteration memory (infoEnd memory infoAddr)) fuel start).map ParseOutcome.result

/-- The states in which an iteration of the parse starts. -/
def Parsing (memory : Memory) (infoAddr : UInt32) (s : ParseState) : Prop :=
  ∃ start, parseStart memory infoAddr = .ok start ∧
    Visits (parseIteration memory (infoEnd memory infoAddr)) start s

/-! ## What one iteration does -/

section Steps

variable {memory : Memory} {endAddr : UInt32} {s t : ParseState}

/-- All the ways for an iteration to go round again, with the tests it has passed. -/
inductive ParseStep (memory : Memory) (endAddr : UInt32) (s : ParseState) : ParseState → Prop where
  | overTag {cursor : UInt32} (phase : s.phase = .tags cursor)
      (header : cursor + tagSize ≤ endAddr)
      (aligned : alignUp8 (tagLength memory cursor) ≠ 0)
      (fits : cursor + alignUp8 (tagLength memory cursor) ≤ endAddr) :
      ParseStep memory endAddr s
        { s.read cursor 8 with phase := .tags (cursor + alignUp8 (tagLength memory cursor)) }
  | intoTag {cursor : UInt32} (phase : s.phase = .tags cursor)
      (header : cursor + tagSize ≤ endAddr) (size : mmapTagSize ≤ tagLength memory cursor)
      (fits : cursor + tagLength memory cursor ≤ endAddr)
      (entrySize : mmapEntrySize ≤ mmapTagEntrySize memory cursor)
      (type : tagType memory cursor = multiboot2TagMmap) :
      ParseStep memory endAddr s
        { (s.read cursor 8).read (cursor + 8) 4 with
          phase := .entries cursor (cursor + mmapTagSize), foundMmap := true }
  | entry {cursor entryCursor : UInt32} (phase : s.phase = .entries cursor entryCursor)
      (fits : entryCursor + mmapTagEntrySize memory cursor ≤ cursor + tagLength memory cursor) :
      ParseStep memory endAddr s
        { (s.read (cursor + 8) 4).read entryCursor 24 with
          phase := .entries cursor (entryCursor + mmapTagEntrySize memory cursor)
          totals := accountTotals s.totals (entryAt memory entryCursor)
          memory := stage5bAccountEntry s.memory (entryAt memory entryCursor) }
  | outOfTag {cursor entryCursor : UInt32} (phase : s.phase = .entries cursor entryCursor)
      (past : ¬ entryCursor + mmapTagEntrySize memory cursor ≤
        cursor + tagLength memory cursor)
      (aligned : alignUp8 (tagLength memory cursor) ≠ 0)
      (fits : cursor + alignUp8 (tagLength memory cursor) ≤ endAddr) :
      ParseStep memory endAddr s
        { s.read (cursor + 8) 4 with
          phase := .tags (cursor + alignUp8 (tagLength memory cursor)) }

theorem stepOverTag_next {cursor : UInt32} (h : stepOverTag memory endAddr s cursor = .next t) :
    alignUp8 (tagLength memory cursor) ≠ 0 ∧
      cursor + alignUp8 (tagLength memory cursor) ≤ endAddr ∧
      t = { s with phase := .tags (cursor + alignUp8 (tagLength memory cursor)) } := by
  simp only [stepOverTag] at h
  split_ifs at h with hbad
  obtain ⟨haligned, hfits⟩ := not_or.mp hbad
  exact ⟨haligned, UInt32.not_lt.mp hfits, (Iteration.next.inj h).symm⟩

theorem parseStep (h : parseIteration memory endAddr s = .next t) :
    ParseStep memory endAddr s t := by
  cases hphase : s.phase with
  | tags cursor =>
    simp only [parseIteration, hphase, tagIteration] at h
    split_ifs at h with hheader hsize htruncated hend hlength hmmap hshort hentry
    · obtain rfl := Iteration.next.inj h
      exact .intoTag hphase (hheader) (UInt32.not_lt.mp hshort)
        (UInt32.not_lt.mp htruncated) (UInt32.not_lt.mp hentry) hmmap
    · obtain ⟨haligned, hfits, rfl⟩ := stepOverTag_next h
      exact .overTag hphase (hheader) haligned hfits
  | entries cursor entryCursor =>
    simp only [parseIteration, hphase, entryIteration] at h
    split_ifs at h with hfits
    · obtain rfl := Iteration.next.inj h
      exact .entry hphase hfits
    · obtain ⟨haligned, hfits', rfl⟩ := stepOverTag_next h
      exact .outOfTag hphase hfits haligned hfits'

/-- All the ways for an iteration to leave, by what it has read. -/
inductive ParseLeave (memory : Memory) (endAddr : UInt32) (s : ParseState) :
    ParseOutcome → Prop where
  | noHeader {cursor : UInt32} {outcome : ParseOutcome} (phase : s.phase = .tags cursor)
      (header : ¬ cursor + tagSize ≤ endAddr) (reads : outcome.reads = s.reads) :
      ParseLeave memory endAddr s outcome
  | atHeader {cursor : UInt32} {outcome : ParseOutcome} (phase : s.phase = .tags cursor)
      (header : cursor + tagSize ≤ endAddr) (reads : outcome.reads = (s.read cursor 8).reads) :
      ParseLeave memory endAddr s outcome
  | atEntrySize {cursor : UInt32} {outcome : ParseOutcome} (phase : s.phase = .tags cursor)
      (header : cursor + tagSize ≤ endAddr) (size : mmapTagSize ≤ tagLength memory cursor)
      (fits : cursor + tagLength memory cursor ≤ endAddr)
      (type : tagType memory cursor = multiboot2TagMmap)
      (reads : outcome.reads = ((s.read cursor 8).read (cursor + 8) 4).reads) :
      ParseLeave memory endAddr s outcome
  | afterEntries {cursor entryCursor : UInt32} {outcome : ParseOutcome}
      (phase : s.phase = .entries cursor entryCursor)
      (reads : outcome.reads = (s.read (cursor + 8) 4).reads) :
      ParseLeave memory endAddr s outcome

@[simp] theorem panic_reads (s : ParseState) (reason : String) (detail : UInt32) :
    (s.panic reason detail).reads = s.reads := rfl

@[simp] theorem finish_reads (s : ParseState) : s.finish.reads = s.reads := by
  rw [ParseState.finish]
  split <;> rfl

theorem stepOverTag_leave {cursor : UInt32} {outcome : ParseOutcome}
    (h : stepOverTag memory endAddr s cursor = .leave outcome) : outcome.reads = s.reads := by
  simp only [stepOverTag] at h
  split_ifs at h
  rw [← Iteration.leave.inj h, panic_reads]

theorem parseLeave {outcome : ParseOutcome} (h : parseIteration memory endAddr s = .leave outcome) :
    ParseLeave memory endAddr s outcome := by
  cases hphase : s.phase with
  | tags cursor =>
    simp only [parseIteration, hphase, tagIteration] at h
    by_cases hheader : cursor + tagSize ≤ endAddr
    swap
    · rw [if_pos hheader] at h
      exact .noHeader hphase hheader (by rw [← Iteration.leave.inj h, finish_reads])
    rw [if_neg (not_not.mpr hheader)] at h
    split_ifs at h with hsize htruncated hend hlength hmmap hshort hentry
    · exact .atHeader hphase hheader (by rw [← Iteration.leave.inj h, panic_reads])
    · exact .atHeader hphase hheader (by rw [← Iteration.leave.inj h, panic_reads])
    · exact .atHeader hphase hheader (by rw [← Iteration.leave.inj h, panic_reads])
    · exact .atHeader hphase hheader (by rw [← Iteration.leave.inj h, finish_reads])
    · exact .atHeader hphase hheader (by rw [← Iteration.leave.inj h, panic_reads])
    · exact .atEntrySize hphase hheader (UInt32.not_lt.mp hshort) (UInt32.not_lt.mp htruncated)
        hmmap (by rw [← Iteration.leave.inj h, panic_reads]; rfl)
    · exact .atHeader hphase hheader (stepOverTag_leave h)
  | entries cursor entryCursor =>
    simp only [parseIteration, hphase, entryIteration] at h
    split_ifs at h
    exact .afterEntries hphase (stepOverTag_leave h)

end Steps

end MultibootParser
