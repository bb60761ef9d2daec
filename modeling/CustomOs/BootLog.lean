import CustomOs.BootSequence

/-! # The boot log (Stages 5A to 5D)
What the serial port gets of the memory map, of what the kernel makes of it and of the first
frames it takes. From this text alone one can work out the table of frames in the kernel. -/
namespace BootLog

open ByteMemory MemoryMap MultibootParser MultibootDecoding FrameEligibility PhysicalFrames
open PhysicalFrameTracking EarlyStages BootSequence Console TextCodec
open Sweep (sweep)

/-! ## Lines -/

/-- A number as it is printed, with 8 digits or with 16. -/
inductive Number where
  | word (v : UInt32)
  | quad (v : UInt64)
  deriving DecidableEq, Repr

def Number.wide : Number → Bool
  | .word _ => false
  | .quad _ => true

/-- A label and the number behind it. -/
abbrev Line := String × Number

def lineBytes : Line → List UInt8
  | (label, .word v) => serialWriteLabelHex label v
  | (label, .quad v) => serialWriteLabelHex64 label v

/-- The labels of some lines, and which numbers are wide. -/
abbrev Form := List (String × Bool)

def formOf (lines : List Line) : Form := lines.map fun line => (line.1, line.2.wide)

def readForm : Form → List UInt8 → Option (List Number × List UInt8)
  | [], text => some ([], text)
  | (label, true) :: form, text =>
    (readLabelHex64 label text).bind fun first =>
      (readForm form first.2).map fun more => (.quad first.1 :: more.1, more.2)
  | (label, false) :: form, text =>
    (readLabelHex label text).bind fun first =>
      (readForm form first.2).map fun more => (.word first.1 :: more.1, more.2)

def Printable (form : Form) : Prop := ∀ field ∈ form, newline ∉ ascii field.1

instance (form : Form) : Decidable (Printable form) :=
  inferInstanceAs (Decidable (∀ field ∈ form, newline ∉ ascii field.1))

theorem formOf_cons (line : Line) (lines : List Line) :
    formOf (line :: lines) = (line.1, line.2.wide) :: formOf lines := rfl

theorem readForm_append (lines : List Line) (h : Printable (formOf lines)) (rest : List UInt8) :
    readForm (formOf lines) (lines.flatMap lineBytes ++ rest) =
      some (lines.map Prod.snd, rest) := by
  induction lines with
  | nil => rfl
  | cons line lines ih =>
    have hlabel : newline ∉ ascii line.1 := h _ List.mem_cons_self
    have hmore := ih fun field hfield => h field (List.mem_cons_of_mem _ hfield)
    obtain ⟨label, number⟩ := line
    rw [formOf_cons, List.flatMap_cons, List.append_assoc]
    cases number with
    | word v =>
      have hfirst := readLabelHex_append hlabel v (lines.flatMap lineBytes ++ rest)
      simp only [Number.wide, readForm, lineBytes, hfirst, Option.bind_some, hmore,
        Option.map_some, List.map_cons]
    | quad v =>
      have hfirst := readLabelHex64_append hlabel v (lines.flatMap lineBytes ++ rest)
      simp only [Number.wide, readForm, lineBytes, hfirst, Option.bind_some, hmore,
        Option.map_some, List.map_cons]

/-- A line with another label stands in front. -/
theorem readForm_other {label label' : String} {form : Form} {v : UInt32}
    (hlabel : newline ∉ ascii label') (hlength : (ascii label).length ≤ (ascii label').length)
    (hdiffers : (ascii label').take (ascii label).length ≠ ascii label) (lines : List Line)
    (rest : List UInt8) :
    readForm ((label, false) :: form) (((label', .word v) :: lines).flatMap lineBytes ++ rest) =
      none := by
  rw [List.flatMap_cons, lineBytes, serialWriteLabelHex_eq hlabel]
  simp only [List.append_assoc]
  rw [readForm, readLabelHex, expect, List.take_append_of_le_length hlength, if_neg hdiffers]
  rfl

/-! ## Stages 5A and 5B -/

structure LoggedEntry where
  index : UInt32
  base : UInt64
  length : UInt64
  type : UInt32
  deriving DecidableEq, Repr

def LoggedEntry.lines (e : LoggedEntry) : List Line :=
  [("custom-os Stage 5A mmap index: ", .word e.index), ("  base: ", .quad e.base),
    ("  len : ", .quad e.length), ("  type: ", .word e.type)]

def LoggedEntry.bytes (e : LoggedEntry) : List UInt8 := e.lines.flatMap lineBytes

/-- The entry itself; the reserved word is not printed. -/
def LoggedEntry.entry (e : LoggedEntry) : Multiboot2MmapEntry := ⟨e.base, e.length, e.type, 0⟩

def logged (index : UInt32) (entry : Multiboot2MmapEntry) : LoggedEntry :=
  ⟨index, entry.baseAddr, entry.length, entry.type⟩

/-- What an iteration of the parse prints. -/
def iterationSerial (memory : Memory) (s : ParseState) : List UInt8 :=
  match s.phase with
  | .tags _ => []
  | .entries cursor entryCursor =>
    if entryCursor + mmapTagEntrySize memory cursor ≤ cursor + tagLength memory cursor then
      (logged s.totals.entryCount (entryAt memory entryCursor)).bytes
    else []

def stage5bEmitSummary (totals : Stage5ParseTotals) (memory : Stage5bMemoryBookkeeping) :
    List Line :=
  let policyUnusableBytes :=
    if memory.policyUsableBytes ≤ memory.rawUsableBytes then
      memory.rawUsableBytes - memory.policyUsableBytes
    else 0
  [("custom-os Stage 5A mmap entries: ", .word totals.entryCount),
    ("custom-os Stage 5A usable regions: ", .word totals.usableRegions),
    ("custom-os Stage 5A reserved regions: ", .word totals.reservedRegions),
    ("custom-os Stage 5A usable bytes: ", .quad totals.rawUsableBytes),
    ("custom-os Stage 5B regions stored: ", .word (UInt32.ofNat memory.regions.length)),
    ("custom-os Stage 5B regions dropped: ", .word memory.droppedRegions),
    ("custom-os Stage 5B raw usable bytes: ", .quad memory.rawUsableBytes),
    ("custom-os Stage 5B raw reserved bytes: ", .quad memory.rawReservedBytes),
    ("custom-os Stage 5B policy usable bytes: ", .quad memory.policyUsableBytes),
    ("custom-os Stage 5B policy unavailable bytes: ", .quad policyUnusableBytes),
    ("custom-os Stage 5B highest usable end: ", .quad memory.highestUsableEnd)]

/-- What the end of the parse prints. -/
def outcomeSerial (outcome : ParseOutcome) : List UInt8 :=
  match outcome.result with
  | .ok memory => (stage5bEmitSummary outcome.totals memory).flatMap lineBytes
  | .error _ => []

def stage5aHeading : List UInt8 := serialWriteText (ascii "custom-os Stage 5A: parsing memory map\n")

/-- The parse with what it prints up to its end, the text of a panic left out. -/
def stage5aParseMmapSerial (fuel : ℕ) (memory : Memory) (infoAddr : UInt32) :
    Option (Except Panic Stage5bMemoryBookkeeping × List UInt8) :=
  match parseStart memory infoAddr with
  | .error p => some (.error p, [])
  | .ok start =>
    (Loop.run (Loop.telling (parseIteration memory (infoEnd memory infoAddr))
      (iterationSerial memory) outcomeSerial) fuel (start, stage5aHeading)).map fun outcome =>
        (outcome.1.result, outcome.2)

/-! ## Stage 5C -/

def stage5cEmitSummary (frames : Stage5cFrameBookkeeping) : List Line :=
  [("custom-os Stage 5C range count: ", .word (UInt32.ofNat frames.ranges.length)),
    ("custom-os Stage 5C eligible frames: ", .quad frames.eligibleFrames),
    ("custom-os Stage 5C highest eligible frame: ", .quad frames.highestEligibleFrame),
    ("custom-os Stage 5C highest eligible address: ", .quad frames.highestEligibleAddr),
    ("custom-os Stage 5C reserved kernel start: ", .quad frames.kernelReservedStart),
    ("custom-os Stage 5C reserved kernel end: ", .quad frames.kernelReservedEnd)]

/-! ## Stage 5D -/

structure LoggedFrame where
  index : UInt32
  addr : UInt64
  deriving DecidableEq, Repr

def LoggedFrame.lines (f : LoggedFrame) : List Line :=
  [("custom-os Stage 5D alloc index: ", .word f.index),
    ("custom-os Stage 5D alloc addr : ", .quad f.addr)]

def LoggedFrame.bytes (f : LoggedFrame) : List UInt8 := f.lines.flatMap lineBytes

/-- The frames that the loop of Stage 5D gets, from the one with this index on. -/
def takenFrames (frames : Stage5cFrameBookkeeping) : ℕ → UInt32 → Pmm → List LoggedFrame
  | 0, _, _ => []
  | n + 1, i, pmm =>
    let reply := stage6bPmmAllocFrame frames pmm (some 0)
    if reply.accepted then
      ⟨i, reply.out.getD 0⟩ :: takenFrames frames n (i + 1) reply.pmm
    else []

def stage5dHeading : List UInt8 :=
  serialWriteText (ascii "custom-os Stage 5D: deterministic frame allocation test\n")

def requestLines : List Line :=
  [("custom-os Stage 5D alloc request count: ", .word (UInt32.ofNat stage5dTestAllocCount))]

def endLines (granted : ℕ) (remaining : UInt64) : List Line :=
  [("custom-os Stage 5D alloc granted: ", .word (UInt32.ofNat granted)),
    ("custom-os Stage 5D remaining eligible frames: ", .quad remaining)]

def stage5dSerial (frames : Stage5cFrameBookkeeping) (pmm : Pmm) : List UInt8 :=
  let taken := takenFrames frames stage5dTestAllocCount 0 (stage6aPmmSeedFromStage5c frames pmm)
  let remaining := stage6bPmmGetRemainingFrames (stage5dRunBootAllocationTest frames pmm)
  stage5dHeading ++ requestLines.flatMap lineBytes ++ taken.flatMap LoggedFrame.bytes ++
    (endLines taken.length remaining).flatMap lineBytes

/-- Stages 5A to 5D with what they print. -/
def memoryStages (fuel : ℕ) (memory : Memory) (infoAddr kernelPhysEnd : UInt32) :
    Option (Except Panic Stage5cFrameBookkeeping × List UInt8) :=
  (stage5aParseMmapSerial fuel memory infoAddr).map fun parsed =>
    match parsed.1 with
    | .error p => (.error p, parsed.2)
    | .ok memory =>
      match stage5cPrepareFrameBookkeeping kernelPhysStart kernelPhysEnd memory with
      | .error p => (.error p, parsed.2)
      | .ok frames =>
        (.ok frames, parsed.2 ++ (stage5cEmitSummary frames).flatMap lineBytes ++
          stage5dSerial frames bootPmm)

/-! ## Reading -/

def readEntry (text : List UInt8) : Option (LoggedEntry × List UInt8) :=
  match readForm (formOf (LoggedEntry.lines ⟨0, 0, 0, 0⟩)) text with
  | some ([.word index, .quad base, .quad length, .word type], rest) =>
    some (⟨index, base, length, type⟩, rest)
  | _ => none

def readFrame (text : List UInt8) : Option (LoggedFrame × List UInt8) :=
  match readForm (formOf (LoggedFrame.lines ⟨0, 0⟩)) text with
  | some ([.word index, .quad addr], rest) => some (⟨index, addr⟩, rest)
  | _ => none

structure MemoryLog where
  entries : List LoggedEntry
  summary : List Number
  table : List Number
  taken : List LoggedFrame
  left : List Number
  deriving DecidableEq, Repr

/-- The log of the four stages is read off the front. -/
def readMemoryLog (text : List UInt8) : Option (MemoryLog × List UInt8) := do
  let text ← expect stage5aHeading text
  let (entries, text) := decodeWhile readEntry text.length text
  let (summary, text) ← readForm
    (formOf (stage5bEmitSummary stage5ParseTotalsReset stage5bResetBookkeeping)) text
  let (table, text) ← readForm (formOf (stage5cEmitSummary stage5cResetBookkeeping)) text
  let text ← expect stage5dHeading text
  let (_, text) ← readForm (formOf requestLines) text
  let (taken, text) := decodeWhile readFrame text.length text
  let (left, text) ← readForm (formOf (endLines 0 0)) text
  return (⟨entries, summary, table, taken, left⟩, text)

theorem readEntry_append (e : LoggedEntry) (rest : List UInt8) :
    readEntry (e.bytes ++ rest) = some (e, rest) := by
  have hprintable : Printable (formOf (LoggedEntry.lines ⟨0, 0, 0, 0⟩)) := by decide
  have hread := readForm_append e.lines hprintable rest
  have hform : formOf e.lines = formOf (LoggedEntry.lines ⟨0, 0, 0, 0⟩) := rfl
  rw [hform] at hread
  rw [readEntry, LoggedEntry.bytes, hread]
  rfl

theorem readFrame_append (f : LoggedFrame) (rest : List UInt8) :
    readFrame (f.bytes ++ rest) = some (f, rest) := by
  have hprintable : Printable (formOf (LoggedFrame.lines ⟨0, 0⟩)) := by decide
  have hread := readForm_append f.lines hprintable rest
  have hform : formOf f.lines = formOf (LoggedFrame.lines ⟨0, 0⟩) := rfl
  rw [hform] at hread
  rw [readFrame, LoggedFrame.bytes, hread]
  rfl

theorem entry_bytes_ne (e : LoggedEntry) : e.bytes ≠ [] := by
  intro hempty
  have hread := readEntry_append e []
  have hnone : readEntry [] = none := by decide
  rw [hempty, List.append_nil, hnone] at hread
  cases hread

theorem frame_bytes_ne (f : LoggedFrame) : f.bytes ≠ [] := by
  intro hempty
  have hread := readFrame_append f []
  have hnone : readFrame [] = none := by decide
  rw [hempty, List.append_nil, hnone] at hread
  cases hread

/-- The entries end where the summary begins. -/
theorem readEntry_summary (totals : Stage5ParseTotals) (memory : Stage5bMemoryBookkeeping)
    (rest : List UInt8) :
    readEntry ((stage5bEmitSummary totals memory).flatMap lineBytes ++ rest) = none := by
  have hother : readForm (formOf (LoggedEntry.lines ⟨0, 0, 0, 0⟩))
      ((stage5bEmitSummary totals memory).flatMap lineBytes ++ rest) = none :=
    readForm_other (by decide) (by decide) (by decide) _ rest
  rw [readEntry, hother]

theorem readFrame_end (granted : ℕ) (remaining : UInt64) (rest : List UInt8) :
    readFrame ((endLines granted remaining).flatMap lineBytes ++ rest) = none := by
  have hother : readForm (formOf (LoggedFrame.lines ⟨0, 0⟩))
      ((endLines granted remaining).flatMap lineBytes ++ rest) = none :=
    readForm_other (by decide) (by decide) (by decide) _ rest
  rw [readFrame, hother]

theorem forms_printable :
    Printable (formOf (stage5bEmitSummary stage5ParseTotalsReset stage5bResetBookkeeping)) ∧
      Printable (formOf (stage5cEmitSummary stage5cResetBookkeeping)) ∧
      Printable (formOf requestLines) ∧ Printable (formOf (endLines 0 0)) := by
  refine ⟨?_, ?_, ?_, ?_⟩ <;> decide +kernel

/-- The labels do not depend on what is printed behind them. -/
theorem summary_form (totals : Stage5ParseTotals) (memory : Stage5bMemoryBookkeeping) :
    formOf (stage5bEmitSummary totals memory) =
      formOf (stage5bEmitSummary stage5ParseTotalsReset stage5bResetBookkeeping) := by
  simp only [stage5bEmitSummary, formOf_cons, Number.wide]

theorem readSummary_append (totals : Stage5ParseTotals) (memory : Stage5bMemoryBookkeeping)
    (rest : List UInt8) :
    readForm (formOf (stage5bEmitSummary stage5ParseTotalsReset stage5bResetBookkeeping))
      ((stage5bEmitSummary totals memory).flatMap lineBytes ++ rest) =
      some ((stage5bEmitSummary totals memory).map Prod.snd, rest) := by
  have hprintable := forms_printable.1
  rw [← summary_form totals memory] at hprintable ⊢
  exact readForm_append _ hprintable rest

theorem readTable_append (frames : Stage5cFrameBookkeeping) (rest : List UInt8) :
    readForm (formOf (stage5cEmitSummary stage5cResetBookkeeping))
      ((stage5cEmitSummary frames).flatMap lineBytes ++ rest) =
      some ((stage5cEmitSummary frames).map Prod.snd, rest) := by
  have hform : formOf (stage5cEmitSummary stage5cResetBookkeeping) =
      formOf (stage5cEmitSummary frames) := by
    simp only [stage5cEmitSummary, formOf_cons, Number.wide]
  have hprintable := forms_printable.2.1
  rw [hform] at hprintable ⊢
  exact readForm_append _ hprintable rest

theorem readEnd_append (granted : ℕ) (remaining : UInt64) (rest : List UInt8) :
    readForm (formOf (endLines 0 0)) ((endLines granted remaining).flatMap lineBytes ++ rest) =
      some ((endLines granted remaining).map Prod.snd, rest) := by
  have hform : formOf (endLines 0 0) = formOf (endLines granted remaining) := by
    simp only [endLines, formOf_cons, Number.wide]
  have hprintable := forms_printable.2.2.2
  rw [hform] at hprintable ⊢
  exact readForm_append _ hprintable rest

theorem readEntries_append (entries : List LoggedEntry) (totals : Stage5ParseTotals)
    (memory : Stage5bMemoryBookkeeping) (rest : List UInt8) :
    decodeWhile readEntry (entries.flatMap LoggedEntry.bytes ++
        ((stage5bEmitSummary totals memory).flatMap lineBytes ++ rest)).length
      (entries.flatMap LoggedEntry.bytes ++
        ((stage5bEmitSummary totals memory).flatMap lineBytes ++ rest)) =
      (entries, (stage5bEmitSummary totals memory).flatMap lineBytes ++ rest) := by
  apply decodeWhile_flatMap readEntry_append (readEntry_summary totals memory rest)
  rw [List.length_append]
  exact Nat.le_add_right_of_le (length_le_flatMap entry_bytes_ne entries)

theorem readFrames_append (taken : List LoggedFrame) (granted : ℕ) (remaining : UInt64)
    (rest : List UInt8) :
    decodeWhile readFrame (taken.flatMap LoggedFrame.bytes ++
        ((endLines granted remaining).flatMap lineBytes ++ rest)).length
      (taken.flatMap LoggedFrame.bytes ++
        ((endLines granted remaining).flatMap lineBytes ++ rest)) =
      (taken, (endLines granted remaining).flatMap lineBytes ++ rest) := by
  apply decodeWhile_flatMap readFrame_append (readFrame_end granted remaining rest)
  rw [List.length_append]
  exact Nat.le_add_right_of_le (length_le_flatMap frame_bytes_ne taken)

/-- A log of this shape is read back whole, whatever comes after it. -/
theorem readMemoryLog_append (entries : List LoggedEntry) (totals : Stage5ParseTotals)
    (memory : Stage5bMemoryBookkeeping) (frames : Stage5cFrameBookkeeping)
    (taken : List LoggedFrame) (granted : ℕ) (remaining : UInt64) (rest : List UInt8) :
    readMemoryLog (stage5aHeading ++ entries.flatMap LoggedEntry.bytes ++
      (stage5bEmitSummary totals memory).flatMap lineBytes ++
      (stage5cEmitSummary frames).flatMap lineBytes ++
      (stage5dHeading ++ requestLines.flatMap lineBytes ++ taken.flatMap LoggedFrame.bytes ++
        (endLines granted remaining).flatMap lineBytes) ++ rest) =
      some (⟨entries, (stage5bEmitSummary totals memory).map Prod.snd,
        (stage5cEmitSummary frames).map Prod.snd, taken,
        (endLines granted remaining).map Prod.snd⟩, rest) := by
  have hrequest := readForm_append requestLines forms_printable.2.2.1
  simp only [readMemoryLog, List.append_assoc, Option.bind_eq_bind, expect_append,
    Option.bind_some, readEntries_append, readSummary_append, readTable_append, hrequest,
    readFrames_append, readEnd_append]
  rfl

/-! ## What is in the log -/

def numbered (entries : List Multiboot2MmapEntry) : List LoggedEntry :=
  entries.mapIdx fun i entry => logged (UInt32.ofNat i) entry

section Parse

variable {memory : Memory} {endAddr : UInt32} {state next : ParseState} {text : List UInt8}

theorem entryCount_accounted (entries : List Multiboot2MmapEntry) (totals : Stage5ParseTotals) :
    (entries.foldl accountTotals totals).entryCount =
      totals.entryCount + UInt32.ofNat entries.length := by
  induction entries generalizing totals with
  | nil => simp
  | cons entry entries ih =>
    have hfirst : (accountTotals totals entry).entryCount = totals.entryCount + 1 := by
      rw [accountTotals]
      split <;> rfl
    rw [List.foldl_cons, ih, hfirst, List.length_cons, UInt32.ofNat_add, UInt32.add_assoc,
      UInt32.add_comm 1]
    rfl

/-- The entries that are accounted are those that have been printed. -/
def Logged (state : ParseState) (text : List UInt8) : Prop :=
  ∃ entries : List Multiboot2MmapEntry,
    state.totals = entries.foldl accountTotals stage5ParseTotalsReset ∧
    state.memory = stage5bAccountEntries entries ∧
    text = stage5aHeading ++ (numbered entries).flatMap LoggedEntry.bytes

theorem Logged.step (h : Logged state text)
    (hs : parseIteration memory endAddr state = .next next) :
    Logged next (text ++ iterationSerial memory state) := by
  obtain ⟨entries, htotals, hmemory, rfl⟩ := h
  cases parseStep hs with
  | overTag phase => exact ⟨entries, htotals, hmemory, by simp [iterationSerial, phase]⟩
  | intoTag phase => exact ⟨entries, htotals, hmemory, by simp [iterationSerial, phase]⟩
  | outOfTag phase past =>
    exact ⟨entries, htotals, hmemory, by simp [iterationSerial, phase, past]⟩
  | @entry cursor entryCursor phase fits =>
    have hcount : state.totals.entryCount = UInt32.ofNat entries.length := by
      rw [htotals, entryCount_accounted]
      exact UInt32.zero_add _
    refine ⟨entries ++ [entryAt memory entryCursor], ?_, ?_, ?_⟩
    · rw [List.foldl_append, ← htotals]
      rfl
    · rw [accountEntries_append, ← hmemory]
    · rw [iterationSerial, phase]
      simp only [if_pos fits, numbered, List.mapIdx_concat, List.flatMap_append,
        List.flatMap_singleton, hcount, List.append_assoc]

theorem iterationSerial_leave {outcome : ParseOutcome}
    (h : parseIteration memory endAddr state = .leave outcome) :
    iterationSerial memory state = [] := by
  cases hphase : state.phase with
  | tags cursor => rw [iterationSerial, hphase]
  | entries cursor entryCursor =>
    rw [iterationSerial, hphase]
    simp only [parseIteration, hphase, entryIteration] at h
    split_ifs at h with hfits
    exact if_neg hfits

/-- The parse prints the entries it accounts, then the summary. -/
theorem parse_serial {fuel : ℕ} {infoAddr : UInt32} {bookkeeping : Stage5bMemoryBookkeeping}
    (h : stage5aParseMmapSerial fuel memory infoAddr = some (.ok bookkeeping, text)) :
    ∃ entries, bookkeeping = decodedBookkeeping entries ∧
      text = stage5aHeading ++ (numbered entries).flatMap LoggedEntry.bytes ++
        (stage5bEmitSummary (entries.foldl accountTotals stage5ParseTotalsReset)
          bookkeeping).flatMap lineBytes := by
  rw [stage5aParseMmapSerial] at h
  cases hstart : parseStart memory infoAddr with
  | error p =>
    rw [hstart] at h
    cases h
  | ok start =>
    rw [hstart] at h
    obtain ⟨⟨outcome, written⟩, hrun, hresult⟩ := Option.map_eq_some_iff.mp h
    obtain ⟨hok, rfl⟩ := Prod.mk.inj hresult
    have hinit : Logged start stage5aHeading := by
      obtain rfl := (ParserSafety.parseStart_ok hstart).2.2.2
      exact ⟨[], rfl, rfl, by simp [numbered]⟩
    obtain ⟨last, before, hlogged, hleave, hwritten⟩ :=
      Loop.telling_exit hrun hinit fun _ _ _ hlogged hs => hlogged.step hs
    obtain ⟨entries, htotals, hmemory, rfl⟩ := hlogged
    have hbookkeeping : bookkeeping = decodedBookkeeping entries := by
      rw [AccountingAgreement.leave_ok hleave hok, htotals, hmemory, decodedBookkeeping]
    refine ⟨entries, hbookkeeping, ?_⟩
    simp only at hwritten hok
    rw [hwritten, iterationSerial_leave hleave, outcomeSerial, hok,
      (parse_leaves hleave).totals_eq, htotals, List.append_nil]

/-- Printing does not change what the parse does. -/
theorem parse_serial_result (fuel : ℕ) (memory : Memory) (infoAddr : UInt32) :
    (stage5aParseMmapSerial fuel memory infoAddr).map Prod.fst =
      stage5aParseMmap fuel memory infoAddr := by
  rw [stage5aParseMmapSerial, stage5aParseMmap]
  cases parseStart memory infoAddr with
  | error p => rfl
  | ok start =>
    dsimp only
    rw [← Loop.run_telling fuel start stage5aHeading, Option.map_map, Option.map_map]
    rfl

end Parse

/-- The frames that are printed are the next ones of the allocator. -/
theorem takenFrames_addrs {frames : Stage5cFrameBookkeeping} (ht : SoundTable frames) (n : ℕ)
    (i : UInt32) {pmm : Pmm} {queue fresh : List ℕ} (h : Tracks frames pmm queue fresh) :
    (takenFrames frames n i pmm).map (fun f => f.addr.toNat) =
      ((queue ++ fresh).take n).map fun f => 4096 * f := by
  induction n generalizing i pmm queue fresh with
  | zero => rfl
  | succ n ih =>
    rcases h.alloc ht 0 with
      ⟨f, addr, pmm', queue', fresh', heq, haddr, hlist, htracks, _⟩ | ⟨rfl, rfl, state, heq, _⟩
    · have hrest := ih (i + 1) htracks
      simp only [takenFrames, heq, if_true, Option.getD_some, List.map_cons, haddr, hlist,
        List.take_succ_cons, hrest]
    · simp [takenFrames, heq]

/-- The reserved word, which is not printed, plays no part. -/
theorem accountEntries_numbered (entries : List Multiboot2MmapEntry) :
    stage5bAccountEntries ((numbered entries).map LoggedEntry.entry) =
      stage5bAccountEntries entries := by
  have hplain : (numbered entries).map LoggedEntry.entry =
      entries.map fun entry => ⟨entry.baseAddr, entry.length, entry.type, 0⟩ := by
    apply List.ext_getElem?
    intro i
    rw [numbered, List.getElem?_map, List.getElem?_mapIdx, Option.map_map, List.getElem?_map]
    rfl
  rw [hplain, stage5bAccountEntries, List.foldl_map]
  rfl

/-- What the four stages print says which map was accounted and which frames were taken. -/
theorem memoryStages_log {fuel : ℕ} {memory : Memory} {infoAddr kernelPhysEnd : UInt32}
    {frames : Stage5cFrameBookkeeping} {text : List UInt8}
    (h : memoryStages fuel memory infoAddr kernelPhysEnd = some (.ok frames, text))
    (rest : List UInt8) :
    ∃ log, readMemoryLog (text ++ rest) = some (log, rest) ∧
      TableBuilt kernelPhysEnd (log.entries.map LoggedEntry.entry) frames ∧
      log.taken.map (fun f => f.addr.toNat) =
        ((sweep frames.spans 0).take 4).map fun f => 4096 * f := by
  obtain ⟨⟨result, parsed⟩, hparse, hstages⟩ := Option.map_eq_some_iff.mp h
  cases result with
  | error p => cases hstages
  | ok bookkeeping =>
    obtain ⟨entries, rfl, rfl⟩ := parse_serial hparse
    cases hprepare : stage5cPrepareFrameBookkeeping kernelPhysStart kernelPhysEnd
        (decodedBookkeeping entries) with
    | error p =>
      simp only [hprepare] at hstages
      cases hstages
    | ok table =>
      simp only [hprepare, Prod.mk.injEq, Except.ok.injEq] at hstages
      obtain ⟨rfl, rfl⟩ := hstages
      have built : TableBuilt kernelPhysEnd entries table := hprepare
      refine ⟨_, readMemoryLog_append (numbered entries) _ _ table _ _ _ rest, ?_, ?_⟩
      · rw [TableBuilt, accountEntries_numbered]
        exact built
      · exact takenFrames_addrs built.sound _ 0 (seeded_tracks built.sound)

/-! ## The log of a boot -/

/-- The table of a kernel that has come up is the one its first stages have made. -/
theorem boot_memoryStages {m : Machine} {mb2Magic mb2InfoAddr : UInt32} {fuel : ℕ}
    {booted : Booted} (boot : stage0Main fuel m mb2Magic mb2InfoAddr = some (.ok booted)) :
    ∃ text, memoryStages fuel m.memory mb2InfoAddr m.kernelPhysEnd =
      some (.ok booted.frames, text) := by
  obtain ⟨memory, pages, hparse, hprepare, -⟩ := boot_parts boot
  rw [← parse_serial_result] at hparse
  obtain ⟨⟨result, text⟩, hserial, rfl⟩ := Option.map_eq_some_iff.mp hparse
  rw [memoryStages, hserial]
  simp only [Option.map_some, hprepare]
  exact ⟨_, rfl⟩

end BootLog
