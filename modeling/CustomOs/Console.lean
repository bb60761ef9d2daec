import CustomOs.InterruptAccounts
import CustomOs.InterruptStubs
import CustomOs.Library.TextCodec
import CustomOs.MemoryMap

/-! # The screen and the serial port
What the kernel reports can be read back: the numbers of an exception or a panic from the
screen and from the serial port, and the interrupts from the serial port. -/
namespace Console

open TextCodec WordStack InterruptStubs InterruptSetup InterruptAccounts Transition
open InterruptHandling (Report Event System Step started)
open MemoryMap (Panic)

/-! ## Numbers -/

/-- A string of the source as bytes, without the zero behind it. -/
def ascii (s : String) : List UInt8 := s.toList.map fun c => UInt8.ofNat c.toNat

def hex : Alphabet UInt8 := ⟨ascii "0123456789ABCDEF", by decide⟩

def formatHex32 (value : UInt32) : List UInt8 :=
  ascii "0x" ++ (List.range 8).map fun i =>
    hex.symbols.getD ((value >>> ((7 - UInt32.ofNat i) * 4)) &&& 0xF).toNat 0

def formatHex64 (value : UInt64) : List UInt8 :=
  ascii "0x" ++ (List.range 16).map fun i =>
    hex.symbols.getD ((value >>> ((15 - UInt64.ofNat i) * 4)) &&& 0xF).toNat 0

/-- A number of so many digits is read off the front. -/
def readHex (digits : ℕ) (text : List UInt8) : Option (ℕ × List UInt8) :=
  (expect (ascii "0x") text).bind fun text =>
    (hex.read (text.take digits)).map fun ds => (value 16 ds, text.drop digits)

theorem formatHex32_eq (v : UInt32) :
    formatHex32 v = ascii "0x" ++ hex.write (fixedDigits 16 8 v.toNat) := by
  rw [formatHex32, fixedDigits_eq, Alphabet.write, List.map_map]
  congr 1
  apply List.map_congr_left
  intro i hi
  have hi := List.mem_range.mp hi
  have hshifts : ∀ i < 8, ((7 - UInt32.ofNat i) * 4).toNat = 4 * (7 - i) := by decide
  have hshift := hshifts i hi
  have hpower : 2 ^ (4 * (7 - i)) = 16 ^ (8 - 1 - i) := by
    rw [Nat.pow_mul]
  have hdigit : ((v >>> ((7 - UInt32.ofNat i) * 4)) &&& 0xF).toNat =
      v.toNat / 16 ^ (8 - 1 - i) % 16 := by
    rw [MachineWord.and_mask32 _ 4 rfl, MachineWord.shiftRight32 v _ hshift (by omega), hpower]
    rfl
  rw [hdigit]
  rfl

theorem formatHex64_eq (v : UInt64) :
    formatHex64 v = ascii "0x" ++ hex.write (fixedDigits 16 16 v.toNat) := by
  rw [formatHex64, fixedDigits_eq, Alphabet.write, List.map_map]
  congr 1
  apply List.map_congr_left
  intro i hi
  have hi := List.mem_range.mp hi
  have hshifts : ∀ i < 16, ((15 - UInt64.ofNat i) * 4).toNat = 4 * (15 - i) := by decide
  have hshift := hshifts i hi
  have hpower : 2 ^ (4 * (15 - i)) = 16 ^ (16 - 1 - i) := by
    rw [Nat.pow_mul]
  have hdigit : ((v >>> ((15 - UInt64.ofNat i) * 4)) &&& 0xF).toNat =
      v.toNat / 16 ^ (16 - 1 - i) % 16 := by
    rw [MachineWord.and_mask64 _ 4 rfl, MachineWord.shiftRight64 v _ hshift (by omega), hpower]
    rfl
  rw [hdigit]
  rfl

theorem readHex_write {w n : ℕ} (h : n < 16 ^ w) (rest : List UInt8) :
    readHex w (ascii "0x" ++ hex.write (fixedDigits 16 w n) ++ rest) = some (n, rest) := by
  have hlength : (hex.write (fixedDigits 16 w n)).length = w := by
    rw [Alphabet.write, List.length_map, fixedDigits_length]
  have hread : hex.read (hex.write (fixedDigits 16 w n)) = some (fixedDigits 16 w n) :=
    hex.read_write fun d hd => fixedDigits_lt (by decide) hd
  rw [readHex, List.append_assoc, expect_append, Option.bind_some, List.take_left' hlength,
    List.drop_left' hlength, hread, Option.map_some, value_fixedDigits h]

theorem readHex_formatHex32 (v : UInt32) (rest : List UInt8) :
    readHex 8 (formatHex32 v ++ rest) = some (v.toNat, rest) := by
  rw [formatHex32_eq]
  exact readHex_write v.toNat_lt rest

theorem readHex_formatHex64 (v : UInt64) (rest : List UInt8) :
    readHex 16 (formatHex64 v ++ rest) = some (v.toNat, rest) := by
  rw [formatHex64_eq]
  exact readHex_write v.toNat_lt rest

/-! ## The screen -/

/-- The cells of the text buffer, row by row. -/
abbrev Screen := ℕ → UInt16

def vgaAttr : UInt16 := 0x0F
def vgaWidth : ℕ := 80
def vgaHeight : ℕ := 25

def cell (c : UInt8) : UInt16 := (vgaAttr <<< 8) ||| c.toUInt16

def clearScreen (screen : Screen) : Screen := fun k =>
  if k < vgaWidth * vgaHeight then cell 0x20 else screen k

/-- What does not fit into the row is dropped. -/
def writeTextAt (screen : Screen) : List UInt8 → ℕ → ℕ → Screen
  | [], _, _ => screen
  | c :: text, row, col =>
    if col < vgaWidth then
      writeTextAt (fun k => if k = row * vgaWidth + col then cell c else screen k) text row (col + 1)
    else screen

def writeText (screen : Screen) (text : List UInt8) (row : ℕ) : Screen :=
  writeTextAt screen text row 0

def writeHexAtRow (screen : Screen) (label : String) (row valueCol : ℕ) (value : UInt32) : Screen :=
  writeTextAt (writeText screen (ascii label) row) (formatHex32 value) row valueCol

/-- The characters in so many cells of a row. -/
def readText (screen : Screen) (row col n : ℕ) : List UInt8 :=
  (List.range n).map fun i => (screen (row * vgaWidth + col + i)).toUInt8

/-- The number in the ten cells from column 8. -/
def readNumber (screen : Screen) (row : ℕ) : Option ℕ :=
  (readHex 8 (readText screen row 8 10)).map Prod.fst

section Screen

variable {screen : Screen} {text : List UInt8} {row col : ℕ}

theorem cell_char (c : UInt8) : (cell c).toUInt8 = c := by
  apply UInt8.toNat_inj.mp
  have hc := c.toNat_lt
  have hattr : (vgaAttr <<< 8).toNat = 15 * 2 ^ 8 := rfl
  rw [cell, UInt16.toNat_toUInt8, UInt16.toNat_or, hattr, UInt8.toNat_toUInt16,
    Nat.or_mod_two_pow, Nat.mul_mod_left, Nat.zero_or, Nat.mod_eq_of_lt hc]

/-- A text stays in its row, and in as many columns as it is long. -/
theorem writeTextAt_other {k : ℕ} (h : k < row * vgaWidth + col ∨
    row * vgaWidth + vgaWidth ≤ k ∨ row * vgaWidth + col + text.length ≤ k) :
    writeTextAt screen text row col k = screen k := by
  induction text generalizing screen col with
  | nil => rfl
  | cons c text ih =>
    rw [List.length_cons] at h
    rw [writeTextAt]
    split_ifs with hcol
    · rw [ih (by omega), if_neg (by omega)]
    · rfl

theorem writeTextAt_inside {i : ℕ} (hi : i < text.length) (hcol : col + i < vgaWidth) :
    writeTextAt screen text row col (row * vgaWidth + col + i) = cell text[i] := by
  induction text generalizing screen col i with
  | nil => cases hi
  | cons c text ih =>
    rw [writeTextAt, if_pos (by omega)]
    cases i with
    | zero =>
      rw [writeTextAt_other (by omega), Nat.add_zero, if_pos rfl]
      rfl
    | succ i =>
      rw [List.length_cons] at hi
      have hstep := @ih (fun k => if k = row * vgaWidth + col then cell c else screen k) (col + 1)
        i (by omega) (by omega)
      rw [show row * vgaWidth + col + (i + 1) = row * vgaWidth + (col + 1) + i by omega, hstep]
      rfl

/-- As much of a text as fits into the row can be read there. -/
theorem readText_writeTextAt (screen : Screen) (text : List UInt8) (row : ℕ) {col n : ℕ}
    (hn : n ≤ text.length) (hcol : col + n ≤ vgaWidth) :
    readText (writeTextAt screen text row col) row col n = text.take n := by
  apply List.ext_getElem
  · rw [readText, List.length_map, List.length_range, List.length_take]
    omega
  · intro i hi hi'
    rw [readText, List.length_map, List.length_range] at hi
    simp only [readText, List.getElem_map, List.getElem_range, List.getElem_take]
    rw [writeTextAt_inside (by omega) (by omega), cell_char]

theorem readText_other {row' col' n : ℕ} (hrow : row' ≠ row) (hcol : col' + n ≤ vgaWidth) :
    readText (writeTextAt screen text row col) row' col' n = readText screen row' col' n := by
  apply List.map_congr_left
  intro i hi
  have hi := List.mem_range.mp hi
  rw [writeTextAt_other]
  simp only [vgaWidth] at *
  rcases Nat.lt_or_gt_of_ne hrow with hlt | hgt
  · left
    omega
  · right
    left
    omega

theorem readNumber_writeHexAtRow (screen : Screen) (label : String) (row : ℕ) (value : UInt32) :
    readNumber (writeHexAtRow screen label row 8 value) row = some value.toNat := by
  have hlength : (formatHex32 value).length = 10 := by
    rw [formatHex32, List.length_append, List.length_map, List.length_range]
    rfl
  rw [readNumber, writeHexAtRow, readText_writeTextAt _ _ _ hlength.ge (by decide),
    List.take_of_length_le hlength.le]
  have hread := readHex_formatHex32 value []
  rw [List.append_nil] at hread
  rw [hread]
  rfl

theorem readNumber_other {label : String} {row' : ℕ} {value : UInt32} (hrow : row' ≠ row) :
    readNumber (writeHexAtRow screen label row 8 value) row' = readNumber screen row' := by
  rw [readNumber, readNumber, writeHexAtRow, writeText, readText_other hrow (by decide),
    readText_other hrow (by decide)]

end Screen

/-! ## The serial port -/

def newline : UInt8 := 0x0A

/-- The bytes that `serial_write_text` sends: a carriage return in front of every newline. -/
def serialWriteText (text : List UInt8) : List UInt8 :=
  text.flatMap fun c => if c = newline then [0x0D, c] else [c]

def serialWriteLabelHex (label : String) (value : UInt32) : List UInt8 :=
  serialWriteText (ascii label) ++ serialWriteText (formatHex32 value) ++
    serialWriteText (ascii "\n")

def serialWriteLabelHex64 (label : String) (value : UInt64) : List UInt8 :=
  serialWriteText (ascii label) ++ serialWriteText (formatHex64 value) ++
    serialWriteText (ascii "\n")

/-- A line with this label is read off the front. -/
def readLabelHex (label : String) (text : List UInt8) : Option (UInt32 × List UInt8) :=
  (expect (ascii label) text).bind fun text =>
    (readHex 8 text).bind fun number =>
      (expect [0x0D, newline] number.2).map fun rest => (UInt32.ofNat number.1, rest)

def readLabelHex64 (label : String) (text : List UInt8) : Option (UInt64 × List UInt8) :=
  (expect (ascii label) text).bind fun text =>
    (readHex 16 text).bind fun number =>
      (expect [0x0D, newline] number.2).map fun rest => (UInt64.ofNat number.1, rest)

/-- The first line, without what ends it, and the rest. -/
def readLine (text : List UInt8) : List UInt8 × List UInt8 :=
  (text.takeWhile (· ≠ 0x0D), (text.dropWhile (· ≠ 0x0D)).drop 2)

section Serial

theorem serialWriteText_plain {text : List UInt8} (h : newline ∉ text) :
    serialWriteText text = text := by
  induction text with
  | nil => rfl
  | cons c text ih =>
    rw [List.mem_cons, not_or] at h
    obtain ⟨hc, htext⟩ := h
    rw [serialWriteText, List.flatMap_cons, if_neg (Ne.symm hc)]
    exact congrArg (c :: ·) (ih htext)

theorem newline_not_mem_number (w n : ℕ) :
    newline ∉ ascii "0x" ++ hex.write (fixedDigits 16 w n) := by
  have hsymbols : newline ∉ hex.symbols := by decide
  rw [List.mem_append, not_or]
  refine ⟨by decide, ?_⟩
  intro hmem
  obtain ⟨d, hd, hsymbol⟩ := List.mem_map.mp hmem
  have hlt : d < hex.symbols.length := fixedDigits_lt (by decide) hd
  rw [List.getD_eq_getElem?_getD, List.getElem?_eq_getElem hlt, Option.getD_some] at hsymbol
  exact hsymbols (hsymbol ▸ List.getElem_mem hlt)

theorem newline_not_mem_formatHex32 (value : UInt32) : newline ∉ formatHex32 value := by
  rw [formatHex32_eq]
  exact newline_not_mem_number 8 value.toNat

theorem newline_not_mem_formatHex64 (value : UInt64) : newline ∉ formatHex64 value := by
  rw [formatHex64_eq]
  exact newline_not_mem_number 16 value.toNat

theorem serialWriteLabelHex_eq {label : String} (h : newline ∉ ascii label) (value : UInt32) :
    serialWriteLabelHex label value = ascii label ++ formatHex32 value ++ [0x0D, newline] := by
  rw [serialWriteLabelHex, serialWriteText_plain h,
    serialWriteText_plain (newline_not_mem_formatHex32 value)]
  rfl

theorem readLabelHex_append {label : String} (h : newline ∉ ascii label) (value : UInt32)
    (rest : List UInt8) :
    readLabelHex label (serialWriteLabelHex label value ++ rest) = some (value, rest) := by
  rw [serialWriteLabelHex_eq h, readLabelHex]
  simp only [List.append_assoc, expect_append, Option.bind_some, readHex_formatHex32]
  rw [Option.map_some, UInt32.ofNat_toNat]

theorem serialWriteLabelHex64_eq {label : String} (h : newline ∉ ascii label) (value : UInt64) :
    serialWriteLabelHex64 label value = ascii label ++ formatHex64 value ++ [0x0D, newline] := by
  rw [serialWriteLabelHex64, serialWriteText_plain h,
    serialWriteText_plain (newline_not_mem_formatHex64 value)]
  rfl

theorem readLabelHex64_append {label : String} (h : newline ∉ ascii label) (value : UInt64)
    (rest : List UInt8) :
    readLabelHex64 label (serialWriteLabelHex64 label value ++ rest) = some (value, rest) := by
  rw [serialWriteLabelHex64_eq h, readLabelHex64]
  simp only [List.append_assoc, expect_append, Option.bind_some, readHex_formatHex64]
  rw [Option.map_some, UInt64.ofNat_toNat]

/-- A line without a carriage return is read back whole. -/
theorem readLine_append {line : List UInt8} (h : 0x0D ∉ line) (rest : List UInt8) :
    readLine (line ++ [0x0D, newline] ++ rest) = (line, rest) := by
  have hplain : ∀ c ∈ line, decide (c ≠ 0x0D) = true := by
    intro c hc
    simp only [decide_eq_true_eq]
    rintro rfl
    exact h hc
  rw [readLine, List.append_assoc, List.takeWhile_append_of_pos hplain,
    List.dropWhile_append_of_pos hplain]
  simp

end Serial

/-! ## Exceptions -/

def exceptionName (vector : UInt32) : String :=
  if vector = 0 then "#DE divide error"
  else if vector = 3 then "#BP breakpoint"
  else if vector = 6 then "#UD invalid opcode"
  else if vector = 13 then "#GP general protection"
  else if vector = 14 then "#PF page fault"
  else "unknown exception"

/-- The screen, and the bytes that go to the serial port. -/
def stage2ExceptionDispatch (screen : Screen) (vector errorCode eip cs eflags : UInt32) :
    Screen × List UInt8 :=
  let screen := clearScreen screen
  let screen := writeText screen (ascii "custom-os Stage 2 EXCEPTION") 0
  let screen := writeText screen (ascii (exceptionName vector)) 1
  let screen := writeHexAtRow screen "vector:" 3 8 vector
  let screen := writeHexAtRow screen "error :" 4 8 errorCode
  let screen := writeHexAtRow screen "eip   :" 5 8 eip
  let screen := writeHexAtRow screen "cs    :" 6 8 cs
  let screen := writeHexAtRow screen "eflags:" 7 8 eflags
  (screen,
    serialWriteText (ascii "custom-os Stage 2 EXCEPTION\n") ++
    serialWriteText (ascii (exceptionName vector)) ++ serialWriteText (ascii "\n") ++
    serialWriteLabelHex "vector: " vector ++ serialWriteLabelHex "error : " errorCode ++
    serialWriteLabelHex "eip   : " eip ++ serialWriteLabelHex "cs    : " cs ++
    serialWriteLabelHex "eflags: " eflags)

/-- The five numbers on the screen. -/
def readScreen (screen : Screen) : Option (List ℕ) := [3, 4, 5, 6, 7].mapM (readNumber screen)

/-- The five numbers on the serial port, behind the two lines of the heading. -/
def readSerial (text : List UInt8) : Option (List UInt32) := do
  let (vector, text) ← readLabelHex "vector: " (readLine (readLine text).2).2
  let (errorCode, text) ← readLabelHex "error : " text
  let (eip, text) ← readLabelHex "eip   : " text
  let (cs, text) ← readLabelHex "cs    : " text
  let (eflags, _) ← readLabelHex "eflags: " text
  return [vector, errorCode, eip, cs, eflags]

section Exceptions

variable {screen : Screen} {vector errorCode eip cs eflags : UInt32}

theorem exceptionName_plain (vector : UInt32) :
    newline ∉ ascii (exceptionName vector) ∧ 0x0D ∉ ascii (exceptionName vector) := by
  rw [exceptionName]
  split_ifs <;> decide

theorem screen_readable :
    readScreen (stage2ExceptionDispatch screen vector errorCode eip cs eflags).1 =
      some [vector.toNat, errorCode.toNat, eip.toNat, cs.toNat, eflags.toNat] := by
  simp [readScreen, stage2ExceptionDispatch, readNumber_writeHexAtRow, readNumber_other]

theorem serial_readable :
    readSerial (stage2ExceptionDispatch screen vector errorCode eip cs eflags).2 =
      some [vector, errorCode, eip, cs, eflags] := by
  have hheading : serialWriteText (ascii "custom-os Stage 2 EXCEPTION\n") =
      ascii "custom-os Stage 2 EXCEPTION" ++ [0x0D, newline] := rfl
  have hend : serialWriteText (ascii "\n") = [0x0D, newline] := rfl
  have hplain : 0x0D ∉ ascii "custom-os Stage 2 EXCEPTION" := by decide
  obtain ⟨hname, hname'⟩ := exceptionName_plain vector
  have hskip (rest : List UInt8) : (readLine (readLine (ascii "custom-os Stage 2 EXCEPTION" ++
      [0x0D, newline] ++ (ascii (exceptionName vector) ++ [0x0D, newline] ++ rest))).2).2 =
      rest := by
    rw [readLine_append hplain, readLine_append hname']
  have heflags : newline ∉ ascii "eflags: " := by decide
  have hlast := readLabelHex_append heflags eflags []
  rw [List.append_nil] at hlast
  have hvector : newline ∉ ascii "vector: " := by decide
  have herror : newline ∉ ascii "error : " := by decide
  have heip : newline ∉ ascii "eip   : " := by decide
  have hcs : newline ∉ ascii "cs    : " := by decide
  simp only [readSerial, stage2ExceptionDispatch, hheading, hend, serialWriteText_plain hname]
  simp only [List.append_assoc] at hskip ⊢
  rw [hskip]
  simp only [readLabelHex_append hvector, readLabelHex_append herror, readLabelHex_append heip,
    readLabelHex_append hcs, hlast, Option.bind_eq_bind, Option.bind_some]
  rfl

/-- What an exception reports, on the screen and on the serial port, is its vector, its error
code and the context of the instruction that failed. -/
theorem exception_reported (handler selector returnAddr error : UInt32) (c : Cpu)
    (room : 48 ≤ c.stack.pointer.toNat) (screen : Screen) :
    ∀ row ∈ exceptionStubs, ∃ vector errorCode eip cs eflags,
      arguments (push (row.2.2 (takeInterrupt handler selector
          (if row.2.1 then some error else none) c)) returnAddr) =
        [vector, errorCode, eip, cs, eflags] ∧
      readScreen (stage2ExceptionDispatch screen vector errorCode eip cs eflags).1 =
        some [row.1.toNat, (if row.2.1 then error else 0).toNat, c.registers.eip.toNat,
          c.registers.cs.toNat, c.registers.eflags.toNat] ∧
      readSerial (stage2ExceptionDispatch screen vector errorCode eip cs eflags).2 =
        some [row.1, if row.2.1 then error else 0, c.registers.eip, c.registers.cs,
          c.registers.eflags] := by
  intro row hrow
  refine ⟨row.1, if row.2.1 then error else 0, c.registers.eip, c.registers.cs,
    c.registers.eflags, ?_, screen_readable, serial_readable⟩
  exact entry_arguments handler selector returnAddr error c room row hrow

theorem exception_reported_pageFault :
    readScreen (stage2ExceptionDispatch (fun _ => 0) 14 2 0x102000 0x10 0x202).1 =
      some [14, 2, 0x102000, 0x10, 0x202] := by
  have hrow : ((14, true, isrStubPageFault) : UInt32 × Bool × (Cpu → Cpu)) ∈ exceptionStubs := by
    simp [exceptionStubs]
  obtain ⟨vector, errorCode, eip, cs, eflags, harguments, hscreen, _⟩ :=
    exception_reported 0x101040 0x10 0x101090 2 rowCpu (by decide) (fun _ => 0) _ hrow
  have hcontext := entry_arguments 0x101040 0x10 0x101090 2 rowCpu (by decide) _ hrow
  rw [hcontext] at harguments
  simp only [List.cons.injEq] at harguments
  obtain ⟨rfl, rfl, rfl, rfl, rfl, _⟩ := harguments
  exact hscreen

end Exceptions

/-! ## Panics -/

/-- Neither of the two bytes that end a line on the serial port. -/
def Plain (text : List UInt8) : Prop := newline ∉ text ∧ 0x0D ∉ text

instance (text : List UInt8) : Decidable (Plain text) :=
  inferInstanceAs (Decidable (newline ∉ text ∧ 0x0D ∉ text))

def panic (screen : Screen) (p : Panic) : Screen × List UInt8 :=
  let detailHex := formatHex32 p.detail
  let screen := clearScreen screen
  let screen := writeText screen (ascii "custom-os Stage 6 PANIC") 0
  let screen := writeText screen (ascii p.reason) 1
  let screen := writeHexAtRow screen "detail:" 2 8 p.detail
  (screen,
    serialWriteText (ascii "custom-os Stage 6 PANIC\n") ++ serialWriteText (ascii p.reason) ++
    serialWriteText (ascii "\n") ++ serialWriteText (ascii "detail: ") ++
    serialWriteText detailHex ++ serialWriteText (ascii "\n"))

/-- The reason and the detail on the serial port, behind the heading. -/
def readPanic (text : List UInt8) : Option (List UInt8 × UInt32) :=
  let reason := readLine (readLine text).2
  (readLabelHex "detail: " reason.2).map fun detail => (reason.1, detail.1)

theorem readText_clearScreen (screen : Screen) {row : ℕ} (hrow : row < vgaHeight) :
    readText (clearScreen screen) row 0 vgaWidth = List.replicate vgaWidth 0x20 := by
  rw [List.eq_replicate_iff]
  refine ⟨by simp [readText], ?_⟩
  intro c hc
  obtain ⟨i, hi, rfl⟩ := List.mem_map.mp hc
  have hi := List.mem_range.mp hi
  rw [clearScreen, if_pos, cell_char]
  simp only [vgaWidth, vgaHeight] at *
  omega

/-- A row in which a text was written from the start: the text, then what was there. -/
theorem readText_row (screen : Screen) (text : List UInt8) (row : ℕ) :
    readText (writeText screen text row) row 0 vgaWidth =
      text.take vgaWidth ++ (readText screen row 0 vgaWidth).drop text.length := by
  apply List.ext_getElem
  · simp only [readText, List.length_append, List.length_take, List.length_drop, List.length_map,
      List.length_range]
    omega
  · intro i hi hi'
    have hrow : i < vgaWidth := by
      simpa [readText] using hi
    have hcell : (readText (writeText screen text row) row 0 vgaWidth)[i] =
        (writeTextAt screen text row 0 (row * vgaWidth + 0 + i)).toUInt8 := by
      simp [readText, writeText]
    refine hcell.trans ?_
    by_cases hin : i < text.length
    · rw [writeTextAt_inside hin (by omega), cell_char, List.getElem_append_left (by simp; omega),
        List.getElem_take]
    · rw [writeTextAt_other (by omega), List.getElem_append_right (by simp; omega)]
      simp only [readText, List.getElem_drop, List.getElem_map, List.getElem_range,
        List.length_take]
      congr 2
      omega

/-- A panic can be read back from both devices; on the screen a long reason is cut off. -/
theorem panic_reported (screen : Screen) (p : Panic) (plain : Plain (ascii p.reason)) :
    readText (panic screen p).1 1 0 vgaWidth =
        (ascii p.reason).take vgaWidth ++
          List.replicate (vgaWidth - (ascii p.reason).length) 0x20 ∧
      readNumber (panic screen p).1 2 = some p.detail.toNat ∧
      readPanic (panic screen p).2 = some (ascii p.reason, p.detail) := by
  obtain ⟨hnewline, hreturn⟩ := plain
  refine ⟨?_, readNumber_writeHexAtRow _ _ _ _, ?_⟩
  · simp only [panic, writeHexAtRow]
    rw [readText_other (by decide) (by decide), writeText,
      readText_other (by decide) (by decide), readText_row, writeText,
      readText_other (by decide) (by decide), readText_clearScreen _ (by decide),
      List.drop_replicate]
  · have hheading : serialWriteText (ascii "custom-os Stage 6 PANIC\n") =
        ascii "custom-os Stage 6 PANIC" ++ [0x0D, newline] := rfl
    have hend : serialWriteText (ascii "\n") = [0x0D, newline] := rfl
    have hplain : 0x0D ∉ ascii "custom-os Stage 6 PANIC" := by decide
    have hlabel : newline ∉ ascii "detail: " := by decide
    have hdetail := readLabelHex_append hlabel p.detail []
    have hlines (rest : List UInt8) : readLine (readLine (ascii "custom-os Stage 6 PANIC" ++
        [0x0D, newline] ++ (ascii p.reason ++ [0x0D, newline] ++ rest))).2 =
        (ascii p.reason, rest) := by
      rw [readLine_append hplain, readLine_append hreturn]
    rw [serialWriteLabelHex, List.append_nil] at hdetail
    simp only [readPanic, panic, hheading, hend, serialWriteText_plain hnewline]
    simp only [hend, List.append_assoc] at hlines hdetail ⊢
    rw [hlines]
    simp only [hdetail, Option.map_some]

/-! ## Interrupts -/

def tickLabel : String := "custom-os Stage 6 tick: "
def scancodeLabel : String := "custom-os Stage 6 scancode: "

/-- What the handlers send. -/
def reportBytes : Report → List UInt8
  | .tick ticks => serialWriteLabelHex tickLabel ticks
  | .scancode scancode => serialWriteLabelHex scancodeLabel scancode.toUInt32

def readReport (text : List UInt8) : Option (Report × List UInt8) :=
  match readLabelHex tickLabel text with
  | some (ticks, rest) => some (.tick ticks, rest)
  | none => (readLabelHex scancodeLabel text).map fun line =>
      (.scancode line.1.toUInt8, line.2)

theorem labels_plain : newline ∉ ascii tickLabel ∧ newline ∉ ascii scancodeLabel := by decide

theorem readReport_append (report : Report) (rest : List UInt8) :
    readReport (reportBytes report ++ rest) = some (report, rest) := by
  obtain ⟨htick, hscancode⟩ := labels_plain
  cases report with
  | tick ticks => rw [readReport, reportBytes, readLabelHex_append htick]
  | scancode scancode =>
    have hdiffers : (ascii scancodeLabel).take (ascii tickLabel).length ≠ ascii tickLabel := by
      decide
    have hother (text : List UInt8) : readLabelHex tickLabel (ascii scancodeLabel ++ text) =
        none := by
      rw [readLabelHex, expect, List.take_append_of_le_length (by decide), if_neg hdiffers]
      rfl
    have hnone : readLabelHex tickLabel (serialWriteLabelHex scancodeLabel scancode.toUInt32 ++
        rest) = none := by
      rw [serialWriteLabelHex_eq hscancode, List.append_assoc, List.append_assoc]
      exact hother _
    rw [readReport, reportBytes, hnone, readLabelHex_append hscancode]
    simp

/-- The interrupts are on the serial port in full and in order. -/
theorem reports_readable (log : List Report) :
    decodeAll readReport log.length (log.flatMap reportBytes) = some log := by
  refine decodeAll_flatMap readReport_append (fun report => ?_) log le_rfl
  cases report with
  | tick ticks => simp [reportBytes, serialWriteLabelHex_eq labels_plain.1]
  | scancode scancode => simp [reportBytes, serialWriteLabelHex_eq labels_plain.2]

end Console
