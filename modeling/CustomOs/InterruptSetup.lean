import CustomOs.Library.MachineWord
import Mathlib.Data.Finset.Basic

/-! # Setting up interrupts
The descriptor table that the processor reads, and the two 8259 controllers, the 8254 timer and
the keyboard controller as port accesses reach them. What the kernel leaves in them does not
depend on the state that the firmware left. -/
namespace InterruptSetup

/-! ## The descriptor table -/

structure IdtEntry where
  offsetLow : UInt16
  selector : UInt16
  zero : UInt8
  typeAttr : UInt8
  offsetHigh : UInt16
  deriving DecidableEq, Repr

/-- What `lidt` is given: the limit, and the table at the base. -/
structure Idt where
  limit : UInt16
  entries : UInt8 → IdtEntry

def idtIntGatePresentRing0 : UInt8 := 0x8E
def irqBaseVector : UInt32 := 0x20

/-- The fields that `idt_set_gate` writes. -/
def gateEntry (addr : UInt32) (selector : UInt16) : IdtEntry :=
  ⟨(addr &&& 0xFFFF).toUInt16, selector, 0, idtIntGatePresentRing0,
    ((addr >>> 16) &&& 0xFFFF).toUInt16⟩

def idtSetGate (entries : UInt8 → IdtEntry) (vector : UInt8) (addr : UInt32)
    (selector : UInt16) : UInt8 → IdtEntry := fun v =>
  if v = vector then gateEntry addr selector else entries v

def idtClear (_ : UInt8 → IdtEntry) : UInt8 → IdtEntry := fun _ => ⟨0, 0, 0, 0, 0⟩

/-- Where the assembly entries lie. -/
structure Stubs where
  isrStubDivideError : UInt32
  isrStubBreakpoint : UInt32
  isrStubInvalidOpcode : UInt32
  isrStubGeneralProtection : UInt32
  isrStubPageFault : UInt32
  irqStubTimer : UInt32
  irqStubKeyboard : UInt32
  distinct : irqStubTimer ≠ irqStubKeyboard

/-- The selector is that of the running code. -/
def idtInstall (idt : Idt) (stubs : Stubs) (codeSelector : UInt16) : Idt :=
  let entries := idtClear idt.entries
  let entries := idtSetGate entries 0 stubs.isrStubDivideError codeSelector
  let entries := idtSetGate entries 3 stubs.isrStubBreakpoint codeSelector
  let entries := idtSetGate entries 6 stubs.isrStubInvalidOpcode codeSelector
  let entries := idtSetGate entries 13 stubs.isrStubGeneralProtection codeSelector
  let entries := idtSetGate entries 14 stubs.isrStubPageFault codeSelector
  let entries := idtSetGate entries (irqBaseVector + 0).toUInt8 stubs.irqStubTimer codeSelector
  let entries := idtSetGate entries (irqBaseVector + 1).toUInt8 stubs.irqStubKeyboard codeSelector
  ⟨256 * 8 - 1, entries⟩

/-! ### What the processor makes of a descriptor -/

/-- The packed structure as the eight bytes of a descriptor. -/
def IdtEntry.descriptor (e : IdtEntry) : ℕ :=
  e.offsetLow.toNat + 2 ^ 16 * e.selector.toNat + 2 ^ 32 * e.zero.toNat +
    2 ^ 40 * e.typeAttr.toNat + 2 ^ 48 * e.offsetHigh.toNat

inductive GateKind where
  | interrupt
  | trap
  deriving DecidableEq, Repr

structure Gate where
  handler : UInt32
  selector : UInt16
  kind : GateKind
  privilege : ℕ
  deriving DecidableEq, Repr

/-- A present 32-bit gate; the type is in bits 40 to 44, the privilege in the two above. -/
def readGate (descriptor : ℕ) : Option Gate :=
  let gate (kind : GateKind) : Gate :=
    ⟨UInt32.ofNat (descriptor % 2 ^ 16 + 2 ^ 16 * (descriptor / 2 ^ 48 % 2 ^ 16)),
      UInt16.ofNat (descriptor / 2 ^ 16), kind, descriptor / 2 ^ 45 % 4⟩
  if descriptor / 2 ^ 47 % 2 = 0 then none
  else
    match descriptor / 2 ^ 40 % 2 ^ 5 with
    | 14 => some (gate .interrupt)
    | 15 => some (gate .trap)
    | _ => none

/-- The gate for a vector; one behind the limit is not read. -/
def Idt.gate (idt : Idt) (vector : UInt8) : Option Gate :=
  if idt.limit.toNat < 8 * vector.toNat + 7 then none
  else readGate (idt.entries vector).descriptor

/-- The entry that belongs to a vector. -/
def Stubs.entry (stubs : Stubs) (vector : UInt8) : Option UInt32 :=
  if vector = 0 then some stubs.isrStubDivideError
  else if vector = 3 then some stubs.isrStubBreakpoint
  else if vector = 6 then some stubs.isrStubInvalidOpcode
  else if vector = 13 then some stubs.isrStubGeneralProtection
  else if vector = 14 then some stubs.isrStubPageFault
  else if vector = 0x20 then some stubs.irqStubTimer
  else if vector = 0x21 then some stubs.irqStubKeyboard
  else none

theorem gateEntry_descriptor (addr : UInt32) (selector : UInt16) :
    (gateEntry addr selector).descriptor =
      addr.toNat % 2 ^ 16 + 2 ^ 16 * selector.toNat + 2 ^ 40 * 0x8E +
        2 ^ 48 * (addr.toNat / 2 ^ 16) := by
  have haddr := addr.toNat_lt
  have hlow : (addr &&& 0xFFFF).toUInt16.toNat = addr.toNat % 2 ^ 16 := by
    rw [UInt32.toNat_toUInt16, MachineWord.and_mask32 addr 16 rfl, Nat.mod_mod]
  have hhigh : ((addr >>> 16) &&& 0xFFFF).toUInt16.toNat = addr.toNat / 2 ^ 16 := by
    rw [UInt32.toNat_toUInt16, MachineWord.and_mask32 _ 16 rfl,
      MachineWord.shiftRight32 addr 16 rfl (by decide)]
    omega
  have htype : idtIntGatePresentRing0.toNat = 0x8E := rfl
  simp only [IdtEntry.descriptor, gateEntry, hlow, hhigh, htype, UInt8.toNat_zero]
  omega

/-- The processor finds the address again in the two halves. -/
theorem readGate_gateEntry (addr : UInt32) (selector : UInt16) :
    readGate (gateEntry addr selector).descriptor = some ⟨addr, selector, .interrupt, 0⟩ := by
  have haddr := addr.toNat_lt
  have hselector := selector.toNat_lt
  have hword := gateEntry_descriptor addr selector
  generalize (gateEntry addr selector).descriptor = d at hword ⊢
  have hpresent : d / 2 ^ 47 % 2 = 1 := by omega
  have hkind : d / 2 ^ 40 % 2 ^ 5 = 14 := by omega
  have hprivilege : d / 2 ^ 45 % 4 = 0 := by omega
  have hoffset : UInt32.ofNat (d % 2 ^ 16 + 2 ^ 16 * (d / 2 ^ 48 % 2 ^ 16)) = addr := by
    apply UInt32.toNat_inj.mp
    rw [UInt32.toNat_ofNat']
    omega
  have hcode : UInt16.ofNat (d / 2 ^ 16) = selector := by
    apply UInt16.toNat_inj.mp
    rw [UInt16.toNat_ofNat']
    omega
  simp only [readGate, hpresent, hkind, hprivilege, hoffset, hcode, one_ne_zero, if_false]

/-- A vector leads to its own entry, through a gate that shuts out further interrupts, or the
processor finds no gate. -/
theorem idtInstall_gate (idt : Idt) (stubs : Stubs) (codeSelector : UInt16) (vector : UInt8) :
    (idtInstall idt stubs codeSelector).gate vector =
      (stubs.entry vector).map fun addr => ⟨addr, codeSelector, .interrupt, 0⟩ := by
  have hlimit : ¬ (256 * 8 - 1 : UInt16).toNat < 8 * vector.toNat + 7 := by
    have := vector.toNat_lt
    change ¬ 2047 < _
    omega
  have htimer : (irqBaseVector + 0).toUInt8 = 0x20 := rfl
  have hkeyboard : (irqBaseVector + 1).toUInt8 = 0x21 := rfl
  have hempty : readGate (IdtEntry.descriptor ⟨0, 0, 0, 0, 0⟩) = none := rfl
  simp only [Idt.gate, idtInstall, hlimit, if_false, idtSetGate, idtClear, Stubs.entry, htimer,
    hkeyboard]
  -- The gates are set in ascending order, so the last one that matches is the only one.
  split_ifs <;> simp_all only [readGate_gateEntry, Option.map_some, Option.map_none] <;>
    contradiction

/-! ## The interrupt controllers -/

def pic1Command : UInt16 := 0x20
def pic1Data : UInt16 := 0x21
def pic2Command : UInt16 := 0xA0
def pic2Data : UInt16 := 0xA1
def picIcw1Init : UInt8 := 0x10
def picIcw1Icw4 : UInt8 := 0x01
def picIcw4_8086 : UInt8 := 0x01
def picEoi : UInt8 := 0x20

abbrev Line := Fin 8

/-- What the data port of a controller takes next: masks, or a byte of the set-up that the first
command byte has begun. -/
inductive PicPhase where
  | ready
  | icw2 (icw1 : UInt8)
  | icw3 (icw1 : UInt8)
  | icw4
  deriving DecidableEq, Repr

structure Pic where
  phase : PicPhase
  offset : UInt8
  cascade : UInt8
  mode : UInt8
  masks : UInt8
  requests : Finset Line
  inService : Finset Line
  deriving DecidableEq

/-- The line of the highest priority. -/
def highest (lines : Finset Line) : Option Line := (List.finRange 8).find? (· ∈ lines)

/-- The first byte of a set-up unmasks all lines and forgets what they asked for; an
end-of-interrupt takes the highest line out of service. The other commands are not sent here. -/
def Pic.writeCommand (p : Pic) (value : UInt8) : Pic :=
  if value &&& 0x10 ≠ 0 then
    { p with
      phase := .icw2 value
      masks := 0
      requests := ∅
      inService := ∅
      mode := if value &&& 0x01 = 0 then 0 else p.mode }
  else if value = picEoi then
    match highest p.inService with
    | some line => { p with inService := p.inService.erase line }
    | none => p
  else p

/-- After the second byte, or the third when there are two controllers, comes the fourth if the
first announced it. -/
def Pic.writeData (p : Pic) (value : UInt8) : Pic :=
  let last (icw1 : UInt8) : PicPhase := if icw1 &&& 0x01 ≠ 0 then .icw4 else .ready
  match p.phase with
  | .ready => { p with masks := value }
  | .icw2 icw1 =>
    { p with offset := value &&& 0xF8, phase := if icw1 &&& 0x02 ≠ 0 then last icw1 else .icw3 icw1 }
  | .icw3 icw1 => { p with cascade := value, phase := last icw1 }
  | .icw4 => { p with mode := value, phase := .ready }

def Pic.masked (p : Pic) (line : Line) : Bool := p.masks.toNat.testBit line

/-- The requests that get through: unmasked, and above everything in service. -/
def Pic.deliverable (p : Pic) : Finset Line :=
  p.requests.filter fun line => p.masked line = false ∧ ∀ busy ∈ p.inService, line < busy

/-! ## The other devices -/

def pitChannel0 : UInt16 := 0x40
def pitCommand : UInt16 := 0x43
def keyboardData : UInt16 := 0x60

/-- Channel 0 of the timer: the command in force, the low byte when it waits for the high one,
and the reload value. -/
structure Pit where
  command : UInt8
  low : Option UInt8
  reload : ℕ
  deriving DecidableEq, Repr

def Pit.writeCommand (p : Pit) (value : UInt8) : Pit :=
  if value >>> 6 = 0 then { p with command := value, low := none } else p

/-- A reload value is written low byte, high byte, or both one after the other. -/
def Pit.writeChannel0 (p : Pit) (value : UInt8) : Pit :=
  match (p.command >>> 4) &&& 3, p.low with
  | 1, _ => { p with reload := value.toNat }
  | 2, _ => { p with reload := 2 ^ 8 * value.toNat }
  | 3, none => { p with low := some value }
  | 3, some low => { p with low := none, reload := low.toNat + 2 ^ 8 * value.toNat }
  | _, _ => p

/-- The keyboard controller: the byte in its buffer, and whether it is still to be read. -/
structure Keyboard where
  scancode : UInt8
  full : Bool
  deriving DecidableEq, Repr

structure Ports where
  master : Pic
  slave : Pic
  pit : Pit
  keyboard : Keyboard
  deriving DecidableEq

def outb (s : Ports) (port : UInt16) (value : UInt8) : Ports :=
  if port = pic1Command then { s with master := s.master.writeCommand value }
  else if port = pic1Data then { s with master := s.master.writeData value }
  else if port = pic2Command then { s with slave := s.slave.writeCommand value }
  else if port = pic2Data then { s with slave := s.slave.writeData value }
  else if port = pitCommand then { s with pit := s.pit.writeCommand value }
  else if port = pitChannel0 then { s with pit := s.pit.writeChannel0 value }
  else s

/-- Reading the keyboard empties its buffer. -/
def inb (s : Ports) (port : UInt16) : UInt8 × Ports :=
  if port = pic1Data then (s.master.masks, s)
  else if port = pic2Data then (s.slave.masks, s)
  else if port = keyboardData then
    (s.keyboard.scancode, { s with keyboard := { s.keyboard with full := false } })
  else (0xFF, s)

def ioWait (s : Ports) : Ports := outb s 0x80 0

/-! ## The driver -/

def picSendEoi (s : Ports) (irq : UInt8) : Ports :=
  let s := if 8 ≤ irq then outb s pic2Command picEoi else s
  outb s pic1Command picEoi

def picSetMasks (s : Ports) (masterMask slaveMask : UInt8) : Ports :=
  outb (outb s pic1Data masterMask) pic2Data slaveMask

def picRemap (s : Ports) (masterOffset slaveOffset : UInt8) : Ports :=
  let (masterMask, s) := inb s pic1Data
  let (slaveMask, s) := inb s pic2Data
  let s := ioWait (outb s pic1Command (picIcw1Init ||| picIcw1Icw4))
  let s := ioWait (outb s pic2Command (picIcw1Init ||| picIcw1Icw4))
  let s := ioWait (outb s pic1Data masterOffset)
  let s := ioWait (outb s pic2Data slaveOffset)
  let s := ioWait (outb s pic1Data 0x04)
  let s := ioWait (outb s pic2Data 0x02)
  let s := ioWait (outb s pic1Data picIcw4_8086)
  let s := ioWait (outb s pic2Data picIcw4_8086)
  outb (outb s pic1Data masterMask) pic2Data slaveMask

def pitInputHz : UInt32 := 1193182
def pitTargetHz : UInt32 := 100

def pitInit (s : Ports) (targetHz : UInt32) : Ports :=
  let divisor := pitInputHz / targetHz
  let s := outb s pitCommand 0x36
  let s := outb s pitChannel0 (divisor &&& 0xFF).toUInt8
  outb s pitChannel0 ((divisor >>> 8) &&& 0xFF).toUInt8

/-- The last steps of `stage0_main` in front of `sti`. -/
def startDevices (s : Ports) : Ports :=
  let s := picRemap s irqBaseVector.toUInt8 (irqBaseVector + 8).toUInt8
  let s := picSetMasks s 0xFC 0xFF
  pitInit s pitTargetHz

theorem picRemap_eq (s : Ports) (masterOffset slaveOffset : UInt8) :
    picRemap s masterOffset slaveOffset =
      { s with
        master := ⟨.ready, masterOffset &&& 0xF8, 0x04, 0x01, s.master.masks, ∅, ∅⟩
        slave := ⟨.ready, slaveOffset &&& 0xF8, 0x02, 0x01, s.slave.masks, ∅, ∅⟩ } := by
  rfl

theorem writeChannel0_low (value : UInt8) (reload : ℕ) :
    Pit.writeChannel0 ⟨0x36, none, reload⟩ value = ⟨0x36, some value, reload⟩ := by
  have haccess : ((0x36 : UInt8) >>> 4) &&& 3 = 3 := by decide
  simp only [Pit.writeChannel0, haccess]

theorem writeChannel0_high (low value : UInt8) (reload : ℕ) :
    Pit.writeChannel0 ⟨0x36, some low, reload⟩ value =
      ⟨0x36, none, low.toNat + 2 ^ 8 * value.toNat⟩ := by
  have haccess : ((0x36 : UInt8) >>> 4) &&& 3 = 3 := by decide
  simp only [Pit.writeChannel0, haccess]

/-- For every rate that a 16-bit reload value can express, the two bytes make up the interval. -/
theorem pitInit_eq (s : Ports) {targetHz : UInt32} (slowest : 19 ≤ targetHz.toNat) :
    pitInit s targetHz = { s with pit := ⟨0x36, none, 1193182 / targetHz.toNat⟩ } := by
  have hdivisor : (pitInputHz / targetHz).toNat = 1193182 / targetHz.toNat := UInt32.toNat_div ..
  have hsmall : 1193182 / targetHz.toNat ≤ 1193182 / 19 :=
    Nat.div_le_div_left slowest (by decide)
  have hlow : (pitInputHz / targetHz &&& 0xFF).toUInt8.toNat =
      1193182 / targetHz.toNat % 2 ^ 8 := by
    rw [UInt32.toNat_toUInt8, MachineWord.and_mask32 _ 8 rfl, hdivisor, Nat.mod_mod]
  have hhigh : (((pitInputHz / targetHz) >>> 8) &&& 0xFF).toUInt8.toNat =
      1193182 / targetHz.toNat / 2 ^ 8 := by
    rw [UInt32.toNat_toUInt8, MachineWord.and_mask32 _ 8 rfl,
      MachineWord.shiftRight32 _ 8 rfl (by decide), hdivisor]
    omega
  have hreload : (pitInputHz / targetHz &&& 0xFF).toUInt8.toNat +
      2 ^ 8 * (((pitInputHz / targetHz) >>> 8) &&& 0xFF).toUInt8.toNat =
      1193182 / targetHz.toNat := by
    rw [hlow, hhigh]
    omega
  have hbytes (low high : UInt8) :
      outb (outb (outb s pitCommand 0x36) pitChannel0 low) pitChannel0 high =
        { s with pit := ((s.pit.writeCommand 0x36).writeChannel0 low).writeChannel0 high } := rfl
  have hcommand : s.pit.writeCommand 0x36 = ⟨0x36, none, s.pit.reload⟩ := rfl
  rw [pitInit, hbytes, hcommand, writeChannel0_low, writeChannel0_high, hreload]

/-- Whatever the firmware left, the lines of the timer and the keyboard are open and no other,
nothing is in service and the timer runs at 100 Hz. A byte in the keyboard controller stays. -/
theorem startDevices_eq (s : Ports) :
    startDevices s =
      ⟨⟨.ready, 0x20, 0x04, 0x01, 0xFC, ∅, ∅⟩, ⟨.ready, 0x28, 0x02, 0x01, 0xFF, ∅, ∅⟩,
        ⟨0x36, none, 11931⟩, s.keyboard⟩ := by
  have hslowest : 19 ≤ pitTargetHz.toNat := by decide
  rw [startDevices, pitInit_eq _ hslowest, picRemap_eq]
  rfl

end InterruptSetup
