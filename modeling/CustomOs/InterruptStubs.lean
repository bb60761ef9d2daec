import CustomOs.Library.WordStack

/-! # The assembly entries (`stage2_exceptions.S`)
An interrupt pushes the context that it leaves, an entry saves the registers around the call of
a C function, and `iret` goes back. What is interrupted does not notice; what fails is reported
with the context of the failure. -/
namespace InterruptStubs

open ByteMemory WordStack

structure Registers where
  eax : UInt32
  ecx : UInt32
  edx : UInt32
  ebx : UInt32
  ebp : UInt32
  esi : UInt32
  edi : UInt32
  eip : UInt32
  cs : UInt32
  eflags : UInt32
  deriving DecidableEq, Repr

/-- The stack pointer is the pointer of the stack. -/
structure Cpu where
  registers : Registers
  stack : Stack

/-! ## The processor -/

def directionFlag : UInt32 := 0x400
def interruptAndTrapFlags : UInt32 := 0x300

/-- Through an interrupt gate; some exceptions push an error code as well. -/
def takeInterrupt (handler selector : UInt32) (errorCode : Option UInt32) (c : Cpu) : Cpu :=
  let r := c.registers
  { registers := { r with
      eip := handler
      cs := selector
      eflags := r.eflags &&& ~~~interruptAndTrapFlags }
    stack := c.stack.pushAll ([r.eflags, r.cs, r.eip] ++ errorCode.toList) }

def push (c : Cpu) (w : UInt32) : Cpu := { c with stack := c.stack.push w }

def pusha (c : Cpu) : Cpu :=
  let r := c.registers
  let saved := [r.eax, r.ecx, r.edx, r.ebx, c.stack.pointer, r.ebp, r.esi, r.edi]
  { c with stack := c.stack.pushAll saved }

/-- The pushed stack pointer is skipped. -/
def popa (c : Cpu) : Cpu :=
  { registers := { c.registers with
      edi := c.stack.word 0
      esi := c.stack.word 1
      ebp := c.stack.word 2
      ebx := c.stack.word 4
      edx := c.stack.word 5
      ecx := c.stack.word 6
      eax := c.stack.word 7 }
    stack := c.stack.drop 8 }

def cld (c : Cpu) : Cpu :=
  { c with registers := { c.registers with eflags := c.registers.eflags &&& ~~~directionFlag } }

def iret (c : Cpu) : Cpu :=
  { registers := { c.registers with
      eip := c.stack.word 0
      cs := c.stack.word 1
      eflags := c.stack.word 2 }
    stack := c.stack.drop 3 }

/-- A compiled C function up to its `ret`, called on the stack between the two addresses: it
leaves the stack pointer where it was, and writes nothing from there up to the end. -/
structure CFunction (bottom top : ℕ) where
  body : Cpu → Cpu
  pointer : ∀ c, (body c).stack.pointer = c.stack.pointer
  frame : ∀ c, bottom ≤ c.stack.pointer.toNat →
    SameFrom c.stack.pointer.toNat top c.stack.memory (body c).stack.memory

def call {bottom top : ℕ} (f : CFunction bottom top) (returnAddr : UInt32) (c : Cpu) : Cpu :=
  let c := f.body (push c returnAddr)
  { c with stack := c.stack.drop 1 }

/-! ## The entries -/

/-- `irq_stub_timer` and `irq_stub_keyboard`, which differ in the function they call. -/
def irqStub {bottom top : ℕ} (f : CFunction bottom top) (returnAddr : UInt32) (c : Cpu) : Cpu :=
  iret (popa (call f returnAddr (cld (pusha c))))

def isrCommon (c : Cpu) : Cpu :=
  let r := { c.registers with
    eax := c.stack.word 0
    ebx := c.stack.word 1
    ecx := c.stack.word 2
    edx := c.stack.word 3
    esi := c.stack.word 4 }
  { registers := r, stack := c.stack.pushAll [r.esi, r.edx, r.ecx, r.ebx, r.eax] }

def isrStubDivideError (c : Cpu) : Cpu := isrCommon (push (push c 0) 0)
def isrStubBreakpoint (c : Cpu) : Cpu := isrCommon (push (push c 0) 3)
def isrStubInvalidOpcode (c : Cpu) : Cpu := isrCommon (push (push c 0) 6)
def isrStubGeneralProtection (c : Cpu) : Cpu := isrCommon (push c 13)
def isrStubPageFault (c : Cpu) : Cpu := isrCommon (push c 14)

/-- Vector, whether the processor pushes an error code, and entry. -/
def exceptionStubs : List (UInt32 × Bool × (Cpu → Cpu)) :=
  [(0, false, isrStubDivideError), (3, false, isrStubBreakpoint),
    (6, false, isrStubInvalidOpcode), (13, true, isrStubGeneralProtection),
    (14, true, isrStubPageFault)]

/-- The arguments that a function finds above its return address. -/
def arguments (c : Cpu) : List UInt32 := (List.range 5).map fun k => c.stack.word (k + 1)

/-! ## The interrupted code -/

section Entries

variable {bottom top : ℕ}

theorem empty_holds (s : Stack) : Holds s [] := ⟨by simpa using s.pointer.toNat_lt.le, trivial⟩

/-- The stack inside the called function, its return address on top, then what `pusha` and the
interrupt have pushed. -/
theorem pusha_holds (handler selector returnAddr : UInt32) (c : Cpu)
    (room : 48 ≤ c.stack.pointer.toNat) :
    ∃ pointer : UInt32,
      Holds (push (cld (pusha (takeInterrupt handler selector none c))) returnAddr).stack
        [returnAddr, c.registers.edi, c.registers.esi, c.registers.ebp, pointer,
          c.registers.ebx, c.registers.edx, c.registers.ecx, c.registers.eax, c.registers.eip,
          c.registers.cs, c.registers.eflags] ∧
      (push (cld (pusha (takeInterrupt handler selector none c))) returnAddr).stack.pointer.toNat +
        48 = c.stack.pointer.toNat ∧
      SameFrom c.stack.pointer.toNat (2 ^ 32) c.stack.memory
        (push (cld (pusha (takeInterrupt handler selector none c))) returnAddr).stack.memory := by
  set r := c.registers with hr
  obtain ⟨hheld, hpointer, hsame⟩ := pushAll_spec (empty_holds c.stack) [r.eflags, r.cs, r.eip]
    (by simp; omega)
  set s := c.stack.pushAll [r.eflags, r.cs, r.eip]
  simp only [List.length_cons, List.length_nil] at hpointer
  obtain ⟨hheld', hpointer', hsame'⟩ := pushAll_spec hheld
    [r.eax, r.ecx, r.edx, r.ebx, s.pointer, r.ebp, r.esi, r.edi] (by simp; omega)
  set t := s.pushAll [r.eax, r.ecx, r.edx, r.ebx, s.pointer, r.ebp, r.esi, r.edi]
  simp only [List.length_cons, List.length_nil] at hpointer'
  have hroom : 4 ≤ t.pointer.toNat := by omega
  have hreturn := pointer_push (s := t) (w := returnAddr) hroom
  refine ⟨s.pointer, hheld'.push hroom returnAddr, ?_, ?_⟩
  · change (t.push returnAddr).pointer.toNat + 48 = _
    omega
  · have hlast : SameFrom c.stack.pointer.toNat (2 ^ 32) t.memory (t.push returnAddr).memory :=
      (push_same hroom returnAddr).mono (by omega)
    exact (hsame.trans (hsame'.mono (by omega))).trans hlast

/-- An interrupt leaves no trace in the registers, nor in the stack above where it came in. -/
theorem irq_transparent (f : CFunction bottom top) (handler selector returnAddr : UInt32) (c : Cpu)
    (room : bottom + 48 ≤ c.stack.pointer.toNat) (inside : c.stack.pointer.toNat ≤ top)
    (fits : top ≤ 2 ^ 32) :
    (irqStub f returnAddr (takeInterrupt handler selector none c)).registers = c.registers ∧
      (irqStub f returnAddr (takeInterrupt handler selector none c)).stack.pointer =
        c.stack.pointer ∧
      SameFrom c.stack.pointer.toNat top c.stack.memory
        (irqStub f returnAddr (takeInterrupt handler selector none c)).stack.memory := by
  obtain ⟨pointer, hheld, hpointer, hsame⟩ :=
    pusha_holds handler selector returnAddr c (by omega)
  set entered := push (cld (pusha (takeInterrupt handler selector none c))) returnAddr
  have hlt := c.stack.pointer.toNat_lt
  have hframe := f.frame entered (by omega)
  have hdone := hheld.congr (f.pointer entered) hframe (by simp; omega) fits
  have hbody : (f.body entered).stack.pointer.toNat + 48 = c.stack.pointer.toNat := by
    rw [f.pointer entered, hpointer]
  set done := (f.body entered).stack with hdoneStack
  have hreturned := hdone.drop (k := 1) (by simp) (by omega)
  have hreturnedPointer := pointer_drop (s := done) (k := 1) (by omega)
  have hpopped := hreturned.drop (k := 8) (by simp) (by omega)
  have hpoppedPointer := pointer_drop (s := done.drop 1) (k := 8) (by omega)
  have hleftPointer := pointer_drop (s := (done.drop 1).drop 8) (k := 3) (by omega)
  refine ⟨?_, ?_, ?_⟩
  · have hword (k : ℕ) (hk : k < 8) := hreturned.word (k := k) (by simp; omega)
    have hcontext (k : ℕ) (hk : k < 3) := hpopped.word (k := k) (by simp; omega)
    have hregisters : (irqStub f returnAddr (takeInterrupt handler selector none c)).registers =
        ⟨(done.drop 1).word 7, (done.drop 1).word 6, (done.drop 1).word 5, (done.drop 1).word 4,
          (done.drop 1).word 2, (done.drop 1).word 1, (done.drop 1).word 0,
          ((done.drop 1).drop 8).word 0, ((done.drop 1).drop 8).word 1,
          ((done.drop 1).drop 8).word 2⟩ := rfl
    rw [hregisters, hword 0 (by omega), hword 1 (by omega), hword 2 (by omega),
      hword 4 (by omega), hword 5 (by omega), hword 6 (by omega), hword 7 (by omega),
      hcontext 0 (by omega), hcontext 1 (by omega), hcontext 2 (by omega)]
    rfl
  · apply UInt32.toNat_inj.mp
    change (((done.drop 1).drop 8).drop 3).pointer.toNat = _
    omega
  · intro x hx hx'
    change done.memory x = _
    rw [hframe x (by omega) hx', hsame x hx (by omega)]

/-- A handler that counts a tick in a word off the stack and clobbers two registers. -/
def countTick : CFunction 0x150000 0x154000 where
  body c :=
    let counted := store32 c.stack.memory 0x160000 (load32 c.stack.memory 0x160000 + 1)
    ⟨{ c.registers with eax := 0, eflags := 0 }, { c.stack with memory := counted }⟩
  pointer _ := rfl
  frame c _ := by
    intro x hx hx'
    apply store32_outside
    · decide
    · rintro ⟨hl, _⟩
      change 0x160000 ≤ x.toNat at hl
      omega

def rowCpu : Cpu := ⟨⟨1, 2, 3, 4, 5, 6, 7, 0x102000, 0x10, 0x202⟩, ⟨0x153FF0, fun _ => 0⟩⟩

theorem irq_transparent_countTick :
    (irqStub countTick 0x101050 (takeInterrupt 0x101050 0x10 none rowCpu)).registers =
      ⟨1, 2, 3, 4, 5, 6, 7, 0x102000, 0x10, 0x202⟩ :=
  (irq_transparent countTick _ _ _ rowCpu (by decide) (by decide) (by decide)).1

/-- What the common part hands on: the five words it finds on the stack. -/
theorem isrCommon_arguments {vector error eip cs eflags : UInt32} {c : Cpu}
    (h : Holds c.stack [vector, error, eip, cs, eflags]) (room : 24 ≤ c.stack.pointer.toNat)
    (returnAddr : UInt32) :
    arguments (push (isrCommon c) returnAddr) = [vector, error, eip, cs, eflags] := by
  have hvector : c.stack.word 0 = vector := h.word (k := 0) (by simp)
  have herror : c.stack.word 1 = error := h.word (k := 1) (by simp)
  have heip : c.stack.word 2 = eip := h.word (k := 2) (by simp)
  have hcs : c.stack.word 3 = cs := h.word (k := 3) (by simp)
  have heflags : c.stack.word 4 = eflags := h.word (k := 4) (by simp)
  obtain ⟨hheld, hpointer, _⟩ := pushAll_spec h [eflags, cs, eip, error, vector] (by simp; omega)
  simp only [List.length_cons, List.length_nil] at hpointer
  have hcalled := hheld.push (by omega) returnAddr
  set entered := (c.stack.pushAll [eflags, cs, eip, error, vector]).push returnAddr
  have hentered : (push (isrCommon c) returnAddr).stack = entered := by
    simp only [push, isrCommon, hvector, herror, heip, hcs, heflags, entered]
  have hargument (k : ℕ) (hk : k < 5) := hcalled.word (k := k + 1) (by simp; omega)
  have hrange : List.range 5 = [0, 1, 2, 3, 4] := rfl
  simp only [arguments, hrange, hentered, List.map_cons, List.map_nil]
  rw [hargument 0 (by omega), hargument 1 (by omega), hargument 2 (by omega),
    hargument 3 (by omega), hargument 4 (by omega)]
  rfl

/-- The function that reports an exception is given the vector, the error code, 0 where there is
none, and the context of the failure. -/
theorem entry_arguments (handler selector returnAddr error : UInt32) (c : Cpu)
    (room : 48 ≤ c.stack.pointer.toNat) :
    ∀ row ∈ exceptionStubs,
      arguments (push (row.2.2 (takeInterrupt handler selector
          (if row.2.1 then some error else none) c)) returnAddr) =
        [row.1, if row.2.1 then error else 0, c.registers.eip, c.registers.cs,
          c.registers.eflags] := by
  set r := c.registers with hr
  obtain ⟨hheld, hpointer, _⟩ := pushAll_spec (empty_holds c.stack) [r.eflags, r.cs, r.eip]
    (by simp; omega)
  obtain ⟨hheldError, hpointerError, _⟩ := pushAll_spec (empty_holds c.stack)
    [r.eflags, r.cs, r.eip, error] (by simp; omega)
  set s := c.stack.pushAll [r.eflags, r.cs, r.eip]
  set e := c.stack.pushAll [r.eflags, r.cs, r.eip, error]
  simp only [List.length_cons, List.length_nil] at hpointer hpointerError
  have hzero := pointer_push (s := s) (w := 0) (by omega)
  -- Without an error code the entry pushes a zero in its place.
  have hplain (vector : UInt32) : arguments (push (isrCommon
      (push (push (takeInterrupt handler selector none c) 0) vector)) returnAddr) =
      [vector, 0, r.eip, r.cs, r.eflags] := by
    have hpushed := pointer_push (s := s.push 0) (w := vector) (by omega)
    apply isrCommon_arguments ((hheld.push (by omega) 0).push (by omega) vector)
    change 24 ≤ ((s.push 0).push vector).pointer.toNat
    omega
  have hcoded (vector : UInt32) : arguments (push (isrCommon
      (push (takeInterrupt handler selector (some error) c) vector)) returnAddr) =
      [vector, error, r.eip, r.cs, r.eflags] := by
    have hpushed := pointer_push (s := e) (w := vector) (by omega)
    apply isrCommon_arguments (hheldError.push (by omega) vector)
    change 24 ≤ (e.push vector).pointer.toNat
    omega
  intro row hrow
  simp only [exceptionStubs, List.mem_cons, List.not_mem_nil, or_false] at hrow
  rcases hrow with rfl | rfl | rfl | rfl | rfl
  · exact hplain 0
  · exact hplain 3
  · exact hplain 6
  · exact hcoded 13
  · exact hcoded 14

end Entries

end InterruptStubs
