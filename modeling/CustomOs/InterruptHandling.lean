import CustomOs.InterruptSetup
import CustomOs.Library.Transition

/-! # Handling interrupts
The devices, the controllers, the processor and the two handlers take steps in any order. A
device raises its line, the keyboard controller takes a byte when its buffer is empty, and the
processor takes an interrupt between two instructions when its flag allows it. -/
namespace InterruptHandling

open InterruptSetup Transition

/-! ## The system -/

/-- Where a handler is, with what it has loaded. -/
inductive Point where
  | tickLoad
  | tickStore (value : UInt32)
  | tickReport
  | tickEoi
  | tickReturn
  | keyLoad
  | keyReport (scancode : UInt8)
  | keyEoi
  | keyReturn
  deriving DecidableEq, Repr

/-- The loop behind `stage0_main`, a handler, or an interrupt that has no entry. -/
inductive Activity where
  | hang
  | handler (p : Point)
  | stray
  deriving DecidableEq, Repr

/-- A line on the serial port. -/
inductive Report where
  | tick (ticks : UInt32)
  | scancode (scancode : UInt8)
  deriving DecidableEq, Repr

/-- The stack has what was interrupted, with the interrupt flag it had. -/
structure System where
  idt : Idt
  stubs : Stubs
  ports : Ports
  interruptFlag : Bool
  running : Activity
  stack : List (Activity × Bool)
  gTimerTicks : UInt32
  log : List Report

/-- Right behind `sti`. -/
def started (idt : Idt) (stubs : Stubs) (codeSelector : UInt16) (ports : Ports) : System :=
  ⟨idtInstall idt stubs codeSelector, stubs, startDevices ports, true, .hang, [], 0, []⟩

/-! ### The controllers -/

def raise (p : Pic) (line : Line) : Pic := { p with requests := insert line p.requests }

def accept (p : Pic) (line : Line) : Pic :=
  { p with requests := p.requests.erase line, inService := insert line p.inService }

/-- The second controller asks through line 2 of the first. -/
def cascaded (s : Ports) : Pic :=
  if (highest s.slave.deliverable).isSome then raise s.master 2 else s.master

/-- The vector that the controllers answer with when the processor takes an interrupt. -/
def acknowledge (s : Ports) : Option (UInt8 × Ports) :=
  match highest (cascaded s).deliverable with
  | none => none
  | some line =>
    if line = 2 then
      (highest s.slave.deliverable).map fun second : Line =>
        (s.slave.offset + UInt8.ofNat second.val,
          { s with master := accept s.master line, slave := accept s.slave second })
    else
      some (s.master.offset + UInt8.ofNat line.val, { s with master := accept s.master line })

/-! ### The processor -/

def entryPoint (stubs : Stubs) (addr : UInt32) : Option Point :=
  if addr = stubs.irqStubTimer then some .tickLoad
  else if addr = stubs.irqStubKeyboard then some .keyLoad
  else none

/-- Through the gate of the vector; an interrupt gate clears the flag. -/
def deliver (s : System) (vector : UInt8) : System :=
  match s.idt.gate vector with
  | none => { s with running := .stray }
  | some gate =>
    match entryPoint s.stubs gate.handler with
    | none => { s with running := .stray }
    | some p =>
      { s with
        stack := (s.running, s.interruptFlag) :: s.stack
        running := .handler p
        interruptFlag := if gate.kind = .interrupt then false else s.interruptFlag }

def iret (s : System) : System :=
  match s.stack with
  | [] => { s with running := .stray }
  | (interrupted, flag) :: stack =>
    { s with running := interrupted, interruptFlag := flag, stack := stack }

/-- One step of `stage3_irq0_handler` or `stage4_irq1_handler`; the stubs around them end with
`iret`. -/
def advance (s : System) : Point → System
  | .tickLoad => { s with running := .handler (.tickStore s.gTimerTicks) }
  | .tickStore value => { s with gTimerTicks := value + 1, running := .handler .tickReport }
  | .tickReport =>
    { s with
      log := if s.gTimerTicks % pitTargetHz = 0 then s.log ++ [.tick s.gTimerTicks] else s.log
      running := .handler .tickEoi }
  | .tickEoi => { s with ports := picSendEoi s.ports 0, running := .handler .tickReturn }
  | .tickReturn => iret s
  | .keyLoad =>
    { s with
      ports := (inb s.ports keyboardData).2
      running := .handler (.keyReport (inb s.ports keyboardData).1) }
  | .keyReport scancode =>
    { s with log := s.log ++ [.scancode scancode], running := .handler .keyEoi }
  | .keyEoi => { s with ports := picSendEoi s.ports 1, running := .handler .keyReturn }
  | .keyReturn => iret s

/-! ### Steps -/

/-- An edge is lost when its line still has a request. -/
inductive Event where
  | edge (line : Line) (lost : Bool)
  | slaveEdge (line : Line)
  | key (scancode : UInt8)
  | acknowledge (vector : UInt8)
  | handler
  deriving DecidableEq, Repr

/-- Line 1 belongs to the keyboard controller and line 2 to the second controller. -/
def Enabled (s : System) : Event → Prop
  | .edge line lost => line ≠ 1 ∧ line ≠ 2 ∧ lost = decide (line ∈ s.ports.master.requests)
  | .slaveEdge _ => True
  | .key _ => s.ports.keyboard.full = false
  | .acknowledge vector =>
    s.interruptFlag = true ∧ (acknowledge s.ports).map Prod.fst = some vector
  | .handler => ∃ p, s.running = .handler p

def next (s : System) : Event → System
  | .edge line _ => { s with ports := { s.ports with master := raise s.ports.master line } }
  | .slaveEdge line => { s with ports := { s.ports with slave := raise s.ports.slave line } }
  | .key scancode =>
    { s with ports := { s.ports with
      master := raise s.ports.master 1, keyboard := ⟨scancode, true⟩ } }
  | .acknowledge _ =>
    match acknowledge s.ports with
    | none => s
    | some (vector, ports) => deliver { s with ports := ports } vector
  | .handler =>
    match s.running with
    | .handler p => advance s p
    | _ => s

def Step (s : System) (e : Event) (t : System) : Prop := Enabled s e ∧ t = next s e

/-! ## One interrupt at a time -/

abbrev timerLine : Line := 0
abbrev keyboardLine : Line := 1

/-- What is in service while a handler runs: its own line, up to the end-of-interrupt. -/
def Point.inService : Point → Finset Line
  | .tickLoad | .tickStore _ | .tickReport | .tickEoi => {timerLine}
  | .keyLoad | .keyReport _ | .keyEoi => {keyboardLine}
  | .tickReturn | .keyReturn => ∅

def Activity.inService : Activity → Finset Line
  | .handler p => p.inService
  | _ => ∅

/-- The controllers are as the kernel set them up. -/
structure SetUp (ports : Ports) (busy : Finset Line) : Prop where
  masterMasks : ports.master.masks = 0xFC
  masterOffset : ports.master.offset = 0x20
  inService : ports.master.inService = busy
  slaveMasks : ports.slave.masks = 0xFF

/-- Either the loop runs and interrupts are let in, or one handler runs and they are not. -/
inductive Serving (s : System) : Prop where
  | hang (running : s.running = .hang) (flag : s.interruptFlag = true) (stack : s.stack = [])
  | handler (p : Point) (running : s.running = .handler p) (flag : s.interruptFlag = false)
      (stack : s.stack = [(.hang, true)])

structure Invariant (idt : Idt) (stubs : Stubs) (codeSelector : UInt16) (s : System) : Prop where
  idt_eq : s.idt = idtInstall idt stubs codeSelector
  stubs_eq : s.stubs = stubs
  setUp : SetUp s.ports s.running.inService
  serving : Serving s
  loaded : ∀ value, s.running = .handler (.tickStore value) → value = s.gTimerTicks

section Controllers

variable {ports : Ports} {busy : Finset Line}

theorem masked_master {p : Pic} (h : p.masks = 0xFC) (line : Line) :
    p.masked line = false ↔ line = 0 ∨ line = 1 := by
  rw [Pic.masked, h]
  revert line
  decide

theorem masked_slave {p : Pic} (h : p.masks = 0xFF) (line : Line) : p.masked line = true := by
  rw [Pic.masked, h]
  revert line
  decide

theorem highest_low {lines : Finset Line} (h : ∀ line ∈ lines, line = 0 ∨ line = 1) :
    highest lines = if 0 ∈ lines then some 0 else if 1 ∈ lines then some 1 else none := by
  have hrange : List.finRange 8 = [0, 1, 2, 3, 4, 5, 6, 7] := by decide
  have hhigh : ∀ line : Line, line ≠ 0 → line ≠ 1 → line ∉ lines :=
    fun line hne₀ hne₁ hmem => (h line hmem).elim hne₀ hne₁
  by_cases h0 : (0 : Line) ∈ lines
  · simp [highest, hrange, h0]
  by_cases h1 : (1 : Line) ∈ lines
  · simp [highest, hrange, h0, h1]
  · simp [highest, hrange, h0, h1, hhigh]

/-- The second controller never asks. -/
theorem cascaded_eq (h : SetUp ports busy) : cascaded ports = ports.master := by
  have hnone : ports.slave.deliverable = ∅ := by
    simp [Pic.deliverable, masked_slave h.slaveMasks]
  rw [cascaded, hnone]
  rfl

/-- With nothing in service the timer is served before the keyboard, and no other line is. -/
theorem acknowledge_eq (h : SetUp ports ∅) :
    acknowledge ports =
      if 0 ∈ ports.master.requests then
        some (0x20, { ports with master := accept ports.master 0 })
      else if 1 ∈ ports.master.requests then
        some (0x21, { ports with master := accept ports.master 1 })
      else none := by
  have hmem : ∀ line, line ∈ ports.master.deliverable ↔
      line ∈ ports.master.requests ∧ (line = 0 ∨ line = 1) := by
    intro line
    simp [Pic.deliverable, h.inService, masked_master h.masterMasks]
  have hhighest := highest_low fun line hline => ((hmem line).mp hline).2
  rw [acknowledge, cascaded_eq h, hhighest]
  simp only [hmem, true_or, or_true, and_true]
  split_ifs with h0 h1
  · rw [h.masterOffset]
    rfl
  · rw [h.masterOffset]
    rfl
  · rfl

theorem highest_singleton (line : Line) : highest {line} = some line := by
  revert line
  decide

/-- The end-of-interrupt is for the line that is served. -/
theorem picSendEoi_eq {line : Line} (h : ports.master.inService = {line}) (irq : UInt8)
    (hirq : irq < 8) :
    picSendEoi ports irq = { ports with master := { ports.master with inService := ∅ } } := by
  have hnot : ¬ (picEoi &&& 0x10 ≠ 0) := by decide
  have hwrite : ports.master.writeCommand picEoi = { ports.master with inService := ∅ } := by
    rw [Pic.writeCommand, if_neg hnot, if_pos rfl, h, highest_singleton]
    simp
  rw [picSendEoi, if_neg (UInt8.not_le.mpr hirq), ← hwrite]
  rfl

end Controllers

section Steps

variable {idt : Idt} {stubs : Stubs} {codeSelector : UInt16} {s t : System} {e : Event}

/-- The processor turns from the loop to the handler of a line. -/
def serve (s : System) (line : Line) (p : Point) : System :=
  { s with
    ports := { s.ports with master := accept s.ports.master line }
    stack := [(.hang, true)]
    running := .handler p
    interruptFlag := false }

/-- The handler is left. -/
def leave (s : System) : System :=
  { s with running := .hang, interruptFlag := true, stack := [] }

/-- What taking an interrupt can do. -/
theorem Invariant.acknowledged (h : Invariant idt stubs codeSelector s) {vector : UInt8}
    (he : Enabled s (.acknowledge vector)) :
    s.running = .hang ∧
      (vector = 0x20 ∧ 0 ∈ s.ports.master.requests ∧
        next s (.acknowledge vector) = serve s 0 .tickLoad ∨
      vector = 0x21 ∧ 0 ∉ s.ports.master.requests ∧ 1 ∈ s.ports.master.requests ∧
        next s (.acknowledge vector) = serve s 1 .keyLoad) := by
  obtain ⟨hflag, hvector⟩ := he
  cases h.serving with
  | handler p running flag stack =>
    rw [flag] at hflag
    cases hflag
  | hang running flag stack =>
    have hsetUp := h.setUp
    rw [running] at hsetUp
    have hanswer := acknowledge_eq hsetUp
    have hgate (vector : UInt8) : s.idt.gate vector =
        (stubs.entry vector).map fun addr => ⟨addr, codeSelector, .interrupt, 0⟩ := by
      rw [h.idt_eq, idtInstall_gate]
    have htimer : entryPoint s.stubs stubs.irqStubTimer = some .tickLoad := by
      rw [h.stubs_eq, entryPoint, if_pos rfl]
    have hkeyboard : entryPoint s.stubs stubs.irqStubKeyboard = some .keyLoad := by
      rw [h.stubs_eq, entryPoint, if_neg stubs.distinct.symm, if_pos rfl]
    refine ⟨running, ?_⟩
    by_cases h0 : 0 ∈ s.ports.master.requests
    · rw [if_pos h0] at hanswer
      rw [hanswer] at hvector
      obtain rfl := Option.some.inj hvector
      have hentry : stubs.entry 0x20 = some stubs.irqStubTimer := rfl
      refine Or.inl ⟨rfl, h0, ?_⟩
      simp only [next, hanswer, deliver, hgate, hentry, Option.map_some, htimer, running, stack,
        flag, serve, if_true]
    · rw [if_neg h0] at hanswer
      by_cases h1 : 1 ∈ s.ports.master.requests
      · rw [if_pos h1] at hanswer
        rw [hanswer] at hvector
        obtain rfl := Option.some.inj hvector
        have hentry : stubs.entry 0x21 = some stubs.irqStubKeyboard := rfl
        refine Or.inr ⟨rfl, h0, h1, ?_⟩
        simp only [next, hanswer, deliver, hgate, hentry, Option.map_some, hkeyboard, running,
          stack, flag, serve, if_true]
      · rw [if_neg h1] at hanswer
        rw [hanswer] at hvector
        cases hvector

theorem Invariant.iret_eq (h : Invariant idt stubs codeSelector s) {p : Point}
    (running : s.running = .handler p) : iret s = leave s := by
  cases h.serving with
  | hang running' => rw [running] at running'; cases running'
  | handler q running' flag stack => simp only [iret, stack, leave]

theorem Invariant.handling (h : Invariant idt stubs codeSelector s) {p : Point}
    (running : s.running = .handler p) : s.interruptFlag = false ∧ s.stack = [(.hang, true)] := by
  cases h.serving with
  | hang running' => rw [running] at running'; cases running'
  | handler q running' flag stack => exact ⟨flag, stack⟩

theorem Serving.congr (h : Serving s) (running : t.running = s.running)
    (flag : t.interruptFlag = s.interruptFlag) (stack : t.stack = s.stack) : Serving t := by
  cases h with
  | hang running' flag' stack' =>
    exact .hang (running.trans running') (flag.trans flag') (stack.trans stack')
  | handler p running' flag' stack' =>
    exact .handler p (running.trans running') (flag.trans flag') (stack.trans stack')

theorem started_invariant (idt : Idt) (stubs : Stubs) (codeSelector : UInt16) (ports : Ports) :
    Invariant idt stubs codeSelector (started idt stubs codeSelector ports) := by
  have hports : (started idt stubs codeSelector ports).ports = startDevices ports := rfl
  rw [startDevices_eq] at hports
  constructor
  · rfl
  · rfl
  · rw [hports]
    exact ⟨rfl, rfl, rfl, rfl⟩
  · exact .hang rfl rfl rfl
  · intro value hvalue
    cases hvalue

/-- A device that raises a line interrupts nothing by itself. -/
theorem Invariant.devices (h : Invariant idt stubs codeSelector s) {ports : Ports}
    (masterMasks : ports.master.masks = s.ports.master.masks)
    (masterOffset : ports.master.offset = s.ports.master.offset)
    (inService : ports.master.inService = s.ports.master.inService)
    (slaveMasks : ports.slave.masks = s.ports.slave.masks) :
    Invariant idt stubs codeSelector { s with ports := ports } := by
  constructor
  · exact h.idt_eq
  · exact h.stubs_eq
  · exact ⟨masterMasks.trans h.setUp.masterMasks, masterOffset.trans h.setUp.masterOffset,
      inService.trans h.setUp.inService, slaveMasks.trans h.setUp.slaveMasks⟩
  · exact h.serving.congr rfl rfl rfl
  · exact h.loaded

theorem Invariant.serve (h : Invariant idt stubs codeSelector s) (running : s.running = .hang)
    {line : Line} {p : Point} (hline : p.inService = {line})
    (hfirst : ∀ value, p ≠ .tickStore value) :
    Invariant idt stubs codeSelector (serve s line p) := by
  have hsetUp := h.setUp
  rw [running] at hsetUp
  constructor
  · exact h.idt_eq
  · exact h.stubs_eq
  · refine ⟨hsetUp.masterMasks, hsetUp.masterOffset, ?_, hsetUp.slaveMasks⟩
    have hnone : s.ports.master.inService = ∅ := hsetUp.inService
    simp [InterruptHandling.serve, accept, hnone, Activity.inService, hline]
  · exact .handler p rfl rfl rfl
  · intro value hvalue
    exact absurd (Activity.handler.inj hvalue) (hfirst value)

theorem Invariant.leave (h : Invariant idt stubs codeSelector s)
    (hdone : s.ports.master.inService = ∅) : Invariant idt stubs codeSelector (leave s) := by
  constructor
  · exact h.idt_eq
  · exact h.stubs_eq
  · exact ⟨h.setUp.masterMasks, h.setUp.masterOffset, hdone, h.setUp.slaveMasks⟩
  · exact .hang rfl rfl rfl
  · intro value hvalue
    cases hvalue

/-- A step inside a handler: the same line stays in service, or none when it has been ended. -/
theorem Invariant.within (h : Invariant idt stubs codeSelector s) {p q : Point}
    (running : s.running = .handler p) {ports : Ports} {ticks : UInt32} {log : List Report}
    (setUp : SetUp ports q.inService) (hvalue : ∀ value, q = .tickStore value → value = ticks) :
    Invariant idt stubs codeSelector
      { s with ports := ports, running := .handler q, gTimerTicks := ticks, log := log } := by
  obtain ⟨flag, stack⟩ := h.handling running
  constructor
  · exact h.idt_eq
  · exact h.stubs_eq
  · exact setUp
  · exact .handler q rfl flag stack
  · intro value hq
    exact hvalue value (Activity.handler.inj hq)

theorem Invariant.advance (h : Invariant idt stubs codeSelector s) {p : Point}
    (running : s.running = .handler p) :
    Invariant idt stubs codeSelector (advance s p) := by
  have hsetUp : SetUp s.ports p.inService := by
    have := h.setUp
    rwa [running] at this
  cases p with
  | tickLoad =>
    refine h.within running hsetUp ?_
    rintro value ⟨⟩
    rfl
  | tickStore value => exact h.within running hsetUp fun _ hq => by cases hq
  | tickReport => exact h.within running hsetUp fun _ hq => by cases hq
  | tickEoi =>
    have heoi := picSendEoi_eq hsetUp.inService 0 (by decide)
    refine h.within running ?_ fun _ hq => by cases hq
    rw [heoi]
    exact ⟨hsetUp.masterMasks, hsetUp.masterOffset, rfl, hsetUp.slaveMasks⟩
  | tickReturn =>
    rw [InterruptHandling.advance, h.iret_eq running]
    exact h.leave hsetUp.inService
  | keyLoad =>
    refine h.within running ?_ fun _ hq => by cases hq
    exact ⟨hsetUp.masterMasks, hsetUp.masterOffset, hsetUp.inService, hsetUp.slaveMasks⟩
  | keyReport scancode => exact h.within running hsetUp fun _ hq => by cases hq
  | keyEoi =>
    have heoi := picSendEoi_eq hsetUp.inService 1 (by decide)
    refine h.within running ?_ fun _ hq => by cases hq
    rw [heoi]
    exact ⟨hsetUp.masterMasks, hsetUp.masterOffset, rfl, hsetUp.slaveMasks⟩
  | keyReturn =>
    rw [InterruptHandling.advance, h.iret_eq running]
    exact h.leave hsetUp.inService

theorem next_handler {p : Point} (running : s.running = .handler p) :
    next s .handler = advance s p := by
  simp only [next, running]

theorem Invariant.step (h : Invariant idt stubs codeSelector s) (hs : Step s e t) :
    Invariant idt stubs codeSelector t := by
  obtain ⟨he, rfl⟩ := hs
  cases e with
  | edge line lost => exact h.devices rfl rfl rfl rfl
  | slaveEdge line => exact h.devices rfl rfl rfl rfl
  | key scancode => exact h.devices rfl rfl rfl rfl
  | acknowledge vector =>
    obtain ⟨running, ⟨_, _, hnext⟩ | ⟨_, _, _, hnext⟩⟩ := h.acknowledged he
    · rw [hnext]
      exact h.serve running rfl fun _ hq => by cases hq
    · rw [hnext]
      exact h.serve running rfl fun _ hq => by cases hq
  | handler =>
    obtain ⟨p, running⟩ := he
    rw [next_handler running]
    exact h.advance running

end Steps

end InterruptHandling
