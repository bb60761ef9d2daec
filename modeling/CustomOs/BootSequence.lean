import CustomOs.AccountingAgreement
import CustomOs.Console
import CustomOs.EarlyStages
import CustomOs.FillAndCompare
import CustomOs.SelfChecks

/-! # The boot (`stage0_main`)
All stages in order, from the Multiboot2 block in memory to the kernel that waits for
interrupts. The boot ends in the running kernel just when enough frames are left for the heap,
and every panic on the way can be read from the serial port. -/
namespace BootSequence

open ByteMemory MemoryMap MultibootParser MultibootDecoding FrameEligibility PhysicalFrames
open PhysicalFrameTracking Paging PageMapper PageMapRefinement KernelMemory FrameConservation
open Interaction KernelServices SelfChecks FillAndCompare EarlyStages
open HeapReference (lowFrame pageSupply)
open InterruptSetup (Idt Stubs Ports)
open Console (Plain Screen ascii readText readNumber readPanic vgaWidth)
open InterruptAccounts (firmwarePorts rowStubs)
open Sweep (sweep)

/-- The machine as the bootloader hands it over, with what the linker and the compiler have laid
out: where the kernel ends, the page tables, the stack and the arrays on it. -/
structure Machine where
  memory : Memory
  heapWindow : Memory
  pages : PageMemory
  cpu : ControlRegisters
  idt : Idt
  ports : Ports
  kernelPhysEnd : UInt32
  layout : TableLayout
  stubs : Stubs
  codeSelector : UInt16
  stack : Memory
  arrays10c : LocalArrays
  arrays10e : LocalArrays
  separate10c : arrays10c.Separate
  separate10e : arrays10e.Separate

structure Booted where
  frames : Stage5cFrameBookkeeping
  cpu : ControlRegisters
  kernel : KernelHeapState
  interrupts : InterruptHandling.System

def multiboot2BootloaderMagic : UInt32 := 0x36D76289

/-- What follows a stage, unless it has panicked. -/
def onward {α β : Type} (outcome : Option (Except Panic α))
    (rest : α → Option (Except Panic β)) : Option (Except Panic β) :=
  match outcome with
  | none => none
  | some (.error panic) => some (.error panic)
  | some (.ok value) => rest value

/-- The stages from 8C on, over the allocator and the page tables as they are by then. -/
def runSelfChecks (fuel : ℕ) (m : Machine) (frames : Stage5cFrameBookkeeping) (pmm : Pmm)
    (pages : PageMemory) : Option (Except Panic KernelHeapState) :=
  onward ((stage10cPrimitives fuel m.stack m.arrays10c).map .ok) fun primitivesOk =>
  onward ((stage10ePrimitives fuel m.stack m.arrays10e).map .ok) fun primitivesAgainOk =>
  (run (serviceHandler fuel (kernelOps frames m.layout)) (selfChecks primitivesOk primitivesAgainOk)
    ⟨⟨false, 0, 0, 0, 0⟩, m.heapWindow, ⟨pmm, pages, []⟩⟩).map fun outcome =>
      outcome.1.map fun _ => outcome.2

/-- Within so many iterations of each loop. -/
def stage0Main (fuel : ℕ) (m : Machine) (mb2Magic mb2InfoAddr : UInt32) :
    Option (Except Panic Booted) :=
  if mb2Magic ≠ multiboot2BootloaderMagic then
    some (.error ⟨"invalid Multiboot2 magic", mb2Magic⟩)
  else if mb2InfoAddr = 0 then some (.error ⟨"null Multiboot2 info pointer", mb2InfoAddr⟩)
  else
    onward (stage5aParseMmap fuel m.memory mb2InfoAddr) fun memory =>
    onward (some (stage5cPrepareFrameBookkeeping kernelPhysStart m.kernelPhysEnd memory))
      fun frames =>
    let pmm := stage5dRunBootAllocationTest frames bootPmm
    let pages := stage7bSetupEarlyIdentityPaging m.layout m.pages
    onward (some (stage7cRunPagingActivationSelfCheck m.layout m.cpu)) fun cpu =>
    onward (some (stage7dRunIdentityValidationSelfCheck m.layout cpu pages)) fun _ =>
    onward (some stage8aRunVmmLayoutPolicySelfCheck) fun _ =>
    onward (some (stage8bRunVmmMappingInterfaceSelfCheck m.layout pages)) fun pages =>
    onward (runSelfChecks fuel m frames pmm pages) fun kernel =>
    some (.ok ⟨frames, cpu, kernel,
      InterruptHandling.started m.idt m.stubs m.codeSelector m.ports⟩)

/-- The frames that are left for the heap, in the order of the allocator: whether each lies below
4 GiB, where the heap can map it. -/
def heapSupply (frames : Stage5cFrameBookkeeping) : List Bool :=
  ((sweep frames.spans 0).drop 4).map lowFrame

/-- The kernel is up: its heap has four pages and agrees with the reference, the first 4 MiB are
where they were before paging, and interrupts are let in. -/
structure Up (m : Machine) (booted : Booted) : Prop where
  heap : ∃ r, Represents booted.frames m.layout booted.kernel r
      ((heapSupply booted.frames).drop 4) ∧
    r.heap.initialized = true ∧ r.heap.pages = 4 ∧ r.heap.current = 0x403E70
  identity : ∀ addr : UInt32, addr.toNat < 0x400000 →
    translate booted.cpu booted.kernel.env.pages addr = some addr
  interrupts : booted.interrupts =
    InterruptHandling.started m.idt m.stubs m.codeSelector m.ports

section Boot

variable {m : Machine} {frames : Stage5cFrameBookkeeping} {memory : Stage5bMemoryBookkeeping}
  {infoAddr : UInt32} {fuel : ℕ} {panic : Panic}

/-- The heap has not been used when Stage 8C begins, and the frames behind the first four are
left for it. -/
theorem before_checks {pages : PageMemory} (sound : SoundTable frames)
    (hrefines : Refines m.layout pages fun _ => none) :
    Represents frames m.layout ⟨⟨false, 0, 0, 0, 0⟩, m.heapWindow,
      ⟨stage5dRunBootAllocationTest frames bootPmm, pages, []⟩⟩ .unused (heapSupply frames) := by
  obtain ⟨htracks, hnext⟩ := bootAllocation_tracks sound
  have hrep := unused_represents m.heapWindow htracks hrefines fun _ _ _ => rfl
  have hsupply : pageSupply frames (stage5dRunBootAllocationTest frames bootPmm) =
      heapSupply frames := by
    rw [pageSupply, hnext, heapSupply]
  rwa [hsupply] at hrep

/-- The checks on local arrays pass, so the others decide. -/
theorem runSelfChecks_eq (hfuel : 17 ≤ fuel) (pmm : Pmm) (pages : PageMemory) :
    runSelfChecks fuel m frames pmm pages =
      (run (serviceHandler fuel (kernelOps frames m.layout)) (selfChecks true true)
        ⟨⟨false, 0, 0, 0, 0⟩, m.heapWindow, ⟨pmm, pages, []⟩⟩).map fun outcome =>
          outcome.1.map fun _ => outcome.2 := by
  have hprimitives := @stage10c_primitives_pass m.stack _ _ m.separate10c hfuel
  have hagain := @stage10e_primitives_pass m.stack _ _ m.separate10e hfuel
  simp only [runSelfChecks, hprimitives, hagain, Option.map_some, onward]

/-- The stages from 8C on, from the state that the stages before them leave. -/
theorem runSelfChecks_ends {pages : PageMemory} (sound : SoundTable frames)
    (hrefines : Refines m.layout pages fun _ => none) (hfuel : 17 ≤ fuel) :
    (∀ e, shortage (granted (heapSupply frames)) = some e →
      runSelfChecks fuel m frames (stage5dRunBootAllocationTest frames bootPmm) pages =
        some (.error e)) ∧
    (shortage (granted (heapSupply frames)) = none →
      ∃ kernel r, runSelfChecks fuel m frames (stage5dRunBootAllocationTest frames bootPmm) pages =
          some (.ok kernel) ∧
        Represents frames m.layout kernel r ((heapSupply frames).drop 4) ∧
        r.heap.initialized = true ∧ r.heap.pages = 4 ∧ r.heap.current = 0x403E70) := by
  obtain ⟨hpanics, hpasses⟩ := selfChecks_run (before_checks (m := m) sound hrefines) sound
    (Nat.le_trans (by omega) hfuel)
  rw [runSelfChecks_eq hfuel]
  constructor
  · intro e he
    obtain ⟨t, hrun⟩ := hpanics e he
    rw [hrun]
    rfl
  · intro hnone
    obtain ⟨t, r, hrun, hends⟩ := hpasses hnone
    refine ⟨t, r, ?_, hends⟩
    rw [hrun]
    rfl

theorem stage0Main_ends (given : infoAddr ≠ 0) (hfuel : 17 ≤ fuel)
    (parsed : stage5aParseMmap fuel m.memory infoAddr = some (.ok memory))
    (prepared : stage5cPrepareFrameBookkeeping kernelPhysStart m.kernelPhysEnd memory =
      .ok frames) (sound : SoundTable frames) :
    (∀ e, shortage (granted (heapSupply frames)) = some e →
      stage0Main fuel m multiboot2BootloaderMagic infoAddr = some (.error e)) ∧
    (shortage (granted (heapSupply frames)) = none →
      ∃ booted, stage0Main fuel m multiboot2BootloaderMagic infoAddr = some (.ok booted) ∧
        booted.frames = frames ∧ Up m booted) := by
  have hsetup := setup_refines m.layout m.pages
  obtain ⟨pages, hmapping, hrefines⟩ := mappingInterface_passes hsetup rfl
  obtain ⟨hpanics, hpasses⟩ := runSelfChecks_ends (m := m) sound hrefines hfuel
  have hstages : stage0Main fuel m multiboot2BootloaderMagic infoAddr =
      onward (runSelfChecks fuel m frames (stage5dRunBootAllocationTest frames bootPmm) pages)
        fun kernel => some (.ok ⟨frames, activated m.layout m.cpu, kernel,
          InterruptHandling.started m.idt m.stubs m.codeSelector m.ports⟩) := by
    rw [stage0Main, if_neg (not_not.mpr rfl), if_neg given]
    simp only [parsed, prepared, activation_passes, identityValidation_passes hsetup,
      layoutPolicy_passes, hmapping, onward]
  constructor
  · intro e he
    rw [hstages, hpanics e he]
    rfl
  · intro hnone
    obtain ⟨kernel, r, hrun, hrep, hstate⟩ := hpasses hnone
    refine ⟨_, by rw [hstages, hrun]; rfl, rfl, ⟨r, hrep, hstate⟩, ?_, rfl⟩
    intro addr haddr
    obtain ⟨_, htracked, _⟩ := hrep.heap.pages
    exact (activation_transparent htracked.refines m.cpu addr).trans (if_pos haddr)

/-- Stage 5C refuses an image that does not reach beyond 1 MiB, and no other. -/
theorem prepare_ends (memory : Stage5bMemoryBookkeeping) (kernelEnd : UInt32) :
    (kernelEnd.toNat ≤ 0x100000 → stage5cPrepareFrameBookkeeping kernelPhysStart kernelEnd memory =
      .error ⟨"invalid kernel reservation bounds", 0x000500C0⟩) ∧
    (0x100000 < kernelEnd.toNat → ∃ frames,
      stage5cPrepareFrameBookkeeping kernelPhysStart kernelEnd memory = .ok frames) := by
  have hstart : kernelPhysStart.toUInt64 &&& ~~~(stage5cFrameSize - 1) = 0x100000 := by decide
  have hlt := kernelEnd.toNat_lt
  have hover : (stage5cAlignUp4k kernelEnd.toUInt64).1 = false := by
    rw [← Bool.not_eq_true, alignUp4k_overflow, UInt32.toNat_toUInt64]
    omega
  have hend := (alignUp4k_toNat hover).1
  rw [UInt32.toNat_toUInt64] at hend
  have hmeg : (0x100000 : UInt64).toNat = 0x100000 := rfl
  simp only [stage5cPrepareFrameBookkeeping, hover, hstart, Bool.false_eq_true, false_or]
  constructor
  · intro hlow
    rw [if_pos]
    rw [UInt64.le_iff_toNat_le, hend, hmeg]
    omega
  · intro hhigh
    rw [if_neg]
    · exact ⟨_, rfl⟩
    · rw [UInt64.le_iff_toNat_le, hend, hmeg]
      omega

theorem infoEnd_eq {tags : List BlockTag} (h : WellFormedBlock m.memory infoAddr tags) :
    (infoEnd m.memory infoAddr).toNat =
      infoAddr.toNat + (infoTotalSize m.memory infoAddr).toNat := by
  obtain ⟨mmap, hmmap⟩ := h.mmap
  have hfits := h.fits mmap hmmap
  exact MachineWord.toNat_add32 (by omega)

theorem parseStart_wellFormed {tags : List BlockTag} (h : WellFormedBlock m.memory infoAddr tags) :
    parseStart m.memory infoAddr = .ok ⟨.tags (UInt32.ofNat (infoAddr.toNat + 8)), false,
      stage5ParseTotalsReset, stage5bResetBookkeeping, []⟩ := by
  have hcovered := h.covered
  have hend := infoEnd_eq h
  have h8 : infoHeaderSize.toNat = 8 := rfl
  have hfirst : infoAddr + infoHeaderSize = UInt32.ofNat (infoAddr.toNat + 8) := by
    rw [← h8, UInt32.ofNat_add, UInt32.ofNat_toNat, UInt32.ofNat_toNat]
  rw [parseStart, if_neg, if_neg, hfirst]
  · rw [UInt32.lt_iff_toNat_lt]
    omega
  · rw [UInt32.lt_iff_toNat_lt, h8]
    omega

/-- The parser gets through a well-formed block with its entries accounted. -/
theorem parse_wellFormed {tags : List BlockTag} (h : WellFormedBlock m.memory infoAddr tags) :
    ∃ enough, ∀ fuel, enough ≤ fuel → stage5aParseMmap fuel m.memory infoAddr =
      some (.ok (decodedBookkeeping (tags.flatMap BlockTag.entries))) := by
  obtain ⟨mmap, hmmap⟩ := h.mmap
  have hcovered := h.covered
  have hend := infoEnd_eq h
  have hroom : infoAddr.toNat + 8 + tagsExtent tags + 8 ≤ (infoEnd m.memory infoAddr).toNat := by
    omega
  obtain ⟨t, hreach, hstop⟩ := tags_reach (s := ⟨.tags (UInt32.ofNat (infoAddr.toNat + 8)), false,
      stage5ParseTotalsReset, stage5bResetBookkeeping, []⟩) rfl h.tags_at
    (le_trans (Nat.le_add_right _ 8) hroom) (fun tag htag => hend ▸ h.fits tag htag)
  have hfound : t.foundMmap = true := by
    rw [hreach.foundMmap, Bool.false_or]
    exact List.any_eq_true.mpr ⟨_, hmmap, rfl⟩
  have hleave := end_leaves hreach.phase_eq hstop hroom
  obtain ⟨enough, hrun⟩ := hreach.visits.run (Loop.run_leave hleave 0)
  refine ⟨enough, fun fuel hfuel => ?_⟩
  rw [stage5aParseMmap, parseStart_wellFormed h]
  simp only [Loop.run_mono hrun hfuel, Option.map_some, ParseState.finish, ParseState.read, hfound,
    Bool.true_eq_false, if_false, hreach.totals, hreach.account, decodedBookkeeping,
    stage5bAccountEntries]

end Boot

/-- From a well-formed block the boot ends as the frames behind the first four decide: with four
of them below 4 GiB in front the kernel comes up, and else the first stage that goes short
panics. -/
theorem boot_exact (m : Machine) (infoAddr : UInt32) (tags : List BlockTag)
    (block : WellFormedBlock m.memory infoAddr tags) (given : infoAddr ≠ 0)
    (image : 0x100000 < m.kernelPhysEnd.toNat) :
    ∃ enough frames, TableBuilt m.kernelPhysEnd (tags.flatMap BlockTag.entries) frames ∧
      ∀ fuel, enough ≤ fuel →
        (∀ e, shortage (granted (heapSupply frames)) = some e →
          stage0Main fuel m multiboot2BootloaderMagic infoAddr = some (.error e)) ∧
        (4 ≤ granted (heapSupply frames) →
          ∃ booted, stage0Main fuel m multiboot2BootloaderMagic infoAddr = some (.ok booted) ∧
            booted.frames = frames ∧ Up m booted) := by
  obtain ⟨enough, hparse⟩ := parse_wellFormed block
  obtain ⟨frames, prepared⟩ :=
    (prepare_ends (decodedBookkeeping (tags.flatMap BlockTag.entries)) m.kernelPhysEnd).2 image
  -- Stage 5C reads the stored regions only, and these are the ones the table is about.
  have table : TableBuilt m.kernelPhysEnd (tags.flatMap BlockTag.entries) frames := prepared
  refine ⟨max enough 17, frames, table, fun fuel hfuel => ?_⟩
  obtain ⟨hpanics, hboots⟩ := stage0Main_ends given (le_trans (le_max_right _ _) hfuel)
    (hparse fuel (le_trans (le_max_left _ _) hfuel)) prepared table.sound
  refine ⟨hpanics, fun hgranted => hboots ?_⟩
  rw [← Option.not_isSome_iff_eq_none, shortage_isSome_iff]
  omega

/-- A block at 64 KiB: one memory map tag with 160 KiB of memory from 1 MiB, then the end tag. -/
def rowBlock : Memory := fun a =>
  let bytes : List UInt8 := [
    56, 0, 0, 0, 0, 0, 0, 0,
    6, 0, 0, 0, 40, 0, 0, 0, 24, 0, 0, 0, 0, 0, 0, 0,
    0, 0, 0x10, 0, 0, 0, 0, 0, 0, 0x80, 2, 0, 0, 0, 0, 0, 1, 0, 0, 0, 0, 0, 0, 0,
    0, 0, 0, 0, 8, 0, 0, 0]
  bytes.getD (a - 0x10000).toNat 0

def rowArrays : LocalArrays := ⟨0x153000, 0x153010, 0x153020, 0x153030⟩

theorem rowArrays_separate : rowArrays.Separate :=
  ⟨⟨by decide, by decide, by decide⟩, ⟨by decide, by decide, by decide⟩,
    ⟨by decide, by decide, by decide⟩⟩

/-- The image ends at 1150 KiB, which leaves eight frames. -/
def rowMachine : Machine where
  memory := rowBlock
  heapWindow := fun _ => 0
  pages := fun _ _ => 0
  cpu := ⟨0x11, 0⟩
  idt := ⟨0, fun _ => ⟨0, 0, 0, 0, 0⟩⟩
  ports := firmwarePorts false
  kernelPhysEnd := 0x11F800
  layout := rowLayout
  stubs := rowStubs
  codeSelector := 0x10
  stack := fun _ => 0
  arrays10c := rowArrays
  arrays10e := rowArrays
  separate10c := rowArrays_separate
  separate10e := rowArrays_separate

/-- What Stage 5C makes of the block. -/
def rowFrames : Stage5cFrameBookkeeping :=
  ⟨[⟨0x120, 8⟩], 0, 8, 0x127, 0x127000, 0x100000, 0x120000⟩

theorem boot_exact_fourFrames : ∃ fuel booted,
    stage0Main fuel rowMachine multiboot2BootloaderMagic 0x10000 = some (.ok booted) ∧
      Up rowMachine booted := by
  have hat : TagsAt rowMachine.memory ((0x10000 : UInt32).toNat + 8)
      [.mmap ⟨24, [⟨0x100000, 0x28000, 1, 0⟩], 0, by decide, by decide⟩] := by
    refine ⟨⟨?_, ?_, ?_, ?_, trivial⟩, ?_, ?_⟩ <;> decide +kernel
  have hblock : WellFormedBlock rowMachine.memory 0x10000
      [.mmap ⟨24, [⟨0x100000, 0x28000, 1, 0⟩], 0, by decide, by decide⟩] := by
    refine ⟨hat, by decide +kernel, ⟨_, List.mem_singleton_self _⟩, ?_⟩
    intro tag hmem
    obtain rfl := BlockTag.mmap.inj (List.mem_singleton.mp hmem)
    decide +kernel
  obtain ⟨enough, frames, table, hends⟩ :=
    boot_exact rowMachine 0x10000 _ hblock (by decide) (by decide)
  have hknown : stage5cPrepareFrameBookkeeping kernelPhysStart 0x11F800
      (decodedBookkeeping [⟨0x100000, 0x28000, 1, 0⟩]) = .ok rowFrames := by decide +kernel
  obtain rfl : frames = rowFrames := Except.ok.inj (table.symm.trans hknown)
  obtain ⟨booted, hboot, -, hup⟩ := (hends enough le_rfl).2 (by decide +kernel)
  exact ⟨enough, booted, hboot, hup⟩

/-! ## Every boot that ends -/

section Outcomes

variable {m : Machine} {memory : Memory} {endAddr infoAddr : UInt32} {state : ParseState}
  {outcome : ParseOutcome} {p : Panic} {fuel : ℕ}

theorem error_plain {α : Type} {reason : String} {detail : UInt32} (plain : Plain (ascii reason))
    (h : (.error ⟨reason, detail⟩ : Except Panic α) = .error p) : Plain (ascii p.reason) := by
  obtain rfl := Except.error.inj h
  exact plain

/-- The parse leaves with the totals there are, through the end of the walk or with a panic. -/
inductive LeavesFrom (state : ParseState) : ParseOutcome → Prop where
  | finish (last : ParseState) (totals : last.totals = state.totals) :
      LeavesFrom state last.finish
  | panic (last : ParseState) (reason : String) (detail : UInt32)
      (totals : last.totals = state.totals) (plain : Plain (ascii reason)) :
      LeavesFrom state (last.panic reason detail)

theorem stepOverTag_leaves {last : ParseState} {cursor : UInt32}
    (h : stepOverTag memory endAddr last cursor = .leave outcome)
    (totals : last.totals = state.totals) : LeavesFrom state outcome := by
  simp only [stepOverTag] at h
  split_ifs at h
  obtain rfl := Loop.Iteration.leave.inj h
  exact .panic last _ _ totals (by decide)

theorem parse_leaves (h : parseIteration memory endAddr state = .leave outcome) :
    LeavesFrom state outcome := by
  cases hphase : state.phase with
  | tags cursor =>
    simp only [parseIteration, hphase, tagIteration] at h
    by_cases hheader : cursor + tagSize ≤ endAddr
    swap
    · rw [if_pos hheader] at h
      obtain rfl := Loop.Iteration.leave.inj h
      exact .finish state rfl
    rw [if_neg (not_not.mpr hheader)] at h
    split_ifs at h
    · obtain rfl := Loop.Iteration.leave.inj h
      exact .panic _ _ _ rfl (by decide)
    · obtain rfl := Loop.Iteration.leave.inj h
      exact .panic _ _ _ rfl (by decide)
    · obtain rfl := Loop.Iteration.leave.inj h
      exact .panic _ _ _ rfl (by decide)
    · obtain rfl := Loop.Iteration.leave.inj h
      exact .finish _ rfl
    · obtain rfl := Loop.Iteration.leave.inj h
      exact .panic _ _ _ rfl (by decide)
    · obtain rfl := Loop.Iteration.leave.inj h
      exact .panic _ _ _ rfl (by decide)
    · exact stepOverTag_leaves h rfl
  | entries cursor entryCursor =>
    simp only [parseIteration, hphase, entryIteration] at h
    split_ifs at h
    exact stepOverTag_leaves h rfl

theorem LeavesFrom.plain (h : LeavesFrom state outcome) (hp : outcome.result = .error p) :
    Plain (ascii p.reason) := by
  cases h with
  | finish last totals =>
    rw [ParseState.finish] at hp
    split_ifs at hp
    exact error_plain (by decide) hp
  | panic last reason detail totals plain => exact error_plain plain hp

theorem LeavesFrom.totals_eq (h : LeavesFrom state outcome) : outcome.totals = state.totals := by
  cases h with
  | finish last totals =>
    rw [ParseState.finish, ← totals]
    split_ifs <;> rfl
  | panic last reason detail totals plain => exact totals

theorem parse_plain (h : stage5aParseMmap fuel memory infoAddr = some (.error p)) :
    Plain (ascii p.reason) := by
  rw [stage5aParseMmap] at h
  cases hstart : parseStart memory infoAddr with
  | error q =>
    rw [hstart] at h
    obtain rfl := Except.error.inj (Option.some.inj h)
    simp only [parseStart] at hstart
    split_ifs at hstart
    · exact error_plain (by decide) hstart
    · exact error_plain (by decide) hstart
  | ok start =>
    rw [hstart] at h
    simp only [Option.map_eq_some_iff] at h
    obtain ⟨outcome, hrun, hresult⟩ := h
    obtain ⟨last, -, hleave⟩ := Loop.exit_of_run hrun
    exact (parse_leaves hleave).plain hresult

theorem shortage_plain {k : ℕ} (h : shortage k = some p) : Plain (ascii p.reason) := by
  match k with
  | 0 | 1 | 2 | 3 =>
    obtain rfl := Option.some.inj h
    decide

/-- How a boot that has ended may have ended. -/
def EndsWell (m : Machine) (screen : Screen) : Except Panic Booted → Prop
  | .ok booted => (∃ entries, TableBuilt m.kernelPhysEnd entries booted.frames) ∧
      4 ≤ granted (heapSupply booted.frames) ∧ Up m booted
  | .error p =>
      readText (Console.panic screen p).1 1 0 vgaWidth = (ascii p.reason).take vgaWidth ++
        List.replicate (vgaWidth - (ascii p.reason).length) 0x20 ∧
      readNumber (Console.panic screen p).1 2 = some p.detail.toNat ∧
      readPanic (Console.panic screen p).2 = some (ascii p.reason, p.detail)

/-- Once the map is parsed the boot ends. -/
theorem stages_end {infoAddr : UInt32} {bookkeeping : Stage5bMemoryBookkeeping}
    (hfuel : 17 ≤ fuel) (given : infoAddr ≠ 0)
    (parsed : stage5aParseMmap fuel m.memory infoAddr = some (.ok bookkeeping)) :
    ∃ result, stage0Main fuel m multiboot2BootloaderMagic infoAddr = some result ∧
      ∀ screen, EndsWell m screen result := by
  obtain ⟨entries, rfl⟩ := AccountingAgreement.parse_decodes parsed
  by_cases himage : m.kernelPhysEnd.toNat ≤ 0x100000
  · have hrefused := (prepare_ends (decodedBookkeeping entries) _).1 himage
    refine ⟨.error ⟨"invalid kernel reservation bounds", 0x000500C0⟩, ?_, ?_⟩
    · rw [stage0Main, if_neg (not_not.mpr rfl), if_neg given]
      simp only [parsed, hrefused, onward]
    · intro screen
      exact Console.panic_reported screen _ (by decide)
  · obtain ⟨frames, prepared⟩ := (prepare_ends (decodedBookkeeping entries) _).2
      (Nat.lt_of_not_le himage)
    have table : TableBuilt m.kernelPhysEnd entries frames := prepared
    obtain ⟨hpanics, hboots⟩ := stage0Main_ends given hfuel parsed prepared table.sound
    cases hshortage : shortage (granted (heapSupply frames)) with
    | some p =>
      refine ⟨_, hpanics p hshortage, ?_⟩
      intro screen
      exact Console.panic_reported screen p (shortage_plain hshortage)
    | none =>
      obtain ⟨booted, hboot, rfl, hup⟩ := hboots hshortage
      have hfour : ¬ granted (heapSupply booted.frames) < 4 := by
        rw [← shortage_isSome_iff, hshortage]
        exact Bool.false_ne_true
      refine ⟨_, hboot, ?_⟩
      intro screen
      exact ⟨⟨entries, table⟩, Nat.le_of_not_lt hfour, hup⟩

theorem parse_mono {infoAddr : UInt32} {n : ℕ} {result : Except Panic Stage5bMemoryBookkeeping}
    (h : stage5aParseMmap n memory infoAddr = some result) (hn : n ≤ fuel) :
    stage5aParseMmap fuel memory infoAddr = some result := by
  rw [stage5aParseMmap] at h ⊢
  cases hstart : parseStart memory infoAddr with
  | error p =>
    rw [hstart] at h
    exact h
  | ok start =>
    rw [hstart] at h
    simp only [Option.map_eq_some_iff] at h ⊢
    obtain ⟨outcome, hrun, hresult⟩ := h
    exact ⟨outcome, Loop.run_mono hrun hn, hresult⟩

end Outcomes

/-- Whatever block the kernel is given, a boot that ends has ended in the running kernel or in a
panic that tells what went wrong. -/
theorem boot_outcome (m : Machine) (mb2Magic mb2InfoAddr : UInt32) (screen : Screen) (fuel : ℕ)
    (hfuel : 17 ≤ fuel) (result : Except Panic Booted)
    (ends : stage0Main fuel m mb2Magic mb2InfoAddr = some result) :
    EndsWell m screen result := by
  by_cases hmagic : mb2Magic = multiboot2BootloaderMagic
  swap
  · have plain : Plain (ascii "invalid Multiboot2 magic") := by decide
    rw [stage0Main, if_pos hmagic] at ends
    obtain rfl := Option.some.inj ends
    exact Console.panic_reported screen _ plain
  subst hmagic
  by_cases hnull : mb2InfoAddr = 0
  · have plain : Plain (ascii "null Multiboot2 info pointer") := by decide
    rw [stage0Main, if_neg (not_not.mpr rfl), if_pos hnull] at ends
    obtain rfl := Option.some.inj ends
    exact Console.panic_reported screen _ plain
  cases hparse : stage5aParseMmap fuel m.memory mb2InfoAddr with
  | none =>
    rw [stage0Main, if_neg (not_not.mpr rfl), if_neg hnull, hparse] at ends
    cases ends
  | some outcome =>
    cases outcome with
    | error p =>
      rw [stage0Main, if_neg (not_not.mpr rfl), if_neg hnull, hparse] at ends
      obtain rfl := Option.some.inj ends
      exact Console.panic_reported screen p (parse_plain hparse)
    | ok bookkeeping =>
      obtain ⟨result', hend, hwell⟩ := stages_end hfuel hnull hparse
      obtain rfl := Option.some.inj (ends.symm.trans hend)
      exact hwell screen

/-- The block is cut off after 40 bytes, in the middle of its tag. -/
def truncatedMachine : Machine :=
  { rowMachine with memory := fun a => if a = 0x10000 then 40 else rowBlock a }

theorem boot_outcome_truncated :
    EndsWell truncatedMachine (fun _ => 0) (.error ⟨"truncated Multiboot2 tag", 6⟩) := by
  have hparse : stage5aParseMmap 17 truncatedMachine.memory 0x10000 =
      some (.error ⟨"truncated Multiboot2 tag", 6⟩) := by decide +kernel
  apply boot_outcome truncatedMachine multiboot2BootloaderMagic 0x10000 _ 17 le_rfl
  rw [stage0Main, if_neg (not_not.mpr rfl), if_neg (by decide), hparse]
  rfl

/-- The walk over the tags is the only thing that can keep the boot from ending. -/
theorem boot_halts_iff (m : Machine) (mb2Magic mb2InfoAddr : UInt32) :
    (∃ fuel result, stage0Main fuel m mb2Magic mb2InfoAddr = some result) ↔
      (mb2Magic = multiboot2BootloaderMagic → mb2InfoAddr ≠ 0 →
        ParserSafety.ParseEnds m.memory mb2InfoAddr) := by
  constructor
  · intro hends hmagic hgiven
    obtain ⟨fuel, result, hrun⟩ := hends
    rw [stage0Main, if_neg (not_not.mpr hmagic), if_neg hgiven] at hrun
    cases hparse : stage5aParseMmap fuel m.memory mb2InfoAddr with
    | none =>
      rw [hparse] at hrun
      cases hrun
    | some outcome => exact ⟨fuel, outcome, hparse⟩
  · intro hends
    by_cases hmagic : mb2Magic = multiboot2BootloaderMagic
    swap
    · exact ⟨0, _, if_pos hmagic⟩
    by_cases hnull : mb2InfoAddr = 0
    · refine ⟨0, .error ⟨"null Multiboot2 info pointer", mb2InfoAddr⟩, ?_⟩
      rw [stage0Main, if_neg (not_not.mpr hmagic), if_pos hnull]
    subst hmagic
    obtain ⟨n, outcome, hparse⟩ := hends rfl hnull
    have hparse' := parse_mono hparse (le_max_left n 17)
    cases outcome with
    | error p =>
      refine ⟨max n 17, .error p, ?_⟩
      rw [stage0Main, if_neg (not_not.mpr rfl), if_neg hnull, hparse', onward]
    | ok bookkeeping =>
      obtain ⟨result, hend, -⟩ := stages_end (le_max_right n 17) hnull hparse'
      exact ⟨max n 17, result, hend⟩

/-! ## After the boot -/

theorem onward_ok {α β : Type} {stage : Option (Except Panic α)}
    {rest : α → Option (Except Panic β)} {result : β}
    (h : onward stage rest = some (.ok result)) :
    ∃ value, stage = some (.ok value) ∧ rest value = some (.ok result) := by
  match stage with
  | none => cases h
  | some (.error p) => cases h
  | some (.ok value) => exact ⟨value, rfl, h⟩

/-- What the stages of a boot that has come up have handed on. -/
theorem boot_parts {m : Machine} {mb2Magic mb2InfoAddr : UInt32} {fuel : ℕ} {booted : Booted}
    (boot : stage0Main fuel m mb2Magic mb2InfoAddr = some (.ok booted)) :
    ∃ memory pages, stage5aParseMmap fuel m.memory mb2InfoAddr = some (.ok memory) ∧
      stage5cPrepareFrameBookkeeping kernelPhysStart m.kernelPhysEnd memory = .ok booted.frames ∧
      stage8bRunVmmMappingInterfaceSelfCheck m.layout
        (stage7bSetupEarlyIdentityPaging m.layout m.pages) = .ok pages ∧
      runSelfChecks fuel m booted.frames (stage5dRunBootAllocationTest booted.frames bootPmm)
        pages = some (.ok booted.kernel) := by
  rw [stage0Main] at boot
  split_ifs at boot
  · cases boot
  · cases boot
  obtain ⟨memory, hparse, boot⟩ := onward_ok boot
  obtain ⟨frames, hprepare, boot⟩ := onward_ok boot
  obtain ⟨cpu, -, boot⟩ := onward_ok boot
  obtain ⟨-, -, boot⟩ := onward_ok boot
  obtain ⟨-, -, boot⟩ := onward_ok boot
  obtain ⟨pages, hmapping, boot⟩ := onward_ok boot
  obtain ⟨kernel, hchecks, boot⟩ := onward_ok boot
  obtain rfl := Except.ok.inj (Option.some.inj boot)
  exact ⟨memory, pages, hparse, Option.some.inj hprepare, Option.some.inj hmapping, hchecks⟩

/-- What a program gets from the kernel that has come up can be told in advance: it is what the
reference answers, from the frames of the map alone, to the checks of the boot and then to the
program. -/
theorem booted_services_agree {α : Type} (m : Machine) (mb2Magic mb2InfoAddr : UInt32)
    (fuel fuel' : ℕ) (hfuel : 17 ≤ fuel) (enough : fuel' ≤ fuel) (booted : Booted)
    (boot : stage0Main fuel m mb2Magic mb2InfoAddr = some (.ok booted))
    (p : Program serviceInterface Panic α) :
    ∃ outcome rest, run answered (implement (referenceServices fuel') some
        ((selfChecks true true).bind fun _ => p) .unused) (heapSupply booted.frames) =
          some (outcome, rest) ∧
      (∀ x r, outcome = .ok (x, r) →
        ∃ s, run (serviceHandler fuel (kernelOps booted.frames m.layout)) p booted.kernel =
            some (.ok x, s) ∧ Represents booted.frames m.layout s r rest) ∧
      ∀ e, outcome = .error (some e) →
        ∃ s, run (serviceHandler fuel (kernelOps booted.frames m.layout)) p booted.kernel =
          some (.error e, s) := by
  obtain ⟨memory, pages, hparse, hprepare, hmapping, hchecks⟩ := boot_parts boot
  obtain ⟨entries, rfl⟩ := AccountingAgreement.parse_decodes hparse
  have table : TableBuilt m.kernelPhysEnd entries booted.frames := hprepare
  obtain ⟨pages', hmapping', hrefines⟩ :=
    mappingInterface_passes (setup_refines m.layout m.pages) rfl
  obtain rfl := Except.ok.inj (hmapping.symm.trans hmapping')
  have hbefore := before_checks (m := m) table.sound hrefines
  -- The run of the checks on the kernel is the one that has left the state it is in now.
  rw [runSelfChecks_eq hfuel] at hchecks
  obtain ⟨⟨result, s⟩, hrun, hresult⟩ := Option.map_eq_some_iff.mp hchecks
  cases result with
  | error e => cases hresult
  | ok _ =>
    obtain rfl : s = booted.kernel := Except.ok.inj hresult
    have hmatches := hbefore.program table.sound enough ((selfChecks true true).bind fun _ => p)
    obtain ⟨outcome, rest, hanswered⟩ := answered_total
      (implement (referenceServices fuel') some ((selfChecks true true).bind fun _ => p) .unused)
      (heapSupply booted.frames)
    rw [hanswered] at hmatches
    have hthen := run_bind_ok (f := fun _ => p) hrun
    refine ⟨outcome, rest, hanswered, ?_, ?_⟩
    · rintro x r rfl
      obtain ⟨t, hkernel, hrep⟩ := hmatches
      exact ⟨t, hthen.symm.trans hkernel, hrep⟩
    · rintro e rfl
      obtain ⟨t, hkernel⟩ := hmatches e rfl
      exact ⟨t, hthen.symm.trans hkernel⟩

theorem rowMachine_boots : ∃ booted,
    stage0Main 17 rowMachine multiboot2BootloaderMagic 0x10000 = some (.ok booted) ∧
      booted.frames = rowFrames := by
  have hparse : stage5aParseMmap 17 rowMachine.memory 0x10000 =
      some (.ok (decodedBookkeeping [⟨0x100000, 0x28000, 1, 0⟩])) := by decide +kernel
  have table : TableBuilt 0x11F800 [⟨0x100000, 0x28000, 1, 0⟩] rowFrames := by decide +kernel
  obtain ⟨booted, hboot, hframes, -⟩ := (stage0Main_ends (m := rowMachine) (by decide) le_rfl
    hparse table table.sound).2 (by decide +kernel)
  exact ⟨booted, hboot, hframes⟩

/-- The nodes land in blocks that the checks have given back. -/
theorem booted_services_agree_findSecond : ∃ (booted : Booted) (s : KernelHeapState),
    run (serviceHandler 17 (kernelOps rowFrames rowLayout)) findSecond booted.kernel =
      some (.ok 0x4018A0, s) := by
  obtain ⟨booted, hboot, hframes⟩ := rowMachine_boots
  obtain ⟨outcome, rest, hanswered, hok, -⟩ := booted_services_agree rowMachine
    multiboot2BootloaderMagic 0x10000 17 5 le_rfl (by decide) booted hboot findSecond
  rw [hframes] at hanswered hok
  have hreference : ((run answered (implement (referenceServices 5) some
      ((selfChecks true true).bind fun _ => findSecond) .unused) (heapSupply rowFrames)).map
        fun o => o.1.toOption.map Prod.fst) = some (some 0x4018A0) := by decide +kernel
  rw [hanswered] at hreference
  cases outcome with
  | error e => simp [Except.toOption] at hreference
  | ok reply =>
    have hreply : reply.1 = 0x4018A0 := by simpa [Except.toOption] using hreference
    obtain ⟨s, hkernel, -⟩ := hok reply.1 reply.2 rfl
    rw [hreply] at hkernel
    exact ⟨booted, s, hkernel⟩

end BootSequence
