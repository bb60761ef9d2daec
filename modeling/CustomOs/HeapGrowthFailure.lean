import CustomOs.HeapFrames
import CustomOs.KernelHeapFirstFit

/-! # Failed allocations of the heap
The growth loop maps page after page and moves the limit up behind each, so it may stop anywhere
between two pages. The operations it calls are the kernel's, over page tables in memory, except
that any call may fail. The limit still agrees with the tables, so a later attempt starts where
the failed one stopped. -/
namespace HeapGrowthFailure

open ByteMemory (Memory)
open Loop Paging PageMapper PageMapRefinement KernelHeap KernelHeapTiling KernelHeapCalls
open KernelHeapIsolation KernelHeapRepresentation KernelHeapFirstFit KernelMemory
open MemoryMap PhysicalFrames FrameConservation HeapFrames

/-- Growth operations over page tables. A mapping is what the mapper of the source answers, or
a refusal; the frame allocator answers as it likes and has no part in the tables. -/
structure TableOps (layout : TableLayout) (σ : Type*) extends GrowthOps σ where
  pages : σ → PageMemory
  alloc_pages : ∀ env, pages (allocFrame env).2 = pages env
  map_answers : ∀ env v p,
    ((mapPage env v p).1, pages (mapPage env v p).2) = stage8bVmmMapPage layout (pages env) v p ∨
      ((mapPage env v p).1 = false ∧ pages (mapPage env v p).2 = pages env)

/-- The operations of the kernel, which fail on their own account only. -/
def kernelTables (frames : Stage5cFrameBookkeeping) (layout : TableLayout) :
    TableOps layout GrowthEnv where
  toGrowthOps := kernelOps frames layout
  pages := GrowthEnv.pages
  alloc_pages _ := rfl
  map_answers _ _ _ := Or.inl rfl

/-- What others may do to the tables: call the mapper outside the heap window. -/
inductive OthersMap (layout : TableLayout) (memory : PageMemory) : PageMemory → Prop where
  | idle : OthersMap layout memory memory
  | call {call : MapperCall} {memory' : PageMemory}
      (step : MapperStep layout memory call memory') (permitted : Permitted ∅ (.mapper call)) :
      OthersMap layout memory memory'

/-- Heap calls and client writes, and an environment that leaves the heap window alone. -/
inductive TableStep {layout : TableLayout} {σ : Type*} (ops : TableOps layout σ) :
    HeapSystem σ → HeapEvent → HeapSystem σ → Prop where
  | client {s t : HeapSystem σ} {e : HeapEvent} (step : PayloadStep ops.toGrowthOps s e t)
      (hevent : e ≠ .environment) : TableStep ops s e t
  | others {s t : HeapSystem σ} (step : PayloadStep ops.toGrowthOps s .environment t)
      (quiet : OthersMap layout (ops.pages s.heap.env) (ops.pages t.heap.env)) :
      TableStep ops s .environment t

abbrev TableRun {layout : TableLayout} {σ : Type*} (ops : TableOps layout σ) (memory : Memory)
    (env : σ) : List HeapEvent → HeapSystem σ → Prop :=
  Transition.Execution (TableStep ops) (bootstrapped memory env)

/-- The pages of the window are mapped up to the limit and not above it. -/
structure Mapped (layout : TableLayout) (memory : PageMemory) (limit : UInt32)
    (pages : PageMap) : Prop where
  refines : Refines layout memory pages
  below : ∀ v, MutablePage v → v.toNat < limit.toNat → pages v ≠ none
  above : ∀ v : UInt32, limit.toNat ≤ v.toNat → v.toNat < 0x800000 → pages v = none

/-- So many pages more, from one limit to the other, and no other page. -/
structure Extends (limit limit' : UInt32) (pages pages' : PageMap) (added : ℕ) : Prop where
  limit_eq : limit'.toNat = limit.toNat + 4096 * added
  mapped_iff : ∀ w, pages' w ≠ none ↔ pages w ≠ none ∨ w ∈ pagesFrom limit added

variable {layout : TableLayout} {σ : Type*} {ops : TableOps layout σ} {env env' : σ}
  {memory memory' : PageMemory} {limit limit' : UInt32} {pages pages' : PageMap} {added : ℕ}
  {heap : Kheap σ} {blocks : List Block} {s t : HeapSystem σ} {e : HeapEvent}

/-! ## Growth -/

theorem Extends.refl (limit : UInt32) (pages : PageMap) : Extends limit limit pages pages 0 := by
  refine ⟨rfl, fun w => ?_⟩
  rw [pagesFrom]
  simp

theorem Extends.page (h : Extends limit limit' pages pages' added) (p : UInt32)
    (hnext : (limit' + pageSize).toNat = limit'.toNat + 4096) :
    Extends limit (limit' + pageSize) pages (pages'.set limit' (some p)) (added + 1) := by
  have hlimit := h.limit_eq
  have hlast : UInt32.ofNat (limit.toNat + 4096 * added) = limit' := by
    rw [← hlimit, UInt32.ofNat_toNat]
  refine ⟨by rw [hnext, hlimit, Nat.mul_succ, Nat.add_assoc], fun w => ?_⟩
  rw [pagesFrom_concat, List.mem_append, List.mem_singleton, hlast]
  by_cases hw : w = limit'
  · subst hw
    simp
  · rw [PageMap.set_ne _ _ hw, h.mapped_iff]
    simp only [hw, or_false]

theorem Mapped.page (h : Mapped layout memory limit pages) {p : UInt32}
    (haligned : limit.toNat % 4096 = 0) (hnext : (limit + pageSize).toNat = limit.toNat + 4096)
    (hrefines : Refines layout memory' (pages.set limit (some p))) :
    Mapped layout memory' (limit + pageSize) (pages.set limit (some p)) := by
  refine ⟨hrefines, fun v hv hlt => ?_, fun v hge hlt => ?_⟩
  · by_cases heq : v = limit
    · subst heq
      simp
    · rw [PageMap.set_ne _ _ heq]
      have hne : v.toNat ≠ limit.toNat := fun hc => heq (UInt32.toNat_inj.mp hc)
      have hpage := hv.aligned
      exact h.below v hv (by omega)
  · have hne : v ≠ limit := by
      rintro rfl
      omega
    rw [PageMap.set_ne _ _ hne]
    exact h.above v (by omega) hlt

theorem TableOps.alloc_eq {frame : Option UInt64} (halloc : ops.allocFrame env = (frame, env')) :
    ops.pages env' = ops.pages env := by
  have hpages := ops.alloc_pages env
  rwa [halloc] at hpages

theorem TableOps.map_refused (h : Refines layout (ops.pages env) pages) {v p : UInt32}
    (hmap : ops.mapPage env v p = (false, env')) : ops.pages env' = ops.pages env := by
  have hanswer := ops.map_answers env v p
  rw [hmap] at hanswer
  rcases hanswer with heq | ⟨_, heq⟩
  · obtain ⟨_, hfail, _⟩ := h.mapPage v p
    rw [← heq] at hfail
    exact hfail rfl
  · exact heq

theorem TableOps.map_accepted (h : Refines layout (ops.pages env) pages) {v p : UInt32}
    (hmap : ops.mapPage env v p = (true, env')) :
    Refines layout (ops.pages env') (pages.set v (some p)) := by
  have hanswer := ops.map_answers env v p
  rw [hmap] at hanswer
  rcases hanswer with heq | ⟨hfalse, _⟩
  · obtain ⟨_, _, hok⟩ := h.mapPage v p
    rw [← heq] at hok
    exact hok rfl
  · cases hfalse

/-- From a limit and its pages on, the tables hold the pages that were counted since. -/
def MapsOn (ops : TableOps layout σ) (limit : UInt32) (pages : PageMap) (state : Stage8cKheapState)
    (env : σ) : Prop :=
  ∃ pages' added, Extends limit state.mappedEndExclusive pages pages' added ∧
    Mapped layout (ops.pages env) state.mappedEndExclusive pages'

section Growth

variable {state : Stage8cKheapState} {required : UInt32}

/-- An iteration that goes on has mapped the page at the limit. -/
theorem MapsOn.page {s : Stage8cKheapState} {next : Stage8cKheapState × σ}
    (h : MapsOn ops limit pages s env) (hgrown : Grown state s)
    (hend : state.endExclusive = VmmLayout.futureHeapReservedEndExclusive)
    (hstep : GrowthStep ops.toGrowthOps required s env (.next next)) :
    MapsOn ops limit pages next.1 next.2 := by
  obtain ⟨pages', added, hextends, hmapped⟩ := h
  cases hstep with
  | mapped hlt hroom halloc hlow hmap =>
    obtain ⟨_, hadd⟩ := hgrown.page hend hroom
    have hrefines := hmapped.refines
    simp only [← TableOps.alloc_eq halloc] at hrefines
    have hmapped' := hmapped.page hgrown.aligned hadd (TableOps.map_accepted hrefines hmap)
    exact ⟨_, _, hextends.page _ hadd, hmapped'⟩

/-- Wherever the loop is left, the tables are those the iteration started with. -/
theorem MapsOn.stopped {s : Stage8cKheapState} {r : Bool × Stage8cKheapState × σ}
    (h : MapsOn ops limit pages s env)
    (hstep : GrowthStep ops.toGrowthOps required s env (.leave r)) :
    MapsOn ops limit pages r.2.1 r.2.2 := by
  obtain ⟨pages', added, hextends, hmapped⟩ := h
  refine ⟨pages', added, ?_⟩
  cases hstep with
  | done _ => exact ⟨hextends, hmapped⟩
  | full _ _ => exact ⟨hextends, hmapped⟩
  | noFrame _ halloc =>
    rw [← TableOps.alloc_eq halloc] at hmapped
    exact ⟨hextends, hmapped⟩
  | highFrame _ halloc _ =>
    rw [← TableOps.alloc_eq halloc] at hmapped
    exact ⟨hextends, hmapped⟩
  | refused _ halloc _ hmap =>
    rw [← TableOps.alloc_eq halloc] at hmapped
    have hsame := TableOps.map_refused hmapped.refines hmap
    rw [← hsame] at hmapped
    exact ⟨hextends, hmapped⟩

/-- So it holds where the growth loop stops. -/
theorem growth_maps (ops : TableOps layout σ) (required : UInt32)
    (hend : state.endExclusive = VmmLayout.futureHeapReservedEndExclusive)
    (hle : state.mappedEndExclusive.toNat ≤ 0x800000)
    (haligned : state.mappedEndExclusive.toNat % 4096 = 0)
    (h : Mapped layout (ops.pages env) state.mappedEndExclusive pages) :
    MapsOn ops state.mappedEndExclusive pages
      (stage8cKheapEnsureMappedUntil ops.toGrowthOps state env required).2.1
      (stage8cKheapEnsureMappedUntil ops.toGrowthOps state env required).2.2 :=
  ensureMapped_rule (I := fun s => MapsOn ops state.mappedEndExclusive pages s.1 s.2)
    (Q := fun r => MapsOn ops state.mappedEndExclusive pages r.2.1 r.2.2) hend hle haligned
    ⟨pages, 0, .refl _ _, h⟩ (fun _ _ hgrown hs hstep => hs.page hgrown hend hstep)
    fun _ _ _ hs hstep => hs.stopped hstep

end Growth

/-- Whatever an allocation answers, its limit moved with the pages it mapped. -/
theorem alloc_maps (h : HeapInv heap blocks)
    (hmapped : Mapped layout (ops.pages heap.env) heap.state.mappedEndExclusive pages)
    (size : UInt32) :
    MapsOn ops heap.state.mappedEndExclusive pages
      (stage8cKheapAlloc ops.toGrowthOps heap size).2.state
      (stage8cKheapAlloc ops.toGrowthOps heap size).2.env := by
  obtain ⟨current, hstate, henv⟩ := alloc_growth ops.toGrowthOps heap size
  rw [hstate, henv]
  cases growthRequired heap size with
  | none => exact ⟨pages, 0, .refl _ _, hmapped⟩
  | some required => exact growth_maps ops required h.end_eq h.mapped_le h.mapped_aligned hmapped

/-! ## Runs -/

/-- The heap is tiled and the tables agree with its limit. -/
structure TableInv (ops : TableOps layout σ) (s : HeapSystem σ) (blocks : List Block)
    (pages : PageMap) : Prop where
  heap : HeapInv s.heap blocks
  held : HeldBlocks s.held blocks
  mapped : Mapped layout (ops.pages s.heap.env) s.heap.state.mappedEndExclusive pages

/-- Calls of the mapper outside the window leave the window as it is. -/
theorem Mapped.others (h : Mapped layout memory limit pages) (hlimit : limit.toNat ≤ 0x800000)
    (hothers : OthersMap layout memory memory') : ∃ pages', Mapped layout memory' limit pages' := by
  cases hothers with
  | idle => exact ⟨pages, h⟩
  | @call call _ step permitted =>
    refine ⟨pages.apply call, h.refines.step step, fun v hv hlt => ?_, fun v hge hlt => ?_⟩
    · rw [apply_outside permitted hv.lower (by omega)]
      exact h.below v hv hlt
    · by_cases hlow : 0x400000 ≤ v.toNat
      · rw [apply_outside permitted hlow hlt]
        exact h.above v hge hlt
      · by_contra hne
        obtain ⟨p, hp⟩ := Option.ne_none_iff_exists'.mp hne
        exact hlow ((h.refines.step step).domain v p hp).1.lower

theorem TableStep.payload (hs : TableStep ops s e t) : PayloadStep ops.toGrowthOps s e t := by
  cases hs with
  | client step _ => exact step
  | others step _ => exact step

/-- Between heap calls the blocks, the bounds and the window stay. -/
theorem TableInv.idle (h : TableInv ops s blocks pages) (hs : TableStep ops s e t)
    (hidle : isCall e = false) :
    t.heap.state = s.heap.state ∧ ∃ pages', TableInv ops t blocks pages' := by
  obtain ⟨hstate, hheld, hinv⟩ := payloadStep_idle h.heap h.held hs.payload hidle
  refine ⟨hstate, ?_⟩
  have hmapped := h.mapped
  cases hs with
  | client step hevent =>
    refine ⟨pages, hinv, hheld ▸ h.held, ?_⟩
    cases step with
    | call step =>
      cases step with
      | alloc size => cases hidle
      | free ptr => cases hidle
      | write ptr size addr byte hp hin => exact hmapped
      | environment env memory same => exact absurd rfl hevent
    | fill ptr addr byte hp hin => exact hmapped
  | others step quiet =>
    rw [← hstate] at hmapped
    obtain ⟨pages', hmapped'⟩ := hmapped.others hinv.mapped_le quiet
    exact ⟨pages', hinv, hheld ▸ h.held, hmapped'⟩

theorem TableInv.step (h : TableInv ops s blocks pages) (hs : TableStep ops s e t) :
    ∃ blocks' pages', TableInv ops t blocks' pages' := by
  by_cases hidle : isCall e = false
  · obtain ⟨_, pages', h'⟩ := h.idle hs hidle
    exact ⟨blocks, pages', h'⟩
  obtain ⟨blocks', hinv, hheld, _⟩ := payloadStep_grows h.heap h.held hs.payload
  refine ⟨blocks', ?_⟩
  have hmapped := h.mapped
  cases hs with
  | others step quiet => exact absurd rfl hidle
  | client step hevent =>
    cases step with
    | fill ptr addr byte hp hin => exact absurd rfl hidle
    | call step =>
      cases step with
      | write ptr size addr byte hp hin => exact absurd rfl hidle
      | environment env memory same => exact absurd rfl hidle
      | alloc size =>
        obtain ⟨pages', _, _, hmapped'⟩ := alloc_maps h.heap hmapped size
        exact ⟨pages', hinv, hheld, hmapped'⟩
      | free ptr =>
        refine ⟨pages, hinv, hheld, ?_⟩
        rcases h.heap.free ptr with ⟨_, _, _, _, _, _, _, heq, _⟩ | ⟨_, heq⟩
        · simp only [heq]
          exact hmapped
        · simp only [heq]
          exact hmapped

theorem bootstrapped_inv (memory : Memory) (env : σ) {start : PageMemory}
    (booted : ops.pages env = stage7bSetupEarlyIdentityPaging layout start) :
    TableInv ops (bootstrapped memory env) [] fun _ => none := by
  have hinv := (bootstrap_inv (⟨⟨false, 0, 0, 0, 0⟩, memory, env⟩ : Kheap σ) rfl).2
  have hheap : (bootstrapped memory env).heap =
      ⟨⟨true, VmmLayout.futureHeapReservedStart, VmmLayout.futureHeapReservedStart,
        VmmLayout.futureHeapReservedEndExclusive, VmmLayout.futureHeapReservedStart⟩, memory,
        env⟩ := by
    simp [bootstrapped, stage8cKheapBootstrapInit, VmmLayout.validatePolicy_eq]
  have hstart : VmmLayout.futureHeapReservedStart.toNat = 0x400000 := rfl
  refine ⟨hinv, ⟨?_, ?_⟩, ?_⟩
  · intro p size hp
    simp [bootstrapped] at hp
  · intro c b hcb
    simp [layoutFrom] at hcb
  · rw [hheap]
    refine ⟨?_, fun v hv hlt => ?_, fun _ _ _ => rfl⟩
    · simp only [booted]
      exact setup_refines layout start
    · have hlower := hv.lower
      simp only [hstart] at hlt
      omega

theorem tableInv_of_run {memory : Memory} {start : PageMemory} {events : List HeapEvent}
    (booted : ops.pages env = stage7bSetupEarlyIdentityPaging layout start)
    (run : TableRun ops memory env events s) : ∃ blocks pages, TableInv ops s blocks pages :=
  run.invariant (I := fun _ s => ∃ blocks pages, TableInv ops s blocks pages)
    ⟨_, _, bootstrapped_inv memory env booted⟩
    fun _ _ _ _ ⟨_, _, h⟩ hs => h.step hs

theorem TableInv.idle_run (h : TableInv ops s blocks pages) {events : List HeapEvent}
    (run : Transition.Execution (TableStep ops) s events t)
    (hidle : ∀ e ∈ events, isCall e = false) :
    t.heap.state = s.heap.state ∧ ∃ pages', TableInv ops t blocks pages' := by
  induction run with
  | start => exact ⟨rfl, pages, h⟩
  | step _ hs ih =>
    obtain ⟨hstate, pages', h'⟩ := ih fun e he => hidle e (List.mem_append_left _ he)
    obtain ⟨hstate', h''⟩ := h'.idle hs (hidle _ (by simp))
    exact ⟨hstate'.trans hstate, h''⟩

/-- Whether a mapper call is permitted has nothing to do with the frames of others. -/
theorem permitted_mapper {clients : Finset ℕ} {call : MapperCall} :
    Permitted clients (.mapper call) ↔ Permitted ∅ (.mapper call) := by
  cases call with
  | map v p accepted => cases accepted <;> rfl
  | unmap v accepted => cases accepted <;> rfl

/-- Raw writes apart, what the kernel may do is a step here. -/
theorem kernelStep_tableStep {frames : Stage5cFrameBookkeeping} {s t : KernelHeapState}
    {clients : Finset ℕ} {call : KernelCall} (hs : KernelStep frames layout s call t)
    (permitted : Permitted clients call) (hwrite : call ≠ .write) (held : UInt32 → Option UInt32) :
    ∃ e held', TableStep (kernelTables frames layout) ⟨s, held⟩ e ⟨t, held'⟩ := by
  cases hs with
  | heapAlloc size =>
    refine ⟨_, _, .client (.call (.alloc ⟨s, held⟩ size)) ?_⟩
    intro he
    cases he
  | heapFree ptr =>
    refine ⟨_, _, .client (.call (.free ⟨s, held⟩ ptr)) ?_⟩
    intro he
    cases he
  | pmm step => exact ⟨_, _, .others (.call (.environment ⟨s, held⟩ _ _ fun _ _ _ => rfl)) .idle⟩
  | mapper step =>
    exact ⟨_, _, .others (.call (.environment ⟨s, held⟩ _ _ fun _ _ _ => rfl))
      (.call step (permitted_mapper.mp permitted))⟩
  | write memory => exact absurd rfl hwrite

/-- So the kernel's own runs are among the runs above. -/
theorem ownedRun_tableRun {frames : Stage5cFrameBookkeeping} {memory : Memory}
    {start : PageMemory} {calls : List KernelCall} {s : OwnedSystem}
    (run : OwnedRun frames layout start memory calls s) (hwrite : .write ∉ calls) :
    ∃ events held, TableRun (kernelTables frames layout) memory
      ⟨seeded frames, stage7bSetupEarlyIdentityPaging layout start, []⟩ events
      ⟨s.kernel, held⟩ := by
  induction run with
  | start => exact ⟨[], _, .start⟩
  | step _ hs ih =>
    obtain ⟨events, held, hrun⟩ := ih fun hin => hwrite (List.mem_append_left _ hin)
    cases hs with
    | step permitted kernel =>
      obtain ⟨e, held', hstep⟩ := kernelStep_tableStep kernel permitted
        (fun heq => hwrite (by simp [heq])) held
      exact ⟨events ++ [e], held', hrun.step hstep⟩

/-! ## What a failed allocation leaves -/

/-- Nothing of the heap has changed but the mapped limit, which moved with the tables. -/
structure FailsCleanly (ops : TableOps layout σ) (heap heap' : Kheap σ) : Prop where
  current : heap'.state.current = heap.state.current
  memory : heap'.memory = heap.memory
  grown : ∃ added, heap'.state.mappedEndExclusive.toNat =
      heap.state.mappedEndExclusive.toNat + 4096 * added ∧
    ∀ v, (stage8bVmmIsPageMapped layout (ops.pages heap.env) v = false ∧
        stage8bVmmIsPageMapped layout (ops.pages heap'.env) v = true) ↔
      v ∈ pagesFrom heap.state.mappedEndExclusive added
  kept : ∀ v, stage8bVmmIsPageMapped layout (ops.pages heap.env) v = true →
    stage8bVmmIsPageMapped layout (ops.pages heap'.env) v = true
  window : ∀ v : UInt32, v.toNat % 4096 = 0 → heap'.state.start ≤ v →
    v < heap'.state.mappedEndExclusive →
    stage8bVmmIsPageMapped layout (ops.pages heap'.env) v = true

theorem isPageMapped_iff (h : Refines layout memory pages) (v : UInt32) :
    stage8bVmmIsPageMapped layout memory v = true ↔
      pages v ≠ none ∨ v.toNat % 4096 = 0 ∧ v.toNat < 0x400000 := by
  by_cases hv : MutablePage v
  · have hlower := hv.lower
    rw [h.isPageMapped hv, Option.isSome_iff_ne_none]
    refine ⟨Or.inl, fun hmapped => hmapped.elim id fun hlow => ?_⟩
    omega
  · rw [h.isPageMapped_other hv]
    refine ⟨Or.inr, fun hmapped => hmapped.elim (fun hne => ?_) id⟩
    obtain ⟨p, hp⟩ := Option.ne_none_iff_exists'.mp hne
    exact absurd (h.domain v p hp).1 hv

theorem isPageMapped_false (h : Refines layout memory pages) (v : UInt32) :
    stage8bVmmIsPageMapped layout memory v = false ↔
      pages v = none ∧ ¬ (v.toNat % 4096 = 0 ∧ v.toNat < 0x400000) := by
  rw [← Bool.not_eq_true, isPageMapped_iff h, not_or, not_not]

/-- The pages between the two limits are the newly mapped ones. -/
theorem Extends.newly_mapped (h : Extends limit limit' pages pages' added)
    (hlower : 0x400000 ≤ limit.toNat) (hupper : limit'.toNat ≤ 0x800000)
    (hbefore : Mapped layout memory limit pages) (hafter : Mapped layout memory' limit' pages')
    (v : UInt32) :
    (stage8bVmmIsPageMapped layout memory v = false ∧
      stage8bVmmIsPageMapped layout memory' v = true) ↔ v ∈ pagesFrom limit added := by
  have hlimit := h.limit_eq
  rw [isPageMapped_false hbefore.refines, isPageMapped_iff hafter.refines, h.mapped_iff]
  constructor
  · intro hnew
    obtain ⟨⟨hnone, hhigh⟩, (hold | hpage) | hlow⟩ := hnew
    · exact absurd hnone hold
    · exact hpage
    · exact absurd hlow hhigh
  · intro hpage
    obtain ⟨i, hi, hv⟩ := mem_pagesFrom (by omega) hpage
    refine ⟨⟨hbefore.above v (by omega) (by omega), fun hlow => ?_⟩, Or.inl (Or.inr hpage)⟩
    omega

theorem alloc_failed (h : HeapInv heap blocks) (ops : GrowthOps σ) {size : UInt32}
    (hfail : (stage8cKheapAlloc ops heap size).1 = 0) :
    (stage8cKheapAlloc ops heap size).2.state.current = heap.state.current ∧
      (stage8cKheapAlloc ops heap size).2.memory = heap.memory ∧
      HeapInv (stage8cKheapAlloc ops heap size).2 blocks := by
  obtain ⟨blocks', heffect, hinv⟩ := h.alloc ops size
  cases heffect with
  | failed hptr grown same => exact ⟨congrArg (·.current) grown.same, same, hinv⟩
  | reused pre b post n round split fits first hptr state same => simp [hfail] at hptr
  | bumped n round none_fits hptr current mapped same => simp [hfail] at hptr

theorem TableInv.failed (h : TableInv ops s blocks pages) {size : UInt32}
    (hfail : (stage8cKheapAlloc ops.toGrowthOps s.heap size).1 = 0) :
    FailsCleanly ops s.heap (stage8cKheapAlloc ops.toGrowthOps s.heap size).2 ∧
      ∃ pages', TableInv ops ⟨(stage8cKheapAlloc ops.toGrowthOps s.heap size).2, s.held⟩ blocks
        pages' := by
  obtain ⟨hcurrent, hmemory, hinv⟩ := alloc_failed h.heap ops.toGrowthOps hfail
  obtain ⟨pages', added, hextends, hmapped⟩ := alloc_maps h.heap h.mapped size
  have hlower : 0x400000 ≤ s.heap.state.mappedEndExclusive.toNat := by
    have hle := h.heap.current_le
    have hextent := h.heap.tiles.extent
    omega
  refine ⟨⟨hcurrent, hmemory, ⟨added, hextends.limit_eq, ?_⟩, fun v hv => ?_,
    fun v haligned hstart hlt => ?_⟩, pages', hinv, h.held, hmapped⟩
  · exact hextends.newly_mapped hlower hinv.mapped_le h.mapped hmapped
  · rw [isPageMapped_iff hmapped.refines, hextends.mapped_iff]
    rcases (isPageMapped_iff h.mapped.refines v).mp hv with hpage | hlow
    · exact Or.inl (Or.inl hpage)
    · exact Or.inr hlow
  · have hstart' := UInt32.le_iff_toNat_le.mp hstart
    have hlt' := UInt32.lt_iff_toNat_lt.mp hlt
    have hupper := hinv.mapped_le
    rw [hinv.start_toNat] at hstart'
    rw [isPageMapped_iff hmapped.refines]
    exact Or.inl (hmapped.below v ⟨haligned, hstart', by omega⟩ hlt')

/-! ## The next attempt -/

/-- No block fits the size, and the window has room for a new one. -/
structure NeedsBlock (blocks : List Block) (current : ℕ) (size n : UInt32) : Prop where
  size_ne : size ≠ 0
  aligned : stage8cKheapAlignUp size kheapMinAlignment = some n
  round : n.toNat = roundedSize size
  none_fits : ∀ b ∈ blocks, b.fits n.toNat = false
  room : current + 16 + n.toNat ≤ 0x800000

theorem needsBlock_of_growth (h : HeapInv heap blocks) {size : UInt32}
    (hgrowth : growthRequired heap size ≠ none) :
    ∃ n, NeedsBlock blocks heap.state.current.toNat size n := by
  rw [growthRequired] at hgrowth
  by_cases hargs : heap.state.isInitialized = false ∨ size = 0
  · rw [if_pos hargs] at hgrowth
    exact absurd rfl hgrowth
  rw [if_neg hargs] at hgrowth
  have hsize := (not_or.mp hargs).2
  have hpos := MachineWord.ne_zero32_iff.mp hsize
  rcases alignUp_eight size with ⟨heq, _⟩ | ⟨n, heq, hround⟩
  · rw [heq] at hgrowth
    exact absurd rfl hgrowth
  rw [heq] at hgrowth
  simp only at hgrowth
  rcases h.reuse (show 0 < n.toNat by omega) (by omega) with
    ⟨hnone, hreuse⟩ | ⟨_, _, _, _, _, _, _, hreuse, _⟩
  · rw [hreuse, if_pos rfl] at hgrowth
    obtain ⟨required, hrequired⟩ := Option.ne_none_iff_exists'.mp hgrowth
    exact ⟨n, hsize, heq, hround, hnone, (bumpRequired_room h.end_eq hrequired).1⟩
  · rw [hreuse, if_neg (by simp)] at hgrowth
    exact absurd rfl hgrowth

section Attempt

variable {size n : UInt32} {growth : GrowthOps σ}

theorem NeedsBlock.alloc_eq (k : NeedsBlock blocks heap.state.current.toNat size n)
    (h : HeapInv heap blocks) (growth : GrowthOps σ) :
    stage8cKheapAlloc growth heap size = kheapBump growth heap n := by
  have hsize := MachineWord.ne_zero32_iff.mp k.size_ne
  have hround : n.toNat = (size.toNat + 7) / 8 * 8 := k.round
  rcases h.reuse (show 0 < n.toNat by omega) (by omega) with
    ⟨_, hreuse⟩ | ⟨pre, b, post, _, rfl, hfit, _⟩
  · exact stage8cKheapAlloc_bump h k.size_ne k.aligned hreuse
  · rw [k.none_fits b (by simp)] at hfit
    cases hfit

/-- An attempt that gets its pages returns the block behind the others. -/
theorem NeedsBlock.succeeds (k : NeedsBlock blocks heap.state.current.toNat size n)
    (h : HeapInv heap blocks) (hobtain : Obtainable growth (missingPages heap (roundedSize size))
      heap.state.mappedEndExclusive heap.env) :
    (stage8cKheapAlloc growth heap size).1.toNat = heap.state.current.toNat + 16 := by
  have hsize := MachineWord.ne_zero32_iff.mp k.size_ne
  have hround : n.toNat = (size.toNat + 7) / 8 * 8 := k.round
  have hroom := k.room
  rw [← k.round] at hobtain
  have hpos : 0 < n.toNat := by omega
  have hfits : heap.state.current.toNat + 16 + n.toNat ≤ heap.state.endExclusive.toNat := by
    rw [h.end_toNat]
    exact hroom
  rw [k.alloc_eq h]
  exact ((bump_or_refuse h hpos k.round k.none_fits).1 ⟨hfits, hobtain⟩).ptr

/-- Any attempt that does not fail returns that block. -/
theorem NeedsBlock.returns (k : NeedsBlock blocks heap.state.current.toNat size n)
    (h : HeapInv heap blocks) (hne : (stage8cKheapAlloc growth heap size).1 ≠ 0) :
    (stage8cKheapAlloc growth heap size).1.toNat = heap.state.current.toNat + 16 := by
  rw [k.alloc_eq h] at hne
  apply k.succeeds h
  rw [← k.round]
  exact ((kheapBump_ne_zero h n).mp hne).2

end Attempt

/-- From `s` an attempt failed; in `u` the next one can go on: the mapper takes every page above
the limit, and with its pages to be had the call returns what it would have returned in `s`. -/
structure GoesOn (ops : TableOps layout σ) (size : UInt32) (s u : HeapSystem σ) : Prop where
  remaining : ∀ v p : UInt32, v.toNat % 4096 = 0 → p.toNat % 4096 = 0 →
    u.heap.state.mappedEndExclusive ≤ v → v < u.heap.state.endExclusive →
    (stage8bVmmMapPage layout (ops.pages u.heap.env) v p).1 = true
  succeeds : Obtainable ops.toGrowthOps (missingPages u.heap (roundedSize size))
      u.heap.state.mappedEndExclusive u.heap.env →
    (stage8cKheapAlloc ops.toGrowthOps u.heap size).1.toNat = s.heap.state.current.toNat + 16
  returns : ∀ (growth : GrowthOps σ) (env : σ),
    (stage8cKheapAlloc growth { s.heap with env := env } size).1 ≠ 0 →
    (stage8cKheapAlloc growth { s.heap with env := env } size).1.toNat =
      s.heap.state.current.toNat + 16

theorem TableInv.goesOn {u : HeapSystem σ} {size : UInt32} (hs : HeapInv s.heap blocks)
    (hgrowth : growthRequired s.heap size ≠ none) (hu : TableInv ops u blocks pages)
    (hcurrent : u.heap.state.current = s.heap.state.current) : GoesOn ops size s u := by
  obtain ⟨n, k⟩ := needsBlock_of_growth hs hgrowth
  refine ⟨fun v p hv hp hge hlt => ?_, fun hobtain => ?_, fun growth env hne => ?_⟩
  · have hge' := UInt32.le_iff_toNat_le.mp hge
    have hlt' := UInt32.lt_iff_toNat_lt.mp hlt
    rw [hu.heap.end_toNat] at hlt'
    have hlower : 0x400000 ≤ u.heap.state.mappedEndExclusive.toNat := by
      have hle := hu.heap.current_le
      have hextent := hu.heap.tiles.extent
      omega
    exact (hu.mapped.refines.mapPage v p).1.mpr
      ⟨⟨hv, by omega, by omega⟩, hp, hu.mapped.above v hge' hlt'⟩
  · rw [← hcurrent] at k ⊢
    exact k.succeeds hu.heap hobtain
  · have hsame := hs.rewrite env fun _ _ _ _ _ => rfl
    exact NeedsBlock.returns k hsame hne

theorem failed_alloc_goes_on {layout : TableLayout} {σ : Type*} (ops : TableOps layout σ)
    (memory : Memory) (env : σ) (start : PageMemory)
    (booted : ops.pages env = stage7bSetupEarlyIdentityPaging layout start)
    (events : List HeapEvent) (s : HeapSystem σ) (run : TableRun ops memory env events s)
    (size : UInt32) (failed : (stage8cKheapAlloc ops.toGrowthOps s.heap size).1 = 0) :
    FailsCleanly ops s.heap (stage8cKheapAlloc ops.toGrowthOps s.heap size).2 ∧
    (growthRequired s.heap size ≠ none → ∀ later u,
      Transition.Execution (TableStep ops)
        ⟨(stage8cKheapAlloc ops.toGrowthOps s.heap size).2, s.held⟩ later u →
      (∀ e ∈ later, isCall e = false) → GoesOn ops size s u) := by
  obtain ⟨blocks, pages, h⟩ := tableInv_of_run booted run
  obtain ⟨hclean, pages', h'⟩ := h.failed failed
  refine ⟨hclean, fun hgrowth later u hlater hidle => ?_⟩
  obtain ⟨hstate, pages'', hu⟩ := h'.idle_run hlater hidle
  exact TableInv.goesOn h.heap hgrowth hu (by rw [hstate]; exact hclean.current)

/-- The bookkeeping of a machine that has a single frame to give. -/
def oneFrame : Stage5cFrameBookkeeping :=
  ⟨[⟨0x120, 1⟩], 0, 1, 0x120, 0x120000, 0x100000, 0x120000⟩

/-- That machine as it boots, its memory cleared. -/
def oneFrameBooted : HeapSystem GrowthEnv :=
  bootstrapped (fun _ => 0)
    ⟨seeded oneFrame, stage7bSetupEarlyIdentityPaging rowLayout fun _ _ => 0, []⟩

/-- Two of the three pages are missing, and the first stays mapped. -/
theorem failed_alloc_goes_on_oneFrame :
    let ops := kernelTables oneFrame rowLayout
    let heap := (stage8cKheapAlloc ops.toGrowthOps oneFrameBooted.heap 0x2000).2
    heap.state.mappedEndExclusive = 0x401000 ∧
      FailsCleanly ops oneFrameBooted.heap heap ∧
      GoesOn ops 0x2000 oneFrameBooted ⟨heap, oneFrameBooted.held⟩ := by
  obtain ⟨hclean, hnext⟩ := failed_alloc_goes_on (kernelTables oneFrame rowLayout) (fun _ => 0)
    ⟨seeded oneFrame, stage7bSetupEarlyIdentityPaging rowLayout fun _ _ => 0, []⟩
    (fun _ _ => 0) rfl [] oneFrameBooted .start 0x2000 (by decide +kernel)
  refine ⟨by decide +kernel, hclean, hnext (by decide +kernel) [] _ .start ?_⟩
  intro e he
  cases he

end HeapGrowthFailure
