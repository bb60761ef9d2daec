import CustomOs.FrameConservation
import Mathlib.Data.List.Infix

/-! # The frames behind the heap
The heap alone maps and unmaps the pages of its window, and frames go back to the allocator only
from those who were given them. Then the heap pages are backed by frames of their own: the
allocator never hands one out again, whoever else allocates, frees, maps and unmaps meanwhile. -/
namespace HeapFrames

open Sweep (cover)
open MemoryMap FrameEligibility PhysicalFrames PhysicalFrameTracking Paging PageMapper
open PageMapRefinement KernelHeap KernelHeapCalls KernelMemory FrameConservation Loop

/-- The memory system with the frames that callers got for themselves and have not given back. -/
structure OwnedSystem where
  kernel : KernelHeapState
  clients : Finset ℕ

def OutsideHeap (v : UInt32) : Prop := v.toNat < 0x400000 ∨ 0x800000 ≤ v.toNat

/-- What others than the heap may do: map and unmap no page of its window, and free no frame but
one of theirs. An address that is not a frame's names none. -/
def Permitted (clients : Finset ℕ) : KernelCall → Prop
  | .pmm (.free physAddr _) => physAddr.toNat % 4096 = 0 → frameOf physAddr ∈ clients
  | .mapper (.map v _ true) => OutsideHeap v
  | .mapper (.unmap v true) => OutsideHeap v
  | _ => True

def clientsAfter (clients : Finset ℕ) : KernelCall → Finset ℕ
  | .pmm call => handOut clients call
  | _ => clients

inductive OwnedStep (frames : Stage5cFrameBookkeeping) (layout : TableLayout) :
    OwnedSystem → KernelCall → OwnedSystem → Prop where
  | step {s t : KernelHeapState} {clients : Finset ℕ} {call : KernelCall}
      (permitted : Permitted clients call) (kernel : KernelStep frames layout s call t) :
      OwnedStep frames layout ⟨s, clients⟩ call ⟨t, clientsAfter clients call⟩

abbrev OwnedRun (frames : Stage5cFrameBookkeeping) (layout : TableLayout) (pages : PageMemory)
    (memory : ByteMemory.Memory) : List KernelCall → OwnedSystem → Prop :=
  Transition.Execution (OwnedStep frames layout) ⟨booted frames layout pages memory, ∅⟩

def heapPage (i : ℕ) : UInt32 := UInt32.ofNat (0x400000 + 4096 * i)

/-- The pages of the heap up to its limit are mapped to the frames in `backing`, in order, and
these are with nobody else. -/
structure Backs (frames : Stage5cFrameBookkeeping) (layout : TableLayout) (clients : Finset ℕ)
    (state : Stage8cKheapState) (env : GrowthEnv) (pages : PageMap) (backing : List ℕ) :
    Prop where
  start_eq : state.start = VmmLayout.futureHeapReservedStart
  end_eq : state.endExclusive = VmmLayout.futureHeapReservedEndExclusive
  tracked : Tracked frames layout env pages
  limit : state.mappedEndExclusive.toNat = 0x400000 + 4096 * backing.length
  upper : state.mappedEndExclusive.toNat ≤ 0x800000
  housed : ∀ i f, backing[i]? = some f →
    f < 2 ^ 20 ∧ pages (heapPage i) = some (UInt32.ofNat (4096 * f))
  above : ∀ v : UInt32, state.mappedEndExclusive.toNat ≤ v.toNat → v.toNat < 0x800000 →
    pages v = none
  covered : ∀ f ∈ backing, f ∈ cover frames.spans
  nodup : backing.Nodup
  unavailable : ∀ f ∈ backing, f ∉ clients ∧ f ∉ nextFrames frames env.pmm
  clients_out : ∀ f ∈ clients, f ∉ nextFrames frames env.pmm

variable {frames : Stage5cFrameBookkeeping} {layout : TableLayout} {clients : Finset ℕ}
  {state : Stage8cKheapState} {env env' : GrowthEnv} {pages pages' : PageMap}
  {backing : List ℕ} {start : PageMemory} {memory : ByteMemory.Memory} {call : KernelCall}

/-! ## The frames of the allocator -/

theorem nextFrames_nodup (h : Tracked frames layout env pages) :
    (nextFrames frames env.pmm).Nodup := by
  obtain ⟨queue, fresh, htracks⟩ := h.tracks
  rw [nextFrames_eq htracks]
  exact htracks.nodup

theorem nextFrames_cover (h : Tracked frames layout env pages) {f : ℕ}
    (hf : f ∈ nextFrames frames env.pmm) : f ∈ cover frames.spans := by
  obtain ⟨queue, fresh, htracks⟩ := h.tracks
  rw [nextFrames_eq htracks] at hf
  exact htracks.mem_cover hf

/-- An allocation of the allocator takes the next frame, for whoever asks. -/
theorem alloc_nextFrames (h : Tracked frames layout env pages) (ht : SoundTable frames)
    (out : UInt64) :
    (∃ physAddr, (stage6bPmmAllocFrame frames env.pmm (some out)).result = some physAddr ∧
      nextFrames frames env.pmm = frameOf physAddr ::
        nextFrames frames (stage6bPmmAllocFrame frames env.pmm (some out)).pmm) ∨
    ((stage6bPmmAllocFrame frames env.pmm (some out)).result = none ∧
      nextFrames frames (stage6bPmmAllocFrame frames env.pmm (some out)).pmm = []) := by
  obtain ⟨queue, fresh, htracks⟩ := h.tracks
  rcases htracks.alloc ht out with
    ⟨f, physAddr, pmm', queue', fresh', heq, haddr, hlist, htracks', _⟩ |
    ⟨_, _, state, heq, htracks', _⟩
  · left
    have hframe : frameOf physAddr = f := by rw [frameOf, haddr]; omega
    refine ⟨physAddr, by simp [heq, Reply.result], ?_⟩
    rw [heq, nextFrames_eq htracks, nextFrames_eq htracks', hframe, hlist]
  · right
    refine ⟨by simp [heq, Reply.result], ?_⟩
    rw [heq]
    exact nextFrames_eq htracks'

/-- An accepted free puts its frame, and no other, back among the next ones. -/
theorem free_nextFrames (h : Tracked frames layout env pages) (ht : SoundTable frames)
    (physAddr : UInt64) :
    ((stage6cPmmFreeFrame frames env.pmm physAddr).1 = false →
      (stage6cPmmFreeFrame frames env.pmm physAddr).2 = env.pmm) ∧
    ((stage6cPmmFreeFrame frames env.pmm physAddr).1 = true → physAddr.toNat % 4096 = 0 ∧
      ∀ f, f ∈ nextFrames frames (stage6cPmmFreeFrame frames env.pmm physAddr).2 →
        f ∈ nextFrames frames env.pmm ∨ f = frameOf physAddr) := by
  obtain ⟨queue, fresh, htracks⟩ := h.tracks
  obtain ⟨hreject, haccept⟩ := htracks.free ht physAddr
  refine ⟨hreject, fun hverdict => ⟨((htracks.free_accepted ht physAddr).mp hverdict).1, ?_⟩⟩
  intro f hf
  rw [nextFrames_eq (haccept hverdict).1] at hf
  rw [nextFrames_eq htracks]
  simp only [List.mem_append, List.mem_singleton] at hf ⊢
  tauto

/-! ## Growth -/

theorem Backs.mapped_page (h : Backs frames layout clients state env pages backing)
    (hlt : state.mappedEndExclusive.toNat < 0x800000) :
    MutablePage state.mappedEndExclusive ∧ state.mappedEndExclusive = heapPage backing.length := by
  have hlimit := h.limit
  refine ⟨⟨by omega, by omega, by omega⟩, UInt32.toNat_inj.mp ?_⟩
  rw [heapPage, hlimit, UInt32.toNat_ofNat', Nat.mod_eq_of_lt (by omega)]

/-- Frames are only taken from the allocator: what held before holds after. -/
theorem Backs.shrink (h : Backs frames layout clients state env pages backing)
    (htracked : Tracked frames layout env' pages)
    (hsub : ∀ f ∈ nextFrames frames env'.pmm, f ∈ nextFrames frames env.pmm) :
    Backs frames layout clients state env' pages backing where
  start_eq := h.start_eq
  end_eq := h.end_eq
  tracked := htracked
  limit := h.limit
  upper := h.upper
  housed := h.housed
  above := h.above
  covered := h.covered
  nodup := h.nodup
  unavailable f hf := ⟨(h.unavailable f hf).1, fun hnext => (h.unavailable f hf).2 (hsub f hnext)⟩
  clients_out f hf hnext := h.clients_out f hf (hsub f hnext)

/-- One more page on the next frame. -/
theorem Backs.extend {f : ℕ} (h : Backs frames layout clients state env pages backing)
    (hlt : state.mappedEndExclusive.toNat < 0x800000) (hlow : f < 2 ^ 20)
    (hnext : nextFrames frames env.pmm = f :: nextFrames frames env'.pmm)
    (htracked : Tracked frames layout env'
      (pages.set state.mappedEndExclusive (some (UInt32.ofNat (4096 * f))))) :
    Backs frames layout clients
      { state with mappedEndExclusive := state.mappedEndExclusive + pageSize } env'
      (pages.set state.mappedEndExclusive (some (UInt32.ofNat (4096 * f))))
      (backing ++ [f]) := by
  obtain ⟨hpage, heq⟩ := h.mapped_page hlt
  have hlimit := h.limit
  have hsize : pageSize.toNat = 4096 := rfl
  have hup : (state.mappedEndExclusive + pageSize).toNat = state.mappedEndExclusive.toNat + 4096 :=
    MachineWord.toNat_add32 (by omega)
  have hhead : f ∈ nextFrames frames env.pmm := by simp [hnext]
  have htail : ∀ g ∈ nextFrames frames env'.pmm, g ∈ nextFrames frames env.pmm := fun g hg => by
    simp [hnext, hg]
  have hnodup := nextFrames_nodup h.tracked
  rw [hnext, List.nodup_cons] at hnodup
  have hnew : f ∉ backing := fun hf => (h.unavailable f hf).2 hhead
  refine ⟨h.start_eq, h.end_eq, htracked, ?_, ?_, ?_, ?_, ?_, ?_, ?_, ?_⟩
  · simp only [hup, List.length_append, List.length_singleton]
    omega
  · simp only [hup]
    omega
  · intro i g hg
    rcases Nat.lt_trichotomy i backing.length with hi | rfl | hi
    · rw [List.getElem?_append_left hi] at hg
      obtain ⟨hg20, hmapped⟩ := h.housed i g hg
      refine ⟨hg20, ?_⟩
      rw [PageMap.set_ne, hmapped]
      rw [heq, heapPage, heapPage, ne_eq, ← UInt32.toNat_inj, UInt32.toNat_ofNat',
        UInt32.toNat_ofNat']
      omega
    · obtain rfl : f = g := by simpa using hg
      rw [heq, PageMap.set_same]
      exact ⟨hlow, rfl⟩
    · rw [List.getElem?_eq_none (by simp; omega)] at hg
      cases hg
  · intro v hv hv'
    simp only [hup] at hv
    rw [PageMap.set_ne]
    · exact h.above v (by omega) hv'
    · rintro rfl
      omega
  · intro g hg
    rcases List.mem_append.mp hg with hg | hg
    · exact h.covered g hg
    · obtain rfl := List.mem_singleton.mp hg
      exact nextFrames_cover h.tracked hhead
  · rw [List.nodup_append]
    refine ⟨h.nodup, List.nodup_singleton f, ?_⟩
    rintro g hg k hk rfl
    exact hnew (List.mem_singleton.mp hk ▸ hg)
  · intro g hg
    rcases List.mem_append.mp hg with hg | hg
    · exact ⟨(h.unavailable g hg).1, fun hin => (h.unavailable g hg).2 (htail g hin)⟩
    · obtain rfl := List.mem_singleton.mp hg
      exact ⟨fun hc => h.clients_out g hc hhead, hnodup.1⟩
  · exact fun g hg hin => h.clients_out g hg (htail g hin)

/-- An iteration of the growth loop that goes on has mapped a page. -/
theorem Backs.page (h : Backs frames layout clients state env pages backing)
    (ht : SoundTable frames) {required : UInt32} (hrequired : required.toNat ≤ 0x800000)
    {next : Stage8cKheapState × GrowthEnv}
    (hstep : GrowthStep (kernelOps frames layout) required state env (.next next)) :
    ∃ f pages', Backs frames layout clients next.1 next.2 pages' (backing ++ [f]) := by
  cases hstep with
  | @mapped physAddr mid env' hlt _ halloc hlow hmap =>
    obtain ⟨haddr, hnext, _, h'⟩ := h.tracked.drawn ht halloc
    have hframe := (high_iff haddr).not.mp hlow
    obtain ⟨heq, _, hback⟩ := frameAddr_of_frame haddr (by omega)
    rw [heq] at hmap
    obtain ⟨_, hpmm, _, h''⟩ := h'.mapped hmap
    have hword : physAddr.toUInt32 = UInt32.ofNat (4096 * frameOf physAddr) := by
      rw [← haddr]
      rfl
    rw [← hpmm] at hnext
    rw [hword] at h''
    have hlt' := UInt32.lt_iff_toNat_lt.mp hlt
    exact ⟨_, _, h.extend (by omega) (by omega) hnext h''⟩

/-- Where the loop is left, the pages are those there were. -/
theorem Backs.stopped (h : Backs frames layout clients state env pages backing)
    (ht : SoundTable frames) {required : UInt32} (hrequired : required.toNat ≤ 0x800000)
    {r : Bool × Stage8cKheapState × GrowthEnv}
    (hstep : GrowthStep (kernelOps frames layout) required state env (.leave r)) :
    Backs frames layout clients r.2.1 r.2.2 pages backing := by
  cases hstep with
  | done _ => exact h
  | full _ _ => exact h
  | noFrame _ halloc =>
    obtain ⟨_, hnext', _, h'⟩ := h.tracked.exhausted ht halloc
    exact h.shrink h' fun f hf => by simp [hnext'] at hf
  | highFrame _ halloc _ =>
    obtain ⟨_, hnext, _, h'⟩ := h.tracked.drawn ht halloc
    exact h.shrink h' fun f hf => by simp [hnext, hf]
  | refused hlt halloc hlow hmap =>
    obtain ⟨haddr, hnext, _, h'⟩ := h.tracked.drawn ht halloc
    have hframe := (high_iff haddr).not.mp hlow
    have hlt' := UInt32.lt_iff_toNat_lt.mp hlt
    obtain ⟨heq, hmul, _⟩ := frameAddr_of_frame haddr (by omega)
    rw [heq] at hmap
    obtain ⟨_, rfl⟩ := h'.refused (h.mapped_page (by omega)).1 hmul hmap
    exact h.shrink h' fun f hf => by simp [hnext, hf]

/-- The growth loop adds pages behind those there are. -/
theorem Backs.ensured (h : Backs frames layout clients state env pages backing)
    (ht : SoundTable frames) {required : UInt32} (hrequired : required.toNat ≤ 0x800000) :
    ∃ ok state' env' pages' backing',
      stage8cKheapEnsureMappedUntil (kernelOps frames layout) state env required =
        (ok, state', env') ∧
      Backs frames layout clients state' env' pages' backing' ∧ backing <+: backing' := by
  have hpage : ∀ s t : Stage8cKheapState × GrowthEnv, Grown state s.1 →
      (∃ pages' backing', Backs frames layout clients s.1 s.2 pages' backing' ∧
        backing <+: backing') →
      GrowthStep (kernelOps frames layout) required s.1 s.2 (.next t) →
      ∃ pages' backing', Backs frames layout clients t.1 t.2 pages' backing' ∧
        backing <+: backing' := by
    intro s t _ hs hstep
    obtain ⟨pages', backing', h', hbehind⟩ := hs
    obtain ⟨f, pages'', h''⟩ := h'.page ht hrequired hstep
    exact ⟨pages'', _, h'', hbehind.trans (List.prefix_append _ _)⟩
  have hleave : ∀ (s : Stage8cKheapState × GrowthEnv) (r : Bool × Stage8cKheapState × GrowthEnv),
      Grown state s.1 →
      (∃ pages' backing', Backs frames layout clients s.1 s.2 pages' backing' ∧
        backing <+: backing') →
      GrowthStep (kernelOps frames layout) required s.1 s.2 (.leave r) →
      ∃ pages' backing', Backs frames layout clients r.2.1 r.2.2 pages' backing' ∧
        backing <+: backing' := by
    intro s r _ hs hstep
    obtain ⟨pages', backing', h', hbehind⟩ := hs
    exact ⟨pages', backing', h'.stopped ht hrequired hstep, hbehind⟩
  have haligned : state.mappedEndExclusive.toNat % 4096 = 0 := by
    rw [h.limit]
    omega
  obtain ⟨pages', backing', h', hbehind⟩ := ensureMapped_rule h.end_eq h.upper haligned
    ⟨pages, backing, h, List.prefix_rfl⟩ hpage hleave
  exact ⟨_, _, _, pages', backing', rfl, h', hbehind⟩

/-! ## Steps of the system -/

section Steps

variable {s t : OwnedSystem}

abbrev OwnedSystem.Backed (frames : Stage5cFrameBookkeeping) (layout : TableLayout)
    (s : OwnedSystem) (pages : PageMap) (backing : List ℕ) : Prop :=
  Backs frames layout s.clients s.kernel.state s.kernel.env pages backing

/-- The bounds that matter are those of the window and of the mapped pages. -/
theorem Backs.withCurrent (h : Backs frames layout clients state env pages backing)
    (current : UInt32) :
    Backs frames layout clients { state with current := current } env pages backing :=
  ⟨h.start_eq, h.end_eq, h.tracked, h.limit, h.upper, h.housed, h.above, h.covered, h.nodup,
    h.unavailable, h.clients_out⟩

theorem Backs.kernelInv {s : KernelHeapState}
    (h : Backs frames layout clients s.state s.env pages backing) :
    KernelInv frames layout s pages := by
  have hlimit := h.limit
  exact ⟨h.start_eq, h.end_eq, by omega, h.upper, by omega, h.tracked⟩

/-- An allocation of the heap keeps the pages it finds and draws none of their frames. -/
theorem Backs.heapAlloc {s : KernelHeapState}
    (h : Backs frames layout clients s.state s.env pages backing) (ht : SoundTable frames)
    (size : UInt32) :
    (∃ pages' backing',
      Backs frames layout clients (stage8cKheapAlloc (kernelOps frames layout) s size).2.state
        (stage8cKheapAlloc (kernelOps frames layout) s size).2.env pages' backing' ∧
      backing <+: backing') ∧
    ∃ got, (stage8cKheapAlloc (kernelOps frames layout) s size).2.env.obtained =
        s.env.obtained ++ got ∧
      ∀ physAddr ∈ got, frameOf physAddr ∉ backing := by
  constructor
  · obtain ⟨current, hstate, henv⟩ := alloc_growth (kernelOps frames layout) s size
    rw [hstate, henv]
    cases hrequired : growthRequired s size with
    | none => exact ⟨pages, backing, h.withCurrent current, List.prefix_rfl⟩
    | some required =>
      obtain ⟨hle, _⟩ := growthRequired_le h.end_eq hrequired
      obtain ⟨ok, state', env', pages', backing', hgrown, h', hbehind⟩ := h.ensured ht hle
      simp only [afterGrowth, hgrown]
      exact ⟨pages', backing', h'.withCurrent current, hbehind⟩
  · obtain ⟨_, _, _, got, hgrowth⟩ := h.kernelInv.alloc ht size
    refine ⟨got, hgrowth.growth.obtained, fun physAddr hin hback => ?_⟩
    apply (h.unavailable _ hback).2
    rw [hgrowth.growth.drawn]
    exact List.mem_append_left _ (List.mem_map_of_mem hin)

/-- Allocations hand out a next frame, frees take one back from its client: neither is a frame
of the heap. -/
theorem Backs.pmmStep (h : Backs frames layout clients state env pages backing)
    (ht : SoundTable frames) {call : PmmCall} {pmm : Pmm} (hs : PmmStep frames env.pmm call pmm)
    (permitted : Permitted clients (.pmm call)) :
    Backs frames layout (handOut clients call) state { env with pmm := pmm } pages backing ∧
      ∀ physAddr, call = .alloc (some physAddr) → frameOf physAddr ∉ backing := by
  have htracked := h.tracked.pmmStep ht hs
  cases hs with
  | alloc out =>
    have hnodup := nextFrames_nodup h.tracked
    rcases alloc_nextFrames h.tracked ht out with ⟨physAddr, hresult, hnext⟩ | ⟨hresult, hnext⟩
    · have hhead : frameOf physAddr ∈ nextFrames frames env.pmm := by simp [hnext]
      have hnew : frameOf physAddr ∉ backing := fun hf => (h.unavailable _ hf).2 hhead
      rw [hresult]
      rw [hnext, List.nodup_cons] at hnodup
      have hkept := h.shrink htracked fun f hf => by simp [hnext, hf]
      refine ⟨{ hkept with unavailable := ?_, clients_out := ?_ }, ?_⟩
      · intro f hf
        refine ⟨fun hin => ?_, (hkept.unavailable f hf).2⟩
        rcases Finset.mem_insert.mp hin with rfl | hin
        · exact hnew hf
        · exact (h.unavailable f hf).1 hin
      · intro f hin
        rcases Finset.mem_insert.mp hin with rfl | hin
        · exact hnodup.1
        · exact hkept.clients_out f hin
      · intro a ha
        obtain rfl : physAddr = a := by simpa using ha
        exact hnew
    · rw [hresult]
      refine ⟨h.shrink htracked fun f hf => ?_, by simp⟩
      rw [hnext] at hf
      cases hf
  | free physAddr =>
    refine ⟨?_, by simp⟩
    obtain ⟨hreject, haccept⟩ := free_nextFrames h.tracked ht physAddr
    cases hverdict : (stage6cPmmFreeFrame frames env.pmm physAddr).1 with
    | false =>
      rw [hreject hverdict]
      exact h
    | true =>
      obtain ⟨haligned, hback⟩ := haccept hverdict
      have hin : frameOf physAddr ∈ clients := permitted haligned
      refine { h with tracked := htracked, unavailable := ?_, clients_out := ?_ }
      · intro f hf
        obtain ⟨hout, hnot⟩ := h.unavailable f hf
        constructor
        · exact fun hc => hout (Finset.mem_of_mem_erase hc)
        · intro hnext
          rcases hback f hnext with hold | rfl
          · exact hnot hold
          · exact hout hin
      · intro f hf hnext
        rcases hback f hnext with hold | heq
        · exact h.clients_out f (Finset.mem_of_mem_erase hf) hold
        · exact Finset.ne_of_mem_erase hf heq

theorem apply_outside {v : UInt32} {call : MapperCall}
    (permitted : Permitted clients (.mapper call)) (hlow : 0x400000 ≤ v.toNat)
    (hhigh : v.toNat < 0x800000) : pages.apply call v = pages v := by
  match call, permitted with
  | .map w p true, hw =>
    apply PageMap.set_ne
    rintro rfl
    rcases hw with hw | hw <;> omega
  | .unmap w true, hw =>
    apply PageMap.set_ne
    rintro rfl
    rcases hw with hw | hw <;> omega
  | .map _ _ false, _ => rfl
  | .unmap _ false, _ => rfl

/-- Others map and unmap outside the window. -/
theorem Backs.mapperStep (h : Backs frames layout clients state env pages backing)
    {call : MapperCall} {memory : PageMemory} (hs : MapperStep layout env.pages call memory)
    (permitted : Permitted clients (.mapper call)) :
    Backs frames layout clients state { env with pages := memory } (pages.apply call)
      backing := by
  have hlimit := h.limit
  have hupper := h.upper
  refine { h with
    tracked := ⟨h.tracked.tracks, h.tracked.refines.step hs⟩, housed := ?_, above := ?_ }
  · intro i f hf
    obtain ⟨hlow, hmapped⟩ := h.housed i f hf
    obtain ⟨hi, _⟩ := List.getElem?_eq_some_iff.mp hf
    have hword : (heapPage i).toNat = 0x400000 + 4096 * i := by
      rw [heapPage, UInt32.toNat_ofNat', Nat.mod_eq_of_lt (by omega)]
    exact ⟨hlow, by rw [apply_outside permitted (by omega) (by omega), hmapped]⟩
  · intro v hv hv'
    rw [apply_outside permitted (by omega) hv', h.above v hv hv']

/-- What a step leaves behind the heap, and which frames it can have been given. -/
theorem OwnedSystem.Backed.step (h : s.Backed frames layout pages backing)
    (ht : SoundTable frames) (hs : OwnedStep frames layout s call t) :
    (∃ pages' backing', t.Backed frames layout pages' backing' ∧ backing <+: backing') ∧
    (∀ physAddr, call = .pmm (.alloc (some physAddr)) → frameOf physAddr ∉ backing) ∧
    ∃ got, t.kernel.env.obtained = s.kernel.env.obtained ++ got ∧
      ∀ physAddr ∈ got, frameOf physAddr ∉ backing := by
  obtain ⟨permitted, hstep⟩ := hs
  cases hstep with
  | heapAlloc size =>
    obtain ⟨hbacked, hdrawn⟩ := Backs.heapAlloc h ht size
    exact ⟨hbacked, by simp, hdrawn⟩
  | heapFree ptr =>
    refine ⟨⟨pages, backing, ?_, List.prefix_rfl⟩, by simp, [], ?_, by simp⟩
    · simp only [stage9aKheapFree]
      split_ifs <;> exact h
    · simp only [stage9aKheapFree]
      split_ifs <;> simp
  | pmm step =>
    obtain ⟨hbacked, hfresh⟩ := Backs.pmmStep h ht step permitted
    refine ⟨⟨pages, backing, hbacked, List.prefix_rfl⟩, fun physAddr heq => ?_, [], ?_, by simp⟩
    · exact hfresh physAddr (KernelCall.pmm.inj heq)
    · simp
  | mapper step =>
    exact ⟨⟨_, backing, Backs.mapperStep h step permitted, List.prefix_rfl⟩, by simp, [],
      by simp, by simp⟩
  | write memory =>
    exact ⟨⟨pages, backing, h, List.prefix_rfl⟩, by simp, [], by simp, by simp⟩

/-- A heap that has mapped nothing yet is backed by nothing. -/
theorem booted_backed (ht : SoundTable frames) (start : PageMemory)
    (memory : ByteMemory.Memory) :
    OwnedSystem.Backed frames layout ⟨booted frames layout start memory, ∅⟩ (fun _ => none) [] := by
  have hinv : KernelInv frames layout (booted frames layout start memory) fun _ => none :=
    booted_inv ht start memory
  have htracked := hinv.tracked
  rw [booted_eq] at htracked
  simp only [OwnedSystem.Backed, booted_eq]
  exact ⟨rfl, rfl, htracked, rfl, by decide, by simp, fun _ _ _ => rfl, by simp, List.nodup_nil,
    by simp, by simp⟩

/-- The frames behind the heap are kept and given to nobody, for as long as the system runs. -/
theorem OwnedSystem.Backed.run (h : s.Backed frames layout pages backing) (ht : SoundTable frames)
    {later : List KernelCall} (run : Transition.Execution (OwnedStep frames layout) s later t) :
    (∃ pages' backing', t.Backed frames layout pages' backing' ∧ backing <+: backing') ∧
    (∀ physAddr, .pmm (.alloc (some physAddr)) ∈ later → frameOf physAddr ∉ backing) ∧
    ∃ got, t.kernel.env.obtained = s.kernel.env.obtained ++ got ∧
      ∀ physAddr ∈ got, frameOf physAddr ∉ backing := by
  induction run with
  | start => exact ⟨⟨pages, backing, h, List.prefix_rfl⟩, by simp, [], by simp, by simp⟩
  | step _ hs ih =>
    obtain ⟨⟨pages', backing', h', hbehind⟩, hgiven, got, hobtained, hdrawn⟩ := ih
    obtain ⟨⟨pages'', backing'', h'', hbehind'⟩, hgiven', got', hobtained', hdrawn'⟩ :=
      h'.step ht hs
    have hkept : ∀ f, f ∉ backing' → f ∉ backing := fun f hf hin => hf (hbehind.subset hin)
    refine ⟨⟨pages'', backing'', h'', hbehind.trans hbehind'⟩, ?_, got ++ got', ?_, ?_⟩
    · intro physAddr hmem
      rcases List.mem_append.mp hmem with hmem | hmem
      · exact hgiven physAddr hmem
      · exact hkept _ (hgiven' physAddr (List.mem_singleton.mp hmem).symm)
    · rw [hobtained', hobtained, List.append_assoc]
    · intro physAddr hmem
      rcases List.mem_append.mp hmem with hmem | hmem
      · exact hdrawn physAddr hmem
      · exact hkept _ (hdrawn' physAddr hmem)

end Steps

/-! ## The pages of the heap -/

def HeapPage (state : Stage8cKheapState) (v : UInt32) : Prop :=
  v.toNat % 4096 = 0 ∧ state.start ≤ v ∧ v < state.mappedEndExclusive

theorem Backs.index (h : Backs frames layout clients state env pages backing) {v : UInt32}
    (hv : HeapPage state v) :
    MutablePage v ∧ ∃ i f, backing[i]? = some f ∧ v.toNat = 0x400000 + 4096 * i ∧ f < 2 ^ 20 ∧
      pages v = some (UInt32.ofNat (4096 * f)) := by
  obtain ⟨haligned, hlower, hupper⟩ := hv
  rw [h.start_eq, UInt32.le_iff_toNat_le] at hlower
  have hstart : VmmLayout.futureHeapReservedStart.toNat = 0x400000 := rfl
  have hlimit := h.limit
  have hwindow := h.upper
  rw [UInt32.lt_iff_toNat_lt] at hupper
  refine ⟨⟨haligned, by omega, by omega⟩, (v.toNat - 0x400000) / 4096, ?_⟩
  have hi : (v.toNat - 0x400000) / 4096 < backing.length := by omega
  have hword : heapPage ((v.toNat - 0x400000) / 4096) = v := by
    rw [← UInt32.toNat_inj, heapPage, UInt32.toNat_ofNat', Nat.mod_eq_of_lt (by omega)]
    omega
  have hmem : backing[(v.toNat - 0x400000) / 4096]? = some backing[(v.toNat - 0x400000) / 4096] :=
    List.getElem?_eq_getElem hi
  obtain ⟨hlow, hmapped⟩ := h.housed _ _ hmem
  rw [hword] at hmapped
  exact ⟨_, hmem, by omega, hlow, hmapped⟩

theorem Backs.frame (h : Backs frames layout clients state env pages backing) {v : UInt32}
    {physAddr : UInt64} (hv : HeapPage state v) (hat : ResolvesTo layout env.pages v physAddr) :
    ∃ i, backing[i]? = some (frameOf physAddr) ∧ v.toNat = 0x400000 + 4096 * i := by
  obtain ⟨hpage, i, f, hmem, hindex, hlow, hmapped⟩ := h.index hv
  obtain ⟨p, hresolve, rfl⟩ := hat
  rw [h.tracked.refines.resolve hpage, hmapped] at hresolve
  obtain rfl : UInt32.ofNat (4096 * f) = p := by simpa using hresolve
  have hframe : frameOf (UInt32.ofNat (4096 * f)).toUInt64 = f := by
    rw [frameOf, UInt32.toNat_toUInt64, UInt32.toNat_ofNat']
    omega
  exact ⟨i, by rw [hframe, hmem], hindex⟩

theorem heap_frames_exclusive (kernelEnd : UInt32) (entries : List Multiboot2MmapEntry)
    (frames : Stage5cFrameBookkeeping) (built : TableBuilt kernelEnd entries frames)
    (layout : TableLayout) (start : PageMemory) (memory : ByteMemory.Memory)
    (calls : List KernelCall) (s : OwnedSystem)
    (run : OwnedRun frames layout start memory calls s) :
    (∀ v, HeapPage s.kernel.state v →
      stage8bVmmIsPageMapped layout s.kernel.env.pages v = true) ∧
    (∀ v, s.kernel.state.mappedEndExclusive ≤ v → v < VmmLayout.futureHeapReservedEndExclusive →
      stage8bVmmIsPageMapped layout s.kernel.env.pages v = false) ∧
    (∀ v w physAddr physAddr', HeapPage s.kernel.state v → HeapPage s.kernel.state w → v ≠ w →
      ResolvesTo layout s.kernel.env.pages v physAddr →
      ResolvesTo layout s.kernel.env.pages w physAddr' → frameOf physAddr ≠ frameOf physAddr') ∧
    ∀ v physAddr, HeapPage s.kernel.state v →
      ResolvesTo layout s.kernel.env.pages v physAddr →
      (∃ region ∈ (stage5bAccountEntries entries).regions,
        RegionEligible kernelPhysStart.toNat kernelEnd.toNat region (frameOf physAddr)) ∧
      ∀ later t, Transition.Execution (OwnedStep frames layout) s later t →
        (∀ other, .pmm (.alloc (some other)) ∈ later → frameOf other ≠ frameOf physAddr) ∧
        ∀ other ∈ t.kernel.env.obtained.drop s.kernel.env.obtained.length,
          frameOf other ≠ frameOf physAddr := by
  obtain ⟨⟨pages, backing, h, _⟩, _⟩ := (booted_backed built.sound start memory).run built.sound run
  have hrefines := h.tracked.refines
  refine ⟨fun v hv => ?_, fun v hlow hhigh => ?_, fun v w a b hv hw hne ha hb heq => ?_,
    fun v a hv ha => ?_⟩
  · obtain ⟨hpage, _, _, _, _, _, hmapped⟩ := h.index hv
    rw [hrefines.isPageMapped hpage, hmapped, Option.isSome_some]
  · have hlimit := h.limit
    have hend : VmmLayout.futureHeapReservedEndExclusive.toNat = 0x800000 := rfl
    rw [UInt32.le_iff_toNat_le] at hlow
    rw [UInt32.lt_iff_toNat_lt, hend] at hhigh
    by_cases haligned : v.toNat % 4096 = 0
    · have hpage : MutablePage v := ⟨haligned, by omega, by omega⟩
      rw [hrefines.isPageMapped hpage, h.above v hlow hhigh, Option.isSome_none]
    · have hverdict : (!stage8bVmmIsPageAligned v) = true := by
        rw [Bool.not_eq_true', ← Bool.not_eq_true, isPageAligned_iff]
        exact haligned
      rw [stage8bVmmIsPageMapped, if_pos hverdict]
  · obtain ⟨i, hi, hvi⟩ := h.frame hv ha
    obtain ⟨j, hj, hwj⟩ := h.frame hw hb
    rw [heq] at hi
    obtain ⟨hlt, _⟩ := List.getElem?_eq_some_iff.mp hi
    have hij := (List.getElem?_inj hlt h.nodup).mp (hi.trans hj.symm)
    exact hne (UInt32.toNat_inj.mp (by omega))
  · obtain ⟨i, hi, _⟩ := h.frame hv ha
    have hmem := List.mem_of_getElem? hi
    refine ⟨(built.mem_cover _).mp (h.covered _ hmem), fun later t hlater => ?_⟩
    obtain ⟨_, hgiven, got, hobtained, hdrawn⟩ := OwnedSystem.Backed.run h built.sound hlater
    constructor
    · intro other hin heq
      exact hgiven other hin (heq ▸ hmem)
    · intro other hin heq
      rw [hobtained, List.drop_left] at hin
      exact hdrawn other hin (heq ▸ hmem)

/-- The small map right after the first block. -/
def firstBlock : OwnedSystem :=
  ⟨(stage8cKheapAlloc (kernelOps smallMapFrames rowLayout)
    (booted smallMapFrames rowLayout (fun _ _ => 0) fun _ => 0) 8).2, ∅⟩

theorem firstBlock_run :
    OwnedRun smallMapFrames rowLayout (fun _ _ => 0) (fun _ => 0)
      [.heapAlloc 8 (stage8cKheapAlloc (kernelOps smallMapFrames rowLayout)
        (booted smallMapFrames rowLayout (fun _ _ => 0) fun _ => 0) 8).1] firstBlock :=
  .single (.step trivial (.heapAlloc _ 8))

theorem heap_frames_exclusive_smallMap :
    stage8bVmmIsPageMapped rowLayout firstBlock.kernel.env.pages 0x400000 = true ∧
    ∀ later t, Transition.Execution (OwnedStep smallMapFrames rowLayout) firstBlock later t →
      ∀ other, .pmm (.alloc (some other)) ∈ later → frameOf other ≠ 0x120 := by
  have hpage : HeapPage firstBlock.kernel.state 0x400000 := by
    refine ⟨by decide, ?_, ?_⟩ <;> decide +kernel
  have hframe : ResolvesTo rowLayout firstBlock.kernel.env.pages 0x400000 0x120000 :=
    ⟨0x120000, by decide +kernel, rfl⟩
  obtain ⟨hmapped, _, _, hframes⟩ := heap_frames_exclusive 0x11F800 smallMap smallMapFrames
    tableBuilt_smallMap rowLayout (fun _ _ => 0) (fun _ => 0) _ firstBlock firstBlock_run
  exact ⟨hmapped _ hpage, fun later t hlater => ((hframes _ _ hpage hframe).2 later t hlater).1⟩

end HeapFrames
