import CustomOs.KernelMemory

/-! # Frames between the heap and the frame allocator
What the growth loop draws from the allocator should end up mapped behind the heap. It does
exactly when every page it has to map is free and every frame it draws lies below 4 GiB;
otherwise the loop leaves early and drops the frame it has just drawn. -/
namespace FrameConservation

open MemoryMap FrameEligibility PhysicalFrames PhysicalFrameTracking Paging PageMapper
open PageMapRefinement KernelHeap KernelHeapCalls KernelMemory Loop

section Environment

variable {frames : Stage5cFrameBookkeeping} {layout : TableLayout} {env env' : GrowthEnv}
  {pages pages' : PageMap}

/-- The allocator is in a reachable state and the mapper holds `pages`. -/
structure Tracked (frames : Stage5cFrameBookkeeping) (layout : TableLayout) (env : GrowthEnv)
    (pages : PageMap) : Prop where
  tracks : ∃ queue fresh, Tracks frames env.pmm queue fresh
  refines : Refines layout env.pages pages

theorem nextFrames_eq {pmm : Pmm} {queue fresh : List ℕ} (h : Tracks frames pmm queue fresh) :
    nextFrames frames pmm = queue ++ fresh := by
  rw [nextFrames, h.queue_eq, h.cursor.fresh_eq]

/-- An allocation that succeeds returns the next frame. -/
theorem Tracked.drawn (h : Tracked frames layout env pages) (ht : SoundTable frames)
    {physAddr : UInt64}
    (halloc : (kernelOps frames layout).allocFrame env = (some physAddr, env')) :
    physAddr.toNat = 4096 * frameOf physAddr ∧
      nextFrames frames env.pmm = frameOf physAddr :: nextFrames frames env'.pmm ∧
      env'.obtained = env.obtained ++ [physAddr] ∧ Tracked frames layout env' pages := by
  obtain ⟨queue, fresh, htracks⟩ := h.tracks
  rcases htracks.alloc ht 0 with
    ⟨f, addr, pmm', queue', fresh', heq, haddr, hlist, htracks', _⟩ | ⟨_, _, state, heq, _⟩
  · simp only [kernelOps, heq, Reply.result, if_true, Option.toList_some, Prod.mk.injEq,
      Option.some.injEq] at halloc
    obtain ⟨rfl, rfl⟩ := halloc
    have hframe : frameOf addr = f := by rw [frameOf, haddr]; omega
    refine ⟨by rw [hframe, haddr], ?_, rfl, ⟨_, _, htracks'⟩, h.refines⟩
    rw [nextFrames_eq htracks, nextFrames_eq htracks', hframe, hlist]
  · simp [kernelOps, heq, Reply.result] at halloc

/-- An allocation fails only when there is no frame left. -/
theorem Tracked.exhausted (h : Tracked frames layout env pages) (ht : SoundTable frames)
    (halloc : (kernelOps frames layout).allocFrame env = (none, env')) :
    nextFrames frames env.pmm = [] ∧ nextFrames frames env'.pmm = [] ∧
      env'.obtained = env.obtained ∧ Tracked frames layout env' pages := by
  obtain ⟨queue, fresh, htracks⟩ := h.tracks
  rcases htracks.alloc ht 0 with ⟨f, addr, pmm', _, _, heq, _⟩ | ⟨rfl, rfl, state, heq, htracks', _⟩
  · simp [kernelOps, heq, Reply.result] at halloc
  · simp only [kernelOps, heq, Reply.result, Bool.false_eq_true, if_false, Option.toList_none,
      List.append_nil, Prod.mk.injEq, true_and] at halloc
    subst halloc
    exact ⟨nextFrames_eq htracks, nextFrames_eq htracks', rfl, ⟨_, _, htracks'⟩, h.refines⟩

theorem Tracked.mapped (h : Tracked frames layout env pages) {v p : UInt32}
    (hmap : (kernelOps frames layout).mapPage env v p = (true, env')) :
    pages v = none ∧ env'.pmm = env.pmm ∧ env'.obtained = env.obtained ∧
      Tracked frames layout env' (pages.set v (some p)) := by
  obtain ⟨hiff, _, hok⟩ := h.refines.mapPage v p
  obtain ⟨hverdict, rfl⟩ := Prod.mk.inj hmap
  exact ⟨(hiff.mp hverdict).2.2, rfl, rfl, h.tracks, hok hverdict⟩

theorem Tracked.refused (h : Tracked frames layout env pages) {v p : UInt32}
    (hv : MutablePage v) (hp : p.toNat % 4096 = 0)
    (hmap : (kernelOps frames layout).mapPage env v p = (false, env')) :
    pages v ≠ none ∧ env' = env := by
  obtain ⟨hiff, hfail, _⟩ := h.refines.mapPage v p
  obtain ⟨hverdict, rfl⟩ := Prod.mk.inj hmap
  constructor
  · intro hfree
    rw [hiff.mpr ⟨hv, hp, hfree⟩] at hverdict
    cases hverdict
  · rw [hfail hverdict]

end Environment

/-! ## Pages in a row -/

theorem mem_pagesFrom {v w : UInt32} {k : ℕ} (hfit : v.toNat + 4096 * k < 2 ^ 32)
    (h : w ∈ pagesFrom v k) : ∃ i < k, w.toNat = v.toNat + 4096 * i := by
  induction k generalizing v with
  | zero => simp [pagesFrom] at h
  | succ k ih =>
    have hsize : pageSize.toNat = 4096 := rfl
    have hnext : (v + pageSize).toNat = v.toNat + 4096 := MachineWord.toNat_add32 (by omega)
    rcases List.mem_cons.mp h with rfl | h
    · exact ⟨0, by omega, rfl⟩
    · obtain ⟨i, hi, hw⟩ := ih (by omega) h
      exact ⟨i + 1, by omega, by omega⟩

theorem pagesFrom_length (v : UInt32) (k : ℕ) : (pagesFrom v k).length = k := by
  induction k generalizing v with
  | zero => rfl
  | succ k ih => rw [pagesFrom, List.length_cons, ih]

theorem pagesFrom_add (v : UInt32) (j k : ℕ) :
    pagesFrom v (j + k) = pagesFrom v j ++ pagesFrom (UInt32.ofNat (v.toNat + 4096 * j)) k := by
  induction j generalizing v with
  | zero => simp [pagesFrom]
  | succ j ih =>
    have hsize : pageSize.toNat = 4096 := rfl
    have hword : UInt32.ofNat ((v + pageSize).toNat + 4096 * j) =
        UInt32.ofNat (v.toNat + 4096 * (j + 1)) := by
      apply UInt32.toNat_inj.mp
      rw [UInt32.toNat_ofNat', UInt32.toNat_ofNat', UInt32.toNat_add, hsize]
      omega
    rw [Nat.succ_add, pagesFrom, ih, pagesFrom, List.cons_append, hword]

theorem pagesFrom_concat (v : UInt32) (k : ℕ) :
    pagesFrom v (k + 1) = pagesFrom v k ++ [UInt32.ofNat (v.toNat + 4096 * k)] := by
  rw [pagesFrom_add, pagesFrom, pagesFrom]

theorem exists_mem_zip {α β : Type*} {xs : List α} {ys : List β} {i : ℕ} (hx : i < xs.length)
    (hy : i < ys.length) : ∃ x, (x, ys[i]) ∈ xs.zip ys := by
  refine ⟨xs[i], List.mem_iff_getElem.mpr ⟨i, ?_, ?_⟩⟩
  · rw [List.length_zip]
    omega
  · rw [List.getElem_zip]

/-! ## The growth loop -/

/-- Every page is free and gets a frame below 4 GiB, as far as there are frames. -/
def Unhindered (pages : PageMap) (targets : List UInt32) (drawn : List ℕ) : Prop :=
  ∀ x ∈ targets.zip drawn, x.2 < 2 ^ 20 ∧ pages x.1 = none

/-- The map has the frame of this address at the page. -/
def Houses (pages : PageMap) (v : UInt32) (physAddr : UInt64) : Prop :=
  ∃ p, pages v = some p ∧ p.toUInt64 = physAddr

section Growth

variable {frames : Stage5cFrameBookkeeping} {layout : TableLayout} {env env' : GrowthEnv}
  {pages pages' : PageMap}

/-- Growth that draws `got` and adds `added` of the `k` pages from `v` on. -/
structure Growth (frames : Stage5cFrameBookkeeping) (layout : TableLayout)
    (env env' : GrowthEnv) (pages pages' : PageMap) (v : UInt32) (k added : ℕ)
    (got : List UInt64) : Prop where
  tracked : Tracked frames layout env' pages'
  obtained : env'.obtained = env.obtained ++ got
  drawn : nextFrames frames env.pmm = got.map frameOf ++ nextFrames frames env'.pmm
  kept : ∀ w, pages w ≠ none → pages' w = pages w
  housed : ∀ x ∈ (pagesFrom v added).zip got, Houses pages' x.1 x.2
  within : added ≤ k
  clean : Unhindered pages (pagesFrom v k) (nextFrames frames env.pmm) → got.length = added
  dropped : ¬ Unhindered pages (pagesFrom v k) (nextFrames frames env.pmm) →
    got.length = added + 1

theorem Growth.nothing (h : Tracked frames layout env pages) (v : UInt32) :
    Growth frames layout env env pages pages v 0 0 [] where
  tracked := h
  obtained := by simp
  drawn := rfl
  kept _ _ := rfl
  housed := by simp [pagesFrom]
  within := le_rfl
  clean _ := rfl
  dropped h := absurd (by simp [Unhindered, pagesFrom]) h

/-- The loop is out of frames. -/
theorem Growth.exhausted (h : Tracked frames layout env' pages) (v : UInt32) (k : ℕ)
    (hobtained : env'.obtained = env.obtained) (hnext : nextFrames frames env.pmm = [])
    (hnext' : nextFrames frames env'.pmm = []) :
    Growth frames layout env env' pages pages v k 0 [] where
  tracked := h
  obtained := by rw [hobtained, List.append_nil]
  drawn := by rw [hnext, hnext', List.map_nil, List.nil_append]
  kept _ _ := rfl
  housed := by simp [pagesFrom]
  within := Nat.zero_le k
  clean _ := rfl
  dropped h := absurd (by simp [Unhindered, hnext]) h

/-- The loop leaves with a frame in its hand. -/
theorem Growth.drop (h : Tracked frames layout env' pages) {v : UInt32} {physAddr : UInt64}
    (k : ℕ) (hobtained : env'.obtained = env.obtained ++ [physAddr])
    (hnext : nextFrames frames env.pmm = frameOf physAddr :: nextFrames frames env'.pmm)
    (hindered : 2 ^ 20 ≤ frameOf physAddr ∨ pages v ≠ none) :
    Growth frames layout env env' pages pages v (k + 1) 0 [physAddr] where
  tracked := h
  obtained := hobtained
  drawn := by rw [hnext]; rfl
  kept _ _ := rfl
  housed := by simp [pagesFrom]
  within := Nat.zero_le _
  clean hclean := by
    rw [hnext] at hclean
    have := hclean (v, frameOf physAddr) (by simp [pagesFrom])
    rcases hindered with hhigh | hmapped
    · exact absurd this.1 (by omega)
    · exact absurd this.2 hmapped
  dropped _ := rfl

/-- One more page in front of the growth that follows. -/
theorem Growth.cons {mid : GrowthEnv} {v p : UInt32} {physAddr : UInt64} {k added : ℕ}
    {got : List UInt64} (hfit : v.toNat + 4096 * (k + 1) < 2 ^ 32)
    (h : Growth frames layout mid env' (pages.set v (some p)) pages' (v + pageSize) k added got)
    (hobtained : mid.obtained = env.obtained ++ [physAddr])
    (hnext : nextFrames frames env.pmm = frameOf physAddr :: nextFrames frames mid.pmm)
    (hfree : pages v = none) (hlow : frameOf physAddr < 2 ^ 20) (hp : p.toUInt64 = physAddr) :
    Growth frames layout env env' pages pages' v (k + 1) (added + 1) (physAddr :: got) := by
  have hsize : pageSize.toNat = 4096 := rfl
  have hv : (v + pageSize).toNat = v.toNat + 4096 := MachineWord.toNat_add32 (by omega)
  have hset : ∀ w, pages w ≠ none → pages.set v (some p) w = pages w := by
    intro w hw
    apply PageMap.set_ne
    rintro rfl
    exact hw hfree
  have hiff : Unhindered pages (pagesFrom v (k + 1)) (nextFrames frames env.pmm) ↔
      Unhindered (pages.set v (some p)) (pagesFrom (v + pageSize) k)
        (nextFrames frames mid.pmm) := by
    have hrest : ∀ x ∈ (pagesFrom (v + pageSize) k).zip (nextFrames frames mid.pmm),
        pages.set v (some p) x.1 = pages x.1 := by
      intro x hx
      obtain ⟨i, _, hi⟩ := mem_pagesFrom (by omega) (List.of_mem_zip hx).1
      apply PageMap.set_ne
      intro heq
      rw [heq] at hi
      omega
    rw [Unhindered, hnext, pagesFrom, List.zip_cons_cons, List.forall_mem_cons]
    constructor
    · rintro ⟨_, hall⟩ x hx
      rw [hrest x hx]
      exact hall x hx
    · intro hall
      refine ⟨⟨hlow, hfree⟩, fun x hx => ?_⟩
      rw [← hrest x hx]
      exact hall x hx
  refine ⟨h.tracked, ?_, ?_, ?_, ?_, by have := h.within; omega, ?_, ?_⟩
  · rw [h.obtained, hobtained, List.append_assoc, List.singleton_append]
  · rw [hnext, h.drawn, List.map_cons, List.cons_append]
  · intro w hw
    rw [h.kept w (by rw [hset w hw]; exact hw), hset w hw]
  · intro x hx
    rw [pagesFrom, List.zip_cons_cons] at hx
    rcases List.mem_cons.mp hx with rfl | hx
    · refine ⟨p, ?_, hp⟩
      rw [h.kept v (by simp), PageMap.set_same]
    · exact h.housed x hx
  · intro hclean
    rw [List.length_cons, h.clean (hiff.mp hclean)]
  · intro hdirty
    rw [List.length_cons, h.dropped fun hc => hdirty (hiff.mpr hc)]

theorem frameAddr_of_frame {physAddr : UInt64} (haligned : physAddr.toNat = 4096 * frameOf physAddr)
    (hlow : frameOf physAddr < 2 ^ 20) :
    stage7aPagingFrameAddr physAddr.toUInt32 = physAddr.toUInt32 ∧
      physAddr.toUInt32.toNat % 4096 = 0 ∧ physAddr.toUInt32.toUInt64 = physAddr := by
  have hword : physAddr.toUInt32.toNat = physAddr.toNat := by
    rw [UInt64.toNat_toUInt32]
    omega
  have hmul : physAddr.toUInt32.toNat % 4096 = 0 := by omega
  refine ⟨frameAddr_of_aligned hmul, hmul, ?_⟩
  apply UInt64.toNat_inj.mp
  rw [UInt32.toNat_toUInt64, hword]

theorem high_iff {physAddr : UInt64} (haligned : physAddr.toNat = 4096 * frameOf physAddr) :
    uint32Max.toUInt64 < physAddr ↔ 2 ^ 20 ≤ frameOf physAddr := by
  have hmax : uint32Max.toUInt64.toNat = 2 ^ 32 - 1 := rfl
  rw [UInt64.lt_iff_toNat_lt, hmax]
  omega

/-- The bounds once so many pages more are mapped. -/
def withPages (state : Stage8cKheapState) (added : ℕ) : Stage8cKheapState :=
  let limit := UInt32.ofNat (state.mappedEndExclusive.toNat + 4096 * added)
  { state with mappedEndExclusive := limit }

@[simp] theorem withPages_zero (state : Stage8cKheapState) : withPages state 0 = state := by
  simp [withPages]

/-- The growth loop, by induction on the pages it has still to map. -/
theorem growth_loop (ht : SoundTable frames) {required : UInt32} {k : ℕ}
    {state : Stage8cKheapState} {fuel : ℕ} (h : Tracked frames layout env pages)
    (hend : state.endExclusive = VmmLayout.futureHeapReservedEndExclusive)
    (hlower : 0x400000 ≤ state.mappedEndExclusive.toNat)
    (haligned : state.mappedEndExclusive.toNat % 4096 = 0) (hrequired : required.toNat ≤ 0x800000)
    (hk : required.toNat - state.mappedEndExclusive.toNat = 4096 * k) (hfuel : k < fuel) :
    ∃ ok env' pages' added got,
      run (ensureMappedIteration (kernelOps frames layout) required) fuel (state, env) =
        some (ok, withPages state added, env') ∧
      Growth frames layout env env' pages pages' state.mappedEndExclusive k added got := by
  have hend' : state.endExclusive.toNat = 0x800000 := by rw [hend]; rfl
  have hsize : pageSize.toNat = 4096 := rfl
  obtain ⟨fuel, rfl⟩ : ∃ n, fuel = n + 1 := ⟨fuel - 1, by omega⟩
  induction k generalizing state env pages fuel with
  | zero =>
    have hdone : ¬ state.mappedEndExclusive < required := by
      rw [UInt32.lt_iff_toNat_lt]
      omega
    refine ⟨true, env, pages, 0, [], ?_, .nothing h _⟩
    rw [withPages_zero]
    apply run_leave
    rw [ensureMappedIteration, if_pos hdone]
  | succ k ih =>
    have hmore : state.mappedEndExclusive < required := by
      rw [UInt32.lt_iff_toNat_lt]
      omega
    have hroom : ¬ state.endExclusive ≤ state.mappedEndExclusive := by
      rw [UInt32.le_iff_toNat_le]
      omega
    have hpage : MutablePage state.mappedEndExclusive := ⟨haligned, hlower, by omega⟩
    have hstep := growthStep (kernelOps frames layout) required state env
    generalize hbody : ensureMappedIteration (kernelOps frames layout) required (state, env) =
      iteration at hstep
    cases hstep with
    | done hle => exact absurd hmore hle
    | full hlt hfull => exact absurd hfull hroom
    | noFrame hlt halloc =>
      obtain ⟨hnext, hnext', hobtained, h'⟩ := h.exhausted ht halloc
      refine ⟨false, _, pages, 0, [], ?_, .exhausted h' _ _ hobtained hnext hnext'⟩
      rw [withPages_zero, run_leave hbody]
    | @highFrame physAddr _ hlt halloc hhigh =>
      obtain ⟨haddr, hnext, hobtained, h'⟩ := h.drawn ht halloc
      refine ⟨false, _, pages, 0, [physAddr], ?_,
        .drop h' k hobtained hnext (Or.inl ((high_iff haddr).mp hhigh))⟩
      rw [withPages_zero, run_leave hbody]
    | @refused physAddr mid _ hlt halloc hlow hmap =>
      obtain ⟨haddr, hnext, hobtained, h'⟩ := h.drawn ht halloc
      have hframe := (high_iff haddr).not.mp hlow
      obtain ⟨heq, hmul, _⟩ := frameAddr_of_frame haddr (by omega)
      rw [heq] at hmap
      obtain ⟨hmapped, rfl⟩ := h'.refused hpage hmul hmap
      refine ⟨false, _, pages, 0, [physAddr], ?_, .drop h' k hobtained hnext (Or.inr hmapped)⟩
      rw [withPages_zero, run_leave hbody]
    | @mapped physAddr mid env₂ hlt _ halloc hlow hmap =>
      obtain ⟨haddr, hnext, hobtained, h'⟩ := h.drawn ht halloc
      have hframe := (high_iff haddr).not.mp hlow
      obtain ⟨heq, _, hback⟩ := frameAddr_of_frame haddr (by omega)
      rw [heq] at hmap
      obtain ⟨hfree, hpmm, hsame, h''⟩ := h'.mapped hmap
      rw [← hsame] at hobtained
      rw [← hpmm] at hnext
      have hup : (state.mappedEndExclusive + pageSize).toNat =
          state.mappedEndExclusive.toNat + 4096 := MachineWord.toNat_add32 (by omega)
      obtain ⟨fuel, rfl⟩ : ∃ n, fuel = n + 1 := ⟨fuel - 1, by omega⟩
      obtain ⟨ok, env', pages', added, got, hrun, hgrowth⟩ := @ih _ _
        { state with mappedEndExclusive := state.mappedEndExclusive + pageSize } h'' hend
        (by simp only [hup]; omega) (by simp only [hup]; omega) (by simp only [hup]; omega) hend'
        fuel (by omega)
      refine ⟨ok, env', pages', added + 1, physAddr :: got, ?_,
        hgrowth.cons (by omega) hobtained hnext hfree (by omega) hback⟩
      have hlimit : state.mappedEndExclusive.toNat + 4096 + 4096 * added =
          state.mappedEndExclusive.toNat + 4096 * (added + 1) := by omega
      rw [run_next hbody, hrun]
      simp only [withPages, hup, hlimit]

end Growth

/-! ## One allocation -/

/-- Every page the call has to map is free, and the frame drawn for it lies below 4 GiB. -/
def GrowthClean (frames : Stage5cFrameBookkeeping) (layout : TableLayout) (s : KernelHeapState)
    (size : UInt32) : Prop :=
  ∀ x ∈ (growthPages s size).zip (nextFrames frames s.env.pmm),
    x.2 < 2 ^ 20 ∧ stage8bVmmIsPageMapped layout s.env.pages x.1 = false

instance (frames : Stage5cFrameBookkeeping) (layout : TableLayout) (s : KernelHeapState)
    (size : UInt32) : Decidable (GrowthClean frames layout s size) :=
  inferInstanceAs (Decidable (∀ x ∈ _, _))

/-- The page resolves to the frame at this address. -/
def ResolvesTo (layout : TableLayout) (memory : PageMemory) (v : UInt32) (physAddr : UInt64) :
    Prop :=
  ∃ p, stage8bVmmResolvePageFrame layout memory v (some 0) = (true, some p) ∧
    p.toUInt64 = physAddr

/-- Nothing is lost between two states: every frame drawn in between backs a page of the heap
or waits in the queue, the pages added are as many as the frames drawn, and the allocator has
lost just these. -/
structure Conserved (frames : Stage5cFrameBookkeeping) (layout : TableLayout)
    (s t : KernelHeapState) : Prop where
  accounted : ∀ physAddr ∈ t.env.obtained.drop s.env.obtained.length,
    (∃ v, t.state.start ≤ v ∧ v < t.state.mappedEndExclusive ∧
      ResolvesTo layout t.env.pages v physAddr) ∨
    frameOf physAddr ∈ pendingFrames t.env.pmm
  counted : 4096 * t.env.obtained.length + s.state.mappedEndExclusive.toNat =
    4096 * s.env.obtained.length + t.state.mappedEndExclusive.toNat
  available : 4096 * (nextFrames frames t.env.pmm).length + t.state.mappedEndExclusive.toNat =
    4096 * (nextFrames frames s.env.pmm).length + s.state.mappedEndExclusive.toNat

structure KernelInv (frames : Stage5cFrameBookkeeping) (layout : TableLayout)
    (s : KernelHeapState) (pages : PageMap) : Prop where
  start_eq : s.state.start = VmmLayout.futureHeapReservedStart
  end_eq : s.state.endExclusive = VmmLayout.futureHeapReservedEndExclusive
  lower : 0x400000 ≤ s.state.mappedEndExclusive.toNat
  upper : s.state.mappedEndExclusive.toNat ≤ 0x800000
  aligned : s.state.mappedEndExclusive.toNat % 4096 = 0
  tracked : Tracked frames layout s.env pages

theorem KernelInv.start_toNat {frames : Stage5cFrameBookkeeping} {layout : TableLayout}
    {s : KernelHeapState} {pages : PageMap} (h : KernelInv frames layout s pages) :
    s.state.start.toNat = 0x400000 := by
  rw [h.start_eq]
  rfl

section Allocation

variable {frames : Stage5cFrameBookkeeping} {layout : TableLayout} {s t : KernelHeapState}
  {pages pages' : PageMap} {size : UInt32}

/-- What an allocation does to the environment and to the mapped limit. -/
structure AllocGrowth (frames : Stage5cFrameBookkeeping) (layout : TableLayout)
    (s t : KernelHeapState) (size : UInt32) (pages pages' : PageMap) (k added : ℕ)
    (got : List UInt64) : Prop where
  targets : growthPages s size = pagesFrom s.state.mappedEndExclusive k
  room : s.state.mappedEndExclusive.toNat + 4096 * k ≤ 0x800000
  growth : Growth frames layout s.env t.env pages pages' s.state.mappedEndExclusive k added got
  start_eq : t.state.start = s.state.start
  end_eq : t.state.endExclusive = s.state.endExclusive
  limit : t.state.mappedEndExclusive.toNat = s.state.mappedEndExclusive.toNat + 4096 * added

theorem KernelInv.alloc (h : KernelInv frames layout s pages) (ht : SoundTable frames)
    (size : UInt32) :
    ∃ pages' k added got, AllocGrowth frames layout s
      (stage8cKheapAlloc (kernelOps frames layout) s size).2 size pages pages' k added got := by
  obtain ⟨current, hstate, henv⟩ := alloc_growth (kernelOps frames layout) s size
  cases hrequired : growthRequired s size with
  | none =>
    rw [hrequired] at hstate henv
    refine ⟨pages, 0, 0, [], ?_, h.upper, ?_, ?_, ?_, ?_⟩
    · rw [growthPages, hrequired, pagesFrom]
    · rw [henv]
      exact .nothing h.tracked _
    · rw [hstate]; rfl
    · rw [hstate]; rfl
    · rw [hstate]; rfl
  | some required =>
    rw [hrequired] at hstate henv
    obtain ⟨hle, hmul⟩ := growthRequired_le h.end_eq hrequired
    have haligned := h.aligned
    have hupper := h.upper
    obtain ⟨k, hk⟩ : ∃ k, required.toNat - s.state.mappedEndExclusive.toNat = 4096 * k :=
      ⟨(required.toNat - s.state.mappedEndExclusive.toNat) / 4096, by omega⟩
    obtain ⟨ok, env', pages', added, got, hrun, hgrowth⟩ :=
      growth_loop ht h.tracked h.end_eq h.lower haligned hle hk
        (show k < required.toNat + 1 by omega)
    have hwithin := hgrowth.within
    simp only [afterGrowth, stage8cKheapEnsureMappedUntil, hrun, Option.getD_some] at hstate henv
    refine ⟨pages', k, added, got, ?_, by omega, ?_, ?_, ?_, ?_⟩
    · simp only [growthPages, hrequired, hk]
      rw [Nat.mul_div_cancel_left k (by decide)]
    · rw [henv]
      exact hgrowth
    · rw [hstate]; rfl
    · rw [hstate]; rfl
    · rw [hstate]
      simp only [withPages]
      rw [UInt32.toNat_ofNat', Nat.mod_eq_of_lt (by omega)]

/-- The condition on the call, read on the map of pages. -/
theorem KernelInv.growthClean_iff (h : KernelInv frames layout s pages) {k : ℕ}
    (htargets : growthPages s size = pagesFrom s.state.mappedEndExclusive k)
    (hroom : s.state.mappedEndExclusive.toNat + 4096 * k ≤ 0x800000) :
    GrowthClean frames layout s size ↔
      Unhindered pages (pagesFrom s.state.mappedEndExclusive k) (nextFrames frames s.env.pmm) := by
  have hlower := h.lower
  have haligned := h.aligned
  rw [GrowthClean, Unhindered, htargets]
  apply forall₂_congr
  intro x hx
  obtain ⟨i, hi, hv⟩ := mem_pagesFrom (by omega) (List.of_mem_zip hx).1
  have hpage : MutablePage x.1 := ⟨by omega, by omega, by omega⟩
  rw [h.tracked.refines.isPageMapped hpage, Option.isSome_eq_false_iff, Option.isNone_iff_eq_none]

theorem Houses.resolves {memory : PageMemory} {v : UInt32} {physAddr : UInt64}
    (h : Houses pages v physAddr) (hr : Refines layout memory pages) :
    ResolvesTo layout memory v physAddr := by
  obtain ⟨p, hp, hback⟩ := h
  exact ⟨p, by rw [hr.resolve (hr.domain v p hp).1, hp], hback⟩

theorem AllocGrowth.keeps (g : AllocGrowth frames layout s t size pages pages' k added got)
    (h : KernelInv frames layout s pages) : KernelInv frames layout t pages' := by
  have hwithin := g.growth.within
  have hroom := g.room
  have hlimit := g.limit
  have haligned := h.aligned
  have hlower := h.lower
  exact ⟨g.start_eq.trans h.start_eq, g.end_eq.trans h.end_eq, by omega, by omega, by omega,
    g.growth.tracked⟩

/-- Clean growth loses nothing; growth that is not clean loses exactly one frame. -/
theorem AllocGrowth.conserved_iff
    (g : AllocGrowth frames layout s t size pages pages' k added got)
    (h : KernelInv frames layout s pages) :
    Conserved frames layout s t ↔ GrowthClean frames layout s size := by
  have hwithin := g.growth.within
  have hroom := g.room
  have hlimit := g.limit
  have hlen : t.env.obtained.length = s.env.obtained.length + got.length := by
    rw [g.growth.obtained, List.length_append]
  rw [h.growthClean_iff g.targets g.room]
  constructor
  · intro hconserved
    have hcounted := hconserved.counted
    by_contra hdirty
    have := g.growth.dropped hdirty
    omega
  · intro hclean
    have hgot := g.growth.clean hclean
    refine ⟨?_, by omega, ?_⟩
    · intro physAddr hmem
      rw [g.growth.obtained, List.drop_left] at hmem
      obtain ⟨i, hi, rfl⟩ := List.mem_iff_getElem.mp hmem
      obtain ⟨v, hpair⟩ : ∃ v, (v, got[i]) ∈ (pagesFrom s.state.mappedEndExclusive added).zip got :=
        exists_mem_zip (by rw [pagesFrom_length]; omega) hi
      obtain ⟨j, hj, hv⟩ := mem_pagesFrom (by omega) (List.of_mem_zip hpair).1
      have hlower := h.lower
      have hstart := (g.keeps h).start_toNat
      refine Or.inl ⟨v, ?_, ?_, (g.growth.housed _ hpair).resolves g.growth.tracked.refines⟩
      · rw [UInt32.le_iff_toNat_le]
        omega
      · rw [UInt32.lt_iff_toNat_lt]
        omega
    · have hdrawn := congrArg List.length g.growth.drawn
      rw [List.length_append, List.length_map] at hdrawn
      omega

end Allocation

/-! ## Runs -/

section Runs

variable {frames : Stage5cFrameBookkeeping} {layout : TableLayout} {start : PageMemory}
  {memory : ByteMemory.Memory} {s t : KernelHeapState} {pages : PageMap} {call : KernelCall}
  {calls : List KernelCall}

/-- A step whose allocation, if it is one, grows cleanly. -/
def CleanStep (frames : Stage5cFrameBookkeeping) (layout : TableLayout) (s : KernelHeapState)
    (call : KernelCall) (t : KernelHeapState) : Prop :=
  KernelStep frames layout s call t ∧
    ∀ size ptr, call = .heapAlloc size ptr → GrowthClean frames layout s size

/-- A clean step that does not take a page away from the heap. -/
def KeptStep (frames : Stage5cFrameBookkeeping) (layout : TableLayout) (s : KernelHeapState)
    (call : KernelCall) (t : KernelHeapState) : Prop :=
  CleanStep frames layout s call t ∧
    ∀ v, call = .mapper (.unmap v true) → ¬ (s.state.start ≤ v ∧ v < s.state.mappedEndExclusive)

/-- The frames drawn are as many as the mapped pages of the heap. -/
def DrawnIsMapped (s : KernelHeapState) : Prop :=
  4096 * s.env.obtained.length = s.state.mappedEndExclusive.toNat - s.state.start.toNat

/-- The pages of the heap, from the first on, resolve to the frames drawn, in order. -/
def Backed (layout : TableLayout) (s : KernelHeapState) : Prop :=
  ∀ x ∈ (pagesFrom s.state.start s.env.obtained.length).zip s.env.obtained,
    ResolvesTo layout s.env.pages x.1 x.2

theorem Tracked.pmmStep {env : GrowthEnv} {pmm : Pmm} {call : PmmCall}
    (h : Tracked frames layout env pages) (ht : SoundTable frames)
    (hs : PmmStep frames env.pmm call pmm) :
    Tracked frames layout { env with pmm := pmm } pages := by
  obtain ⟨queue, fresh, htracks⟩ := h.tracks
  refine ⟨?_, h.refines⟩
  cases hs with
  | alloc out =>
    rcases htracks.alloc ht out with ⟨_, _, pmm', _, _, heq, _, _, htracks', _⟩ |
      ⟨_, _, state, heq, htracks', _⟩
    · rw [heq]
      exact ⟨_, _, htracks'⟩
    · rw [heq]
      exact ⟨_, _, htracks'⟩
  | free physAddr =>
    obtain ⟨hfail, hok⟩ := htracks.free ht physAddr
    cases hverdict : (stage6cPmmFreeFrame frames env.pmm physAddr).1 with
    | false =>
      rw [hfail hverdict]
      exact ⟨_, _, htracks⟩
    | true => exact ⟨_, _, (hok hverdict).1⟩

/-- An accepted unmap is the only call that takes a page away. -/
theorem apply_keeps {memory memory' : PageMemory} {call : MapperCall} {w : UInt32}
    (hr : Refines layout memory pages) (hs : MapperStep layout memory call memory')
    (hw : pages w ≠ none) (hother : call ≠ .unmap w true) : pages.apply call w = pages w := by
  cases hs with
  | map v p =>
    cases hverdict : (stage8bVmmMapPage layout memory v p).1 with
    | false => rfl
    | true =>
      apply PageMap.set_ne
      rintro rfl
      exact hw ((hr.mapPage w p).1.mp hverdict).2.2
  | unmap v =>
    cases hverdict : (stage8bVmmUnmapPage layout memory v).1 with
    | false => rfl
    | true =>
      rw [hverdict] at hother
      apply PageMap.set_ne
      rintro rfl
      exact hother rfl

/-- A step is an allocation, or it leaves the drawn frames and the bounds alone. -/
theorem KernelInv.step (h : KernelInv frames layout s pages) (ht : SoundTable frames)
    (hs : KernelStep frames layout s call t) :
    (∃ size ptr pages' k added got, call = .heapAlloc size ptr ∧
      AllocGrowth frames layout s t size pages pages' k added got) ∨
    ∃ pages', KernelInv frames layout t pages' ∧ t.env.obtained = s.env.obtained ∧
      t.state.start = s.state.start ∧ t.state.mappedEndExclusive = s.state.mappedEndExclusive ∧
      ∀ w, pages w ≠ none → call ≠ .mapper (.unmap w true) → pages' w = pages w := by
  cases hs with
  | heapAlloc size =>
    obtain ⟨pages', k, added, got, hgrowth⟩ := h.alloc ht size
    exact Or.inl ⟨size, _, pages', k, added, got, rfl, hgrowth⟩
  | heapFree ptr =>
    have hsame : (stage9aKheapFree s ptr).2.state = s.state ∧
        (stage9aKheapFree s ptr).2.env = s.env := by
      simp only [stage9aKheapFree]
      split_ifs <;> exact ⟨rfl, rfl⟩
    obtain ⟨hstate, henv⟩ := hsame
    refine Or.inr ⟨pages, ?_, by rw [henv], by rw [hstate], by rw [hstate], fun w _ _ => rfl⟩
    refine ⟨?_, ?_, ?_, ?_, ?_, ?_⟩
    · rw [hstate]; exact h.start_eq
    · rw [hstate]; exact h.end_eq
    · rw [hstate]; exact h.lower
    · rw [hstate]; exact h.upper
    · rw [hstate]; exact h.aligned
    · rw [henv]; exact h.tracked
  | pmm step =>
    exact Or.inr ⟨pages, ⟨h.start_eq, h.end_eq, h.lower, h.upper, h.aligned,
      h.tracked.pmmStep ht step⟩, rfl, rfl, rfl, fun w _ _ => rfl⟩
  | @mapper call memory step =>
    refine Or.inr ⟨pages.apply call, ⟨h.start_eq, h.end_eq, h.lower, h.upper, h.aligned,
      h.tracked.tracks, h.tracked.refines.step step⟩, rfl, rfl, rfl, fun w hw hother => ?_⟩
    exact apply_keeps h.tracked.refines step hw fun hc => hother (congrArg _ hc)
  | write memory =>
    exact Or.inr ⟨pages, ⟨h.start_eq, h.end_eq, h.lower, h.upper, h.aligned, h.tracked⟩,
      rfl, rfl, rfl, fun w _ _ => rfl⟩

theorem booted_eq (start : PageMemory) (memory : ByteMemory.Memory) :
    booted frames layout start memory =
      ⟨⟨true, VmmLayout.futureHeapReservedStart, VmmLayout.futureHeapReservedStart,
        VmmLayout.futureHeapReservedEndExclusive, VmmLayout.futureHeapReservedStart⟩, memory,
        ⟨seeded frames, stage7bSetupEarlyIdentityPaging layout start, []⟩⟩ := by
  have hpolicy : ¬ (!VmmLayout.stage8aValidatePolicy) = true := by
    simp [VmmLayout.validatePolicy_eq]
  rw [booted, stage8cKheapBootstrapInit, if_neg Bool.false_ne_true, if_neg hpolicy]

theorem booted_inv (ht : SoundTable frames) (start : PageMemory) (memory : ByteMemory.Memory) :
    KernelInv frames layout (booted frames layout start memory) fun _ => none := by
  have hbounds : 0x400000 ≤ VmmLayout.futureHeapReservedStart.toNat ∧
      VmmLayout.futureHeapReservedStart.toNat ≤ 0x800000 ∧
      VmmLayout.futureHeapReservedStart.toNat % 4096 = 0 := by decide
  rw [booted_eq]
  exact ⟨rfl, rfl, hbounds.1, hbounds.2.1, hbounds.2.2, ⟨_, _, seeded_tracks ht⟩,
    setup_refines layout start⟩

theorem booted_drawn (start : PageMemory) (memory : ByteMemory.Memory) :
    DrawnIsMapped (booted frames layout start memory) := by
  simp [booted_eq, DrawnIsMapped]

theorem inv_of_run (ht : SoundTable frames) (run : KernelRun frames layout start memory calls s) :
    ∃ pages, KernelInv frames layout s pages := by
  refine run.invariant (I := fun _ s => ∃ pages, KernelInv frames layout s pages)
    ⟨_, booted_inv ht start memory⟩ ?_
  rintro _ s call t ⟨pages, h⟩ hs
  rcases h.step ht hs with ⟨_, _, pages', _, _, _, _, g⟩ | ⟨pages', h', _⟩
  · exact ⟨pages', g.keeps h⟩
  · exact ⟨pages', h'⟩

/-- Clean growth extends the frames drawn and the pages mapped together. -/
theorem AllocGrowth.clean_length {size : UInt32} {pages' : PageMap} {k added : ℕ}
    {got : List UInt64} (g : AllocGrowth frames layout s t size pages pages' k added got)
    (h : KernelInv frames layout s pages) (hclean : GrowthClean frames layout s size) :
    got.length = added := by
  rw [h.growthClean_iff g.targets g.room] at hclean
  exact g.growth.clean hclean

theorem drawn_of_run (ht : SoundTable frames)
    (run : Transition.Execution (CleanStep frames layout) (booted frames layout start memory)
      calls s) :
    (∃ pages, KernelInv frames layout s pages) ∧ DrawnIsMapped s := by
  refine run.invariant (I := fun _ s => (∃ pages, KernelInv frames layout s pages) ∧
    DrawnIsMapped s) ⟨⟨_, booted_inv ht start memory⟩, booted_drawn start memory⟩ ?_
  rintro _ s call t ⟨⟨pages, h⟩, hdrawn⟩ ⟨hs, hclean⟩
  rw [DrawnIsMapped] at hdrawn ⊢
  rcases h.step ht hs with ⟨size, ptr, pages', k, added, got, hcall, g⟩ |
    ⟨pages', h', hobtained, hstart, hlimit, _⟩
  · have hlen := g.clean_length h (hclean size ptr hcall)
    have hlimit := g.limit
    have hlower := h.lower
    have hstart := h.start_toNat
    refine ⟨⟨pages', g.keeps h⟩, ?_⟩
    rw [g.growth.obtained, List.length_append, g.start_eq]
    omega
  · exact ⟨⟨pages', h'⟩, by rw [hobtained, hstart, hlimit, hdrawn]⟩

/-- The map's side of `Backed`. -/
def AllHoused (s : KernelHeapState) (pages : PageMap) : Prop :=
  ∀ x ∈ (pagesFrom s.state.start s.env.obtained.length).zip s.env.obtained, Houses pages x.1 x.2

theorem AllocGrowth.allHoused {size : UInt32} {pages' : PageMap} {k added : ℕ}
    {got : List UInt64} (g : AllocGrowth frames layout s t size pages pages' k added got)
    (h : KernelInv frames layout s pages) (hlen : got.length = added) (hdrawn : DrawnIsMapped s)
    (hhoused : AllHoused s pages) : AllHoused t pages' := by
  have hstart := h.start_toNat
  have hlower := h.lower
  have hupper := h.upper
  rw [DrawnIsMapped] at hdrawn
  have hlimit : UInt32.ofNat (s.state.start.toNat + 4096 * s.env.obtained.length) =
      s.state.mappedEndExclusive := by
    rw [hdrawn, ← UInt32.toNat_inj, UInt32.toNat_ofNat']
    omega
  intro x hx
  rw [g.start_eq, g.growth.obtained, List.length_append, pagesFrom_add, hlimit,
    List.zip_append (by rw [pagesFrom_length]), List.mem_append, hlen] at hx
  rcases hx with hx | hx
  · obtain ⟨p, hp, hback⟩ := hhoused x hx
    exact ⟨p, by rw [g.growth.kept x.1 (by simp [hp]), hp], hback⟩
  · exact g.growth.housed x hx

theorem backed_of_run (ht : SoundTable frames)
    (run : Transition.Execution (KeptStep frames layout) (booted frames layout start memory)
      calls s) :
    ∃ pages, KernelInv frames layout s pages ∧ DrawnIsMapped s ∧ AllHoused s pages := by
  refine run.invariant (I := fun _ s => ∃ pages, KernelInv frames layout s pages ∧
    DrawnIsMapped s ∧ AllHoused s pages)
    ⟨_, booted_inv ht start memory, booted_drawn start memory, ?_⟩ ?_
  · simp [booted_eq, AllHoused]
  rintro calls s call t ⟨pages, h, hdrawn, hhoused⟩ ⟨⟨hs, hclean⟩, hkept⟩
  have hdrawn' := hdrawn
  rw [DrawnIsMapped] at hdrawn
  have hstart := h.start_toNat
  have hlower := h.lower
  have hupper := h.upper
  rcases h.step ht hs with ⟨size, ptr, pages', k, added, got, hcall, g⟩ |
    ⟨pages', h', hobtained, hstart', hlimit, hsame⟩
  · have hlen := g.clean_length h (hclean size ptr hcall)
    have hlimit := g.limit
    refine ⟨pages', g.keeps h, ?_, g.allHoused h hlen hdrawn' hhoused⟩
    rw [DrawnIsMapped, g.growth.obtained, List.length_append, g.start_eq]
    omega
  · refine ⟨pages', h', by rw [DrawnIsMapped, hobtained, hstart', hlimit, hdrawn], ?_⟩
    intro x hx
    rw [hobtained, hstart'] at hx
    obtain ⟨p, hp, hback⟩ := hhoused x hx
    obtain ⟨i, hi, hv⟩ := mem_pagesFrom (by omega) (List.of_mem_zip hx).1
    have hother : call ≠ .mapper (.unmap x.1 true) := by
      intro hcall
      apply hkept x.1 hcall
      rw [UInt32.le_iff_toNat_le, UInt32.lt_iff_toNat_lt]
      omega
    exact ⟨p, by rw [hsame x.1 (by simp [hp]) hother, hp], hback⟩

end Runs

theorem frame_conservation_iff (kernelEnd : UInt32) (entries : List Multiboot2MmapEntry)
    (frames : Stage5cFrameBookkeeping) (table : TableBuilt kernelEnd entries frames)
    (layout : TableLayout) (start : PageMemory) (memory : ByteMemory.Memory) :
    (∀ calls s, KernelRun frames layout start memory calls s → ∀ size,
      Conserved frames layout s (stage8cKheapAlloc (kernelOps frames layout) s size).2 ↔
        GrowthClean frames layout s size) ∧
    (∀ calls s, Transition.Execution (CleanStep frames layout)
      (booted frames layout start memory) calls s → DrawnIsMapped s) ∧
    ∀ calls s, Transition.Execution (KeptStep frames layout)
      (booted frames layout start memory) calls s → Backed layout s := by
  refine ⟨fun calls s run size => ?_, fun calls s run => ?_, fun calls s run x hx => ?_⟩
  · obtain ⟨pages, h⟩ := inv_of_run table.sound run
    obtain ⟨pages', k, added, got, g⟩ := h.alloc table.sound size
    exact g.conserved_iff h
  · exact (drawn_of_run table.sound run).2
  · obtain ⟨pages, h, _, hhoused⟩ := backed_of_run table.sound run
    exact (hhoused x hx).resolves h.tracked.refines

/-- The first block of a freshly booted heap on the small map. -/
theorem frame_conservation_smallMap :
    Conserved smallMapFrames rowLayout (booted smallMapFrames rowLayout (fun _ _ => 0) fun _ => 0)
      (stage8cKheapAlloc (kernelOps smallMapFrames rowLayout)
        (booted smallMapFrames rowLayout (fun _ _ => 0) fun _ => 0) 8).2 :=
  ((frame_conservation_iff 0x11F800 smallMap smallMapFrames tableBuilt_smallMap rowLayout
    (fun _ _ => 0) fun _ => 0).1 [] _ .start 8).mpr (by decide +kernel)

/-- The memory above 4 GiB listed first. -/
def highMap : List Multiboot2MmapEntry :=
  [⟨0x100000000, 0x40000000, 1, 0⟩, ⟨0x100000, 0x7EE0000, 1, 0⟩]

def highMapFrames : Stage5cFrameBookkeeping :=
  ⟨[⟨0x100000, 0x40000⟩, ⟨0x120, 0x7EC0⟩], 0, 0x47EC0, 0x13FFFF, 0x13FFFF000, 0x100000,
    0x120000⟩

theorem tableBuilt_highMap : TableBuilt 0x11F800 highMap highMapFrames := by decide +kernel

/-- The first allocation draws the frame at 4 GiB, maps nothing and fails. -/
theorem frame_conservation_highMap :
    TableBuilt 0x11F800 highMap highMapFrames ∧
    ¬ ∀ calls s, KernelRun highMapFrames rowLayout (fun _ _ => 0) (fun _ => 0) calls s → ∀ size,
      Conserved highMapFrames rowLayout s
        (stage8cKheapAlloc (kernelOps highMapFrames rowLayout) s size).2 := by
  refine ⟨tableBuilt_highMap, fun hall => ?_⟩
  have hcounted := (hall [] _ .start 8).counted
  revert hcounted
  decide +kernel

end FrameConservation
