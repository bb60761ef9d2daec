import CustomOs.MultibootDecoding

/-! # Bytes and frames
The parser counts bytes of every entry, Stage 5C counts whole frames of the stored ones, cuts
the kernel image out and drops ranges it has no room for. Each entry contributes frames inside
its own policy bytes, so the sums compare entry by entry, for any bounds of the image. -/
namespace AccountingAgreement

open ByteMemory Loop MemoryMap FrameEligibility MultibootParser MultibootDecoding

variable {frames : Stage5cFrameBookkeeping} {bytes bytes' top top' : ℕ} {s e : UInt64}

/-- What the bookkeeping of the bytes and that of the frames say about each other. -/
structure Agrees (memory : Stage5bMemoryBookkeeping) (frames : Stage5cFrameBookkeeping) :
    Prop where
  policy_le_raw : memory.policyUsableBytes ≤ memory.rawUsableBytes
  frames_le_policy : memory.policyUsableBytes.toNat < 2 ^ 64 - 1 →
    4096 * frames.eligibleFrames.toNat ≤ memory.policyUsableBytes.toNat
  highest_le : 0 < frames.eligibleFrames →
    frames.highestEligibleAddr.toNat + 4096 ≤ memory.highestUsableEnd.toNat
  highest_addr : 0 < frames.eligibleFrames →
    frames.highestEligibleAddr.toNat = 4096 * frames.highestEligibleFrame.toNat

/-! ## Bytes -/

theorem policyBytes_le_length (entry : Multiboot2MmapEntry) :
    policyBytes entry ≤ if available entry then entry.length.toNat else 0 := by
  rw [policyBytes]
  by_cases hcounted : available entry ∧ entryEnd entry < 2 ^ 64
  · rw [if_pos hcounted, if_pos hcounted.1, entryEnd]
    omega
  · rw [if_neg hcounted]
    exact Nat.zero_le _

theorem policySum_le_raw (entries : List Multiboot2MmapEntry) :
    (entries.map policyBytes).sum ≤ rawBytes available entries := by
  induction entries using List.reverseRecOn with
  | nil => exact le_rfl
  | append_singleton entries entry ih =>
    have hlast := policyBytes_le_length entry
    rw [rawBytes_append, List.map_append, List.sum_append, List.map_singleton,
      List.sum_singleton]
    omega

theorem policy_le_raw (entries : List Multiboot2MmapEntry) :
    (decodedBookkeeping entries).policyUsableBytes ≤
      (decodedBookkeeping entries).rawUsableBytes := by
  have hsum := policySum_le_raw entries
  have hpolicy : (decodedBookkeeping entries).policyUsableBytes.toNat =
      saturated (entries.map policyBytes).sum := accountEntries_policy entries
  have hraw : (decodedBookkeeping entries).rawUsableBytes.toNat =
      saturated (rawBytes available entries) := (totals_raw entries).1
  rw [UInt64.le_iff_toNat_le, hpolicy, hraw, saturated, saturated]
  omega

/-! ## Frames -/

theorem addClampU64_le (a b : UInt64) : (addClampU64 a b).toNat ≤ a.toNat + b.toNat := by
  rw [addClampU64_saturated, saturated]
  omega

/-- The frames found so far lie in so many bytes, the last of them below `top`. -/
structure Accounts (frames : Stage5cFrameBookkeeping) (bytes top : ℕ) : Prop where
  image : frames.kernelReservedStart.toNat < frames.kernelReservedEnd.toNat
  eligible : 4096 * frames.eligibleFrames.toNat ≤ bytes
  addr : frames.highestEligibleAddr.toNat = 4096 * frames.highestEligibleFrame.toNat
  top : 0 < frames.highestEligibleFrame.toNat →
    4096 * frames.highestEligibleFrame.toNat + 4096 ≤ top
  found : 0 < frames.eligibleFrames.toNat → 0 < frames.highestEligibleFrame.toNat

theorem Accounts.mono (h : Accounts frames bytes top) (hbytes : bytes ≤ bytes')
    (htop : top ≤ top') : Accounts frames bytes' top' where
  image := h.image
  eligible := le_trans h.eligible hbytes
  addr := h.addr
  top := fun hfound => le_trans (h.top hfound) htop
  found := h.found

theorem eligibleSpan_eq {s e first count : ℕ} (h : eligibleSpan s e = [⟨first, count⟩]) :
    s ≤ 4096 * first ∧ 4096 * (first + count) ≤ e := by
  rw [eligibleSpan] at h
  split_ifs at h with hlt
  have hspan := (List.cons.inj h).1
  simp only [Sweep.Span.mk.injEq] at hspan
  omega

/-- A full table drops the range and counts its frames all the same. -/
theorem recordRange_accounts (frames : Stage5cFrameBookkeeping) (first count : UInt64) :
    ∃ ranges dropped, stage5cRecordRange frames first count =
      { frames with ranges := ranges, droppedRanges := dropped } := by
  rw [stage5cRecordRange]
  split_ifs
  · exact ⟨_, _, rfl⟩
  · exact ⟨_, _, rfl⟩

theorem Accounts.recordSpan (h : Accounts frames bytes top) (hs : 0x100000 ≤ s.toNat) :
    Accounts (stage5cRecordEligibleSpan frames s e) (bytes + (e.toNat - s.toNat))
      (max top e.toNat) := by
  rcases recordEligibleSpan_cases frames s e with
    ⟨_, heq⟩ | ⟨first, count, last, hspan, hlast, hlimit, heq⟩
  · rw [heq]
    exact h.mono (Nat.le_add_right _ _) (Nat.le_max_left _ _)
  · obtain ⟨hfirst, hend⟩ := eligibleSpan_eq hspan
    obtain ⟨ranges, dropped, hrange⟩ := recordRange_accounts frames first count
    have hshift : (last <<< 12).toNat = 4096 * last.toNat := frameShift_left hlimit
    have helig := addClampU64_le frames.eligibleFrames count
    have hsum := h.eligible
    have hbytes : 4096 * (addClampU64 frames.eligibleFrames count).toNat ≤
        bytes + (e.toNat - s.toNat) := by omega
    rw [heq, hrange]
    by_cases hhigher : frames.highestEligibleFrame < last
    · have hhigher' := UInt64.lt_iff_toNat_lt.mp hhigher
      simp only [if_pos hhigher]
      exact ⟨h.image, hbytes, hshift, fun _ => by simp only; omega, fun _ => by simp only; omega⟩
    · have hhigher' := UInt64.lt_iff_toNat_lt.not.mp hhigher
      -- A frame above the policy floor is not frame 0, so some span was recorded before.
      have hpos : 0 < frames.highestEligibleFrame.toNat := by omega
      have htop := h.top hpos
      simp only [if_neg hhigher]
      exact ⟨h.image, hbytes, h.addr, fun _ => by simp only; omega, fun _ => hpos⟩

/-- What an entry adds: frames inside its policy bytes, up to its end. -/
theorem Accounts.region (h : Accounts frames bytes top) (entry : Multiboot2MmapEntry) :
    Accounts (stage5cRegionIteration frames (stage5bRegionOf entry)) (bytes + policyBytes entry)
      (if 0 < policyBytes entry then max top (entryEnd entry) else top) := by
  have himage := h.image
  have hflag := regionOf_policyFlag entry
  rw [policyUsableLength_pos_iff] at hflag
  have htype : (stage5bRegionOf entry).multibootType = entry.type := rfl
  have hbase : (stage5bRegionOf entry).baseAddr = entry.baseAddr := rfl
  by_cases hpos : 0 < policyBytes entry
  swap
  · rw [stage5cRegionIteration, if_pos (hflag.mpr hpos), if_neg hpos]
    exact h.mono (Nat.le_add_right _ _) le_rfl
  have hlt := entryEnd_lt hpos
  have hend : (stage5bRegionOf entry).endAddr.toNat = entryEnd entry :=
    regionOf_endAddr hlt
  have havailable : entry.type = multiboot2MemoryAvailable := by
    by_contra hc
    rw [policyBytes, available, decide_eq_false hc] at hpos
    simp at hpos
  have hbytes : policyBytes entry = entryEnd entry - max entry.baseAddr.toNat 0x100000 := by
    rw [policyBytes, available, decide_eq_true havailable, if_pos ⟨rfl, hlt⟩]
  have hs := policyStart_toNat entry.baseAddr
  rw [if_pos hpos, stage5cRegionIteration, if_neg (hflag.not.mpr (not_not.mpr hpos)), htype,
    if_neg (not_not.mpr havailable), hbase]
  simp only
  generalize (if entry.baseAddr < stage5bPolicyMinAddr then stage5bPolicyMinAddr
    else entry.baseAddr) = start at hs ⊢
  split_ifs with hempty hbeside hbefore hbehind hbehind
  · exact h.mono (Nat.le_add_right _ _) (Nat.le_max_left _ _)
  · exact (h.recordSpan (by omega)).mono (by omega) (by omega)
  all_goals
    rw [not_or, UInt64.le_iff_toNat_le, UInt64.le_iff_toNat_le] at hbeside
    simp only [UInt64.lt_iff_toNat_lt] at hbefore hbehind
  · have hleft := h.recordSpan (s := start) (e := frames.kernelReservedStart) (by omega)
    exact (hleft.recordSpan (by omega)).mono (by omega) (by omega)
  · exact (h.recordSpan (by omega)).mono (by omega) (by omega)
  · exact (h.recordSpan (by omega)).mono (by omega) (by omega)
  · exact h.mono (Nat.le_add_right _ _) (Nat.le_max_left _ _)

theorem highestPolicyEnd_append (entries entries' : List Multiboot2MmapEntry) :
    highestPolicyEnd entries ≤ highestPolicyEnd (entries ++ entries') := by
  induction entries' using List.reverseRecOn with
  | nil => rw [List.append_nil]
  | append_singleton entries' entry ih =>
    rw [← List.append_assoc, highestPolicyEnd_concat]
    split_ifs <;> omega

/-- The region loop, by induction on the entries it has seen. -/
theorem accounts_loop (h : Accounts frames 0 0) (entries : List Multiboot2MmapEntry) :
    Accounts ((entries.map stage5bRegionOf).foldl stage5cRegionIteration frames)
      (entries.map policyBytes).sum (highestPolicyEnd entries) := by
  induction entries using List.reverseRecOn with
  | nil => exact h
  | append_singleton entries entry ih =>
    rw [List.map_append, List.foldl_append, List.map_append, List.sum_append,
      highestPolicyEnd_concat]
    simpa using ih.region entry

theorem prepared_accounts {kernelStart kernelEnd : UInt32} {memory : Stage5bMemoryBookkeeping}
    (h : stage5cPrepareFrameBookkeeping kernelStart kernelEnd memory = .ok frames) :
    ∃ start, Accounts start 0 0 ∧ frames = memory.regions.foldl stage5cRegionIteration start := by
  rw [stage5cPrepareFrameBookkeeping] at h
  simp only at h
  split_ifs at h with hinvalid
  obtain ⟨_, himage⟩ := not_or.mp hinvalid
  refine ⟨_, ⟨?_, ?_, ?_, ?_, ?_⟩, (Except.ok.inj h).symm⟩
  · exact UInt64.lt_iff_toNat_lt.mp (UInt64.not_le.mp himage)
  · rfl
  · rfl
  · exact fun hfound => absurd hfound (lt_irrefl 0)
  · exact fun hfound => absurd hfound (lt_irrefl 0)

/-- Stage 5C over the bookkeeping of any entries, with any image it accepts. -/
theorem agrees_of_entries (entries : List Multiboot2MmapEntry) {kernelStart kernelEnd : UInt32}
    (h : stage5cPrepareFrameBookkeeping kernelStart kernelEnd (decodedBookkeeping entries) =
      .ok frames) : Agrees (decodedBookkeeping entries) frames := by
  obtain ⟨start, hstart, hframes⟩ := prepared_accounts h
  have hregions : (decodedBookkeeping entries).regions =
      (entries.take 128).map stage5bRegionOf := by
    rw [List.map_take]
    exact accountEntries_regions entries
  have hloop := accounts_loop hstart (entries.take 128)
  rw [← hregions, ← hframes] at hloop
  have hsum : ((entries.take 128).map policyBytes).sum ≤ (entries.map policyBytes).sum := by
    have hsplit := congrArg (fun entries => (entries.map policyBytes).sum)
      (List.take_append_drop 128 entries)
    simp only [List.map_append, List.sum_append] at hsplit
    omega
  have hhighest := highestPolicyEnd_append (entries.take 128) (entries.drop 128)
  rw [List.take_append_drop] at hhighest
  have hpolicy : (decodedBookkeeping entries).policyUsableBytes.toNat =
      saturated (entries.map policyBytes).sum := accountEntries_policy entries
  have hend : (decodedBookkeeping entries).highestUsableEnd.toNat = highestPolicyEnd entries :=
    accountEntries_highest entries
  refine ⟨policy_le_raw entries, fun hbound => ?_, fun hfound => ?_, fun _ => hloop.addr⟩
  · rw [hpolicy, saturated] at hbound ⊢
    have heligible := hloop.eligible
    omega
  · have htop := hloop.top (hloop.found (UInt64.lt_iff_toNat_lt.mp hfound))
    rw [hloop.addr, hend]
    omega

/-! ## What a parse leaves -/

section Parse

variable {memory : Memory} {endAddr : UInt32} {state next : ParseState} {outcome : ParseOutcome}
  {bookkeeping : Stage5bMemoryBookkeeping}

/-- The walk has accounted some entries, in both records alike. -/
def Accounted (state : ParseState) : Prop :=
  ∃ entries : List Multiboot2MmapEntry,
    state.totals = entries.foldl accountTotals stage5ParseTotalsReset ∧
      state.memory = stage5bAccountEntries entries

theorem Accounted.step (h : Accounted state)
    (hs : parseIteration memory endAddr state = .next next) : Accounted next := by
  obtain ⟨entries, htotals, hmemory⟩ := h
  cases parseStep hs with
  | overTag => exact ⟨entries, htotals, hmemory⟩
  | intoTag => exact ⟨entries, htotals, hmemory⟩
  | outOfTag => exact ⟨entries, htotals, hmemory⟩
  | @entry cursor entryCursor =>
    refine ⟨entries ++ [entryAt memory entryCursor], ?_, ?_⟩
    · rw [List.foldl_append, ← htotals]
      rfl
    · rw [accountEntries_append, ← hmemory]

theorem finish_ok (h : state.finish.result = .ok bookkeeping) :
    bookkeeping = { state.memory with
      rawUsableBytes := state.totals.rawUsableBytes
      rawReservedBytes := state.totals.rawReservedBytes } := by
  rw [ParseState.finish] at h
  split_ifs at h
  · cases h
  · exact (Except.ok.inj h).symm

theorem panic_ok {reason : String} {detail : UInt32}
    (h : (.leave (state.panic reason detail) : Iteration ParseState ParseOutcome) =
      .leave outcome) : outcome.result ≠ .ok bookkeeping := by
  obtain rfl := Iteration.leave.inj h
  intro hok
  cases hok

theorem stepOverTag_ok {cursor : UInt32}
    (h : stepOverTag memory endAddr state cursor = .leave outcome) :
    outcome.result ≠ .ok bookkeeping := by
  simp only [stepOverTag] at h
  split_ifs at h
  exact panic_ok h

/-- The walk ends well only through its common end, with the records it has. -/
theorem leave_ok (h : parseIteration memory endAddr state = .leave outcome)
    (hok : outcome.result = .ok bookkeeping) :
    bookkeeping = { state.memory with
      rawUsableBytes := state.totals.rawUsableBytes
      rawReservedBytes := state.totals.rawReservedBytes } := by
  cases hphase : state.phase with
  | tags cursor =>
    simp only [parseIteration, hphase, tagIteration] at h
    by_cases hheader : cursor + tagSize ≤ endAddr
    swap
    · rw [if_pos hheader] at h
      obtain rfl := Iteration.leave.inj h
      exact finish_ok hok
    rw [if_neg (not_not.mpr hheader)] at h
    split_ifs at h
    · exact absurd hok (panic_ok h)
    · exact absurd hok (panic_ok h)
    · exact absurd hok (panic_ok h)
    · obtain rfl := Iteration.leave.inj h
      have hfinish := finish_ok hok
      exact hfinish
    · exact absurd hok (panic_ok h)
    · exact absurd hok (panic_ok h)
    · exact absurd hok (stepOverTag_ok h)
  | entries cursor entryCursor =>
    simp only [parseIteration, hphase, entryIteration] at h
    split_ifs at h
    exact absurd hok (stepOverTag_ok h)

theorem parse_decodes {fuel : ℕ} {infoAddr : UInt32}
    (h : stage5aParseMmap fuel memory infoAddr = some (.ok bookkeeping)) :
    ∃ entries, bookkeeping = decodedBookkeeping entries := by
  rw [stage5aParseMmap] at h
  cases hstart : parseStart memory infoAddr with
  | error panic =>
    rw [hstart] at h
    cases h
  | ok start =>
    rw [hstart] at h
    simp only [Option.map_eq_some_iff] at h
    obtain ⟨outcome, hrun, hok⟩ := h
    obtain ⟨last, hvisits, hleave⟩ := exit_of_run hrun
    have hinit : Accounted start := by
      simp only [parseStart] at hstart
      split_ifs at hstart
      obtain rfl := Except.ok.inj hstart
      exact ⟨[], rfl, rfl⟩
    obtain ⟨entries, htotals, hmemory⟩ :=
      hvisits.invariant hinit fun _ _ haccounted hs => haccounted.step hs
    refine ⟨entries, ?_⟩
    rw [leave_ok hleave hok, htotals, hmemory, decodedBookkeeping]

end Parse

theorem accounting_agrees :
    (∀ (entries : List Multiboot2MmapEntry) (kernelStart kernelEnd : UInt32)
      (frames : Stage5cFrameBookkeeping),
      stage5cPrepareFrameBookkeeping kernelStart kernelEnd (decodedBookkeeping entries) =
        .ok frames → Agrees (decodedBookkeeping entries) frames) ∧
    ∀ (fuel : ℕ) (memory : Memory) (infoAddr : UInt32) (bookkeeping : Stage5bMemoryBookkeeping)
      (kernelStart kernelEnd : UInt32) (frames : Stage5cFrameBookkeeping),
      stage5aParseMmap fuel memory infoAddr = some (.ok bookkeeping) →
      stage5cPrepareFrameBookkeeping kernelStart kernelEnd bookkeeping = .ok frames →
      Agrees bookkeeping frames := by
  refine ⟨fun entries _ _ _ h => agrees_of_entries entries h, ?_⟩
  intro fuel memory infoAddr bookkeeping kernelStart kernelEnd frames hparse h
  obtain ⟨entries, rfl⟩ := parse_decodes hparse
  exact agrees_of_entries entries h

theorem accounting_agrees_smallMap : Agrees (decodedBookkeeping smallMap) smallMapFrames :=
  accounting_agrees.1 smallMap kernelPhysStart 0x11F800 smallMapFrames (by decide +kernel)

end AccountingAgreement
