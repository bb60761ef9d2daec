import CustomOs.InterruptHandling

/-! # What becomes of the edges and the bytes
Over every run the scan codes and the ticks are accounted for: what a device has handed over is
on the serial port, in the counter, or in one place on the way there. -/
namespace InterruptAccounts

open InterruptSetup InterruptHandling Transition

def taken (vector : UInt8) (tr : List Event) : ℕ := tr.count (.acknowledge vector)

/-- The edges of a line that found no request waiting. -/
def kept (line : Line) (tr : List Event) : ℕ := tr.count (.edge line false)

def placed (tr : List Event) : List UInt8 :=
  tr.filterMap fun e => match e with
    | .key scancode => some scancode
    | _ => none

def scancodes (log : List Report) : List UInt8 :=
  log.filterMap fun report => match report with
    | .scancode scancode => some scancode
    | .tick _ => none

def tickReports (log : List Report) : List UInt32 :=
  log.filterMap fun report => match report with
    | .tick ticks => some ticks
    | .scancode _ => none

/-- What the first so many ticks of the 32-bit counter print. -/
def dueReports (ticks : ℕ) : List UInt32 :=
  ((List.range ticks).map fun k => UInt32.ofNat (k + 1)).filter (· % pitTargetHz = 0)

/-- How many requests of a line are waiting; there is room for one. -/
def pending (line : Line) (p : Pic) : ℕ := if line ∈ p.requests then 1 else 0

def buffered (k : Keyboard) : List UInt8 := if k.full then [k.scancode] else []

/-- Read, but not on the serial port yet. -/
def unread : Activity → List UInt8
  | .handler (.keyReport scancode) => [scancode]
  | _ => []

/-- Taken, but not in the counter yet. -/
def uncounted : Activity → ℕ
  | .handler .tickLoad | .handler (.tickStore _) => 1
  | _ => 0

/-- Taken, but not up to the test for a report yet. -/
def unreported : Activity → ℕ
  | .handler .tickReport => 1
  | a => uncounted a

/-- The accounts of a history: every byte is in one place, every kept edge is an interrupt taken
or waiting, and every interrupt taken is one tick. -/
structure Balanced (tr : List Event) (s : System) : Prop where
  bytes : scancodes s.log ++ unread s.running ++ buffered s.ports.keyboard = placed tr
  waiting : s.ports.keyboard.full = true ↔
    1 ∈ s.ports.master.requests ∨ s.running = .handler .keyLoad
  alone : s.running = .handler .keyLoad → 1 ∉ s.ports.master.requests
  edges : kept 0 tr = taken 0x20 tr + pending 0 s.ports.master
  ticks : ∃ n, taken 0x20 tr = n + uncounted s.running ∧ s.gTimerTicks = UInt32.ofNat n
  reports : ∃ n, taken 0x20 tr = n + unreported s.running ∧ tickReports s.log = dueReports n
  known : ∀ vector, .acknowledge vector ∈ tr → vector = 0x20 ∨ vector = 0x21

section Accounts

variable {idt : Idt} {stubs : Stubs} {codeSelector : UInt16} {s t : System} {e : Event}
  {tr : List Event}

theorem dueReports_succ (n : ℕ) :
    dueReports (n + 1) = dueReports n ++
      if UInt32.ofNat (n + 1) % pitTargetHz = 0 then [UInt32.ofNat (n + 1)] else [] := by
  simp only [dueReports, List.range_succ, List.map_append, List.filter_append, List.map_cons,
    List.map_nil, List.filter_cons, List.filter_nil, decide_eq_true_eq]

@[simp] theorem taken_append (vector : UInt8) (tr : List Event) (e : Event) :
    taken vector (tr ++ [e]) = taken vector tr + if e = .acknowledge vector then 1 else 0 := by
  simp [taken, List.count_append, List.count_singleton]

@[simp] theorem kept_append (line : Line) (tr : List Event) (e : Event) :
    kept line (tr ++ [e]) = kept line tr + if e = .edge line false then 1 else 0 := by
  simp [kept, List.count_append, List.count_singleton]

@[simp] theorem placed_append (tr tr' : List Event) :
    placed (tr ++ tr') = placed tr ++ placed tr' := List.filterMap_append ..

@[simp] theorem scancodes_append (log log' : List Report) :
    scancodes (log ++ log') = scancodes log ++ scancodes log' := List.filterMap_append ..

@[simp] theorem tickReports_append (log log' : List Report) :
    tickReports (log ++ log') = tickReports log ++ tickReports log' := List.filterMap_append ..

theorem Balanced.known_append (h : Balanced tr s)
    (he : ∀ vector, e = .acknowledge vector → vector = 0x20 ∨ vector = 0x21) (vector : UInt8)
    (hmem : .acknowledge vector ∈ tr ++ [e]) : vector = 0x20 ∨ vector = 0x21 := by
  rcases List.mem_append.mp hmem with hold | hnew
  · exact h.known vector hold
  · exact he vector (List.mem_singleton.mp hnew).symm

theorem Balanced.edge (h : Balanced tr s) {line : Line} {lost : Bool}
    (he : Enabled s (.edge line lost)) :
    Balanced (tr ++ [.edge line lost]) (next s (.edge line lost)) := by
  obtain ⟨hline, _, hlost⟩ := he
  have hkeyboard : (1 : Line) ∈ insert line s.ports.master.requests ↔
      1 ∈ s.ports.master.requests := by
    rw [Finset.mem_insert]
    exact or_iff_right (Ne.symm hline)
  constructor
  · simpa [next, placed] using h.bytes
  · simpa only [next, raise, hkeyboard] using h.waiting
  · simpa only [next, raise, hkeyboard] using h.alone
  · have hedges := h.edges
    rw [kept_append, taken_append, hedges]
    by_cases hzero : line = 0
    · subst hzero
      by_cases hrequest : (0 : Line) ∈ s.ports.master.requests
      · simp [next, raise, pending, hlost, hrequest]
      · simp [next, raise, pending, hlost, hrequest]
    · simp [next, raise, pending, hzero, Ne.symm hzero]
  · simpa [next] using h.ticks
  · simpa [next] using h.reports
  · exact h.known_append fun _ heq => by cases heq

theorem Balanced.slaveEdge (h : Balanced tr s) (line : Line) :
    Balanced (tr ++ [.slaveEdge line]) (next s (.slaveEdge line)) := by
  constructor
  · simpa [next, placed] using h.bytes
  · exact h.waiting
  · exact h.alone
  · simpa [next] using h.edges
  · simpa [next] using h.ticks
  · simpa [next] using h.reports
  · exact h.known_append fun _ heq => by cases heq

/-- The controller has a new byte only when the old one has been read, so its line is free. -/
theorem Balanced.key (h : Balanced tr s) {scancode : UInt8} (he : Enabled s (.key scancode)) :
    Balanced (tr ++ [.key scancode]) (next s (.key scancode)) := by
  have hempty : s.ports.keyboard.full = false := he
  have hidle := h.waiting.not.mp (by rw [hempty]; exact Bool.false_ne_true)
  have hbytes := h.bytes
  constructor
  · have hplaced : placed (tr ++ [.key scancode]) = placed tr ++ [scancode] := placed_append ..
    rw [hplaced, ← hbytes]
    simp [next, buffered, hempty]
  · simp [next, raise]
  · intro running
    exact absurd (Or.inr running) hidle
  · simpa [next, raise, pending] using h.edges
  · simpa [next] using h.ticks
  · simpa [next] using h.reports
  · exact h.known_append fun _ heq => by cases heq

theorem Balanced.timer (h : Balanced tr s) (running : s.running = .hang)
    (request : 0 ∈ s.ports.master.requests) :
    Balanced (tr ++ [.acknowledge 0x20]) (serve s 0 .tickLoad) := by
  obtain ⟨n, htaken, hticks⟩ := h.ticks
  obtain ⟨m, htaken', hreports⟩ := h.reports
  have hbytes := h.bytes
  have hwaiting := h.waiting
  have hedges := h.edges
  rw [running] at htaken htaken' hbytes hwaiting
  rw [pending, if_pos request] at hedges
  constructor
  · simpa [serve, placed, unread] using hbytes
  · simpa [serve, accept] using hwaiting
  · intro hrunning
    cases hrunning
  · simpa [serve, accept, pending] using hedges
  · refine ⟨n, ?_, hticks⟩
    simpa [serve, uncounted] using htaken
  · refine ⟨m, ?_, hreports⟩
    simpa [serve, unreported, uncounted] using htaken'
  · exact h.known_append fun _ heq => Or.inl (Event.acknowledge.inj heq).symm

theorem Balanced.keyboard (h : Balanced tr s) (running : s.running = .hang)
    (request : 1 ∈ s.ports.master.requests) :
    Balanced (tr ++ [.acknowledge 0x21]) (serve s 1 .keyLoad) := by
  have hfull := h.waiting.mpr (Or.inl request)
  have hbytes := h.bytes
  have hticks := h.ticks
  have hreports := h.reports
  rw [running] at hbytes hticks hreports
  constructor
  · simpa [serve, placed, unread] using hbytes
  · simpa [serve] using hfull
  · intro _
    simp [serve, accept]
  · simpa [serve, accept, pending] using h.edges
  · simpa [serve, uncounted] using hticks
  · simpa [serve, unreported, uncounted] using hreports
  · exact h.known_append fun _ heq => Or.inr (Event.acknowledge.inj heq).symm

/-- A step that neither counts nor reports nor reads. -/
theorem Balanced.quiet (h : Balanced tr s) {p : Point} (running : s.running = .handler p)
    (keyboard : t.ports.keyboard = s.ports.keyboard)
    (requests : t.ports.master.requests = s.ports.master.requests)
    (ticks : t.gTimerTicks = s.gTimerTicks) (log : t.log = s.log)
    (unread : unread t.running = unread (.handler p))
    (uncounted : uncounted t.running = uncounted (.handler p))
    (unreported : unreported t.running = unreported (.handler p))
    (loaded : p ≠ .keyLoad) (loading : t.running ≠ .handler .keyLoad) :
    Balanced (tr ++ [.handler]) t := by
  rw [← running] at unread uncounted unreported
  have hloaded : s.running ≠ .handler .keyLoad := by
    rw [running]
    exact fun heq => loaded (Activity.handler.inj heq)
  constructor
  · simpa [keyboard, log, unread, placed] using h.bytes
  · simpa only [keyboard, requests, hloaded, loading] using h.waiting
  · exact fun hrunning => absurd hrunning loading
  · simpa [requests, pending] using h.edges
  · simpa [uncounted, ticks] using h.ticks
  · simpa [unreported, log] using h.reports
  · exact h.known_append fun _ heq => by cases heq

theorem Balanced.store (h : Balanced tr s) {value : UInt32}
    (running : s.running = .handler (.tickStore value)) (loaded : value = s.gTimerTicks) :
    Balanced (tr ++ [.handler]) (InterruptHandling.advance s (.tickStore value)) := by
  obtain ⟨n, htaken, hticks⟩ := h.ticks
  have hbytes := h.bytes
  have hwaiting := h.waiting
  have hreports := h.reports
  rw [running] at hbytes hwaiting htaken hreports
  constructor
  · simpa [InterruptHandling.advance, placed, unread] using hbytes
  · simpa [InterruptHandling.advance] using hwaiting
  · intro hrunning
    cases hrunning
  · simpa [InterruptHandling.advance] using h.edges
  · refine ⟨n + 1, ?_, ?_⟩
    · simpa [InterruptHandling.advance, uncounted] using htaken
    · simp only [InterruptHandling.advance, loaded, hticks, UInt32.ofNat_add]
      rfl
  · simpa [InterruptHandling.advance, unreported, uncounted] using hreports
  · exact h.known_append fun _ heq => by cases heq

/-- The report is of the tick that has just been counted. -/
theorem Balanced.report (h : Balanced tr s) (running : s.running = .handler .tickReport) :
    Balanced (tr ++ [.handler]) (InterruptHandling.advance s .tickReport) := by
  obtain ⟨n, htaken, hticks⟩ := h.ticks
  obtain ⟨m, htaken', hreports⟩ := h.reports
  have hbytes := h.bytes
  have hwaiting := h.waiting
  rw [running] at hbytes hwaiting htaken htaken'
  have hcount : n = m + 1 := by
    simp only [uncounted, unreported] at htaken htaken'
    omega
  constructor
  · simp only [InterruptHandling.advance]
    split_ifs <;> simpa [placed, unread, scancodes] using hbytes
  · simpa [InterruptHandling.advance] using hwaiting
  · intro hrunning
    cases hrunning
  · simpa [InterruptHandling.advance] using h.edges
  · refine ⟨n, ?_, hticks⟩
    simpa [InterruptHandling.advance, uncounted] using htaken
  · refine ⟨m + 1, ?_, ?_⟩
    · simpa [InterruptHandling.advance, unreported, uncounted] using htaken'
    · rw [dueReports_succ, ← hreports, ← hcount, ← hticks]
      simp only [InterruptHandling.advance]
      split_ifs <;> simp [tickReports]
  · exact h.known_append fun _ heq => by cases heq

theorem Balanced.load (h : Balanced tr s) (running : s.running = .handler .keyLoad) :
    Balanced (tr ++ [.handler]) (InterruptHandling.advance s .keyLoad) := by
  have hfull := h.waiting.mpr (Or.inr running)
  have hquiet := h.alone running
  have hbytes := h.bytes
  have hticks := h.ticks
  have hreports := h.reports
  rw [running] at hbytes hticks hreports
  have hread : inb s.ports keyboardData = (s.ports.keyboard.scancode,
      { s.ports with keyboard := { s.ports.keyboard with full := false } }) := rfl
  constructor
  · simp only [buffered, hfull, if_true] at hbytes
    simpa [InterruptHandling.advance, hread, placed, unread, buffered]
      using hbytes
  · simpa [InterruptHandling.advance, hread] using hquiet
  · intro hrunning
    cases hrunning
  · simpa [InterruptHandling.advance, hread, pending] using h.edges
  · simpa [InterruptHandling.advance, uncounted] using hticks
  · simpa [InterruptHandling.advance, unreported, uncounted] using hreports
  · exact h.known_append fun _ heq => by cases heq

theorem Balanced.print (h : Balanced tr s) {scancode : UInt8}
    (running : s.running = .handler (.keyReport scancode)) :
    Balanced (tr ++ [.handler]) (InterruptHandling.advance s (.keyReport scancode)) := by
  have hbytes := h.bytes
  have hwaiting := h.waiting
  have hticks := h.ticks
  have hreports := h.reports
  rw [running] at hbytes hwaiting hticks hreports
  constructor
  · simpa [InterruptHandling.advance, placed, unread, scancodes] using hbytes
  · simpa [InterruptHandling.advance] using hwaiting
  · intro hrunning
    cases hrunning
  · simpa [InterruptHandling.advance] using h.edges
  · simpa [InterruptHandling.advance, uncounted] using hticks
  · simpa [InterruptHandling.advance, unreported, uncounted, tickReports] using hreports
  · exact h.known_append fun _ heq => by cases heq

theorem Balanced.advance (h : Balanced tr s) (hinv : Invariant idt stubs codeSelector s)
    {p : Point} (running : s.running = .handler p) :
    Balanced (tr ++ [.handler]) (InterruptHandling.advance s p) := by
  have hsetUp : SetUp s.ports p.inService := by
    have := hinv.setUp
    rwa [running] at this
  cases p with
  | tickLoad => exact h.quiet running rfl rfl rfl rfl rfl rfl rfl (by decide) (by simp [InterruptHandling.advance])
  | tickStore value => exact h.store running (hinv.loaded value running)
  | tickReport => exact h.report running
  | tickEoi =>
    have heoi := picSendEoi_eq hsetUp.inService 0 (by decide)
    simp only [InterruptHandling.advance, heoi]
    exact h.quiet running rfl rfl rfl rfl rfl rfl rfl (by decide) (by simp)
  | tickReturn =>
    rw [InterruptHandling.advance, hinv.iret_eq running]
    exact h.quiet running rfl rfl rfl rfl rfl rfl rfl (by decide) (by simp [leave])
  | keyLoad => exact h.load running
  | keyReport scancode => exact h.print running
  | keyEoi =>
    have heoi := picSendEoi_eq hsetUp.inService 1 (by decide)
    simp only [InterruptHandling.advance, heoi]
    exact h.quiet running rfl rfl rfl rfl rfl rfl rfl (by decide) (by simp)
  | keyReturn =>
    rw [InterruptHandling.advance, hinv.iret_eq running]
    exact h.quiet running rfl rfl rfl rfl rfl rfl rfl (by decide) (by simp [leave])

theorem Balanced.step (h : Balanced tr s) (hinv : Invariant idt stubs codeSelector s)
    (hs : Step s e t) : Balanced (tr ++ [e]) t := by
  obtain ⟨he, rfl⟩ := hs
  cases e with
  | edge line lost => exact h.edge he
  | slaveEdge line => exact h.slaveEdge line
  | key scancode => exact h.key he
  | acknowledge vector =>
    obtain ⟨running, ⟨rfl, request, hnext⟩ | ⟨rfl, _, request, hnext⟩⟩ := hinv.acknowledged he
    · rw [hnext]
      exact h.timer running request
    · rw [hnext]
      exact h.keyboard running request
  | handler =>
    obtain ⟨p, running⟩ := he
    rw [next_handler running]
    exact h.advance hinv running

theorem started_balanced (idt : Idt) (stubs : Stubs) (codeSelector : UInt16) {ports : Ports}
    (empty : ports.keyboard.full = false) :
    Balanced [] (started idt stubs codeSelector ports) := by
  have hports : (started idt stubs codeSelector ports).ports = startDevices ports := rfl
  rw [startDevices_eq] at hports
  constructor
  · rw [hports, buffered, empty]
    rfl
  · rw [hports]
    simp [empty, started]
  · intro running
    cases running
  · rw [hports]
    rfl
  · exact ⟨0, rfl, rfl⟩
  · exact ⟨0, rfl, rfl⟩
  · intro vector hmem
    cases hmem

theorem run_invariant {ports : Ports}
    (run : Execution Step (started idt stubs codeSelector ports) tr s) :
    Invariant idt stubs codeSelector s := by
  have hinit := started_invariant idt stubs codeSelector ports
  exact run.invariant (I := fun _ s => Invariant idt stubs codeSelector s) hinit
    fun _ _ _ _ h hs => h.step hs

theorem run_balanced {ports : Ports} (empty : ports.keyboard.full = false)
    (run : Execution Step (started idt stubs codeSelector ports) tr s) : Balanced tr s := by
  have hboth : Invariant idt stubs codeSelector s ∧ Balanced tr s :=
    run.invariant (I := fun tr s => Invariant idt stubs codeSelector s ∧ Balanced tr s)
      ⟨started_invariant idt stubs codeSelector ports,
        started_balanced idt stubs codeSelector empty⟩
      fun _ _ _ _ h hs => ⟨h.1.step hs, h.2.step h.1 hs⟩
  exact hboth.2

end Accounts

/-! ## The processor catches up -/

/-- The steps that the processor takes, as opposed to the devices. -/
def OfProcessor : Event → Prop
  | .acknowledge _ | .handler => True
  | _ => False

/-- The steps that a handler has left. -/
def stepsLeft : Point → ℕ
  | .tickLoad => 5
  | .tickStore _ => 4
  | .tickReport => 3
  | .tickEoi => 2
  | .tickReturn => 1
  | .keyLoad => 4
  | .keyReport _ => 3
  | .keyEoi => 2
  | .keyReturn => 1

def left : Activity → ℕ
  | .handler p => stepsLeft p
  | _ => 0

/-- The steps that the processor has left when the devices are silent. -/
def work (s : System) : ℕ :=
  left s.running + 6 * pending timerLine s.ports.master + 5 * pending keyboardLine s.ports.master

section Progress

variable {idt : Idt} {stubs : Stubs} {codeSelector : UInt16} {s t : System} {e : Event}
  {tr : List Event}

theorem work_eq (s : System) :
    work s = left s.running + 6 * pending 0 s.ports.master + 5 * pending 1 s.ports.master := rfl

theorem work_le (s : System) : work s ≤ 16 := by
  have hpoint : left s.running ≤ 5 := by
    cases s.running with
    | hang => exact Nat.zero_le _
    | stray => exact Nat.zero_le _
    | handler p => cases p <;> simp [left, stepsLeft]
  have h0 : pending 0 s.ports.master ≤ 1 := by
    rw [pending]
    split_ifs <;> omega
  have h1 : pending 1 s.ports.master ≤ 1 := by
    rw [pending]
    split_ifs <;> omega
  rw [work_eq]
  omega

theorem work_handler (h : Invariant idt stubs codeSelector s) {p : Point}
    (running : s.running = .handler p) : work (advance s p) + 1 = work s := by
  have hsetUp : SetUp s.ports p.inService := by
    have := h.setUp
    rwa [running] at this
  have hiret := h.iret_eq running
  have hwork : work s = stepsLeft p + 6 * pending 0 s.ports.master + 5 * pending 1 s.ports.master := by
    rw [work_eq, running]
    rfl
  rw [hwork]
  cases p with
  | tickLoad => simp only [work_eq, advance, left, stepsLeft]; omega
  | tickStore value => simp only [work_eq, advance, left, stepsLeft]; omega
  | tickReport => simp only [work_eq, advance, left, stepsLeft]; omega
  | tickEoi =>
    have heoi := picSendEoi_eq hsetUp.inService 0 (by decide)
    simp only [work_eq, advance, heoi, left, stepsLeft, pending]
    omega
  | tickReturn =>
    simp only [work_eq, advance, hiret, leave, left, stepsLeft]
    omega
  | keyLoad =>
    have hread : (inb s.ports keyboardData).2.master = s.ports.master := rfl
    simp only [work_eq, advance, hread, left, stepsLeft]
    omega
  | keyReport scancode => simp only [work_eq, advance, left, stepsLeft]; omega
  | keyEoi =>
    have heoi := picSendEoi_eq hsetUp.inService 1 (by decide)
    simp only [work_eq, advance, heoi, left, stepsLeft, pending]
    omega
  | keyReturn =>
    simp only [work_eq, advance, hiret, leave, left, stepsLeft]
    omega

/-- Every step of the processor leaves it one less. -/
theorem work_step (h : Invariant idt stubs codeSelector s) (hs : Step s e t)
    (hcpu : OfProcessor e) : work t + 1 = work s := by
  obtain ⟨he, rfl⟩ := hs
  cases e with
  | edge line lost => exact hcpu.elim
  | slaveEdge line => exact hcpu.elim
  | key scancode => exact hcpu.elim
  | acknowledge vector =>
    obtain ⟨running, ⟨_, request, hnext⟩ | ⟨_, hnone, request, hnext⟩⟩ := h.acknowledged he
    · rw [hnext, work_eq, work_eq, running]
      simp [serve, accept, pending, request, left, stepsLeft]
      omega
    · rw [hnext, work_eq, work_eq, running]
      simp [serve, accept, pending, hnone, request, left, stepsLeft]
  | handler =>
    obtain ⟨p, running⟩ := he
    rw [next_handler running]
    exact work_handler h running

theorem step_of_work (h : Invariant idt stubs codeSelector s) (hwork : work s ≠ 0) :
    ∃ e t, OfProcessor e ∧ Step s e t := by
  cases h.serving with
  | handler p running => exact ⟨.handler, _, trivial, ⟨p, running⟩, rfl⟩
  | hang running flag =>
    have hsetUp := h.setUp
    rw [running] at hsetUp
    have hanswer := acknowledge_eq hsetUp
    have hrequest : 0 ∈ s.ports.master.requests ∨ 1 ∈ s.ports.master.requests := by
      by_contra hnone
      rw [not_or] at hnone
      apply hwork
      simp [work_eq, running, left, pending, hnone]
    by_cases h0 : 0 ∈ s.ports.master.requests
    · rw [if_pos h0] at hanswer
      exact ⟨.acknowledge 0x20, _, trivial, ⟨flag, by rw [hanswer]; rfl⟩, rfl⟩
    · rw [if_neg h0, if_pos (hrequest.resolve_left h0)] at hanswer
      exact ⟨.acknowledge 0x21, _, trivial, ⟨flag, by rw [hanswer]; rfl⟩, rfl⟩

/-- With the devices silent the processor is done after the steps it has left. -/
theorem processor_settles (h : Invariant idt stubs codeSelector s) :
    ∃ tr t, Execution Step s tr t ∧ (∀ e ∈ tr, OfProcessor e) ∧ tr.length = work s ∧
      work t = 0 := by
  induction hn : work s generalizing s with
  | zero => exact ⟨[], s, .start, by simp, rfl, hn⟩
  | succ n ih =>
    obtain ⟨e, u, hcpu, hs⟩ := step_of_work h (by omega)
    have hless := work_step h hs hcpu
    obtain ⟨tr, t, hrun, hall, hlength, hrest⟩ := ih (h.step hs) (by omega)
    refine ⟨e :: tr, t, (Execution.single hs).append hrun, ?_, ?_, hrest⟩
    · intro e' he'
      rcases List.mem_cons.mp he' with rfl | he'
      · exact hcpu
      · exact hall e' he'
    · rw [List.length_cons, hlength]

theorem placed_processor (hall : ∀ e ∈ tr, OfProcessor e) : placed tr = [] := by
  rw [placed, List.filterMap_eq_nil_iff]
  intro e he
  cases e with
  | key scancode => exact (hall _ he).elim
  | _ => rfl

theorem kept_processor (line : Line) (hall : ∀ e ∈ tr, OfProcessor e) : kept line tr = 0 := by
  rw [kept, List.count_eq_zero]
  intro he
  exact hall _ he

theorem at_rest (h : Invariant idt stubs codeSelector s) (hrest : work s = 0) :
    s.running = .hang ∧ 0 ∉ s.ports.master.requests ∧ 1 ∉ s.ports.master.requests := by
  have hrunning : s.running = .hang := by
    cases h.serving with
    | hang running => exact running
    | handler p running =>
      rw [work_eq, running] at hrest
      cases p <;> simp [left, stepsLeft] at hrest
  rw [work_eq, hrunning] at hrest
  refine ⟨hrunning, ?_, ?_⟩
  · intro hrequest
    simp [left, pending, hrequest] at hrest
  · intro hrequest
    simp [left, pending, hrequest] at hrest

end Progress

/-! ## Whole runs -/

/-- Ports as a firmware may leave them: all lines masked, and the keyboard buffer as given. -/
def firmwarePorts (full : Bool) : Ports :=
  ⟨⟨.ready, 8, 4, 1, 0xFF, ∅, ∅⟩, ⟨.ready, 0x70, 2, 1, 0xFF, ∅, ∅⟩, ⟨0x36, none, 65536⟩, ⟨0x1C, full⟩⟩

def rowStubs : Stubs :=
  ⟨0x101000, 0x101010, 0x101020, 0x101030, 0x101040, 0x101050, 0x101060, by decide⟩

def rowSystem (full : Bool) : System :=
  started ⟨0, fun _ => ⟨0, 0, 0, 0, 0⟩⟩ rowStubs 0x10 (firmwarePorts full)

/-- A key and a tick come in before the processor looks. -/
theorem keyAndTick_run : Execution Step (rowSystem false) [.key 0x1E, .edge 0 false]
    (next (next (rowSystem false) (.key 0x1E)) (.edge 0 false)) := by
  have hkey : Step (rowSystem false) (.key 0x1E) (next (rowSystem false) (.key 0x1E)) := ⟨rfl, rfl⟩
  have htick : Step (next (rowSystem false) (.key 0x1E)) (.edge 0 false)
      (next (next (rowSystem false) (.key 0x1E)) (.edge 0 false)) :=
    ⟨⟨by decide, by decide, rfl⟩, rfl⟩
  exact (Execution.single hkey).append (Execution.single htick)

/-- Whatever the devices have done, the processor alone gets everything onto the serial port and
into the counter. -/
theorem caught_up (idt : Idt) (stubs : Stubs) (codeSelector : UInt16) (ports : Ports)
    (empty : ports.keyboard.full = false) (tr : List Event) (s : System)
    (run : Execution Step (started idt stubs codeSelector ports) tr s) :
    ∃ tr' t, Execution Step s tr' t ∧ (∀ e ∈ tr', OfProcessor e) ∧ tr'.length ≤ 16 ∧
      t.running = .hang ∧ scancodes t.log = placed tr ∧
      t.gTimerTicks.toNat = kept 0 tr % 2 ^ 32 ∧ tickReports t.log = dueReports (kept 0 tr) := by
  obtain ⟨tr', t, hrun, hall, hlength, hrest⟩ := processor_settles (run_invariant run)
  obtain ⟨running, hzero, hone⟩ := at_rest (run_invariant (run.append hrun)) hrest
  have hbalanced := run_balanced empty (run.append hrun)
  have hfull : t.ports.keyboard.full = false := by
    rw [← Bool.not_eq_true, hbalanced.waiting, running]
    simp [hone]
  have hplaced : placed (tr ++ tr') = placed tr := by
    rw [placed_append, placed_processor hall, List.append_nil]
  have htaken : taken 0x20 (tr ++ tr') = kept 0 tr := by
    have hkept : kept 0 (tr ++ tr') = kept 0 tr + kept 0 tr' := List.count_append
    have hedges := hbalanced.edges
    rw [hkept, kept_processor 0 hall, pending, if_neg hzero] at hedges
    exact hedges.symm
  have hbytes := hbalanced.bytes
  obtain ⟨n, hn, hticks⟩ := hbalanced.ticks
  obtain ⟨m, hm, hreports⟩ := hbalanced.reports
  rw [htaken, running] at hn hm
  rw [hplaced, running, buffered, hfull] at hbytes
  have hle := work_le s
  refine ⟨tr', t, hrun, hall, by omega, running, ?_, ?_, ?_⟩
  · simpa [unread] using hbytes
  · rw [hticks, UInt32.toNat_ofNat', hn]
    rfl
  · rw [hreports, hm]
    rfl

/-! ### A byte from before the set-up -/

def inTimer : Point → Bool
  | .tickLoad | .tickStore _ | .tickReport | .tickEoi | .tickReturn => true
  | _ => false

/-- The byte is in the buffer, and nothing says so. -/
structure Stuck (tr : List Event) (s : System) : Prop where
  full : s.ports.keyboard.full = true
  request : 1 ∉ s.ports.master.requests
  handler : ∀ p, s.running = .handler p → inTimer p = true
  log : scancodes s.log = []
  placed : placed tr = []

section Stuck

variable {idt : Idt} {stubs : Stubs} {codeSelector : UInt16} {s t : System} {e : Event}
  {tr : List Event}

theorem Stuck.advance (h : Stuck tr s) (hinv : Invariant idt stubs codeSelector s) {p : Point}
    (running : s.running = .handler p) : Stuck (tr ++ [.handler]) (advance s p) := by
  have hplaced : InterruptAccounts.placed (tr ++ [.handler]) = [] := by
    rw [placed_append, h.placed]
    rfl
  have htimer := h.handler p running
  have hiret := hinv.iret_eq running
  cases p with
  | tickLoad => exact ⟨h.full, h.request, fun q hq => by cases hq; rfl, h.log, hplaced⟩
  | tickStore value => exact ⟨h.full, h.request, fun q hq => by cases hq; rfl, h.log, hplaced⟩
  | tickReport =>
    refine ⟨h.full, h.request, fun q hq => by cases hq; rfl, ?_, hplaced⟩
    have hlog := h.log
    simp only [InterruptHandling.advance]
    split_ifs
    · rw [scancodes_append, hlog]
      rfl
    · exact hlog
  | tickEoi =>
    have hsetUp := hinv.setUp
    rw [running] at hsetUp
    have heoi := picSendEoi_eq hsetUp.inService 0 (by decide)
    simp only [InterruptHandling.advance, heoi]
    exact ⟨h.full, h.request, fun q hq => by cases hq; rfl, h.log, hplaced⟩
  | tickReturn =>
    rw [InterruptHandling.advance, hiret]
    exact ⟨h.full, h.request, (fun q hq => by cases hq), h.log, hplaced⟩
  | keyLoad => cases htimer
  | keyReport scancode => cases htimer
  | keyEoi => cases htimer
  | keyReturn => cases htimer

theorem Stuck.step (h : Stuck tr s) (hinv : Invariant idt stubs codeSelector s)
    (hs : Step s e t) : Stuck (tr ++ [e]) t := by
  obtain ⟨he, rfl⟩ := hs
  have hplaced (e : Event) : InterruptAccounts.placed (tr ++ [e]) =
      InterruptAccounts.placed [e] := by
    rw [placed_append, h.placed, List.nil_append]
  cases e with
  | edge line lost =>
    refine ⟨h.full, ?_, h.handler, h.log, hplaced _⟩
    have hrequest := h.request
    simp [next, raise, hrequest, Ne.symm he.1]
  | slaveEdge line => exact ⟨h.full, h.request, h.handler, h.log, hplaced _⟩
  | key scancode =>
    have hfull := h.full
    rw [he] at hfull
    cases hfull
  | acknowledge vector =>
    obtain ⟨running, ⟨_, _, hnext⟩ | ⟨_, _, request, _⟩⟩ := hinv.acknowledged he
    · rw [hnext]
      refine ⟨h.full, ?_, fun q hq => by cases hq; rfl, h.log, hplaced _⟩
      have hrequest := h.request
      simp [serve, accept, hrequest]
    · exact absurd request h.request
  | handler =>
    obtain ⟨p, running⟩ := he
    rw [next_handler running]
    exact h.advance hinv running

end Stuck

/-- A byte that came before the controllers were set up is never read, and no later one is
taken: the set-up has dropped its request. -/
theorem keyboard_stuck (idt : Idt) (stubs : Stubs) (codeSelector : UInt16) (ports : Ports)
    (full : ports.keyboard.full = true) (tr : List Event) (s : System)
    (run : Execution Step (started idt stubs codeSelector ports) tr s) :
    s.ports.keyboard.full = true ∧ placed tr = [] ∧ scancodes s.log = [] := by
  have hports : (started idt stubs codeSelector ports).ports = startDevices ports := rfl
  rw [startDevices_eq] at hports
  have hinit : Stuck [] (started idt stubs codeSelector ports) := by
    refine ⟨?_, ?_, (fun q hq => by cases hq), rfl, rfl⟩
    · rw [hports]
      exact full
    · rw [hports]
      simp
  have hboth : Invariant idt stubs codeSelector s ∧ Stuck tr s :=
    run.invariant (I := fun tr s => Invariant idt stubs codeSelector s ∧ Stuck tr s)
      ⟨started_invariant idt stubs codeSelector ports, hinit⟩
      fun _ _ _ _ h hs => ⟨h.1.step hs, h.2.step h.1 hs⟩
  exact ⟨hboth.2.full, hboth.2.placed, hboth.2.log⟩

theorem keyboard_stuck_tick : ∃ s : System, s.ports.keyboard.full = true ∧
    scancodes s.log = [] := by
  have htick : Step (rowSystem true) (.edge 0 false) (next (rowSystem true) (.edge 0 false)) :=
    ⟨⟨by decide, by decide, rfl⟩, rfl⟩
  obtain ⟨hfull, _, hlog⟩ := keyboard_stuck _ _ _ _ rfl _ _ (Execution.single htick)
  exact ⟨_, hfull, hlog⟩

end InterruptAccounts
