import RiscvSoc.Pipeline.NopRun

/-!
# What the pipeline waits for

A core that no pin disturbs makes progress when an instruction leaves EX, redirects the fetch or
jumps.  Here is what the locks do in a cycle, and how the cycles that the back of the pipeline and
the load lock still take bound those until the next instruction takes effect.
-/

namespace RiscvSoc.Rtl

/-- The pins stop nothing: there is no stall and no flush, and the instruction memory is ready. -/
structure CoreIn.Undisturbed (i : CoreIn) : Prop where
  stall : i.stall = false
  flush : i.flush = false
  imemReady : i.imemReady = true

namespace Core

variable {M : BitVec 32 → BitVec 32} {s : Core} {i : CoreIn}

/-- **An instruction takes effect**: the one in EX leaves it or redirects the fetch, or a JAL
jumps. -/
def executes (s : Core) (i : CoreIn) : Bool :=
  (s.idEx.exInstrValid && (!s.stallBack i || s.branchHazardEx i)) || s.jumpIf

/-! ### The locks -/

/-- The load lock takes the answer of the memory. -/
def answered (s : Core) (i : CoreIn) : Bool :=
  i.dmemReady && (!s.registerEx.firstCycleInBusy ||
    (s.exMem.memReadEn && !s.registerEx.dmemReadyD1))

/-- The load lock skips the answer: it is the second in a row, and the first that the lock sees. -/
def skips (s : Core) (i : CoreIn) : Bool :=
  i.dmemReady && s.exMem.memReadEn && s.registerEx.firstCycleInBusy && s.registerEx.dmemReadyD1

section Locks

variable (hf : i.flush = false) (hbr : s.branchHazardEx i = false)
include hf hbr

/-- A held ID/EX stays when nothing redirects: the other flushes wait. -/
lemma idEx_step_of_stall (hs : s.stallBack i = true) : (s.step i).idEx = s.idEx := by
  have hflush : s.flushIdex i = false := by
    have hx : s.flushIdex i = (i.flush || s.branchHazardEx i ||
      (s.loadUseHazard i && !s.stallBack i) || (s.jumpIf && !s.stallBack i)) := rfl
    rw [hx, hf, hbr, hs]
    simp
  simp [step, IdExReg.step, hflush, hs]

/-- The load lock is busy again when no answer is taken. -/
lemma busy_step_iff (hl : s.idEx.exIsLoad = false) :
    (s.step i).registerEx.lstate = .busy ↔
      s.registerEx.lstate = .busy ∧ s.answered i = false := by
  obtain ⟨hflush, hload, -, hready, hsucc, -, -⟩ := wires (s := s) hf
  rw [hbr] at hflush
  have hstep : (s.step i).registerEx.lstate = s.registerEx.lstateStep (s.registerExIn i) := rfl
  rw [hstep]
  unfold RegisterEx.lstateStep answered
  rw [hflush, hload, hl]
  cases hst : s.registerEx.lstate
  · simp
  · simp only [RegisterEx.staleReady, RegisterEx.lateReady, hready, hsucc]
    cases i.dmemReady <;> cases s.exMem.memReadEn <;>
      cases s.registerEx.firstCycleInBusy <;> cases s.registerEx.dmemReadyD1 <;> simp
  · simp

/-- A busy lock that skips an answer is past its first cycle. -/
lemma firstCycle_step (hb : s.registerEx.lstate = .busy) :
    (s.step i).registerEx.firstCycleInBusy =
      (s.registerEx.firstCycleInBusy && !s.skips i) := by
  obtain ⟨hflush, -, -, -, hsucc, -, -⟩ := wires (s := s) hf
  rw [hbr] at hflush
  have hstep : (s.step i).registerEx.firstCycleInBusy =
    s.registerEx.firstCycleStep (s.registerExIn i) := rfl
  rw [hstep]
  unfold RegisterEx.firstCycleStep skips
  rw [hflush, hb]
  simp only [RegisterEx.staleReady, hsucc]
  cases i.dmemReady <;> cases s.exMem.memReadEn <;>
    cases s.registerEx.firstCycleInBusy <;> cases s.registerEx.dmemReadyD1 <;> simp

/-- The store lock is kept without an answer, or taken by a store in EX. -/
lemma slock_step : (s.step i).registerEx.slock = ((s.registerEx.slock && !i.dmemReady) ||
    (s.registerEx.lstate != .busy && s.idEx.exIsStore && !s.registerEx.slock)) := by
  obtain ⟨hflush, -, hstore, hready, -⟩ := wires (s := s) hf
  rw [hbr] at hflush
  have hstep : (s.step i).registerEx.slock = s.registerEx.slockNext (s.registerExIn i) := rfl
  rw [hstep]
  unfold RegisterEx.slockNext
  rw [hflush, hstore, hready]
  cases s.registerEx.slock <;> cases i.dmemReady <;>
    cases s.registerEx.lstate != .busy <;> cases s.idEx.exIsStore <;> rfl

lemma skip_step : (s.step i).registerEx.loadSkipStale =
    (s.registerEx.lstate == .busy && s.skips i) := by
  obtain ⟨hflush, -, -, -, hsucc, -, -⟩ := wires (s := s) hf
  rw [hbr] at hflush
  have hstep : (s.step i).registerEx.loadSkipStale = (!(s.registerExIn i).flush &&
    s.registerEx.lstate == .busy && s.registerEx.staleReady (s.registerExIn i)) := rfl
  rw [hstep, hflush, RegisterEx.staleReady, hsucc]
  rfl

end Locks

/-! ### The front -/

section Front

variable (hq : i.Undisturbed) (hbr : s.branchHazardEx i = false) (hj : s.jumpIf = false)
include hq hbr hj

/-- Without a redirect, IF/ID takes a word unless the back or a load holds it. -/
lemma ifId_valid_step : (s.step i).ifId.instrValidOut =
    (s.ifId.instrValidOut || !(s.stallBack i || s.loadUseHazard i)) := by
  have hflush : s.flushIfid i = false := by
    have hx : s.flushIfid i = (i.flush || s.branchHazardEx i || s.jumpIf) := rfl
    rw [hx, hq.flush, hbr, hj]
    rfl
  have hfront : s.stallFront i = (s.stallBack i || s.loadUseHazard i) := by
    rw [stallFront_eq, hq.imemReady]
    simp
  have hstep : (s.step i).ifId = s.ifId.step (s.stallFront i) (s.flushIfid i) (s.fetched i) := rfl
  rw [hstep, hflush, IfIdReg.step, ← hfront]
  cases hs : s.stallFront i
  · rw [fetched_of_go hs hflush]
    simp
  · simp

/-- Without a redirect, a held ID/EX stays, and one that is let go takes what is in IF/ID, or a
bubble for a load. -/
lemma idEx_step : (s.step i).idEx = if s.stallBack i then s.idEx
    else if s.loadUseHazard i then IdExReg.bubble else IdExReg.ofId s.ifId s.id := by
  have hflush : s.flushIdex i = (s.loadUseHazard i && !s.stallBack i) := by
    have hx : s.flushIdex i = (i.flush || s.branchHazardEx i ||
      (s.loadUseHazard i && !s.stallBack i) || (s.jumpIf && !s.stallBack i)) := rfl
    rw [hx, hq.flush, hbr, hj]
    simp
  have hstep : (s.step i).idEx =
    s.idEx.step (s.stallBack i) (s.flushIdex i) (IdExReg.ofId s.ifId s.id) := rfl
  rw [hstep, hflush, IdExReg.step]
  cases s.stallBack i <;> cases s.loadUseHazard i <;> rfl

end Front

/-- A bubble in EX. -/
lemma bubble_of_invalid (h : FrontOk M s) (hx : s.idEx.exInstrValid = false) :
    s.idEx.exIsLoad = false ∧ s.idEx.exIsStore = false ∧ s.branchHazardEx i = false := by
  refine ⟨?_, ?_, ?_⟩
  · by_contra hl
    simp [h.valid_of (.inr (.inl (by simpa using hl)))] at hx
  · by_contra hs
    simp [h.valid_of (.inr (.inr (by simpa using hs)))] at hx
  · simp [branchHazardEx, HazardIn.branchHazardEx, hazard, ExIn.branchTaken, ExIn.jalr,
      ExIn.instrValidFinal, exIn, hx]

/-- A load that IF/ID waits for has the lock, when it is not in EX. -/
lemma busy_of_loadUse (h : FrontOk M s) (hl : s.idEx.exIsLoad = false)
    (hlu : s.loadUseHazard i = true) :
    s.ifId.instrValidOut = true ∧ s.registerEx.lstate = .busy := by
  constructor
  · by_contra hv
    rcases h.ifId with hb | ⟨pc, hp⟩
    · have hid : s.id = idStage nop := by rw [id, hb]; rfl
      obtain ⟨-, -, -, -, -, -, hrs1, huse2, -⟩ := SocBram.idStage_nop
      simp only [loadUseHazard, HazardIn.loadUseHazard, hazard, hid, hrs1, huse2, Bool.false_and,
        Bool.or_false, Bool.and_eq_true, bne_iff_ne, beq_iff_eq] at hlu
      exact hlu.1.2 hlu.2.2.symm
    · simp [hp, fetchedAt] at hv
  · have hp : s.registerEx.loadPendingOut s.idEx.exIsLoad = true := by
      simp only [loadUseHazard, HazardIn.loadUseHazard, hazard, Bool.and_eq_true] at hlu
      exact hlu.1.1
    simpa [RegisterEx.loadPendingOut, hl] using hp

/-! ### The measure -/

/-- **The cycles until an instruction takes effect**, at most, when the back of the pipeline is held
for `back` of them and the load lock is busy for `load`. -/
def wait (s : Core) (back load : ℕ) : ℕ :=
  if s.idEx.exInstrValid then back
  else if s.ifId.instrValidOut then max back load + 1
  else max (back + 2) (load + 1)

/-- **A cycle in which no instruction takes effect lowers the measure**, when a held back and a busy
load lock count down, and a back that is let go is held again by the load lock only. -/
theorem wait_step {back load back' load' : ℕ} (h : FrontOk M s) (hq : i.Undisturbed)
    (hx : s.executes i = false)
    (hback : s.stallBack i = true → s.branchHazardEx i = false →
      (s.step i).idEx = s.idEx → back' + 1 ≤ back)
    (hload : s.idEx.exInstrValid = false → load' ≤ load - 1)
    (hgo : s.idEx.exInstrValid = false → s.stallBack i = false → back' ≤ load')
    (hbusy : s.registerEx.lstate = .busy → 1 ≤ load) :
    (s.step i).wait back' load' + 1 ≤ s.wait back load := by
  unfold executes at hx
  obtain ⟨hx, hj⟩ := Bool.or_eq_false_iff.mp hx
  cases hv : s.idEx.exInstrValid
  · obtain ⟨hl, -, hbr⟩ := bubble_of_invalid (i := i) h hv
    have hifId := ifId_valid_step hq hbr hj
    have hidEx := idEx_step hq hbr hj
    specialize hload hv
    unfold wait
    rw [hv, hifId, hidEx]
    cases hs : s.stallBack i
    · specialize hgo hv hs
      cases hlu : s.loadUseHazard i
      · -- What is in IF/ID comes into EX, and a bubble there makes room for a word.
        have hvalid : (IdExReg.ofId s.ifId s.id).exInstrValid = s.ifId.instrValidOut := rfl
        simp only [Bool.false_eq_true, if_false, hvalid]
        cases s.ifId.instrValidOut <;> simp <;> omega
      · -- The load-use hazard puts a bubble in between.
        obtain ⟨hfull, hb⟩ := busy_of_loadUse h hl hlu
        have hbub : IdExReg.bubble.exInstrValid = false := rfl
        specialize hbusy hb
        simp [hfull, hbub]
        omega
    · specialize hback hs hbr (idEx_step_of_stall hq.flush hbr hs)
      simp only [if_true, hv]
      cases s.ifId.instrValidOut <;> simp <;> omega
  · -- The instruction in EX stays there.
    rw [hv, Bool.true_and] at hx
    obtain ⟨hs, hbr⟩ := Bool.or_eq_false_iff.mp hx
    have hkeep := idEx_step_of_stall hq.flush hbr (by simpa using hs)
    specialize hback (by simpa using hs) hbr hkeep
    unfold wait
    rw [hkeep, hv]
    simpa using hback

/-! ### A store that is held -/

/-- A store in EX is held. -/
structure HoldsStore (s : Core) (i : CoreIn) : Prop where
  front : FrontShape s
  store : s.idEx.exIsStore = true
  stall : s.stallBack i = true
  flush : i.flush = false

namespace HoldsStore

/-- Only a JAL in ID still takes effect. -/
lemma executes_eq (h : s.HoldsStore i) : s.executes i = s.jumpIf := by
  unfold executes
  rw [h.stall, h.front.branchHazardEx_of_access (.inr h.store)]
  simp

lemma idEx_step (h : s.HoldsStore i) : (s.step i).idEx = s.idEx :=
  idEx_step_of_stall h.flush (h.front.branchHazardEx_of_access (.inr h.store) i) h.stall

/-- The JAL leaves a bubble behind, and no word comes into IF/ID any more. -/
lemma ifId_step (h : s.HoldsStore i) (hj : s.jumpIf = true ∨ s.ifId.instrValidOut = false) :
    (s.step i).ifId.instrValidOut = false := by
  have hfront : s.stallFront i = true := by
    rw [stallFront_eq, h.stall]
    rfl
  have hstep : (s.step i).ifId = s.ifId.step (s.stallFront i) (s.flushIfid i) (s.fetched i) := rfl
  rw [hstep, hfront, IfIdReg.step]
  cases hf : s.flushIfid i
  · have hx : s.flushIfid i = (i.flush || s.branchHazardEx i || s.jumpIf) := rfl
    rw [hx] at hf
    rcases hj with hj | hv
    · simp [hj] at hf
    · exact hv
  · rfl

end HoldsStore

/-- **From cycle `k` on a store stays in EX**: it is held in every cycle, and at most one more
instruction takes effect, a JAL in ID. -/
structure RestsFrom (c : ℕ → Core) (i : ℕ → CoreIn) (k : ℕ) : Prop where
  store : (c k).idEx.exIsStore = true
  stays : ∀ n ≥ k, (c n).idEx = (c k).idEx
  held : ∀ n ≥ k, (c n).stallBack (i n) = true
  jump : ∀ n ≥ k, (c n).executes (i n) = true → (c n).jumpIf = true
  once : ∀ m ≥ k, ∀ n ≥ k, (c m).executes (i m) = true → (c n).executes (i n) = true → m = n

section Runs

variable {c : ℕ → Core} {i : ℕ → CoreIn} {k : ℕ}

/-- In the end nothing takes effect any more. -/
lemma RestsFrom.rests (h : RestsFrom c i k) : ∃ m, ∀ n ≥ m, (c n).executes (i n) = false := by
  by_cases hx : ∃ j ≥ k, (c j).executes (i j) = true
  · obtain ⟨j, hj, hx⟩ := hx
    refine ⟨j + 1, fun n hn => ?_⟩
    by_contra hx'
    have := h.once j hj n (by omega) hx (by simpa using hx')
    omega
  · refine ⟨k, fun n hn => ?_⟩
    by_contra hx'
    exact hx ⟨n, hn, by simpa using hx'⟩

lemma RestsFrom.mono (h : RestsFrom c i k) {m : ℕ} (hm : k ≤ m) : RestsFrom c i m where
  store := by rw [h.stays m hm, h.store]
  stays n hn := by rw [h.stays n (by omega), h.stays m hm]
  held n hn := h.held n (by omega)
  jump n hn := h.jump n (by omega)
  once m' hm' n hn := h.once m' (by omega) n (by omega)

/-- **A store that is held for ever** lets at most one more instruction take effect. -/
theorem restsFrom_of_holdsStore (hstep : ∀ n, c (n + 1) = (c n).step (i n))
    (h : ∀ n ≥ k, (c n).HoldsStore (i n)) : RestsFrom c i k := by
  -- Behind a JAL that jumps, IF/ID stays empty.
  have hempty : ∀ m ≥ k, (c m).jumpIf = true → ∀ n ≥ m + 1,
      (c n).ifId.instrValidOut = false := by
    intro m hm hj n hn
    induction n, hn using Nat.le_induction with
    | base =>
      rw [hstep]
      exact (h m hm).ifId_step (.inl hj)
    | succ n hn ih =>
      rw [hstep]
      exact (h n (by omega)).ifId_step (.inr ih)
  have hlast : ∀ m ≥ k, ∀ n ≥ k, (c m).executes (i m) = true → (c n).executes (i n) = true →
      n ≤ m := by
    intro m hm n hn hx hx'
    rw [(h m hm).executes_eq] at hx
    rw [(h n hn).executes_eq] at hx'
    by_contra hlt
    simp [jumpIf, hempty m hm hx n (by omega)] at hx'
  refine ⟨(h k le_rfl).store, fun n hn => ?_, fun n hn => (h n hn).stall, fun n hn hx => ?_,
    fun m hm n hn hx hx' => Nat.le_antisymm (hlast n hn m hm hx' hx) (hlast m hm n hn hx hx')⟩
  · induction n, hn using Nat.le_induction with
    | base => rfl
    | succ n hn ih => rw [hstep, (h n hn).idEx_step, ih]
  · rw [← (h n hn).executes_eq, hx]

end Runs

end Core

end RiscvSoc.Rtl
