import RiscvSoc.Sync.Channel
import RiscvSoc.Rtl.AxiImem

/-!
# The channels of the two AXI masters

Both bridges keep what an AXI master owes on its channels, whatever the core asks and however the
slave answers: an offer stays until it is taken, an answer is awaited only for a transaction under
way, there is one at a time, and each answer makes one ready pulse.  The state decides which wires
are up, and which transaction is under way.
-/

namespace RiscvSoc.Rtl

open Sync

/-! ### `axi_if_dmem_master` -/

namespace AxiDmem

def arCh : Channel AxiDmemIn AxiDmem := ⟨arvalid, AxiDmemIn.arready⟩
def rCh : Channel AxiDmemIn AxiDmem := ⟨rready, AxiDmemIn.rvalid⟩
def awCh : Channel AxiDmemIn AxiDmem := ⟨awvalid, AxiDmemIn.awready⟩
def wCh : Channel AxiDmemIn AxiDmem := ⟨wvalid, AxiDmemIn.wready⟩
def bCh : Channel AxiDmemIn AxiDmem := ⟨bready, AxiDmemIn.bvalid⟩

/-- What goes with ARVALID. -/
def arPayload (r : AxiDmem) : BitVec 4 × BitVec 32 × BitVec 8 × BitVec 3 × BitVec 2 × BitVec 3 :=
  (r.arid, r.araddr, r.arlen, r.arsize, r.arburst, r.arprot)

/-- What goes with AWVALID. -/
def awPayload (r : AxiDmem) : BitVec 4 × BitVec 32 × BitVec 8 × BitVec 3 × BitVec 2 × BitVec 3 :=
  (r.awid, r.awaddr, r.awlen, r.awsize, r.awburst, r.awprot)

/-- What goes with WVALID. -/
def wPayload (r : AxiDmem) : BitVec 32 × BitVec 4 × Bool := (r.wdata, r.wstrb, r.wlast)

/-- **The wires and the beats in a state**: the beats before it on AR, R, AW, W and B. -/
structure Wires (r : AxiDmem) (ar rd aw w b : ℕ) : Prop where
  arvalid : r.arvalid = decide (r.state = .rAr)
  rready : r.rready = decide (r.state = .rR)
  awvalid : r.awvalid = decide (r.state = .wAw)
  wvalid : r.wvalid = decide (r.state = .wW)
  bready : r.bready = decide (r.state = .wB)
  reads : ar = rd + (decide (r.state = .rR)).toNat
  addrs : aw = b + (decide (r.state = .wW ∨ r.state = .wB)).toNat
  writes : w = b + (decide (r.state = .wB)).toNat

variable {r : AxiDmem} {i : AxiDmemIn} {ar rd aw w b : ℕ}

/-! ### One cycle -/

/-- **One cycle of the wires and the beats.** -/
lemma Wires.step (h : Wires r ar rd aw w b) (i : AxiDmemIn) :
    Wires (r.step i) (ar + (r.arvalid && i.arready).toNat) (rd + (r.rready && i.rvalid).toNat)
      (aw + (r.awvalid && i.awready).toNat) (w + (r.wvalid && i.wready).toNat)
      (b + (r.bready && i.bvalid).toNat) := by
  obtain ⟨har, hrr, haw, hw, hb, hreads, haddrs, hwrites⟩ := h
  cases hs : r.state with
  | idle =>
    rw [step_of_idle hs]
    unfold stepIdle
    split_ifs <;> constructor <;> simp [har, hrr, haw, hw, hb, hreads, haddrs, hwrites, hs]
  | rAr =>
    rw [hs] at har
    cases hr : i.arready
    · rw [step_of_offer (.inl ⟨hs, hr⟩)]
      constructor <;> simp [har, hrr, haw, hw, hb, hreads, haddrs, hwrites, hs]
    · rw [step_of_arready hs har hr]
      constructor <;> simp [har, hrr, haw, hw, hb, hreads, haddrs, hwrites, hs]
  | rR =>
    rw [hs] at hrr
    cases hr : i.rvalid
    · rw [step_of_no_rvalid hs hr]
      constructor <;> simp [har, hrr, haw, hw, hb, hreads, haddrs, hwrites, hs]
    · rw [step_of_rvalid hs hrr hr]
      constructor <;> simp [har, hrr, haw, hw, hb, hreads, haddrs, hwrites, hs]
  | wAw =>
    rw [hs] at haw
    cases hr : i.awready
    · rw [step_of_offer (.inr (.inl ⟨hs, hr⟩))]
      constructor <;> simp [har, hrr, haw, hw, hb, hreads, haddrs, hwrites, hs]
    · rw [step_of_awready hs haw hr]
      constructor <;> simp [har, hrr, haw, hw, hb, hreads, haddrs, hwrites, hs]
  | wW =>
    rw [hs] at hw
    cases hr : i.wready
    · rw [step_of_offer (.inr (.inr ⟨hs, hr⟩))]
      constructor <;> simp [har, hrr, haw, hw, hb, hreads, haddrs, hwrites, hs]
    · rw [step_of_wready hs hw hr]
      constructor <;> simp [har, hrr, haw, hw, hb, hreads, haddrs, hwrites, hs]
  | wB =>
    rw [hs] at hb
    cases hr : i.bvalid
    · rw [step_of_no_bvalid hs hr]
      constructor <;> simp [har, hrr, haw, hw, hb, hreads, haddrs, hwrites, hs]
    · rw [step_of_bvalid hs hb hr]
      constructor <;> simp [har, hrr, haw, hw, hb, hreads, haddrs, hwrites, hs]

/-- The pulse after an edge is the answer taken at it. -/
lemma Wires.pulse (h : Wires r ar rd aw w b) (i : AxiDmemIn) :
    (r.step i).dmemReady = ((r.rready && i.rvalid) || (r.bready && i.bvalid)) := by
  obtain ⟨har, hrr, haw, hw, hb, -, -, -⟩ := h
  cases hs : r.state with
  | idle =>
    rw [step_of_idle hs]
    unfold stepIdle
    split_ifs <;> simp [hrr, hb, hs]
  | rAr =>
    rw [hs] at har
    cases hr : i.arready
    · simp [step_of_offer (.inl ⟨hs, hr⟩), hrr, hb, hs]
    · simp [step_of_arready hs har hr, hrr, hb, hs]
  | rR =>
    rw [hs] at hrr
    cases hr : i.rvalid
    · simp [step_of_no_rvalid hs hr, hb, hs]
    · simp [step_of_rvalid hs hrr hr, hrr]
  | wAw =>
    rw [hs] at haw
    cases hr : i.awready
    · simp [step_of_offer (.inr (.inl ⟨hs, hr⟩)), hrr, hb, hs]
    · simp [step_of_awready hs haw hr, hrr, hb, hs]
  | wW =>
    rw [hs] at hw
    cases hr : i.wready
    · simp [step_of_offer (.inr (.inr ⟨hs, hr⟩)), hrr, hb, hs]
    · simp [step_of_wready hs hw hr, hrr, hb, hs]
  | wB =>
    rw [hs] at hb
    cases hr : i.bvalid
    · simp [step_of_no_bvalid hs hr, hrr, hs]
    · simp [step_of_bvalid hs hb hr, hb]

/-- The data of an R beat. -/
lemma Wires.rdata (h : Wires r ar rd aw w b) (hr : (r.rready && i.rvalid) = true) :
    (r.step i).dmemRdata = i.rdata := by
  rw [Bool.and_eq_true] at hr
  have hs : r.state = .rR := by simpa [h.rready] using hr.1
  rw [step_of_rvalid hs hr.1 hr.2]

/-! ### Runs -/

section Run

variable (ins : ℕ → AxiDmemIn)

/-- **The transactions of the data bridge** in cycle `n`, by the beats before it: an answer is
awaited only after the address, or the data, of the transaction under way; there is at most one;
and a ready pulse is the one answer of the cycle before. -/
structure Transactions (n : ℕ) : Prop where
  rready : (machine.run ins n).rready = true →
    arCh.beats machine ins n = rCh.beats machine ins n + 1
  bready : (machine.run ins n).bready = true →
    wCh.beats machine ins n = bCh.beats machine ins n + 1
  reads : arCh.beats machine ins n = rCh.beats machine ins n ∨
    arCh.beats machine ins n = rCh.beats machine ins n + 1
  writes : awCh.beats machine ins n = bCh.beats machine ins n ∨
    awCh.beats machine ins n = bCh.beats machine ins n + 1
  single : ¬ (arCh.beats machine ins n = rCh.beats machine ins n + 1 ∧
    awCh.beats machine ins n = bCh.beats machine ins n + 1)
  pulse : (machine.run ins (n + 1)).dmemReady = true ↔
    (rCh.fires machine ins n = true ∧ bCh.fires machine ins n = false) ∨
      (rCh.fires machine ins n = false ∧ bCh.fires machine ins n = true)
  rdata : rCh.fires machine ins n = true → (machine.run ins (n + 1)).dmemRdata = (ins n).rdata

/-- **What the data bridge owes on its channels.** -/
structure Promises : Prop where
  ar : arCh.Kept arPayload machine ins
  aw : awCh.Kept awPayload machine ins
  w : wCh.Kept wPayload machine ins
  start : (machine.run ins 0).dmemReady = false
  transactions : ∀ n, Transactions ins n

/-- The wires and the beats along a run. -/
lemma wires_run (n : ℕ) : Wires (machine.run ins n) (arCh.beats machine ins n)
    (rCh.beats machine ins n) (awCh.beats machine ins n) (wCh.beats machine ins n)
    (bCh.beats machine ins n) := by
  induction n with
  | zero => constructor <;> rfl
  | succ n ih =>
    simp only [Channel.beats_succ]
    exact ih.step (ins n)

lemma transactions_run (n : ℕ) : Transactions ins n := by
  have h := wires_run ins n
  have hreads := h.reads
  have haddrs := h.addrs
  have hwrites := h.writes
  refine ⟨?_, ?_, ?_, ?_, ?_, ?_, h.rdata⟩
  · intro hr
    rw [h.rready] at hr
    rw [hr] at hreads
    exact hreads
  · intro hb
    rw [h.bready] at hb
    rw [hb] at hwrites
    exact hwrites
  · cases hd : decide ((machine.run ins n).state = .rR) <;> rw [hd] at hreads
    · exact .inl hreads
    · exact .inr hreads
  · cases hd : decide ((machine.run ins n).state = .wW ∨ (machine.run ins n).state = .wB) <;>
      rw [hd] at haddrs
    · exact .inl haddrs
    · exact .inr haddrs
  · rintro ⟨hr, hw⟩
    cases hs : (machine.run ins n).state <;> simp [hs] at hreads haddrs <;> omega
  · have hp : (machine.run ins (n + 1)).dmemReady =
        (rCh.fires machine ins n || bCh.fires machine ins n) := h.pulse (ins n)
    have hex : rCh.fires machine ins n = true → bCh.fires machine ins n = true → False := by
      intro hr hb
      have hr' : ((machine.run ins n).rready && (ins n).rvalid) = true := hr
      have hb' : ((machine.run ins n).bready && (ins n).bvalid) = true := hb
      rw [h.rready] at hr'
      rw [h.bready] at hb'
      simp only [Bool.and_eq_true, decide_eq_true_eq] at hr' hb'
      rw [hr'.1] at hb'
      cases hb'.1
    rw [hp]
    cases hr : rCh.fires machine ins n <;> cases hb : bCh.fires machine ins n <;> simp
    exact hex hr hb

/-- An offer that is not taken is there in the next cycle. -/
lemma run_of_offer {n : ℕ}
    (h : ((machine.run ins n).state = .rAr ∧ (ins n).arready = false) ∨
      ((machine.run ins n).state = .wAw ∧ (ins n).awready = false) ∨
      ((machine.run ins n).state = .wW ∧ (ins n).wready = false)) :
    machine.run ins (n + 1) = { machine.run ins n with dmemReady := false } :=
  step_of_offer h

/-- **The data bridge keeps its channel promises**, whatever the core asks and the slave answers. -/
theorem promises (ins : ℕ → AxiDmemIn) : Promises ins := by
  refine ⟨?_, ?_, ?_, rfl, transactions_run ins⟩
  · refine Channel.kept_of_step ?_
    intro n hv hr
    have hs : (machine.run ins n).state = .rAr := by
      simpa [(wires_run ins n).arvalid, arCh] using hv
    rw [run_of_offer ins (.inl ⟨hs, hr⟩)]
    exact ⟨hv, rfl⟩
  · refine Channel.kept_of_step ?_
    intro n hv hr
    have hs : (machine.run ins n).state = .wAw := by
      simpa [(wires_run ins n).awvalid, awCh] using hv
    rw [run_of_offer ins (.inr (.inl ⟨hs, hr⟩))]
    exact ⟨hv, rfl⟩
  · refine Channel.kept_of_step ?_
    intro n hv hr
    have hs : (machine.run ins n).state = .wW := by
      simpa [(wires_run ins n).wvalid, wCh] using hv
    rw [run_of_offer ins (.inr (.inr ⟨hs, hr⟩))]
    exact ⟨hv, rfl⟩

end Run

end AxiDmem

/-! ### `axi_if_imem_master` -/

namespace AxiImem

def arCh : Channel AxiImemIn AxiImem := ⟨arvalid, AxiImemIn.arready⟩
def rCh : Channel AxiImemIn AxiImem := ⟨rready, AxiImemIn.rvalid⟩

/-- What goes with ARVALID. -/
def arPayload (b : AxiImem) : BitVec 4 × BitVec 32 × BitVec 8 × BitVec 3 × BitVec 2 × BitVec 3 :=
  (b.arid, b.araddr, b.arlen, b.arsize, b.arburst, b.arprot)

/-- **The wires and the beats in a state**: the beats before it on AR and R. -/
structure Wires (b : AxiImem) (ar rd : ℕ) : Prop where
  arvalid : b.arvalid = decide (b.state = .ar)
  rready : b.rready = decide (b.state = .r)
  reads : ar = rd + (decide (b.state = .r)).toNat

variable {b : AxiImem} {i : AxiImemIn} {ar rd : ℕ}

/-- **One cycle of the wires and the beats.** -/
lemma Wires.step (h : Wires b ar rd) (i : AxiImemIn) :
    Wires (b.step i) (ar + (b.arvalid && i.arready).toNat) (rd + (b.rready && i.rvalid).toNat) := by
  obtain ⟨har, hrr, hreads⟩ := h
  cases hs : b.state with
  | idle =>
    cases hq : i.memReq
    · rw [step_of_no_req hs hq]
      constructor <;> simp [har, hrr, hreads, hs]
    · rw [step_of_req hs hq]
      constructor <;> simp [har, hrr, hreads, hs]
  | ar =>
    rw [hs] at har
    cases hr : i.arready
    · rw [step_of_no_arready hs hr]
      constructor <;> simp [har, hrr, hreads, hs]
    · rw [step_of_arready hs har hr]
      constructor <;> simp [har, hrr, hreads, hs]
  | r =>
    rw [hs] at hrr
    cases hr : i.rvalid
    · rw [step_of_no_rvalid hs hr]
      constructor <;> simp [har, hrr, hreads, hs]
    · rw [step_of_rvalid hs hrr hr]
      constructor <;> simp [har, hrr, hreads, hs]

/-- The pulse after an edge is the answer taken at it. -/
lemma Wires.pulse (h : Wires b ar rd) (i : AxiImemIn) :
    (b.step i).memReady = (b.rready && i.rvalid) := by
  obtain ⟨har, hrr, -⟩ := h
  cases hs : b.state with
  | idle =>
    cases hq : i.memReq
    · simp [step_of_no_req hs hq, hrr, hs]
    · simp [step_of_req hs hq, hrr, hs]
  | ar =>
    rw [hs] at har
    cases hr : i.arready
    · simp [step_of_no_arready hs hr, hrr, hs]
    · simp [step_of_arready hs har hr, hrr, hs]
  | r =>
    rw [hs] at hrr
    cases hr : i.rvalid
    · simp [step_of_no_rvalid hs hr]
    · simp [step_of_rvalid hs hrr hr, hrr]

/-- The data of an R beat. -/
lemma Wires.rdata (h : Wires b ar rd) (hr : (b.rready && i.rvalid) = true) :
    (b.step i).memRdata = i.rdata := by
  rw [Bool.and_eq_true] at hr
  have hs : b.state = .r := by simpa [h.rready] using hr.1
  rw [step_of_rvalid hs hr.1 hr.2]

section Run

variable (ins : ℕ → AxiImemIn)

/-- **The reads of the instruction bridge** in cycle `n`, by the beats before it. -/
structure Transactions (n : ℕ) : Prop where
  rready : (machine.run ins n).rready = true →
    arCh.beats machine ins n = rCh.beats machine ins n + 1
  reads : arCh.beats machine ins n = rCh.beats machine ins n ∨
    arCh.beats machine ins n = rCh.beats machine ins n + 1
  pulse : (machine.run ins (n + 1)).memReady = true ↔ rCh.fires machine ins n = true
  rdata : rCh.fires machine ins n = true → (machine.run ins (n + 1)).memRdata = (ins n).rdata

/-- **What the instruction bridge owes on its channels.** -/
structure Promises : Prop where
  ar : arCh.Kept arPayload machine ins
  start : (machine.run ins 0).memReady = false
  transactions : ∀ n, Transactions ins n

/-- The wires and the beats along a run. -/
lemma wires_run (n : ℕ) :
    Wires (machine.run ins n) (arCh.beats machine ins n) (rCh.beats machine ins n) := by
  induction n with
  | zero => constructor <;> rfl
  | succ n ih =>
    simp only [Channel.beats_succ]
    exact ih.step (ins n)

lemma transactions_run (n : ℕ) : Transactions ins n := by
  have h := wires_run ins n
  have hreads := h.reads
  refine ⟨?_, ?_, ?_, h.rdata⟩
  · intro hr
    rw [h.rready] at hr
    rw [hr] at hreads
    exact hreads
  · cases hd : decide ((machine.run ins n).state = .r) <;> rw [hd] at hreads
    · exact .inl hreads
    · exact .inr hreads
  · have hp : (machine.run ins (n + 1)).memReady = rCh.fires machine ins n := h.pulse (ins n)
    rw [hp]

/-- **The instruction bridge keeps its channel promises.** -/
theorem promises (ins : ℕ → AxiImemIn) : Promises ins := by
  refine ⟨Channel.kept_of_step ?_, rfl, transactions_run ins⟩
  intro n hv hr
  have hs : (machine.run ins n).state = .ar := by
    simpa [(wires_run ins n).arvalid, arCh] using hv
  have hstep : machine.run ins (n + 1) = { machine.run ins n with memReady := false } :=
    step_of_no_arready hs hr
  rw [hstep]
  exact ⟨hv, rfl⟩

end Run

end AxiImem

/-- **Both AXI masters keep their channel promises**, whatever is asked of them and however the
slaves answer. -/
theorem axi_masters_keep_promises (dins : ℕ → AxiDmemIn) (iins : ℕ → AxiImemIn) :
    AxiDmem.Promises dins ∧ AxiImem.Promises iins :=
  ⟨AxiDmem.promises dins, AxiImem.promises iins⟩

end RiscvSoc.Rtl
