import Mathlib.Tactic.Common
import Mathlib.Logic.Function.Basic

/-!
# `reg_file_bram`

One physical write port under a three-way arbiter with a one-entry buffer, and two synchronous
read ports, each patched by a bypass of the last write.
-/

namespace RiscvSoc.Rtl

/-- The registers of `reg_file_bram`. -/
structure RegFileBram where
  weBuf : Bool
  waddrBuf : BitVec 5
  wdataBuf : BitVec 32
  regs : BitVec 5 → BitVec 32
  rdata1Raw : BitVec 32
  rdata2Raw : BitVec 32
  bypassValid : Bool
  bypassAddr : BitVec 5
  bypassData : BitVec 32
  raddr1Q : BitVec 5
  raddr2Q : BitVec 5

/-- The inputs of `reg_file_bram`. -/
structure RegFileIn where
  we : Bool
  waddr : BitVec 5
  wdata : BitVec 32
  we2 : Bool
  waddr2 : BitVec 5
  wdata2 : BitVec 32
  raddr1 : BitVec 5
  raddr2 : BitVec 5

namespace RegFileBram

/-- The array as its `initial` block leaves it; the module has no reset, and a clock edge under
the reset of the core, which drives every port with zeros, clears the other registers. -/
def init : RegFileBram where
  weBuf := false
  waddrBuf := 0#5
  wdataBuf := 0#32
  regs := fun _ => 0#32
  rdata1Raw := 0#32
  rdata2Raw := 0#32
  bypassValid := false
  bypassAddr := 0#5
  bypassData := 0#32
  raddr1Q := 0#5
  raddr2Q := 0#5

variable (f : RegFileBram) (i : RegFileIn)

/-! ### The write arbiter: port 2, the buffer, port 1 -/

def weEff : Bool := if i.we2 then true else if f.weBuf then true else i.we
def waddrEff : BitVec 5 := if i.we2 then i.waddr2 else if f.weBuf then f.waddrBuf else i.waddr
def wdataEff : BitVec 32 := if i.we2 then i.wdata2 else if f.weBuf then f.wdataBuf else i.wdata
def weFinal : Bool := f.weEff i && f.waddrEff i != 0#5

/-- Port 1 is preempted by port 2 and goes to the buffer. -/
def preempted : Bool := i.we2 && i.we && i.waddr != 0#5 && i.waddr != i.waddr2

/-- The array after a clock edge. -/
def regsStep : BitVec 5 → BitVec 32 :=
  if f.weFinal i then Function.update f.regs (f.waddrEff i) (f.wdataEff i) else f.regs

/-- `reg_file_bram` after a clock edge; the raw reads see the array before it. -/
def step : RegFileBram where
  weBuf := preempted i
  waddrBuf := if preempted i then i.waddr else 0#5
  wdataBuf := if preempted i then i.wdata else 0#32
  regs := f.regsStep i
  rdata1Raw := f.regs i.raddr1
  rdata2Raw := f.regs i.raddr2
  bypassValid := f.weFinal i
  bypassAddr := f.waddrEff i
  bypassData := f.wdataEff i
  raddr1Q := i.raddr1
  raddr2Q := i.raddr2

/-! ### The read ports -/

/-- A read port: `x0` is zero, a hit of the last write bypasses the raw read. -/
def rdata (raddrQ : BitVec 5) (raw : BitVec 32) : BitVec 32 :=
  if raddrQ == 0#5 then 0#32
  else if f.bypassValid && f.bypassAddr == raddrQ then f.bypassData
  else raw

def rdata1 : BitVec 32 := f.rdata f.raddr1Q f.rdata1Raw
def rdata2 : BitVec 32 := f.rdata f.raddr2Q f.rdata2Raw

/-! ### The read ports are write-first -/

/-- The ports show the array as it is now, and `x0` is zero in it. -/
structure Fresh (f : RegFileBram) : Prop where
  zero : f.regs 0#5 = 0#32
  port1 : f.rdata1 = f.regs f.raddr1Q
  port2 : f.rdata2 = f.regs f.raddr2Q

lemma fresh_init : Fresh init := ⟨rfl, rfl, rfl⟩

variable {f i}

lemma regsStep_zero (h : f.regs 0#5 = 0#32) : f.regsStep i 0#5 = 0#32 := by
  unfold regsStep weFinal
  split_ifs with hw
  · have hne : f.waddrEff i ≠ 0#5 := by simp at hw; exact hw.2
    rw [Function.update_of_ne hne.symm, h]
  · exact h

/-- A port shows what the edge left at the address it sampled. -/
lemma rdata_step (h : f.regs 0#5 = 0#32) (a : BitVec 5) :
    (f.step i).rdata a (f.regs a) = f.regsStep i a := by
  by_cases ha : a = 0#5
  · subst ha; simp [rdata, regsStep_zero h]
  · unfold rdata regsStep
    by_cases hw : f.weFinal i = true
    · by_cases he : f.waddrEff i = a
      · subst he; simp [ha, step, hw]
      · simp [ha, step, hw, he, Function.update_of_ne (Ne.symm he)]
    · simp [ha, step, hw]

/-- **The read ports are write-first**: after every edge they show the array after it. -/
theorem Fresh.step (h : Fresh f) (i : RegFileIn) : Fresh (f.step i) :=
  ⟨regsStep_zero h.zero, rdata_step h.zero i.raddr1, rdata_step h.zero i.raddr2⟩

/-! ### No write -/

section Rest

variable (hb : f.weBuf = false) (h2 : i.we2 = false) (hw : i.we = true → i.waddr = 0#5)
include hb h2 hw

lemma weFinal_of_rest : f.weFinal i = false := by
  cases he : i.we
  · simp [weFinal, weEff, hb, h2, he]
  · simp [weFinal, waddrEff, hb, h2, hw he]

/-- The ports show what they sampled. -/
lemma rdata_step_of_rest :
    (f.step i).rdata1 = (if i.raddr1 = 0#5 then 0#32 else f.regs i.raddr1) ∧
      (f.step i).rdata2 = if i.raddr2 = 0#5 then 0#32 else f.regs i.raddr2 := by
  have hf := weFinal_of_rest hb h2 hw
  simp [rdata1, rdata2, rdata, step, hf]

end Rest

/-! ### The array through the write buffer -/

/-- What the array holds once the buffered write has reached it. -/
def held (f : RegFileBram) (r : BitVec 5) : BitVec 32 :=
  if f.weBuf && f.waddrBuf == r then f.wdataBuf else f.regs r

/-- The array after an edge, at another register than `x0`. -/
lemma regsStep_apply {r : BitVec 5} (hr : r ≠ 0#5) :
    f.regsStep i r =
      if f.weEff i = true ∧ f.waddrEff i = r then f.wdataEff i else f.regs r := by
  unfold regsStep weFinal
  by_cases ha : f.waddrEff i = r
  · by_cases hw : f.weEff i = true <;> simp [ha, hw, hr]
  · have hu : Function.update f.regs (f.waddrEff i) (f.wdataEff i) r = f.regs r :=
      Function.update_of_ne (Ne.symm ha) _ _
    have hn : ¬ (f.weEff i = true ∧ f.waddrEff i = r) := fun h => ha h.2
    rw [if_neg hn]
    split_ifs
    · exact hu
    · rfl

/-- What the buffer takes, at another register than `x0`. -/
lemma preempted_apply {r : BitVec 5} (hr : r ≠ 0#5) :
    (preempted i = true ∧ i.waddr = r) ↔
      i.we2 = true ∧ i.we = true ∧ i.waddr = r ∧ i.waddr2 ≠ r := by
  constructor
  · rintro ⟨hp, rfl⟩
    simp only [preempted, Bool.and_eq_true, bne_iff_ne] at hp
    exact ⟨hp.1.1.1, hp.1.1.2, rfl, fun h => hp.2 h.symm⟩
  · rintro ⟨h2, h1, rfl, hne⟩
    exact ⟨by simp [preempted, h2, h1, hr, Ne.symm hne], rfl⟩

/-- **The arbiter orders port 1 before port 2**, and loses no write as long as both ports rest
while the buffer is full. -/
theorem held_step (hb : f.weBuf = true → i.we2 = false ∧ (i.we = true → i.waddr = 0#5))
    {r : BitVec 5} (hr : r ≠ 0#5) :
    (f.step i).held r =
      if i.we2 = true ∧ i.waddr2 = r then i.wdata2
      else if i.we = true ∧ i.waddr = r then i.wdata
      else f.held r := by
  have hheld : (f.step i).held r =
      if preempted i = true ∧ i.waddr = r then i.wdata else f.regsStep i r := by
    by_cases hp : preempted i = true <;> simp [held, step, hp]
  rw [hheld, regsStep_apply hr]
  simp only [preempted_apply hr, weEff, waddrEff, wdataEff, held, Bool.and_eq_true, beq_iff_eq]
  by_cases hf : f.weBuf = true
  · obtain ⟨h2, h1⟩ := hb hf
    have hw : ¬ (i.we = true ∧ i.waddr = r) := fun h => hr (h.2 ▸ h1 h.1)
    simp [hf, h2, hw]
  · by_cases h2 : i.we2 = true
    · by_cases ha : i.waddr2 = r <;> simp [hf, h2, ha]
    · simp [hf, h2]

end RegFileBram

end RiscvSoc.Rtl
