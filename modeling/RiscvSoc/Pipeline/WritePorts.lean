import RiscvSoc.Sync.Machine
import RiscvSoc.Rtl.RegFile

/-!
# The two write ports of the register file

Seen through its write buffer, `reg_file_bram` should be an array that takes the write of port 1
and then the write of port 2.  It is, as long as port 1 brings nothing new while the buffer is
full: the buffer comes first, and a write on port 1 is dropped.
-/

namespace RiscvSoc.Rtl

open Sync

namespace RegFileBram

/-! ### The array that takes every write -/

/-- The array after the write of a port; `x0` is not written. -/
def portWrite (we : Bool) (waddr : BitVec 5) (wdata : BitVec 32) (g : BitVec 5 → BitVec 32) :
    BitVec 5 → BitVec 32 :=
  if we && waddr != 0#5 then Function.update g waddr wdata else g

/-- The array after a cycle: port 1, then port 2. -/
def writeBoth (g : BitVec 5 → BitVec 32) (i : RegFileIn) : BitVec 5 → BitVec 32 :=
  portWrite i.we2 i.waddr2 i.wdata2 (portWrite i.we i.waddr i.wdata g)

/-- The array of zeros that takes the writes of both ports, cycle by cycle. -/
def arrayMachine : Machine RegFileIn (BitVec 5 → BitVec 32) where
  init := fun _ => 0#32
  next := writeBoth

/-- The register file from its initial state. -/
def machine : Machine RegFileIn RegFileBram where
  init := RegFileBram.init
  next f i := f.step i

/-- **No write is lost** up to cycle `n`: the array with the buffered write is the array that
took all writes, and `x0` is zero. -/
structure NoWriteLost (ins : ℕ → RegFileIn) (n : ℕ) : Prop where
  held : (machine.run ins n).held = arrayMachine.run ins n
  zero : (machine.run ins n).regs 0#5 = 0#32

/-- **Port 1 overruns the buffer**: while the buffer is full it writes a register another value
than the register holds. -/
structure Overruns (f : RegFileBram) (i : RegFileIn) : Prop where
  full : f.weBuf = true
  we : i.we = true
  waddr : i.waddr ≠ 0#5
  wdata : i.wdata ≠ f.held i.waddr

variable {f : RegFileBram} {i : RegFileIn} {g : BitVec 5 → BitVec 32} {ins : ℕ → RegFileIn}
  {n : ℕ}

/-! ### One cycle -/

lemma portWrite_apply {r : BitVec 5} (hr : r ≠ 0#5) (we : Bool) (a : BitVec 5) (v : BitVec 32) :
    portWrite we a v g r = if we = true ∧ a = r then v else g r := by
  unfold portWrite
  by_cases ha : a = r
  · subst ha
    cases we <;> simp [hr]
  · simp only [ha, and_false, if_false]
    split_ifs
    · exact Function.update_of_ne (Ne.symm ha) _ _
    · rfl

lemma portWrite_zero (we : Bool) (a : BitVec 5) (v : BitVec 32) :
    portWrite we a v g 0#5 = g 0#5 := by
  unfold portWrite
  split_ifs with h
  · simp only [Bool.and_eq_true, bne_iff_ne] at h
    exact Function.update_of_ne (Ne.symm h.2) _ _
  · rfl

lemma writeBoth_apply {r : BitVec 5} (hr : r ≠ 0#5) :
    writeBoth g i r =
      if i.we2 = true ∧ i.waddr2 = r then i.wdata2
      else if i.we = true ∧ i.waddr = r then i.wdata
      else g r := by
  rw [writeBoth, portWrite_apply hr, portWrite_apply hr]

/-- The buffer never waits for `x0`. -/
lemma held_zero_step : (f.step i).held 0#5 = f.regsStep i 0#5 := by
  cases hp : preempted i
  · simp [held, step, hp]
  · have hne : i.waddr ≠ 0#5 := by
      simp only [preempted, Bool.and_eq_true, bne_iff_ne] at hp
      exact hp.1.2
    simp [held, step, hp, hne]

/-- With the buffer full and port 2 at rest the buffered write reaches the array, and nothing
else does. -/
lemma held_step_of_full (hb : f.weBuf = true) (h2 : i.we2 = false) {r : BitVec 5}
    (hr : r ≠ 0#5) : (f.step i).held r = f.held r := by
  have hp : preempted i = false := by simp [preempted, h2]
  have hheld : (f.step i).held r = f.regsStep i r := by simp [held, step, hp]
  rw [hheld, regsStep_apply hr]
  simp [weEff, waddrEff, wdataEff, held, h2, hb]

/-- **One cycle loses no write exactly when port 1 does not overrun the buffer.** -/
theorem held_step_iff (hheld : f.held = g) (hzero : f.regs 0#5 = 0#32) (hg : g 0#5 = 0#32)
    (h2 : f.weBuf = true → i.we2 = false) :
    (f.step i).held = writeBoth g i ↔ ¬ f.Overruns i := by
  constructor
  · rintro he ⟨hb, hw, h0, hd⟩
    have h := congrFun he i.waddr
    rw [held_step_of_full hb (h2 hb) h0, writeBoth_apply h0] at h
    simp only [h2 hb, Bool.false_eq_true, false_and, if_false, hw, true_and, if_true] at h
    exact hd h.symm
  · intro hno
    funext r
    by_cases hr : r = 0#5
    · subst hr
      rw [held_zero_step, regsStep_zero hzero, writeBoth, portWrite_zero, portWrite_zero, hg]
    · rw [writeBoth_apply hr]
      by_cases hc : f.weBuf = true ∧ i.we = true ∧ i.waddr ≠ 0#5
      · -- The dropped write brings what the register holds.
        obtain ⟨hb, hw, h0⟩ := hc
        have hd : i.wdata = f.held i.waddr := by
          by_contra hd
          exact hno ⟨hb, hw, h0, hd⟩
        rw [held_step_of_full hb (h2 hb) hr]
        simp only [h2 hb, Bool.false_eq_true, false_and, if_false, hw, true_and]
        split_ifs with ha
        · rw [hd, ha]
        · rw [hheld]
      · rw [held_step (fun hb => ⟨h2 hb, fun hw => ?_⟩) hr, hheld]
        by_contra h0
        exact hc ⟨hb, hw, h0⟩

/-! ### Runs -/

/-- Port 2 never writes in two consecutive cycles. -/
def Port2Rests (ins : ℕ → RegFileIn) : Prop :=
  ∀ n, (ins n).we2 = true → (ins (n + 1)).we2 = false

lemma arrayMachine_zero (n : ℕ) : arrayMachine.run ins n 0#5 = 0#32 := by
  induction n with
  | zero => rfl
  | succ n ih =>
    rw [Machine.run_succ]
    change writeBoth _ _ 0#5 = _
    rw [writeBoth, portWrite_zero, portWrite_zero, ih]

lemma zero_run (n : ℕ) : (machine.run ins n).regs 0#5 = 0#32 :=
  machine.invariant (P := fun f => f.regs 0#5 = 0#32) rfl (fun _ _ h => regsStep_zero h) ins n

/-- While the buffer is full port 2 rests. -/
lemma we2_of_full (hins : Port2Rests ins) (hb : (machine.run ins n).weBuf = true) :
    (ins n).we2 = false := by
  cases n with
  | zero => cases hb
  | succ n =>
    have hp : preempted (ins n) = true := hb
    simp only [preempted, Bool.and_eq_true] at hp
    exact hins n hp.1.1.1

/-- **The register file loses no write exactly as long as port 1 does not overrun the buffer.** -/
theorem noWriteLost_iff_not_overruns (hins : Port2Rests ins) (n : ℕ) :
    (∀ k ≤ n + 1, NoWriteLost ins k) ↔ ∀ k ≤ n, ¬ (machine.run ins k).Overruns (ins k) := by
  have hstep : ∀ k, (machine.run ins k).held = arrayMachine.run ins k →
      ((machine.run ins (k + 1)).held = arrayMachine.run ins (k + 1) ↔
        ¬ (machine.run ins k).Overruns (ins k)) := fun k hk =>
    held_step_iff hk (zero_run k) (arrayMachine_zero k) (we2_of_full hins)
  have hiff := forall_le_iff
    (P := fun k => (machine.run ins (k + 1)).held = arrayMachine.run ins (k + 1))
    (C := fun k => ¬ (machine.run ins k).Overruns (ins k))
    (I := fun k => (machine.run ins k).held = arrayMachine.run ins k) rfl
    (fun k hk hC => (hstep k hk).mpr hC) hstep n
  rw [← hiff]
  constructor
  · intro h k hk
    exact (h (k + 1) (by omega)).held
  · intro h k hk
    refine ⟨?_, zero_run k⟩
    cases k with
    | zero => rfl
    | succ k => exact h k (by omega)

/-- Port 2 writes `x3` in cycle 0 while port 1 writes `x1`; port 1 then writes `v` to `x2`. -/
def conflictTrace (v : BitVec 32) : ℕ → RegFileIn
  | 0 => ⟨true, 1#5, 11#32, true, 3#5, 33#32, 0#5, 0#5⟩
  | 1 => ⟨true, 2#5, v, false, 0#5, 0#32, 0#5, 0#5⟩
  | _ => ⟨false, 0#5, 0#32, false, 0#5, 0#32, 0#5, 0#5⟩

lemma port2Rests_conflictTrace (v : BitVec 32) : Port2Rests (conflictTrace v) := by
  intro n _
  cases n <;> rfl

/-- The zero that `x2` holds may be dropped. -/
theorem noWriteLost_iff_not_overruns_conflictTrace :
    (∀ k ≤ 2, NoWriteLost (conflictTrace 0#32) k) ↔
      ∀ k ≤ 1, ¬ (machine.run (conflictTrace 0#32) k).Overruns (conflictTrace 0#32 k) :=
  noWriteLost_iff_not_overruns (port2Rests_conflictTrace 0#32) 1

/-- **A write is dropped**: the 22 for `x2` in the cycle after the conflict. -/
theorem conflictTrace_writeLost : ¬ ∀ ins, Port2Rests ins → ∀ n, NoWriteLost ins n := by
  intro h
  have hh := congrFun (h _ (port2Rests_conflictTrace 22#32) 2).held 2#5
  revert hh
  decide +kernel

end RegFileBram

end RiscvSoc.Rtl
