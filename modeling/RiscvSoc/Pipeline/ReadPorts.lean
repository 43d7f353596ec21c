import RiscvSoc.Pipeline.WritePorts

/-!
# The read ports of the register file

Both ports of `reg_file_bram` show the array after the last edge at the address sampled at that
edge, the write of that edge included.  The array is the one that takes, cycle by cycle, the write
which the arbiter selects: port 2, else the buffered write, else port 1.  Only the array has an
initial value; what the other registers hold before the first edge is left open.
-/

namespace RiscvSoc.Rtl

open Sync

namespace RegFileBram

/-- The registers before the first edge, with the array as its `initial` block leaves it. -/
def powerUp (f : RegFileBram) : RegFileBram := { f with regs := fun _ => 0#32 }

/-- The register file from power-up. -/
def machineFrom (f : RegFileBram) : Machine RegFileIn RegFileBram where
  init := f.powerUp
  next f i := f.step i

section Selected

variable (f : RegFileBram) (ins : ℕ → RegFileIn)

/-- The write that waits in cycle `n`: that of port 1 in the cycle before, if port 2 wrote another
register then. -/
def buffered : ℕ → Option (BitVec 5 × BitVec 32)
  | 0 => if f.weBuf then some (f.waddrBuf, f.wdataBuf) else none
  | n + 1 =>
    if (ins n).we2 ∧ (ins n).we ∧ (ins n).waddr ≠ 0#5 ∧ (ins n).waddr ≠ (ins n).waddr2 then
      some ((ins n).waddr, (ins n).wdata)
    else none

/-- The write of cycle `n`. -/
def selected (n : ℕ) : Option (BitVec 5 × BitVec 32) :=
  if (ins n).we2 then some ((ins n).waddr2, (ins n).wdata2)
  else (buffered f ins n).or (if (ins n).we then some ((ins n).waddr, (ins n).wdata) else none)

/-- The array after a write; `x0` is not written. -/
def store (g : BitVec 5 → BitVec 32) : Option (BitVec 5 × BitVec 32) → BitVec 5 → BitVec 32
  | some (a, v) => if a = 0#5 then g else Function.update g a v
  | none => g

/-- The array of zeros that has taken the writes selected before cycle `n`. -/
def array : ℕ → BitVec 5 → BitVec 32
  | 0 => fun _ => 0#32
  | n + 1 => store (array n) (selected f ins n)

/-- **The read ports are write-first** after the edge of cycle `n`: the array has the write selected
for that edge, the ports show it at the addresses sampled, `x0` is zero, and the edge has not
written it. -/
structure WriteFirst (n : ℕ) : Prop where
  regs : ((machineFrom f).run ins (n + 1)).regs = array f ins (n + 1)
  rdata1 : ((machineFrom f).run ins (n + 1)).rdata1 =
    ((machineFrom f).run ins (n + 1)).regs (ins n).raddr1
  rdata2 : ((machineFrom f).run ins (n + 1)).rdata2 =
    ((machineFrom f).run ins (n + 1)).regs (ins n).raddr2
  zero1 : (ins n).raddr1 = 0#5 → ((machineFrom f).run ins (n + 1)).rdata1 = 0#32
  zero2 : (ins n).raddr2 = 0#5 → ((machineFrom f).run ins (n + 1)).rdata2 = 0#32
  unwritten : ((machineFrom f).run ins n).weFinal (ins n) = true →
    ((machineFrom f).run ins n).waddrEff (ins n) ≠ 0#5

variable {f ins} {n : ℕ}

lemma store_zero (g : BitVec 5 → BitVec 32) (o : Option (BitVec 5 × BitVec 32)) :
    store g o 0#5 = g 0#5 := by
  rcases o with _ | ⟨a, v⟩
  · rfl
  · simp only [store]
    split_ifs with ha
    · rfl
    · exact Function.update_of_ne (Ne.symm ha) _ _

lemma array_zero : array f ins n 0#5 = 0#32 := by
  induction n with
  | zero => rfl
  | succ n ih => rw [array, store_zero, ih]

/-- The buffer registers hold the write that waits. -/
lemma buffered_eq : buffered f ins n =
    if ((machineFrom f).run ins n).weBuf then
      some (((machineFrom f).run ins n).waddrBuf, ((machineFrom f).run ins n).wdataBuf)
    else none := by
  cases n with
  | zero => rfl
  | succ n =>
    have hp : preempted (ins n) = true ↔ (ins n).we2 = true ∧ (ins n).we = true ∧
        (ins n).waddr ≠ 0#5 ∧ (ins n).waddr ≠ (ins n).waddr2 := by
      simp only [preempted, Bool.and_eq_true, bne_iff_ne, and_assoc]
    rw [Machine.run_succ]
    simp only [machineFrom, step, buffered]
    by_cases h : preempted (ins n) = true
    · simp only [h, hp.mp h, if_true, ne_eq, not_false_eq_true, and_self]
    · simp only [h, if_false, Bool.false_eq_true]
      rw [if_neg (fun hc => h (hp.mpr hc))]

/-- **The arbiter selects one write.** -/
lemma regsStep_eq_store :
    ((machineFrom f).run ins n).regsStep (ins n) =
      store ((machineFrom f).run ins n).regs (selected f ins n) := by
  rw [selected, buffered_eq]
  unfold regsStep weFinal weEff waddrEff wdataEff
  cases (ins n).we2
  · cases ((machineFrom f).run ins n).weBuf
    · cases (ins n).we <;> simp [store, bne]
    · simp [store, bne]
  · simp [store, bne]

/-- The array of the register file along a run. -/
lemma regs_run : ((machineFrom f).run ins n).regs = array f ins n := by
  induction n with
  | zero => rfl
  | succ n ih =>
    have hs : ((machineFrom f).run ins (n + 1)).regs =
        ((machineFrom f).run ins n).regsStep (ins n) := rfl
    rw [hs, regsStep_eq_store, ih, array]

/-- **The read ports are write-first**, whatever the four ports are given and whatever the registers
hold at power-up. -/
theorem read_ports_write_first (f : RegFileBram) (ins : ℕ → RegFileIn) (n : ℕ) :
    WriteFirst f ins n := by
  have hzero : ∀ k, ((machineFrom f).run ins k).regs 0#5 = 0#32 := by
    intro k
    rw [regs_run, array_zero]
  have h1 : ((machineFrom f).run ins (n + 1)).rdata1 =
      ((machineFrom f).run ins (n + 1)).regs (ins n).raddr1 := rdata_step (hzero n) (ins n).raddr1
  have h2 : ((machineFrom f).run ins (n + 1)).rdata2 =
      ((machineFrom f).run ins (n + 1)).regs (ins n).raddr2 := rdata_step (hzero n) (ins n).raddr2
  refine ⟨regs_run, h1, h2, ?_, ?_, ?_⟩
  · intro ha
    rw [h1, ha, hzero]
  · intro ha
    rw [h2, ha, hzero]
  · intro hw
    simp only [weFinal, Bool.and_eq_true, bne_iff_ne] at hw
    exact hw.2

end Selected

end RegFileBram

end RiscvSoc.Rtl
