import RiscvSoc.Bus.Completion
import RiscvSoc.Bus.DataPort

/-!
# The data memory of `soc_top`

`soc_top` with a memory at its data port.  The memory gets the stores of the core in the order in
which they leave EX, none is lost and none is changed, whatever comes for the fetches.  A load gets
its own word if it found the bridge idle and without an answer; else it gets the answer to the
access before it.
-/

namespace RiscvSoc.Rtl

open Sync

/-! ### The circuit -/

/-- `soc_top` and the slave of its data port. -/
structure TopAxi where
  soc : SocTop
  slave : DataSlave

/-- What comes in a cycle: the pins of the instruction port, and the pace of the slave. -/
structure TopAxiIn where
  imemArready : Bool
  imemRdata : BitVec 32
  imemRvalid : Bool
  pace : SlavePace

/-- The data pins of the core. -/
def SocTop.dataPins (s : SocTop) : DmemPins where
  valid := s.core.dmemValid
  ren := s.core.dmemRen
  wen := s.core.dmemWen
  addr := s.core.dmemAddr
  wdata := s.core.dmemWdata

namespace TopAxi

variable (s : TopAxi) (x : TopAxiIn)

/-- The bridge and the slave. -/
def port : DataPort := ⟨s.soc.axiDmem, s.slave⟩

/-- What the slaves drive on the two ports. -/
def slaveIn : SlaveIn where
  imemArready := x.imemArready
  imemRdata := x.imemRdata
  imemRvalid := x.imemRvalid
  dmemAwready := x.pace.awready
  dmemWready := x.pace.wready
  dmemBvalid := (s.port.bridgeIn s.soc.dataPins x.pace).bvalid
  dmemArready := x.pace.arready
  dmemRdata := (s.port.bridgeIn s.soc.dataPins x.pace).rdata
  dmemRvalid := (s.port.bridgeIn s.soc.dataPins x.pace).rvalid

/-- The system after a clock edge, with no external pin raised. -/
def step : TopAxi where
  soc := s.soc.step .quiet (s.slaveIn x)
  slave := s.port.slaveStep s.soc.dataPins x.pace

/-- The system from reset, over the data memory `m` and whatever the arrays of the cache hold. -/
def machine (c : CacheInst) (m : WordMem) : Machine TopAxiIn TopAxi where
  init := ⟨⟨Core.reset, c.reset, AxiImem.reset, AxiDmem.reset⟩, ⟨m, [], [], 0⟩⟩
  next s x := s.step x

/-- An access leaves EX. -/
def entersMem : List DmemReq :=
  if s.soc.core.stallBack (s.soc.coreIn .quiet) then []
  else
    let e := s.soc.core.exMemIn (s.soc.coreIn .quiet)
    if e.memWriteEn || e.memReadEn then [⟨e.memReadEn, e.memAddr, e.memWdata⟩] else []

/-- The access in EX/MEM. -/
def inMem : List DmemReq := if s.soc.core.dmemValid then [s.soc.dataPins.req] else []

/-- The access in EX/MEM leaves it. -/
def leavesMem : Bool := s.soc.core.dmemValid && !s.soc.core.stallBack (s.soc.coreIn .quiet)

/-! ### One cycle -/

variable {s x}

lemma port_step : (s.step x).port = s.port.step s.soc.dataPins x.pace := rfl

/-- EX/MEM waits for an answer. -/
lemma stallBack_of_no_ready (hv : s.soc.core.dmemValid = true)
    (hr : s.soc.axiDmem.dmemReady = false) :
    s.soc.core.stallBack (s.soc.coreIn .quiet) = true := by
  rw [SocTop.stallBack_quiet, hv, hr]
  simp

lemma exMem_step : (s.step x).soc.core.exMem =
    if s.soc.core.stallBack (s.soc.coreIn .quiet) then s.soc.core.exMem
    else s.soc.core.exMemIn (s.soc.coreIn .quiet) := Core.exMem_step rfl

/-- What is in EX/MEM leaves it before the next access comes. -/
lemma inMem_step : s.inMem ++ s.entersMem =
    (if s.leavesMem then [s.soc.dataPins.req] else []) ++ (s.step x).inMem := by
  unfold inMem entersMem leavesMem
  cases hs : s.soc.core.stallBack (s.soc.coreIn .quiet)
  · have he : (s.step x).soc.core.exMem = s.soc.core.exMemIn (s.soc.coreIn .quiet) := by
      rw [exMem_step, hs]
      rfl
    simp only [Core.dmemValid, SocTop.dataPins, DmemPins.req, Core.dmemRen, Core.dmemAddr,
      Core.dmemWdata, he]
    simp
  · have he : (s.step x).soc.core.exMem = s.soc.core.exMem := by
      rw [exMem_step, hs]
      rfl
    simp only [Core.dmemValid, SocTop.dataPins, DmemPins.req, Core.dmemRen, Core.dmemAddr,
      Core.dmemWdata, he]
    simp

/-- **The front and EX/MEM**: nothing in EX/MEM reads and writes. -/
structure OneKind (s : TopAxi) : Prop where
  front : FrontShape s.soc.core
  single : s.soc.core.exMem.memReadEn = true → s.soc.core.exMem.memWriteEn = false

lemma OneKind.step (h : s.OneKind) : (s.step x).OneKind where
  front := by
    have hf := h.front.step (b := s.soc.bus)
      (M := fun _ => s.soc.icache.imemRdata s.soc.icacheIn)
    rwa [← SocTop.coreIn_quiet] at hf
  single := by
    rw [exMem_step]
    split_ifs
    · exact h.single
    · intro hr
      simp only [Core.exMemIn, ExIn.memReadEn, Core.exIn, Bool.and_eq_true] at hr
      have hns := h.front.not_load_and_store hr.2
      simp [Core.exMemIn, ExIn.memWriteEn, Core.exIn, hns]

lemma OneKind.wen_eq (h : s.OneKind) (hv : s.soc.dataPins.valid = true) :
    s.soc.dataPins.wen = !s.soc.dataPins.ren := by
  have hx : (s.soc.core.exMem.memWriteEn || s.soc.core.exMem.memReadEn) = true := hv
  change s.soc.core.exMem.memWriteEn = !s.soc.core.exMem.memReadEn
  cases hr : s.soc.core.exMem.memReadEn
  · simpa [hr] using hx
  · exact h.single hr

/-- An access that does not leave EX/MEM stays the same. -/
lemma dataPins_step (hv : s.soc.dataPins.valid = true) (hl : s.leavesMem = false) :
    (s.step x).soc.dataPins = s.soc.dataPins := by
  have hv' : s.soc.core.dmemValid = true := hv
  have hs : s.soc.core.stallBack (s.soc.coreIn .quiet) = true := by
    simpa [leavesMem, hv'] using hl
  have he : (s.step x).soc.core.exMem = s.soc.core.exMem := by
    rw [exMem_step, hs]
    rfl
  simp only [SocTop.dataPins, Core.dmemValid, Core.dmemRen, Core.dmemWen, Core.dmemAddr,
    Core.dmemWdata, he]

/-! ### Runs -/

section Runs

variable (c : CacheInst) (m : WordMem) (ins : ℕ → TopAxiIn)

/-- The system in cycle `n`. -/
def top (n : ℕ) : TopAxi := (machine c m).run ins n

/-- The accesses that have left EX before cycle `n`, oldest first. -/
def accesses (n : ℕ) : List DmemReq := (machine c m).history (fun s _ => s.entersMem) ins n

/-- The accesses that have left EX/MEM before cycle `n`, oldest first. -/
def left (n : ℕ) : List DmemReq := (machine c m).history
  (fun s _ => if s.leavesMem then [s.soc.dataPins.req] else []) ins n

/-- The bridge has taken the access in EX/MEM: it was idle and gave no answer when the access came,
or has answered it already. -/
def own : ℕ → Bool
  | 0 => false
  | n + 1 => if (top c m ins n).soc.axiDmem.state = .idle then
      (top c m ins n).soc.core.dmemValid && !(top c m ins n).leavesMem
    else own n

/-- **The data side of `soc_top`** in cycle `n`.  The accesses leave EX/MEM in their order.  The
memory, with the write under way, is the one after those that have left, and the one in EX/MEM if it
is taken.  A load that leaves has the word of that memory at its own address if it was taken, and
else what was read for the access before it, if that was a load. -/
structure DataInOrder (n : ℕ) : Prop where
  order : accesses c m ins n = left c m ins n ++ (top c m ins n).inMem
  view : (top c m ins n).port.view = storeAll m
    (left c m ins n ++ if own c m ins n then [(top c m ins n).soc.dataPins.req] else [])
  loads : (top c m ins n).leavesMem = true → (top c m ins n).soc.core.dmemRen = true →
    own c m ins n = true →
    (top c m ins n).soc.axiDmem.dmemRdata =
      storeAll m (left c m ins n) (wordIndex (top c m ins n).soc.core.dmemAddr)
  late : (top c m ins n).leavesMem = true → own c m ins n = false →
    ∃ q, (left c m ins n).getLast? = some q ∧ (q.ren = true →
      (top c m ins n).soc.axiDmem.dmemRdata = storeAll m (left c m ins n) (wordIndex q.addr))

lemma oneKind_run (n : ℕ) : (top c m ins n).OneKind :=
  (machine c m).invariant (P := OneKind) ⟨FrontShape.reset, by intro h; cases h⟩
    (fun _ _ h => h.step) ins n

/-- An access leaves EX/MEM with its answer. -/
lemma ready_of_leaves {s : TopAxi} (hl : s.leavesMem = true) :
    s.soc.dataPins.valid = true ∧ s.port.bridge.dmemReady = true := by
  simp only [leavesMem, Bool.and_eq_true, Bool.not_eq_true'] at hl
  refine ⟨hl.1, ?_⟩
  by_contra hr
  have hs := stallBack_of_no_ready hl.1 (by simpa [port] using hr)
  rw [hl.2] at hs
  cases hs

lemma phase_run (n : ℕ) : DataPort.Phase m (left c m ins n) (top c m ins n).soc.dataPins
    (top c m ins n).port (own c m ins n) := by
  induction n with
  | zero => exact .rest ⟨rfl, rfl, rfl⟩ rfl
  | succ n ih =>
    have hport : (top c m ins (n + 1)).port =
      (top c m ins n).port.step (top c m ins n).soc.dataPins (ins n).pace := port_step
    rw [hport]
    refine ih.step (oneKind_run c m ins n).wen_eq ready_of_leaves ?_
    intro hv hl
    have hstay := dataPins_step (x := ins n) hv hl
    have hnext : (top c m ins (n + 1)).soc.dataPins = (top c m ins n).soc.dataPins := hstay
    rw [hnext]
    exact ⟨hv, rfl⟩

/-- The accesses go through EX/MEM in their order. -/
lemma accesses_eq (n : ℕ) : accesses c m ins n = left c m ins n ++ (top c m ins n).inMem := by
  induction n with
  | zero => rfl
  | succ n ih =>
    have hstep := inMem_step (s := top c m ins n) (x := ins n)
    have ha : accesses c m ins (n + 1) = accesses c m ins n ++ (top c m ins n).entersMem := rfl
    have hl : left c m ins (n + 1) = left c m ins n ++
      if (top c m ins n).leavesMem then [(top c m ins n).soc.dataPins.req] else [] := rfl
    rw [ha, hl, ih, List.append_assoc, hstep, List.append_assoc]
    rfl

/-- **No store of `soc_top` is lost, changed or moved**, for every program, whatever comes for the
fetches, every pace of the slave and every data memory. -/
theorem data_in_order (n : ℕ) : DataInOrder c m ins n := by
  have h := phase_run c m ins n
  refine ⟨accesses_eq c m ins n, h.view, ?_, ?_⟩
  · intro hl hr ht
    rw [ht] at h
    exact h.rdata_own (ready_of_leaves hl).2 hr
  · intro hl ht
    rw [ht] at h
    exact h.rdata_again (ready_of_leaves hl).2

end Runs

end TopAxi

end RiscvSoc.Rtl
