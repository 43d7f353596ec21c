import Mathlib.Tactic.Common

/-!
# `register_EX` and `hazard_ctrl`

The forwarding registers with the load and store locks, and the combinational hazard logic
that reads the locks.
-/

namespace RiscvSoc.Rtl

/-! ### `register_EX` -/

/-- `lstate`; its fourth code is never taken. -/
inductive LState
  | idle
  | busy
  | release
  deriving DecidableEq

namespace LState

@[simp] lemma idle_beq_busy : (idle == busy) = false := rfl
@[simp] lemma idle_beq_release : (idle == release) = false := rfl
@[simp] lemma busy_beq_idle : (busy == idle) = false := rfl
@[simp] lemma busy_beq_release : (busy == release) = false := rfl
@[simp] lemma release_beq_idle : (release == idle) = false := rfl
@[simp] lemma release_beq_busy : (release == busy) = false := rfl

end LState

/-- The registers of `register_EX`. -/
structure RegisterEx where
  rdReg : BitVec 5
  rdDataReg : BitVec 32
  rdReg2 : BitVec 5
  rdDataReg2 : BitVec 32
  rdRegLoad : BitVec 5
  rdDataRegLoad : BitVec 32
  rdDataLoadSaved : BitVec 32
  lstate : LState
  slock : Bool
  firstCycleInBusy : Bool
  dmemReadyD1 : Bool
  loadSkipStale : Bool
  memBusyOutReg : Bool
  deriving DecidableEq

/-- The inputs of `register_EX`. -/
structure RegisterExIn where
  stall : Bool
  flush : Bool
  loadEnable : Bool
  storeEnable : Bool
  loadSuccess : Bool
  dmemReady : Bool
  rdIn : BitVec 5
  rdExResultIn : BitVec 32
  rdMemRdataIn : BitVec 32
  regWriteEn : Bool

namespace RegisterEx

def reset : RegisterEx where
  rdReg := 0#5
  rdDataReg := 0#32
  rdReg2 := 0#5
  rdDataReg2 := 0#32
  rdRegLoad := 0#5
  rdDataRegLoad := 0#32
  rdDataLoadSaved := 0#32
  lstate := .idle
  slock := false
  firstCycleInBusy := false
  dmemReadyD1 := false
  loadSkipStale := false
  memBusyOutReg := false

variable (r : RegisterEx) (i : RegisterExIn)

/-- The load in EX/MEM sees the ready of the access before it. -/
def staleReady : Bool := i.loadSuccess && r.firstCycleInBusy && r.dmemReadyD1

/-- The ready that answers a load whose stale ready was skipped and which has left EX/MEM. -/
def lateReady : Bool := !r.firstCycleInBusy && i.dmemReady && !i.loadSuccess

/-- `lstate` after the edge. -/
def lstateStep : LState :=
  if i.flush then .idle
  else match r.lstate with
    | .idle => if i.loadEnable then .busy else .idle
    | .busy =>
      if i.loadSuccess && (!r.firstCycleInBusy || !r.dmemReadyD1) then .release
      else if r.staleReady i then .busy
      else if r.lateReady i then .release
      else .busy
    | .release => .idle

/-- `first_cycle_in_busy` after the edge. -/
def firstCycleStep : Bool :=
  if i.flush then false
  else match r.lstate with
    | .idle => if i.loadEnable then true else r.firstCycleInBusy
    | .busy =>
      if i.loadSuccess && (!r.firstCycleInBusy || !r.dmemReadyD1) then r.firstCycleInBusy
      else if r.staleReady i then false
      else r.firstCycleInBusy
    | .release => r.firstCycleInBusy

/-- `slock_next`, which is also what the register `slock` takes. -/
def slockNext : Bool :=
  if i.flush then false
  else if r.slock && i.dmemReady then false
  else if r.lstate != .busy && i.storeEnable && !r.slock then true
  else r.slock

/-- `lstate_next`, the successor that `mem_busy_out` is computed from. -/
def lstateNext : LState :=
  if r.lstate == .idle && i.loadEnable then .busy
  else if r.lstate == .busy && i.loadSuccess then .release
  else if r.lstate == .release then .idle
  else r.lstate

/-- The answer of a skipped load is captured after the load has left EX/MEM. -/
def captureLate : Bool :=
  r.lstate == .busy && !r.firstCycleInBusy && i.dmemReady && !i.loadSuccess

/-- `register_EX` after a clock edge. -/
def step : RegisterEx where
  rdReg :=
    if i.flush then 0#5
    else if i.stall then r.rdReg
    else if r.lstate == .release then r.rdRegLoad
    else if !i.loadEnable && i.regWriteEn then i.rdIn
    else r.rdReg
  rdDataReg :=
    if i.flush then 0#32
    else if i.stall then r.rdDataReg
    else if r.lstate == .release then r.rdDataLoadSaved
    else if !i.loadEnable && i.regWriteEn then i.rdExResultIn
    else r.rdDataReg
  rdReg2 :=
    if i.flush then 0#5
    else if i.stall then r.rdReg2
    else if r.lstate == .release then r.rdReg
    else if !i.loadEnable && i.regWriteEn then r.rdReg
    else r.rdReg2
  rdDataReg2 :=
    if i.flush then 0#32
    else if i.stall then r.rdDataReg2
    else if r.lstate == .release then r.rdDataReg
    else if !i.loadEnable && i.regWriteEn then r.rdDataReg
    else r.rdDataReg2
  rdRegLoad :=
    if i.flush then 0#5
    else if i.loadSuccess then r.rdRegLoad
    else if r.captureLate i then r.rdRegLoad
    else if i.loadEnable then i.rdIn
    else r.rdRegLoad
  rdDataRegLoad :=
    if i.flush then 0#32
    else if i.loadSuccess then i.rdMemRdataIn
    else if r.captureLate i then i.rdMemRdataIn
    else if i.loadEnable then i.rdExResultIn
    else r.rdDataRegLoad
  rdDataLoadSaved :=
    if i.flush then 0#32
    else if i.loadSuccess then i.rdMemRdataIn
    else if r.captureLate i then i.rdMemRdataIn
    else r.rdDataLoadSaved
  lstate := r.lstateStep i
  slock := r.slockNext i
  firstCycleInBusy := r.firstCycleStep i
  dmemReadyD1 := i.dmemReady
  loadSkipStale := !i.flush && r.lstate == .busy && r.staleReady i
  memBusyOutReg :=
    if i.flush then false else r.lstateNext i == .busy || r.slockNext i || r.loadSkipStale

/-- `rd_reg_load_out`: a load in EX shows its destination before the lock is taken. -/
def rdRegLoadOut (loadEnable : Bool) (rdIn : BitVec 5) : BitVec 5 :=
  if r.lstate == .idle && loadEnable then rdIn else r.rdRegLoad

def rdDataLoadOut (dmemReady : Bool) (rdMemRdataIn : BitVec 32) : BitVec 32 :=
  if r.lstate == .release then r.rdDataLoadSaved
  else if r.lstate == .busy && dmemReady && !r.firstCycleInBusy then rdMemRdataIn
  else r.rdDataRegLoad

def loadLockOut : Bool := r.lstate == .busy || r.lstate == .release
def loadPendingOut (loadEnable : Bool) : Bool :=
  r.lstate == .busy || (r.lstate == .idle && loadEnable)
def memStallReq (storeEnable : Bool) : Bool := (r.lstate == .busy || r.slock) && storeEnable

variable {r i} in
/-- How the store lock comes to be held: it is kept without an answer, or a store takes it. -/
lemma slockNext_cases (h : r.slockNext i = true) :
    (r.slock = true ∧ i.dmemReady = false) ∨
      (r.lstate ≠ .busy ∧ i.storeEnable = true ∧ r.slock = false) := by
  unfold slockNext at h
  cases hs : r.slock
  · right
    cases hf : i.flush <;> simp [hs, hf] at h
    exact ⟨h.1, h.2, rfl⟩
  · left
    cases hf : i.flush <;> cases hr : i.dmemReady <;> simp [hs, hf, hr] at h
    exact ⟨rfl, rfl⟩

variable {r i} in
/-- The load lock is released by an answer only. -/
lemma lstateStep_ne_release (hr : i.dmemReady = false) (hs : i.loadSuccess = false) :
    r.lstateStep i ≠ .release := by
  unfold lstateStep
  cases hf : i.flush
  · cases hl : r.lstate
    · cases i.loadEnable <;> simp
    · simp [staleReady, lateReady, hr, hs]
    · simp
  · simp

end RegisterEx

/-! ### `hazard_ctrl` -/

/-- The inputs of `hazard_ctrl`. -/
structure HazardIn where
  stall : Bool
  flush : Bool
  jumpIf : Bool
  exBranchTaken : Bool
  exJalr : Bool
  rdLoadUse : BitVec 5
  idRs1 : BitVec 5
  idRs2 : BitVec 5
  idUseRs1 : Bool
  idUseRs2 : Bool
  loadPendingIn : Bool
  memStallReq : Bool
  loadSkipStale : Bool
  dmemValid : Bool
  dmemReady : Bool
  imemReady : Bool

namespace HazardIn

variable (h : HazardIn)

def loadUseHazard : Bool :=
  h.loadPendingIn && h.rdLoadUse != 0#5 &&
    ((h.idUseRs1 && h.idRs1 == h.rdLoadUse) || (h.idUseRs2 && h.idRs2 == h.rdLoadUse))

def branchHazardEx : Bool := h.exBranchTaken || h.exJalr
def branchHazardIf : Bool := h.jumpIf
def memStall : Bool := h.memStallReq || (h.dmemValid && !h.dmemReady) || h.loadSkipStale
def ifStall : Bool := !h.imemReady
def stallFront : Bool := h.stall || h.loadUseHazard || h.memStall || h.ifStall
def stallBack : Bool := h.stall || h.memStall
def flushIfid : Bool := h.flush || h.branchHazardEx || h.branchHazardIf
def flushIdex : Bool :=
  h.flush || h.branchHazardEx || (h.loadUseHazard && !h.stallBack) ||
    (h.branchHazardIf && !h.stallBack)

end HazardIn

end RiscvSoc.Rtl
