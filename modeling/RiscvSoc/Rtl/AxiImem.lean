import RiscvSoc.Rtl.AxiDmem

/-!
# `axi_if_imem_master`

The bridge from the refill port of the instruction cache to an AXI read port, with one read under
way at a time.  The identifiers, responses and `rlast` of the slave decide nothing.
-/

namespace RiscvSoc.Rtl

open Sync

/-- `state` of `axi_if_imem_master`. -/
inductive ImemState
  | idle
  | ar
  | r
  deriving DecidableEq

/-- The registers of `axi_if_imem_master`. -/
structure AxiImem where
  state : ImemState
  arid : BitVec 4
  araddr : BitVec 32
  arlen : BitVec 8
  arsize : BitVec 3
  arburst : BitVec 2
  arprot : BitVec 3
  arvalid : Bool
  rready : Bool
  memRdata : BitVec 32
  memReady : Bool

/-- The inputs of `axi_if_imem_master`. -/
structure AxiImemIn where
  memReq : Bool
  memAddr : BitVec 32
  arready : Bool
  rdata : BitVec 32
  rvalid : Bool

namespace AxiImem

def reset : AxiImem where
  state := .idle
  arid := 0#4
  araddr := 0#32
  arlen := 0#8
  arsize := 2#3
  arburst := 0b01#2
  arprot := 0b000#3
  arvalid := false
  rready := false
  memRdata := 0#32
  memReady := false

variable (b : AxiImem) (i : AxiImemIn)

/-- `axi_if_imem_master` after a clock edge; in `S_IDLE` it takes a request whatever `mem_ready`
is. -/
def step : AxiImem :=
  let b := { b with memReady := false }
  match b.state with
  | .idle =>
    let b := { b with arvalid := false, rready := false }
    if i.memReq then
      { b with
        arid := 0#4, araddr := wordAlign i.memAddr, arlen := 0#8, arsize := 2#3,
        arburst := 0b01#2, arprot := 0b000#3, arvalid := true, rready := false, state := .ar }
    else b
  | .ar =>
    if b.arvalid && i.arready then { b with arvalid := false, rready := true, state := .r } else b
  | .r =>
    if i.rvalid && b.rready then
      { b with memRdata := i.rdata, memReady := true, rready := false, state := .idle }
    else { b with rready := true }

/-- `axi_if_imem_master` from reset. -/
def machine : Machine AxiImemIn AxiImem := ⟨reset, step⟩

/-! ### What an edge does -/

variable {b i}

lemma step_of_no_req (hs : b.state = .idle) (hq : i.memReq = false) :
    b.step i = { b with memReady := false, arvalid := false, rready := false } := by
  simp [step, hs, hq]

lemma step_of_req (hs : b.state = .idle) (hq : i.memReq = true) : b.step i =
    { b with
      memReady := false, arid := 0#4, araddr := wordAlign i.memAddr, arlen := 0#8, arsize := 2#3
      arburst := 0b01#2, arprot := 0b000#3, arvalid := true, rready := false, state := .ar } := by
  simp [step, hs, hq]

/-- An offer that is not taken leaves everything but the pulse as it is. -/
lemma step_of_no_arready (hs : b.state = .ar) (hr : i.arready = false) :
    b.step i = { b with memReady := false } := by
  simp [step, hs, hr]

lemma step_of_arready (hs : b.state = .ar) (hv : b.arvalid = true) (hr : i.arready = true) :
    b.step i = { b with memReady := false, arvalid := false, rready := true, state := .r } := by
  simp [step, hs, hv, hr]

lemma step_of_no_rvalid (hs : b.state = .r) (hv : i.rvalid = false) :
    b.step i = { b with memReady := false, rready := true } := by
  simp [step, hs, hv]

lemma step_of_rvalid (hs : b.state = .r) (hr : b.rready = true) (hv : i.rvalid = true) :
    b.step i =
      { b with memRdata := i.rdata, memReady := true, rready := false, state := .idle } := by
  simp [step, hs, hr, hv]

end AxiImem

end RiscvSoc.Rtl
