import RiscvSoc.Sync.Machine

/-!
# `axi_if_dmem_master`

The bridge from the data port of the core to an AXI master port, with one transaction under way
at a time.  `dmem_size` and the identifiers, responses and `rlast` of the slave decide nothing.
-/

namespace RiscvSoc.Rtl

open Sync

/-- `{addr[31:2], 2'b00}`. -/
def wordAlign (a : BitVec 32) : BitVec 32 := a.extractLsb' 2 30 ++ 0#2

/-- `state` of `axi_if_dmem_master`. -/
inductive DmemState
  | idle
  | rAr
  | rR
  | wAw
  | wW
  | wB
  deriving DecidableEq

/-- The registers of `axi_if_dmem_master`. -/
structure AxiDmem where
  state : DmemState
  awid : BitVec 4
  awaddr : BitVec 32
  awlen : BitVec 8
  awsize : BitVec 3
  awburst : BitVec 2
  awprot : BitVec 3
  awvalid : Bool
  wdata : BitVec 32
  wstrb : BitVec 4
  wlast : Bool
  wvalid : Bool
  bready : Bool
  arid : BitVec 4
  araddr : BitVec 32
  arlen : BitVec 8
  arsize : BitVec 3
  arburst : BitVec 2
  arprot : BitVec 3
  arvalid : Bool
  rready : Bool
  dmemRdata : BitVec 32
  dmemReady : Bool

/-- The inputs of `axi_if_dmem_master`. -/
structure AxiDmemIn where
  dmemValid : Bool
  dmemRen : Bool
  dmemWen : Bool
  dmemAddr : BitVec 32
  dmemWdata : BitVec 32
  awready : Bool
  wready : Bool
  bvalid : Bool
  arready : Bool
  rdata : BitVec 32
  rvalid : Bool

namespace AxiDmem

def reset : AxiDmem where
  state := .idle
  awid := 0#4
  awaddr := 0#32
  awlen := 0#8
  awsize := 2#3
  awburst := 0b01#2
  awprot := 0b000#3
  awvalid := false
  wdata := 0#32
  wstrb := 0#4
  wlast := false
  wvalid := false
  bready := false
  arid := 0#4
  araddr := 0#32
  arlen := 0#8
  arsize := 2#3
  arburst := 0b01#2
  arprot := 0b000#3
  arvalid := false
  rready := false
  dmemRdata := 0#32
  dmemReady := false

variable (r : AxiDmem) (i : AxiDmemIn)

/-- `S_IDLE`: a read goes first, and a request is taken whatever `dmem_ready` is. -/
def stepIdle : AxiDmem :=
  let r := { r with
    awvalid := false, wvalid := false, bready := false, arvalid := false, rready := false }
  if i.dmemValid && i.dmemRen then
    { r with
      arid := 0#4, araddr := wordAlign i.dmemAddr, arlen := 0#8, arburst := 0b01#2,
      arprot := 0b000#3, arvalid := true, arsize := 2#3, state := .rAr }
  else if i.dmemValid && i.dmemWen then
    { r with
      awid := 0#4, awaddr := wordAlign i.dmemAddr, awlen := 0#8, awburst := 0b01#2,
      awprot := 0b000#3, awvalid := true, wdata := i.dmemWdata, wlast := true, wvalid := false,
      awsize := 2#3, wstrb := 0b1111#4, state := .wAw }
  else r

/-- `axi_if_dmem_master` after a clock edge. -/
def step : AxiDmem :=
  let r := { r with dmemReady := false }
  match r.state with
  | .idle => r.stepIdle i
  | .rAr =>
    if r.arvalid && i.arready then { r with arvalid := false, rready := true, state := .rR } else r
  | .rR =>
    if i.rvalid && r.rready then
      { r with dmemRdata := i.rdata, dmemReady := true, rready := false, state := .idle }
    else { r with rready := true }
  | .wAw =>
    if r.awvalid && i.awready then { r with awvalid := false, wvalid := true, state := .wW } else r
  | .wW =>
    if r.wvalid && i.wready then { r with wvalid := false, bready := true, state := .wB } else r
  | .wB =>
    if i.bvalid && r.bready then { r with dmemReady := true, bready := false, state := .idle }
    else { r with bready := true }

/-- `axi_if_dmem_master` from reset. -/
def machine : Machine AxiDmemIn AxiDmem := ⟨reset, step⟩

/-! ### What an edge does -/

variable {r i}

lemma step_of_idle (hs : r.state = .idle) :
    r.step i = { r with dmemReady := false }.stepIdle i := by
  simp [step, hs]

/-! What the idle bridge takes. -/

lemma step_of_no_req (hs : r.state = .idle) (hv : i.dmemValid = false) :
    r.step i = { r with
      dmemReady := false, awvalid := false, wvalid := false, bready := false, arvalid := false
      rready := false } := by
  simp [step, stepIdle, hs, hv]

lemma step_of_read (hs : r.state = .idle) (hv : i.dmemValid = true) (hr : i.dmemRen = true) :
    r.step i = { r with
      dmemReady := false, awvalid := false, wvalid := false, bready := false, rready := false
      arid := 0#4, araddr := wordAlign i.dmemAddr, arlen := 0#8, arburst := 0b01#2
      arprot := 0b000#3, arvalid := true, arsize := 2#3, state := .rAr } := by
  simp [step, stepIdle, hs, hv, hr]

lemma step_of_write (hs : r.state = .idle) (hv : i.dmemValid = true) (hr : i.dmemRen = false)
    (hw : i.dmemWen = true) :
    r.step i = { r with
      dmemReady := false, wvalid := false, bready := false, arvalid := false, rready := false
      awid := 0#4, awaddr := wordAlign i.dmemAddr, awlen := 0#8, awburst := 0b01#2
      awprot := 0b000#3, awvalid := true, wdata := i.dmemWdata, wlast := true, awsize := 2#3
      wstrb := 0b1111#4, state := .wAw } := by
  simp [step, stepIdle, hs, hv, hr, hw]

/-- An offer that is not taken leaves everything but the pulse as it is. -/
lemma step_of_offer (h : (r.state = .rAr ∧ i.arready = false) ∨
    (r.state = .wAw ∧ i.awready = false) ∨ (r.state = .wW ∧ i.wready = false)) :
    r.step i = { r with dmemReady := false } := by
  rcases h with ⟨hs, hr⟩ | ⟨hs, hr⟩ | ⟨hs, hr⟩ <;> simp [step, hs, hr]

/-! The offers that are taken. -/

lemma step_of_arready (hs : r.state = .rAr) (hv : r.arvalid = true) (hr : i.arready = true) :
    r.step i =
      { r with dmemReady := false, arvalid := false, rready := true, state := .rR } := by
  simp [step, hs, hv, hr]

lemma step_of_awready (hs : r.state = .wAw) (hv : r.awvalid = true) (hr : i.awready = true) :
    r.step i =
      { r with dmemReady := false, awvalid := false, wvalid := true, state := .wW } := by
  simp [step, hs, hv, hr]

lemma step_of_wready (hs : r.state = .wW) (hv : r.wvalid = true) (hr : i.wready = true) :
    r.step i =
      { r with dmemReady := false, wvalid := false, bready := true, state := .wB } := by
  simp [step, hs, hv, hr]

/-! The answers, awaited and taken. -/

lemma step_of_no_rvalid (hs : r.state = .rR) (hv : i.rvalid = false) :
    r.step i = { r with dmemReady := false, rready := true } := by
  simp [step, hs, hv]

lemma step_of_rvalid (hs : r.state = .rR) (hr : r.rready = true) (hv : i.rvalid = true) :
    r.step i =
      { r with dmemRdata := i.rdata, dmemReady := true, rready := false, state := .idle } := by
  simp [step, hs, hr, hv]

lemma step_of_no_bvalid (hs : r.state = .wB) (hv : i.bvalid = false) :
    r.step i = { r with dmemReady := false, bready := true } := by
  simp [step, hs, hv]

lemma step_of_bvalid (hs : r.state = .wB) (hr : r.bready = true) (hv : i.bvalid = true) :
    r.step i = { r with dmemReady := true, bready := false, state := .idle } := by
  simp [step, hs, hr, hv]

end AxiDmem

end RiscvSoc.Rtl
