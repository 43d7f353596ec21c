import RiscvSoc.Rtl.AxiDmem
import RiscvSoc.Rtl.AxiImem
import RiscvSoc.Rtl.CacheInst
import RiscvSoc.Rtl.SocTopBram

/-!
# `soc_top`

The core with `L1_Cache_INST` and the two AXI bridges.
-/

namespace RiscvSoc.Rtl

open Sync

/-- The registers of `soc_top`. -/
structure SocTop where
  core : Core
  icache : CacheInst
  axiImem : AxiImem
  axiDmem : AxiDmem

/-- What the slaves drive on the two AXI ports. -/
structure SlaveIn where
  imemArready : Bool
  imemRdata : BitVec 32
  imemRvalid : Bool
  dmemAwready : Bool
  dmemWready : Bool
  dmemBvalid : Bool
  dmemArready : Bool
  dmemRdata : BitVec 32
  dmemRvalid : Bool

namespace SocTop

variable (s : SocTop) (x : ExtIn) (a : SlaveIn)

/-- The wires of the cache; IF asks in every cycle. -/
def icacheIn : CacheInstIn where
  imemAddr := s.core.imemAddr
  imemReq := true
  memRdata := s.axiImem.memRdata
  memReady := s.axiImem.memReady

/-- The pins of the core. -/
def coreIn : CoreIn where
  stall := x.stall
  flush := x.flush
  exception := x.exception
  pcException := x.pcException
  interrupt := x.interrupt
  pcInterrupt := x.pcInterrupt
  imemRdata := s.icache.imemRdata s.icacheIn
  imemReady := s.icache.imemReady s.icacheIn
  dmemRdata := s.axiDmem.dmemRdata
  dmemReady := s.axiDmem.dmemReady

def axiImemIn : AxiImemIn where
  memReq := s.icache.memReq
  memAddr := s.icache.memAddr
  arready := a.imemArready
  rdata := a.imemRdata
  rvalid := a.imemRvalid

def axiDmemIn : AxiDmemIn where
  dmemValid := s.core.dmemValid
  dmemRen := s.core.dmemRen
  dmemWen := s.core.dmemWen
  dmemAddr := s.core.dmemAddr
  dmemWdata := s.core.dmemWdata
  awready := a.dmemAwready
  wready := a.dmemWready
  bvalid := a.dmemBvalid
  arready := a.dmemArready
  rdata := a.dmemRdata
  rvalid := a.dmemRvalid

/-- `soc_top` after a clock edge. -/
def step : SocTop where
  core := s.core.step (s.coreIn x)
  icache := s.icache.step s.icacheIn
  axiImem := s.axiImem.step (s.axiImemIn a)
  axiDmem := s.axiDmem.step (s.axiDmemIn a)

/-- `soc_top` from reset with no external pin ever raised, whatever the arrays of the cache
hold. -/
def machine (c : CacheInst) : Machine SlaveIn SocTop where
  init := ⟨Core.reset, c.reset, AxiImem.reset, AxiDmem.reset⟩
  next s a := s.step .quiet a

end SocTop

end RiscvSoc.Rtl
