import RiscvSoc.Rtl.CacheInst
import RiscvSoc.Rtl.SocTopBram

/-!
# `soc_top_bram_icache`

The core with `L1_Cache_INST` before `inst_mem`, and `data_mem`.
-/

namespace RiscvSoc.Rtl

open Sync

/-- The registers of `soc_top_bram_icache`. -/
structure SocIcache where
  core : Core
  icache : CacheInst
  dmem : DataMem

namespace SocIcache

variable (image : BitVec 10 → BitVec 32) (s : SocIcache) (x : ExtIn)

/-- The wires `L1_Cache_INST` is connected to: IF always asks, and `inst_mem` always answers. -/
def icacheIn : CacheInstIn where
  imemAddr := s.core.imemAddr
  imemReq := true
  memRdata := instMem image s.icache.memAddr
  memReady := true

/-- The pins of the core. -/
def coreIn : CoreIn where
  stall := x.stall
  flush := x.flush
  exception := x.exception
  pcException := x.pcException
  interrupt := x.interrupt
  pcInterrupt := x.pcInterrupt
  imemRdata := s.icache.imemRdata (s.icacheIn image)
  imemReady := s.icache.imemReady (s.icacheIn image)
  dmemRdata := s.dmem.dataOut
  dmemReady := s.dmem.ready

/-- The core with `data_mem`, without the cache. -/
def bram : SocBram := ⟨s.core, s.dmem⟩

/-- `soc_top_bram_icache` after a clock edge. -/
def step : SocIcache where
  core := s.core.step (s.coreIn image x)
  icache := s.icache.step (s.icacheIn image)
  dmem := s.dmem.step s.bram.dmemIn

/-- `soc_top_bram_icache` with the instruction image `image`, from reset over the data memory `d`
and the cache `c`. -/
def machine (c : CacheInst) (d : DataMem) : Machine ExtIn SocIcache where
  init := ⟨Core.reset, c.reset, d.reset⟩
  next s x := s.step image x

/-- The state in cycle `n`, when no external pin is ever raised. -/
def quietRun (c : CacheInst) (d : DataMem) (n : ℕ) : SocIcache :=
  (machine image c d).run (fun _ => .quiet) n

end SocIcache

end RiscvSoc.Rtl
