import RiscvSoc.Rtl.CacheData
import RiscvSoc.Rtl.SocTopBram

/-!
# `soc_top_bram_dcache`

The core with `inst_mem`, and with `L1_Cache_DATA` before `data_mem`.
-/

namespace RiscvSoc.Rtl

open Sync

/-- The registers of `soc_top_bram_dcache`. -/
structure SocDcache where
  core : Core
  dcache : CacheData
  dmem : DataMem

namespace SocDcache

variable (image : BitVec 10 → BitVec 32) (s : SocDcache) (x : ExtIn)

/-- The data side. -/
def data : DataPath := ⟨s.dcache, s.dmem⟩

/-- What the core asks the cache for; the size is fixed to a word. -/
def req : DataReq where
  valid := s.core.dmemValid
  ren := s.core.dmemRen
  wen := s.core.dmemWen
  size := memSizeWord
  addr := s.core.dmemAddr
  wdata := s.core.dmemWdata

/-- The pins of the core. -/
def coreIn : CoreIn where
  stall := x.stall
  flush := x.flush
  exception := x.exception
  pcException := x.pcException
  interrupt := x.interrupt
  pcInterrupt := x.pcInterrupt
  imemRdata := instMem image s.core.imemAddr
  imemReady := true
  dmemRdata := s.dcache.dmemRdataReg
  dmemReady := s.dcache.dmemReadyReg

/-- `soc_top_bram_dcache` after a clock edge. -/
def step : SocDcache where
  core := s.core.step (s.coreIn image x)
  dcache := s.dcache.step (s.data.cacheIn s.req)
  dmem := s.dmem.step s.data.memIn

/-- `soc_top_bram_dcache` with the instruction image `image`, from reset over the data memory `d`
and the cache `c`. -/
def machine (c : CacheData) (d : DataMem) : Machine ExtIn SocDcache where
  init := ⟨Core.reset, c.reset, d.reset⟩
  next s x := s.step image x

/-- The state in cycle `n`, when no external pin is ever raised. -/
def quietRun (c : CacheData) (d : DataMem) (n : ℕ) : SocDcache :=
  (machine image c d).run (fun _ => .quiet) n

end SocDcache

end RiscvSoc.Rtl
