import RiscvSoc.Rtl.CoreTop
import RiscvSoc.Rtl.Memory

/-!
# `soc_top_bram`

The core with `inst_mem` and `data_mem`.
-/

namespace RiscvSoc.Rtl

open Sync

/-- The registers of `soc_top_bram`. -/
structure SocBram where
  core : Core
  dmem : DataMem

/-- The input pins of `soc_top_bram`. -/
structure ExtIn where
  stall : Bool
  flush : Bool
  exception : Bool
  pcException : BitVec 32
  interrupt : Bool
  pcInterrupt : BitVec 32

/-- `stall = flush = exception = interrupt = 0`. -/
def ExtIn.quiet : ExtIn := ⟨false, false, false, 0#32, false, 0#32⟩

namespace SocBram

variable (image : BitVec 10 → BitVec 32) (s : SocBram) (x : ExtIn)

/-- The pins of the core. -/
def coreIn : CoreIn where
  stall := x.stall
  flush := x.flush
  exception := x.exception
  pcException := x.pcException
  interrupt := x.interrupt
  pcInterrupt := x.pcInterrupt
  imemRdata := instMem image s.core.imemAddr
  imemReady := true
  dmemRdata := s.dmem.dataOut
  dmemReady := s.dmem.ready

/-- The wires `data_mem` is connected to; the core fixes the size to a word. -/
def dmemIn : DataMemIn where
  valid := s.core.dmemValid
  readEn := s.core.dmemRen
  writeEn := s.core.dmemWen
  size := memSizeWord
  address := s.core.dmemAddr
  dataIn := s.core.dmemWdata

/-- `soc_top_bram` after a clock edge. -/
def step : SocBram where
  core := s.core.step (s.coreIn image x)
  dmem := s.dmem.step s.dmemIn

/-- `soc_top_bram` with the instruction image `image`, from reset over the data memory `d`. -/
def machine (d : DataMem) : Machine ExtIn SocBram where
  init := ⟨Core.reset, d.reset⟩
  next s x := s.step image x

/-- The state in cycle `n`, when no external pin is ever raised. -/
def quietRun (d : DataMem) (n : ℕ) : SocBram := (machine image d).run (fun _ => .quiet) n

end SocBram

end RiscvSoc.Rtl
