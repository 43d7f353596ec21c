import RiscvSoc.Rtl.Stages

/-!
# The registers between the stages

`PC_unit`, `IF_ID_reg`, `ID_EX_reg`, `EX_WB_reg`, `EX_MEM_reg` and `MEM_WB_reg`: what each holds
after reset and after a clock edge.  In the three with both, `flush` comes before `stall`.
-/

namespace RiscvSoc.Rtl

/-! ### `PC_unit` -/

/-- The inputs of `PC_unit`; `predict` is tied to zero where `IF_stage` instantiates it. -/
structure PcIn where
  stall : Bool
  exception : Bool
  pcException : BitVec 32
  interrupt : Bool
  pcInterrupt : BitVec 32
  jalr : Bool
  pcJalr : BitVec 32
  jump : Bool
  pcJump : BitVec 32
  branch : Bool
  pcBranch : BitVec 32
  predict : Bool
  pcPredict : BitVec 32

def pcReset : BitVec 32 := 0#32

/-- `pc_next`: the priority chain of the redirects. -/
def PcIn.pcNext (x : PcIn) (pcReg : BitVec 32) : BitVec 32 :=
  if x.exception then x.pcException
  else if x.interrupt then x.pcInterrupt
  else if x.jalr then x.pcJalr
  else if x.jump then x.pcJump
  else if x.branch then x.pcBranch
  else if x.predict then x.pcPredict
  else if x.stall then pcReg
  else pcReg + 4#32

/-! ### `IF_stage` -/

/-- The inputs of `IF_stage` that decide what it hands to IF/ID. -/
structure IfIn where
  stallPc : Bool
  flush : Bool
  imemRdata : BitVec 32
  imemReady : Bool

namespace IfIn

variable (x : IfIn)

def instrInvalid : Bool := x.flush || x.stallPc
def instrOut : BitVec 32 := if x.instrInvalid then nop else x.imemRdata
def instrValidOut : Bool := !x.instrInvalid && x.imemReady

end IfIn

/-! ### `IF_ID_reg` -/

structure IfIdReg where
  idPc : BitVec 32
  idPcPlus4 : BitVec 32
  instrOut : BitVec 32
  instrValidOut : Bool
  deriving DecidableEq

/-- What `IF_ID_reg` holds after reset and after a flush. -/
def IfIdReg.bubble : IfIdReg := ⟨0#32, 4#32, nop, false⟩

def IfIdReg.step (r : IfIdReg) (stall flush : Bool) (d : IfIdReg) : IfIdReg :=
  if flush then bubble else if stall then r else d

/-! ### `ID_EX_reg` -/

structure IdExReg where
  exPc : BitVec 32
  exPcPlus4 : BitVec 32
  exInstr : BitVec 32
  exInstrValid : Bool
  exFun7 : BitVec 7
  exRs1 : BitVec 5
  exRs2 : BitVec 5
  exFuc3 : BitVec 3
  exOpcode : BitVec 7
  exRd : BitVec 5
  exImm : BitVec 32
  exRegWriteEn : Bool
  exUseRs1 : Bool
  exUseRs2 : Bool
  exIsBranch : Bool
  exIsJalr : Bool
  exIsLoad : Bool
  exIsStore : Bool
  deriving DecidableEq

/-- What a flush leaves; reset differs from it in `exPcPlus4` only. -/
def IdExReg.bubble : IdExReg where
  exPc := 0#32
  exPcPlus4 := 0#32
  exInstr := nop
  exInstrValid := false
  exFun7 := 0#7
  exRs1 := 0#5
  exRs2 := 0#5
  exFuc3 := 0#3
  exOpcode := 0#7
  exRd := 0#5
  exImm := 0#32
  exRegWriteEn := false
  exUseRs1 := false
  exUseRs2 := false
  exIsBranch := false
  exIsJalr := false
  exIsLoad := false
  exIsStore := false

def IdExReg.reset : IdExReg := { IdExReg.bubble with exPcPlus4 := 4#32 }

/-- The entry for the instruction in ID: its context from IF/ID and its fields from `ID_stage`. -/
def IdExReg.ofId (f : IfIdReg) (d : IdOut) : IdExReg where
  exPc := f.idPc
  exPcPlus4 := f.idPcPlus4
  exInstr := f.instrOut
  exInstrValid := f.instrValidOut
  exFun7 := d.fun7
  exRs1 := d.rs1
  exRs2 := d.rs2
  exFuc3 := d.fuc3
  exOpcode := d.opcode
  exRd := d.rd
  exImm := d.immOut
  exRegWriteEn := d.regWriteEn
  exUseRs1 := d.useRs1
  exUseRs2 := d.useRs2
  exIsBranch := d.isBranch
  exIsJalr := d.isJalr
  exIsLoad := d.isLoad
  exIsStore := d.isStore

def IdExReg.step (r : IdExReg) (stall flush : Bool) (d : IdExReg) : IdExReg :=
  if flush then bubble else if stall then r else d

/-! ### `EX_WB_reg` -/

structure ExWbReg where
  wbResult : BitVec 32
  wbRd : BitVec 5
  wbRegWriteEn : Bool
  deriving DecidableEq

def ExWbReg.reset : ExWbReg := ⟨0#32, 0#5, false⟩

/-- `stall_final` is `stall & load_occupation`. -/
def ExWbReg.step (r : ExWbReg) (stall flush loadOccupation : Bool) (d : ExWbReg) : ExWbReg :=
  if flush then reset else if stall && loadOccupation then r else d

/-! ### `EX_MEM_reg` -/

structure ExMemReg where
  memReadEn : Bool
  memWriteEn : Bool
  regWriteEn : Bool
  rd : BitVec 5
  memAddr : BitVec 32
  memWdata : BitVec 32
  deriving DecidableEq

def ExMemReg.reset : ExMemReg := ⟨false, false, false, 0#5, 0#32, 0#32⟩

def ExMemReg.step (r : ExMemReg) (stall flush : Bool) (d : ExMemReg) : ExMemReg :=
  if flush then reset else if stall then r else d

/-! ### `MEM_WB_reg` -/

structure MemWbReg where
  wbIsLoad : Bool
  wbRd : BitVec 5
  wbLoadData : BitVec 32
  deriving DecidableEq

def MemWbReg.reset : MemWbReg := ⟨false, 0#5, 0#32⟩

def MemWbReg.step (r : MemWbReg) (stall flush : Bool) (d : MemWbReg) : MemWbReg :=
  if flush then reset else if stall then r else d

end RiscvSoc.Rtl
