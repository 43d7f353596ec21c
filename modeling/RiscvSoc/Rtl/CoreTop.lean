import RiscvSoc.Sync.Machine
import RiscvSoc.Rtl.PipeRegs
import RiscvSoc.Rtl.RegisterEx
import RiscvSoc.Rtl.RegFile

/-!
# `core_top`

The registers of the core, its wires in a cycle as functions of the registers and of what the
pins read, and the registers after the edge.
-/

namespace RiscvSoc.Rtl

open Sync

/-- The registers of `core_top`, module by module. -/
structure Core where
  pcReg : BitVec 32
  ifId : IfIdReg
  idEx : IdExReg
  regfile : RegFileBram
  registerEx : RegisterEx
  exWb : ExWbReg
  exMem : ExMemReg
  memWb : MemWbReg

/-- The input pins of `core_top`. -/
structure CoreIn where
  stall : Bool
  flush : Bool
  exception : Bool
  pcException : BitVec 32
  interrupt : Bool
  pcInterrupt : BitVec 32
  imemRdata : BitVec 32
  imemReady : Bool
  dmemRdata : BitVec 32
  dmemReady : Bool

namespace Core

def reset : Core where
  pcReg := pcReset
  ifId := IfIdReg.bubble
  idEx := IdExReg.reset
  regfile := RegFileBram.init
  registerEx := RegisterEx.reset
  exWb := ExWbReg.reset
  exMem := ExMemReg.reset
  memWb := MemWbReg.reset

variable (s : Core) (i : CoreIn)

/-! ### The data bus, driven by EX/MEM -/

def dmemWen : Bool := s.exMem.memWriteEn
def dmemRen : Bool := s.exMem.memReadEn
def dmemValid : Bool := s.exMem.memWriteEn || s.exMem.memReadEn
def dmemAddr : BitVec 32 := s.exMem.memAddr
def dmemWdata : BitVec 32 := s.exMem.memWdata

/-- `mem_load_data_stub`: the word MEM/WB is offered. -/
def memLoadDataStub : BitVec 32 := if s.exMem.memReadEn then i.dmemRdata else 0#32

/-! ### ID -/

def id : IdOut := idStage s.ifId.instrOut

/-- `jump_if`: a valid JAL in ID. -/
def jumpIf : Bool := s.id.isJump && s.ifId.instrValidOut
def pcJumpIf : BitVec 32 := s.ifId.idPc + s.id.immOut
/-- `jal_link_we`: the second write port of the register file. -/
def jalLinkWe : Bool := s.jumpIf && s.id.rd != 0#5

/-! ### EX -/

/-- The wires `EX_stage` is connected to. -/
def exIn : ExIn where
  exInstrValid := s.idEx.exInstrValid
  exPc := s.idEx.exPc
  exPcPlus4 := s.idEx.exPcPlus4
  exFun7 := s.idEx.exFun7
  exRs1 := s.idEx.exRs1
  exRs2 := s.idEx.exRs2
  exFuc3 := s.idEx.exFuc3
  exOpcode := s.idEx.exOpcode
  exImm := s.idEx.exImm
  exIsBranch := s.idEx.exIsBranch
  exIsJalr := s.idEx.exIsJalr
  exIsLoad := s.idEx.exIsLoad
  exIsStore := s.idEx.exIsStore
  rs1Data := s.regfile.rdata1
  rs2Data := s.regfile.rdata2
  forwardRdIn := s.registerEx.rdReg
  forwardRdDataIn := s.registerEx.rdDataReg
  forwardLoadLockIn := s.registerEx.loadLockOut
  forwardStoreLockIn := s.registerEx.slock
  forwardRdRegLoadIn := s.registerEx.rdRegLoadOut s.idEx.exIsLoad s.idEx.exRd
  forwardRdDataRegLoadIn := s.registerEx.rdDataLoadOut i.dmemReady i.dmemRdata

/-! ### The hazards -/

/-- The wires `hazard_ctrl` is connected to. -/
def hazard : HazardIn where
  stall := i.stall
  flush := i.flush
  jumpIf := s.jumpIf
  exBranchTaken := (s.exIn i).branchTaken
  exJalr := (s.exIn i).jalr
  rdLoadUse := s.registerEx.rdRegLoadOut s.idEx.exIsLoad s.idEx.exRd
  idRs1 := s.id.rs1
  idRs2 := s.id.rs2
  idUseRs1 := s.id.useRs1
  idUseRs2 := s.id.useRs2
  loadPendingIn := s.registerEx.loadPendingOut s.idEx.exIsLoad
  memStallReq := s.registerEx.memStallReq s.idEx.exIsStore
  loadSkipStale := s.registerEx.loadSkipStale
  dmemValid := s.dmemValid
  dmemReady := i.dmemReady
  imemReady := i.imemReady

def loadUseHazard : Bool := (s.hazard i).loadUseHazard
def branchHazardEx : Bool := (s.hazard i).branchHazardEx
def memStall : Bool := (s.hazard i).memStall
def stallFront : Bool := (s.hazard i).stallFront
def stallBack : Bool := (s.hazard i).stallBack
def flushIfid : Bool := (s.hazard i).flushIfid
def flushIdex : Bool := (s.hazard i).flushIdex

/-! ### IF -/

/-- The wires `PC_unit` is connected to. -/
def pcIn : PcIn where
  stall := s.stallFront i
  exception := i.exception
  pcException := i.pcException
  interrupt := i.interrupt
  pcInterrupt := i.pcInterrupt
  jalr := (s.exIn i).jalr
  pcJalr := (s.exIn i).pcJalr
  jump := s.jumpIf
  pcJump := s.pcJumpIf
  branch := (s.exIn i).branchTaken
  pcBranch := (s.exIn i).pcBranch
  predict := false
  pcPredict := 0#32

def pcNext : BitVec 32 := (s.pcIn i).pcNext s.pcReg

/-- `imem_addr`. -/
def imemAddr : BitVec 32 := s.pcReg

/-- The wires that decide what `IF_stage` hands on. -/
def ifIn : IfIn where
  stallPc := s.stallFront i
  flush := s.flushIfid i
  imemRdata := i.imemRdata
  imemReady := i.imemReady

/-- What `IF_stage` offers to IF/ID. -/
def fetched : IfIdReg where
  idPc := s.pcReg
  idPcPlus4 := s.pcReg + 4#32
  instrOut := (s.ifIn i).instrOut
  instrValidOut := (s.ifIn i).instrValidOut

/-! ### Write-back -/

/-- The wires `WB_stage` is connected to. -/
def wbIn : WbIn where
  wbRegWriteEnIn := s.exWb.wbRegWriteEn
  wbIsLoadIn := s.memWb.wbIsLoad
  wbRdInEx := s.exWb.wbRd
  wbRdInMem := s.memWb.wbRd
  wbAluResultIn := s.exWb.wbResult
  wbLoadDataIn := s.memWb.wbLoadData

/-- The wires `reg_file_bram` is connected to. -/
def regFileIn : RegFileIn where
  we := s.wbIn.wbWeOut
  waddr := s.wbIn.wbWaddrOut
  wdata := s.wbIn.wbWdataOut
  we2 := s.jalLinkWe
  waddr2 := s.id.rd
  wdata2 := s.ifId.idPcPlus4
  raddr1 := s.id.rs1
  raddr2 := s.id.rs2

/-- The wires `register_EX` is connected to. -/
def registerExIn : RegisterExIn where
  stall := s.stallFront i
  flush := i.flush || s.branchHazardEx i
  loadEnable := s.idEx.exIsLoad
  storeEnable := s.idEx.exIsStore
  loadSuccess := i.dmemReady && s.exMem.memReadEn
  dmemReady := i.dmemReady
  rdIn := s.idEx.exRd
  rdExResultIn := (s.exIn i).exResult
  rdMemRdataIn := i.dmemRdata
  regWriteEn := s.idEx.exRegWriteEn

/-! ### The clock edge -/

/-- What EX offers to EX/WB. -/
def exWbIn : ExWbReg := ⟨(s.exIn i).exResult, s.idEx.exRd, s.idEx.exRegWriteEn⟩

/-- What EX offers to EX/MEM. -/
def exMemIn : ExMemReg where
  memReadEn := (s.exIn i).memReadEn
  memWriteEn := (s.exIn i).memWriteEn
  regWriteEn := s.idEx.exRegWriteEn
  rd := s.idEx.exRd
  memAddr := (s.exIn i).memAddrOut
  memWdata := (s.exIn i).memWdata

/-- What EX/MEM offers to MEM/WB. -/
def memWbIn : MemWbReg := ⟨s.exMem.memReadEn, s.exMem.rd, s.memLoadDataStub i⟩

/-- `core_top` after a clock edge. -/
def step : Core where
  pcReg := s.pcNext i
  ifId := s.ifId.step (s.stallFront i) (s.flushIfid i) (s.fetched i)
  idEx := s.idEx.step (s.stallBack i) (s.flushIdex i) (IdExReg.ofId s.ifId s.id)
  regfile := s.regfile.step s.regFileIn
  registerEx := s.registerEx.step (s.registerExIn i)
  exWb := s.exWb.step (s.stallBack i) i.flush false (s.exWbIn i)
  exMem := s.exMem.step (s.stallBack i) i.flush (s.exMemIn i)
  memWb := s.memWb.step (s.stallBack i) i.flush (s.memWbIn i)

end Core

/-! ### The core over a program -/

/-- What a cycle brings to a core that is neither flushed, nor interrupted, nor excepted: the
external stall and what the two buses do.  `imemBus` is the word on the instruction bus when it
is not ready. -/
structure BusIn where
  stall : Bool
  imemReady : Bool
  imemBus : BitVec 32
  dmemReady : Bool
  dmemRdata : BitVec 32

/-- The pins of a core over the program `M`, a word for every fetch address. -/
def BusIn.pins (b : BusIn) (M : BitVec 32 → BitVec 32) (s : Core) : CoreIn where
  stall := b.stall
  flush := false
  exception := false
  pcException := 0#32
  interrupt := false
  pcInterrupt := 0#32
  imemRdata := if b.imemReady then M s.imemAddr else b.imemBus
  imemReady := b.imemReady
  dmemRdata := b.dmemRdata
  dmemReady := b.dmemReady

/-- The core over the program `M`. -/
def coreMachine (M : BitVec 32 → BitVec 32) : Machine BusIn Core where
  init := Core.reset
  next s b := s.step (b.pins M s)

end RiscvSoc.Rtl
