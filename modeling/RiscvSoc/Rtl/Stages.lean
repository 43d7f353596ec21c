import RiscvSoc.Rtl.Alu

/-!
# The combinational stages: `ID_stage`, `EX_stage`, `WB_stage`

Each stage is the record of its inputs, or the one input it has, and a function a wire.
-/

namespace RiscvSoc.Rtl

/-- The word every bubble carries: `addi x0, x0, 0`. -/
def nop : BitVec 32 := 0x00000013#32

/-! ### `ID_stage` -/

/-- The outputs of `ID_stage`. -/
structure IdOut where
  fun7 : BitVec 7
  rs2 : BitVec 5
  rs1 : BitVec 5
  fuc3 : BitVec 3
  opcode : BitVec 7
  rd : BitVec 5
  immOut : BitVec 32
  useRs1 : Bool
  useRs2 : Bool
  isBranch : Bool
  isJump : Bool
  isJalr : Bool
  isLoad : Bool
  isStore : Bool
  regWriteEn : Bool
  deriving DecidableEq

def opcodeRType : BitVec 7 := 0b0110011#7
def opcodeIType : BitVec 7 := 0b0010011#7
def opcodeLoad : BitVec 7 := 0b0000011#7
def opcodeStore : BitVec 7 := 0b0100011#7
def opcodeBranch : BitVec 7 := 0b1100011#7
def opcodeJalr : BitVec 7 := 0b1100111#7
def opcodeJal : BitVec 7 := 0b1101111#7
def opcodeLui : BitVec 7 := 0b0110111#7
def opcodeAuipc : BitVec 7 := 0b0010111#7

/-- `imm_reg`: the immediate of the format the opcode has. -/
def immGen (w : BitVec 32) : BitVec 32 :=
  let opcode := w.extractLsb' 0 7
  if opcode == opcodeStore then (w.extractLsb' 25 7 ++ w.extractLsb' 7 5).signExtend 32
  else if opcode == opcodeBranch then
    (w.extractLsb' 31 1 ++ w.extractLsb' 7 1 ++ w.extractLsb' 25 6 ++ w.extractLsb' 8 4 ++
      0#1).signExtend 32
  else if opcode == opcodeJal then
    (w.extractLsb' 31 1 ++ w.extractLsb' 12 8 ++ w.extractLsb' 20 1 ++ w.extractLsb' 21 10 ++
      0#1).signExtend 32
  else if opcode == opcodeLui || opcode == opcodeAuipc then w.extractLsb' 12 20 ++ 0#12
  else (w.extractLsb' 20 12).signExtend 32

/-- `ID_stage`. -/
def idStage (w : BitVec 32) : IdOut :=
  let opcode := w.extractLsb' 0 7
  let isR := opcode == opcodeRType
  let isI := opcode == opcodeIType
  let isLui := opcode == opcodeLui
  let isAui := opcode == opcodeAuipc
  let isLoad := opcode == opcodeLoad
  let isStore := opcode == opcodeStore
  let isBranch := opcode == opcodeBranch
  let isJalr := opcode == opcodeJalr
  let isJump := opcode == opcodeJal
  { fun7 := w.extractLsb' 25 7
    rs2 := w.extractLsb' 20 5
    rs1 := w.extractLsb' 15 5
    fuc3 := w.extractLsb' 12 3
    opcode := opcode
    rd := w.extractLsb' 7 5
    immOut := immGen w
    useRs1 := isR || isI || isLoad || isStore || isBranch || isJalr
    useRs2 := isR || isStore || isBranch
    isBranch := isBranch
    isJump := isJump
    isJalr := isJalr
    isLoad := isLoad
    isStore := isStore
    regWriteEn := isR || isI || isLoad || isJalr || isJump || isLui || isAui }

/-! ### `EX_stage` -/

/-- The inputs of `EX_stage`. -/
structure ExIn where
  exInstrValid : Bool
  exPc : BitVec 32
  exPcPlus4 : BitVec 32
  exFun7 : BitVec 7
  exRs1 : BitVec 5
  exRs2 : BitVec 5
  exFuc3 : BitVec 3
  exOpcode : BitVec 7
  exImm : BitVec 32
  exIsBranch : Bool
  exIsJalr : Bool
  exIsLoad : Bool
  exIsStore : Bool
  rs1Data : BitVec 32
  rs2Data : BitVec 32
  forwardRdIn : BitVec 5
  forwardRdDataIn : BitVec 32
  forwardLoadLockIn : Bool
  forwardStoreLockIn : Bool
  forwardRdRegLoadIn : BitVec 5
  forwardRdDataRegLoadIn : BitVec 32

namespace ExIn

variable (x : ExIn)

/-- `mem_req_block`: the store lock holds a store back. -/
def memReqBlock : Bool := x.forwardStoreLockIn && x.exIsStore
def instrValidFinal : Bool := x.exInstrValid && !x.memReqBlock

/-- The load lock forwards the register `rs`. -/
def lockHit (rs : BitVec 5) : Bool :=
  x.forwardLoadLockIn && x.forwardRdRegLoadIn != 0#5 && x.forwardRdRegLoadIn == rs

/-- The ALU forwarding register holds the register `rs`. -/
def aluHit (rs : BitVec 5) : Bool := x.forwardRdIn != 0#5 && x.forwardRdIn == rs

/-- The value an operand takes: the load lock, then the ALU register, then the file. -/
def dataFinal (rs : BitVec 5) (rfData : BitVec 32) : BitVec 32 :=
  if x.lockHit rs then x.forwardRdDataRegLoadIn
  else if x.aluHit rs then x.forwardRdDataIn
  else rfData

def rs1DataFinal : BitVec 32 := x.dataFinal x.exRs1 x.rs1Data
def rs2DataFinal : BitVec 32 := x.dataFinal x.exRs2 x.rs2Data

def branchAluOp : BitVec 5 :=
  if x.exFuc3 == 0b000#3 then 0b10000#5
  else if x.exFuc3 == 0b001#3 then 0b10001#5
  else if x.exFuc3 == 0b100#3 then 0b10110#5
  else if x.exFuc3 == 0b101#3 then 0b10111#5
  else if x.exFuc3 == 0b110#3 then 0b10010#5
  else if x.exFuc3 == 0b111#3 then 0b10011#5
  else 0b00000#5

/-- `ex_fun7 == 7'b0000001`: the M extension. -/
def isM : Bool := x.exFun7 == 0b0000001#7

def aluOp : BitVec 5 :=
  if x.exIsBranch then x.branchAluOp
  else if x.exOpcode == opcodeRType then
    if x.exFuc3 == 0b000#3 then
      if x.exFun7 == 0b0100000#7 then 0b00001#5 else if x.isM then 0b00010#5 else 0b00000#5
    else if x.exFuc3 == 0b001#3 then if x.isM then 0b00011#5 else 0b01000#5
    else if x.exFuc3 == 0b010#3 then if x.isM then 0b00111#5 else 0b01100#5
    else if x.exFuc3 == 0b011#3 then if x.isM then 0b01011#5 else 0b01101#5
    else if x.exFuc3 == 0b100#3 then if x.isM then 0b01110#5 else 0b00110#5
    else if x.exFuc3 == 0b101#3 then
      if x.isM then 0b01111#5 else if x.exFun7.getLsbD 5 then 0b01010#5 else 0b01001#5
    else if x.exFuc3 == 0b110#3 then if x.isM then 0b10001#5 else 0b00101#5
    else if x.isM then 0b10100#5 else 0b00100#5
  else if x.exOpcode == opcodeIType then
    if x.exFuc3 == 0b000#3 then 0b00000#5
    else if x.exFuc3 == 0b010#3 then 0b01100#5
    else if x.exFuc3 == 0b011#3 then 0b01101#5
    else if x.exFuc3 == 0b100#3 then 0b00110#5
    else if x.exFuc3 == 0b110#3 then 0b00101#5
    else if x.exFuc3 == 0b111#3 then 0b00100#5
    else if x.exFuc3 == 0b001#3 then 0b01000#5
    else if x.exImm.getLsbD 10 then 0b01010#5 else 0b01001#5
  else 0b00000#5

def alu : Alu where
  a := x.rs1DataFinal
  b := if x.exOpcode == opcodeRType || x.exIsBranch then x.rs2DataFinal else x.exImm
  op := x.aluOp

def pcBranch : BitVec 32 := x.exPc + x.exImm
def pcJalr : BitVec 32 := (x.rs1DataFinal + x.exImm) &&& ~~~1#32
def branchTaken : Bool := x.instrValidFinal && x.exIsBranch && x.alu.condition
def jalr : Bool := x.instrValidFinal && x.exIsJalr

def memAddrOut : BitVec 32 := x.rs1DataFinal + x.exImm
def memWdata : BitVec 32 := x.rs2DataFinal
def memReadEn : Bool := x.instrValidFinal && x.exIsLoad
def memWriteEn : Bool := x.instrValidFinal && x.exIsStore

def exResult : BitVec 32 :=
  if !x.instrValidFinal then 0#32
  else if x.exOpcode == opcodeLui then x.exImm
  else if x.exOpcode == opcodeAuipc then x.exPc + x.exImm
  else if x.exOpcode == opcodeJalr then x.exPcPlus4
  else x.alu.result

end ExIn

/-! ### `WB_stage` -/

/-- The inputs of `WB_stage`. -/
structure WbIn where
  wbRegWriteEnIn : Bool
  wbIsLoadIn : Bool
  wbRdInEx : BitVec 5
  wbRdInMem : BitVec 5
  wbAluResultIn : BitVec 32
  wbLoadDataIn : BitVec 32

namespace WbIn

variable (x : WbIn)

def wbWeOut : Bool := if x.wbIsLoadIn then true else x.wbRegWriteEnIn
def wbWaddrOut : BitVec 5 := if x.wbIsLoadIn then x.wbRdInMem else x.wbRdInEx
def wbWdataOut : BitVec 32 := if x.wbIsLoadIn then x.wbLoadDataIn else x.wbAluResultIn

end WbIn

end RiscvSoc.Rtl
