import RiscvSoc.Exec.ExecSound
import RiscvSoc.Pipeline.MemFreeRefines
import RiscvSoc.Pipeline.Redirect
import RiscvSoc.Pipeline.Issue
import RiscvSoc.Pipeline.Hold
import RiscvSoc.Pipeline.LoadWord
import RiscvSoc.Pipeline.Commits
import RiscvSoc.Pipeline.LoadUse
import RiscvSoc.Pipeline.Link
import RiscvSoc.Bus.DmemBridge
import RiscvSoc.Bus.Refill
import RiscvSoc.Bus.InstCache
import RiscvSoc.Pipeline.Lockstep
import RiscvSoc.Pipeline.StoreLock
import RiscvSoc.Pipeline.WritePorts
import RiscvSoc.Rtl.SocTop
import RiscvSoc.Bus.Completion
import RiscvSoc.Rtl.CacheData
import RiscvSoc.Bus.DataCache
import RiscvSoc.Bus.CacheAnswers
import RiscvSoc.Bus.CacheStores
import RiscvSoc.Bus.CacheLines
import RiscvSoc.Bus.CacheLoads
import RiscvSoc.Isa.ByteMem
import RiscvSoc.Pipeline.NopRun
import RiscvSoc.Pipeline.SubWord
import RiscvSoc.Pipeline.ReadPorts
import RiscvSoc.Pipeline.Bubbles
import RiscvSoc.Bus.AxiChannels
import RiscvSoc.Bus.WriteData
import RiscvSoc.Bus.MemBytes
import RiscvSoc.Bus.CacheBytes
import RiscvSoc.Bus.Directories
import RiscvSoc.Bus.LateLines
import RiscvSoc.Bus.DataPort
import RiscvSoc.Bus.Replacement
import RiscvSoc.Pipeline.BramProgress
import RiscvSoc.Pipeline.DcacheProgress
import RiscvSoc.Pipeline.Traps
import RiscvSoc.Pipeline.IcacheRefines
import RiscvSoc.Pipeline.DcacheRefines
import RiscvSoc.Bus.TopMemory
