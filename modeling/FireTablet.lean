import FireTablet.Acenna.Kmod
import FireTablet.Acenna.Proof.Accounting
import FireTablet.Acenna.Proof.ArgChecks
import FireTablet.Acenna.Proof.Fault
import FireTablet.Acenna.Proof.KmodFacts
import FireTablet.Adf.Cli
import FireTablet.Adf.Load
import FireTablet.Adf.Log
import FireTablet.Adf.LogCommon
import FireTablet.Adf.Proof.CliSend
import FireTablet.Adf.Proof.CliTokens
import FireTablet.Adf.Proof.LoadCheck
import FireTablet.Adf.Proof.LoadFail
import FireTablet.Adf.Proof.LoadReload
import FireTablet.Adf.Proof.LoadSafe
import FireTablet.Adf.Proof.LogChunks
import FireTablet.Adf.Proof.LogClear
import FireTablet.Adf.Proof.LogHistory
import FireTablet.Adf.Proof.PrintLog
import FireTablet.Adf.Proof.RingbufDrop
import FireTablet.Adf.Proof.RingbufFacts
import FireTablet.Adf.Proof.RingbufFifo
import FireTablet.Adf.Proof.RingbufReserve
import FireTablet.Adf.Ringbuf
import FireTablet.Aee.Hangdet
import FireTablet.Aee.Proof.HangdetRounds
import FireTablet.Aee.Proof.QueueRuns
import FireTablet.Aee.Proof.ReplyLogs
import FireTablet.Aee.Queues
import FireTablet.Aee.Reply
import FireTablet.AmazonLogger.Logger
import FireTablet.AmazonLogger.Proof.CreateLog
import FireTablet.AmazonLogger.Proof.ReadKept
import FireTablet.AmazonLogger.Proof.RoundTrip
import FireTablet.AmazonLogger.Proof.VitalsBounds
import FireTablet.AmazonLogger.Vitals
import FireTablet.Battery.Algo
import FireTablet.Battery.Coulomb
import FireTablet.Battery.Cycle
import FireTablet.Battery.Daemon
import FireTablet.Battery.EcCommand
import FireTablet.Battery.Profile
import FireTablet.Battery.ProfileDts
import FireTablet.Battery.Proof.CoulombKept
import FireTablet.Battery.Proof.CycleAccount
import FireTablet.Battery.Proof.DaemonReplies
import FireTablet.Battery.Proof.DaemonSafe
import FireTablet.Battery.Proof.EcRuns
import FireTablet.Battery.Proof.ProfileByTemp
import FireTablet.Battery.Proof.ProfileParse
import FireTablet.Battery.Proof.ProfileRows
import FireTablet.Battery.Proof.ShutdownRuns
import FireTablet.Battery.Proof.TableLookup
import FireTablet.Battery.Proof.ThermistorAgree
import FireTablet.Battery.Proof.ThermistorCurrent
import FireTablet.Battery.Proof.UiSoc
import FireTablet.Battery.Proof.VbootCapacity
import FireTablet.Battery.Proof.VbootSearch
import FireTablet.Battery.Shutdown
import FireTablet.Battery.Thermistor
import FireTablet.Battery.Vboot
import FireTablet.Btif.Bbs
import FireTablet.Btif.Dma
import FireTablet.Btif.Power
import FireTablet.Btif.Proof.BbsFacts
import FireTablet.Btif.Proof.BbsFifo
import FireTablet.Btif.Proof.DmaRx
import FireTablet.Btif.Proof.DmaTx
import FireTablet.Btif.Proof.EventSearch
import FireTablet.Btif.Proof.PowerFacts
import FireTablet.Btif.Proof.PowerStates
import FireTablet.Charger.Current
import FireTablet.Charger.Info
import FireTablet.Charger.Jeita
import FireTablet.Charger.Proof.Ceiling
import FireTablet.Charger.Proof.EndOfCharge
import FireTablet.Charger.Proof.Limits
import FireTablet.Charger.Proof.Steps
import FireTablet.Charger.Proof.Stops
import FireTablet.Charger.Proof.Zones
import FireTablet.Charger.Protect
import FireTablet.Charger.Thread
import FireTablet.Cmdq.Emit
import FireTablet.Cmdq.Flush
import FireTablet.Cmdq.Pkt
import FireTablet.Cmdq.Proof.FlushResults
import FireTablet.Cmdq.Proof.PktChain
import FireTablet.Cmdq.Proof.PktFacts
import FireTablet.Cmdq.Proof.QueueFacts
import FireTablet.Cmdq.Proof.QueueOrder
import FireTablet.Cmdq.Proof.QueueRuns
import FireTablet.Cmdq.Proof.ReallocInvisible
import FireTablet.Cmdq.Proof.TargetExact
import FireTablet.Cmdq.Proof.TaskAccount
import FireTablet.Cmdq.Proof.TaskLife
import FireTablet.Cmdq.Proof.TaskRuns
import FireTablet.Cmdq.Queue
import FireTablet.Cmdq.Thread
import FireTablet.Dsts.Blt
import FireTablet.Dsts.Proof.Regions
import FireTablet.Gauge.Info
import FireTablet.Gauge.Proof.RoundTrip
import FireTablet.Idme.Idme
import FireTablet.Idme.Proof.Calibration
import FireTablet.Kernel.Kstrtox
import FireTablet.Kernel.Strings
import FireTablet.KeyCombo.KeyCombo
import FireTablet.KeyCombo.Proof.Probes
import FireTablet.Lbat.Proof.Conversion
import FireTablet.Lbat.Proof.RegisterCalls
import FireTablet.Lbat.Proof.RoleRuns
import FireTablet.Lbat.Proof.Roles
import FireTablet.Lbat.Service
import FireTablet.Lib.BitField
import FireTablet.Lib.Buf
import FireTablet.Lib.CInt
import FireTablet.Lib.Circ
import FireTablet.Lib.Code
import FireTablet.Lib.Fifo
import FireTablet.Lib.Heap
import FireTablet.Lib.Ledger
import FireTablet.Lib.LocalText
import FireTablet.Lib.Locks
import FireTablet.Lib.Mem
import FireTablet.Lib.Piecewise
import FireTablet.Lib.Pool
import FireTablet.Lib.Run
import FireTablet.Lib.SearchTree
import FireTablet.Lib.Shared
import FireTablet.Lib.Spsc
import FireTablet.LogReader.Proof.AtfReads
import FireTablet.LogReader.Readers
import FireTablet.LogStore.Expdb
import FireTablet.LogStore.Proof.Persist
import FireTablet.Mdp.Dispatch
import FireTablet.Mdp.Fence
import FireTablet.Mdp.JobMap
import FireTablet.Mdp.Proof.DispatchLoops
import FireTablet.Mdp.Proof.DispatchRuns
import FireTablet.Mdp.Proof.FenceCreate
import FireTablet.Mdp.Proof.FenceRuns
import FireTablet.Mdp.Proof.FenceSignal
import FireTablet.Mdp.Proof.JobOwned
import FireTablet.Mdp.Proof.JobRuns
import FireTablet.Mdp.Proof.ReadbackJobs
import FireTablet.Mdp.Proof.ReadbackRuns
import FireTablet.Mdp.Proof.ReadbackTables
import FireTablet.Mdp.Proof.RecordCopy
import FireTablet.Mdp.Proof.RecordRuns
import FireTablet.Mdp.Proof.ResourceRuns
import FireTablet.Mdp.Proof.TranslateAll
import FireTablet.Mdp.Proof.TranslateRun
import FireTablet.Mdp.Readback
import FireTablet.Mdp.RecordEx
import FireTablet.Mdp.Resource
import FireTablet.Mdp.Translate
import FireTablet.Mdump.Compdump
import FireTablet.Mdump.Proof.ReadMapped
import FireTablet.Pd.Charging
import FireTablet.Pd.Proof.AdapterCaps
import FireTablet.Pd.Proof.Currents
import FireTablet.Pd.Proof.Decision
import FireTablet.Pd.Proof.Indices
import FireTablet.SignOfLife.Concurrent
import FireTablet.SignOfLife.Proof.Interleaving
import FireTablet.SignOfLife.Proof.RtcHistory
import FireTablet.SignOfLife.Rtc
import FireTablet.Thermal.Budget
import FireTablet.Thermal.Governor
import FireTablet.Thermal.PowerSplit
import FireTablet.Thermal.Proof.Affordable
import FireTablet.Thermal.Proof.BudgetRuns
import FireTablet.Thermal.Proof.Pass
import FireTablet.Thermal.Proof.SensorFilter
import FireTablet.Thermal.Proof.SharedRuns
import FireTablet.Thermal.Proof.SlopeWindow
import FireTablet.Thermal.Sensor
import FireTablet.TrustedMem.Proof.ChunkSize
import FireTablet.TrustedMem.Proof.Lifetime
import FireTablet.TrustedMem.Proof.PowerChain
import FireTablet.TrustedMem.Proof.SsmrRuns
import FireTablet.TrustedMem.Region
import FireTablet.TrustedMem.Ssmr
import FireTablet.TrustedMem.Threads
import FireTablet.Wpc.Charger
import FireTablet.Wpc.Iout
import FireTablet.Wpc.Locking
import FireTablet.Wpc.Otp
import FireTablet.Wpc.Proof.IoutUpdate
import FireTablet.Wpc.Proof.LockRuns
import FireTablet.Wpc.Proof.OtpImage
import FireTablet.Wpc.Proof.OtpPages
import FireTablet.Wpc.Proof.RampKept
import FireTablet.Wpc.Proof.SessionKept
import FireTablet.Wpc.Proof.TextInputs
import FireTablet.Wpc.Proof.TextRuns
import FireTablet.Wpc.Ramp
import FireTablet.Wpc.RegFile
import FireTablet.Wpc.Session
