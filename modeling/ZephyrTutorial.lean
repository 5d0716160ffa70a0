import ZephyrTutorial.BavaCounter
import ZephyrTutorial.Bursts
import ZephyrTutorial.CInt
import ZephyrTutorial.CString
import ZephyrTutorial.CheckedBuffer
import ZephyrTutorial.Classifier
import ZephyrTutorial.Debounce
import ZephyrTutorial.Dma
import ZephyrTutorial.Fifo
import ZephyrTutorial.FloatFormat
import ZephyrTutorial.Guards
import ZephyrTutorial.Interaction
import ZephyrTutorial.Kernel
import ZephyrTutorial.LedQueue
import ZephyrTutorial.LinkedQueue
import ZephyrTutorial.Literals
import ZephyrTutorial.Machine
import ZephyrTutorial.Memslab
import ZephyrTutorial.MessageQueue
import ZephyrTutorial.ModelExport
import ZephyrTutorial.Msgq
import ZephyrTutorial.Network
import ZephyrTutorial.Nvs
import ZephyrTutorial.PrefixCode
import ZephyrTutorial.Proofs.BavaCounterLinear
import ZephyrTutorial.Proofs.BavaCounterLock
import ZephyrTutorial.Proofs.BavaCounterRange
import ZephyrTutorial.Proofs.ClassifierDecision
import ZephyrTutorial.Proofs.DebounceBursts
import ZephyrTutorial.Proofs.DmaVerdict
import ZephyrTutorial.Proofs.FifoDelivery
import ZephyrTutorial.Proofs.LedQueueOrder
import ZephyrTutorial.Proofs.MemslabConservation
import ZephyrTutorial.Proofs.ModelExportRoundTrip
import ZephyrTutorial.Proofs.MsgqDelivery
import ZephyrTutorial.Proofs.MsgqPace
import ZephyrTutorial.Proofs.NetworkOnline
import ZephyrTutorial.Proofs.NetworkStartup
import ZephyrTutorial.Proofs.NvsHistory
import ZephyrTutorial.Proofs.PwmRamp
import ZephyrTutorial.Proofs.QuantizerAgreement
import ZephyrTutorial.Proofs.QuantizerCode
import ZephyrTutorial.Proofs.RegisterBusFresh
import ZephyrTutorial.Proofs.ScheduleSections
import ZephyrTutorial.Proofs.SineSweepRange
import ZephyrTutorial.Proofs.SyncExclusion
import ZephyrTutorial.Proofs.TcpCustody
import ZephyrTutorial.Proofs.ThreadegPriority
import ZephyrTutorial.Proofs.UartBuffer
import ZephyrTutorial.Proofs.UartCommands
import ZephyrTutorial.Proofs.UartEditor
import ZephyrTutorial.Proofs.UartFaults
import ZephyrTutorial.Proofs.UartGrammar
import ZephyrTutorial.Proofs.UartGreeting
import ZephyrTutorial.Proofs.UartHandoff
import ZephyrTutorial.Proofs.UartLoad
import ZephyrTutorial.Proofs.UartLockstep
import ZephyrTutorial.Proofs.UartRecovery
import ZephyrTutorial.Proofs.UartRefinement
import ZephyrTutorial.Proofs.UartService
import ZephyrTutorial.Proofs.UartSession
import ZephyrTutorial.Pwm
import ZephyrTutorial.Quantizer
import ZephyrTutorial.Ramp
import ZephyrTutorial.RegisterBus
import ZephyrTutorial.Schedule
import ZephyrTutorial.Scheduling
import ZephyrTutorial.SineSweep
import ZephyrTutorial.Sync
import ZephyrTutorial.Tcp
import ZephyrTutorial.Threadeg
import ZephyrTutorial.Threads
import ZephyrTutorial.Truncation
import ZephyrTutorial.Uart
import ZephyrTutorial.UartChecked
import ZephyrTutorial.UartHost
import ZephyrTutorial.UartLines
import ZephyrTutorial.UartStartup
