import Stm32Vibe.BootStateStore
import Stm32Vibe.BootRuntime
import Stm32Vibe.BootMain
import Stm32Vibe.SaveHistory
import Stm32Vibe.Handover
import Stm32Vibe.FinalizeImage
import Stm32Vibe.BootFlash
import Stm32Vibe.UpdateProtocol
import Stm32Vibe.BurstErrors
import Stm32Vibe.UpdateSession
import Stm32Vibe.TransferLaws
import Stm32Vibe.UartUpdate
import Stm32Vibe.RepeatedUpdate
import Stm32Vibe.CandidateLaws
import Stm32Vibe.ActiveSlotLaws
import Stm32Vibe.Device
import Stm32Vibe.PowerLoss
import Stm32Vibe.TrialBoots
import Stm32Vibe.StartedSlots
import Stm32Vibe.Rollback
import Stm32Vibe.DownloadCheck
import Stm32Vibe.RunningImage
import Stm32Vibe.SaveInstants
import Stm32Vibe.SlotStatuses
import Stm32Vibe.UpdateStream
import Stm32Vibe.UpdateCan
import Stm32Vibe.CanTransport
import Stm32Vibe.UpdateLoop
import Stm32Vibe.LossyLink
import Stm32Vibe.BootConfirmation
import Stm32Vibe.HostPort
import Stm32Vibe.HostPacket
import Stm32Vibe.ImageArtifacts
import Stm32Vibe.HostCan
import Stm32Vibe.Relocation
import Stm32Vibe.SlotDriver
import Stm32Vibe.MockFlash
import Stm32Vibe.FrameDecoder
import Stm32Vibe.Trace
import Stm32Vibe.Retransmission
import Stm32Vibe.RecordInvariant
import Stm32Vibe.UsbCan
import Stm32Vibe.ItmDecoder
import Stm32Vibe.FrameScan
import Stm32Vibe.FormatRecord
import Stm32Vibe.Lib.PercentFormat
import Stm32Vibe.TrialSchedule
import Stm32Vibe.CanTransmit
import Stm32Vibe.UpdateAgent
import Stm32Vibe.UpdateTool
import Stm32Vibe.FullUpdate
import Stm32Vibe.TraceMap
import Stm32Vibe.TracePipeline
import Stm32Vibe.Lib.PolledSource
import Stm32Vibe.PortReads
import Stm32Vibe.CanPort
import Stm32Vibe.AppRuntime
import Stm32Vibe.DeviceLives
import Stm32Vibe.FlashDamage
