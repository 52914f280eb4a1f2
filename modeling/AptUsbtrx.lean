import AptUsbtrx.Shared.Memory
import AptUsbtrx.Shared.Execution
import AptUsbtrx.Shared.StreamDecoder
import AptUsbtrx.Shared.Fifo
import AptUsbtrx.Shared.Semaphore
import AptUsbtrx.Model.Msg
import AptUsbtrx.Model.Ringbuffer
import AptUsbtrx.Model.Dev
import AptUsbtrx.Model.Receive
import AptUsbtrx.Verification.Msg.Grammar
import AptUsbtrx.Verification.Ringbuffer.Operations
import AptUsbtrx.Verification.Ringbuffer.Refinement
import AptUsbtrx.Verification.Receive.Decoder
import AptUsbtrx.Verification.Receive.Chunking
import AptUsbtrx.Verification.Receive.Framing
import AptUsbtrx.Model.Command
import AptUsbtrx.Verification.Command.Wait
import AptUsbtrx.Model.Ep1Cf02a
import AptUsbtrx.Verification.Command.Dispatch
import AptUsbtrx.Verification.Command.Session
import AptUsbtrx.Verification.Command.Receiving
import AptUsbtrx.Verification.Command.Correlation
import AptUsbtrx.Verification.Command.Ep1Cf02a
import AptUsbtrx.Verification.Command.Conformance
import AptUsbtrx.Shared.Pipeline
import AptUsbtrx.Model.Transmit
import AptUsbtrx.Verification.Transmit.Frames
import AptUsbtrx.Verification.Transmit.Steps
import AptUsbtrx.Verification.Transmit.Thread
import AptUsbtrx.Model.StoreData
import AptUsbtrx.Verification.StoreData.Steps
import AptUsbtrx.Verification.StoreData.Flow
import AptUsbtrx.Verification.StoreData.Lossless
import AptUsbtrx.Verification.StoreData.Progress
import AptUsbtrx.Model.Fops
import AptUsbtrx.Verification.Read.Parse
import AptUsbtrx.Verification.Read.Modes
import AptUsbtrx.Model.Netdev
import AptUsbtrx.Model.ApCt2a
import AptUsbtrx.Model.Ep1Ag08a
import AptUsbtrx.Verification.Command.Stores
import AptUsbtrx.Model.Ep1Cf02aNet
import AptUsbtrx.Verification.Stale.Locality
import AptUsbtrx.Verification.Stale.Decoders
import AptUsbtrx.Verification.Stale.Dispatchers
import AptUsbtrx.Verification.Stale.ApCt2a
import AptUsbtrx.Verification.Stale.Independence
import AptUsbtrx.Model.SendMsg
import AptUsbtrx.Verification.Command.Exclusion
import AptUsbtrx.Model.Slots
import AptUsbtrx.Verification.Transmit.Slots
import AptUsbtrx.Model.NetTransmit
import AptUsbtrx.Verification.Transmit.NetQueue
import AptUsbtrx.Model.Channel
import AptUsbtrx.Verification.Channel.Sequential
import AptUsbtrx.Model.Ownership
import AptUsbtrx.Verification.Channel.Interleaved
import AptUsbtrx.Model.ResetTs
import AptUsbtrx.Verification.Command.ResetTs
import AptUsbtrx.Shared.ReadModifyWrite
import AptUsbtrx.Model.Ep1Ag08aIio
import AptUsbtrx.Verification.Iio.Attributes
import AptUsbtrx.Verification.Iio.Setters
import AptUsbtrx.Model.FileInterface
import AptUsbtrx.Verification.Read.Walk
import AptUsbtrx.Shared.TokenBucket
import AptUsbtrx.Model.Tokens
import AptUsbtrx.Verification.Transmit.Tokens
import AptUsbtrx.Model.Flight
import AptUsbtrx.Verification.Transmit.Flight
import AptUsbtrx.Model.StopInterface
import AptUsbtrx.Verification.Transmit.Stop
import AptUsbtrx.Model.NetStats
import AptUsbtrx.Verification.Transmit.NetStats
import AptUsbtrx.Model.Firmware
import AptUsbtrx.Verification.Transmit.Firmware
import AptUsbtrx.Verification.Msg.Codec
import AptUsbtrx.Verification.Receive.Leftover
import AptUsbtrx.Verification.Ringbuffer.Bounds
import AptUsbtrx.Verification.Read.Errors
import AptUsbtrx.Verification.StoreData.Errors
import AptUsbtrx.Model.StoreDataIdList
import AptUsbtrx.Verification.StoreData.IdList
import AptUsbtrx.Shared.Word32
import AptUsbtrx.Shared.CountDown
import AptUsbtrx.Model.BitTiming
import AptUsbtrx.Verification.BitTiming.Split
import AptUsbtrx.Verification.BitTiming.Search
import AptUsbtrx.Verification.BitTiming.Calculation
import AptUsbtrx.Verification.BitTiming.Limits
import AptUsbtrx.Model.NetFrames
import AptUsbtrx.Verification.Receive.NetFrames
import AptUsbtrx.Model.ReadAccess
import AptUsbtrx.Verification.Msg.Words
import AptUsbtrx.Verification.Read.Accesses
import AptUsbtrx.Verification.Read.HostTime
import AptUsbtrx.Verification.BitTiming.Conversions
import AptUsbtrx.Shared.ByteOrder
import AptUsbtrx.Model.SetCommand
import AptUsbtrx.Verification.Command.SetCommand
import AptUsbtrx.Model.Ep1Cf02aSet
import AptUsbtrx.Verification.Codec.Settings
import AptUsbtrx.Verification.Codec.CheckedTiming
import AptUsbtrx.Verification.Codec.ResetTime
import AptUsbtrx.Model.ApCt2aSet
import AptUsbtrx.Verification.Codec.CanUnits
import AptUsbtrx.Verification.Command.SetMode
import AptUsbtrx.Verification.Codec.AnalogStatus
import AptUsbtrx.Model.IioBuffer
import AptUsbtrx.Verification.Iio.Buffer
import AptUsbtrx.Shared.GapCount
import AptUsbtrx.Model.StoreDataCheck
import AptUsbtrx.Verification.StoreData.Check
import AptUsbtrx.Model.LongWidth
import AptUsbtrx.Verification.Read.LongWidth
import AptUsbtrx.Shared.RingIndex
import AptUsbtrx.Model.RingCalls
import AptUsbtrx.Verification.Ringbuffer.Plans
import AptUsbtrx.Verification.Ringbuffer.Calls
import AptUsbtrx.Verification.Ringbuffer.Progress
import AptUsbtrx.Verification.Ringbuffer.Alone
import AptUsbtrx.Shared.Calendar
import AptUsbtrx.Model.RtcTime
import AptUsbtrx.Verification.Codec.RtcTime
import AptUsbtrx.Model.Delivery
import AptUsbtrx.Verification.Receive.Intake
import AptUsbtrx.Verification.Receive.Delivery
import AptUsbtrx.Model.Transmission
import AptUsbtrx.Verification.Transmit.Transmission
import AptUsbtrx.Verification.Transmit.Drain
import AptUsbtrx.Shared.Script
import AptUsbtrx.Model.Configuration
import AptUsbtrx.Verification.Configuration.Link
import AptUsbtrx.Verification.Configuration.Exchange
import AptUsbtrx.Verification.Configuration.SetCommands
import AptUsbtrx.Verification.Configuration.GetCommands
import AptUsbtrx.Verification.Configuration.Views
import AptUsbtrx.Verification.Configuration.Start
import AptUsbtrx.Verification.Configuration.RegisterUnit
import AptUsbtrx.Verification.Configuration.Runs
import AptUsbtrx.Verification.Configuration.Remembered
