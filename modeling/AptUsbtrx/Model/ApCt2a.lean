import AptUsbtrx.Model.Netdev

/-! # AP-CT2A

The device data, the dispatcher, the decoders and the commands of the CAN unit. -/

namespace AptUsbtrx

open Memory Ep1Cf02a

namespace ApCt2a

/-! ### `ap_ct2a_cmd_def.h` -/

def cmdSetMode : UInt8 := 0x0A
def cmdGetStatus : UInt8 := 0x05
def cmdResetCANSummary : UInt8 := 0x04
def cmdStartStopCAN : UInt8 := 0x06
def cmdSetTrigger : UInt8 := 0x0B
def cmdNotifyRecvCANFrame : UInt8 := 0x2F
def cmdNotifyCANSummary : UInt8 := 0x2B
def cmdResponseGetStatus : UInt8 := 0x27
def dlcMask : UInt8 := 0x0F

/-- The commands of `ap_ct2a_cmd.c`. -/
def commands : List Command :=
  [⟨cmdSetMode, 5, cmdLengthACK, cmdACK, cmdNACK⟩,
    ⟨cmdGetStatus, 4, 13, cmdResponseGetStatus, cmdUnknown⟩,
    ⟨cmdResetCANSummary, 4, cmdLengthACK, cmdACK, cmdNACK⟩,
    ⟨cmdStartStopCAN, 5, cmdLengthACK, cmdACK, cmdNACK⟩,
    ⟨cmdSetTrigger, 12, cmdLengthACK, cmdACK, cmdNACK⟩]

/-! ### `ap_ct2a_msg.c` -/

/-- `apt_usbtrx_msg_set_mode_t` -/
structure SetMode where
  silent : Bool
  start : Bool
  baudrate : ℤ
  deriving DecidableEq

/-- `enum APT_USBTRX_TRIGGER_LOGIC` -/
inductive TriggerLogic where
  | positive
  | negative
  deriving DecidableEq

/-- `apt_usbtrx_trigger_t` -/
structure Trigger where
  enable : Bool
  logic : TriggerLogic
  id : ℕ
  deriving DecidableEq

/-- `apt_usbtrx_msg_set_trigger_t` -/
structure SetTrigger where
  input : Trigger
  output : Trigger
  pulseWidth : ℕ
  pulseInterval : ℕ
  deriving DecidableEq

/-- `apt_usbtrx_msg_resp_get_status_t` -/
structure RespGetStatus where
  mode : SetMode
  enableTrigger : Bool
  trigger : SetTrigger
  deriving DecidableEq

/-- `apt_usbtrx_convert_baudrate_value`, `none` is `-1`. -/
def convertBaudrateValue (mode : ℕ) : Option ℕ :=
  [(0x00, 0), (0x10, 33), (0x11, 50), (0x12, 83), (0x13, 100), (0x14, 125), (0x15, 250),
    (0x16, 500), (0x17, 1000)].lookup mode

/-- A bit of a byte. -/
def bitAt (data : List UInt8) (n bit : ℕ) : Bool := (byteAt data n).toNat.testBit bit

/-- The trigger in two bytes. -/
def parseTrigger (data : List UInt8) (n : ℕ) : Trigger where
  enable := bitAt data (n + 1) 7
  logic := if bitAt data (n + 1) 6 then .negative else .positive
  id := (byteAt data n).toNat ||| ((byteAt data (n + 1) &&& 0x07).toNat <<< 8)

/-- `apt_usbtrx_msg_parse_response_get_status`; its callers leave the structure alone when it
fails. -/
def parseResponseGetStatus (data : List UInt8) : Option RespGetStatus :=
  (convertBaudrateValue (byteAt data 0 &&& 0x1f).toNat).map fun baudrate : ℕ =>
    { mode := ⟨!bitAt data 0 6, bitAt data 0 5, baudrate⟩
      enableTrigger := bitAt data 0 7
      trigger :=
        { input := parseTrigger data 1
          output := parseTrigger data 3
          pulseWidth := le16 data 5
          pulseInterval := le16 data 7 } }

/-- `struct can_frame` -/
structure CanFrame where
  canId : ℕ
  canDlc : UInt8
  data : List UInt8
  deriving DecidableEq

/-- `apt_usbtrx_msg_parse_notify_recv_can_summary` -/
def parseNotifyRecvCanSummary (data : List UInt8) : UInt32 × CanFrame :=
  (UInt32.ofNat (le32 data 0), ⟨le32 data 4, byteAt data 8 &&& 0x0f, slice data 9 8⟩)

/-! ### The device data -/

/-- `apt_usbtrx_stats_t` -/
structure Stats where
  kt : ℤ
  timestamp : ℕ
  num : UInt32
  totalNum : UInt32
  deriving DecidableEq

/-- `apt_usbtrx_can_summary_t` -/
structure CanSummary where
  datStd : Stats
  datExt : Stats
  rtrStd : Stats
  rtrExt : Stats
  err : Stats
  deriving DecidableEq

/-- `enum APT_USBTRX_CAN_IF_TYPE` -/
inductive CanIfType where
  | none
  | file
  | net
  deriving DecidableEq

/-- `apt_usbtrx_unique_data_can_t` -/
structure UniqueDataCan where
  summary : CanSummary
  ifType : CanIfType
  netdev : Netdev
  deriving DecidableEq

/-! ### `ap_ct2a_core.c` -/

/-- What the dispatcher finds out from the kernel: `jiffies`, `ktime_get_real()` and whether an
`sk_buff` is allocated. -/
structure KernelEnv where
  jiffies : ℕ
  ktimeReal : ℤ
  allocated : Bool

/-- `apt_usbtrx_update_stats` -/
def updateStats (env : KernelEnv) (stats : Stats) (count : UInt32) : Stats :=
  if count = 0 then stats
  else ⟨env.ktimeReal, env.jiffies, count - stats.totalNum, count⟩

/-- The record of the summary that a frame with this id counts in. -/
def updateSummary (env : KernelEnv) (summary : CanSummary) (canId : ℕ) (count : UInt32) :
    CanSummary :=
  if canId &&& canErrFlag ≠ 0 then { summary with err := updateStats env summary.err count }
  else if canId &&& canRtrFlag ≠ 0 then
    if canId &&& canEffFlag ≠ 0 then
      { summary with rtrExt := updateStats env summary.rtrExt count }
    else { summary with rtrStd := updateStats env summary.rtrStd count }
  else if canId &&& canEffFlag ≠ 0 then
    { summary with datExt := updateStats env summary.datExt count }
  else { summary with datStd := updateStats env summary.datStd count }

/-- The frame that `apt_usbtrx_unique_can_rx_can_msg` builds. -/
def rxSkb (payload : List UInt8) : RxSkb :=
  let dlc := (byteAt payload 12 &&& dlcMask).toNat
  { hwtstamp := (convertTimestampToTimespec64 payload).toNs
    isCanfd := false
    canId := le32 payload 8
    len := dlc
    flags := 0
    data := slice payload 13 dlc }

/-- `apt_usbtrx_unique_can_dispatch_msg` -/
def dispatchMsg (env : KernelEnv) : Dispatch (Dev UniqueDataCan) := fun dev data msg =>
  let uniqueData := dev.uniqueData
  if msg.id = cmdNotifyRecvCANFrame then
    if uniqueData.ifType = .file then
      ({ dev with rxData := (ringbufferWrite dev.rxData msg.payload msg.payloadSize.toNat).2 },
        .success)
    else if uniqueData.ifType = .net then
      ({ dev with uniqueData := { uniqueData with
        netdev := uniqueData.netdev.receive env.allocated (rxSkb msg.payload) } }, .success)
    else (dev, .success)
  else if msg.id = cmdNotifyCANSummary then
    let (count, frame) := parseNotifyRecvCanSummary msg.payload
    ({ dev with uniqueData := { uniqueData with
      summary := updateSummary env uniqueData.summary frame.canId count } }, .success)
  else if msg.id = cmdResponseGetStatus then
    if dev.rxComplete.id = cmdGetStatus then
      ({ dev with rxComplete := dev.rxComplete.complete data msg }, .success)
    else (dev, .success)
  else (dev, .failure)

end ApCt2a

/-! # EP1-CH02A

The unit inherits the device data and the dispatcher of the AP-CT2A. -/

namespace Ep1Ch02a

def cmdSetBitTiming : UInt8 := 0x0B
def cmdGetBitTiming : UInt8 := 0x0E
def cmdResponseGetBitTiming : UInt8 := 0x2E

/-- The commands of `ep1_ch02a_cmd.c`. -/
def commands : List Command :=
  [⟨ApCt2a.cmdGetStatus, 4, 5, ApCt2a.cmdResponseGetStatus, cmdUnknown⟩,
    ⟨cmdSetBitTiming, 10, cmdLengthACK, cmdACK, cmdNACK⟩,
    ⟨cmdGetBitTiming, 4, 14, cmdResponseGetBitTiming, cmdUnknown⟩]

/-- `ep1_ch02a_msg_resp_get_status_t` -/
structure RespGetStatus where
  mode : ApCt2a.SetMode
  enableSync : Bool
  deriving DecidableEq

/-- `ep1_ch02a_msg_parse_response_get_status` -/
def parseResponseGetStatus (data : List UInt8) : Option RespGetStatus :=
  (ApCt2a.convertBaudrateValue (byteAt data 0 &&& 0x1f).toNat).map fun baudrate : ℕ =>
    ⟨⟨!ApCt2a.bitAt data 0 6, ApCt2a.bitAt data 0 5, baudrate⟩, ApCt2a.bitAt data 0 7⟩

/-- `ep1_ch02a_msg_resp_get_bit_timing_t` -/
structure RespGetBitTiming where
  canClock : ℤ
  propSeg : ℕ
  phaseSeg1 : ℕ
  phaseSeg2 : ℕ
  sjw : ℕ
  brp : ℕ
  deriving DecidableEq

/-- `ep1_ch02a_msg_parse_response_get_bit_timing` -/
def parseResponseGetBitTiming (data : List UInt8) : RespGetBitTiming where
  canClock := le32Signed data 0
  propSeg := (byteAt data 4).toNat
  phaseSeg1 := (byteAt data 5).toNat
  phaseSeg2 := (byteAt data 6).toNat
  sjw := (byteAt data 7).toNat
  brp := le16 data 8

/-- `ep1_ch02a_dispatch_msg` -/
def dispatchMsg (env : ApCt2a.KernelEnv) : Dispatch (Dev ApCt2a.UniqueDataCan) :=
  fun dev data msg =>
    if msg.id = cmdResponseGetBitTiming then
      if dev.rxComplete.id = cmdGetBitTiming then
        ({ dev with rxComplete := dev.rxComplete.complete data msg }, .success)
      else (dev, .success)
    else ApCt2a.dispatchMsg env dev data msg

end Ep1Ch02a

end AptUsbtrx
