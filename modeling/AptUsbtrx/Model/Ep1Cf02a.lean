import AptUsbtrx.Model.Command

/-! # EP1-CF02A

The device data, the dispatcher and the get commands of the CAN-FD unit. -/

namespace AptUsbtrx

open Memory

/-! ### `ep1_cf02a_cmd_def.h` -/

namespace Ep1Cf02a

def cmdSetSilentMode : UInt8 := 0x30
def cmdGetSilentMode : UInt8 := 0x31
def cmdSetISOMode : UInt8 := 0x32
def cmdGetISOMode : UInt8 := 0x33
def cmdSetBitTiming : UInt8 := 0x34
def cmdGetBitTiming : UInt8 := 0x35
def cmdSetDataBitTiming : UInt8 := 0x36
def cmdGetDataBitTiming : UInt8 := 0x37
def cmdSetTxRxControl : UInt8 := 0x38
def cmdGetTxRxControl : UInt8 := 0x39
def cmdSendCANFrame : UInt8 := 0x3A
def cmdGetCANClock : UInt8 := 0x3D
def cmdGetDeviceTimestampResetTime : UInt8 := 0x3E
def cmdSetHostTimeStampResetTime : UInt8 := 0x40
def cmdSetRTCTime : UInt8 := 0x41
def cmdGetRTCTime : UInt8 := 0x42
def cmdGetCurrentStoreDataState : UInt8 := 0x43
def cmdGetStoreDataIDListCount : UInt8 := 0x44
def cmdGetStoreDataID : UInt8 := 0x45
def cmdGetStoreDataMeta : UInt8 := 0x46
def cmdSetStoreDataRxControl : UInt8 := 0x47
def cmdGetStoreDataRxControl : UInt8 := 0x48
def cmdRequestNotifyRecvCANFrame : UInt8 := 0x80
def cmdDeleteStoreData : UInt8 := 0x4A
def cmdInitStoreDataMedia : UInt8 := 0x4B
def cmdSetFDMode : UInt8 := 0x4C
def cmdGetFDMode : UInt8 := 0x4D
def cmdSetStoreEnable : UInt8 := 0x4E
def cmdGetStoreEnable : UInt8 := 0x4F
def cmdGetCanStatistics : UInt8 := 0x82
def cmdResetCanStatistics : UInt8 := 0x83
def cmdSetStoreMaxDuration : UInt8 := 0x84
def cmdGetStoreMaxDuration : UInt8 := 0x85
def cmdGetCapabilities : UInt8 := 0xE0
def cmdNotifyRecvCANFrame : UInt8 := 0x3B
def cmdNotifyStoreDataRecvCanFrame : UInt8 := 0x49
def cmdNotifyStoreDataRecvCanFrameComplete : UInt8 := 0x81
def cmdResponseGetSilentMode : UInt8 := 0x61
def cmdResponseGetISOMode : UInt8 := 0x63
def cmdResponseGetBitTiming : UInt8 := 0x65
def cmdResponseGetDataBitTiming : UInt8 := 0x67
def cmdResponseGetTxRxControl : UInt8 := 0x69
def cmdResponseGetCANClock : UInt8 := 0x6D
def cmdResponseGetDeviceTimestampResetTime : UInt8 := 0x6E
def cmdResponseGetRTCTime : UInt8 := 0x72
def cmdResponseGetCurrentStoreDataState : UInt8 := 0x73
def cmdResponseGetStoreDataIDListCount : UInt8 := 0x74
def cmdResponseGetStoreDataID : UInt8 := 0x75
def cmdResponseGetStoreDataMeta : UInt8 := 0x76
def cmdResponseGetStoreDataRxControl : UInt8 := 0x78
def cmdResponseGetFDMode : UInt8 := 0x7D
def cmdResponseGetStoreEnable : UInt8 := 0x7E
def cmdResponseGetCanStatistics : UInt8 := 0x92
def cmdResponseGetStoreMaxDuration : UInt8 := 0x95
def cmdResponseGetCapabilities : UInt8 := 0xF0

def cmdStoreDataIdMaxLength : ℕ := 32

/-! ### Device data -/

/-- `enum EP1_CF02A_IF_TYPE` -/
inductive IfType where
  | none
  | file
  | net
  deriving DecidableEq

/-- `ep1_cf02a_msg_bit_timing_t` -/
structure BitTiming where
  propSeg : ℤ
  phaseSeg1 : ℤ
  phaseSeg2 : ℤ
  sjw : ℤ
  brp : ℤ
  deriving DecidableEq

/-- `ep1_cf02a_unique_data_t`, the fields that the dispatcher, the commands and the
store-data ioctls use. -/
structure UniqueData where
  canClock : ℕ
  bittiming : BitTiming
  dataBittiming : BitTiming
  rxStoreData : Ringbuffer
  canFrameCountPerRequest : ℕ
  receivedStoreDataSize : ℤ
  notifyStoreDataRecvCanFrameComplete : Bool
  ifType : IfType
  deriving DecidableEq

def rxdataBufferSize : ℕ := 128 * 4 * 1024
def storeDataBufferSize : ℕ := 8 * 4 * 1024

/-- `sizeof(ep1_cf02a_payload_notify_recv_can_frame_t)` -/
def payloadNotifyRecvCanFrameSize : ℕ := 78

/-- `ep1_cf02a_init_data`, with the store-data ring at the address given. -/
def initData (storeDataAddr : ℕ) : UniqueData where
  canClock := 0
  bittiming := ⟨0, 0, 0, 0, 0⟩
  dataBittiming := ⟨0, 0, 0, 0, 0⟩
  rxStoreData := ringbufferInit storeDataAddr storeDataBufferSize
  canFrameCountPerRequest := (storeDataBufferSize - 1) / payloadNotifyRecvCanFrameSize
  receivedStoreDataSize := 0
  notifyStoreDataRecvCanFrameComplete := false
  ifType := .none

/-- The unit after the probe. -/
def probed : Dev UniqueData :=
  Dev.probed 0x10000000 rxdataBufferSize 0x20000000 ⟨0, 0⟩ (initData 0x30000000)

/-- The unit once `apt_usbtrx_open` has let an application in. -/
def opened : Dev UniqueData := { probed with onopening := false }

/-- `atomic_add` on an `atomic_t` -/
def atomicAdd (v i : ℤ) : ℤ := (v + i).bmod (2 ^ 32)

/-! ### `ep1_cf02a_dispatch_msg` -/

/-- The `case` labels that hand the message to `ep1_cf02a_dispatch_msg_common_response`, with
the request id passed. -/
def responseCases : List (UInt8 × UInt8) :=
  [(cmdResponseGetSilentMode, cmdGetSilentMode),
    (cmdResponseGetFDMode, cmdGetFDMode),
    (cmdResponseGetISOMode, cmdGetISOMode),
    (cmdResponseGetBitTiming, cmdGetBitTiming),
    (cmdResponseGetDataBitTiming, cmdGetDataBitTiming),
    (cmdResponseGetTxRxControl, cmdGetTxRxControl),
    (cmdResponseGetCANClock, cmdGetCANClock),
    (cmdResponseGetDeviceTimestampResetTime, cmdGetDeviceTimestampResetTime),
    (cmdResponseGetRTCTime, cmdGetRTCTime),
    (cmdResponseGetCurrentStoreDataState, cmdGetCurrentStoreDataState),
    (cmdResponseGetStoreDataIDListCount, cmdGetStoreDataIDListCount),
    (cmdResponseGetStoreDataID, cmdGetStoreDataID),
    (cmdResponseGetStoreDataMeta, cmdGetStoreDataMeta),
    (cmdResponseGetStoreDataRxControl, cmdGetStoreDataRxControl),
    (cmdResponseGetStoreEnable, cmdGetStoreEnable),
    (cmdResponseGetStoreMaxDuration, cmdGetStoreMaxDuration),
    (cmdResponseGetCapabilities, cmdGetCapabilities),
    (cmdResponseGetCanStatistics, cmdGetCanStatistics)]

/-- `ep1_cf02a_dispatch_msg_common_response` -/
def dispatchMsgCommonResponse (dev : Dev UniqueData) (data : List UInt8) (msg : Msg)
    (requestId : UInt8) : Dev UniqueData :=
  if dev.rxComplete.id = requestId then
    { dev with rxComplete := dev.rxComplete.complete data msg }
  else dev

/-- `ep1_cf02a_dispatch_msg`. The delivery of a CAN frame to the network interface does not
change the modelled state. -/
def dispatchMsg : Dispatch (Dev UniqueData) := fun dev data msg =>
  let uniqueData := dev.uniqueData
  if msg.id = cmdNotifyRecvCANFrame then
    if uniqueData.ifType = .file then
      ({ dev with rxData := (ringbufferWrite dev.rxData msg.payload msg.payloadSize.toNat).2 },
        .success)
    else (dev, .success)
  else if msg.id = cmdNotifyStoreDataRecvCanFrame then
    let (writeSize, ring) := ringbufferWrite uniqueData.rxStoreData msg.payload msg.payloadSize.toNat
    ({ dev with
      uniqueData := { uniqueData with
        rxStoreData := ring
        receivedStoreDataSize :=
          if writeSize > 0 then atomicAdd uniqueData.receivedStoreDataSize writeSize
          else uniqueData.receivedStoreDataSize } }, .success)
  else if msg.id = cmdNotifyStoreDataRecvCanFrameComplete then
    ({ dev with
      uniqueData := { uniqueData with notifyStoreDataRecvCanFrameComplete := true } }, .success)
  else
    match responseCases.lookup msg.id with
    | some requestId => (dispatchMsgCommonResponse dev data msg requestId, .success)
    | none => (dev, .failure)

/-! ### The decoders of `ep1_cf02a_msg.c` -/

/-- `data[n] | data[n + 1] << 8` -/
def le16 (data : List UInt8) (n : ℕ) : ℕ :=
  (byteAt data n).toNat ||| (byteAt data (n + 1)).toNat <<< 8

/-- Four bytes into a 32-bit unsigned integer. -/
def le32 (data : List UInt8) (n : ℕ) : ℕ :=
  le16 data n ||| (byteAt data (n + 2)).toNat <<< 16 ||| (byteAt data (n + 3)).toNat <<< 24

/-- Four bytes into an `int` or, sign-extended, a `long`: `data[n + 3] << 24` is an `int`. -/
def le32Signed (data : List UInt8) (n : ℕ) : ℤ := (le32 data n : ℤ).bmod (2 ^ 32)

def le64 (data : List UInt8) (n : ℕ) : ℕ := le32 data n ||| le32 data (n + 4) <<< 32

/-- `apt_usbtrx_timestamp_t` -/
structure Timestamp where
  tsSec : ℕ
  tsUsec : ℕ
  deriving DecidableEq

/-- `ep1_cf02a_msg_rtc_time_t` -/
structure RtcTime where
  weekday : UInt8
  month : UInt8
  date : UInt8
  year : UInt8
  hour : UInt8
  minute : UInt8
  second : UInt8
  microsecond : ℕ
  deriving DecidableEq

/-- `ep1_cf02a_msg_current_store_data_state_t` -/
structure CurrentStoreDataState where
  state : UInt8
  id : List UInt8
  deriving DecidableEq

/-- `ep1_cf02a_msg_get_store_data_meta_response_t` -/
structure StoreDataMeta where
  startTimeRtc : RtcTime
  startTimeTs : Timestamp
  resetTimeDeviceTs : Timestamp
  resetTimeHostMonotonic : Timespec64
  canFrameCount : ℕ
  deriving DecidableEq

/-- `ep1_cf02a_msg_store_data_rx_control_t` -/
structure StoreDataRxControl where
  id : List UInt8
  start : Bool
  canFrameCountPerRequest : ℕ
  deriving DecidableEq

/-- `ep1_cf02a_msg_get_can_statistics_t` -/
structure CanStatistics where
  rxDropped : ℕ
  canState : UInt8
  reserved1 : List UInt8
  reserved2 : List UInt8
  deriving DecidableEq

def parseResponseGetSilentMode (data : List UInt8) : Bool := byteAt data 0 &&& 0x01 == 0
def parseResponseGetFdMode (data : List UInt8) : Bool := byteAt data 0 &&& 0x01 != 0
def parseResponseGetIsoMode (data : List UInt8) : Bool := byteAt data 0 &&& 0x01 != 0

def parseResponseGetBitTiming (data : List UInt8) : BitTiming where
  propSeg := le16 data 0
  phaseSeg1 := le16 data 2
  phaseSeg2 := le16 data 4
  sjw := le16 data 6
  brp := le16 data 8

def parseResponseGetDataBitTiming (data : List UInt8) : BitTiming := parseResponseGetBitTiming data
def parseResponseGetTxRxControl (data : List UInt8) : Bool := byteAt data 0 == 0x01
def parseResponseGetCanClock (data : List UInt8) : ℤ := le32Signed data 0

def parseTimestamp (data : List UInt8) (n : ℕ) : Timestamp := ⟨le32 data n, le32 data (n + 4)⟩

def parseResponseGetDeviceTimestampResetTime (data : List UInt8) : Timestamp := parseTimestamp data 0

def parseResponseGetRtcTime (data : List UInt8) : RtcTime where
  weekday := byteAt data 0
  month := byteAt data 1
  date := byteAt data 2
  year := byteAt data 3
  hour := byteAt data 4
  minute := byteAt data 5
  second := byteAt data 6
  microsecond := le32 data 7

def parseResponseGetCurrentStoreDataState (data : List UInt8) : CurrentStoreDataState :=
  ⟨byteAt data 0, slice data 1 cmdStoreDataIdMaxLength⟩

def parseResponseGetStoreDataIdListCount (data : List UInt8) : ℕ := le32 data 0
def parseResponseGetStoreDataId (data : List UInt8) : List UInt8 :=
  slice data 0 cmdStoreDataIdMaxLength

/-- `size` is 11, the size of the packed `ep1_cf02a_msg_rtc_time_t`. -/
def parseResponseGetStoreDataMeta (data : List UInt8) : StoreDataMeta where
  startTimeRtc := parseResponseGetRtcTime data
  startTimeTs := parseTimestamp data 11
  resetTimeDeviceTs := parseTimestamp data 19
  resetTimeHostMonotonic := ⟨le32Signed data 27, le32Signed data 31⟩
  canFrameCount := le64 data 35

def parseResponseGetStoreDataRxControl (data : List UInt8) : StoreDataRxControl where
  id := slice data 0 cmdStoreDataIdMaxLength
  start := byteAt data 32 == 0x01
  canFrameCountPerRequest := le64 data 33

def parseResponseGetStoreEnable (data : List UInt8) : Bool := byteAt data 0 == 0x01
def parseResponseGetStoreMaxDuration (data : List UInt8) : ℕ := le32 data 0
def parseResponseGetCapabilities (data : List UInt8) : ℕ := le64 data 0

def parseResponseGetCanStatistics (data : List UInt8) : CanStatistics where
  rxDropped := le32 data 0
  canState := byteAt data 4
  reserved1 := slice data 5 3
  reserved2 := slice data 8 64

/-! ### The get commands of `ep1_cf02a_cmd.c` -/

/-- The functions `ep1_cf02a_get_..`, with the request message of the two that have one. -/
inductive GetCmd where
  | silentMode
  | fdMode
  | isoMode
  | bitTiming
  | dataBitTiming
  | txRxControl
  | canClock
  | deviceTimestampResetTime
  | rtcTime
  | currentStoreDataState
  | storeDataIdListCount
  | storeDataId (index : ℤ)
  | storeDataMeta (id : List UInt8)
  | storeDataRxControl
  | storeEnable
  | storeMaxDuration
  | capabilities
  | canStatistics

namespace GetCmd

/-- `ep1_cf02a_get_common`: no payload in the request, no NACK id. -/
def getCommon (reqDataSize respDataSize : ℕ) (reqCmdId respCmdIdAck : UInt8) : Command :=
  ⟨reqCmdId, reqDataSize, respDataSize, respCmdIdAck, cmdUnknown⟩

/-- What the function passes to `ep1_cf02a_cmd_common`. -/
def command : GetCmd → Command
  | silentMode => getCommon 4 5 cmdGetSilentMode cmdResponseGetSilentMode
  | fdMode => getCommon 4 5 cmdGetFDMode cmdResponseGetFDMode
  | isoMode => getCommon 4 5 cmdGetISOMode cmdResponseGetISOMode
  | bitTiming => getCommon 4 14 cmdGetBitTiming cmdResponseGetBitTiming
  | dataBitTiming => getCommon 4 14 cmdGetDataBitTiming cmdResponseGetDataBitTiming
  | txRxControl => getCommon 4 5 cmdGetTxRxControl cmdResponseGetTxRxControl
  | canClock => getCommon 4 8 cmdGetCANClock cmdResponseGetCANClock
  | deviceTimestampResetTime =>
      getCommon 4 12 cmdGetDeviceTimestampResetTime cmdResponseGetDeviceTimestampResetTime
  | rtcTime => getCommon 4 15 cmdGetRTCTime cmdResponseGetRTCTime
  | currentStoreDataState =>
      getCommon 4 37 cmdGetCurrentStoreDataState cmdResponseGetCurrentStoreDataState
  | storeDataIdListCount =>
      getCommon 4 8 cmdGetStoreDataIDListCount cmdResponseGetStoreDataIDListCount
  | storeDataId _ => ⟨cmdGetStoreDataID, 8, 36, cmdResponseGetStoreDataID, cmdUnknown⟩
  | storeDataMeta _ => ⟨cmdGetStoreDataMeta, 36, 47, cmdResponseGetStoreDataMeta, cmdUnknown⟩
  | storeDataRxControl => getCommon 4 45 cmdGetStoreDataRxControl cmdResponseGetStoreDataRxControl
  | storeEnable => getCommon 4 5 cmdGetStoreEnable cmdResponseGetStoreEnable
  | storeMaxDuration => getCommon 4 8 cmdGetStoreMaxDuration cmdResponseGetStoreMaxDuration
  | capabilities => getCommon 4 12 cmdGetCapabilities cmdResponseGetCapabilities
  | canStatistics => getCommon 4 76 cmdGetCanStatistics cmdResponseGetCanStatistics

/-- What `pack_req` stores in the payload of the request. -/
def packReq : GetCmd → List UInt8
  | storeDataId index =>
      [UInt8.ofInt index, UInt8.ofInt (index / 2 ^ 8), UInt8.ofInt (index / 2 ^ 16),
        UInt8.ofInt (index / 2 ^ 24)]
  | storeDataMeta id => slice id 0 cmdStoreDataIdMaxLength
  | _ => []

/-- The type of the output of the function. -/
def Output : GetCmd → Type
  | silentMode | fdMode | isoMode | txRxControl | storeEnable => Bool
  | bitTiming | dataBitTiming => BitTiming
  | canClock => ℤ
  | deviceTimestampResetTime => Timestamp
  | rtcTime => RtcTime
  | currentStoreDataState => CurrentStoreDataState
  | storeDataIdListCount | storeMaxDuration | capabilities => ℕ
  | storeDataId _ => List UInt8
  | storeDataMeta _ => StoreDataMeta
  | storeDataRxControl => StoreDataRxControl
  | canStatistics => CanStatistics

/-- The decoder of the response. -/
def parseResp : (cmd : GetCmd) → List UInt8 → cmd.Output
  | silentMode => parseResponseGetSilentMode
  | fdMode => parseResponseGetFdMode
  | isoMode => parseResponseGetIsoMode
  | bitTiming => parseResponseGetBitTiming
  | dataBitTiming => parseResponseGetDataBitTiming
  | txRxControl => parseResponseGetTxRxControl
  | canClock => parseResponseGetCanClock
  | deviceTimestampResetTime => parseResponseGetDeviceTimestampResetTime
  | rtcTime => parseResponseGetRtcTime
  | currentStoreDataState => parseResponseGetCurrentStoreDataState
  | storeDataIdListCount => parseResponseGetStoreDataIdListCount
  | storeDataId _ => parseResponseGetStoreDataId
  | storeDataMeta _ => parseResponseGetStoreDataMeta
  | storeDataRxControl => parseResponseGetStoreDataRxControl
  | storeEnable => parseResponseGetStoreEnable
  | storeMaxDuration => parseResponseGetStoreMaxDuration
  | capabilities => parseResponseGetCapabilities
  | canStatistics => parseResponseGetCanStatistics

/-- What the functions that cache their output store in the device data. -/
def update : (cmd : GetCmd) → cmd.Output → UniqueData → UniqueData
  | bitTiming, timing, data => { data with bittiming := timing }
  | dataBitTiming, timing, data => { data with dataBittiming := timing }
  | canClock, (clock : ℤ), data => { data with canClock := (clock % 2 ^ 32).toNat }
  | _, _, data => data

/-- The function after `apt_usbtrx_wait_msg_timeout`: its result, its output and the device
data it leaves. -/
def finish (cmd : GetCmd) (waited : Result × List UInt8) (msg : Msg) (data : UniqueData) :
    Result × Option cmd.Output × UniqueData :=
  match cmd.command.finishGet cmd.parseResp waited msg with
  | (.success, some output) => (.success, some output, cmd.update output data)
  | (result, output) => (result, output, data)

end GetCmd

/-! ### The other commands -/

/-- `ep1_cf02a_set_common` -/
def setCommon (reqDataSize : ℕ) (reqCmdId : UInt8) : Command :=
  ⟨reqCmdId, reqDataSize, cmdLengthACK, cmdACK, cmdNACK⟩

def setCommands : List Command :=
  [setCommon 5 cmdSetSilentMode, setCommon 5 cmdSetFDMode, setCommon 5 cmdSetISOMode,
    setCommon 14 cmdSetBitTiming, setCommon 14 cmdSetDataBitTiming, setCommon 5 cmdSetTxRxControl,
    setCommon 12 cmdSetHostTimeStampResetTime, setCommon 15 cmdSetRTCTime,
    setCommon 45 cmdSetStoreDataRxControl, setCommon 4 cmdRequestNotifyRecvCANFrame,
    setCommon 36 cmdDeleteStoreData, setCommon 4 cmdInitStoreDataMedia,
    setCommon 5 cmdSetStoreEnable, setCommon 8 cmdSetStoreMaxDuration,
    setCommon 4 cmdResetCanStatistics]

end Ep1Cf02a

/-! ### The commands of `apt_usbtrx_cmd.c` that wait for a response -/

def cmdEnableResetTS : UInt8 := 0x02

def baseCommands : List Command :=
  [⟨cmdGetDeviceId, 4, 9, cmdResponseGetDeviceId, cmdUnknown⟩,
    ⟨cmdGetFWVersion, 4, 6, cmdResponseGetFWVersion, cmdUnknown⟩,
    ⟨cmdGetFWVersionRevision, 4, 7, cmdResponseGetFWVersionRevision, cmdUnknown⟩,
    ⟨cmdEnableResetTS, 4, cmdLengthACK, cmdACK, cmdNACK⟩,
    ⟨cmdResetTS, 4, cmdLengthACK, cmdACK, cmdNACK⟩,
    ⟨cmdGetSerialNo, 4, 19, cmdResponseGetSerialNo, cmdUnknown⟩]

end AptUsbtrx
