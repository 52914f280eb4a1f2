import AptUsbtrx.Shared.Memory

/-! # Messages on the wire

The message structure, `apt_usbtrx_msg_parse`, `apt_usbtrx_msg_pack` and the
decoders of the common responses. A `u8 *` argument is the list of bytes it points
to; reading past its end gives `0`. -/

namespace AptUsbtrx

open Memory

/-- `data[i]` -/
def byteAt (data : List UInt8) (i : ℕ) : UInt8 := data.getD i 0

@[simp] theorem byteAt_cons_zero (b : UInt8) (data : List UInt8) : byteAt (b :: data) 0 = b := rfl

@[simp] theorem byteAt_cons_succ (b : UInt8) (data : List UInt8) (i : ℕ) :
    byteAt (b :: data) (i + 1) = byteAt data i := rfl

theorem byteAt_of_length_le {data : List UInt8} {i : ℕ} (h : data.length ≤ i) :
    byteAt data i = 0 := by
  simp [byteAt, List.getElem?_eq_none h]

theorem getElem?_eq_some_byteAt {data : List UInt8} {i : ℕ} (h : i < data.length) :
    data[i]? = some (byteAt data i) := by
  simp [byteAt, List.getElem?_eq_getElem h]

theorem byteAt_append_left {data : List UInt8} (tail : List UInt8) {i : ℕ}
    (h : i < data.length) : byteAt (data ++ tail) i = byteAt data i := by
  simp [byteAt, List.getElem?_append_left h]

theorem byteAt_append_length (data : List UInt8) (b : UInt8) (tail : List UInt8) :
    byteAt (data ++ b :: tail) data.length = b := by
  simp [byteAt]

theorem byteAt_drop (data : List UInt8) (n i : ℕ) :
    byteAt (data.drop n) i = byteAt data (n + i) := by
  simp [byteAt]

/-- `enum RESULT` -/
inductive Result where
  | failure
  | success
  | notEnough
  | timeout
  deriving DecidableEq, Repr

/-! ### `apt_usbtrx_cmd_def.h` -/

/-- `enum APT_USBTRX_CMD`, as the byte on the wire. `APT_USBTRX_CMD_Unknown` is `-1`
and is passed where a `u8` is expected. -/
def cmdUnknown : UInt8 := 0xFF
def cmdGetDeviceId : UInt8 := 0x00
def cmdGetFWVersion : UInt8 := 0x01
def cmdGetFWVersionRevision : UInt8 := 0x0D
def cmdResetTS : UInt8 := 0x07
def cmdGetSerialNo : UInt8 := 0x0C
def cmdNotifyBufferStatus : UInt8 := 0x28
def cmdResponseGetDeviceId : UInt8 := 0x20
def cmdResponseGetSerialNo : UInt8 := 0x2C
def cmdResponseGetFWVersion : UInt8 := 0x21
def cmdResponseGetFWVersionRevision : UInt8 := 0x22
def cmdACK : UInt8 := 0x25
def cmdNACK : UInt8 := 0x26

def cmdLengthACK : ℕ := 5
def cmdMinLength : ℕ := 4
/-- `APT_USBTRX_CMD_MAX_LENGTH`, the length of the EP1-CF02A CAN frame notification -/
def cmdMaxLength : ℕ := 82

/-! ### `apt_usbtrx_msg.h` -/

def msgSob : UInt8 := 0xF7
def msgEob : UInt8 := 0xFA
def msgMaxLength : ℕ := 128

def msgLengthToPayload (length : ℕ) : ℕ := length - 4
def payloadLengthToMsg (length : ℕ) : ℕ := length + 4

/-- The size of the payload array of `apt_usbtrx_msg_t`. -/
abbrev maxPayload : ℕ := 78

/-- `apt_usbtrx_msg_t`. Only the first `payloadSize` bytes of the payload array belong
to the message, the rest is whatever the structure held before. -/
@[ext] structure Msg where
  id : UInt8
  payload : List UInt8
  payloadSize : UInt8
  payload_length : payload.length = maxPayload
  deriving DecidableEq

/-- The payload bytes that belong to the message. -/
def Msg.bytes (msg : Msg) : List UInt8 := msg.payload.take msg.payloadSize.toNat

/-- A structure on the stack before anything is stored in it. -/
def Msg.zero : Msg := ⟨0, List.replicate maxPayload 0, 0, List.length_replicate⟩

/-- `memcpy(msg->payload, src, n)` with `src` the `n` bytes given. -/
def Msg.copyPayload (msg : Msg) (src : List UInt8) : Msg :=
  { msg with
    payload := overwrite msg.payload 0 src
    payload_length := by rw [length_overwrite, msg.payload_length] }

/-! ### `apt_usbtrx_msg.c` -/

/-- `apt_usbtrx_msg_parse`: the verdict and the structure pointed to by `msg`. -/
def msgParse (data : List UInt8) (dataSize : ℕ) (msg : Msg) : Result × Msg :=
  let sob := byteAt data 0
  if sob ≠ msgSob then (.failure, msg) else
  let length := (byteAt data 1).toNat
  if length < cmdMinLength then (.failure, msg) else
  if length > msgMaxLength then (.failure, msg) else
  if length > cmdMaxLength then (.failure, msg) else
  if length > dataSize then (.notEnough, msg) else
  if byteAt data (length - 1) ≠ msgEob then (.failure, msg) else
  let id := byteAt data 2
  let payloadSize := msgLengthToPayload length
  if payloadSize > msgLengthToPayload cmdMaxLength then (.failure, msg) else
  let msg := msg.copyPayload (slice data 3 payloadSize)
  let eob := byteAt data (3 + payloadSize)
  if eob ≠ msgEob then (.failure, msg) else
  (.success, { msg with id := id, payloadSize := UInt8.ofNat payloadSize })

/-- `apt_usbtrx_msg_pack`: the verdict and the buffer `data` after the stores. -/
def msgPack (msg : Msg) (data : List UInt8) (dataSize : ℕ) : Result × List UInt8 :=
  let length := payloadLengthToMsg msg.payloadSize.toNat
  if length > dataSize then (.failure, data) else
  (.success, overwrite data 0
    ([msgSob, UInt8.ofNat length, msg.id] ++ msg.payload.take msg.payloadSize.toNat ++ [msgEob]))

/-- The outputs of `apt_usbtrx_msg_parse_response_get_device_id`. -/
structure RespGetDeviceId where
  deviceId : List UInt8
  channel : ℕ
  deriving DecidableEq

/-- `apt_usbtrx_msg_parse_response_get_device_id` -/
def msgParseResponseGetDeviceId (data : List UInt8) : RespGetDeviceId :=
  ⟨slice data 0 4, (byteAt data 4 &&& 0x01).toNat⟩

/-- The outputs of `apt_usbtrx_msg_parse_response_get_serial_no`. -/
structure RespGetSerialNo where
  serialNo : List UInt8
  channel : ℕ
  syncPulse : ℕ
  deriving DecidableEq

/-- `apt_usbtrx_msg_parse_response_get_serial_no` -/
def msgParseResponseGetSerialNo (data : List UInt8) : RespGetSerialNo :=
  ⟨slice data 0 14, (byteAt data 14 &&& 0x01).toNat, (byteAt data 14 >>> 1 &&& 0x01).toNat⟩

/-- `apt_usbtrx_msg_parse_response_get_fw_version`: major and minor version. -/
def msgParseResponseGetFwVersion (data : List UInt8) : ℕ × ℕ :=
  ((byteAt data 0).toNat, (byteAt data 1).toNat)

/-- `apt_usbtrx_msg_parse_response_get_fw_version_revision`: major and minor version and
revision. -/
def msgParseResponseGetFwVersionRevision (data : List UInt8) : ℕ × ℕ × ℕ :=
  ((byteAt data 0).toNat, (byteAt data 1).toNat, (byteAt data 2).toNat)

/-- `apt_usbtrx_msg_parse_ack` -/
def msgParseAck (data : List UInt8) : Result × UInt8 := (.success, byteAt data 0)

/-- `apt_usbtrx_msg_parse_notify_buffer_status` -/
def msgParseNotifyBufferStatus (data : List UInt8) : Result × ℕ :=
  (.success, (byteAt data 0).toNat)

/-- `apt_usbtrx_msg_get_length` -/
def msgGetLength (data : List UInt8) (dataSize : ℕ) : Result × UInt8 :=
  if dataSize < cmdMinLength then (.failure, 0) else (.success, byteAt data 1)

end AptUsbtrx
