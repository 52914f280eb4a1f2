import AptUsbtrx.Model.Dev

/-! # Reading received data

`apt_usbtrx_read`, with the host timestamps of `apt_usbtrx_parse_rbmsg`. -/

namespace AptUsbtrx

open Memory

def nsecPerUsec : UInt64 := 1000
def usecPerSec : UInt64 := 1000000

/-- The size of the data for `apt_usbtrx_timestamp_t`, the first member of every payload
that can be read. -/
def timestampSize : ℕ := 8

/-- The functions of `apt_usbtrx_device_unique_function_t` that a read calls. The size of a
payload is a function of the byte behind its timestamp, and there is no payload without
that byte. -/
structure UniqueFunction where
  getReadPayloadSize : List UInt8 → ℤ
  size_eq : ∀ p q, byteAt p timestampSize = byteAt q timestampSize →
    getReadPayloadSize p = getReadPayloadSize q
  size_range : ∀ p, getReadPayloadSize p < 0 ∨
    timestampSize < getReadPayloadSize p ∧ getReadPayloadSize p ≤ maxPayload

/-- `apt_usbtrx_unique_can_get_read_payload_size` -/
def uniqueCanGetReadPayloadSize (_payload : List UInt8) : ℤ := 21

/-- AP-CT2A and EP1-CH02A. -/
def uniqueCan : UniqueFunction where
  getReadPayloadSize := uniqueCanGetReadPayloadSize
  size_eq _ _ _ := rfl
  size_range _ := by
    rw [uniqueCanGetReadPayloadSize]
    decide

/-- `AP_CT2A_RXDATA_BUFFER_SIZE` -/
def apCt2aRxdataBufferSize : ℕ := 4 * 1024

namespace Ep1Cf02a

/-- `ep1_cf02a_get_read_payload_size` -/
def getReadPayloadSize (_payload : List UInt8) : ℤ := 78

def uniqueFunction : UniqueFunction where
  getReadPayloadSize := getReadPayloadSize
  size_eq _ _ _ := rfl
  size_range _ := by
    rw [getReadPayloadSize]
    decide

end Ep1Cf02a

namespace Ep1Ag08a

/-- `EP1_AG08A_CMD_LENGTH_NOTIFY_ANALOG_INPUT` -/
def cmdLengthNotifyAnalogInput : ℤ := 29

/-- `count_bits`, for the non-negative values that it is called with. -/
def countBits (n : ℕ) : ℕ :=
  let sum := (n >>> 1) &&& 0o3333333333
  let sum := n - sum - ((sum >>> 1) &&& 0o3333333333)
  ((sum + (sum >>> 3)) &&& 0o707070707) % 0o77

/-- `ep1_ag08a_get_read_payload_size` -/
def getReadPayloadSize (payload : List UInt8) : ℤ :=
  let channel := byteAt payload timestampSize
  if channel = 0 then -1
  else
    let noDataChCount : ℤ := 8 - countBits channel.toNat
    let cmdSize := cmdLengthNotifyAnalogInput - 2 * noDataChCount
    cmdSize - 4

/-- A channel mask with a bit set has between one and eight bits. -/
theorem countBits_bounds (channel : UInt8) (h : channel ≠ 0) :
    1 ≤ countBits channel.toNat ∧ countBits channel.toNat ≤ 8 := by
  have hall : ∀ n < 256, n ≠ 0 → 1 ≤ countBits n ∧ countBits n ≤ 8 := by decide +kernel
  exact hall _ channel.toNat_lt fun hzero => h (UInt8.toNat_inj.mp hzero)

def uniqueFunction : UniqueFunction where
  getReadPayloadSize := getReadPayloadSize
  size_eq p q h := by rw [getReadPayloadSize, getReadPayloadSize, h]
  size_range p := by
    rw [getReadPayloadSize]
    by_cases h : byteAt p timestampSize = 0
    · rw [if_pos h]
      exact .inl (by decide)
    · have hbits := countBits_bounds _ h
      rw [if_neg h, cmdLengthNotifyAnalogInput, maxPayload]
      generalize countBits (byteAt p timestampSize).toNat = bits at hbits
      simp only [timestampSize]
      omega

end Ep1Ag08a

section

variable {υ : Type}

/-- `apt_usbtrx_is_read_enable` -/
def isReadEnable (dev : Dev υ) : Bool :=
  if dev.onclosing then true
  else if ringbufferIsEmpty dev.rxData ≠ true then true
  else false

/-- The bytes of a `u32` in memory. -/
def le32Bytes (v : UInt32) : List UInt8 :=
  [v.toUInt8, (v >>> 8).toUInt8, (v >>> 16).toUInt8, (v >>> 24).toUInt8]

/-- The `apt_usbtrx_timestamp_t` that `apt_usbtrx_parse_rbmsg` writes. -/
def hostTimestamp (devTimeUs : UInt64) : List UInt8 :=
  let tsSec := (devTimeUs / usecPerSec).toUInt32
  let tsUsec := (devTimeUs - tsSec.toUInt64 * usecPerSec).toUInt32
  le32Bytes tsSec ++ le32Bytes tsUsec

/-- The loop of `apt_usbtrx_parse_rbmsg` on `rx_rbmsg`, `payload` is the offset of the pointer
in it. Without fuel the loop counts as failed. -/
def parseRbmsgLoop (func : UniqueFunction) (tsMode : TimestampMode) (devTimeUs : UInt64)
    (fuel payload : ℕ) (remain : ℤ) (rbmsg : List UInt8) : Result × List UInt8 :=
  if remain > 0 then
    match fuel with
    | 0 => (.failure, rbmsg)
    | fuel + 1 =>
        let rbmsg :=
          if tsMode ≠ .device then overwrite rbmsg payload (hostTimestamp devTimeUs) else rbmsg
        let payloadSize := func.getReadPayloadSize (rbmsg.drop payload)
        if payloadSize < 0 then (.failure, rbmsg)
        else if payloadSize > msgLengthToPayload cmdMaxLength then (.failure, rbmsg)
        else
          let remain := remain - payloadSize
          if remain < 0 then parseRbmsgLoop func tsMode devTimeUs fuel payload remain rbmsg
          else
            parseRbmsgLoop func tsMode devTimeUs fuel (payload + payloadSize.toNat) remain rbmsg
  else (.success, rbmsg)

/-- `apt_usbtrx_parse_rbmsg` -/
def parseRbmsg (func : UniqueFunction) (tsMode : TimestampMode) (rbmsg : List UInt8) (size : ℕ)
    (relativeTimeNs : UInt64) : Result × List UInt8 :=
  let hstTimeUs := relativeTimeNs / nsecPerUsec
  let devTimeUs := if tsMode = .host then hstTimeUs else 0
  parseRbmsgLoop func tsMode devTimeUs size 0 size rbmsg

/-- What a read returned and the bytes it had copied to the application. -/
structure FileRead where
  ret : ℤ
  out : List UInt8
  deriving DecidableEq

/-- `apt_usbtrx_read`, `none` while it waits. `rbmsgAddr` is the address of `rx_rbmsg`, and
`interrupted` tells whether there is a signal when the wait begins. -/
def read (func : UniqueFunction) (copyToUser : ℕ → ℕ → Bool) (rbmsgAddr : ℕ) (dev : Dev υ)
    (buffer count : ℕ) (relativeTimeNs : UInt64) (interrupted : Bool) :
    Option (FileRead × Dev υ) :=
  if dev.onopening then some (⟨-enodev, []⟩, dev)
  else if dev.onclosing then some (⟨-eshutdown, []⟩, dev)
  else if isReadEnable dev = false then
    if interrupted then some (⟨-erestartsys, []⟩, dev) else none
  else if dev.timestampMode = .device then
    let r := ringbufferRead copyToUser dev.rxData buffer count
    let dev := { dev with rxData := r.ring }
    if r.ret < 0 then some (⟨-eio, []⟩, dev) else some (⟨r.ret, r.out⟩, dev)
  else
    let used := ringbufferGetUsedSize dev.rxData
    let rbmsgRsize := if used > count then count else used
    let r := ringbufferRawread dev.rxData rbmsgAddr rbmsgRsize
    let dev := { dev with rxData := r.ring, rxRbmsg := overwrite dev.rxRbmsg 0 r.out }
    if r.ret < 0 then some (⟨-eio, []⟩, dev)
    else if r.ret ≠ 0 then
      let size := r.ret.toNat
      let (result, rbmsg) := parseRbmsg func dev.timestampMode dev.rxRbmsg size relativeTimeNs
      let dev := { dev with rxRbmsg := rbmsg }
      if result ≠ .success then some (⟨-eio, []⟩, dev)
      else if copyToUser buffer size ≠ true then some (⟨-eio, []⟩, dev)
      else some (⟨r.ret, rbmsg.take size⟩, dev)
    else some (⟨r.ret, []⟩, dev)

end

/-! ### An application that reads -/

/-- `MAX_RW_COUNT`, to which the kernel cuts the count of a read. -/
def maxRwCount : ℕ := 0x7ffff000

/-- The bytes of one well-formed data record. -/
def UniqueFunction.IsRecord (func : UniqueFunction) (record : List UInt8) : Prop :=
  func.getReadPayloadSize record = record.length

instance (func : UniqueFunction) (record : List UInt8) : Decidable (func.IsRecord record) :=
  inferInstanceAs (Decidable (_ = _))

/-- The driver with the records that have entered `rx_data` and the reads so far. -/
structure ReadSystem (υ : Type) where
  dev : Dev υ
  records : List (List UInt8)
  reads : List FileRead

inductive ReadLabel where
  | deliver (record : List UInt8)
  | read (buffer count : ℕ) (relativeTimeNs : UInt64) (interrupted : Bool)

namespace ReadSystem

variable {υ : Type}

def init (dev : Dev υ) : ReadSystem υ := ⟨dev, [], []⟩

/-- The notification of a record when the interface is the file: a record that does not fit
is skipped. -/
def deliver (s : ReadSystem υ) (record : List UInt8) : ReadSystem υ :=
  let (wsize, ring) := ringbufferWrite s.dev.rxData record record.length
  { s with
    dev := { s.dev with rxData := ring }
    records := if wsize < 0 then s.records else s.records ++ [record] }

/-- A read returns. -/
def finish (s : ReadSystem υ) (r : FileRead × Dev υ) : ReadSystem υ :=
  { s with dev := r.2, reads := s.reads ++ [r.1] }

def step (func : UniqueFunction) (copyToUser : ℕ → ℕ → Bool) (rbmsgAddr : ℕ)
    (s : ReadSystem υ) : ReadLabel → Option (ReadSystem υ)
  | .deliver record => if func.IsRecord record then some (s.deliver record) else none
  | .read buffer count relativeTimeNs interrupted =>
      if buffer ≠ 0 ∧ 0 < count ∧ count ≤ maxRwCount then
        (AptUsbtrx.read func copyToUser rbmsgAddr s.dev buffer count relativeTimeNs
          interrupted).map s.finish
      else none

end ReadSystem

end AptUsbtrx
