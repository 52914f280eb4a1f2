import AptUsbtrx.Model.Fops

/-! # The host time, by the width of `long`

`apt_usbtrx_parse_rbmsg` multiplies a `u32` by `USEC_PER_SEC`, a `long`, which has 32 bits or 64. -/

namespace AptUsbtrx

open Memory

/-- The `long` of the build. -/
inductive LongWidth where
  | long32
  | long64
  deriving DecidableEq

namespace LongWidth

/-- `timestamp->ts_sec * USEC_PER_SEC`, as an operand of the difference: an `unsigned long` where a
`long` does not hold every `u32`, else a `long`. -/
def secInUsec : LongWidth → UInt32 → UInt64
  | long32, tsSec => (tsSec * 1000000).toUInt64
  | long64, tsSec => (tsSec.toUInt64.toInt64 * 1000000).toUInt64

/-- The `apt_usbtrx_timestamp_t` that is written. -/
def hostTimestamp (long : LongWidth) (devTimeUs : UInt64) : List UInt8 :=
  let tsSec := (devTimeUs / usecPerSec).toUInt32
  let tsUsec := (devTimeUs - long.secInUsec tsSec).toUInt32
  le32Bytes tsSec ++ le32Bytes tsUsec

/-- The loop of `apt_usbtrx_parse_rbmsg`. -/
def parseRbmsgLoop (long : LongWidth) (func : UniqueFunction) (tsMode : TimestampMode)
    (devTimeUs : UInt64) (fuel payload : ℕ) (remain : ℤ) (rbmsg : List UInt8) : Result × List UInt8 :=
  if remain > 0 then
    match fuel with
    | 0 => (.failure, rbmsg)
    | fuel + 1 =>
        let rbmsg :=
          if tsMode ≠ .device then overwrite rbmsg payload (long.hostTimestamp devTimeUs) else rbmsg
        let payloadSize := func.getReadPayloadSize (rbmsg.drop payload)
        if payloadSize < 0 then (.failure, rbmsg)
        else if payloadSize > msgLengthToPayload cmdMaxLength then (.failure, rbmsg)
        else
          let remain := remain - payloadSize
          if remain < 0 then long.parseRbmsgLoop func tsMode devTimeUs fuel payload remain rbmsg
          else
            long.parseRbmsgLoop func tsMode devTimeUs fuel (payload + payloadSize.toNat) remain rbmsg
  else (.success, rbmsg)

/-- `apt_usbtrx_parse_rbmsg` -/
def parseRbmsg (long : LongWidth) (func : UniqueFunction) (tsMode : TimestampMode)
    (rbmsg : List UInt8) (size : ℕ) (relativeTimeNs : UInt64) : Result × List UInt8 :=
  let hstTimeUs := relativeTimeNs / nsecPerUsec
  let devTimeUs := if tsMode = .host then hstTimeUs else 0
  long.parseRbmsgLoop func tsMode devTimeUs size 0 size rbmsg

end LongWidth

end AptUsbtrx
