import AptUsbtrx.Model.FileInterface

/-! # The accesses of the parser

`apt_usbtrx_parse_rbmsg` once more, with the bytes of the payload area that it reads and writes. -/

namespace AptUsbtrx

open Memory

/-- A byte of the payload area that the code touches. -/
inductive Access where
  | read (index : ℕ)
  | write (index : ℕ)
  deriving DecidableEq

def Access.index : Access → ℕ
  | read index | write index => index

/-- The stores to `ts_sec` and `ts_usec`; the second one uses `ts_sec` again. -/
def stampAccesses (payload : ℕ) : List Access :=
  (List.range' payload 4).map .write ++ (List.range' payload 4).map .read ++
    (List.range' (payload + 4) 4).map .write

/-- The bytes of the payload that `get_read_payload_size` of the device reads. -/
def FileDevice.sizeReads (payload : List UInt8) : FileDevice → List ℕ
  | apCt2a | ep1Ch02a | ep1Cf02a => []
  | ep1Ag08a =>
      let channel := byteAt payload timestampSize
      if channel = 0 then [timestampSize] else [timestampSize, timestampSize]

namespace FileDevice

/-- The loop of `apt_usbtrx_parse_rbmsg`, with the accesses it makes. -/
def parseRbmsgLoop (device : FileDevice) (tsMode : TimestampMode) (devTimeUs : UInt64)
    (fuel payload : ℕ) (remain : ℤ) (rbmsg : List UInt8) :
    (Result × List UInt8) × List Access :=
  if remain > 0 then
    match fuel with
    | 0 => ((.failure, rbmsg), [])
    | fuel + 1 =>
        let stamps := if tsMode ≠ .device then stampAccesses payload else []
        let rbmsg :=
          if tsMode ≠ .device then overwrite rbmsg payload (hostTimestamp devTimeUs) else rbmsg
        let reads := (device.sizeReads (rbmsg.drop payload)).map (.read <| payload + ·)
        let payloadSize := device.interface.func.getReadPayloadSize (rbmsg.drop payload)
        if payloadSize < 0 then ((.failure, rbmsg), stamps ++ reads)
        else if payloadSize > msgLengthToPayload cmdMaxLength then
          ((.failure, rbmsg), stamps ++ reads)
        else
          let remain := remain - payloadSize
          let (r, accesses) :=
            if remain < 0 then device.parseRbmsgLoop tsMode devTimeUs fuel payload remain rbmsg
            else
              device.parseRbmsgLoop tsMode devTimeUs fuel (payload + payloadSize.toNat) remain rbmsg
          (r, stamps ++ reads ++ accesses)
  else ((.success, rbmsg), [])

/-- `apt_usbtrx_parse_rbmsg` with the functions of the device. -/
def parseRbmsg (device : FileDevice) (tsMode : TimestampMode) (rbmsg : List UInt8) (size : ℕ)
    (relativeTimeNs : UInt64) : (Result × List UInt8) × List Access :=
  let hstTimeUs := relativeTimeNs / nsecPerUsec
  let devTimeUs := if tsMode = .host then hstTimeUs else 0
  device.parseRbmsgLoop tsMode devTimeUs size 0 size rbmsg

end FileDevice

end AptUsbtrx
