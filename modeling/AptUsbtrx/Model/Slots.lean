import AptUsbtrx.Model.Transmit
import Mathlib.Logic.Function.Basic

/-! # The users of the transfer slots

`tx_usb_transfer_sem` is shared by the transmit thread, by the writers of firmware data and by
the threads that stop the CAN interface. -/

namespace AptUsbtrx

open Memory

def cmdSendFWData : UInt8 := 0x56
def cmdSendFWDataS : UInt8 := 0x55
def cmdSendFWDataE : UInt8 := 0x57

/-- `APT_USBTRX_CMD_LENGTH_SEND_FW_DATA` -/
def cmdLengthSendFwData : ℕ := 36

/-- Where a thread in `apt_usbtrx_write_fw_data` or in the loop of `ep1_cf02a_stop_can_interface`
stands. `idle` keeps the value last returned. -/
inductive SlotPc where
  | idle (ret : ℤ)
  | fwDown (payload : List UInt8)
  | fwPack (payload : List UInt8)
  | fwSubmit (data : List UInt8)
  | fwUp
  | probeClear
  | probe
  | probeUp
  deriving DecidableEq

/-- The checks in front of the `down_interruptible` of `apt_usbtrx_write_fw_data`: the value
returned, or `none` when the function goes on. -/
def writeFwDataCheck {υ : Type} (dev : Dev υ) (count : ℕ) (copied : Bool) : Option ℤ :=
  if count = 0 then some 0
  else if count ≠ 32 then some (-eio)
  else if dev.onopening then some (-enodev)
  else if dev.onclosing then some (-eshutdown)
  else if ¬ copied then some (-eio)
  else none

/-- The id of the message with the firmware data up to `fwCount`. -/
def fwDataId (fwSize fwCount : ℕ) : UInt8 :=
  if fwCount = 32 then cmdSendFWDataS
  else if fwCount = fwSize then cmdSendFWDataE
  else cmdSendFWData

/-- The pack of `apt_usbtrx_write_fw_data`; `msg` is what the structure on the stack holds. -/
def packFwData (fwSize fwCount : ℕ) (payload : List UInt8) (msg : Msg) : Result × List UInt8 :=
  let msg := { msg.copyPayload payload with
    id := fwDataId fwSize fwCount
    payloadSize := UInt8.ofNat (msgLengthToPayload cmdLengthSendFwData) }
  msgPack msg (List.replicate cmdLengthSendFwData 0) cmdLengthSendFwData

/-- The transmit path with the other users of the slots. -/
structure SlotSystem (υ ι : Type) where
  tx : TxSystem υ
  fwCount : ℕ
  threads : ι → SlotPc

/-- A step of the transmit path, a call of one of the two functions, or the next statement of a
thread. -/
inductive SlotLabel (ι : Type) where
  | tx (label : TxLabel)
  | writeFwData (i : ι) (payload : List UInt8) (copied : Bool)
  | stopCanInterface (i : ι)
  | advance (i : ι) (ok : Bool) (msg : Msg)

namespace SlotSystem

variable {υ ι : Type}

/-- The transmit thread has just been started. -/
def start (dev : Dev υ) (transferMaxToken : ℤ) : SlotSystem υ ι :=
  ⟨TxSystem.start dev transferMaxToken, 0, fun _ => .idle 0⟩

/-- `down` on the semaphore. -/
def down (s : SlotSystem υ ι) : SlotSystem υ ι :=
  { s with tx := { s.tx with usbTransferSem := s.tx.usbTransferSem - 1 } }

/-- `up` on the semaphore. -/
def up (s : SlotSystem υ ι) : SlotSystem υ ι :=
  { s with tx := { s.tx with usbTransferSem := s.tx.usbTransferSem + 1 } }

/-- A URB is submitted. -/
def submitted (s : SlotSystem υ ι) : SlotSystem υ ι :=
  { s with tx := { s.tx with urbs := s.tx.urbs + 1 } }

variable [DecidableEq ι]

def goto (s : SlotSystem υ ι) (i : ι) (pc : SlotPc) : SlotSystem υ ι :=
  { s with threads := Function.update s.threads i pc }

/-- The next statement of a thread. `ok` tells whether no signal interrupts
`down_interruptible`, or whether the URB is submitted. -/
def advance (fwSize : ℕ) (s : SlotSystem υ ι) (i : ι) (ok : Bool) (msg : Msg) :
    Option (SlotSystem υ ι) :=
  match s.threads i with
  | .idle _ => none
  | .fwDown payload =>
      if ¬ ok then some (s.goto i (.idle (-eio)))
      else if s.tx.usbTransferSem > 0 then some (s.down.goto i (.fwPack payload))
      else none
  | .fwPack payload =>
      let fwCount := (s.fwCount + 32) % 2 ^ 32
      let (result, data) := packFwData fwSize fwCount payload msg
      let s := { s with fwCount := fwCount }
      if result ≠ .success then some (s.goto i .fwUp) else some (s.goto i (.fwSubmit data))
  | .fwSubmit _ => if ok then some (s.submitted.goto i (.idle 32)) else some (s.goto i .fwUp)
  | .fwUp => some (s.up.goto i (.idle (-eio)))
  | .probeClear =>
      if s.tx.dev.txDataClearRequested then some s else some (s.goto i .probe)
  | .probe =>
      -- `down_trylock`
      if s.tx.usbTransferSem > 0 then some (s.down.goto i .probeUp)
      else some (s.goto i .probeClear)
  | .probeUp => some (s.up.goto i (.idle 0))

def step (writeCmdId : UInt8) (bufferAddr fwSize : ℕ) (s : SlotSystem υ ι) :
    SlotLabel ι → Option (SlotSystem υ ι)
  | .tx label => (s.tx.step writeCmdId bufferAddr label).map fun tx => { s with tx := tx }
  | .writeFwData i payload copied =>
      match s.threads i with
      | .idle _ =>
          match writeFwDataCheck s.tx.dev payload.length copied with
          | some ret => some (s.goto i (.idle ret))
          | none => some (s.goto i (.fwDown payload))
      | _ => none
  | .stopCanInterface i =>
      match s.threads i with
      | .idle _ =>
          let dev := { s.tx.dev with txDataClearRequested := true }
          some ({ s with tx := { s.tx with dev := dev } }.goto i .probeClear)
      | _ => none
  | .advance i ok msg => s.advance fwSize i ok msg

end SlotSystem

end AptUsbtrx
