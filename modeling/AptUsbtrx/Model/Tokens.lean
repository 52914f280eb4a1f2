import AptUsbtrx.Model.Receive
import AptUsbtrx.Model.Transmit

/-! # The transfer tokens

The transmit thread refills its tokens when they have expired, with the maximum of the moment and
by the buffer status that the device last notified. -/

namespace AptUsbtrx

open Memory

/-- From one refill to the next: the maximum and the rate that the refill has read, and the URBs
submitted since. -/
structure RefillWindow where
  transferMaxToken : ℤ
  txBufferRate : ℕ
  submitted : ℕ
  deriving DecidableEq

/-- What the refill sets `tx_transfer_token` to. -/
def RefillWindow.budget (w : RefillWindow) : ℤ :=
  if w.txBufferRate > txTransferLimitRate then 0 else w.transferMaxToken * txTokenExpiredTime

/-- What a step of the thread does with the tokens. -/
inductive TokenEvent where
  | refill
  | submit
  | keep
  deriving DecidableEq

def TxPc.tokenEvent : TxPc → Bool → TokenEvent
  | .token, true => .refill
  | .submit .., true => .submit
  | _, _ => .keep

/-- The transmit path with the windows of its tokens, the current one and the earlier ones. -/
structure TokenSystem (υ : Type) where
  tx : TxSystem υ
  current : RefillWindow
  past : List RefillWindow

/-- A step of the transmit path, a change of `tx_transfer_max_token`, or a message from the
device. -/
inductive TokenLabel where
  | tx (label : TxLabel)
  | setMaxToken (maxToken : ℕ)
  | dispatchMsg (data : List UInt8) (msg : Msg)

namespace TokenSystem

variable {υ : Type}

/-- `apt_usbtrx_probe` starts without tokens. -/
def start (dev : Dev υ) (maxToken : ℕ) : TokenSystem υ :=
  ⟨TxSystem.start dev maxToken, ⟨0, 0, 0⟩, []⟩

/-- What a step of the thread adds to the windows. -/
def observe (s : TokenSystem υ) (choice : Bool) : RefillWindow × List RefillWindow :=
  match s.tx.pc.tokenEvent choice with
  | .refill => (⟨s.tx.transferMaxToken, s.tx.dev.txBufferRate, 0⟩, s.current :: s.past)
  | .submit => ({ s.current with submitted := s.current.submitted + 1 }, s.past)
  | .keep => (s.current, s.past)

def step (uniqueDispatch : Dispatch (Dev υ)) (writeCmdId : UInt8) (bufferAddr : ℕ)
    (s : TokenSystem υ) : TokenLabel → Option (TokenSystem υ)
  | .tx label =>
      let windows := match label with
        | .thread choice => s.observe choice
        | _ => (s.current, s.past)
      (s.tx.step writeCmdId bufferAddr label).map fun tx => ⟨tx, windows.1, windows.2⟩
  | .setMaxToken maxToken => some { s with tx := { s.tx with transferMaxToken := maxToken } }
  | .dispatchMsg data msg =>
      let dev := (AptUsbtrx.dispatchMsg uniqueDispatch s.tx.dev data msg).1
      some { s with tx := { s.tx with dev := dev } }

end TokenSystem

end AptUsbtrx
