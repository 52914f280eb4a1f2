import AptUsbtrx.Model.Ep1Cf02a
import AptUsbtrx.Model.Flight

/-! # Stopping the CAN interface

One call of `ep1_cf02a_stop_can_interface` across the transmit path. -/

namespace AptUsbtrx

namespace Ep1Cf02a

/-- Where the caller of `ep1_cf02a_stop_can_interface` stands. -/
inductive StopPc where
  | idle
  | probeClear
  | probe
  | probeUp
  | send
  | sent
  deriving DecidableEq

/-- The transmit path and the caller. `before` are the frames queued in front of the call. -/
structure StopSystem (υ : Type) where
  flight : FlightSystem υ
  pc : StopPc
  before : ℕ

/-- A step of the transmit path, the call, or the next statement of the caller. -/
inductive StopLabel where
  | flight (label : FlightLabel)
  | stopCanInterface
  | advance

namespace StopSystem

variable {υ : Type}

/-- The thread has just been started. -/
def start (dev : Dev υ) (transferMaxToken : ℤ) : StopSystem υ :=
  ⟨FlightSystem.start dev transferMaxToken, .idle, 0⟩

def tx (s : StopSystem υ) : TxSystem υ := s.flight.tx

def setTx (s : StopSystem υ) (tx : TxSystem υ) : StopSystem υ :=
  { s with flight := { s.flight with tx := tx } }

def setPc (s : StopSystem υ) (pc : StopPc) : StopSystem υ := { s with pc := pc }

/-- The next statement of the caller. In `send` it is the one that sends the command. -/
def advance (s : StopSystem υ) : Option (StopSystem υ) :=
  match s.pc with
  | .idle | .sent => none
  | .probeClear => if s.tx.dev.txDataClearRequested then some s else some (s.setPc .probe)
  | .probe =>
      -- `down_trylock`
      if s.tx.usbTransferSem > 0 then
        some ((s.setTx { s.tx with usbTransferSem := s.tx.usbTransferSem - 1 }).setPc .probeUp)
      else some (s.setPc .probeClear)
  | .probeUp =>
      some ((s.setTx { s.tx with usbTransferSem := s.tx.usbTransferSem + 1 }).setPc .send)
  | .send => some (s.setPc .sent)

/-- Nobody else requests that the ring is cleared. -/
def step (bufferAddr : ℕ) (s : StopSystem υ) : StopLabel → Option (StopSystem υ)
  | .flight (.tx .requestClear) => none
  | .flight label =>
      (s.flight.step cmdSendCANFrame bufferAddr label).map fun flight => { s with flight := flight }
  | .stopCanInterface =>
      if s.pc = .idle then
        some { s.setTx { s.tx with dev := { s.tx.dev with txDataClearRequested := true } } with
          pc := .probeClear
          before := s.tx.accepted.length }
      else none
  | .advance => s.advance

end StopSystem

end Ep1Cf02a

end AptUsbtrx
