import AptUsbtrx.Model.Transmit

/-! # The URBs in flight

The transmit path in which every frame has the number of its acceptance, so that the URBs in flight
can be told apart and complete in any order. -/

namespace AptUsbtrx

open Memory

/-- The bytes of a URB. -/
def TxEvent.urbData : TxEvent → Option (List UInt8)
  | urb data => some data
  | _ => none

/-- The transmit path with the number of the next frame to leave the ring, and the numbers of the
frames whose URBs were submitted and of those not completed. -/
structure FlightSystem (υ : Type) where
  tx : TxSystem υ
  left : ℕ
  submitted : List ℕ
  flight : List ℕ

/-- A step of the transmit path, or the completion of the URB of one frame. -/
inductive FlightLabel where
  | tx (label : TxLabel)
  | complete (k : ℕ)

namespace FlightSystem

variable {υ : Type}

/-- The thread has just been started. -/
def start (dev : Dev υ) (transferMaxToken : ℤ) : FlightSystem υ :=
  ⟨TxSystem.start dev transferMaxToken, 0, [], []⟩

/-- The frame in the thread's hands. -/
def hand (s : FlightSystem υ) : Option ℕ :=
  if s.tx.pc.inHand then some (s.left - 1) else none

/-- The thread has done a step to `tx`. -/
def observe (s : FlightSystem υ) (tx : TxSystem υ) (event : FrameEvent) : FlightSystem υ :=
  let number := if event = .submit then [s.left - 1] else []
  { tx := tx
    left := event.left s.tx.accepted.length s.left
    submitted := s.submitted ++ number
    flight := s.flight ++ number }

def step (writeCmdId : UInt8) (bufferAddr : ℕ) (s : FlightSystem υ) :
    FlightLabel → Option (FlightSystem υ)
  | .tx .writeBulkCallback => none
  | .tx (.thread choice) =>
      (s.tx.thread bufferAddr choice).map fun tx => s.observe tx (s.tx.frameEvent bufferAddr choice)
  | .tx label => (s.tx.step writeCmdId bufferAddr label).map fun tx => { s with tx := tx }
  | .complete k =>
      if k ∈ s.flight then
        (s.tx.step writeCmdId bufferAddr .writeBulkCallback).map fun tx =>
          { s with tx := tx, flight := s.flight.erase k }
      else none

end FlightSystem

end AptUsbtrx
