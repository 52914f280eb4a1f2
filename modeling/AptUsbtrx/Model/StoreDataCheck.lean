import AptUsbtrx.Model.Ep1Cf02a
import AptUsbtrx.Shared.ByteOrder

/-! # The check of stored data

The check mode of the tool `ep1_cf02a_get_store_data_list`: every frame carries a counter, and what
is missing between the counters of a CAN id counts as lost. -/

namespace AptUsbtrx

open Memory ByteOrder Ep1Cf02a

namespace StoreDataCheck

/-- `EP1_CF02A_CAN_PACKET_SIZE` -/
def canPacketSize : ℕ := 78

/-- `MAX_CAN_IDS` -/
def maxCanIds : ℕ := 256

/-- `can_data_tracker_t` -/
structure CanDataTracker where
  canId : ℕ
  lastData : UInt64
  hasData : Bool
  deriving DecidableEq

/-- A tracker after the `memset` of `reset_trackers`. -/
def CanDataTracker.zero : CanDataTracker := ⟨0, 0, false⟩

/-- The first `tracker_count` of `can_trackers`, `total_lost_frames` and `total_error_frames`. -/
structure CheckState where
  canTrackers : List CanDataTracker
  totalLostFrames : UInt64
  totalErrorFrames : UInt64
  deriving DecidableEq

/-- `reset_trackers` -/
def resetTrackers : CheckState := ⟨[], 0, 0⟩

/-- `can_dlc2len` -/
def canDlc2len (dlc : ℕ) : ℤ :=
  if dlc ≤ 15 then
    ([0, 1, 2, 3, 4, 5, 6, 7, 8, 12, 16, 20, 24, 32, 48, 64] : List ℤ).getD dlc 0
  else -1

/-- `parse_u64_be` -/
def parseU64Be (data : List UInt8) (len : ℕ) : UInt64 :=
  if len < 8 then 0 else UInt64.ofNat (ofBigEndian (data.take 8))

/-- What the check reads of a `struct canfd_frame`. -/
structure CanfdFrame where
  canId : ℕ
  len : UInt8
  data : List UInt8
  deriving DecidableEq

/-- The frame of a packet. -/
def frameOf (buf : List UInt8) : CanfdFrame where
  canId := le32 buf 8 &&& 0x1FFFFFFF
  len := UInt8.ofInt (canDlc2len (byteAt buf 12 &&& 0x0F).toNat)
  data := slice buf 14 64

/-- `find_or_create_tracker`: the index of the tracker and the table, `none` when it is full. -/
def findOrCreateTracker (canTrackers : List CanDataTracker) (canId : ℕ) :
    Option (ℕ × List CanDataTracker) :=
  match canTrackers.findIdx? fun tracker => tracker.canId = canId with
  | some i => some (i, canTrackers)
  | none =>
      if canTrackers.length ≥ maxCanIds then none
      else some (canTrackers.length, canTrackers ++ [{ CanDataTracker.zero with canId := canId }])

/-- `lost_frames`, for the counter of a frame. -/
def CanDataTracker.lostFrames (tracker : CanDataTracker) (currentData : UInt64) : UInt64 :=
  if tracker.hasData ∧ currentData > tracker.lastData + 1 then currentData - tracker.lastData - 1
  else 0

/-- The tracker after the counter of a frame; one that goes back is not kept. -/
def CanDataTracker.update (tracker : CanDataTracker) (currentData : UInt64) : CanDataTracker :=
  { tracker with
    lastData :=
      if tracker.hasData then
        if currentData ≥ tracker.lastData + 1 then currentData else tracker.lastData
      else currentData
    hasData := true }

/-- The check of a frame. -/
def checkFrame (s : CheckState) (frame : CanfdFrame) : CheckState :=
  let tracker := findOrCreateTracker s.canTrackers frame.canId
  let s := { s with canTrackers := (tracker.map Prod.snd).getD s.canTrackers }
  let s := if tracker = none then { s with totalErrorFrames := s.totalErrorFrames + 1 } else s
  let s := if frame.len ≠ 8 then { s with totalErrorFrames := s.totalErrorFrames + 1 } else s
  match tracker with
  | some (i, canTrackers) =>
      if frame.len = 8 then
        let currentData := parseU64Be frame.data frame.len.toNat
        let tracker := canTrackers.getD i .zero
        { s with
          canTrackers := canTrackers.set i (tracker.update currentData)
          totalLostFrames := s.totalLostFrames + tracker.lostFrames currentData }
      else s
  | none => s

/-! ### `read_store_data` -/

/-- The variables of a call. -/
structure ReadStoreData where
  totalRsize : ℤ
  check : CheckState
  canCount : ℕ

/-- A round of `while (total_rsize < total_can_frame_size && !stop_requested)`: the signals, the data
that `EP1_CF02A_IOCTL_READ_STORE_DATA` stores, `none` when it fails, and `start` in the answer that is
asked for when there are none. -/
structure ReadRound where
  stopRequested : Bool
  data : Option (List UInt8)
  rxStart : Bool

/-- The packets of a read; what is left of the last one is not looked at. -/
def packets (data : List UInt8) : List (List UInt8) :=
  (List.range (data.length / canPacketSize)).map fun num =>
    slice data (num * canPacketSize) canPacketSize

/-- A frame, which is printed when it is not checked. -/
def ReadStoreData.readFrame (isCheckMode : Bool) (s : ReadStoreData) (frame : CanfdFrame) :
    ReadStoreData :=
  { s with
    check := if isCheckMode then checkFrame s.check frame else s.check
    canCount := s.canCount + 1 }

/-- The loop; `true` is `error`. -/
def readLoop (isCheckMode : Bool) (totalCanFrameSize : ℤ) :
    ReadStoreData → List ReadRound → ReadStoreData × Bool
  | s, [] => (s, false)
  | s, round :: rounds =>
      if s.totalRsize < totalCanFrameSize ∧ ¬ round.stopRequested then
        match round.data with
        | none => (s, true)
        | some data =>
            if data.length = 0 then
              if ¬ round.rxStart ∧ s.totalRsize ≠ totalCanFrameSize then (s, true)
              else readLoop isCheckMode totalCanFrameSize s rounds
            else
              let s := { s with totalRsize := s.totalRsize + data.length }
              readLoop isCheckMode totalCanFrameSize
                (((packets data).map frameOf).foldl (ReadStoreData.readFrame isCheckMode) s) rounds
      else (s, false)

/-- `read_store_data` up to `stop`; `started` is whether the first `set_store_data_rx_control`
succeeds. -/
def readStoreData (started : Bool) (canFrameCount : ℕ) (isCheckMode : Bool)
    (rounds : List ReadRound) : ReadStoreData × Bool :=
  let s : ReadStoreData := ⟨0, resetTrackers, 0⟩
  if ¬ started then (s, true)
  else readLoop isCheckMode (((canFrameCount * canPacketSize : ℕ) : ℤ).bmod (2 ^ 64)) s rounds

end StoreDataCheck

end AptUsbtrx
