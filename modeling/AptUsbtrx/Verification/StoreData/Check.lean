import AptUsbtrx.Model.StoreDataCheck
import AptUsbtrx.Shared.GapCount
import AptUsbtrx.Verification.Msg.Words

/-! # The lost frames of stored data

The table of trackers refines a count of the gaps of each CAN id, so that the total is the sum over
the ids, in `uint64_t`. -/

namespace AptUsbtrx

open Memory ByteOrder Ep1Cf02a GapCount

namespace StoreDataCheck

/-- The counter that a frame carries. -/
def counter (frame : CanfdFrame) : ℕ := (parseU64Be frame.data frame.len.toNat).toNat

/-- The counters with their ids. -/
def stream (frames : List CanfdFrame) : List (ℕ × ℕ) :=
  frames.map fun frame => (frame.canId, counter frame)

/-- Frames of eight bytes, the counters of each id increase, and the ids fit in the table. -/
structure Countable (frames : List CanfdFrame) : Prop where
  len : ∀ frame ∈ frames, frame.len = 8
  increasing : Increasing (stream frames)
  ids : (keys (stream frames)).card ≤ maxCanIds

/-- The tracker of an id. -/
def trackerOf (canTrackers : List CanDataTracker) (canId : ℕ) : Option CanDataTracker :=
  canTrackers.find? fun tracker => tracker.canId = canId

variable {canTrackers : List CanDataTracker} {tracker : CanDataTracker} {canId : ℕ}
  {s : CheckState} {frame : CanfdFrame} {frames : List CanfdFrame} {currentData : UInt64}

theorem canId_of_trackerOf (h : trackerOf canTrackers canId = some tracker) :
    tracker.canId = canId := by
  have hfound := List.find?_some h
  exact of_decide_eq_true hfound

/-! ### One tracker -/

theorem toNat_lastData_succ (hlt : tracker.lastData.toNat < currentData.toNat) :
    (tracker.lastData + 1).toNat = tracker.lastData.toNat + 1 := by
  have hmax := currentData.toNat_lt
  rw [UInt64.toNat_add, UInt64.toNat_one]
  omega

theorem toNat_lostFrames (hdata : tracker.hasData)
    (hlt : tracker.lastData.toNat < currentData.toNat) :
    (tracker.lostFrames currentData).toNat = currentData.toNat - tracker.lastData.toNat - 1 := by
  have hsucc := toNat_lastData_succ hlt
  rw [CanDataTracker.lostFrames]
  by_cases hgt : currentData > tracker.lastData + 1
  · have hlast : tracker.lastData ≤ currentData := UInt64.le_iff_toNat_le.mpr hlt.le
    have hsub := UInt64.toNat_sub_of_le _ _ hlast
    have hone : 1 ≤ currentData - tracker.lastData := by
      rw [UInt64.le_iff_toNat_le, UInt64.toNat_one]
      omega
    rw [if_pos ⟨hdata, hgt⟩, UInt64.toNat_sub_of_le _ _ hone, hsub, UInt64.toNat_one]
  · have hle := UInt64.le_iff_toNat_le.mp (UInt64.not_lt.mp hgt)
    rw [if_neg fun h => hgt h.2, UInt64.toNat_zero]
    omega

theorem lastData_update (hlt : tracker.lastData.toNat < currentData.toNat) :
    (tracker.update currentData).lastData = currentData := by
  have hge : currentData ≥ tracker.lastData + 1 := by
    rw [ge_iff_le, UInt64.le_iff_toNat_le, toNat_lastData_succ hlt]
    omega
  rw [CanDataTracker.update]
  dsimp only
  rw [if_pos hge, ite_self]

/-! ### The table -/

/-- The index of a tracker that is there, and the table after it is replaced. -/
theorem exists_index (h : trackerOf canTrackers canId = some tracker) :
    ∃ i, canTrackers.findIdx? (fun tracker => tracker.canId = canId) = some i ∧
      canTrackers[i]? = some tracker ∧
      ∀ new : CanDataTracker, new.canId = canId → ∀ other, trackerOf (canTrackers.set i new) other =
        if other = canId then some new else trackerOf canTrackers other := by
  induction canTrackers with
  | nil => cases h
  | cons head rest ih =>
      by_cases hhead : head.canId = canId
      · have hsame : head = tracker := by simpa [trackerOf, hhead] using h
        subst hsame
        refine ⟨0, by simp [List.findIdx?_cons, hhead], rfl, fun new hnew other => ?_⟩
        by_cases hother : other = canId
        · subst hother
          simp [trackerOf, hnew]
        · simp [trackerOf, hnew, hhead, hother, Ne.symm hother]
      · have hrest : trackerOf rest canId = some tracker := by simpa [trackerOf, hhead] using h
        obtain ⟨i, hindex, hget, hset⟩ := ih hrest
        refine ⟨i + 1, by simp [List.findIdx?_cons, hhead, hindex], hget, fun new hnew other => ?_⟩
        have hnext := hset new hnew other
        rw [trackerOf] at hnext ⊢
        rw [List.set_cons_succ, List.find?_cons, hnext]
        by_cases hother : other = canId
        · subst hother
          simp [hhead]
        · simp [trackerOf, List.find?_cons, hother]

theorem checkFrame_of_some (hlen : frame.len = 8)
    (h : trackerOf s.canTrackers frame.canId = some tracker) :
    ∃ i, (∀ new : CanDataTracker, new.canId = frame.canId → ∀ other,
        trackerOf (s.canTrackers.set i new) other =
          if other = frame.canId then some new else trackerOf s.canTrackers other) ∧
      checkFrame s frame =
        { s with
          canTrackers := s.canTrackers.set i (tracker.update (parseU64Be frame.data frame.len.toNat))
          totalLostFrames :=
            s.totalLostFrames + tracker.lostFrames (parseU64Be frame.data frame.len.toNat) } := by
  obtain ⟨i, hindex, hget, hset⟩ := exists_index h
  have hfound : findOrCreateTracker s.canTrackers frame.canId = some (i, s.canTrackers) := by
    rw [findOrCreateTracker, hindex]
  refine ⟨i, hset, ?_⟩
  rw [checkFrame, hfound]
  simp [hlen, hget]

theorem checkFrame_of_none (hlen : frame.len = 8) (h : trackerOf s.canTrackers frame.canId = none)
    (hroom : s.canTrackers.length < maxCanIds) :
    checkFrame s frame =
      { s with
        canTrackers := s.canTrackers ++
          [⟨frame.canId, parseU64Be frame.data frame.len.toNat, true⟩] } := by
  have hindex : s.canTrackers.findIdx? (fun tracker => tracker.canId = frame.canId) = none := by
    rw [List.findIdx?_eq_none_iff]
    simpa [trackerOf] using h
  have hfound : findOrCreateTracker s.canTrackers frame.canId = some (s.canTrackers.length,
      s.canTrackers ++ [{ CanDataTracker.zero with canId := frame.canId }]) := by
    rw [findOrCreateTracker, hindex]
    exact if_neg (Nat.not_le.mpr hroom)
  rw [checkFrame, hfound]
  simp [hlen, CanDataTracker.update, CanDataTracker.lostFrames, CanDataTracker.zero]

/-! ### The frames -/

/-- What the check knows of the counters so far. -/
structure Tracks (s : CheckState) (stream : List (ℕ × ℕ)) : Prop where
  last : ∀ id, (trackerOf s.canTrackers id).map (fun tracker => tracker.lastData.toNat) =
    (Count.run stream).last id
  hasData : ∀ tracker ∈ s.canTrackers, tracker.hasData
  length : s.canTrackers.length = (keys stream).card
  total : s.totalLostFrames.toNat = (Count.run stream).total % 2 ^ 64

theorem tracks_resetTrackers : Tracks resetTrackers [] where
  last _ := rfl
  hasData _ h := nomatch h
  length := rfl
  total := rfl

/-- The id of a counter has a tracker just when it has occurred. -/
theorem Tracks.mem_keys_iff {before : List (ℕ × ℕ)} (h : Tracks s before)
    (hincreasing : Increasing before) (id : ℕ) :
    id ∈ keys before ↔ trackerOf s.canTrackers id ≠ none := by
  have hlast := h.last id
  rw [(count_spec hincreasing).1] at hlast
  rw [← not_iff_not, not_not, ← counters_eq_nil_iff, ← List.getLast?_eq_none_iff, ← hlast,
    Option.map_eq_none_iff]

theorem Tracks.checkFrame_new {before : List (ℕ × ℕ)} (h : Tracks s before) (hlen : frame.len = 8)
    (hincreasing : Increasing before)
    (hids : (keys (before ++ [(frame.canId, counter frame)])).card ≤ maxCanIds)
    (hnone : trackerOf s.canTrackers frame.canId = none) :
    Tracks (checkFrame s frame) (before ++ [(frame.canId, counter frame)]) := by
  have hkey : frame.canId ∉ keys before := fun hmem =>
    (h.mem_keys_iff hincreasing frame.canId).mp hmem hnone
  have hlast := h.last frame.canId
  rw [hnone, Option.map_none] at hlast
  rw [keys_concat, Finset.card_insert_of_notMem hkey, ← h.length] at hids
  rw [checkFrame_of_none hlen hnone hids]
  constructor
  · intro id
    rw [Count.run_concat, trackerOf, List.find?_append]
    by_cases hid : id = frame.canId
    · subst hid
      rw [Count.last_next_self]
      rw [trackerOf] at hnone
      simp [hnone, counter]
    · rw [Count.last_next_of_ne _ hid, ← h.last]
      simp [trackerOf, Ne.symm hid]
  · intro tracker hmem
    rcases List.mem_append.mp hmem with hmem | hmem
    · exact h.hasData tracker hmem
    · obtain rfl := List.mem_singleton.mp hmem
      rfl
  · rw [List.length_append, h.length, keys_concat, Finset.card_insert_of_notMem hkey,
      List.length_singleton]
  · rw [Count.run_concat, Count.total_next, ← hlast, Count.between, Nat.add_zero, ← h.total]

theorem Tracks.checkFrame_known {before : List (ℕ × ℕ)} (h : Tracks s before) (hlen : frame.len = 8)
    (hincreasing : Increasing (before ++ [(frame.canId, counter frame)]))
    (hsome : trackerOf s.canTrackers frame.canId = some tracker) :
    Tracks (checkFrame s frame) (before ++ [(frame.canId, counter frame)]) := by
  have hkey : frame.canId ∈ keys before :=
    (h.mem_keys_iff hincreasing.concat.1 frame.canId).mpr (by rw [hsome]; simp)
  have hlast := h.last frame.canId
  rw [hsome, Option.map_some] at hlast
  have hlt : tracker.lastData.toNat < counter frame := by
    apply hincreasing.concat.2
    rw [(count_spec hincreasing.concat.1).1] at hlast
    exact List.mem_of_getLast? hlast.symm
  have hid : tracker.canId = frame.canId := canId_of_trackerOf hsome
  have hdata := h.hasData tracker (List.mem_of_find?_eq_some hsome)
  obtain ⟨i, hset, hcheck⟩ := checkFrame_of_some hlen hsome
  rw [hcheck]
  constructor
  · intro id
    rw [Count.run_concat, hset (tracker.update _) hid]
    by_cases hother : id = frame.canId
    · subst hother
      rw [if_pos rfl, Count.last_next_self, Option.map_some, lastData_update hlt, counter]
    · rw [if_neg hother, Count.last_next_of_ne _ hother, h.last]
  · intro other hmem
    rcases List.mem_or_eq_of_mem_set hmem with hmem | rfl
    · exact h.hasData other hmem
    · rfl
  · rw [List.length_set, h.length, keys_concat, Finset.insert_eq_of_mem hkey]
  · rw [Count.run_concat, Count.total_next, ← hlast, Count.between, UInt64.toNat_add,
      toNat_lostFrames hdata hlt, h.total, Nat.mod_add_mod]
    rfl

/-- One more frame. -/
theorem Tracks.checkFrame {before : List (ℕ × ℕ)} (h : Tracks s before) (hlen : frame.len = 8)
    (hincreasing : Increasing (before ++ [(frame.canId, counter frame)]))
    (hids : (keys (before ++ [(frame.canId, counter frame)])).card ≤ maxCanIds) :
    Tracks (checkFrame s frame) (before ++ [(frame.canId, counter frame)]) := by
  cases htracker : trackerOf s.canTrackers frame.canId with
  | none => exact h.checkFrame_new hlen hincreasing.concat.1 hids htracker
  | some tracker => exact h.checkFrame_known hlen hincreasing htracker

theorem Countable.concat (h : Countable (frames ++ [frame])) :
    Countable frames ∧ frame.len = 8 := by
  have hstream : stream (frames ++ [frame]) = stream frames ++ [(frame.canId, counter frame)] :=
    List.map_append
  refine ⟨⟨fun f hf => h.len f (List.mem_append_left _ hf), ?_, ?_⟩, h.len frame (by simp)⟩
  · exact (hstream ▸ h.increasing).concat.1
  · refine (Finset.card_le_card ?_).trans h.ids
    rw [hstream, keys_concat]
    exact Finset.subset_insert _ _

theorem tracks_foldl (h : Countable frames) :
    Tracks (frames.foldl StoreDataCheck.checkFrame resetTrackers) (stream frames) := by
  induction frames using List.reverseRecOn with
  | nil => exact tracks_resetTrackers
  | append_singleton frames frame ih =>
      have hstream : stream (frames ++ [frame]) = stream frames ++ [(frame.canId, counter frame)] :=
        List.map_append
      obtain ⟨hfront, hlen⟩ := h.concat
      have hincreasing := h.increasing
      have hids := h.ids
      rw [hstream] at hincreasing hids ⊢
      rw [List.foldl_append, List.foldl_cons, List.foldl_nil]
      exact (ih hfront).checkFrame hlen hincreasing hids

theorem totalLostFrames_foldl (h : Countable frames) :
    ((frames.foldl StoreDataCheck.checkFrame resetTrackers).totalLostFrames.toNat : ℤ) =
      totalMissing (stream frames) % 2 ^ 64 := by
  rw [(tracks_foldl h).total, ← (count_spec h.increasing).2]
  push_cast
  rfl

/-! ### Packets -/

/-- A frame of eight bytes as the unit stores it; the eight bytes are a counter. -/
structure StoredFrame where
  timestamp : List UInt8
  canId : ℕ
  dlc : UInt8
  flags : UInt8
  counter : ℕ
  rest : List UInt8
  timestamp_length : timestamp.length = 8
  canId_lt : canId < 2 ^ 32
  dlc_and : dlc &&& 0x0F = 8
  counter_lt : counter < 2 ^ 64
  rest_length : rest.length = 56

namespace StoredFrame

/-- The packet. -/
def bytes (frame : StoredFrame) : List UInt8 :=
  frame.timestamp ++ littleEndian 4 frame.canId ++ [frame.dlc, frame.flags] ++
    (littleEndian 8 frame.counter).reverse ++ frame.rest

/-- The counters with their masked ids. -/
def stream (frames : List StoredFrame) : List (ℕ × ℕ) :=
  frames.map fun frame => (frame.canId &&& 0x1FFFFFFF, frame.counter)

/-- The counters of each masked id increase, and the ids fit in the table. -/
structure Countable (frames : List StoredFrame) : Prop where
  increasing : Increasing (stream frames)
  ids : (keys (stream frames)).card ≤ maxCanIds

theorem length_bytes (frame : StoredFrame) : frame.bytes.length = canPacketSize := by
  simp [bytes, frame.timestamp_length, frame.rest_length, canPacketSize]

theorem slice_bytes_canId (frame : StoredFrame) :
    slice frame.bytes 8 4 = littleEndian 4 frame.canId := by
  have hslice := slice_append_append frame.timestamp (littleEndian 4 frame.canId)
    ([frame.dlc, frame.flags] ++ (littleEndian 8 frame.counter).reverse ++ frame.rest)
  rw [frame.timestamp_length, length_littleEndian] at hslice
  rw [← hslice, bytes]
  simp only [List.append_assoc]

theorem drop_bytes (frame : StoredFrame) : frame.bytes.drop 12 =
    frame.dlc :: frame.flags :: ((littleEndian 8 frame.counter).reverse ++ frame.rest) := by
  have hlength : (frame.timestamp ++ littleEndian 4 frame.canId).length = 12 := by
    rw [List.length_append, frame.timestamp_length, length_littleEndian]
  rw [bytes, List.append_assoc, List.append_assoc, ← hlength, List.drop_left]
  rfl

/-- What the tool makes of the packet. -/
theorem frameOf_bytes (frame : StoredFrame) : frameOf frame.bytes =
    ⟨frame.canId &&& 0x1FFFFFFF, 8, (littleEndian 8 frame.counter).reverse ++ frame.rest⟩ := by
  have hid : le32 frame.bytes 8 = frame.canId := by
    have hvalue := ofLittleEndian_littleEndian 4 frame.canId
    have hlt := frame.canId_lt
    rw [← slice_bytes_canId, ← le32_eq_ofLittleEndian] at hvalue
    omega
  have hdlc : byteAt frame.bytes 12 = frame.dlc := by
    rw [byteAt, List.getD_eq_getElem?_getD, ← List.head?_drop, drop_bytes]
    rfl
  have hdata : slice frame.bytes 14 64 =
      (littleEndian 8 frame.counter).reverse ++ frame.rest := by
    rw [slice, show 14 = 12 + 2 from rfl, ← List.drop_drop, drop_bytes]
    refine List.take_of_length_le ?_
    simp [frame.rest_length]
  rw [frameOf, hid, hdlc, frame.dlc_and, hdata]
  rfl

theorem counter_frameOf_bytes (frame : StoredFrame) :
    StoreDataCheck.counter (frameOf frame.bytes) = frame.counter := by
  have hvalue := ofLittleEndian_littleEndian 8 frame.counter
  have hlt := frame.counter_lt
  have hlength : (littleEndian 8 frame.counter).reverse.length = 8 := by simp
  rw [frameOf_bytes, StoreDataCheck.counter]
  change (UInt64.ofNat
    (ofBigEndian (((littleEndian 8 frame.counter).reverse ++ frame.rest).take 8))).toNat = _
  rw [List.take_left' hlength, ofBigEndian, List.reverse_reverse, UInt64.toNat_ofNat']
  omega

end StoredFrame

/-- The packets of a read that starts with one. -/
theorem packets_append {front : List UInt8} (h : front.length = canPacketSize) (data : List UInt8) :
    packets (front ++ data) = front :: packets data := by
  have hcount : (front ++ data).length / canPacketSize = data.length / canPacketSize + 1 := by
    rw [List.length_append, h]
    exact Nat.add_div_left _ (by decide)
  have hnext (num : ℕ) : slice (front ++ data) ((num + 1) * canPacketSize) canPacketSize =
      slice data (num * canPacketSize) canPacketSize := by
    rw [slice, Nat.add_mul, Nat.one_mul, Nat.add_comm, ← h, List.drop_length_add_append, slice]
  rw [packets, hcount, List.range_succ_eq_map, List.map_cons, List.map_map, Nat.zero_mul,
    slice_zero, ← h, List.take_left, h]
  exact congrArg (front :: ·) (List.map_congr_left fun num _ => hnext num)

theorem packets_of_short {tail : List UInt8} (h : tail.length < canPacketSize) :
    packets tail = [] := by
  rw [packets, Nat.div_eq_of_lt h]
  rfl

theorem packets_frames (frames : List StoredFrame) {tail : List UInt8}
    (h : tail.length < canPacketSize) :
    packets (frames.flatMap StoredFrame.bytes ++ tail) = frames.map StoredFrame.bytes := by
  induction frames with
  | nil => exact packets_of_short h
  | cons frame frames ih =>
      rw [List.flatMap_cons, List.append_assoc, packets_append frame.length_bytes, ih,
        List.map_cons]

/-! ### The reads -/

/-- The data that the rounds of the loop read, as long as it runs. -/
def readData (totalCanFrameSize : ℤ) : ℤ → List ReadRound → List (List UInt8)
  | _, [] => []
  | totalRsize, round :: rounds =>
      if totalRsize < totalCanFrameSize ∧ ¬ round.stopRequested then
        match round.data with
        | none => []
        | some data =>
            if data.length = 0 then
              if ¬ round.rxStart ∧ totalRsize ≠ totalCanFrameSize then []
              else readData totalCanFrameSize totalRsize rounds
            else data :: readData totalCanFrameSize (totalRsize + data.length) rounds
      else []

/-- The data that a call reads. -/
def dataOf (started : Bool) (canFrameCount : ℕ) (rounds : List ReadRound) : List (List UInt8) :=
  if started then readData (((canFrameCount * canPacketSize : ℕ) : ℤ).bmod (2 ^ 64)) 0 rounds
  else []

/-- The reads give the frames: each of them some, whole, and less than a packet behind them. -/
inductive Delivers : List (List UInt8) → List StoredFrame → Prop where
  | nil : Delivers [] []
  | cons (frames : List StoredFrame) {tail : List UInt8} {reads : List (List UInt8)}
      {later : List StoredFrame} : tail.length < canPacketSize → Delivers reads later →
      Delivers ((frames.flatMap StoredFrame.bytes ++ tail) :: reads) (frames ++ later)

theorem Delivers.packets_eq {reads : List (List UInt8)} {frames : List StoredFrame}
    (h : Delivers reads frames) : reads.flatMap packets = frames.map StoredFrame.bytes := by
  induction h with
  | nil => rfl
  | cons frames htail _ ih =>
      rw [List.flatMap_cons, packets_frames frames htail, ih, List.map_append]

theorem check_foldl (s : ReadStoreData) (frames : List CanfdFrame) :
    (frames.foldl (ReadStoreData.readFrame true) s).check = frames.foldl checkFrame s.check ∧
      (frames.foldl (ReadStoreData.readFrame true) s).totalRsize = s.totalRsize := by
  induction frames generalizing s with
  | nil => exact ⟨rfl, rfl⟩
  | cons frame frames ih => exact ih (s.readFrame true frame)

/-- The loop checks the packets of the data that it reads. -/
theorem check_readLoop (totalCanFrameSize : ℤ) (s : ReadStoreData) (rounds : List ReadRound) :
    (readLoop true totalCanFrameSize s rounds).1.check =
      (((readData totalCanFrameSize s.totalRsize rounds).flatMap packets).map frameOf).foldl
        checkFrame s.check := by
  induction rounds generalizing s with
  | nil => rfl
  | cons round rounds ih =>
      rw [readLoop, readData]
      split
      case isFalse => rfl
      case isTrue =>
        cases round.data with
        | none => rfl
        | some data =>
            dsimp only
            split
            case isTrue =>
              split
              case isTrue => rfl
              case isFalse => exact ih s
            case isFalse =>
              have hread := check_foldl { s with totalRsize := s.totalRsize + data.length }
                ((packets data).map frameOf)
              rw [ih, hread.1, hread.2, List.flatMap_cons, List.map_append, List.foldl_append]

/-- A call in check mode. -/
theorem check_readStoreData (started : Bool) (canFrameCount : ℕ) (rounds : List ReadRound) :
    (readStoreData started canFrameCount true rounds).1.check =
      (((dataOf started canFrameCount rounds).flatMap packets).map frameOf).foldl checkFrame
        resetTrackers := by
  rw [readStoreData, dataOf]
  cases started with
  | false => rfl
  | true => exact check_readLoop _ ⟨0, resetTrackers, 0⟩ rounds

theorem stream_frameOf (frames : List StoredFrame) :
    stream ((frames.map StoredFrame.bytes).map frameOf) = StoredFrame.stream frames := by
  rw [stream, StoredFrame.stream, List.map_map, List.map_map]
  refine List.map_congr_left fun frame _ => ?_
  change ((frameOf frame.bytes).canId, counter (frameOf frame.bytes)) = _
  rw [frame.counter_frameOf_bytes, frame.frameOf_bytes]

/-- The total of a call whose reads give these frames. -/
theorem totalLostFrames_of_delivers {started : Bool} {canFrameCount : ℕ} {rounds : List ReadRound}
    {frames : List StoredFrame} (hreads : Delivers (dataOf started canFrameCount rounds) frames)
    (h : StoredFrame.Countable frames) :
    ((readStoreData started canFrameCount true rounds).1.check.totalLostFrames.toNat : ℤ) =
      totalMissing (StoredFrame.stream frames) % 2 ^ 64 := by
  have hlen : ∀ frame ∈ (frames.map StoredFrame.bytes).map frameOf, frame.len = 8 := by
    rw [List.map_map]
    intro frame hframe
    obtain ⟨stored, -, rfl⟩ := List.mem_map.mp hframe
    exact congrArg CanfdFrame.len stored.frameOf_bytes
  have hstream := stream_frameOf frames
  rw [check_readStoreData, hreads.packets_eq, ← hstream]
  exact totalLostFrames_foldl ⟨hlen, hstream ▸ h.increasing, hstream ▸ h.ids⟩

/-- In whatever order the ids come, the total is what is missing over all of them, in `uint64_t`. -/
theorem totalLostFrames_readStoreData {started : Bool} {canFrameCount : ℕ} {rounds : List ReadRound}
    {frames : List StoredFrame} (hreads : Delivers (dataOf started canFrameCount rounds) frames)
    (h : StoredFrame.Countable frames) :
    ((readStoreData started canFrameCount true rounds).1.check.totalLostFrames.toNat : ℤ) =
      (∑ id ∈ keys (StoredFrame.stream frames),
        missing (counters (StoredFrame.stream frames) id)) % 2 ^ 64 ∧
    ∀ started' canFrameCount' rounds' frames',
      Delivers (dataOf started' canFrameCount' rounds') frames' → StoredFrame.Countable frames' →
      (∀ id, counters (StoredFrame.stream frames') id = counters (StoredFrame.stream frames) id) →
      (readStoreData started' canFrameCount' true rounds').1.check.totalLostFrames =
        (readStoreData started canFrameCount true rounds).1.check.totalLostFrames := by
  have htotal := totalLostFrames_of_delivers hreads h
  refine ⟨htotal, fun started' canFrameCount' rounds' frames' hreads' h' hcounters => ?_⟩
  rw [← UInt64.toNat_inj, ← Int.natCast_inj, htotal, totalLostFrames_of_delivers hreads' h',
    totalMissing_congr hcounters]

/-- A frame with the counter. -/
def storedFrame (canId counter : ℕ) (hid : canId < 2 ^ 32) (hcounter : counter < 2 ^ 64) :
    StoredFrame :=
  ⟨List.replicate 8 0, canId, 8, 0, counter, List.replicate 56 0, rfl, hid, rfl, hcounter, rfl⟩

/-- Two ids in turn, each with the counters 0 and `last`. -/
def inTurn (last : ℕ) (hlast : last < 2 ^ 64) : List StoredFrame :=
  [storedFrame 1 0 (by decide) (by decide), storedFrame 2 0 (by decide) (by decide),
    storedFrame 1 last (by decide) hlast, storedFrame 2 last (by decide) hlast]

/-- The frames in one read. -/
def oneRead (frames : List StoredFrame) : List ReadRound :=
  [⟨false, some (frames.flatMap StoredFrame.bytes), false⟩]

theorem delivers_oneRead {canFrameCount : ℕ} {frames : List StoredFrame}
    (h : dataOf true canFrameCount (oneRead frames) = [frames.flatMap StoredFrame.bytes]) :
    Delivers (dataOf true canFrameCount (oneRead frames)) frames := by
  have htail : ([] : List UInt8).length < canPacketSize := by decide
  have hdelivers := Delivers.cons frames htail .nil
  rwa [List.append_nil, List.append_nil, ← h] at hdelivers

/-- Two frames of each id are missing. -/
def fewMissing : List StoredFrame := inTurn 3 (by norm_num)

theorem totalLostFrames_inTurn :
    ((readStoreData true 4 true (oneRead fewMissing)).1.check.totalLostFrames.toNat : ℤ) =
      (∑ id ∈ keys (StoredFrame.stream fewMissing),
        missing (counters (StoredFrame.stream fewMissing) id)) % 2 ^ 64 := by
  have hread : dataOf true 4 (oneRead fewMissing) = [fewMissing.flatMap StoredFrame.bytes] := by
    decide +kernel
  have hcountable : StoredFrame.Countable fewMissing := ⟨by decide +kernel, by decide +kernel⟩
  exact (totalLostFrames_readStoreData (delivers_oneRead hread) hcountable).1

/-- Everything between the first counter and the last one is missing for each id. -/
def allMissing : List StoredFrame := inTurn (2 ^ 64 - 1) (by norm_num)

/-- Two ids for which everything is missing are more than the total holds. -/
theorem totalLostFrames_ne_sum :
    Delivers (dataOf true 4 (oneRead allMissing)) allMissing ∧
      StoredFrame.Countable allMissing ∧
      ((readStoreData true 4 true (oneRead allMissing)).1.check.totalLostFrames.toNat : ℤ) ≠
        ∑ id ∈ keys (StoredFrame.stream allMissing),
          missing (counters (StoredFrame.stream allMissing) id) := by
  have hread : dataOf true 4 (oneRead allMissing) = [allMissing.flatMap StoredFrame.bytes] := by
    decide +kernel
  have hcountable : StoredFrame.Countable allMissing := ⟨by decide +kernel, by decide +kernel⟩
  have hne : ((readStoreData true 4 true (oneRead allMissing)).1.check.totalLostFrames.toNat : ℤ) ≠
      ∑ id ∈ keys (StoredFrame.stream allMissing),
        missing (counters (StoredFrame.stream allMissing) id) := by
    decide +kernel
  exact ⟨delivers_oneRead hread, hcountable, hne⟩

end StoreDataCheck

end AptUsbtrx
