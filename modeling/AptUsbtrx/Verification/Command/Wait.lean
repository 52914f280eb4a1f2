import AptUsbtrx.Model.Command
import AptUsbtrx.Verification.Receive.Chunking

/-! # The wait for a response

The wait walks over the whole completion buffer and returns bytes from its start. What it
returns is the response exactly when the response itself carries one of the two ids or
the stale bytes behind it hold no frame with one of them. -/

namespace AptUsbtrx

open Memory

/-- The frames met by a walk that steps over whole frames and over single bytes at which
no frame starts. -/
inductive Walked : List UInt8 → Message → Prop where
  | frame (m : Message) (tail : List UInt8) : Walked (m.encode ++ tail) m
  | next (m : Message) {tail : List UInt8} {m' : Message} :
      Walked tail m' → Walked (m.encode ++ tail) m'
  | skip {b : UInt8} {tail : List UInt8} {m' : Message} :
      (∀ (m : Message) (rest : List UInt8), b :: tail ≠ m.encode ++ rest) → Walked tail m' →
      Walked (b :: tail) m'

/-- Two frames in front of the same bytes are the same frame. -/
theorem Message.encode_append_inj {m m' : Message} {xs ys : List UInt8}
    (h : m.encode ++ xs = m'.encode ++ ys) : m = m' ∧ xs = ys := by
  have hverdict := frameVerdict_encode m xs
  rw [h, frameVerdict_encode] at hverdict
  cases hverdict
  exact ⟨rfl, List.append_cancel_left h⟩

theorem Walked.of_encode {m m' : Message} {tail : List UInt8} (h : Walked (m.encode ++ tail) m') :
    m' = m ∨ Walked tail m' := by
  generalize hxs : m.encode ++ tail = xs at h
  cases h with
  | frame m₂ tail₂ => exact .inl (Message.encode_append_inj hxs).1.symm
  | next m₂ h =>
      obtain ⟨-, rfl⟩ := Message.encode_append_inj hxs
      exact .inr h
  | skip hno h => exact absurd hxs.symm (hno m tail)

/-- A frame with one of the two ids. -/
def Message.Answers (ackId nackId : UInt8) (m : Message) : Prop := m.id = ackId ∨ m.id = nackId

instance (ackId nackId : UInt8) (m : Message) : Decidable (m.Answers ackId nackId) :=
  inferInstanceAs (Decidable (_ ∨ _))

/-- How the loop comes to its result on the bytes from `pos` on. -/
inductive Scanned (ackId nackId : UInt8) : List UInt8 → Option Msg → Prop where
  | done : Scanned ackId nackId [] none
  | skip {b : UInt8} {tail : List UInt8} {result : Option Msg} :
      (∀ (m : Message) (rest : List UInt8), b :: tail ≠ m.encode ++ rest) →
      Scanned ackId nackId tail result → Scanned ackId nackId (b :: tail) result
  | next {m : Message} {tail : List UInt8} {result : Option Msg} :
      ¬ m.Answers ackId nackId → Scanned ackId nackId tail result →
      Scanned ackId nackId (m.encode ++ tail) result
  | found {msg : Msg} {tail : List UInt8} : msg.payloadSize.toNat ≤ maxPayload →
      msg.message.Answers ackId nackId →
      Scanned ackId nackId (msg.message.encode ++ tail) (some msg)

/-- What the loop returns on the bytes from `pos` on. -/
structure WaitSpec (ackId nackId : UInt8) (xs : List UInt8) (result : Option Msg) : Prop where
  none_iff : result = none ↔ ∀ m, Walked xs m → ¬ m.Answers ackId nackId
  answers : ∀ msg, result = some msg →
    msg.payloadSize.toNat ≤ maxPayload ∧ msg.message.Answers ackId nackId
  front : ∀ m tail, xs = m.encode ++ tail → m.Answers ackId nackId →
    ∃ msg, result = some msg ∧ msg.message = m

section

variable {ackId nackId : UInt8}

theorem not_encode_nil (m : Message) (rest : List UInt8) : [] ≠ m.encode ++ rest := by
  intro h
  have hlen := congrArg List.length h
  have := m.length_pos
  simp only [List.length_nil, List.length_append, Message.encode_length] at hlen
  omega

theorem not_walked_nil (m : Message) : ¬ Walked [] m := by
  intro h
  generalize hxs : ([] : List UInt8) = xs at h
  cases h with
  | frame _ tail => exact not_encode_nil _ tail hxs
  | next m => exact not_encode_nil m _ hxs
  | skip => cases hxs

theorem Walked.of_skip {b : UInt8} {tail : List UInt8} {m' : Message}
    (hno : ∀ (m : Message) (rest : List UInt8), b :: tail ≠ m.encode ++ rest)
    (h : Walked (b :: tail) m') : Walked tail m' := by
  generalize hxs : b :: tail = xs at h
  cases h with
  | frame _ tail => exact absurd hxs (hno _ tail)
  | next m => exact absurd hxs (hno m _)
  | skip _ h =>
      cases hxs
      exact h

theorem waitSpec_nil : WaitSpec ackId nackId [] none where
  none_iff := ⟨fun _ m hm => absurd hm (not_walked_nil m), fun _ => rfl⟩
  answers _ h := by cases h
  front m tail h := absurd h (not_encode_nil m tail)

theorem WaitSpec.skip {b : UInt8} {tail : List UInt8} {result : Option Msg}
    (hno : ∀ (m : Message) (rest : List UInt8), b :: tail ≠ m.encode ++ rest)
    (h : WaitSpec ackId nackId tail result) : WaitSpec ackId nackId (b :: tail) result where
  none_iff := h.none_iff.trans
    ⟨fun hall m hm => hall m (hm.of_skip hno), fun hall m hm => hall m (.skip hno hm)⟩
  answers := h.answers
  front m rest heq := absurd heq (hno m rest)

theorem WaitSpec.next {m : Message} {tail : List UInt8} {result : Option Msg}
    (hm : ¬ m.Answers ackId nackId) (h : WaitSpec ackId nackId tail result) :
    WaitSpec ackId nackId (m.encode ++ tail) result where
  none_iff := by
    refine h.none_iff.trans ⟨fun hall m' hm' => ?_, fun hall m' hm' => hall m' (.next m hm')⟩
    rcases hm'.of_encode with rfl | htail
    · exact hm
    · exact hall m' htail
  answers := h.answers
  front m' rest heq hans := by
    obtain ⟨rfl, -⟩ := Message.encode_append_inj heq
    exact absurd hans hm

theorem WaitSpec.found {msg : Msg} {tail : List UInt8}
    (hsize : msg.payloadSize.toNat ≤ maxPayload) (hans : msg.message.Answers ackId nackId) :
    WaitSpec ackId nackId (msg.message.encode ++ tail) (some msg) where
  none_iff := ⟨nofun, fun hall => absurd hans (hall _ (.frame _ _))⟩
  answers msg' h := by
    cases h
    exact ⟨hsize, hans⟩
  front m rest heq _ := ⟨msg, rfl, (Message.encode_append_inj heq).1⟩

theorem waitMsgLoop_scanned {buf : List UInt8} {recvSize : ℕ} (hbuf : recvSize ≤ buf.length)
    {fuel pos : ℕ} (msg : Msg) (hfuel : recvSize ≤ fuel + pos) :
    Scanned ackId nackId (slice buf pos (recvSize - pos))
      (waitMsgLoop ackId nackId buf recvSize fuel pos msg) := by
  induction fuel generalizing pos msg with
  | zero =>
      rw [Nat.sub_eq_zero_of_le (by omega), slice_zero_length]
      exact .done
  | succ fuel ih =>
      by_cases hpos : pos < recvSize
      · have hdrop : recvSize - pos ≤ (buf.drop pos).length := by
          rw [List.length_drop]
          omega
        rcases hp : msgParse (buf.drop pos) (recvSize - pos) msg with ⟨res, msg'⟩
        by_cases hres : res = .success
        · have hsucc := handed_of_success hdrop ((congrArg Prod.fst hp).trans hres)
          rw [hp] at hsucc
          obtain ⟨⟨hsize, hdata⟩, hle⟩ :
              Handed (buf.drop pos) msg' ∧ msg'.message.length ≤ recvSize - pos := hsucc
          have hwindow : slice buf pos (recvSize - pos) = msg'.message.encode ++
              slice buf (pos + msg'.message.length) (recvSize - (pos + msg'.message.length)) := by
            have hfront : slice buf pos msg'.message.length = msg'.message.encode := by
              rw [slice, hdata, ← Message.encode_length, List.take_left]
            have hsplit : recvSize - pos =
                msg'.message.length + (recvSize - (pos + msg'.message.length)) := by omega
            rw [hsplit, ← slice_append_slice, hfront]
          rw [hwindow, waitMsgLoop, if_pos hpos, hp]
          simp only [hres, ne_eq, not_true_eq_false, if_false]
          by_cases hack : msg'.id = ackId
          · rw [if_pos hack]
            exact .found hsize (.inl hack)
          · by_cases hnack : msg'.id = nackId
            · rw [if_neg hack, if_pos hnack]
              exact .found hsize (.inr hnack)
            · have := msg'.message.length_pos
              rw [if_neg hack, if_neg hnack, ← Msg.length_message hsize]
              exact .next (not_or.mpr ⟨hack, hnack⟩) (ih msg' (by omega))
        · have hcons : slice buf pos (recvSize - pos) =
              byteAt buf pos :: slice buf (pos + 1) (recvSize - (pos + 1)) := by
            obtain ⟨k, hk⟩ : ∃ k, recvSize - pos = k + 1 := ⟨recvSize - pos - 1, by omega⟩
            have hlt : pos < buf.length := by omega
            have hget : buf[pos] = byteAt buf pos := by
              simp [byteAt, hlt]
            rw [hk, slice_eq_cons hlt, hget, show recvSize - (pos + 1) = k by omega]
          have hno (m : Message) (rest : List UInt8) :
              byteAt buf pos :: slice buf (pos + 1) (recvSize - (pos + 1)) ≠ m.encode ++ rest := by
            rw [← hcons]
            intro heq
            have hlen := congrArg List.length heq
            rw [length_slice_of_le (by omega), List.length_append, Message.encode_length] at hlen
            have hdata : buf.drop pos =
                m.encode ++ (rest ++ (buf.drop pos).drop (recvSize - pos)) := by
              rw [← List.append_assoc, ← heq, slice, List.take_append_drop]
            have hfst := msgParse_encode_fst m (rest ++ (buf.drop pos).drop (recvSize - pos)) msg
              (show m.length ≤ recvSize - pos by omega)
            rw [← hdata, hp] at hfst
            exact hres hfst
          rw [hcons, waitMsgLoop, if_pos hpos, hp]
          simp only [hres, ne_eq, not_false_eq_true, if_true]
          exact .skip hno (ih msg' (by omega))
      · rw [Nat.sub_eq_zero_of_le (by omega), slice_zero_length, waitMsgLoop, if_neg hpos]
        exact .done

theorem Scanned.spec {xs : List UInt8} {result : Option Msg}
    (h : Scanned ackId nackId xs result) : WaitSpec ackId nackId xs result := by
  induction h with
  | done => exact waitSpec_nil
  | skip hno _ ih => exact ih.skip hno
  | next hm _ ih => exact ih.next hm
  | found hsize hans => exact .found hsize hans

theorem waitMsgLoop_spec {buf : List UInt8} {recvSize : ℕ} (hbuf : recvSize ≤ buf.length)
    {fuel pos : ℕ} (msg : Msg) (hfuel : recvSize ≤ fuel + pos) :
    WaitSpec ackId nackId (slice buf pos (recvSize - pos))
      (waitMsgLoop ackId nackId buf recvSize fuel pos msg) :=
  (waitMsgLoop_scanned hbuf msg hfuel).spec

/-! ### One round -/

/-- The completion buffer has its full size. -/
structure RxComplete.Full (rx : RxComplete) : Prop where
  length_buffer : rx.buffer.length = rxBufferSize
  bufferSize_eq : rx.bufferSize = rxBufferSize

namespace RxComplete

variable {rx : RxComplete} (hrx : rx.Full) {buf : List UInt8} (hbuf : buf.length = rxBufferSize)
  (msg : Msg)

include hrx hbuf

theorem copyTo_eq : rx.copyTo buf = rx.buffer := by
  have hle : rx.buffer.length = buf.length := hrx.length_buffer.trans hbuf.symm
  rw [copyTo, hrx.bufferSize_eq, slice_zero, ← hrx.length_buffer, List.take_length]
  exact overwrite_eq_self hle

theorem waitMsgLoop_spec (ackId nackId : UInt8) :
    WaitSpec ackId nackId rx.buffer
      (waitMsgLoop ackId nackId (rx.copyTo buf) rx.bufferSize rx.bufferSize 0 msg) := by
  have hspec : WaitSpec ackId nackId (slice rx.buffer 0 (rxBufferSize - 0))
      (waitMsgLoop ackId nackId rx.buffer rxBufferSize rxBufferSize 0 msg) :=
    AptUsbtrx.waitMsgLoop_spec (Nat.le_of_eq hrx.length_buffer.symm) msg (Nat.le_refl _)
  rw [Nat.sub_zero, slice_zero, ← hrx.length_buffer, List.take_length, hrx.length_buffer] at hspec
  rwa [copyTo_eq hrx hbuf, hrx.bufferSize_eq]

/-- A frame with one of the two ids at the start of the buffer is what the round returns. -/
theorem waitMsgRound_of_answers {m : Message} {stale : List UInt8}
    (hfront : rx.buffer = m.encode ++ stale) (hans : m.Answers ackId nackId) :
    waitMsgRound ackId nackId (rx.copyTo buf) rx.bufferSize msg = some m.encode := by
  have hspec := waitMsgLoop_spec hrx hbuf msg ackId nackId
  obtain ⟨found, hfound, hmessage⟩ := hspec.front _ _ hfront hans
  have hlength := Msg.length_message (hspec.answers found hfound).1
  rw [waitMsgRound, hfound, Option.map_some, ← hlength, hmessage, copyTo_eq hrx hbuf, hfront,
    slice_zero, ← m.encode_length, List.take_left]

/-- The round returns nothing when no frame of the buffer has one of the two ids. -/
theorem waitMsgRound_eq_none_iff (ackId nackId : UInt8) {m : Message} {stale : List UInt8}
    (hfront : rx.buffer = m.encode ++ stale) :
    waitMsgRound ackId nackId (rx.copyTo buf) rx.bufferSize msg = none ↔
      ¬ m.Answers ackId nackId ∧ ∀ m, Walked stale m → ¬ m.Answers ackId nackId := by
  have hspec := waitMsgLoop_spec hrx hbuf msg ackId nackId
  rw [waitMsgRound, Option.map_eq_none_iff, hspec.none_iff, hfront]
  constructor
  · intro hall
    exact ⟨hall _ (.frame _ _), fun m hm => hall m (.next _ hm)⟩
  · rintro ⟨hresponse, hstale⟩ m hm
    rcases hm.of_encode with rfl | hm
    · exact hresponse
    · exact hstale m hm

end RxComplete

/-- The completion structure after the message is copied to it. -/
def RxComplete.completed (rx : RxComplete) (m : Message) : RxComplete :=
  { rx with dataSize := m.length, buffer := overwrite rx.buffer 0 m.encode, done := rx.done + 1 }

theorem RxComplete.complete_eq (rx : RxComplete) {data : List UInt8} {msg : Msg}
    (h : Handed data msg) : rx.complete data msg = rx.completed msg.message := by
  have hlength := Msg.length_message h.size_le
  have hslice : slice data 0 (payloadLengthToMsg msg.payloadSize.toNat) = msg.message.encode := by
    rw [slice_zero, h.data_eq, ← hlength, ← Message.encode_length, List.take_left]
  rw [complete, completed, hslice, hlength]

theorem RxComplete.Full.completed {rx : RxComplete} (h : rx.Full) (m : Message) :
    (rx.completed m).Full :=
  ⟨(length_overwrite _ _ _).trans h.length_buffer, h.bufferSize_eq⟩

/-- The message is in front of what the buffer held beyond it. -/
theorem RxComplete.buffer_completed {rx : RxComplete} (h : rx.Full) (m : Message) :
    (rx.completed m).buffer = m.encode ++ rx.buffer.drop m.length := by
  have hbuf := h.length_buffer
  have hmax := m.length_bounds.2
  simp only [rxBufferSize, cmdMaxLength] at hbuf hmax
  have henc := m.encode_length
  change overwrite rx.buffer 0 m.encode = _
  rw [← List.take_append_drop m.encode.length (overwrite _ _ _), take_overwrite_zero (by omega),
    drop_overwrite_zero, henc]

/-- A response that the dispatcher has just copied to the completion buffer: what the buffer
held before, and what the dispatcher was handed. -/
structure Dispatched where
  old : RxComplete
  data : List UInt8
  msg : Msg
  full : old.Full
  handed : Handed data msg

namespace Dispatched

/-- The completion structure after the response. -/
def rx (d : Dispatched) : RxComplete := d.old.complete d.data d.msg

/-- The response. -/
def response (d : Dispatched) : Message := d.msg.message

/-- The bytes of the completion buffer beyond the response. -/
def stale (d : Dispatched) : List UInt8 := d.old.buffer.drop d.response.length

theorem rx_eq (d : Dispatched) : d.rx = d.old.completed d.response :=
  d.old.complete_eq d.handed

theorem full_rx (d : Dispatched) : d.rx.Full := d.rx_eq ▸ d.full.completed d.response

theorem buffer_eq (d : Dispatched) : d.rx.buffer = d.response.encode ++ d.stale := by
  rw [d.rx_eq]
  exact RxComplete.buffer_completed d.full d.response

/-- The round that takes the completion of the response. -/
def round (d : Dispatched) (msg : Msg) (inTime : Bool) : WaitRound := ⟨.completed d.rx, msg, inTime⟩

end Dispatched

/-! ### The whole wait -/

/-- Rounds after which the caller still waits leave a buffer of the same size. -/
theorem waitMsgRounds_append {buf : List UInt8} {pre : List WaitRound}
    (hpre : waitMsgRounds ackId nackId buf pre = none) (rounds : List WaitRound) :
    ∃ buf', buf'.length = buf.length ∧
      waitMsgRounds ackId nackId buf (pre ++ rounds) = waitMsgRounds ackId nackId buf' rounds := by
  induction pre generalizing buf with
  | nil => exact ⟨buf, rfl, rfl⟩
  | cons round pre ih =>
      obtain ⟨input, msg, inTime⟩ := round
      cases input with
      | timeout | bulkError => cases hpre
      | completed rx =>
          simp only [List.cons_append, waitMsgRounds] at hpre ⊢
          split at hpre
          · cases hpre
          · split at hpre
            · obtain ⟨buf', hlen, heq⟩ := ih hpre
              exact ⟨buf', hlen.trans (length_overwrite _ _ _), by simp_all⟩
            · cases hpre
      | bulk recv =>
          simp only [List.cons_append, waitMsgRounds] at hpre ⊢
          split at hpre
          · cases hpre
          · split at hpre
            · obtain ⟨buf', hlen, heq⟩ := ih hpre
              exact ⟨buf', hlen.trans (length_overwrite _ _ _), by simp_all⟩
            · cases hpre

/-- A last round on the completion decides the wait. -/
theorem waitMsgTimeout_append_completed {pre : List WaitRound}
    (hpre : waitMsgTimeout ackId nackId pre = none) (rx : RxComplete) (msg : Msg) (inTime : Bool) :
    ∃ buf : List UInt8, buf.length = rxBufferSize ∧
      ∀ stored, waitMsgTimeout ackId nackId (pre ++ [⟨.completed rx, msg, inTime⟩]) =
          some (.success, stored) ↔
        waitMsgRound ackId nackId (rx.copyTo buf) rx.bufferSize msg = some stored := by
  obtain ⟨buf, hlen, heq⟩ := waitMsgRounds_append hpre [⟨.completed rx, msg, inTime⟩]
  refine ⟨buf, hlen.trans List.length_replicate, fun stored => ?_⟩
  rw [waitMsgTimeout, heq]
  simp only [waitMsgRounds]
  split
  next data hdata => simp [hdata]
  next hnone =>
    rw [hnone]
    cases inTime <;> simp

/-- What is stored are bytes from the start of the completion buffer. -/
theorem eq_take_of_waitMsgTimeout {pre : List WaitRound}
    (hpre : waitMsgTimeout ackId nackId pre = none) {rx : RxComplete} (hrx : rx.Full) {msg : Msg}
    {inTime : Bool} {stored : List UInt8}
    (h : waitMsgTimeout ackId nackId (pre ++ [⟨.completed rx, msg, inTime⟩]) =
      some (.success, stored)) : ∃ k, stored = rx.buffer.take k := by
  obtain ⟨buf, hbuf, hround⟩ := waitMsgTimeout_append_completed hpre rx msg inTime
  have hsome := (hround stored).mp h
  rw [waitMsgRound] at hsome
  obtain ⟨found, -, rfl⟩ := Option.map_eq_some_iff.mp hsome
  exact ⟨_, by rw [slice_zero, RxComplete.copyTo_eq hrx hbuf]⟩

/-- The wait ends with a frame with one of the two ids at the start of the completion buffer. -/
theorem waitMsgTimeout_of_answers {pre : List WaitRound}
    (hpre : waitMsgTimeout ackId nackId pre = none) {rx : RxComplete} (hrx : rx.Full) (msg : Msg)
    (inTime : Bool) {m : Message} {tail : List UInt8} (hfront : rx.buffer = m.encode ++ tail)
    (hans : m.Answers ackId nackId) :
    waitMsgTimeout ackId nackId (pre ++ [⟨.completed rx, msg, inTime⟩]) =
      some (.success, m.encode) := by
  obtain ⟨buf, hbuf, hround⟩ := waitMsgTimeout_append_completed hpre rx msg inTime
  exact (hround m.encode).mpr (RxComplete.waitMsgRound_of_answers hrx hbuf msg hfront hans)

/-- A wait that returns in a round on a response returns this response if and only if it
has one of the two ids or no frame in the stale bytes behind it has. -/
theorem waitMsgTimeout_returns_response_iff {pre : List WaitRound}
    (hpre : waitMsgTimeout ackId nackId pre = none) (d : Dispatched) (msg : Msg) (inTime : Bool) :
    (∀ stored, waitMsgTimeout ackId nackId (pre ++ [d.round msg inTime]) =
        some (.success, stored) → stored = d.response.encode ∧ d.response.Answers ackId nackId) ↔
      d.response.Answers ackId nackId ∨ ∀ m, Walked d.stale m → ¬ m.Answers ackId nackId := by
  obtain ⟨buf, hbuf, hround⟩ := waitMsgTimeout_append_completed hpre d.rx msg inTime
  simp only [Dispatched.round, hround]
  by_cases hans : d.response.Answers ackId nackId
  · simp only [RxComplete.waitMsgRound_of_answers d.full_rx hbuf msg d.buffer_eq hans, hans,
      Option.some.injEq, and_true, true_or, iff_true]
    exact fun stored h => h.symm
  · simp only [hans, and_false, imp_false, false_or]
    have hnone := RxComplete.waitMsgRound_eq_none_iff d.full_rx hbuf msg ackId nackId d.buffer_eq
    rw [Option.eq_none_iff_forall_ne_some] at hnone
    exact hnone.trans (and_iff_right hans)

end

/-! ### A NACK taken for a response -/

/-- The response to an earlier `GetStoreDataID`; the stored id contains the bytes of a
`ResponseGetSilentMode` frame. -/
def earlierResponse : Message :=
  ⟨0x75, [0, 0, 0xF7, 0x05, 0x61, 0x01, 0xFA] ++ List.replicate 25 0, by decide⟩

/-- A NACK to `GetSilentMode`. -/
def nackMsg : Msg := ⟨cmdNACK, [0x31] ++ List.replicate 77 0, 1, rfl⟩

/-- The NACK dispatched after the earlier response. -/
def staleNack : Dispatched where
  old := ⟨0, 0x31, earlierResponse.encode ++ List.replicate 988 0, rxBufferSize, 36⟩
  data := nackMsg.message.encode
  msg := nackMsg
  full := ⟨by decide +kernel, rfl⟩
  handed := ⟨by decide, by decide⟩

/-- The wait for the response to `GetSilentMode` succeeds and returns the NACK. -/
theorem waitMsgTimeout_returns_nack :
    waitMsgTimeout 0x61 cmdUnknown [staleNack.round Msg.zero true] =
        some (.success, [0xF7, 0x05, 0x26, 0x31, 0xFA]) ∧
      ¬ ([0xF7, 0x05, 0x26, 0x31, 0xFA] = staleNack.response.encode ∧
        staleNack.response.Answers 0x61 cmdUnknown) := by
  constructor
  · decide +kernel
  · decide

/-- A wait for ACK or NACK returns the NACK as it should. -/
theorem waitMsgTimeout_returns_response_nack :
    waitMsgTimeout cmdACK cmdNACK ([] ++ [staleNack.round Msg.zero true]) =
        some (.success, [0xF7, 0x05, 0x26, 0x31, 0xFA]) ∧
      [0xF7, 0x05, 0x26, 0x31, 0xFA] = staleNack.response.encode ∧
      staleNack.response.Answers cmdACK cmdNACK := by
  have hwait : waitMsgTimeout cmdACK cmdNACK ([] ++ [staleNack.round Msg.zero true]) =
      some (.success, [0xF7, 0x05, 0x26, 0x31, 0xFA]) := by decide +kernel
  exact ⟨hwait, (waitMsgTimeout_returns_response_iff rfl staleNack Msg.zero true).mpr
    (.inl (by decide)) _ hwait⟩

end AptUsbtrx
