import AptUsbtrx.Verification.Receive.Decoder

/-! # The receive path decodes the stream

However the stream is cut into completions, the messages handed to the dispatcher and the
bytes carried over are those of decoding the stream at once. -/

namespace AptUsbtrx

open Memory

/-- What a dispatcher is handed: the structure holds the frame in front of the bytes. -/
structure Handed (data : List UInt8) (msg : Msg) : Prop where
  size_le : msg.payloadSize.toNat ≤ maxPayload
  data_eq : data = msg.message.encode ++ data.drop msg.message.length

theorem handed_of_success {data : List UInt8} {dataSize : ℕ} {msg : Msg}
    (hdata : dataSize ≤ data.length) (h : (msgParse data dataSize msg).1 = .success) :
    Handed data (msgParse data dataSize msg).2 ∧
      (msgParse data dataSize msg).2.message.length ≤ dataSize := by
  obtain ⟨m, hm, heq⟩ := eq_encode_of_success hdata h
  have hmsg : (msgParse data dataSize msg).2.message = m := by
    rw [heq]
    exact msgParse_encode m _ msg hm
  refine ⟨⟨payloadSize_le_of_success h, ?_⟩, ?_⟩
  · rw [hmsg]
    exact heq
  · rw [hmsg]
    exact hm

section

variable {δ τ : Type}

/-- A dispatcher that acts on the abstract state as `astep` does on the messages in `P`. -/
def Simulates (dispatch : Dispatch δ) (P : Message → Prop) (R : δ → τ → Prop)
    (astep : τ → Message → τ) : Prop :=
  ∀ dev t data msg, R dev t → Handed data msg → P msg.message →
    R (dispatch dev data msg).1 (astep t msg.message)

/-- The verdict of the decoder on the bytes in front is the one of the parser. -/
theorem frameVerdict_slice {buf : List UInt8} {processed remain : ℕ} (msg : Msg)
    (hmin : cmdMinLength ≤ remain) (hbuf : processed + remain ≤ buf.length) :
    frameVerdict (slice buf processed remain) =
      match msgParse (buf.drop processed) remain msg with
      | (.success, msg) => .emit msg.message msg.message.length
      | (.notEnough, _) => .more
      | _ => .skip := by
  have hlen : (slice buf processed remain).length = remain := length_slice_of_le hbuf
  have htake (msg : Msg) : msgParse (slice buf processed remain) remain msg =
      msgParse (buf.drop processed) remain msg := msgParse_take hmin msg
  have hfst := msgParse_fst_congr (buf.drop processed) remain Msg.zero msg
  have hdrop : remain ≤ (buf.drop processed).length := by
    rw [List.length_drop]
    omega
  rw [frameVerdict, hlen, if_neg (by omega), htake]
  cases hr : (msgParse (buf.drop processed) remain msg).1 with
  | success =>
      obtain ⟨m, hm, heq⟩ := eq_encode_of_success hdrop hr
      have hmsg (msg : Msg) : msgParse (buf.drop processed) remain msg =
          (.success, (msgParse (buf.drop processed) remain msg).2) := by
        rw [← hr, msgParse_fst_congr _ _ _ msg]
      have hmessage (msg : Msg) : (msgParse (buf.drop processed) remain msg).2.message = m := by
        rw [heq]
        exact msgParse_encode m _ msg hm
      rw [hmsg Msg.zero, hmsg msg]
      simp only [hmessage]
  | failure | notEnough | timeout =>
      rw [hr] at hfst
      rw [← Prod.mk.eta (p := msgParse (buf.drop processed) remain Msg.zero),
        ← Prod.mk.eta (p := msgParse (buf.drop processed) remain msg), hfst, hr]

/-- The loop decodes the bytes between `processed` and the end of the received data. -/
theorem readBulkLoop_spec {dispatch : Dispatch δ} {P : Message → Prop} {R : δ → τ → Prop}
    {astep : τ → Message → τ} (hsim : Simulates dispatch P R astep) {buf : List UInt8}
    {fuel processed remain : ℕ} (msg : Msg) {dev : δ} {t : τ} (hR : R dev t)
    (hfuel : remain ≤ fuel) (hbuf : processed + remain ≤ buf.length)
    (hP : ∀ m ∈ (frameDecoder.scan (slice buf processed remain)).1, P m) :
    R (readBulkLoop dispatch buf fuel processed remain msg dev).dev
        ((frameDecoder.scan (slice buf processed remain)).1.foldl astep t) ∧
      slice buf (readBulkLoop dispatch buf fuel processed remain msg dev).processed
          (readBulkLoop dispatch buf fuel processed remain msg dev).remain =
        (frameDecoder.scan (slice buf processed remain)).2 ∧
      (readBulkLoop dispatch buf fuel processed remain msg dev).processed +
          (readBulkLoop dispatch buf fuel processed remain msg dev).remain =
        processed + remain := by
  have hstop : frameVerdict (slice buf processed remain) = .more →
      frameDecoder.scan (slice buf processed remain) = ([], slice buf processed remain) :=
    fun h => frameDecoder.scan_of_more h
  induction fuel generalizing processed remain msg dev t with
  | zero =>
      have hlen : (slice buf processed remain).length < cmdMinLength := by
        rw [length_slice_of_le hbuf]
        simp only [cmdMinLength]
        omega
      rw [hstop (frameVerdict_of_short hlen), readBulkLoop]
      exact ⟨hR, rfl, rfl⟩
  | succ fuel ih =>
      by_cases hmin : remain ≥ cmdMinLength
      · have hverdict := frameVerdict_slice msg hmin hbuf
        have hnext {k : ℕ} (hk : k ≤ remain) : processed + k + (remain - k) = processed + remain := by
          omega
        have hskip {res : Result} {msg' : Msg} (hp : msgParse (buf.drop processed) remain msg =
            (res, msg')) (hs : res ≠ .success) (hn : res ≠ .notEnough) :
            readBulkLoop dispatch buf (fuel + 1) processed remain msg dev =
              readBulkLoop dispatch buf fuel (processed + 1) (remain - 1) msg' dev := by
          rw [readBulkLoop, if_pos hmin, hp]
          simp only [hs, hn, ne_eq, not_false_eq_true, if_true, if_false]
        have htail : frameVerdict (slice buf processed remain) = .skip →
            frameDecoder.scan (slice buf processed remain) =
              frameDecoder.scan (slice buf (processed + 1) (remain - 1)) := fun h => by
          rw [frameDecoder.scan_of_skip h, ← List.drop_one, drop_slice]
        have hpos : 1 ≤ remain := Nat.le_trans (by decide) hmin
        rcases hp : msgParse (buf.drop processed) remain msg with ⟨res, msg'⟩
        rw [hp] at hverdict
        cases res with
        | failure | timeout =>
            rw [htail hverdict] at hP
            rw [hskip hp (by simp) (by simp), htail hverdict, ← hnext hpos]
            exact ih msg' hR (by omega) (by omega) hP (frameDecoder.scan_of_more ·)
        | notEnough =>
            have hloop : readBulkLoop dispatch buf (fuel + 1) processed remain msg dev =
                ⟨processed, remain, dev⟩ := by
              rw [readBulkLoop, if_pos hmin, hp]
              simp
            rw [hloop, hstop hverdict]
            exact ⟨hR, rfl, rfl⟩
        | success =>
            have hdrop : remain ≤ (buf.drop processed).length := by
              rw [List.length_drop]
              omega
            have hsucc := handed_of_success hdrop (congrArg Prod.fst hp)
            rw [hp] at hsucc
            obtain ⟨hhanded, hle⟩ :
                Handed (buf.drop processed) msg' ∧ msg'.message.length ≤ remain := hsucc
            have hlength := Msg.length_message hhanded.size_le
            have hloop : readBulkLoop dispatch buf (fuel + 1) processed remain msg dev =
                readBulkLoop dispatch buf fuel (processed + msg'.message.length)
                  (remain - msg'.message.length) msg'
                  (dispatch dev (buf.drop processed) msg').1 := by
              rw [readBulkLoop, if_pos hmin, hp, hlength]
              simp
            have hscan : frameDecoder.scan (slice buf processed remain) =
                (msg'.message :: (frameDecoder.scan (slice buf (processed + msg'.message.length)
                    (remain - msg'.message.length))).1,
                  (frameDecoder.scan (slice buf (processed + msg'.message.length)
                    (remain - msg'.message.length))).2) := by
              rw [frameDecoder.scan_of_emit hverdict, drop_slice]
            have hpos := msg'.message.length_pos
            rw [hscan] at hP
            rw [hloop, hscan, ← hnext hle]
            exact ih msg' (hsim _ _ _ _ hR hhanded (hP _ List.mem_cons_self)) (by omega) (by omega)
              (fun m hm => hP m (List.mem_cons_of_mem _ hm)) (frameDecoder.scan_of_more ·)
      · have hlen : (slice buf processed remain).length < cmdMinLength := by
          rw [length_slice_of_le hbuf]
          omega
        rw [hstop (frameVerdict_of_short hlen), readBulkLoop, if_neg hmin]
        exact ⟨hR, rfl, rfl⟩

/-! ### One completion -/

/-- The bytes carried over to the next completion. -/
def RxTransfer.leftover (rx : RxTransfer) : List UInt8 := rx.buffer.take rx.dataSize

/-- The bytes carried over wait for more. -/
structure RxTransfer.Wf (rx : RxTransfer) : Prop where
  length_buffer : rx.buffer.length = rxTransferBufferSize
  dataSize_lt : rx.dataSize < cmdMaxLength
  waiting : frameVerdict rx.leftover = .more

theorem RxTransfer.wf_of_empty {rx : RxTransfer} (hbuf : rx.buffer.length = rxTransferBufferSize)
    (h : rx.dataSize = 0) : rx.Wf where
  length_buffer := hbuf
  dataSize_lt := by
    rw [h]
    decide
  waiting := by
    rw [leftover, h, List.take_zero]
    rfl

/-- A completion decodes the bytes carried over followed by those received. -/
theorem readBulkCallback_spec {dispatch : Dispatch δ} {P : Message → Prop} {R : δ → τ → Prop}
    {astep : τ → Message → τ} (hsim : Simulates dispatch P R astep) {recv : List UInt8} (msg : Msg)
    {rx : RxTransfer} {dev : δ} {t : τ} (hrx : rx.Wf) (hrecv : recv.length ≤ rxBufferSize)
    (hR : R dev t) (hP : ∀ m ∈ (frameDecoder.scan (rx.leftover ++ recv)).1, P m) :
    (readBulkCallback dispatch false .ok recv msg rx dev).1.Wf ∧
      (readBulkCallback dispatch false .ok recv msg rx dev).1.leftover =
        (frameDecoder.scan (rx.leftover ++ recv)).2 ∧
      R (readBulkCallback dispatch false .ok recv msg rx dev).2.1
        ((frameDecoder.scan (rx.leftover ++ recv)).1.foldl astep t) := by
  have hbuf := hrx.length_buffer
  have hdata := hrx.dataSize_lt
  simp only [rxTransferBufferSize, rxBufferSize, cmdMaxLength] at *
  have hfit : rx.dataSize + recv.length ≤ rx.buffer.length := by omega
  have hlen : (overwrite rx.buffer rx.dataSize recv).length = rx.buffer.length :=
    length_overwrite _ _ _
  have hall : slice (overwrite rx.buffer rx.dataSize recv) 0 (rx.dataSize + recv.length) =
      rx.leftover ++ recv := by
    rw [slice_zero, take_overwrite_append hfit, RxTransfer.leftover]
  obtain ⟨hdev, hleft, hsum⟩ := readBulkLoop_spec hsim msg hR (Nat.le_refl _)
    (show 0 + (rx.dataSize + recv.length) ≤ (overwrite rx.buffer rx.dataSize recv).length by omega)
    (hall ▸ hP)
  rw [hall] at hdev hleft
  have hshort := length_leftover_lt (rx.leftover ++ recv)
  have hmore := frameDecoder.verdict_scan_snd (rx.leftover ++ recv)
  simp only [readBulkCallback, Bool.false_eq_true, if_false]
  generalize overwrite rx.buffer rx.dataSize recv = buf at *
  generalize readBulkLoop dispatch buf (rx.dataSize + recv.length) 0 (rx.dataSize + recv.length)
    msg dev = loop at *
  have hremain : loop.remain = (frameDecoder.scan (rx.leftover ++ recv)).2.length := by
    rw [← hleft, length_slice_of_le (by omega)]
  -- the tail moved to the start of the buffer
  obtain ⟨moved, hmoved, hmlen, htake⟩ : ∃ moved,
      (if loop.remain > 0 then
        ((⟨if loop.processed > 0 then overwrite buf 0 (slice buf loop.processed loop.remain)
            else buf, loop.remain⟩ : RxTransfer), loop.dev, true)
        else (⟨buf, 0⟩, loop.dev, true)) = (⟨moved, loop.remain⟩, loop.dev, true) ∧
        moved.length = buf.length ∧
        moved.take loop.remain = slice buf loop.processed loop.remain := by
    by_cases hpos : loop.remain > 0
    · by_cases hproc : loop.processed > 0
      · have hslen : (slice buf loop.processed loop.remain).length = loop.remain :=
          length_slice_of_le (by omega)
        refine ⟨overwrite buf 0 (slice buf loop.processed loop.remain),
          by rw [if_pos hpos, if_pos hproc], length_overwrite _ _ _, ?_⟩
        calc (overwrite buf 0 (slice buf loop.processed loop.remain)).take loop.remain
          _ = (overwrite buf 0 (slice buf loop.processed loop.remain)).take
              (slice buf loop.processed loop.remain).length := by rw [hslen]
          _ = slice buf loop.processed loop.remain := take_overwrite_zero (by omega)
      · have hzero : loop.processed = 0 := by omega
        exact ⟨buf, by rw [if_pos hpos, if_neg hproc], rfl, by rw [hzero, slice_zero]⟩
    · have hzero : loop.remain = 0 := by omega
      exact ⟨buf, by rw [if_neg hpos, hzero], rfl, by rw [hzero, slice_zero_length, List.take_zero]⟩
  rw [hmoved]
  have hleftover : moved.take loop.remain = (frameDecoder.scan (rx.leftover ++ recv)).2 :=
    htake.trans hleft
  refine ⟨⟨hmlen.trans (hlen.trans hbuf), ?_, ?_⟩, hleftover, hdev⟩
  · simp only [hremain]
    exact hshort
  · rw [RxTransfer.leftover, hleftover]
    exact hmore

/-! ### Any sequence of completions -/

/-- Completions handled one after another, each with the bytes received and what the
structure on the stack happens to hold. -/
def receive (dispatch : Dispatch δ) (rx : RxTransfer) (dev : δ) (cs : List (List UInt8 × Msg)) :
    RxTransfer × δ :=
  cs.foldl (fun s c =>
    let r := readBulkCallback dispatch false .ok c.1 c.2 s.1 s.2
    (r.1, r.2.1)) (rx, dev)

/-- The bytes received by all completions. -/
def received (cs : List (List UInt8 × Msg)) : List UInt8 := (cs.map Prod.fst).flatten

/-- No completion is longer than the buffer of a URB. -/
def Legal (cs : List (List UInt8 × Msg)) : Prop := ∀ c ∈ cs, c.1.length ≤ rxBufferSize

/-- Handling completions decodes the concatenation of their bytes. -/
theorem receive_spec {dispatch : Dispatch δ} {R : δ → τ → Prop} {astep : τ → Message → τ}
    (hsim : Simulates dispatch (fun _ => True) R astep) {rx : RxTransfer} (dev : δ) {t : τ}
    (hrx : rx.Wf) (hR : R dev t) {cs : List (List UInt8 × Msg)} (hcs : Legal cs) :
    (receive dispatch rx dev cs).1.Wf ∧
      (receive dispatch rx dev cs).1.leftover =
        (frameDecoder.scan (rx.leftover ++ received cs)).2 ∧
      R (receive dispatch rx dev cs).2
        ((frameDecoder.scan (rx.leftover ++ received cs)).1.foldl astep t) := by
  rw [received, ← frameDecoder.feed_eq_scan hrx.waiting]
  induction cs generalizing rx dev t with
  | nil => exact ⟨hrx, rfl, hR⟩
  | cons c cs ih =>
      obtain ⟨hwf, hleft, hdev⟩ :=
        readBulkCallback_spec hsim c.2 hrx (hcs c List.mem_cons_self) hR fun _ _ => trivial
      have hrest := ih _ hwf hdev fun d hd => hcs d (List.mem_cons_of_mem c hd)
      simp only [List.map_cons, StreamDecoder.feed, List.foldl_append]
      rw [hleft] at hrest
      exact hrest

end

/-! ### The messages handed to the dispatcher -/

/-- Id, payload size and payload bytes of a message. -/
@[ext] structure MsgView where
  id : UInt8
  payloadSize : UInt8
  bytes : List UInt8
  deriving DecidableEq

def Msg.view (msg : Msg) : MsgView := ⟨msg.id, msg.payloadSize, msg.bytes⟩

def Message.view (m : Message) : MsgView := ⟨m.id, UInt8.ofNat m.payload.length, m.payload⟩

theorem Msg.view_eq {msg : Msg} (h : msg.payloadSize.toNat ≤ maxPayload) :
    msg.view = msg.message.view := by
  rw [view, Message.view, message_payload, length_bytes h, UInt8.ofNat_toNat, message_id]

/-- The dispatcher with a log of the messages it is handed. -/
def recorded {δ : Type} (dispatch : Dispatch δ) : Dispatch (δ × List MsgView) :=
  fun s data msg =>
    (((dispatch s.1 data msg).1, s.2 ++ [msg.view]), (dispatch s.1 data msg).2)

theorem simulates_recorded {δ : Type} (dispatch : Dispatch δ) :
    Simulates (recorded dispatch) (fun _ => True) (fun s log => s.2 = log)
      (fun log m => log ++ [m.view]) := by
  intro s log data msg hs hhanded _
  simp only [recorded, hs, Msg.view_eq hhanded.size_le]

theorem foldl_append_view (log : List MsgView) (ms : List Message) :
    ms.foldl (fun log m => log ++ [m.view]) log = log ++ ms.map Message.view := by
  induction ms generalizing log with
  | nil => simp
  | cons m ms ih => simp [ih]

section

variable {δ : Type} (dispatch : Dispatch δ) {rx : RxTransfer} (dev : δ)

/-- The messages handed to the dispatcher during the completions. -/
def handedMessages (rx : RxTransfer) (cs : List (List UInt8 × Msg)) : List MsgView :=
  (receive (recorded dispatch) rx (dev, []) cs).2.2

/-- The bytes carried over after the completions. -/
def leftoverBytes (rx : RxTransfer) (cs : List (List UInt8 × Msg)) : List UInt8 :=
  (receive dispatch rx dev cs).1.leftover

theorem RxTransfer.leftover_of_empty (hempty : rx.dataSize = 0) : rx.leftover = [] := by
  rw [leftover, hempty, List.take_zero]

theorem handedMessages_of_wf (hrx : rx.Wf) {cs : List (List UInt8 × Msg)} (hcs : Legal cs) :
    handedMessages dispatch dev rx cs =
      (frameDecoder.scan (rx.leftover ++ received cs)).1.map Message.view := by
  obtain ⟨-, -, hlog⟩ := receive_spec (simulates_recorded dispatch) (dev, []) hrx rfl hcs
  rwa [foldl_append_view, List.nil_append] at hlog

theorem handedMessages_eq_scan (hbuf : rx.buffer.length = rxTransferBufferSize)
    (hempty : rx.dataSize = 0) {cs : List (List UInt8 × Msg)} (hcs : Legal cs) :
    handedMessages dispatch dev rx cs =
      (frameDecoder.scan (received cs)).1.map Message.view := by
  rw [handedMessages_of_wf dispatch dev (RxTransfer.wf_of_empty hbuf hempty) hcs,
    RxTransfer.leftover_of_empty hempty, List.nil_append]

theorem leftoverBytes_eq_scan (hbuf : rx.buffer.length = rxTransferBufferSize)
    (hempty : rx.dataSize = 0) {cs : List (List UInt8 × Msg)} (hcs : Legal cs) :
    leftoverBytes dispatch dev rx cs = (frameDecoder.scan (received cs)).2 := by
  have hsim : Simulates dispatch (fun _ => True) (fun _ _ => True) fun (u : Unit) _ => u :=
    fun _ _ _ _ _ _ _ => trivial
  obtain ⟨-, hleft, -⟩ := receive_spec hsim dev (RxTransfer.wf_of_empty hbuf hempty)
    (t := ()) trivial hcs
  rwa [RxTransfer.leftover_of_empty hempty, List.nil_append] at hleft

/-- Two cuttings of one stream hand over the same messages and leave the same bytes,
whatever the dispatcher does and returns. -/
theorem readBulkCallback_cutting_invariant (hbuf : rx.buffer.length = rxTransferBufferSize)
    (hempty : rx.dataSize = 0) {cs cs' : List (List UInt8 × Msg)} (hcs : Legal cs)
    (hcs' : Legal cs') (hstream : received cs = received cs') :
    handedMessages dispatch dev rx cs = handedMessages dispatch dev rx cs' ∧
      leftoverBytes dispatch dev rx cs = leftoverBytes dispatch dev rx cs' := by
  rw [handedMessages_eq_scan dispatch dev hbuf hempty hcs,
    handedMessages_eq_scan dispatch dev hbuf hempty hcs',
    leftoverBytes_eq_scan dispatch dev hbuf hempty hcs,
    leftoverBytes_eq_scan dispatch dev hbuf hempty hcs', hstream]
  exact ⟨rfl, rfl⟩

end

/-- A garbage byte and a frame in one completion, or cut inside the header and before the
last byte. -/
theorem readBulkCallback_cutting_invariant_split :
    let dispatch : Dispatch Unit := fun _ _ _ => ((), .failure)
    let rx : RxTransfer := ⟨List.replicate rxTransferBufferSize 0, 0⟩
    let whole : List (List UInt8 × Msg) := [([0x00, 0xF7, 0x05, 0x28, 0x10, 0xFA, 0xF7], Msg.zero)]
    let cut : List (List UInt8 × Msg) :=
      [([0x00, 0xF7], Msg.zero), ([0x05, 0x28, 0x10], Msg.zero), ([0xFA, 0xF7], Msg.zero)]
    handedMessages dispatch () rx whole = handedMessages dispatch () rx cut ∧
      leftoverBytes dispatch () rx whole = leftoverBytes dispatch () rx cut :=
  readBulkCallback_cutting_invariant _ () List.length_replicate rfl
    (by simp [Legal, rxBufferSize]) (by simp [Legal, rxBufferSize]) rfl

end AptUsbtrx
