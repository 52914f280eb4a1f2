import AptUsbtrx.Verification.Receive.Chunking

/-! # Packed messages survive the stream

Messages packed one after another, with bytes other than `SOB` around them, reach the
dispatcher in order. -/

namespace AptUsbtrx

open Memory

/-- Bytes without `SOB` hold no message. -/
theorem scan_noise {noise : List UInt8} (h : msgSob ∉ noise) : (frameDecoder.scan noise).1 = [] := by
  induction noise with
  | nil => rw [frameDecoder.scan_of_more frameDecoder.verdict_nil]
  | cons b noise ih =>
      by_cases hlen : (b :: noise).length < cmdMinLength
      · rw [frameDecoder.scan_of_more (frameVerdict_of_short hlen)]
      · have hb : b ≠ msgSob := fun heq => h (heq ▸ List.mem_cons_self)
        have hskip : frameDecoder.verdict (b :: noise) = .skip :=
          frameVerdict_of_not_sob hb (Nat.le_of_not_lt hlen)
        rw [frameDecoder.scan_of_skip hskip]
        exact ih fun hmem => h (List.mem_cons_of_mem b hmem)

/-- Bytes without `SOB` in front of a frame are dropped. -/
theorem scan_noise_encode {noise : List UInt8} (h : msgSob ∉ noise) (m : Message)
    (tail : List UInt8) :
    frameDecoder.scan (noise ++ (m.encode ++ tail)) =
      (m :: (frameDecoder.scan tail).1, (frameDecoder.scan tail).2) := by
  have hmin := m.length_bounds.1
  have henc := m.encode_length
  rw [frameDecoder.scan_skipped, frameDecoder.scan_encoded]
  · rw [henc]
    exact frameVerdict_encode m tail
  · intro k hk
    rw [List.drop_eq_getElem_cons hk, List.cons_append]
    refine frameVerdict_of_not_sob (fun heq => h (heq ▸ List.getElem_mem hk)) ?_
    simp only [List.length_append, henc]
    omega

/-- Packed messages, each after some bytes of noise, and noise at the end. -/
def noisyStream (frames : List (List UInt8 × Msg)) (tail : List UInt8) : List UInt8 :=
  (frames.flatMap fun f => f.1 ++ packed f.2) ++ tail

theorem scan_noisyStream {frames : List (List UInt8 × Msg)} {tail : List UInt8}
    (hsize : ∀ f ∈ frames, f.2.payloadSize.toNat ≤ maxPayload)
    (hnoise : ∀ f ∈ frames, msgSob ∉ f.1) (htail : msgSob ∉ tail) :
    (frameDecoder.scan (noisyStream frames tail)).1 = frames.map fun f => f.2.message := by
  induction frames with
  | nil => exact scan_noise htail
  | cons f frames ih =>
      have ih := ih (fun g hg => hsize g (List.mem_cons_of_mem f hg))
        (fun g hg => hnoise g (List.mem_cons_of_mem f hg))
      have hstream : noisyStream (f :: frames) tail =
          f.1 ++ (f.2.message.encode ++ noisyStream frames tail) := by
        simp only [noisyStream, List.flatMap_cons, packed_eq (hsize f List.mem_cons_self),
          List.append_assoc]
      rw [hstream, scan_noise_encode (hnoise f List.mem_cons_self), ih, List.map_cons]

/-- The messages packed into a stream are handed to the dispatcher, in order and unchanged,
however the stream is cut. -/
theorem handedMessages_noisyStream {δ : Type} (dispatch : Dispatch δ) (dev : δ) {rx : RxTransfer}
    (hbuf : rx.buffer.length = rxTransferBufferSize) (hempty : rx.dataSize = 0)
    (frames : List (List UInt8 × Msg)) (tail : List UInt8)
    (hsize : ∀ f ∈ frames, f.2.payloadSize.toNat ≤ maxPayload)
    (hnoise : ∀ f ∈ frames, msgSob ∉ f.1) (htail : msgSob ∉ tail)
    {cs : List (List UInt8 × Msg)} (hcs : Legal cs) (hstream : received cs = noisyStream frames tail) :
    handedMessages dispatch dev rx cs = frames.map fun f => f.2.view := by
  rw [handedMessages_eq_scan dispatch dev hbuf hempty hcs, hstream,
    scan_noisyStream hsize hnoise htail, List.map_map]
  exact List.map_congr_left fun f hf => (Msg.view_eq (hsize f hf)).symm

/-- The message with id `0x28` and the payload `F7 FA`. -/
def markerMsg : Msg where
  id := 0x28
  payload := [0xF7, 0xFA] ++ List.replicate 76 0
  payloadSize := 2
  payload_length := rfl

theorem handedMessages_noisyStream_markers :
    handedMessages (fun (u : Unit) _ _ => (u, .success)) ()
        ⟨List.replicate rxTransferBufferSize 0, 0⟩
        [([0x00, 0xF7, 0x06, 0x28], Msg.zero), ([0xF7, 0xFA, 0xFA, 0xFA], Msg.zero)] =
      [⟨0x28, 2, [0xF7, 0xFA]⟩] :=
  handedMessages_noisyStream _ () List.length_replicate rfl [([0x00], markerMsg)] [0xFA]
    (by simp [markerMsg, maxPayload]) (by simp [msgSob]) (by simp [msgSob])
    (by simp [Legal, rxBufferSize]) (by decide)

end AptUsbtrx
