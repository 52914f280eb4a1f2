import AptUsbtrx.Verification.Receive.Chunking

/-! # The bytes carried over

What is left in the transfer buffer behind any completion is the beginning of one frame, so the
copy of the next completion stays inside the buffer. The loop over the received bytes ends. -/

namespace AptUsbtrx

open Memory

section

variable {δ : Type}

/-! ### The loop ends -/

/-- The loop over the received bytes from `processed` and `remain` on ends with `out`: one rule for
each way through a round. -/
inductive BulkRounds (dispatch : Dispatch δ) (buf : List UInt8) :
    ℕ → ℕ → Msg → δ → BulkLoop δ → Prop where
  | short {processed remain : ℕ} {msg : Msg} {dev : δ} : remain < cmdMinLength →
      BulkRounds dispatch buf processed remain msg dev ⟨processed, remain, dev⟩
  | notEnough {processed remain : ℕ} {msg : Msg} {dev : δ} : cmdMinLength ≤ remain →
      (msgParse (buf.drop processed) remain msg).1 = .notEnough →
      BulkRounds dispatch buf processed remain msg dev ⟨processed, remain, dev⟩
  | skip {processed remain : ℕ} {msg msg' : Msg} {dev : δ} {result : Result} {out : BulkLoop δ} :
      cmdMinLength ≤ remain → msgParse (buf.drop processed) remain msg = (result, msg') →
      result ≠ .success → result ≠ .notEnough →
      BulkRounds dispatch buf (processed + 1) (remain - 1) msg' dev out →
      BulkRounds dispatch buf processed remain msg dev out
  | handle {processed remain : ℕ} {msg msg' : Msg} {dev : δ} {out : BulkLoop δ} :
      cmdMinLength ≤ remain → msgParse (buf.drop processed) remain msg = (.success, msg') →
      BulkRounds dispatch buf (processed + payloadLengthToMsg msg'.payloadSize.toNat)
        (remain - payloadLengthToMsg msg'.payloadSize.toNat) msg'
        (dispatch dev (buf.drop processed) msg').1 out →
      BulkRounds dispatch buf processed remain msg dev out

/-- Every round takes a byte at least, so as many rounds as bytes are enough. -/
theorem readBulkLoop_rounds (dispatch : Dispatch δ) (buf : List UInt8) {fuel processed remain : ℕ}
    (msg : Msg) (dev : δ) (hfuel : remain ≤ fuel) :
    BulkRounds dispatch buf processed remain msg dev
      (readBulkLoop dispatch buf fuel processed remain msg dev) := by
  induction fuel generalizing processed remain msg dev with
  | zero =>
      rw [readBulkLoop]
      exact .short (by simp only [cmdMinLength]; omega)
  | succ fuel ih =>
      by_cases hmin : remain ≥ cmdMinLength
      · have hpos : 1 ≤ remain := Nat.le_trans (by decide) hmin
        rcases hp : msgParse (buf.drop processed) remain msg with ⟨result, msg'⟩
        rw [readBulkLoop, if_pos hmin, hp]
        cases result with
        | success =>
            simp only [ne_eq, not_true_eq_false, if_false]
            refine .handle hmin hp (ih _ _ ?_)
            simp only [payloadLengthToMsg]
            omega
        | notEnough =>
            simp only [ne_eq, reduceCtorEq, not_false_eq_true, if_true]
            exact .notEnough hmin (congrArg Prod.fst hp)
        | failure | timeout =>
            simp only [ne_eq, reduceCtorEq, not_false_eq_true, if_true, if_false]
            exact .skip hmin hp (by simp) (by simp) (ih _ _ (by omega))
      · rw [readBulkLoop, if_neg hmin]
        exact .short (Nat.lt_of_not_le hmin)

/-! ### The buffer never overflows -/

/-- A call of the completion handler: the flag and the status it finds, the bytes received, the
structure on the stack and the state that the dispatcher works on. -/
structure Completion (δ : Type) where
  onclosing : Bool
  status : UrbStatus
  recv : List UInt8
  msg : Msg
  dev : δ

/-- The transfer buffer behind a sequence of completions. -/
def RxTransfer.after (dispatch : Dispatch δ) (rx : RxTransfer) (cs : List (Completion δ)) :
    RxTransfer :=
  cs.foldl (fun rx c =>
    (readBulkCallback dispatch c.onclosing c.status c.recv c.msg rx c.dev).1) rx

/-- What is left waits for the rest of a frame and leaves room for another completion. -/
structure RxTransfer.LeftoverSpec (rx : RxTransfer) : Prop where
  dataSize_le : rx.dataSize ≤ 81
  waiting : rx.dataSize < 4 ∨ byteAt rx.buffer 0 = 0xF7 ∧ 4 ≤ (byteAt rx.buffer 1).toNat ∧
    (byteAt rx.buffer 1).toNat ≤ 82 ∧ rx.dataSize < (byteAt rx.buffer 1).toNat
  room : ∀ recv : List UInt8, recv.length ≤ 1024 →
    rx.dataSize + recv.length ≤ rx.buffer.length ∧ rx.buffer.length = 2048

theorem RxTransfer.Wf.callback {rx : RxTransfer} (h : rx.Wf) (dispatch : Dispatch δ)
    {c : Completion δ} (hrecv : c.recv.length ≤ rxBufferSize) :
    (readBulkCallback dispatch c.onclosing c.status c.recv c.msg rx c.dev).1.Wf := by
  cases hclosing : c.onclosing with
  | true => exact h
  | false =>
      cases hstatus : c.status with
      | ok =>
          have hsim : Simulates dispatch (fun _ => True) (fun _ _ => True) fun (u : Unit) _ => u :=
            fun _ _ _ _ _ _ _ => trivial
          exact (readBulkCallback_spec hsim c.msg h hrecv (t := ()) trivial fun _ _ => trivial).1
      | enoent | epipe | eproto | eshutdown | other => exact h

theorem RxTransfer.Wf.after {rx : RxTransfer} (h : rx.Wf) (dispatch : Dispatch δ)
    {cs : List (Completion δ)} (hcs : ∀ c ∈ cs, c.recv.length ≤ rxBufferSize) :
    (rx.after dispatch cs).Wf := by
  induction cs generalizing rx with
  | nil => exact h
  | cons c cs ih =>
      exact ih (h.callback dispatch (hcs c List.mem_cons_self)) fun d hd =>
        hcs d (List.mem_cons_of_mem c hd)

theorem RxTransfer.Wf.leftoverSpec {rx : RxTransfer} (h : rx.Wf) : rx.LeftoverSpec := by
  have hbuf := h.length_buffer
  have hlt := h.dataSize_lt
  have hlen : rx.leftover.length = rx.dataSize := by
    rw [RxTransfer.leftover, List.length_take]
    simp only [rxTransferBufferSize, rxBufferSize, cmdMaxLength] at *
    omega
  refine ⟨Nat.le_of_lt_succ hlt, ?_, fun recv hrecv => ?_⟩
  · by_cases hshort : rx.dataSize < 4
    · exact .inl hshort
    · obtain hmin | ⟨⟨hsob, hlo, hhi⟩, hmore⟩ := (frameVerdict_eq_more_iff _).mp h.waiting
      · exact absurd (hlen ▸ hmin) hshort
      · have hfront {i : ℕ} (hi : i < 4) : byteAt rx.leftover i = byteAt rx.buffer i :=
          byteAt_take (by omega)
        simp only [frameLength] at hlo hhi hmore
        rw [hfront (by decide)] at hsob hlo hhi hmore
        exact .inr ⟨hsob, hlo, hhi, hlen ▸ hmore⟩
  · simp only [rxTransferBufferSize, rxBufferSize, cmdMaxLength] at *
    omega

/-- Behind any completions of up to 1024 bytes each the bytes carried over are the beginning of at
most one frame, the next completion fits behind them, and the loop ends whatever it is given. -/
theorem readBulkCallback_leftover {dispatch : Dispatch δ} {rx : RxTransfer}
    (hbuf : rx.buffer.length = rxTransferBufferSize) (hempty : rx.dataSize = 0)
    {cs : List (Completion δ)} (hcs : ∀ c ∈ cs, c.recv.length ≤ 1024) :
    (rx.after dispatch cs).LeftoverSpec ∧
      ∀ (buf : List UInt8) (total : ℕ) (msg : Msg) (dev : δ),
        BulkRounds dispatch buf 0 total msg dev
          (readBulkLoop dispatch buf total 0 total msg dev) :=
  ⟨((RxTransfer.wf_of_empty hbuf hempty).after dispatch hcs).leftoverSpec,
    fun buf _ msg dev => readBulkLoop_rounds dispatch buf msg dev (Nat.le_refl _)⟩

/-- Noise, the beginning of a frame, a URB that was unlinked. -/
theorem readBulkCallback_leftover_noise :
    let cs : List (Completion Unit) :=
      [⟨false, .ok, [0x00, 0xF7, 0x03, 0xF7, 0x52, 0x10], Msg.zero, ()⟩,
        ⟨false, .enoent, [0xFA], Msg.zero, ()⟩]
    (RxTransfer.after (fun _ _ _ => ((), .failure))
      ⟨List.replicate rxTransferBufferSize 0, 0⟩ cs).LeftoverSpec :=
  (readBulkCallback_leftover List.length_replicate rfl (by simp)).1

end

end AptUsbtrx
