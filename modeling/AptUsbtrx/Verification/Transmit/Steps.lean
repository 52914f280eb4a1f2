import AptUsbtrx.Model.Transmit

/-! # The steps of the transmit thread

Each step with what it has found and what it leaves. -/

namespace AptUsbtrx

namespace TxSystem

variable {υ : Type} {s t : TxSystem υ} {bufferAddr : ℕ} {choice : Bool}

/-- A step of the thread. `tokens` is the state in front of the check of the tokens. -/
inductive ThreadStep (bufferAddr : ℕ) (s : TxSystem υ) : Bool → TxSystem υ → Prop where
  | stop : s.pc = .top → ThreadStep bufferAddr s true { s with pc := .stopped }
  | toClear : s.pc = .top → s.dev.txDataClearRequested = true →
      ThreadStep bufferAddr s false { s with pc := .clear }
  | toWait : s.pc = .top → s.dev.txDataClearRequested = false →
      ThreadStep bufferAddr s false { s with pc := .wait }
  | clear {choice : Bool} : s.pc = .clear → ThreadStep bufferAddr s choice { s with
      dev := { s.dev with txData := ringbufferClear s.dev.txData }
      pc := .cleared
      log := s.log ++ [.cleared] }
  | cleared {choice : Bool} : s.pc = .cleared → ThreadStep bufferAddr s choice { s with
      dev := { s.dev with txDataClearRequested := false }
      pc := .top }
  | enabled : s.pc = .wait → isWriteEnable s.dev = true →
      ThreadStep bufferAddr s true { s with pc := .token }
  | timeout : s.pc = .wait → ThreadStep bufferAddr s false { s with pc := .top }
  | noToken {choice : Bool} {tokens : TxSystem υ} : s.pc = .token →
      tokens = (if choice then s.refill else s) → tokens.transferToken ≤ 0 →
      ThreadStep bufferAddr s choice { tokens with pc := .top }
  | hasToken {choice : Bool} {tokens : TxSystem υ} : s.pc = .token →
      tokens = (if choice then s.refill else s) → 0 < tokens.transferToken →
      ThreadStep bufferAddr s choice { tokens with pc := .down }
  | interrupted : s.pc = .down → ThreadStep bufferAddr s true { s with pc := .top }
  | down : s.pc = .down → 0 < s.usbTransferSem →
      ThreadStep bufferAddr s false
        { s with pc := .header, usbTransferSem := s.usbTransferSem - 1 }
  | header {choice : Bool} : s.pc = .header →
      ThreadStep bufferAddr s choice (s.header bufferAddr)
  | body {choice : Bool} {buffer : List UInt8} {msgLength pos remain : ℕ} :
      s.pc = .body buffer msgLength pos remain →
      ThreadStep bufferAddr s choice (s.body bufferAddr buffer msgLength pos remain)
  | submit {choice : Bool} {buffer : List UInt8} {msgLength : ℕ} :
      s.pc = .submit buffer msgLength →
      ThreadStep bufferAddr s choice (s.submit (buffer.take msgLength) choice)

theorem threadStep_of (h : s.thread bufferAddr choice = some t) :
    ThreadStep bufferAddr s choice t := by
  rw [thread] at h
  cases hpc : s.pc with
  | top =>
      simp only [hpc] at h
      cases choice with
      | true =>
          cases h
          exact .stop hpc
      | false =>
          cases hrequested : s.dev.txDataClearRequested with
          | true =>
              rw [hrequested] at h
              cases h
              exact .toClear hpc hrequested
          | false =>
              rw [hrequested] at h
              cases h
              exact .toWait hpc hrequested
  | clear =>
      simp only [hpc] at h
      cases h
      exact .clear hpc
  | cleared =>
      simp only [hpc] at h
      cases h
      exact .cleared hpc
  | wait =>
      simp only [hpc] at h
      cases choice with
      | true =>
          cases henabled : isWriteEnable s.dev with
          | true =>
              rw [henabled] at h
              cases h
              exact .enabled hpc henabled
          | false =>
              rw [henabled] at h
              cases h
      | false =>
          cases h
          exact .timeout hpc
  | token =>
      simp only [hpc] at h
      generalize htokens : (if choice = true then s.refill else s) = tokens at h
      by_cases htoken : tokens.transferToken ≤ 0
      · rw [if_pos htoken] at h
        cases h
        exact .noToken hpc htokens.symm htoken
      · rw [if_neg htoken] at h
        cases h
        exact .hasToken hpc htokens.symm (Int.not_le.mp htoken)
  | down =>
      simp only [hpc] at h
      cases choice with
      | true =>
          cases h
          exact .interrupted hpc
      | false =>
          rw [if_neg Bool.false_ne_true] at h
          by_cases hsem : s.usbTransferSem > 0
          · rw [if_pos hsem] at h
            cases h
            exact .down hpc hsem
          · rw [if_neg hsem] at h
            cases h
  | header =>
      simp only [hpc] at h
      cases h
      exact .header hpc
  | body buffer msgLength pos remain =>
      simp only [hpc] at h
      cases h
      exact .body hpc
  | submit buffer msgLength =>
      simp only [hpc] at h
      cases h
      exact .submit hpc
  | stopped =>
      simp only [hpc] at h
      cases h

end TxSystem

end AptUsbtrx
