import AptUsbtrx.Model.Tokens
import AptUsbtrx.Shared.Execution
import AptUsbtrx.Shared.TokenBucket
import AptUsbtrx.Verification.Transmit.Thread

/-! # The transfer tokens bound the URBs of a window

The thread takes a frame only when it has a token for it, so its tokens are a bucket from which
every URB spends one. -/

namespace AptUsbtrx

open Execution

/-- Where the thread is on the way to a URB. -/
def TxPc.Spends : TxPc → Prop
  | down | header | body .. | submit .. => True
  | _ => False

def TxEvent.isUrb : TxEvent → Bool
  | urb _ => true
  | _ => false

namespace TxSystem

variable {υ : Type} {s t : TxSystem υ} {bufferAddr : ℕ}

/-- The URBs of the thread so far. -/
def submitted (s : TxSystem υ) : ℕ := s.log.countP TxEvent.isUrb

/-- What a step of the thread does to the tokens. -/
structure TokenSpec (s : TxSystem υ) (choice : Bool) (t : TxSystem υ) : Prop where
  maxToken : t.transferMaxToken = s.transferMaxToken
  token : t.transferToken = match s.pc.tokenEvent choice with
    | .refill => s.refill.transferToken
    | .submit => s.transferToken - 1
    | .keep => s.transferToken
  submit : s.pc.tokenEvent choice = .submit → s.pc.Spends
  submitted : t.submitted = if s.pc.tokenEvent choice = .submit then s.submitted + 1
    else s.submitted
  spends : t.pc.Spends → 0 < t.transferToken ∨ s.pc.Spends ∧ t.transferToken = s.transferToken

/-- On the way to a URB the tokens stay as they are. -/
theorem tokenSpec_of_spends {choice : Bool} (hmax : t.transferMaxToken = s.transferMaxToken)
    (htoken : t.transferToken = s.transferToken) (hsubmitted : t.submitted = s.submitted)
    (hpc : s.pc.Spends) (hkeep : s.pc.tokenEvent choice = .keep) : TokenSpec s choice t where
  maxToken := hmax
  token := by rw [htoken, hkeep]
  submit _ := hpc
  submitted := by rw [hsubmitted, hkeep, if_neg (by decide)]
  spends _ := .inr ⟨hpc, htoken⟩

/-- Elsewhere the thread has nothing in its hands. -/
theorem tokenSpec_of_not_spends {choice : Bool} (hmax : t.transferMaxToken = s.transferMaxToken)
    (htoken : t.transferToken = s.transferToken) (hsubmitted : t.submitted = s.submitted)
    (hpc : ¬ t.pc.Spends) (hkeep : s.pc.tokenEvent choice = .keep) : TokenSpec s choice t where
  maxToken := hmax
  token := by rw [htoken, hkeep]
  submit h := nomatch hkeep.symm.trans h
  submitted := by rw [hsubmitted, hkeep, if_neg (by decide)]
  spends h := absurd h hpc

theorem tokenSpec_header (hpc : s.pc = .header) (choice : Bool) :
    TokenSpec s choice (s.header bufferAddr) := by
  have hspends : s.pc.Spends := hpc ▸ trivial
  have hkeep : s.pc.tokenEvent choice = .keep := by rw [hpc]; rfl
  rw [header]
  dsimp only
  split
  all_goals exact tokenSpec_of_spends rfl rfl rfl hspends hkeep

theorem tokenSpec_body {buffer : List UInt8} {msgLength pos remain : ℕ}
    (hpc : s.pc = .body buffer msgLength pos remain) (choice : Bool) :
    TokenSpec s choice (s.body bufferAddr buffer msgLength pos remain) := by
  have hspends : s.pc.Spends := hpc ▸ trivial
  have hkeep : s.pc.tokenEvent choice = .keep := by rw [hpc]; rfl
  rw [body]
  dsimp only
  repeat' split
  all_goals exact tokenSpec_of_spends rfl rfl rfl hspends hkeep

theorem tokenSpec_submit {buffer : List UInt8} {msgLength : ℕ}
    (hpc : s.pc = .submit buffer msgLength) (choice : Bool) :
    TokenSpec s choice (s.submit (buffer.take msgLength) choice) := by
  have hspends : s.pc.Spends := hpc ▸ trivial
  cases choice with
  | true =>
      have hevent : s.pc.tokenEvent true = .submit := by rw [hpc]; rfl
      exact ⟨rfl, by rw [hevent]; rfl, fun _ => hspends,
        by rw [if_pos hevent]; exact List.countP_append, fun h => absurd h not_false⟩
  | false =>
      exact tokenSpec_of_spends rfl rfl List.countP_append hspends (by rw [hpc]; rfl)

theorem tokenSpec_token (hpc : s.pc = .token) {choice : Bool} {tokens : TxSystem υ}
    (htokens : tokens = if choice then s.refill else s) {pc : TxPc}
    (hspends : pc.Spends → 0 < tokens.transferToken) :
    TokenSpec s choice { tokens with pc := pc } := by
  rw [htokens] at hspends ⊢
  cases choice with
  | true | false =>
      exact ⟨rfl, by rw [hpc]; rfl, by simp [hpc, TxPc.tokenEvent], by rw [hpc]; rfl,
        fun h => .inl (hspends h)⟩

theorem tokenSpec_thread {choice : Bool} (h : s.thread bufferAddr choice = some t) :
    TokenSpec s choice t := by
  cases threadStep_of h with
  | stop hpc | toClear hpc | toWait hpc | cleared hpc | enabled hpc | timeout hpc
  | interrupted hpc =>
      exact tokenSpec_of_not_spends rfl rfl rfl not_false (by rw [hpc]; rfl)
  | clear hpc =>
      exact tokenSpec_of_not_spends rfl rfl List.countP_append not_false (by rw [hpc]; rfl)
  | noToken hpc htokens => exact tokenSpec_token hpc htokens fun h => absurd h not_false
  | hasToken hpc htokens htoken => exact tokenSpec_token hpc htokens fun _ => htoken
  | down hpc => exact tokenSpec_of_spends rfl rfl rfl (hpc ▸ trivial) (by rw [hpc]; rfl)
  | header hpc => exact tokenSpec_header hpc choice
  | body hpc => exact tokenSpec_body hpc choice
  | submit hpc => exact tokenSpec_submit hpc choice

end TxSystem

namespace TokenSystem

variable {υ : Type} {uniqueDispatch : Dispatch (Dev υ)} {writeCmdId : UInt8} {bufferAddr : ℕ}
  {s t : TokenSystem υ} {l : TokenLabel}

/-- What a window is for the bucket. -/
def window (w : RefillWindow) : TokenWindow := ⟨w.budget, w.submitted⟩

/-- The bucket of tokens. -/
def bucket (s : TokenSystem υ) : TokenBucket :=
  ⟨s.tx.transferToken, window s.current, s.past.map window⟩

/-- The tokens are those of a bucket, and the thread is on the way to a URB only with one. -/
structure Metered (s : TokenSystem υ) : Prop where
  reachable : s.bucket.Reachable
  maxToken : 0 ≤ s.tx.transferMaxToken
  windows : ∀ w ∈ s.current :: s.past, 0 ≤ w.transferMaxToken
  spends : s.tx.pc.Spends → 0 < s.tx.transferToken
  counted : ((s.current :: s.past).map RefillWindow.submitted).sum = s.tx.submitted

theorem metered_start (dev : Dev υ) (maxToken : ℕ) : Metered (start dev maxToken) where
  reachable := .refl
  maxToken := Int.natCast_nonneg _
  windows w hw := by
    rw [List.mem_singleton.mp hw]
    exact Int.le_refl 0
  spends := nofun
  counted := rfl

/-- Steps that leave the tokens and the thread alone. -/
theorem Metered.of_eq (h : Metered s) {tx : TxSystem υ}
    (htoken : tx.transferToken = s.tx.transferToken) (hmax : 0 ≤ tx.transferMaxToken)
    (hspends : tx.pc.Spends → 0 < tx.transferToken) (hsubmitted : tx.submitted = s.tx.submitted) :
    Metered { s with tx := tx } where
  reachable := by
    have hbucket : bucket { s with tx := tx } = s.bucket := by
      rw [bucket, htoken]
      rfl
    rw [hbucket]
    exact h.reachable
  maxToken := hmax
  windows := h.windows
  spends := hspends
  counted := hsubmitted ▸ h.counted

theorem budget_nonneg {w : RefillWindow} (h : 0 ≤ w.transferMaxToken) : 0 ≤ w.budget := by
  rw [RefillWindow.budget]
  split
  · exact Int.le_refl 0
  · exact Int.mul_nonneg h (Int.natCast_nonneg _)

theorem Metered.refill (h : Metered s) {tx : TxSystem υ}
    (htoken : tx.transferToken = s.tx.refill.transferToken) (hmax : 0 ≤ tx.transferMaxToken)
    (hspends : tx.pc.Spends → 0 < tx.transferToken) (hsubmitted : tx.submitted = s.tx.submitted) :
    Metered ⟨tx, ⟨s.tx.transferMaxToken, s.tx.dev.txBufferRate, 0⟩, s.current :: s.past⟩ where
  reachable := by
    rw [bucket, htoken]
    exact h.reachable.tail (.refill (budget_nonneg (w := ⟨_, s.tx.dev.txBufferRate, 0⟩) h.maxToken))
  maxToken := hmax
  windows w hw := by
    rcases List.mem_cons.mp hw with rfl | hw
    · exact h.maxToken
    · exact h.windows w hw
  spends := hspends
  counted := by
    rw [hsubmitted, ← h.counted, List.map_cons, List.sum_cons]
    exact Nat.zero_add _

theorem Metered.submit (h : Metered s) {tx : TxSystem υ}
    (htoken : tx.transferToken = s.tx.transferToken - 1) (hpos : 0 < s.tx.transferToken)
    (hmax : 0 ≤ tx.transferMaxToken) (hspends : tx.pc.Spends → 0 < tx.transferToken)
    (hsubmitted : tx.submitted = s.tx.submitted + 1) :
    Metered ⟨tx, { s.current with submitted := s.current.submitted + 1 }, s.past⟩ where
  reachable := by
    rw [bucket, htoken]
    exact h.reachable.tail (.spend hpos)
  maxToken := hmax
  windows w hw := by
    rcases List.mem_cons.mp hw with rfl | hw
    · exact h.windows s.current List.mem_cons_self
    · exact h.windows w (List.mem_cons_of_mem _ hw)
  spends := hspends
  counted := by
    rw [hsubmitted, ← h.counted]
    simp only [List.map_cons, List.sum_cons]
    omega

theorem Metered.thread (h : Metered s) {choice : Bool} {tx : TxSystem υ}
    (hstep : s.tx.thread bufferAddr choice = some tx) :
    Metered ⟨tx, (s.observe choice).1, (s.observe choice).2⟩ := by
  have hspec := TxSystem.tokenSpec_thread hstep
  have htoken := hspec.token
  have hmax : 0 ≤ tx.transferMaxToken := hspec.maxToken ▸ h.maxToken
  have hspends (hs : tx.pc.Spends) : 0 < tx.transferToken := by
    rcases hspec.spends hs with hpos | ⟨hs', heq⟩
    · exact hpos
    · rw [heq]
      exact h.spends hs'
  have hsubmitted := hspec.submitted
  rw [observe]
  cases hevent : s.tx.pc.tokenEvent choice with
  | refill =>
      rw [hevent] at htoken hsubmitted
      exact h.refill htoken hmax hspends hsubmitted
  | submit =>
      rw [hevent] at htoken hsubmitted
      exact h.submit htoken (h.spends (hspec.submit hevent)) hmax hspends hsubmitted
  | keep =>
      rw [hevent] at htoken hsubmitted
      exact h.of_eq htoken hmax hspends hsubmitted

theorem Metered.step (h : Metered s)
    (hstep : s.step uniqueDispatch writeCmdId bufferAddr l = some t) : Metered t := by
  cases l with
  | setMaxToken maxToken =>
      cases hstep
      exact h.of_eq rfl (Int.natCast_nonneg _) h.spends rfl
  | dispatchMsg data msg =>
      cases hstep
      exact h.of_eq rfl h.maxToken h.spends rfl
  | tx label =>
      obtain ⟨tx, htx, rfl⟩ := Option.map_eq_some_iff.mp hstep
      cases label with
      | write payload payloadSize msg =>
          cases htx
          exact h.of_eq rfl h.maxToken h.spends rfl
      | requestClear | atomicSet =>
          cases htx
          exact h.of_eq rfl h.maxToken h.spends rfl
      | writeBulkCallback =>
          rw [TxSystem.step] at htx
          split at htx
          case isTrue =>
            cases htx
            exact h.of_eq rfl h.maxToken h.spends rfl
          case isFalse => cases htx
      | thread choice => exact h.thread htx

/-- In every run the tokens stay between zero and the budget of the last refill. Every URB is in
one window, and a window has no more URBs than the maximum that its refill has read, and none when
its refill has read a rate above the limit. -/
theorem tokens_bound_urbs {dev : Dev υ} {maxToken : ℕ} {ls : List TokenLabel}
    (hrun : exec (step uniqueDispatch writeCmdId bufferAddr) (start dev maxToken) ls = some s) :
    0 ≤ s.tx.transferToken ∧ s.tx.transferToken ≤ s.current.budget ∧
      ((s.current :: s.past).map RefillWindow.submitted).sum = s.tx.submitted ∧
      ∀ w ∈ s.current :: s.past, (w.submitted : ℤ) ≤ w.transferMaxToken ∧
        (w.txBufferRate > txTransferLimitRate → w.submitted = 0) := by
  have h : Metered s :=
    exec_invariant (fun _ _ _ h hstep => h.step hstep) (metered_start dev maxToken) hrun
  have hbalanced := TokenBucket.balanced_of_reachable h.reachable
  refine ⟨hbalanced.tokens_nonneg, hbalanced.tokens_le, h.counted, fun w hw => ?_⟩
  have hmax := h.windows w hw
  have hspent : (w.submitted : ℤ) ≤ w.budget := by
    apply hbalanced.spent_le (window w)
    rcases List.mem_cons.mp hw with rfl | hw
    · exact List.mem_cons_self
    · exact List.mem_cons_of_mem _ (List.mem_map_of_mem hw)
  rw [RefillWindow.budget] at hspent
  split at hspent
  case isTrue => exact ⟨hspent.trans hmax, fun _ => by omega⟩
  case isFalse hrate =>
    rw [txTokenExpiredTime] at hspent
    exact ⟨by omega, fun hlimit => absurd hlimit hrate⟩

/-- A window with one token, which the second of two frames has to do without. -/
def oneToken : List TokenLabel :=
  [.tx (.atomicSet false false 0), .tx (.write [0x01] 1 Msg.zero),
    .tx (.write [0x02] 1 Msg.zero), .tx (.thread false), .tx (.thread true), .setMaxToken 1,
    .tx (.thread true), .setMaxToken 7, .tx (.thread false), .tx (.thread false),
    .tx (.thread false), .tx (.thread false), .tx (.thread true), .tx (.thread false),
    .tx (.thread true), .tx (.thread false)]

theorem tokens_bound_urbs_oneToken :
    ∃ s, exec (step (fun dev _ _ => (dev, .success)) 0x3A 0x40000000)
        (start TxSystem.smallDev 0) oneToken = some s ∧
      s.tx.transferToken = 0 ∧ s.current = ⟨1, 0, 1⟩ ∧
      0 ≤ s.tx.transferToken ∧ s.tx.transferToken ≤ s.current.budget := by
  have hstate : (exec (step (fun dev _ _ => (dev, .success)) 0x3A 0x40000000)
      (start TxSystem.smallDev 0) oneToken).map (fun s => (s.tx.transferToken, s.current)) =
        some (0, ⟨1, 0, 1⟩) := by
    decide +kernel
  obtain ⟨s, hs, heq⟩ := Option.map_eq_some_iff.mp hstate
  obtain ⟨htoken, hcurrent⟩ := Prod.mk.inj heq
  obtain ⟨hnonneg, hle, -⟩ := tokens_bound_urbs hs
  exact ⟨s, hs, htoken, hcurrent, hnonneg, hle⟩

end TokenSystem

end AptUsbtrx
