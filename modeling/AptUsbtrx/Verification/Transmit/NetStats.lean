import AptUsbtrx.Model.NetStats
import AptUsbtrx.Verification.Transmit.Flight

/-! # When the transmit statistics balance

A completion counts whatever frame it is of, with the size last recorded. -/

namespace AptUsbtrx

open Execution Ep1Cf02a

namespace NetStatsSystem

variable {υ : Type} {net : CanNet} {bufferAddr : ℕ} {s t : NetStatsSystem υ} {l : NetStatsLabel}

/-- The data lengths of the frames of the interface that have completed. -/
def sent (s : NetStatsSystem υ) : List UInt8 := s.completed.filterMap id

/-- The statistics are those of the frames of the interface. -/
structure Balanced (s : NetStatsSystem υ) : Prop where
  packets : s.txPackets = UInt64.ofNat s.sent.length
  bytes : s.txBytes = UInt64.ofNat (s.sent.map UInt8.toNat).sum

/-- A completion of a frame of the interface finds the interface, and the size that is recorded is
that of the frame. A completion of a frame of the file does not find the interface. -/
def Accounted (s : NetStatsSystem υ) : NetStatsLabel → Prop
  | .complete k present =>
      match s.origin k with
      | some len => present = true ∧ s.txDataSize = len
      | none => present = false
  | _ => True

instance decidableAccounted (s : NetStatsSystem υ) : ∀ l, Decidable (Accounted s l)
  | .complete k present =>
      match h : s.origin k with
      | some len =>
          decidable_of_iff (present = true ∧ s.txDataSize = len) (by rw [Accounted, h])
      | none => decidable_of_iff (present = false) (by rw [Accounted, h])
  | .netdevOpen | .netdevClose | .startXmit .. | .writeTxRb _ | .write .. | .wakeQueue
  | .flight _ => isTrue trivial

/-- What steps other than completions leave alone. -/
structure StatsKept (s t : NetStatsSystem υ) : Prop where
  packets : t.txPackets = s.txPackets
  bytes : t.txBytes = s.txBytes
  completed : t.completed = s.completed

theorem StatsKept.balanced_iff (h : StatsKept s t) : Balanced t ↔ Balanced s := by
  have hsent : t.sent = s.sent := congrArg (List.filterMap id) h.completed
  constructor
  · rintro ⟨hpackets, hbytes⟩
    rw [h.packets, hsent] at hpackets
    rw [h.bytes, hsent] at hbytes
    exact ⟨hpackets, hbytes⟩
  · rintro ⟨hpackets, hbytes⟩
    exact ⟨by rw [h.packets, hsent, hpackets], by rw [h.bytes, hsent, hbytes]⟩

theorem statsKept_step (hl : ∀ k present, l ≠ .complete k present)
    (hstep : s.step net bufferAddr l = some t) : StatsKept s t := by
  cases l with
  | complete k present => exact absurd rfl (hl k present)
  | netdevOpen | netdevClose | wakeQueue =>
      rw [step] at hstep
      split at hstep
      case isTrue =>
        cases hstep
        exact ⟨rfl, rfl, rfl⟩
      case isFalse => cases hstep
  | startXmit silent dropped skb =>
      rw [step, startXmit] at hstep
      repeat' split at hstep
      all_goals
        first
        | cases hstep
          exact ⟨rfl, rfl, rfl⟩
        | cases hstep
  | writeTxRb msg =>
      obtain ⟨skb, -, rfl⟩ := Option.map_eq_some_iff.mp hstep
      exact ⟨rfl, rfl, rfl⟩
  | write payload payloadSize msg =>
      rw [step] at hstep
      split at hstep
      case isTrue =>
        cases hstep
        exact ⟨rfl, rfl, rfl⟩
      case isFalse => cases hstep
  | flight label =>
      rw [step] at hstep
      split at hstep
      case isTrue =>
        obtain ⟨flight, -, rfl⟩ := Option.map_eq_some_iff.mp hstep
        exact ⟨rfl, rfl, rfl⟩
      case isFalse => cases hstep

theorem toUInt64_eq_iff {a b : UInt8} : a.toUInt64 = UInt64.ofNat b.toNat ↔ a = b := by
  have hb := b.toNat_lt
  constructor
  · intro h
    have hnat := congrArg UInt64.toNat h
    rw [UInt8.toNat_toUInt64, UInt64.toNat_ofNat', Nat.mod_eq_of_lt (by omega)] at hnat
    exact UInt8.toNat_inj.mp hnat
  · rintro rfl
    apply UInt64.toNat_inj.mp
    rw [UInt8.toNat_toUInt64, UInt64.toNat_ofNat', Nat.mod_eq_of_lt (by omega)]

theorem ofNat_succ_ne (n : ℕ) : UInt64.ofNat n ≠ UInt64.ofNat (n + 1) := by
  rw [UInt64.ofNat_add, ne_eq, UInt64.left_eq_add]
  decide

/-- The completion of a frame of the interface. -/
theorem balanced_complete_net (h : Balanced s) {k : ℕ} {len : UInt8} (hk : s.origin k = some len)
    (present : Bool) :
    Balanced (s.writeBulkCallback k present) ↔ present = true ∧ s.txDataSize = len := by
  have hsent : (s.writeBulkCallback k present).sent = s.sent ++ [len] := by
    cases present <;> simp [sent, writeBulkCallback, hk]
  cases present with
  | false =>
      refine iff_of_false (fun hb => ?_) fun hand => Bool.false_ne_true hand.1
      have hpackets : s.txPackets = UInt64.ofNat (s.sent ++ [len]).length := hsent ▸ hb.packets
      rw [h.packets, List.length_append] at hpackets
      exact ofNat_succ_ne _ hpackets
  | true =>
      have hpackets : s.txPackets + 1 = UInt64.ofNat (s.sent ++ [len]).length := by
        rw [h.packets, List.length_append, UInt64.ofNat_add]
        rfl
      have hbytes : s.txBytes + s.txDataSize.toUInt64 =
          UInt64.ofNat ((s.sent ++ [len]).map UInt8.toNat).sum ↔ s.txDataSize = len := by
        rw [h.bytes, List.map_append, List.sum_append, UInt64.ofNat_add, UInt64.add_right_inj,
          List.map_singleton, List.sum_singleton, toUInt64_eq_iff]
      constructor
      · intro hb
        exact ⟨rfl, hbytes.mp (hsent ▸ hb.bytes)⟩
      · rintro ⟨-, hlen⟩
        refine ⟨?_, ?_⟩
        · rw [hsent]
          exact hpackets
        · rw [hsent]
          exact hbytes.mpr hlen

/-- The completion of a frame of the file. -/
theorem balanced_complete_file (h : Balanced s) {k : ℕ} (hk : s.origin k = none) (present : Bool) :
    Balanced (s.writeBulkCallback k present) ↔ present = false := by
  have hsent : (s.writeBulkCallback k present).sent = s.sent := by
    cases present <;> simp [sent, writeBulkCallback, hk]
  cases present with
  | false => exact iff_of_true ⟨hsent ▸ h.packets, hsent ▸ h.bytes⟩ rfl
  | true =>
      refine iff_of_false (fun hb => ?_) nofun
      have hpackets : s.txPackets + 1 = UInt64.ofNat s.sent.length := hsent ▸ hb.packets
      rw [h.packets, UInt64.add_eq_left] at hpackets
      revert hpackets
      decide

theorem Balanced.step_iff (h : Balanced s) (hstep : s.step net bufferAddr l = some t) :
    Balanced t ↔ Accounted s l := by
  by_cases hl : ∃ k present, l = .complete k present
  · obtain ⟨k, present, rfl⟩ := hl
    obtain ⟨flight, -, rfl⟩ := Option.map_eq_some_iff.mp hstep
    have hs : Balanced { s with flight := flight } := ⟨h.packets, h.bytes⟩
    rw [Accounted]
    cases hk : s.origin k with
    | some len => exact balanced_complete_net hs hk present
    | none => exact balanced_complete_file hs hk present
  · have hkept := statsKept_step (fun k present heq => hl ⟨k, present, heq⟩) hstep
    have htrue : Accounted s l := by
      cases l with
      | complete k present => exact absurd ⟨k, present, rfl⟩ hl
      | _ => exact trivial
    exact iff_of_true (hkept.balanced_iff.mpr h) htrue

/-- All along a run the statistics are those of the frames of the interface exactly if every
completion is accounted to its frame. -/
theorem stats_balanced_iff (net : CanNet) (bufferAddr : ℕ) (dev : Dev υ) (maxToken : ℤ)
    {ls : List NetStatsLabel} (hrun : exec (step net bufferAddr) (start dev maxToken) ls = some s) :
    (∀ ks u, ks <+: ls → exec (step net bufferAddr) (start dev maxToken) ks = some u → Balanced u) ↔
      AllSteps (step net bufferAddr) Accounted (start dev maxToken) ls :=
  allSteps_iff_forall_prefix (I := fun _ => True) (fun _ _ _ _ _ => trivial)
    (fun _ _ _ _ h hstep => h.step_iff hstep) trivial ⟨rfl, rfl⟩ hrun

/-- A frame of the interface is submitted, and its URB completes. -/
def sendOne (len : UInt8) : List NetStatsLabel :=
  [.flight (.tx (.atomicSet false false 0)), .netdevOpen,
    .startXmit false false ⟨false, 0x123, len, 0, List.replicate 8 0x55⟩, .writeTxRb Msg.zero,
    .flight (.tx (.thread false)), .flight (.tx (.thread true)), .flight (.tx (.thread true)),
    .flight (.tx (.thread false)), .flight (.tx (.thread false)), .flight (.tx (.thread false)),
    .flight (.tx (.thread false)), .flight (.tx (.thread true)), .complete 0 true, .wakeQueue]

/-- A full frame on an AP-CT2A. -/
theorem stats_balanced_iff_full :
    ∃ s : NetStatsSystem Unit,
      exec (step .apCt2a 0x40000000) (start TxSystem.smallDev 10) (sendOne 8) = some s ∧
        s.txPackets = 1 ∧ s.txBytes = 8 ∧
        ∀ ks u, ks <+: sendOne 8 →
          exec (step .apCt2a 0x40000000) (start TxSystem.smallDev 10) ks = some u → Balanced u := by
  have hrun : (exec (step .apCt2a 0x40000000) (start TxSystem.smallDev 10) (sendOne 8)).map
      (fun s => (s.txPackets, s.txBytes)) = some (1, 8) := by
    decide +kernel
  obtain ⟨s, hs, heq⟩ := Option.map_eq_some_iff.mp hrun
  obtain ⟨hpackets, hbytes⟩ := Prod.mk.inj heq
  refine ⟨s, hs, hpackets, hbytes, ?_⟩
  exact (stats_balanced_iff .apCt2a 0x40000000 TxSystem.smallDev 10 hs).mpr (by decide +kernel)

/-- An AP-CT2A records the size of the data field of its command whatever the length of the
frame. -/
theorem stats_unbalanced :
    ¬ ∀ (net : CanNet) (ls : List NetStatsLabel) (s : NetStatsSystem Unit),
      exec (step net 0x40000000) (start TxSystem.smallDev 10) ls = some s → Balanced s := by
  intro h
  have hrun : (exec (step .apCt2a 0x40000000) (start TxSystem.smallDev 10) (sendOne 3)).map
      (fun s => (s.txBytes, s.sent)) = some (8, [3]) := by
    decide +kernel
  obtain ⟨s, hs, heq⟩ := Option.map_eq_some_iff.mp hrun
  obtain ⟨hbytes, hsent⟩ := Prod.mk.inj heq
  have hbalanced := (h .apCt2a (sendOne 3) s hs).bytes
  rw [hbytes, hsent] at hbalanced
  revert hbalanced
  decide

/-! ### The frames that are told apart -/

/-- Only a write accepts a frame. -/
theorem accepted_step {writeCmdId : UInt8} {u v : FlightSystem υ} {label : FlightLabel}
    (hl : ∀ payload payloadSize msg, label ≠ .tx (.write payload payloadSize msg))
    (hstep : u.step writeCmdId bufferAddr label = some v) : v.tx.accepted = u.tx.accepted := by
  cases label with
  | complete k =>
      simp only [FlightSystem.step, TxSystem.step] at hstep
      split at hstep
      case isFalse => cases hstep
      split at hstep
      case isTrue.isFalse => cases hstep
      case isTrue.isTrue =>
        cases hstep
        rfl
  | tx label =>
      cases label with
      | writeBulkCallback => cases hstep
      | thread choice =>
          obtain ⟨tx, htx, rfl⟩ := Option.map_eq_some_iff.mp hstep
          exact (TxSystem.frameSpec_thread htx).accepted
      | write payload payloadSize msg => exact absurd rfl (hl _ _ _)
      | requestClear | atomicSet =>
          cases hstep
          rfl

/-- Every accepted frame has an origin, and an AP-CT2A has recorded the same size for all of the
interface. -/
structure Sound (net : CanNet) (s : NetStatsSystem υ) : Prop where
  served : s.flight.Served
  origins : s.origins.length = s.flight.tx.accepted.length
  recorded : net = .apCt2a → s.xmit ≠ none ∨ (∃ len, some len ∈ s.origins) →
    s.txDataSize = ApCt2a.sendCfDataSize

theorem sound_start {dev : Dev υ} (hw : dev.txData.Wf) (hempty : dev.txData.queue = [])
    (hroom : dev.txData.endPtr + cmdMaxLength < 2 ^ 64) (maxToken : ℤ) :
    Sound net (start dev maxToken) where
  served := FlightSystem.served_start hw hempty hroom maxToken
  origins := rfl
  recorded _ h := by
    rcases h with h | ⟨len, hlen⟩
    · exact absurd rfl h
    · cases hlen

theorem Sound.writeFrame (h : Sound net s) {origin : Option UInt8}
    (horigin : origin ≠ none → s.xmit ≠ none) (payload : List UInt8) (payloadSize : UInt8)
    (msg : Msg) : Sound net (s.writeFrame net origin payload payloadSize msg) := by
  refine ⟨h.served.write net.writeCmdId payload payloadSize msg, ?_, fun hnet hsome => ?_⟩
  · simp only [NetStatsSystem.writeFrame, TxSystem.write]
    split
    · rw [List.length_append, List.length_append, h.origins]
      rfl
    · exact h.origins
  · refine h.recorded hnet ?_
    rcases hsome with hxmit | ⟨len, hlen⟩
    · exact .inl hxmit
    · simp only [NetStatsSystem.writeFrame] at hlen
      split at hlen
      · rcases List.mem_append.mp hlen with hlen | hlen
        · exact .inr ⟨len, hlen⟩
        · have hsome : origin = some len := (List.mem_singleton.mp hlen).symm
          exact .inl (horigin (by simp [hsome]))
      · exact .inr ⟨len, hlen⟩

theorem Sound.step (h : Sound net s) (haddr : bufferAddr ≠ 0)
    (hstack : bufferAddr + cmdMaxLength < 2 ^ 64) (hstep : s.step net bufferAddr l = some t) :
    Sound net t := by
  cases l with
  | netdevOpen | netdevClose | wakeQueue =>
      rw [NetStatsSystem.step] at hstep
      split at hstep
      case isTrue =>
        cases hstep
        exact ⟨h.served, h.origins, h.recorded⟩
      case isFalse => cases hstep
  | startXmit silent dropped skb =>
      rw [NetStatsSystem.step, startXmit] at hstep
      repeat' split at hstep
      all_goals
        first
        | cases hstep
          exact h
        | cases hstep
          exact ⟨h.served, h.origins, fun hnet _ => by rw [hnet]; rfl⟩
        | cases hstep
  | writeTxRb msg =>
      obtain ⟨skb, hskb, rfl⟩ := Option.map_eq_some_iff.mp hstep
      have hwritten : Sound net
          (s.writeFrame net (some skb.len) (net.sendCf skb) net.sendCfSize msg) :=
        h.writeFrame (fun _ => by rw [hskb]; exact nofun) _ _ _
      refine ⟨hwritten.served, hwritten.origins, fun hnet hsome => hwritten.recorded hnet ?_⟩
      exact hsome.imp_left fun hnone => absurd rfl hnone
  | write payload payloadSize msg =>
      rw [NetStatsSystem.step] at hstep
      split at hstep
      case isTrue =>
        cases hstep
        exact h.writeFrame (fun hnone => absurd rfl hnone) payload payloadSize msg
      case isFalse => cases hstep
  | complete k present =>
      obtain ⟨flight, hflight, rfl⟩ := Option.map_eq_some_iff.mp hstep
      have hserved := h.served.step haddr hstack hflight
      have haccepted := accepted_step (by intros; exact nofun) hflight
      cases present with
      | true | false =>
          exact ⟨hserved, h.origins.trans (congrArg List.length haccepted.symm), h.recorded⟩
  | flight label =>
      rw [NetStatsSystem.step] at hstep
      split at hstep
      case isTrue hinternal =>
        obtain ⟨flight, hflight, rfl⟩ := Option.map_eq_some_iff.mp hstep
        have haccepted : flight.tx.accepted = s.flight.tx.accepted := by
          refine accepted_step ?_ hflight
          rintro payload payloadSize msg rfl
          cases hinternal
        exact ⟨h.served.step haddr hstack hflight,
          h.origins.trans (congrArg List.length haccepted.symm), h.recorded⟩
      case isFalse => cases hstep

theorem sound_exec {dev : Dev υ} (hw : dev.txData.Wf) (hempty : dev.txData.queue = [])
    (hroom : dev.txData.endPtr + cmdMaxLength < 2 ^ 64) (haddr : bufferAddr ≠ 0)
    (hstack : bufferAddr + cmdMaxLength < 2 ^ 64) {maxToken : ℤ} {ls : List NetStatsLabel}
    (hrun : exec (step net bufferAddr) (start dev maxToken) ls = some s) : Sound net s :=
  exec_invariant (fun _ _ _ h hstep => h.step haddr hstack hstep)
    (sound_start hw hempty hroom maxToken) hrun

/-- Every frame whose URB may complete has an origin. -/
theorem Sound.lt_origins (h : Sound net s) {k : ℕ} (hk : k ∈ s.flight.flight) :
    k < s.origins.length := by
  rw [h.origins]
  exact (h.served.lt_left_of_mem hk).trans_le h.served.left_le

/-- On an AP-CT2A the completions that account for frames of the interface are those of full
frames. -/
theorem Sound.accounted_apCt2a_iff (h : Sound .apCt2a s) {k : ℕ} {len : UInt8}
    (hk : s.origin k = some len) (present : Bool) :
    Accounted s (.complete k present) ↔ present = true ∧ len = ApCt2a.sendCfDataSize := by
  have hmem : some len ∈ s.origins := List.mem_of_getElem? (Option.join_eq_some_iff.mp hk)
  rw [Accounted, hk]
  dsimp only
  rw [h.recorded rfl (.inr ⟨len, hmem⟩), eq_comm (a := ApCt2a.sendCfDataSize)]

/-- The data length of the frame that `ndo_start_xmit` of an EP1-CF02A took last. -/
def lastXmit (len : UInt8) : NetStatsLabel → UInt8
  | .startXmit false false skb => skb.len
  | _ => len

theorem txDataSize_step (hstep : s.step .ep1Cf02a bufferAddr l = some t) :
    t.txDataSize = lastXmit s.txDataSize l := by
  cases l with
  | startXmit silent dropped skb =>
      rw [step, startXmit] at hstep
      split at hstep
      case isTrue => cases hstep
      case isFalse =>
        cases silent with
        | true =>
            cases hstep
            rfl
        | false =>
            cases dropped with
            | true =>
                cases hstep
                rfl
            | false =>
                simp only [Bool.false_eq_true, if_false] at hstep
                split at hstep
                case isTrue => cases hstep
                case isFalse =>
                  rw [if_neg (show ¬ CanNet.unsupported .ep1Cf02a skb = true from Bool.false_ne_true)]
                    at hstep
                  cases hstep
                  rfl
  | netdevOpen | netdevClose | wakeQueue =>
      rw [step] at hstep
      split at hstep
      case isTrue =>
        cases hstep
        rfl
      case isFalse => cases hstep
  | writeTxRb msg =>
      obtain ⟨skb, -, rfl⟩ := Option.map_eq_some_iff.mp hstep
      rfl
  | write payload payloadSize msg =>
      rw [step] at hstep
      split at hstep
      case isTrue =>
        cases hstep
        rfl
      case isFalse => cases hstep
  | complete k present =>
      obtain ⟨flight, -, rfl⟩ := Option.map_eq_some_iff.mp hstep
      cases present <;> rfl
  | flight label =>
      rw [step] at hstep
      split at hstep
      case isTrue =>
        obtain ⟨flight, -, rfl⟩ := Option.map_eq_some_iff.mp hstep
        rfl
      case isFalse => cases hstep

theorem txDataSize_exec {ls : List NetStatsLabel}
    (hrun : exec (step .ep1Cf02a bufferAddr) s ls = some t) :
    t.txDataSize = ls.foldl lastXmit s.txDataSize := by
  induction ls generalizing s with
  | nil =>
      cases hrun
      rfl
  | cons l ls ih =>
      obtain ⟨u, hu, hrest⟩ := Option.bind_eq_some_iff.mp hrun
      rw [ih hrest, txDataSize_step hu, List.foldl_cons]

/-- On an EP1-CF02A the completions that account for frames of the interface are those of frames as
long as the one that `ndo_start_xmit` took last. -/
theorem accounted_ep1Cf02a_iff {dev : Dev υ} {maxToken : ℤ} {ls : List NetStatsLabel}
    (hrun : exec (step .ep1Cf02a bufferAddr) (start dev maxToken) ls = some s) {k : ℕ} {len : UInt8}
    (hk : s.origin k = some len) (present : Bool) :
    Accounted s (.complete k present) ↔ present = true ∧ len = ls.foldl lastXmit 0 := by
  rw [Accounted, hk]
  dsimp only
  rw [txDataSize_exec hrun, eq_comm (b := len)]
  exact Iff.rfl

end NetStatsSystem

end AptUsbtrx
