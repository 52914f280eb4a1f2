import AptUsbtrx.Verification.Stale.Dispatchers
import Mathlib.Data.Nat.Bitwise

/-! # What the dispatcher of the AP-CT2A reads -/

namespace AptUsbtrx

open Memory Message

/-! ### The summary of the AP-CT2A -/

namespace ApCt2a

/-- Every record of the summary is what the count would make of it. -/
def Settled (env : KernelEnv) (summary : CanSummary) (count : UInt32) : Prop :=
  updateStats env summary.err count = summary.err ∧
    updateStats env summary.rtrExt count = summary.rtrExt ∧
    updateStats env summary.rtrStd count = summary.rtrStd ∧
    updateStats env summary.datExt count = summary.datExt ∧
    updateStats env summary.datStd count = summary.datStd

instance (env : KernelEnv) (summary : CanSummary) (count : UInt32) :
    Decidable (Settled env summary count) := inferInstanceAs (Decidable (_ ∧ _))

/-- The summary after the notification in the structure. -/
def summaryAfter (env : KernelEnv) (summary : CanSummary) (payload : List UInt8) : CanSummary :=
  updateSummary env summary (parseNotifyRecvCanSummary payload).2.canId
    (parseNotifyRecvCanSummary payload).1

theorem and_two_pow_ne_zero (x i : ℕ) : x &&& 2 ^ i ≠ 0 ↔ x.testBit i = true := by
  rw [Nat.and_two_pow]
  cases x.testBit i <;> simp

/-- The three flags of the identifier are in its last byte. -/
theorem summaryAfter_eq (env : KernelEnv) (summary : CanSummary) (payload : List UInt8) :
    summaryAfter env summary payload =
      let count := UInt32.ofNat (Ep1Cf02a.le32 payload 0)
      let flags := (byteAt payload 7).toNat
      if flags.testBit 5 then { summary with err := updateStats env summary.err count }
      else if flags.testBit 6 then
        if flags.testBit 7 then { summary with rtrExt := updateStats env summary.rtrExt count }
        else { summary with rtrStd := updateStats env summary.rtrStd count }
      else if flags.testBit 7 then
        { summary with datExt := updateStats env summary.datExt count }
      else { summary with datStd := updateStats env summary.datStd count } := by
  have hflag : ∀ i, Ep1Cf02a.le32 payload 4 &&& 2 ^ (24 + i) ≠ 0 ↔
      (byteAt payload 7).toNat.testBit i = true := by
    intro i
    rw [and_two_pow_ne_zero, Ep1Cf02a.testBit_le32]
  have herr := hflag 5
  have hrtr := hflag 6
  have heff := hflag 7
  simp only [Nat.reducePow, Nat.reduceAdd] at herr hrtr heff
  simp only [summaryAfter, updateSummary, parseNotifyRecvCanSummary, canErrFlag, canRtrFlag,
    canEffFlag, herr, hrtr, heff]

/-- A count that is not zero becomes the total of the record. -/
theorem updateStats_totalNum {env : KernelEnv} {stats : Stats} {count : UInt32}
    (h : count ≠ 0) : (updateStats env stats count).totalNum = count := by
  rw [updateStats, if_neg h]

/-- A settled summary is left alone. -/
theorem summaryAfter_of_settled {env : KernelEnv} {summary : CanSummary} {payload : List UInt8}
    (h : Settled env summary (UInt32.ofNat (Ep1Cf02a.le32 payload 0))) :
    summaryAfter env summary payload = summary := by
  obtain ⟨herr, hrtrExt, hrtrStd, hdatExt, hdatStd⟩ := h
  rw [summaryAfter_eq]
  simp only [herr, hrtrExt, hrtrStd, hdatExt, hdatStd, ite_self]

/-- The summary with the flags `b` behind a message that has the count. -/
def withFlags (env : KernelEnv) (summary : CanSummary) (m : Message) (b : UInt8) : CanSummary :=
  summaryAfter env summary (m.paddedAt 7 b).payload

/-- A summary that no flags make a difference to is settled. -/
theorem settled_of_withFlags {env : KernelEnv} {summary : CanSummary} {m : Message}
    (hcount : m.Covers 4) (hflags : ¬ m.Covers 8)
    (h : ∀ b b', withFlags env summary m b = withFlags env summary m b') :
    Settled env summary (UInt32.ofNat (Ep1Cf02a.le32 m.payload 0)) := by
  have hle : ∀ b, Ep1Cf02a.le32 (m.paddedAt 7 b).payload 0 = Ep1Cf02a.le32 m.payload 0 := by
    intro b
    rw [← Ep1Cf02a.le32_take (show 0 + 4 ≤ m.payload.length from hcount),
      (m.holds_paddedAt 7 b).take]
  have heq : ∀ b, withFlags env summary m b = _ := fun b => summaryAfter_eq env summary _
  simp only [hle, byteAt_paddedAt_self _ (show 7 < maxPayload by decide) hflags] at heq
  -- the five flag bytes that select the five records
  have hdatStd := heq 0
  have herr := heq 0x20
  have hrtrExt := heq 0xC0
  have hrtrStd := heq 0x40
  have hdatExt := heq 0x80
  simp +decide only [if_true, if_false] at hdatStd herr hrtrExt hrtrStd hdatExt
  rw [h 0x20 0, hdatStd] at herr
  rw [h 0xC0 0, hdatStd] at hrtrExt
  rw [h 0x40 0, hdatStd] at hrtrStd
  rw [h 0x80 0, hdatStd] at hdatExt
  exact ⟨(congrArg CanSummary.err herr).symm, (congrArg CanSummary.rtrExt hrtrExt).symm,
    (congrArg CanSummary.rtrStd hrtrStd).symm, (congrArg CanSummary.datExt hdatExt).symm,
    congrArg CanSummary.datStd herr⟩

/-- A stale count makes a difference whatever the summary is. -/
theorem exists_summaryAfter_ne (env : KernelEnv) (summary : CanSummary) {m : Message}
    (h : ¬ m.Covers 4) : ∃ msg msg' : Msg, msg.Holds m ∧ msg'.Holds m ∧
      summaryAfter env summary msg.payload ≠ summaryAfter env summary msg'.payload := by
  refine ⟨_, _, m.holds_paddedAt 3 1, m.holds_paddedAt 3 2, ?_⟩
  have hflags : ∀ b, byteAt (m.paddedAt 3 b).payload 7 = 0 := by
    intro b
    rw [covers_iff] at h
    rw [m.byteAt_paddedAt_of_ne b (by decide) (by decide), byteAt_of_length_le (by omega)]
  have hbit : ∀ b i, (Ep1Cf02a.le32 (m.paddedAt 3 b).payload 0).testBit (24 + i) =
      b.toNat.testBit i := by
    intro b i
    rw [Ep1Cf02a.testBit_le32, byteAt_paddedAt_self b (show 3 < maxPayload by decide) h]
  have hcount : ∀ b, (UInt32.ofNat (Ep1Cf02a.le32 (m.paddedAt 3 b).payload 0)).toNat =
      Ep1Cf02a.le32 (m.paddedAt 3 b).payload 0 :=
    fun b => Nat.mod_eq_of_lt (Ep1Cf02a.le32_lt _ _)
  have hne : ∀ b i, b.toNat.testBit i = true →
      UInt32.ofNat (Ep1Cf02a.le32 (m.paddedAt 3 b).payload 0) ≠ 0 := by
    intro b i hb hzero
    rw [← hbit, ← hcount, hzero] at hb
    simp at hb
  intro heq
  have htotal := congrArg (fun summary => summary.datStd.totalNum) heq
  simp +decide only [summaryAfter_eq, hflags, if_false] at htotal
  rw [updateStats_totalNum (hne 1 0 (by decide)), updateStats_totalNum (hne 2 1 (by decide))]
    at htotal
  have hle := congrArg (fun count : UInt32 => count.toNat.testBit (24 + 0)) htotal
  simp only [hcount, hbit] at hle
  exact absurd hle (by decide)

/-- How many payload bytes of a summary notification make a difference. -/
def summaryNeeds (env : KernelEnv) (summary : CanSummary) (m : Message) : ℕ :=
  if Settled env summary (UInt32.ofNat (Ep1Cf02a.le32 m.payload 0)) then 4 else 8

theorem reads_summaryAfter (env : KernelEnv) (summary : CanSummary) (m : Message) :
    m.Reads (fun msg => summaryAfter env summary msg.payload) (summaryNeeds env summary m) := by
  rw [summaryNeeds]
  by_cases hsettled : Settled env summary (UInt32.ofNat (Ep1Cf02a.le32 m.payload 0))
  · rw [if_pos hsettled]
    refine reads_intro ?_ (exists_summaryAfter_ne env summary)
    intro hcovers msg msg' h h'
    have hkept : ∀ msg : Msg, msg.Holds m → summaryAfter env summary msg.payload = summary := by
      intro msg h
      refine summaryAfter_of_settled ?_
      rwa [← Ep1Cf02a.le32_take (show 0 + 4 ≤ m.payload.length from hcovers), h.take]
    exact (hkept msg h).trans (hkept msg' h').symm
  · rw [if_neg hsettled]
    refine reads_intro ?_ ?_
    · intro hcovers msg msg' h h'
      have hagree := agreeOn_of_holds hcovers h h'
      beta_reduce
      rw [summaryAfter_eq, summaryAfter_eq, hagree.le32 (by omega), hagree.byteAt (by omega)]
    · intro hcovers
      by_cases hcount : m.Covers 4
      · by_contra hsame
        refine hsettled (settled_of_withFlags hcount hcovers ?_)
        intro b b'
        by_contra hne
        exact hsame ⟨_, _, m.holds_paddedAt 7 b, m.holds_paddedAt 7 b', hne⟩
      · exact exists_summaryAfter_ne env summary hcount

/-- How many payload bytes `apt_usbtrx_unique_can_dispatch_msg` needs. -/
def dispatchNeeds (env : KernelEnv) (dev : Dev UniqueDataCan) (m : Message) : ℕ :=
  if m.id = cmdNotifyRecvCANFrame then
    if dev.uniqueData.ifType = .net ∧ dev.uniqueData.netdev.present = true ∧
        env.allocated = true then
      13 + (rxSkb m.payload).len
    else 0
  else if m.id = cmdNotifyCANSummary then summaryNeeds env dev.uniqueData.summary m
  else 0

/-- The device with another summary. -/
def withSummary (dev : Dev UniqueDataCan) (summary : CanSummary) : Dev UniqueDataCan :=
  { dev with uniqueData := { dev.uniqueData with summary := summary } }

/-- The device with another network interface. -/
def withNetdev (dev : Dev UniqueDataCan) (netdev : Netdev) : Dev UniqueDataCan :=
  { dev with uniqueData := { dev.uniqueData with netdev := netdev } }

theorem reads_dispatchMsg_frame (env : KernelEnv) {dev : Dev UniqueDataCan} (hw : dev.rxData.Wf)
    (data : List UInt8) {m : Message} (hid : m.id = cmdNotifyRecvCANFrame) :
    m.Reads (fun msg => (dispatchMsg env dev data msg).1) (dispatchNeeds env dev m) := by
  rw [dispatchNeeds, if_pos hid]
  cases htype : dev.uniqueData.ifType with
  | none =>
      rw [if_neg (by simp)]
      refine Determines.reads ?_
      intro msg msg' h h'
      simp [dispatchMsg, h.id, h'.id, hid, htype]
  | file =>
      rw [if_neg (by simp)]
      refine Determines.reads ?_
      intro msg msg' h h'
      have hwrite := determines_ringbufferWrite m hw msg msg' h h'
      simp only [dispatchMsg, h.id, h'.id, hid, htype, if_true, hwrite]
  | net =>
      have heq : ∀ msg : Msg, msg.Holds m → withNetdev dev
          (dev.uniqueData.netdev.receive env.allocated (rxSkb msg.payload)) =
            (dispatchMsg env dev data msg).1 := by
        intro msg h
        simp [dispatchMsg, withNetdev, h.id, hid, htype]
      by_cases hskb : dev.uniqueData.netdev.present = true ∧ env.allocated = true
      · rw [if_pos ⟨rfl, hskb⟩]
        have hinjective : Function.Injective fun skb =>
            withNetdev dev (dev.uniqueData.netdev.receive env.allocated skb) := by
          intro skb skb' h
          rw [hskb.2] at h
          exact Netdev.receive_injective hskb.1 (congrArg (fun dev => dev.uniqueData.netdev) h)
        exact ((reads_comp_iff hinjective).mpr (reads_rxSkb m)).congr heq
      · rw [if_neg fun h => hskb h.2]
        refine Determines.reads ?_
        intro msg msg' h h'
        beta_reduce
        rw [← heq msg h, ← heq msg' h', Netdev.receive_eq_self hskb, Netdev.receive_eq_self hskb]

theorem reads_dispatchMsg_summary (env : KernelEnv) (dev : Dev UniqueDataCan)
    (data : List UInt8) {m : Message} (hid : m.id = cmdNotifyCANSummary) :
    m.Reads (fun msg => (dispatchMsg env dev data msg).1) (dispatchNeeds env dev m) := by
  have hframe : ¬ m.id = cmdNotifyRecvCANFrame := by
    rw [hid]
    decide
  rw [dispatchNeeds, if_neg hframe, if_pos hid]
  have heq : ∀ msg : Msg, msg.Holds m →
      withSummary dev (summaryAfter env dev.uniqueData.summary msg.payload) =
        (dispatchMsg env dev data msg).1 := by
    intro msg h
    rw [← h.id] at hframe hid
    simp only [dispatchMsg, if_neg hframe, if_pos hid]
    rfl
  have hinjective : Function.Injective (withSummary dev) :=
    fun summary summary' h => congrArg (fun dev => dev.uniqueData.summary) h
  exact ((reads_comp_iff hinjective).mpr (reads_summaryAfter env _ m)).congr heq

/-- The dispatcher of the AP-CT2A reads the first `dispatchNeeds` payload bytes. -/
theorem reads_dispatchMsg (env : KernelEnv) {dev : Dev UniqueDataCan} (hw : dev.rxData.Wf)
    (data : List UInt8) (m : Message) :
    m.Reads (fun msg => (dispatchMsg env dev data msg).1) (dispatchNeeds env dev m) := by
  by_cases hframe : m.id = cmdNotifyRecvCANFrame
  · exact reads_dispatchMsg_frame env hw data hframe
  by_cases hsummary : m.id = cmdNotifyCANSummary
  · exact reads_dispatchMsg_summary env dev data hsummary
  rw [dispatchNeeds, if_neg hframe, if_neg hsummary]
  refine Determines.reads ?_
  intro msg msg' h h'
  have hcomplete := determines_complete m dev.rxComplete data msg msg' h h'
  simp only at hcomplete
  simp only [dispatchMsg, h.id, h'.id, if_neg hframe, if_neg hsummary, hcomplete]

/-- The verdict depends on the id. -/
theorem determines_dispatchMsg_snd (env : KernelEnv) (dev : Dev UniqueDataCan)
    (data : List UInt8) (m : Message) :
    m.Determines fun msg => (dispatchMsg env dev data msg).2 := by
  have hverdict : ∀ msg : Msg, (dispatchMsg env dev data msg).2 =
      if msg.id = cmdNotifyRecvCANFrame ∨ msg.id = cmdNotifyCANSummary ∨
          msg.id = cmdResponseGetStatus then .success else .failure := by
    intro msg
    simp only [dispatchMsg]
    split_ifs <;> simp_all
  intro msg msg' h h'
  simp only [hverdict, h.id, h'.id]

end ApCt2a

end AptUsbtrx
