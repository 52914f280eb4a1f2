import AptUsbtrx.Model.Channel
import AptUsbtrx.Shared.Execution

/-! # Calls one after another

`if_type` says who uses the channel as long as the unit acknowledges every request to stop. -/

namespace AptUsbtrx

namespace Ep1Cf02a

open Execution

/-! ### The four functions -/

variable {channel : Channel}

theorem fileOpen_of_net (h : channel.ifType = .net) : fileOpen channel = (-ebusy, channel) :=
  if_pos h

theorem fileOpen_of_ne_net (h : channel.ifType ≠ .net) :
    fileOpen channel = (0, ⟨.file, channel.fileOpenCount + 1⟩) := if_neg h

/-- The interface is brought up on a channel that nobody uses, or nothing changes. -/
theorem netdevOpen_cases (config : CandevConfig) (err : ℤ) (replies : List CmdReply)
    (channel : Channel) :
    channel.ifType = .none ∧
        netdevOpen config err replies channel = (0, { channel with ifType := .net }) ∨
      (netdevOpen config err replies channel).1 ≠ 0 ∧
        (netdevOpen config err replies channel).2 = channel := by
  rw [netdevOpen]
  by_cases hbusy : channel.ifType ≠ .none
  · rw [if_pos hbusy]
    exact .inr ⟨show -ebusy ≠ 0 by decide, rfl⟩
  rw [if_neg hbusy]
  by_cases herr : err ≠ 0
  · rw [if_pos herr]
    exact .inr ⟨herr, rfl⟩
  rw [if_neg herr, netdevStart]
  split
  · exact .inl ⟨not_not.mp hbusy, rfl⟩
  · exact .inr ⟨show -eio ≠ 0 by decide, rfl⟩

/-- The unit acknowledges `SetTxRxControl`. -/
def Acknowledged (reply : CmdReply) : Prop :=
  setSucceeds (setCommon 5 cmdSetTxRxControl) reply = true

theorem netdevClose_of_acknowledged {reply : CmdReply} (h : Acknowledged reply)
    (channel : Channel) : netdevClose reply channel = (0, { channel with ifType := .none }) := by
  rw [Acknowledged] at h
  simp [netdevClose, stopCanInterface, h]

theorem netdevClose_of_not_acknowledged {reply : CmdReply} (h : ¬ Acknowledged reply)
    (channel : Channel) : netdevClose reply channel = (-eio, channel) := by
  rw [Acknowledged] at h
  simp [netdevClose, stopCanInterface, h]

namespace ChannelCalls

variable {s t : ChannelCalls} {call : ChannelCall}

/-- `if_type` says who uses the channel, and a channel that nobody uses can be opened. -/
structure Consistent (s : ChannelCalls) : Prop where
  file : s.channel.ifType = .file ↔ 0 < s.channel.fileOpenCount
  net : s.channel.ifType = .net ↔ s.netUp = true
  none : s.channel.ifType = .none ↔ ¬ 0 < s.channel.fileOpenCount ∧ ¬ s.netUp = true
  reopens : s.files = 0 → s.netUp = false → (fileOpen s.channel).1 = 0

/-- The count is that of the open files. -/
def Counted (s : ChannelCalls) : Prop := s.channel.fileOpenCount = s.files

/-- Not both kinds of users, and `if_type` names the kind. -/
theorem consistent_of (hfile : s.channel.ifType = .file ↔ 0 < s.channel.fileOpenCount)
    (hnet : s.channel.ifType = .net ↔ s.netUp = true) : s.Consistent := by
  refine ⟨hfile, hnet, ?_, ?_⟩
  · rw [← hfile, ← hnet]
    cases s.channel.ifType with
    | none | file | net => simp
  · intro _ hdown
    have hne : s.channel.ifType ≠ .net := by
      rw [ne_eq, hnet, hdown]
      decide
    rw [fileOpen_of_ne_net hne]

/-- What a call does. -/
inductive Effect (s : ChannelCalls) : ChannelCall → ChannelCalls → Prop where
  | busy {call : ChannelCall} : (∀ reply, call ≠ .ndoStop reply) → Effect s call s
  | opened : s.channel.ifType ≠ .net →
      Effect s .fileOpen ⟨⟨.file, s.channel.fileOpenCount + 1⟩, s.files + 1, s.netUp⟩
  | closed : 0 < s.files → s.channel.fileOpenCount - 1 ≠ 0 → Effect s .fileClose
      ⟨⟨s.channel.ifType, s.channel.fileOpenCount - 1⟩, s.files - 1, s.netUp⟩
  | closedLast : 0 < s.files → s.channel.fileOpenCount - 1 = 0 → Effect s .fileClose
      ⟨⟨.none, s.channel.fileOpenCount - 1⟩, s.files - 1, s.netUp⟩
  | up (config : CandevConfig) (err : ℤ) (replies : List CmdReply) : s.channel.ifType = .none →
      Effect s (.ndoOpen config err replies) ⟨⟨.net, s.channel.fileOpenCount⟩, s.files, true⟩
  | down {reply : CmdReply} : s.netUp = true → Acknowledged reply → Effect s (.ndoStop reply)
      ⟨⟨.none, s.channel.fileOpenCount⟩, s.files, false⟩
  | stuck {reply : CmdReply} : s.netUp = true → ¬ Acknowledged reply → Effect s (.ndoStop reply)
      ⟨s.channel, s.files, false⟩

theorem effect_of_step (hstep : s.step call = some t) : Effect s call t := by
  cases call with
  | fileOpen =>
      simp only [step] at hstep
      by_cases hnet : s.channel.ifType = .net
      · rw [fileOpen_of_net hnet] at hstep
        cases hstep
        exact .busy (by rintro reply ⟨⟩)
      · rw [fileOpen_of_ne_net hnet] at hstep
        cases hstep
        exact .opened hnet
  | fileClose =>
      simp only [step, fileClose] at hstep
      split at hstep
      case isTrue => cases hstep
      case isFalse hfiles =>
        split at hstep
        case isTrue hlast =>
          cases hstep
          exact .closedLast (Nat.pos_of_ne_zero hfiles) hlast
        case isFalse hlast =>
          cases hstep
          exact .closed (Nat.pos_of_ne_zero hfiles) hlast
  | ndoOpen config err replies =>
      simp only [step] at hstep
      split at hstep
      case isTrue => cases hstep
      case isFalse hdown =>
        rcases netdevOpen_cases config err replies s.channel with ⟨hnone, hopen⟩ | ⟨hret, hsame⟩
        · rw [hopen] at hstep
          cases hstep
          exact .up config err replies hnone
        · have hfalse : s.netUp = false := Bool.eq_false_of_not_eq_true hdown
          rw [hsame, decide_eq_false hret, ← hfalse] at hstep
          cases hstep
          exact .busy (by rintro reply ⟨⟩)
  | ndoStop reply =>
      simp only [step] at hstep
      split at hstep
      case isTrue hup =>
        by_cases hack : Acknowledged reply
        · rw [netdevClose_of_acknowledged hack] at hstep
          cases hstep
          exact .down hup hack
        · rw [netdevClose_of_not_acknowledged hack] at hstep
          cases hstep
          exact .stuck hup hack
      case isFalse => cases hstep

theorem Counted.step (h : s.Counted) (hstep : s.step call = some t) : t.Counted := by
  rw [Counted] at h ⊢
  cases effect_of_step hstep with
  | busy | up | down | stuck => exact h
  | opened =>
      simp only [h]
      omega
  | closed hpos | closedLast hpos =>
      simp only [h]
      omega

/-- Only an `ndo_stop` that is not acknowledged spoils `if_type`. -/
theorem Consistent.step (hs : s.Consistent) (hcounted : s.Counted)
    (hstep : s.step call = some t) :
    t.Consistent ↔ ∀ reply, call = .ndoStop reply → Acknowledged reply := by
  rw [Counted] at hcounted
  have hfile := hs.file
  have hnet := hs.net
  cases effect_of_step hstep with
  | busy hcall => exact iff_of_true hs fun reply h => absurd h (hcall reply)
  | opened hne =>
      refine iff_of_true (consistent_of ?_ ?_) (by rintro reply ⟨⟩)
      · refine iff_of_true rfl ?_
        simp only
        omega
      · refine iff_of_false (by simp) ?_
        rwa [← hnet]
  | closed hpos hmore =>
      have hcount : 0 < s.channel.fileOpenCount := by omega
      refine iff_of_true (consistent_of ?_ hnet) (by rintro reply ⟨⟩)
      refine iff_of_true (hfile.mpr hcount) ?_
      simp only
      omega
  | closedLast hpos hlast =>
      have hcount : 0 < s.channel.fileOpenCount := by omega
      refine iff_of_true (consistent_of ?_ ?_) (by rintro reply ⟨⟩)
      · refine iff_of_false (by simp) ?_
        simp only
        omega
      · refine iff_of_false (by simp) ?_
        rw [← hnet, hfile.mpr hcount]
        decide
  | up config err replies hnone =>
      refine iff_of_true (consistent_of ?_ ?_) (by rintro reply ⟨⟩)
      · refine iff_of_false (by simp) ?_
        rw [← hfile, hnone]
        decide
      · exact iff_of_true rfl rfl
  | down hup hack =>
      refine iff_of_true (consistent_of ?_ ?_) ?_
      · refine iff_of_false (by simp) ?_
        rw [← hfile, hnet.mpr hup]
        decide
      · exact iff_of_false (by simp) (by simp)
      · rintro reply ⟨⟩
        exact hack
  | stuck hup hack =>
      refine iff_of_false ?_ fun h => hack (h _ rfl)
      intro ht
      have hdown := ht.net.mp (hnet.mpr hup)
      cases hdown

theorem consistent_start : start.Consistent :=
  consistent_of (iff_of_false (by decide) (by decide)) (iff_of_false (by decide) (by decide))

/-- In every sequence of calls `if_type` says after each of them who uses the channel, exactly when
every `ndo_stop` is acknowledged. -/
theorem consistent_iff {calls : List ChannelCall} (hrun : exec step start calls = some s) :
    (∀ done t, done <+: calls → exec step start done = some t → t.Consistent) ↔
      ∀ reply, .ndoStop reply ∈ calls → Acknowledged reply := by
  have hall := allSteps_iff_forall_prefix (I := Counted)
    (fun _ _ _ hcounted hstep => hcounted.step hstep)
    (fun _ _ _ hcounted hs hstep => hs.step hcounted hstep) (rfl : start.Counted) consistent_start hrun
  rw [hall, allSteps_iff_forall_mem hrun]
  constructor
  · intro h reply hmem
    exact h _ hmem reply rfl
  · rintro h call hmem reply rfl
    exact h reply hmem

/-! ### An interface that does not stop -/

/-- The unit answers with the response given. -/
def answered (frame : List UInt8) : CmdReply := ⟨(.success, frame), Msg.zero, false⟩

/-- The ACK or NACK of a request. -/
def ackFrame (id reqId : UInt8) : List UInt8 := [0xF7, 0x05, id, reqId, 0xFA]

/-- The unit accepts all that `ndo_open` asks for. -/
def openReplies : List CmdReply :=
  [answered [0xF7, 0x08, cmdResponseGetCANClock, 0x00, 0xB4, 0xC4, 0x04, 0xFA],
    answered (ackFrame cmdACK cmdSetBitTiming), answered (ackFrame cmdACK cmdSetSilentMode),
    answered (ackFrame cmdACK cmdSetFDMode),
    answered ([0xF7, 0x0C, cmdResponseGetDeviceTimestampResetTime] ++ List.replicate 8 0 ++ [0xFA]),
    answered (ackFrame cmdACK cmdSetTxRxControl)]

/-- The interface goes up and down, the request to stop is answered by `reply`, and a file is
opened. -/
def upDown (id : UInt8) : List ChannelCall :=
  [.ndoOpen ⟨false, fun _ _ => true⟩ 0 openReplies,
    .ndoStop (answered (ackFrame id cmdSetTxRxControl)), .fileOpen]

/-- After a NACK nobody uses the channel and `open` fails with `EBUSY`. -/
theorem upDown_nack : ∃ s, exec step start (upDown cmdNACK) = some s ∧ s.files = 0 ∧
    s.netUp = false ∧ s.channel.ifType = .net ∧ (fileOpen s.channel).1 = -ebusy ∧
      ¬ s.Consistent := by
  have hrun : exec step start (upDown cmdNACK) = some ⟨⟨.net, 0⟩, 0, false⟩ := by decide +kernel
  refine ⟨_, hrun, rfl, rfl, rfl, rfl, ?_⟩
  intro hs
  have hup := hs.net.mp rfl
  cases hup

theorem consistent_iff_upDown : ∃ t, exec step start (upDown cmdACK) = some t ∧
    t.Consistent := by
  have hrun : (exec step start (upDown cmdACK)).isSome = true := by decide +kernel
  obtain ⟨s, hs⟩ := Option.isSome_iff_exists.mp hrun
  refine ⟨s, hs, (consistent_iff hs).mpr ?_ _ s (List.prefix_refl _) hs⟩
  intro reply hmem
  simp only [upDown, List.mem_cons, ChannelCall.ndoStop.injEq, reduceCtorEq, List.not_mem_nil,
    or_false, false_or] at hmem
  rw [hmem]
  rfl

end ChannelCalls

end Ep1Cf02a

end AptUsbtrx
