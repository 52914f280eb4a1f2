import AptUsbtrx.Model.ResetTs
import AptUsbtrx.Shared.Execution
import Mathlib.Data.List.Induction

/-! # The time of a reset

The ACK for a reset takes over the time that was stored last, by whichever call. -/

namespace AptUsbtrx

open Execution

/-- The call whose time the step stores. -/
def ResetLabel.stores {δ ι : Type} : ResetLabel δ ι → Option ι
  | .setResettime i => some i
  | _ => none

/-- The last call that stored its time. -/
def lastStore {δ ι : Type} (labels : List (ResetLabel δ ι)) : Option ι :=
  (labels.filterMap ResetLabel.stores).getLast?

theorem lastStore_concat {δ ι : Type} (labels : List (ResetLabel δ ι)) (label : ResetLabel δ ι) :
    lastStore (labels ++ [label]) = label.stores.or (lastStore labels) := by
  rw [lastStore, List.filterMap_append, List.getLast?_append]
  cases h : label.stores with
  | none => simp [h, lastStore]
  | some i => simp [h]

theorem mem_of_lastStore {δ ι : Type} {labels : List (ResetLabel δ ι)} {i : ι}
    (h : lastStore labels = some i) : ResetLabel.setResettime i ∈ labels := by
  obtain ⟨label, hmem, hstores⟩ := List.mem_filterMap.mp (List.mem_of_getLast? h)
  cases label with
  | setResettime j =>
      cases hstores
      exact hmem
  | getTs | call | answer | dispatch => cases hstores

namespace ResetSystem

variable {υ δ ι : Type} [DecidableEq ι] {s t : ResetSystem υ δ ι} {label : ResetLabel δ ι}

/-- What a step does to the times. -/
structure StepSpec (s : ResetSystem υ δ ι) (label : ResetLabel δ ι) (t : ResetSystem υ δ ι) :
    Prop where
  ts : ∀ i now, (s.calls i).ts = some now → (t.calls i).ts = some now
  stored : ∀ i, (t.calls i).stored = true → (s.calls i).stored = true ∨ label = .setResettime i
  kept : label.stores = none → t.resettime = s.resettime
  store : ∀ i, label.stores = some i → (t.calls i).ts = some t.resettime

theorem ts_of_update {i j : ι} {call : ResetCall} {now : Timespec64}
    (hts : ∀ now, (s.calls i).ts = some now → call.ts = some now)
    (hj : (s.calls j).ts = some now) : (Function.update s.calls i call j).ts = some now := by
  by_cases hji : j = i
  · subst hji
    rw [Function.update_self]
    exact hts now hj
  · rw [Function.update_of_ne hji, hj]

theorem stored_of_update {i j : ι} {call : ResetCall}
    (hj : (Function.update s.calls i call j).stored = true) :
    j = i ∧ call.stored = true ∨ (s.calls j).stored = true := by
  by_cases hji : j = i
  · subst hji
    rw [Function.update_self] at hj
    exact .inl ⟨rfl, hj⟩
  · rw [Function.update_of_ne hji] at hj
    exact .inr hj

/-- A step of one call that keeps its time and is not the store of it. -/
theorem stepSpec_of_update {i : ι} {call : ResetCall} (hlabel : label.stores = none)
    (hcalls : t.calls = Function.update s.calls i call) (hresettime : t.resettime = s.resettime)
    (hts : ∀ now, (s.calls i).ts = some now → call.ts = some now)
    (hstored : call.stored = (s.calls i).stored) : StepSpec s label t where
  ts j now hj := by
    rw [hcalls]
    exact ts_of_update hts hj
  stored j hj := by
    rw [hcalls] at hj
    rcases stored_of_update hj with ⟨rfl, hcall⟩ | hsame
    · exact .inl (hstored ▸ hcall)
    · exact .inl hsame
  kept _ := hresettime
  store j hj := by
    rw [hlabel] at hj
    cases hj

variable [DecidableEq δ] {device : ι → δ} {uniqueDispatch : Dispatch (Dev υ)}

theorem stepSpec_of_step (hstep : s.step device uniqueDispatch label = some t) :
    StepSpec s label t := by
  cases label with
  | getTs i now =>
      simp only [step] at hstep
      split at hstep
      case isTrue hnone =>
        cases hstep
        refine stepSpec_of_update rfl rfl rfl ?_ rfl
        intro now hnow
        rw [Option.isNone_iff_eq_none.mp hnone.2] at hnow
        cases hnow
      case isFalse => cases hstep
  | setResettime i =>
      simp only [step] at hstep
      split at hstep
      case h_1 ts hts =>
        split at hstep
        case isTrue => cases hstep
        case isFalse =>
          cases hstep
          refine ⟨fun _ _ hj => ts_of_update (fun _ h => h) hj, fun j hj => ?_, by rintro ⟨⟩, ?_⟩
          · rcases stored_of_update hj with ⟨rfl, -⟩ | hsame
            · exact .inr rfl
            · exact .inl hsame
          · rintro j ⟨⟩
            exact ts_of_update (fun _ h => h) hts
      case h_2 => cases hstep
  | call i label =>
      simp only [step] at hstep
      split at hstep
      case isTrue => cases hstep
      case isFalse =>
        obtain ⟨⟨channel, next⟩, -, rfl⟩ := Option.map_eq_some_iff.mp hstep
        exact stepSpec_of_update rfl rfl rfl (fun _ h => h) rfl
  | answer i data msg =>
      simp only [step] at hstep
      split at hstep
      case isTrue =>
        cases hstep
        exact stepSpec_of_update rfl rfl rfl (fun _ h => h) rfl
      case isFalse => cases hstep
  | dispatch d data msg =>
      simp only [step] at hstep
      split at hstep
      case isTrue => cases hstep
      case isFalse =>
        cases hstep
        exact ⟨fun _ _ h => h, fun _ h => .inl h, fun _ => rfl, by rintro i ⟨⟩⟩

end ResetSystem

/-! ### A request is sent after the store -/

/-- The call is not past the packing of its request, or has returned. -/
def CmdPc.unsent : CmdPc → Bool
  | checkArgs | allocReq | allocResp | pack | returned _ => true
  | _ => false

/-- The statements in front of the packing send nothing. -/
theorem CmdCall.unsent_of_step {ch ch' : MsgChannel} {call call' : CmdCall} {label : CmdLabel}
    (hunsent : call.pc.unsent = true) (hsamples : ¬ call.pc.samples = true)
    (hstep : call.step ch label = some (ch', call')) :
    call'.pc.unsent = true ∧ call.sends label = false := by
  cases hpc : call.pc with
  | checkArgs | allocReq | allocResp =>
      cases label with
      | advance ok =>
          simp only [CmdCall.step, hpc] at hstep
          cases hstep
          refine ⟨?_, by simp only [CmdCall.sends, hpc]⟩
          cases ok with
          | true | false => rfl
      | pack | round | parse =>
          simp only [CmdCall.step, hpc] at hstep
          cases hstep
  | pack =>
      rw [hpc] at hsamples
      exact absurd rfl hsamples
  | returned result =>
      cases label with
      | advance | pack | round | parse =>
          simp only [CmdCall.step, hpc] at hstep
          cases hstep
  | down | setId | initCompletion | send | upAfterSend | allocBuf | wait | upAfterWait | parse =>
      rw [hpc] at hunsent
      cases hunsent

namespace ResetSystem

variable {υ δ ι : Type} [DecidableEq ι] {s t : ResetSystem υ δ ι} {label : ResetLabel δ ι}

/-- A call whose time is not stored has sent nothing. -/
def Unsent (call : ResetCall) : Prop :=
  call.stored = false → call.call.pc.unsent = true ∧ call.outstanding = false

theorem unsent_update {i : ι} {call : ResetCall} (hs : ∀ j, Unsent (s.calls j))
    (hcall : Unsent call) (j : ι) : Unsent (Function.update s.calls i call j) := by
  by_cases hji : j = i
  · subst hji
    rwa [Function.update_self]
  · rw [Function.update_of_ne hji]
    exact hs j

variable [DecidableEq δ] {device : ι → δ} {uniqueDispatch : Dispatch (Dev υ)}

theorem unsent_step (hs : ∀ j, Unsent (s.calls j))
    (hstep : s.step device uniqueDispatch label = some t) : ∀ j, Unsent (t.calls j) := by
  cases label with
  | getTs i now =>
      simp only [step] at hstep
      split at hstep
      case isTrue =>
        cases hstep
        exact unsent_update hs (hs i)
      case isFalse => cases hstep
  | setResettime i =>
      simp only [step] at hstep
      split at hstep
      case h_1 =>
        split at hstep
        case isTrue => cases hstep
        case isFalse =>
          cases hstep
          exact unsent_update hs (by rintro ⟨⟩)
      case h_2 => cases hstep
  | call i label =>
      simp only [step] at hstep
      split at hstep
      case isTrue => cases hstep
      case isFalse hsamples =>
        obtain ⟨⟨channel, next⟩, hnext, rfl⟩ := Option.map_eq_some_iff.mp hstep
        refine unsent_update hs ?_
        intro hstored
        obtain ⟨hunsent, houtstanding⟩ := hs i hstored
        have hpc : ¬ (s.calls i).call.pc.samples = true := by
          intro hpc
          exact hsamples ⟨hpc, by rw [hstored]; decide⟩
        obtain ⟨hpc', hsends⟩ := CmdCall.unsent_of_step hunsent hpc hnext
        exact ⟨hpc', by rw [houtstanding, hsends]; rfl⟩
  | answer i data msg =>
      simp only [step] at hstep
      split at hstep
      case isTrue =>
        cases hstep
        refine unsent_update hs ?_
        intro hstored
        exact ⟨(hs i hstored).1, rfl⟩
      case isFalse => cases hstep
  | dispatch d data msg =>
      simp only [step] at hstep
      split at hstep
      case isTrue => cases hstep
      case isFalse =>
        cases hstep
        exact hs

variable {resettime : Timespec64} {devs : δ → Dev υ} {labels : List (ResetLabel δ ι)}

/-- The time in `*dev->resettime` is that of the last store. -/
theorem ts_lastStore (hrun : exec (step device uniqueDispatch) s labels = some t) :
    (lastStore labels = none → t.resettime = s.resettime) ∧
      ∀ i, lastStore labels = some i → (t.calls i).ts = some t.resettime := by
  induction labels using List.reverseRecOn generalizing t with
  | nil =>
      simp only [exec_nil, Option.some.injEq] at hrun
      subst hrun
      exact ⟨fun _ => rfl, by rintro i ⟨⟩⟩
  | append_singleton labels label ih =>
      obtain ⟨u, hu, hstep⟩ := exec_concat_iff.mp hrun
      obtain ⟨hnone, hsome⟩ := ih hu
      have hspec := stepSpec_of_step hstep
      rw [lastStore_concat]
      cases hstores : label.stores with
      | none =>
          have hkept := hspec.kept hstores
          rw [Option.none_or, hkept]
          exact ⟨hnone, fun i hi => hspec.ts i _ (hsome i hi)⟩
      | some i =>
          rw [Option.some_or]
          refine ⟨by rintro ⟨⟩, ?_⟩
          rintro j ⟨⟩
          exact hspec.store i hstores

theorem ts_of_exec {i : ι} {now : Timespec64} (hs : (s.calls i).ts = some now)
    (hrun : exec (step device uniqueDispatch) s labels = some t) : (t.calls i).ts = some now :=
  exec_invariant (I := fun s => (s.calls i).ts = some now)
    (fun _ _ _ h hstep => (stepSpec_of_step hstep).ts i now h) hs hrun

/-- A request is answered only after its call has stored its time. -/
theorem stored_of_outstanding {c : ι}
    (hrun : exec (step device uniqueDispatch) (start resettime devs) labels = some t)
    (houtstanding : (t.calls c).outstanding = true) : (t.calls c).stored = true := by
  have hunsent : ∀ j, Unsent (t.calls j) :=
    exec_invariant (I := fun s => ∀ j, Unsent (s.calls j)) (fun _ _ _ h hstep => unsent_step h hstep)
      (fun _ _ => ⟨rfl, rfl⟩) hrun
  by_contra hnot
  have hnone := (hunsent c (Bool.eq_false_of_not_eq_true hnot)).2
  rw [houtstanding] at hnone
  cases hnone

/-- The ACK takes the time over. -/
theorem basetime_dispatch {d : ResetDev υ} (data : List UInt8) {msg : Msg} (hack : msg.id = cmdACK)
    (hongoing : d.dev.rxOngoing = true) (hanswers : answersResetTs msg = true) (now : Timespec64) :
    (d.dispatch uniqueDispatch now data msg).dev.basetime = now := by
  have hid : byteAt msg.payload 0 = cmdResetTS := (of_decide_eq_true hanswers).2
  simp only [ResetDev.dispatch, dispatchMsg, hongoing, hack, hid, msgParseAck]
  rw [if_neg (by decide), if_neg (by decide), if_neg (by decide), if_pos (by decide)]
  simp only [ne_eq, not_true_eq_false, and_self, if_true, if_false]
  split
  · rfl
  · rfl

/-- In every run, when the ACK that answers a call is dispatched, the base time becomes the time
sampled by that call exactly when the last call to store its time since then, if any, sampled the
same. -/
theorem basetime_iff {c : ι} {data : List UInt8} {msg : Msg} (hack : msg.id = cmdACK)
    (hrun : exec (step device uniqueDispatch) (start resettime devs)
      (labels ++ [.answer c data msg]) = some t) :
    ∃ before between, labels = before ++ .setResettime c :: between ∧
      ((t.calls c).ts = some (t.devs (device c)).dev.basetime ↔
        ∀ i, lastStore between = some i → (t.calls i).ts = (t.calls c).ts) := by
  obtain ⟨v, hv, hanswer⟩ := exec_concat_iff.mp hrun
  have hts := (stepSpec_of_step hanswer).ts
  simp only [step] at hanswer
  split at hanswer
  case isFalse => cases hanswer
  case isTrue hguard =>
    obtain ⟨houtstanding, hongoing, hanswers⟩ := hguard
    have hstored := stored_of_outstanding hv houtstanding
    obtain ⟨before, between, u, rfl, hu, -⟩ := exec_split_at
      (P := fun s => (s.calls c).stored = true) (l := ResetLabel.setResettime c)
      (fun _ _ _ hstep h => (stepSpec_of_step hstep).stored c h) Bool.false_ne_true hv hstored
    rw [exec_append, hu, Option.bind_some, exec_cons] at hv
    obtain ⟨w, hw, hbetween⟩ := Option.bind_eq_some_iff.mp hv
    have hown := (stepSpec_of_step hw).store c rfl
    have howned := hts c _ (ts_of_exec hown hbetween)
    obtain ⟨hnone, hsome⟩ := ts_lastStore hbetween
    have hbasetime : (t.devs (device c)).dev.basetime = v.resettime := by
      rw [← Option.some.inj hanswer]
      simp only [Function.update_self]
      exact basetime_dispatch data hack hongoing hanswers v.resettime
    refine ⟨before, between, rfl, ?_⟩
    rw [howned, hbasetime, Option.some.injEq]
    cases hlaststore : lastStore between with
    | none =>
        rw [hnone hlaststore]
        exact iff_of_true rfl (by rintro i ⟨⟩)
    | some i =>
        have hother := hts i _ (hsome i hlaststore)
        constructor
        · rintro heq j ⟨⟩
          rw [hother, heq]
        · intro hsame
          rw [hsame i rfl] at hother
          exact Option.some.inj hother

/-! ### Two resets -/

/-- The statements of a call up to the store of its time. -/
def storeLabels (i : Bool) (sec : ℤ) : List (ResetLabel Bool Bool) :=
  [.call i (.advance true), .call i (.advance true), .getTs i ⟨sec, 0⟩, .setResettime i]

/-- The statements of a call from there to the wait. -/
def sendLabels (i : Bool) : List (ResetLabel Bool Bool) :=
  [.call i (.pack true [] Msg.zero), .call i (.advance true), .call i (.advance true),
    .call i (.advance true), .call i (.advance true)]

/-- The ACK for `ResetTS`. -/
def resetAck : Msg := ⟨cmdACK, cmdResetTS :: List.replicate 77 0, 1, by decide⟩

/-- Two units that share the reset time. -/
def twoUnits : Bool → Dev Unit := fun _ => Dev.probed 0x10000000 64 0x20000000 ⟨0, 0⟩ ()

/-- The second unit is reset while the request of the first is on its way. -/
theorem basetime_of_other_call : ∃ t : ResetSystem Unit Bool Bool,
    exec (step id fun dev _ _ => (dev, .failure)) (start ⟨0, 0⟩ twoUnits)
        (storeLabels true 1 ++ sendLabels true ++ storeLabels false 2 ++
          [.answer true [] resetAck]) = some t ∧
      (t.calls true).ts = some ⟨1, 0⟩ ∧ (t.devs true).dev.basetime = ⟨2, 0⟩ := by
  have hrun : (exec (step id fun dev _ _ => (dev, .failure)) (start ⟨0, 0⟩ twoUnits)
      (storeLabels true 1 ++ sendLabels true ++ storeLabels false 2 ++
        [.answer true [] resetAck])).any
      (fun t => (t.calls true).ts = some ⟨1, 0⟩ ∧ (t.devs true).dev.basetime = ⟨2, 0⟩) =
        true := by decide +kernel
  obtain ⟨t, ht, htimes⟩ := (Option.any_eq_true _ _).mp hrun
  exact ⟨t, ht, of_decide_eq_true htimes⟩

theorem basetime_iff_alone : ∃ t : ResetSystem Unit Bool Bool,
    exec (step id fun dev _ _ => (dev, .failure)) (start ⟨0, 0⟩ twoUnits)
        (storeLabels true 1 ++ sendLabels true ++ [.answer true [] resetAck]) = some t ∧
      (t.calls true).ts = some (t.devs true).dev.basetime := by
  have hrun : (exec (step id fun dev _ _ => (dev, .failure)) (start ⟨0, 0⟩ twoUnits)
      (storeLabels true 1 ++ sendLabels true ++ [.answer true [] resetAck])).isSome = true := by
    decide +kernel
  obtain ⟨t, ht⟩ := Option.isSome_iff_exists.mp hrun
  obtain ⟨before, between, hlabels, hiff⟩ := basetime_iff rfl ht
  refine ⟨t, ht, hiff.mpr ?_⟩
  intro i hi
  have hmem : ResetLabel.setResettime i ∈ storeLabels true 1 ++ sendLabels true := by
    rw [hlabels]
    exact List.mem_append_right _ (List.mem_cons_of_mem _ (mem_of_lastStore hi))
  simp only [storeLabels, sendLabels, List.mem_append, List.mem_cons, reduceCtorEq,
    ResetLabel.setResettime.injEq, List.not_mem_nil, or_false, false_or] at hmem
  rw [hmem]

end ResetSystem

end AptUsbtrx
