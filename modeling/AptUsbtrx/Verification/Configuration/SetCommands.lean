import AptUsbtrx.Verification.Configuration.Exchange

/-! # The set functions

What they leave of the unit and of the driver when no request of the same command is still
unanswered, and what holds in any case. -/

namespace AptUsbtrx

open Memory

namespace Ep1Cf02a

namespace ConfigSystem

variable {κ : Type} {firmware : Firmware κ} {s t u : ConfigSystem κ} {setting : Setting}
  {payload : List UInt8}

/-! ### The request of a set function -/

/-- How far the request of a set function has got when it is the only one of its command: it waits,
or the unit will not see it any more and the answer can only be the one with this id. -/
inductive SetPhase (firmware : Firmware κ) (setting : Setting) (payload : List UInt8)
    (old : Set (List UInt8)) (s : ConfigSystem κ) : Prop where
  | waiting :
      s.link.requests.filter (HasId setting.command.reqCmdId ·) = [setting.request payload] →
      (∀ answer ∈ s.link.answers, ¬ HasId setting.command.reqCmdId answer.request) →
      s.dev.rxComplete.done = 0 → firmware.report s.link.unit (.value setting) ∈ old →
      SetPhase firmware setting payload old s
  | gone (id : UInt8) : s.link.requests.filter (HasId setting.command.reqCmdId ·) = [] →
      (∀ answer ∈ s.link.answers, HasId setting.command.reqCmdId answer.request →
        answer.bytes = setting.answer id) →
      (0 < s.dev.rxComplete.done → ∃ stale, s.dev.rxComplete.buffer = setting.answer id ++ stale) →
      (id = cmdACK ∧ firmware.report s.link.unit (.value setting) = payload ∨
        id = cmdNACK ∧ firmware.report s.link.unit (.value setting) ∈ old) →
      SetPhase firmware setting payload old s

/-- The system while the call waits. -/
structure SetRun (firmware : Firmware κ) (setting : Setting) (payload : List UInt8)
    (old : Set (List UInt8)) (s : ConfigSystem κ) : Prop where
  wf : s.Wf
  id : s.dev.rxComplete.id = setting.command.reqCmdId
  phase : SetPhase firmware setting payload old s

theorem filter_hasId_cons {cmdId : UInt8} {request : List UInt8} {requests : List (List UInt8)} :
    (request :: requests).filter (HasId cmdId ·) =
      if HasId cmdId request then request :: requests.filter (HasId cmdId ·)
      else requests.filter (HasId cmdId ·) := by
  rw [List.filter_cons]
  simp only [decide_eq_true_eq]

theorem SetRun.serve (h : SetRun firmware setting payload old s) (hconforms : firmware.Conforms)
    (hfits : setting.Fits payload) (hkept : (Readable.value setting).Kept) :
    SetPhase firmware setting payload old (s.event firmware .serve) := by
  rw [event]
  split
  case h_1 => exact h.phase
  case h_2 request requests hrequests =>
    have hknown := h.wf.requests request (hrequests ▸ List.mem_cons_self)
    have hreport (hother : ¬ HasId setting.command.reqCmdId request) :
        firmware.report (firmware.serve s.link.unit request).1 (.value setting) =
          firmware.report s.link.unit (.value setting) :=
      hconforms.report_serve hknown hkept fun other heq => by
        cases heq
        exact hother
    cases h.phase with
    | waiting hout hanswers hdone hold =>
        rw [hrequests, filter_hasId_cons] at hout
        by_cases hown : HasId setting.command.reqCmdId request
        · -- the unit takes the request and answers it
          rw [if_pos hown] at hout
          obtain ⟨rfl, hrest⟩ := List.cons.inj hout
          have hanswer {id : UInt8}
              (hbytes : (firmware.serve s.link.unit (setting.request payload)).2 =
                setting.answer id) : ∀ answer ∈ s.link.answers ++ [⟨setting.request payload,
                  (firmware.serve s.link.unit (setting.request payload)).2⟩],
                HasId setting.command.reqCmdId answer.request →
                  answer.bytes = setting.answer id := by
            intro answer hmem hid
            rcases List.mem_append.mp hmem with hbefore | hnew
            · exact absurd hid (hanswers answer hbefore)
            · rw [List.mem_singleton.mp hnew]
              exact hbytes
          rcases hconforms.set s.link.unit hfits with hack | hnack
          · exact .gone cmdACK hrest (hanswer hack) (fun hpos => absurd hdone hpos.ne')
              (.inl ⟨rfl, hconforms.set_stores s.link.unit hfits hkept hack⟩)
          · refine .gone cmdNACK hrest (hanswer hnack) (fun hpos => absurd hdone hpos.ne')
              (.inr ⟨rfl, ?_⟩)
            dsimp only
            rw [hconforms.set_refuses s.link.unit hfits hnack _ hkept]
            exact hold
        · rw [if_neg hown] at hout
          refine .waiting hout (fun answer hmem => ?_) hdone ((hreport hown).symm ▸ hold)
          rcases List.mem_append.mp hmem with hbefore | hnew
          · exact hanswers answer hbefore
          · rw [List.mem_singleton.mp hnew]
            exact hown
    | gone id hout hanswers hfront hvalue =>
        rw [hrequests, filter_hasId_cons] at hout
        by_cases hown : HasId setting.command.reqCmdId request
        · rw [if_pos hown] at hout
          cases hout
        · rw [if_neg hown] at hout
          refine .gone id hout (fun answer hmem hid => ?_) hfront (by rwa [hreport hown])
          rcases List.mem_append.mp hmem with hbefore | hnew
          · exact hanswers answer hbefore hid
          · rw [List.mem_singleton.mp hnew] at hid
            exact absurd hid hown

theorem SetRun.ignore (h : SetRun firmware setting payload old s) :
    SetPhase firmware setting payload old (s.event firmware .ignore) := by
  have htail : ∀ requests : List (List UInt8),
      requests.filter (HasId setting.command.reqCmdId ·) = [setting.request payload] →
      requests.tail.filter (HasId setting.command.reqCmdId ·) = [setting.request payload] ∨
        requests.tail.filter (HasId setting.command.reqCmdId ·) = [] := by
    intro requests hout
    cases requests with
    | nil => exact .inl hout
    | cons request requests =>
        rw [filter_hasId_cons] at hout
        by_cases hown : HasId setting.command.reqCmdId request
        · rw [if_pos hown] at hout
          exact .inr (List.cons.inj hout).2
        · rw [if_neg hown] at hout
          exact .inl hout
  cases h.phase with
  | waiting hout hanswers hdone hold =>
      rcases htail s.link.requests hout with hwaits | hgone
      · exact .waiting hwaits hanswers hdone hold
      · exact .gone cmdNACK hgone (fun answer hmem hid => absurd hid (hanswers answer hmem))
          (fun hpos => absurd hdone hpos.ne') (.inr ⟨rfl, hold⟩)
  | gone id hout hanswers hfront hvalue =>
      refine .gone id ?_ hanswers hfront hvalue
      rw [List.filter_eq_nil_iff] at hout ⊢
      exact fun request hmem => hout request (List.mem_of_mem_tail hmem)

theorem SetRun.arrive (h : SetRun firmware setting payload old s) :
    SetPhase firmware setting payload old (s.event firmware .arrive) := by
  rw [event]
  split
  case h_1 => exact h.phase
  case h_2 answer answers hlink =>
    have hfits := h.wf.answers answer (hlink ▸ List.mem_cons_self)
    have hmem : ∀ a ∈ answers, a ∈ s.link.answers := fun a ha =>
      hlink ▸ List.mem_cons_of_mem answer ha
    obtain ⟨m, hbytes, hlink', -, -, -, hcomplete⟩ := receive_spec
      (s := { s with link := { s.link with answers := answers } }) h.wf.rxOngoing hfits
    dsimp only at hcomplete
    rw [h.id] at hcomplete
    cases h.phase with
    | waiting hout hanswers hdone hold =>
        rw [if_neg (hanswers answer (hlink ▸ List.mem_cons_self))] at hcomplete
        refine .waiting ?_ ?_ ?_ ?_
        · rw [hlink']
          exact hout
        · rw [hlink']
          exact fun a ha => hanswers a (hmem a ha)
        · rw [hcomplete]
          exact hdone
        · rw [hlink']
          exact hold
    | gone id hout hanswers hfront hvalue =>
        refine .gone id ?_ ?_ ?_ ?_
        · rw [hlink']
          exact hout
        · rw [hlink']
          exact fun a ha => hanswers a (hmem a ha)
        · rw [hcomplete]
          by_cases hown : HasId setting.command.reqCmdId answer.request
          · rw [if_pos hown]
            intro _
            have hanswer := hanswers answer (hlink ▸ List.mem_cons_self) hown
            refine ⟨s.dev.rxComplete.buffer.drop m.length, ?_⟩
            rw [RxComplete.buffer_completed h.wf.full, ← hbytes, hanswer]
          · rw [if_neg hown]
            exact hfront
        · rw [hlink']
          exact hvalue

theorem SetRun.event (h : SetRun firmware setting payload old s) (hconforms : firmware.Conforms)
    (hfits : setting.Fits payload) (hkept : (Readable.value setting).Kept) (event : LinkEvent) :
    SetRun firmware setting payload old (s.event firmware event) := by
  refine ⟨h.wf.event hconforms event, (below_event h.wf hconforms event).id.trans h.id, ?_⟩
  cases event with
  | serve => exact h.serve hconforms hfits hkept
  | ignore => exact h.ignore
  | arrive => exact h.arrive
  | elapse n =>
      have hreport := hconforms.elapse_keeps s.link.unit n hkept
      cases h.phase with
      | waiting hout hanswers hdone hold =>
          exact .waiting hout hanswers hdone (hreport.symm ▸ hold)
      | gone id hout hanswers hfront hvalue =>
          exact .gone id hout hanswers hfront (by
            rwa [← hreport] at hvalue)
  | lose =>
      cases h.phase with
      | waiting hout hanswers hdone hold =>
          exact .waiting hout (fun a ha => hanswers a (List.mem_of_mem_tail ha)) hdone hold
      | gone id hout hanswers hfront hvalue =>
          exact .gone id hout (fun a ha => hanswers a (List.mem_of_mem_tail ha)) hfront hvalue

/-! ### Set functions -/

/-- What a call of a set function comes to. The last two say what it is good for: as long as no
request was handed over while one of its command was unanswered, a success means the new value, and
a failure that does not leave the request unanswered means the old one. -/
structure SetEffect (firmware : Firmware κ) (s t : ConfigSystem κ) (setting : Setting)
    (payload : List UInt8) (ok : Bool) : Prop where
  wf : t.Wf
  others : ∀ r : Readable, r.Kept → r ≠ .value setting →
    t.link.possible firmware r ⊆ s.link.possible firmware r
  own : (Readable.value setting).Kept → t.link.possible firmware (.value setting) ⊆
    insert payload (s.link.possible firmware (.value setting))
  log : t.log = s.log ∨ ∃ answered, t.log = s.log ++
    [⟨setting.command.reqCmdId, s.link.Outstanding setting.command.reqCmdId, answered⟩]
  done : t.Fresh → (Readable.value setting).Kept → ok = true →
    t.link.possible firmware (.value setting) ⊆ {payload}
  refused : t.Fresh → (Readable.value setting).Kept → ok = false →
    t.log ≠ s.log ++ [⟨setting.command.reqCmdId, false, false⟩] →
    t.link.possible firmware (.value setting) ⊆ s.link.possible firmware (.value setting)

theorem setEffect_refl (hs : s.Wf) : SetEffect firmware s s setting payload false where
  wf := hs
  others _ _ _ := subset_rfl
  own _ := Set.subset_insert _ _
  log := .inl rfl
  done _ _ hok := Bool.noConfusion hok
  refused _ _ _ _ := subset_rfl

/-- What may become of the settings once the request is posted. -/
theorem possible_post {r : Readable} :
    ((s.armed (setting.request payload)).post (setting.request payload)).link.possible firmware r ⊆
      { p | p ∈ s.link.possible firmware r ∨ r = .value setting ∧ p = payload } := by
  rintro p (rfl | ⟨other, rfl, hmem⟩)
  · exact .inl (.inl rfl)
  · rcases List.mem_append.mp hmem with hold | hnew
    · exact .inl (.inr ⟨other, rfl, hold⟩)
    · obtain ⟨hid, rfl⟩ := frame_inj (List.mem_singleton.mp hnew)
      exact .inr ⟨congrArg Readable.value (Setting.reqCmdId_inj hid), rfl⟩

theorem setRun_post (hs : s.Wf) (hfits : setting.Fits payload)
    (hidle : ¬ s.link.Outstanding setting.command.reqCmdId) :
    SetRun firmware setting payload (s.link.possible firmware (.value setting))
      ((s.armed (setting.request payload)).post (setting.request payload)) := by
  obtain ⟨hrequests, hanswers⟩ := not_or.mp hidle
  refine ⟨hs.post (.set setting hfits), rfl, .waiting ?_ ?_ rfl (report_mem_possible s.link _)⟩
  · have hnone : s.link.requests.filter (HasId setting.command.reqCmdId ·) = [] :=
      List.filter_eq_nil_iff.mpr fun request hmem hid =>
        hrequests ⟨request, hmem, of_decide_eq_true hid⟩
    change (s.link.requests ++ [setting.request payload]).filter _ = _
    rw [List.filter_append, hnone, List.nil_append, filter_hasId_cons]
    exact if_pos rfl
  · exact fun answer hmem hid => hanswers ⟨answer, hmem, hid⟩

/-- What the wait of a set function ends with when its request is the only one of its command. -/
theorem setRun_wait (hconforms : firmware.Conforms) (hfits : setting.Fits payload)
    (hkept : (Readable.value setting).Kept) {old : Set (List UInt8)}
    (h : SetRun firmware setting payload old s) (rounds : List LinkRound) :
    (s.wait firmware setting.command (List.replicate rxBufferSize 0) rounds).1 = (.timeout, []) ∨
      ∃ id, (s.wait firmware setting.command (List.replicate rxBufferSize 0) rounds).1 =
          (.success, setting.answer id) ∧
        (id = cmdACK ∧ (s.wait firmware setting.command (List.replicate rxBufferSize 0)
            rounds).2.link.possible firmware (.value setting) ⊆ {payload} ∨
          id = cmdNACK ∧ (s.wait firmware setting.command (List.replicate rxBufferSize 0)
            rounds).2.link.possible firmware (.value setting) ⊆ old) := by
  obtain ⟨-, -, -, hackId, hnackId⟩ := setting.command_bounds
  have hfront : ∀ u, SetRun firmware setting payload old u → 0 < u.dev.rxComplete.done →
      u.dev.rxComplete.Full ∧ ∃ (m : Message) (stale : List UInt8),
        u.dev.rxComplete.buffer = m.encode ++ stale ∧
        m.Answers setting.command.respCmdIdAck setting.command.respCmdIdNack ∧
        ∃ id, m.encode = setting.answer id ∧
          (id = cmdACK ∧ u.link.possible firmware (.value setting) ⊆ {payload} ∨
            id = cmdNACK ∧ u.link.possible firmware (.value setting) ⊆ old) := by
    intro u hu hdone
    refine ⟨hu.wf.full, ?_⟩
    cases hu.phase with
    | waiting _ _ hzero _ => exact absurd hzero hdone.ne'
    | gone id hout _ hbuffer hvalue =>
        obtain ⟨stale, hstale⟩ := hbuffer hdone
        have hone : [setting.command.reqCmdId].length ≤ maxPayload := by simp [maxPayload]
        have hpossible {p : List UInt8} (hp : p ∈ u.link.possible firmware (.value setting)) :
            p = firmware.report u.link.unit (.value setting) := by
          rcases hp with rfl | ⟨other, heq, hmem⟩
          · rfl
          · cases heq
            exact absurd (decide_eq_true rfl) (List.filter_eq_nil_iff.mp hout _ hmem)
        refine ⟨⟨id, [setting.command.reqCmdId], hone⟩, stale, hstale, ?_, id, rfl, ?_⟩
        · rw [hackId, hnackId]
          exact hvalue.imp And.left And.left
        · exact hvalue.imp
            (fun ⟨hid, hreport⟩ => ⟨hid, fun p hp => (hpossible hp).trans hreport⟩)
            fun ⟨hid, hreport⟩ => ⟨hid, fun p hp => hpossible hp ▸ hreport⟩
  have hevent : ∀ u event, SetRun firmware setting payload old u →
      SetRun firmware setting payload old (u.event firmware event) :=
    fun u event hu => hu.event hconforms hfits hkept event
  rcases wait_cases hevent hfront h List.length_replicate rounds with
    htimeout | ⟨u, m, ⟨id, hencode, hvalue⟩, hwaited, hlink⟩
  · exact .inl htimeout
  · rw [hlink]
    exact .inr ⟨id, hencode ▸ hwaited, hvalue⟩

/-- The set functions once the request is sent, or could not be sent. -/
theorem setEffect_of_exchanged (hconforms : firmware.Conforms) (hs : s.Wf)
    (hfits : setting.Fits payload) {waited : Result × List UInt8}
    (h : Exchanged firmware s setting.command (setting.request payload) waited t) (msg : Msg) :
    SetEffect firmware s t setting payload
      (setting.command.finishSet waited msg = (.success, some true)) := by
  have hpost (r : Readable) (hr : r ≠ .value setting) :
      ((s.armed (setting.request payload)).post
        (setting.request payload)).link.possible firmware r ⊆ s.link.possible firmware r :=
    possible_post.trans fun p hp => hp.resolve_right fun hown => hr hown.1
  have hown : ((s.armed (setting.request payload)).post
      (setting.request payload)).link.possible firmware (.value setting) ⊆
        insert payload (s.link.possible firmware (.value setting)) :=
    possible_post.trans fun p hp => hp.symm.imp And.right id
  have hwfPost := hs.post (.set setting hfits)
  have hfailed (result : Result) (hresult : result ≠ .success) :
      decide (setting.command.finishSet (result, []) msg = (.success, some true)) = false := by
    rw [Command.finishSet]
    dsimp only
    rw [if_pos hresult]
    exact decide_eq_false (by simp)
  cases h with
  | unsent =>
      rw [hfailed .failure (by decide)]
      exact ⟨hs.armed _, fun _ _ _ => subset_rfl, fun _ => Set.subset_insert _ _, .inl rfl,
        fun _ _ hok => Bool.noConfusion hok, fun _ _ _ _ => subset_rfl⟩
  | unanswered =>
      rw [hfailed .failure (by decide)]
      refine ⟨hwfPost.record _, fun r _ hr => hpost r hr, fun _ => hown, .inr ⟨false, rfl⟩,
        fun _ _ hok => Bool.noConfusion hok, fun hfresh _ _ hlog => ?_⟩
      have hidle : decide (s.link.Outstanding setting.command.reqCmdId) = false :=
        hfresh _ (List.mem_append_right _ List.mem_cons_self)
      exact absurd (by rw [← hidle]; rfl) hlog
  | @waited rounds waited u hwait =>
      obtain ⟨hwf, hbelow⟩ := below_wait hconforms hwfPost setting.command
        (List.replicate rxBufferSize 0) rounds
      rw [hwait] at hwf hbelow
      have hlog : u.log ++ [⟨setting.command.reqCmdId,
            s.link.Outstanding setting.command.reqCmdId, waited.1 = .success⟩] =
          s.log ++ [⟨setting.command.reqCmdId,
            s.link.Outstanding setting.command.reqCmdId, waited.1 = .success⟩] :=
        congrArg (· ++ _) hbelow.log
      have hidle (hfresh : (u.record ⟨setting.command.reqCmdId,
          s.link.Outstanding setting.command.reqCmdId, waited.1 = .success⟩).Fresh) :
          decide (s.link.Outstanding setting.command.reqCmdId) = false :=
        hfresh _ (List.mem_append_right _ List.mem_cons_self)
      -- what the wait ends with when the request is the only one of its command
      have hends (hfresh : decide (s.link.Outstanding setting.command.reqCmdId) = false)
          (hkept : (Readable.value setting).Kept) := by
        have hwaits := setRun_wait hconforms hfits hkept
          (setRun_post hs hfits (of_decide_eq_false hfresh)) rounds
        rwa [hwait] at hwaits
      obtain ⟨-, -, hlength, -, -⟩ := setting.command_bounds
      refine ⟨hwf.record _, fun r hkept hr => (hbelow.possible r hkept).trans (hpost r hr),
        fun hkept => (hbelow.possible _ hkept).trans hown, .inr ⟨_, hlog⟩,
        fun hfresh hkept hok => ?_, fun hfresh hkept hok hanswered => ?_⟩
      · rcases hends (hidle hfresh) hkept with htimeout | ⟨id, hanswer, hack | hnack⟩
        · dsimp only at htimeout
          rw [htimeout, hfailed .timeout (by decide)] at hok
          cases hok
        · exact hack.2
        · dsimp only at hanswer
          rw [hanswer, hnack.1, Setting.answer, Command.finishSet_frame hlength] at hok
          exact absurd hok (by decide)
      · rcases hends (hidle hfresh) hkept with htimeout | ⟨id, hanswer, hack | hnack⟩
        · dsimp only at htimeout
          have hwaited : decide (waited.1 = .success) = false := by
            rw [htimeout]
            rfl
          rw [hwaited, hidle hfresh] at hlog
          refine absurd ?_ hanswered
          change u.log ++ [⟨setting.command.reqCmdId,
            decide (s.link.Outstanding setting.command.reqCmdId), decide (waited.1 = .success)⟩] = _
          rw [hwaited, hidle hfresh]
          exact hlog
        · dsimp only at hanswer
          rw [hanswer, hack.1, Setting.answer, Command.finishSet_frame hlength] at hok
          exact absurd hok (by decide)
        · exact hnack.2

theorem SetEffect.setUniqueData {ok : Bool} (h : SetEffect firmware s t setting payload ok)
    (uniqueData : UniqueData) :
    SetEffect firmware s (t.setUniqueData uniqueData) setting payload ok where
  wf := ⟨h.wf.rxOngoing, h.wf.full, h.wf.requests, h.wf.answers⟩
  others := h.others
  own := h.own
  log := h.log
  done := h.done
  refused := h.refused

/-- The exchange does not touch the data of the device. -/
theorem uniqueData_of_exchanged (hconforms : firmware.Conforms) (hs : s.Wf)
    (hfits : setting.Fits payload) {waited : Result × List UInt8}
    (h : Exchanged firmware s setting.command (setting.request payload) waited t) :
    t.dev.uniqueData = s.dev.uniqueData := by
  cases h with
  | unsent => rfl
  | unanswered => rfl
  | @waited rounds waited u hwait =>
      have hbelow := (below_wait hconforms (hs.post (.set setting hfits)) setting.command
        (List.replicate rxBufferSize 0) rounds).2.uniqueData
      rwa [hwait] at hbelow

/-- `ep1_cf02a_set_common` for the setting, with its payload. -/
theorem setEffect_setCommand (hconforms : firmware.Conforms) (hs : s.Wf) (x : Exchange)
    (setting : Setting) (pack : List UInt8) :
    ∃ payload, (setting.Fits pack → payload = pack) ∧
      SetEffect firmware s (s.setCommand firmware x setting.command pack).2 setting payload
        (s.setCommand firmware x setting.command pack).1 ∧
      (s.setCommand firmware x setting.command pack).2.dev.uniqueData = s.dev.uniqueData := by
  obtain ⟨hmin, hmax, -⟩ := setting.command_bounds
  obtain ⟨payload, hfits, hpack, hnone | ⟨waited, t, hexchanged, hsome⟩⟩ :=
    request_cases firmware hmin hmax s x pack
  · refine ⟨payload, hpack, ?_⟩
    rw [setCommand, hnone]
    exact ⟨setEffect_refl hs, rfl⟩
  · refine ⟨payload, hpack, ?_⟩
    rw [setCommand, hsome]
    exact ⟨setEffect_of_exchanged hconforms hs hfits hexchanged x.respMsg,
      uniqueData_of_exchanged hconforms hs hfits hexchanged⟩

end ConfigSystem

end Ep1Cf02a

end AptUsbtrx
