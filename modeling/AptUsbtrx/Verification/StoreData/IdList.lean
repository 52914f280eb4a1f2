import AptUsbtrx.Model.StoreDataIdList

/-! # The list of stored ids

The list of `GET_STORE_DATA_ID_LIST` is as long as the count says exactly up to `2 ^ 27` ids. For
more of them the ioctl stores an id outside of it unless a request fails before. -/

namespace AptUsbtrx

open Memory

namespace Ep1Cf02a

theorem idListSize_eq (count : UInt32) :
    idListSize count = cmdStoreDataIdMaxLength * (count.toNat % 2 ^ 27) := by
  simp only [idListSize, cmdStoreDataIdMaxLength]
  omega

theorem length_strncpy (src : List UInt8) (n : ℕ) : (strncpy src n).length = n := by
  have htake := List.length_take_le n src
  have hwhile := (List.takeWhile_prefix (l := src.take n) (· ≠ 0)).length_le
  rw [strncpy, List.length_append, List.length_replicate]
  omega

theorem idIndex_of_lt {k : ℕ} (h : k < 2 ^ 31) : idIndex k = k := by
  unfold idIndex
  rw [Int.bmod_eq_of_le] <;> omega

/-- The `k`-th request is sent, and it is answered with an id. -/
def IdListAnswers.Answered (answers : IdListAnswers) (k : ℕ) : Prop :=
  answers.signalPending (idIndex k) = false ∧
    (getStoreDataId (idIndex k) (answers.reply (idIndex k))).isSome

section

variable {answers : IdListAnswers} {n k : ℕ} {area : List UInt8}

theorem storeIds_answered {id : List UInt8} (hsignal : answers.signalPending (idIndex k) = false)
    (hid : getStoreDataId (idIndex k) (answers.reply (idIndex k)) = some id) :
    storeIds answers (n + 1) k area =
      let later := storeIds answers n (k + 1)
        (storeId area (idIndex k) (strncpy id cmdStoreDataIdMaxLength))
      (later.1, { later.2 with stores := idIndex k :: later.2.stores }) := by
  rw [storeIds]
  dsimp only
  rw [if_neg (by simp [hsignal]), hid]

/-- A request that is not answered ends the loop. -/
theorem storeIds_unanswered (h : ¬ answers.Answered k) :
    (storeIds answers (n + 1) k area).2.stores = [] ∧
      (storeIds answers (n + 1) k area).2.ret ≠ 0 := by
  rw [storeIds]
  dsimp only
  split
  · exact ⟨rfl, by simp [erestartsys]⟩
  next hsignal =>
    split
    next => exact ⟨rfl, by simp [eio]⟩
    next id hid => exact absurd ⟨eq_false_of_ne_true hsignal, by rw [hid]; rfl⟩ h

/-- The slots that are filled are those of the requests answered so far. -/
theorem mem_stores_iff (i : ℤ) : i ∈ (storeIds answers n k area).2.stores ↔
    ∃ j, k ≤ j ∧ j < k + n ∧ i = idIndex j ∧ ∀ m, k ≤ m → m ≤ j → answers.Answered m := by
  induction n generalizing k area with
  | zero =>
      simp only [storeIds, List.not_mem_nil, false_iff, not_exists]
      omega
  | succ n ih =>
      by_cases hanswered : answers.Answered k
      · obtain ⟨hsignal, hsome⟩ := hanswered
        obtain ⟨id, hid⟩ := Option.isSome_iff_exists.mp hsome
        rw [storeIds_answered hsignal hid]
        simp only [List.mem_cons, ih]
        constructor
        · rintro (heq | ⟨j, hlow, hhigh, heq, hall⟩)
          · refine ⟨k, Nat.le_refl k, by omega, heq, fun m hlow hhigh => ?_⟩
            obtain rfl := Nat.le_antisymm hlow hhigh
            exact ⟨hsignal, hsome⟩
          · refine ⟨j, by omega, by omega, heq, fun m hm hmj => ?_⟩
            rcases Nat.eq_or_lt_of_le hm with rfl | hlt
            · exact ⟨hsignal, hsome⟩
            · exact hall m hlt hmj
        · rintro ⟨j, hlow, hhigh, heq, hall⟩
          rcases Nat.eq_or_lt_of_le hlow with rfl | hlt
          · exact .inl heq
          · exact .inr ⟨j, hlt, by omega, heq, fun m hm => hall m (by omega)⟩
      · rw [(storeIds_unanswered hanswered).1]
        simp only [List.not_mem_nil, false_iff, not_exists]
        rintro j ⟨hlow, -, -, hall⟩
        exact hanswered (hall k (Nat.le_refl k) hlow)

theorem ret_storeIds_iff : (storeIds answers n k area).2.ret = 0 ↔
    ∀ m, k ≤ m → m < k + n → answers.Answered m := by
  induction n generalizing k area with
  | zero =>
      simp only [storeIds, true_iff]
      omega
  | succ n ih =>
      by_cases hanswered : answers.Answered k
      · obtain ⟨hsignal, hsome⟩ := hanswered
        obtain ⟨id, hid⟩ := Option.isSome_iff_exists.mp hsome
        rw [storeIds_answered hsignal hid]
        simp only [ih]
        constructor
        · intro hall m hlow hhigh
          rcases Nat.eq_or_lt_of_le hlow with rfl | hlt
          · exact ⟨hsignal, hsome⟩
          · exact hall m hlt (by omega)
        · exact fun hall m hlow hhigh => hall m (by omega) (by omega)
      · refine iff_of_false (storeIds_unanswered hanswered).2 fun hall => hanswered ?_
        exact hall k (Nat.le_refl k) (by omega)

/-- The list when every request is answered: the slots get the ids in order. -/
theorem area_storeIds (hk : k + n < 2 ^ 31) {front : List UInt8}
    (hfront : front.length = cmdStoreDataIdMaxLength * k) {rest : List UInt8}
    (hrest : rest.length = cmdStoreDataIdMaxLength * n) {id : ℕ → List UInt8}
    (hsignal : ∀ m, k ≤ m → m < k + n → answers.signalPending (idIndex m) = false)
    (hid : ∀ m, k ≤ m → m < k + n →
      getStoreDataId (idIndex m) (answers.reply (idIndex m)) = some (id m)) :
    (storeIds answers n k (front ++ rest)).1 =
      front ++ (List.range' k n).flatMap fun m => strncpy (id m) cmdStoreDataIdMaxLength := by
  induction n generalizing k front rest with
  | zero =>
      obtain rfl : rest = [] := List.eq_nil_of_length_eq_zero (by rw [hrest, Nat.mul_zero])
      rfl
  | succ n ih =>
      have hlength := length_strncpy (id k) cmdStoreDataIdMaxLength
      have hslot : storeId (front ++ rest) (idIndex k) (strncpy (id k) cmdStoreDataIdMaxLength) =
          (front ++ strncpy (id k) cmdStoreDataIdMaxLength) ++
            rest.drop cmdStoreDataIdMaxLength := by
        rw [storeId, idIndex_of_lt (by omega), if_pos (by omega), Int.toNat_natCast, ← hfront,
          overwrite, List.take_left, hlength, List.drop_append,
          List.drop_of_length_le (by omega), Nat.add_sub_cancel_left, List.nil_append,
          List.take_of_length_le]
        rw [List.length_append, List.length_append, List.length_append, List.length_drop, hlength,
          hrest, Nat.mul_succ]
        omega
      rw [storeIds_answered (hsignal k (Nat.le_refl k) (by omega))
        (hid k (Nat.le_refl k) (by omega)), hslot]
      dsimp only
      rw [@ih (k + 1) (by omega) _ (by
          rw [List.length_append, hfront, hlength, Nat.mul_succ]) _
          (by rw [List.length_drop, hrest, Nat.mul_succ, Nat.add_sub_cancel])
          (fun m hlow hhigh => hsignal m (by omega) (by omega))
          (fun m hlow hhigh => hid m (by omega) (by omega)),
        List.range'_succ, List.flatMap_cons, List.append_assoc]

end

/-- Every id is stored inside the list, and an application that is told of success has received the
ids of the indices below the count. -/
structure IdListResult.Correct (result : IdListResult) (answers : IdListAnswers) (count : UInt32) :
    Prop where
  inside : ∀ i ∈ result.stores, 0 ≤ i ∧
    cmdStoreDataIdMaxLength * (i + 1) ≤ (idListSize count : ℤ)
  received : result.ret = 0 → ∃ id : ℕ → List UInt8,
    (∀ k < count.toNat, getStoreDataId (idIndex k) (answers.reply (idIndex k)) = some (id k)) ∧
      result.out =
        (List.range count.toNat).flatMap fun k => strncpy (id k) cmdStoreDataIdMaxLength

section

variable {answers : IdListAnswers} {count : UInt32}

theorem stores_ioctlGetStoreDataIdList (hfrom : answers.copiedFrom = true)
    (halloc : answers.allocated = true) :
    (ioctlGetStoreDataIdList answers count).stores = (storeIds answers count.toNat 0
      (List.replicate (idListSize count) 0)).2.stores := by
  rw [ioctlGetStoreDataIdList, if_neg (by simp [hfrom]), if_neg (by simp [halloc])]
  dsimp only
  split
  · rfl
  · split <;> rfl

theorem ret_ioctlGetStoreDataIdList (h : (ioctlGetStoreDataIdList answers count).ret = 0) :
    (storeIds answers count.toNat 0 (List.replicate (idListSize count) 0)).2.ret = 0 ∧
      (ioctlGetStoreDataIdList answers count).out = (storeIds answers count.toNat 0
        (List.replicate (idListSize count) 0)).1 := by
  rw [ioctlGetStoreDataIdList] at h ⊢
  split at h
  case isTrue => exact absurd h (by simp [efault])
  case isFalse hfrom =>
    rw [if_neg hfrom]
    split at h
    case isTrue => exact absurd h (by simp [enomem])
    case isFalse halloc =>
      rw [if_neg halloc]
      dsimp only at h ⊢
      split at h
      case isTrue hret => exact absurd h hret
      case isFalse hret =>
        rw [if_neg hret]
        split at h
        case isTrue => exact absurd h (by simp [efault])
        case isFalse hto =>
          rw [if_neg hto]
          exact ⟨not_ne_iff.mp hret, rfl⟩

/-- Nothing is stored before the list is there. -/
theorem stores_eq_nil (h : answers.copiedFrom = false ∨ answers.allocated = false) :
    (ioctlGetStoreDataIdList answers count).stores = [] ∧
      (ioctlGetStoreDataIdList answers count).ret ≠ 0 := by
  rw [ioctlGetStoreDataIdList]
  by_cases hfrom : answers.copiedFrom = true
  · have halloc := h.resolve_left (by simp [hfrom])
    simp [hfrom, halloc, enomem]
  · simp [hfrom, efault]

/-- The slots below a count that needs no more than 32 bits are in the list. -/
theorem inside_of_lt {j : ℕ} (h : j < count.toNat % 2 ^ 27) :
    0 ≤ idIndex j ∧ cmdStoreDataIdMaxLength * (idIndex j + 1) ≤ (idListSize count : ℤ) := by
  rw [idIndex_of_lt (by omega), idListSize_eq]
  simp only [cmdStoreDataIdMaxLength]
  omega

theorem correct_of_lt (h : count.toNat < 2 ^ 27) :
    (ioctlGetStoreDataIdList answers count).Correct answers count := by
  have hmod : count.toNat % 2 ^ 27 = count.toNat := Nat.mod_eq_of_lt h
  constructor
  · intro i hi
    by_cases hready : answers.copiedFrom = false ∨ answers.allocated = false
    · rw [(stores_eq_nil hready).1] at hi
      cases hi
    · rw [not_or, Bool.not_eq_false, Bool.not_eq_false] at hready
      rw [stores_ioctlGetStoreDataIdList hready.1 hready.2, mem_stores_iff] at hi
      obtain ⟨j, -, hj, heq, -⟩ := hi
      rw [heq]
      exact inside_of_lt (by omega)
  · intro hret
    obtain ⟨hloop, hout⟩ := ret_ioctlGetStoreDataIdList hret
    have hall := ret_storeIds_iff.mp hloop
    choose! id hid using fun k (hk : k < count.toNat) =>
      Option.isSome_iff_exists.mp (hall k (Nat.zero_le k) (by omega)).2
    refine ⟨id, hid, ?_⟩
    have harea := @area_storeIds answers count.toNat 0 (by omega) [] rfl
      (List.replicate (idListSize count) 0) (by
        rw [List.length_replicate, idListSize_eq, hmod])
      id (fun m hlow hhigh => (hall m hlow hhigh).1) (fun m _ hhigh => hid m (by omega))
    rw [List.nil_append, List.nil_append] at harea
    rw [hout, harea, List.range_eq_range']

/-- The list is long enough for the count exactly if the size of the list does not wrap, or the
ioctl ends in front of the first slot that is not in it. -/
theorem ioctlGetStoreDataIdList_correct_iff (answers : IdListAnswers) (count : UInt32) :
    (ioctlGetStoreDataIdList answers count).Correct answers count ↔
      count.toNat < 2 ^ 27 ∨ answers.copiedFrom = false ∨ answers.allocated = false ∨
        ∃ k : ℕ, k ≤ count.toNat % 2 ^ 27 ∧ (answers.signalPending k = true ∨
          getStoreDataId k (answers.reply k) = none) := by
  by_cases hlt : count.toNat < 2 ^ 27
  · exact iff_of_true (correct_of_lt hlt) (.inl hlt)
  rw [or_iff_right hlt, ← or_assoc]
  by_cases hready : answers.copiedFrom = false ∨ answers.allocated = false
  · obtain ⟨hstores, hret⟩ := @stores_eq_nil answers count hready
    refine iff_of_true ⟨fun i hi => ?_, fun hsuccess => absurd hsuccess hret⟩ (.inl hready)
    rw [hstores] at hi
    cases hi
  rw [or_iff_right hready]
  rw [not_or, Bool.not_eq_false, Bool.not_eq_false] at hready
  have hanswered : ∀ k ≤ count.toNat % 2 ^ 27, answers.Answered k ↔
      ¬ (answers.signalPending k = true ∨ getStoreDataId k (answers.reply k) = none) := by
    intro k hk
    rw [IdListAnswers.Answered, idIndex_of_lt (by omega), not_or, Bool.not_eq_true,
      Option.isSome_iff_ne_none]
  constructor
  · -- otherwise the first slot behind the list is filled
    intro hcorrect
    by_contra hnone
    push Not at hnone
    have hmem : idIndex (count.toNat % 2 ^ 27) ∈ (ioctlGetStoreDataIdList answers count).stores := by
      rw [stores_ioctlGetStoreDataIdList hready.1 hready.2, mem_stores_iff]
      refine ⟨_, Nat.zero_le _, by omega, rfl, fun m _ hm => (hanswered m hm).mpr ?_⟩
      rw [not_or]
      exact hnone m hm
    have hinside := (hcorrect.inside _ hmem).2
    rw [idIndex_of_lt (by omega), idListSize_eq] at hinside
    simp only [cmdStoreDataIdMaxLength] at hinside
    omega
  · rintro ⟨k, hk, hunanswered⟩
    have hstop : ¬ answers.Answered k := fun h => (hanswered k hk).mp h hunanswered
    constructor
    · intro i hi
      rw [stores_ioctlGetStoreDataIdList hready.1 hready.2, mem_stores_iff] at hi
      obtain ⟨j, -, -, heq, hall⟩ := hi
      have hj : j < k := Nat.lt_of_not_le fun hle => hstop (hall k (Nat.zero_le k) hle)
      rw [heq]
      exact inside_of_lt (by omega)
    · intro hret
      have hall := ret_storeIds_iff.mp (ret_ioctlGetStoreDataIdList hret).1
      exact absurd (hall k (Nat.zero_le k) (by omega)) hstop

end

/-- A device with one stored id. -/
def oneId : IdListAnswers where
  copiedFrom := true
  allocated := true
  signalPending _ := false
  reply index :=
    if index = 0 then
      ⟨(.success, [0xF7, 36, 0x75] ++ List.replicate 31 0x41 ++ [0, 0xFA]), Msg.zero, false⟩
    else ⟨(.timeout, []), Msg.zero, false⟩
  copiedTo := true

/-- The size of a list of `2 ^ 27` ids is zero, and the first id is stored behind it. -/
theorem ioctlGetStoreDataIdList_not_correct :
    ¬ (ioctlGetStoreDataIdList oneId 0x08000000).Correct oneId 0x08000000 := by
  intro hcorrect
  have hfirst : oneId.Answered 0 := by
    rw [IdListAnswers.Answered, idIndex_of_lt (by decide)]
    exact ⟨rfl, by decide⟩
  have hmem : idIndex 0 ∈ (ioctlGetStoreDataIdList oneId 0x08000000).stores := by
    rw [stores_ioctlGetStoreDataIdList rfl rfl, mem_stores_iff]
    refine ⟨0, Nat.le_refl 0, by decide, rfl, fun m _ hm => ?_⟩
    rwa [Nat.le_zero.mp hm]
  have hinside := (hcorrect.inside _ hmem).2
  rw [idIndex_of_lt (by decide)] at hinside
  exact absurd hinside (by decide)

end Ep1Cf02a

end AptUsbtrx
