import AptUsbtrx.Model.Channel

/-! # The list of stored ids

`GET_STORE_DATA_ID_LIST` of the EP1-CF02A: the list that it allocates, the slots that it fills
and the bytes that the application receives. -/

namespace AptUsbtrx

open Memory

namespace Ep1Cf02a

/-- The `n` bytes that `strncpy(dst, src, n)` stores. -/
def strncpy (src : List UInt8) (n : ℕ) : List UInt8 :=
  let string := (src.take n).takeWhile (· ≠ 0)
  string ++ List.replicate (n - string.length) 0

/-- What a `GET_STORE_DATA_ID_LIST` is told: whether the copies succeed and there is memory for the
list, whether there is a signal before the request with an index, and how the device answers it. -/
structure IdListAnswers where
  copiedFrom : Bool
  allocated : Bool
  signalPending : ℤ → Bool
  reply : ℤ → CmdReply
  copiedTo : Bool

/-- `ep1_cf02a_get_store_data_id`, `none` when it does not return `RESULT_Success`. -/
def getStoreDataId (index : ℤ) (reply : CmdReply) : Option (List UInt8) :=
  match (GetCmd.storeDataId index).command.finishGet parseResponseGetStoreDataId reply.waited
    reply.msg with
  | (.success, some id) => some id
  | _ => none

/-- The size of the list, a product of `u32`. -/
def idListSize (count : UInt32) : ℕ := cmdStoreDataIdMaxLength * count.toNat % 2 ^ 32

/-- What the ioctl returned, the bytes that it had copied to the application and the slots of
`id_list` that it had stored an id in. -/
structure IdListResult where
  ret : ℤ
  out : List UInt8
  stores : List ℤ
  deriving DecidableEq

/-- `id_list[i]` gets the bytes given. A slot outside of the list leaves the list as it is. -/
def storeId (area : List UInt8) (i : ℤ) (id : List UInt8) : List UInt8 :=
  if 0 ≤ i then overwrite area (cmdStoreDataIdMaxLength * i.toNat) id else area

/-- The value of `i`, an `int`, after `k` rounds. -/
def idIndex (k : ℕ) : ℤ := (k : ℤ).bmod (2 ^ 32)

/-- The loop with `n` rounds left, the list and what it returns. -/
def storeIds (answers : IdListAnswers) : (n k : ℕ) → List UInt8 → List UInt8 × IdListResult
  | 0, _, area => (area, ⟨0, [], []⟩)
  | n + 1, k, area =>
      let i := idIndex k
      if answers.signalPending i then (area, ⟨-erestartsys, [], []⟩)
      else match getStoreDataId i (answers.reply i) with
        | none => (area, ⟨-eio, [], []⟩)
        | some id =>
            let (area, result) :=
              storeIds answers n (k + 1) (storeId area i (strncpy id cmdStoreDataIdMaxLength))
            (area, { result with stores := i :: result.stores })

/-- `ep1_cf02a_ioctl_get_store_data_id_list` -/
def ioctlGetStoreDataIdList (answers : IdListAnswers) (count : UInt32) : IdListResult :=
  if ¬ answers.copiedFrom then ⟨-efault, [], []⟩ else
  if ¬ answers.allocated then ⟨-enomem, [], []⟩ else
  let (area, result) :=
    storeIds answers count.toNat 0 (List.replicate (idListSize count) 0)
  if result.ret ≠ 0 then result else
  if ¬ answers.copiedTo then { result with ret := -efault } else
  { result with out := area }

end Ep1Cf02a

end AptUsbtrx
