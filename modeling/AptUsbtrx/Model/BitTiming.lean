import AptUsbtrx.Model.ApCt2a
import AptUsbtrx.Shared.CountDown
import AptUsbtrx.Shared.Word32

/-! # Bit timing

The calculation of a bit timing for a bitrate and a sample point, the check of a bit timing, and the
conversions of the bit timing that a device reports. `none` stands for a division by zero. -/

namespace AptUsbtrx

open Word32

/-- The part of `struct can_bittiming_const` that is looked at. -/
structure BittimingConst where
  tseg1Min : ℕ
  tseg1Max : ℕ
  tseg2Min : ℕ
  tseg2Max : ℕ
  sjwMax : ℕ
  brpMin : ℕ
  brpMax : ℕ
  brpInc : ℕ
  deriving DecidableEq

/-- `struct can_bittiming` -/
structure CanBittiming where
  bitrate : ℕ
  samplePoint : ℕ
  tq : ℕ
  propSeg : ℕ
  phaseSeg1 : ℕ
  phaseSeg2 : ℕ
  sjw : ℕ
  brp : ℕ
  deriving DecidableEq

namespace Ep1Cf02a

/-! ### `ep1_cf02a_main.c` -/

def bittimingConst : BittimingConst where
  tseg1Min := 1
  tseg1Max := 256
  tseg2Min := 1
  tseg2Max := 128
  sjwMax := 128
  brpMin := 1
  brpMax := 512
  brpInc := 1

def dataBittimingConst : BittimingConst where
  tseg1Min := 1
  tseg1Max := 32
  tseg2Min := 1
  tseg2Max := 16
  sjwMax := 16
  brpMin := 1
  brpMax := 32
  brpInc := 1

/-- The two bit timings of the unit. -/
inductive Limits where
  | nominal
  | data
  deriving DecidableEq

/-- `bittiming_const` and `data_bittiming_const` of the unit. -/
def Limits.const : Limits → BittimingConst
  | nominal => bittimingConst
  | data => dataBittimingConst

/-! ### `ep1_cf02a_fops.c` -/

/-- `EP1_CF02A_CAN_SYNC_SEG` -/
def canSyncSeg : ℕ := 1

/-- `EP1_CF02A_CAN_CALC_MAX_ERROR`, in one-tenth of a percent -/
def canCalcMaxError : ℕ := 50

/-- `ep1_cf02a_can_sjw_set_default` -/
def canSjwSetDefault (bt : CanBittiming) : CanBittiming :=
  if bt.sjw ≠ 0 then bt
  else { bt with sjw := max 1 (min bt.phaseSeg1 (bt.phaseSeg2 / 2)) }

/-- `ep1_cf02a_can_sjw_check` -/
def canSjwCheck (bt : CanBittiming) (btc : BittimingConst) : ℤ :=
  if bt.sjw > btc.sjwMax then -einval
  else if bt.sjw > bt.phaseSeg1 then -einval
  else if bt.sjw > bt.phaseSeg2 then -einval
  else 0

/-- `ep1_cf02a_can_bit_time` -/
def canBitTime (bt : CanBittiming) : ℕ :=
  add (add (add canSyncSeg bt.propSeg) bt.phaseSeg1) bt.phaseSeg2

/-- The variables `best_sample_point` and `best_sample_point_error` of
`ep1_cf02a_can_update_sample_point` and what its pointers point to. -/
structure SplitResult where
  samplePoint : ℕ
  samplePointError : ℕ
  tseg1 : ℕ
  tseg2 : ℕ
  deriving DecidableEq

/-- The segments of the round `i` of `ep1_cf02a_can_update_sample_point`. -/
def splitTseg (btc : BittimingConst) (samplePointNominal tseg i : ℕ) : ℕ × ℕ :=
  let tseg2 := sub (sub (add tseg canSyncSeg)
    (mul samplePointNominal (add tseg canSyncSeg) / 1000)) i
  let tseg2 := min (max tseg2 btc.tseg2Min) btc.tseg2Max
  let tseg1 := sub tseg tseg2
  if tseg1 > btc.tseg1Max then (btc.tseg1Max, sub tseg btc.tseg1Max) else (tseg1, tseg2)

/-- The round `i` of `ep1_cf02a_can_update_sample_point`. -/
def updateRound (btc : BittimingConst) (samplePointNominal tseg : ℕ) (best : SplitResult) (i : ℕ) :
    Option SplitResult := do
  let (tseg1, tseg2) := splitTseg btc samplePointNominal tseg i
  let samplePoint ← udiv (mul 1000 (sub (add tseg canSyncSeg) tseg2)) (add tseg canSyncSeg)
  let samplePointError := abs (sub samplePointNominal samplePoint)
  if samplePoint ≤ samplePointNominal ∧ samplePointError < best.samplePointError then
    some ⟨samplePoint, samplePointError, tseg1, tseg2⟩
  else some best

/-- `ep1_cf02a_can_update_sample_point`; `tseg1` and `tseg2` are what the pointers point to when it
is called. -/
def canUpdateSamplePoint (btc : BittimingConst) (samplePointNominal tseg tseg1 tseg2 : ℕ) :
    Option SplitResult := do
  let best ← updateRound btc samplePointNominal tseg ⟨0, top, tseg1, tseg2⟩ 0
  updateRound btc samplePointNominal tseg best 1

/-- The variables of the loop of `ep1_cf02a_can_calc_bittiming`. -/
structure Search where
  bestBitrateError : ℕ
  bestSamplePointError : ℕ
  bestTseg : ℕ
  bestBrp : ℕ
  tseg1 : ℕ
  tseg2 : ℕ
  deriving DecidableEq

/-- `brp` and `bitrate_error` for a `tseg` of the loop, the inner `none` when `brp` is not in its
range. -/
def candidate (btc : BittimingConst) (clockFreq bitrate tseg : ℕ) : Option (Option (ℕ × ℕ)) := do
  let tsegall := add canSyncSeg (tseg / 2)
  let quotient ← udiv clockFreq (mul tsegall bitrate)
  let brp := add quotient (tseg % 2)
  let steps ← udiv brp btc.brpInc
  let brp := mul steps btc.brpInc
  if brp < btc.brpMin ∨ brp > btc.brpMax then some none
  else do
    let rate ← udiv clockFreq (mul brp tsegall)
    some (some (brp, abs (sub bitrate rate)))

/-- The body of the loop from `best_bitrate_error` on, for a `brp` in its range. -/
def tryCandidate (btc : BittimingConst) (samplePointNominal tseg brp bitrateError : ℕ)
    (s : Search) : Option (CountDown.Result Search) := do
  if bitrateError > s.bestBitrateError then some (.next s)
  else do
    let s :=
      if bitrateError < s.bestBitrateError then { s with bestSamplePointError := top } else s
    let r ← canUpdateSamplePoint btc samplePointNominal (tseg / 2) s.tseg1 s.tseg2
    let s := { s with tseg1 := r.tseg1, tseg2 := r.tseg2 }
    if r.samplePointError ≥ s.bestSamplePointError then some (.next s)
    else
      let s := { s with
        bestSamplePointError := r.samplePointError
        bestBitrateError := bitrateError
        bestTseg := tseg / 2
        bestBrp := brp }
      if bitrateError = 0 ∧ r.samplePointError = 0 then some (.stop s) else some (.next s)

/-- The body of the loop of `ep1_cf02a_can_calc_bittiming`. -/
def searchBody (btc : BittimingConst) (clockFreq bitrate samplePointNominal tseg : ℕ)
    (s : Search) : Option (CountDown.Result Search) := do
  match ← candidate btc clockFreq bitrate tseg with
  | none => some (.next s)
  | some (brp, bitrateError) => tryCandidate btc samplePointNominal tseg brp bitrateError s

/-- The loop of `ep1_cf02a_can_calc_bittiming`. -/
def search (btc : BittimingConst) (clockFreq bitrate samplePointNominal : ℕ) : Option Search :=
  let first := (btc.tseg1Max + btc.tseg2Max) * 2 + 1
  let last := (btc.tseg1Min + btc.tseg2Min) * 2
  CountDown.run (searchBody btc clockFreq bitrate samplePointNominal) last (first + 1 - last)
    ⟨top, top, 0, 0, 0, 0⟩

/-- The sample point to go for. -/
def samplePointNominal (bt : CanBittiming) : ℕ :=
  if bt.samplePoint ≠ 0 then bt.samplePoint
  else if bt.bitrate > 800000 then 750
  else if bt.bitrate > 500000 then 800
  else 875

/-- The check of the error of the bitrate: whether it is too high. -/
def bitrateErrorTooHigh (bestBitrateError bitrate : ℕ) : Option Bool :=
  if bestBitrateError ≠ 0 then do
    let v64 ← udiv (bestBitrateError * 1000) bitrate
    some (v64 % 2 ^ 32 > canCalcMaxError)
  else some false

/-- `ep1_cf02a_can_calc_bittiming`: the error or the values it leaves in `bt`. -/
def canCalcBittiming (clockFreq : ℕ) (bt : CanBittiming) (btc : BittimingConst) :
    Option (Except ℤ CanBittiming) := do
  let nominal := samplePointNominal bt
  let s ← search btc clockFreq bt.bitrate nominal
  let tooHigh ← bitrateErrorTooHigh s.bestBitrateError bt.bitrate
  if tooHigh then some (.error (-einval))
  else do
    let r ← canUpdateSamplePoint btc nominal s.bestTseg s.tseg1 s.tseg2
    let v64 ← udiv (s.bestBrp * 1000 * 1000 * 1000) clockFreq
    let propSeg := r.tseg1 / 2
    let bt := { bt with
      samplePoint := r.samplePoint
      tq := v64 % 2 ^ 32
      propSeg := propSeg
      phaseSeg1 := sub r.tseg1 propSeg
      phaseSeg2 := r.tseg2 }
    let bt := canSjwSetDefault bt
    let err := canSjwCheck bt btc
    if err ≠ 0 then some (.error err)
    else do
      let bt := { bt with brp := s.bestBrp }
      let rate ← udiv clockFreq (mul bt.brp (canBitTime bt))
      some (.ok { bt with bitrate := rate })

/-- `ep1_cf02a_calc_bit_timing`, the inner `none` when it returns `RESULT_Failure`. `canClock` is
what `ep1_cf02a_get_can_clock` finds, `none` when it fails. -/
def calcBitTiming (canClock : Option ℤ) (bitrate samplePoint : ℤ) (btc : BittimingConst) :
    Option (Option BitTiming) :=
  match canClock with
  | none => some none
  | some canClock => do
      let bt := ⟨ofInt bitrate, ofInt samplePoint, 0, 0, 0, 0, 0, 0⟩
      match ← canCalcBittiming (ofInt canClock) bt btc with
      | .error _ => some none
      | .ok bt =>
          some (some ⟨wrap bt.propSeg, wrap bt.phaseSeg1, wrap bt.phaseSeg2, wrap bt.sjw,
            wrap bt.brp⟩)

/-- `ep1_cf02a_calc_bitrate`: bitrate and sample point, the inner `none` when it returns
`RESULT_Failure`. -/
def calcBitrate (canClock : Option ℤ) (timing : BitTiming) : Option (Option (ℤ × ℤ)) :=
  match canClock with
  | none => some none
  | some canClock => do
      let allTseg := wrap (canSyncSeg + timing.propSeg + timing.phaseSeg1 + timing.phaseSeg2)
      let bitrate ← sdiv canClock (wrap (timing.brp * allTseg))
      let samplePoint ←
        sdiv (wrap (1000 * (canSyncSeg + timing.propSeg + timing.phaseSeg1))) allTseg
      some (some (bitrate, samplePoint))

/-! ### `ep1_cf02a_cmd.c` -/

/-- `ep1_cf02a_check_bit_timing` -/
def checkBitTiming (btc : BittimingConst) (timing : BitTiming) : ℤ :=
  let timingTseg1 := ofInt (timing.propSeg + timing.phaseSeg1)
  let timingTseg2 := ofInt timing.phaseSeg2
  if timingTseg1 < btc.tseg1Min ∨ timingTseg1 > btc.tseg1Max then -erange
  else if timingTseg2 < btc.tseg2Min ∨ timingTseg2 > btc.tseg2Max then -erange
  else if ofInt timing.sjw > btc.sjwMax then -erange
  else if ofInt timing.brp < btc.brpMin ∨ ofInt timing.brp > btc.brpMax then -erange
  else 0

/-- `ep1_cf02a_bit_timing_to_can_bittiming`: what it stores in `dst`. -/
def bitTimingToCanBittiming (uniqueData : UniqueData) (src : BitTiming) : Option CanBittiming := do
  let propSeg := ofInt src.propSeg
  let phaseSeg1 := ofInt src.phaseSeg1
  let phaseSeg2 := ofInt src.phaseSeg2
  let brp := ofInt src.brp
  let allTseg := wrap (canSyncSeg + wrap propSeg + wrap phaseSeg1 + wrap phaseSeg2)
  let bitrate ← udiv uniqueData.canClock (ofInt (wrap brp * allTseg))
  let samplePoint ←
    sdiv (wrap (1000 * (canSyncSeg + wrap propSeg + wrap phaseSeg1))) allTseg
  let tq ← udiv ((wrap brp % 2 ^ 64).toNat * 1000000000 % 2 ^ 64) uniqueData.canClock
  some {
    bitrate := bitrate
    samplePoint := ofInt samplePoint
    tq := tq % 2 ^ 32
    propSeg := propSeg
    phaseSeg1 := phaseSeg1
    phaseSeg2 := phaseSeg2
    sjw := ofInt src.sjw
    brp := brp }

end Ep1Cf02a

/-! ### `ep1_ch02a_main.c` -/

namespace Ep1Ch02a

/-- `AP_CT2A_DEFAULT_BAUDRATE` -/
def defaultBaudrate : ℕ := 500000

/-- `AP_CT2A_CLOCK` -/
def defaultClock : ℕ := 10000000

/-- `ep1_ch02a_is_support_bittiming_command`, with the version of the firmware. -/
def isSupportBittimingCommand (major minor : ℕ) : Bool :=
  if major > 2 then true else if major = 2 ∧ minor ≥ 3 then true else false

/-- `ep1_ch02a_set_current_bittiming`: `can.clock.freq` and `can.bittiming`, of which `can` is what
they were before. `bitTiming` is what `ep1_ch02a_get_bit_timing` finds, `none` when it fails. -/
def setCurrentBittiming (major minor : ℕ) (bitTiming : Option RespGetBitTiming)
    (can : CanBittiming) : Option (ℕ × CanBittiming) :=
  let can := { can with bitrate := defaultBaudrate }
  if isSupportBittimingCommand major minor then
    match bitTiming with
    | none => some (defaultClock, can)
    | some bitTiming => do
        let nominal : ℤ := 1 + bitTiming.propSeg + bitTiming.phaseSeg1 + bitTiming.phaseSeg2
        let samplePoint ← sdiv (wrap ((nominal - bitTiming.phaseSeg2) * 1000)) nominal
        let megahertz ← sdiv bitTiming.canClock (1000 * 1000)
        let quantum ← sdiv 1000 megahertz
        some (ofInt bitTiming.canClock, { can with
          propSeg := bitTiming.propSeg
          phaseSeg1 := bitTiming.phaseSeg1
          phaseSeg2 := bitTiming.phaseSeg2
          sjw := bitTiming.sjw
          brp := bitTiming.brp
          samplePoint := ofInt samplePoint
          tq := ofInt (wrap (quantum * bitTiming.brp)) })
  else some (defaultClock, can)

end Ep1Ch02a

end AptUsbtrx
