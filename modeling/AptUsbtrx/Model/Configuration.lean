import AptUsbtrx.Model.Channel
import AptUsbtrx.Model.UnitLink
import AptUsbtrx.Shared.Script

/-! # The configuration of an EP1-CF02A unit

The functions that set and read the settings with their callers, and the network interface that is
brought up with the configuration it was given. -/

namespace AptUsbtrx

namespace Ep1Cf02a

/-! ### The functions of `ep1_cf02a_cmd.c` -/

namespace ConfigSystem

variable {κ : Type} (firmware : Firmware κ)

/-- `ep1_cf02a_set_bit_timing` and `ep1_cf02a_set_data_bit_timing`: whether the callers see a
success. -/
def setTiming (s : ConfigSystem κ) (x : Exchange) (limits : Limits) (timing : BitTiming) :
    Bool × ConfigSystem κ :=
  if checkBitTiming limits.const timing ≠ 0 then (false, s)
  else
    let (ok, s) := s.setCommand firmware x limits.setting.command (packSetBitTiming timing)
    (ok, if ok then s.setUniqueData (s.dev.uniqueData.setTiming timing limits) else s)

/-- The functions `ep1_cf02a_set_..`. -/
def set (s : ConfigSystem κ) (x : Exchange) :
    (setting : Setting) → setting.Value → Bool × ConfigSystem κ
  | .bitTiming, timing => s.setTiming firmware x .nominal timing
  | .dataBitTiming, timing => s.setTiming firmware x .data timing
  | setting, v => s.setCommand firmware x setting.command (setting.packReq v)

/-- `ep1_cf02a_get_can_clock` -/
def getCanClock (s : ConfigSystem κ) (x : Exchange) : Option ℤ × ConfigSystem κ :=
  s.get firmware x .canClock

/-- `ep1_cf02a_get_bit_timing` and `ep1_cf02a_get_data_bit_timing` -/
def getTiming (s : ConfigSystem κ) (x : Exchange) : Limits → Option BitTiming × ConfigSystem κ
  | .nominal => s.get firmware x (.value .bitTiming)
  | .data => s.get firmware x (.value .dataBitTiming)

/-! ### The callers -/

/-- An ioctl that sets something other than a bit rate. -/
def ioctlSet (s : ConfigSystem κ) (x : Exchange) (setting : Setting) (v : setting.Value) :
    ℤ × ConfigSystem κ :=
  let (ok, s) := s.set firmware x setting v
  (if ok then 0 else -eio, s)

/-- `ep1_cf02a_ioctl_set_bitrate` and `ep1_cf02a_ioctl_set_data_bitrate`; `none` when the
calculation divides by zero. `ep1_cf02a_netdev_set_bittiming` and
`ep1_cf02a_netdev_set_data_bittiming` do the same with the settings of the interface. -/
def ioctlSetBitrate (s : ConfigSystem κ) (clock timing : Exchange) (limits : Limits)
    (bitrate samplePoint : ℤ) : Option (ℤ × ConfigSystem κ) :=
  let (canClock, s) := s.getCanClock firmware clock
  match calcBitTiming canClock bitrate samplePoint limits.const with
  | none => none
  | some none => some (-efault, s)
  | some (some bitTiming) =>
      let (ok, s) := s.setTiming firmware timing limits bitTiming
      some (if ok then 0 else -eio, s)

/-- `ep1_cf02a_ioctl_get_bitrate` and `ep1_cf02a_ioctl_get_data_bitrate`: the bit rate and the
sample point; `none` when the conversion divides by zero. -/
def ioctlGetBitrate (s : ConfigSystem κ) (timing clock : Exchange) (limits : Limits) :
    Option (Except ℤ (ℤ × ℤ) × ConfigSystem κ) :=
  match s.getTiming firmware timing limits with
  | (none, s) => some (.error (-eio), s)
  | (some bitTiming, s) =>
      let (canClock, s) := s.getCanClock firmware clock
      match calcBitrate canClock bitTiming with
      | none => none
      | some none => some (.error (-efault), s)
      | some (some bitrate) => some (.ok bitrate, s)

end ConfigSystem

/-! ### `ep1_cf02a_netdev_start` -/

def canCtrlmodeListenonly : UInt32 := 0x02

def canCtrlmodeFd : UInt32 := 0x20

def canCtrlmodeFdNonIso : UInt32 := 0x80

/-- What `ep1_cf02a_netdev_start` reads of `candev->can`. -/
structure Candev where
  ctrlmode : UInt32
  bitrate : ℕ
  samplePoint : ℕ
  dataBitrate : ℕ
  dataSamplePoint : ℕ
  deriving DecidableEq

namespace Candev

/-- `ctrlmode & CAN_CTRLMODE_FD` -/
def fd (candev : Candev) : Bool := candev.ctrlmode &&& canCtrlmodeFd != 0

/-- The bit rate and the sample point under the limits. -/
def rate (candev : Candev) : Limits → ℕ × ℕ
  | .nominal => (candev.bitrate, candev.samplePoint)
  | .data => (candev.dataBitrate, candev.dataSamplePoint)

end Candev

/-- The exchanges of a call of `ep1_cf02a_netdev_start`. -/
structure StartExchanges where
  clock : Limits → Exchange
  timing : Limits → Exchange
  silentMode : Exchange
  fdMode : Exchange
  isoMode : Exchange
  resetTime : Exchange
  txRxControl : Exchange

/-- The functions that `ep1_cf02a_netdev_start` calls. -/
inductive StartStep where
  | bittiming (limits : Limits)
  | set (x : Exchange) (setting : Setting) (v : setting.Value)
  | resetTime

/-- `ep1_cf02a_apply_control_modes` -/
def applyControlModes (candev : Candev) (xs : StartExchanges) : List StartStep :=
  [.set xs.silentMode .silentMode (candev.ctrlmode &&& canCtrlmodeListenonly != 0 : Bool),
    .set xs.fdMode .fdMode candev.fd] ++
    if candev.fd then
      [.set xs.isoMode .isoMode (candev.ctrlmode &&& canCtrlmodeFdNonIso != 0 : Bool)]
    else []

/-- The calls in order; the last one is `ep1_cf02a_start_can_interface`. -/
def startSteps (candev : Candev) (xs : StartExchanges) : List StartStep :=
  [.bittiming .nominal] ++ (if candev.fd then [.bittiming .data] else []) ++
    applyControlModes candev xs ++ [.resetTime, .set xs.txRxControl .txRxControl true]

namespace ConfigSystem

variable {κ : Type} (firmware : Firmware κ)

/-- A call of `ep1_cf02a_netdev_start`, and whether it goes on after it. -/
def startStep (candev : Candev) (xs : StartExchanges) (s : ConfigSystem κ) :
    StartStep → Option (Bool × ConfigSystem κ)
  | .bittiming limits =>
      let (bitrate, samplePoint) := candev.rate limits
      (s.ioctlSetBitrate firmware (xs.clock limits) (xs.timing limits) limits bitrate
        samplePoint).map fun (ret, s) => (ret = 0, s)
  | .set x setting v => some (s.set firmware x setting v)
  | .resetTime =>
      let (time, s) := s.get firmware xs.resetTime .resetTime
      some (time.isSome, s)

/-- `ep1_cf02a_netdev_start` up to `atomic_set(&unique_data->if_type, ..)`. -/
def netdevStart (s : ConfigSystem κ) (candev : Candev) (xs : StartExchanges) :
    Option (Bool × ConfigSystem κ) :=
  Script.run (fun i s => startStep firmware candev xs s i) (startSteps candev xs) s

end ConfigSystem

/-! ### Calls one after another -/

/-- The driver and the unit with the users of the channel and the settings of the interface. -/
structure ConfigCalls (κ : Type) extends ConfigSystem κ where
  channel : Channel
  files : ℕ
  netUp : Bool
  candev : Candev

/-- A call, or something that happens on the link between two calls. -/
inductive ConfigCall where
  | fileOpen
  | fileClose
  | ioctlSet (x : Exchange) (setting : Setting) (v : setting.Value)
  | ioctlSetBitrate (clock timing : Exchange) (limits : Limits) (bitrate samplePoint : ℤ)
  | ioctlGet (x : Exchange) (r : Readable)
  | ioctlGetBitrate (timing clock : Exchange) (limits : Limits)
  | changelink (candev : Candev)
  | setBittiming (clock timing : Exchange) (limits : Limits)
  | ndoOpen (err : ℤ) (xs : StartExchanges)
  | ndoStop (stop : Exchange)
  | setModeStart (stop : Exchange) (xs : StartExchanges)
  | link (event : LinkEvent)

namespace ConfigCalls

variable {κ : Type} (firmware : Firmware κ)

/-- The unit after the probe, with any settings. -/
def start (s : ConfigSystem κ) (candev : Candev) : ConfigCalls κ :=
  ⟨s, ⟨.none, 0⟩, 0, false, candev⟩

/-- `ep1_cf02a_stop_can_interface` once the transmit ring is cleared. -/
def stop (s : ConfigCalls κ) (x : Exchange) : Bool × ConfigCalls κ :=
  let (ok, sys) := s.set firmware x .txRxControl false
  (ok, { s with toConfigSystem := sys })

/-- `ep1_cf02a_netdev_start` -/
def netdevStart (s : ConfigCalls κ) (xs : StartExchanges) : Option (Bool × ConfigCalls κ) :=
  (s.toConfigSystem.netdevStart firmware s.candev xs).map fun (ok, sys) =>
    (ok, { s with
      toConfigSystem := sys
      channel := if ok then { s.channel with ifType := .net } else s.channel })

/-- An ioctl is made through an open file. -/
def ioctl (s : ConfigCalls κ) (call : Option (ConfigSystem κ)) : Option (ConfigCalls κ) :=
  if s.files = 0 then none else call.map fun sys => { s with toConfigSystem := sys }

/-- A call. The kernel changes the settings of an interface and calls `do_set_bittiming` only while
the interface is down. -/
def step (s : ConfigCalls κ) : ConfigCall → Option (ConfigCalls κ)
  | .fileOpen =>
      let (ret, channel) := Ep1Cf02a.fileOpen s.channel
      some { s with channel := channel, files := if ret = 0 then s.files + 1 else s.files }
  | .fileClose =>
      if s.files = 0 then none
      else some { s with channel := (Ep1Cf02a.fileClose s.channel).2, files := s.files - 1 }
  | .ioctlSet x setting v => s.ioctl (some (s.toConfigSystem.ioctlSet firmware x setting v).2)
  | .ioctlSetBitrate clock timing limits bitrate samplePoint =>
      s.ioctl ((s.toConfigSystem.ioctlSetBitrate firmware clock timing limits bitrate
        samplePoint).map Prod.snd)
  | .ioctlGet x r => s.ioctl (some (s.get firmware x r).2)
  | .ioctlGetBitrate timing clock limits =>
      s.ioctl ((s.toConfigSystem.ioctlGetBitrate firmware timing clock limits).map Prod.snd)
  | .changelink candev => if s.netUp then none else some { s with candev := candev }
  | .setBittiming clock timing limits =>
      if s.netUp then none
      else
        let (bitrate, samplePoint) := s.candev.rate limits
        (s.toConfigSystem.ioctlSetBitrate firmware clock timing limits bitrate samplePoint).map
          fun (_, sys) => { s with toConfigSystem := sys }
  | .ndoOpen err xs =>
      if s.netUp then none
      else if s.channel.ifType ≠ .none then some s
      else if err ≠ 0 then some s
      else (s.netdevStart firmware xs).map fun (ok, s) => { s with netUp := ok }
  | .ndoStop x =>
      if s.netUp then
        let (ok, s) := s.stop firmware x
        some { s with
          netUp := false
          channel := if ok then { s.channel with ifType := .none } else s.channel }
      else none
  | .setModeStart x xs =>
      if s.netUp then
        let (ok, s) := s.stop firmware x
        if ok then (s.netdevStart firmware xs).map Prod.snd else some s
      else none
  | .link event => some { s with toConfigSystem := s.toConfigSystem.event firmware event }

end ConfigCalls

end Ep1Cf02a

end AptUsbtrx
