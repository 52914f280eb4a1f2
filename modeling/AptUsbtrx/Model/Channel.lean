import AptUsbtrx.Model.Ep1Cf02a

/-! # The users of an EP1-CF02A channel

`ep1_cf02a_open`, `ep1_cf02a_close`, `ep1_cf02a_netdev_open` and `ep1_cf02a_netdev_close`, each as
a whole, with the commands they send. -/

namespace AptUsbtrx

namespace Ep1Cf02a

/-- What comes of a command: what `apt_usbtrx_wait_msg_timeout` returns, the structure on the stack
that the response is parsed into and what `success` holds before. -/
structure CmdReply where
  waited : Result × List UInt8
  msg : Msg
  success : Bool

/-- The settings of the interface that `ep1_cf02a_netdev_start` reads: `CAN_CTRLMODE_FD`, and
whether `ep1_cf02a_can_calc_bittiming` succeeds for its data bit rate or its bit rate at the CAN
clock given. -/
structure CandevConfig where
  fd : Bool
  canCalcBittiming : Bool → ℤ → Bool

/-- The commands of `ep1_cf02a_netdev_start` and `ep1_cf02a_stop_can_interface`.
`calcBitTiming` is `ep1_cf02a_calc_bit_timing`, which asks for the CAN clock. -/
inductive ChannelCmd where
  | calcBitTiming (data : Bool)
  | setBitTiming
  | setDataBitTiming
  | setSilentMode
  | setFdMode
  | setIsoMode
  | getDeviceTimestampResetTime
  | setTxRxControl
  deriving DecidableEq

/-- A set function returns `RESULT_Success` and `success` is true. -/
def setSucceeds (cmd : Command) (reply : CmdReply) : Bool :=
  match cmd.finishSet reply.waited reply.msg with
  | (.success, success) => success.getD reply.success
  | _ => false

/-- The caller goes on after the command. -/
def ChannelCmd.succeeds (config : CandevConfig) (reply : CmdReply) : ChannelCmd → Bool
  | calcBitTiming data =>
      match GetCmd.canClock.command.finishGet parseResponseGetCanClock reply.waited reply.msg with
      | (.success, some canClock) => config.canCalcBittiming data canClock
      | _ => false
  | setBitTiming => setSucceeds (setCommon 14 cmdSetBitTiming) reply
  | setDataBitTiming => setSucceeds (setCommon 14 cmdSetDataBitTiming) reply
  | setSilentMode => setSucceeds (setCommon 5 cmdSetSilentMode) reply
  | setFdMode => setSucceeds (setCommon 5 cmdSetFDMode) reply
  | setIsoMode => setSucceeds (setCommon 5 cmdSetISOMode) reply
  | getDeviceTimestampResetTime =>
      (GetCmd.deviceTimestampResetTime.command.finishGet parseResponseGetDeviceTimestampResetTime
        reply.waited reply.msg).1 == .success
  | setTxRxControl => setSucceeds (setCommon 5 cmdSetTxRxControl) reply

/-- The commands of `ep1_cf02a_netdev_start` in order. -/
def startCommands (fd : Bool) : List ChannelCmd :=
  [.calcBitTiming false, .setBitTiming] ++
    (if fd then [.calcBitTiming true, .setDataBitTiming] else []) ++
    [.setSilentMode, .setFdMode] ++ (if fd then [.setIsoMode] else []) ++
    [.getDeviceTimestampResetTime, .setTxRxControl]

/-- The commands are sent one after another until one fails. -/
def runCommands (config : CandevConfig) : List ChannelCmd → List CmdReply → Bool
  | [], _ => true
  | _ :: _, [] => false
  | cmd :: cmds, reply :: replies =>
      cmd.succeeds config reply && runCommands config cmds replies

/-- The part of `ep1_cf02a_unique_data_t` that says who uses the channel. -/
structure Channel where
  ifType : IfType
  fileOpenCount : ℤ
  deriving DecidableEq

/-- `ep1_cf02a_open` -/
def fileOpen (channel : Channel) : ℤ × Channel :=
  if channel.ifType = .net then (-ebusy, channel)
  else (0, { fileOpenCount := channel.fileOpenCount + 1, ifType := .file })

/-- `ep1_cf02a_close` -/
def fileClose (channel : Channel) : ℤ × Channel :=
  let channel := { channel with fileOpenCount := channel.fileOpenCount - 1 }
  if channel.fileOpenCount = 0 then (0, { channel with ifType := .none }) else (0, channel)

/-- `ep1_cf02a_netdev_start` -/
def netdevStart (config : CandevConfig) (replies : List CmdReply) (channel : Channel) :
    ℤ × Channel :=
  if runCommands config (startCommands config.fd) replies then
    (0, { channel with ifType := .net })
  else (-eio, channel)

/-- `ep1_cf02a_netdev_open`; `err` is what `open_candev` returns. -/
def netdevOpen (config : CandevConfig) (err : ℤ) (replies : List CmdReply) (channel : Channel) :
    ℤ × Channel :=
  if channel.ifType ≠ .none then (-ebusy, channel)
  else if err ≠ 0 then (err, channel)
  else netdevStart config replies channel

/-- `ep1_cf02a_stop_can_interface` once the transmit ring is cleared. -/
def stopCanInterface (reply : CmdReply) : Result :=
  if setSucceeds (setCommon 5 cmdSetTxRxControl) reply then .success else .failure

/-- `ep1_cf02a_netdev_close` -/
def netdevClose (reply : CmdReply) (channel : Channel) : ℤ × Channel :=
  if stopCanInterface reply ≠ .success then (-eio, channel)
  else (0, { channel with ifType := .none })

/-! ### Calls one after another -/

/-- The channel with the open files and with what the kernel knows of the interface: `netUp` from
a successful `ndo_open` to the next `ndo_stop`. -/
structure ChannelCalls where
  channel : Channel
  files : ℕ
  netUp : Bool
  deriving DecidableEq

inductive ChannelCall where
  | fileOpen
  | fileClose
  | ndoOpen (config : CandevConfig) (err : ℤ) (replies : List CmdReply)
  | ndoStop (reply : CmdReply)

namespace ChannelCalls

/-- The channel once the unit has been probed. -/
def start : ChannelCalls := ⟨⟨.none, 0⟩, 0, false⟩

/-- A call: a file is closed after it was opened, the kernel brings the interface up only when it
is down and stops it only when it is up. -/
def step (s : ChannelCalls) : ChannelCall → Option ChannelCalls
  | .fileOpen =>
      let (ret, channel) := Ep1Cf02a.fileOpen s.channel
      some { s with channel := channel, files := if ret = 0 then s.files + 1 else s.files }
  | .fileClose =>
      if s.files = 0 then none
      else some { s with channel := (Ep1Cf02a.fileClose s.channel).2, files := s.files - 1 }
  | .ndoOpen config err replies =>
      if s.netUp then none
      else
        let (ret, channel) := netdevOpen config err replies s.channel
        some { s with channel := channel, netUp := ret = 0 }
  | .ndoStop reply =>
      if s.netUp then some { s with channel := (netdevClose reply s.channel).2, netUp := false }
      else none

end ChannelCalls

end Ep1Cf02a

end AptUsbtrx
