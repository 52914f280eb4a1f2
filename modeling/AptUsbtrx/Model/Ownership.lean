import AptUsbtrx.Model.ApCt2a
import AptUsbtrx.Model.Ep1Ag08a
import AptUsbtrx.Model.Ep1Cf02a
import Mathlib.Logic.Function.Basic

/-! # The users of a channel at the same time

The functions that read and set `if_type`, statement by statement. A channel has any number of
file descriptors and one interface of another kind, a network interface or an IIO buffer. -/

namespace AptUsbtrx

/-- A kind of device: the values of its `if_type`, with `other` that of its network interface or
IIO buffer, whether several files may be open, and the commands that the functions send. -/
structure ChannelKind (κ : Type) where
  none : κ
  file : κ
  other : κ
  none_ne_file : none ≠ file
  none_ne_other : none ≠ other
  file_ne_other : file ≠ other
  sharedFile : Bool
  iio : Bool
  startCommands : List UInt8
  stopCommands : List UInt8

/-- AP-CT2A: `apt_usbtrx_unique_can_netdev_start`, and the three rounds of
`apt_usbtrx_unique_can_stop_can`. -/
def ApCt2a.channelKind : ChannelKind ApCt2a.CanIfType where
  none := .none
  file := .file
  other := .net
  none_ne_file := by decide
  none_ne_other := by decide
  file_ne_other := by decide
  sharedFile := false
  iio := false
  startCommands := [cmdSetMode, cmdStartStopCAN]
  stopCommands := (List.replicate 3 [cmdStartStopCAN, cmdGetStatus]).flatten

/-- EP1-AG08A: `ep1_ag08a_buffer_postenable`. -/
def Ep1Ag08a.channelKind : ChannelKind Ep1Ag08a.IfType where
  none := .none
  file := .file
  other := .iio
  none_ne_file := by decide
  none_ne_other := by decide
  file_ne_other := by decide
  sharedFile := false
  iio := true
  startCommands := [cmdGetStatus, cmdControlAnalogInput]
  stopCommands := []

/-- EP1-CF02A: `ep1_cf02a_netdev_start` and `ep1_cf02a_stop_can_interface`. -/
def Ep1Cf02a.channelKind (fd : Bool) : ChannelKind Ep1Cf02a.IfType where
  none := .none
  file := .file
  other := .net
  none_ne_file := by decide
  none_ne_other := by decide
  file_ne_other := by decide
  sharedFile := true
  iio := false
  startCommands :=
    [cmdGetCANClock, cmdSetBitTiming] ++
      (if fd then [cmdGetCANClock, cmdSetDataBitTiming] else []) ++
      [cmdSetSilentMode, cmdSetFDMode] ++ (if fd then [cmdSetISOMode] else []) ++
      [cmdGetDeviceTimestampResetTime, cmdSetTxRxControl]
  stopCommands := [cmdSetTxRxControl]

/-- Where a file stands: `opening` behind the check of `open`, `counted` behind the `atomic_inc`,
`closing` behind the `atomic_dec`, `last` once `file_open_count` was read as zero. -/
inductive FilePc where
  | closed
  | opening
  | counted
  | opened
  | closing
  | last
  deriving DecidableEq

/-- Where the other interface stands. From `down` a network interface goes to `starting` behind the
check of `ndo_open`; an IIO buffer goes to `preenabling` behind the check of `preenable`, to
`preenabled` when that has returned, and to `failing` when `postenable` gives up. `failed` and
`disabled` are in front of `postdisable`, `postdisabling` is behind its read of `onclosing` and
tells whether the buffer was enabled. -/
inductive OtherPc where
  | down
  | starting (cmds : List UInt8)
  | up
  | stopping (cmds : List UInt8)
  | preenabling
  | preenabled
  | postenabling (cmds : List UInt8)
  | failing
  | failed
  | enabled
  | disabled
  | postdisabling (owns : Bool)
  deriving DecidableEq

structure ChannelSystem (κ ι : Type) where
  ifType : κ
  fileOpenCount : ℤ
  onclosing : Bool
  files : ι → FilePc
  other : OtherPc

/-- A call, with the first statement of it that touches what is shared, or the next statement of a
call. `ok` tells whether `open_candev` or a command succeeds, or whether the IIO core goes on to
`postenable`; `stopped` is what the status says of an AP-CT2A that was told to stop. -/
inductive ChannelLabel (ι : Type) where
  | fileOpen (i : ι)
  | fileNext (i : ι)
  | fileClose (i : ι)
  | otherOpen (ok : Bool)
  | otherNext (ok stopped : Bool)
  | otherClose
  | disconnect

namespace ChannelSystem

variable {κ ι : Type} [DecidableEq κ] [DecidableEq ι]

/-- The unit has been probed. -/
def start (kind : ChannelKind κ) : ChannelSystem κ ι := ⟨kind.none, 0, false, fun _ => .closed, .down⟩

def goto (s : ChannelSystem κ ι) (i : ι) (pc : FilePc) : ChannelSystem κ ι :=
  { s with files := Function.update s.files i pc }

/-- The check of `open`. -/
def openAllowed (kind : ChannelKind κ) (ifType : κ) : Bool :=
  if kind.sharedFile then ifType ≠ kind.other else ifType = kind.none

/-- The next statement of `open` or `close`. -/
def fileNext (kind : ChannelKind κ) (s : ChannelSystem κ ι) (i : ι) :
    Option (ChannelSystem κ ι) :=
  match s.files i with
  | .opening =>
      if kind.sharedFile then
        some ({ s with fileOpenCount := s.fileOpenCount + 1 }.goto i .counted)
      else some ({ s with ifType := kind.file }.goto i .opened)
  | .counted => some ({ s with ifType := kind.file }.goto i .opened)
  | .closing => some (s.goto i (if s.fileOpenCount = 0 then .last else .closed))
  | .last => some ({ s with ifType := kind.none }.goto i .closed)
  | .closed | .opened => none

/-- The next statement of `ndo_open`, `ndo_stop` or a buffer callback. -/
def otherNext (kind : ChannelKind κ) (s : ChannelSystem κ ι) (ok stopped : Bool) :
    Option (ChannelSystem κ ι) :=
  match s.other with
  | .starting (_ :: cmds) => some { s with other := if ok then .starting cmds else .down }
  | .starting [] => some { s with ifType := kind.other, other := .up }
  | .stopping (cmd :: cmds) =>
      if ¬ ok then some { s with other := .down }
      else if cmd = ApCt2a.cmdGetStatus ∧ stopped then some { s with other := .stopping [] }
      else some { s with other := .stopping cmds }
  | .stopping [] => some { s with ifType := kind.none, other := .down }
  | .preenabling => some { s with ifType := kind.other, other := .preenabled }
  | .preenabled =>
      some { s with other := if ok then .postenabling kind.startCommands else .disabled }
  | .postenabling (_ :: cmds) =>
      some { s with other := if ok then .postenabling cmds else .failing }
  | .postenabling [] => some { s with other := .enabled }
  | .failing => some { s with ifType := kind.none, other := .failed }
  | .failed => some { s with other := if s.onclosing then .down else .postdisabling false }
  | .disabled => some { s with other := if s.onclosing then .down else .postdisabling true }
  | .postdisabling _ => some { s with ifType := kind.none, other := .down }
  | .down | .up | .enabled => none

def step (kind : ChannelKind κ) (s : ChannelSystem κ ι) :
    ChannelLabel ι → Option (ChannelSystem κ ι)
  | .fileOpen i =>
      if s.files i ≠ .closed then none
      else if openAllowed kind s.ifType then some (s.goto i .opening)
      else some s
  | .fileNext i => s.fileNext kind i
  | .fileClose i =>
      if s.files i ≠ .opened then none
      else if kind.sharedFile then
        some ({ s with fileOpenCount := s.fileOpenCount - 1 }.goto i .closing)
      else some ({ s with ifType := kind.none }.goto i .closed)
  | .otherOpen ok =>
      if s.other ≠ .down then none
      else if s.ifType ≠ kind.none then some s
      else if kind.iio then some { s with other := .preenabling }
      else if ok then some { s with other := .starting kind.startCommands }
      else some s
  | .otherNext ok stopped => s.otherNext kind ok stopped
  | .otherClose =>
      -- `predisable` does not touch what is shared
      match s.other with
      | .up => some { s with other := .stopping kind.stopCommands }
      | .enabled => some { s with other := .disabled }
      | _ => none
  | .disconnect => some { s with onclosing := true }

end ChannelSystem

end AptUsbtrx
