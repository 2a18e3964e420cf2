import Ok3506.Gnss.Records

/-!
Configuring the outputs of the GNSS receiver.

`gnss_cfg_data` writes one text command and, when the write did not fail, sets
the mirror flag that `CfgdataType_from_name` finds for the type name. What
`write` returns is an argument; the commands that reached it are kept in order.
-/

namespace Ok3506.Gnss

/-- The data types with a mirror flag, nine NMEA sentences and the ephemerides. -/
inductive DataType where
  | gbs
  | gga
  | gll
  | gsa
  | gst
  | gsv
  | rmc
  | vtg
  | zda
  | ephb (kind : EphKind)
  deriving DecidableEq, Repr

/-- `strcasecmp(a, b) == 0`. -/
def strcasecmpEq (a b : String) : Bool := a.toList.map Char.toLower == b.toList.map Char.toLower

/-- The flag that `CfgdataType_from_name` assigns. -/
def cfgdataTypeFromName (type : String) : Option DataType :=
  if strcasecmpEq type "gbs" then some .gbs
  else if strcasecmpEq type "gga" then some .gga
  else if strcasecmpEq type "gll" then some .gll
  else if strcasecmpEq type "gsa" then some .gsa
  else if strcasecmpEq type "gst" then some .gst
  else if strcasecmpEq type "gsv" then some .gsv
  else if strcasecmpEq type "rmc" then some .rmc
  else if strcasecmpEq type "vtg" then some .vtg
  else if strcasecmpEq type "zda" then some .zda
  else if strcasecmpEq type "bdxwephb" then some (.ephb .bdxw)
  else if strcasecmpEq type "gpsephb" then some (.ephb .gps)
  else if strcasecmpEq type "bd2ephb" then some (.ephb .bd2)
  else if strcasecmpEq type "bd3ephb" then some (.ephb .bd3)
  else if strcasecmpEq type "bd3cnav2ephb" then some (.ephb .bd3cnav2)
  else if strcasecmpEq type "bd3cnav3ephb" then some (.ephb .bd3cnav3)
  else if strcasecmpEq type "gloephb" then some (.ephb .glo)
  else if strcasecmpEq type "galephb" then some (.ephb .gal)
  else none

/-- The output commands of the receiver. -/
inductive GnssCommand where
  | openOntime (type : String) (perSecond : UInt8)
  | close (type : String)
  deriving DecidableEq, Repr

/-- The type name in a command. -/
def GnssCommand.type : GnssCommand → String
  | .openOntime type _ | .close type => type

def GnssCommand.isOpen : GnssCommand → Bool
  | .openOntime _ _ => true
  | .close _ => false

/-- The text that `snprintf` puts into `buff[128]`. -/
def GnssCommand.text (command : GnssCommand) : List Char :=
  let full :=
    match command with
    | .openOntime type perSecond =>
        "CSHG OPEN COM1 " ++ type ++ " ONTIME " ++ toString perSecond.toNat ++ " \r\n"
    | .close type => "CSHG CLOSE COM1 " ++ type ++ " \r\n"
  full.toList.take 127

/-- The members of `gnss_ctrl` that the output commands use. `written` is the
history of commands that reached `write`, each with what it returned. -/
structure GnssCtrl where
  fd : Int
  output : DataType → UInt8
  written : List (GnssCommand × Int)

/-- `gnss_dev_write` of a command, where `write` returns `result`. -/
def gnssDevWrite (ctrl : GnssCtrl) (command : GnssCommand) (result : Int) : GnssCtrl × Int :=
  if ctrl.fd < 0 then (ctrl, -1)
  else ({ ctrl with written := ctrl.written ++ [(command, result)] },
    if result < 0 then -1 else result)

/-- `gnss_cfg_data`. -/
def gnssCfgData (ctrl : GnssCtrl) (type : String) (enable : UInt8) (perSecond : UInt8)
    (write : GnssCommand → Int) : GnssCtrl :=
  let command := if enable ≠ 0 then .openOntime type perSecond else .close type
  let (ctrl, result) := gnssDevWrite ctrl command (write command)
  if result < 0 then ctrl
  else
    match cfgdataTypeFromName type with
    | some d => { ctrl with output := fun d' => if d' = d then enable else ctrl.output d' }
    | none => ctrl

/-! ### A command that reaches the receiver -/

/-- The command that `gnss_cfg_data` writes. -/
def cfgCommand (type : String) (enable perSecond : UInt8) : GnssCommand :=
  if enable ≠ 0 then .openOntime type perSecond else .close type

@[simp] theorem type_cfgCommand (type : String) (enable perSecond : UInt8) :
    (cfgCommand type enable perSecond).type = type := by
  unfold cfgCommand
  split <;> rfl

/-- The commands that reached the receiver, in order. -/
def GnssCtrl.commands (ctrl : GnssCtrl) : List GnssCommand := ctrl.written.map Prod.fst

section Written

variable {ctrl : GnssCtrl} (type : String) (enable perSecond : UInt8) (write : GnssCommand → Int)

theorem gnssDevWrite_of_opened (opened : 0 ≤ ctrl.fd) (command : GnssCommand) (result : Int) :
    gnssDevWrite ctrl command result =
      ({ ctrl with written := ctrl.written ++ [(command, result)] },
        if result < 0 then -1 else result) :=
  if_neg (not_lt.mpr opened)

/-- The mirror flags aside, `gnss_cfg_data` leaves what its write leaves. -/
theorem written_gnssCfgData :
    (gnssCfgData ctrl type enable perSecond write).written =
      (gnssDevWrite ctrl (cfgCommand type enable perSecond)
        (write (cfgCommand type enable perSecond))).1.written := by
  simp only [gnssCfgData, cfgCommand]
  generalize gnssDevWrite ctrl _ _ = out
  split
  · rfl
  · split <;> rfl

@[simp] theorem fd_gnssCfgData :
    (gnssCfgData ctrl type enable perSecond write).fd = ctrl.fd := by
  have kept (command : GnssCommand) (result : Int) :
      (gnssDevWrite ctrl command result).1.fd = ctrl.fd := by
    unfold gnssDevWrite
    split <;> rfl
  simp only [gnssCfgData]
  generalize (if enable ≠ 0 then GnssCommand.openOntime type perSecond else .close type) = command
  split
  · exact kept command _
  · split <;> exact kept command _

theorem output_gnssCfgData_of_unnamed {type : String} (unnamed : cfgdataTypeFromName type = none)
    (enable perSecond : UInt8) (write : GnssCommand → Int) :
    (gnssCfgData ctrl type enable perSecond write).output = ctrl.output := by
  have kept (command : GnssCommand) (result : Int) :
      (gnssDevWrite ctrl command result).1.output = ctrl.output := by
    unfold gnssDevWrite
    split <;> rfl
  simp only [gnssCfgData, unnamed, ite_self]
  exact kept _ _

theorem commands_gnssCfgData (opened : 0 ≤ ctrl.fd) :
    (gnssCfgData ctrl type enable perSecond write).commands =
      ctrl.commands ++ [cfgCommand type enable perSecond] := by
  unfold GnssCtrl.commands
  rw [written_gnssCfgData, gnssDevWrite_of_opened opened, List.map_append]
  rfl

theorem output_gnssCfgData (opened : 0 ≤ ctrl.fd) (ok : ∀ command, 0 ≤ write command)
    (d : DataType) :
    (gnssCfgData ctrl type enable perSecond write).output d =
      if cfgdataTypeFromName type = some d then enable else ctrl.output d := by
  have succeeds (command : GnssCommand) : ¬ write command < 0 := not_lt.mpr (ok command)
  simp only [gnssCfgData, gnssDevWrite_of_opened opened, succeeds, if_false]
  split
  · rename_i named
    simp only [named, Option.some.injEq, eq_comm]
  · rename_i unnamed
    simp [unnamed]

end Written

end Ok3506.Gnss
