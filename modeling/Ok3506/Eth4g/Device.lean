import Ok3506.At.Port

/-!
The 4G module: the operations that `eth_4g_online_func` is made of.

Each operation asks the world for the outcomes of its system calls, AT commands
and shell commands, and enters its own outcome in a history. A C return value of
0 is `true` here, -1 is `false`.
-/

namespace Ok3506.Eth4g

open CString At

/-- `eth_4g_Status_t`. -/
inductive Status where
  | idle
  | init
  | powerOn
  | atReady
  | simReady
  | signalOk
  | cfunOk
  | registered
  | apnOk
  | attached
  | ifaceUp
  | linkUp
  | dhcpOk
  | ipOk
  | online
  | powerOff
  deriving DecidableEq, Repr

/-- The members of `eth_4g_ctrl` that decide something, with their initial values. -/
structure Ctrl where
  enabled : UInt8 := 0
  fd : Int := -1
  status : Status := .idle
  apn : List UInt8 := ascii "internet"
  netIf : List UInt8 := ascii "usb0"

/-- The operations of the bring-up. -/
inductive Operation where
  | powerOn
  /-- an AT command through `eth_4g_at_expect` -/
  | at (cmd : List UInt8)
  | simReady
  | signalQuality
  | registration
  | packetAttached
  | ifaceUp
  | iface
  | dhcp
  | ip
  deriving DecidableEq, Repr

/-- An entry of the history: a status was assigned, or an operation was done. -/
inductive Event where
  | entered (status : Status)
  | done (op : Operation) (ok : Bool)
  deriving DecidableEq, Repr

/-- What the world answers to one request: `open` and `set_opt`, the port, or
the success of a call. -/
structure Answer where
  openFd : Int := -1
  setOpt : Bool := true
  port : PortAnswer := {}
  ok : Bool := false

/-- The module, the answers still to come and the history. -/
structure World where
  ctrl : Ctrl := {}
  answers : List Answer := []
  history : List Event := []

/-- An operation on the world. -/
abbrev M := StateM World

/-! ### The world -/

/-- The next answer; a world that has no more answers fails everything. -/
def ask : M Answer := fun w => (w.answers.headD {}, { w with answers := w.answers.tail })

def getCtrl : M Ctrl := fun w => (w.ctrl, w)

def setFd (fd : Int) : M Unit := fun w => ((), { w with ctrl := { w.ctrl with fd } })

/-- `eth_4g_ctrl.status = status`. -/
def setStatus (status : Status) : M Unit := fun w =>
  ((), { w with ctrl := { w.ctrl with status }, history := w.history ++ [.entered status] })

/-- An operation enters its outcome in the history. -/
def record (op : Operation) (ok : Bool) : M Bool := fun w =>
  (ok, { w with history := w.history ++ [.done op ok] })

/-- `system(command) == 0`, and other calls of which only the success counts. -/
def call : M Bool := do
  let answer ← ask
  return answer.ok

/-! ### The device -/

/-- `eth_4g_close_device`. -/
def closeDevice : M Unit := do
  let ctrl ← getCtrl
  if 0 ≤ ctrl.fd then setFd (-1)

/-- `eth_4g_open_device`. -/
def openDevice : M Bool := do
  let ctrl ← getCtrl
  if 0 ≤ ctrl.fd then return true
  let answer ← ask
  setFd answer.openFd
  if answer.openFd < 0 then return false
  if answer.setOpt then return true
  closeDevice
  return false

/-- `eth_4g_capture_at_response`, with a buffer of 2048 bytes and 2000 ms; the
response as a C string, when there is one. -/
def captureAtResponse (cmd : List UInt8) : M (Option (List UInt8)) := do
  if ¬ (← openDevice) then return none
  let answer ← ask
  let captured := (capture 128 2048 2000 (some cmd) answer.port).1
  return if captured.ret = 0 then some (cstr captured.used) else none

/-- `eth_4g_at_expect`. -/
def atExpect (cmd expect : List UInt8) : M Bool := do
  match ← captureAtResponse cmd with
  | none => record (.at cmd) false
  | some response =>
      record (.at cmd) (contains response (ascii "OK") && contains response expect)

/-- A query whose response has to hold one of some texts. -/
def query (op : Operation) (cmd : List UInt8) (texts : List (List UInt8)) : M Bool := do
  match ← captureAtResponse cmd with
  | none => record op false
  | some response => record op (texts.any (contains response))

/-- `eth_4g_sim_ready`. -/
def simReady : M Bool := query .simReady (ascii "AT+CPIN?") [ascii "+CPIN: READY"]

/-- `eth_4g_signal_quality`; an unknown signal is only reported. -/
def signalQuality : M Bool := query .signalQuality (ascii "AT+CSQ") [ascii "OK"]

/-- `eth_4g_registration_ok`. -/
def registrationOk : M Bool :=
  query .registration (ascii "AT+CEREG?")
    [ascii "+CEREG: 0,1", ascii "+CEREG: 0,5", ascii "+CEREG: 1,1", ascii "+CEREG: 1,5"]

/-- `eth_4g_packet_attached`. -/
def packetAttached : M Bool := query .packetAttached (ascii "AT+CGATT?") [ascii "+CGATT: 1"]

/-- The command of `eth_4g_set_apn`. -/
def apnCommand (apn : List UInt8) : List UInt8 :=
  ascii "AT+CGDCONT=1,\"IP\",\"" ++ apn ++ ascii "\""

/-- `eth_4g_set_apn`. -/
def setApn : M Bool := do
  let ctrl ← getCtrl
  let command := apnCommand ctrl.apn
  if 128 ≤ command.length then return false
  atExpect command (ascii "OK")

/-! ### The interface -/

/-- `eth_4g_bring_iface_up`. -/
def bringIfaceUp : M Bool := do
  let ctrl ← getCtrl
  let command := ascii "ip link set " ++ ctrl.netIf ++
    ascii " up >/dev/null 2>&1 || ifconfig " ++ ctrl.netIf ++ ascii " up >/dev/null 2>&1"
  if 128 ≤ command.length then record .ifaceUp false else record .ifaceUp (← call)

/-- The loop of `eth_4g_wait_for_iface`. -/
def waitForIfaceLoop : Nat → M Bool
  | 0 => return false
  | n + 1 => do if ← call then return true else waitForIfaceLoop n

/-- `eth_4g_wait_for_iface`. -/
def waitForIface (timeoutSec : Nat) : M Bool := do
  let ctrl ← getCtrl
  let path := ascii "/sys/class/net/" ++ ctrl.netIf
  if 96 ≤ path.length then record .iface false
  else record .iface (← waitForIfaceLoop timeoutSec)

/-- `eth_4g_start_dhcp`: the first client that is found is run. -/
def startDhcp : M Bool := do
  let ctrl ← getCtrl
  if ← call then
    let command := ascii "udhcpc -i " ++ ctrl.netIf ++ ascii " -n -q -t 10 -T 3 >/dev/null 2>&1"
    if 256 ≤ command.length then record .dhcp false else record .dhcp (← call)
  else if ← call then
    let command := ascii "dhclient " ++ ctrl.netIf ++ ascii " >/dev/null 2>&1"
    if 256 ≤ command.length then record .dhcp false else record .dhcp (← call)
  else record .dhcp false

/-- The loop of `eth_4g_wait_for_ip`, with the lengths of its two commands. -/
def waitForIpLoop (ipCommand ifconfigCommand : List UInt8) : Nat → M Bool
  | 0 => return false
  | n + 1 => do
      if 256 ≤ ipCommand.length then return false
      if ← call then return true
      if 256 ≤ ifconfigCommand.length then return false
      if ← call then return true
      waitForIpLoop ipCommand ifconfigCommand n

/-- `eth_4g_wait_for_ip`. -/
def waitForIp (timeoutSec : Nat) : M Bool := do
  let ctrl ← getCtrl
  let ipCommand := ascii "command -v ip >/dev/null 2>&1 && ip addr show dev " ++ ctrl.netIf ++
    ascii " | grep -q 'inet '"
  let ifconfigCommand := ascii "command -v ifconfig >/dev/null 2>&1 && ifconfig " ++ ctrl.netIf ++
    ascii " | grep -q 'inet '"
  record .ip (← waitForIpLoop ipCommand ifconfigCommand timeoutSec)

/-- `eth_4g_status_ok`. -/
def statusOk : M Bool := do
  if ¬ (← simReady) then return false
  if ¬ (← registrationOk) then return false
  packetAttached

/-! ### Power -/

/-- `eth_4g_power_on`: reset released, power high, USB switched. -/
def powerOn : M Bool := do
  if ¬ (← call) then record .powerOn false
  else if ¬ (← call) then record .powerOn false
  else if ¬ (← call) then record .powerOn false
  else record .powerOn true

/-- `eth_4g_power_off`; what the three outputs return is ignored. -/
def powerOff : M Unit := do
  closeDevice
  let _ ← call
  let _ ← call
  let _ ← call

/-- The acknowledged command that `eth_4g_soft_recover` starts with. -/
def standbyCommand : List UInt8 := ascii "AT+CFUN=0"

/-- `eth_4g_soft_recover`. -/
def softRecover : M Unit := do
  if ← openDevice then
    if ← atExpect standbyCommand (ascii "OK") then
      setStatus .atReady

/-! ### The state machine -/

/-- The environment variables that `eth_4g_load_env` reads. -/
structure Environ where
  apn : Option (List UInt8) := none
  netIf : Option (List UInt8) := none

/-- A variable that is set and not empty, as `snprintf` stores it. -/
def loadVariable (old : List UInt8) (size : Nat) : Option (List UInt8) → List UInt8
  | some (c :: value) => (c :: value).take (size - 1)
  | _ => old

/-- `eth_4g_load_env`. -/
def loadEnv (env : Environ) : M Unit := fun w =>
  ((), { w with ctrl := { w.ctrl with
    apn := loadVariable w.ctrl.apn 64 env.apn
    netIf := loadVariable w.ctrl.netIf 32 env.netIf } })

/-- An operation that leads to the next status when it succeeds. -/
def advance (op : M Bool) (next : Status) : M Unit := do
  if ← op then setStatus next

/-- `a && b` of two operations. -/
def andThen (a b : M Bool) : M Bool := do
  if ← a then b else return false

/-- `eth_4g_show_status`. -/
def showStatus : M Unit := do
  let _ ← call
  let _ ← call

/-- The switch of `eth_4g_online_func`. -/
def onlineSwitch (env : Environ) : Status → M Unit
  | .idle => return ()
  | .init => do
      loadEnv env
      if ← powerOn then
        setStatus .powerOn
        closeDevice
  | .powerOn => do
      let _ ← openDevice
      advance (andThen (atExpect (ascii "AT") (ascii "OK")) (atExpect (ascii "ATE0") (ascii "OK")))
        .atReady
  | .atReady => advance simReady .simReady
  | .simReady => advance signalQuality .signalOk
  | .signalOk =>
      advance (andThen (atExpect (ascii "AT+CFUN=1") (ascii "OK"))
        (atExpect (ascii "AT+CFUN?") (ascii "+CFUN: 1"))) .cfunOk
  | .cfunOk => advance registrationOk .registered
  | .registered => advance setApn .apnOk
  | .apnOk =>
      advance (andThen (atExpect (ascii "AT+CGATT=1") (ascii "OK")) packetAttached) .attached
  | .attached => advance bringIfaceUp .ifaceUp
  | .ifaceUp => advance (waitForIface 10) .linkUp
  | .linkUp => advance startDhcp .dhcpOk
  | .dhcpOk => do
      if ← waitForIp 30 then
        showStatus
        setStatus .online
  | .ipOk => do
      if ← waitForIp 30 then
        showStatus
        setStatus .online
  | .online => do
      if ¬ (← statusOk) then softRecover
  | .powerOff => do
      powerOff
      setStatus .idle

/-- `eth_4g_online_func`. -/
def onlineFunc (env : Environ) : M Unit := do
  let ctrl ← getCtrl
  if ctrl.enabled = 0 ∧ ctrl.status ≠ .idle then setStatus .powerOff
  else if ctrl.enabled = 1 ∧ ctrl.status = .idle then setStatus .init
  onlineSwitch env (← getCtrl).status

/-- One call: `enabled` as it is at its start, the environment, and the answers
to its requests. -/
structure Input where
  enabled : UInt8
  env : Environ := {}
  answers : List Answer

/-- A call of `eth_4g_online_func`. -/
def step (w : World) (i : Input) : World × Unit :=
  let w := { w with ctrl := { w.ctrl with enabled := i.enabled }, answers := i.answers }
  ((onlineFunc i.env w).2, ())

end Ok3506.Eth4g
