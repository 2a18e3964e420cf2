import Ok3506.Dbb.Sms
import Ok3506.Dbb.Uplink
import Ok3506.Dbb.Urc

/-!
The thread of the DBB module.

`dbb_online_func` is one round of its loop. The clock and the port answer from
outside; the history keeps what every capture left in its response buffer, what
was passed to `dbb_handle_urc_blob`, and what became of the AT commands.
-/

namespace Ok3506.Dbb

open CString At

/-- `dbb_WorkMode_t`. -/
inductive WorkMode where
  | normal
  | broadcast
  deriving DecidableEq, Repr

/-- `dbb_status_t`. -/
inductive Status where
  | idle
  | init
  | powerOn
  | simReady
  | cfunOk
  | cregOk
  | cnmiOk
  | dsciOk
  | cgdcontOk
  | psdataOk
  | waitCregxw
  | waitCrev
  | waitCireg
  | online
  | onlineBroadcast
  | powerOff
  deriving DecidableEq, Repr

/-- The members of `dbb_ctrl` that decide something, with their initial values. -/
structure Ctrl where
  status : Status := .idle
  uplinkIntervalSec : Int := 30
  lastUplinkTs : Int := 0
  smsTarget : List UInt8 := []
  smsText : List UInt8 := []
  smsSendOnceDone : UInt8 := 0
  downlink : Downlink := {}
  mode : WorkMode := .broadcast

/-- Who performs a capture. -/
inductive Caller where
  /-- `dbb_online_service` or `dbb_online_broadcast_service` -/
  | service
  /-- `dbb_at_expect` -/
  | atExpect
  | waitForText
  | sendSms
  deriving DecidableEq, Repr

/-- An entry of the history. -/
inductive Event where
  | captured (caller : Caller) (captured : Captured)
  /-- `dbb_handle_urc_blob` is called -/
  | urcBlob (urc : List UInt8)
  /-- an AT command has been answered as expected, or not -/
  | at (cmd : List UInt8) (ok : Bool)
  | entered (status : Status)
  deriving DecidableEq, Repr

/-- What the world answers to one request. -/
structure Answer where
  now : Int := 0
  port : PortAnswer := {}
  sms : SmsAnswer := {}
  calcType : GnssCalcType := .fppp

/-- The module, the answers still to come and the history. -/
structure World where
  ctrl : Ctrl := {}
  answers : List Answer := []
  history : List Event := []

/-- An operation on the world. -/
abbrev M := StateM World

/-! ### The world -/

/-- The next answer; a world that has no more answers is silent. -/
def ask : M Answer := fun w => (w.answers.headD {}, { w with answers := w.answers.tail })

def getCtrl : M Ctrl := fun w => (w.ctrl, w)

def modifyCtrl (f : Ctrl → Ctrl) : M Unit := fun w => ((), { w with ctrl := f w.ctrl })

def record (events : List Event) : M Unit := fun w =>
  ((), { w with history := w.history ++ events })

/-- `dbb_ctrl.status = status`. -/
def setStatus (status : Status) : M Unit := do
  modifyCtrl fun ctrl => { ctrl with status }
  record [.entered status]

/-- An exchange with the module enters its captures in the history. -/
def exchange (caller : Caller) (done : Exchange) : M Bool := do
  record (done.captured.map fun captured => .captured caller captured)
  return done.ok

/-- A call of `dbb_handle_urc_blob`. -/
def handleUrcBlob (calcType : GnssCalcType) (urc : List UInt8) : M Unit := do
  record [.urcBlob urc]
  modifyCtrl fun ctrl =>
    { ctrl with downlink := (dbbHandleUrcBlob calcType urc ctrl.downlink).1 }

/-- A call of `dbb_at_expect`. -/
def atExpect (cmd : List UInt8) (expect : Option (List UInt8)) : M Bool := do
  let answer ← ask
  let ok ← exchange .atExpect (dbbAtExpect cmd expect answer.port)
  record [.at cmd ok]
  return ok

/-- A call of `dbb_wait_for_text`, with `DBB_WAIT_EVENT_TIMEOUT_MS`. -/
def waitForText (expect : List UInt8) : M Bool := do
  let answer ← ask
  exchange .waitForText (dbbWaitForText expect maxResponse 30000 answer.port)

/-! ### The services -/

/-- The capture that both services start with, for `DBB_MONITOR_INTERVAL_SEC`. -/
def monitor (answer : Answer) : M Unit := do
  let (captured, _) := dbbCaptureResponse none maxResponse 1000 answer.port
  record [.captured .service captured]
  if captured.ret = 0 then handleUrcBlob answer.calcType (cstr captured.used)

/-- The uplink of `dbb_online_service`, when the last one is long enough ago. -/
def serviceUplink (now : Int) : M Unit := do
  let ctrl ← getCtrl
  if ctrl.lastUplinkTs = 0 ∨ ctrl.uplinkIntervalSec ≤ now - ctrl.lastUplinkTs then
    let answer ← ask
    if ← exchange .atExpect (dbbSendUplink demoUplinkRaw .base64 answer.port) then
      modifyCtrl fun ctrl => { ctrl with lastUplinkTs := now }

/-- The message of `dbb_online_service`, which is sent once. -/
def serviceSms (utf8ToUcs2be : List UInt8 → Option (List UInt8)) : M Unit := do
  let ctrl ← getCtrl
  if ctrl.smsSendOnceDone = 0 ∧ ctrl.smsTarget ≠ [] ∧ ctrl.smsText ≠ [] then
    let answer ← ask
    if ← exchange .sendSms (dbbSendSms utf8ToUcs2be ctrl.smsTarget ctrl.smsText answer.sms) then
      modifyCtrl fun ctrl => { ctrl with smsSendOnceDone := 1 }

/-- `dbb_online_service`. -/
def dbbOnlineService (utf8ToUcs2be : List UInt8 → Option (List UInt8)) : M Unit := do
  let answer ← ask
  monitor answer
  serviceUplink answer.now
  serviceSms utf8ToUcs2be

/-- `dbb_online_broadcast_service`. -/
def dbbOnlineBroadcastService : M Unit := do
  let answer ← ask
  monitor answer

/-! ### The state machine -/

/-- `a && b` of two operations. -/
def andThen (a b : M Bool) : M Bool := do
  if ← a then b else return false

/-- `dbb_cfg_broadcast_mode`. -/
def dbbCfgBroadcastMode : M Bool :=
  andThen (atExpect (ascii "AT^MISWITCH=0") (ascii "OK")) <|
  andThen (atExpect (ascii "AT^BMCARDSWITCH=0") (ascii "OK")) <|
  andThen (atExpect (ascii "AT^DUMMYUSIM=1") (ascii "OK")) do
    let _ ← atExpect (ascii "AT^BBICRSTSW=1") none
    andThen (atExpect (ascii "AT^SSRINFOXW=1") (ascii "OK"))
      (atExpect (ascii "AT+CFUN=1") (ascii "OK"))

/-- `dbb_cfg_normal_mode`. -/
def dbbCfgNormalMode : M Bool :=
  andThen (atExpect (ascii "AT^MISWITCH=1") (ascii "OK")) <|
  andThen (atExpect (ascii "AT^BMCARDSWITCH=1") (ascii "OK")) do
    let _ ← atExpect (ascii "AT^BBICRSTSW=0") none
    return true

/-- An operation that leads to the next status when it succeeds. -/
def advance (op : M Bool) (next : Status) : M Unit := do
  if ← op then setStatus next

/-- The switch of `dbb_online_func` in broadcast mode. -/
def broadcastSwitch : Status → M Unit
  | .idle => return ()
  | .onlineBroadcast => dbbOnlineBroadcastService
  | .powerOff => setStatus .idle
  | .psdataOk => setStatus .init
  | .init | .powerOn | .simReady | .cfunOk | .cregOk | .cnmiOk | .dsciOk | .cgdcontOk
  | .waitCregxw | .waitCrev | .waitCireg | .online =>
      advance dbbCfgBroadcastMode .onlineBroadcast

/-- The switch of `dbb_online_func` in normal mode. -/
def normalSwitch (utf8ToUcs2be : List UInt8 → Option (List UInt8)) : Status → M Unit
  | .idle => return ()
  | .onlineBroadcast => advance dbbCfgNormalMode .init
  | .init => setStatus .powerOn
  | .powerOn => advance (atExpect (ascii "AT+CIMI") (ascii "OK")) .simReady
  | .simReady => advance (atExpect (ascii "AT+CFUN=5") (ascii "OK")) .cfunOk
  | .cfunOk => advance (atExpect (ascii "AT+CREG=1") (ascii "OK")) .cregOk
  | .cregOk => advance (atExpect (ascii "AT+CNMI=2,2,0,1,0") (ascii "OK")) .cnmiOk
  | .cnmiOk => advance (atExpect (ascii "AT+DSCI=1") (ascii "OK")) .dsciOk
  | .dsciOk => advance (atExpect (ascii "AT+CGDCONT=1,\"IP\"") (ascii "OK")) .cgdcontOk
  | .cgdcontOk => advance (atExpect (ascii "AT^PSDATA=2") (ascii "OK")) .waitCregxw
  | .waitCregxw => advance (atExpect (ascii "AT+CREGXW?") (ascii "+CREGXW:1")) .waitCrev
  | .waitCrev => advance (waitForText (ascii "+CREV: ME PDN ACT 1")) .waitCireg
  | .waitCireg => advance (atExpect (ascii "AT+CIREG?") (ascii "+CIREG:1")) .online
  | .online => dbbOnlineService utf8ToUcs2be
  | .powerOff => setStatus .idle
  | .psdataOk => setStatus .init

/-- `dbb_online_func`. -/
def dbbOnlineFunc (utf8ToUcs2be : List UInt8 → Option (List UInt8)) : M Unit := do
  let ctrl ← getCtrl
  if ctrl.mode = .broadcast then broadcastSwitch ctrl.status
  else normalSwitch utf8ToUcs2be ctrl.status

/-- One round of the loop: the mode as it is at its start, and the answers to its
requests. -/
structure Round where
  mode : WorkMode
  answers : List Answer

/-- A round of `dbb_thread_func`. -/
def round (utf8ToUcs2be : List UInt8 → Option (List UInt8)) (w : World) (r : Round) : World :=
  let w := { w with ctrl := { w.ctrl with mode := r.mode }, answers := r.answers }
  (dbbOnlineFunc utf8ToUcs2be w).2

end Ok3506.Dbb
