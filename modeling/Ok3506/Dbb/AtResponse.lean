import Ok3506.At.Port

/-!
AT exchanges with the DBB module.

A function that talks to the module is given what the port answers, and returns
its outcome: whether it returned 0, what it wrote and what each of its captures
left in the response buffer.
-/

namespace Ok3506.Dbb

open CString At

/-- `DBB_MAX_RESPONSE`. -/
def maxResponse : Nat := 2048

/-- `DBB_AT_TIMEOUT_MS`. -/
def atTimeoutMs : Nat := 2000

/-- What a function has done at the port when it returns. -/
structure Exchange where
  ok : Bool
  written : List UInt8 := []
  captured : List Captured := []
  deriving DecidableEq, Repr

/-- `dbb_capture_response`, whose command has to fit `command[256]` with its CR. -/
def dbbCaptureResponse (cmd : Option (List UInt8)) (responseSize timeoutMs : Nat)
    (answer : PortAnswer) : Captured × List UInt8 :=
  capture 256 responseSize timeoutMs cmd answer

/-- `dbb_at_expect`. -/
def dbbAtExpect (cmd : List UInt8) (expect : Option (List UInt8)) (answer : PortAnswer) :
    Exchange :=
  let (captured, written) := dbbCaptureResponse (some cmd) maxResponse atTimeoutMs answer
  let response := cstr captured.used
  let ok := captured.ret = 0 ∧ contains response (ascii "OK") ∧
    ∀ text ∈ expect, contains response text
  { ok, written, captured := [captured] }

/-- `dbb_wait_for_text`. -/
def dbbWaitForText (expect : List UInt8) (responseSize timeoutMs : Nat) (answer : PortAnswer) :
    Exchange :=
  if expect = [] then { ok := false }
  else
    let (captured, written) := dbbCaptureResponse none responseSize timeoutMs answer
    let ok := captured.ret = 0 ∧ contains (cstr captured.used) expect
    { ok, written, captured := [captured] }

end Ok3506.Dbb
