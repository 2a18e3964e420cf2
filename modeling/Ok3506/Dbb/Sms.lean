import Ok3506.Dbb.AtResponse
import Ok3506.Dbb.Codec

/-!
Sending a short message through the DBB module.

The PDU is built from the number in BCD and the text in UCS-2; `iconv` is not part
of the program, and what it makes of a text is a parameter.
-/

namespace Ok3506.Dbb

open CString At

/-! ### The PDU -/

/-- `bytes_to_hex`, the same loop as `dbb_hex_encode`. -/
def bytesToHex (data : List UInt8) (hexOutSize : Nat) : Option (List UInt8) :=
  dbbHexEncode data hexOutSize

/-- A telephone number in a PDU. -/
structure BcdNumber where
  bcd : List UInt8
  digitsLen : UInt8
  toa : UInt8
  deriving DecidableEq, Repr

/-- The first loop of `encode_bcd_number`: `digits[32]` and `*toa`. -/
def bcdDigits : List UInt8 → List UInt8 → UInt8 → Option (List UInt8 × UInt8)
  | [], digits, toa => some (digits, toa)
  | c :: number, digits, toa =>
      if c = 43 then bcdDigits number digits 0x91
      else if ¬ isdigit c then none
      else if 31 ≤ digits.length then none
      else bcdDigits number (digits ++ [c]) toa

/-- The second loop of `encode_bcd_number`: two digits in a byte, the first one low. -/
def bcdPairs : List UInt8 → List UInt8
  | [] => []
  | [low] => [((0x0F : UInt8) <<< 4) ||| (low - 48)]
  | low :: high :: digits => (((high - 48) <<< 4) ||| (low - 48)) :: bcdPairs digits

/-- `encode_bcd_number`, called with `*toa = toa`. -/
def encodeBcdNumber (number : List UInt8) (bcdOutSize : Nat) (toa : UInt8) : Option BcdNumber := do
  let (digits, toa) ← bcdDigits number [] toa
  if digits.length = 0 then none
  let toa : UInt8 :=
    if toa ≠ 0x91 then
      if 11 ≤ digits.length ∧ digits.getD 0 0 = 56 ∧ digits.getD 1 0 = 54 then 0x91 else 0x81
    else toa
  if bcdOutSize < (digits.length + 1) / 2 then none
  return { bcd := bcdPairs digits, digitsLen := UInt8.ofNat digits.length, toa }

/-- `dbb_build_sms_submit_pdu`: the PDU in hex and `*cmgs_len`. The conversion fails
where the result does not fit `ud[140]`. -/
def dbbBuildSmsSubmitPdu (utf8ToUcs2be : List UInt8 → Option (List UInt8))
    (target text : List UInt8) (pduHexSize : Nat) : Option (List UInt8 × Nat) := do
  let da ← encodeBcdNumber target 16 0
  let ud ← utf8ToUcs2be text
  if 140 < ud.length then none
  let pdu := [0x00, 0x01, 0x00, da.digitsLen, da.toa] ++ da.bcd ++
    [0x00, 0x08, UInt8.ofNat ud.length] ++ ud
  let pduHex ← bytesToHex pdu pduHexSize
  return (pduHex, pdu.length - 1)

/-! ### The exchange -/

/-- What the port answers while a message is sent. -/
structure SmsAnswer where
  prompt : PortAnswer := {}
  pdu : List WriteEvent := []
  endChar : List WriteEvent := []
  result : PortAnswer := {}

/-- `dbb_send_sms`. -/
def dbbSendSms (utf8ToUcs2be : List UInt8 → Option (List UInt8)) (target text : List UInt8)
    (answer : SmsAnswer) : Exchange :=
  match dbbBuildSmsSubmitPdu utf8ToUcs2be target text 512 with
  | none => { ok := false }
  | some (pduHex, cmgsLen) =>
      let command := ascii "AT+CMGS=" ++ decimal cmgsLen
      let (prompt, written) :=
        dbbCaptureResponse (some command) maxResponse atTimeoutMs answer.prompt
      if prompt.ret ≠ 0 ∨ strchr 62 (cstr prompt.used) = none then
        { ok := false, written, captured := [prompt] }
      else
        let (ok, writtenPdu) := writeAll answer.pdu pduHex
        if ok = false then
          { ok := false, written := written ++ writtenPdu, captured := [prompt] }
        else
          let (ok, writtenEnd) := writeAll answer.endChar [0x1A]
          let written := written ++ writtenPdu ++ writtenEnd
          if ok = false then { ok := false, written, captured := [prompt] }
          else
            let (result, _) := dbbCaptureResponse none maxResponse 10000 answer.result
            let response := cstr result.used
            let ok := result.ret = 0 ∧ contains response (ascii "OK") ∧
              contains response (ascii "+CMGS:")
            { ok, written, captured := [prompt, result] }

end Ok3506.Dbb
