import Ok3506.Lib.Memory
import Ok3506.Dbb.Codec

/-!
Unsolicited result codes of the DBB module.

`dbb_handle_urc_blob` is given everything that one capture collected. It keeps the
last downlink message in `dbb_ctrl` and forwards SSR corrections to the GNSS
receiver; the SMS and network event handlers only print.
-/

namespace Ok3506.Dbb

open CString

/-- `"`. -/
def quote : UInt8 := 34

/-! ### Downlink data -/

/-- The members of `dbb_ctrl` that hold the last message. -/
structure Downlink where
  raw : Mem := fun _ => 0
  rawLen : Nat := 0
  text : Mem := fun _ => 0

def dlnetdataPrefix : List UInt8 := ascii "+DLNETDATA="

/-- What the three conversions of a `+DLNETDATA` record yield, and the text behind
the payload; the closing quote of the format is no conversion. -/
structure DlRecord where
  datalen : Int
  chset : List UInt8
  datastr : List UInt8
  rest : List UInt8
  deriving DecidableEq, Repr

/-- `sscanf(p, "+DLNETDATA=%d,\"%15[^\"]\",\"%1023[^\"]\"", ...) == 3`. -/
def scanDlnetdata (p : List UInt8) : Option DlRecord := do
  let p ← scanText dlnetdataPrefix p
  let (datalen, p) ← scanInt p
  let p ← scanText (ascii ",\"") p
  let (chset, p) ← scanNot quote 15 p
  let p ← scanText (ascii "\",\"") p
  let (datastr, rest) ← scanNot quote 1023 p
  return { datalen, chset, datastr, rest }

/-- `tolower` in the C locale. -/
def tolower (c : UInt8) : UInt8 := if 65 ≤ c ∧ c ≤ 90 then c + 32 else c

/-- `strcasecmp(a, b) == 0`. -/
def strcasecmpEq (a b : List UInt8) : Bool := a.map tolower == b.map tolower

/-- The decoder that the charset selects, on `downlink_raw[1024]`. -/
def DlRecord.decode (record : DlRecord) : Written :=
  if strcasecmpEq record.chset (ascii "HEX") then hexToBytes record.datastr 1024
  else if strcasecmpEq record.chset (ascii "BASE64") then dbbBase64Decode record.datastr 1024
  else ⟨[], false⟩

/-- One iteration of `dbb_handle_dlnetdata`: what the decoder has written into
`downlink_raw` stays there when it fails. -/
def dlnetdataRecord (downlink : Downlink) (p : List UInt8) : Downlink :=
  match scanDlnetdata p with
  | none => downlink
  | some record =>
      let decoded := record.decode
      let raw := Mem.ofList decoded.bytes downlink.raw
      if decoded.ok then
        let rawLen := decoded.bytes.length
        if rawLen < 1025 then
          { raw, rawLen, text := ((downlink.text.copy 0 raw rawLen).store8 rawLen 0) }
        else { raw, rawLen, text := downlink.text.store8 0 0 }
      else { downlink with raw }

/-- The loop of `dbb_handle_dlnetdata`; `p` moves on by 11 characters each time. -/
def dlnetdataLoop : Nat → List UInt8 → Downlink → Downlink
  | 0, _, downlink => downlink
  | fuel + 1, p, downlink =>
      match strstr dlnetdataPrefix p with
      | none => downlink
      | some p => dlnetdataLoop fuel (p.drop 11) (dlnetdataRecord downlink p)

/-- `dbb_handle_dlnetdata`. -/
def dbbHandleDlnetdata (urc : List UInt8) (downlink : Downlink) : Downlink :=
  dlnetdataLoop (urc.length + 1) urc downlink

/-! ### SSR corrections -/

/-- `gnss_ctrl.calcType`. -/
inductive GnssCalcType where
  | fppp
  | dppp
  | ppp
  | rtk
  | rtd
  | bdsPpp
  | bdsRtk
  | bdsRtd
  deriving DecidableEq, Repr

def ssrinfoxwPrefix : List UInt8 := ascii "^SSRINFOXW:"

/-- The first quoted string in `line`: from one quote to the next. -/
def quoted (line : List UInt8) : Option (List UInt8) := do
  let payloadStart ← strchr quote line
  let payloadEnd ← strchr quote payloadStart.tail
  return payloadStart.tail.take (payloadStart.tail.length - payloadEnd.length)

/-- `dbb_handle_ssrinfoxw`: the buffers that it passes to `gnss_dev_write`. -/
def dbbHandleSsrinfoxw (calcType : GnssCalcType) (urc : List UInt8) : List (List UInt8) :=
  match strstr ssrinfoxwPrefix urc with
  | none => []
  | some line =>
      match quoted line with
      | none => []
      | some payload =>
          if payload.length = 0 ∨ 2048 ≤ payload.length then []
          else
            let raw := hexToBytes payload 2048
            if raw.ok = false then []
            else if calcType = .dppp then [raw.bytes]
            else []

/-! ### All of them -/

/-- `dbb_handle_urc_blob`: the message that is kept, and what is forwarded. -/
def dbbHandleUrcBlob (calcType : GnssCalcType) (urc : List UInt8) (downlink : Downlink) :
    Downlink × List (List UInt8) :=
  if urc = [] then (downlink, [])
  else (dbbHandleDlnetdata urc downlink, dbbHandleSsrinfoxw calcType urc)

/-! ### The records of a text -/

theorem dlnetdataPrefix_eq :
    dlnetdataPrefix = 43 :: ascii "DLNETDATA=" ∧ 43 ∉ ascii "DLNETDATA=" := by decide

/-- The loop takes the records in order of appearance. -/
theorem dlnetdataLoop_eq {fuel : Nat} {p : List UInt8} (enough : p.length < fuel)
    (downlink : Downlink) :
    dlnetdataLoop fuel p downlink =
      (occurrences dlnetdataPrefix p).foldl dlnetdataRecord downlink := by
  obtain ⟨shape, own⟩ := dlnetdataPrefix_eq
  induction fuel generalizing p downlink with
  | zero => omega
  | succ fuel ih =>
      unfold dlnetdataLoop
      cases found : strstr dlnetdataPrefix p with
      | none =>
          rw [occurrences_of_strstr_eq_none (by decide) found]
          rfl
      | some q =>
          have long := length_of_strstr_eq_some found
          rw [shape] at found long
          have eleven : (43 :: ascii "DLNETDATA=").length = 11 := by decide
          rw [eleven] at long
          have step := occurrences_of_strstr_eq_some own found
          rw [eleven, ← shape] at step
          rw [step, List.foldl_cons]
          exact ih (by rw [List.length_drop]; omega) _

theorem dbbHandleDlnetdata_eq (urc : List UInt8) (downlink : Downlink) :
    dbbHandleDlnetdata urc downlink =
      (occurrences dlnetdataPrefix urc).foldl dlnetdataRecord downlink :=
  dlnetdataLoop_eq (Nat.lt_succ_self _) downlink

/-- The message of a call of `dbb_handle_urc_blob`. -/
theorem downlink_dbbHandleUrcBlob (calcType : GnssCalcType) (urc : List UInt8)
    (downlink : Downlink) :
    (dbbHandleUrcBlob calcType urc downlink).1 = dbbHandleDlnetdata urc downlink := by
  unfold dbbHandleUrcBlob
  split
  · rename_i empty
    rw [dbbHandleDlnetdata_eq, empty]
    rfl
  · rfl

end Ok3506.Dbb
