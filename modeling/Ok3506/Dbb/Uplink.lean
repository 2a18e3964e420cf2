import Ok3506.Dbb.AtResponse
import Ok3506.Dbb.Codec

/-!
Sending data over the uplink.

Three buffers bound one message: the encoded payload has 1536 bytes, the command
1088, and the command with its CR once more 256 in `dbb_capture_response`. A
message between the last two limits passes every check of `dbb_send_uplink` and
is not sent.
-/

namespace Ok3506.Dbb

open CString At

/-- `dbb_data_codec_t`. -/
inductive DataCodec where
  | hex
  | base64
  deriving DecidableEq, Repr

/-- What `dbb_data_prepare_uplink` hands out. -/
structure Uplink where
  payload : List UInt8
  rawLen : Nat
  chset : List UInt8
  deriving DecidableEq, Repr

/-- `dbb_data_prepare_uplink`. -/
def dbbDataPrepareUplink (rawInput : List UInt8) (codec : DataCodec) (payloadOutSize : Nat) :
    Option Uplink :=
  if 0 < rawInput.length then
    match codec with
    | .base64 =>
        (dbbBase64Encode rawInput payloadOutSize).map fun payload =>
          ⟨payload, rawInput.length, ascii "BASE64"⟩
    | .hex =>
        (dbbHexEncode rawInput payloadOutSize).map fun payload =>
          ⟨payload, rawInput.length, ascii "HEX"⟩
  else none

/-- The text that is printed into `command[1088]`. -/
def Uplink.command (uplink : Uplink) : List UInt8 :=
  ascii "AT+ULNETDATA=" ++ decimal uplink.rawLen ++ ascii ",\"" ++ uplink.chset ++
    ascii "\",\"" ++ uplink.payload ++ ascii "\""

/-- `dbb_send_uplink`. -/
def dbbSendUplink (rawPayload : List UInt8) (codec : DataCodec) (answer : PortAnswer) : Exchange :=
  match dbbDataPrepareUplink rawPayload codec 1536 with
  | none => { ok := false }
  | some uplink =>
      if 1088 ≤ uplink.command.length then { ok := false }
      else dbbAtExpect uplink.command none answer

/-- The decoder of a codec, `hex_to_bytes` or `dbb_base64_decode`. -/
def DataCodec.decoder : DataCodec → List UInt8 → Nat → Written
  | .hex => hexToBytes
  | .base64 => dbbBase64Decode

/-- The name of a codec in a command. -/
def DataCodec.chset : DataCodec → List UInt8
  | .hex => ascii "HEX"
  | .base64 => ascii "BASE64"

/-- The module has been sent a message: the whole command with its CR, from whose
quoted payload the codec's decoder gets the message back. -/
def SentWhole (message : List UInt8) (codec : DataCodec) (written : List UInt8) : Prop :=
  ∃ encoded,
    written = ascii "AT+ULNETDATA=" ++ decimal message.length ++ ascii ",\"" ++ codec.chset ++
      ascii "\",\"" ++ encoded ++ ascii "\"" ++ [13] ∧
    ∀ size, message.length ≤ size → codec.decoder encoded size = ⟨message, true⟩

/-- The longest message whose command and CR fit `command[256]`. -/
def DataCodec.sendable : DataCodec → Nat
  | .hex => 114
  | .base64 => 168

/-- The characters that encode a message. -/
def DataCodec.encodedLength : DataCodec → Nat → Nat
  | .hex, n => 2 * n
  | .base64, n => (n + 2) / 3 * 4

section Prepared

variable {message : List UInt8} {codec : DataCodec} {u : Uplink}

/-- What a prepared uplink holds. -/
theorem prepared_spec (prepared : dbbDataPrepareUplink message codec 1536 = some u) :
    0 < message.length ∧ u.rawLen = message.length ∧ u.chset = codec.chset ∧
      u.payload.length = codec.encodedLength message.length ∧
      ∀ size, message.length ≤ size → codec.decoder u.payload size = ⟨message, true⟩ := by
  unfold dbbDataPrepareUplink at prepared
  split at prepared
  · rename_i some_bytes
    cases codec with
    | base64 =>
        simp only [dbbBase64Encode_eq, Option.map_eq_some_iff, Option.ite_none_left_eq_some,
          Option.some.injEq] at prepared
        obtain ⟨_, ⟨-, rfl⟩, rfl⟩ := prepared
        exact ⟨some_bytes, rfl, rfl, Base64.length_encode message,
          fun size room => dbbBase64Decode_encode room⟩
    | hex =>
        simp only [dbbHexEncode_eq, Option.map_eq_some_iff, Option.ite_none_left_eq_some,
          Option.some.injEq] at prepared
        obtain ⟨_, ⟨-, rfl⟩, rfl⟩ := prepared
        exact ⟨some_bytes, rfl, rfl, Hex.length_encode message,
          fun size room => hexToBytes_encode (List.ne_nil_of_length_pos some_bytes) room⟩
  · cases prepared

/-- The command with its CR fits `command[256]` exactly up to `sendable` bytes. -/
theorem command_fits_iff (prepared : dbbDataPrepareUplink message codec 1536 = some u) :
    u.command.length + 1 < 256 ↔ message.length ≤ codec.sendable := by
  obtain ⟨some_bytes, rawLen, chset, encoded, -⟩ := prepared_spec prepared
  have one := length_decimal_pos message.length
  have two := length_decimal_le_iff (n := message.length) (k := 2) (by decide)
  have three := length_decimal_le_iff (n := message.length) (k := 3) (by decide)
  simp only [Uplink.command, List.length_append, rawLen, chset, encoded]
  cases codec with
  | hex =>
      have fixed : (ascii "AT+ULNETDATA=").length = 13 ∧ (ascii ",\"").length = 2 ∧
        DataCodec.hex.chset.length = 3 ∧ (ascii "\",\"").length = 3 ∧
        (ascii "\"").length = 1 := by decide
      simp only [fixed, DataCodec.encodedLength, DataCodec.sendable]
      omega
  | base64 =>
      have fixed : (ascii "AT+ULNETDATA=").length = 13 ∧ (ascii ",\"").length = 2 ∧
        DataCodec.base64.chset.length = 6 ∧ (ascii "\",\"").length = 3 ∧
        (ascii "\"").length = 1 := by decide
      simp only [fixed, DataCodec.encodedLength, DataCodec.sendable]
      omega

theorem written_dbbSendUplink {answer : PortAnswer}
    (prepared : dbbDataPrepareUplink message codec 1536 = some u)
    (fits : u.command.length < 1088) (accepts : Accepts answer.write) :
    (dbbSendUplink message codec answer).written =
      if u.command.length + 1 < 256 then u.command ++ [13] else [] := by
  simp only [dbbSendUplink, prepared, not_le.mpr fits, if_false, dbbAtExpect,
    dbbCaptureResponse, written_capture accepts]
  by_cases short : u.command.length + 1 < 256
  · rw [if_neg (by omega), if_pos short]
  · rw [if_pos (by omega), if_neg short]

/-- **Sending.** A message that passes the size checks of `dbb_send_uplink` is
sent whole exactly when its command fits the third buffer as well. -/
theorem sent_whole_iff {answer : PortAnswer}
    (prepared : dbbDataPrepareUplink message codec 1536 = some u)
    (fits : u.command.length < 1088) (accepts : Accepts answer.write) :
    SentWhole message codec (dbbSendUplink message codec answer).written ↔
      message.length ≤ codec.sendable := by
  obtain ⟨-, rawLen, chset, -, decodes⟩ := prepared_spec prepared
  rw [written_dbbSendUplink prepared fits accepts, ← command_fits_iff prepared]
  constructor
  · rintro ⟨encoded, written, -⟩
    by_contra long
    rw [if_neg long] at written
    exact absurd written.symm (by simp)
  · intro short
    refine ⟨u.payload, ?_, decodes⟩
    rw [if_pos short, Uplink.command, rawLen, chset]

end Prepared

/-- `demo_uplink_raw` of `dbb_online_service`. -/
def demoUplinkRaw : List UInt8 := ascii "DBB-UP-DEMO"

theorem sent_whole_iff_demo :
    SentWhole demoUplinkRaw .base64 (dbbSendUplink demoUplinkRaw .base64 {}).written ↔
      demoUplinkRaw.length ≤ DataCodec.base64.sendable :=
  sent_whole_iff (u := ⟨ascii "REJCLVVQLURFTU8=", 11, ascii "BASE64"⟩) (by decide +kernel)
    (by decide +kernel) (fun _ member => nomatch member)

/-- 115 bytes in hex pass the checks of `dbb_send_uplink`, and nothing is written. -/
theorem long_message_not_sent :
    ∃ uplink, dbbDataPrepareUplink (List.replicate 115 0) .hex 1536 = some uplink ∧
      uplink.command.length < 1088 ∧ Accepts ({} : PortAnswer).write ∧
      ¬ SentWhole (List.replicate 115 0) .hex
        (dbbSendUplink (List.replicate 115 0) .hex {}).written := by
  refine ⟨⟨List.replicate 230 48, 115, ascii "HEX"⟩, by decide +kernel, by decide +kernel,
    fun _ member => (nomatch member), ?_⟩
  have nothing : (dbbSendUplink (List.replicate 115 0) .hex {}).written = [] := by
    decide +kernel
  rw [nothing]
  rintro ⟨encoded, written, -⟩
  exact absurd written.symm (by simp)

end Ok3506.Dbb
