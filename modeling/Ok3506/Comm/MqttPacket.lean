import Ok3506.Lib.Bits
import Ok3506.Lib.Mqtt
import Ok3506.At.Port

/-!
The packets that `comm_mqtt.c` sends.

`comm_mqtt_send_connect` and `comm_mqtt_send_publish_fd` put a packet together in a
buffer on the stack, store by store behind a cursor, and write it out. What they
write is a CONNECT or a PUBLISH that the parser of MQTT 3.1.1 reads back, and the
stores stay inside the buffer. The guard of the PUBLISH counts two bytes of fixed
header although there may be three; the strict comparison makes up for the third.
-/

namespace Ok3506.Comm

open CString Mem Bits Reader

/-! ### The encoders -/

/-- The string in a `char[size]`. -/
structure CharArray (size : Nat) where
  text : List UInt8
  solid : 0 ∉ text
  fits : text.length < size

/-- What the packets need of `comm_mqtt_config_t`. -/
structure CommMqttConfig where
  clientId : CharArray 64
  topic : CharArray 128
  keepalive : UInt32

/-- The configuration that `g_comm_mqtt_ctx` starts with. -/
def defaultConfig : CommMqttConfig where
  clientId := ⟨ascii "ok3506-demo", by decide, by decide⟩
  topic := ⟨ascii "ok3506/demo/status", by decide, by decide⟩
  keepalive := 30

/-- `packet` and `cursor`. -/
structure PacketCursor where
  packet : Mem
  cursor : Nat

namespace PacketCursor

/-- `*cursor++ = b`. -/
def put (c : PacketCursor) (b : UInt8) : PacketCursor := ⟨c.packet.store8 c.cursor b, c.cursor + 1⟩

/-- `cursor += f(cursor)`, with what `f` stores and returns. -/
def advance (c : PacketCursor) (f : PacketCursor → Mem × Nat) : PacketCursor :=
  ⟨(f c).1, c.cursor + (f c).2⟩

end PacketCursor

/-- The loop of `comm_mqtt_encode_remaining_length`, with `room = 4 - index`. -/
def remainingLengthLoop (cursor : Nat) : Nat → Mem → Nat → Nat → Mem × Nat
  | 0, packet, _, index => (packet, index)
  | room + 1, packet, length, index =>
      let encoded := UInt8.ofNat (length % 128)
      let length := length / 128
      let encoded := if 0 < length then encoded ||| 0x80 else encoded
      let packet := packet.store8 (cursor + index) encoded
      if 0 < length then remainingLengthLoop cursor room packet length (index + 1)
      else (packet, index + 1)

/-- `comm_mqtt_encode_remaining_length` at the cursor. -/
def commMqttEncodeRemainingLength (length : Nat) (buf : PacketCursor) : Mem × Nat :=
  remainingLengthLoop buf.cursor 4 buf.packet length 0

/-- `comm_mqtt_put_utf8` at the cursor. -/
def commMqttPutUtf8 (offset : Nat) (text : List UInt8) (buf : PacketCursor) : Mem × Nat :=
  let len := text.length
  let packet := buf.packet.store8 (buf.cursor + offset) (UInt8.ofNat ((len >>> 8) &&& 0xFF))
  let packet := packet.store8 (buf.cursor + (offset + 1)) (UInt8.ofNat (len &&& 0xFF))
  let packet := packet.copy (buf.cursor + (offset + 2)) (zeroPadded text) len
  (packet, offset + 2 + len)

/-! ### Sending -/

inductive Errno where
  | einval
  | emsgsize
  deriving DecidableEq, Repr

/-- What a call returns, the `errno` it sets itself, its buffer at the end and the
bytes it sends. -/
structure MqttSent where
  ret : Int
  errno : Option Errno
  packet : Mem
  sent : List UInt8

/-- `comm_mqtt_write_all`. -/
def commMqttWriteAll (answers : List At.WriteEvent) (buf : Mem) (len : Nat) : MqttSent :=
  let (ok, sent) := At.writeAll answers (buf.bytes 0 len)
  ⟨if ok then 0 else -1, none, buf, sent⟩

/-- `comm_mqtt_send_connect`, on a stack with any contents. -/
def commMqttSendConnect (config : CommMqttConfig) (stack : Mem) (answers : List At.WriteEvent) :
    MqttSent :=
  let clientIdLen := config.clientId.text.length
  let payloadLen := 2 + clientIdLen
  let remainingLen := 10 + payloadLen
  let keepalive := config.keepalive.toNat
  let c := (⟨stack, 0⟩ : PacketCursor).put 0x10
  let c := c.advance (commMqttEncodeRemainingLength remainingLen)
  let c := (((c.put 0x00).put 0x04).put 77).put 81
  let c := (((c.put 84).put 84).put 0x04).put 0x02
  let c := c.put (UInt8.ofNat ((keepalive >>> 8) &&& 0xFF))
  let c := c.put (UInt8.ofNat (keepalive &&& 0xFF))
  let c := c.advance (commMqttPutUtf8 0 config.clientId.text)
  commMqttWriteAll answers c.packet c.cursor

/-- `comm_mqtt_send_publish_fd`, on a stack with any contents. -/
def commMqttSendPublishFd (config : CommMqttConfig) (payload : Option Mem) (len : Nat)
    (stack : Mem) (answers : List At.WriteEvent) : MqttSent :=
  match payload with
  | none => ⟨-1, some .einval, stack, []⟩
  | some payload =>
      if len = 0 then ⟨-1, some .einval, stack, []⟩
      else
        let topicLen := config.topic.text.length
        let remainingLen := sizeT (2 + topicLen + len)
        if 512 ≤ sizeT (remainingLen + 2) then ⟨-1, some .emsgsize, stack, []⟩
        else
          let c := (⟨stack, 0⟩ : PacketCursor).put 0x30
          let c := c.advance (commMqttEncodeRemainingLength remainingLen)
          let c := c.advance (commMqttPutUtf8 0 config.topic.text)
          let packet := c.packet.copy c.cursor payload len
          let cursor := c.cursor + len
          commMqttWriteAll answers packet cursor

/-- `comm_mqtt_send_pingreq`. -/
def commMqttSendPingreq (stack : Mem) (answers : List At.WriteEvent) : MqttSent :=
  commMqttWriteAll answers (ofList [0xC0, 0x00] stack) 2

/-- A message: the bytes of an object, which has some and at most `PTRDIFF_MAX`. -/
structure Payload where
  bytes : List UInt8
  nonempty : bytes ≠ []
  small : bytes.length < 2 ^ 63

/-- The message does not pass the guard of `comm_mqtt_send_publish_fd`. -/
def TooLong (config : CommMqttConfig) (payload : Payload) : Prop :=
  512 ≤ 2 + config.topic.text.length + payload.bytes.length + 2

instance (config : CommMqttConfig) (payload : Payload) : Decidable (TooLong config payload) :=
  inferInstanceAs (Decidable (_ ≤ _))

/-! ### What is put together -/

/-- The cursor behind the bytes `l` at the start of the buffer. -/
def PacketCursor.behind (l : List UInt8) (stack : Mem) : PacketCursor := ⟨ofList l stack, l.length⟩

open PacketCursor

variable (l : List UInt8) (stack : Mem)

theorem put_behind (b : UInt8) : (behind l stack).put b = behind (l ++ [b]) stack := by
  rw [put, behind, behind, store8_ofList, List.length_append, List.length_singleton]

/-- The byte of a digit, with the mark of all digits but the last. -/
theorem marked_digit {d : Nat} (digit : d < 128) :
    UInt8.ofNat d ||| 0x80 = UInt8.ofNat (d + 128) := by
  have all : ∀ d < 128, UInt8.ofNat d ||| 0x80 = UInt8.ofNat (d + 128) := by decide
  exact all d digit

/-- The loop stores the digits behind those it has stored. -/
theorem remainingLengthLoop_eq (room n index : Nat) (code : List UInt8)
    (here : code.length = index) :
    remainingLengthLoop l.length room (ofList (l ++ code) stack) n index =
      (ofList (l ++ (code ++ varintBytes room n)) stack,
        (code ++ varintBytes room n).length) := by
  induction room generalizing n index code with
  | zero => rw [remainingLengthLoop, varintBytes, List.append_nil, here]
  | succ room ih =>
      have at_end : l.length + index = (l ++ code).length := by rw [List.length_append, here]
      have grown (b : UInt8) : (code ++ [b]).length = index + 1 := by
        rw [List.length_append, here, List.length_singleton]
      simp only [remainingLengthLoop, at_end, store8_ofList, List.append_assoc]
      by_cases last : n < 128
      · have none_left : n / 128 = 0 := Nat.div_eq_of_lt last
        rw [none_left, if_neg (Nat.lt_irrefl 0), if_neg (Nat.lt_irrefl 0),
          Nat.mod_eq_of_lt last, varintBytes, if_pos last, grown]
      · have some_left : 0 < n / 128 := Nat.div_pos (Nat.not_lt.mp last) (by decide)
        rw [if_pos some_left, if_pos some_left, varintBytes, if_neg last,
          marked_digit (Nat.mod_lt n (by decide)), ih _ _ _ (grown _), List.append_assoc,
          List.singleton_append]

theorem encode_behind (n : Nat) :
    (behind l stack).advance (commMqttEncodeRemainingLength n) =
      behind (l ++ varintBytes 4 n) stack := by
  have stored := remainingLengthLoop_eq l stack 4 n 0 [] rfl
  rw [List.append_nil, List.nil_append] at stored
  simp only [advance, commMqttEncodeRemainingLength, behind, stored, List.length_append]

/-- The two bytes of a word, as the code takes them out of it. -/
theorem high_low (n : Nat) :
    [UInt8.ofNat ((n >>> 8) &&& 0xFF), UInt8.ofNat (n &&& 0xFF)] = wordBytes n := by
  have byte (k : Nat) : UInt8.ofNat (k &&& 0xFF) = UInt8.ofNat k := by
    rw [← UInt8.toNat_inj, UInt8.toNat_ofNat', UInt8.toNat_ofNat',
      Nat.and_two_pow_sub_one_eq_mod k 8]
    exact Nat.mod_mod k 256
  rw [byte, byte, Nat.shiftRight_eq_div_pow]
  rfl

theorem putUtf8_behind (text : List UInt8) :
    (behind l stack).advance (commMqttPutUtf8 0 text) =
      behind (l ++ stringBytes text) stack := by
  have two : l.length + 2 = (l ++ wordBytes text.length).length := by
    rw [List.length_append]
    rfl
  simp only [advance, commMqttPutUtf8, behind, Nat.add_zero, Nat.zero_add, store8_store8_ofList,
    high_low, stringBytes]
  rw [two, copy_ofList, List.append_assoc, List.length_append, List.length_append]
  rfl

/-- `comm_mqtt_send_connect` writes out a CONNECT. -/
theorem commMqttSendConnect_eq (config : CommMqttConfig) (answers : List At.WriteEvent) :
    let code := Mqtt.packetBytes 0x10
      (Mqtt.connectBody config.keepalive.toNat config.clientId.text)
    commMqttSendConnect config stack answers =
      commMqttWriteAll answers (ofList code stack) code.length := by
  have start : (⟨stack, 0⟩ : PacketCursor) = behind [] stack := rfl
  have length : 10 + (2 + config.clientId.text.length) =
      (Mqtt.connectBody config.keepalive.toNat config.clientId.text).length := by
    rw [Mqtt.length_connectBody]
    omega
  simp only [commMqttSendConnect, start, put_behind, encode_behind, putUtf8_behind, length]
  have name : stringBytes (ascii "MQTT") = [0, 4, 77, 81, 84, 84] := rfl
  simp only [Mqtt.packetBytes, Mqtt.connectBody, name, ← high_low config.keepalive.toNat]
  simp only [behind, List.append_assoc, List.nil_append, List.cons_append]

/-- `comm_mqtt_send_publish_fd` refuses a message by its length, or writes out a PUBLISH. -/
theorem commMqttSendPublishFd_eq (config : CommMqttConfig) (payload : Payload) (more : Mem)
    (answers : List At.WriteEvent) :
    let code := Mqtt.packetBytes 0x30 (Mqtt.publishBody config.topic.text payload.bytes)
    commMqttSendPublishFd config (some (ofList payload.bytes more)) payload.bytes.length stack
        answers =
      if TooLong config payload then ⟨-1, some .emsgsize, stack, []⟩
      else commMqttWriteAll answers (ofList code stack) code.length := by
  have start : (⟨stack, 0⟩ : PacketCursor) = behind [] stack := rfl
  have some_byte : payload.bytes.length ≠ 0 := List.length_eq_zero_iff.not.mpr payload.nonempty
  have small := payload.small
  have fits := config.topic.fits
  have length : sizeT (2 + config.topic.text.length + payload.bytes.length) =
      (Mqtt.publishBody config.topic.text payload.bytes).length := by
    rw [Mqtt.length_publishBody]
    exact Nat.mod_eq_of_lt (by omega)
  have guard : 512 ≤ sizeT ((Mqtt.publishBody config.topic.text payload.bytes).length + 2) ↔
      TooLong config payload := by
    rw [Mqtt.length_publishBody, sizeT, Nat.mod_eq_of_lt (by omega)]
    exact Iff.rfl
  simp only [commMqttSendPublishFd, if_neg some_byte, length, guard]
  split
  case isTrue => rfl
  case isFalse =>
    simp only [start, put_behind, encode_behind, putUtf8_behind]
    simp only [behind, copy_ofList, ← List.length_append, Mqtt.packetBytes, Mqtt.publishBody,
      List.append_assoc, List.nil_append]

/-! ### What arrives -/

/-- The call sends one packet. Its bytes fit the buffer, which is not left by a store, the
parser reads them to the last one, and they are sent from the front, all of them unless
the connection fails. -/
structure SendsPacket (p : Mqtt.Packet) (size : Nat) (stack : Mem)
    (answers : List At.WriteEvent) (done : MqttSent) : Prop where
  errno : done.errno = none
  inside : ∀ k, size ≤ k → done.packet k = stack k
  accepted : At.Accepts answers → done.ret = 0
  bytes : ∃ code, code.length ≤ size ∧ Mqtt.readPacket code = some (p, []) ∧
    done.sent <+: code ∧ (done.ret = 0 ↔ done.sent = code)

theorem sendsPacket_of_reads {code : List UInt8} {p : Mqtt.Packet} {size : Nat}
    (fits : code.length ≤ size) (read : Reads Mqtt.readPacket code p)
    (answers : List At.WriteEvent) :
    SendsPacket p size stack answers
      (commMqttWriteAll answers (ofList code stack) code.length) := by
  have ret : (commMqttWriteAll answers (ofList code stack) code.length).ret = 0 ↔
      (At.writeAll answers code).1 = true := by
    simp [commMqttWriteAll]
  have sent : (commMqttWriteAll answers (ofList code stack) code.length).sent =
      (At.writeAll answers code).2 := by
    simp [commMqttWriteAll]
  obtain ⟨front, all⟩ := At.writeAll_sent answers code
  constructor
  case errno => rfl
  case inside => exact fun k past => ofList_apply_ge stack (fits.trans past)
  case accepted => exact fun accepts => ret.mpr (by rw [At.writeAll_of_accepts accepts])
  case bytes =>
    have whole := read []
    rw [List.append_nil] at whole
    rw [ret, sent]
    exact ⟨code, fits, whole, front, all⟩

/-- A CONNECT has at most 77 bytes. -/
theorem commMqttSendConnect_sends (config : CommMqttConfig) (answers : List At.WriteEvent) :
    SendsPacket
      (.connect ⟨true, config.keepalive.toNat % 65536, config.clientId.text, none, none, none⟩)
      256 stack answers (commMqttSendConnect config stack answers) := by
  have length := Mqtt.length_connectBody config.keepalive.toNat config.clientId.text
  have idFits := config.clientId.fits
  have size := Mqtt.length_packetBytes_le 0 0x10
    (Mqtt.connectBody config.keepalive.toNat config.clientId.text) (by omega)
  rw [commMqttSendConnect_eq]
  exact sendsPacket_of_reads stack (by omega) (Mqtt.reads_connectPacket _ (by omega)) answers

example : (commMqttSendConnect defaultConfig (fun _ => 0) []).sent =
    [0x10, 23, 0, 4, 77, 81, 84, 84, 4, 2, 0, 30, 0, 11] ++ ascii "ok3506-demo" := by
  decide

theorem commMqttSendPingreq_sends (answers : List At.WriteEvent) :
    SendsPacket .pingreq 2 stack answers (commMqttSendPingreq stack answers) :=
  sendsPacket_of_reads stack (by decide) Mqtt.reads_pingreqPacket answers

/-- A PUBLISH that passes the guard: a body of at most 509 bytes behind at most three. -/
theorem commMqttSendPublishFd_sends {config : CommMqttConfig} {payload : Payload} (more : Mem)
    (answers : List At.WriteEvent) (short : ¬ TooLong config payload) :
    SendsPacket (.publish ⟨false, 0, false, config.topic.text, none, payload.bytes⟩) 512 stack
      answers (commMqttSendPublishFd config (some (ofList payload.bytes more))
        payload.bytes.length stack answers) := by
  have length := Mqtt.length_publishBody config.topic.text payload.bytes
  have topicFits := config.topic.fits
  have guard : ¬ 512 ≤ 2 + config.topic.text.length + payload.bytes.length + 2 := short
  have size := Mqtt.length_packetBytes_le 1 0x30
    (Mqtt.publishBody config.topic.text payload.bytes) (by omega)
  have read : Reads Mqtt.readPacket _ _ :=
    Mqtt.reads_publishPacket (show config.topic.text.length < 65536 by omega)
      (show payload.bytes.length < 2 ^ 27 by omega)
  rw [commMqttSendPublishFd_eq, if_neg short]
  exact sendsPacket_of_reads stack (by omega) read answers

/-- `comm_mqtt_encode_remaining_length` stores the digits at its pointer. -/
theorem commMqttEncodeRemainingLength_eq (n : Nat) (buf : PacketCursor) :
    commMqttEncodeRemainingLength n buf =
      (buf.packet.copy buf.cursor (zeroPadded (varintBytes 4 n)) (varintBytes 4 n).length,
        (varintBytes 4 n).length) := by
  obtain ⟨packet, cursor⟩ := buf
  have before := ofList_bytes packet cursor
  have length : (packet.bytes 0 cursor).length = cursor := bytes_length packet 0 cursor
  have stored := remainingLengthLoop_eq (packet.bytes 0 cursor) packet 4 n 0 [] rfl
  rw [List.append_nil, List.nil_append, ← copy_ofList _ _ _ fun _ => 0, before, length] at stored
  exact stored

/-- **The MQTT packets are well formed.** -/
theorem mqttPackets_wellFormed :
    (∀ (config : CommMqttConfig) (payload : Payload) (more stack : Mem)
      (answers : List At.WriteEvent),
      let done := commMqttSendPublishFd config (some (ofList payload.bytes more))
        payload.bytes.length stack answers
      (done.errno = some .emsgsize ↔
        512 ≤ 2 + config.topic.text.length + payload.bytes.length + 2) ∧
      (done.errno = some .emsgsize → done = ⟨-1, some .emsgsize, stack, []⟩) ∧
      (done.errno ≠ some .emsgsize →
        SendsPacket (.publish ⟨false, 0, false, config.topic.text, none, payload.bytes⟩) 512
          stack answers done)) ∧
    (∀ (config : CommMqttConfig) (stack : Mem) (answers : List At.WriteEvent),
      SendsPacket
        (.connect ⟨true, config.keepalive.toNat % 65536, config.clientId.text, none, none, none⟩)
        256 stack answers (commMqttSendConnect config stack answers)) ∧
    (∀ (n : Nat) (buf : PacketCursor), n < 128 ^ 4 → ∃ code,
      commMqttEncodeRemainingLength n buf =
        (buf.packet.copy buf.cursor (zeroPadded code) code.length, code.length) ∧
      varint 4 code = some (n, []) ∧
      ∀ other, varint 4 other = some (n, []) → other = code ∨ code.length < other.length) := by
  refine ⟨?_, ?_, ?_⟩
  · intro config payload more stack answers done
    by_cases long : TooLong config payload
    · have refused : done = ⟨-1, some .emsgsize, stack, []⟩ := by
        rw [show done = _ from commMqttSendPublishFd_eq stack config payload more answers,
          if_pos long]
      rw [refused]
      exact ⟨iff_of_true rfl long, fun _ => rfl, fun other => absurd rfl other⟩
    · have sends := commMqttSendPublishFd_sends stack more answers long
      have errno : done.errno ≠ some .emsgsize := by
        rw [show done.errno = none from sends.errno]
        decide
      exact ⟨iff_of_false errno long, fun refused => absurd refused errno, fun _ => sends⟩
  · exact fun config stack answers => commMqttSendConnect_sends stack config answers
  · intro n buf small
    have read : varint 4 (varintBytes 4 n ++ []) = some (n, []) := reads_varint small []
    rw [List.append_nil] at read
    exact ⟨varintBytes 4 n, commMqttEncodeRemainingLength_eq n buf, read,
      fun other => varintBytes_shortest⟩

end Ok3506.Comm
