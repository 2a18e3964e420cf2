import Ok3506.Lib.CString
import Ok3506.Lib.Reader

/-!
Control packets of MQTT 3.1.1.

`readPacket` is a parser for the packets of a client that only publishes: CONNECT
with all its optional fields, PUBLISH at every quality of service and PINGREQ. The
body of a packet has to be as long as its header says. Strings are sequences of
bytes here.
-/

namespace Ok3506.Mqtt

open CString Reader

/-! ### Packets -/

/-- What the server publishes when the connection is lost. -/
structure Will where
  topic : List UInt8
  message : List UInt8
  qos : Nat
  retain : Bool
  deriving DecidableEq, Repr

structure Connect where
  cleanSession : Bool
  keepAlive : Nat
  clientId : List UInt8
  will : Option Will := none
  userName : Option (List UInt8) := none
  password : Option (List UInt8) := none
  deriving DecidableEq, Repr

structure Publish where
  dup : Bool := false
  qos : Nat := 0
  retain : Bool := false
  topic : List UInt8
  packetId : Option Nat := none
  payload : List UInt8
  deriving DecidableEq, Repr

inductive Packet where
  | connect (p : Connect)
  | publish (p : Publish)
  | pingreq
  deriving DecidableEq, Repr

/-! ### The parser -/

/-- A field that may be missing. -/
def optional {α : Type} (present : Prop) [Decidable present] (r : Reader α) : Reader (Option α) :=
  if present then some <$> r else pure none

/-- The reserved bit is clear, the QoS of the will is at most 2, what belongs to a will
is clear without one, and there is no password without a user name. -/
def ConnectFlags (flags : Nat) : Prop :=
  flags % 2 = 0 ∧ flags / 8 % 4 ≤ 2 ∧
    (flags / 4 % 2 = 0 → flags / 8 % 8 = 0) ∧ (flags / 128 = 0 → flags / 64 % 2 = 0)

instance (flags : Nat) : Decidable (ConnectFlags flags) :=
  inferInstanceAs (Decidable (_ ∧ _ ∧ _ ∧ _))

def readWill (flags : Nat) : Reader Will := do
  let topic ← string
  let message ← string
  return ⟨topic, message, flags / 8 % 4, flags / 32 % 2 = 1⟩

def readConnect : Reader Connect := do
  let name ← string
  check (name = ascii "MQTT")
  let level ← byte
  check (level = 4)
  let b ← byte
  let flags := b.toNat
  check (ConnectFlags flags)
  let keepAlive ← word
  let clientId ← string
  let will ← optional (flags / 4 % 2 = 1) (readWill flags)
  let userName ← optional (flags / 128 = 1) string
  let password ← optional (flags / 64 % 2 = 1) string
  return ⟨flags / 2 % 2 = 1, keepAlive, clientId, will, userName, password⟩

/-- The payload of a PUBLISH is all that is left. There is no QoS 3, and a message at
QoS 0 is neither repeated nor numbered. -/
def readPublish (flags : Nat) : Reader Publish := do
  let qos := flags / 2 % 4
  check (qos ≤ 2 ∧ (qos = 0 → flags / 8 = 0))
  let topic ← string
  let packetId ← optional (0 < qos) word
  let payload ← rest
  return ⟨flags / 8 = 1, qos, flags % 2 = 1, topic, packetId, payload⟩

/-- What stands behind the fixed header. -/
def readBody (type flags : Nat) : Reader Packet :=
  match type with
  | 1 => do
      check (flags = 0)
      Packet.connect <$> readConnect
  | 3 => Packet.publish <$> readPublish flags
  | 12 => do
      check (flags = 0)
      return Packet.pingreq
  | _ => failure

def readPacket : Reader Packet := do
  let header ← byte
  let length ← varint 4
  within length (readBody (header.toNat / 16) (header.toNat % 16))

/-! ### Encodings -/

/-- A packet: its type and flags, its length, its body. -/
def packetBytes (header : UInt8) (body : List UInt8) : List UInt8 :=
  [header] ++ (varintBytes 4 body.length ++ body)

/-- The body of a CONNECT that asks for a clean session and has no optional field. -/
def connectBody (keepAlive : Nat) (clientId : List UInt8) : List UInt8 :=
  stringBytes (ascii "MQTT") ++ ([4] ++ ([2] ++ (wordBytes keepAlive ++ stringBytes clientId)))

/-- The body of a PUBLISH at QoS 0. -/
def publishBody (topic payload : List UInt8) : List UInt8 := stringBytes topic ++ payload

theorem length_connectBody (keepAlive : Nat) (clientId : List UInt8) :
    (connectBody keepAlive clientId).length = 12 + clientId.length := by
  simp [connectBody, stringBytes, wordBytes, ascii]
  omega

theorem length_publishBody (topic payload : List UInt8) :
    (publishBody topic payload).length = 2 + topic.length + payload.length := by
  simp [publishBody, stringBytes, wordBytes]
  omega

/-- The fixed header has a type byte and the digits of the length. -/
theorem length_packetBytes_le (k : Nat) (header : UInt8) (body : List UInt8)
    (small : body.length < 128 ^ (k + 1)) :
    (packetBytes header body).length ≤ k + 2 + body.length := by
  have digits : (varintBytes 4 body.length).length ≤ k + 1 := length_varintBytes_le small
  rw [packetBytes, List.length_append, List.length_append, List.length_singleton]
  omega

theorem reads_packet {header : UInt8} {body : List UInt8} {p : Packet}
    (small : body.length < 128 ^ 4)
    (read : readBody (header.toNat / 16) (header.toNat % 16) body = some (p, [])) :
    Reads readPacket (packetBytes header body) p :=
  (reads_byte header).bind ((reads_varint small).bind (reads_within read))

theorem reads_connect (keepAlive : Nat) {clientId : List UInt8}
    (short : clientId.length < 65536) :
    Reads readConnect (connectBody keepAlive clientId)
      ⟨true, keepAlive % 65536, clientId, none, none, none⟩ := by
  apply (reads_string (by decide)).bind
  apply (reads_check rfl).bind
  apply (reads_byte 4).bind
  apply (reads_check rfl).bind
  apply (reads_byte 2).bind
  apply (reads_check (by decide)).bind
  apply (reads_word keepAlive).bind
  rw [← List.append_nil (stringBytes clientId)]
  apply (reads_string short).bind
  exact reads_pure _

theorem reads_connectPacket (keepAlive : Nat) {clientId : List UInt8}
    (short : clientId.length < 65536) :
    Reads readPacket (packetBytes 0x10 (connectBody keepAlive clientId))
      (.connect ⟨true, keepAlive % 65536, clientId, none, none, none⟩) := by
  have fields := reads_connect keepAlive short []
  rw [List.append_nil] at fields
  have body : readBody 1 0 (connectBody keepAlive clientId) =
      some (.connect ⟨true, keepAlive % 65536, clientId, none, none, none⟩, []) :=
    map_apply Packet.connect fields
  have length := length_connectBody keepAlive clientId
  exact reads_packet (by omega) body

theorem reads_publishPacket {topic payload : List UInt8} (short : topic.length < 65536)
    (small : payload.length < 2 ^ 27) :
    Reads readPacket (packetBytes 0x30 (publishBody topic payload))
      (.publish ⟨false, 0, false, topic, none, payload⟩) := by
  have fields : readPublish 0 (publishBody topic payload) =
      some (⟨false, 0, false, topic, none, payload⟩, []) :=
    ((reads_check (by decide)).bind_apply _).trans ((reads_string short).bind_apply payload)
  have body : readBody 3 0 (publishBody topic payload) =
      some (.publish ⟨false, 0, false, topic, none, payload⟩, []) :=
    map_apply Packet.publish fields
  have length := length_publishBody topic payload
  exact reads_packet (by omega) body

theorem reads_pingreqPacket : Reads readPacket (packetBytes 0xC0 []) .pingreq :=
  reads_packet (by decide) rfl

/-- A packet is read up to its last byte and no further. -/
theorem stable_readPacket : Stable readPacket :=
  stable_byte.bind fun _ => (stable_varint 4).bind fun length => stable_within length _

end Ok3506.Mqtt
