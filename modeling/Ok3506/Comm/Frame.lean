import Ok3506.Lib.Bits

/-!
The network frame of `comm_service.c`.

`netSendBuf` and `netSendEphBuf` are the stores of the two encoders into their
static buffers, `FrameError` the checks of `comm_service_receive` in their order.
`encodeFrame` says what both are about: head, id, command, length, payload,
checksum and tail. A buffer passes the checks exactly when it begins with an
encoded frame.
-/

namespace Ok3506.Comm

open Mem Bits

/-! ### The encoders -/

/-- `NET_FRAME_HEAD_REVERSE`. -/
def netFrameHeadReverse : Nat := 0x55AA

/-- `NET_FRAME_TAIL_REVERSE`. -/
def netFrameTailReverse : Nat := 0xEEFF

/-- `sizeof(net_frame_t)`: head, id, cmd, len, check and tail. -/
def sizeofNetFrame : Nat := 10

/-- `NET_SEND_CMD_t`. -/
def sendCmdPos : UInt8 := 0x10
def sendCmdEphInfo : UInt8 := 0x11
def sendCmdEphSw : UInt8 := 0x20
def sendCmdOutputFreq : UInt8 := 0x21

/-- `EPH_Type_t`. -/
inductive EphType where
  | bdxweph
  | bd2eph
  | bd3eph
  | bd3cnav2eph
  | bd3cnav3eph
  | gpseph
  | galeph
  | gloeph
  deriving DecidableEq, Repr

/-- The first byte of the enumeration value, the only one that is sent. -/
def EphType.toByte : EphType → UInt8
  | bdxweph => 1
  | bd2eph => 2
  | bd3eph => 3
  | bd3cnav2eph => 4
  | bd3cnav3eph => 5
  | gpseph => 6
  | galeph => 7
  | gloeph => 8

/-- `check_sum`. -/
def checkSum (data : Mem) (len : Nat) : UInt8 :=
  if len = 0 then 0 else (List.range len).foldl (fun sum i => sum + data i) 0

/-- `send_buf` after the stores of `net_send`. The checksum is stored as a word,
whose high byte the tail overwrites. -/
def netSendBuf (id : UInt16) (cmd : UInt8) (data : Mem) (len : Nat) (sendBuf : Mem) : Mem :=
  let sendBuf := sendBuf.store16 0 netFrameHeadReverse
  let sendBuf := sendBuf.store8 4 cmd
  let sendBuf := sendBuf.store16 5 (uint16 len)
  let sendBuf := sendBuf.store16 2 id.toNat
  let sendBuf := sendBuf.copy 7 data len
  let sendBuf := sendBuf.store16 (7 + len) (checkSum (sendBuf.shift 2) (len + 5)).toNat
  sendBuf.store16 (8 + len) netFrameTailReverse

/-- `send_buf` after the stores of `net_send_eph`. -/
def netSendEphBuf (id : UInt16) (ephType : EphType) (data : Mem) (len : Nat) (sendBuf : Mem) :
    Mem :=
  let sendBuf := sendBuf.store16 0 netFrameHeadReverse
  let sendBuf := sendBuf.store8 4 sendCmdEphInfo
  let sendBuf := sendBuf.store16 5 (uint16 (len + 1))
  let sendBuf := sendBuf.store16 2 id.toNat
  let sendBuf := sendBuf.store8 7 ephType.toByte
  let sendBuf := sendBuf.copy 8 data len
  let sendBuf := sendBuf.store16 (8 + len) (checkSum (sendBuf.shift 2) (len + 6)).toNat
  sendBuf.store16 (9 + len) netFrameTailReverse

/-! ### The receiver -/

/-- `comm_service_kind_t`. -/
inductive CommServiceKind where
  | udp
  | tcp
  | mqtt
  deriving DecidableEq, Repr

/-- The arguments of a call of `rev_process`. -/
structure RevCall where
  cmd : UInt8
  data : Mem
  len : Nat

/-- What `comm_service_receive` returns, and what it passes to `rev_process`. -/
structure Receipt where
  ret : Int
  rev : Option RevCall

/-- The checks of `comm_service_receive`. -/
def FrameError (buffer : Mem) (len : Nat) : Prop :=
  let frameLen := buffer.load16 5
  buffer.load16 0 ≠ netFrameHeadReverse ∨
    len < frameLen + sizeofNetFrame ∨
    buffer (7 + frameLen) ≠ checkSum (buffer.shift 2) (frameLen + 5) ∨
    buffer.load16 (8 + frameLen) ≠ netFrameTailReverse

instance (buffer : Mem) (len : Nat) : Decidable (FrameError buffer len) :=
  inferInstanceAs (Decidable (_ ∨ _ ∨ _ ∨ _))

/-- `comm_service_receive`. -/
def commServiceReceive (kind : CommServiceKind) (buffer : Mem) (len : Nat) : Receipt :=
  match kind with
  | .udp =>
      if FrameError buffer len then ⟨-1, none⟩
      else ⟨0, some ⟨buffer 4, buffer.shift 7, buffer.load16 5⟩⟩
  | .tcp => ⟨0, none⟩
  | .mqtt => ⟨0, none⟩

/-! ### The frame language -/

/-- The sum of a byte sequence, modulo 256. -/
def byteSum (l : List UInt8) : UInt8 := l.foldl (· + ·) 0

/-- What the checksum covers. -/
def frameBody (id : UInt16) (cmd : UInt8) (payload : List UInt8) : List UInt8 :=
  le16 id.toNat ++ ([cmd] ++ (le16 (uint16 payload.length) ++ payload))

/-- The bytes of a frame. -/
def encodeFrame (id : UInt16) (cmd : UInt8) (payload : List UInt8) : List UInt8 :=
  le16 netFrameHeadReverse ++ (frameBody id cmd payload ++
    ([byteSum (frameBody id cmd payload)] ++ le16 netFrameTailReverse))

variable {id : UInt16} {cmd : UInt8} {payload : List UInt8}

@[simp] theorem length_frameBody : (frameBody id cmd payload).length = payload.length + 5 := by
  simp only [frameBody, List.length_append, length_le16, List.length_singleton]
  omega

@[simp] theorem length_encodeFrame :
    (encodeFrame id cmd payload).length = payload.length + sizeofNetFrame := by
  simp only [encodeFrame, List.length_append, length_le16, length_frameBody,
    List.length_singleton, sizeofNetFrame]
  omega

theorem checkSum_eq (data : Mem) (len : Nat) : checkSum data len = byteSum (data.bytes 0 len) := by
  rw [checkSum, byteSum, bytes, List.foldl_map]
  simp only [Nat.zero_add]
  split
  · rename_i empty
    rw [empty, List.range_zero, List.foldl_nil]
  · rfl

theorem bytes_eq_frameBody_iff {m : Mem} {off : Nat} :
    m.bytes off (payload.length + 5) = frameBody id cmd payload ↔
      m.bytes off 2 = le16 id.toNat ∧ m.bytes (off + 2) 1 = [cmd] ∧
        m.bytes (off + 3) 2 = le16 (uint16 payload.length) ∧
        m.bytes (off + 5) payload.length = payload := by
  have size : payload.length + 5 = 2 + (1 + (2 + payload.length)) := by omega
  rw [frameBody, size, bytes_eq_append_iff (length_le16 _),
    bytes_eq_append_iff (List.length_singleton (a := cmd)), bytes_eq_append_iff (length_le16 _)]

/-- A block is an encoded frame, part by part. -/
theorem bytes_eq_encodeFrame_iff {m : Mem} :
    m.bytes 0 (payload.length + sizeofNetFrame) = encodeFrame id cmd payload ↔
      m.bytes 0 2 = le16 netFrameHeadReverse ∧
        m.bytes 2 (payload.length + 5) = frameBody id cmd payload ∧
        m.bytes (7 + payload.length) 1 = [byteSum (frameBody id cmd payload)] ∧
        m.bytes (8 + payload.length) 2 = le16 netFrameTailReverse := by
  have size : payload.length + sizeofNetFrame = 2 + ((payload.length + 5) + (1 + 2)) := by
    rw [sizeofNetFrame]
    omega
  have check : 0 + 2 + (payload.length + 5) = 7 + payload.length := by omega
  have tail : 7 + payload.length + 1 = 8 + payload.length := by omega
  rw [encodeFrame, size, bytes_eq_append_iff (length_le16 _), bytes_eq_append_iff length_frameBody,
    bytes_eq_append_iff List.length_singleton, check, tail]

/-- The last two stores of an encoder complete a frame. -/
theorem bytes_seal {m : Mem} {n check tail : Nat} (size : payload.length + 5 = n)
    (hcheck : check = n + 2) (htail : tail = n + 3)
    (head : m.bytes 0 2 = le16 netFrameHeadReverse)
    (body : m.bytes 2 n = frameBody id cmd payload) :
    ((m.store16 check (checkSum (m.shift 2) n).toNat).store16 tail netFrameTailReverse).bytes 0
      (payload.length + sizeofNetFrame) = encodeFrame id cmd payload := by
  subst size hcheck htail
  have sum : checkSum (m.shift 2) (payload.length + 5) = byteSum (frameBody id cmd payload) := by
    rw [checkSum_eq, bytes_shift, body]
  have check : payload.length + 5 + 2 = 7 + payload.length := by omega
  have tail : payload.length + 5 + 3 = 8 + payload.length := by omega
  rw [check, tail]
  refine bytes_eq_encodeFrame_iff.mpr ⟨?_, ?_, ?_, bytes_store16 _ _ _⟩
  · rwa [bytes_store16_of_disjoint (by omega), bytes_store16_of_disjoint (by omega)]
  · rwa [bytes_store16_of_disjoint (by omega), bytes_store16_of_disjoint (by omega)]
  · rw [bytes_store16_of_disjoint (by omega), sum, bytes_one, store16, if_pos rfl,
      UInt8.ofNat_toNat]

/-- `net_send` sends the frame of its payload, whatever was in the buffer. -/
theorem bytes_netSendBuf (id : UInt16) (cmd : UInt8) (data : Mem) (len : Nat) (sendBuf : Mem) :
    (netSendBuf id cmd data len sendBuf).bytes 0 (len + sizeofNetFrame) =
      encodeFrame id cmd (data.bytes 0 len) := by
  have size : (data.bytes 0 len).length = len := bytes_length data 0 len
  have sealed : (netSendBuf id cmd data len sendBuf).bytes 0
      ((data.bytes 0 len).length + sizeofNetFrame) = encodeFrame id cmd (data.bytes 0 len) := by
    refine bytes_seal (by rw [size]) (Nat.add_comm 7 len) (Nat.add_comm 8 len) ?_ ?_
    · rw [bytes_copy_before (by omega), bytes_store16_of_disjoint (by omega),
        bytes_store16_of_disjoint (by omega), bytes_store8_of_disjoint (by omega), bytes_store16]
    · conv_lhs => rw [← size]
      refine bytes_eq_frameBody_iff.mpr ⟨?_, ?_, ?_, ?_⟩
      · rw [bytes_copy_before (by omega), bytes_store16]
      · rw [bytes_copy_before (by omega), bytes_store16_of_disjoint (by omega),
          bytes_store16_of_disjoint (by omega), bytes_store8]
      · rw [bytes_copy_before (by omega), bytes_store16_of_disjoint (by omega), bytes_store16]
      · rw [size, bytes_copy]
  rwa [size] at sealed

/-- `net_send_eph` sends the frame whose payload is the type and the data. -/
theorem bytes_netSendEphBuf (id : UInt16) (ephType : EphType) (data : Mem) (len : Nat)
    (sendBuf : Mem) :
    (netSendEphBuf id ephType data len sendBuf).bytes 0 (len + 1 + sizeofNetFrame) =
      encodeFrame id sendCmdEphInfo ([ephType.toByte] ++ data.bytes 0 len) := by
  have size : ([ephType.toByte] ++ data.bytes 0 len).length = 1 + len := by
    rw [List.length_append, List.length_singleton, bytes_length]
  have sealed : (netSendEphBuf id ephType data len sendBuf).bytes 0
      (([ephType.toByte] ++ data.bytes 0 len).length + sizeofNetFrame) =
        encodeFrame id sendCmdEphInfo ([ephType.toByte] ++ data.bytes 0 len) := by
    refine bytes_seal (by omega) (Nat.add_comm 8 len) (Nat.add_comm 9 len) ?_ ?_
    · rw [bytes_copy_before (by omega), bytes_store8_of_disjoint (by omega),
        bytes_store16_of_disjoint (by omega), bytes_store16_of_disjoint (by omega),
        bytes_store8_of_disjoint (by omega), bytes_store16]
    · have extent : len + 6 = ([ephType.toByte] ++ data.bytes 0 len).length + 5 := by omega
      rw [extent]
      refine bytes_eq_frameBody_iff.mpr ⟨?_, ?_, ?_, ?_⟩
      · rw [bytes_copy_before (by omega), bytes_store8_of_disjoint (by omega), bytes_store16]
      · rw [bytes_copy_before (by omega), bytes_store8_of_disjoint (by omega),
          bytes_store16_of_disjoint (by omega), bytes_store16_of_disjoint (by omega), bytes_store8]
      · rw [bytes_copy_before (by omega), bytes_store8_of_disjoint (by omega),
          bytes_store16_of_disjoint (by omega), bytes_store16, size, Nat.add_comm 1 len]
      · rw [size]
        refine (bytes_eq_append_iff List.length_singleton).mpr ⟨?_, ?_⟩
        · rw [bytes_copy_before (by omega), bytes_store8]
        · rw [bytes_copy]
  rwa [size, Nat.add_comm 1 len] at sealed

/-! ### Acceptance -/

/-- A frame that fits the 65536 bytes of `send_buf`. -/
@[ext] structure NetFrame where
  id : UInt16
  cmd : UInt8
  payload : List UInt8
  fits : payload.length ≤ 65526

namespace NetFrame

/-- The bytes of the frame. -/
def encode (f : NetFrame) : List UInt8 := encodeFrame f.id f.cmd f.payload

theorem length_encode (f : NetFrame) : f.encode.length = f.payload.length + sizeofNetFrame :=
  length_encodeFrame

/-- The frame whose fields a buffer holds. -/
def ofMem (m : Mem) (h : m.load16 5 ≤ 65526) : NetFrame where
  id := UInt16.ofNat (m.load16 2)
  cmd := m 4
  payload := m.bytes 7 (m.load16 5)
  fits := by rwa [bytes_length]

/-- The frame that a byte sequence begins with. -/
def decode (d : List UInt8) : Option NetFrame :=
  if h : (zeroPadded d).load16 5 ≤ 65526 then
    let f := ofMem (zeroPadded d) h
    if f.encode <+: d then some f else none
  else none

end NetFrame

/-- The words of a buffer are those of a frame. -/
structure Carries (m : Mem) (f : NetFrame) : Prop where
  head : m.load16 0 = netFrameHeadReverse
  id : m.load16 2 = f.id.toNat
  cmd : m 4 = f.cmd
  len : m.load16 5 = f.payload.length
  payload : m.bytes 7 f.payload.length = f.payload
  check : m (7 + f.payload.length) = checkSum (m.shift 2) (f.payload.length + 5)
  tail : m.load16 (8 + f.payload.length) = netFrameTailReverse

section Acceptance

variable {m : Mem} {f : NetFrame} {len : Nat}

theorem carries_iff :
    Carries m f ↔ m.bytes 0 (f.payload.length + sizeofNetFrame) = f.encode := by
  have fits := f.fits
  have idLt := f.id.toNat_lt
  have size : uint16 f.payload.length = f.payload.length := Nat.mod_eq_of_lt (by omega)
  have sum (body : m.bytes 2 (f.payload.length + 5) = frameBody f.id f.cmd f.payload) :
      checkSum (m.shift 2) (f.payload.length + 5) = byteSum (frameBody f.id f.cmd f.payload) := by
    rw [checkSum_eq, bytes_shift, body]
  rw [NetFrame.encode, bytes_eq_encodeFrame_iff]
  constructor
  · intro h
    have body : m.bytes 2 (f.payload.length + 5) = frameBody f.id f.cmd f.payload :=
      bytes_eq_frameBody_iff.mpr ⟨(bytes_eq_le16_iff (by omega)).mpr h.id,
        by rw [bytes_one, h.cmd],
        (bytes_eq_le16_iff (by omega)).mpr (by rw [size]; exact h.len), h.payload⟩
    refine ⟨(bytes_eq_le16_iff (by decide)).mpr h.head, body, ?_,
      (bytes_eq_le16_iff (by decide)).mpr h.tail⟩
    rw [bytes_one, h.check, sum body]
  · rintro ⟨head, body, check, tail⟩
    obtain ⟨id, cmd, bytesLen, payload⟩ := bytes_eq_frameBody_iff.mp body
    refine ⟨(bytes_eq_le16_iff (by decide)).mp head, (bytes_eq_le16_iff (by omega)).mp id,
      List.singleton_inj.mp cmd, ?_, payload, ?_, (bytes_eq_le16_iff (by decide)).mp tail⟩
    · rw [size] at bytesLen
      exact (bytes_eq_le16_iff (by omega)).mp bytesLen
    · rw [sum body]
      exact List.singleton_inj.mp check

/-- The bytes in front begin with the frame. -/
theorem encode_prefix_iff :
    f.encode <+: m.bytes 0 len ↔ f.payload.length + sizeofNetFrame ≤ len ∧ Carries m f := by
  rw [carries_iff, List.prefix_iff_eq_take, f.length_encode]
  constructor
  · intro h
    have le : f.payload.length + sizeofNetFrame ≤ len := by
      have := congrArg List.length h
      rw [f.length_encode, List.length_take, bytes_length] at this
      omega
    exact ⟨le, by rw [h, take_bytes m 0 len _ le]⟩
  · rintro ⟨le, eq⟩
    rw [take_bytes m 0 len _ le, eq]

/-- Without an error the buffer holds the frame of its own fields. -/
theorem not_frameError_iff (hlen : len ≤ 65536) :
    ¬ FrameError m len ↔ ∃ f : NetFrame, f.payload.length + sizeofNetFrame ≤ len ∧ Carries m f := by
  simp only [FrameError, not_or, not_not, Nat.not_lt]
  constructor
  · rintro ⟨head, room, check, tail⟩
    have fits : m.load16 5 ≤ 65526 := by
      rw [sizeofNetFrame] at room
      omega
    have payloadLen : (NetFrame.ofMem m fits).payload.length = m.load16 5 := bytes_length m 7 _
    refine ⟨NetFrame.ofMem m fits, by rwa [payloadLen], head, ?_, rfl, payloadLen.symm, ?_, ?_, ?_⟩
    · exact (UInt16.toNat_ofNat_of_lt' (load16_lt m 2)).symm
    · rw [payloadLen]
      rfl
    · rwa [payloadLen]
    · rwa [payloadLen]
  · rintro ⟨f, room, h⟩
    rw [h.len]
    exact ⟨h.head, room, h.check, h.tail⟩

theorem commServiceReceive_of_carries (room : f.payload.length + sizeofNetFrame ≤ len)
    (h : Carries m f) :
    commServiceReceive .udp m len = ⟨0, some ⟨f.cmd, m.shift 7, f.payload.length⟩⟩ := by
  have ok : ¬ FrameError m len := by
    simp only [FrameError, not_or, not_not, Nat.not_lt, h.len]
    exact ⟨h.head, room, h.check, h.tail⟩
  rw [commServiceReceive, if_neg ok, h.cmd, h.len]

/-- Bytes that begin with a frame are accepted as that frame. -/
theorem commServiceReceive_of_begins (h : f.encode <+: m.bytes 0 len) :
    commServiceReceive .udp m len = ⟨0, some ⟨f.cmd, m.shift 7, f.payload.length⟩⟩ ∧
      (m.shift 7).bytes 0 f.payload.length = f.payload := by
  obtain ⟨room, carries⟩ := encode_prefix_iff.mp h
  exact ⟨commServiceReceive_of_carries room carries, by rw [bytes_shift, carries.payload]⟩

/-- Bytes that begin with no frame are rejected. -/
theorem commServiceReceive_of_not_begins (hlen : len ≤ 65536)
    (h : ∀ f : NetFrame, ¬ f.encode <+: m.bytes 0 len) :
    commServiceReceive .udp m len = ⟨-1, none⟩ := by
  have error : FrameError m len := by
    by_contra ok
    obtain ⟨f, found⟩ := (not_frameError_iff hlen).mp ok
    exact h f (encode_prefix_iff.mpr found)
  rw [commServiceReceive, if_pos error]

/-- **Acceptance** is to begin with a frame. -/
theorem commServiceReceive_ret_iff (hlen : len ≤ 65536) :
    (commServiceReceive .udp m len).ret = 0 ↔ ∃ f : NetFrame, f.encode <+: m.bytes 0 len := by
  constructor
  · intro accepted
    by_contra none
    rw [commServiceReceive_of_not_begins hlen (not_exists.mp none)] at accepted
    cases accepted
  · rintro ⟨f, h⟩
    rw [(commServiceReceive_of_begins h).1]

theorem decode_eq_some {d : List UInt8} : NetFrame.decode d = some f ↔ f.encode <+: d := by
  have whole : (zeroPadded d).bytes 0 d.length = d := bytes_ofList d _
  constructor
  · intro h
    rw [NetFrame.decode] at h
    split at h
    · simp only at h
      split at h
      · cases h
        assumption
      · cases h
    · cases h
  · intro h
    rw [← whole] at h
    obtain ⟨-, carries⟩ := encode_prefix_iff.mp h
    have fits := f.fits
    have found : ∀ fits', NetFrame.ofMem (zeroPadded d) fits' = f := by
      intro fits'
      apply NetFrame.ext
      · rw [NetFrame.ofMem, carries.id, UInt16.ofNat_toNat]
      · exact carries.cmd
      · have payload := carries.payload
        rwa [← carries.len] at payload
    rw [NetFrame.decode, dif_pos (by rw [carries.len]; exact fits)]
    simp only [found]
    rw [if_pos (whole ▸ h)]

end Acceptance

end Ok3506.Comm
