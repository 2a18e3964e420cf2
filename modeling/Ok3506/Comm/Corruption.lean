import Ok3506.Comm.Frame

/-!
A datagram with one corrupted byte.

The checksum is a sum, so two frames whose payloads have the same length never
differ in exactly one byte. A corrupted length byte moves the checksum and the
tail: `commServiceReceive` accepts more bytes than a frame has, and so it accepts
the datagram when the payload itself ends a shorter frame (`EndsEarly`).
-/

namespace Ok3506.Comm

open Mem Bits

/-! ### One changed byte -/

/-- `l'` is `l` with another byte at `i`. -/
def ChangedAt (l l' : List UInt8) (i : Nat) : Prop :=
  ∃ (h : i < l.length) (b : UInt8), b ≠ l[i] ∧ l' = l.set i b

section ChangedAt

variable {l l' : List UInt8} {i : Nat}

theorem not_changedAt_self : ¬ ChangedAt l l i := by
  rintro ⟨h, b, other, same⟩
  have here := congrArg (·[i]?) same
  simp only [List.getElem?_set_self h, List.getElem?_eq_getElem h, Option.some.injEq] at here
  exact other here.symm

/-- In a sequence of two parts one of the parts is changed. -/
theorem ChangedAt.append {p p' q q' : List UInt8} (h : ChangedAt (p ++ q) (p' ++ q') i)
    (size : p'.length = p.length) :
    (ChangedAt p p' i ∧ q' = q) ∨ (p' = p ∧ ChangedAt q q' (i - p.length)) := by
  obtain ⟨within, b, other, eq⟩ := h
  by_cases first : i < p.length
  · rw [List.set_append_left i b first] at eq
    obtain ⟨changed, same⟩ := List.append_inj eq (by rw [List.length_set, size])
    rw [List.getElem_append_left first] at other
    exact .inl ⟨⟨first, b, other, changed⟩, same⟩
  · have second := Nat.not_lt.mp first
    rw [List.set_append_right i b second] at eq
    obtain ⟨same, changed⟩ := List.append_inj eq size
    rw [List.length_append] at within
    rw [List.getElem_append_right second] at other
    exact .inr ⟨same, by omega, b, other, changed⟩

theorem byteSum_cons (a : UInt8) (l : List UInt8) : byteSum (a :: l) = a + byteSum l := by
  rw [byteSum, List.foldl_cons, UInt8.add_comm, List.foldl_assoc, byteSum]

/-- One changed byte changes the sum. -/
theorem ChangedAt.byteSum_ne (h : ChangedAt l l' i) : byteSum l' ≠ byteSum l := by
  induction l generalizing l' i with
  | nil =>
      obtain ⟨none, -⟩ := h
      cases none
  | cons a l ih =>
      obtain ⟨within, b, other, rfl⟩ := h
      cases i with
      | zero =>
          rw [List.set_cons_zero, byteSum_cons, byteSum_cons]
          exact fun same => other ((UInt8.add_left_inj _).mp same)
      | succ i =>
          have rest := ih ⟨Nat.lt_of_succ_lt_succ within, b, other, rfl⟩
          rw [List.set_cons_succ, byteSum_cons, byteSum_cons]
          exact fun same => rest ((UInt8.add_right_inj _).mp same)

end ChangedAt

/-! ### One changed byte of a frame -/

/-- Frames of one size differ in more than one byte. -/
theorem not_changedAt_encode {f g : NetFrame} (size : g.payload.length = f.payload.length)
    (i : Nat) : ¬ ChangedAt f.encode g.encode i := by
  intro changed
  rw [NetFrame.encode, NetFrame.encode, encodeFrame, encodeFrame] at changed
  rcases changed.append rfl with ⟨head, -⟩ | ⟨-, rest⟩
  · exact not_changedAt_self head
  · rcases rest.append (by rw [length_frameBody, length_frameBody, size]) with
      ⟨body, check⟩ | ⟨body, check⟩
    · have sum := (List.append_inj check rfl).1
      exact body.byteSum_ne (List.singleton_inj.mp sum)
    · rw [body] at check
      exact not_changedAt_self check

/-- Behind the first `n` bytes of its payload a frame goes on as the frame of these
bytes would end: with their checksum and the tail. -/
def EndsEarly (f : NetFrame) (n : Nat) : Prop :=
  n < f.payload.length ∧
    [byteSum (frameBody f.id f.cmd (f.payload.take n))] ++ le16 netFrameTailReverse <+:
      f.encode.drop (7 + n)

instance (f : NetFrame) (n : Nat) : Decidable (EndsEarly f n) :=
  inferInstanceAs (Decidable (_ ∧ _))

section Corrupted

variable {f : NetFrame} {m : Mem} {i : Nat}

/-- Frames with the announced length of the sent one are told apart from it. -/
theorem rejected_of_length_eq (changed : ChangedAt f.encode (m.bytes 0 f.encode.length) i)
    (announced : m.load16 5 = f.payload.length) :
    commServiceReceive .udp m f.encode.length = ⟨-1, none⟩ := by
  have error : FrameError m f.encode.length := by
    have fits := f.fits
    have small : f.encode.length ≤ 65536 := by
      rw [f.length_encode, sizeofNetFrame]
      omega
    by_contra ok
    obtain ⟨g, -, carries⟩ := (not_frameError_iff small).mp ok
    have size : g.payload.length = f.payload.length := carries.len.symm.trans announced
    have whole := carries_iff.mp carries
    rw [size, ← f.length_encode] at whole
    rw [whole] at changed
    exact not_changedAt_encode size i changed
  rw [commServiceReceive, if_pos error]

/-- The other bytes are those of the frame. -/
theorem bytes_of_changedAt (changed : ChangedAt f.encode (m.bytes 0 f.encode.length) i)
    {off n : Nat} (within : off + n ≤ f.encode.length) (apart : i < off ∨ off + n ≤ i) :
    m.bytes off n = (zeroPadded f.encode).bytes off n := by
  obtain ⟨-, b, -, eq⟩ := changed
  refine bytes_eq_bytes_iff.mpr fun k hk => ?_
  have here : off + k < f.encode.length := by omega
  have read := congrArg (·[off + k]?) eq
  simp only [List.getElem?_set_ne (show i ≠ off + k by omega)] at read
  rw [List.getElem?_eq_getElem (by rwa [bytes_length]), getElem_bytes, Nat.zero_add,
    List.getElem?_eq_getElem here, Option.some.injEq] at read
  rw [read]
  exact (ofList_apply_lt _ here).symm

theorem carries_zeroPadded (f : NetFrame) : Carries (zeroPadded f.encode) f := by
  rw [carries_iff, ← f.length_encode]
  exact bytes_ofList f.encode _

/-- Elsewhere than in the length bytes a change leaves the announced length. -/
theorem length_of_changedAt (changed : ChangedAt f.encode (m.bytes 0 f.encode.length) i)
    (position : ¬ (i = 5 ∨ i = 6)) : m.load16 5 = f.payload.length := by
  have size := f.length_encode
  rw [sizeofNetFrame] at size
  rw [← (carries_zeroPadded f).len]
  refine load16_congr (bytes_eq_bytes_iff.mp (bytes_of_changedAt changed ?_ ?_))
  · omega
  · omega

/-- Apart from the length bytes the parts of the datagram are those of the frame. -/
theorem bytes_of_length_changed (changed : ChangedAt f.encode (m.bytes 0 f.encode.length) i)
    (position : i = 5 ∨ i = 6) {off n : Nat} (within : off + n ≤ f.encode.length)
    (apart : off + n ≤ 5 ∨ 7 ≤ off) : m.bytes off n = (zeroPadded f.encode).bytes off n :=
  bytes_of_changedAt changed within (by omega)

/-- With a smaller announced length the checked bytes are those of a shorter frame. -/
theorem body_of_shorter (changed : ChangedAt f.encode (m.bytes 0 f.encode.length) i)
    (position : i = 5 ∨ i = 6) (shorter : m.load16 5 < f.payload.length) :
    m.bytes 2 (m.load16 5 + 5) = frameBody f.id f.cmd (f.payload.take (m.load16 5)) := by
  have size := f.length_encode
  rw [sizeofNetFrame] at size
  have sent := carries_zeroPadded f
  have same {off n : Nat} (within : off + n ≤ f.encode.length) (apart : off + n ≤ 5 ∨ 7 ≤ off) :=
    bytes_of_length_changed changed position within apart
  have taken : (f.payload.take (m.load16 5)).length = m.load16 5 :=
    List.length_take_of_le (Nat.le_of_lt shorter)
  conv_lhs => rw [← taken]
  refine bytes_eq_frameBody_iff.mpr ⟨?_, ?_, ?_, ?_⟩
  · rw [same (by omega) (.inl (by omega)), bytes_eq_le16_iff f.id.toNat_lt, sent.id]
  · rw [same (by omega) (.inl (by omega)), bytes_one, sent.cmd]
  · have word : uint16 (m.load16 5) = m.load16 5 := Nat.mod_eq_of_lt (load16_lt m 5)
    rw [taken, word, bytes_eq_le16_iff (load16_lt m 5)]
  · rw [taken, same (by omega) (.inr (by omega)),
      ← take_bytes _ 7 f.payload.length _ (Nat.le_of_lt shorter), sent.payload]

/-- Where a shorter frame has its checksum and tail, the datagram goes on as the frame. -/
theorem end_of_shorter (changed : ChangedAt f.encode (m.bytes 0 f.encode.length) i)
    (position : i = 5 ∨ i = 6) (shorter : m.load16 5 < f.payload.length) :
    m.bytes (7 + m.load16 5) (1 + 2) = (f.encode.drop (7 + m.load16 5)).take 3 := by
  have size := f.length_encode
  rw [sizeofNetFrame] at size
  have extent : f.encode.length = (7 + m.load16 5) + (3 + (f.payload.length - m.load16 5)) := by
    omega
  have whole : f.encode = (zeroPadded f.encode).bytes 0
      ((7 + m.load16 5) + (3 + (f.payload.length - m.load16 5))) := by
    rw [← extent, bytes_ofList]
  rw [bytes_of_length_changed changed position (by omega) (.inr (by omega))]
  conv_rhs => rw [whole, bytes_append, List.drop_left' (bytes_length _ _ _), Nat.zero_add,
    take_bytes _ _ _ _ (by omega)]

/-- With a smaller announced length everything but checksum and tail is in place. -/
theorem frameError_iff_of_shorter (changed : ChangedAt f.encode (m.bytes 0 f.encode.length) i)
    (position : i = 5 ∨ i = 6) (shorter : m.load16 5 < f.payload.length) :
    ¬ FrameError m f.encode.length ↔ EndsEarly f (m.load16 5) := by
  have size := f.length_encode
  rw [sizeofNetFrame] at size
  have head : m.load16 0 = netFrameHeadReverse := by
    rw [← (carries_zeroPadded f).head]
    exact load16_congr (bytes_eq_bytes_iff.mp
      (bytes_of_length_changed changed position (by omega) (.inl (by omega))))
  have room : ¬ f.encode.length < m.load16 5 + sizeofNetFrame := by
    rw [sizeofNetFrame]
    omega
  rw [EndsEarly, and_iff_right shorter, List.prefix_iff_eq_take, List.length_append,
    List.length_singleton, length_le16, ← end_of_shorter changed position shorter, eq_comm,
    bytes_eq_append_iff List.length_singleton, bytes_one, List.singleton_inj,
    bytes_eq_le16_iff (by decide), FrameError, checkSum_eq, bytes_shift,
    body_of_shorter changed position shorter, Nat.add_right_comm 7]
  simp only [head, room, not_or, not_not, ne_eq, not_true_eq_false, not_false_eq_true, true_and]

end Corrupted

/-- **One corrupted byte** gets through only in the length field. -/
theorem oneByte_rejected_iff (id : UInt16) (cmd : UInt8) (data sendBuf : Mem) {len i : Nat}
    (fits : len ≤ 65526) {m : Mem}
    (changed : ChangedAt ((netSendBuf id cmd data len sendBuf).bytes 0 (len + sizeofNetFrame))
      (m.bytes 0 (len + sizeofNetFrame)) i) :
    commServiceReceive .udp m (len + sizeofNetFrame) = ⟨-1, none⟩ ↔
      ¬ ((i = 5 ∨ i = 6) ∧
        EndsEarly ⟨id, cmd, data.bytes 0 len, by rwa [bytes_length]⟩ (m.load16 5)) := by
  let f : NetFrame := ⟨id, cmd, data.bytes 0 len, by rwa [bytes_length]⟩
  have payload : f.payload.length = len := bytes_length data 0 len
  have size : f.encode.length = len + sizeofNetFrame := by rw [f.length_encode, payload]
  rw [bytes_netSendBuf] at changed
  change ChangedAt f.encode _ i at changed
  rw [← size] at changed ⊢
  constructor
  · rintro rejected ⟨position, early⟩
    have ok := (frameError_iff_of_shorter changed position early.1).mpr early
    rw [commServiceReceive, if_neg ok] at rejected
    cases rejected
  · intro late
    rw [sizeofNetFrame] at size
    rcases Nat.lt_trichotomy (m.load16 5) f.payload.length with shorter | equal | longer
    · have position : i = 5 ∨ i = 6 := by
        by_contra elsewhere
        exact Nat.ne_of_lt shorter (length_of_changedAt changed elsewhere)
      have error : FrameError m f.encode.length := by
        by_contra ok
        exact late ⟨position, (frameError_iff_of_shorter changed position shorter).mp ok⟩
      rw [commServiceReceive, if_pos error]
    · exact rejected_of_length_eq changed equal
    · have error : FrameError m f.encode.length := by
        refine .inr (.inl ?_)
        rw [f.length_encode]
        omega
      rw [commServiceReceive, if_pos error]

/-- An empty frame within the payload: the length 3 is corrupted to 0. -/
theorem oneByte_accepted :
    ∃ m : Mem,
      ChangedAt ((netSendBuf 0 0 (zeroPadded [0, 0xFF, 0xEE]) 3 fun _ => 0).bytes 0
        (3 + sizeofNetFrame)) (m.bytes 0 (3 + sizeofNetFrame)) 5 ∧
      (commServiceReceive .udp m (3 + sizeofNetFrame)).ret = 0 := by
  refine ⟨zeroPadded [0xAA, 0x55, 0, 0, 0, 0, 0, 0, 0xFF, 0xEE, 0xF0, 0xFF, 0xEE], ?_, ?_⟩
  · exact ⟨by decide, 0, by decide, by decide⟩
  · have ok : ¬ FrameError
        (zeroPadded [0xAA, 0x55, 0, 0, 0, 0, 0, 0, 0xFF, 0xEE, 0xF0, 0xFF, 0xEE])
        (3 + sizeofNetFrame) := by decide
    rw [commServiceReceive, if_neg ok]

/-- The length byte of a frame with three bytes of payload comes out as 2. -/
theorem oneByte_rejected :
    commServiceReceive .udp
        (zeroPadded [0xAA, 0x55, 0x07, 0x00, 0xA0, 0x02, 0x00, 0x10, 0x20, 0x30, 0x0A, 0xFF, 0xEE])
        (3 + sizeofNetFrame) = ⟨-1, none⟩ := by
  refine (oneByte_rejected_iff 7 0xA0 (zeroPadded [0x10, 0x20, 0x30]) (fun _ => 0) (i := 5)
    (by decide) ?_).mpr ?_
  · exact ⟨by decide, 2, by decide, by decide⟩
  · decide

end Ok3506.Comm
