import Ok3506.Lib.Bits
import Ok3506.Lib.Loop
import Ok3506.Gnss.Crc

/-!
The frame scanner `handle_gnss_raw`.

`frameAt` is the test the loop body makes at one offset: header, room, length
and checksum, for the packet kind whose header is there. It reads the buffer and
nothing else, so a scan is a walk over offsets: by one where there is no frame,
by the length field behind an accepted CSHG frame. `OnPath` is that walk. The
two size conversions of `i += packet->length - 1; i++` are kept, so a length
field of zero leaves the index where it is.
-/

namespace Ok3506.Gnss

open Mem Bits

/-- `Header1`, the bytes `CSHG`. -/
def header1 : Nat := 0x47485343

/-- `Header2`, the bytes `$HEXDATA`. -/
def header2 : Nat := 0x4154414458454824

/-- The two packed packet structs. -/
inductive PacketKind where
  | data1
  | data2
  deriving DecidableEq, Repr

namespace PacketKind

/-- `sizeof(gns_raw_data1_packet_t)` and `sizeof(gns_raw_data2_packet_t)`:
header, type, length and crc. -/
def size : PacketKind → Nat
  | data1 => 11
  | data2 => 15

/-- `packet->header == Header1`, `packet2->header == Header2`. -/
def HasHeader (packet : Mem) : PacketKind → Prop
  | data1 => packet.load32 0 = header1
  | data2 => packet.load64 0 = header2

instance (packet : Mem) : (k : PacketKind) → Decidable (k.HasHeader packet)
  | data1 => inferInstanceAs (Decidable (packet.load32 0 = header1))
  | data2 => inferInstanceAs (Decidable (packet.load64 0 = header2))

/-- `packet->type`. -/
def type (packet : Mem) : PacketKind → Nat
  | data1 => packet.load16 4
  | data2 => packet.load16 8

/-- `packet->length`. -/
def length (packet : Mem) : PacketKind → Nat
  | data1 => packet.load16 6
  | data2 => packet.load16 10

end PacketKind

/-- A packet that passed the checks. -/
structure RawFrame where
  kind : PacketKind
  type : Nat
  length : Nat
  deriving DecidableEq, Repr

/-- The bytes a frame occupies. -/
def RawFrame.size (f : RawFrame) : Nat := f.kind.size + f.length

/-- `crc_received`: the three bytes that end at `stop`. -/
def crcReceived (data : Mem) (stop : Nat) : Nat :=
  (data (stop - 3)).toNat <<< 16 ||| (data (stop - 2)).toNat <<< 8 ||| (data (stop - 1)).toNat

/-- The length and checksum tests behind a header of kind `k` at offset `i`. -/
def checkPacket (data : Mem) (len i : Nat) (k : PacketKind) : Option RawFrame :=
  let packet := data.shift i
  if k.length packet > len - i - k.size then none
  else if rtkCrc24q packet (k.length packet + (k.size - 3)) =
      crcReceived data (i + k.size + k.length packet) then
    some ⟨k, k.type packet, k.length packet⟩
  else none

/-- The header a packet of kind `k` at offset `i` would need, with the room test
in front of it. -/
def HeaderAt (data : Mem) (len i : Nat) (k : PacketKind) : Prop :=
  len - i > k.size ∧ k.HasHeader (data.shift i)

instance (data : Mem) (len i : Nat) (k : PacketKind) : Decidable (HeaderAt data len i k) :=
  inferInstanceAs (Decidable (_ ∧ _))

/-- What the loop body finds at offset `i`. -/
def frameAt (data : Mem) (len i : Nat) : Option RawFrame :=
  if HeaderAt data len i .data1 then checkPacket data len i .data1
  else if HeaderAt data len i .data2 then checkPacket data len i .data2
  else none

/-- A `$HEXDATA` packet with one byte of payload. -/
def hexPacket : List UInt8 :=
  [0x24, 0x48, 0x45, 0x58, 0x44, 0x41, 0x54, 0x41, 0x00, 0x00, 0x01, 0x00, 0x00, 0xE2, 0x9F, 0xD8]

/-- A CSHG packet with one byte of payload. -/
def cshgPacket : List UInt8 :=
  [0x43, 0x53, 0x48, 0x47, 0x00, 0x00, 0x01, 0x00, 0x00, 0xEA, 0x0A, 0xBF]

/-- `i += packet->length - 1`: the difference is an `int`, added modulo `2 ^ 64`. -/
def skipPacket (i length : Nat) : Nat := sizeT (i + (length + 2 ^ 64 - 1))

/-- The variables of the scan, with the frames that reached the type switch. -/
structure ScanState where
  i : Nat := 0
  handleCnt : Nat := 0
  accepted : List (Nat × RawFrame) := []

/-- The loop condition `i < len - 3`. -/
def Scanning (len : Nat) (s : ScanState) : Prop := s.i < len - 3

instance (len : Nat) : DecidablePred (Scanning len) := fun s =>
  inferInstanceAs (Decidable (s.i < len - 3))

/-- The loop body with its increment. -/
def scanStep (data : Mem) (len : Nat) (s : ScanState) : ScanState :=
  match frameAt data len s.i with
  | some f =>
      match f.kind with
      | .data1 =>
          { i := sizeT (skipPacket s.i f.length + 1)
            handleCnt := s.i + f.length
            accepted := s.accepted ++ [(s.i, f)] }
      | .data2 => { s with i := sizeT (s.i + 1), accepted := s.accepted ++ [(s.i, f)] }
  | none => { s with i := sizeT (s.i + 1) }

/-- `handle_gnss_raw`, with at most `fuel` iterations of its loop. -/
def handleGnssRaw (fuel : Nat) (data : Mem) (len : Nat) : ScanState :=
  if len < PacketKind.data1.size then {}
  else Loop.iter (Scanning len) (scanStep data len) fuel {}

/-- The call has come to its `return`. -/
def Returned (len : Nat) (s : ScanState) : Prop := len < PacketKind.data1.size ∨ ¬ Scanning len s

instance (len : Nat) (s : ScanState) : Decidable (Returned len s) :=
  inferInstanceAs (Decidable (_ ∨ _))

/-! ### What a frame is -/

/-- The bytes at offset `i` are the frame `f`: its header, its type and length,
and a matching checksum. -/
structure FrameValid (data : Mem) (i : Nat) (f : RawFrame) : Prop where
  header : f.kind.HasHeader (data.shift i)
  type : f.kind.type (data.shift i) = f.type
  length : f.kind.length (data.shift i) = f.length
  crc : rtkCrc24q (data.shift i) (f.length + (f.kind.size - 3)) = crcReceived data (i + f.size)

/-- The headers differ in their first byte. -/
theorem not_hasHeader_both {packet : Mem} (h1 : PacketKind.HasHeader packet .data1)
    (h2 : PacketKind.HasHeader packet .data2) : False := by
  simp only [PacketKind.HasHeader, load64, load32, load16, header1, header2] at h1 h2
  have b0 := (packet 0).toNat_lt
  omega

theorem PacketKind.eq_of_hasHeader {packet : Mem} {k k' : PacketKind} (h : k.HasHeader packet)
    (h' : k'.HasHeader packet) : k = k' := by
  cases k <;> cases k'
  · rfl
  · exact (not_hasHeader_both h h').elim
  · exact (not_hasHeader_both h' h).elim
  · rfl

/-! A packet begins with its header; type and length stand before the checksum's
three bytes. -/

section Packet

variable {k : PacketKind} {packet packet' : Mem}

theorem PacketKind.hasHeader_congr (h : ∀ j < k.size - 7, packet j = packet' j)
    (header : k.HasHeader packet) : k.HasHeader packet' := by
  cases k with
  | data1 =>
      refine (load32_congr ?_).trans header
      intro j hj
      rw [Nat.zero_add]
      exact (h j hj).symm
  | data2 =>
      refine (load64_congr ?_).trans header
      intro j hj
      rw [Nat.zero_add]
      exact (h j hj).symm

theorem PacketKind.type_congr
    (h : ∀ j < 2, packet (k.size - 7 + j) = packet' (k.size - 7 + j)) :
    k.type packet = k.type packet' := by
  cases k with
  | data1 => exact load16_congr h
  | data2 => exact load16_congr h

theorem PacketKind.length_congr
    (h : ∀ j < 2, packet (k.size - 5 + j) = packet' (k.size - 5 + j)) :
    k.length packet = k.length packet' := by
  cases k with
  | data1 => exact load16_congr h
  | data2 => exact load16_congr h

end Packet

theorem crcReceived_shift (data : Mem) (i : Nat) {stop : Nat} (h : 3 ≤ stop) :
    crcReceived (data.shift i) stop = crcReceived data (i + stop) := by
  simp only [crcReceived, shift_apply, Nat.add_sub_assoc (show 3 ≤ stop from h),
    Nat.add_sub_assoc (show 2 ≤ stop by omega), Nat.add_sub_assoc (show 1 ≤ stop by omega)]

/-- The received checksum depends on its three bytes only. -/
theorem crcReceived_congr {m m' : Mem} {stop : Nat}
    (h : ∀ d, 0 < d → d ≤ 3 → m (stop - d) = m' (stop - d)) :
    crcReceived m stop = crcReceived m' stop := by
  rw [crcReceived, crcReceived, h 3 (by omega) le_rfl, h 2 (by omega) (by omega),
    h 1 (by omega) (by omega)]

theorem frameAt_of_header {data : Mem} {len i : Nat} {k : PacketKind} (h : HeaderAt data len i k) :
    frameAt data len i = checkPacket data len i k := by
  cases k with
  | data1 => rw [frameAt, if_pos h]
  | data2 =>
      have other : ¬ HeaderAt data len i .data1 := fun h1 => not_hasHeader_both h1.2 h.2
      rw [frameAt, if_neg other, if_pos h]

theorem checkPacket_eq_some {data : Mem} {len i : Nat} {k : PacketKind} {f : RawFrame} :
    checkPacket data len i k = some f ↔
      f.kind = k ∧ k.type (data.shift i) = f.type ∧ k.length (data.shift i) = f.length ∧
        f.length ≤ len - i - k.size ∧
        rtkCrc24q (data.shift i) (f.length + (k.size - 3)) = crcReceived data (i + f.size) := by
  obtain ⟨kind, type, length⟩ := f
  simp only [checkPacket, RawFrame.size]
  constructor
  · intro h
    split at h
    · cases h
    · rename_i fits
      split at h
      · rename_i crc
        cases h
        exact ⟨rfl, rfl, rfl, Nat.not_lt.mp fits, by rw [crc, Nat.add_assoc]⟩
      · cases h
  · rintro ⟨rfl, rfl, rfl, fits, crc⟩
    rw [if_neg (Nat.not_lt.mpr fits), Nat.add_assoc, if_pos crc]

/-- **What the scanner accepts**: a valid frame that lies in the buffer, with
one byte to spare behind an empty one. -/
theorem frameAt_eq_some {data : Mem} {len i : Nat} {f : RawFrame} :
    frameAt data len i = some f ↔
      FrameValid data i f ∧ i + f.size ≤ len ∧ i + f.kind.size < len := by
  constructor
  · intro h
    have found : ∃ k, HeaderAt data len i k ∧ checkPacket data len i k = some f := by
      rw [frameAt] at h
      split at h
      · exact ⟨_, ‹_›, h⟩
      · split at h
        · exact ⟨_, ‹_›, h⟩
        · cases h
    obtain ⟨k, ⟨room, header⟩, check⟩ := found
    obtain ⟨rfl, type, length, fits, crc⟩ := checkPacket_eq_some.mp check
    refine ⟨⟨header, type, length, crc⟩, ?_, by omega⟩
    rw [RawFrame.size]
    omega
  · rintro ⟨valid, fits, room⟩
    rw [frameAt_of_header (k := f.kind) ⟨by omega, valid.header⟩]
    refine checkPacket_eq_some.mpr ⟨rfl, valid.type, valid.length, ?_, valid.crc⟩
    rw [RawFrame.size] at fits
    omega

theorem PacketKind.size_ge (k : PacketKind) : 11 ≤ k.size := by
  cases k <;> simp [PacketKind.size]

/-- A frame is found only where the loop looks. -/
theorem lt_of_frameAt {data : Mem} {len i : Nat} {f : RawFrame} (h : frameAt data len i = some f) :
    i < len - 3 := by
  have room := (frameAt_eq_some.mp h).2.2
  have := f.kind.size_ge
  omega

/-- A frame is determined by its own bytes. -/
theorem FrameValid.congr {data data' : Mem} {i i' : Nat} {f : RawFrame}
    (h : ∀ k < f.size, data (i + k) = data' (i' + k)) (valid : FrameValid data i f) :
    FrameValid data' i' f := by
  have size := f.kind.size_ge
  have whole : f.size = f.kind.size + f.length := rfl
  refine ⟨?_, ?_, ?_, ?_⟩
  · exact PacketKind.hasHeader_congr (fun k hk => h k (by omega)) valid.header
  · refine Eq.trans ?_ valid.type
    exact (PacketKind.type_congr fun k hk => h _ (by omega)).symm
  · refine Eq.trans ?_ valid.length
    exact (PacketKind.length_congr fun k hk => h _ (by omega)).symm
  · have computed : rtkCrc24q (data.shift i) (f.length + (f.kind.size - 3)) =
        rtkCrc24q (data'.shift i') (f.length + (f.kind.size - 3)) :=
      rtkCrc24q_congr fun k hk => h k (by omega)
    have received : crcReceived (data.shift i) f.size = crcReceived (data'.shift i') f.size :=
      crcReceived_congr fun d pos _ => h _ (by omega)
    rw [crcReceived_shift data i (by omega), crcReceived_shift data' i' (by omega)] at received
    exact computed.symm.trans (valid.crc.trans received)

/-- There is at most one frame at an offset. -/
theorem FrameValid.unique {data : Mem} {i : Nat} {f g : RawFrame} (hf : FrameValid data i f)
    (hg : FrameValid data i g) : f = g := by
  obtain ⟨kf, tf, lf⟩ := f
  obtain ⟨kg, tg, lg⟩ := g
  have kinds : kf = kg := PacketKind.eq_of_hasHeader hf.header hg.header
  subst kinds
  rw [RawFrame.mk.injEq]
  exact ⟨rfl, hf.type.symm.trans hg.type, hf.length.symm.trans hg.length⟩

/-! ### What an iteration does -/

/-- How far an accepted frame moves the index. -/
def RawFrame.advance (f : RawFrame) : Nat :=
  match f.kind with
  | .data1 => f.length
  | .data2 => 1

theorem sizeT_skipPacket (i length : Nat) :
    sizeT (skipPacket i length + 1) = sizeT (i + length) := by
  simp only [sizeT, skipPacket]
  omega

theorem RawFrame.advance_lt_size (f : RawFrame) : f.advance < f.size := by
  obtain ⟨kind, type, length⟩ := f
  cases kind <;> simp only [RawFrame.advance, RawFrame.size, PacketKind.size] <;> omega

variable {data : Mem} {len : Nat} {s : ScanState}

theorem scanStep_of_none (h : frameAt data len s.i = none) (hlen : len < 2 ^ 64)
    (hs : Scanning len s) : scanStep data len s = { s with i := s.i + 1 } := by
  have hi : s.i < len - 3 := hs
  have next : sizeT (s.i + 1) = s.i + 1 := Nat.mod_eq_of_lt (by omega)
  simp only [scanStep, h, next]

/-- An accepted frame is logged, and moves the index by its advance. -/
theorem scanStep_of_some {f : RawFrame} (h : frameAt data len s.i = some f)
    (hlen : len < 2 ^ 64) :
    scanStep data len s =
      { i := s.i + f.advance
        handleCnt := match f.kind with | .data1 => s.i + f.length | .data2 => s.handleCnt
        accepted := s.accepted ++ [(s.i, f)] } := by
  obtain ⟨-, fits, -⟩ := frameAt_eq_some.mp h
  have room := lt_of_frameAt h
  obtain ⟨kind, type, length⟩ := f
  cases kind with
  | data1 =>
      simp only [RawFrame.size, PacketKind.size] at fits
      have next : sizeT (s.i + length) = s.i + length := Nat.mod_eq_of_lt (by omega)
      simp only [scanStep, h, sizeT_skipPacket, next, RawFrame.advance]
  | data2 =>
      have next : sizeT (s.i + 1) = s.i + 1 := Nat.mod_eq_of_lt (by omega)
      simp only [scanStep, h, next, RawFrame.advance]

end Ok3506.Gnss
