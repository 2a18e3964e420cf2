import Ok3506.Gnss.Ephemeris
import Ok3506.Gnss.Posdata

/-!
The type switch of `handle_gnss_raw`.

`packetDecoder` is the decoder a frame is passed to, behind the length guard of
its case, and `switchPacket` what the case does with the record. Each guard is
the one of the source: a payload length for five kinds, `length > 0` for the
others. `decoder_inside_iff` compares them with the bits the decoders read.
-/

namespace Ok3506.Gnss

open Mem Bits

/-! ### The switch -/

def rawBd2ephb : Nat := 1
def rawBd3ephb : Nat := 2
def rawBd3cnav2ephb : Nat := 3
def rawBd3cnav3ephb : Nat := 4
def rawBdxwephb : Nat := 41
def rawGpsephb : Nat := 11
def rawGloephb : Nat := 21
def rawGalephb : Nat := 31
def rawGalinav : Nat := 32
def rawPrangeb : Nat := 61
def rawPrange2b : Nat := 62
def rawPosdatab : Nat := 0xF090

/-- The ephemeris case of a packet type. -/
def ephKindOf (type : Nat) : Option EphKind :=
  if type = rawBd2ephb then some .bd2
  else if type = rawBd3ephb then some .bd3
  else if type = rawBd3cnav2ephb then some .bd3cnav2
  else if type = rawBd3cnav3ephb then some .bd3cnav3
  else if type = rawBdxwephb then some .bdxw
  else if type = rawGpsephb then some .gps
  else if type = rawGloephb then some .glo
  else if type = rawGalephb ∨ type = rawGalinav then some .gal
  else none

/-- The length guard of an ephemeris case. -/
def LengthGuard (length : Nat) : EphKind → Prop
  | .bd2 => length ≥ 67
  | .bd3 => length ≥ 76
  | .bd3cnav2 => length > 0
  | .bd3cnav3 => length > 0
  | .bdxw => length > 0
  | .gps => length ≥ 64
  | .glo => length > 0
  | .gal => length ≥ 66

instance (length : Nat) : DecidablePred (LengthGuard length)
  | .bd2 | .bd3 | .bd3cnav2 | .bd3cnav3 | .bdxw | .gps | .glo | .gal =>
      inferInstanceAs (Decidable (_ ≤ length))

/-- A record of the switch. -/
inductive Decoded where
  | eph (kind : EphKind) (eph : EphRecord)
  | prangeb (p : PrangebDecoded)
  | posdatab (pos : PosdatabDecoded)

/-- The decoder that the switch passes a frame to. -/
def packetDecoder (f : RawFrame) : Option (BitReader Decoded) :=
  match f.kind with
  | .data1 =>
      match ephKindOf f.type with
      | some k => if LengthGuard f.length k then some (return .eph k (← decodeEph k)) else none
      | none =>
          if f.type = rawPrangeb ∨ f.type = rawPrange2b then
            if f.length > 0 then some (return .prangeb (← decodePrangeb f.length)) else none
          else none
  | .data2 =>
      if f.type = rawPosdatab then
        if f.length ≥ 70 then some (return .posdatab (← decodePosdatab)) else none
      else none

/-- The switches a case reads: the recording of the kind, and its bit of
`eph_sw`. -/
structure EphSwitches where
  fileEn : EphKind → Bool
  ephSw : EphKind → Bool

/-- What a case does with its record. -/
inductive SwitchAction where
  | fileAppend (kind : EphKind) (eph : EphRecord)
  | netSendEph (kind : EphKind) (eph : EphRecord)

/-- The kinds whose recording is not commented out. -/
def recordsFile : EphKind → Bool
  | .glo | .gal => false
  | _ => true

/-- The type switch on an accepted frame. -/
def switchPacket (sw : EphSwitches) (data : Mem) (p : Nat × RawFrame) : List SwitchAction :=
  match packetDecoder p.2 with
  | some d =>
      match (d.run (data.shift p.1) 0).value with
      | .eph k eph =>
          (if recordsFile k && sw.fileEn k then [.fileAppend k eph] else []) ++
            (if sw.ephSw k then [.netSendEph k eph] else [])
      | _ => []
  | none => []

/-! ### How far the decoders read -/

/-- The position behind the satellites that the counts of a PRANGEB packet
announce. -/
def satsEnd (packet : Mem) : Nat → Nat → Nat
  | 0, off => off
  | n + 1, off => satsEnd packet n (off + 48 + 80 * bitsVal packet (off + 6) 4)

/-- The bits of a PRANGEB packet with the announced satellites and signals. -/
def prangebBits (packet : Mem) : Nat := satsEnd packet (bitsVal packet 107 6) 120 + 24

/-- The payload that the layout of a kind fills. -/
def payloadLen : EphKind → Nat
  | .bd2 => 67
  | .bd3 | .bd3cnav2 | .bd3cnav3 => 76
  | .bdxw => 93
  | .gps => 64
  | .glo => 35
  | .gal => 66

theorem headAndBody_eq (k : EphKind) :
    64 + bodyBits k = 8 * (PacketKind.data1.size + payloadLen k) := by
  cases k <;> decide +kernel

/-- The payload is as long as the fields that the decoder of the frame steps
over. -/
def LongEnough (packet : Mem) (f : RawFrame) : Prop :=
  match f.kind with
  | .data1 =>
      match ephKindOf f.type with
      | some k => payloadLen k ≤ f.length
      | none => f.length < 3 ∨ prangebBits packet ≤ 8 * f.size
  | .data2 => 70 ≤ f.length

/-- The decoder reads only bits of the first `size` bytes, so its record depends
on nothing behind them. -/
structure StaysInside (d : BitReader Decoded) (packet : Mem) (size : Nat) : Prop where
  below : (d.run packet 0).Below (8 * size)
  agrees : ∀ packet', (∀ k < size, packet k = packet' k) →
    (d.run packet' 0).value = (d.run packet 0).value

theorem staysInside_iff {d : BitReader Decoded} {packet : Mem} {size : Nat} :
    StaysInside d packet size ↔ (d.run packet 0).Below (8 * size) := by
  constructor
  · intro h
    exact h.below
  · intro h
    refine ⟨h, ?_⟩
    intro packet' agree
    rw [d.run_eq_of_agree h agree]

/-- The last thing a decoder reads is the checksum field, 24 bits at `last`. -/
structure ReadsUpTo {α : Type} (x : Reading α) (last : Nat) : Prop where
  within : ∀ r ∈ x.reads, r.1 + r.2 ≤ last + 24
  crc : (last, 24) ∈ x.reads

theorem ReadsUpTo.below_iff {α : Type} {x : Reading α} {last n : Nat} (h : ReadsUpTo x last) :
    x.Below n ↔ last + 24 ≤ n :=
  ⟨fun below => below _ h.crc, fun le r hr => (h.within r hr).trans le⟩

theorem readsUpTo_iff {α : Type} {x : Reading α} {last : Nat} :
    ReadsUpTo x last ↔ (∀ r ∈ x.reads, r.1 + r.2 ≤ last + 24) ∧ (last, 24) ∈ x.reads :=
  ⟨fun h => ⟨h.within, h.crc⟩, fun h => ⟨h.1, h.2⟩⟩

/-- An ephemeris decoder reads up to the end of its layout. -/
theorem decodeEph_readsUpTo (k : EphKind) (m : Mem) :
    ReadsUpTo ((decodeEph k).run m 0) (40 + bodyBits k) := by
  rw [readsUpTo_iff]
  cases k
  all_goals
    simp only [decodeEph, decodeBd2ephb, decodeBd3ephb, decodeBd3cnav2ephb, decodeBd3cnav3ephb,
      decodeBdxwephb, decodeGpsephb, decodeGloephb, decodeGalephb, BitReader.reads_run_bind,
      BitReader.run_pure, run_takeHead, run_takeBits, run_takeSignedBits, run_takeBits64,
      run_takeSignedBits64, run_peekBits, run_peekSignedBits, run_skip, Nat.reduceAdd,
      Nat.reduceMul]
    decide +kernel

theorem decodePosdatab_readsUpTo (m : Mem) : ReadsUpTo (decodePosdatab.run m 0) 656 := by
  rw [readsUpTo_iff]
  simp only [decodePosdatab, BitReader.reads_run_bind, BitReader.run_pure, run_takeHead,
    run_takeBits, run_takeSignedBits, run_takeSignedBits64, run_peekBits, Nat.reduceAdd,
    Nat.reduceMul]
  decide +kernel

/-! ### PRANGEB -/

theorem bit_run_decodePrangebSignal (m : Mem) (b : Nat) :
    (decodePrangebSignal.run m b).bit = b + 80 := by
  simp only [decodePrangebSignal, BitReader.bit_run_bind, BitReader.run_pure, run_takeBits,
    run_takeSignedBits, run_skip]

theorem forward_decodePrangebSignal : decodePrangebSignal.Forward :=
  (forward_takeBits 6).bind fun _ => (forward_takeBits 4).bind fun _ =>
    (forward_takeSignedBits 15).bind fun _ => (forward_takeSignedBits 22).bind fun _ =>
      (forward_takeSignedBits 15).bind fun _ => (forward_takeBits 13).bind fun _ =>
        (forward_takeBits 1).bind fun _ => (forward_skip 4).bind fun _ => BitReader.forward_pure _

theorem bit_run_decodePrangebSat (m : Mem) (b : Nat) :
    (decodePrangebSat.run m b).bit = b + 48 + 80 * bitsVal m (b + 6) 4 := by
  have count : uint8 (bitsVal m (b + 6) 4) = bitsVal m (b + 6) 4 :=
    uint8_bitsVal m (b + 6) (by omega)
  simp only [decodePrangebSat, BitReader.bit_run_bind, BitReader.run_pure, run_takeBits,
    run_takeSignedBits, run_skip, BitReader.bit_run_times bit_run_decodePrangebSignal,
    readBitsBe_eq, count]

theorem forward_decodePrangebSat : decodePrangebSat.Forward :=
  (forward_takeBits 6).bind fun _ => (forward_takeBits 4).bind fun n =>
    (forward_takeBits 8).bind fun _ => (forward_takeBits 10).bind fun _ =>
      (forward_takeSignedBits 14).bind fun _ => (forward_skip 6).bind fun _ =>
        (forward_decodePrangebSignal.times (uint8 n)).bind fun _ => BitReader.forward_pure _

/-- The satellites end where their counts say. -/
theorem bit_run_times_decodePrangebSat (m : Mem) (n b : Nat) :
    ((BitReader.times n decodePrangebSat).run m b).bit = satsEnd m n b := by
  induction n generalizing b with
  | zero => rfl
  | succ n ih =>
      rw [BitReader.times, BitReader.bit_run_bind, BitReader.bit_run_bind, ih,
        bit_run_decodePrangebSat, BitReader.run_pure, satsEnd]

theorem satsEnd_ge (m : Mem) (n off : Nat) : off ≤ satsEnd m n off := by
  induction n generalizing off with
  | zero => exact le_rfl
  | succ n ih =>
      have := ih (off + 48 + 80 * bitsVal m (off + 6) 4)
      rw [satsEnd]
      omega

/-- A reader that moves forward, before one that reads up to `last`. -/
theorem ReadsUpTo.bind {α β : Type} {d : BitReader α} {f : α → BitReader β} {m : Mem}
    {b last : Nat} (hd : d.Forward) (le : (d.run m b).bit ≤ last)
    (h : ReadsUpTo ((f (d.run m b).value).run m (d.run m b).bit) last) :
    ReadsUpTo ((d >>= f).run m b) last where
  within r hr := by
    rcases List.mem_append.mp hr with hr | hr
    · have := (hd m b).2 r hr
      omega
    · exact h.within r hr
  crc := List.mem_append_right _ h.crc

/-- The checksum field ends a decoder. -/
theorem readsUpTo_peekBits {α : Type} (f : Nat → α) (m : Mem) (b : Nat) :
    ReadsUpTo ((do return f (← peekBits 24) : BitReader α).run m b) b :=
  ⟨fun r h => by rw [List.mem_singleton.mp h], List.mem_singleton.mpr rfl⟩

/-- The announced satellites bound the decoder, not the payload length. -/
theorem decodePrangeb_readsUpTo (m : Mem) {payloadLen : Nat} (h : ¬ payloadLen < 3) :
    ReadsUpTo ((decodePrangeb payloadLen).run m 0) (satsEnd m (bitsVal m 107 6) 120) := by
  have ge := satsEnd_ge m (bitsVal m 107 6) 120
  have count : uint8 (readBitsBe m 107 6) = bitsVal m 107 6 := by
    rw [readBitsBe_eq]
    exact uint8_bitsVal m 107 (by omega)
  have sats : ((BitReader.times (uint8 (readBitsBe m 107 6)) decodePrangebSat).run m 120).bit =
      satsEnd m (bitsVal m 107 6) 120 := by
    rw [bit_run_times_decodePrangebSat, count]
  rw [decodePrangeb, if_neg h]
  refine .bind (forward_takeHead 8) (by simp only [run_takeHead]; omega) ?_
  refine .bind (forward_takeBits 12) (by simp only [run_takeHead, run_takeBits]; omega) ?_
  refine .bind (forward_takeBits 20) (by simp only [run_takeHead, run_takeBits]; omega) ?_
  refine .bind (forward_takeBits 7) (by simp only [run_takeHead, run_takeBits]; omega) ?_
  refine .bind (forward_takeBits 1) (by simp only [run_takeHead, run_takeBits]; omega) ?_
  refine .bind (forward_takeBits 3) (by simp only [run_takeHead, run_takeBits]; omega) ?_
  refine .bind (forward_takeBits 6) (by simp only [run_takeHead, run_takeBits]; omega) ?_
  refine .bind (forward_skip 7) (by simp only [run_takeHead, run_takeBits, run_skip]; omega) ?_
  refine .bind (forward_decodePrangebSat.times _) sats.le ?_
  exact sats ▸ readsUpTo_peekBits _ m _

/-! ### The guards -/

theorem reads_run_return {α β : Type} (d : BitReader α) (g : α → β) (m : Mem) (b : Nat) :
    ((do return g (← d) : BitReader β).run m b).reads = (d.run m b).reads := by
  rw [BitReader.reads_run_bind, BitReader.run_pure, List.append_nil]

theorem below_run_return {α β : Type} {d : BitReader α} {g : α → β} {m : Mem} {b n : Nat} :
    ((do return g (← d) : BitReader β).run m b).Below n ↔ (d.run m b).Below n := by
  rw [Reading.Below, Reading.Below, reads_run_return]

theorem below_decodePrangeb {packet : Mem} {length n : Nat} :
    ((decodePrangeb length).run packet 0).Below n ↔ length < 3 ∨ prangebBits packet ≤ n := by
  by_cases short : length < 3
  · refine iff_of_true ?_ (.inl short)
    rw [decodePrangeb, if_pos short]
    exact fun _ h => absurd h List.not_mem_nil
  · rw [(decodePrangeb_readsUpTo packet short).below_iff, prangebBits, or_iff_right short]

/-- What each guard is worth: the reads of a decoder end within the frame exactly
when the payload is long enough. -/
theorem below_packetDecoder_iff {f : RawFrame} {d : BitReader Decoded} (packet : Mem)
    (passed : packetDecoder f = some d) :
    (d.run packet 0).Below (8 * f.size) ↔ LongEnough packet f := by
  obtain ⟨kind, type, length⟩ := f
  cases kind with
  | data1 =>
      simp only [packetDecoder, LongEnough, RawFrame.size] at passed ⊢
      cases eph : ephKindOf type with
      | some k =>
          simp only [eph] at passed ⊢
          split at passed
          · cases passed
            have extent := headAndBody_eq k
            rw [below_run_return, (decodeEph_readsUpTo k packet).below_iff]
            omega
          · cases passed
      | none =>
          simp only [eph] at passed ⊢
          split at passed
          · split at passed
            · cases passed
              rw [below_run_return, below_decodePrangeb]
            · cases passed
          · cases passed
  | data2 =>
      simp only [packetDecoder, LongEnough, RawFrame.size] at passed ⊢
      split at passed
      · split at passed
        · cases passed
          rw [below_run_return, (decodePosdatab_readsUpTo packet).below_iff, PacketKind.size]
          omega
        · cases passed
      · cases passed

/-- A frame that is long enough is handled the same wherever it lies and
whatever follows it. -/
theorem switchPacket_eq_of_agree {sw : EphSwitches} {data data' : Mem} {i i' : Nat} {f : RawFrame}
    (long : LongEnough (data.shift i) f)
    (agree : ∀ k < f.size, data.shift i k = data'.shift i' k) :
    switchPacket sw data' (i', f) = switchPacket sw data (i, f) := by
  cases passed : packetDecoder f with
  | none => simp only [switchPacket, passed]
  | some d =>
      have below := (below_packetDecoder_iff (data.shift i) passed).mpr long
      simp only [switchPacket, passed, d.run_eq_of_agree below agree]

/-- **Decoders and guards**: of the packets at an offset of a buffer that are
passed to a decoder, those are decoded from their own bytes alone whose payload
is long enough. -/
theorem decoder_inside_iff (data : Mem) (i : Nat) {f : RawFrame} {d : BitReader Decoded}
    (passed : packetDecoder f = some d) :
    StaysInside d (data.shift i) f.size ↔ LongEnough (data.shift i) f :=
  staysInside_iff.trans (below_packetDecoder_iff _ passed)

/-- A GPS ephemeris packet is decoded from its own bytes. -/
theorem decoder_inside_gpsPacket :
    frameAt (zeroPadded gpsPacket) 75 0 = some ⟨.data1, 11, 64⟩ ∧
      StaysInside (return .eph .gps (← decodeEph .gps)) ((zeroPadded gpsPacket).shift 0) 75 :=
  have long : LongEnough ((zeroPadded gpsPacket).shift 0) ⟨.data1, 11, 64⟩ := Nat.le_refl 64
  ⟨by decide +kernel,
    (decoder_inside_iff (f := ⟨.data1, 11, 64⟩) (zeroPadded gpsPacket) 0 rfl).mpr long⟩

/-- A GLONASS packet with one byte of payload. -/
def gloPacket : List UInt8 :=
  [0x43, 0x53, 0x48, 0x47, 0x15, 0x00, 0x01, 0x00, 0x00, 0x73, 0x54, 0x16]

/-- The scanner accepts the packet and passes it to a decoder that reads 46 bytes
of the 12. -/
theorem decoder_not_inside_gloPacket :
    ∃ d, frameAt (zeroPadded gloPacket) 12 0 = some ⟨.data1, 21, 1⟩ ∧
      packetDecoder ⟨.data1, 21, 1⟩ = some d ∧
      ¬ StaysInside d ((zeroPadded gloPacket).shift 0) 12 := by
  refine ⟨_, by decide +kernel, rfl, ?_⟩
  intro inside
  have below := below_run_return.mp inside.below
  have short := (decodeEph_readsUpTo .glo _).below_iff.mp below
  revert short
  decide +kernel

end Ok3506.Gnss
