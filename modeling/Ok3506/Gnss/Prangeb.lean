import Ok3506.Gnss.Dispatch

/-!
The observations of a PRANGEB frame.

A `RawPrangeb` is a raw value for every field of a frame, the reserved bits
included; its satellites and signals are as many as their counts can say.
`bytes` packs it in the order of `decode_prangeb`, and the decoder reads the
observations back, each field at an offset that the counts before it decide.
The scale of `cn0` is a quarter, not the hundredth that the structure documents.
-/

namespace Ok3506.Gnss

open Mem Bits

/-! ### Raw frames -/

/-- `PRANGEB_MAX_SATS`, the length of `sat_info` and of each `signal_info`. -/
def prangebMaxSats : Nat := 64

/-- The raw values of a signal, the reserved bits with them. -/
structure RawSignal where
  signalId : BitVec 6
  phaseLockFlag : BitVec 4
  precisePr : BitVec 15
  precisePhase : BitVec 22
  precisePhaseRate : BitVec 15
  cn0 : BitVec 13
  halfCycle : BitVec 1
  reserved : BitVec 4

/-- The raw values of a satellite. Its signals fit the 4-bit count. -/
structure RawSat where
  satId : BitVec 6
  intMs : BitVec 8
  fracMs : BitVec 10
  approxPhaseRate : BitVec 14
  reserved : BitVec 6
  signals : List RawSignal
  atMost15 : signals.length ≤ 15

/-- The raw values of a PRANGEB frame. -/
structure RawPrangeb where
  head : List UInt8
  headLength : head.length = 8
  gpsWeekCount : BitVec 12
  gpsTowS : BitVec 20
  msCount : BitVec 7
  syncFlag : BitVec 1
  systemId : BitVec 3
  reserved : BitVec 7
  sats : List RawSat
  atMost63 : sats.length ≤ 63
  crc24 : BitVec 24

/-- The widths of a signal; the last field is reserved. -/
def signalWidths : List Nat := [6, 4, 15, 22, 15, 13, 1, 4]

/-- The widths of a satellite in front of its signals; the last field is reserved. -/
def satWidths : List Nat := [6, 4, 8, 10, 14, 6]

/-- The widths between the head and the satellites; the last field is reserved. -/
def headerWidths : List Nat := [12, 20, 7, 1, 3, 6, 7]

def RawSignal.vals (s : RawSignal) : List Nat :=
  [s.signalId.toNat, s.phaseLockFlag.toNat, s.precisePr.toNat, s.precisePhase.toNat,
   s.precisePhaseRate.toNat, s.cn0.toNat, s.halfCycle.toNat, s.reserved.toNat]

def RawSat.vals (s : RawSat) : List Nat :=
  [s.satId.toNat, s.signals.length, s.intMs.toNat, s.fracMs.toNat, s.approxPhaseRate.toNat,
   s.reserved.toNat]

def RawPrangeb.vals (f : RawPrangeb) : List Nat :=
  [f.gpsWeekCount.toNat, f.gpsTowS.toNat, f.msCount.toNat, f.syncFlag.toNat, f.systemId.toNat,
   f.sats.length, f.reserved.toNat]

def RawSignal.bits (s : RawSignal) : List Bool := packFields signalWidths s.vals

def RawSat.bits (s : RawSat) : List Bool :=
  packFields satWidths s.vals ++ s.signals.flatMap RawSignal.bits

def RawPrangeb.bits (f : RawPrangeb) : List Bool :=
  packFields headerWidths f.vals ++ (f.sats.flatMap RawSat.bits ++
    packFields [24] [f.crc24.toNat])

/-- The frame: the head and the packed fields. -/
def RawPrangeb.bytes (f : RawPrangeb) : List UInt8 := f.head ++ byteList f.bits

/-! ### What a frame says -/

/-- The observation of a signal. -/
def RawSignal.observed (s : RawSignal) : PrangebSignal where
  signalId := s.signalId.toNat
  phaseLockFlag := s.phaseLockFlag.toNat
  precisePr := .ofRat (s.precisePr.toInt * 2 ^ (-24 : Int))
  precisePhase := .ofRat (s.precisePhase.toInt * 2 ^ (-29 : Int))
  precisePhaseRate := .ofRat (s.precisePhaseRate.toInt * 2 ^ (-4 : Int))
  cn0 := .ofRat (s.cn0.toNat * 2 ^ (-2 : Int))
  halfCycle := s.halfCycle.toNat

/-- The observations of a satellite. -/
def RawSat.observed (s : RawSat) : PrangebSat where
  satId := s.satId.toNat
  signalCount := s.signals.length
  apdMs := .ofRat (s.intMs.toNat + s.fracMs.toNat / 1024)
  approxPhaseRate := s.approxPhaseRate.toInt
  signalInfo := s.signals.map RawSignal.observed

/-- The observations of a frame. -/
def RawPrangeb.observed (f : RawPrangeb) : PrangebDecoded where
  head := f.head
  gpsWeekCount := f.gpsWeekCount.toNat
  gpsTowS := f.gpsTowS.toNat
  msCount := f.msCount.toNat
  syncFlag := f.syncFlag.toNat
  systemId := f.systemId.toNat
  satCount := f.sats.length
  satInfo := f.sats.map RawSat.observed
  crc24 := f.crc24.toNat

/-- The loops write inside the arrays. -/
structure WithinArrays (p : PrangebDecoded) : Prop where
  sats : p.satInfo.length ≤ prangebMaxSats
  signals : ∀ sat ∈ p.satInfo, sat.signalInfo.length ≤ prangebMaxSats

/-! ### One signal -/

theorem RawSignal.fits (s : RawSignal) :
    List.Forall₂ (fun w r => r < 2 ^ w) signalWidths s.vals :=
  .cons s.signalId.isLt <| .cons s.phaseLockFlag.isLt <| .cons s.precisePr.isLt <|
    .cons s.precisePhase.isLt <| .cons s.precisePhaseRate.isLt <| .cons s.cn0.isLt <|
    .cons s.halfCycle.isLt <| .cons s.reserved.isLt .nil

theorem RawSignal.length_bits (s : RawSignal) : s.bits.length = 80 := by
  rw [RawSignal.bits, packFields_length s.fits]
  rfl

/-- The fields of the signal at `b`. -/
theorem value_run_decodePrangebSignal (m : Mem) (b : Nat) :
    (decodePrangebSignal.run m b).value =
      { signalId := bitsVal m b 6
        phaseLockFlag := bitsVal m (b + 6) 4
        precisePr := scalePow2 (toSigned 15 (bitsVal m (b + 10) 15)) (-24)
        precisePhase := scalePow2 (toSigned 22 (bitsVal m (b + 25) 22)) (-29)
        precisePhaseRate := scalePow2 (toSigned 15 (bitsVal m (b + 47) 15)) (-4)
        cn0 := scalePow2U (bitsVal m (b + 62) 13) (-2)
        halfCycle := bitsVal m (b + 75) 1 } := by
  simp only [decodePrangebSignal, BitReader.value_run_bind, BitReader.run_pure, run_takeBits,
    run_takeSignedBits, run_skip]
  simp only [Nat.add_assoc, Nat.reduceAdd, readBitsBe_eq]
  rw [uint8_bitsVal m b (by omega), uint8_bitsVal m (b + 6) (by omega),
    uint8_bitsVal m (b + 75) (by omega), uint16_bitsVal m (b + 62) (by omega),
    int16_readSignedBitsBe m (b + 10) (by omega) (by omega),
    int16_readSignedBitsBe m (b + 47) (by omega) (by omega),
    int32_readSignedBitsBe m (b + 25) (by omega) (by omega)]

theorem inverts_decodePrangebSignal :
    decodePrangebSignal.Inverts RawSignal.bits RawSignal.observed := by
  intro m b s h
  have fields := h.readFields s.fits
  simp only [signalWidths, readFields, RawSignal.vals, List.cons.injEq, Nat.add_assoc,
    Nat.reduceAdd, and_true] at fields
  obtain ⟨signalId, lock, pr, phase, rate, cn0, half, -⟩ := fields
  constructor
  · rw [value_run_decodePrangebSignal, signalId, lock, pr, phase, rate, cn0, half,
      ← toInt_eq_toSigned, ← toInt_eq_toSigned, ← toInt_eq_toSigned]
    rfl
  · rw [bit_run_decodePrangebSignal, s.length_bits]

/-! ### One satellite -/

theorem RawSat.fits (s : RawSat) : List.Forall₂ (fun w r => r < 2 ^ w) satWidths s.vals :=
  have count : s.signals.length < 2 ^ 4 := Nat.lt_succ_of_le s.atMost15
  .cons s.satId.isLt <| .cons count <| .cons s.intMs.isLt <| .cons s.fracMs.isLt <|
    .cons s.approxPhaseRate.isLt <| .cons s.reserved.isLt .nil

theorem RawSat.length_bits (s : RawSat) : s.bits.length = 48 + 80 * s.signals.length := by
  have signals : (s.signals.flatMap RawSignal.bits).length = 80 * s.signals.length := by
    rw [List.length_flatMap, List.map_congr_left fun signal _ => signal.length_bits,
      List.map_const', List.sum_replicate, smul_eq_mul, Nat.mul_comm]
  rw [RawSat.bits, List.length_append, packFields_length s.fits, signals]
  rfl

/-- The fields of the satellite at `b`, its signals behind them. -/
theorem value_run_decodePrangebSat (m : Mem) (b : Nat) :
    (decodePrangebSat.run m b).value =
      { satId := bitsVal m b 6
        signalCount := bitsVal m (b + 6) 4
        apdMs := .ofRat (bitsVal m (b + 10) 8) + scalePow2 (bitsVal m (b + 18) 10) (-10)
        approxPhaseRate := toSigned 14 (bitsVal m (b + 28) 14)
        signalInfo := ((BitReader.times (bitsVal m (b + 6) 4) decodePrangebSignal).run m
          (b + 48)).value } := by
  simp only [decodePrangebSat, BitReader.value_run_bind, BitReader.run_pure, run_takeBits,
    run_takeSignedBits, run_skip]
  simp only [Nat.add_assoc, Nat.reduceAdd, readBitsBe_eq]
  rw [uint8_bitsVal m b (by omega), uint8_bitsVal m (b + 6) (by omega),
    uint16_bitsVal m (b + 10) (by omega), uint16_bitsVal m (b + 18) (by omega),
    int16_readSignedBitsBe m (b + 28) (by omega) (by omega)]

/-- The whole milliseconds and their fraction. -/
theorem apdMs_eq (intMs fracMs : Nat) :
    RatPi.ofRat intMs + scalePow2 fracMs (-10) = .ofRat (intMs + fracMs / 1024) := by
  ext
  · change (intMs : ℚ) + ((fracMs : Int) : ℚ) * 2 ^ (-10 : Int) = _
    norm_num [RatPi.ofRat, div_eq_mul_inv]
  · exact add_zero (0 : ℚ)

theorem inverts_decodePrangebSat : decodePrangebSat.Inverts RawSat.bits RawSat.observed := by
  intro m b s h
  obtain ⟨front, signals⟩ := spells_append.mp h
  have fields := front.readFields s.fits
  rw [packFields_length s.fits] at signals
  change Spells m (b + 48) _ at signals
  simp only [satWidths, readFields, RawSat.vals, List.cons.injEq, Nat.add_assoc,
    Nat.reduceAdd, and_true] at fields
  obtain ⟨satId, count, intMs, fracMs, rate, -⟩ := fields
  constructor
  · rw [value_run_decodePrangebSat, satId, count, intMs, fracMs, rate, apdMs_eq,
      ← toInt_eq_toSigned, (inverts_decodePrangebSignal.times signals).1]
    rfl
  · rw [bit_run_decodePrangebSat, count, s.length_bits, Nat.add_assoc]

/-! ### The frame -/

theorem RawPrangeb.fits (f : RawPrangeb) :
    List.Forall₂ (fun w r => r < 2 ^ w) headerWidths f.vals :=
  have count : f.sats.length < 2 ^ 6 := Nat.lt_succ_of_le f.atMost63
  .cons f.gpsWeekCount.isLt <| .cons f.gpsTowS.isLt <| .cons f.msCount.isLt <|
    .cons f.syncFlag.isLt <| .cons f.systemId.isLt <| .cons count <| .cons f.reserved.isLt .nil

theorem RawPrangeb.crc24_fits (f : RawPrangeb) :
    List.Forall₂ (fun w r => r < 2 ^ w) [24] [f.crc24.toNat] :=
  .cons f.crc24.isLt .nil

/-- The fields fill whole bytes. -/
theorem RawPrangeb.dvd_length_bits (f : RawPrangeb) : 8 ∣ f.bits.length := by
  have sats : 8 ∣ (f.sats.flatMap RawSat.bits).length := by
    rw [List.length_flatMap]
    apply List.dvd_sum
    intro n h
    obtain ⟨s, -, rfl⟩ := List.mem_map.mp h
    rw [s.length_bits]
    omega
  rw [RawPrangeb.bits, List.length_append, List.length_append, packFields_length f.fits,
    packFields_length f.crc24_fits]
  change 8 ∣ 56 + (_ + 24)
  omega

/-- The decoder, past the check for three bytes. -/
theorem value_run_decodePrangeb (m : Mem) {payloadLen : Nat} (h : 3 ≤ payloadLen) :
    ((decodePrangeb payloadLen).run m 0).value =
      { head := m.bytes 0 8
        gpsWeekCount := bitsVal m 64 12
        gpsTowS := bitsVal m 76 20
        msCount := bitsVal m 96 7
        syncFlag := bitsVal m 103 1
        systemId := bitsVal m 104 3
        satCount := bitsVal m 107 6
        satInfo := ((BitReader.times (bitsVal m 107 6) decodePrangebSat).run m 120).value
        crc24 := bitsVal m (satsEnd m (bitsVal m 107 6) 120) 24 } := by
  rw [decodePrangeb, if_neg (Nat.not_lt.mpr h)]
  simp only [BitReader.value_run_bind, BitReader.run_pure, run_takeHead, run_takeBits, run_skip,
    run_peekBits, bit_run_times_decodePrangebSat]
  simp only [Nat.reduceAdd, Nat.reduceMul, readBitsBe_eq]
  rw [uint16_bitsVal m 64 (by omega), uint8_bitsVal m 96 (by omega),
    uint8_bitsVal m 103 (by omega), uint8_bitsVal m 104 (by omega),
    uint8_bitsVal m 107 (by omega)]

theorem value_run_decodePrangeb_short (m : Mem) {payloadLen : Nat} (h : payloadLen < 3) :
    ((decodePrangeb payloadLen).run m 0).value = ⟨List.replicate 8 0, 0, 0, 0, 0, 0, 0, [], 0⟩ := by
  rw [decodePrangeb, if_pos h]
  rfl

/-- Where a packed frame stands, the decoder reads its observations. -/
theorem value_run_decodePrangeb_bytes (f : RawPrangeb) (rest : Mem) {payloadLen : Nat}
    (h : 3 ≤ payloadLen) :
    ((decodePrangeb payloadLen).run (ofList f.bytes rest) 0).value = f.observed := by
  have spelled := spells_byteList f.dvd_length_bits f.head rest
  rw [f.headLength, ← RawPrangeb.bytes] at spelled
  obtain ⟨front, tail⟩ := spells_append.mp spelled
  obtain ⟨sats, crc⟩ := spells_append.mp tail
  rw [packFields_length f.fits] at sats crc
  change Spells (ofList f.bytes rest) 120 _ at sats
  change Spells (ofList f.bytes rest) (120 + _) _ at crc
  obtain ⟨satInfo, stop⟩ := inverts_decodePrangebSat.times sats
  rw [bit_run_times_decodePrangebSat] at stop
  rw [← stop] at crc
  have fields := front.readFields f.fits
  have checksum := crc.readFields f.crc24_fits
  simp only [headerWidths, readFields, RawPrangeb.vals, List.cons.injEq, Nat.reduceAdd,
    Nat.reduceMul, and_true] at fields checksum
  obtain ⟨week, tow, ms, sync, system, count, -⟩ := fields
  have head : (ofList f.bytes rest).bytes 0 8 = f.head := by
    rw [← f.headLength, bytes_eq_iff]
    intro k hk
    rw [Nat.zero_add, RawPrangeb.bytes, ofList_apply_lt rest (by rw [List.length_append]; omega),
      List.getElem_append_left hk]
  rw [value_run_decodePrangeb _ h, head, week, tow, ms, sync, system, count, satInfo, checksum]
  rfl

/-- The counts keep the loops inside the arrays, whatever the packet. -/
theorem withinArrays_decodePrangeb (m : Mem) (payloadLen : Nat) :
    WithinArrays ((decodePrangeb payloadLen).run m 0).value := by
  by_cases short : payloadLen < 3
  · rw [value_run_decodePrangeb_short m short]
    exact ⟨Nat.zero_le _, fun _ h => absurd h List.not_mem_nil⟩
  · rw [value_run_decodePrangeb m (Nat.not_lt.mp short)]
    constructor
    case sats =>
      rw [BitReader.length_value_times]
      exact (bitsVal_lt m 107 6).le
    case signals =>
      intro sat h
      obtain ⟨b, rfl⟩ := BitReader.exists_of_mem_value_times h
      rw [value_run_decodePrangebSat, BitReader.length_value_times]
      exact (bitsVal_lt m (b + 6) 4).le.trans (by decide)

/-- **Every observation is recovered.** A packed frame decodes to what it says,
whatever lies behind it, and no packet takes the loops out of the arrays. -/
theorem decodePrangeb_recovers (f : RawPrangeb) (rest : Mem) {payloadLen : Nat}
    (long : 3 ≤ payloadLen) :
    ((decodePrangeb payloadLen).run (ofList f.bytes rest) 0).value = f.observed ∧
      ∀ packet, WithinArrays ((decodePrangeb payloadLen).run packet 0).value :=
  ⟨value_run_decodePrangeb_bytes f rest long,
    fun packet => withinArrays_decodePrangeb packet payloadLen⟩

/-- A signal at the ratio of the documented example. -/
def exampleSignal : RawSignal where
  signalId := 3
  phaseLockFlag := 9
  precisePr := 0x7fff
  precisePhase := 0x200001
  precisePhaseRate := 5
  cn0 := 4295
  halfCycle := 1
  reserved := 0

/-- A satellite without signals and one with that signal. -/
def exampleFrame : RawPrangeb where
  head := [0x43, 0x53, 0x48, 0x47, 61, 0, 29, 0]
  headLength := rfl
  gpsWeekCount := 2380
  gpsTowS := 345600
  msCount := 4
  syncFlag := 0
  systemId := 1
  reserved := 0
  sats := [⟨5, 70, 512, 0x3fff, 0, [], by decide⟩, ⟨12, 68, 1, 20, 0, [exampleSignal], by decide⟩]
  atMost63 := by decide
  crc24 := 0xafeddf

/-- The scan accepts the frame. -/
example : frameAt (ofList exampleFrame.bytes fun _ => 0) 40 0 = some ⟨.data1, rawPrangeb, 29⟩ := by
  decide +kernel

theorem decodePrangeb_recovers_example :
    ((decodePrangeb 29).run (ofList exampleFrame.bytes fun _ => 0) 0).value =
        exampleFrame.observed ∧
      ∀ packet, WithinArrays ((decodePrangeb 29).run packet 0).value :=
  decodePrangeb_recovers exampleFrame (fun _ => 0) (by decide)

/-! ### Carrier-to-noise ratios -/

/-- Where satellite `i` of a packet begins. -/
def satStart (packet : Mem) (i : Nat) : Nat := satsEnd packet i 120

/-- The raw carrier-to-noise field of signal `j` of satellite `i`. -/
def rawCn0 (packet : Mem) (i j : Nat) : Nat :=
  bitsVal packet (satStart packet i + 48 + 80 * j + 62) 13

/-- The unit that the structure documents: 4295 stands for 42.95 dB. -/
def documentedCn0 (raw : Nat) : RatPi := .ofRat (raw / 100)

/-- Every decoded carrier-to-noise ratio is in the documented unit. -/
def Cn0Documented (packet : Mem) (payloadLen : Nat) : Prop :=
  ∀ i sat, ((decodePrangeb payloadLen).run packet 0).value.satInfo[i]? = some sat →
    ∀ j signal, sat.signalInfo[j]? = some signal →
      signal.cn0 = documentedCn0 (rawCn0 packet i j)

/-- Every announced raw field is zero. -/
def Cn0Zero (packet : Mem) : Prop :=
  ∀ i < bitsVal packet 107 6, ∀ j < bitsVal packet (satStart packet i + 6) 4, rawCn0 packet i j = 0

/-- The two units agree at zero only. -/
theorem scalePow2U_eq_documentedCn0 {raw : Nat} :
    scalePow2U raw (-2) = documentedCn0 raw ↔ raw = 0 := by
  constructor
  · intro same
    have quarter : (raw : ℚ) * 2 ^ (-2 : Int) = raw / 100 := congrArg RatPi.rat same
    have : (raw : ℚ) = 0 := by
      norm_num at quarter
      linarith
    exact_mod_cast this
  · rintro rfl
    simp [scalePow2U, documentedCn0, RatPi.ofRat]

/-- The entries of `sat_info`. -/
theorem getElem?_satInfo (m : Mem) {payloadLen i : Nat} (long : 3 ≤ payloadLen)
    (h : i < bitsVal m 107 6) :
    ((decodePrangeb payloadLen).run m 0).value.satInfo[i]? =
      some (decodePrangebSat.run m (satStart m i)).value := by
  rw [value_run_decodePrangeb m long, BitReader.getElem?_value_times _ _ h,
    bit_run_times_decodePrangebSat, satStart]

/-- The entries of `signal_info`. -/
theorem getElem?_signalInfo (m : Mem) {b j : Nat} (h : j < bitsVal m (b + 6) 4) :
    (decodePrangebSat.run m b).value.signalInfo[j]? =
      some (decodePrangebSignal.run m (b + 48 + 80 * j)).value := by
  rw [value_run_decodePrangebSat, BitReader.getElem?_value_times _ _ h,
    BitReader.bit_run_times bit_run_decodePrangebSignal]

/-- The documented unit is met where there is nothing to scale. -/
theorem cn0Documented_iff (packet : Mem) (payloadLen : Nat) :
    Cn0Documented packet payloadLen ↔ payloadLen < 3 ∨ Cn0Zero packet := by
  by_cases short : payloadLen < 3
  · refine iff_of_true ?_ (.inl short)
    intro i sat h
    rw [value_run_decodePrangeb_short packet short] at h
    cases h
  · rw [or_iff_right short]
    have long := Nat.not_lt.mp short
    constructor
    · intro documented i hi j hj
      have entry := getElem?_satInfo packet long hi
      have same := documented i _ entry j _ (getElem?_signalInfo packet hj)
      rw [value_run_decodePrangebSignal] at same
      exact scalePow2U_eq_documentedCn0.mp same
    · intro zero i sat hsat j signal hsignal
      have hi := (List.getElem?_eq_some_iff.mp hsat).1
      rw [value_run_decodePrangeb packet long, BitReader.length_value_times] at hi
      rw [getElem?_satInfo packet long hi, Option.some.injEq] at hsat
      subst hsat
      have hj := (List.getElem?_eq_some_iff.mp hsignal).1
      rw [value_run_decodePrangebSat, BitReader.length_value_times] at hj
      rw [getElem?_signalInfo packet hj, Option.some.injEq] at hsignal
      subst hsignal
      rw [value_run_decodePrangebSignal]
      exact scalePow2U_eq_documentedCn0.mpr (zero i hi j hj)

/-- The documented 42.95 dB is decoded as 1073.75. -/
theorem not_cn0Documented : ¬ Cn0Documented (ofList exampleFrame.bytes fun _ => 0) 29 := by
  intro documented
  have decoded := value_run_decodePrangeb_bytes exampleFrame (fun _ => 0)
    (by decide : 3 ≤ 29)
  have raw : rawCn0 (ofList exampleFrame.bytes fun _ => 0) 1 0 = 4295 := by decide +kernel
  have same := documented 1 _ (by rw [decoded]; rfl) 0 exampleSignal.observed rfl
  rw [raw] at same
  have ratios : ((4295 : ℕ) : ℚ) * 2 ^ (-2 : Int) = (4295 : ℕ) / 100 := congrArg RatPi.rat same
  norm_num at ratios

end Ok3506.Gnss
