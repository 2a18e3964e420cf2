import Ok3506.Gnss.Dispatch
import Ok3506.Gnss.EphPayload
import Ok3506.Lib.Lines
import Ok3506.Lib.Scientific

/-!
The recorded ephemerides.

A recording is a text with a line of column names and a row for each record. The integers of a
row are printed with `%u` and the doubles with twelve places behind the point. A reader that
splits the text at newlines and commas gets the members back, the doubles almost exactly, and
close enough to tell any two raw fields apart.
-/

namespace Ok3506.Gnss

open Mem CString Decimal Lines

/-! ### Rows -/

/-- An argument of `fprintf` under `%u` or under a conversion for doubles. -/
inductive Cell where
  | u (n : Nat)
  | e (x : ℚ)

/-- What is printed; `% .12e` leaves room for a sign, `%.12e` does not. -/
def Cell.text (blank : Bool) : Cell → List UInt8
  | .u n => decimal n
  | .e x => Scientific.text blank 12 x

/-- The cells with commas between them and a newline behind. -/
def csvRow (blank : Bool) (cells : List Cell) : List UInt8 :=
  List.intercalate [44] (cells.map (Cell.text blank)) ++ [10]

/-- The cell of a member that is an exact multiple of a power of two, printed as the double
that holds it. -/
def pow2Cell (x : RatPi) : Cell := .e (CMember.pow2.received x)

/-- The cell of a member in units of `M_PI`, printed as the double that the multiplication
rounds to. -/
def piPow2Cell (x : RatPi) : Cell := .e (CMember.piPow2.received x)

/-- The cell of a member in units of `1.0e-10`, printed as the double that the
multiplication rounds to. -/
def tenthNsCell (x : RatPi) : Cell := .e (CMember.tenthNs.received x)

/-- What `bd2ephb_file_append` prints. -/
def bd2ephbFileAppend (eph : Bd2ephbDecoded) : List UInt8 :=
  csvRow true
    [.u eph.gpsWeekCount, .u eph.gpsTowS, .u eph.bd2Satid, .u eph.bd2SvUrai, .u eph.bd2SvHealth,
     .u eph.bd2Week, .u eph.bd2Toe, .u eph.bd2Toc, pow2Cell eph.bd2Af0, pow2Cell eph.bd2Af1,
     pow2Cell eph.bd2Af2, .u eph.bd2Aode, .u eph.bd2Aodc, piPow2Cell eph.bd2Idot,
     pow2Cell eph.bd2Crs, pow2Cell eph.bd2Crc, pow2Cell eph.bd2Cus, pow2Cell eph.bd2Cuc,
     pow2Cell eph.bd2Cis, pow2Cell eph.bd2Cic, piPow2Cell eph.bd2DeltaN, piPow2Cell eph.bd2M0,
     pow2Cell eph.bd2Ecc, pow2Cell eph.bd2AHalf, piPow2Cell eph.bd2Omega0, piPow2Cell eph.bd2I0,
     piPow2Cell eph.bd2Omega, piPow2Cell eph.bd2Omegadot, tenthNsCell eph.bd2Tgd1,
     tenthNsCell eph.bd2Tgd2]

/-- What `bd3ephb_file_append` prints. -/
def bd3ephbFileAppend (eph : Bd3ephbDecoded) : List UInt8 :=
  csvRow true
    [.u eph.gpsWeekCount, .u eph.gpsTowS, .u eph.bd3Satid, .u eph.bd3Sattype, .u eph.bd3Week,
     .u eph.bd3Toe, .u eph.bd3Toc, pow2Cell eph.bd3Af0, pow2Cell eph.bd3Af1, pow2Cell eph.bd3Af2,
     .u eph.bd3Iode, .u eph.bd3Iodc, piPow2Cell eph.bd3Idot, pow2Cell eph.bd3Crs,
     pow2Cell eph.bd3Crc, pow2Cell eph.bd3Cus, pow2Cell eph.bd3Cuc, pow2Cell eph.bd3Cis,
     pow2Cell eph.bd3Cic, piPow2Cell eph.bd3DeltaN0, piPow2Cell eph.bd3DeltaN0Dot,
     piPow2Cell eph.bd3M0, pow2Cell eph.bd3Ecc, pow2Cell eph.bd3DeltaA, pow2Cell eph.bd3Adot,
     piPow2Cell eph.bd3Omega0, piPow2Cell eph.bd3I0, piPow2Cell eph.bd3Omega,
     piPow2Cell eph.bd3Omegadot, pow2Cell eph.bd3Tgdb1cp, pow2Cell eph.bd3Tgdb2ap,
     pow2Cell eph.bd3Iscb1cd]

/-- What `bdxwephb_file_append` prints; the four third harmonics are not among it. -/
def bdxwephbFileAppend (eph : BdxwephbDecoded) : List UInt8 :=
  csvRow false
    [.u eph.gpsWeekCount, .u eph.gpsTowS, .u eph.xwsSatid, .u eph.xwsSattype, .u eph.xwsWeek,
     .u eph.xwsToe, .u eph.xwsToc, pow2Cell eph.xwsAf0, pow2Cell eph.xwsAf1, .u eph.xwsIodc,
     .u eph.xwsIode, pow2Cell eph.xwsCrs, pow2Cell eph.xwsCrc, piPow2Cell eph.xwsCus,
     piPow2Cell eph.xwsCuc, piPow2Cell eph.xwsCis, piPow2Cell eph.xwsCic,
     piPow2Cell eph.xwsDeltaN0, piPow2Cell eph.xwsDeltaN0Dot, piPow2Cell eph.xwsM0,
     pow2Cell eph.xwsEcc, pow2Cell eph.xwsDeltaA0, piPow2Cell eph.xwsI0Dot, pow2Cell eph.xwsADot,
     piPow2Cell eph.xwsDeltaI0, piPow2Cell eph.xwsOmega0, piPow2Cell eph.xwsOmegaDot,
     piPow2Cell eph.xwsOmega]

/-- What `bd3cnav2ephb_file_append` prints. -/
def bd3cnav2ephbFileAppend (eph : Bd3cnav2ephbDecoded) : List UInt8 :=
  csvRow true
    [.u eph.gpsWeekCount, .u eph.gpsTowS, .u eph.bdsSatid, .u eph.bdsSattype, .u eph.bdsWeek,
     .u eph.bdsToe, .u eph.bdsToc, pow2Cell eph.bdsAf0, pow2Cell eph.bdsAf1, pow2Cell eph.bdsAf2,
     .u eph.bdsIode, .u eph.bdsIodc, piPow2Cell eph.bdsIdot, pow2Cell eph.bdsCrs,
     pow2Cell eph.bdsCrc, pow2Cell eph.bdsCus, pow2Cell eph.bdsCuc, pow2Cell eph.bdsCis,
     pow2Cell eph.bdsCic, piPow2Cell eph.bdsDeltaN0, pow2Cell eph.bdsDeltaN0Dot,
     piPow2Cell eph.bdsM0, pow2Cell eph.bdsEcc, pow2Cell eph.bdsAA, pow2Cell eph.bdsAdot,
     piPow2Cell eph.bdsOmega0, piPow2Cell eph.bdsI0, piPow2Cell eph.bdsOmega,
     piPow2Cell eph.bdsOmegadot, pow2Cell eph.bdsTgdb1cp, pow2Cell eph.bdsTgdb2ap,
     pow2Cell eph.bdsIscb2ad]

/-- What `bd3cnav3ephb_file_append` prints. -/
def bd3cnav3ephbFileAppend (eph : Bd3cnav3ephbDecoded) : List UInt8 :=
  csvRow true
    [.u eph.gpsWeekCount, .u eph.gpsTowS, .u eph.bdsSatid, .u eph.bdsSattype, .u eph.bdsWeek,
     .u eph.bdsToe, .u eph.bdsToc, pow2Cell eph.bdsAf0, pow2Cell eph.bdsAf1, pow2Cell eph.bdsAf2,
     .u eph.bdsIode, .u eph.bdsIodc, piPow2Cell eph.bdsIdot, pow2Cell eph.bdsCrs,
     pow2Cell eph.bdsCrc, pow2Cell eph.bdsCus, pow2Cell eph.bdsCuc, pow2Cell eph.bdsCis,
     pow2Cell eph.bdsCic, piPow2Cell eph.bdsDeltaN0, pow2Cell eph.bdsDeltaN0Dot,
     piPow2Cell eph.bdsM0, pow2Cell eph.bdsEcc, pow2Cell eph.bdsDeltaA, pow2Cell eph.bdsAdot,
     piPow2Cell eph.bdsOmega0, piPow2Cell eph.bdsI0, piPow2Cell eph.bdsOmega,
     piPow2Cell eph.bdsOmegadot, pow2Cell eph.bdsTgdb2bI]

/-- What `gpsephb_file_append` prints, by way of `buffer[2048]`. -/
def gpsephbFileAppend (eph : GpsephbDecoded) : List UInt8 :=
  (csvRow true
    [.u eph.gpsWeekCount, .u eph.gpsTowS, .u eph.gpsSatid, .u eph.gpsSvAccuracy,
     .u eph.gpsSvHealth, .u eph.gpsWeek, .u eph.gpsToe, .u eph.gpsToc, pow2Cell eph.gpsAf0,
     pow2Cell eph.gpsAf1, pow2Cell eph.gpsAf2, .u eph.gpsIode, .u eph.gpsIodc,
     pow2Cell eph.gpsIdot, pow2Cell eph.gpsCrs, pow2Cell eph.gpsCrc, pow2Cell eph.gpsCus,
     pow2Cell eph.gpsCuc, pow2Cell eph.gpsCis, pow2Cell eph.gpsCic, pow2Cell eph.gpsDeltaN,
     pow2Cell eph.gpsM0, pow2Cell eph.gpsEcc, pow2Cell eph.gpsAHalf, pow2Cell eph.gpsOmega0,
     pow2Cell eph.gpsI0, pow2Cell eph.gpsOmega, pow2Cell eph.gpsOmegadot, pow2Cell eph.gpsTgd,
     .u eph.gpsCodeOnL2, .u eph.gpsL2pDataFlag, .u eph.gpsFit]).take 2047

/-- The row of a record; the calls for GLONASS and Galileo are commented out. -/
def ephbFileAppend : EphRecord → List UInt8
  | .bd2 eph => bd2ephbFileAppend eph
  | .bd3 eph => bd3ephbFileAppend eph
  | .bd3cnav2 eph => bd3cnav2ephbFileAppend eph
  | .bd3cnav3 eph => bd3cnav3ephbFileAppend eph
  | .bdxw eph => bdxwephbFileAppend eph
  | .gps eph => gpsephbFileAppend eph
  | .glo _ | .gal _ => []

/-- The column names that `gnss_ephb_info_file_header` writes into a new file, with commas
between them; some of those of BDS-3 have tabs between them. -/
def columnNames : EphKind → List String
  | .bd2 =>
    ["gps_week_count", "gps_tow_s", "bd2_satid", "bd2_sv_urai", "bd2_sv_health", "bd2_week",
     "bd2_toe", "bd2_toc", "bd2_af0", "bd2_af1", "bd2_af2", "bd2_aode", "bd2_aodc", "bd2_idot",
     "bd2_crs", "bd2_crc", "bd2_cus", "bd2_cuc", "bd2_cis", "bd2_cic", "bd2_delta_n", "bd2_m0",
     "bd2_ecc", "bd2_a_half", "bd2_omega0", "bd2_i0", "bd2_omega", "bd2_omegadot", "bd2_tgd1",
     "bd2_tgd2"]
  | .bd3 =>
    ["gps_week_count", "gps_tow_s", "bd3_satid", "bd3_sattype", "bd3_week", "bd3_toe", "bd3_toc",
     "bd3_af0", "bd3_af1", "bd3_af2", "bd3_iode", "bd3_iodc", "bd3_idot", "bd3_crs", "bd3_crc",
     "bd3_cus", "bd3_cuc", "bd3_cis",
     "bd3_cic\tbd3_delta_n0\tbд3_delta_n0_dot\tbд3_m0\tbд3_ecc\tbд3_deltaA\tbд3_adot\t" ++
     "bд3_omega0\tbд3_i0\tbд3_omega\tbд3_omegadot\tbд3_tgdb1cp\tbд3_tgdb2ap\tbд3_iscb1cd"]
  | .bd3cnav2 =>
    ["gps_week_count", "gps_tow_s", "bds_satid", "bds_sattype", "bds_week", "bds_toe", "bds_toc",
     "bds_af0", "bds_af1", "bds_af2", "bds_iode", "bds_iodc", "bds_idot", "bds_crs", "bds_crc",
     "bds_cus", "bds_cuc", "bds_cis", "bds_cic", "bds_delta_n0", "bds_delta_n0_dot", "bds_m0",
     "bds_ecc", "bds_AA", "bds_adot", "bds_omega0", "bds_i0", "bds_omega", "bds_omegadot",
     "bds_tgdb1cp", "bds_tgdb2ap", "bds_iscb2ad"]
  | .bd3cnav3 =>
    ["gps_week_count", "gps_tow_s", "bds_satid", "bds_sattype", "bds_week", "bds_toe", "bds_toc",
     "bds_af0", "bds_af1", "bds_af2", "bds_iode", "bds_iodc", "but bgs_idot", "but bgs_crs",
     "but bgs_crc", "but bgs_cus", "but bgs_cuc", "but bgs_cis", "but bgs_cic",
     "but bgs_delta_n0", "but bgs_delta_n0_dot", "but bgs_m0", "but bgs_ecc", "but bgs_deltaA",
     "but bgs_adot", "but bgs_omega0", "but bgs_i0", "but bgs_omega", "but bgs_omegadot",
     "but bgs_tgdb2bI"]
  | .bdxw =>
    ["gps_week_count", "gps_tow_s", "xws_satid", "xws_sattype", "xws_week", "xws_toe", "xws_toc",
     "xws_af0", "xws_af1", "xws_iodc", "xws_iode", "xws_crs", "xws_crc", "xws_cus", "xws_cuc",
     "xws_cis", "xws_cic", "xws_delta_n0", "xws_delta_n0_dot", "xws_m0", "xws_ecc",
     "xws_deltaA0", "xws_i0_dot", "xws_a_dot", "xws_delta_i0", "xws_omega0", "xws_omega_dot",
     "xws_omega"]
  | .gps =>
    ["gps_week_count", "gps_tow_s", "gps_satid", "gps_sv_accuracy", "gps_sv_health", "gps_week",
     "gps_toe", "gps_toc", "gps_af0", "gps_af1", "gps_af2", "gps_iode", "gps_iodc", "gps_idot",
     "gps_crs", "gps_crc", "gps_cus", "gps_cuc", "gps_cis", "gps_cic", "gps_delta_n", "gps_m0",
     "gps_ecc", "gps_a_half", "gps_omega0", "gps_i0", "gps_omega", "gps_omegadot", "gps_tgd",
     "gps_code_on_l2", "gps_l2p_data_flag", "gps_fit"]
  | .glo =>
    ["gps_week_count", "gps_tow_s", "glo_satid", "glo_freq", "glo_bn_msb", "glo_n4", "glo_nt",
     "glo_tk_hour:glo_tk_min:glo_tk_sec", "glo_tb_minute:glo_tb_minute*glo_tb", " glo_gamma",
     " glo_tau", " glo_x", " glo_x_dot", " glo_x_ddot", " glo_y", " glo_y_dot", " glo_y_ddot",
     " glo_z", " glo_z_dot", " glo_z_ddot"]
  | .gal =>
    ["gps_week_count", "gps_tow_s", "gal_satid", "gal_sisa", "gal_e5b_sv_health",
     "gal_e5b_valid", "gal_e1b_health", "gal_e1b_valid", "gal_week", "gal_toe", "gal_toc",
     "gal_af0", "gal_af1", "gal_af2", "gal_iodnav", "gal_idot", "gal_crs", "gal_crc", "gal_cus",
     "gal_cuc", "gal_cis", "gal_cic", "gal_delta_n", "gal_m0", "gal_ecc", "gal_a_half",
     "gal_omega0", "gal_i0", "gal_omega", "gal_omegadot", "gal_bgd_e5a_e1", "gal_bgd_e5b_e1",
     "gal_navtype"]

/-- The UTF-8 bytes of a text; the column names of BDS-3 hold a letter outside ASCII. -/
def utf8 (s : String) : List UInt8 := s.toList.flatMap String.utf8EncodeChar

/-- The line of column names. -/
def headerLine (k : EphKind) : List UInt8 := List.intercalate [44] ((columnNames k).map utf8)

/-- A recording: the column names, and what each record appends. -/
def recording (k : EphKind) (ephs : List EphRecord) : List UInt8 :=
  ephs.foldl (fun text eph => text ++ ephbFileAppend eph) (headerLine k ++ [10])

/-- Of a table for all members, the entries of those that are printed. -/
def columns {α : Type} (k : EphKind) (l : List α) : List α :=
  match k with
  | .bdxw => l.take 17 ++ (l.drop 21).take 11
  | k => l.take (sentMembers k).length

/-! ### The reader -/

/-- Reads a cell: digits for an integer, the scientific notation for a double. -/
def CMember.parse : CMember → List UInt8 → Option ℚ
  | uint _, s => if s ≠ [] ∧ s.all isdigit then some (digitsValue s) else none
  | pow2, s | piPow2, s | tenthNs, s => Scientific.read s

/-- Reads the cells of a row, one for each member that is printed. -/
def parseCells : List CMember → List (List UInt8) → Option (List ℚ)
  | [], [] => some []
  | t :: ts, s :: cells => do
      let x ← t.parse s
      let xs ← parseCells ts cells
      return x :: xs
  | _, _ => none

/-- The rows of a recording, behind the line of column names. -/
def parseRecording (k : EphKind) (text : List UInt8) : Option (List (List ℚ)) :=
  (terminated 10 text).tail.mapM fun line => parseCells (columns k (members k)) (line.splitOn 44)

/-- What is read for a member: integers exactly, doubles up to the twelfth place. -/
def Recovers : CMember × ℚ → RatPi → Prop
  | (.uint _, v), x => x = .ofRat v
  | (.pow2, v), x | (.piPow2, v), x | (.tenthNs, v), x =>
      |(v : ℝ) - x.toReal| ≤ |x.toReal| / 10 ^ 12

/-! ### Columns -/

section Columns

variable {α β γ : Type} {k : EphKind}

theorem columns_map (k : EphKind) (g : α → β) (l : List α) :
    columns k (l.map g) = (columns k l).map g := by
  cases k <;> simp [columns, List.map_take, List.map_drop]

theorem columns_zipWith (g : α → β → γ) {l : List α} {r : List β} (same : l.length = r.length) :
    columns k (List.zipWith g l r) = List.zipWith g (columns k l) (columns k r) := by
  cases k with
  | bdxw =>
      simp only [columns, List.take_zipWith, List.drop_zipWith]
      rw [List.zipWith_append]
      rw [List.length_take, List.length_take, same]
  | bd2 | bd3 | bd3cnav2 | bd3cnav3 | gps | glo | gal => exact List.take_zipWith

theorem columns_forall₂ {R : α → β → Prop} {l : List α} {r : List β} (h : List.Forall₂ R l r) :
    List.Forall₂ R (columns k l) (columns k r) := by
  cases k with
  | bdxw =>
      exact List.rel_append (List.forall₂_take 17 h)
        (List.forall₂_take 11 (List.forall₂_drop 21 h))
  | bd2 | bd3 | bd3cnav2 | bd3cnav3 | gps | glo | gal => exact List.forall₂_take _ h

end Columns

/-! ### Cells -/

/-- The cell that is printed for a member: an integer, or the double that a receiver reads
too. -/
def CMember.cell : CMember → RatPi → Cell
  | uint _, x => .u x.rat.num.toNat
  | pow2, x => pow2Cell x
  | piPow2, x => piPow2Cell x
  | tenthNs, x => tenthNsCell x

/-- The number that a reader of the file gets back for a member. -/
def CMember.reread : CMember → RatPi → ℚ
  | uint _, x => x.rat
  | t, x => Scientific.printed 12 (t.received x)

section Cells

variable {t : CMember} {f : WireField} {raw raw' : Nat} {blank : Bool}

theorem parse_decimal (n bytes : Nat) : (CMember.uint bytes).parse (decimal n) = some (n : ℚ) := by
  have nonempty : decimal n ≠ [] := List.length_pos_iff.mp (length_decimal_pos n)
  have digits : (decimal n).all isdigit = true := List.all_eq_true.mpr (digits_decimal n)
  rw [CMember.parse, if_pos ⟨nonempty, digits⟩, digitsValue_decimal]

/-- **A cell** is read back as the number that was printed in it. -/
theorem Stored.parses (h : Stored t f) (fits : raw < 2 ^ f.width) :
    t.parse ((t.cell (f.value raw)).text blank) = some (t.reread (f.value raw)) := by
  cases t with
  | uint n =>
      obtain ⟨v, -, value⟩ := h.uint_value fits
      have back : (RatPi.ofRat (v : ℚ)).rat.num.toNat = v := by
        rw [RatPi.ofRat, Rat.num_natCast, Int.toNat_natCast]
      rw [value, CMember.cell, back, Cell.text, parse_decimal]
      rfl
  | pow2 | piPow2 | tenthNs => exact Scientific.read_text blank (by decide) _

/-- Neither a comma nor a newline stands in a cell. -/
theorem Cell.not_mem_text (cell : Cell) : 44 ∉ cell.text blank ∧ 10 ∉ cell.text blank := by
  cases cell with
  | u n =>
      constructor
      · exact fun mem => absurd (digits_decimal n _ mem) (by decide)
      · exact fun mem => absurd (digits_decimal n _ mem) (by decide)
  | e x =>
      constructor
      · exact fun mem => absurd (Scientific.mem_text mem) (by decide)
      · exact fun mem => absurd (Scientific.mem_text mem) (by decide)

/-- The value of a field as a real number: its integer times its unit. -/
theorem toReal_value (f : WireField) (raw : Nat) :
    (f.value raw).toReal = f.int raw * f.unit.toReal := by
  rw [WireField.value, RatPi.toReal_scale]
  norm_cast

/-- Printing adds less than the last of twelve places to what rounding has lost. -/
theorem Stored.recovers (h : Stored t f) (fits : raw < 2 ^ f.width) :
    Recovers (t, t.reread (f.value raw)) (f.value raw) := by
  have received := h.receives fits
  have printed (r : ℚ) : |(Scientific.printed 12 r : ℝ) - r| ≤ |(r : ℝ)| / (2 * 10 ^ 12) := by
    exact_mod_cast (Rat.cast_le (K := ℝ)).mpr (Scientific.abs_printed_sub_le 12 r)
  have close (r : ℚ) (near : |(r : ℝ) - (f.value raw).toReal| ≤
      |(f.value raw).toReal| / 2 ^ 51) :
      |(Scientific.printed 12 r : ℝ) - (f.value raw).toReal| ≤
        |(f.value raw).toReal| / 10 ^ 12 := by
    have split := abs_sub_le (Scientific.printed 12 r : ℝ) r (f.value raw).toReal
    have size : |(r : ℝ)| ≤ |(f.value raw).toReal| + |(f.value raw).toReal| / 2 ^ 51 := by
      have := abs_sub_abs_le_abs_sub (r : ℝ) (f.value raw).toReal
      linarith
    have := printed r
    have := abs_nonneg (f.value raw).toReal
    have : |(r : ℝ)| / (2 * 10 ^ 12) ≤
        (|(f.value raw).toReal| + |(f.value raw).toReal| / 2 ^ 51) / (2 * 10 ^ 12) :=
      div_le_div_of_nonneg_right size (by positivity)
    linarith
  cases t with
  | uint n => exact received
  | pow2 =>
      refine close _ ?_
      have value : f.value raw = .ofRat (CMember.pow2.received (f.value raw)) := received
      have same : (f.value raw).toReal = (CMember.pow2.received (f.value raw) : ℝ) := by
        conv_lhs => rw [value]
        simp [RatPi.ofRat, RatPi.toReal]
      rw [same, sub_self, abs_zero]
      positivity
  | piPow2 | tenthNs => exact close _ received

theorem Stored.unit_pos (h : Stored t f) : 0 < f.unit.toReal := by
  have pi := Real.pi_pos
  cases h with
  | uint => simp [WireField.uint, RatPi.ofRat, RatPi.toReal]
  | @times _ _ k =>
      have pos : 0 < k := NeZero.pos k
      simp [WireField.times, RatPi.ofRat, RatPi.toReal, pos]
  | signedPow2 | unsignedPow2 =>
      simp only [WireField.signedPow2, WireField.unsignedPow2, RatPi.toReal, Rat.cast_zero,
        zero_mul, add_zero]
      positivity
  | signedPi | unsignedPi =>
      simp only [WireField.signedPi, WireField.unsignedPi, RatPi.toReal, Rat.cast_zero, zero_add]
      positivity
  | tenthNs => simp [WireField.tenthNs, RatPi.toReal]

theorem abs_int_le {w : Nat} (fits : raw < 2 ^ f.width) (short : f.width ≤ w) :
    |f.int raw| ≤ 2 ^ w := by
  have low : 2 ^ f.width ≤ 2 ^ w := Nat.pow_le_pow_right (by decide) short
  have whole : ((2 ^ f.width : Nat) : Int) = 2 ^ f.width := by push_cast; rfl
  have cast : ((2 ^ w : Nat) : Int) = 2 ^ w := by push_cast; rfl
  rw [abs_le, WireField.int, Bits.toSigned]
  split
  · split <;> omega
  · omega

/-- Fields of up to 38 bits are told apart by twelve places. -/
theorem Stored.reread_injective (h : Stored t f) (fits : raw < 2 ^ f.width)
    (fits' : raw' < 2 ^ f.width) (short : f.width ≤ 38)
    (same : t.reread (f.value raw) = t.reread (f.value raw')) : raw = raw' := by
  have left := h.recovers fits
  have right := h.recovers fits'
  rw [← same] at right
  have double (left : |(t.reread (f.value raw) : ℝ) - (f.value raw).toReal| ≤
        |(f.value raw).toReal| / 10 ^ 12)
      (right : |(t.reread (f.value raw) : ℝ) - (f.value raw').toReal| ≤
        |(f.value raw').toReal| / 10 ^ 12) : raw = raw' := by
    have pos := h.unit_pos
    have size {r : Nat} (fits : r < 2 ^ f.width) :
        |(f.value r).toReal| ≤ 2 ^ 38 * f.unit.toReal := by
      have count : |f.int r| ≤ 2 ^ 38 := abs_int_le fits short
      rw [toReal_value, abs_mul, abs_of_pos pos]
      exact mul_le_mul_of_nonneg_right (by exact_mod_cast count) pos.le
    have apart : |(f.value raw).toReal - (f.value raw').toReal| < 1 * f.unit.toReal := by
      have split := abs_sub_le (f.value raw).toReal (t.reread (f.value raw) : ℝ)
        (f.value raw').toReal
      rw [abs_sub_comm _ (t.reread (f.value raw) : ℝ)] at split
      have := size fits
      have := size fits'
      linarith
    rw [toReal_value, toReal_value, ← sub_mul, abs_mul, abs_of_pos pos,
      mul_lt_mul_iff_left₀ pos] at apart
    have none : |f.int raw - f.int raw'| < 1 := by exact_mod_cast apart
    have int : f.int raw = f.int raw' := sub_eq_zero.mp (Int.abs_lt_one_iff.mp none)
    refine f.value_inj fits fits' ?_
    rw [WireField.value, int, ← WireField.value]
  cases t with
  | uint n => exact f.value_inj fits fits' (left.trans right.symm)
  | pow2 | piPow2 | tenthNs => exact double left right

/-- The double of a member is zero, or neither too small nor too large for three digits of an
exponent. -/
theorem Stored.exponent_lt (h : Stored t f) (double : ∀ n, t ≠ .uint n)
    (fits : raw < 2 ^ f.width) :
    (Scientific.exponent 12 (t.received (f.value raw))).natAbs < 1000 := by
  obtain ⟨short, c, low, high, number⟩ := h.unit double
  have received : t.received (f.value raw) = Double.round (f.int raw * c) := by
    rw [← number]
    cases t with
    | uint n => exact absurd rfl (double n)
    | pow2 | piPow2 | tenthNs => rfl
  have pos : 0 < c := (Double.two_zpow_pos _).trans_le low
  have powers : (2 : ℚ) ^ 1022 * 2 ≤ 10 ^ 999 := by
    calc
      (2 : ℚ) ^ 1022 * 2 = 2 ^ 1023 := (pow_succ _ _).symm
      _ ≤ 2 ^ (3 * 999) := pow_le_pow_right₀ one_le_two (by decide)
      _ = (2 ^ 3) ^ 999 := pow_mul _ _ _
      _ ≤ 10 ^ 999 := pow_le_pow_left₀ (by norm_num) (by norm_num) _
  have count : |(f.int raw : ℚ)| < 2 ^ 52 := by exact_mod_cast abs_int_lt fits short
  have magnitude : |(f.int raw : ℚ) * c| ≤ 2 ^ 54 := by
    rw [abs_mul, abs_of_pos pos]
    calc
      |(f.int raw : ℚ)| * c ≤ 2 ^ 52 * 4 := mul_le_mul count.le high pos.le (by norm_num)
      _ = 2 ^ 54 := by norm_num
  have error := Double.abs_round_sub_le_mul (Double.zero_or_normal low (f.int raw))
  rw [received]
  refine Nat.lt_succ_of_le (Scientific.natAbs_exponent_le (k := 999) ?_ ?_)
  · rcases Double.zero_or_normal low (f.int raw) with zero | normal
    · left
      rw [zero, Double.round_zero]
    · right
      have back := abs_sub_abs_le_abs_sub ((f.int raw : ℚ) * c) (Double.round (f.int raw * c))
      rw [abs_sub_comm] at back
      have half : |(f.int raw : ℚ) * c| / 2 ≤ |Double.round (f.int raw * c)| := by
        have := abs_nonneg ((f.int raw : ℚ) * c)
        linarith
      refine le_trans ?_ half
      calc
        (10 : ℚ) ^ (-(999 : ℕ) : ℤ) = (10 ^ 999)⁻¹ := by rw [zpow_neg, zpow_natCast]
        _ ≤ (2 ^ 1022 * 2)⁻¹ := inv_anti₀ (by positivity) powers
        _ = 2 ^ (-(1022 : ℕ) : ℤ) / 2 := by
          rw [mul_inv, zpow_neg, zpow_natCast, div_eq_mul_inv]
        _ ≤ |(f.int raw : ℚ) * c| / 2 := div_le_div_of_nonneg_right normal (by norm_num)
  · have back := abs_sub_abs_le_abs_sub (Double.round (f.int raw * c)) ((f.int raw : ℚ) * c)
    calc
      |Double.round (f.int raw * c)| ≤ 2 ^ 55 := by linarith
      _ < 2 ^ 1023 := pow_lt_pow_right₀ one_lt_two (by decide)
      _ = 2 ^ 1022 * 2 := pow_succ _ _
      _ ≤ 10 ^ 999 := powers
      _ = 10 ^ ((999 : ℕ) : ℤ) := (zpow_natCast _ _).symm

/-- The text of a cell has at most twenty characters, which bounds the row in
`buffer[2048]`. -/
theorem Stored.length_text_le (h : Stored t f) (fits : raw < 2 ^ f.width) (small : t.size ≤ 8) :
    ((t.cell (f.value raw)).text blank).length ≤ 20 := by
  cases t with
  | uint n =>
      obtain ⟨v, room, value⟩ := h.uint_value fits
      have back : (RatPi.ofRat (v : ℚ)).rat.num.toNat = v := by
        rw [RatPi.ofRat, Rat.num_natCast, Int.toNat_natCast]
      rw [value, CMember.cell, back, Cell.text, length_decimal_le_iff (by decide)]
      calc
        v < 256 ^ n := room
        _ ≤ 256 ^ 8 := Nat.pow_le_pow_right (by decide) small
        _ ≤ 10 ^ 20 := by decide
  | pow2 | piPow2 | tenthNs =>
      exact Scientific.length_text_le blank (h.exponent_lt (fun n eq => by cases eq) fits)

end Cells

/-! ### Rows and their cells -/

section Rows

variable {ts : List CMember} {fs : List WireField} {raws raws' : List Nat} {blank : Bool}

/-- The texts of the cells of a row, which the row joins by commas. -/
def cellTexts (blank : Bool) (ts : List CMember) (xs : List RatPi) : List (List UInt8) :=
  (List.zipWith CMember.cell ts xs).map (Cell.text blank)

theorem parseCells_cellTexts (h : List.Forall₂ Stored ts fs)
    (fits : List.Forall₂ (fun w r => r < 2 ^ w) (widths fs) raws) :
    parseCells ts (cellTexts blank ts (wireValues fs raws)) =
      some (List.zipWith CMember.reread ts (wireValues fs raws)) := by
  induction h generalizing raws with
  | nil => rfl
  | @cons t f ts fs first rest ih =>
      cases fits with
      | @cons _ raw _ raws fit fits =>
          have texts : cellTexts blank (t :: ts) (wireValues (f :: fs) (raw :: raws)) =
              (t.cell (f.value raw)).text blank :: cellTexts blank ts (wireValues fs raws) := rfl
          rw [texts, parseCells, first.parses fit, ih fits]
          rfl

theorem recovers_cells (h : List.Forall₂ Stored ts fs)
    (fits : List.Forall₂ (fun w r => r < 2 ^ w) (widths fs) raws) :
    List.Forall₂ Recovers (ts.zip (List.zipWith CMember.reread ts (wireValues fs raws)))
      (wireValues fs raws) := by
  induction h generalizing raws with
  | nil => exact .nil
  | cons first rest ih =>
      cases fits with
      | cons fit fits => exact .cons (first.recovers fit) (ih fits)

theorem reread_cells_injective (h : List.Forall₂ Stored ts fs)
    (fits : List.Forall₂ (fun w r => r < 2 ^ w) (widths fs) raws)
    (fits' : List.Forall₂ (fun w r => r < 2 ^ w) (widths fs) raws')
    (short : ∀ f ∈ fs, f.width ≤ 38)
    (same : List.zipWith CMember.reread ts (wireValues fs raws) =
      List.zipWith CMember.reread ts (wireValues fs raws')) : raws = raws' := by
  induction h generalizing raws raws' with
  | nil =>
      cases fits
      cases fits'
      rfl
  | cons first rest ih =>
      cases fits with
      | cons fit fits =>
          cases fits' with
          | cons fit' fits' =>
              obtain ⟨head, tail⟩ := List.cons.inj same
              rw [first.reread_injective fit fit' (short _ List.mem_cons_self) head,
                ih fits fits' (fun f mem => short f (List.mem_cons_of_mem _ mem)) tail]

theorem length_cellTexts_le (h : List.Forall₂ Stored ts fs)
    (fits : List.Forall₂ (fun w r => r < 2 ^ w) (widths fs) raws)
    (small : ∀ t ∈ ts, t.size ≤ 8) :
    ∀ l ∈ cellTexts blank ts (wireValues fs raws), l.length ≤ 20 := by
  induction h generalizing raws with
  | nil => exact fun l mem => absurd mem List.not_mem_nil
  | @cons t f ts fs first rest ih =>
      cases fits with
      | @cons _ raw _ raws fit fits =>
          have texts : cellTexts blank (t :: ts) (wireValues (f :: fs) (raw :: raws)) =
              (t.cell (f.value raw)).text blank :: cellTexts blank ts (wireValues fs raws) := rfl
          intro l mem
          rw [texts, List.mem_cons] at mem
          rcases mem with rfl | mem
          · exact first.length_text_le fit (small t List.mem_cons_self)
          · exact ih fits (fun t mem => small t (List.mem_cons_of_mem _ mem)) l mem

/-- The length of cells with a separator between them. -/
theorem length_intercalate_le {c : UInt8} {n : Nat} {cells : List (List UInt8)}
    (small : ∀ l ∈ cells, l.length ≤ n) :
    (List.intercalate [c] cells).length ≤ (n + 1) * cells.length := by
  induction cells with
  | nil => exact Nat.zero_le _
  | cons l cells ih =>
      have first := small l List.mem_cons_self
      have later := ih fun l mem => small l (List.mem_cons_of_mem _ mem)
      rw [List.length_cons, Nat.mul_succ]
      cases cells with
      | nil =>
          rw [List.intercalate_singleton]
          omega
      | cons l' cells =>
          rw [List.intercalate_cons_cons, List.length_append, List.length_append,
            List.length_singleton]
          omega

theorem mem_intercalate {c sep : UInt8} {cells : List (List UInt8)}
    (mem : c ∈ List.intercalate [sep] cells) : c = sep ∨ ∃ l ∈ cells, c ∈ l := by
  induction cells with
  | nil => exact absurd mem List.not_mem_nil
  | cons l cells ih =>
      cases cells with
      | nil =>
          rw [List.intercalate_singleton] at mem
          exact .inr ⟨l, List.mem_cons_self, mem⟩
      | cons l' cells =>
          rw [List.intercalate_cons_cons, List.mem_append, List.mem_append,
            List.mem_singleton] at mem
          rcases mem with (mem | rfl) | mem
          · exact .inr ⟨l, List.mem_cons_self, mem⟩
          · exact .inl rfl
          · rcases ih mem with rfl | ⟨l'', inside, mem⟩
            · exact .inl rfl
            · exact .inr ⟨l'', List.mem_cons_of_mem _ inside, mem⟩

theorem not_mem_cellTexts (ts : List CMember) (xs : List RatPi) :
    ∀ l ∈ cellTexts blank ts xs, 44 ∉ l ∧ 10 ∉ l := by
  intro l mem
  obtain ⟨cell, -, rfl⟩ := List.mem_map.mp mem
  exact cell.not_mem_text

end Rows

/-! ### Recordings -/

/-- Whether the formats of the kind leave room for a sign before a double (`% .12e`). -/
def signRoom : EphKind → Bool
  | .bdxw => false
  | _ => true

/-- The members of a record that are printed, and their values. -/
def printedRow (k : EphKind) (eph : EphRecord) : List (List UInt8) :=
  cellTexts (signRoom k) (columns k (members k)) (columns k eph.fields)

theorem bd2ephbFileAppend_eq (eph : Bd2ephbDecoded) :
    bd2ephbFileAppend eph = List.intercalate [44] (printedRow .bd2 (.bd2 eph)) ++ [10] := rfl

theorem bd3ephbFileAppend_eq (eph : Bd3ephbDecoded) :
    bd3ephbFileAppend eph = List.intercalate [44] (printedRow .bd3 (.bd3 eph)) ++ [10] := rfl

theorem bd3cnav2ephbFileAppend_eq (eph : Bd3cnav2ephbDecoded) :
    bd3cnav2ephbFileAppend eph =
      List.intercalate [44] (printedRow .bd3cnav2 (.bd3cnav2 eph)) ++ [10] := rfl

theorem bd3cnav3ephbFileAppend_eq (eph : Bd3cnav3ephbDecoded) :
    bd3cnav3ephbFileAppend eph =
      List.intercalate [44] (printedRow .bd3cnav3 (.bd3cnav3 eph)) ++ [10] := rfl

theorem bdxwephbFileAppend_eq (eph : BdxwephbDecoded) :
    bdxwephbFileAppend eph = List.intercalate [44] (printedRow .bdxw (.bdxw eph)) ++ [10] := rfl

theorem gpsephbFileAppend_eq (eph : GpsephbDecoded) :
    gpsephbFileAppend eph =
      (List.intercalate [44] (printedRow .gps (.gps eph)) ++ [10]).take 2047 := rfl

/-! ### Frames -/

section Frames

variable {k : EphKind}

theorem stored_columns (k : EphKind) :
    List.Forall₂ Stored (columns k (members k)) (columns k (readLayout k)) :=
  columns_forall₂ (stored_members k)

/-- The raw fields of the members that are printed. -/
def printedRaws (k : EphKind) (m : Mem) : List Nat := columns k (readRaws k m)

theorem printedRaws_fits (k : EphKind) (m : Mem) :
    List.Forall₂ (fun w r => r < 2 ^ w) (widths (columns k (readLayout k))) (printedRaws k m) := by
  rw [widths, ← columns_map]
  exact columns_forall₂ (readRaws_fits k m)

theorem columns_fields (k : EphKind) (m : Mem) :
    columns k (recordOf k m).fields = wireValues (columns k (readLayout k)) (printedRaws k m) := by
  have same : (readLayout k).length = (readRaws k m).length := by
    have lengths := (readRaws_fits k m).length_eq
    rwa [widths, List.length_map] at lengths
  rw [fields_recordOf, wireValues, columns_zipWith _ same]
  rfl

/-- No field that is printed is too wide for twelve places. -/
theorem width_columns (k : EphKind) : ∀ f ∈ columns k (readLayout k), f.width ≤ 38 := by
  have all : (columns k (readLayout k)).all (fun f => f.width ≤ 38) = true := by
    cases k <;> decide +kernel
  intro f mem
  exact of_decide_eq_true (List.all_eq_true.mp all f mem)

theorem size_columns (k : EphKind) : ∀ t ∈ columns k (members k), t.size ≤ 8 := by
  cases k <;> decide +kernel

theorem length_columns_pos (k : EphKind) : 0 < (columns k (members k)).length := by
  cases k <;> decide +kernel

theorem printedRow_recordOf (k : EphKind) (m : Mem) :
    printedRow k (recordOf k m) = cellTexts (signRoom k) (columns k (members k))
      (wireValues (columns k (readLayout k)) (printedRaws k m)) := by
  rw [printedRow, columns_fields]

theorem length_printedRow (k : EphKind) (m : Mem) :
    (printedRow k (recordOf k m)).length = (columns k (members k)).length := by
  have left := (stored_columns k).length_eq
  have right := (printedRaws_fits k m).length_eq
  rw [widths, List.length_map] at right
  simp [printedRow_recordOf, cellTexts, wireValues, ← left, ← right]

/-- The buffer of `gpsephb_file_append` is large enough. -/
theorem length_gps_row (m : Mem) :
    (List.intercalate [44] (printedRow .gps (recordOf .gps m)) ++ [10]).length ≤ 2047 := by
  have small : ∀ l ∈ printedRow .gps (recordOf .gps m), l.length ≤ 20 := by
    rw [printedRow_recordOf]
    exact length_cellTexts_le (stored_columns .gps) (printedRaws_fits .gps m) (size_columns .gps)
  have row := length_intercalate_le (c := 44) small
  have cells : (columns .gps (members .gps)).length = 32 := by decide +kernel
  rw [length_printedRow, cells] at row
  rw [List.length_append, List.length_singleton]
  omega

/-- **What is appended** for a frame of a kind that is recorded. -/
theorem ephbFileAppend_recordOf (recorded : recordsFile k = true) (m : Mem) :
    ephbFileAppend (recordOf k m) =
      List.intercalate [44] (printedRow k (recordOf k m)) ++ [10] := by
  cases k with
  | bd2 => exact bd2ephbFileAppend_eq _
  | bd3 => exact bd3ephbFileAppend_eq _
  | bd3cnav2 => exact bd3cnav2ephbFileAppend_eq _
  | bd3cnav3 => exact bd3cnav3ephbFileAppend_eq _
  | bdxw => exact bdxwephbFileAppend_eq _
  | gps => exact (gpsephbFileAppend_eq _).trans (List.take_of_length_le (length_gps_row m))
  | glo | gal => cases recorded

/-- The numbers that a reader gets back for the row of a frame. -/
def rereadRow (k : EphKind) (m : Mem) : List ℚ :=
  List.zipWith CMember.reread (columns k (members k))
    (wireValues (columns k (readLayout k)) (printedRaws k m))

/-- A printed row is split into its cells and read back, number by number. -/
theorem parseCells_printedRow (k : EphKind) (m : Mem) :
    parseCells (columns k (members k))
      ((List.intercalate [44] (printedRow k (recordOf k m))).splitOn 44) =
        some (rereadRow k m) := by
  have nonempty : printedRow k (recordOf k m) ≠ [] := by
    rw [← List.length_pos_iff, length_printedRow]
    exact length_columns_pos k
  have solid : ∀ l ∈ printedRow k (recordOf k m), 44 ∉ l := fun l mem =>
    (not_mem_cellTexts _ _ l mem).1
  rw [List.splitOn_intercalate 44 solid nonempty, printedRow_recordOf]
  exact parseCells_cellTexts (stored_columns k) (printedRaws_fits k m)

theorem newline_not_mem_printedRow (k : EphKind) (m : Mem) :
    10 ∉ List.intercalate [44] (printedRow k (recordOf k m)) := by
  intro mem
  rcases mem_intercalate mem with comma | ⟨l, inside, mem⟩
  · exact absurd comma (by decide)
  · exact (not_mem_cellTexts _ _ l inside).2 mem

/-- Neither a comma nor a newline stands in a column name. -/
theorem not_mem_columnNames (k : EphKind) :
    ∀ name ∈ (columnNames k).map utf8, 44 ∉ name ∧ 10 ∉ name := by
  have solid : ((columnNames k).map utf8).all (·.all fun c => c ≠ 44 && c ≠ 10) = true := by
    cases k <;> decide +kernel
  intro name mem
  have each := List.all_eq_true.mp (List.all_eq_true.mp solid name mem)
  constructor
  · exact fun comma => absurd (each 44 comma) (by decide)
  · exact fun newline => absurd (each 10 newline) (by decide)

theorem newline_not_mem_headerLine (k : EphKind) : 10 ∉ headerLine k := by
  intro mem
  rcases mem_intercalate mem with comma | ⟨name, inside, mem⟩
  · exact absurd comma (by decide)
  · exact (not_mem_columnNames k name inside).2 mem

/-- The lines of a recording are the header and one row for each frame. -/
theorem terminated_recording (recorded : recordsFile k = true) (frames : List Mem) :
    terminated 10 (recording k (frames.map (recordOf k))) = headerLine k ::
      frames.map fun m => List.intercalate [44] (printedRow k (recordOf k m)) := by
  have append (start : List UInt8) :
      (frames.map (recordOf k)).foldl (fun text eph => text ++ ephbFileAppend eph) start =
        start ++ (frames.map fun m =>
          List.intercalate [44] (printedRow k (recordOf k m))).flatMap (· ++ [10]) := by
    induction frames generalizing start with
    | nil => simp
    | cons m frames ih =>
        rw [List.map_cons, List.foldl_cons, ih, ephbFileAppend_recordOf recorded]
        simp
  rw [recording, append, List.append_assoc, List.singleton_append,
    terminated_cons (newline_not_mem_headerLine k), terminated_flatMap]
  intro line mem
  obtain ⟨m, -, rfl⟩ := List.mem_map.mp mem
  exact newline_not_mem_printedRow k m

/-- The text is read, a row for each frame. -/
theorem parseRecording_recording (recorded : recordsFile k = true) (frames : List Mem) :
    ∃ rows, parseRecording k (recording k (frames.map (recordOf k))) = some rows ∧
      List.Forall₂ (fun row m => List.Forall₂ Recovers ((columns k (members k)).zip row)
        (columns k (recordOf k m).fields)) rows frames := by
  refine ⟨frames.map (rereadRow k), ?_, ?_⟩
  · rw [parseRecording, terminated_recording recorded, List.tail_cons]
    induction frames with
    | nil => rfl
    | cons m frames ih =>
        rw [List.map_cons, List.mapM_cons, parseCells_printedRow, ih]
        rfl
  · rw [List.forall₂_map_left_iff, List.forall₂_same]
    intro m _
    rw [columns_fields]
    exact recovers_cells (stored_columns k) (printedRaws_fits k m)

/-- **The recordings.** Whatever frames of a kind are recorded, the text is read back row by
row: the integers exactly and the doubles up to the twelfth place. Two frames have the same row
exactly when the decoder read the same raw fields for it. -/
theorem recording_read (k : EphKind) (recorded : recordsFile k = true) (frames : List Mem) :
    (∃ rows, parseRecording k (recording k (frames.map (recordOf k))) = some rows ∧
      List.Forall₂ (fun row m => List.Forall₂ Recovers ((columns k (members k)).zip row)
        (columns k (recordOf k m).fields)) rows frames) ∧
      ∀ m m', ephbFileAppend (recordOf k m') = ephbFileAppend (recordOf k m) ↔
        printedRaws k m' = printedRaws k m := by
  refine ⟨parseRecording_recording recorded frames,
    fun m m' => ⟨fun same => ?_, fun same => ?_⟩⟩
  · rw [ephbFileAppend_recordOf recorded, ephbFileAppend_recordOf recorded,
      List.append_cancel_right_eq] at same
    have rows := parseCells_printedRow k m'
    rw [same, parseCells_printedRow, Option.some.injEq] at rows
    exact (reread_cells_injective (stored_columns k) (printedRaws_fits k m)
      (printedRaws_fits k m') (width_columns k) rows).symm
  · rw [ephbFileAppend_recordOf recorded, ephbFileAppend_recordOf recorded, printedRow_recordOf,
      printedRow_recordOf, same]

/-- The row of a GPS ephemeris packet is read; its `m0` is not zero. -/
theorem recording_read_gpsPacket :
    (recordOf .gps (zeroPadded gpsPacket)).fields[21]? = some ⟨298261 / 2 ^ 31, 0⟩ ∧
      ∃ row, parseRecording .gps (recording .gps [recordOf .gps (zeroPadded gpsPacket)]) =
          some [row] ∧
        List.Forall₂ Recovers ((columns .gps (members .gps)).zip row)
          (columns .gps (recordOf .gps (zeroPadded gpsPacket)).fields) := by
  obtain ⟨⟨rows, read, close⟩, -⟩ := recording_read .gps rfl [zeroPadded gpsPacket]
  cases close with
  | cons row rest =>
      cases rest
      exact ⟨by decide +kernel, _, read, row⟩

/-- The rows have as many cells as the first line, but those of BDS-3. -/
theorem columnNames_iff (recorded : recordsFile k = true) :
    ((headerLine k).splitOn 44).length = (columns k (members k)).length ↔ k ≠ .bd3 := by
  have nonempty : (columnNames k).map utf8 ≠ [] := by
    rw [Ne, List.map_eq_nil_iff]
    cases k <;> exact List.cons_ne_nil _ _
  rw [headerLine, List.splitOn_intercalate 44 (fun name mem => (not_mem_columnNames k name mem).1)
    nonempty, List.length_map]
  revert recorded
  cases k <;> decide

end Frames

end Ok3506.Gnss
