import Ok3506.Dbb.Sms
import Ok3506.Lib.Fetch

/-!
Short messages as octets.

What `dbb_build_sms_submit_pdu` writes is read by `parseSmsSubmit`, a reader of
SMS-SUBMIT that knows nothing of the builder. `dbb_decode_sms_deliver_pdu` is a
`Fetch`: `pdu[256]` lies on the stack, with `pdu_len` octets of it written.
-/

namespace Ok3506.Dbb

open CString Mem Fetch

/-! ### Numbers -/

/-- A digit of `decode_bcd_number`, where one is still missing. -/
def putDigit (digitsLen outSize : Nat) (nibble : UInt8) (out : List UInt8) :
    Fetch (List UInt8) :=
  if out.length < digitsLen then
    if 9 < nibble ∨ outSize ≤ out.length + 1 then fail else pure (out ++ [48 + nibble])
  else pure out

/-- The loop of `decode_bcd_number` over the `n` octets that are left. -/
def decodeBcdLoop (bcd : Mem) (digitsLen outSize : Nat) :
    Nat → Nat → List UInt8 → Fetch (List UInt8)
  | 0, _, out => pure out
  | n + 1, i, out => do
      let octet ← byte bcd i
      let low := octet &&& 0x0F
      let high := (octet >>> 4) &&& 0x0F
      let out ← putDigit digitsLen outSize low out
      let out ← putDigit digitsLen outSize high out
      decodeBcdLoop bcd digitsLen outSize n (i + 1) out

/-- `decode_bcd_number` of the octets from `start` on. -/
def decodeBcdNumber (bcd : Mem) (start bcdLen : Nat) (digitsLen : UInt8) (outSize : Nat) :
    Fetch (List UInt8) := do
  check (outSize ≠ 0)
  decodeBcdLoop bcd digitsLen.toNat outSize bcdLen start []

/-! ### SMS-DELIVER -/

/-- What is put into `from` and `text`. -/
structure DeliveredSms where
  sender : List UInt8
  text : List UInt8
  deriving DecidableEq, Repr

/-- `ucs2be_to_utf8_iconv`, where `iconv` makes `conv` of the octets. -/
def ucs2beToUtf8Iconv (conv : List UInt8 → Option (List UInt8)) (ucs2 : Mem) (start len : Nat)
    (utf8OutSize : Nat) : Fetch (List UInt8) := do
  check (utf8OutSize ≠ 0 ∧ len % 2 = 0)
  let octets ← block ucs2 start len
  match conv octets with
  | none => fail
  | some utf8 =>
      check (utf8.length ≤ utf8OutSize - 1)
      return utf8

/-- `"[unsupported DCS=0x%02X]"`. -/
def unsupportedDcs (dcs : UInt8) : List UInt8 :=
  ascii "[unsupported DCS=0x" ++ Hex.encode [dcs] ++ ascii "]"

/-- `dbb_decode_sms_deliver_pdu`; `stack` is what `pdu` holds behind the octets. -/
def dbbDecodeSmsDeliverPdu (conv : List UInt8 → Option (List UInt8)) (stack : Mem)
    (pduHex : List UInt8) (fromSize textSize : Nat) : Fetch DeliveredSms := do
  let written := hexToBytes pduHex 256
  let pdu := ofList written.bytes stack
  let pduLen := written.bytes.length
  check (written.ok = true)
  check (8 ≤ pduLen)
  let scaLen ← byte pdu 0
  let idx := 1
  check (idx + scaLen.toNat ≤ pduLen)
  let idx := idx + scaLen.toNat
  check (idx + 2 ≤ pduLen)
  let idx := idx + 1
  let oaDigits ← byte pdu idx
  let idx := idx + 1
  check (idx + 1 ≤ pduLen)
  let idx := idx + 1
  let oaBytes := (oaDigits.toNat + 1) / 2
  check (idx + oaBytes + 1 + 1 + 7 + 1 ≤ pduLen)
  let sender ← decodeBcdNumber pdu idx oaBytes oaDigits fromSize
  let idx := idx + oaBytes
  let idx := idx + 1
  let dcs ← byte pdu idx
  let idx := idx + 1
  let idx := idx + 7
  let udl ← byte pdu idx
  let idx := idx + 1
  check (idx + udl.toNat ≤ pduLen)
  if dcs = 0x08 then
    let text ← ucs2beToUtf8Iconv conv pdu idx udl.toNat textSize
    return { sender, text }
  else
    return { sender, text := (unsupportedDcs dcs).take (textSize - 1) }

/-! ### Addresses -/

variable {conv : List UInt8 → Option (List UInt8)} {m stack : Mem} {n : Nat}

theorem within_putDigit (digitsLen outSize : Nat) (nibble : UInt8) (out : List UInt8) :
    Within n (putDigit digitsLen outSize nibble out) := by
  unfold putDigit
  split
  · split
    · exact within_fail
    · exact within_pure _
  · exact within_pure _

theorem within_decodeBcdLoop (digitsLen outSize : Nat) {k i : Nat} (h : i + k ≤ n)
    (out : List UInt8) : Within n (decodeBcdLoop m digitsLen outSize k i out) := by
  induction k generalizing i out with
  | zero => exact within_pure out
  | succ k ih =>
      refine (within_byte (by omega)).bind fun octet => ?_
      refine (within_putDigit _ _ _ _).bind fun out => ?_
      refine (within_putDigit _ _ _ _).bind fun out => ?_
      exact ih (by omega) out

theorem within_ucs2beToUtf8Iconv {start len : Nat} (h : start + len ≤ n) (utf8OutSize : Nat) :
    Within n (ucs2beToUtf8Iconv conv m start len utf8OutSize) := by
  refine within_check_bind fun _ => (within_block h).bind fun octets => ?_
  cases conv octets with
  | none => exact within_fail
  | some utf8 => exact within_check_bind fun _ => within_pure utf8

/-- Every octet that is read lies in front of `pdu_len`. -/
theorem within_dbbDecodeSmsDeliverPdu (pduHex : List UInt8) (fromSize textSize : Nat) :
    Within (hexToBytes pduHex 256).bytes.length
      (dbbDecodeSmsDeliverPdu conv stack pduHex fromSize textSize) := by
  refine within_check_bind fun _ => within_check_bind fun whole => ?_
  refine (within_byte (by omega)).bind fun scaLen => within_check_bind fun sca => ?_
  refine within_check_bind fun head => (within_byte (by omega)).bind fun oaDigits => ?_
  refine within_check_bind fun toa => within_check_bind fun fixed => ?_
  have address : Within (hexToBytes pduHex 256).bytes.length
      (decodeBcdNumber (ofList (hexToBytes pduHex 256).bytes stack) (1 + scaLen.toNat + 1 + 1 + 1)
        ((oaDigits.toNat + 1) / 2) oaDigits fromSize) :=
    within_check_bind fun _ => within_decodeBcdLoop _ _ (by omega) []
  refine address.bind fun sender => (within_byte (by omega)).bind fun dcs => ?_
  refine (within_byte (by omega)).bind fun udl => within_check_bind fun userData => ?_
  split
  · exact (within_ucs2beToUtf8Iconv userData textSize).bind fun text => within_pure _
  · exact within_pure _

/-! ### Decoding a number -/

theorem length_bcdPairs (digits : List UInt8) :
    (bcdPairs digits).length = (digits.length + 1) / 2 := by
  induction digits using bcdPairs.induct with
  | case1 => rfl
  | case2 low => rw [bcdPairs, List.length_singleton, List.length_singleton]
  | case3 low high digits ih =>
      simp only [bcdPairs, List.length_cons, ih]
      omega

theorem exists_of_isdigit {c : UInt8} (h : isdigit c = true) :
    ∃ d : Fin 10, c = 48 + UInt8.ofNat d.val := by
  have range : 48 ≤ c.toNat ∧ c.toNat ≤ 57 := by
    simpa [isdigit, UInt8.le_iff_toNat_le] using h
  refine ⟨⟨c.toNat - 48, by omega⟩, UInt8.toNat_inj.mp ?_⟩
  simp only [UInt8.toNat_add, UInt8.toNat_ofNat', UInt8.reduceToNat]
  omega

theorem not_lt_of_isdigit {c : UInt8} (h : isdigit c = true) : ¬ 9 < c - 48 := by
  obtain ⟨d, rfl⟩ := exists_of_isdigit h
  clear h
  revert d
  decide

/-- A digit that is still missing is put out. -/
theorem value_putDigit {digitsLen outSize : Nat} {out : List UInt8} {c nibble : UInt8}
    (digit : isdigit c = true) (is : nibble = c - 48) (missing : out.length < digitsLen)
    (room : out.length + 1 < outSize) :
    (putDigit digitsLen outSize nibble out).value = some (out ++ [c]) := by
  have small : ¬ 9 < c - 48 := not_lt_of_isdigit digit
  have shown : (48 : UInt8) + (c - 48) = c := by rw [UInt8.add_comm, UInt8.sub_add_cancel]
  rw [putDigit, if_pos missing, is, if_neg (not_or.mpr ⟨small, Nat.not_le.mpr room⟩), shown,
    value_pure]

/-- The two digits of an octet. -/
theorem nibbles_of_pair {low high : UInt8} (hlow : isdigit low = true)
    (hhigh : isdigit high = true) :
    (((high - 48) <<< 4) ||| (low - 48)) &&& 0x0F = low - 48 ∧
      ((((high - 48) <<< 4) ||| (low - 48)) >>> 4) &&& 0x0F = high - 48 := by
  obtain ⟨a, rfl⟩ := exists_of_isdigit hlow
  obtain ⟨b, rfl⟩ := exists_of_isdigit hhigh
  clear hlow hhigh
  revert a b
  decide

theorem low_of_filler {low : UInt8} (hlow : isdigit low = true) :
    (((0x0F : UInt8) <<< 4) ||| (low - 48)) &&& 0x0F = low - 48 := by
  obtain ⟨a, rfl⟩ := exists_of_isdigit hlow
  clear hlow
  revert a
  decide

/-- **Numbers** are decoded to the digits that were encoded. -/
theorem value_decodeBcdLoop {digits out : List UInt8} {digitsLen outSize i : Nat}
    (all : ∀ c ∈ digits, isdigit c = true) (count : out.length + digits.length = digitsLen)
    (room : digitsLen < outSize)
    (stored : m.bytes i (bcdPairs digits).length = bcdPairs digits) :
    (decodeBcdLoop m digitsLen outSize (bcdPairs digits).length i out).value =
      some (out ++ digits) := by
  induction digits using bcdPairs.induct generalizing out i with
  | case1 =>
      rw [List.append_nil]
      rfl
  | case2 low =>
      have digit := all low List.mem_cons_self
      rw [List.length_singleton] at count
      have octet : m i = ((0x0F : UInt8) <<< 4) ||| (low - 48) := List.singleton_inj.mp stored
      have complete : ¬ (out ++ [low]).length < digitsLen := by
        rw [List.length_append, List.length_singleton]
        omega
      have first := value_putDigit digit (low_of_filler digit) (by omega : out.length < digitsLen)
        (by omega : out.length + 1 < outSize)
      rw [bcdPairs, List.length_singleton, decodeBcdLoop, value_byte_bind, octet, value_bind, first,
        Option.bind_some, value_bind, putDigit, if_neg complete]
      rfl
  | case3 low high digits ih =>
      have lowDigit := all low List.mem_cons_self
      have highDigit := all high (List.mem_cons_of_mem low List.mem_cons_self)
      rw [List.length_cons, List.length_cons] at count
      rw [bcdPairs, List.length_cons, Nat.add_comm, ← List.singleton_append,
        bytes_eq_append_iff List.length_singleton] at stored
      obtain ⟨here, rest⟩ := stored
      have octet : m i = ((high - 48) <<< 4) ||| (low - 48) := List.singleton_inj.mp here
      have nibbles := nibbles_of_pair lowDigit highDigit
      have length_out : (out ++ [low]).length = out.length + 1 := List.length_append
      have first := value_putDigit lowDigit nibbles.1 (by omega : out.length < digitsLen)
        (by omega : out.length + 1 < outSize)
      have second := value_putDigit highDigit nibbles.2
        (by omega : (out ++ [low]).length < digitsLen)
        (by omega : (out ++ [low]).length + 1 < outSize)
      have countRest : (out ++ [low] ++ [high]).length + digits.length = digitsLen := by
        rw [List.length_append, length_out, List.length_singleton]
        omega
      have digitsRest : ∀ c ∈ digits, isdigit c = true := fun c mem =>
        all c (List.mem_cons_of_mem low (List.mem_cons_of_mem high mem))
      have tail := ih digitsRest countRest rest
      rw [bcdPairs, List.length_cons, decodeBcdLoop, value_byte_bind, octet, value_bind, first,
        Option.bind_some, value_bind, second, Option.bind_some, tail, List.append_assoc,
        List.append_assoc]
      rfl

theorem value_decodeBcdNumber {digits : List UInt8} {digitsLen : UInt8} {outSize start : Nat}
    (all : ∀ c ∈ digits, isdigit c = true) (count : digits.length = digitsLen.toNat)
    (room : digits.length < outSize)
    (stored : m.bytes start ((digitsLen.toNat + 1) / 2) = bcdPairs digits) :
    (decodeBcdNumber m start ((digitsLen.toNat + 1) / 2) digitsLen outSize).value =
      some digits := by
  have size : (digitsLen.toNat + 1) / 2 = (bcdPairs digits).length := by
    rw [length_bcdPairs, count]
  have open_out : outSize ≠ 0 := by omega
  rw [size] at stored ⊢
  rw [decodeBcdNumber, value_check_bind open_out,
    value_decodeBcdLoop all (by rw [List.length_nil, Nat.zero_add, count]) (by omega) stored,
    List.nil_append]

/-! ### Decoding a message -/

/-- An SMS-DELIVER in UCS-2. `u` is its user-data length; there may be more octets. -/
structure SmsDeliver where
  sca : List UInt8
  firstOctet : UInt8
  digits : List UInt8
  toa : UInt8
  pid : UInt8
  timestamp : List UInt8
  u : Nat
  userData : List UInt8
  all_digits : ∀ c ∈ digits, isdigit c = true
  few_digits : digits.length ≤ 63
  seven : timestamp.length = 7
  even : u % 2 = 0
  enough : u ≤ userData.length

namespace SmsDeliver

/-- The octets behind the address. -/
def rest (p : SmsDeliver) : List UInt8 :=
  [p.pid, 0x08] ++ (p.timestamp ++ ([UInt8.ofNat p.u] ++ p.userData))

def octets (p : SmsDeliver) : List UInt8 :=
  [UInt8.ofNat p.sca.length] ++ (p.sca ++ ([p.firstOctet, UInt8.ofNat p.digits.length, p.toa] ++
    (bcdPairs p.digits ++ p.rest)))

theorem length_octets (p : SmsDeliver) :
    p.octets.length = p.sca.length + (p.digits.length + 1) / 2 + p.userData.length + 14 := by
  simp only [octets, rest, List.length_append, List.length_cons, List.length_nil, length_bcdPairs,
    p.seven]
  omega

/-- Where the decoder looks for the parts of a message. -/
structure Stored (m : Mem) (p : SmsDeliver) : Prop where
  scaLen : m 0 = UInt8.ofNat p.sca.length
  oaDigits : m (1 + p.sca.length + 1) = UInt8.ofNat p.digits.length
  address : m.bytes (1 + p.sca.length + 1 + 1 + 1) ((p.digits.length + 1) / 2) = bcdPairs p.digits
  dcs : m (1 + p.sca.length + 1 + 1 + 1 + (p.digits.length + 1) / 2 + 1) = 0x08
  udl : m (1 + p.sca.length + 1 + 1 + 1 + (p.digits.length + 1) / 2 + 1 + 1 + 7) =
    UInt8.ofNat p.u
  userData :
    m.bytes (1 + p.sca.length + 1 + 1 + 1 + (p.digits.length + 1) / 2 + 1 + 1 + 7 + 1) p.u =
      p.userData.take p.u

theorem stored (p : SmsDeliver) (stack : Mem) : Stored (ofList p.octets stack) p := by
  have whole := bytes_ofList p.octets stack
  generalize ofList p.octets stack = m at whole
  have size : p.octets.length =
      1 + (p.sca.length +
        (3 + ((p.digits.length + 1) / 2 + (2 + (7 + (1 + p.userData.length)))))) := by
    rw [length_octets]
    omega
  rw [size, octets, rest, bytes_eq_append_iff List.length_singleton, bytes_eq_append_iff rfl,
    bytes_eq_append_iff (a := 3) rfl, bytes_eq_append_iff (length_bcdPairs _),
    bytes_eq_append_iff (a := 2) rfl,
    bytes_eq_append_iff p.seven, bytes_eq_append_iff List.length_singleton] at whole
  obtain ⟨scaLen, -, head, address, protocol, -, udl, userData⟩ := whole
  simp only [bytes, List.range_succ, List.range_zero, List.nil_append, List.map_cons, List.map_nil,
    List.cons_append, List.cons.injEq, and_true, Nat.zero_add, Nat.add_zero]
    at scaLen head protocol udl
  refine ⟨scaLen, head.2.1, address, protocol.2, udl, ?_⟩
  rw [← take_bytes _ _ _ _ p.enough]
  exact congrArg (List.take p.u) userData

end SmsDeliver

/-- A message in hexadecimal digits of any case is decoded. -/
theorem value_dbbDecodeSmsDeliverPdu {p : SmsDeliver} {pduHex text : List UInt8}
    (fits : p.octets.length ≤ 256) (hex : Hex.decode pduHex = some p.octets)
    (converts : conv (p.userData.take p.u) = some text) {textSize : Nat}
    (room : text.length < textSize) (stack : Mem) :
    (dbbDecodeSmsDeliverPdu conv stack pduHex 64 textSize).value = some ⟨p.digits, text⟩ := by
  have size := p.length_octets
  have enough := p.enough
  have few := p.few_digits
  have nonempty : pduHex ≠ [] := by
    rintro rfl
    cases hex
  have written : hexToBytes pduHex 256 = ⟨p.octets, true⟩ := by
    rw [hexToBytes_eq, hex]
    exact if_pos ⟨nonempty, fits⟩
  have parts := p.stored stack
  have sca : (UInt8.ofNat p.sca.length).toNat = p.sca.length :=
    UInt8.toNat_ofNat_of_lt' (show p.sca.length < 256 by omega)
  have digits : (UInt8.ofNat p.digits.length).toNat = p.digits.length :=
    UInt8.toNat_ofNat_of_lt' (show p.digits.length < 256 by omega)
  have u : (UInt8.ofNat p.u).toNat = p.u := UInt8.toNat_ofNat_of_lt' (show p.u < 256 by omega)
  have room : p.digits.length < 64 := by omega
  have number := value_decodeBcdNumber p.all_digits digits.symm room
    (by rw [digits]; exact parts.address)
  have userData : (ucs2beToUtf8Iconv conv (ofList p.octets stack)
      (1 + p.sca.length + 1 + 1 + 1 + (p.digits.length + 1) / 2 + 1 + 1 + 7 + 1) p.u
      textSize).value = some text := by
    rw [ucs2beToUtf8Iconv, value_check_bind ⟨by omega, p.even⟩, value_block_bind, parts.userData,
      converts]
    exact value_check_bind (by omega)
  rw [digits] at number
  unfold dbbDecodeSmsDeliverPdu
  rw [written]
  dsimp only
  rw [value_check_bind rfl, value_check_bind (by omega), value_byte_bind, parts.scaLen, sca,
    value_check_bind (by omega), value_check_bind (by omega), value_byte_bind, parts.oaDigits,
    digits, value_check_bind (by omega), value_check_bind (by omega), value_bind, number,
    Option.bind_some, value_byte_bind, parts.dcs, value_byte_bind, parts.udl, u,
    value_check_bind (by omega), if_pos rfl, value_bind, userData, Option.bind_some, value_pure]

/-! ### Encoding a number -/

/-- The digits of a number, without its plus signs. -/
def digitsOf (number : List UInt8) : List UInt8 := number.filter isdigit

/-- International with a plus sign, or with eleven digits that start with 86. -/
def typeOfAddress (number : List UInt8) : UInt8 :=
  if 43 ∈ number ∨ 11 ≤ (digitsOf number).length ∧ (digitsOf number).getD 0 0 = 56 ∧
      (digitsOf number).getD 1 0 = 54 then
    0x91
  else 0x81

/-- What the first loop of `encode_bcd_number` collects. -/
theorem bcdDigits_eq_some {number digits ds : List UInt8} {toa t : UInt8}
    (few : digits.length ≤ 31) (h : bcdDigits number digits toa = some (ds, t)) :
    ds = digits ++ digitsOf number ∧ ds.length ≤ 31 ∧ t = if 43 ∈ number then 0x91 else toa := by
  induction number generalizing digits toa with
  | nil =>
      cases h
      exact ⟨(List.append_nil _).symm, few, rfl⟩
  | cons c number ih =>
      rw [bcdDigits] at h
      by_cases plus : c = 43
      · rw [if_pos plus] at h
        obtain ⟨rfl, bound, rfl⟩ := ih few h
        have skipped : digitsOf (c :: number) = digitsOf number :=
          List.filter_cons_of_neg (by rw [plus]; decide)
        refine ⟨by rw [skipped], bound, ?_⟩
        rw [ite_self, plus, if_pos List.mem_cons_self]
      · rw [if_neg plus] at h
        by_cases digit : isdigit c = true
        · rw [if_neg (not_not.mpr digit)] at h
          split at h
          · cases h
          · rename_i room
            obtain ⟨rfl, bound, rfl⟩ := ih
              (by rw [List.length_append, List.length_singleton]; omega) h
            have taken : digitsOf (c :: number) = c :: digitsOf number :=
              List.filter_cons_of_pos digit
            refine ⟨by rw [taken, List.append_assoc]; rfl, bound, ?_⟩
            simp only [List.mem_cons, Ne.symm plus, false_or]
        · rw [if_pos digit] at h
          cases h

/-- **Encoding** a number keeps its digits. -/
theorem encodeBcdNumber_eq_some {number : List UInt8} {size : Nat} {da : BcdNumber}
    (h : encodeBcdNumber number size 0 = some da) :
    da.bcd = bcdPairs (digitsOf number) ∧ da.digitsLen.toNat = (digitsOf number).length ∧
      da.toa = typeOfAddress number ∧ (digitsOf number).length ≤ 31 := by
  unfold encodeBcdNumber at h
  simp only [Option.bind_eq_bind, Option.bind_eq_some_iff] at h
  obtain ⟨⟨digits, toa⟩, collected, h⟩ := h
  obtain ⟨rfl, few, rfl⟩ := bcdDigits_eq_some (by decide) collected
  rw [List.nil_append] at h few
  dsimp only at h
  split at h
  · cases h
  · split at h
    · cases h
    · cases h
      refine ⟨rfl, UInt8.toNat_ofNat_of_lt' (Nat.lt_of_le_of_lt few (by decide)), ?_, few⟩
      dsimp only
      rw [typeOfAddress]
      by_cases plus : 43 ∈ number
      · rw [if_pos plus, if_neg (not_not.mpr rfl), if_pos (.inl plus)]
      · simp only [plus, false_or, if_false]
        exact if_pos (by decide)

/-! ### SMS-SUBMIT -/

/-- The parts of an SMS-SUBMIT. -/
structure SmsSubmit where
  sca : List UInt8
  firstOctet : UInt8
  reference : UInt8
  daDigits : UInt8
  toa : UInt8
  da : List UInt8
  pid : UInt8
  dcs : UInt8
  validity : List UInt8
  userData : List UInt8
  deriving DecidableEq, Repr

/-- The next `n` octets, and those behind them. -/
def nextOctets (n : Nat) (octets : List UInt8) : Option (List UInt8 × List UInt8) :=
  if n ≤ octets.length then some (octets.take n, octets.drop n) else none

/-- The octets of the validity period that the first octet announces. -/
def validityOctets (firstOctet : UInt8) : Nat :=
  match (firstOctet.toNat / 8) % 4 with
  | 0 => 0
  | 2 => 1
  | _ => 7

/-- The octets that a user-data length stands for; the default alphabet packs eight
septets into seven octets. -/
def userDataOctets (dcs udl : UInt8) : Nat :=
  if dcs = 0x04 ∨ dcs = 0x08 then udl.toNat else (7 * udl.toNat + 7) / 8

/-- A reference reader of SMS-SUBMIT. -/
def parseSmsSubmit (octets : List UInt8) : Option SmsSubmit :=
  match octets with
  | scaLen :: octets =>
      match nextOctets scaLen.toNat octets with
      | some (sca, firstOctet :: reference :: daDigits :: toa :: octets) =>
          match nextOctets ((daDigits.toNat + 1) / 2) octets with
          | some (da, pid :: dcs :: octets) =>
              match nextOctets (validityOctets firstOctet) octets with
              | some (validity, udl :: userData) =>
                  if firstOctet.toNat % 4 = 1 ∧ userData.length = userDataOctets dcs udl then
                    some { sca, firstOctet, reference, daDigits, toa, da, pid, dcs, validity,
                           userData }
                  else none
              | _ => none
          | _ => none
      | _ => none
  | _ => none

theorem nextOctets_append {n : Nat} {part : List UInt8} (h : part.length = n)
    (octets : List UInt8) : nextOctets n (part ++ octets) = some (part, octets) := by
  subst h
  rw [nextOctets, if_pos (by rw [List.length_append]; omega), List.take_left, List.drop_left]

/-- What the builder writes is read as its parts. -/
theorem parseSmsSubmit_build {digits toa : UInt8} {da ud : List UInt8}
    (address : da.length = (digits.toNat + 1) / 2) (short : ud.length < 256) :
    parseSmsSubmit ([0x00, 0x01, 0x00, digits, toa] ++ da ++ [0x00, 0x08, UInt8.ofNat ud.length] ++
      ud) = some { sca := [], firstOctet := 0x01, reference := 0x00, daDigits := digits, toa, da,
                   pid := 0x00, dcs := 0x08, validity := [], userData := ud } := by
  have sca := nextOctets_append (List.length_nil (α := UInt8))
    (0x01 :: 0x00 :: digits :: toa :: (da ++ 0x00 :: 0x08 :: UInt8.ofNat ud.length :: ud))
  have number := nextOctets_append address (0x00 :: 0x08 :: UInt8.ofNat ud.length :: ud)
  have validity := nextOctets_append (List.length_nil (α := UInt8)) (UInt8.ofNat ud.length :: ud)
  have size : ud.length = userDataOctets 0x08 (UInt8.ofNat ud.length) := by
    rw [userDataOctets, if_pos (.inr rfl)]
    exact (UInt8.toNat_ofNat_of_lt' short).symm
  have relative : validityOctets 0x01 = 0 := rfl
  rw [List.nil_append] at sca validity
  simp only [List.append_assoc, List.cons_append, List.nil_append, parseSmsSubmit, UInt8.toNat_zero,
    sca, number, relative, validity]
  exact if_pos ⟨rfl, size⟩

theorem isdigit_of_mem_digitsOf {number : List UInt8} : ∀ c ∈ digitsOf number, isdigit c = true :=
  fun _ mem => (List.mem_filter.mp mem).2

/-- **Submit PDUs** are read back as the message that was to be sent. -/
theorem dbbBuildSmsSubmitPdu_wellFormed {utf8ToUcs2be : List UInt8 → Option (List UInt8)}
    {target text ud : List UInt8} {da : BcdNumber}
    (accepted : encodeBcdNumber target 16 0 = some da) (converts : utf8ToUcs2be text = some ud)
    (fits : ud.length ≤ 140) :
    ∃ octets, dbbBuildSmsSubmitPdu utf8ToUcs2be target text 512 =
        some (Hex.encode octets, octets.length - 1) ∧
      octets.length ≤ 256 ∧
      parseSmsSubmit octets =
        some { sca := [], firstOctet := 0x01, reference := 0x00, daDigits := da.digitsLen,
               toa := da.toa, da := da.bcd, pid := 0x00, dcs := 0x08, validity := [],
               userData := ud } ∧
      da.digitsLen.toNat = (digitsOf target).length ∧ da.toa = typeOfAddress target ∧
      ∀ outSize, (digitsOf target).length < outSize →
        (decodeBcdNumber (zeroPadded da.bcd) 0 da.bcd.length da.digitsLen outSize).value =
          some (digitsOf target) := by
  obtain ⟨bcd, count, toa, few⟩ := encodeBcdNumber_eq_some accepted
  have address : da.bcd.length = (da.digitsLen.toNat + 1) / 2 := by
    rw [bcd, length_bcdPairs, count]
  have size : ([0x00, 0x01, 0x00, da.digitsLen, da.toa] ++ da.bcd ++
      [0x00, 0x08, UInt8.ofNat ud.length] ++ ud).length = da.bcd.length + ud.length + 8 := by
    simp only [List.length_append, List.length_cons, List.length_nil]
    omega
  refine ⟨_, ?_, ?_, parseSmsSubmit_build address (by omega), count, toa, ?_⟩
  · simp only [dbbBuildSmsSubmitPdu, accepted, converts, Option.bind_eq_bind, Option.bind_some,
      not_lt.mpr fits, if_false, bytesToHex]
    rw [dbbHexEncode_eq, if_neg (by rw [size]; omega)]
    rfl
  · rw [size]
    omega
  · intro outSize room
    rw [address]
    refine value_decodeBcdNumber isdigit_of_mem_digitsOf count.symm room ?_
    rw [← address, bytes_ofList, bcd]

/-- The number and the text of a message to 13 digits. -/
theorem dbbBuildSmsSubmitPdu_example :
    ∃ octets, dbbBuildSmsSubmitPdu (fun _ => some [0x00, 0x61]) (ascii "8616194441530") (ascii "a")
        512 = some (Hex.encode octets, octets.length - 1) ∧
      octets.length ≤ 256 ∧
      parseSmsSubmit octets =
        some { sca := [], firstOctet := 0x01, reference := 0x00, daDigits := 13, toa := 0x91,
               da := [0x68, 0x61, 0x91, 0x44, 0x14, 0x35, 0xF0], pid := 0x00, dcs := 0x08,
               validity := [], userData := [0x00, 0x61] } ∧
      (13 : UInt8).toNat = (digitsOf (ascii "8616194441530")).length ∧
      0x91 = typeOfAddress (ascii "8616194441530") ∧
      ∀ outSize, (digitsOf (ascii "8616194441530")).length < outSize →
        (decodeBcdNumber (zeroPadded [0x68, 0x61, 0x91, 0x44, 0x14, 0x35, 0xF0]) 0 7 13
          outSize).value = some (digitsOf (ascii "8616194441530")) :=
  have accepted : encodeBcdNumber (ascii "8616194441530") 16 0 =
      some ⟨[0x68, 0x61, 0x91, 0x44, 0x14, 0x35, 0xF0], 13, 0x91⟩ := by decide
  have fits : [0x00, 0x61].length ≤ 140 := by decide
  dbbBuildSmsSubmitPdu_wellFormed accepted rfl fits

/-- **Deliver PDUs** are read within their octets, and a well-formed one is recovered. -/
theorem dbbDecodeSmsDeliverPdu_exact (conv : List UInt8 → Option (List UInt8)) (stack : Mem)
    (textSize : Nat) :
    (∀ pduHex fromSize, Within (hexToBytes pduHex 256).bytes.length
      (dbbDecodeSmsDeliverPdu conv stack pduHex fromSize textSize)) ∧
    ∀ (p : SmsDeliver) (pduHex text : List UInt8), p.octets.length ≤ 256 →
      Hex.decode pduHex = some p.octets → conv (p.userData.take p.u) = some text →
      text.length < textSize →
      (dbbDecodeSmsDeliverPdu conv stack pduHex 64 textSize).value = some ⟨p.digits, text⟩ := by
  refine ⟨fun pduHex fromSize => within_dbbDecodeSmsDeliverPdu pduHex fromSize textSize, ?_⟩
  intro p pduHex text fits hex converts room
  exact value_dbbDecodeSmsDeliverPdu fits hex converts room stack

/-- A message of two characters from 13 digits. -/
def sampleDeliver : SmsDeliver where
  sca := [0x91, 0x68, 0x61, 0x91, 0x00, 0x41, 0x05, 0xF0]
  firstOctet := 0x04
  digits := ascii "8616194441528"
  toa := 0x91
  pid := 0x00
  timestamp := [0x52, 0x70, 0x92, 0x01, 0x12, 0x33, 0x23]
  u := 4
  userData := [0x4F, 0x60, 0x59, 0x7D]
  all_digits := List.all_eq_true.mp (by decide)
  few_digits := by decide
  seven := rfl
  even := rfl
  enough := by decide

theorem dbbDecodeSmsDeliverPdu_sample :
    (dbbDecodeSmsDeliverPdu (fun _ => some [0xE4, 0xBD, 0xA0, 0xE5, 0xA5, 0xBD]) (fun _ => 0)
      (ascii "0891686191004105F0040D91686191441425F8000852709201123323044F60597D") 64 256).value =
      some ⟨ascii "8616194441528", [0xE4, 0xBD, 0xA0, 0xE5, 0xA5, 0xBD]⟩ :=
  (dbbDecodeSmsDeliverPdu_exact _ _ 256).2 sampleDeliver _ _ (by decide) (by decide) rfl (by decide)

end Ok3506.Dbb
