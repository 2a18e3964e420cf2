import Mathlib.Data.List.Basic
import Ok3506.Lib.Base64
import Ok3506.Lib.Hex

/-!
The codecs of the DBB module.

The decoders store into the caller's buffer as they go, so a call is described by
the bytes it has stored when it returns and by whether it returned 0. The hex
decoder checks the whole text first; the base64 decoder does not, and what it has
stored of a bad text is the `front` of it.
-/

namespace Ok3506.Dbb

open CString

/-- What a decoder leaves: the bytes stored from the start of `output` on, and
whether it returned 0. -/
structure Written where
  bytes : List UInt8
  ok : Bool
  deriving DecidableEq, Repr

/-! ### Hexadecimal -/

/-- `dbb_hex_encode`; nothing is returned where the buffer is too small. -/
def dbbHexEncode (input : List UInt8) (outputSize : Nat) : Option (List UInt8) :=
  let lut := ascii "0123456789ABCDEF"
  if outputSize < input.length * 2 + 1 then none
  else
    some (input.flatMap fun b =>
      [lut.getD ((b.toNat >>> 4) &&& 0x0F) 0, lut.getD (b.toNat &&& 0x0F) 0])

/-- `hex_char_to_nibble`. -/
def hexCharToNibble (c : UInt8) : Int :=
  if 48 ≤ c ∧ c ≤ 57 then (c.toNat - 48 : Nat)
  else if 65 ≤ c ∧ c ≤ 70 then (c.toNat - 65 + 10 : Nat)
  else if 97 ≤ c ∧ c ≤ 102 then (c.toNat - 97 + 10 : Nat)
  else -1

/-- `isxdigit` in the C locale. -/
def isxdigit (c : UInt8) : Bool :=
  (48 ≤ c && c ≤ 57) || (65 ≤ c && c ≤ 70) || (97 ≤ c && c ≤ 102)

/-- `is_hex_string`. -/
def isHexString (s : List UInt8) : Bool :=
  if s.length = 0 ∨ s.length % 2 ≠ 0 then false else s.all isxdigit

/-- The loop of `hex_to_bytes` over the pairs of characters. -/
def hexToBytesLoop : List UInt8 → Written
  | hi :: lo :: rest =>
      if hexCharToNibble hi < 0 ∨ hexCharToNibble lo < 0 then ⟨[], false⟩
      else
        let tail := hexToBytesLoop rest
        let b := ((hexCharToNibble hi).toNat <<< 4) ||| (hexCharToNibble lo).toNat
        ⟨UInt8.ofNat b :: tail.bytes, tail.ok⟩
  | _ => ⟨[], true⟩

/-- `hex_to_bytes`. -/
def hexToBytes (hex : List UInt8) (outSize : Nat) : Written :=
  if ¬ isHexString hex then ⟨[], false⟩
  else if outSize < hex.length / 2 then ⟨[], false⟩
  else hexToBytesLoop hex

theorem dbbHexEncode_eq (input : List UInt8) (outputSize : Nat) :
    dbbHexEncode input outputSize =
      if outputSize < input.length * 2 + 1 then none else some (Hex.encode input) := by
  have pairs : (input.flatMap fun b =>
      [(ascii "0123456789ABCDEF").getD ((b.toNat >>> 4) &&& 0x0F) 0,
        (ascii "0123456789ABCDEF").getD (b.toNat &&& 0x0F) 0]) = Hex.encode input := by
    induction input with
    | nil => rfl
    | cons b rest ih =>
        have small := b.toNat_lt
        have high : (b.toNat >>> 4) &&& 0x0F = b.toNat / 16 := by
          rw [Nat.shiftRight_eq_div_pow, Nat.and_two_pow_sub_one_eq_mod _ 4]
          omega
        have low : b.toNat &&& 0x0F = b.toNat % 16 := Nat.and_two_pow_sub_one_eq_mod _ 4
        rw [List.flatMap_cons, ih, high, low]
        rfl
  rw [dbbHexEncode, pairs]

theorem hexCharToNibble_eq (c : UInt8) :
    hexCharToNibble c = match Hex.value c with | some v => (v : Int) | none => -1 := by
  unfold hexCharToNibble Hex.value
  split_ifs <;> rfl

theorem isxdigit_eq (c : UInt8) : isxdigit c = (Hex.value c).isSome := by
  unfold isxdigit Hex.value
  split_ifs <;> simp_all

theorem isHexString_eq (s : List UInt8) : isHexString s = (!s.isEmpty && Hex.isText s) := by
  have digits : isxdigit = fun c => (Hex.value c).isSome := funext isxdigit_eq
  unfold isHexString Hex.isText
  rw [digits]
  by_cases empty : s = []
  · simp [empty]
  · by_cases odd : s.length % 2 = 0
    · simp [empty, odd]
    · simp [empty, odd]

theorem hexToBytesLoop_of_decode {hex bytes : List UInt8} (h : Hex.decode hex = some bytes) :
    hexToBytesLoop hex = ⟨bytes, true⟩ := by
  induction hex using Hex.decode.induct generalizing bytes with
  | case1 =>
      cases h
      rfl
  | case2 c => cases h
  | case3 hi lo rest ih =>
      simp only [Hex.decode, Option.bind_eq_some_iff, Option.map_eq_some_iff] at h
      obtain ⟨v, hv, w, hw, tail, decoded, rfl⟩ := h
      have joined : (v <<< 4) ||| w = 16 * v + w := by
        rw [← Nat.shiftLeft_add_eq_or_of_lt (Hex.value_lt hw), Nat.shiftLeft_eq]
        omega
      simp [hexToBytesLoop, hexCharToNibble_eq, hv, hw, ih decoded, joined]

/-- `hex_to_bytes` stores all of a text or nothing. -/
theorem hexToBytes_eq (hex : List UInt8) (outSize : Nat) :
    hexToBytes hex outSize =
      match Hex.decode hex with
      | some bytes => if hex ≠ [] ∧ bytes.length ≤ outSize then ⟨bytes, true⟩ else ⟨[], false⟩
      | none => ⟨[], false⟩ := by
  unfold hexToBytes
  rw [isHexString_eq, ← Hex.isSome_decode]
  cases h : Hex.decode hex with
  | none => simp
  | some bytes =>
      have long := Hex.length_of_decode h
      by_cases empty : hex = []
      · simp [empty]
      · by_cases fits : bytes.length ≤ outSize
        · simp [empty, fits, ← long, hexToBytesLoop_of_decode h, not_lt.mpr fits]
        · simp [empty, fits, ← long, not_le.mp fits]

/-! ### Base64 -/

/-- `dbb_base64_value`. -/
def dbbBase64Value (c : UInt8) : Int :=
  if 65 ≤ c ∧ c ≤ 90 then (c.toNat - 65 : Nat)
  else if 97 ≤ c ∧ c ≤ 122 then (c.toNat - 97 + 26 : Nat)
  else if 48 ≤ c ∧ c ≤ 57 then (c.toNat - 48 + 52 : Nat)
  else if c = 43 then 62
  else if c = 47 then 63
  else -1

/-- One iteration of `dbb_base64_encode`, where `remain` bytes are left. -/
def base64Quartet (octetA octetB octetC : UInt8) (remain : Nat) : List UInt8 :=
  let table := ascii "ABCDEFGHIJKLMNOPQRSTUVWXYZabcdefghijklmnopqrstuvwxyz0123456789+/"
  let triple := (octetA.toNat <<< 16) ||| (octetB.toNat <<< 8) ||| octetC.toNat
  [table.getD ((triple >>> 18) &&& 0x3F) 0, table.getD ((triple >>> 12) &&& 0x3F) 0,
    if 1 < remain then table.getD ((triple >>> 6) &&& 0x3F) 0 else 61,
    if 2 < remain then table.getD (triple &&& 0x3F) 0 else 61]

/-- The loop of `dbb_base64_encode`. -/
def base64EncodeLoop : List UInt8 → List UInt8
  | [] => []
  | [a] => base64Quartet a 0 0 1
  | [a, b] => base64Quartet a b 0 2
  | a :: b :: c :: rest => base64Quartet a b c (3 + rest.length) ++ base64EncodeLoop rest

/-- `dbb_base64_encode`; nothing is returned where the buffer is too small. -/
def dbbBase64Encode (input : List UInt8) (outputSize : Nat) : Option (List UInt8) :=
  let outLen := (input.length + 2) / 3 * 4
  if outputSize < outLen + 1 then none else some (base64EncodeLoop input)

/-- The inner loop of `dbb_base64_decode`: `n` more elements of `quartet`, and
where `p` is then. Nothing is returned at a wrong character. -/
def readQuartet : List UInt8 → Nat → Option (List Int × List UInt8)
  | [], _ => some ([], [])
  | c :: p, 0 => some ([], c :: p)
  | c :: p, n + 1 =>
      if isspace c then readQuartet p (n + 1)
      else if c = 61 then (readQuartet p n).map fun (quartet, p) => (-2 :: quartet, p)
      else if dbbBase64Value c < 0 then none
      else (readQuartet p n).map fun (quartet, p) => (dbbBase64Value c :: quartet, p)

/-- The checked stores `output[len++] = ...`. -/
def storeOctets (outputSize : Nat) : List UInt8 → List UInt8 → Written
  | output, [] => ⟨output, true⟩
  | output, b :: octets =>
      if outputSize ≤ output.length then ⟨output, false⟩
      else storeOctets outputSize (output ++ [b]) octets

/-- The outer loop of `dbb_base64_decode`, with `output` stored so far. Each
iteration moves `p`, so `fuel` beyond the length of the text is never used up. -/
def base64DecodeLoop (outputSize : Nat) : Nat → List UInt8 → List UInt8 → Written
  | 0, _, output => ⟨output, false⟩
  | fuel + 1, p, output =>
      match readQuartet p 4 with
      | none => ⟨output, false⟩
      | some (quartet, p) =>
          if quartet.length = 0 then ⟨output, true⟩
          else if quartet.length ≠ 4 then ⟨output, false⟩
          else
            let pad := quartet.count (-2)
            let q := quartet.map fun v => if v = -2 then 0 else v.toNat
            let triple := (q.getD 0 0 <<< 18) ||| (q.getD 1 0 <<< 12) ||| (q.getD 2 0 <<< 6) |||
              q.getD 3 0
            let stored := storeOctets outputSize output
              ([UInt8.ofNat ((triple >>> 16) &&& 0xFF)] ++
                (if pad < 2 then [UInt8.ofNat ((triple >>> 8) &&& 0xFF)] else []) ++
                if pad < 1 then [UInt8.ofNat (triple &&& 0xFF)] else [])
            if stored.ok = false then stored
            else if 0 < pad then stored
            else base64DecodeLoop outputSize fuel p stored.bytes

/-- `dbb_base64_decode`. -/
def dbbBase64Decode (input : List UInt8) (outputSize : Nat) : Written :=
  base64DecodeLoop outputSize (input.length + 1) input []

example : dbbBase64Decode (ascii "QUJ DRA==") 1024 = ⟨ascii "ABCD", true⟩ := by decide +kernel

theorem base64Quartet_eq (a b c : UInt8) (remain : Nat) :
    base64Quartet a b c remain =
      (Base64.quantumText (65536 * a.toNat + 256 * b.toNat + c.toNat)).take
        (if 2 < remain then 4 else if 1 < remain then 3 else 2) ++
      List.replicate (if 2 < remain then 0 else if 1 < remain then 1 else 2) Base64.pad := by
  have ha := a.toNat_lt
  have hb := b.toNat_lt
  have hc := c.toNat_lt
  have triple : (a.toNat <<< 16) ||| (b.toNat <<< 8) ||| c.toNat =
      65536 * a.toNat + 256 * b.toNat + c.toNat := by
    have low : (b.toNat <<< 8) ||| c.toNat = 256 * b.toNat + c.toNat := by
      rw [← Nat.shiftLeft_add_eq_or_of_lt hc, Nat.shiftLeft_eq]
      omega
    rw [Nat.or_assoc, low, ← Nat.shiftLeft_add_eq_or_of_lt (by omega), Nat.shiftLeft_eq]
    omega
  have sixBits (n : Nat) : n &&& 0x3F = n % 64 := Nat.and_two_pow_sub_one_eq_mod n 6
  simp only [base64Quartet, triple, sixBits, Nat.shiftRight_eq_div_pow]
  by_cases two : 2 < remain
  · have one : 1 < remain := by omega
    simp [two, one, Base64.quantumText, Base64.digit]
  · by_cases one : 1 < remain
    · simp [two, one, Base64.quantumText, Base64.digit, Base64.pad]
    · simp [two, one, Base64.quantumText, Base64.digit, Base64.pad]

theorem base64EncodeLoop_eq (input : List UInt8) :
    base64EncodeLoop input = Base64.encode input := by
  induction input using base64EncodeLoop.induct with
  | case1 => rfl
  | case2 a => simp [base64EncodeLoop, Base64.encode, base64Quartet_eq]
  | case3 a b => simp [base64EncodeLoop, Base64.encode, base64Quartet_eq]
  | case4 a b c rest ih =>
      have long : 2 < 3 + rest.length := by omega
      simp only [base64EncodeLoop, Base64.encode, base64Quartet_eq, if_pos long, ih]
      simp [Base64.quantumText]

theorem dbbBase64Encode_eq (input : List UInt8) (outputSize : Nat) :
    dbbBase64Encode input outputSize =
      if outputSize < (input.length + 2) / 3 * 4 + 1 then none
      else some (Base64.encode input) := by
  rw [dbbBase64Encode, base64EncodeLoop_eq]

/-! ### What the base64 decoder stores -/

/-- The text without its white space. -/
def strip (text : List UInt8) : List UInt8 := text.filter fun c => !isspace c

/-- The element of `quartet` for a character. -/
def quartetValue (c : UInt8) : Int := if c = 61 then -2 else dbbBase64Value c

theorem dbbBase64Value_eq (c : UInt8) :
    dbbBase64Value c = match Base64.value c with | some v => (v : Int) | none => -1 := by
  unfold dbbBase64Value Base64.value
  split_ifs <;> rfl

section Quartet

variable {c : UInt8} {p : List UInt8} {n : Nat}

theorem strip_space (space : isspace c = true) : strip (c :: p) = strip p := by
  simp [strip, space]

theorem strip_cons (solid : ¬ isspace c = true) : strip (c :: p) = c :: strip p := by
  simp [strip, solid]

theorem readQuartet_cons (solid : ¬ isspace c = true) {v : Nat}
    (valid : Base64.sextet c = some v) :
    readQuartet (c :: p) (n + 1) =
      (readQuartet p n).map fun (quartet, p) => (quartetValue c :: quartet, p) := by
  rw [readQuartet, if_neg solid]
  by_cases equals : c = 61
  · simp [quartetValue, equals]
  · have plain : Base64.value c = some v := by simpa [Base64.sextet, Base64.pad, equals] using valid
    have sign : ¬ dbbBase64Value c < 0 := by simp [dbbBase64Value_eq, plain]
    simp only [quartetValue, equals, if_false, sign]

theorem readQuartet_wrong (solid : ¬ isspace c = true) (wrong : Base64.sextet c = none) :
    readQuartet (c :: p) (n + 1) = none := by
  have other : ¬ c = 61 := by
    intro equals
    simp [Base64.sextet, Base64.pad, equals] at wrong
  have plain : Base64.value c = none := by simpa [Base64.sextet, Base64.pad, other] using wrong
  have sign : dbbBase64Value c < 0 := by simp [dbbBase64Value_eq, plain]
  rw [readQuartet, if_neg solid, if_neg other, if_pos sign]

end Quartet

/-- The quartet is made of the next characters that are no white space. -/
theorem readQuartet_of_valid {p : List UInt8} {n : Nat}
    (valid : ∀ c ∈ (strip p).take n, (Base64.sextet c).isSome) :
    ∃ rest, readQuartet p n = some (((strip p).take n).map quartetValue, rest) ∧
      strip rest = (strip p).drop n ∧ rest.length + ((strip p).take n).length ≤ p.length := by
  induction p generalizing n with
  | nil => exact ⟨[], by simp [strip, readQuartet], by simp [strip], by simp [strip]⟩
  | cons c p ih =>
      cases n with
      | zero => exact ⟨c :: p, by simp [readQuartet], by simp, by simp⟩
      | succ n =>
          by_cases space : isspace c = true
          · rw [strip_space space] at valid ⊢
            obtain ⟨rest, read, left, short⟩ := ih valid
            refine ⟨rest, ?_, left, ?_⟩
            · rw [readQuartet, if_pos space, read]
            · simp only [List.length_cons]
              omega
          · rw [strip_cons space, List.take_succ_cons] at valid ⊢
            obtain ⟨v, value⟩ := Option.isSome_iff_exists.mp (valid c List.mem_cons_self)
            obtain ⟨rest, read, left, short⟩ :=
              ih fun c' member => valid c' (List.mem_cons_of_mem _ member)
            refine ⟨rest, ?_, by rw [List.drop_succ_cons, left], ?_⟩
            · rw [readQuartet_cons space value, read]
              rfl
            · simp only [List.length_cons]
              omega

theorem readQuartet_of_invalid {p : List UInt8} {n : Nat} {c : UInt8}
    (member : c ∈ (strip p).take n) (wrong : Base64.sextet c = none) :
    readQuartet p n = none := by
  induction p generalizing n with
  | nil => simp [strip] at member
  | cons b p ih =>
      cases n with
      | zero => simp at member
      | succ n =>
          by_cases space : isspace b = true
          · rw [strip_space space] at member
            rw [readQuartet, if_pos space, ih member]
          · rw [strip_cons space, List.take_succ_cons] at member
            cases valid : Base64.sextet b with
            | none => exact readQuartet_wrong space valid
            | some v =>
                rw [readQuartet_cons space valid]
                cases member with
                | head => rw [wrong] at valid; cases valid
                | tail _ member => rw [ih member]; rfl

/-- Stores stop at the end of the buffer. -/
theorem storeOctets_eq {outputSize : Nat} {output : List UInt8} (octets : List UInt8)
    (room : output.length ≤ outputSize) :
    storeOctets outputSize output octets =
      ⟨(output ++ octets).take outputSize,
        decide ((output ++ octets).length ≤ outputSize)⟩ := by
  induction octets generalizing output with
  | nil => simp [storeOctets, List.take_of_length_le room, room]
  | cons b octets ih =>
      rw [storeOctets]
      split
      · rename_i full
        have exact_size : output.length = outputSize := by omega
        simp [← exact_size]
      · rename_i space
        rw [ih (by simp; omega)]
        simp

theorem quartetValue_eq_pad (c : UInt8) : quartetValue c = -2 ↔ c = 61 := by
  unfold quartetValue
  rw [dbbBase64Value_eq]
  by_cases equals : c = 61
  · simp [equals]
  · cases Base64.value c with
    | none => simp [equals]
    | some v =>
        simp only [equals, if_false, iff_false]
        omega

theorem toNat_quartetValue {c : UInt8} {v : Nat} (valid : Base64.sextet c = some v) :
    (if quartetValue c = -2 then 0 else (quartetValue c).toNat) = v := by
  by_cases equals : c = 61
  · have zero : v = 0 := by simpa [Base64.sextet, Base64.pad, equals, eq_comm] using valid
    rw [if_pos ((quartetValue_eq_pad c).mpr equals), zero]
  · have plain : Base64.value c = some v := by simpa [Base64.sextet, Base64.pad, equals] using valid
    rw [if_neg (mt (quartetValue_eq_pad c).mp equals), quartetValue, if_neg equals,
      dbbBase64Value_eq, plain]
    rfl

/-- The octets that one iteration of the outer loop stores. -/
theorem octets_of_triple (triple pad : Nat) :
    [UInt8.ofNat ((triple >>> 16) &&& 0xFF)] ++
        (if pad < 2 then [UInt8.ofNat ((triple >>> 8) &&& 0xFF)] else []) ++
        (if pad < 1 then [UInt8.ofNat (triple &&& 0xFF)] else []) =
      Base64.octets triple pad := by
  have eightBits (n : Nat) : UInt8.ofNat (n &&& 0xFF) = UInt8.ofNat n := by
    apply UInt8.toNat_inj.mp
    simp [Nat.and_two_pow_sub_one_eq_mod n 8]
  simp only [eightBits, Nat.shiftRight_eq_div_pow, Base64.octets]
  by_cases none_pads : pad < 1
  · have zero : pad = 0 := by omega
    simp [zero]
  · by_cases one_pad : pad < 2
    · have one : pad = 1 := by omega
      simp [one]
    · have kept : max 1 (3 - pad) = 1 := by omega
      simp [none_pads, one_pad, kept]

theorem triple_of_sextets {w x y z : Nat} (hx : x < 64) (hy : y < 64) (hz : z < 64) :
    (w <<< 18) ||| (x <<< 12) ||| (y <<< 6) ||| z = 262144 * w + 4096 * x + 64 * y + z := by
  have low : (y <<< 6) ||| z = 64 * y + z := by
    rw [← Nat.shiftLeft_add_eq_or_of_lt hz, Nat.shiftLeft_eq]
    omega
  have middle : (x <<< 12) ||| (64 * y + z) = 4096 * x + (64 * y + z) := by
    rw [← Nat.shiftLeft_add_eq_or_of_lt (by omega), Nat.shiftLeft_eq]
    omega
  rw [Nat.or_assoc, Nat.or_assoc, low, middle,
    ← Nat.shiftLeft_add_eq_or_of_lt (by omega), Nat.shiftLeft_eq]
  omega

/-- One iteration of the outer loop, on a quartet of valid characters. -/
theorem base64DecodeLoop_quartet {outputSize fuel : Nat} {p rest output : List UInt8}
    {a b c d : UInt8} {octets : List UInt8}
    (read : readQuartet p 4 = some ([a, b, c, d].map quartetValue, rest))
    (quantum : Base64.quantum a b c d = some octets) :
    base64DecodeLoop outputSize (fuel + 1) p output =
      if (storeOctets outputSize output octets).ok = false then
        storeOctets outputSize output octets
      else if 0 < Base64.pads a b c d then storeOctets outputSize output octets
      else base64DecodeLoop outputSize fuel rest (storeOctets outputSize output octets).bytes := by
  unfold Base64.quantum at quantum
  split at quantum
  · rename_i w x y z hw hx hy hz
    cases quantum
    have pads : ([a, b, c, d].map quartetValue).count (-2) = Base64.pads a b c d := by
      simp only [Base64.pads, Base64.pad, List.count, List.countP_map]
      congr 1
      funext v
      simp [quartetValue_eq_pad]
    have values : ([a, b, c, d].map quartetValue).map
        (fun v => if v = -2 then 0 else v.toNat) = [w, x, y, z] := by
      simp [toNat_quartetValue hw, toNat_quartetValue hx, toNat_quartetValue hy,
        toNat_quartetValue hz]
    have sum := triple_of_sextets (w := w) (Base64.sextet_lt hx) (Base64.sextet_lt hy)
      (Base64.sextet_lt hz)
    simp only [base64DecodeLoop, read, pads, values, List.length_map, List.length_cons,
      List.length_nil, List.getD_cons_zero, List.getD_cons_succ, sum, octets_of_triple]
    rw [if_neg (by decide), if_neg (by decide)]
  · cases quantum

/-- The same iteration by what fits the buffer. -/
theorem base64DecodeLoop_quantum {outputSize fuel : Nat} {p rest output : List UInt8}
    {a b c d : UInt8} {octets : List UInt8}
    (read : readQuartet p 4 = some ([a, b, c, d].map quartetValue, rest))
    (quantum : Base64.quantum a b c d = some octets) (room : output.length ≤ outputSize) :
    base64DecodeLoop outputSize (fuel + 1) p output =
      if (output ++ octets).length ≤ outputSize then
        if Base64.pads a b c d = 0 then base64DecodeLoop outputSize fuel rest (output ++ octets)
        else ⟨output ++ octets, true⟩
      else ⟨(output ++ octets).take outputSize, false⟩ := by
  rw [base64DecodeLoop_quartet read quantum, storeOctets_eq octets room]
  by_cases fits : (output ++ octets).length ≤ outputSize
  · rw [if_neg (by simpa using fits), if_pos fits, List.take_of_length_le fits,
      decide_eq_true fits]
    by_cases padded : Base64.pads a b c d = 0
    · rw [if_neg (by omega), if_pos padded]
    · rw [if_pos (by omega), if_neg padded]
  · rw [if_pos (by simpa using fits), if_neg fits, decide_eq_false fits]

/-- Behind a full buffer nothing is stored, and the call fails. -/
theorem full_buffer {outputSize : Nat} {stored : List UInt8}
    (full : ¬ stored.length ≤ outputSize) (later : List UInt8) :
    (stored ++ later).take outputSize = stored.take outputSize ∧
      ¬ (stored ++ later).length ≤ outputSize := by
  refine ⟨List.take_append_of_le_length (le_of_not_ge full), ?_⟩
  rw [List.length_append]
  omega

/-- What the outer loop stores from `output` on, and when it returns 0. -/
theorem base64DecodeLoop_eq {outputSize fuel : Nat} {p output : List UInt8}
    (enough : p.length < fuel) (room : output.length ≤ outputSize) :
    base64DecodeLoop outputSize fuel p output =
      ⟨(output ++ Base64.front (strip p)).take outputSize,
        Base64.isText (strip p) &&
          decide ((output ++ Base64.front (strip p)).length ≤ outputSize)⟩ := by
  induction fuel generalizing p output with
  | zero => omega
  | succ fuel ih =>
      by_cases valid : ∀ c ∈ (strip p).take 4, (Base64.sextet c).isSome = true
      · obtain ⟨rest, read, left, short⟩ := readQuartet_of_valid valid
        match shape : strip p with
        | [] =>
            rw [shape] at read
            simp [base64DecodeLoop, read, Base64.front, Base64.isText, room,
              List.take_of_length_le room]
        | [a] | [a, b] | [a, b, c] =>
            rw [shape] at read
            simp [base64DecodeLoop, read, Base64.front, Base64.isText,
              List.take_of_length_le room]
        | a :: b :: c :: d :: text =>
            rw [shape] at read left short valid
            have all : ([a, b, c, d].all fun x => (Base64.sextet x).isSome) = true :=
              List.all_eq_true.mpr valid
            obtain ⟨octets, quantum⟩ :=
              Option.isSome_iff_exists.mp ((Base64.isSome_quantum a b c d).trans all)
            simp only [List.take_succ_cons, List.take_zero, List.length_cons, List.length_nil]
              at short
            have next (fits : (output ++ octets).length ≤ outputSize) :=
              ih (by omega : rest.length < fuel) fits
            rw [base64DecodeLoop_quantum read quantum room, Base64.front, Base64.isText, all,
              quantum]
            by_cases padded : Base64.pads a b c d = 0
            · simp only [padded, if_true, ← List.append_assoc]
              split
              · rename_i fits
                rw [next fits, left]
                simp
              · rename_i full
                obtain ⟨cut, long⟩ := full_buffer full (Base64.front text)
                rw [cut, decide_eq_false long, Bool.and_false]
            · simp only [padded, if_false]
              split
              · rename_i fits
                rw [List.take_of_length_le fits, decide_eq_true fits]
                simp [padded]
              · rename_i full
                rw [decide_eq_false full, Bool.and_false]
      · obtain ⟨no_text, nothing⟩ := Base64.wrong_quantum valid
        simp only [not_forall] at valid
        obtain ⟨c, member, wrong⟩ := valid
        have stop := readQuartet_of_invalid member (by simpa using wrong)
        simp only [base64DecodeLoop, stop, no_text, nothing, List.append_nil, Bool.false_and,
          List.take_of_length_le room]

/-- `dbb_base64_decode` has stored the front of the text when it returns. -/
theorem dbbBase64Decode_eq (input : List UInt8) (outputSize : Nat) :
    dbbBase64Decode input outputSize =
      ⟨(Base64.front (strip input)).take outputSize,
        Base64.isText (strip input) &&
          decide ((Base64.front (strip input)).length ≤ outputSize)⟩ := by
  have room : ([] : List UInt8).length ≤ outputSize := Nat.zero_le _
  rw [dbbBase64Decode, base64DecodeLoop_eq (Nat.lt_succ_self _) room, List.nil_append]

theorem length_front_strip_le (text : List UInt8) :
    (Base64.front (strip text)).length ≤ text.length :=
  calc (Base64.front (strip text)).length
      ≤ (strip text).length := Base64.length_front_le _
    _ ≤ text.length := List.length_filter_le _ _

/-- Encoded text has no white space to strip. -/
theorem strip_encode (l : List UInt8) : strip (Base64.encode l) = Base64.encode l := by
  have solid : ∀ n : Fin 64, isspace (Base64.digit n) = false := by decide +kernel
  apply List.filter_eq_self.mpr
  intro c member
  rcases Base64.mem_encode member with rfl | ⟨n, small, rfl⟩
  · rfl
  · rw [solid ⟨n, small⟩]
    rfl

/-- The base64 decoder gets an encoded message back. -/
theorem dbbBase64Decode_encode {message : List UInt8} {outputSize : Nat}
    (room : message.length ≤ outputSize) :
    dbbBase64Decode (Base64.encode message) outputSize = ⟨message, true⟩ := by
  have decoded := Base64.decode_encode message
  have text : Base64.isText (Base64.encode message) = true := by
    rw [← Base64.isSome_decode, decoded]
    rfl
  rw [dbbBase64Decode_eq, strip_encode, (Base64.front_of_decode decoded).1, text,
    List.take_of_length_le room, Bool.true_and, decide_eq_true room]

/-- The hex decoder gets an encoded message back. -/
theorem hexToBytes_encode {message : List UInt8} {outSize : Nat} (some_bytes : message ≠ [])
    (room : message.length ≤ outSize) :
    hexToBytes (Hex.encode message) outSize = ⟨message, true⟩ := by
  have written : Hex.encode message ≠ [] := by
    cases message with
    | nil => exact absurd rfl some_bytes
    | cons b rest => exact List.cons_ne_nil _ _
  rw [hexToBytes_eq, Hex.decode_encode]
  exact if_pos ⟨written, room⟩

end Ok3506.Dbb
