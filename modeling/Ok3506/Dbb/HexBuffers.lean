import Ok3506.Lib.Memory
import Ok3506.Dbb.Sms

/-!
The hex codecs over buffers.

`dbb_hex_encode` and `bytes_to_hex` store character by character into the caller's
buffer and `hex_to_bytes` byte by byte, so a call is described by the returned
code and the memory behind the output pointer, before and after. The whole text is
checked before the first store: a failed call leaves buffer and length alone.
-/

namespace Ok3506.Dbb

open CString Mem

/-- The returned code and the output buffer of an encoder. -/
structure HexStored where
  ret : Int
  output : Mem

/-- The returned code, the output buffer and `*out_len` of the decoder. -/
structure HexLoaded where
  ret : Int
  out : Mem
  outLen : Nat

/-- The loop of `dbb_hex_encode`. -/
def dbbHexEncodeLoop (input : Mem) (inputLen : Nat) (output : Mem) : Mem :=
  let lut := ascii "0123456789ABCDEF"
  (List.range inputLen).foldl (fun output i =>
    (output.store8 (i * 2) (lut.getD (((input i).toNat >>> 4) &&& 0x0F) 0)).store8
      (i * 2 + 1) (lut.getD ((input i).toNat &&& 0x0F) 0)) output

/-- `dbb_hex_encode` on its output buffer. -/
def dbbHexEncodeTo (input : Mem) (inputLen : Nat) (output : Mem) (outputSize : Nat) : HexStored :=
  if outputSize < inputLen * 2 + 1 then ⟨-1, output⟩
  else ⟨0, (dbbHexEncodeLoop input inputLen output).store8 (inputLen * 2) 0⟩

/-- The loop of `bytes_to_hex`. -/
def bytesToHexLoop (data : Mem) (dataLen : Nat) (hexOut : Mem) : Mem :=
  let lut := ascii "0123456789ABCDEF"
  (List.range dataLen).foldl (fun hexOut i =>
    (hexOut.store8 (2 * i) (lut.getD (((data i).toNat >>> 4) &&& 0x0F) 0)).store8
      (2 * i + 1) (lut.getD ((data i).toNat &&& 0x0F) 0)) hexOut

/-- `bytes_to_hex` on its output buffer. -/
def bytesToHexTo (data : Mem) (dataLen : Nat) (hexOut : Mem) (hexOutSize : Nat) : HexStored :=
  if hexOutSize < dataLen * 2 + 1 then ⟨-1, hexOut⟩
  else ⟨0, (bytesToHexLoop data dataLen hexOut).store8 (dataLen * 2) 0⟩

/-- The loop of `hex_to_bytes` with `n` iterations left from `i` on; it tells
whether all characters were digits. -/
def hexStoreLoop (hex : List UInt8) : Nat → Nat → Mem → Bool × Mem
  | 0, _, out => (true, out)
  | n + 1, i, out =>
      let hi := hexCharToNibble (hex.getD (2 * i) 0)
      let lo := hexCharToNibble (hex.getD (2 * i + 1) 0)
      if hi < 0 ∨ lo < 0 then (false, out)
      else hexStoreLoop hex n (i + 1) (out.store8 i (UInt8.ofNat ((hi.toNat <<< 4) ||| lo.toNat)))

/-- `hex_to_bytes` on its output buffer. -/
def hexToBytesTo (hex : List UInt8) (out : Mem) (outSize outLen : Nat) : HexLoaded :=
  if ¬ isHexString hex then ⟨-1, out, outLen⟩
  else
    let bytesLen := hex.length / 2
    if bytesLen > outSize then ⟨-1, out, outLen⟩
    else
      let stored := hexStoreLoop hex bytesLen 0 out
      if stored.1 then ⟨0, stored.2, bytesLen⟩ else ⟨-1, stored.2, outLen⟩

/-! ### The encoders -/

/-- One byte of the loop is two digits. -/
theorem digits_of_byte (b : UInt8) :
    [(ascii "0123456789ABCDEF").getD ((b.toNat >>> 4) &&& 0x0F) 0,
      (ascii "0123456789ABCDEF").getD (b.toNat &&& 0x0F) 0] = Hex.encode [b] := by
  have one := dbbHexEncode_eq [b] 3
  simpa [dbbHexEncode] using one

/-- After `n` bytes the buffer begins with their text. -/
theorem dbbHexEncodeLoop_eq (input output : Mem) (n : Nat) :
    dbbHexEncodeLoop input n output = ofList (Hex.encode (input.bytes 0 n)) output := by
  induction n with
  | zero => rfl
  | succ n ih =>
      have length : n * 2 = (Hex.encode (input.bytes 0 n)).length := by
        rw [Hex.length_encode, bytes_length, Nat.mul_comm]
      have digits := digits_of_byte (input n)
      rw [dbbHexEncodeLoop] at ih ⊢
      rw [List.range_succ, List.foldl_append, ih, List.foldl_cons, List.foldl_nil, bytes_append,
        bytes_one, Nat.zero_add, Hex.encode_append, ← digits, length, store8_store8_ofList]

/-- What `dbb_hex_encode` leaves: the text with its NUL, or an untouched buffer. -/
theorem dbbHexEncodeTo_eq (input : Mem) (n : Nat) (output : Mem) (size : Nat) :
    dbbHexEncodeTo input n output size =
      if size < n * 2 + 1 then ⟨-1, output⟩
      else ⟨0, ofList (Hex.encode (input.bytes 0 n) ++ [0]) output⟩ := by
  have length : n * 2 = (Hex.encode (input.bytes 0 n)).length := by
    rw [Hex.length_encode, bytes_length, Nat.mul_comm]
  rw [dbbHexEncodeTo, dbbHexEncodeLoop_eq, ← store8_ofList, ← length]

/-- The two encoders agree, code and buffer. -/
theorem bytesToHexTo_eq (data : Mem) (n : Nat) (output : Mem) (size : Nat) :
    bytesToHexTo data n output size = dbbHexEncodeTo data n output size := by
  simp only [bytesToHexTo, bytesToHexLoop, dbbHexEncodeTo, dbbHexEncodeLoop, Nat.mul_comm 2]

/-! ### The decoder -/

/-- One iteration, on the next two characters. -/
theorem hexStoreLoop_pair (hi lo : UInt8) (rest : List UInt8) (out : Mem) {before : List UInt8}
    {i : Nat} (here : before.length = 2 * i) :
    hexStoreLoop (before ++ hi :: lo :: rest) ((hi :: lo :: rest).length / 2) i out =
      if hexCharToNibble hi < 0 ∨ hexCharToNibble lo < 0 then (false, out)
      else hexStoreLoop (before ++ hi :: lo :: rest) (rest.length / 2) (i + 1) (out.store8 i
        (UInt8.ofNat (((hexCharToNibble hi).toNat <<< 4) ||| (hexCharToNibble lo).toNat))) := by
  have pairs : (hi :: lo :: rest).length / 2 = rest.length / 2 + 1 :=
    Nat.add_div_right rest.length (Nat.succ_pos 1)
  have first : (before ++ hi :: lo :: rest).getD (2 * i) 0 = hi := by simp [← here]
  have second : (before ++ hi :: lo :: rest).getD (2 * i + 1) 0 = lo := by simp [← here]
  rw [pairs, hexStoreLoop, first, second]

/-- The loop stores what `hexToBytesLoop` returns behind what is stored already. -/
theorem hexStoreLoop_eq (rest before done : List UInt8) (out : Mem)
    (here : before.length = 2 * done.length) :
    hexStoreLoop (before ++ rest) (rest.length / 2) done.length (ofList done out) =
      ((hexToBytesLoop rest).ok, ofList (done ++ (hexToBytesLoop rest).bytes) out) := by
  induction rest using hexToBytesLoop.induct generalizing before done with
  | case1 hi lo rest bad =>
      rw [hexStoreLoop_pair hi lo rest _ here, hexToBytesLoop, if_pos bad, if_pos bad,
        List.append_nil]
  | case2 hi lo rest good ih =>
      have moved : (before ++ [hi, lo]).length = 2 * (done.length + 1) := by
        rw [List.length_append, here]
        rfl
      rw [hexStoreLoop_pair hi lo rest _ here, hexToBytesLoop, if_neg good, if_neg good,
        store8_ofList]
      have next := ih (before ++ [hi, lo]) (done ++ [UInt8.ofNat
        (((hexCharToNibble hi).toNat <<< 4) ||| (hexCharToNibble lo).toNat)])
        (by rw [moved, List.length_append]; rfl)
      simpa using next
  | case3 rest short =>
      rcases rest with _ | ⟨hi, _ | ⟨lo, rest⟩⟩
      · simp [hexStoreLoop, hexToBytesLoop]
      · simp [hexStoreLoop, hexToBytesLoop]
      · exact (short hi lo rest rfl).elim

/-- What `hex_to_bytes` leaves: the bytes that it stored, the length only on success. -/
theorem hexToBytesTo_eq (hex : List UInt8) (out : Mem) (outSize outLen : Nat) :
    hexToBytesTo hex out outSize outLen =
      if (hexToBytes hex outSize).ok then
        ⟨0, ofList (hexToBytes hex outSize).bytes out, hex.length / 2⟩
      else ⟨-1, ofList (hexToBytes hex outSize).bytes out, outLen⟩ := by
  rw [hexToBytesTo, hexToBytes]
  by_cases text : isHexString hex = true
  · by_cases fits : outSize < hex.length / 2
    · simp [text, fits]
    · have stored := hexStoreLoop_eq hex [] [] out rfl
      simp only [List.nil_append, ofList_nil, List.length_nil] at stored
      simp [text, fits, stored]
  · simp [text]

/-! ### Agreement -/

/-- What `hex_to_bytes` is to accept: a text that is not empty, of even length and
made of hexadecimal digits, whose bytes fit the output. -/
def HexAccepted (s : List UInt8) (outSize : Nat) : Prop :=
  s ≠ [] ∧ s.length % 2 = 0 ∧ (∀ c ∈ s, isxdigit c = true) ∧ s.length / 2 ≤ outSize

theorem hexAccepted_iff {s : List UInt8} {outSize : Nat} :
    HexAccepted s outSize ↔ isHexString s = true ∧ s.length / 2 ≤ outSize := by
  have text : isHexString s = true ↔
      s ≠ [] ∧ s.length % 2 = 0 ∧ ∀ c ∈ s, isxdigit c = true := by
    rw [isHexString]
    split
    case isTrue bad =>
      rcases bad with empty | odd
      · simp [List.length_eq_zero_iff.mp empty]
      · simp [odd]
    case isFalse good =>
      obtain ⟨some_char, even⟩ := not_or.mp good
      rw [List.all_eq_true, not_not.mp even]
      simp [List.length_eq_zero_iff.not.mp some_char]
  rw [HexAccepted, text, and_assoc, and_assoc]

/-- An accepted text is decoded into the buffer. -/
theorem hexToBytesTo_accepted {s : List UInt8} {outSize : Nat} (accepted : HexAccepted s outSize)
    (out : Mem) (outLen : Nat) :
    ∃ bytes, Hex.decode s = some bytes ∧
      hexToBytesTo s out outSize outLen = ⟨0, ofList bytes out, bytes.length⟩ := by
  obtain ⟨text, fits⟩ := hexAccepted_iff.mp accepted
  have digits : Hex.isText s = true := by
    rw [isHexString_eq, Bool.and_eq_true] at text
    exact text.2
  rw [← Hex.isSome_decode] at digits
  obtain ⟨bytes, decoded⟩ := Option.isSome_iff_exists.mp digits
  have stored := hexStoreLoop_eq s [] [] out rfl
  rw [hexToBytesLoop_of_decode decoded, List.nil_append, List.nil_append, ofList_nil] at stored
  refine ⟨bytes, decoded, ?_⟩
  rw [hexToBytesTo, if_neg (not_not.mpr text), if_neg (Nat.not_lt.mpr fits)]
  simp only [List.length_nil] at stored
  rw [stored, if_pos rfl, Hex.length_of_decode decoded]

/-- Any other text is refused before the first store. -/
theorem hexToBytesTo_refused {s : List UInt8} {outSize : Nat} (refused : ¬ HexAccepted s outSize)
    (out : Mem) (outLen : Nat) : hexToBytesTo s out outSize outLen = ⟨-1, out, outLen⟩ := by
  rw [hexAccepted_iff] at refused
  rw [hexToBytesTo]
  split
  case isTrue => rfl
  case isFalse text => rw [if_pos (by simp_all)]

theorem hexToBytesTo_ret {s : List UInt8} {out : Mem} {outSize outLen : Nat} :
    (hexToBytesTo s out outSize outLen).ret = 0 ↔ HexAccepted s outSize := by
  by_cases accepted : HexAccepted s outSize
  · obtain ⟨bytes, -, done⟩ := hexToBytesTo_accepted accepted out outLen
    simp [done, accepted]
  · simp [hexToBytesTo_refused accepted, accepted]

/-- A text read out of the buffer that it was stored in. -/
theorem cstr_stored {text : List UInt8} (solid : ∀ c ∈ text, c ≠ 0) (out : Mem) {size : Nat}
    (room : text.length < size) : cstr ((ofList (text ++ [0]) out).bytes 0 size) = text := by
  obtain ⟨rest, rfl⟩ := Nat.exists_eq_add_of_lt room
  have stored := bytes_ofList (text ++ [0]) out
  rw [List.length_append, List.length_singleton] at stored
  have order : text.length + rest + 1 = text.length + 1 + rest := by omega
  rw [order, bytes_append, stored, cstr, List.append_assoc,
    List.takeWhile_append_of_pos fun c mem => by simpa using solid c mem]
  simp

/-- The string an encoder leaves in a buffer that is large enough. -/
theorem bytesToHexTo_text (data : Mem) (n : Nat) (hexOut : Mem) {size : Nat}
    (room : n * 2 + 1 ≤ size) :
    (bytesToHexTo data n hexOut size).ret = 0 ∧
      cstr ((bytesToHexTo data n hexOut size).output.bytes 0 size) =
        Hex.encode (data.bytes 0 n) := by
  have solid : ∀ c ∈ Hex.encode (data.bytes 0 n), c ≠ 0 := by
    rintro c mem rfl
    obtain ⟨v, value⟩ := Hex.value_of_mem_encode mem
    cases value
  have length : (Hex.encode (data.bytes 0 n)).length = n * 2 := by
    rw [Hex.length_encode, bytes_length, Nat.mul_comm]
  rw [bytesToHexTo_eq, dbbHexEncodeTo_eq, if_neg (by omega)]
  exact ⟨rfl, cstr_stored solid hexOut (by omega)⟩

/-- Decoding what was encoded. -/
theorem hexToBytesTo_encode {x : List UInt8} (some_byte : x ≠ []) {outSize : Nat}
    (room : x.length ≤ outSize) (out : Mem) (outLen : Nat) :
    hexToBytesTo (Hex.encode x) out outSize outLen = ⟨0, ofList x out, x.length⟩ := by
  have whole := hexToBytes_encode some_byte room
  rw [hexToBytesTo_eq, whole, if_pos rfl, Hex.length_encode, Nat.mul_div_cancel_left _ Nat.two_pos]

/-- **The hex codecs agree and are inverse.** -/
theorem hexCodecs_inverse :
    (∀ (input output : Mem) (n size : Nat),
      dbbHexEncodeTo input n output size = bytesToHexTo input n output size) ∧
    (∀ (s : List UInt8) (out : Mem) (outSize outLen : Nat),
      ((hexToBytesTo s out outSize outLen).ret = 0 ↔ HexAccepted s outSize) ∧
      ((hexToBytesTo s out outSize outLen).ret ≠ 0 →
        hexToBytesTo s out outSize outLen = ⟨-1, out, outLen⟩)) ∧
    (∀ (x : List UInt8) (rest hexOut out : Mem) (hexOutSize outSize outLen : Nat), x ≠ [] →
      x.length * 2 + 1 ≤ hexOutSize → x.length ≤ outSize →
      let text := bytesToHexTo (ofList x rest) x.length hexOut hexOutSize
      let back := hexToBytesTo (cstr (text.output.bytes 0 hexOutSize)) out outSize outLen
      text.ret = 0 ∧ back.ret = 0 ∧ back.outLen = x.length ∧ back.out.bytes 0 back.outLen = x) ∧
    (∀ (s : List UInt8) (out hexOut : Mem) (outSize outLen hexOutSize : Nat),
      HexAccepted s outSize → s.length + 1 ≤ hexOutSize →
      let bytes := hexToBytesTo s out outSize outLen
      let text := bytesToHexTo bytes.out bytes.outLen hexOut hexOutSize
      text.ret = 0 ∧ cstr (text.output.bytes 0 hexOutSize) = s.map toupper) := by
  refine ⟨fun input output n size => (bytesToHexTo_eq input n output size).symm,
    fun s out outSize outLen => ⟨hexToBytesTo_ret, fun failed => ?_⟩, ?_, ?_⟩
  · exact hexToBytesTo_refused (mt hexToBytesTo_ret.mpr failed) out outLen
  · intro x rest hexOut out hexOutSize outSize outLen some_byte hexRoom room
    obtain ⟨done, text⟩ := bytesToHexTo_text (ofList x rest) x.length hexOut hexRoom
    rw [bytes_ofList] at text
    simp only [text, hexToBytesTo_encode some_byte room, done, bytes_ofList, true_and]
  · intro s out hexOut outSize outLen hexOutSize accepted room
    obtain ⟨bytes, decoded, loaded⟩ := hexToBytesTo_accepted accepted out outLen
    have length := Hex.length_of_decode decoded
    have even := accepted.2.1
    obtain ⟨done, text⟩ := bytesToHexTo_text (ofList bytes out) bytes.length hexOut
      (show bytes.length * 2 + 1 ≤ hexOutSize by omega)
    simp only [loaded]
    rw [bytes_ofList, Hex.encode_of_decode decoded] at text
    exact ⟨done, text⟩

end Ok3506.Dbb
