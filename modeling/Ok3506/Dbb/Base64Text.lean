import Ok3506.Dbb.Codec
import Ok3506.Lib.Memory
import Ok3506.Lib.Padding

/-!
The base64 codec of the DBB module against the texts of RFC 4648.

Encoding and decoding are inverse, with white space anywhere between. The decoder
counts the padding of a quartet without looking where it stands, and returns at the
first padded quartet: the texts that it accepts by that are `Misplaced`.
-/

namespace Ok3506.Dbb

open Base64 CString Mem

/-! ### Round trip -/

/-- The output buffer after `dbb_base64_encode`, where it returns 0: the characters from
the start on, and the terminator at `out_len`. -/
def dbbBase64EncodeInto (input : List UInt8) (output : Mem) (outputSize : Nat) : Option Mem :=
  (dbbBase64Encode input outputSize).map fun text =>
    (ofList text output).store8 ((input.length + 2) / 3 * 4) 0

/-- What the encoder leaves in its buffer. -/
structure Encoded (input : List UInt8) (output after : Mem) : Prop where
  text : after.bytes 0 (4 * ((input.length + 2) / 3)) = encode input
  terminator : after (4 * ((input.length + 2) / 3)) = 0
  outside : ∀ k, 4 * ((input.length + 2) / 3) < k → after k = output k

theorem dbbBase64EncodeInto_eq (input : List UInt8) (output : Mem) (outputSize : Nat) :
    (4 * ((input.length + 2) / 3) + 1 ≤ outputSize ∧
      ∃ after, dbbBase64EncodeInto input output outputSize = some after ∧
        Encoded input output after) ∨
      (outputSize < 4 * ((input.length + 2) / 3) + 1 ∧
        dbbBase64EncodeInto input output outputSize = none) := by
  have size := length_encode input
  have extent : (input.length + 2) / 3 * 4 = 4 * ((input.length + 2) / 3) := Nat.mul_comm _ _
  rw [extent] at size
  rw [dbbBase64EncodeInto, dbbBase64Encode_eq, extent]
  by_cases room : 4 * ((input.length + 2) / 3) + 1 ≤ outputSize
  · refine .inl ⟨room, _, by rw [if_neg (Nat.not_lt.mpr room), Option.map_some], ?_, ?_, ?_⟩
    · rw [bytes_store8_of_disjoint (by omega), ← size, bytes_ofList]
    · exact if_pos rfl
    · intro k behind
      rw [store8, if_neg (Nat.ne_of_gt behind)]
      simp [ofList, List.getElem?_eq_none (show (encode input).length ≤ k by omega)]
  · refine .inr ⟨Nat.not_le.mp room, ?_⟩
    rw [if_pos (Nat.not_le.mp room), Option.map_none]

/-- A text that is the encoding of a message with white space in it. -/
theorem dbbBase64Decode_of_strip {message text : List UInt8} (h : strip text = encode message)
    (outputSize : Nat) :
    dbbBase64Decode text outputSize =
      ⟨message.take outputSize, decide (message.length ≤ outputSize)⟩ := by
  have decoded := decode_encode message
  have isText : isText (encode message) = true := by
    rw [← isSome_decode, decoded]
    rfl
  rw [dbbBase64Decode_eq, h, (front_of_decode decoded).1, isText, Bool.true_and]

/-- **Base64 round trip.** The encoder succeeds exactly when the text and its terminator
fit, and decoding the text, with any white space in it, gives the message back
exactly when the message fits. -/
theorem base64_roundTrip (message : List UInt8) (output : Mem) :
    (∀ outputSize,
      (∃ after, dbbBase64EncodeInto message output outputSize = some after ∧
        Encoded message output after) ∧ 4 * ((message.length + 2) / 3) + 1 ≤ outputSize ∨
      dbbBase64EncodeInto message output outputSize = none ∧
        outputSize < 4 * ((message.length + 2) / 3) + 1) ∧
    ∀ text, strip text = encode message → ∀ capacity,
      (message.length ≤ capacity → dbbBase64Decode text capacity = ⟨message, true⟩) ∧
      (capacity < message.length →
        dbbBase64Decode text capacity = ⟨message.take capacity, false⟩) := by
  constructor
  · intro outputSize
    rcases dbbBase64EncodeInto_eq message output outputSize with ⟨room, found⟩ | ⟨full, failed⟩
    · exact .inl ⟨found, room⟩
    · exact .inr ⟨failed, full⟩
  · intro text spaced capacity
    rw [dbbBase64Decode_of_strip spaced]
    refine ⟨?_, ?_⟩
    · intro room
      rw [List.take_of_length_le room, decide_eq_true room]
    · intro full
      rw [decide_eq_false (Nat.not_le.mpr full)]

/-! ### Soundness -/

/-- After complete quartets of alphabet characters whose bytes fit the buffer there is
a padded quartet, which also fits, but it is not the end of a base64 text: its
padding stands elsewhere, or something follows. -/
inductive Misplaced : Nat → List UInt8 → Prop where
  | here {a b c d : UInt8} {rest : List UInt8} {room : Nat} :
      (∀ x ∈ [a, b, c, d], (sextet x).isSome = true) → pad ∈ [a, b, c, d] →
      (rest ≠ [] ∨ ¬ EndsPadded a b c d) → max 1 (3 - pads a b c d) ≤ room →
      Misplaced room (a :: b :: c :: d :: rest)
  | later {a b c d : UInt8} {rest : List UInt8} {room : Nat} :
      (∀ x ∈ [a, b, c, d], (value x).isSome = true) → Misplaced room rest →
      Misplaced (room + 3) (a :: b :: c :: d :: rest)

/-- If the decoder accepts a string, it is padded base64 apart from white space, the
result encodes to as many characters, and exhausts the alphabet characters. -/
def Sound (s : List UInt8) (outputSize : Nat) : Prop :=
  (dbbBase64Decode s outputSize).ok = true →
    Padded (strip s) ∧
      (encode (dbbBase64Decode s outputSize).bytes).length = (strip s).length ∧
      Exhausts (strip s) (dbbBase64Decode s outputSize).bytes

section Misplaced

variable {a b c d : UInt8} {rest : List UInt8} {room : Nat}

theorem valid_of_digits (all : ∀ x ∈ [a, b, c, d], (value x).isSome = true) :
    ∀ x ∈ [a, b, c, d], (sextet x).isSome = true := by
  intro x mem
  obtain ⟨v, -, -, read, -⟩ := sextet_of_value (all x mem)
  rw [read]
  rfl

theorem digits_iff (valid : ∀ x ∈ [a, b, c, d], (sextet x).isSome = true) :
    pads a b c d = 0 ↔ ∀ x ∈ [a, b, c, d], (value x).isSome = true := by
  rw [pads, List.count_eq_zero]
  constructor
  · intro none x mem
    have other : x ≠ pad := fun same => none (same ▸ mem)
    have read := valid x mem
    rwa [sextet, if_neg other] at read
  · intro all mem
    have digit := all pad mem
    rw [value_pad] at digit
    cases digit

/-- The decoder accepts a text that is not padded base64. -/
def WronglyAccepted (room : Nat) (text : List UInt8) : Prop :=
  isText text = true ∧ (front text).length ≤ room ∧ ¬ Padded text

/-- The text that a quartet of digits starts. -/
theorem misplaced_digits (all : ∀ x ∈ [a, b, c, d], (value x).isSome = true) :
    Misplaced room (a :: b :: c :: d :: rest) ↔ 3 ≤ room ∧ Misplaced (room - 3) rest := by
  constructor
  · rintro (⟨valid, padded, -, -⟩ | ⟨-, later⟩)
    · exact absurd padded (List.count_eq_zero.mp ((digits_iff valid).mpr all))
    · exact ⟨Nat.le_add_left 3 _, later⟩
  · rintro ⟨fits, later⟩
    obtain ⟨room, rfl⟩ := Nat.exists_eq_add_of_le' fits
    exact .later all later

/-- The text that a padded quartet starts. -/
theorem misplaced_padded (valid : ∀ x ∈ [a, b, c, d], (sextet x).isSome = true)
    (padded : pads a b c d ≠ 0) :
    Misplaced room (a :: b :: c :: d :: rest) ↔
      (rest ≠ [] ∨ ¬ EndsPadded a b c d) ∧ max 1 (3 - pads a b c d) ≤ room := by
  constructor
  · rintro (⟨-, -, wrong, fits⟩ | ⟨all, -⟩)
    · exact ⟨wrong, fits⟩
    · exact absurd ((digits_iff valid).mpr all) padded
  · rintro ⟨wrong, fits⟩
    exact .here valid (List.count_pos_iff.mp (Nat.pos_of_ne_zero padded)) wrong fits

theorem misplaced_iff_of_digits (all : ∀ x ∈ [a, b, c, d], (value x).isSome = true)
    (ih : ∀ room, Misplaced room rest ↔ WronglyAccepted room rest) :
    Misplaced room (a :: b :: c :: d :: rest) ↔
      WronglyAccepted room (a :: b :: c :: d :: rest) := by
  obtain ⟨full, bytes, read, three, -⟩ := quartet_full all
  have spelled : ([a, b, c, d].all fun x => (sextet x).isSome) = true :=
    List.all_eq_true.mpr (valid_of_digits all)
  have no_end : ¬ (rest = [] ∧ EndsPadded a b c d) := by
    rintro ⟨-, -, -, -, rfl⟩
    exact absurd (all pad (by simp)) (by decide)
  rw [misplaced_digits all, ih, WronglyAccepted, WronglyAccepted, isText, spelled, Base64.front,
    read, Padded, and_iff_right all, or_iff_left no_end]
  simp only [full, if_true, bne_self_eq_false, Bool.false_or, Bool.true_and, List.length_append,
    three]
  constructor
  · rintro ⟨fits, text, short, wrong⟩
    exact ⟨text, by omega, wrong⟩
  · rintro ⟨text, short, wrong⟩
    exact ⟨by omega, text, by omega, wrong⟩

theorem misplaced_iff_of_padded (valid : ∀ x ∈ [a, b, c, d], (sextet x).isSome = true)
    (padded : pads a b c d ≠ 0) :
    Misplaced room (a :: b :: c :: d :: rest) ↔
      WronglyAccepted room (a :: b :: c :: d :: rest) := by
  have spelled : ([a, b, c, d].all fun x => (sextet x).isSome) = true :=
    List.all_eq_true.mpr valid
  obtain ⟨bytes, read⟩ := Option.isSome_iff_exists.mp ((isSome_quantum a b c d).trans spelled)
  have not_all : ¬ ((∀ x ∈ [a, b, c, d], (value x).isSome = true) ∧ Padded rest) :=
    fun digits => padded ((digits_iff valid).mpr digits.1)
  have text : (true && (pads a b c d != 0 || isText rest)) = true := by simp [padded]
  rw [misplaced_padded valid padded, WronglyAccepted, isText, spelled, Base64.front, read, Padded,
    or_iff_right not_all, not_and_or, text, and_iff_right rfl, and_comm]
  simp only [padded, if_false, length_of_quantum read]

theorem misplaced_iff_of_invalid (invalid : ¬ ∀ x ∈ [a, b, c, d], (sextet x).isSome = true) :
    Misplaced room (a :: b :: c :: d :: rest) ↔
      WronglyAccepted room (a :: b :: c :: d :: rest) := by
  have wrong : ¬ ∀ x ∈ (a :: b :: c :: d :: rest).take 4, (sextet x).isSome = true := invalid
  have spoiled := (wrong_quantum wrong).1
  refine iff_of_false ?_ ?_
  · rintro (⟨here, -, -, -⟩ | ⟨all, -⟩)
    · exact invalid here
    · exact invalid (valid_of_digits all)
  · rintro ⟨text, -, -⟩
    rw [spoiled] at text
    cases text

/-- **Misplaced texts** are those that are accepted and are not padded base64. -/
theorem misplaced_iff (text : List UInt8) (room : Nat) :
    Misplaced room text ↔ WronglyAccepted room text := by
  induction text using decode.induct generalizing room with
  | case1 =>
      refine iff_of_false (by rintro ⟨⟩) ?_
      rintro ⟨-, -, wrong⟩
      exact wrong trivial
  | case2 a b c d rest ih =>
      by_cases valid : ∀ x ∈ [a, b, c, d], (sextet x).isSome = true
      · by_cases full : pads a b c d = 0
        · exact misplaced_iff_of_digits ((digits_iff valid).mp full) ih
        · exact misplaced_iff_of_padded valid full
      · exact misplaced_iff_of_invalid valid
  | case3 text no_text no_quantum =>
      refine iff_of_false ?_ ?_
      · rintro (_ | _)
        · exact no_quantum _ _ _ _ _ rfl
        · exact no_quantum _ _ _ _ _ rfl
      · rintro ⟨h, -, -⟩
        rw [isText] at h
        · cases h
        · exact no_text
        · exact no_quantum

end Misplaced

/-- **Acceptance** is of base64 exactly when no padding is misplaced. -/
theorem sound_iff (s : List UInt8) (outputSize : Nat) :
    Sound s outputSize ↔ ¬ Misplaced outputSize (strip s) := by
  rw [misplaced_iff, WronglyAccepted, Sound, dbbBase64Decode_eq]
  simp only [Bool.and_eq_true, decide_eq_true_eq]
  constructor
  · rintro sound ⟨text, fits, wrong⟩
    exact wrong (sound ⟨text, fits⟩).1
  · rintro placed ⟨text, fits⟩
    have padded : Padded (strip s) := by
      by_contra wrong
      exact placed ⟨text, fits, wrong⟩
    rw [List.take_of_length_le fits]
    exact ⟨padded, padded.front⟩

/-- A padding character in the first place, and data behind a padded quartet. -/
theorem not_sound : ¬ Sound (ascii "=AAA") 1024 ∧ ¬ Sound (ascii "QQ==QQ==") 1024 := by
  constructor
  · intro sound
    have text : strip (ascii "=AAA") = [61, 65, 65, 65] := by decide
    have padded := (sound (by decide +kernel)).1
    rw [text, Padded] at padded
    rcases padded with ⟨all, -⟩ | ⟨-, first, -⟩
    · exact absurd (all 61 (by decide)) (by decide)
    · exact absurd first (by decide)
  · intro sound
    have text : strip (ascii "QQ==QQ==") = [81, 81, 61, 61, 81, 81, 61, 61] := by decide
    have padded := (sound (by decide +kernel)).1
    rw [text, Padded] at padded
    rcases padded with ⟨all, -⟩ | ⟨more, -⟩
    · exact absurd (all 61 (by decide)) (by decide)
    · cases more

end Ok3506.Dbb
