import Ok3506.Dbb.SmsPdu

/-!
Which telephone numbers `encode_bcd_number` accepts.

A number is an optional plus sign and 1 to 31 digits. The scanning loop takes a plus
sign wherever it stands, so it also accepts digits with plus signs between or behind
them; apart from these stray plus signs it accepts numbers exactly, and what it
encodes determines the number.
-/

namespace Ok3506.Dbb

open CString

/-- What stands behind an optional leading plus sign. -/
def subscriber : List UInt8 → List UInt8
  | [] => []
  | c :: number => if c = 43 then number else c :: number

/-- The text without its plus signs. -/
def withoutPlus (number : List UInt8) : List UInt8 := number.filter (· ≠ 43)

/-- 1 to 31 digits. -/
def IsDigits (digits : List UInt8) : Prop :=
  1 ≤ digits.length ∧ digits.length ≤ 31 ∧ ∀ c ∈ digits, isdigit c = true

instance (digits : List UInt8) : Decidable (IsDigits digits) :=
  inferInstanceAs (Decidable (_ ∧ _ ∧ _))

/-- A single optional plus sign, then 1 to 31 digits. -/
def IsNumber (number : List UInt8) : Prop := IsDigits (subscriber number)

instance (number : List UInt8) : Decidable (IsNumber number) :=
  inferInstanceAs (Decidable (IsDigits _))

/-- A plus sign, or at least eleven digits that start with 86. -/
def International (number : List UInt8) : Prop :=
  43 ∈ number ∨ 11 ≤ (digitsOf number).length ∧ [56, 54] <+: digitsOf number

instance (number : List UInt8) : Decidable (International number) :=
  inferInstanceAs (Decidable (_ ∨ _ ∧ _))

/-- The number that a text denotes: whether it is international, and its digits. -/
def denoted (number : List UInt8) : Option (Bool × List UInt8) :=
  if IsNumber number then some (decide (International number), subscriber number) else none

/-- The text is accepted exactly if it is a number, and what is encoded has its digit
count and type. -/
structure NumberExact (number : List UInt8) : Prop where
  accepted : (encodeBcdNumber number 16 0).isSome = true ↔ IsNumber number
  encoded : ∀ da, encodeBcdNumber number 16 0 = some da →
    da.digitsLen.toNat = (digitsOf number).length ∧
      da.toa = if International number then 0x91 else 0x81

/-- Texts that are encoded alike denote the same number. -/
def SameNumber (s t : List UInt8) : Prop :=
  ∀ da, encodeBcdNumber s 16 0 = some da → encodeBcdNumber t 16 0 = some da →
    ∃ number, denoted s = some number ∧ denoted t = some number

/-- A plus sign behind the first character of what are digits otherwise. -/
def StrayPlus (number : List UInt8) : Prop :=
  43 ∈ number.tail ∧ IsDigits (withoutPlus number)

instance (number : List UInt8) : Decidable (StrayPlus number) :=
  inferInstanceAs (Decidable (_ ∧ _))

/-! ### What is accepted -/

theorem withoutPlus_plus (number : List UInt8) :
    withoutPlus (43 :: number) = withoutPlus number := List.filter_cons_of_neg (by decide)

theorem withoutPlus_cons {c : UInt8} (other : c ≠ 43) (number : List UInt8) :
    withoutPlus (c :: number) = c :: withoutPlus number :=
  List.filter_cons_of_pos (by simpa using other)

theorem bcdDigits_isSome {number digits : List UInt8} {toa : UInt8} (few : digits.length ≤ 31) :
    (bcdDigits number digits toa).isSome = true ↔
      (∀ c ∈ withoutPlus number, isdigit c = true) ∧
        digits.length + (withoutPlus number).length ≤ 31 := by
  induction number generalizing digits toa with
  | nil => simpa [bcdDigits, withoutPlus] using few
  | cons c number ih =>
      rw [bcdDigits]
      by_cases plus : c = 43
      · rw [if_pos plus, plus, withoutPlus_plus]
        exact ih few
      · rw [if_neg plus, withoutPlus_cons plus]
        by_cases digit : isdigit c = true
        · rw [if_neg (not_not.mpr digit)]
          by_cases full : 31 ≤ digits.length
          · rw [if_pos full]
            simp
            omega
          · rw [if_neg full, ih (by simp; omega)]
            simp [digit, Nat.add_comm, Nat.add_assoc]
        · rw [if_pos digit]
          simp [digit]

/-- Where only plus signs are not digits, taking them out leaves the digits. -/
theorem digitsOf_eq_withoutPlus {number : List UInt8}
    (h : ∀ c ∈ withoutPlus number, isdigit c = true) :
    digitsOf number = withoutPlus number := by
  apply List.filter_congr
  intro c mem
  by_cases plus : c = 43
  · rw [plus]
    rfl
  · rw [h c (List.mem_filter.mpr ⟨mem, by simp [plus]⟩)]
    simp [plus]

/-- The scanning loop accepts 1 to 31 digits, with plus signs anywhere. -/
theorem encodeBcdNumber_isSome {number : List UInt8} :
    (encodeBcdNumber number 16 0).isSome = true ↔ IsDigits (withoutPlus number) := by
  have scan : (bcdDigits number [] 0).isSome = true ↔
      (∀ c ∈ withoutPlus number, isdigit c = true) ∧ 0 + (withoutPlus number).length ≤ 31 :=
    bcdDigits_isSome (by decide)
  rw [Nat.zero_add] at scan
  rw [encodeBcdNumber]
  cases scanned : bcdDigits number [] 0 with
  | none =>
      rw [scanned] at scan
      have refused : ¬ IsDigits (withoutPlus number) := fun h =>
        Bool.false_ne_true (scan.mpr ⟨h.2.2, h.2.1⟩)
      simp [refused]
  | some found =>
      obtain ⟨digits, toa⟩ := found
      rw [scanned] at scan
      obtain ⟨all, few⟩ := scan.mp rfl
      obtain ⟨rfl, -, -⟩ := bcdDigits_eq_some (by decide) scanned
      have fits : ¬ 16 < ((withoutPlus number).length + 1) / 2 := by omega
      rw [List.nil_append, digitsOf_eq_withoutPlus all]
      by_cases none : withoutPlus number = []
      · simp [IsDigits, none]
      · have some_digit : 1 ≤ (withoutPlus number).length := List.length_pos_of_ne_nil none
        have accepted : IsDigits (withoutPlus number) := ⟨some_digit, few, all⟩
        simp only [accepted, iff_true]
        simp [none, fits]

/-- Without a stray plus sign, taking the signs out leaves what stands behind a leading
one. -/
theorem withoutPlus_eq_subscriber {number : List UInt8} (h : 43 ∉ number.tail) :
    withoutPlus number = subscriber number := by
  cases number with
  | nil => rfl
  | cons c rest =>
      have same : withoutPlus rest = rest := by
        rw [withoutPlus, List.filter_eq_self]
        intro d mem
        have other : d ≠ 43 := fun plus => h (plus ▸ mem)
        simpa using other
      rw [subscriber]
      by_cases plus : c = 43
      · rw [if_pos plus, plus, withoutPlus_plus, same]
      · rw [if_neg plus, withoutPlus_cons plus, same]

/-- A number has no stray plus sign. -/
theorem IsNumber.plus_leads {number : List UInt8} (h : IsNumber number) : 43 ∉ number.tail := by
  cases number with
  | nil => simp
  | cons c rest =>
      intro mem
      have digit := h.2.2 43 (by
        rw [subscriber]
        split
        · exact mem
        · exact List.mem_cons_of_mem c mem)
      cases digit

/-- **A text is accepted exactly if it is a number**, unless it has a stray plus sign. -/
theorem accepted_iff_isNumber {number : List UInt8} :
    ((encodeBcdNumber number 16 0).isSome = true ↔ IsNumber number) ↔ ¬ StrayPlus number := by
  rw [encodeBcdNumber_isSome]
  by_cases stray : 43 ∈ number.tail
  · have refused : ¬ IsNumber number := fun h => h.plus_leads stray
    simp [StrayPlus, stray, refused]
  · rw [withoutPlus_eq_subscriber stray]
    simp [StrayPlus, stray, IsNumber]

/-! ### What is encoded -/

/-- The type of address by the digits. -/
theorem typeOfAddress_eq (number : List UInt8) :
    typeOfAddress number = if International number then 0x91 else 0x81 := by
  have prefix_iff : ∀ digits : List UInt8, 11 ≤ digits.length →
      ([56, 54] <+: digits ↔ digits.getD 0 0 = 56 ∧ digits.getD 1 0 = 54) := by
    intro digits long
    match digits with
    | a :: b :: rest => simp [List.cons_prefix_cons, eq_comm]
    | [a] | [] => simp at long
  rw [typeOfAddress]
  refine if_congr (or_congr_right (and_congr_right fun long => ?_)) rfl rfl
  exact (prefix_iff _ long).symm

/-- Texts that are encoded alike have the same digits and the same type. -/
theorem digits_of_same {s t : List UInt8} {da : BcdNumber} (hs : encodeBcdNumber s 16 0 = some da)
    (ht : encodeBcdNumber t 16 0 = some da) :
    digitsOf s = digitsOf t ∧ (International s ↔ International t) := by
  obtain ⟨bcd, count, toa, few⟩ := encodeBcdNumber_eq_some hs
  obtain ⟨bcd', count', toa', -⟩ := encodeBcdNumber_eq_some ht
  -- both are what the octets decode to
  have decoded {number : List UInt8} (stored : da.bcd = bcdPairs (digitsOf number))
      (length : da.digitsLen.toNat = (digitsOf number).length)
      (room : (digitsOf number).length < 32) :
      (decodeBcdNumber (Mem.zeroPadded da.bcd) 0 ((da.digitsLen.toNat + 1) / 2) da.digitsLen
        32).value = some (digitsOf number) := by
    refine value_decodeBcdNumber isdigit_of_mem_digitsOf length.symm room ?_
    have size : (da.digitsLen.toNat + 1) / 2 = da.bcd.length := by
      rw [stored, length_bcdPairs, length]
    rw [size, Mem.bytes_ofList, stored]
  have first := decoded bcd count (by omega)
  have second := decoded bcd' count' (by omega)
  refine ⟨Option.some.inj (first.symm.trans second), ?_⟩
  rw [typeOfAddress_eq] at toa toa'
  rw [toa] at toa'
  by_cases is : International s <;> by_cases it : International t <;> simp [is, it] at toa' ⊢

/-! ### Exactness -/

theorem encoded_exact {number : List UInt8} {da : BcdNumber}
    (h : encodeBcdNumber number 16 0 = some da) :
    da.digitsLen.toNat = (digitsOf number).length ∧
      da.toa = if International number then 0x91 else 0x81 := by
  obtain ⟨-, count, toa, -⟩ := encodeBcdNumber_eq_some h
  exact ⟨count, by rw [toa, typeOfAddress_eq]⟩

theorem numberExact_of {number : List UInt8} (clean : ¬ StrayPlus number) : NumberExact number :=
  ⟨accepted_iff_isNumber.mpr clean, fun _ => encoded_exact⟩

/-- Numbers that are encoded alike are the same number. -/
theorem sameNumber_of {s t : List UInt8} (hs : ¬ StrayPlus s) (ht : ¬ StrayPlus t) :
    SameNumber s t := by
  intro da encodes encodet
  obtain ⟨digits, type⟩ := digits_of_same encodes encodet
  have number {r : List UInt8} (clean : ¬ StrayPlus r)
      (encodes : encodeBcdNumber r 16 0 = some da) :
      denoted r = some (decide (International r), digitsOf r) := by
    have valid : IsNumber r := (accepted_iff_isNumber.mpr clean).mp (by rw [encodes]; rfl)
    have subscribers := withoutPlus_eq_subscriber valid.plus_leads
    have all : ∀ c ∈ withoutPlus r, isdigit c = true := by
      rw [subscribers]
      exact valid.2.2
    rw [denoted, if_pos valid, digitsOf_eq_withoutPlus all, subscribers]
  refine ⟨_, number hs encodes, ?_⟩
  rw [number ht encodet, digits]
  simp only [type]

/-- **Telephone numbers are accepted exactly**, and what is encoded determines the
number, when there is no stray plus sign, and only then. -/
theorem telephone_exact_iff (s t : List UInt8) :
    (NumberExact s ∧ NumberExact t ∧ SameNumber s t) ↔ ¬ StrayPlus s ∧ ¬ StrayPlus t := by
  constructor
  · rintro ⟨hs, ht, -⟩
    exact ⟨accepted_iff_isNumber.mp hs.accepted, accepted_iff_isNumber.mp ht.accepted⟩
  · rintro ⟨hs, ht⟩
    exact ⟨numberExact_of hs, numberExact_of ht, sameNumber_of hs ht⟩

/-- Two digits with a plus sign between them are accepted, and encoded like the
international number of the same digits. -/
theorem stray_plus_accepted :
    encodeBcdNumber (ascii "1+2") 16 0 = some ⟨[0x21], 2, 0x91⟩ ∧
      encodeBcdNumber (ascii "+12") 16 0 = some ⟨[0x21], 2, 0x91⟩ ∧
      ¬ IsNumber (ascii "1+2") ∧ ¬ NumberExact (ascii "1+2") := by
  have accepted : encodeBcdNumber (ascii "1+2") 16 0 = some ⟨[0x21], 2, 0x91⟩ := by decide
  have other : ¬ IsNumber (ascii "1+2") := by decide
  refine ⟨accepted, by decide, other, fun exact => other (exact.accepted.mp ?_)⟩
  rw [accepted]
  rfl

end Ok3506.Dbb
