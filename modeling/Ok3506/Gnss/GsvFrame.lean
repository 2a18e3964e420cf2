import Ok3506.Lib.Memory
import Ok3506.Gnss.MinmeaFields
import Ok3506.Gnss.MinmeaFrames

/-!
The signal identifier of a GSV frame in memory.

`'s'` copies its field without a bound, and `signal_id` has eight bytes. The field comes
last in the format, so what it writes behind them lands on the satellites; the length of
a line keeps it inside the frame.
-/

namespace Ok3506.Gnss

open CString Mem

/-! ### The frame -/

/-- `offsetof(struct minmea_sentence_gsv, signal_id)`. -/
def offsetSignalId : Nat := 20

/-- `offsetof(struct minmea_sentence_gsv, sats)`. -/
def offsetSats : Nat := 28

/-- `sizeof(struct minmea_sentence_gsv)`. -/
def sizeofGsv : Nat := 108

/-- The stores of `'s'` for `frame->signal_id`, behind the other stores of the scan. -/
def storeSignalId (frame : Mem) (signalId : List UInt8) : Mem :=
  frame.copy offsetSignalId (zeroPadded signalId) (signalId.length + 1)

/-! ### The last field of a format -/

section Fields

variable {format : List Directive}

/-- The values of a format without those of its first letters. -/
def Values.drop : (letters : List Directive) → Values (letters ++ format) → Values format
  | [], values => values
  | _ :: letters, (_, values) => Values.drop letters values

/-- What one letter reads, and what is left to the others. -/
theorem scanFields_cons_ok {letter : Directive} (solid : letter ≠ .optional) {isOptional : Bool}
    {fields : List (List UInt8)} {values : Values (letter :: format)}
    (h : scanFields (letter :: format) isOptional fields = .ok values) :
    letter.read fields.head? = .ok values.1 ∧
      scanFields format isOptional fields.tail = .ok values.2 := by
  rw [scanFields_cons solid] at h
  split at h
  · cases h
  · cases read : letter.read fields.head? with
    | error e =>
        rw [read] at h
        cases h
    | ok value =>
        rw [read, ok_bind] at h
        cases rest : scanFields format isOptional fields.tail with
        | error e =>
            rw [rest] at h
            cases h
        | ok later =>
            rw [rest] at h
            cases h
            exact ⟨rfl, rfl⟩

theorem scanFields_optional_ok {isOptional : Bool} {fields : List (List UInt8)}
    {values : Values (.optional :: format)}
    (h : scanFields (.optional :: format) isOptional fields = .ok values) :
    scanFields format true fields = .ok values.2 := by
  rw [scanFields] at h
  cases rest : scanFields format true fields with
  | error e =>
      rw [rest] at h
      cases h
  | ok later =>
      rw [rest] at h
      cases h
      rfl

theorem scanFields_append_ok {letters : List Directive} (solid : ∀ l ∈ letters, l ≠ .optional)
    {isOptional : Bool} {fields : List (List UInt8)} {values : Values (letters ++ format)}
    (h : scanFields (letters ++ format) isOptional fields = .ok values) :
    scanFields format isOptional (fields.drop letters.length) = .ok (values.drop letters) := by
  induction letters generalizing fields with
  | nil => exact h
  | cons letter letters ih =>
      obtain ⟨first, later⟩ := List.forall_mem_cons.mp solid
      have rest := ih later (scanFields_cons_ok first h).2
      rwa [List.drop_tail, ← List.length_cons] at rest

/-- The joined fields are at least as long as a field with the commas up to it, which bounds
where the field can end. -/
theorem length_joined {later : List (List UInt8)} {i : Nat} {field : List UInt8}
    (h : later[i]? = some field) : i + 1 + field.length ≤ (joined later).length := by
  induction later generalizing i with
  | nil => cases h
  | cons f later ih =>
      have split : (joined (f :: later)).length = 1 + f.length + (joined later).length := by
        rw [joined, List.flatMap_cons, List.length_append, List.length_cons, ← joined]
        omega
      rw [split]
      cases i with
      | zero =>
          cases h
          omega
      | succ i =>
          have rest := ih h
          omega

end Fields

/-! ### GSV sentences -/

section Gsv

variable {t : SentenceText} {frame : SentenceGsv} {junk : List UInt8}

/-- The identifier is the 21st field; the type and twenty commas stand before it. -/
theorem signalId_eq (valid : t.Valid false)
    (parsed : minmeaParseGsv (t.text ++ 0 :: junk) = .ok frame) :
    frame.signalId = t.fieldList.getD 20 [] ∧
      (frame.signalId ≠ [] → 26 + frame.signalId.length ≤ t.text.length) := by
  rw [minmeaParseGsv, minmeaScan_eq valid] at parsed
  cases scan : scanFields formatGsv false t.fieldList with
  | error e =>
      rw [scan] at parsed
      cases parsed
  | ok values =>
      have type := (scanFields_cons_ok (by decide) scan).1
      have four := @scanFields_append_ok _ [.t, .i, .i, .i] (by decide) _ _ _ scan
      have twenty := @scanFields_append_ok _ [.i, .i, .i, .f, .i, .i, .i, .f, .i, .i, .i, .f, .i,
        .i, .i, .f] (by decide) _ _ _ (scanFields_optional_ok four)
      have last := (scanFields_cons_ok (by decide) (scanFields_optional_ok twenty)).1
      have same : frame.signalId = t.fieldList.getD 20 [] := by
        rw [scan, ok_bind] at parsed
        change (checkType values.1 "GSV" >>= _) = _ at parsed
        cases checked : checkType values.1 "GSV" with
        | error e =>
            rw [checked] at parsed
            cases parsed
        | ok _ =>
            rw [checked] at parsed
            cases parsed
            have read := Except.ok.inj last
            rw [List.drop_drop, List.head?_drop] at read
            rw [List.getD_eq_getElem?_getD]
            exact read.symm
      refine ⟨same, fun some => ?_⟩
      obtain ⟨first, later, split, eq, -⟩ := joined_splitOn (36 :: t.body)
      have body : t.fieldList = first :: later := split
      have long : 6 ≤ first.length := by
        rw [body, List.head?_cons] at type
        by_contra short
        have refused : typeText first = .error .parseError := if_neg fun h => short h.2
        cases refused.symm.trans type
      have present : later[19]? = Option.some frame.signalId := by
        rw [same, body, List.getD_cons_succ] at some
        rw [same, body, List.getD_cons_succ]
        cases h : later[19]? with
        | none =>
            rw [List.getD_eq_getElem?_getD, h] at some
            exact absurd rfl some
        | some field => rw [List.getD_eq_getElem?_getD, h, Option.getD_some]
      have room := length_joined present
      have total := congrArg List.length eq
      rw [List.length_append, List.length_cons] at total
      simp only [SentenceText.text, List.length_cons, List.length_append]
      omega

/-- A field of a checked sentence holds no NUL: the only one in `signal_id` is the one
written behind it. -/
theorem zero_not_mem_field (valid : t.Valid false) (i : Nat) : 0 ∉ t.fieldList.getD i [] := by
  obtain ⟨first, later, split, -, parts⟩ := joined_splitOn (36 :: t.body)
  have fields : t.fieldList = first :: later := split
  intro mem
  rw [fields, List.getD_eq_getElem?_getD] at mem
  cases h : (first :: later)[i]? with
  | none =>
      rw [h] at mem
      cases mem
  | some field =>
      rw [h] at mem
      have inside := (parts field (List.mem_of_getElem? h) 0 mem).1
      rcases List.mem_cons.mp inside with start | inside
      · cases start
      · cases valid.body 0 inside

/-- Read from `signal_id` on, the memory holds the copied characters and the NUL. -/
theorem bytes_storeSignalId (m : Mem) (signalId : List UInt8) :
    (storeSignalId m signalId).bytes offsetSignalId (signalId.length + 1) = signalId ++ [0] := by
  have source : (zeroPadded signalId).bytes 0 (signalId.length + 1) = signalId ++ [0] := by
    rw [bytes_append, bytes_ofList, bytes_one, zeroPadded, ofList_apply_ge _ (by omega)]
  rw [storeSignalId, bytes_copy, source]

/-- Read from the satellites on, the memory holds what the copy writes behind the eight
bytes of `signal_id`. -/
theorem shift_storeSignalId (m : Mem) (signalId : List UInt8) :
    (storeSignalId m signalId).shift offsetSats =
      ofList ((signalId ++ [0]).drop 8) (m.shift offsetSats) := by
  have block : (storeSignalId m signalId).bytes offsetSignalId (signalId ++ [0]).length =
      signalId ++ [0] := by
    rw [List.length_append]
    exact bytes_storeSignalId m signalId
  funext k
  rw [shift_apply]
  by_cases inside : k < ((signalId ++ [0]).drop 8).length
  · have here : 8 + k < (signalId ++ [0]).length := by
      rw [List.length_drop] at inside
      omega
    rw [ofList_apply_lt _ inside, List.getElem_drop, ← bytes_eq_iff.mp block (8 + k) here,
      ← Nat.add_assoc]
    rfl
  · rw [ofList_apply_ge _ (Nat.not_lt.mp inside), shift_apply]
    rw [List.length_drop, List.length_append, List.length_singleton] at inside
    refine if_neg ?_
    rw [offsetSignalId, offsetSats]
    omega

/-- **The identifier stays in the frame.** For every sentence that the line buffer can hold,
the copy into `signal_id` ends inside the frame, so nothing behind it is touched; it gives
the field back. The satellites stay as they are exactly when what goes beyond the eight
bytes is what they hold anyway: always up to seven characters. -/
theorem gsv_signalId (t : SentenceText) (valid : t.Valid false) (short : t.text.length ≤ 95)
    (junk : List UInt8) (frame : SentenceGsv)
    (parsed : minmeaParseGsv (t.text ++ 0 :: junk) = .ok frame) (m : Mem) :
    cstr ((storeSignalId m frame.signalId).bytes offsetSignalId (sizeofGsv - offsetSignalId)) =
        t.fieldList.getD 20 [] ∧
      (∀ k, k < offsetSignalId ∨ sizeofGsv ≤ k → storeSignalId m frame.signalId k = m k) ∧
      ((storeSignalId m frame.signalId).bytes offsetSats (sizeofGsv - offsetSats) =
          m.bytes offsetSats (sizeofGsv - offsetSats) ↔
        (frame.signalId ++ [0]).drop 8 <+: m.bytes offsetSats (sizeofGsv - offsetSats)) := by
  obtain ⟨same, room⟩ := signalId_eq valid parsed
  have solid := zero_not_mem_field valid 20
  rw [← same] at solid ⊢
  generalize frame.signalId = signalId at *
  have length : signalId.length ≤ 69 := by
    by_cases empty : signalId = []
    · simp [empty]
    · have := room empty
      omega
  refine ⟨?_, ?_, ?_⟩
  · have split : sizeofGsv - offsetSignalId =
        signalId.length + 1 + (sizeofGsv - offsetSignalId - (signalId.length + 1)) := by
      rw [sizeofGsv, offsetSignalId]
      omega
    have all : ∀ c ∈ signalId, decide (c ≠ 0) = true := fun c mem => by
      rw [decide_eq_true_eq]
      rintro rfl
      exact solid mem
    rw [split, bytes_append, bytes_storeSignalId, List.append_assoc, cstr,
      List.takeWhile_append_of_pos all]
    simp
  · intro k outside
    refine if_neg ?_
    rw [sizeofGsv] at outside
    rw [offsetSignalId] at outside ⊢
    omega
  · have whole : ((signalId ++ [0]).drop 8).take (sizeofGsv - offsetSats) =
        (signalId ++ [0]).drop 8 := by
      refine List.take_of_length_le ?_
      rw [List.length_drop, List.length_append, List.length_singleton, sizeofGsv, offsetSats]
      omega
    have seen (m : Mem) : m.bytes offsetSats (sizeofGsv - offsetSats) =
        (m.shift offsetSats).bytes 0 (sizeofGsv - offsetSats) := by
      rw [bytes_shift, Nat.add_zero]
    rw [seen, seen m, shift_storeSignalId, bytes_ofList_eq_iff, whole]

/-- A frame without satellites, and an identifier that is one character too long. -/
def longGsv : SentenceText := ⟨ascii "GPGSV,1,1,00,,,,,,,,,,,,,,,,,12345678", none, []⟩

theorem longGsv_valid : longGsv.Valid false where
  body := List.all_eq_true.mp (by decide)
  ending := by simp [longGsv]
  digits := by simp [longGsv]
  checked := by simp

def longGsvFrame : SentenceGsv where
  type := ⟨ascii "GP", ascii "GSV"⟩
  totalMsgs := 1
  msgNr := 1
  totalSats := 0
  signalId := ascii "12345678"
  sats := List.replicate 4 ⟨0, 0, 0, ⟨0, 0⟩⟩

theorem gsv_signalId_long :
    cstr ((storeSignalId (fun _ => 1) (ascii "12345678")).bytes 20 88) = ascii "12345678" ∧
      (storeSignalId (fun _ => 1) (ascii "12345678")).bytes 28 80 ≠
        Mem.bytes (fun _ => 1) 28 80 := by
  have parsed : minmeaParseGsv (longGsv.text ++ 0 :: []) = .ok longGsvFrame := by decide +kernel
  obtain ⟨back, -, overwritten⟩ :=
    gsv_signalId longGsv longGsv_valid (by decide) [] longGsvFrame parsed fun _ => 1
  exact ⟨back, fun same => by cases overwritten.mp same; contradiction⟩

end Gsv

end Ok3506.Gnss
