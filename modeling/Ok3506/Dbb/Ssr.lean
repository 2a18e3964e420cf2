import Ok3506.Dbb.Urc

/-!
Forwarding SSR corrections.

A text may hold any number of records; `ssrPayloads` lists what they carry.
`dbb_handle_ssrinfoxw` looks at the first only, and takes the first quoted string
behind it on whatever line.
-/

namespace Ok3506.Dbb

open CString

/-- What a quoted string stands for, when it is hex text. -/
def hexPayload (text : List UInt8) : Option (List UInt8) :=
  if text = [] then none else Hex.decode text

/-- The payload of the record at `p`, when the record is complete: a quoted hex
string behind the prefix on the same line. -/
def ssrPayload (p : List UInt8) : Option (List UInt8) :=
  (quoted (p.takeWhile (· ≠ 10))).bind hexPayload

/-- The payloads of the complete records of a text, in order of appearance. -/
def ssrPayloads (urc : List UInt8) : List (List UInt8) :=
  (occurrences ssrinfoxwPrefix urc).filterMap ssrPayload

/-- The first quoted string behind `p` on whatever line, when it is hex text that
fits the buffer. -/
def nextPayload (p : List UInt8) : Option (List UInt8) :=
  (quoted p).bind fun text => if text.length < 2048 then hexPayload text else none

/-- Digits of either case, an even number of them and at least two. -/
def isHexText (text : List UInt8) : Bool := !text.isEmpty && Hex.isText text

/-- The rest of the line that a record begins. -/
def line (p : List UInt8) : List UInt8 := p.takeWhile (· ≠ 10)

/-- The hex text between the first two quotes of `l`. -/
def quotedHex (l : List UInt8) : Option (List UInt8) := (quoted l).filter isHexText

/-- The records of a text do not get in each other's way. A complete first record has to be
the only complete one, with a text that fits the buffer. A malformed first record with a quote
on its line passes nothing on, so there must be nothing to pass on. One without a quote is
read on into the lines behind it: if the first two quotes there enclose hex text that fits the
buffer, this has to be the text of the only complete record, in digits of either case. -/
def Undisturbed (urc : List UInt8) : Prop :=
  match occurrences ssrinfoxwPrefix urc with
  | [] => True
  | first :: later =>
      let complete := later.filterMap fun p => quotedHex (line p)
      match quotedHex (line first) with
      | some text => text.length < 2048 ∧ complete = []
      | none =>
          if quote ∈ line first then complete = []
          else
            match quotedHex (first.drop (line first).length) with
            | some text =>
                if text.length < 2048 then
                  ∃ own, complete = [own] ∧ own.map toupper = text.map toupper
                else complete = []
            | none => complete = []

theorem quoted_eq_some_iff {l text : List UInt8} :
    quoted l = some text ↔
      ∃ before after, quote ∉ before ∧ quote ∉ text ∧
        l = before ++ quote :: (text ++ quote :: after) := by
  simp only [quoted, Option.bind_eq_bind, Option.bind_eq_some_iff, strchr_eq_some_iff]
  constructor
  · rintro ⟨start, ⟨before, first, rfl, opening⟩, stop, ⟨inner, second, split, closing⟩, cut⟩
    obtain ⟨text', rfl⟩ : ∃ text', start = quote :: text' := by
      cases start with
      | nil => cases opening
      | cons a text' =>
          cases opening
          exact ⟨text', rfl⟩
    obtain ⟨after, rfl⟩ : ∃ after, stop = quote :: after := by
      cases stop with
      | nil => cases closing
      | cons a after =>
          cases closing
          exact ⟨after, rfl⟩
    rw [List.tail_cons] at split cut
    have whole : text'.take (text'.length - (quote :: after).length) = inner := by
      rw [split, List.length_append, Nat.add_sub_cancel, List.take_left]
    obtain rfl : inner = text := Option.some.inj (whole ▸ cut)
    exact ⟨before, after, first, second, by rw [split]⟩
  · rintro ⟨before, after, first, second, rfl⟩
    refine ⟨_, ⟨before, first, rfl, rfl⟩, quote :: after, ⟨text, second, rfl, rfl⟩, ?_⟩
    rw [List.tail_cons, List.length_append, Nat.add_sub_cancel, List.take_left]
    rfl

section Lines

variable {p text : List UInt8}

theorem line_append_drop (p : List UInt8) : line p ++ p.drop (line p).length = p :=
  List.prefix_iff_eq_append.mp (List.takeWhile_prefix _)

/-- The first quoted string of a line is the first one of the text. -/
theorem quoted_of_line (h : quoted (line p) = some text) : quoted p = some text := by
  obtain ⟨before, after, first, second, split⟩ := quoted_eq_some_iff.mp h
  refine quoted_eq_some_iff.mpr ⟨before, after ++ p.drop (line p).length, first, second, ?_⟩
  calc p = line p ++ p.drop (line p).length := (line_append_drop p).symm
    _ = before ++ quote :: (text ++ quote :: (after ++ p.drop (line p).length)) := by
        rw [split]
        simp

/-- A quoted string that begins on the line and has no newline ends on it. -/
theorem quoted_line (opened : quote ∈ line p) (solid : 10 ∉ text) (h : quoted p = some text) :
    quoted (line p) = some text := by
  obtain ⟨before, after, first, second, split⟩ := quoted_eq_some_iff.mp h
  have clear : ∀ c ∈ before, decide (c ≠ 10) = true := by
    intro c mem
    rw [decide_eq_true_eq]
    rintro rfl
    obtain ⟨start, stop, rfl⟩ := List.append_of_mem mem
    have cut : line p <+: start := by
      rw [line, split, List.append_assoc, List.takeWhile_append]
      split
      · simp
      · exact List.takeWhile_prefix _
    exact first (List.mem_append_left _ (cut.subset opened))
  refine quoted_eq_some_iff.mpr ⟨before, after.takeWhile (· ≠ 10), first, second, ?_⟩
  have middle : ∀ c ∈ text, decide (c ≠ 10) = true := by
    intro c mem
    rw [decide_eq_true_eq]
    rintro rfl
    exact solid mem
  have onward (l : List UInt8) :
      (quote :: l).takeWhile (fun c => decide (c ≠ 10)) =
        quote :: l.takeWhile fun c => decide (c ≠ 10) := rfl
  rw [line, split, List.takeWhile_append_of_pos clear, onward,
    List.takeWhile_append_of_pos middle, onward]

/-- Behind a line without a quote the search goes on. -/
theorem quoted_drop (closed : quote ∉ line p) : quoted p = quoted (p.drop (line p).length) := by
  have search : strchr quote p = strchr quote (p.drop (line p).length) := by
    conv_lhs => rw [← line_append_drop p]
    exact strchr_append closed _
  rw [quoted, quoted, search]

end Lines

section Payloads

variable {p text text' : List UInt8}

theorem isSome_hexPayload (text : List UInt8) : (hexPayload text).isSome = isHexText text := by
  unfold hexPayload isHexText
  split
  · rename_i empty
    rw [empty]
    rfl
  · rename_i digits
    rw [Hex.isSome_decode, List.isEmpty_eq_false_iff.mpr digits]
    rfl

/-- Texts stand for the same bytes when they differ in the case of their digits only. -/
theorem hexPayload_eq_iff (h : isHexText text = true) (h' : isHexText text' = true) :
    hexPayload text = hexPayload text' ↔ text.map toupper = text'.map toupper := by
  have decoded {l : List UInt8} (h : isHexText l = true) :
      ∃ bytes, hexPayload l = some bytes ∧ Hex.encode bytes = l.map toupper := by
    rw [← isSome_hexPayload] at h
    obtain ⟨bytes, eq⟩ := Option.isSome_iff_exists.mp h
    refine ⟨bytes, eq, Hex.encode_of_decode ?_⟩
    unfold hexPayload at eq
    split at eq
    · cases eq
    · exact eq
  obtain ⟨bytes, eq, upper⟩ := decoded h
  obtain ⟨bytes', eq', upper'⟩ := decoded h'
  rw [eq, eq', Option.some.injEq, ← upper, ← upper']
  constructor
  · rintro rfl
    rfl
  · intro same
    have back := congrArg Hex.decode same
    rwa [Hex.decode_encode, Hex.decode_encode, Option.some.injEq] at back

theorem bind_hexPayload (o : Option (List UInt8)) :
    o.bind hexPayload = (o.filter isHexText).bind hexPayload := by
  cases o with
  | none => rfl
  | some text =>
      rw [Option.bind_some, Option.filter_some, ← isSome_hexPayload]
      cases eq : hexPayload text with
      | none => rfl
      | some bytes => exact eq.symm

theorem isHexText_of_quotedHex {l : List UInt8} (h : quotedHex l = some text) :
    isHexText text = true ∧ quoted l = some text := by
  obtain ⟨found, hex⟩ := Option.filter_eq_some_iff.mp h
  exact ⟨hex, found⟩

theorem ssrPayload_eq (p : List UInt8) :
    ssrPayload p = (quotedHex (line p)).bind hexPayload := bind_hexPayload _

/-- The handler's record, by its text. -/
theorem nextPayload_eq (p : List UInt8) :
    nextPayload p =
      (quotedHex p).bind fun text => if text.length < 2048 then hexPayload text else none := by
  unfold nextPayload quotedHex
  cases quoted p with
  | none => rfl
  | some text =>
      rw [Option.bind_some, Option.filter_some, ← isSome_hexPayload]
      cases eq : hexPayload text with
      | none => simp
      | some bytes => simp [eq]

/-- No hex text has a newline in it. -/
theorem newline_not_mem (h : isHexText text = true) : 10 ∉ text := by
  intro mem
  rw [isHexText, Hex.isText, Bool.and_eq_true, Bool.and_eq_true] at h
  exact absurd (List.all_eq_true.mp h.2.2 10 mem) (by decide)

/-- The search behind the prefix finds the text of a complete record. -/
theorem quotedHex_of_complete (h : quotedHex (line p) = some text) : quotedHex p = some text := by
  obtain ⟨hex, found⟩ := isHexText_of_quotedHex h
  exact Option.filter_eq_some_iff.mpr ⟨quoted_of_line found, hex⟩

/-- With a quote on the line of a malformed record, no hex text is found. -/
theorem quotedHex_of_malformed (opened : quote ∈ line p) (h : quotedHex (line p) = none) :
    quotedHex p = none := by
  cases found : quotedHex p with
  | none => rfl
  | some text =>
      obtain ⟨hex, whole⟩ := isHexText_of_quotedHex found
      have own : quotedHex (line p) = some text :=
        Option.filter_eq_some_iff.mpr ⟨quoted_line opened (newline_not_mem hex) whole, hex⟩
      rw [h] at own
      cases own

theorem filterMap_ssrPayload (later : List (List UInt8)) :
    later.filterMap ssrPayload =
      (later.filterMap fun p => quotedHex (line p)).filterMap hexPayload := by
  rw [List.filterMap_filterMap]
  exact List.filterMap_congr fun p _ => ssrPayload_eq p

/-- Every complete record has a payload. -/
theorem filterMap_ssrPayload_eq_nil (later : List (List UInt8)) :
    later.filterMap ssrPayload = [] ↔ (later.filterMap fun p => quotedHex (line p)) = [] := by
  simp only [List.filterMap_eq_nil_iff, ssrPayload_eq]
  refine forall₂_congr fun p _ => ?_
  cases found : quotedHex (line p) with
  | none => simp
  | some text =>
      have payload := isSome_hexPayload text
      rw [(isHexText_of_quotedHex found).1] at payload
      simp [← Option.not_isSome_iff_eq_none, payload]

/-- One payload is that of the only complete record. -/
theorem filterMap_ssrPayload_eq_singleton (later : List (List UInt8)) {bytes : List UInt8}
    (hex : isHexText text = true) (decoded : hexPayload text = some bytes) :
    later.filterMap ssrPayload = [bytes] ↔
      ∃ own, (later.filterMap fun p => quotedHex (line p)) = [own] ∧
        own.map toupper = text.map toupper := by
  have complete : ∀ own ∈ later.filterMap fun p => quotedHex (line p), isHexText own = true := by
    intro own mem
    obtain ⟨p, -, found⟩ := List.mem_filterMap.mp mem
    exact (isHexText_of_quotedHex found).1
  rw [filterMap_ssrPayload]
  generalize (later.filterMap fun p => quotedHex (line p)) = texts at complete
  have whole : (texts.filterMap hexPayload).length = texts.length := by
    rw [List.length_filterMap_eq_countP, List.countP_eq_length]
    intro own mem
    rw [isSome_hexPayload]
    exact complete own mem
  constructor
  · intro single
    rw [single] at whole
    obtain ⟨own, rfl⟩ := List.length_eq_one_iff.mp whole.symm
    have own_hex := complete own List.mem_cons_self
    refine ⟨own, rfl, (hexPayload_eq_iff own_hex hex).mp ?_⟩
    have some_payload : (hexPayload own).isSome = true := (isSome_hexPayload own).trans own_hex
    obtain ⟨bytes', eq⟩ := Option.isSome_iff_exists.mp some_payload
    rw [List.filterMap_cons_some eq, List.filterMap_nil, List.cons.injEq] at single
    rw [eq, single.1, decoded]
  · rintro ⟨own, rfl, same⟩
    have eq := (hexPayload_eq_iff (complete own List.mem_cons_self) hex).mpr same
    rw [List.filterMap_cons_some (eq.trans decoded), List.filterMap_nil]

end Payloads

theorem hexToBytes_payload {payload : List UInt8} (short : payload.length < 2048) :
    (hexToBytes payload 2048) =
      match hexPayload payload with
      | some bytes => ⟨bytes, true⟩
      | none => ⟨[], false⟩ := by
  rw [hexToBytes_eq, hexPayload]
  by_cases empty : payload = []
  · subst empty
    rfl
  · rw [if_neg empty]
    cases decoded : Hex.decode payload with
    | none => rfl
    | some bytes =>
        have long := Hex.length_of_decode decoded
        exact if_pos ⟨empty, by omega⟩

/-- The handler forwards the first quoted string behind the first prefix. -/
theorem dbbHandleSsrinfoxw_eq (urc : List UInt8) :
    dbbHandleSsrinfoxw .dppp urc =
      ((occurrences ssrinfoxwPrefix urc).head?.bind nextPayload).toList := by
  rw [dbbHandleSsrinfoxw, strstr_eq_head? (by decide)]
  cases (occurrences ssrinfoxwPrefix urc).head? with
  | none => rfl
  | some line =>
      simp only [Option.bind_some, nextPayload]
      cases quoted line with
      | none => rfl
      | some payload =>
          simp only [Option.bind_some]
          by_cases long : payload.length < 2048
          · by_cases empty : payload.length = 0
            · simp [List.length_eq_zero_iff.mp empty, hexPayload]
            · have some_payload : ¬ (payload.length = 0 ∨ 2048 ≤ payload.length) := by omega
              rw [if_neg some_payload, hexToBytes_payload long, if_pos long]
              cases hexPayload payload with
              | none => rfl
              | some bytes => rfl
          · rw [if_pos (Or.inr (by omega)), if_neg long]
            rfl

/-- What a call of `dbb_handle_urc_blob` forwards. -/
theorem forwarded_dbbHandleUrcBlob (urc : List UInt8) (downlink : Downlink) :
    (dbbHandleUrcBlob .dppp urc downlink).2 = dbbHandleSsrinfoxw .dppp urc := by
  unfold dbbHandleUrcBlob
  split
  · rename_i empty
    rw [empty]
    rfl
  · rfl

/-- **Forwarding.** The corrections of a text are all forwarded, in order and with
nothing in their place, exactly when its records do not disturb each other. -/
theorem forwarded_iff (urc : List UInt8) (downlink : Downlink) :
    (dbbHandleUrcBlob .dppp urc downlink).2 = ssrPayloads urc ↔ Undisturbed urc := by
  rw [forwarded_dbbHandleUrcBlob, dbbHandleSsrinfoxw_eq, ssrPayloads, Undisturbed]
  cases occurrences ssrinfoxwPrefix urc with
  | nil => simp
  | cons first later =>
      rw [List.head?_cons, Option.bind_some, List.filterMap_cons, ssrPayload_eq, nextPayload_eq]
      dsimp only
      cases complete : quotedHex (line first) with
      | some text =>
          obtain ⟨bytes, decoded⟩ : ∃ bytes, hexPayload text = some bytes := by
            rw [← Option.isSome_iff_exists, isSome_hexPayload]
            exact (isHexText_of_quotedHex complete).1
          simp only [quotedHex_of_complete complete, Option.bind_some, decoded]
          by_cases fits : text.length < 2048
          · simp only [fits, if_true, Option.toList_some, true_and, List.cons.injEq]
            rw [eq_comm, filterMap_ssrPayload_eq_nil]
          · simp [fits]
      | none =>
          simp only [Option.bind_none]
          by_cases opened : quote ∈ line first
          · rw [if_pos opened, quotedHex_of_malformed opened complete, Option.bind_none,
              Option.toList_none, eq_comm, filterMap_ssrPayload_eq_nil]
          · have search : quotedHex first = quotedHex (first.drop (line first).length) := by
              rw [quotedHex, quotedHex, quoted_drop opened]
            rw [if_neg opened, search]
            cases found : quotedHex (first.drop (line first).length) with
            | none =>
                rw [Option.bind_none, Option.toList_none, eq_comm, filterMap_ssrPayload_eq_nil]
            | some text =>
                have hex := (isHexText_of_quotedHex found).1
                obtain ⟨bytes, decoded⟩ : ∃ bytes, hexPayload text = some bytes := by
                  rw [← Option.isSome_iff_exists, isSome_hexPayload]
                  exact hex
                dsimp only [Option.bind_some]
                by_cases fits : text.length < 2048
                · rw [if_pos fits, if_pos fits, decoded, Option.toList_some, eq_comm,
                    filterMap_ssrPayload_eq_singleton later hex decoded]
                · rw [if_neg fits, if_neg fits, Option.toList_none, eq_comm,
                    filterMap_ssrPayload_eq_nil]

/-- Two complete records in one text: the second is not forwarded. -/
theorem second_record_lost :
    (dbbHandleUrcBlob .dppp
        (ascii "^SSRINFOXW:2,\"0102\"\r\n^SSRINFOXW:2,\"0304\"\r\n") {}).2 ≠
      ssrPayloads (ascii "^SSRINFOXW:2,\"0102\"\r\n^SSRINFOXW:2,\"0304\"\r\n") := by
  decide +kernel

end Ok3506.Dbb
