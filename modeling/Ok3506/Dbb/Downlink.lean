import Ok3506.Dbb.Urc

/-!
The downlink message as a cell that takes a message whole or not at all.

What the cell should hold is read off the records alone: `lastMessage`, the
message of the last record that decodes. `dbb_handle_dlnetdata` decodes straight
into the cell, so a record that fails half way has changed it already; the cell
survives exactly the records whose `spilt` bytes are the ones it holds.
-/

namespace Ok3506.Dbb

open CString

/-! ### What a record stands for -/

/-- The message of a record. -/
def DlRecord.message (record : DlRecord) : Option (List UInt8) :=
  if strcasecmpEq record.chset (ascii "HEX") then Hex.decode record.datastr
  else if strcasecmpEq record.chset (ascii "BASE64") then Base64.decode (strip record.datastr)
  else none

/-- What of a wrong record has been decoded when it is found to be wrong. -/
def DlRecord.spilt (record : DlRecord) : List UInt8 :=
  if strcasecmpEq record.chset (ascii "HEX") then []
  else if strcasecmpEq record.chset (ascii "BASE64") then Base64.front (strip record.datastr)
  else []

/-- The message that arrives with the record at `p`. -/
def received (p : List UInt8) : Option (List UInt8) := (scanDlnetdata p).bind DlRecord.message

/-- What the record at `p` leaves behind when no message arrives with it. -/
def spilt (p : List UInt8) : List UInt8 :=
  match scanDlnetdata p with
  | some record => record.spilt
  | none => []

/-- The message of the last record that has one. -/
def lastMessage (records : List (List UInt8)) : List UInt8 :=
  (records.filterMap received).getLast?.getD []

/-- The record at `p` is read, but its payload does not decode. -/
def Undecodable (p : List UInt8) : Prop :=
  ∃ record, scanDlnetdata p = some record ∧ record.decode.ok = false

theorem scanNot_spec {c : UInt8} {width : Nat} {s token rest : List UInt8}
    (h : scanNot c width s = some (token, rest)) :
    token ≠ [] ∧ token.length ≤ width ∧ s = token ++ rest := by
  simp only [scanNot] at h
  split at h
  · cases h
  · rename_i some_token
    cases h
    have start : (s.take width).takeWhile (· ≠ c) <+: s :=
      (List.takeWhile_prefix _).trans (List.take_prefix _ _)
    refine ⟨some_token, ?_, (List.prefix_iff_eq_append.mp start).symm⟩
    calc ((s.take width).takeWhile (· ≠ c)).length
        ≤ (s.take width).length := (List.takeWhile_prefix _).length_le
      _ ≤ width := List.length_take_le _ _

theorem scanDlnetdata_spec {p : List UInt8} {record : DlRecord}
    (h : scanDlnetdata p = some record) :
    record.datastr ≠ [] ∧ record.datastr.length ≤ 1023 := by
  simp only [scanDlnetdata, Option.bind_eq_bind, Option.bind_eq_some_iff, Prod.exists] at h
  obtain ⟨_, -, _, _, -, _, -, _, _, -, _, -, _, _, payload, h⟩ := h
  cases h
  exact ⟨(scanNot_spec payload).1, (scanNot_spec payload).2.1⟩

/-- What the decoder does to a record whose payload the format can hold. -/
theorem decode_eq {record : DlRecord} (some_payload : record.datastr ≠ [])
    (short : record.datastr.length ≤ 1023) :
    record.decode =
      match record.message with
      | some message => ⟨message, true⟩
      | none => ⟨record.spilt, false⟩ := by
  unfold DlRecord.decode DlRecord.message DlRecord.spilt
  split
  · rw [hexToBytes_eq]
    cases decoded : Hex.decode record.datastr with
    | none => rfl
    | some message =>
        have long := Hex.length_of_decode decoded
        exact if_pos ⟨some_payload, by omega⟩
  · split
    · have fits : (Base64.front (strip record.datastr)).length ≤ 1024 := by
        have le := length_front_strip_le record.datastr
        omega
      rw [dbbBase64Decode_eq, List.take_of_length_le fits, ← Base64.isSome_decode,
        decide_eq_true fits, Bool.and_true]
      cases decoded : Base64.decode (strip record.datastr) with
      | none => rfl
      | some message => rw [(Base64.front_of_decode decoded).1]; rfl
    · rfl

theorem length_received {p message : List UInt8} (h : received p = some message) :
    message.length < 1025 := by
  obtain ⟨record, scanned, h⟩ := Option.bind_eq_some_iff.mp h
  have short := (scanDlnetdata_spec scanned).2
  unfold DlRecord.message at h
  split at h
  · rw [Hex.length_of_decode h]
    omega
  · split at h
    · have le := length_front_strip_le record.datastr
      rw [(Base64.front_of_decode h).1] at le
      omega
    · cases h

/-- **One record.** A message is taken; otherwise only `downlink_raw` may change. -/
theorem dlnetdataRecord_eq (downlink : Downlink) (p : List UInt8) :
    dlnetdataRecord downlink p =
      match received p with
      | some message =>
          let raw := Mem.ofList message downlink.raw
          { raw, rawLen := message.length,
            text := (downlink.text.copy 0 raw message.length).store8 message.length 0 }
      | none => { downlink with raw := Mem.ofList (spilt p) downlink.raw } := by
  cases scanned : scanDlnetdata p with
  | none => simp [dlnetdataRecord, received, spilt, scanned]
  | some record =>
      obtain ⟨some_payload, short⟩ := scanDlnetdata_spec scanned
      have same : received p = record.message := by simp [received, scanned]
      simp only [dlnetdataRecord, same, scanned, spilt, decode_eq some_payload short]
      cases taken : record.message with
      | none => rfl
      | some message =>
          have fits := length_received (same.trans taken)
          simp [fits]

theorem undecodable_iff (p : List UInt8) :
    Undecodable p ↔ (scanDlnetdata p).isSome ∧ received p = none := by
  unfold Undecodable received
  cases scanned : scanDlnetdata p with
  | none => simp
  | some record =>
      obtain ⟨some_payload, short⟩ := scanDlnetdata_spec scanned
      cases taken : record.message with
      | none => simp [decode_eq some_payload short, taken]
      | some message => simp [decode_eq some_payload short, taken]

theorem spilt_of_unread {p : List UInt8} (h : ¬ (scanDlnetdata p).isSome) : spilt p = [] := by
  rw [Bool.not_eq_true, Option.isSome_eq_false_iff, Option.isNone_iff_eq_none] at h
  rw [spilt, h]

/-! ### The cell -/

/-- The text is the message, as a C string. -/
structure Consistent (downlink : Downlink) : Prop where
  same : downlink.text.bytes 0 downlink.rawLen = downlink.raw.bytes 0 downlink.rawLen
  terminated : downlink.text downlink.rawLen = 0

/-- The message, its length and its text are exactly as they were. -/
structure Unchanged (downlink downlink' : Downlink) : Prop where
  rawLen : downlink'.rawLen = downlink.rawLen
  raw : downlink'.raw.bytes 0 downlink.rawLen = downlink.raw.bytes 0 downlink.rawLen
  text : downlink'.text = downlink.text

/-- The cell holds `message`. -/
structure Holds (downlink : Downlink) (message : List UInt8) : Prop where
  rawLen : downlink.rawLen = message.length
  raw : downlink.raw.bytes 0 message.length = message
  consistent : Consistent downlink

theorem holds_initial : Holds {} [] := ⟨rfl, rfl, rfl, rfl⟩

theorem holds_taken (downlink : Downlink) {p message : List UInt8}
    (h : received p = some message) : Holds (dlnetdataRecord downlink p) message := by
  simp only [dlnetdataRecord_eq, h]
  have raw := Mem.bytes_ofList message downlink.raw
  generalize Mem.ofList message downlink.raw = written at raw
  have text : ((downlink.text.copy 0 written message.length).store8 message.length 0).bytes 0
      message.length = message := by
    have before : 0 + message.length ≤ message.length ∨ message.length + 1 ≤ 0 :=
      .inl (Nat.zero_add _).le
    rw [Mem.bytes_store8_of_disjoint before, Mem.bytes_copy, raw]
  exact ⟨rfl, raw, text.trans raw.symm, if_pos rfl⟩

/-- A record without a message leaves the cell alone exactly when its spilt bytes
are the bytes that the cell holds. -/
theorem unchanged_iff {downlink : Downlink} {p message : List UInt8}
    (holds : Holds downlink message) (h : received p = none) :
    Unchanged downlink (dlnetdataRecord downlink p) ↔
      (spilt p).take message.length <+: message := by
  have overwrite := Mem.bytes_ofList_eq_iff (l := spilt p) (m := downlink.raw)
    (n := message.length)
  rw [holds.raw] at overwrite
  rw [dlnetdataRecord_eq, h, ← overwrite]
  constructor
  · intro unchanged
    have raw := unchanged.raw
    rwa [holds.rawLen, holds.raw] at raw
  · intro raw
    exact ⟨rfl, by rw [holds.rawLen, holds.raw, raw], rfl⟩

theorem Holds.of_unchanged {downlink downlink' : Downlink} {message : List UInt8}
    (holds : Holds downlink message) (unchanged : Unchanged downlink downlink') :
    Holds downlink' message := by
  obtain ⟨rawLen, raw, text⟩ := unchanged
  rw [holds.rawLen] at rawLen raw
  have same := holds.consistent.same
  have terminated := holds.consistent.terminated
  rw [holds.rawLen] at same terminated
  refine ⟨rawLen, raw.trans holds.raw, ?_, ?_⟩
  · rw [rawLen, text, raw, same]
  · rw [rawLen, text, terminated]

/-! ### Runs -/

/-- The records of a sequence of texts, in order. -/
def records (calls : List (GnssCalcType × List UInt8)) : List (List UInt8) :=
  calls.flatMap fun call => occurrences dlnetdataPrefix call.2

/-- The cell after a sequence of calls of `dbb_handle_urc_blob`. -/
def downlinkAfter (calls : List (GnssCalcType × List UInt8)) : Downlink :=
  calls.foldl (fun downlink call => (dbbHandleUrcBlob call.1 call.2 downlink).1) {}

/-- The cell after some records. -/
def recordsAfter (ps : List (List UInt8)) : Downlink := ps.foldl dlnetdataRecord {}

/-- The text is the message after every call, and a record that does not decode
leaves the cell alone. -/
structure AllOrNothing (calls : List (GnssCalcType × List UInt8)) : Prop where
  consistent : ∀ k, Consistent (downlinkAfter (calls.take k))
  failure : ∀ k (h : k < (records calls).length), Undecodable (records calls)[k] →
    Unchanged (recordsAfter ((records calls).take k))
      (recordsAfter ((records calls).take (k + 1)))

/-- The record at `p` cannot damage `message`: what it leaves behind, as far as the
message goes, is in the message already. -/
def Harmless (message p : List UInt8) : Prop :=
  received p = none → (spilt p).take message.length <+: message

theorem downlinkAfter_eq (calls : List (GnssCalcType × List UInt8)) :
    downlinkAfter calls = recordsAfter (records calls) := by
  induction calls using List.reverseRecOn with
  | nil => rfl
  | append_singleton calls call ih =>
      unfold downlinkAfter recordsAfter records at *
      rw [List.foldl_append, ih, List.flatMap_append, List.foldl_append, List.foldl_cons,
        List.foldl_nil, downlink_dbbHandleUrcBlob, dbbHandleDlnetdata_eq, List.flatMap_singleton]

theorem recordsAfter_take_succ {ps : List (List UInt8)} {k : Nat} (h : k < ps.length) :
    recordsAfter (ps.take (k + 1)) = dlnetdataRecord (recordsAfter (ps.take k)) ps[k] := by
  rw [List.take_succ_eq_append_getElem h, recordsAfter, List.foldl_append]
  rfl

theorem lastMessage_take_succ {ps : List (List UInt8)} {k : Nat} (h : k < ps.length) :
    lastMessage (ps.take (k + 1)) =
      (received ps[k]).getD (lastMessage (ps.take k)) := by
  unfold lastMessage
  rw [List.take_succ_eq_append_getElem h, List.filterMap_append]
  cases arrived : received ps[k] with
  | none => simp [arrived]
  | some message => simp [arrived]

/-- While no record has done damage, the cell holds the last message. -/
theorem holds_lastMessage {ps : List (List UInt8)} {k : Nat} (h : k ≤ ps.length)
    (harmless : ∀ j (hj : j < ps.length), j < k → Harmless (lastMessage (ps.take j)) ps[j]) :
    Holds (recordsAfter (ps.take k)) (lastMessage (ps.take k)) := by
  induction k with
  | zero => exact holds_initial
  | succ k ih =>
      have before := ih (by omega) fun j hj less => harmless j hj (by omega)
      rw [recordsAfter_take_succ h, lastMessage_take_succ h]
      cases arrived : received ps[k] with
      | none =>
          have kept := (unchanged_iff before arrived).mpr (harmless k h (by omega) arrived)
          exact before.of_unchanged kept
      | some message => exact holds_taken _ arrived

/-- **All or nothing.** The downlink state is all-or-nothing in a run exactly when
every record without a message is harmless to the last message before it. -/
theorem all_or_nothing_iff (calls : List (GnssCalcType × List UInt8)) :
    AllOrNothing calls ↔
      ∀ k (h : k < (records calls).length),
        Harmless (lastMessage ((records calls).take k)) (records calls)[k] := by
  constructor
  · intro safe k
    induction k using Nat.strongRecOn with
    | _ k ih =>
        intro h unreceived
        have holds := holds_lastMessage (le_of_lt h) fun j hj less => ih j less hj
        by_cases read : (scanDlnetdata (records calls)[k]).isSome
        · have unchanged := safe.failure k h ((undecodable_iff _).mpr ⟨read, unreceived⟩)
          rw [recordsAfter_take_succ h] at unchanged
          exact (unchanged_iff holds unreceived).mp unchanged
        · rw [spilt_of_unread read]
          simp
  · intro harmless
    have holds (k : Nat) (h : k ≤ (records calls).length) :=
      holds_lastMessage h fun j hj _ => harmless j hj
    refine ⟨fun k => ?_, fun k h undecodable => ?_⟩
    · have start : records (calls.take k) <+: records calls := by
        refine ⟨records (calls.drop k), ?_⟩
        unfold records
        rw [← List.flatMap_append, List.take_append_drop]
      rw [downlinkAfter_eq, List.prefix_iff_eq_take.mp start]
      exact (holds _ start.length_le).consistent
    · have unreceived := ((undecodable_iff _).mp undecodable).2
      rw [recordsAfter_take_succ h]
      exact (unchanged_iff (holds k (le_of_lt h)) unreceived).mpr (harmless k h unreceived)

/-- A good message, and then a base64 record whose second quartet is wrong. -/
def spoiledCalls : List (GnssCalcType × List UInt8) :=
  [(.ppp, ascii "+DLNETDATA=4,\"HEX\",\"01020304\"\r\n"),
    (.ppp, ascii "+DLNETDATA=6,\"BASE64\",\"QUJD????\"\r\n")]

/-- The first quartet of the second record overwrites the first message. -/
theorem message_spoiled : ¬ AllOrNothing spoiledCalls := by
  intro safe
  have two : 1 < (records spoiledCalls).length := by decide +kernel
  have undecodable : Undecodable (records spoiledCalls)[1] :=
    (undecodable_iff _).mpr (by decide +kernel +revert)
  have kept := (safe.failure 1 two undecodable).raw
  revert kept
  decide +kernel

/-! ### Complete records -/

/-- The record at `p` is stored: there is a cell that takes a new length from it. -/
def Stored (p : List UInt8) : Prop :=
  ∃ downlink, (dlnetdataRecord downlink p).rawLen ≠ downlink.rawLen

/-- A record that is stored is closed by a quote, and declares the length that is
stored. -/
def OnlyComplete (urc : List UInt8) : Prop :=
  ∀ p ∈ occurrences dlnetdataPrefix urc, Stored p →
    ∃ record, scanDlnetdata p = some record ∧ record.rest.head? = some quote ∧
      ∀ downlink, ((dlnetdataRecord downlink p).rawLen : Int) = record.datalen

/-- The payload, as far as the format reads it, is text of its codec. -/
def DlRecord.isText (record : DlRecord) : Bool :=
  if strcasecmpEq record.chset (ascii "HEX") then Hex.isText record.datastr
  else if strcasecmpEq record.chset (ascii "BASE64") then Base64.isText (strip record.datastr)
  else false

/-- The number of bytes that the characters of the payload stand for. -/
def DlRecord.size (record : DlRecord) : Nat :=
  if strcasecmpEq record.chset (ascii "HEX") then record.datastr.length / 2
  else if strcasecmpEq record.chset (ascii "BASE64") then Base64.count (strip record.datastr)
  else 0

theorem isSome_message (record : DlRecord) : record.message.isSome = record.isText := by
  unfold DlRecord.message DlRecord.isText
  split
  · exact Hex.isSome_decode _
  · split
    · exact Base64.isSome_decode _
    · rfl

theorem length_message {record : DlRecord} {message : List UInt8}
    (h : record.message = some message) : message.length = record.size := by
  unfold DlRecord.message at h
  unfold DlRecord.size
  split at h
  · rename_i hex
    rw [if_pos hex, Hex.length_of_decode h]
  · rename_i not_hex
    split at h
    · rename_i base64
      rw [if_neg not_hex, if_pos base64, (Base64.front_of_decode h).2]
    · cases h

theorem stored_iff (p : List UInt8) : Stored p ↔ (received p).isSome := by
  unfold Stored
  constructor
  · rintro ⟨downlink, changed⟩
    cases arrived : received p with
    | none =>
        simp only [dlnetdataRecord_eq, arrived] at changed
        exact absurd rfl changed
    | some message => rfl
  · intro h
    obtain ⟨message, arrived⟩ := Option.isSome_iff_exists.mp h
    refine ⟨{ rawLen := message.length + 1 }, ?_⟩
    simp [dlnetdataRecord_eq, arrived]

/-- **Completeness.** Only complete records of a text are stored exactly when every
record whose payload reads as text of its codec is closed by a quote and declares
the number of bytes that its characters stand for. -/
theorem only_complete_iff (urc : List UInt8) :
    OnlyComplete urc ↔
      ∀ p ∈ occurrences dlnetdataPrefix urc, ∀ record, scanDlnetdata p = some record →
        record.isText = true → record.rest.head? = some quote ∧ record.datalen = record.size := by
  constructor
  · intro complete p member record scanned text
    rw [← isSome_message] at text
    obtain ⟨message, decoded⟩ := Option.isSome_iff_exists.mp text
    have arrived : received p = some message := by simp [received, scanned, decoded]
    obtain ⟨record', scanned', closed, declared⟩ :=
      complete p member ((stored_iff p).mpr (by rw [arrived]; rfl))
    obtain rfl : record = record' := Option.some.inj (scanned.symm.trans scanned')
    have length := declared {}
    rw [(holds_taken _ arrived).rawLen, length_message decoded] at length
    exact ⟨closed, length.symm⟩
  · intro texts p member stored
    obtain ⟨message, arrived⟩ := Option.isSome_iff_exists.mp ((stored_iff p).mp stored)
    obtain ⟨record, scanned, decoded⟩ := Option.bind_eq_some_iff.mp arrived
    have text : record.isText = true := by
      rw [← isSome_message, decoded]
      rfl
    obtain ⟨closed, declared⟩ := texts p member record scanned text
    refine ⟨record, scanned, closed, fun downlink => ?_⟩
    rw [(holds_taken downlink arrived).rawLen, length_message decoded, declared]

/-- A record of four bytes that a capture has cut after the second. -/
theorem truncated_stored : ¬ OnlyComplete (ascii "+DLNETDATA=4,\"HEX\",\"0102") := by
  intro complete
  have member : ascii "+DLNETDATA=4,\"HEX\",\"0102" ∈
      occurrences dlnetdataPrefix (ascii "+DLNETDATA=4,\"HEX\",\"0102") := by decide +kernel
  obtain ⟨record, scanned, closed, -⟩ :=
    complete _ member ((stored_iff _).mpr (by decide +kernel))
  obtain rfl : ⟨4, ascii "HEX", ascii "0102", []⟩ = record :=
    Option.some.inj ((by decide +kernel : some _ = scanDlnetdata _).trans scanned)
  cases closed

end Ok3506.Dbb
