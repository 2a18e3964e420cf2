import Ok3506.Dbb.Listenings

/-!
Unsolicited result codes and the captures that read them.

All captures share one byte stream, and what a capture has read belongs to its
caller. Only the two services pass it on to `dbb_handle_urc_blob`. A line is passed on
exactly when it arrives whole while one service listens.
-/

namespace Ok3506.Dbb

open CString At

/-! ### Lines and captures -/

/-- All bytes that captures have read, in order. -/
def readBytes (history : List Event) : List UInt8 :=
  history.flatMap fun
    | .captured _ captured => captured.used
    | _ => []

def urcPrefixes : List (List UInt8) := [dlnetdataPrefix, ssrinfoxwPrefix, ascii "+CMT:"]

/-- Behind `before`, the stream has a complete line that is a URC. -/
structure UrcLine (stream before line : List UInt8) : Prop where
  inside : before ++ line <+: stream
  start : before = [] ∨ before.getLast? = some 10
  stop : ∃ body, line = body ++ [10] ∧ 10 ∉ body
  urc : ∃ p ∈ urcPrefixes, p <+: line

/-- The texts that were passed to `dbb_handle_urc_blob`, each with the place in
the stream where its response buffer was filled from; `start` is that place for
the buffer filled last, and `total` the number of bytes read so far. -/
def passed : Nat → Nat → List Event → List (Nat × List UInt8)
  | _, _, [] => []
  | _, total, .captured _ captured :: history =>
      passed total (total + captured.used.length) history
  | start, total, .urcBlob urc :: history => (start, urc) :: passed start total history
  | start, total, .at _ _ :: history | start, total, .entered _ :: history =>
      passed start total history

/-- The text lies in the stream from `start` on, and the line within it. -/
structure Covers (stream before line : List UInt8) (start : Nat) (text : List UInt8) : Prop where
  text_read : text <+: stream.drop start
  starts : start ≤ before.length
  ends : before.length + line.length ≤ start + text.length

/-- Every complete URC line that has been read was passed to `dbb_handle_urc_blob`. -/
def NoUrcLost (history : List Event) : Prop :=
  ∀ before line, UrcLine (readBytes history) before line →
    ∃ blob ∈ passed 0 0 history, Covers (readBytes history) before line blob.1 blob.2

open Classical in
/-- What the services hear, with its place in the stream; `total` bytes have been heard before. -/
noncomputable def polls : Nat → List Listening → List (Nat × List UInt8)
  | _, [] => []
  | total, l :: ls =>
      if l.Polls then (total, cstr l.heard) :: polls (total + l.heard.length) ls
      else polls (total + l.heard.length) ls

/-- Every complete URC line that is heard arrives whole while one service listens, without an
error and before any NUL. -/
def ArrivesWhole (ls : List Listening) : Prop :=
  ∀ before line, UrcLine (ls.flatMap Listening.heard) before line →
    ∃ poll ∈ polls 0 ls,
      poll.1 ≤ before.length ∧ before.length + line.length ≤ poll.1 + poll.2.length

/-- The thread, from a module in some state. -/
def run (utf8ToUcs2be : List UInt8 → Option (List UInt8)) (ctrl : Ctrl) (rounds : List Round) :
    World :=
  rounds.foldl (round utf8ToUcs2be) { ctrl }

/-! ### What gets through -/

/-- The bytes that a run reads are those that its captures hear. -/
theorem Records.readBytes_eq {history : List Event} {ls : List Listening}
    (h : Records history ls) : readBytes history = ls.flatMap Listening.heard := by
  induction h with
  | nil => rfl
  | kept _ _ ih => exact congrArg (_ ++ ·) ih
  | handedOn _ _ ih => exact congrArg (_ ++ ·) ih
  | «at» _ ih => exact ih
  | entered _ ih => exact ih

/-- The texts passed on are those that the services hear. -/
theorem Records.passed_eq {history : List Event} {ls : List Listening}
    (h : Records history ls) (start total : Nat) :
    passed start total history = polls total ls := by
  induction h generalizing start total with
  | nil => rfl
  | kept other _ ih =>
      rw [passed, polls, if_neg other]
      exact ih _ _
  | handedOn polled _ ih =>
      rw [passed, passed, polls, if_pos polled, ih]
      rfl
  | «at» _ ih => exact ih _ _
  | entered _ ih => exact ih _ _

/-- What a service hears stands in the stream where its capture began. -/
theorem polls_heard {ls : List Listening} {total : Nat} {poll : Nat × List UInt8}
    (h : poll ∈ polls total ls) :
    total ≤ poll.1 ∧ poll.2 <+: (ls.flatMap Listening.heard).drop (poll.1 - total) := by
  induction ls generalizing total with
  | nil => cases h
  | cons l ls ih =>
      have later (h : poll ∈ polls (total + l.heard.length) ls) :
          total ≤ poll.1 ∧ poll.2 <+:
            (l.heard ++ ls.flatMap Listening.heard).drop (poll.1 - total) := by
        obtain ⟨behind, heard⟩ := ih h
        refine ⟨by omega, ?_⟩
        rw [List.drop_append, List.drop_of_length_le (by omega), List.nil_append, Nat.sub_sub]
        exact heard
      rw [List.flatMap_cons]
      rw [polls] at h
      split at h
      · cases h with
        | head =>
            refine ⟨le_refl _, ?_⟩
            rw [Nat.sub_self]
            exact (List.takeWhile_prefix _).trans (List.prefix_append _ _)
        | tail _ h => exact later h
      · exact later h

/-- **URCs between captures.** In a run of the thread, every complete URC line that is read
reaches `dbb_handle_urc_blob` exactly when the module sends each of them whole while one
service listens. -/
theorem no_urc_lost_iff (utf8ToUcs2be : List UInt8 → Option (List UInt8)) (ctrl : Ctrl)
    (rounds : List Round) :
    NoUrcLost (run utf8ToUcs2be ctrl rounds).history ↔
      ArrivesWhole (listenings utf8ToUcs2be { ctrl } rounds) := by
  obtain ⟨segment, records, eq⟩ := records_run utf8ToUcs2be { ctrl } rounds
  have history : (run utf8ToUcs2be ctrl rounds).history = segment := eq
  rw [history, NoUrcLost, ArrivesWhole, records.readBytes_eq, records.passed_eq]
  constructor
  · intro safe before line urc
    obtain ⟨blob, member, covers⟩ := safe before line urc
    exact ⟨blob, member, covers.starts, covers.ends⟩
  · intro whole before line urc
    obtain ⟨poll, member, starts, ends⟩ := whole before line urc
    obtain ⟨-, heard⟩ := polls_heard member
    exact ⟨poll, member, heard, starts, ends⟩

/-- A downlink message that arrives behind the answer to an uplink. -/
def uplinkRound : Round where
  mode := .normal
  answers :=
    [{ now := 100 },
      { port := { read := [.read (ascii "OK\r\n+DLNETDATA=1,\"HEX\",\"01\"\r\n"),
          .silence, .silence] } }]

/-- `dbb_at_expect` reads the message and drops it. -/
theorem urc_lost_in_uplink :
    ¬ NoUrcLost (run some { status := .online } [uplinkRound]).history := by
  intro safe
  have urc : UrcLine (readBytes (run some { status := .online } [uplinkRound]).history)
      (ascii "OK\r\n") (ascii "+DLNETDATA=1,\"HEX\",\"01\"\r\n") :=
    ⟨by decide +kernel, by decide +kernel,
      ⟨ascii "+DLNETDATA=1,\"HEX\",\"01\"\r", by decide +kernel, by decide +kernel⟩,
      by decide +kernel⟩
  obtain ⟨blob, member, -⟩ := safe _ _ urc
  have nothing : passed 0 0 (run some { status := .online } [uplinkRound]).history = [] := by
    decide +kernel
  rw [nothing] at member
  cases member

end Ok3506.Dbb
