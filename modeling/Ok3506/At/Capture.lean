import Ok3506.Lib.Memory
import Ok3506.At.Port

/-!
The capture loop against an endless sequence of outcomes.

`captureStep` is one iteration of the loop that `dbb_capture_response` and
`eth_4g_capture_at_response` share, with the response buffer: what `captureLoop`
computes of a finite sequence, this machine does step by step. `Ended` says of a
sequence of outcomes, without the counters of the loop, that it ends a capture.
Outcomes that fail for the moment and reads of no bytes move no counter. The first
are left out by assumption; the second keep the loop going as long as they come.
-/

namespace Ok3506.At

open Mem

/-! ### The loop as a machine -/

/-- The variables of the loop. -/
structure CaptureState where
  response : Mem
  used : Nat := 0
  idleMs : Nat := 0
  totalMs : Nat := 0

/-- The loop, or what the function returned. -/
inductive CaptureRun where
  | running (s : CaptureState)
  | exited (ret : Int) (s : CaptureState)

/-- `return used > 0 ? 0 : -1`. -/
def exitCapture (s : CaptureState) : CaptureRun := .exited (if 0 < s.used then 0 else -1) s

/-- `n` bytes more, with a NUL behind them. -/
def CaptureState.received (s : CaptureState) (bytes : List UInt8) (n : Nat) : CaptureState :=
  { s with
    response := (s.response.copy s.used (zeroPadded bytes) n).store8 (s.used + n) 0
    used := s.used + n
    idleMs := 0 }

/-- The loop body on one outcome. -/
def captureBody (responseSize : Nat) (s : CaptureState) : PortEvent → CaptureRun
  | .selectInterrupted | .readAgain => .running s
  | .selectError | .readError => .exited (-1) s
  | .silence =>
      if 0 < s.used then
        if 400 ≤ s.idleMs + 200 then
          exitCapture { s with idleMs := s.idleMs + 200, totalMs := s.totalMs + 200 }
        else .running { s with idleMs := s.idleMs + 200, totalMs := s.totalMs + 200 }
      else .running { s with totalMs := s.totalMs + 200 }
  | .read bytes =>
      let n := min bytes.length (responseSize - 1 - s.used)
      if n = 0 then .running s else .running (s.received bytes n)

/-- The loop condition. -/
def Capturing (responseSize timeoutMs : Nat) (s : CaptureState) : Prop :=
  s.totalMs < timeoutMs ∧ s.used + 1 < responseSize

instance (responseSize timeoutMs : Nat) : DecidablePred (Capturing responseSize timeoutMs) :=
  fun s => inferInstanceAs (Decidable (s.totalMs < timeoutMs ∧ s.used + 1 < responseSize))

/-- One iteration, the loop condition first. -/
def captureStep (responseSize timeoutMs : Nat) : CaptureRun → PortEvent → CaptureRun
  | .exited ret s, _ => .exited ret s
  | .running s, event =>
      if Capturing responseSize timeoutMs s then captureBody responseSize s event
      else exitCapture s

/-- The loop over a sequence of outcomes, in a buffer whose first byte was cleared. -/
def captureRun (responseSize timeoutMs : Nat) (buffer : Mem) (events : List PortEvent) :
    CaptureRun :=
  events.foldl (captureStep responseSize timeoutMs) (.running { response := buffer.store8 0 0 })

/-- What a machine that gets no more outcomes is taken to return. -/
def CaptureRun.outcome : CaptureRun → Captured
  | .running s => captureEnd (s.response.bytes 0 s.used)
  | .exited ret s => ⟨ret, s.response.bytes 0 s.used⟩

section Machine

variable {responseSize timeoutMs : Nat}

theorem foldl_exited (ret : Int) (s : CaptureState) (events : List PortEvent) :
    events.foldl (captureStep responseSize timeoutMs) (.exited ret s) = .exited ret s := by
  induction events with
  | nil => rfl
  | cons event events ih => exact ih

theorem outcome_exitCapture (s : CaptureState) :
    (exitCapture s).outcome = captureEnd (s.response.bytes 0 s.used) := by
  rw [exitCapture, CaptureRun.outcome, captureEnd, bytes_length]

/-- What one read leaves in the buffer. -/
theorem bytes_received (s : CaptureState) (bytes : List UInt8) (room : Nat) :
    (s.received bytes (min bytes.length room)).response.bytes 0
        (s.received bytes (min bytes.length room)).used =
      s.response.bytes 0 s.used ++ bytes.take room := by
  simp only [CaptureState.received]
  rw [bytes_store8_of_disjoint (.inl (Nat.zero_add _).le), bytes_append, Nat.zero_add,
    bytes_copy_before (Nat.zero_add _).le, bytes_copy]
  have part := take_bytes (zeroPadded bytes) 0 bytes.length (min bytes.length room)
    (Nat.min_le_left _ _)
  rw [bytes_ofList] at part
  rw [← part, Nat.min_comm, ← List.take_eq_take_min]

/-- **The machine computes `captureLoop`.** -/
theorem captureLoop_eq (events : List PortEvent) (s : CaptureState) :
    captureLoop responseSize timeoutMs events (s.response.bytes 0 s.used) s.idleMs s.totalMs =
      (events.foldl (captureStep responseSize timeoutMs) (.running s)).outcome := by
  induction events generalizing s with
  | nil => rfl
  | cons event events ih =>
      rw [captureLoop.eq_def]
      dsimp only
      rw [bytes_length, List.foldl_cons, captureStep]
      by_cases go : Capturing responseSize timeoutMs s
      · rw [if_pos go, if_pos (show s.totalMs < timeoutMs ∧ s.used + 1 < responseSize from go)]
        cases event with
        | selectInterrupted => exact ih s
        | readAgain => exact ih s
        | selectError =>
            rw [captureBody, foldl_exited]
            rfl
        | readError =>
            rw [captureBody, foldl_exited]
            rfl
        | silence =>
            by_cases some_bytes : 0 < s.used
            · by_cases idle : 400 ≤ s.idleMs + 200
              · simp only [captureBody, some_bytes, idle, if_true]
                rw [exitCapture, foldl_exited, ← exitCapture, outcome_exitCapture]
              · simp only [captureBody, some_bytes, idle, if_true, if_false]
                exact ih { s with idleMs := s.idleMs + 200, totalMs := s.totalMs + 200 }
            · simp only [captureBody, some_bytes, if_false]
              exact ih { s with totalMs := s.totalMs + 200 }
        | read bytes =>
            have none_iff : bytes.take (responseSize - 1 - s.used) = [] ↔
                min bytes.length (responseSize - 1 - s.used) = 0 := by
              rw [← List.length_eq_zero_iff, List.length_take, Nat.min_comm]
            by_cases none : min bytes.length (responseSize - 1 - s.used) = 0
            · simp only [captureBody, none, none_iff.mpr none, if_true]
              exact ih s
            · simp only [captureBody, none, mt none_iff.mp none, if_false]
              rw [← bytes_received]
              exact ih (s.received bytes _)
      · rw [if_neg go, if_neg (show ¬ (s.totalMs < timeoutMs ∧ s.used + 1 < responseSize) from go),
          exitCapture, foldl_exited, ← exitCapture, outcome_exitCapture]

/-- A capture is a run from the cleared buffer. -/
theorem captureLoop_eq_run (buffer : Mem) (events : List PortEvent) :
    captureLoop responseSize timeoutMs events [] 0 0 =
      (captureRun responseSize timeoutMs buffer events).outcome :=
  captureLoop_eq events { response := buffer.store8 0 0 }

end Machine

/-! ### What ends a capture -/

/-- The bytes of the reads. -/
def delivered (events : List PortEvent) : List UInt8 :=
  events.flatMap fun event => match event with | .read bytes => bytes | _ => []

/-- A silence with data before it and none behind it. -/
def Quiet (events : List PortEvent) : Prop :=
  ∃ before after, events = before ++ .silence :: after ∧ delivered before ≠ [] ∧
    delivered after = []

/-- Two silences with data before them and none between them. -/
def Paused (events : List PortEvent) : Prop :=
  ∃ before between after, events = before ++ .silence :: (between ++ .silence :: after) ∧
    delivered before ≠ [] ∧ delivered between = []

/-- The outcomes end a capture: by an error, by the total timeout, by a full buffer or
by an idle gap. -/
inductive Ended (responseSize timeoutMs : Nat) (events : List PortEvent) : Prop where
  | error (h : .selectError ∈ events ∨ .readError ∈ events)
  | timeout (h : timeoutMs ≤ 200 * events.count .silence)
  | full (h : responseSize ≤ (delivered events).length + 1)
  | idle (h : Paused events)

section Events

variable {events : List PortEvent} {event : PortEvent}

theorem delivered_append (l l' : List PortEvent) :
    delivered (l ++ l') = delivered l ++ delivered l' := List.flatMap_append

/-- How the gap grows by one outcome. -/
theorem quiet_append : Quiet (events ++ [event]) ↔
    (event = .silence ∧ delivered events ≠ []) ∨ (Quiet events ∧ delivered [event] = []) := by
  constructor
  · rintro ⟨before, after, eq, data, gap⟩
    rcases List.eq_nil_or_concat after with rfl | ⟨after, last, rfl⟩
    · obtain ⟨rfl, same⟩ := List.append_inj' eq rfl
      exact .inl ⟨List.head_eq_of_cons_eq same, data⟩
    · have regroup : before ++ .silence :: (after ++ [last]) =
          (before ++ .silence :: after) ++ [last] := by simp
      rw [List.concat_eq_append] at eq gap
      rw [regroup] at eq
      obtain ⟨rfl, same⟩ := List.append_inj' eq rfl
      obtain rfl := List.head_eq_of_cons_eq same
      rw [delivered_append, List.append_eq_nil_iff] at gap
      exact .inr ⟨⟨before, after, rfl, data, gap.1⟩, gap.2⟩
  · rintro (⟨rfl, data⟩ | ⟨⟨before, after, rfl, data, gap⟩, empty⟩)
    · exact ⟨events, [], rfl, data, rfl⟩
    · refine ⟨before, after ++ [event], by simp, data, ?_⟩
      rw [delivered_append, gap, empty, List.append_nil]

/-- A second silence in the gap ends the capture. -/
theorem paused_append : Paused (events ++ [event]) ↔
    Paused events ∨ (event = .silence ∧ Quiet events) := by
  constructor
  · rintro ⟨before, between, after, eq, data, gap⟩
    rcases List.eq_nil_or_concat after with rfl | ⟨after, last, rfl⟩
    · have regroup : before ++ .silence :: (between ++ [.silence]) =
          (before ++ .silence :: between) ++ [.silence] := by simp
      rw [regroup] at eq
      obtain ⟨rfl, same⟩ := List.append_inj' eq rfl
      exact .inr ⟨List.head_eq_of_cons_eq same, before, between, rfl, data, gap⟩
    · have regroup : before ++ .silence :: (between ++ .silence :: (after ++ [last])) =
          (before ++ .silence :: (between ++ .silence :: after)) ++ [last] := by simp
      rw [List.concat_eq_append, regroup] at eq
      obtain ⟨rfl, -⟩ := List.append_inj' eq rfl
      exact .inl ⟨before, between, after, rfl, data, gap⟩
  · rintro (⟨before, between, after, rfl, data, gap⟩ | ⟨rfl, before, after, rfl, data, gap⟩)
    · exact ⟨before, between, after ++ [event], by simp, data, gap⟩
    · exact ⟨before, after, [], by simp, data, gap⟩

end Events

/-! ### The counters -/

/-- What the counters of a loop that is still running say of the outcomes so far. -/
structure Tracks (responseSize : Nat) (events : List PortEvent) (s : CaptureState) : Prop where
  used : s.used = min (delivered events).length (responseSize - 1)
  total : s.totalMs = 200 * events.count .silence
  gap : (s.idleMs = 0 ∧ ¬ Quiet events) ∨ (s.idleMs = 200 ∧ Quiet events)
  noError : ¬ (.selectError ∈ events ∨ .readError ∈ events)
  notIdle : ¬ Paused events

namespace Tracks

variable {responseSize timeoutMs : Nat} {events : List PortEvent} {s : CaptureState}

/-- An outcome without time and without data moves no counter. -/
theorem unmoved (tracks : Tracks responseSize events s) {event : PortEvent}
    (timeless : event ≠ .silence) (empty : delivered [event] = [])
    (fine : event ≠ .selectError ∧ event ≠ .readError) :
    Tracks responseSize (events ++ [event]) s := by
  have quiet : Quiet (events ++ [event]) ↔ Quiet events := by
    simp [quiet_append, timeless, empty]
  refine ⟨?_, ?_, ?_, ?_, ?_⟩
  · rw [delivered_append, empty, List.append_nil]
    exact tracks.used
  · rw [List.count_append, List.count_singleton, tracks.total]
    simp [timeless]
  · rw [quiet]
    exact tracks.gap
  · rintro (mem | mem) <;> rcases List.mem_append.mp mem with before | now
    · exact tracks.noError (.inl before)
    · exact fine.1 (List.mem_singleton.mp now).symm
    · exact tracks.noError (.inr before)
    · exact fine.2 (List.mem_singleton.mp now).symm
  · rw [paused_append]
    simp [timeless, tracks.notIdle]

/-- A silence that does not end the capture. -/
theorem silent (tracks : Tracks responseSize events s) {idleMs : Nat} (fresh : ¬ Quiet events)
    (idle : (idleMs = 0 ∧ delivered events = []) ∨ (idleMs = 200 ∧ delivered events ≠ [])) :
    Tracks responseSize (events ++ [.silence])
      { s with idleMs, totalMs := s.totalMs + 200 } := by
  refine ⟨?_, ?_, ?_, ?_, ?_⟩
  · rw [delivered_append]
    simpa [delivered] using tracks.used
  · rw [List.count_append, List.count_singleton_self]
    simp only [tracks.total]
    omega
  · rw [quiet_append]
    simpa [fresh, delivered] using idle
  · simpa using tracks.noError
  · rw [paused_append]
    simp [fresh, tracks.notIdle]

/-- Data close the gap. -/
theorem read (tracks : Tracks responseSize events s) {bytes : List UInt8}
    (some_bytes : bytes ≠ []) :
    Tracks responseSize (events ++ [.read bytes])
      (s.received bytes (min bytes.length (responseSize - 1 - s.used))) := by
  have data : delivered [.read bytes] = bytes := by simp [delivered]
  have total : delivered (events ++ [.read bytes]) = delivered events ++ bytes := by
    rw [delivered_append, data]
  refine ⟨?_, ?_, .inl ⟨rfl, ?_⟩, ?_, ?_⟩
  · have used := tracks.used
    rw [total, List.length_append]
    simp only [CaptureState.received]
    omega
  · rw [List.count_append]
    simpa [CaptureState.received] using tracks.total
  · simp [quiet_append, data, some_bytes]
  · simpa using tracks.noError
  · simp [paused_append, tracks.notIdle]

/-- **One iteration**, when the loop condition holds. -/
theorem body (tracks : Tracks responseSize events s) (go : Capturing responseSize timeoutMs s)
    (event : PortEvent) :
    (∃ s', captureBody responseSize s event = .running s' ∧
        Tracks responseSize (events ++ [event]) s') ∨
      ((∃ ret s', captureBody responseSize s event = .exited ret s') ∧
        Ended responseSize timeoutMs (events ++ [event])) := by
  have used := tracks.used
  have room := go.2
  cases event with
  | selectInterrupted => exact .inl ⟨s, rfl, tracks.unmoved (by decide) rfl (by decide)⟩
  | readAgain => exact .inl ⟨s, rfl, tracks.unmoved (by decide) rfl (by decide)⟩
  | selectError => exact .inr ⟨⟨-1, s, rfl⟩, .error (.inl (by simp))⟩
  | readError => exact .inr ⟨⟨-1, s, rfl⟩, .error (.inr (by simp))⟩
  | silence =>
      rw [captureBody]
      by_cases some_bytes : 0 < s.used
      · have data : delivered events ≠ [] := by
          rintro none
          rw [none, List.length_nil] at used
          omega
        rcases tracks.gap with ⟨zero, fresh⟩ | ⟨once, quiet⟩
        · rw [if_pos some_bytes, if_neg (by omega)]
          exact .inl ⟨_, rfl, tracks.silent fresh (.inr ⟨by omega, data⟩)⟩
        · rw [if_pos some_bytes, if_pos (by omega)]
          exact .inr ⟨⟨_, _, rfl⟩, .idle (paused_append.mpr (.inr ⟨rfl, quiet⟩))⟩
      · have none : delivered events = [] := by
          apply List.eq_nil_of_length_eq_zero
          omega
        have fresh : ¬ Quiet events := by
          rintro ⟨before, after, rfl, data, -⟩
          rw [delivered_append, List.append_eq_nil_iff] at none
          exact data none.1
        have zero : s.idleMs = 0 := by
          rcases tracks.gap with ⟨zero, -⟩ | ⟨-, quiet⟩
          · exact zero
          · exact (fresh quiet).elim
        rw [if_neg some_bytes]
        exact .inl ⟨_, rfl, tracks.silent fresh (.inl ⟨zero, none⟩)⟩
  | read bytes =>
      rw [captureBody]
      by_cases none : min bytes.length (responseSize - 1 - s.used) = 0
      · have empty : bytes = [] := by
          apply List.eq_nil_of_length_eq_zero
          omega
        subst empty
        exact .inl ⟨s, if_pos none, tracks.unmoved (by decide) rfl (by decide)⟩
      · have some_bytes : bytes ≠ [] := by
          rintro rfl
          exact none (Nat.zero_min _)
        exact .inl ⟨_, if_neg none, tracks.read some_bytes⟩

/-- The loop condition holds as long as the outcomes do not end the capture. -/
theorem capturing_iff (tracks : Tracks responseSize events s) :
    Capturing responseSize timeoutMs s ↔ ¬ Ended responseSize timeoutMs events := by
  have used := tracks.used
  have total := tracks.total
  constructor
  · rintro ⟨time, room⟩ ended
    cases ended with
    | error h => exact tracks.noError h
    | timeout h => omega
    | full h => omega
    | idle h => exact tracks.notIdle h
  · intro none
    have in_time : ¬ timeoutMs ≤ s.totalMs := fun late => none (.timeout (total ▸ late))
    have room : s.used + 1 < responseSize := by
      by_contra full
      exact none (.full (by omega))
    exact ⟨Nat.not_le.mp in_time, room⟩

end Tracks

/-! ### Runs -/

section Runs

variable {responseSize timeoutMs : Nat} {buffer : Mem} {events : List PortEvent}

theorem captureRun_append (buffer : Mem) (events : List PortEvent) (event : PortEvent) :
    captureRun responseSize timeoutMs buffer (events ++ [event]) =
      captureStep responseSize timeoutMs (captureRun responseSize timeoutMs buffer events)
        event := by
  rw [captureRun, List.foldl_append, List.foldl_cons, List.foldl_nil, captureRun]

theorem Ended.append (ended : Ended responseSize timeoutMs events) (event : PortEvent) :
    Ended responseSize timeoutMs (events ++ [event]) := by
  cases ended with
  | error h => exact .error (h.imp (List.mem_append_left _) (List.mem_append_left _))
  | timeout h =>
      refine .timeout ?_
      rw [List.count_append]
      omega
  | full h =>
      refine .full ?_
      rw [delivered_append, List.length_append]
      omega
  | idle h => exact .idle (paused_append.mpr (.inl h))

theorem tracks_nil (buffer : Mem) :
    Tracks responseSize [] { response := buffer.store8 0 0 } := by
  refine ⟨by simp [delivered], rfl, .inl ⟨rfl, ?_⟩, by simp, ?_⟩
  · rintro ⟨before, after, eq, -⟩
    simp at eq
  · rintro ⟨before, between, after, eq, -⟩
    simp at eq

/-- The outcomes so far are tracked, or they end a capture. -/
theorem tracks_or_ended (responseSize timeoutMs : Nat) (buffer : Mem) (events : List PortEvent) :
    (∃ s, captureRun responseSize timeoutMs buffer events = .running s ∧
        Tracks responseSize events s) ∨
      ((∃ ret s, captureRun responseSize timeoutMs buffer events = .exited ret s) ∧
        Ended responseSize timeoutMs events) := by
  induction events using List.reverseRecOn with
  | nil => exact .inl ⟨_, rfl, tracks_nil buffer⟩
  | append_singleton events event ih =>
      rw [captureRun_append]
      rcases ih with ⟨s, run, tracks⟩ | ⟨⟨ret, s, run⟩, ended⟩
      · rw [run, captureStep]
        by_cases go : Capturing responseSize timeoutMs s
        · rw [if_pos go]
          exact tracks.body go event
        · have ended := not_not.mp (mt tracks.capturing_iff.mpr go)
          rw [if_neg go]
          exact .inr ⟨⟨_, s, rfl⟩, ended.append event⟩
      · rw [run]
        exact .inr ⟨⟨ret, s, rfl⟩, ended.append event⟩

/-- Outcomes that end a capture end the loop, with the next test of its condition at
the latest. -/
theorem exited_of_ended (ended : Ended responseSize timeoutMs events) (event : PortEvent) :
    ∃ ret s, captureRun responseSize timeoutMs buffer (events ++ [event]) = .exited ret s := by
  rw [captureRun_append]
  rcases tracks_or_ended responseSize timeoutMs buffer events with
    ⟨s, run, tracks⟩ | ⟨⟨ret, s, run⟩, -⟩
  · have stop : ¬ Capturing responseSize timeoutMs s :=
      fun go => tracks.capturing_iff.mp go ended
    rw [run, captureStep, if_neg stop]
    exact ⟨_, s, rfl⟩
  · rw [run]
    exact ⟨ret, s, rfl⟩

end Runs

/-! ### What a capture returns -/

/-- The outcomes that a capture takes when it has taken `before`: none once they end it, or else
the next and so on. -/
noncomputable def takenAfter (responseSize timeoutMs : Nat) :
    List PortEvent → List PortEvent → List PortEvent
  | before, [] => before
  | before, event :: events =>
      open Classical in
      if Ended responseSize timeoutMs before then before
      else takenAfter responseSize timeoutMs (before ++ [event]) events

/-- What a capture returns that takes these outcomes: what they deliver, as far as it fits, and
0 where this is something and none of them is an error. -/
def captureOf (responseSize : Nat) (taken : List PortEvent) : Captured :=
  let used := (delivered taken).take (responseSize - 1)
  ⟨if (.selectError ∈ taken ∨ .readError ∈ taken) ∨ used = [] then -1 else 0, used⟩

section Returned

variable {responseSize timeoutMs : Nat} {events before : List PortEvent} {s : CaptureState}

theorem takenAfter_of_ended (ended : Ended responseSize timeoutMs before)
    (events : List PortEvent) : takenAfter responseSize timeoutMs before events = before := by
  cases events with
  | nil => rfl
  | cons event events => rw [takenAfter, if_pos ended]

theorem captureOf_of_noError (fine : ¬ (.selectError ∈ before ∨ .readError ∈ before)) :
    captureOf responseSize before =
      captureEnd ((delivered before).take (responseSize - 1)) := by
  rw [captureOf, captureEnd]
  cases (delivered before).take (responseSize - 1) <;> simp [fine]

/-- The bytes in the buffer are those that the outcomes deliver. -/
def Holds (responseSize : Nat) (events : List PortEvent) (s : CaptureState) : Prop :=
  s.response.bytes 0 s.used = (delivered events).take (responseSize - 1)

theorem Holds.same (held : Holds responseSize events s) {event : PortEvent}
    (empty : delivered [event] = []) {s' : CaptureState} (response : s'.response = s.response)
    (used : s'.used = s.used) : Holds responseSize (events ++ [event]) s' := by
  rw [Holds, response, used, delivered_append, empty, List.append_nil]
  exact held

/-- One iteration: the loop goes on with the bytes delivered so far, or has returned them. -/
theorem Tracks.captured (tracks : Tracks responseSize events s)
    (held : Holds responseSize events s) (event : PortEvent) :
    match captureBody responseSize s event with
    | .running s' => Holds responseSize (events ++ [event]) s'
    | .exited ret s' =>
        (⟨ret, s'.response.bytes 0 s'.used⟩ : Captured) =
          captureOf responseSize (events ++ [event]) := by
  have failed (error : .selectError ∈ events ++ [event] ∨ .readError ∈ events ++ [event])
      (empty : delivered [event] = []) : (⟨-1, s.response.bytes 0 s.used⟩ : Captured) =
        captureOf responseSize (events ++ [event]) := by
    rw [captureOf, delivered_append, empty, List.append_nil, if_pos (.inl error), held]
  cases event with
  | selectInterrupted => exact held.same rfl rfl rfl
  | readAgain => exact held.same rfl rfl rfl
  | selectError => exact failed (.inl (by simp)) rfl
  | readError => exact failed (.inr (by simp)) rfl
  | silence =>
      by_cases some_bytes : 0 < s.used
      · by_cases idle : 400 ≤ s.idleMs + 200
        · have fine : ¬ (.selectError ∈ events ++ [PortEvent.silence] ∨
              .readError ∈ events ++ [PortEvent.silence]) := by simpa using tracks.noError
          have same : delivered (events ++ [.silence]) = delivered events := by
            rw [delivered_append]
            exact List.append_nil _
          simp only [captureBody, some_bytes, idle, if_true, exitCapture]
          rw [captureOf_of_noError fine, same, ← held, captureEnd, bytes_length, if_pos some_bytes]
        · simp only [captureBody, some_bytes, idle, if_true, if_false]
          exact held.same rfl rfl rfl
      · simp only [captureBody, some_bytes, if_false]
        exact held.same rfl rfl rfl
  | read bytes =>
      rw [captureBody]
      have used := tracks.used
      have length : s.used = ((delivered events).take (responseSize - 1)).length := by
        rw [List.length_take, used, Nat.min_comm]
      have all : delivered (events ++ [.read bytes]) = delivered events ++ bytes := by
        rw [delivered_append]
        simp [delivered]
      by_cases none : min bytes.length (responseSize - 1 - s.used) = 0
      · simp only [none, if_true]
        rw [Holds, all, List.take_append, held]
        have rest : bytes.take (responseSize - 1 - (delivered events).length) = [] := by
          rw [← List.length_eq_zero_iff, List.length_take]
          omega
        rw [rest, List.append_nil]
      · simp only [none, if_false]
        rw [Holds, bytes_received, all, List.take_append, held]
        have short : s.used = (delivered events).length := by omega
        rw [short]

/-- **What the machine returns** on the outcomes behind those it has taken. -/
theorem outcome_foldl (tracks : Tracks responseSize before s)
    (held : Holds responseSize before s) (events : List PortEvent) :
    (events.foldl (captureStep responseSize timeoutMs) (.running s)).outcome =
      captureOf responseSize (takenAfter responseSize timeoutMs before events) := by
  induction events generalizing before s with
  | nil =>
      rw [takenAfter, captureOf_of_noError tracks.noError, ← held]
      rfl
  | cons event events ih =>
      rw [List.foldl_cons, captureStep]
      by_cases go : Capturing responseSize timeoutMs s
      · have open_ : ¬ Ended responseSize timeoutMs before := tracks.capturing_iff.mp go
        have captured := tracks.captured held event
        rw [if_pos go, takenAfter, if_neg open_]
        rcases tracks.body go event with ⟨s', run, tracks'⟩ | ⟨⟨ret, s', exit⟩, ended⟩
        · rw [run] at captured ⊢
          exact ih tracks' captured
        · rw [exit] at captured ⊢
          rw [foldl_exited, takenAfter_of_ended ended]
          exact captured
      · have ended : Ended responseSize timeoutMs before :=
          not_not.mp (mt tracks.capturing_iff.mpr go)
        rw [if_neg go, exitCapture, foldl_exited, ← exitCapture, outcome_exitCapture,
          takenAfter_of_ended ended, captureOf_of_noError tracks.noError, ← held]

/-- **A capture** returns what the outcomes deliver until they end it. -/
theorem captureLoop_eq_captureOf (responseSize timeoutMs : Nat) (events : List PortEvent) :
    captureLoop responseSize timeoutMs events [] 0 0 =
      captureOf responseSize (takenAfter responseSize timeoutMs [] events) := by
  have start : Holds responseSize [] { response := store8 (fun _ => 0) 0 0 } := by
    simp [Holds, delivered, bytes]
  rw [captureLoop_eq_run (fun _ => 0)]
  exact outcome_foldl (tracks_nil fun _ => 0) start events

end Returned

/-! ### The buffer -/

/-- The variables, whether the loop is running or not. -/
def CaptureRun.state : CaptureRun → CaptureState
  | .running s => s
  | .exited _ s => s

/-- The response is terminated within the buffer. -/
def Terminated (responseSize : Nat) (s : CaptureState) : Prop :=
  s.used < responseSize ∧ s.response s.used = 0

/-- Every iteration leaves the response terminated. -/
theorem terminated_step {responseSize timeoutMs : Nat} {run : CaptureRun}
    (h : Terminated responseSize run.state) (event : PortEvent) :
    Terminated responseSize (captureStep responseSize timeoutMs run event).state := by
  cases run with
  | exited ret s => exact h
  | running s =>
      rw [captureStep]
      split
      · cases event with
        | selectInterrupted => exact h
        | readAgain => exact h
        | selectError => exact h
        | readError => exact h
        | silence =>
            rw [captureBody]
            split
            · split <;> exact h
            · exact h
        | read bytes =>
            rw [captureBody]
            split
            · exact h
            · have fits := h.1
              refine ⟨?_, ?_⟩
              · simp only [CaptureRun.state, CaptureState.received] at fits ⊢
                omega
              · simp [CaptureRun.state, CaptureState.received, store8]
      · exact h

theorem terminated_run {responseSize : Nat} (room : 0 < responseSize) (timeoutMs : Nat)
    (buffer : Mem) (events : List PortEvent) :
    Terminated responseSize (captureRun responseSize timeoutMs buffer events).state := by
  induction events using List.reverseRecOn with
  | nil => exact ⟨room, by simp [captureRun, CaptureRun.state, store8]⟩
  | append_singleton events event ih =>
      rw [captureRun_append]
      exact terminated_step ih event

/-! ### Endless sequences -/

/-- The first `n` outcomes. -/
def outcomes (σ : Nat → PortEvent) (n : Nat) : List PortEvent := (List.range n).map σ

/-- The loop exits, and wherever it does a NUL stands behind what was read, within the buffer. -/
def CaptureEnds (responseSize timeoutMs : Nat) (buffer : Mem) (σ : Nat → PortEvent) : Prop :=
  (∃ n ret s, captureRun responseSize timeoutMs buffer (outcomes σ n) = .exited ret s) ∧
    ∀ n ret s, captureRun responseSize timeoutMs buffer (outcomes σ n) = .exited ret s →
      Terminated responseSize s

/-- EINTR, EAGAIN and EWOULDBLOCK come finitely often. -/
def FinitelyInterrupted (σ : Nat → PortEvent) : Prop :=
  ∃ N, ∀ n ≥ N, σ n ≠ .selectInterrupted ∧ σ n ≠ .readAgain

/-- From some time on, before anything has ended the capture, every read returns no bytes. -/
def Stalls (responseSize timeoutMs : Nat) (σ : Nat → PortEvent) : Prop :=
  ∃ N, ¬ Ended responseSize timeoutMs (outcomes σ N) ∧ ∀ n ≥ N, σ n = .read []

section Endless

variable {responseSize timeoutMs : Nat} {buffer : Mem} {σ : Nat → PortEvent}

theorem outcomes_succ (σ : Nat → PortEvent) (n : Nat) :
    outcomes σ (n + 1) = outcomes σ n ++ [σ n] := by
  rw [outcomes, List.range_succ, List.map_append, List.map_singleton, outcomes]

/-- The loop exits exactly when finitely many outcomes end the capture. -/
theorem exits_iff : (∃ n ret s, captureRun responseSize timeoutMs buffer (outcomes σ n) =
    .exited ret s) ↔ ∃ n, Ended responseSize timeoutMs (outcomes σ n) := by
  constructor
  · rintro ⟨n, ret, s, exit⟩
    rcases tracks_or_ended responseSize timeoutMs buffer (outcomes σ n) with
      ⟨s', run, -⟩ | ⟨-, ended⟩
    · rw [run] at exit
      cases exit
    · exact ⟨n, ended⟩
  · rintro ⟨n, ended⟩
    refine ⟨n + 1, ?_⟩
    rw [outcomes_succ]
    exact exited_of_ended ended (σ n)

theorem Ended.outcomes {n : Nat} (ended : Ended responseSize timeoutMs (outcomes σ n)) (j : Nat) :
    Ended responseSize timeoutMs (outcomes σ (n + j)) := by
  induction j with
  | zero => exact ended
  | succ j ih =>
      rw [← Nat.add_assoc, outcomes_succ]
      exact ih.append _

/-- What an outcome that does not end the capture brings: a silence or a byte, unless it is a read
of no bytes. -/
theorem progress_step {n : Nat} (fine : σ n ≠ .selectInterrupted ∧ σ n ≠ .readAgain)
    (open_ : ¬ Ended responseSize timeoutMs (outcomes σ (n + 1))) (some_bytes : σ n ≠ .read []) :
    (outcomes σ n).count .silence + (delivered (outcomes σ n)).length <
      (outcomes σ (n + 1)).count .silence + (delivered (outcomes σ (n + 1))).length := by
  rw [outcomes_succ] at open_ ⊢
  rw [List.count_append, delivered_append, List.length_append]
  cases event : σ n with
  | selectInterrupted => exact (fine.1 event).elim
  | readAgain => exact (fine.2 event).elim
  | selectError => exact (open_ (.error (.inl (by simp [event])))).elim
  | readError => exact (open_ (.error (.inr (by simp [event])))).elim
  | silence =>
      rw [List.count_singleton_self]
      omega
  | read bytes =>
      have length : (delivered [.read bytes]).length = bytes.length := by simp [delivered]
      have pos : 0 < bytes.length := by
        apply List.length_pos_of_ne_nil
        rintro rfl
        exact some_bytes event
      omega

/-- Reads of no bytes end nothing. -/
theorem ended_outcomes_iff {N : Nat} (empty : ∀ n ≥ N, σ n = .read []) (j : Nat) :
    Ended responseSize timeoutMs (outcomes σ (N + j)) ↔
      Ended responseSize timeoutMs (outcomes σ N) := by
  induction j with
  | zero => rfl
  | succ j ih =>
      rw [← ih, ← Nat.add_assoc, outcomes_succ, empty (N + j) (Nat.le_add_right N j)]
      refine ⟨fun ended => ?_, fun ended => ended.append _⟩
      cases ended with
      | error h => exact .error (by simpa using h)
      | timeout h => exact .timeout (by simpa [List.count_append] using h)
      | full h => exact .full (by simpa [delivered_append, delivered] using h)
      | idle h => exact .idle (by simpa [paused_append] using h)

/-- Outcomes that never end the capture are reads of no bytes from some time on: there is room for
finitely many silences and bytes only. -/
theorem stalls_of_never (interrupted : FinitelyInterrupted σ)
    (never : ∀ n, ¬ Ended responseSize timeoutMs (outcomes σ n)) :
    Stalls responseSize timeoutMs σ := by
  obtain ⟨N, fine⟩ := interrupted
  let progress (n : Nat) : Nat :=
    (outcomes σ n).count .silence + (delivered (outcomes σ n)).length
  have bounded (n : Nat) : progress n ≤ timeoutMs + responseSize := by
    have in_time : ¬ timeoutMs ≤ 200 * (outcomes σ n).count .silence :=
      fun late => never n (.timeout late)
    have room : ¬ responseSize ≤ (delivered (outcomes σ n)).length + 1 :=
      fun full => never n (.full full)
    simp only [progress]
    omega
  -- among the times behind `N`, one with the most progress
  obtain ⟨M, late, most⟩ : ∃ M ≥ N, ∀ n ≥ N, progress n ≤ progress M := by
    by_contra none
    have more (k : Nat) : ∃ n ≥ N, k ≤ progress n := by
      induction k with
      | zero => exact ⟨N, le_rfl, Nat.zero_le _⟩
      | succ k ih =>
          obtain ⟨n, hn, le⟩ := ih
          by_contra stuck
          refine none ⟨n, hn, fun m hm => ?_⟩
          by_contra above
          exact stuck ⟨m, hm, by omega⟩
    obtain ⟨n, -, above⟩ := more (timeoutMs + responseSize + 1)
    have := bounded n
    omega
  have grows (m : Nat) (le : M ≤ m) : progress M ≤ progress m := by
    induction m, le using Nat.le_induction with
    | base => exact le_rfl
    | succ m _ ih =>
        refine ih.trans ?_
        simp only [progress]
        rw [outcomes_succ, List.count_append, delivered_append, List.length_append]
        omega
  refine ⟨M, never M, fun n hn => ?_⟩
  by_contra some_bytes
  have step : progress n < progress (n + 1) :=
    progress_step (fine n (by omega)) (never (n + 1)) some_bytes
  have low := grows n hn
  have high := most (n + 1) (by omega)
  omega

end Endless

/-- **When a capture ends**: unless reads return no bytes from some time on, while no error,
timeout, full buffer or idle gap has ended it before. -/
theorem captureEnds_iff {responseSize : Nat} (room : 0 < responseSize) (timeoutMs : Nat)
    (buffer : Mem) {σ : Nat → PortEvent} (interrupted : FinitelyInterrupted σ) :
    CaptureEnds responseSize timeoutMs buffer σ ↔ ¬ Stalls responseSize timeoutMs σ := by
  have terminated : ∀ n ret s,
      captureRun responseSize timeoutMs buffer (outcomes σ n) = .exited ret s →
      Terminated responseSize s := by
    intro n ret s exit
    have nul := terminated_run room timeoutMs buffer (outcomes σ n)
    rwa [exit] at nul
  rw [CaptureEnds, and_iff_left terminated, exits_iff]
  constructor
  · rintro ⟨n, ended⟩ ⟨N, open_, empty⟩
    refine open_ ((ended_outcomes_iff empty n).mp ?_)
    rw [Nat.add_comm]
    exact ended.outcomes N
  · intro moves
    by_contra never
    exact moves (stalls_of_never interrupted (not_exists.mp never))

/-- A device that answers OK and stays silent. -/
theorem captureEnds_iff_example :
    CaptureEnds 2048 2000 (fun _ => 0) (fun n => if n = 0 then .read [79, 75] else .silence) ↔
      ¬ Stalls 2048 2000 (fun n => if n = 0 then .read [79, 75] else .silence) :=
  captureEnds_iff (by decide) 2000 (fun _ => 0)
    ⟨0, fun n _ => by by_cases first : n = 0 <;> simp [first]⟩

/-- A port at its end of file: `select` reports it readable and `read` returns 0. -/
theorem captureEnds_not_at_eof :
    FinitelyInterrupted (fun _ => .read []) ∧
      ¬ CaptureEnds 2048 2000 (fun _ => 0) (fun _ => .read []) := by
  have none (n : Nat) : ¬ Ended 2048 2000 (outcomes (fun _ => .read []) n) := by
    have silent : outcomes (fun _ => .read []) n = List.replicate n (.read []) := by
      simp [outcomes]
    have empty : delivered (List.replicate n (.read [])) = [] := by simp [delivered]
    rw [silent]
    rintro (error | timeout | full | ⟨before, between, after, eq, data, -⟩)
    · simp at error
    · simp [List.count_replicate] at timeout
    · rw [empty] at full
      simp at full
    · rw [eq, delivered_append, List.append_eq_nil_iff] at empty
      exact data empty.1
  refine ⟨⟨0, fun n _ => by simp⟩, ?_⟩
  rintro ⟨exits, -⟩
  obtain ⟨n, ended⟩ := exits_iff.mp exits
  exact none n ended

end Ok3506.At
