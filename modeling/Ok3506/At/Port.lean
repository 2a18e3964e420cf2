import Ok3506.Lib.CString

/-!
A serial port with an AT module behind it.

The loops that `eth_4g_capture_at_response` and `dbb_capture_response` share:
a command is written out, then bytes are collected until the module has been
silent for 400 ms, the time is up or the buffer is full. What the system calls
return is an argument. A list of answers that runs out means that the device
accepts the rest, or stays silent.
-/

namespace Ok3506.At

/-- What one `write` returns. -/
inductive WriteEvent where
  | accepted (n : Nat)
  | interrupted
  | error
  deriving DecidableEq, Repr

/-- The loop that writes all of a buffer: whether it succeeds, and the bytes
that reached the device. -/
def writeAll : List WriteEvent → List UInt8 → Bool × List UInt8
  | _, [] => (true, [])
  | [], bytes => (true, bytes)
  | .accepted n :: events, bytes =>
      let (ok, rest) := writeAll events (bytes.drop n)
      (ok, bytes.take n ++ rest)
  | .interrupted :: events, bytes => writeAll events bytes
  | .error :: _, _ => (false, [])

/-- What `select`, and the `read` after it, return. -/
inductive PortEvent where
  /-- `select` times out after 200 ms -/
  | silence
  | selectInterrupted
  | selectError
  /-- `read` returns bytes, or 0 -/
  | read (bytes : List UInt8)
  /-- `read` fails with EINTR, EAGAIN or EWOULDBLOCK -/
  | readAgain
  | readError
  deriving DecidableEq, Repr

/-- The outcome of a capture: the return value and what was read into the buffer. -/
structure Captured where
  ret : Int
  used : List UInt8
  deriving DecidableEq, Repr

/-- `return used > 0 ? 0 : -1`. -/
def captureEnd (used : List UInt8) : Captured := ⟨if 0 < used.length then 0 else -1, used⟩

/-- The loop that reads a response. -/
def captureLoop (responseSize timeoutMs : Nat) :
    List PortEvent → List UInt8 → Nat → Nat → Captured
  | [], used, _, _ => captureEnd used
  | event :: events, used, idleMs, totalMs =>
      if totalMs < timeoutMs ∧ used.length + 1 < responseSize then
        match event with
        | .selectInterrupted | .readAgain =>
            captureLoop responseSize timeoutMs events used idleMs totalMs
        | .selectError | .readError => ⟨-1, used⟩
        | .silence =>
            if 0 < used.length then
              if 400 ≤ idleMs + 200 then captureEnd used
              else captureLoop responseSize timeoutMs events used (idleMs + 200) (totalMs + 200)
            else captureLoop responseSize timeoutMs events used idleMs (totalMs + 200)
        | .read bytes =>
            let n := bytes.take (responseSize - 1 - used.length)
            if n = [] then captureLoop responseSize timeoutMs events used idleMs totalMs
            else captureLoop responseSize timeoutMs events (used ++ n) 0 totalMs
      else captureEnd used

/-- What the port answers to a command. -/
structure PortAnswer where
  write : List WriteEvent := []
  read : List PortEvent := []

/-- A command and its response: the command with CR has to fit its buffer, is
written out, and the response is read. -/
def capture (commandSize responseSize timeoutMs : Nat) (cmd : Option (List UInt8))
    (answer : PortAnswer) : Captured × List UInt8 :=
  match cmd with
  | none => (captureLoop responseSize timeoutMs answer.read [] 0 0, [])
  | some cmd =>
      let command := cmd ++ [13]
      if commandSize ≤ command.length then (⟨-1, []⟩, [])
      else
        let (ok, written) := writeAll answer.write command
        if ok then (captureLoop responseSize timeoutMs answer.read [] 0 0, written)
        else (⟨-1, []⟩, written)

/-- What reaches the device is the front of the buffer, and all of it on success only. -/
theorem writeAll_sent (events : List WriteEvent) (bytes : List UInt8) :
    (writeAll events bytes).2 <+: bytes ∧
      ((writeAll events bytes).1 = true ↔ (writeAll events bytes).2 = bytes) := by
  induction events generalizing bytes with
  | nil => cases bytes <;> simp [writeAll]
  | cons event events ih =>
      cases bytes with
      | nil => simp [writeAll]
      | cons b bytes =>
          cases event with
          | accepted n =>
              obtain ⟨front, all⟩ := ih ((b :: bytes).drop n)
              have joined := (List.prefix_append_right_inj ((b :: bytes).take n)).mpr front
              have whole (rest : List UInt8) :
                  (b :: bytes).take n ++ rest = (b :: bytes).take n ++ (b :: bytes).drop n ↔
                    rest = (b :: bytes).drop n := List.append_right_inj _
              simp only [List.take_append_drop] at joined whole
              exact ⟨joined, all.trans (whole _).symm⟩
          | interrupted => exact ih (b :: bytes)
          | error => simp [writeAll]

/-! ### A device that accepts all writes -/

/-- No write fails; it may be interrupted and take several calls. -/
def Accepts (events : List WriteEvent) : Prop := ∀ event ∈ events, event ≠ .error

theorem writeAll_of_accepts {events : List WriteEvent} (accepts : Accepts events)
    (bytes : List UInt8) : writeAll events bytes = (true, bytes) := by
  induction events generalizing bytes with
  | nil => cases bytes <;> rfl
  | cons event events ih =>
      have rest : Accepts events := fun e member => accepts e (List.mem_cons_of_mem _ member)
      cases bytes with
      | nil => rfl
      | cons b bytes =>
          cases event with
          | accepted n =>
              simp only [writeAll, ih rest]
              rw [List.take_append_drop]
          | interrupted => simp only [writeAll, ih rest]
          | error => exact absurd rfl (accepts _ List.mem_cons_self)

/-- A command is written with its CR, or not at all when it does not fit. -/
theorem written_capture {answer : PortAnswer} (accepts : Accepts answer.write)
    (commandSize responseSize timeoutMs : Nat) (cmd : List UInt8) :
    (capture commandSize responseSize timeoutMs (some cmd) answer).2 =
      if commandSize ≤ cmd.length + 1 then [] else cmd ++ [13] := by
  simp only [capture, writeAll_of_accepts accepts, List.length_append, List.length_cons,
    List.length_nil, Nat.zero_add, if_true]
  split <;> rfl

end Ok3506.At
