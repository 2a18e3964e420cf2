import Ok3506.Gnss.NmeaPosition

/-!
The clock of the device over a run of RMC sentences.

A run is described by the lead of the clock over the UTC of the receiver: between two
sentences it changes by the drift of the clock. `mktime` takes the UTC of a sentence as a local
time, so the handler brings the clock to the UTC less the offset of the zone, when it is more
than ten seconds away from there. What the command `date` does is not part of the program.
-/

namespace Ok3506.Gnss

open Calendar Machine

/-! ### Runs -/

/-- The call sets the system clock: `settimeofday`, or the command `date` behind it. -/
def NmeaCall.setsClock : NmeaCall → Bool
  | .settimeofday _ _ | .date _ => true
  | _ => false

/-- The clock behind a call; `date` is what the command `date -s` makes of the clock. -/
def NmeaCall.clock (date : Tm → Int → Int) (settable : Bool) (now : Int) : NmeaCall → Int
  | .settimeofday sec _ => if settable then sec else now
  | .date tm => date tm now
  | _ => now

/-- The command sets the clock to the local time that it is given. -/
def SetsLocalTime (zone : TimeZone) (date : Tm → Int → Int) : Prop :=
  ∀ tm now, tm.seconds - zone.offset ≤ zone.timeMax → date tm now = tm.seconds - zone.offset

/-- A sentence, what the clock has gained since the last one, and whether `settimeofday`
succeeds. -/
structure ClockInput where
  r : RmcReport
  t : SentenceText
  drift : Int
  settable : Bool

namespace ClockInput

/-- The instant that the sentence reports, in seconds of UTC. -/
def utc (i : ClockInput) : Int := i.r.tm.seconds

structure Good (zone : TimeZone) (i : ClockInput) : Prop where
  report : i.r.Valid
  text : i.t.Valid false
  written : i.t.fieldList = i.r.fields
  held : i.utc - zone.offset ≤ zone.timeMax

/-- The sentence has a fix, and the clock is too far away from where `mktime` has it. -/
def Corrects (zone : TimeZone) (i : ClockInput) (lead : Int) : Prop :=
  i.r.status = 65 ∧ 10 < (lead + i.drift + zone.offset).natAbs

instance (zone : TimeZone) (i : ClockInput) (lead : Int) : Decidable (i.Corrects zone lead) :=
  inferInstanceAs (Decidable (_ ∧ _))

end ClockInput

/-- One sentence: the lead of the clock behind it, and the calls of the handler. -/
def clockStep (zone : TimeZone) (date : Tm → Int → Int) (lead : Int) (i : ClockInput) :
    Int × List NmeaCall :=
  let now := i.utc + lead + i.drift
  match handleGnssNmea zone ⟨now, i.settable⟩ (i.t.text ++ [0]) with
  | .ok calls => (calls.foldl (NmeaCall.clock date i.settable) now - i.utc, calls)
  | .error _ => (lead + i.drift, [])

/-! ### One sentence -/

section Step

variable {zone : TimeZone} {date : Tm → Int → Int} {i : ClockInput}

theorem mktime_fst {tm : Tm} (held : tm.seconds - zone.offset ≤ zone.timeMax) :
    (mktime zone tm).1 = tm.seconds - zone.offset := by
  rw [mktime, if_neg (by omega)]

/-- The calls that `handle_gnss_nmea` makes about the clock for a well-formed report: none,
or `settimeofday`, and `date` behind it where that fails. -/
theorem setClock_eq (good : i.Good zone) {frame : SentenceRmc} (held : i.r.Frame frame)
    (lead : Int) :
    ∃ tm : Tm, tm.seconds = i.utc ∧
      (setClock zone ⟨i.utc + lead + i.drift, i.settable⟩ frame).1 =
        if i.Corrects zone lead then
          .settimeofday (i.utc - zone.offset) frame.time.microseconds ::
            if i.settable = false then [.date tm] else []
        else [] := by
  have first : (mktime zone i.r.tm).1 = i.utc - zone.offset := mktime_fst good.held
  have same : (mktime zone i.r.tm).2.seconds = i.utc := seconds_mktime _
  have second : (mktime zone (mktime zone i.r.tm).2).1 = i.utc - zone.offset := by
    rw [mktime_fst (by rw [same]; exact good.held), same]
  refine ⟨(mktime zone (mktime zone i.r.tm).2).2, (seconds_mktime _).trans same, ?_⟩
  have gained : i.utc + lead + i.drift - (i.utc - zone.offset) = lead + i.drift + zone.offset := by
    omega
  simp only [setClock, held.tm_eq, held.status, first, second, gained, decide_eq_true_eq,
    ClockInput.Corrects, gt_iff_lt]
  by_cases fix : i.r.status = 65
  · by_cases far : 10 < (lead + i.drift + zone.offset).natAbs
    · simp only [fix, far, true_and, if_true]
    · simp only [fix, far, and_false, if_true, if_false]
  · simp only [fix, false_and, if_false]

/-- **Step lemma.** A sentence with a fix brings the clock to its UTC less the offset of the zone
where it is more than ten seconds away from there; no other sentence touches it. -/
theorem clockStep_eq (sets : SetsLocalTime zone date) (good : i.Good zone) (lead : Int) :
    (clockStep zone date lead i).1 =
        (if i.Corrects zone lead then -zone.offset else lead + i.drift) ∧
      ((clockStep zone date lead i).2.any NmeaCall.setsClock = true ↔ i.Corrects zone lead) := by
  obtain ⟨accepted, frame, held, parsed⟩ := good.report.accepted good.text good.written []
  obtain ⟨tm, same, calls⟩ := setClock_eq good held lead
  have run := handleGnssNmea_rmc accepted zone ⟨i.utc + lead + i.drift, i.settable⟩ parsed
  have local_time (now : Int) : date tm now = i.utc - zone.offset := by
    have fits := good.held
    rw [sets tm now (by omega), same]
  simp only [clockStep, run, rmcCalls, calls]
  by_cases corrects : i.Corrects zone lead
  · simp only [corrects, if_true]
    cases h : i.settable <;> simp [NmeaCall.clock, NmeaCall.setsClock, local_time]
  · simp only [corrects, if_false]
    simp only [NmeaCall.clock, NmeaCall.setsClock, List.foldl_cons, List.foldl_nil,
      List.nil_append, List.any_cons, List.any_nil, Bool.or_false]
    exact ⟨by omega, by simp⟩

end Step

/-! ### Runs of sentences -/

/-- How often the clock is set in a run. -/
def settings (outputs : List (List NmeaCall)) : Nat :=
  outputs.countP fun calls => calls.any NmeaCall.setsClock

/-- What the clock has drifted in a run, in either direction. -/
def drifted (is : List ClockInput) : Nat := (is.map fun i => i.drift.natAbs).sum

section Run

variable {zone : TimeZone} {date : Tm → Int → Int}

theorem settings_cons (sets : SetsLocalTime zone date) {i : ClockInput} (good : i.Good zone)
    (lead : Int) (is : List ClockInput) :
    settings (outputs (clockStep zone date) lead (i :: is)) =
      settings (outputs (clockStep zone date) (clockStep zone date lead i).1 is) +
        if i.Corrects zone lead then 1 else 0 := by
  have corrected := (clockStep_eq sets good lead).2
  rw [outputs_cons, settings, List.countP_cons, ← settings]
  by_cases corrects : i.Corrects zone lead
  · rw [if_pos corrects, if_pos (corrected.mpr corrects)]
  · rw [if_neg corrects, if_neg fun h => corrects (corrected.mp h)]

/-- A clock that is set is eleven seconds off or more, so each setting uses up eleven
seconds of the first deviation and of the drift. -/
theorem settings_le (sets : SetsLocalTime zone date) (lead : Int) (is : List ClockInput)
    (good : ∀ i ∈ is, i.Good zone) :
    11 * settings (outputs (clockStep zone date) lead is) ≤
      (lead + zone.offset).natAbs + drifted is := by
  induction is generalizing lead with
  | nil => exact Nat.zero_le _
  | cons i is ih =>
      obtain ⟨now, later⟩ := List.forall_mem_cons.mp good
      have rest := ih (clockStep zone date lead i).1 later
      have step := (clockStep_eq sets now lead).1
      have split : drifted (i :: is) = i.drift.natAbs + drifted is := rfl
      rw [settings_cons sets now, split]
      by_cases corrects : i.Corrects zone lead
      · have far := corrects.2
        rw [if_pos corrects] at step ⊢
        rw [step] at rest ⊢
        omega
      · rw [if_neg corrects] at step ⊢
        rw [step] at rest ⊢
        omega

/-- Whatever the clock showed at first, the first setting removes it. -/
theorem settings_le_succ (sets : SetsLocalTime zone date) (lead : Int) (is : List ClockInput)
    (good : ∀ i ∈ is, i.Good zone) :
    11 * settings (outputs (clockStep zone date) lead is) ≤ 11 + drifted is := by
  induction is generalizing lead with
  | nil => exact Nat.zero_le _
  | cons i is ih =>
      obtain ⟨now, later⟩ := List.forall_mem_cons.mp good
      have step := (clockStep_eq sets now lead).1
      have split : drifted (i :: is) = i.drift.natAbs + drifted is := rfl
      rw [settings_cons sets now, split]
      by_cases corrects : i.Corrects zone lead
      · have rest := settings_le sets (clockStep zone date lead i).1 is later
        rw [if_pos corrects] at step ⊢
        rw [step] at rest ⊢
        omega
      · have rest := ih (clockStep zone date lead i).1 later
        rw [if_neg corrects]
        omega

end Run

end Ok3506.Gnss
