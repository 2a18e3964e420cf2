import Ok3506.Lib.Machine

/-!
The device descriptors of the GNSS, DBB and 4G modules.

`held` are the descriptors that a module has opened on its device and not closed
since. The steps of all threads are interleaved; what happens under one lock is one
step. `gnss_thread_func` closes its descriptor when a read fails, and leaves it in
`gnss_ctrl.fd`.
-/

namespace Ok3506.Devices

open Machine

/-- The descriptor of a module, with its initial value. -/
structure Port where
  fd : Int := -1
  held : List Int := []

/-- `ctrl.fd = open(device)`. -/
def Port.opened (p : Port) (openFd : Int) : Port where
  fd := openFd
  held := if 0 ≤ openFd then openFd :: p.held else p.held

/-- `close(ctrl.fd)`. -/
def Port.closed (p : Port) : Port := { p with held := p.held.filter (· ≠ p.fd) }

/-! ### DBB and 4G -/

/-- `dbb_close_device`; `eth_4g_close_device` does the same. -/
def closeDevice (p : Port) : Port :=
  if 0 ≤ p.fd then { p.closed with fd := -1 } else p

/-- How opening a device ends before the device is closed again. -/
inductive Opening where
  | ready
  | failed
  | misconfigured
  deriving DecidableEq, Repr

/-- The part of `dbb_open_device` under the mutex. -/
def openLocked (p : Port) (openFd : Int) (setOpt : Bool) : Port × Opening :=
  if 0 ≤ p.fd then (p, .ready)
  else if openFd < 0 then (p.opened openFd, .failed)
  else if setOpt then (p.opened openFd, .ready)
  else (p.opened openFd, .misconfigured)

/-- `dbb_open_device`: the mutex is free between its two parts. -/
def dbbOpenDevice (p : Port) (openFd : Int) (setOpt : Bool) : Port × Bool :=
  let (p, opening) := openLocked p openFd setOpt
  match opening with
  | .ready => (p, true)
  | .failed => (p, false)
  | .misconfigured => (closeDevice p, false)

/-- `eth_4g_open_device`. -/
def eth4gOpenDevice (p : Port) (openFd : Int) (setOpt : Bool) : Port × Bool :=
  if 0 ≤ p.fd then (p, true)
  else if openFd < 0 then (p.opened openFd, false)
  else if setOpt then (p.opened openFd, true)
  else (closeDevice (p.opened openFd), false)

/-! ### GNSS -/

/-- Where `gnss_thread_func` is. -/
inductive GnssThread where
  | starting
  | reading
  /-- behind a read that failed, before the descriptor is closed -/
  | failing
  | ended
  deriving DecidableEq, Repr

/-- What a `read` of the GNSS device returns. -/
inductive ReadResult where
  | bytes
  | nothing
  | interrupted
  /-- EAGAIN or EWOULDBLOCK -/
  | again
  /-- another error -/
  | fatal
  deriving DecidableEq, Repr

/-- What `gnss_dev_write` returns, where `write` returns `result`. -/
def gnssDevWrite (fd result : Int) : Int :=
  if fd < 0 then -1 else if result < 0 then -1 else result

/-! ### Steps -/

/-- The three modules and the GNSS thread. -/
structure State where
  gnss : Port := {}
  thread : GnssThread := .starting
  dbb : Port := {}
  eth4g : Port := {}

inductive Action where
  /-- `gnss_thread_func` up to its loop; `gnss_bdd_enable` may fail. -/
  | gnssOpen (bdd : Bool) (openFd : Int)
  | gnssRead (result : ReadResult)
  /-- the exit behind a read that failed -/
  | gnssExit
  | gnssWrite (result : Int)
  | dbbOpen (openFd : Int) (setOpt : Bool)
  | dbbClose
  | dbbWrite (result : Int)
  | eth4gOpen (openFd : Int) (setOpt : Bool)
  | eth4gClose
  | eth4gWrite (result : Int)
  deriving DecidableEq, Repr

/-- A step of some thread, with what a write returned; a thread that is elsewhere
does not move. -/
def step (s : State) (a : Action) : State × Option Int :=
  match a with
  | .gnssOpen bdd openFd =>
      if s.thread = .starting then
        if bdd = false then ({ s with thread := .ended }, none)
        else
          ({ s with
            gnss := s.gnss.opened openFd
            thread := if openFd < 0 then .ended else .reading }, none)
      else (s, none)
  | .gnssRead result =>
      if s.thread = .reading ∧ result = .fatal then ({ s with thread := .failing }, none)
      else (s, none)
  | .gnssExit =>
      if s.thread = .failing then ({ s with gnss := s.gnss.closed, thread := .ended }, none)
      else (s, none)
  | .gnssWrite result => (s, some (gnssDevWrite s.gnss.fd result))
  | .dbbOpen openFd setOpt => ({ s with dbb := (openLocked s.dbb openFd setOpt).1 }, none)
  | .dbbClose => ({ s with dbb := closeDevice s.dbb }, none)
  | .dbbWrite result => (s, some result)
  | .eth4gOpen openFd setOpt =>
      ({ s with eth4g := (eth4gOpenDevice s.eth4g openFd setOpt).1 }, none)
  | .eth4gClose => ({ s with eth4g := closeDevice s.eth4g }, none)
  | .eth4gWrite result => (s, some result)

/-- A descriptor that is not negative is one that the module holds. -/
def Port.Fresh (p : Port) : Prop := 0 ≤ p.fd → p.fd ∈ p.held

/-- No descriptor is stale, and behind the end of the GNSS thread `gnss_dev_write`
returns -1. -/
structure Fresh (s : State) : Prop where
  gnss : s.gnss.Fresh
  dbb : s.dbb.Fresh
  eth4g : s.eth4g.Fresh
  ended : s.thread = .ended → ∀ result, gnssDevWrite s.gnss.fd result = -1

/-! ### Ports -/

section Ports

variable {p : Port} {openFd : Int} {setOpt : Bool}

theorem fresh_opened : (p.opened openFd).Fresh := by
  intro valid
  have fd : 0 ≤ openFd := valid
  change openFd ∈ if 0 ≤ openFd then openFd :: p.held else p.held
  rw [if_pos fd]
  exact List.mem_cons_self

theorem Port.Fresh.closeDevice (h : p.Fresh) : (closeDevice p).Fresh := by
  unfold Devices.closeDevice
  split
  · intro valid
    exact absurd valid (by decide : ¬ (0 : Int) ≤ -1)
  · exact h

theorem Port.Fresh.openLocked (h : p.Fresh) : (openLocked p openFd setOpt).1.Fresh := by
  unfold Devices.openLocked
  split
  · exact h
  · split
    · exact fresh_opened
    · split <;> exact fresh_opened

theorem Port.Fresh.dbbOpenDevice (h : p.Fresh) : (dbbOpenDevice p openFd setOpt).1.Fresh := by
  have locked : (Devices.openLocked p openFd setOpt).1.Fresh := h.openLocked
  unfold Devices.dbbOpenDevice
  revert locked
  generalize Devices.openLocked p openFd setOpt = outcome
  obtain ⟨after, opening⟩ := outcome
  intro locked
  cases opening with
  | ready => exact locked
  | failed => exact locked
  | misconfigured => exact locked.closeDevice

/-- The two open functions differ in their locks only. -/
theorem dbbOpenDevice_eq (p : Port) (openFd : Int) (setOpt : Bool) :
    dbbOpenDevice p openFd setOpt = eth4gOpenDevice p openFd setOpt := by
  unfold dbbOpenDevice eth4gOpenDevice Devices.openLocked
  by_cases opened : 0 ≤ p.fd
  · simp only [if_pos opened]
  · by_cases failed : openFd < 0
    · simp only [if_neg opened, if_pos failed]
    · cases setOpt <;> simp only [if_neg opened, if_neg failed] <;> rfl

theorem Port.Fresh.eth4gOpenDevice (h : p.Fresh) : (eth4gOpenDevice p openFd setOpt).1.Fresh := by
  rw [← dbbOpenDevice_eq]
  exact h.dbbOpenDevice

/-- A descriptor that was closed is not held. -/
theorem not_fresh_closed (valid : 0 ≤ p.fd) : ¬ p.closed.Fresh := by
  intro fresh
  have member := fresh valid
  simp [Port.closed] at member

end Ports

/-! ### Runs -/

/-- The invariant: no descriptor is stale, the GNSS thread has a device in its loop
and none behind its end. -/
structure Inv (s : State) : Prop where
  gnss : s.gnss.Fresh
  dbb : s.dbb.Fresh
  eth4g : s.eth4g.Fresh
  looping : s.thread = .reading ∨ s.thread = .failing → 0 ≤ s.gnss.fd
  outside : s.thread = .starting ∨ s.thread = .ended → s.gnss.fd < 0

theorem Inv.fresh {s : State} (h : Inv s) : Fresh s where
  gnss := h.gnss
  dbb := h.dbb
  eth4g := h.eth4g
  ended := fun ended _ => if_pos (h.outside (.inr ended))

/-- Every step but the exit of the GNSS thread keeps the invariant. -/
theorem Inv.step {s : State} (h : Inv s) {a : Action}
    (stays : ¬ (s.thread = .failing ∧ a = .gnssExit)) : Inv (step s a).1 := by
  cases a with
  | gnssOpen bdd openFd =>
      simp only [Devices.step]
      split
      · rename_i starting
        split
        · have closed := h.outside (.inl starting)
          exact ⟨h.gnss, h.dbb, h.eth4g, fun looping => by simp at looping, fun _ => closed⟩
        · by_cases failed : openFd < 0
          · rw [if_pos failed]
            exact ⟨fresh_opened, h.dbb, h.eth4g, fun looping => by simp at looping,
              fun _ => failed⟩
          · rw [if_neg failed]
            exact ⟨fresh_opened, h.dbb, h.eth4g, fun _ => Int.not_lt.mp failed,
              fun outside => by simp at outside⟩
      · exact h
  | gnssRead result =>
      simp only [Devices.step]
      split
      · rename_i fails
        have valid := h.looping (.inl fails.1)
        exact ⟨h.gnss, h.dbb, h.eth4g, fun _ => valid, fun outside => by simp at outside⟩
      · exact h
  | gnssExit =>
      simp only [Devices.step]
      rw [if_neg fun failing => stays ⟨failing, rfl⟩]
      exact h
  | gnssWrite result | dbbWrite result | eth4gWrite result => exact h
  | dbbOpen openFd setOpt =>
      exact ⟨h.gnss, h.dbb.openLocked, h.eth4g, h.looping, h.outside⟩
  | dbbClose => exact ⟨h.gnss, h.dbb.closeDevice, h.eth4g, h.looping, h.outside⟩
  | eth4gOpen openFd setOpt =>
      exact ⟨h.gnss, h.dbb, h.eth4g.eth4gOpenDevice, h.looping, h.outside⟩
  | eth4gClose => exact ⟨h.gnss, h.dbb, h.eth4g.closeDevice, h.looping, h.outside⟩

/-- **The descriptors.** They are never stale along a run exactly when the GNSS
thread does not take the exit behind a read that failed. -/
theorem fresh_iff (actions : List Action) :
    Along step Fresh {} actions ↔
      Steps step (fun s a => ¬ (s.thread = .failing ∧ a = .gnssExit)) {} actions := by
  refine along_iff_steps (I := Inv) (fun _ h => h.fresh) (fun _ _ h stays => h.step stays)
    ?_ ?_ actions
  · intro s a h exits fresh
    obtain ⟨failing, rfl⟩ := not_not.mp exits
    have closed : (step s .gnssExit).1.gnss = s.gnss.closed := by
      simp only [step]
      rw [if_pos failing]
    have gnss := fresh.gnss
    rw [closed] at gnss
    exact not_fresh_closed (h.looping (.inr failing)) gnss
  · exact ⟨nofun, nofun, nofun, nofun, fun _ => by decide⟩

/-- A read of the GNSS device fails, and its descriptor is then given to the DBB. -/
def reuseRun : List Action :=
  [.gnssOpen true 3, .gnssRead .fatal, .gnssExit, .dbbOpen 3 true, .gnssWrite 20]

/-- The descriptor is stale, and a command is written to the device of the DBB. -/
theorem stale_after_exit :
    ¬ Along step Fresh {} reuseRun ∧ (final step {} reuseRun).dbb.fd = 3 ∧
      outputs step {} reuseRun = [none, none, none, none, some 20] := by
  refine ⟨?_, by decide, by decide⟩
  intro fresh
  have last := fresh reuseRun List.prefix_rfl
  have ended := last.ended (by decide) 20
  exact absurd ended (by decide)

end Ok3506.Devices
