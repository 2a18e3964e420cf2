import Ok3506.Gnss.Scan

/-!
The walk of the scanner over the offsets of a buffer.

`OnPath` is defined from `frameAt` alone. A scan visits exactly the offsets on
the path and accepts exactly the frames there. Its count is the offset behind
the length of the last CSHG frame; without empty CSHG frames on the path `len`
iterations end it, with one the index stays there for ever. For a buffer whose
frames are known, `handleGnssRaw_knownFrames` gives the whole result.
-/

namespace Ok3506.Gnss

open Mem

/-- The offsets the scan of a buffer comes to. -/
inductive OnPath (data : Mem) (len : Nat) : Nat → Prop where
  | start : OnPath data len 0
  | next {i : Nat} : OnPath data len i → i < len - 3 → frameAt data len i = none →
      OnPath data len (i + 1)
  | skip {i : Nat} {f : RawFrame} : OnPath data len i → frameAt data len i = some f →
      OnPath data len (i + f.advance)

variable {data : Mem} {len : Nat}

/-- The loop of `handle_gnss_raw` after `n` iterations. -/
abbrev scanIter (data : Mem) (len n : Nat) : ScanState :=
  Loop.iter (Scanning len) (scanStep data len) n {}

/-- Without a CSHG frame in between the path takes every offset. -/
theorem OnPath.walk {a b : Nat} (h : OnPath data len a) (le : a ≤ b) (hb : b ≤ len - 3)
    (gap : ∀ j f, a ≤ j → j < b → frameAt data len j = some f → f.kind = .data2) :
    OnPath data len b := by
  induction b, le using Nat.le_induction with
  | base => exact h
  | succ b hab ih =>
      have here := ih (by omega) fun j f hj hjb => gap j f hj (by omega)
      cases hf : frameAt data len b with
      | none => exact here.next (by omega) hf
      | some f =>
          have kind := gap b f hab (Nat.lt_succ_self b) hf
          have step := here.skip hf
          rwa [RawFrame.advance, kind] at step

/-! ### The scan follows the path -/

/-- What holds of every state of a scan: it stands on the path, and so does
everything it has accepted. -/
structure ScanInv (data : Mem) (len : Nat) (s : ScanState) : Prop where
  onPath : OnPath data len s.i
  accepted : ∀ p ∈ s.accepted, OnPath data len p.1 ∧ frameAt data len p.1 = some p.2

theorem ScanInv.start : ScanInv data len {} := ⟨.start, fun _ h => by cases h⟩

theorem ScanInv.step {s : ScanState} (hlen : len < 2 ^ 64) (hs : Scanning len s)
    (inv : ScanInv data len s) : ScanInv data len (scanStep data len s) := by
  cases hf : frameAt data len s.i with
  | none =>
      rw [scanStep_of_none hf hlen hs]
      exact ⟨inv.onPath.next hs hf, inv.accepted⟩
  | some f =>
      rw [scanStep_of_some hf hlen]
      refine ⟨inv.onPath.skip hf, ?_⟩
      intro p hp
      rcases List.mem_append.mp hp with hp | hp
      · exact inv.accepted p hp
      · rw [List.mem_singleton] at hp
        subst hp
        exact ⟨inv.onPath, hf⟩

theorem scanInv_iter (hlen : len < 2 ^ 64) (n : Nat) : ScanInv data len (scanIter data len n) :=
  Loop.iter_invariant (fun _ hs inv => inv.step hlen hs) n .start

/-- Every offset on the path is reached. -/
theorem OnPath.reached {i : Nat} (h : OnPath data len i) (hlen : len < 2 ^ 64) :
    ∃ n, (scanIter data len n).i = i := by
  induction h with
  | start => exact ⟨0, rfl⟩
  | @next i _ hi hf ih =>
      obtain ⟨n, hn⟩ := ih
      refine ⟨n + 1, ?_⟩
      have hs : Scanning len (scanIter data len n) := by
        rw [Scanning, hn]
        exact hi
      rw [scanIter, Loop.iter_succ_outer, if_pos hs, scanStep_of_none (by rwa [hn]) hlen hs, hn]
  | @skip i f _ hf ih =>
      obtain ⟨n, hn⟩ := ih
      refine ⟨n + 1, ?_⟩
      have hs : Scanning len (scanIter data len n) := by
        rw [Scanning, hn]
        exact lt_of_frameAt hf
      rw [scanIter, Loop.iter_succ_outer, if_pos hs, scanStep_of_some (by rwa [hn]) hlen, hn]

/-- The log only grows. -/
theorem accepted_initial (data : Mem) (hlen : len < 2 ^ 64) (n m : Nat) :
    (scanIter data len n).accepted <+: (scanIter data len (n + m)).accepted := by
  rw [scanIter, scanIter, Loop.iter_add]
  refine Loop.iter_relation (fun s t : ScanState => s.accepted <+: t.accepted)
    (fun s => List.prefix_refl _) (fun s t hst ht => ?_) m _
  cases hf : frameAt data len t.i with
  | none => rwa [scanStep_of_none hf hlen ht]
  | some f =>
      rw [scanStep_of_some hf hlen]
      exact hst.trans (List.prefix_append _ _)

/-- A frame on the path is accepted. -/
theorem OnPath.accepted {i : Nat} {f : RawFrame} (h : OnPath data len i)
    (hf : frameAt data len i = some f) (hlen : len < 2 ^ 64) :
    ∃ n, (i, f) ∈ (scanIter data len n).accepted := by
  obtain ⟨n, hn⟩ := h.reached hlen
  refine ⟨n + 1, ?_⟩
  have hs : Scanning len (scanIter data len n) := by
    rw [Scanning, hn]
    exact lt_of_frameAt hf
  rw [scanIter, Loop.iter_succ_outer, if_pos hs, scanStep_of_some (by rwa [hn]) hlen, hn]
  simp

/-- A scan that has ended accepted the frames on the path and no others. -/
theorem mem_accepted_iff (hlen : len < 2 ^ 64) {n : Nat}
    (done : ¬ Scanning len (scanIter data len n)) {i : Nat} {f : RawFrame} :
    (i, f) ∈ (scanIter data len n).accepted ↔
      OnPath data len i ∧ frameAt data len i = some f := by
  constructor
  · exact (scanInv_iter hlen n).accepted (i, f)
  · rintro ⟨path, hf⟩
    obtain ⟨m, hm⟩ := path.accepted hf hlen
    have later := (accepted_initial data hlen m n).subset hm
    rwa [scanIter, Nat.add_comm, Loop.iter_stable done (Nat.le_add_right n m)] at later

/-! ### The call -/

/-- A buffer shorter than a packet struct holds no frame. -/
theorem le_of_frameAt {i : Nat} {f : RawFrame} (h : frameAt data len i = some f) : 12 ≤ len := by
  have room := (frameAt_eq_some.mp h).2.2
  have := f.kind.size_ge
  omega

theorem handleGnssRaw_eq (h : 11 ≤ len) (fuel : Nat) :
    handleGnssRaw fuel data len = scanIter data len fuel := if_neg (Nat.not_lt.mpr h)

theorem returned_iff (h : 11 ≤ len) {s : ScanState} : Returned len s ↔ ¬ Scanning len s := by
  simp [Returned, PacketKind.size, Nat.not_lt.mpr h]

/-- Everything a call accepts is a frame on the path. -/
theorem onPath_of_accepted (hlen : len < 2 ^ 64) {fuel : Nat} {p : Nat × RawFrame}
    (hp : p ∈ (handleGnssRaw fuel data len).accepted) :
    OnPath data len p.1 ∧ frameAt data len p.1 = some p.2 := by
  rcases Nat.lt_or_ge len 11 with short | long
  · rw [handleGnssRaw, if_pos (by exact short)] at hp
    cases hp
  · rw [handleGnssRaw_eq long] at hp
    exact (scanInv_iter hlen fuel).accepted p hp

/-- A call that has returned accepted the frames on the path and no others. -/
theorem accepted_iff (hlen : len < 2 ^ 64) {fuel : Nat}
    (ended : Returned len (handleGnssRaw fuel data len)) {i : Nat} {f : RawFrame} :
    (i, f) ∈ (handleGnssRaw fuel data len).accepted ↔
      OnPath data len i ∧ frameAt data len i = some f := by
  refine ⟨onPath_of_accepted hlen, ?_⟩
  intro h
  have long : 11 ≤ len := by
    have := le_of_frameAt h.2
    omega
  rw [handleGnssRaw_eq long] at ended ⊢
  exact (mem_accepted_iff hlen ((returned_iff long).mp ended)).mpr h

/-! ### What is consumed -/

/-- Facts about the index and the count that every state of a scan has: the
count lies behind every accepted CSHG frame and `$HEXDATA` frames are met from
front to back. -/
structure ScanCount (len : Nat) (s : ScanState) : Prop where
  index : s.i ≤ len
  count : s.handleCnt ≤ s.i
  passed : ∀ p ∈ s.accepted, p.2.kind = .data1 → p.1 + p.2.length ≤ s.handleCnt
  behind : ∀ p ∈ s.accepted, p.2.kind = .data2 → p.1 < s.i
  sorted : (s.accepted.filter fun p => p.2.kind = .data2).Pairwise fun p q => p.1 < q.1

theorem ScanCount.start : ScanCount len {} := by
  refine ⟨Nat.zero_le _, le_rfl, ?_, ?_, .nil⟩ <;> simp

theorem ScanCount.step {s : ScanState} (hlen : len < 2 ^ 64) (hs : Scanning len s)
    (inv : ScanCount len s) : ScanCount len (scanStep data len s) := by
  obtain ⟨index, count, passed, behind, sorted⟩ := inv
  cases hf : frameAt data len s.i with
  | none =>
      rw [scanStep_of_none hf hlen hs]
      have hi : s.i < len - 3 := hs
      exact ⟨by simp only; omega, by simp only; omega, passed,
        fun p hp hk => Nat.lt_succ_of_lt (behind p hp hk), sorted⟩
  | some f =>
      obtain ⟨-, fits, -⟩ := frameAt_eq_some.mp hf
      have short := f.advance_lt_size
      rw [scanStep_of_some hf hlen]
      cases hk : f.kind with
      | data1 =>
          have advance : f.advance = f.length := by rw [RawFrame.advance, hk]
          refine ⟨by simp only; omega, by simp only; omega, ?_, ?_, ?_⟩
          · intro p hp hd
            rcases List.mem_append.mp hp with hp | hp
            · have := passed p hp hd
              simp only
              omega
            · rw [List.mem_singleton.mp hp]
          · intro p hp hd
            rcases List.mem_append.mp hp with hp | hp
            · have := behind p hp hd
              simp only
              omega
            · rw [List.mem_singleton.mp hp, hk] at hd
              cases hd
          · simpa [List.filter_append, hk] using sorted
      | data2 =>
          have advance : f.advance = 1 := by rw [RawFrame.advance, hk]
          refine ⟨by simp only; omega, by simp only; omega, ?_, ?_, ?_⟩
          · intro p hp hd
            rcases List.mem_append.mp hp with hp | hp
            · exact passed p hp hd
            · rw [List.mem_singleton.mp hp, hk] at hd
              cases hd
          · intro p hp hd
            rcases List.mem_append.mp hp with hp | hp
            · have := behind p hp hd
              simp only
              omega
            · rw [List.mem_singleton.mp hp]
              simp only
              omega
          · rw [List.filter_append, List.pairwise_append]
            refine ⟨sorted, List.Pairwise.filter _ (List.pairwise_singleton _ _), ?_⟩
            intro p hp q hq
            obtain ⟨hp, hd⟩ := List.mem_filter.mp hp
            rw [List.mem_singleton.mp (List.mem_filter.mp hq).1]
            exact behind p hp (by simpa using hd)

theorem scanCount_handleGnssRaw (data : Mem) (hlen : len < 2 ^ 64) (fuel : Nat) :
    ScanCount len (handleGnssRaw fuel data len) := by
  rw [handleGnssRaw]
  split
  · exact .start
  · exact Loop.iter_invariant (fun _ hs inv => inv.step hlen hs) fuel .start

/-- The returned count lies in the buffer. -/
theorem handleCnt_le (hlen : len < 2 ^ 64) (fuel : Nat) :
    (handleGnssRaw fuel data len).handleCnt ≤ len :=
  have inv := scanCount_handleGnssRaw data hlen fuel
  inv.count.trans inv.index

/-! ### Progress -/

/-- No frame on the path of the scan is an empty CSHG frame. -/
def NoEmptyFrame (data : Mem) (len : Nat) : Prop :=
  ∀ i f, OnPath data len i → frameAt data len i = some f → f.kind = .data1 → f.length ≠ 0

/-- Without empty frames every iteration moves the index forward. -/
theorem lt_scanStep {s : ScanState} (hlen : len < 2 ^ 64) (inv : ScanInv data len s)
    (hs : Scanning len s) (noEmpty : NoEmptyFrame data len) : s.i < (scanStep data len s).i := by
  cases hf : frameAt data len s.i with
  | none =>
      rw [scanStep_of_none hf hlen hs]
      exact Nat.lt_succ_self s.i
  | some f =>
      rw [scanStep_of_some hf hlen]
      refine Nat.lt_add_of_pos_right ?_
      cases hk : f.kind with
      | data1 =>
          rw [RawFrame.advance, hk]
          exact Nat.pos_of_ne_zero (noEmpty _ f inv.onPath hf hk)
      | data2 => simp [RawFrame.advance, hk]

/-- Without empty frames `len` iterations are enough. -/
theorem not_scanning_of_noEmptyFrame (hlen : len < 2 ^ 64) (noEmpty : NoEmptyFrame data len)
    {fuel : Nat} (le : len ≤ fuel) : ¬ Scanning len (scanIter data len fuel) := by
  have done := Loop.not_cond_of_measure (I := ScanInv data len) (fun s => len - s.i)
    (fun s hs inv => ⟨inv.step hlen hs, by
      have lt := lt_scanStep hlen inv hs noEmpty
      have hi : s.i < len - 3 := hs
      omega⟩) ScanInv.start
  rwa [scanIter, Loop.iter_stable done le]

/-- An empty frame on the path holds the index for ever. -/
theorem scanning_of_emptyFrame {i : Nat} {f : RawFrame} (hlen : len < 2 ^ 64)
    (path : OnPath data len i) (hf : frameAt data len i = some f) (hk : f.kind = .data1)
    (empty : f.length = 0) (fuel : Nat) : Scanning len (scanIter data len fuel) := by
  obtain ⟨n, hn⟩ := path.reached hlen
  have stay (s : ScanState) (hs : s.i = i) : Scanning len s := by
    rw [Scanning, hs]
    exact lt_of_frameAt hf
  have step (s : ScanState) (hs : s.i = i) : (scanStep data len s).i = i := by
    rw [scanStep_of_some (f := f) (by rwa [hs]) hlen]
    simp [RawFrame.advance, hk, empty, hs]
  by_contra ended
  exact Loop.not_halts_of_trap stay step hn ⟨fuel, ended⟩

/-! ### Buffers whose frames are known -/

/-- Over a stretch without frames only the index moves. -/
theorem iter_walk (hlen : len < 2 ^ 64) {b : Nat} (hb : b ≤ len - 3) {s : ScanState}
    (le : s.i ≤ b) (gap : ∀ j, s.i ≤ j → j < b → frameAt data len j = none) :
    ∃ n, Loop.iter (Scanning len) (scanStep data len) n s = { s with i := b } := by
  induction b, le using Nat.le_induction with
  | base => exact ⟨0, rfl⟩
  | succ b hab ih =>
      obtain ⟨n, hn⟩ := ih (by omega) fun j hj hjb => gap j hj (by omega)
      refine ⟨n + 1, ?_⟩
      have hs : Scanning len { s with i := b } := Nat.lt_of_succ_le hb
      rw [Loop.iter_succ_outer, hn, if_pos hs,
        scanStep_of_none (gap b hab (Nat.lt_succ_self b)) hlen hs]

/-- The count behind the last CSHG frame of a list, `cnt` when there is none. -/
def countAfter (cnt : Nat) (fs : List (Nat × RawFrame)) : Nat :=
  (fs.getLast?.map fun p => p.1 + p.2.length).getD cnt

theorem countAfter_cons (cnt : Nat) (p : Nat × RawFrame) (fs : List (Nat × RawFrame)) :
    countAfter cnt (p :: fs) = countAfter (p.1 + p.2.length) fs := by
  cases fs with
  | nil => rfl
  | cons q fs =>
      rw [countAfter, countAfter, List.getLast?_cons_cons,
        List.getLast?_eq_some_getLast (List.cons_ne_nil q fs)]
      rfl

/-- The frames of a buffer from an index on: CSHG frames with a payload, one
behind the other, and nothing else. -/
structure KnownFrames (data : Mem) (len a : Nat) (fs : List (Nat × RawFrame)) : Prop where
  sorted : fs.Pairwise fun p q => p.1 + p.2.size ≤ q.1
  cshg : ∀ p ∈ fs, p.2.kind = .data1 ∧ 0 < p.2.length
  exact : ∀ i f, a ≤ i → (frameAt data len i = some f ↔ (i, f) ∈ fs)
  start : ∀ p ∈ fs, a ≤ p.1

theorem KnownFrames.tail {a : Nat} {p : Nat × RawFrame} {fs : List (Nat × RawFrame)}
    (known : KnownFrames data len a (p :: fs)) :
    KnownFrames data len (p.1 + p.2.length) fs := by
  have later := (List.pairwise_cons.mp known.sorted).1
  have pos := (known.cshg p List.mem_cons_self).2
  have first := known.start p List.mem_cons_self
  refine ⟨(List.pairwise_cons.mp known.sorted).2,
    fun q hq => known.cshg q (List.mem_cons_of_mem _ hq), fun i f hi => ?_, fun q hq => ?_⟩
  · rw [known.exact i f (by omega), List.mem_cons]
    constructor
    · rintro (rfl | h)
      · simp only at hi pos
        omega
      · exact h
    · exact .inr
  · have := later q hq
    rw [RawFrame.size] at this
    omega

/-- From an index in front of the known frames the scan accepts them all and ends. -/
theorem iter_knownFrames (hlen : len < 2 ^ 64) {fs : List (Nat × RawFrame)} {s : ScanState}
    (known : KnownFrames data len s.i fs) (hi : s.i ≤ len - 3) :
    ∃ n, ¬ Scanning len (Loop.iter (Scanning len) (scanStep data len) n s) ∧
      (Loop.iter (Scanning len) (scanStep data len) n s).accepted = s.accepted ++ fs ∧
      (Loop.iter (Scanning len) (scanStep data len) n s).handleCnt = countAfter s.handleCnt fs := by
  induction fs generalizing s with
  | nil =>
      obtain ⟨n, hn⟩ := iter_walk hlen le_rfl hi fun j hj _ => by
        cases hf : frameAt data len j with
        | none => rfl
        | some f => cases (known.exact j f hj).mp hf
      refine ⟨n, ?_, ?_, ?_⟩
      · rw [hn, Scanning]
        exact Nat.lt_irrefl _
      · rw [hn, List.append_nil]
      · rw [hn, countAfter]
        rfl
  | cons p fs ih =>
      have first := known.start p List.mem_cons_self
      have hf := (known.exact p.1 p.2 first).mpr List.mem_cons_self
      have kind := (known.cshg p List.mem_cons_self).1
      have room := lt_of_frameAt hf
      obtain ⟨n, hn⟩ := iter_walk hlen room.le first fun j hj hjp => by
        cases hg : frameAt data len j with
        | none => rfl
        | some g =>
            rcases List.mem_cons.mp ((known.exact j g hj).mp hg) with rfl | later
            · exact (Nat.lt_irrefl _ hjp).elim
            · have := (List.pairwise_cons.mp known.sorted).1 _ later
              simp only at this
              omega
      have step : scanStep data len { s with i := p.1 } =
          ⟨p.1 + p.2.length, p.1 + p.2.length, s.accepted ++ [p]⟩ := by
        rw [scanStep_of_some (by exact hf) hlen, RawFrame.advance, kind]
      have fits := (frameAt_eq_some.mp hf).2.1
      rw [RawFrame.size, kind, PacketKind.size] at fits
      obtain ⟨m, ended, accepted, count⟩ := ih (s := ⟨p.1 + p.2.length, p.1 + p.2.length,
        s.accepted ++ [p]⟩) known.tail (by simp only; omega)
      have run : Loop.iter (Scanning len) (scanStep data len) (n + (1 + m)) s =
          Loop.iter (Scanning len) (scanStep data len) m
            ⟨p.1 + p.2.length, p.1 + p.2.length, s.accepted ++ [p]⟩ := by
        have hs : Scanning len { s with i := p.1 } := room
        rw [Loop.iter_add, hn, Nat.add_comm 1 m, Loop.iter_succ_of hs, step]
      refine ⟨n + (1 + m), ?_, ?_, ?_⟩
      · rwa [run]
      · rw [run, accepted, List.append_assoc, List.singleton_append]
      · rw [run, count, countAfter_cons]

/-- **A buffer whose frames are known** is scanned completely: the call returns
after at most `len` iterations with these frames and the count behind the last. -/
theorem handleGnssRaw_knownFrames (hlen : len < 2 ^ 64) {fs : List (Nat × RawFrame)}
    (known : KnownFrames data len 0 fs) {fuel : Nat} (le : len ≤ fuel) :
    Returned len (handleGnssRaw fuel data len) ∧
      (handleGnssRaw fuel data len).accepted = fs ∧
      (handleGnssRaw fuel data len).handleCnt = countAfter 0 fs := by
  rcases Nat.lt_or_ge len 11 with short | long
  · have none : fs = [] := by
      cases fs with
      | nil => rfl
      | cons p fs =>
          have := le_of_frameAt ((known.exact p.1 p.2 (Nat.zero_le _)).mpr List.mem_cons_self)
          omega
    subst none
    rw [handleGnssRaw, if_pos (by exact short)]
    exact ⟨.inl short, rfl, rfl⟩
  · have noEmpty : NoEmptyFrame data len := fun i f _ hf _ =>
      (known.cshg _ ((known.exact i f (Nat.zero_le i)).mp hf)).2.ne'
    have done := not_scanning_of_noEmptyFrame hlen noEmpty le
    obtain ⟨n, ended, accepted, count⟩ := iter_knownFrames (s := {}) hlen known (Nat.zero_le _)
    have same : scanIter data len fuel = scanIter data len n := by
      rcases Nat.le_total fuel n with h | h
      · exact (Loop.iter_stable done h).symm
      · exact Loop.iter_stable ended h
    rw [handleGnssRaw_eq long, returned_iff long]
    exact ⟨done, by rw [same]; exact accepted, by rw [same]; exact count⟩

end Ok3506.Gnss
