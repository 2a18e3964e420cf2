import Ok3506.Gnss.ScanPath

/-!
When the scanner makes progress, and what it does with overlapping frames.

A scan ends, with an index that grows at every iteration, exactly when no CSHG
frame on its path has a length field of zero. An accepted CSHG frame is left
after `length` bytes and a `$HEXDATA` frame after one, so what the source calls
the next possible packet position always lies inside the frame just accepted.
-/

namespace Ok3506.Gnss

open Mem

variable {data : Mem} {len : Nat}

/-! ### Progress -/

/-- **The scan ends, with a growing index, exactly when it meets no CSHG frame
with a length field of zero.** -/
theorem handleGnssRaw_progress_iff (data : Mem) (len : Nat) (hlen : len < 2 ^ 64) :
    ((∃ fuel, Returned len (handleGnssRaw fuel data len)) ∧
      ∀ fuel, ¬ Returned len (handleGnssRaw fuel data len) →
        (handleGnssRaw fuel data len).i <
          (scanStep data len (handleGnssRaw fuel data len)).i) ↔
      NoEmptyFrame data len := by
  rcases Nat.lt_or_ge len 11 with short | long
  · have returned (s : ScanState) : Returned len s := .inl short
    refine ⟨fun _ i f _ hf => ?_, fun _ => ⟨⟨0, returned _⟩, fun _ h => (h (returned _)).elim⟩⟩
    have := le_of_frameAt hf
    omega
  · simp only [handleGnssRaw_eq long, returned_iff long, Decidable.not_not]
    constructor
    · rintro ⟨⟨fuel, ended⟩, -⟩ i f path hf hk empty
      exact ended (scanning_of_emptyFrame hlen path hf hk empty fuel)
    · intro noEmpty
      exact ⟨⟨len, not_scanning_of_noEmptyFrame hlen noEmpty le_rfl⟩,
        fun fuel hs => lt_scanStep hlen (scanInv_iter hlen fuel) hs noEmpty⟩

/-- A `$HEXDATA` packet and a CSHG packet are taken with a growing index. -/
theorem handleGnssRaw_progress_packets :
    (frameAt (zeroPadded (hexPacket ++ cshgPacket)) 28 0 = some ⟨.data2, 0, 1⟩ ∧
      frameAt (zeroPadded (hexPacket ++ cshgPacket)) 28 16 = some ⟨.data1, 0, 1⟩) ∧
      (∃ fuel, Returned 28 (handleGnssRaw fuel (zeroPadded (hexPacket ++ cshgPacket)) 28)) ∧
        ∀ fuel, ¬ Returned 28 (handleGnssRaw fuel (zeroPadded (hexPacket ++ cshgPacket)) 28) →
          (handleGnssRaw fuel (zeroPadded (hexPacket ++ cshgPacket)) 28).i <
            (scanStep (zeroPadded (hexPacket ++ cshgPacket)) 28
              (handleGnssRaw fuel (zeroPadded (hexPacket ++ cshgPacket)) 28)).i := by
  have filled : ∀ i < 18, (frameAt (zeroPadded (hexPacket ++ cshgPacket)) 28 i).all
      (fun f => f.length ≠ 0) = true := by decide +kernel
  have noEmpty : NoEmptyFrame (zeroPadded (hexPacket ++ cshgPacket)) 28 := by
    intro i f _ found _
    have room := (frameAt_eq_some.mp found).2.2
    have size := f.kind.size_ge
    have length := filled i (by omega)
    rw [found] at length
    exact of_decide_eq_true length
  exact ⟨⟨by decide +kernel, by decide +kernel⟩,
    (handleGnssRaw_progress_iff _ 28 (by decide)).mpr noEmpty⟩

/-- A CSHG packet with length field 0 and its checksum. -/
def emptyPacket : List UInt8 :=
  [0x43, 0x53, 0x48, 0x47, 0x00, 0x00, 0x00, 0x00, 0x14, 0x3F, 0xAB]

/-- The packet and one byte behind it: the call never returns. -/
theorem handleGnssRaw_emptyPacket :
    ¬ ∃ fuel, Returned 12 (handleGnssRaw fuel (zeroPadded emptyPacket) 12) := by
  have found : frameAt (zeroPadded emptyPacket) 12 0 = some ⟨.data1, 0, 0⟩ := by decide +kernel
  rintro ⟨fuel, h⟩
  rw [handleGnssRaw_eq (by omega), returned_iff (by omega)] at h
  exact h (scanning_of_emptyFrame (by omega) .start found rfl rfl fuel)

/-! ### Overlap -/

/-- The byte ranges of two accepted frames have no byte in common. -/
def Apart (p q : Nat × RawFrame) : Prop := p.1 + p.2.size ≤ q.1 ∨ q.1 + q.2.size ≤ p.1

instance (p q : Nat × RawFrame) : Decidable (Apart p q) := inferInstanceAs (Decidable (_ ∨ _))

/-- The end of the last accepted CSHG frame, 0 when there is none. -/
def lastData1End (accepted : List (Nat × RawFrame)) : Nat :=
  ((accepted.filter fun p => p.2.kind = .data1).getLast?.map fun p => p.1 + p.2.size).getD 0

/-- Frames are taken one behind the other: accepted ranges are disjoint, the
index goes on at the first byte behind an accepted frame, and the returned count
is the end of the last CSHG frame. -/
structure FramesApart (data : Mem) (len : Nat) : Prop where
  disjoint : ∀ fuel, (handleGnssRaw fuel data len).accepted.Pairwise Apart
  resumes : ∀ fuel f, ¬ Returned len (handleGnssRaw fuel data len) →
    frameAt data len (handleGnssRaw fuel data len).i = some f →
    (scanStep data len (handleGnssRaw fuel data len)).i = (handleGnssRaw fuel data len).i + f.size
  count : ∀ fuel, Returned len (handleGnssRaw fuel data len) →
    (handleGnssRaw fuel data len).handleCnt = lastData1End (handleGnssRaw fuel data len).accepted

/-- The first frame of a buffer is on the path. -/
theorem exists_onPath_of_frameAt {i : Nat} {f : RawFrame} (h : frameAt data len i = some f) :
    ∃ j g, OnPath data len j ∧ frameAt data len j = some g := by
  induction i using Nat.strong_induction_on generalizing f with
  | _ i ih =>
      by_cases earlier : ∃ j g, j < i ∧ frameAt data len j = some g
      · obtain ⟨j, g, hj, hg⟩ := earlier
        exact ih j hj hg
      · refine ⟨i, f, OnPath.start.walk (Nat.zero_le i) (lt_of_frameAt h).le ?_, h⟩
        intro j g _ hj hg
        exact (earlier ⟨j, g, hj, hg⟩).elim

/-- Where there is no frame nothing is accepted and the count stays 0. -/
theorem handleGnssRaw_of_noFrame (hlen : len < 2 ^ 64) (none : ∀ i, frameAt data len i = none)
    (fuel : Nat) :
    (handleGnssRaw fuel data len).accepted = [] ∧ (handleGnssRaw fuel data len).handleCnt = 0 := by
  rw [handleGnssRaw]
  split
  · exact ⟨rfl, rfl⟩
  · refine Loop.iter_invariant (I := fun s : ScanState => s.accepted = [] ∧ s.handleCnt = 0)
      (fun s hs inv => ?_) fuel ⟨rfl, rfl⟩
    rw [scanStep_of_none (none s.i) hlen hs]
    exact inv

/-- **Frames are taken one behind the other only where there are none**: the
scan goes on inside every frame it accepts. -/
theorem framesApart_iff (data : Mem) (len : Nat) (hlen : len < 2 ^ 64) :
    FramesApart data len ↔ ∀ i, frameAt data len i = none := by
  constructor
  · intro apart i
    by_contra some
    obtain ⟨f, hf⟩ := Option.ne_none_iff_exists'.mp some
    obtain ⟨j, g, path, hg⟩ := exists_onPath_of_frameAt hf
    obtain ⟨n, hn⟩ := path.reached hlen
    have long : 11 ≤ len := by
      have := le_of_frameAt hg
      omega
    have next := apart.resumes n g
    rw [handleGnssRaw_eq long, returned_iff long, hn] at next
    have scanning : Scanning len (scanIter data len n) := by
      rw [Scanning, hn]
      exact lt_of_frameAt hg
    have moved := next (fun h => h scanning) hg
    rw [scanStep_of_some (by rwa [hn]) hlen, hn] at moved
    have := g.advance_lt_size
    simp only at moved
    omega
  · intro none
    have nothing := handleGnssRaw_of_noFrame hlen none
    refine ⟨fun fuel => ?_, fun fuel f _ hf => ?_, fun fuel _ => ?_⟩
    · rw [(nothing fuel).1]
      exact .nil
    · rw [none] at hf
      cases hf
    · rw [(nothing fuel).1, (nothing fuel).2]
      rfl

/-- A single CSHG packet is left inside. -/
theorem not_framesApart_cshgPacket :
    frameAt (zeroPadded cshgPacket) 12 0 = some ⟨.data1, 0, 1⟩ ∧
      ¬ FramesApart (zeroPadded cshgPacket) 12 := by
  have found : frameAt (zeroPadded cshgPacket) 12 0 = some ⟨.data1, 0, 1⟩ := by decide +kernel
  refine ⟨found, fun apart => ?_⟩
  have none := (framesApart_iff _ 12 (by decide)).mp apart 0
  rw [found] at none
  cases none

/-- A `$HEXDATA` packet whose payload is a CSHG packet. -/
def nestedPacket : List UInt8 :=
  [0x24, 0x48, 0x45, 0x58, 0x44, 0x41, 0x54, 0x41, 0x00, 0x00, 0x0C, 0x00,
   0x43, 0x53, 0x48, 0x47, 0x00, 0x00, 0x01, 0x00, 0x00, 0xEA, 0x0A, 0xBF,
   0x9C, 0x19, 0x14]

/-- Both packets are accepted, one inside the other, and the count points inside
the outer one. -/
theorem not_framesApart_nestedPacket : ¬ FramesApart (zeroPadded nestedPacket) 27 := by
  intro apart
  have disjoint := apart.disjoint 27
  revert disjoint
  decide +kernel

end Ok3506.Gnss
