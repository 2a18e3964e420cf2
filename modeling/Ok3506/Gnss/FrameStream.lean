import Ok3506.Gnss.RawStream

/-!
Byte streams made of CSHG frames and other bytes, and how the buffer delivers
them.

A `FrameStream` lists its frames with the bytes in front of each; those bytes
hold no header. `frames` is where the frames lie. When no further valid frame
begins inside one of them, they are the only places where `frameAt` finds
anything, in the stream and in every buffer that holds a part of it.
-/

namespace Ok3506.Gnss

open Mem Bits

/-! ### Streams -/

/-- The bytes of a header in memory order. -/
def headerBytes : PacketKind → List UInt8
  | .data1 => [0x43, 0x53, 0x48, 0x47]
  | .data2 => [0x24, 0x48, 0x45, 0x58, 0x44, 0x41, 0x54, 0x41]

/-- The bytes of one CRC-valid CSHG frame with a payload, at most 1024 in all. -/
structure CshgFrame where
  bytes : List UInt8
  frame : RawFrame
  kind : frame.kind = .data1
  size : bytes.length = frame.size
  valid : FrameValid (ofList bytes fun _ => 0) 0 frame
  nonempty : 0 < frame.length
  small : frame.size ≤ 1024

/-- The other bytes in front of a frame, and the frame. -/
abbrev Segment := List UInt8 × CshgFrame

/-- The bytes of a list of segments. -/
def segmentBytes : List Segment → List UInt8
  | [] => []
  | (gap, f) :: segs => gap ++ (f.bytes ++ segmentBytes segs)

/-- The frames of a list of segments that begins at `off`, with their positions. -/
def framesFrom : Nat → List Segment → List (Nat × RawFrame)
  | _, [] => []
  | off, (gap, f) :: segs =>
      (off + gap.length, f.frame) :: framesFrom (off + gap.length + f.frame.size) segs

/-- Frames interleaved with other bytes that contain no header of either kind. -/
structure FrameStream where
  segments : List Segment
  tail : List UInt8
  clean : ∀ gap ∈ segments.map Prod.fst ++ [tail], ∀ k, ¬ headerBytes k <:+: gap

namespace FrameStream

variable (S : FrameStream)

def bytes : List UInt8 := segmentBytes S.segments ++ S.tail

def frames : List (Nat × RawFrame) := framesFrom 0 S.segments

/-- The stretches of other bytes. -/
def gaps : List (List UInt8) := S.segments.map Prod.fst ++ [S.tail]

def mem : Mem := ofList S.bytes fun _ => 0

/-- No CRC-valid frame of either kind begins strictly inside a frame. -/
def NoFrameInside : Prop :=
  ∀ p ∈ S.frames, ∀ i, p.1 < i → i < p.1 + p.2.size → frameAt S.mem S.bytes.length i = none

end FrameStream

/-! ### Where the frames lie -/

theorem framesFrom_ge {off : Nat} {segs : List Segment} :
    ∀ p ∈ framesFrom off segs, off ≤ p.1 := by
  induction segs generalizing off with
  | nil => intro p hp; cases hp
  | cons seg segs ih =>
      intro p hp
      rcases List.mem_cons.mp hp with rfl | hp
      · exact Nat.le_add_right _ _
      · have := ih p hp
        omega

/-- Frames lie one behind the other. -/
theorem framesFrom_sorted (off : Nat) (segs : List Segment) :
    (framesFrom off segs).Pairwise fun p q => p.1 + p.2.size ≤ q.1 := by
  induction segs generalizing off with
  | nil => exact .nil
  | cons seg segs ih => exact List.pairwise_cons.mpr ⟨fun p hp => framesFrom_ge p hp, ih _⟩

theorem framesFrom_spec {off : Nat} {segs : List Segment} :
    ∀ p ∈ framesFrom off segs, p.2.kind = .data1 ∧ 0 < p.2.length ∧ p.2.size ≤ 1024 ∧
      p.1 + p.2.size ≤ off + (segmentBytes segs).length := by
  induction segs generalizing off with
  | nil => intro p hp; cases hp
  | cons seg segs ih =>
      obtain ⟨gap, f⟩ := seg
      intro p hp
      simp only [segmentBytes, List.length_append, f.size]
      rcases List.mem_cons.mp hp with rfl | hp
      · exact ⟨f.kind, f.nonempty, f.small, by simp only; omega⟩
      · obtain ⟨kind, nonempty, small, le⟩ := ih p hp
        exact ⟨kind, nonempty, small, by omega⟩

/-- A memory that carries a byte list at an offset carries the frames in it. -/
theorem FrameValid.of_append {a b c : List UInt8} {f : RawFrame} (size : b.length = f.size)
    (valid : FrameValid (ofList b fun _ => 0) 0 f) :
    FrameValid (ofList (a ++ (b ++ c)) fun _ => 0) a.length f := by
  refine valid.congr ?_
  intro k hk
  rw [ofList_apply_lt _ (by omega), ofList_apply_lt _ (by simp only [List.length_append]; omega)]
  simp only [Nat.zero_add]
  rw [List.getElem_append_right (Nat.le_add_right _ _), List.getElem_append_left (by omega)]
  simp

theorem framesFrom_valid (pre rest : List UInt8) {segs : List Segment} :
    ∀ p ∈ framesFrom pre.length segs,
      FrameValid (ofList (pre ++ (segmentBytes segs ++ rest)) fun _ => 0) p.1 p.2 := by
  induction segs generalizing pre with
  | nil => intro p hp; cases hp
  | cons seg segs ih =>
      obtain ⟨gap, f⟩ := seg
      intro p hp
      rcases List.mem_cons.mp hp with rfl | hp
      · have here := FrameValid.of_append (a := pre ++ gap) (c := segmentBytes segs ++ rest)
          f.size f.valid
        simpa [segmentBytes] using here
      · have later := ih (pre ++ gap ++ f.bytes) p (by simpa [f.size, Nat.add_assoc] using hp)
        simpa [segmentBytes] using later

/-! ### There are no other frames -/

/-- A matching header is its bytes. -/
theorem headerBytes_of_hasHeader {packet : Mem} {k : PacketKind} (h : k.HasHeader packet) :
    packet.bytes 0 (headerBytes k).length = headerBytes k := by
  have byte (j v : Nat) (hv : v < 256) (e : (packet j).toNat = v) : packet j = UInt8.ofNat v := by
    rw [← e, UInt8.ofNat_toNat]
  have lt (j : Nat) := (packet j).toNat_lt
  have h0 := lt 0
  have h1 := lt 1
  have h2 := lt 2
  have h3 := lt 3
  cases k with
  | data1 =>
      simp only [PacketKind.HasHeader, load32, load16, header1, Nat.reduceAdd] at h
      have e0 := byte 0 0x43 (by omega) (by omega)
      have e1 := byte 1 0x53 (by omega) (by omega)
      have e2 := byte 2 0x48 (by omega) (by omega)
      have e3 := byte 3 0x47 (by omega) (by omega)
      simp [bytes, headerBytes, List.range_succ, e0, e1, e2, e3]
  | data2 =>
      have h4 := lt 4
      have h5 := lt 5
      have h6 := lt 6
      have h7 := lt 7
      simp only [PacketKind.HasHeader, load64, load32, load16, header2, Nat.reduceAdd] at h
      have e0 := byte 0 0x24 (by omega) (by omega)
      have e1 := byte 1 0x48 (by omega) (by omega)
      have e2 := byte 2 0x45 (by omega) (by omega)
      have e3 := byte 3 0x58 (by omega) (by omega)
      have e4 := byte 4 0x44 (by omega) (by omega)
      have e5 := byte 5 0x41 (by omega) (by omega)
      have e6 := byte 6 0x54 (by omega) (by omega)
      have e7 := byte 7 0x41 (by omega) (by omega)
      simp [bytes, headerBytes, List.range_succ, e0, e1, e2, e3, e4, e5, e6, e7]

/-- `C` occurs in a header only as the first byte of `CSHG`. -/
theorem headerBytes_ne (k : PacketKind) {j : Nat} (pos : 0 < j) (lt : j < (headerBytes k).length) :
    (headerBytes k)[j] ≠ 0x43 := by
  cases k with
  | data1 =>
      simp only [headerBytes, List.length_cons, List.length_nil] at lt
      interval_cases j <;> simp [headerBytes]
  | data2 =>
      simp only [headerBytes, List.length_cons, List.length_nil] at lt
      interval_cases j <;> simp [headerBytes]

theorem headerBytes_length_le (k : PacketKind) : (headerBytes k).length ≤ k.size := by
  cases k <;> decide

/-- The first byte of a frame. -/
theorem CshgFrame.head (f : CshgFrame) : ∃ rest, f.bytes = 0x43 :: rest := by
  have first := f.valid.header
  rw [f.kind] at first
  have bytes := headerBytes_of_hasHeader first
  have pos : 0 < f.bytes.length := by
    have := f.nonempty
    rw [f.size, RawFrame.size]
    omega
  cases hb : f.bytes with
  | nil => simp [hb] at pos
  | cons b rest =>
      rw [hb] at bytes
      simp only [headerBytes, List.length_cons, Mem.bytes, List.range_succ_eq_map, List.map_cons,
        List.cons.injEq] at bytes
      have eq : b = 0x43 := bytes.1
      exact ⟨rest, by rw [eq]⟩

/-- An offset of the stream lies in a frame, or in a stretch of other bytes with
nothing or the first byte of a frame behind it. -/
theorem locate (pre tail : List UInt8) (segs : List Segment) {i : Nat} (ge : pre.length ≤ i)
    (lt : i < (pre ++ (segmentBytes segs ++ tail)).length) :
    (∃ p ∈ framesFrom pre.length segs, p.1 ≤ i ∧ i < p.1 + p.2.size) ∨
      ∃ a gap b, pre ++ (segmentBytes segs ++ tail) = a ++ (gap ++ b) ∧ a.length ≤ i ∧
        i < a.length + gap.length ∧ gap ∈ segs.map Prod.fst ++ [tail] ∧
        ∀ c rest, b = c :: rest → c = 0x43 := by
  induction segs generalizing pre with
  | nil =>
      refine .inr ⟨pre, tail, [], by simp [segmentBytes], ge, ?_, by simp, by simp⟩
      simpa [segmentBytes] using lt
  | cons seg segs ih =>
      obtain ⟨gap, f⟩ := seg
      rcases Nat.lt_or_ge i (pre.length + gap.length) with inGap | behind
      · obtain ⟨rest, first⟩ := f.head
        refine .inr ⟨pre, gap, f.bytes ++ (segmentBytes segs ++ tail), by simp [segmentBytes], ge,
          inGap, by simp, fun c rest' h => ?_⟩
        rw [first, List.cons_append, List.cons.injEq] at h
        exact h.1.symm
      · rcases Nat.lt_or_ge i (pre.length + gap.length + f.frame.size) with inside | past
        · exact .inl ⟨_, List.mem_cons_self, behind, inside⟩
        · have whole : pre ++ (segmentBytes ((gap, f) :: segs) ++ tail) =
              (pre ++ gap ++ f.bytes) ++ (segmentBytes segs ++ tail) := by
            simp [segmentBytes]
          have len : (pre ++ gap ++ f.bytes).length = pre.length + gap.length + f.frame.size := by
            simp [f.size, Nat.add_assoc]
          rw [whole] at lt ⊢
          rcases ih (pre ++ gap ++ f.bytes) (by omega) lt with ⟨p, hp, hi⟩ | ⟨a, g, b, h⟩
          · exact .inl ⟨p, List.mem_cons_of_mem _ (by rwa [len] at hp), hi⟩
          · refine .inr ⟨a, g, b, h.1, h.2.1, h.2.2.1, ?_, h.2.2.2.2⟩
            exact List.mem_cons_of_mem _ h.2.2.2.1

namespace FrameStream

variable {S : FrameStream}

theorem frames_spec {p : Nat × RawFrame} (hp : p ∈ S.frames) :
    p.2.kind = .data1 ∧ 0 < p.2.length ∧ p.2.size ≤ 1024 ∧ p.1 + p.2.size ≤ S.bytes.length := by
  obtain ⟨kind, nonempty, small, le⟩ := framesFrom_spec p hp
  exact ⟨kind, nonempty, small, by rw [bytes, List.length_append]; omega⟩

theorem frames_valid {p : Nat × RawFrame} (hp : p ∈ S.frames) : FrameValid S.mem p.1 p.2 :=
  framesFrom_valid [] S.tail p hp

theorem frames_sorted : S.frames.Pairwise fun p q => p.1 + p.2.size ≤ q.1 :=
  framesFrom_sorted 0 S.segments

/-- No header begins in a stretch of other bytes. -/
theorem not_hasHeader_of_gap {a gap b : List UInt8} {i : Nat} {k : PacketKind}
    (clean : ¬ headerBytes k <:+: gap) (ge : a.length ≤ i) (lt : i < a.length + gap.length)
    (next : ∀ c rest, b = c :: rest → c = 0x43)
    (room : i + (headerBytes k).length ≤ (a ++ (gap ++ b)).length) :
    ¬ k.HasHeader ((ofList (a ++ (gap ++ b)) fun _ => 0).shift i) := by
  intro header
  have bytes := headerBytes_of_hasHeader header
  rw [bytes_shift, Nat.add_zero] at bytes
  rw [List.length_append, List.length_append] at room
  obtain ⟨d, rfl⟩ := Nat.exists_eq_add_of_le ge
  rcases Nat.lt_or_ge (gap.length) (d + (headerBytes k).length) with crosses | inside
  · -- the header runs into the bytes behind the stretch
    have hb : 0 < b.length := by omega
    obtain ⟨c, rest, rfl⟩ := List.exists_cons_of_length_pos hb
    have first := next c rest rfl
    have hj : gap.length - d < (headerBytes k).length := by omega
    refine headerBytes_ne k (by omega) hj ?_
    have here := bytes_eq_iff.mp bytes (gap.length - d) hj
    rw [← here, show a.length + d + (gap.length - d) = a.length + gap.length by omega,
      ofList_apply_lt _ (by simp), List.getElem_append_right (by omega),
      List.getElem_append_right (by omega)]
    simpa using first
  · -- the header lies in the stretch
    refine clean ⟨gap.take d, gap.drop (d + (headerBytes k).length), ?_⟩
    have middle : (gap.drop d).take (headerBytes k).length = headerBytes k := by
      apply List.ext_getElem (by simp; omega)
      intro j hj hj'
      have here := bytes_eq_iff.mp bytes j hj'
      rw [← here, List.getElem_take, List.getElem_drop, ofList_apply_lt _ (by simp; omega),
        List.getElem_append_right (by omega), List.getElem_append_left (by omega)]
      simp only [Nat.add_assoc, Nat.add_sub_cancel_left]
    have rest := List.take_append_drop (headerBytes k).length (gap.drop d)
    rw [middle] at rest
    rw [List.append_assoc, ← List.drop_drop, rest, List.take_append_drop]

/-- **The stream holds no other frames.** -/
theorem mem_frames (inside : S.NoFrameInside) {i : Nat} {f : RawFrame}
    (h : frameAt S.mem S.bytes.length i = some f) : (i, f) ∈ S.frames := by
  obtain ⟨valid, fits, room⟩ := frameAt_eq_some.mp h
  have size := headerBytes_length_le f.kind
  have lt : i < S.bytes.length := by omega
  rcases locate [] S.tail S.segments (Nat.zero_le i) lt with
    ⟨p, hp, le, lt⟩ | ⟨a, gap, b, split, le, lt, mem, next⟩
  · rcases Nat.lt_or_eq_of_le le with strict | rfl
    · rw [inside p hp i strict lt] at h
      cases h
    · rw [valid.unique (frames_valid hp)]
      exact hp
  · have whole : S.bytes = a ++ (gap ++ b) := split
    have header := valid.header
    rw [FrameStream.mem, whole] at header
    rw [whole] at room
    exact (not_hasHeader_of_gap (S.clean gap mem f.kind) le lt next (by omega) header).elim

end FrameStream

end Ok3506.Gnss
