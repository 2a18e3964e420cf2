import Ok3506.Gnss.Delivery

/-!
Frames and the bytes that the buffer drops.

A call drops the whole buffer when it finds it full, and the end of a chunk that does not fit.
A frame survives when none of its bytes is dropped before the last of them has been read.
Dropped bytes bring others together that are apart in the stream; where no call finds a frame
across such a place, the scanner accepts exactly the frames that survive, once each and in
order.
-/

namespace Ok3506.Gnss

open Mem Bits

/-! ### What is dropped -/

/-- The stream positions that a call drops: those of a full buffer, and of the bytes behind the
free room. -/
def Traced.drops (s : Traced) (buf : List UInt8) : List Nat :=
  (if s.raw.dataRawLen = sizeofDataRaw then s.origin else []) ++
    (s.kept ++ List.range' s.fed buf.length).drop sizeofDataRaw

/-- One call, with the positions it drops; each stands with the number of bytes that were read
before. -/
def dropStep (fuel : Nat) (s : Traced) (buf : List UInt8) : Traced × List (Nat × Nat) :=
  ((trace fuel s buf).1, (s.drops buf).map fun o => (s.fed, o))

@[simp] theorem dropStep_snd (fuel : Nat) (s : Traced) (buf : List UInt8) :
    (dropStep fuel s buf).2 = (s.drops buf).map fun o => (s.fed, o) := rfl

/-- The positions dropped along a sequence of chunks. -/
def dropped (fuel : Nat) (chunks : List (List UInt8)) : List (Nat × Nat) :=
  (Machine.outputs (dropStep fuel) {} chunks).flatten

/-- No byte of the frame was dropped before the frame had been read. -/
def Survives (drops : List (Nat × Nat)) (p : Nat × RawFrame) : Prop :=
  ∀ d ∈ drops, d.1 < p.1 + p.2.size → d.2 < p.1 ∨ p.1 + p.2.size ≤ d.2

instance (drops : List (Nat × Nat)) : DecidablePred (Survives drops) := fun p =>
  inferInstanceAs (Decidable (∀ d ∈ drops, d.1 < p.1 + p.2.size → d.2 < p.1 ∨ p.1 + p.2.size ≤ d.2))

/-- A call finds frames only where the stream has all their bytes one behind the other. -/
def Unspliced (s : Traced) (buf : List UInt8) : Prop :=
  ∀ i f, frameAt (scanned s.raw buf).dataRaw (scanned s.raw buf).dataRawLen i = some f →
    ∀ j < f.size, (s.held buf).getD (i + j) 0 = (s.held buf).getD i 0 + j

/-- So does every call that is made along a sequence of chunks. -/
def UnsplicedRun (fuel : Nat) (chunks : List (List UInt8)) : Prop :=
  ∀ pre c post, chunks = pre ++ c :: post →
    (Machine.final (trace fuel) {} pre).raw.hung = false →
      Unspliced (Machine.final (trace fuel) {} pre) c

/-! ### Increasing positions -/

section Positions

variable {held : List Nat}

theorem lt_of_getElem_lt (sorted : held.Pairwise (· < ·)) {i j : Nat} (hi : i < held.length)
    (hj : j < held.length) (lt : held[i] < held[j]) : i < j := by
  by_contra ge
  rcases Nat.lt_or_eq_of_le (Nat.not_lt.mp ge) with before | rfl
  · have := List.pairwise_iff_getElem.mp sorted j i hj hi before
    omega
  · exact Nat.lt_irrefl _ lt

theorem idxOf_lt_idxOf (sorted : held.Pairwise (· < ·)) {a b : Nat} (ha : a ∈ held)
    (hb : b ∈ held) (lt : a < b) : held.idxOf a < held.idxOf b := by
  refine lt_of_getElem_lt sorted (List.idxOf_lt_length_of_mem ha)
    (List.idxOf_lt_length_of_mem hb) ?_
  rwa [List.getElem_idxOf, List.getElem_idxOf]

/-- Consecutive positions stand one behind the other. -/
theorem idxOf_add (sorted : held.Pairwise (· < ·)) {a k : Nat} (all : ∀ j < k, a + j ∈ held)
    {j : Nat} (hj : j < k) : held.idxOf (a + j) = held.idxOf a + j := by
  induction j with
  | zero => rfl
  | succ j ih =>
      have before := ih (by omega)
      have here := all j (by omega)
      have next := all (j + 1) hj
      have step := idxOf_lt_idxOf sorted here next (by omega)
      -- nothing stands between two consecutive positions
      have tight : held.idxOf (a + (j + 1)) ≤ held.idxOf (a + j) + 1 := by
        by_contra gap
        have last := List.idxOf_lt_length_of_mem next
        have low := List.pairwise_iff_getElem.mp sorted (held.idxOf (a + j))
          (held.idxOf (a + j) + 1) (by omega) (by omega) (by omega)
        have high := List.pairwise_iff_getElem.mp sorted (held.idxOf (a + j) + 1)
          (held.idxOf (a + (j + 1))) (by omega) last (by omega)
        rw [List.getElem_idxOf] at low high
        omega
      omega

theorem getElem_idxOf_add (sorted : held.Pairwise (· < ·)) {a k : Nat}
    (all : ∀ j < k, a + j ∈ held) {j : Nat} (hj : j < k)
    (lt : held.idxOf a + j < held.length) : held[held.idxOf a + j] = a + j := by
  have eq := idxOf_add sorted all hj
  have found := List.getElem_idxOf (List.idxOf_lt_length_of_mem (all j hj))
  simp only [eq] at found
  exact found

end Positions

/-! ### One call -/

section Call

variable {stream : List UInt8} {s : Traced} {c : List UInt8}

/-- The positions that a call can hold or drop lie one behind the other. -/
theorem TraceInv.positions_sorted (inv : TraceInv stream s) (run : s.raw.hung = false)
    (buf : List UInt8) : (s.kept ++ List.range' s.fed buf.length).Pairwise (· < ·) := by
  obtain ⟨-, origins⟩ := inv.kept
  refine List.pairwise_append.mpr ⟨origins.sorted, List.pairwise_lt_range', fun o ho q hq => ?_⟩
  have old := origins.below o ho
  have new := (List.mem_range'_1.mp hq).1
  rw [inv.fed run] at new
  omega

theorem TraceInv.not_dropped (inv : TraceInv stream s) (run : s.raw.hung = false) {o : Nat}
    (mem : o ∈ s.held c) : o ∉ s.drops c := by
  have nodup : (s.kept ++ List.range' s.fed c.length).Nodup :=
    (inv.positions_sorted run c).imp Nat.ne_of_lt
  intro gone
  rcases List.mem_append.mp gone with reset | clamped
  · split at reset
    · rename_i full
      rw [Traced.held, Traced.kept, if_pos full, List.nil_append] at mem
      have new := (List.mem_range'_1.mp (List.mem_of_mem_take mem)).1
      have old := inv.origins.below o reset
      rw [inv.fed run] at new
      omega
    · cases reset
  · exact List.disjoint_take_drop nodup le_rfl mem clamped

theorem TraceInv.drops_lt (inv : TraceInv stream s) (run : s.raw.hung = false) {o : Nat}
    (gone : o ∈ s.drops c) : o < s.fed + c.length := by
  have fed := inv.fed run
  rcases List.mem_append.mp gone with reset | clamped
  · split at reset
    · have := inv.origins.below o reset
      omega
    · cases reset
  · rcases List.mem_append.mp (List.mem_of_mem_drop clamped) with old | new
    · have := inv.kept.2.below o old
      omega
    · exact (List.mem_range'_1.mp new).2

/-- What was in the buffer and what is new is held or dropped. -/
theorem mem_held_or_drops {o : Nat} (h : o ∈ s.origin ∨ s.fed ≤ o ∧ o < s.fed + c.length) :
    o ∈ s.held c ∨ o ∈ s.drops c := by
  have cover (mem : o ∈ s.kept ++ List.range' s.fed c.length) : o ∈ s.held c ∨ o ∈ s.drops c := by
    rw [← List.take_append_drop sizeofDataRaw (s.kept ++ List.range' s.fed c.length)] at mem
    rcases List.mem_append.mp mem with mem | mem
    · exact .inl mem
    · exact .inr (List.mem_append_right _ mem)
  rcases h with old | new
  · by_cases full : s.raw.dataRawLen = sizeofDataRaw
    · refine .inr (List.mem_append_left _ ?_)
      rwa [if_pos full]
    · refine cover (List.mem_append_left _ ?_)
      rwa [Traced.kept, if_neg full]
  · exact cover (List.mem_append_right _ (List.mem_range'_1.mpr new))

theorem origin_or_new_of_mem_held {o : Nat} (mem : o ∈ s.held c) :
    o ∈ s.origin ∨ s.fed ≤ o ∧ o < s.fed + c.length := by
  rcases List.mem_append.mp (List.mem_of_mem_take mem) with old | new
  · rw [Traced.kept] at old
    split at old
    · cases old
    · exact .inl old
  · exact .inr (List.mem_range'_1.mp new)

end Call

/-! ### Between two calls -/

/-- After the bytes `stream`: the frames accepted so far are those that are complete and
survived, and of the bytes behind them the buffer lacks only what was dropped. -/
structure Surviving (S : FrameStream) (s : Traced) (stream : List UInt8)
    (drops : List (Nat × Nat)) (done : List (Nat × RawFrame)) : Prop where
  run : s.raw.hung = false
  inv : TraceInv stream s
  accepted : done = S.frames.filter fun p => p.1 + p.2.size ≤ stream.length ∧ Survives drops p
  behind : ∀ o ∈ s.origin, countAfter 0 done ≤ o
  gone : ∀ d ∈ drops, d.1 ≤ stream.length ∧ d.2 < stream.length ∧ d.2 ∉ s.origin
  present : ∀ o < stream.length, countAfter 0 done ≤ o →
    o ∈ s.origin ∨ ∃ d ∈ drops, d.2 = o

theorem Surviving.start (S : FrameStream) : Surviving S {} [] [] [] := by
  refine ⟨rfl, .start, ?_, by simp, by simp, by simp⟩
  refine (List.filter_eq_nil_iff.mpr fun p hp => ?_).symm
  have := (S.frames_spec hp).2.1
  simp only [decide_eq_true_eq, not_and, List.length_nil]
  rw [RawFrame.size]
  omega

/-- Of two frames one ends before the other begins. -/
theorem FrameStream.frames_apart {S : FrameStream} {p q : Nat × RawFrame} (hp : p ∈ S.frames)
    (hq : q ∈ S.frames) : p = q ∨ p.1 + p.2.size ≤ q.1 ∨ q.1 + q.2.size ≤ p.1 := by
  obtain ⟨i, hi, rfl⟩ := List.getElem_of_mem hp
  obtain ⟨j, hj, rfl⟩ := List.getElem_of_mem hq
  have order := List.pairwise_iff_getElem.mp S.frames_sorted
  rcases Nat.lt_trichotomy i j with lt | rfl | gt
  · exact .inr (.inl (order i j hi hj lt))
  · exact .inl rfl
  · exact .inr (.inr (order j i hj hi gt))

/-- All bytes of the frame are in the buffer of the call. -/
def InHeld (s : Traced) (c : List UInt8) (p : Nat × RawFrame) : Prop :=
  ∀ j < p.2.size, p.1 + j ∈ s.held c

instance (s : Traced) (c : List UInt8) : DecidablePred (InHeld s c) := fun p =>
  inferInstanceAs (Decidable (∀ j < p.2.size, p.1 + j ∈ s.held c))

section Step

variable {S : FrameStream} {s : Traced} {stream c : List UInt8} {drops : List (Nat × Nat)}
  {done : List (Nat × RawFrame)}

theorem Surviving.mem_done (h : Surviving S s stream drops done) {p : Nat × RawFrame} :
    p ∈ done ↔ p ∈ S.frames ∧ p.1 + p.2.size ≤ stream.length ∧ Survives drops p := by
  rw [h.accepted, List.mem_filter, decide_eq_true_eq]

theorem Surviving.done_sorted (h : Surviving S s stream drops done) :
    done.Pairwise fun p q => p.1 + p.2.size ≤ q.1 := by
  rw [h.accepted]
  exact S.frames_sorted.filter _

theorem Surviving.count_le (h : Surviving S s stream drops done) :
    countAfter 0 done ≤ stream.length := by
  refine countAfter_le (Nat.zero_le _) fun q hq => ?_
  have complete := (h.mem_done.mp hq).2.1
  rw [RawFrame.size] at complete
  omega

/-- A frame that is not complete begins behind the count. -/
theorem Surviving.count_le_pending (h : Surviving S s stream drops done) {p : Nat × RawFrame}
    (hp : p ∈ S.frames) (pending : stream.length < p.1 + p.2.size) : countAfter 0 done ≤ p.1 := by
  refine countAfter_le (Nat.zero_le _) fun q hq => ?_
  obtain ⟨mem, complete, -⟩ := h.mem_done.mp hq
  have size : q.2.length ≤ q.2.size := Nat.le_add_left _ _
  rcases S.frames_apart hp mem with rfl | before | behind
  · omega
  · have : 0 < p.2.size := by omega
    omega
  · omega

/-- What the call drops is dropped after `stream`. -/
theorem Surviving.survives_append (h : Surviving S s stream drops done) {p : Nat × RawFrame} :
    Survives (drops ++ (s.drops c).map fun o => (s.fed, o)) p ↔ Survives drops p ∧
      (stream.length < p.1 + p.2.size → ∀ o ∈ s.drops c, o < p.1 ∨ p.1 + p.2.size ≤ o) := by
  rw [Survives, List.forall_mem_append, ← Survives, List.forall_mem_map, h.inv.fed h.run]
  refine and_congr_right fun _ => ?_
  constructor
  · intro apart late o gone
    exact apart o gone late
  · intro apart o gone late
    exact apart late o gone

/-- A byte behind the accepted frames that has been read is in the buffer of the call, or was
dropped before its end. -/
theorem Surviving.held_or_dropped (h : Surviving S s stream drops done) {o : Nat}
    (read : o < (stream ++ c).length) (behind : countAfter 0 done ≤ o) :
    o ∈ s.held c ∨ ∃ d ∈ drops ++ (s.drops c).map (fun o => (s.fed, o)),
      d.1 ≤ stream.length ∧ d.2 = o := by
  have fed := h.inv.fed h.run
  rw [List.length_append] at read
  have there : (o ∈ s.origin ∨ s.fed ≤ o ∧ o < s.fed + c.length) ∨ ∃ d ∈ drops, d.2 = o := by
    rcases Nat.lt_or_ge o stream.length with old | new
    · rcases h.present o old behind with kept | gone
      · exact .inl (.inl kept)
      · exact .inr gone
    · exact .inl (.inr (by omega))
  rcases there with there | ⟨d, hd, same⟩
  · rcases mem_held_or_drops there with held | gone
    · exact .inl held
    · exact .inr ⟨(s.fed, o), List.mem_append_right _ (List.mem_map.mpr ⟨o, gone, rfl⟩),
        fed.le, rfl⟩
  · exact .inr ⟨d, List.mem_append_left _ hd, (h.gone d hd).1, same⟩

/-- A frame has all its bytes in the buffer exactly when the chunk completes it and it
survives. -/
theorem Surviving.inHeld_iff (h : Surviving S s stream drops done) {p : Nat × RawFrame}
    (hp : p ∈ S.frames) :
    InHeld s c p ↔ stream.length < p.1 + p.2.size ∧ p.1 + p.2.size ≤ stream.length + c.length ∧
      Survives (drops ++ (s.drops c).map fun o => (s.fed, o)) p := by
  have fed := h.inv.fed h.run
  obtain ⟨-, nonempty, -⟩ := S.frames_spec hp
  have size : p.2.length < p.2.size := by
    have := p.2.kind.size_ge
    rw [RawFrame.size]
    omega
  constructor
  · intro held
    have clear : Survives drops p := by
      intro d hd _
      by_contra inside
      have here := held (d.2 - p.1) (by omega)
      rw [Nat.add_sub_cancel' (by omega)] at here
      obtain ⟨-, old, away⟩ := h.gone d hd
      rcases origin_or_new_of_mem_held here with kept | new
      · exact away kept
      · omega
    have late : stream.length < p.1 + p.2.size := by
      by_contra early
      have behind : p.1 + p.2.length ≤ countAfter 0 done :=
        le_countAfter h.done_sorted (h.mem_done.mpr ⟨hp, Nat.not_lt.mp early, clear⟩)
      rcases origin_or_new_of_mem_held (held 0 (by omega)) with kept | new
      · have := h.behind _ kept
        omega
      · omega
    refine ⟨late, ?_, h.survives_append.mpr ⟨clear, fun _ o gone => ?_⟩⟩
    · rcases origin_or_new_of_mem_held (held (p.2.size - 1) (by omega)) with kept | new
      · have := h.inv.origins.below _ kept
        omega
      · omega
    · by_contra inside
      have here := held (o - p.1) (by omega)
      rw [Nat.add_sub_cancel' (by omega)] at here
      exact h.inv.not_dropped h.run here gone
  · rintro ⟨late, complete, survives⟩ j hj
    have count := h.count_le_pending hp late
    have read : p.1 + j < (stream ++ c).length := by
      rw [List.length_append]
      omega
    rcases h.held_or_dropped read (by omega) with held | ⟨d, hd, early, same⟩
    · exact held
    · have := survives d hd (early.trans_lt late)
      omega

/-- The byte at an index of the scanned buffer, in the stream. -/
theorem Surviving.byte (h : Surviving S s stream drops done) (begins : stream ++ c <+: S.bytes)
    {k : Nat} (hk : k < (s.held c).length) :
    (s.held c)[k] < S.bytes.length ∧ (scanned s.raw c).dataRaw k = S.mem (s.held c)[k] := by
  have byte := (h.inv.held h.run c).2.2.bytes k hk
  obtain ⟨rest, whole⟩ := begins
  obtain ⟨lt, eq⟩ := List.getElem?_eq_some_iff.mp byte
  have lt' : (s.held c)[k] < S.bytes.length := by
    rw [← whole, List.length_append]
    omega
  refine ⟨lt', ?_⟩
  rw [FrameStream.mem, ofList_apply_lt _ lt', ← eq]
  simp only [← whole, List.getElem_append_left lt]

/-- The places of a frame in the buffer follow each other, up to the last of its bytes. -/
theorem Surviving.idxOf_add_size_le (h : Surviving S s stream drops done) {p : Nat × RawFrame}
    (hp : p ∈ S.frames) (all : InHeld s c p) :
    (s.held c).idxOf p.1 + p.2.size ≤ (s.held c).length := by
  have nonempty := (S.frames_spec hp).2.1
  have pos : 0 < p.2.size := by
    rw [RawFrame.size]
    omega
  have eq := idxOf_add (h.inv.held h.run c).2.2.sorted all (j := p.2.size - 1) (by omega)
  have lt := List.idxOf_lt_length_of_mem (all (p.2.size - 1) (by omega))
  omega

/-- A frame of the stream that has all its bytes in the buffer is found at the place of its
first byte. -/
theorem Surviving.frameAt_of_inHeld (h : Surviving S s stream drops done)
    (begins : stream ++ c <+: S.bytes) {p : Nat × RawFrame} (hp : p ∈ S.frames)
    (all : InHeld s c p) :
    frameAt (scanned s.raw c).dataRaw (s.held c).length ((s.held c).idxOf p.1) = some p.2 := by
  have sorted := (h.inv.held h.run c).2.2.sorted
  have whole := h.idxOf_add_size_le hp all
  have nonempty := (S.frames_spec hp).2.1
  have size : p.2.size = p.2.kind.size + p.2.length := rfl
  refine frameAt_eq_some.mpr ⟨(S.frames_valid hp).congr fun k hk => ?_, whole, by omega⟩
  rw [(h.byte begins (by omega)).2, getElem_idxOf_add sorted all hk]

/-- A frame that a call finds is one of the stream, with all its bytes in the buffer. -/
theorem Surviving.frame_of_frameAt (h : Surviving S s stream drops done)
    (inside : S.NoFrameInside) (begins : stream ++ c <+: S.bytes) (unspliced : Unspliced s c)
    {i : Nat} {f : RawFrame}
    (found : frameAt (scanned s.raw c).dataRaw (s.held c).length i = some f) :
    ∃ p ∈ S.frames, InHeld s c p ∧ ((s.held c).idxOf p.1, p.2) = (i, f) := by
  obtain ⟨length, -, origins⟩ := h.inv.held h.run c
  have sorted := origins.sorted
  have run := unspliced i f (by rwa [← length])
  obtain ⟨valid, fits, room⟩ := frameAt_eq_some.mp found
  have size : f.size = f.kind.size + f.length := rfl
  have kind := f.kind.size_ge
  have at_i : (s.held c).getD i 0 = (s.held c)[i] := List.getD_eq_getElem _ _ (by omega)
  have run' (j : Nat) (hj : j < f.size) : (s.held c)[i + j] = (s.held c)[i] + j := by
    rw [← at_i, ← run j hj, List.getD_eq_getElem _ _ (by omega)]
  -- one more byte stands behind the header
  have spare : (s.held c)[i] + f.kind.size < S.bytes.length := by
    have before := run' (f.kind.size - 1) (by omega)
    have step := List.pairwise_iff_getElem.mp sorted (i + (f.kind.size - 1)) (i + f.kind.size)
      (by omega) room (by omega)
    have := (h.byte begins room).1
    omega
  have fits' : (s.held c)[i] + f.size ≤ S.bytes.length := by
    have end_ := run' (f.size - 1) (by omega)
    have := (h.byte begins (k := i + (f.size - 1)) (by omega)).1
    omega
  have valid' : FrameValid S.mem (s.held c)[i] f := by
    refine valid.congr fun k hk => ?_
    rw [(h.byte begins (by omega)).2, run' k hk]
  have mem := FrameStream.mem_frames inside (frameAt_eq_some.mpr ⟨valid', fits', spare⟩)
  refine ⟨((s.held c)[i], f), mem, fun j hj => ?_, ?_⟩
  · rw [← run' j hj]
    exact List.getElem_mem _
  · have nodup : (s.held c).Nodup := sorted.imp Nat.ne_of_lt
    rw [nodup.idxOf_getElem]

/-- **What a call finds.** The frames in the scanned buffer are those of the stream that have all
their bytes there. -/
theorem Surviving.knownFrames (h : Surviving S s stream drops done) (inside : S.NoFrameInside)
    (begins : stream ++ c <+: S.bytes) (unspliced : Unspliced s c) :
    KnownFrames (scanned s.raw c).dataRaw (s.held c).length 0
      ((S.frames.filter (InHeld s c ·)).map fun p => ((s.held c).idxOf p.1, p.2)) := by
  have sorted := (h.inv.held h.run c).2.2.sorted
  have held {p : Nat × RawFrame} (hp : p ∈ S.frames.filter (InHeld s c ·)) :
      p ∈ S.frames ∧ InHeld s c p ∧ 0 < p.2.size := by
    obtain ⟨mem, all⟩ := List.mem_filter.mp hp
    have nonempty := (S.frames_spec mem).2.1
    exact ⟨mem, of_decide_eq_true all, by rw [RawFrame.size]; omega⟩
  refine ⟨?_, ?_, fun i f _ => ⟨fun found => ?_, fun mem => ?_⟩, fun _ _ => Nat.zero_le _⟩
  · rw [List.pairwise_map]
    refine (S.frames_sorted.filter _).imp_of_mem fun {p q} hp hq apart => ?_
    obtain ⟨-, all, pos⟩ := held hp
    obtain ⟨-, all', pos'⟩ := held hq
    have eq := idxOf_add sorted all (j := p.2.size - 1) (by omega)
    have lt := idxOf_lt_idxOf sorted (all (p.2.size - 1) (by omega)) (all' 0 pos') (by omega)
    simp only [Nat.add_zero] at lt
    simp only
    omega
  · intro p hp
    obtain ⟨q, hq, rfl⟩ := List.mem_map.mp hp
    obtain ⟨kind, nonempty, -⟩ := S.frames_spec (held hq).1
    exact ⟨kind, nonempty⟩
  · obtain ⟨p, mem, all, same⟩ := h.frame_of_frameAt inside begins unspliced found
    exact List.mem_map.mpr ⟨p, List.mem_filter.mpr ⟨mem, decide_eq_true all⟩, same⟩
  · obtain ⟨q, hq, same⟩ := List.mem_map.mp mem
    obtain ⟨rfl, rfl⟩ := Prod.mk.inj same
    obtain ⟨mem, all, -⟩ := held hq
    exact h.frameAt_of_inHeld begins mem all

/-- The frames that are complete before the chunk and those that it completes make up those that
are complete behind it. -/
theorem Surviving.filter_append (h : Surviving S s stream drops done) :
    done ++ S.frames.filter (InHeld s c ·) = S.frames.filter fun p =>
      p.1 + p.2.size ≤ (stream ++ c).length ∧
        Survives (drops ++ (s.drops c).map fun o => (s.fed, o)) p := by
  obtain ⟨old, new, split, complete, pending⟩ := split_complete S.frames_sorted stream.length
  have mem_old : ∀ p ∈ old, p ∈ S.frames := fun p hp => by
    rw [split]
    exact List.mem_append_left _ hp
  have mem_new : ∀ p ∈ new, p ∈ S.frames := fun p hp => by
    rw [split]
    exact List.mem_append_right _ hp
  have first : done = old.filter fun p => p.1 + p.2.size ≤ (stream ++ c).length ∧
      Survives (drops ++ (s.drops c).map fun o => (s.fed, o)) p := by
    have none : (new.filter fun p => p.1 + p.2.size ≤ stream.length ∧ Survives drops p) = [] :=
      List.filter_eq_nil_iff.mpr fun p hp both =>
        absurd (of_decide_eq_true both).1 (Nat.not_le.mpr (pending p hp))
    rw [h.accepted, split, List.filter_append, none, List.append_nil]
    refine List.filter_congr fun p hp => decide_eq_decide.mpr ?_
    have done := complete p hp
    rw [h.survives_append, List.length_append]
    constructor
    · rintro ⟨-, clear⟩
      exact ⟨by omega, clear, fun late => absurd late (by omega)⟩
    · rintro ⟨-, clear, -⟩
      exact ⟨done, clear⟩
  have second : S.frames.filter (InHeld s c ·) = new.filter fun p =>
      p.1 + p.2.size ≤ (stream ++ c).length ∧
        Survives (drops ++ (s.drops c).map fun o => (s.fed, o)) p := by
    have none : old.filter (InHeld s c ·) = [] :=
      List.filter_eq_nil_iff.mpr fun p hp held =>
        absurd ((h.inHeld_iff (mem_old p hp)).mp (of_decide_eq_true held)).1
          (Nat.not_lt.mpr (complete p hp))
    rw [split, List.filter_append, none, List.nil_append]
    refine List.filter_congr fun p hp => decide_eq_decide.mpr ?_
    rw [h.inHeld_iff (mem_new p hp), List.length_append]
    exact ⟨And.right, fun both => ⟨pending p hp, both⟩⟩
  rw [first, second, ← List.filter_append, ← split]

theorem le_countAfter_of_le {cnt : Nat} {fs : List (Nat × RawFrame)}
    (h : ∀ p ∈ fs, cnt ≤ p.1) : cnt ≤ countAfter cnt fs := by
  rw [countAfter]
  cases last : fs.getLast? with
  | none => exact le_rfl
  | some p => exact (h p (List.mem_of_getLast? last)).trans (Nat.le_add_right _ _)

/-- The count of the call, as an index of the buffer, keeps the positions from the count behind
the last frame on. -/
theorem mem_drop_countAfter {held : List Nat} (sorted : held.Pairwise (· < ·))
    {now : List (Nat × RawFrame)}
    (all : ∀ p ∈ now, 0 < p.2.length ∧ ∀ j < p.2.length, p.1 + j ∈ held)
    {cnt : Nat} (low : ∀ o ∈ held, cnt ≤ o) {o : Nat} :
    o ∈ held.drop (countAfter 0 (now.map fun p => (held.idxOf p.1, p.2))) ↔
      o ∈ held ∧ countAfter cnt now ≤ o := by
  rw [countAfter, countAfter, List.getLast?_map, Option.map_map]
  cases last : now.getLast? with
  | none =>
      simp only [Option.map_none, Option.getD_none, List.drop_zero]
      exact ⟨fun mem => ⟨mem, low o mem⟩, And.left⟩
  | some p =>
      obtain ⟨pos, inHeld⟩ := all p (List.mem_of_getLast? last)
      simp only [Option.map_some, Option.getD_some, Function.comp]
      have eq := idxOf_add sorted inHeld (j := p.2.length - 1) (by omega)
      have there := inHeld (p.2.length - 1) (by omega)
      have index : o ∈ held.drop (held.idxOf p.1 + p.2.length) ↔
          o ∈ held ∧ held.idxOf p.1 + p.2.length ≤ held.idxOf o := by
        constructor
        · intro mem
          obtain ⟨k, hk, rfl⟩ := List.getElem_of_mem mem
          have nodup : held.Nodup := sorted.imp Nat.ne_of_lt
          rw [List.getElem_drop, nodup.idxOf_getElem]
          exact ⟨List.getElem_mem _, Nat.le_add_right _ _⟩
        · rintro ⟨mem, le⟩
          obtain ⟨d, hd⟩ := Nat.exists_eq_add_of_le le
          have lt := List.idxOf_lt_length_of_mem mem
          refine List.mem_iff_getElem.mpr ⟨d, by rw [List.length_drop]; omega, ?_⟩
          simp only [List.getElem_drop, ← hd]
          exact List.getElem_idxOf lt
      rw [index]
      refine and_congr_right fun mem => ⟨fun le => ?_, fun le => ?_⟩
      · by_contra before
        have : held.idxOf o ≤ held.idxOf (p.1 + (p.2.length - 1)) := by
          rcases Nat.lt_or_eq_of_le (show o ≤ p.1 + (p.2.length - 1) by omega) with lt | rfl
          · exact (idxOf_lt_idxOf sorted mem there lt).le
          · exact le_rfl
        omega
      · have := idxOf_lt_idxOf sorted there mem (by omega)
        omega

/-- **One call** accepts the frames that the chunk completes and that survive it. -/
theorem Surviving.step (h : Surviving S s stream drops done) (inside : S.NoFrameInside)
    (begins : stream ++ c <+: S.bytes) (unspliced : Unspliced s c) {fuel : Nat}
    (enough : sizeofDataRaw ≤ fuel) :
    Surviving S (trace fuel s c).1 (stream ++ c) (drops ++ (dropStep fuel s c).2)
      (done ++ (trace fuel s c).2) := by
  have known := h.knownFrames inside begins unspliced
  obtain ⟨length, bound, origins⟩ := h.inv.held h.run c
  have sorted := origins.sorted
  have fed := h.inv.fed h.run
  have size : sizeofDataRaw = 8192 := rfl
  have iterations : (s.held c).length ≤ fuel := by omega
  obtain ⟨returned, accepted, count⟩ := handleGnssRaw_knownFrames (by omega) known iterations
  rw [length] at returned accepted count
  obtain ⟨k, origin, -, consumed, out, inv⟩ := trace_call fuel h.inv h.run c
  have running : (trace fuel s c).1.raw.hung = false := by
    rw [trace_raw]
    exact gnssHandleRawBytes_running h.run returned
  have now : (trace fuel s c).2 = S.frames.filter (InHeld s c ·) := by
    rw [out, accepted, List.map_map]
    conv_rhs => rw [← List.map_id (S.frames.filter (InHeld s c ·))]
    refine List.map_congr_left fun p hp => ?_
    obtain ⟨mem, all⟩ := List.mem_filter.mp hp
    have nonempty := (S.frames_spec mem).2.1
    have first := of_decide_eq_true all 0 (by rw [RawFrame.size]; omega)
    have lt := List.idxOf_lt_length_of_mem first
    simp only [Nat.add_zero] at lt
    simp only [Function.comp, List.getD_eq_getElem _ _ lt, List.getElem_idxOf, id]
  have low : ∀ o ∈ s.held c, countAfter 0 done ≤ o := by
    intro o mem
    have := h.count_le
    rcases origin_or_new_of_mem_held mem with kept | new
    · exact h.behind o kept
    · omega
  have inHeld {p : Nat × RawFrame} (hp : p ∈ (trace fuel s c).2) :
      0 < p.2.length ∧ ∀ j < p.2.length, p.1 + j ∈ s.held c := by
    rw [now] at hp
    obtain ⟨mem, all⟩ := List.mem_filter.mp hp
    have inHeld : InHeld s c p := of_decide_eq_true all
    exact ⟨(S.frames_spec mem).2.1, fun j hj => inHeld j (by rw [RawFrame.size]; omega)⟩
  have left {o : Nat} : o ∈ (trace fuel s c).1.origin ↔
      o ∈ s.held c ∧ countAfter 0 (done ++ (trace fuel s c).2) ≤ o := by
    rw [origin, consumed running, count, countAfter_append, ← now]
    exact mem_drop_countAfter sorted (fun p hp => inHeld hp) low
  have mono : countAfter 0 done ≤ countAfter 0 (done ++ (trace fuel s c).2) := by
    rw [countAfter_append]
    exact le_countAfter_of_le fun p hp => low _ ((inHeld hp).2 0 (inHeld hp).1)
  refine ⟨running, inv, ?_, fun o mem => (left.mp mem).2, fun d hd => ?_, fun o lt le => ?_⟩
  · rw [now]
    exact h.filter_append
  · rw [List.length_append]
    rcases List.mem_append.mp hd with hd | hd
    · obtain ⟨before, old, away⟩ := h.gone d hd
      refine ⟨by omega, by omega, fun mem => ?_⟩
      rcases origin_or_new_of_mem_held (left.mp mem).1 with kept | new
      · exact away kept
      · omega
    · obtain ⟨o, gone, rfl⟩ := List.mem_map.mp hd
      have := h.inv.drops_lt h.run gone
      exact ⟨by simp only; omega, by simp only; omega,
        fun mem => h.inv.not_dropped h.run (left.mp mem).1 gone⟩
  · rcases h.held_or_dropped lt (mono.trans le) with held | ⟨d, hd, -, same⟩
    · exact .inl (left.mpr ⟨held, le⟩)
    · exact .inr ⟨d, hd, same⟩

end Step

/-! ### Runs -/

theorem final_dropStep (fuel : Nat) (s : Traced) (chunks : List (List UInt8)) :
    Machine.final (dropStep fuel) s chunks = Machine.final (trace fuel) s chunks := rfl

theorem dropped_append (fuel : Nat) (pre : List (List UInt8)) (c : List UInt8) :
    dropped fuel (pre ++ [c]) =
      dropped fuel pre ++ (dropStep fuel (Machine.final (trace fuel) {} pre) c).2 := by
  simp [dropped, Machine.outputs_append, final_dropStep]

/-- **Run lemma.** Along every run without splices that look like frames, the accepted
frames are the survivors among those that have been read. -/
theorem surviving_run {S : FrameStream} (inside : S.NoFrameInside) {fuel : Nat}
    (enough : sizeofDataRaw ≤ fuel) (chunks : List (List UInt8))
    (begins : chunks.flatten <+: S.bytes) (unspliced : UnsplicedRun fuel chunks) :
    Surviving S (Machine.final (trace fuel) {} chunks) chunks.flatten (dropped fuel chunks)
      (acceptedFrames fuel chunks) := by
  induction chunks using List.reverseRecOn with
  | nil => exact .start S
  | append_singleton pre c ih =>
      rw [List.flatten_append, List.flatten_singleton] at begins
      have before := ih ((List.prefix_append _ _).trans begins) fun pre' d post split =>
        unspliced pre' d (post ++ [c]) (by rw [split]; simp)
      have step := before.step inside begins (unspliced pre c [] rfl before.run) enough
      rw [Machine.final_append, List.flatten_append, List.flatten_singleton, dropped_append,
        acceptedFrames_append]
      exact step

/-! ### Without splices -/

/-- No chunk is cut off: it fits the free room, or the whole buffer where this is emptied first. -/
def NotClamped (fuel : Nat) (chunks : List (List UInt8)) : Prop :=
  ∀ pre c post, chunks = pre ++ c :: post →
    (afterChunks fuel pre).dropFull.dataRawLen + c.length ≤ sizeofDataRaw

/-- The buffer holds the last bytes that were read. -/
def Contiguous (s : Traced) : Prop := ∃ a m, s.origin = List.range' a m ∧ a + m = s.fed

section Contiguous

variable {stream c : List UInt8} {s : Traced}

theorem Contiguous.held (h : Contiguous s) (inv : TraceInv stream s)
    (room : s.raw.dropFull.dataRawLen + c.length ≤ sizeofDataRaw) :
    ∃ a m, s.held c = List.range' a m ∧ a + m = s.fed + c.length := by
  obtain ⟨a, m, kept, total⟩ : ∃ a m, s.kept = List.range' a m ∧ a + m = s.fed := by
    rw [Traced.kept]
    split
    · exact ⟨s.fed, 0, rfl, rfl⟩
    · exact h
  have length := inv.kept.1
  refine ⟨a, m + c.length, ?_, by omega⟩
  rw [Traced.held, kept, ← total, List.range'_append_1, List.take_of_length_le]
  rw [kept, List.length_range'] at length
  rw [List.length_range']
  omega

theorem Contiguous.step (h : Contiguous s) (inv : TraceInv stream s) (fuel : Nat)
    (room : s.raw.dropFull.dataRawLen + c.length ≤ sizeofDataRaw) :
    Contiguous (trace fuel s c).1 := by
  cases run : s.raw.hung with
  | true =>
      rw [trace_hung run]
      exact h
  | false =>
      obtain ⟨a, m, held, total⟩ := h.held inv room
      obtain ⟨n, origin, fed, -⟩ := trace_call fuel inv run c
      rw [held, List.drop_range', Nat.mul_one] at origin
      rcases Nat.le_total n m with le | ge
      · exact ⟨a + n, m - n, origin, by omega⟩
      · have none : m - n = 0 := by omega
        rw [none] at origin
        exact ⟨(trace fuel s c).1.fed, 0, origin, rfl⟩

theorem Contiguous.unspliced (h : Contiguous s) (inv : TraceInv stream s)
    (run : s.raw.hung = false) (room : s.raw.dropFull.dataRawLen + c.length ≤ sizeofDataRaw) :
    Unspliced s c := by
  obtain ⟨a, m, held, -⟩ := h.held inv room
  have length := (inv.held run c).1
  intro i f found j hj
  have fits := (frameAt_eq_some.mp found).2.1
  rw [held, List.length_range'] at length
  have at_index {k : Nat} (hk : k < m) : (s.held c).getD k 0 = a + k := by
    rw [held, List.getD_eq_getElem _ _ (by rwa [List.length_range']), List.getElem_range',
      Nat.one_mul]
  rw [at_index (by omega), at_index (by omega)]
  omega

end Contiguous

/-- Without clamps nothing is spliced. -/
theorem unsplicedRun_of_notClamped {fuel : Nat} {chunks : List (List UInt8)}
    (room : NotClamped fuel chunks) : UnsplicedRun fuel chunks := by
  have contiguous (pre post : List (List UInt8)) (split : chunks = pre ++ post) :
      Contiguous (Machine.final (trace fuel) {} pre) := by
    induction pre using List.reverseRecOn generalizing post with
    | nil => exact ⟨0, 0, rfl, rfl⟩
    | append_singleton pre c ih =>
        have before := ih (c :: post) (by rw [split]; simp)
        have fits := room pre c post (by rw [split]; simp)
        rw [afterChunks, ← final_trace_raw fuel {} pre] at fits
        rw [Machine.final_append]
        exact before.step (traceInv_final fuel pre) fuel fits
  intro pre c post split run
  have fits := room pre c post split
  rw [afterChunks, ← final_trace_raw fuel {} pre] at fits
  exact (contiguous pre (c :: post) split).unspliced (traceInv_final fuel pre) run fits

/-! ### The frames of a stream -/

/-- **Every frame that survives is accepted exactly once and in order**, and no other, whatever
the split and whatever other bytes are dropped, unless a call finds a frame across a place where
bytes were dropped. Where no chunk is cut off, there is no such place. Where every chunk fits the
free room of the buffer, all frames survive; stretches of other bytes of at most 3062 bytes are
enough for that. -/
theorem acceptedFrames_eq_surviving (S : FrameStream) (inside : S.NoFrameInside) (fuel : Nat)
    (enough : sizeofDataRaw ≤ fuel) (chunks : List (List UInt8)) (split : chunks.flatten = S.bytes)
    (sizes : ∀ c ∈ chunks, 1 ≤ c.length ∧ c.length ≤ 4096) :
    (UnsplicedRun fuel chunks →
      acceptedFrames fuel chunks = S.frames.filter (Survives (dropped fuel chunks) ·)) ∧
    (NotClamped fuel chunks → UnsplicedRun fuel chunks) ∧
    (Fits fuel {} chunks ∨ S.GapsAtMost 3062 → acceptedFrames fuel chunks = S.frames) := by
  refine ⟨fun unspliced => ?_, unsplicedRun_of_notClamped, fun room => ?_⟩
  · have done := (surviving_run inside enough chunks (split ▸ List.prefix_rfl) unspliced).accepted
    rw [done]
    refine List.filter_congr fun p hp => decide_eq_decide.mpr ?_
    have complete := (S.frames_spec hp).2.2.2
    rw [split]
    exact ⟨And.right, fun survives => ⟨complete, survives⟩⟩
  · exact (Delivered.start S).delivers inside enough (Nat.zero_le _) split.symm
      (fun c hc => (sizes c hc).1) (room.imp id fun gaps => ⟨gaps, fun c hc => (sizes c hc).2⟩)

/-- A frame behind 8192 zeros. -/
def resetStream : FrameStream := zerosStream 8192 0 shortFrame

theorem resetStream_length : resetStream.bytes.length = 8204 :=
  zerosStream_length 8192 0 shortFrame

theorem resetStream_frames : resetStream.frames = [(8192, ⟨.data1, 0, 1⟩)] :=
  zerosStream_frames 8192 0 shortFrame

theorem notClamped_resetStream : NotClamped sizeofDataRaw (filledChunks resetStream) := by
  have filled := delivered_filled (a := 8192) (by omega) (by omega)
  rw [← resetStream] at filled
  obtain ⟨first, -, second⟩ := filled
  have full : (afterChunks sizeofDataRaw (filling resetStream)).dataRawLen = sizeofDataRaw := by
    rw [afterChunks, ← final_trace_raw sizeofDataRaw {} (filling resetStream), second.dataRawLen]
    rfl
  have half : (afterChunks sizeofDataRaw [resetStream.bytes.take 4096]).dataRawLen = 4096 := by
    rw [afterChunks, ← final_trace_raw sizeofDataRaw {} [resetStream.bytes.take 4096]]
    exact first
  have start : (afterChunks sizeofDataRaw []).dataRawLen = 0 := rfl
  have size : sizeofDataRaw = 8192 := rfl
  have sizes := filledChunks_sizes (S := resetStream) (by rw [resetStream_length]; omega)
    (by rw [resetStream_length]; omega)
  intro pre c post split
  have short : c.length ≤ 4096 := (sizes c (by rw [split]; simp)).2
  rw [GnssRaw.dropFull_dataRawLen]
  rcases pre with - | ⟨a, - | ⟨b, - | ⟨d, pre⟩⟩⟩
  · rw [start]
    split <;> omega
  · obtain rfl := (List.cons.inj split).1
    rw [half]
    split <;> omega
  · obtain ⟨rfl, split'⟩ := List.cons.inj split
    obtain rfl := (List.cons.inj split').1
    have filled : (afterChunks sizeofDataRaw [resetStream.bytes.take 4096,
        (resetStream.bytes.drop 4096).take 4096]).dataRawLen = sizeofDataRaw := full
    rw [if_pos filled]
    omega
  · have := congrArg List.length split
    simp [filledChunks, filling] at this

/-- The zeros fill the buffer and are dropped; the frame behind them is accepted. -/
theorem acceptedFrames_resetStream :
    NotClamped sizeofDataRaw (filledChunks resetStream) ∧
      acceptedFrames sizeofDataRaw (filledChunks resetStream) = [(8192, ⟨.data1, 0, 1⟩)] := by
  have inside : resetStream.NoFrameInside := zerosStream_noFrameInside 8192
  obtain ⟨accepted, splices, -⟩ := acceptedFrames_eq_surviving resetStream inside sizeofDataRaw
    le_rfl (filledChunks resetStream) (filledChunks_flatten resetStream)
    (filledChunks_sizes (by rw [resetStream_length]; omega) (by rw [resetStream_length]; omega))
  have unspliced := splices notClamped_resetStream
  refine ⟨notClamped_resetStream, ?_⟩
  rw [accepted unspliced, resetStream_frames]
  refine List.filter_cons_of_pos (decide_eq_true fun d hd _ => .inl ?_)
  have filled := delivered_filled (a := 8192) (by omega) (by omega)
  rw [← resetStream] at filled
  have inv := filled.2.2.inv
  have full : (Machine.final (trace sizeofDataRaw) {} (filling resetStream)).raw.dataRawLen =
      sizeofDataRaw := by
    rw [filled.2.2.dataRawLen]
    rfl
  have length : (filling resetStream).flatten.length = 8192 := by
    have := resetStream_length
    simp only [filling, List.flatten_cons, List.flatten_nil, List.append_nil, List.length_append,
      List.length_take, List.length_drop]
    omega
  rw [filledChunks, dropped_append, dropStep_snd] at hd
  rcases List.mem_append.mp hd with hd | hd
  · have before := surviving_run inside le_rfl (filling resetStream)
      ⟨resetStream.bytes.drop 8192, by
      have whole := filledChunks_flatten resetStream
      rwa [filledChunks, List.flatten_append, List.flatten_singleton] at whole⟩
      fun pre c post split => unspliced pre c (post ++ [resetStream.bytes.drop 8192])
        (by rw [filledChunks, split]; simp)
    have := (before.gone d hd).2.1
    rwa [length] at this
  · obtain ⟨o, gone, rfl⟩ := List.mem_map.mp hd
    have rest : (resetStream.bytes.drop 8192).length - sizeofDataRaw = 0 := by
      have size : sizeofDataRaw = 8192 := rfl
      rw [List.length_drop, resetStream_length]
      omega
    rw [Traced.drops, Traced.kept, if_pos full, if_pos full, List.nil_append, List.drop_range',
      rest, List.range'_zero, List.append_nil] at gone
    have := inv.origins.below o gone
    exact this.trans_le (List.length_take_le 8192 _)

end Ok3506.Gnss
