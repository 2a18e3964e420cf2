import Ok3506.Gnss.FrameStream

/-!
Delivery of a frame stream through the accumulation buffer.

`Delivered` is the state between two calls: the frames that are complete in the
bytes read so far have been accepted, and the buffer holds the stream from the
count behind the last of them on. Every chunk that fits the free room keeps it
and accepts the frames it completes. The room is never exceeded when frames are
at most 3062 bytes apart, since at most 11 bytes of a frame stay behind, a frame
has at most 1024 bytes and a chunk at most 4096.
-/

namespace Ok3506.Gnss

open Mem Bits

/-! ### Lists of frames -/

section Lists

variable {fs gs : List (Nat × RawFrame)} {cnt : Nat}

theorem countAfter_append (cnt : Nat) (fs gs : List (Nat × RawFrame)) :
    countAfter cnt (fs ++ gs) = countAfter (countAfter cnt fs) gs := by
  induction fs generalizing cnt with
  | nil => rfl
  | cons p fs ih => rw [List.cons_append, countAfter_cons, countAfter_cons, ih]

/-- The count lies behind the length of every frame. -/
theorem le_countAfter (sorted : fs.Pairwise fun p q => p.1 + p.2.size ≤ q.1)
    {p : Nat × RawFrame} (hp : p ∈ fs) : p.1 + p.2.length ≤ countAfter cnt fs := by
  induction fs generalizing cnt p with
  | nil => cases hp
  | cons q fs ih =>
      obtain ⟨first, later⟩ := List.pairwise_cons.mp sorted
      rw [countAfter_cons]
      rcases List.mem_cons.mp hp with rfl | hp
      · cases fs with
        | nil => exact le_rfl
        | cons r fs =>
            have next : r.1 + r.2.length ≤ countAfter (p.1 + p.2.length) (r :: fs) :=
              ih later List.mem_cons_self
            have behind := first r List.mem_cons_self
            rw [RawFrame.size] at behind
            omega
      · exact ih later hp

theorem countAfter_le {b : Nat} (le : cnt ≤ b) (h : ∀ p ∈ fs, p.1 + p.2.length ≤ b) :
    countAfter cnt fs ≤ b := by
  induction fs generalizing cnt with
  | nil => exact le
  | cons p fs ih =>
      rw [countAfter_cons]
      exact ih (h p List.mem_cons_self) fun q hq => h q (List.mem_cons_of_mem _ hq)

/-- The same frames seen from `c` on. -/
def rebase (c : Nat) (fs : List (Nat × RawFrame)) : List (Nat × RawFrame) :=
  fs.map fun p => (p.1 - c, p.2)

theorem countAfter_rebase {c : Nat} (ge : ∀ p ∈ fs, c ≤ p.1) :
    c + countAfter cnt (rebase c fs) = countAfter (c + cnt) fs := by
  induction fs generalizing cnt with
  | nil => rfl
  | cons p fs ih =>
      have first := ge p List.mem_cons_self
      have shift : c + (p.1 - c + p.2.length) = p.1 + p.2.length := by omega
      rw [rebase, List.map_cons, countAfter_cons, countAfter_cons, ← rebase,
        ih fun q hq => ge q (List.mem_cons_of_mem _ hq), shift]

/-- The frames that end by `n` are a prefix. -/
theorem split_complete (sorted : fs.Pairwise fun p q => p.1 + p.2.size ≤ q.1) (n : Nat) :
    ∃ now rest, fs = now ++ rest ∧ (∀ p ∈ now, p.1 + p.2.size ≤ n) ∧
      ∀ p ∈ rest, n < p.1 + p.2.size := by
  induction fs with
  | nil => exact ⟨[], [], rfl, by simp, by simp⟩
  | cons p fs ih =>
      obtain ⟨first, sorted⟩ := List.pairwise_cons.mp sorted
      rcases Nat.lt_or_ge n (p.1 + p.2.size) with pending | complete
      · refine ⟨[], p :: fs, rfl, by simp, ?_⟩
        intro q hq
        rcases List.mem_cons.mp hq with rfl | hq
        · exact pending
        · have := first q hq
          omega
      · obtain ⟨now, rest, rfl, done, later⟩ := ih sorted
        refine ⟨p :: now, rest, rfl, ?_, later⟩
        intro q hq
        rcases List.mem_cons.mp hq with rfl | hq
        · exact complete
        · exact done q hq

end Lists

/-! ### Between two calls -/

/-- After `n` bytes of the stream: `done` are the frames accepted so far, and the
buffer holds the bytes from the count behind the last of them on. -/
structure Delivered (S : FrameStream) (s : Traced) (n : Nat) (done rest : List (Nat × RawFrame)) :
    Prop where
  frames : S.frames = done ++ rest
  complete : ∀ p ∈ done, p.1 + p.2.size ≤ n
  pending : ∀ p ∈ rest, n < p.1 + p.2.size
  run : s.raw.hung = false
  origin : s.origin = List.range' (countAfter 0 done) (n - countAfter 0 done)
  inv : TraceInv (S.bytes.take n) s

theorem Delivered.start (S : FrameStream) : Delivered S {} 0 [] S.frames := by
  refine ⟨rfl, by simp, ?_, rfl, rfl, .start⟩
  intro p hp
  have := (S.frames_spec hp).2.1
  rw [RawFrame.size]
  omega

section Step

variable {S : FrameStream} {s : Traced} {n : Nat} {done rest : List (Nat × RawFrame)}

theorem Delivered.count_le (d : Delivered S s n done rest) : countAfter 0 done ≤ n := by
  refine countAfter_le (Nat.zero_le n) ?_
  intro p hp
  have := d.complete p hp
  rw [RawFrame.size] at this
  omega

theorem Delivered.dataRawLen (d : Delivered S s n done rest) :
    s.raw.dataRawLen = n - countAfter 0 done := by
  rw [← d.inv.length, d.origin, List.length_range']

/-- Pending frames begin behind the count. -/
theorem Delivered.count_le_pending (d : Delivered S s n done rest) {p : Nat × RawFrame}
    (hp : p ∈ rest) : countAfter 0 done ≤ p.1 := by
  have sorted := S.frames_sorted
  rw [d.frames, List.pairwise_append] at sorted
  refine countAfter_le (Nat.zero_le _) ?_
  intro q hq
  have := sorted.2.2 q hq p hp
  rw [RawFrame.size] at this
  omega

/-- A chunk that fits is held behind what is there. -/
theorem Delivered.held (d : Delivered S s n done rest) (read : n ≤ S.bytes.length) {c : List UInt8}
    (pos : 0 < c.length) (room : s.raw.dataRawLen + c.length ≤ sizeofDataRaw) :
    s.held c = List.range' (countAfter 0 done) (n + c.length - countAfter 0 done) := by
  have le := d.count_le
  have kept : s.kept = s.origin := if_neg (by omega)
  have fed : s.fed = n := by
    rw [d.inv.fed d.run, List.length_take]
    omega
  have join : List.range' (countAfter 0 done) (n - countAfter 0 done) ++ List.range' n c.length =
      List.range' (countAfter 0 done) (n + c.length - countAfter 0 done) := by
    have at_n : n = countAfter 0 done + (n - countAfter 0 done) := by omega
    have len : n + c.length - countAfter 0 done = n - countAfter 0 done + c.length := by omega
    rw [len, ← List.range'_append_1, ← at_n]
  rw [Traced.held, kept, d.origin, fed, join]
  refine List.take_of_length_le ?_
  rw [List.length_range']
  have := d.dataRawLen
  omega

/-- The scanned bytes are those of the stream. -/
theorem Delivered.scanned (d : Delivered S s n done rest) (read : n ≤ S.bytes.length)
    {c : List UInt8} (next : S.bytes.take (n + c.length) = S.bytes.take n ++ c)
    (pos : 0 < c.length) (room : s.raw.dataRawLen + c.length ≤ sizeofDataRaw) :
    (scanned s.raw c).dataRawLen = n + c.length - countAfter 0 done ∧
      ∀ k < n + c.length - countAfter 0 done,
        (Gnss.scanned s.raw c).dataRaw k = S.mem (countAfter 0 done + k) := by
  obtain ⟨length, -, origins⟩ := d.inv.held d.run c
  have held := d.held read pos room
  rw [held] at length origins
  rw [List.length_range'] at length
  refine ⟨length.symm, ?_⟩
  intro k hk
  have byte := origins.bytes k (by rwa [List.length_range'])
  rw [List.getElem_range', Nat.one_mul, ← next] at byte
  obtain ⟨lt, eq⟩ := List.getElem?_eq_some_iff.mp byte
  rw [List.length_take] at lt
  rw [← eq, List.getElem_take, FrameStream.mem, ofList_apply_lt _ (by omega)]

/-- The scanned buffer holds the pending frames that the chunk completes, and no
others. -/
theorem Delivered.knownFrames (d : Delivered S s n done rest) (inside : S.NoFrameInside)
    (read : n ≤ S.bytes.length) {c : List UInt8}
    (next : S.bytes.take (n + c.length) = S.bytes.take n ++ c)
    (more : n + c.length ≤ S.bytes.length)
    (pos : 0 < c.length) (room : s.raw.dataRawLen + c.length ≤ sizeofDataRaw)
    {now later : List (Nat × RawFrame)} (split : rest = now ++ later)
    (complete : ∀ p ∈ now, p.1 + p.2.size ≤ n + c.length)
    (pending : ∀ p ∈ later, n + c.length < p.1 + p.2.size) :
    KnownFrames (Gnss.scanned s.raw c).dataRaw (n + c.length - countAfter 0 done) 0
      (rebase (countAfter 0 done) now) := by
  have bytes := (d.scanned read next pos room).2
  have le := d.count_le
  have ge : ∀ p ∈ now, countAfter 0 done ≤ p.1 := fun p hp =>
    d.count_le_pending (by rw [split]; exact List.mem_append_left _ hp)
  have mem : ∀ p ∈ now, p ∈ S.frames := fun p hp => by
    rw [d.frames, split]
    exact List.mem_append_right _ (List.mem_append_left _ hp)
  refine ⟨?_, ?_, fun i f _ => ⟨fun h => ?_, fun h => ?_⟩, fun _ _ => Nat.zero_le _⟩
  · have sorted := S.frames_sorted
    rw [d.frames, split, List.pairwise_append, List.pairwise_append] at sorted
    rw [rebase, List.pairwise_map]
    refine sorted.2.1.1.imp_of_mem fun {p q} hp hq lt => ?_
    have := ge p hp
    simp only
    omega
  · intro p hp
    obtain ⟨q, hq, rfl⟩ := List.mem_map.mp hp
    obtain ⟨kind, nonempty, -⟩ := S.frames_spec (mem q hq)
    exact ⟨kind, nonempty⟩
  · obtain ⟨valid, fits, guard⟩ := frameAt_eq_some.mp h
    have here : frameAt S.mem S.bytes.length (countAfter 0 done + i) = some f := by
      refine frameAt_eq_some.mpr ⟨valid.congr ?_, by omega, by omega⟩
      intro k hk
      rw [bytes _ (by omega), Nat.add_assoc]
    have found := FrameStream.mem_frames inside here
    rw [d.frames, split, List.mem_append, List.mem_append] at found
    rcases found with old | new | late
    · have sorted := S.frames_sorted
      rw [d.frames, List.pairwise_append] at sorted
      have passed : countAfter 0 done + i + f.length ≤ countAfter 0 done :=
        le_countAfter sorted.1 old
      have := (S.frames_spec (by rw [d.frames]; exact List.mem_append_left _ old)).2.1
      simp only at this
      omega
    · exact List.mem_map.mpr ⟨_, new, by simp⟩
    · have := pending _ late
      simp only at this
      omega
  · obtain ⟨q, hq, same⟩ := List.mem_map.mp h
    obtain ⟨rfl, rfl⟩ := Prod.mk.inj same
    have first := ge q hq
    have last := complete q hq
    obtain ⟨kind, nonempty, -⟩ := S.frames_spec (mem q hq)
    refine frameAt_eq_some.mpr ⟨(S.frames_valid (mem q hq)).congr fun k hk => ?_, by omega, ?_⟩
    · rw [bytes _ (by omega), ← Nat.add_assoc, Nat.add_sub_cancel' first]
    · rw [RawFrame.size] at last
      omega

/-- **One chunk.** It makes the scanner accept the frames it completes. -/
theorem Delivered.step (d : Delivered S s n done rest) (inside : S.NoFrameInside)
    (read : n ≤ S.bytes.length) {c : List UInt8}
    (next : S.bytes.take (n + c.length) = S.bytes.take n ++ c)
    (more : n + c.length ≤ S.bytes.length)
    (pos : 0 < c.length) (room : s.raw.dataRawLen + c.length ≤ sizeofDataRaw)
    {fuel : Nat} (enough : sizeofDataRaw ≤ fuel) :
    ∃ now later, rest = now ++ later ∧ (trace fuel s c).2 = now ∧
      Delivered S (trace fuel s c).1 (n + c.length) (done ++ now) later := by
  have sorted := S.frames_sorted
  rw [d.frames, List.pairwise_append] at sorted
  obtain ⟨now, later, split, complete, pending⟩ := split_complete sorted.2.1 (n + c.length)
  have known := d.knownFrames inside read next more pos room split complete pending
  have len := (d.scanned read next pos room).1
  have held := d.held read pos room
  have le := d.count_le
  have bound := (d.inv.held d.run c).2.1
  have size : sizeofDataRaw = 8192 := rfl
  have iterations : n + c.length - countAfter 0 done ≤ fuel := by omega
  obtain ⟨returned, accepted, count⟩ := handleGnssRaw_knownFrames (by omega) known iterations
  have scan : scanOf fuel s.raw c = handleGnssRaw fuel (Gnss.scanned s.raw c).dataRaw
      (n + c.length - countAfter 0 done) := by
    rw [scanOf, len]
  obtain ⟨k, origin, fed, consumed, out, inv⟩ := trace_call fuel d.inv d.run c
  have running : (trace fuel s c).1.raw.hung = false := by
    rw [trace_raw]
    refine gnssHandleRawBytes_running d.run ?_
    rw [scan, len]
    exact returned
  have ge : ∀ p ∈ now, countAfter 0 done ≤ p.1 := fun p hp =>
    d.count_le_pending (by rw [split]; exact List.mem_append_left _ hp)
  have cut : countAfter 0 done + k = countAfter 0 (done ++ now) := by
    rw [consumed running, scan, count, countAfter_rebase ge, countAfter_append, Nat.add_zero]
  refine ⟨now, later, split, ?_, ⟨?_, ?_, pending, running, ?_, ?_⟩⟩
  · rw [out, scan, accepted, rebase, List.map_map, held]
    conv_rhs => rw [← List.map_id now]
    refine List.map_congr_left ?_
    intro p hp
    have first := ge p hp
    have last := complete p hp
    have nonempty := (S.frames_spec (by
      rw [d.frames, split]
      exact List.mem_append_right _ (List.mem_append_left _ hp))).2.1
    rw [RawFrame.size] at last
    have inBuffer : p.1 - countAfter 0 done <
        (List.range' (countAfter 0 done) (n + c.length - countAfter 0 done)).length := by
      rw [List.length_range']
      omega
    simp only [Function.comp, List.getD_eq_getElem _ _ inBuffer, List.getElem_range', Nat.one_mul,
      Nat.add_sub_cancel' first, id]
  · rw [d.frames, split, List.append_assoc]
  · intro p hp
    rcases List.mem_append.mp hp with hp | hp
    · have := d.complete p hp
      omega
    · exact complete p hp
  · rw [origin, held, ← cut, List.drop_range', Nat.mul_one, Nat.sub_sub]
  · rw [next]
    exact inv

/-- A chunk that completes no frame is kept as it is. -/
theorem Delivered.quiet (d : Delivered S s n done rest) (inside : S.NoFrameInside)
    (read : n ≤ S.bytes.length) {c : List UInt8}
    (next : S.bytes.take (n + c.length) = S.bytes.take n ++ c)
    (more : n + c.length ≤ S.bytes.length)
    (pos : 0 < c.length) (room : s.raw.dataRawLen + c.length ≤ sizeofDataRaw)
    {fuel : Nat} (enough : sizeofDataRaw ≤ fuel)
    (early : ∀ p ∈ rest, n + c.length < p.1 + p.2.size) :
    (trace fuel s c).2 = [] ∧ Delivered S (trace fuel s c).1 (n + c.length) done rest := by
  obtain ⟨now, later, split, out, d'⟩ := d.step inside read next more pos room enough
  cases now with
  | nil =>
      rw [List.nil_append] at split
      rw [List.append_nil] at d'
      exact ⟨out, by rwa [split]⟩
  | cons p now =>
      have := d'.complete p (by simp)
      have := early p (by rw [split]; simp)
      omega

end Step

/-! ### Room in the buffer -/

/-- Every chunk fits the free room of the buffer at its call. -/
def Fits (fuel : Nat) (s : GnssRaw) (chunks : List (List UInt8)) : Prop :=
  ∀ pre c post, chunks = pre ++ c :: post →
    (Machine.final (gnssHandleRawBytes fuel) s pre).dataRawLen + c.length ≤ sizeofDataRaw

/-- Stretches of other bytes have at most `b` bytes. -/
def FrameStream.GapsAtMost (S : FrameStream) (b : Nat) : Prop := ∀ gap ∈ S.gaps, gap.length ≤ b

instance (S : FrameStream) (b : Nat) : Decidable (S.GapsAtMost b) :=
  inferInstanceAs (Decidable (∀ gap ∈ S.gaps, gap.length ≤ b))

section Gaps

variable {segs : List Segment} {done rest : List (Nat × RawFrame)} {off cnt b : Nat}

/-- The next frame begins at most a gap and 11 bytes behind the count. -/
theorem next_frame_le (gaps : ∀ gap ∈ segs.map Prod.fst, gap.length ≤ b) (le : off ≤ cnt + 11)
    {p : Nat × RawFrame} (h : framesFrom off segs = done ++ p :: rest) :
    p.1 ≤ countAfter cnt done + 11 + b := by
  induction segs generalizing off cnt done with
  | nil => simp [framesFrom] at h
  | cons seg segs ih =>
      obtain ⟨gap, f⟩ := seg
      have first := gaps gap (by simp)
      cases done with
      | nil =>
          rw [framesFrom, List.nil_append, List.cons.injEq] at h
          rw [← h.1, countAfter]
          simp only [List.getLast?_nil, Option.map_none, Option.getD_none]
          omega
      | cons q done =>
          rw [framesFrom, List.cons_append, List.cons.injEq] at h
          rw [countAfter_cons]
          refine ih (fun g hg => gaps g (List.mem_cons_of_mem _ hg)) ?_ h.2
          rw [← h.1, RawFrame.size, f.kind, PacketKind.size]
          simp only
          omega

/-- Behind the last frame the count is at most 11 bytes back. -/
theorem frames_end_le (le : off ≤ cnt + 11) (h : framesFrom off segs = done) :
    off + (segmentBytes segs).length ≤ countAfter cnt done + 11 := by
  induction segs generalizing off cnt done with
  | nil =>
      subst h
      exact le
  | cons seg segs ih =>
      obtain ⟨gap, f⟩ := seg
      subst h
      rw [framesFrom, countAfter_cons]
      have behind : off + gap.length + f.frame.size ≤ off + gap.length + f.frame.length + 11 := by
        rw [RawFrame.size, f.kind, PacketKind.size]
        omega
      have rest := ih behind rfl
      simp only [segmentBytes, List.length_append, f.size]
      omega

end Gaps

/-- With frames at most 3062 bytes apart half of the buffer is free. -/
theorem Delivered.dataRawLen_le {S : FrameStream} {s : Traced} {n : Nat}
    {done rest : List (Nat × RawFrame)} (d : Delivered S s n done rest)
    (read : n ≤ S.bytes.length) (gaps : S.GapsAtMost 3062) : s.raw.dataRawLen ≤ 4096 := by
  have tail := gaps S.tail (by simp [FrameStream.gaps])
  have total : S.bytes.length = (segmentBytes S.segments).length + S.tail.length := by
    simp [FrameStream.bytes]
  have frames := d.frames
  rw [d.dataRawLen]
  cases rest with
  | nil =>
      rw [List.append_nil] at frames
      have := frames_end_le (Nat.zero_le (0 + 11)) frames
      omega
  | cons p rest =>
      have first := next_frame_le (b := 3062)
        (fun gap hg => gaps gap (List.mem_append_left _ hg)) (Nat.zero_le (0 + 11)) frames
      have small := (S.frames_spec (by rw [frames]; simp : p ∈ S.frames)).2.2.1
      have := d.pending p List.mem_cons_self
      omega

/-! ### Runs -/

/-- From any state between two calls the rest of the stream delivers the rest of
the frames. -/
theorem Delivered.delivers {S : FrameStream} (inside : S.NoFrameInside) {fuel : Nat}
    (enough : sizeofDataRaw ≤ fuel) {chunks : List (List UInt8)} {s : Traced} {n : Nat}
    {done rest : List (Nat × RawFrame)} (d : Delivered S s n done rest)
    (read : n ≤ S.bytes.length) (split : S.bytes.drop n = chunks.flatten)
    (pos : ∀ c ∈ chunks, 0 < c.length)
    (room : Fits fuel s.raw chunks ∨ S.GapsAtMost 3062 ∧ ∀ c ∈ chunks, c.length ≤ 4096) :
    (Machine.outputs (trace fuel) s chunks).flatten = rest := by
  induction chunks generalizing s n done rest with
  | nil =>
      cases rest with
      | nil => rfl
      | cons p rest =>
          have pending := d.pending p List.mem_cons_self
          have fits := (S.frames_spec (by rw [d.frames]; simp : p ∈ S.frames)).2.2.2
          have := congrArg List.length split
          simp only [List.length_drop, List.flatten_nil, List.length_nil] at this
          omega
  | cons c chunks ih =>
      have size : sizeofDataRaw = 8192 := rfl
      have len := congrArg List.length split
      simp only [List.length_drop, List.flatten_cons, List.length_append] at len
      have more : n + c.length ≤ S.bytes.length := by omega
      have next : S.bytes.take (n + c.length) = S.bytes.take n ++ c := by
        rw [List.take_add, split, List.flatten_cons, List.take_left]
      have here : s.raw.dataRawLen + c.length ≤ sizeofDataRaw := by
        rcases room with fits | ⟨gaps, short⟩
        · exact fits [] c chunks rfl
        · have := d.dataRawLen_le read gaps
          have := short c List.mem_cons_self
          omega
      obtain ⟨now, later, rfl, out, d'⟩ :=
        d.step inside read next more (pos c List.mem_cons_self) here enough
      have rest : S.bytes.drop (n + c.length) = chunks.flatten := by
        rw [← List.drop_drop, split, List.flatten_cons, List.drop_left]
      have room' : Fits fuel (trace fuel s c).1.raw chunks ∨
          S.GapsAtMost 3062 ∧ ∀ c ∈ chunks, c.length ≤ 4096 := by
        rcases room with fits | ⟨gaps, short⟩
        · refine .inl ?_
          intro pre d post h
          rw [trace_raw]
          exact fits (c :: pre) d post (by rw [h, List.cons_append])
        · exact .inr ⟨gaps, fun c hc => short c (List.mem_cons_of_mem _ hc)⟩
      rw [Machine.outputs_cons, List.flatten_cons, out,
        ih d' more rest (fun c hc => pos c (List.mem_cons_of_mem _ hc)) room']

/-- A frame with one byte of payload. -/
def shortFrame : CshgFrame where
  bytes := [0x43, 0x53, 0x48, 0x47, 0x00, 0x00, 0x01, 0x00, 0x00, 0xEA, 0x0A, 0xBF]
  frame := ⟨.data1, 0, 1⟩
  kind := rfl
  size := rfl
  valid := ⟨by decide +kernel, by decide +kernel, by decide +kernel, by decide +kernel⟩
  nonempty := by decide
  small := by decide

theorem headerBytes_ne_nil (k : PacketKind) : ∃ b ∈ headerBytes k, b ≠ 0 := by
  cases k
  · exact ⟨0x43, by decide, by decide⟩
  · exact ⟨0x24, by decide, by decide⟩

/-- Zeros hold no header. -/
theorem not_headerBytes_zeros (k : PacketKind) (n : Nat) :
    ¬ headerBytes k <:+: List.replicate n 0 := by
  intro h
  obtain ⟨b, hb, ne⟩ := headerBytes_ne_nil k
  exact ne (List.eq_of_mem_replicate (h.subset hb))

/-- A stream of one frame between zeros. -/
def zerosStream (a b : Nat) (f : CshgFrame) : FrameStream where
  segments := [(List.replicate a 0, f)]
  tail := List.replicate b 0
  clean := by
    intro gap hg k
    simp only [List.map_cons, List.map_nil, List.cons_append, List.nil_append, List.mem_cons,
      List.not_mem_nil, or_false] at hg
    rcases hg with rfl | rfl
    · exact not_headerBytes_zeros k a
    · exact not_headerBytes_zeros k b

theorem zerosStream_length (a b : Nat) (f : CshgFrame) :
    (zerosStream a b f).bytes.length = a + f.frame.size + b := by
  simp [zerosStream, FrameStream.bytes, segmentBytes, f.size, Nat.add_assoc]

theorem zerosStream_frames (a b : Nat) (f : CshgFrame) :
    (zerosStream a b f).frames = [(a, f.frame)] := by
  simp [zerosStream, FrameStream.frames, framesFrom]

/-! ### Frames that are lost -/

/-- Two chunks that fill the buffer. -/
def filling (S : FrameStream) : List (List UInt8) :=
  [S.bytes.take 4096, (S.bytes.drop 4096).take 4096]

/-- The stream in three chunks: the two that fill the buffer, and the rest. -/
def filledChunks (S : FrameStream) : List (List UInt8) := filling S ++ [S.bytes.drop 8192]

theorem filledChunks_flatten (S : FrameStream) : (filledChunks S).flatten = S.bytes := by
  have rest := List.take_append_drop 4096 (S.bytes.drop 4096)
  rw [List.drop_drop] at rest
  simp only [filledChunks, filling, List.cons_append, List.nil_append, List.flatten_cons,
    List.flatten_nil, List.append_nil]
  rw [rest, List.take_append_drop]

theorem filledChunks_sizes {S : FrameStream} (low : 8192 < S.bytes.length)
    (high : S.bytes.length ≤ 12288) : ∀ c ∈ filledChunks S, 1 ≤ c.length ∧ c.length ≤ 4096 := by
  intro c hc
  simp only [filledChunks, filling, List.cons_append, List.nil_append, List.mem_cons,
    List.not_mem_nil, or_false] at hc
  rcases hc with hc | hc | hc <;> rw [hc] <;> simp only [List.length_take, List.length_drop] <;>
    omega

section Filled

variable {a : Nat}

theorem zerosStream_noFrameInside (a : Nat) : (zerosStream a 0 shortFrame).NoFrameInside := by
  intro p hp i lt _
  rw [zerosStream_frames, List.mem_singleton] at hp
  subst hp
  cases h : frameAt (zerosStream a 0 shortFrame).mem (zerosStream a 0 shortFrame).bytes.length i
    with
  | none => rfl
  | some f =>
      have room := (frameAt_eq_some.mp h).2.2
      have := f.kind.size_ge
      have size : shortFrame.frame.size = 12 := rfl
      rw [zerosStream_length] at room
      simp only at lt
      omega

/-- The two chunks accept nothing and fill the buffer, when the frame ends behind them. -/
theorem delivered_filled (low : 8180 < a) (high : a ≤ 8192) :
    (Machine.final (trace sizeofDataRaw) {}
        [(zerosStream a 0 shortFrame).bytes.take 4096]).raw.dataRawLen = 4096 ∧
      acceptedFrames sizeofDataRaw (filling (zerosStream a 0 shortFrame)) = [] ∧
      Delivered (zerosStream a 0 shortFrame)
        (Machine.final (trace sizeofDataRaw) {} (filling (zerosStream a 0 shortFrame))) 8192 []
        (zerosStream a 0 shortFrame).frames := by
  have length : (zerosStream a 0 shortFrame).bytes.length = a + 12 :=
    zerosStream_length a 0 shortFrame
  have inside := zerosStream_noFrameInside a
  have size : sizeofDataRaw = 8192 := rfl
  have late {n : Nat} (le : n ≤ 8192) :
      ∀ p ∈ (zerosStream a 0 shortFrame).frames, n < p.1 + p.2.size := by
    intro p hp
    rw [zerosStream_frames, List.mem_singleton] at hp
    subst hp
    change n < a + 12
    omega
  have len1 : ((zerosStream a 0 shortFrame).bytes.take 4096).length = 4096 := by
    rw [List.length_take]
    omega
  have len2 : (((zerosStream a 0 shortFrame).bytes.drop 4096).take 4096).length = 4096 := by
    rw [List.length_take, List.length_drop]
    omega
  obtain ⟨out1, d1⟩ := (Delivered.start (zerosStream a 0 shortFrame)).quiet inside
    (Nat.zero_le _) (c := (zerosStream a 0 shortFrame).bytes.take 4096) (by rw [len1]; rfl)
    (by omega) (by omega) (by rw [len1]; decide) (le_refl sizeofDataRaw) (late (by omega))
  rw [len1, Nat.zero_add] at d1
  have held := d1.dataRawLen
  have start : countAfter 0 [] = 0 := rfl
  obtain ⟨out2, d2⟩ := d1.quiet inside (by omega)
    (c := ((zerosStream a 0 shortFrame).bytes.drop 4096).take 4096)
    (by rw [len2, List.take_add]) (by omega) (by omega) (by omega) (le_refl sizeofDataRaw)
    (late (by omega))
  rw [len2] at d2
  refine ⟨held, ?_, d2⟩
  rw [acceptedFrames, filling, Machine.outputs_cons, Machine.outputs_cons, out1, out2]
  rfl

end Filled

/-- A frame behind 8186 zeros: it begins in the last bytes of a full buffer. -/
def overflowStream : FrameStream := zerosStream 8186 0 shortFrame

def overflowChunks : List (List UInt8) := filledChunks overflowStream

theorem overflowStream_length : overflowStream.bytes.length = 8198 :=
  zerosStream_length 8186 0 shortFrame

theorem overflowStream_frames : overflowStream.frames = [(8186, ⟨.data1, 0, 1⟩)] :=
  zerosStream_frames 8186 0 shortFrame

/-- The first two chunks fill the buffer and accept nothing; the third finds it
full, and the guard drops the first half of the frame. -/
theorem acceptedFrames_overflowChunks : acceptedFrames sizeofDataRaw overflowChunks = [] := by
  have filled := delivered_filled (a := 8186) (by omega) (by omega)
  rw [← overflowStream] at filled
  obtain ⟨-, none, d⟩ := filled
  have full : (Machine.final (trace sizeofDataRaw) {} (filling overflowStream)).raw.dataRawLen =
      sizeofDataRaw := by
    rw [d.dataRawLen]
    rfl
  have len : (overflowStream.bytes.drop 8192).length = 6 := by
    rw [List.length_drop, overflowStream_length]
  have short := scanned_dataRawLen full.le (overflowStream.bytes.drop 8192)
  rw [if_pos full, len] at short
  obtain ⟨_, _, _, _, out, _⟩ := trace_call sizeofDataRaw d.inv d.run
    (overflowStream.bytes.drop 8192)
  have nothing : (scanOf sizeofDataRaw (Machine.final (trace sizeofDataRaw) {}
      (filling overflowStream)).raw (overflowStream.bytes.drop 8192)).accepted = [] := by
    have few : min (0 + 6) sizeofDataRaw < PacketKind.data1.size := by decide
    rw [scanOf, short, handleGnssRaw, if_pos few]
  rw [nothing, List.map_nil] at out
  rw [overflowChunks, filledChunks, acceptedFrames_append, out, List.append_nil]
  exact none

/-- A frame whose payload is a frame, read without its last three bytes first. -/
def nestedFrame : CshgFrame where
  bytes := [0x43, 0x53, 0x48, 0x47, 0x00, 0x00, 0x0C, 0x00, 0x43, 0x53, 0x48, 0x47,
      0x00, 0x00, 0x01, 0x00, 0x00, 0xEA, 0x0A, 0xBF, 0xC6, 0x7D, 0xAE]
  frame := ⟨.data1, 0, 12⟩
  kind := rfl
  size := rfl
  valid := ⟨by decide +kernel, by decide +kernel, by decide +kernel, by decide +kernel⟩
  nonempty := by decide
  small := by decide

def nestedChunks : List (List UInt8) := [nestedFrame.bytes.take 20, nestedFrame.bytes.drop 20]

theorem nestedChunks_sizes : ∀ c ∈ nestedChunks, 1 ≤ c.length ∧ c.length ≤ 4096 := by
  intro c hc
  have size : nestedFrame.bytes.length = 23 := nestedFrame.size
  simp only [nestedChunks, List.mem_cons, List.not_mem_nil, or_false] at hc
  rcases hc with hc | hc <;> rw [hc] <;> simp only [List.length_take, List.length_drop] <;> omega

/-- A frame is lost in the overflow guard, and another one to the frame inside it. -/
theorem frames_lost :
    (overflowChunks.flatten = overflowStream.bytes ∧
      (∀ c ∈ overflowChunks, 1 ≤ c.length ∧ c.length ≤ 4096) ∧
      acceptedFrames sizeofDataRaw overflowChunks = [] ∧
      overflowStream.frames = [(8186, ⟨.data1, 0, 1⟩)]) ∧
    (nestedChunks.flatten = (zerosStream 0 0 nestedFrame).bytes ∧
      (∀ c ∈ nestedChunks, 1 ≤ c.length ∧ c.length ≤ 4096) ∧
      acceptedFrames sizeofDataRaw nestedChunks = [(8, ⟨.data1, 0, 1⟩)] ∧
      (zerosStream 0 0 nestedFrame).frames = [(0, ⟨.data1, 0, 12⟩)]) :=
  ⟨⟨filledChunks_flatten overflowStream,
      filledChunks_sizes (by rw [overflowStream_length]; omega)
        (by rw [overflowStream_length]; omega),
      acceptedFrames_overflowChunks, overflowStream_frames⟩,
    by decide +kernel, nestedChunks_sizes, by decide +kernel,
    zerosStream_frames 0 0 nestedFrame⟩

end Ok3506.Gnss
