import Ok3506.Gnss.RawStream

/-!
How often a `$HEXDATA` frame is handled.

The count that `handle_gnss_raw` returns covers CSHG frames only, so a
`$HEXDATA` frame leaves `data_raw` together with a CSHG frame behind it, or when
the overflow guard empties the buffer. `hexdata_handled_once` says that nothing
else is needed: if every call that another call follows meets a CSHG frame
behind its last `$HEXDATA` frame, no stream position is handled twice.
-/

namespace Ok3506.Gnss

open Mem

/-- The stream positions of the `$HEXDATA` frames in a log. -/
def hexPositions (log : List (Nat × RawFrame)) : List Nat :=
  (log.filter fun p => p.2.kind = .data2).map Prod.fst

/-- Behind every `$HEXDATA` frame the scan comes to there is a CSHG frame. -/
def HexFollowed (data : Mem) (len : Nat) : Prop :=
  ∀ i f, OnPath data len i → frameAt data len i = some f → f.kind = .data2 →
    ∃ j g, i < j ∧ frameAt data len j = some g ∧ g.kind = .data1

/-- In every call that another call follows, behind every `$HEXDATA` frame the
scan comes to there is a CSHG frame, unless the next call finds the buffer full
or there is no next call because the scan does not end. -/
def HexFollowedRun (fuel : Nat) (chunks : List (List UInt8)) : Prop :=
  ∀ pre c d post, chunks = pre ++ c :: d :: post →
    (afterChunks fuel (pre ++ [c])).hung = true ∨
      (afterChunks fuel (pre ++ [c])).dataRawLen = sizeofDataRaw ∨
      HexFollowed (scanned (afterChunks fuel pre) c).dataRaw
        (scanned (afterChunks fuel pre) c).dataRawLen

/-- From an offset on the path the scan comes to a CSHG frame, if there is one
further on. -/
theorem OnPath.exists_data1 {data : Mem} {len a j : Nat} {g : RawFrame}
    (path : OnPath data len a) (le : a ≤ j) (hg : frameAt data len j = some g)
    (hk : g.kind = .data1) :
    ∃ j' g', a ≤ j' ∧ OnPath data len j' ∧ frameAt data len j' = some g' ∧ g'.kind = .data1 := by
  induction j using Nat.strong_induction_on generalizing g with
  | _ j ih =>
      by_cases earlier : ∃ i f, a ≤ i ∧ i < j ∧ frameAt data len i = some f ∧ f.kind = .data1
      · obtain ⟨i, f, hai, hij, hf, hd⟩ := earlier
        exact ih i hij hai hf hd
      · refine ⟨j, g, le, path.walk le (lt_of_frameAt hg).le ?_, hg, hk⟩
        intro i f hai hij hf
        cases hd : f.kind with
        | data1 => exact (earlier ⟨i, f, hai, hij, hf, hd⟩).elim
        | data2 => rfl

/-- A scan that has ended has counted past every followed `$HEXDATA` frame. -/
theorem lt_handleCnt_of_followed {data : Mem} {len fuel : Nat} (hlen : len < 2 ^ 64)
    (ended : Returned len (handleGnssRaw fuel data len)) (followed : HexFollowed data len)
    {p : Nat × RawFrame} (hp : p ∈ (handleGnssRaw fuel data len).accepted)
    (hk : p.2.kind = .data2) : p.1 < (handleGnssRaw fuel data len).handleCnt := by
  have counted := scanCount_handleGnssRaw data hlen fuel
  obtain ⟨path, hf⟩ := onPath_of_accepted hlen hp
  obtain ⟨j, g, hij, hg, hd⟩ := followed p.1 p.2 path hf hk
  have next := path.skip hf
  rw [RawFrame.advance, hk] at next
  obtain ⟨j', g', le, path', hg', hd'⟩ := next.exists_data1 hij hg hd
  have := counted.passed (j', g') ((accepted_iff hlen ended).mpr ⟨path', hg'⟩) hd'
  simp only at le this
  omega

/-! ### One call -/

section Call

variable {stream : List UInt8} {s : Traced} (fuel : Nat)

/-- A held position was kept from the last call or is new. -/
theorem mem_held {buf : List UInt8} {o : Nat} (h : o ∈ s.held buf) : o ∈ s.kept ∨ s.fed ≤ o := by
  rcases List.mem_append.mp (List.mem_of_mem_take h) with h | h
  · exact .inl h
  · exact .inr (List.mem_range'_1.mp h).1

/-- The scan accepts frames inside the held bytes. -/
theorem lt_held_of_accepted (inv : TraceInv stream s) (run : s.raw.hung = false)
    {buf : List UInt8} {p : Nat × RawFrame} (hp : p ∈ (scanOf fuel s.raw buf).accepted) :
    p.1 < (s.held buf).length := by
  obtain ⟨length, bound, -⟩ := inv.held run buf
  have size : sizeofDataRaw = 8192 := rfl
  have := lt_of_frameAt (onPath_of_accepted (by omega) hp).2
  omega

/-- The `$HEXDATA` frames of one call lie at increasing positions. -/
theorem hexPositions_call (inv : TraceInv stream s) (run : s.raw.hung = false)
    (buf : List UInt8) : (hexPositions (trace fuel s buf).2).Pairwise (· < ·) := by
  obtain ⟨length, bound, origins⟩ := inv.held run buf
  obtain ⟨_, _, _, _, out, _⟩ := trace_call fuel inv run buf
  have size : sizeofDataRaw = 8192 := rfl
  have hlen : (scanned s.raw buf).dataRawLen < 2 ^ 64 := by omega
  have counted := scanCount_handleGnssRaw (scanned s.raw buf).dataRaw hlen fuel
  rw [hexPositions, out, List.filter_map, List.map_map, List.pairwise_map]
  refine counted.sorted.imp_of_mem fun {p q} hp hq lt => ?_
  have hp := lt_held_of_accepted fuel inv run (List.mem_filter.mp hp).1
  have hq := lt_held_of_accepted fuel inv run (List.mem_filter.mp hq).1
  simp only [Function.comp, List.getD_eq_getElem _ _ hp, List.getD_eq_getElem _ _ hq]
  exact List.pairwise_iff_getElem.mp origins.sorted _ _ hp hq lt

theorem mem_hexPositions_call (inv : TraceInv stream s) (run : s.raw.hung = false)
    {buf : List UInt8} {h : Nat} (mem : h ∈ hexPositions (trace fuel s buf).2) :
    ∃ p ∈ (scanOf fuel s.raw buf).accepted, p.2.kind = .data2 ∧
      ∃ lt : p.1 < (s.held buf).length, (s.held buf)[p.1] = h := by
  obtain ⟨_, _, _, _, out, _⟩ := trace_call fuel inv run buf
  rw [hexPositions, out, List.filter_map, List.map_map, List.mem_map] at mem
  obtain ⟨p, hp, rfl⟩ := mem
  obtain ⟨hp, hk⟩ := List.mem_filter.mp hp
  have lt := lt_held_of_accepted fuel inv run hp
  exact ⟨p, hp, by simpa using hk, lt, by simp only [Function.comp, List.getD_eq_getElem _ _ lt]⟩

/-- A call followed by another keeps nothing of the `$HEXDATA` frames it handled,
if CSHG frames follow them. -/
theorem hexPositions_gone (inv : TraceInv stream s) (run : s.raw.hung = false)
    {buf : List UInt8} (next : (trace fuel s buf).1.raw.hung = false)
    (followed : HexFollowed (scanned s.raw buf).dataRaw (scanned s.raw buf).dataRawLen) :
    ∀ h ∈ hexPositions (trace fuel s buf).2, ∀ o ∈ (trace fuel s buf).1.origin, h < o := by
  obtain ⟨length, bound, origins⟩ := inv.held run buf
  obtain ⟨n, origin, _, count, _, _⟩ := trace_call fuel inv run buf
  have size : sizeofDataRaw = 8192 := rfl
  have ended : Returned (scanned s.raw buf).dataRawLen (scanOf fuel s.raw buf) := by
    by_contra running
    rw [trace_raw, gnssHandleRawBytes, if_neg (by simp [run])] at next
    simp only [if_neg running] at next
    cases next
  intro h hh o ho
  obtain ⟨p, hp, hk, lt, rfl⟩ := mem_hexPositions_call fuel inv run hh
  have before : p.1 < n := by
    rw [count next]
    exact lt_handleCnt_of_followed (by omega) ended followed hp hk
  rw [origin] at ho
  obtain ⟨k, hk', rfl⟩ := List.getElem_of_mem ho
  rw [List.length_drop] at hk'
  rw [List.getElem_drop]
  exact List.pairwise_iff_getElem.mp origins.sorted _ _ lt (by omega) (by omega)

end Call

/-! ### Runs -/

/-- The frames handled so far lie behind every byte the next call will scan. -/
structure HexInv (handled : List Nat) (s : Traced) : Prop where
  nodup : handled.Nodup
  read : ∀ h ∈ handled, h < s.fed
  gone : ∀ h ∈ handled, ∀ o ∈ s.kept, h < o

/-- One call adds positions that were not handled before. -/
theorem HexInv.call {stream : List UInt8} {s : Traced} (fuel : Nat) {handled : List Nat}
    (hex : HexInv handled s) (inv : TraceInv stream s) (run : s.raw.hung = false)
    (buf : List UInt8) :
    (handled ++ hexPositions (trace fuel s buf).2).Nodup ∧
      (∀ h ∈ handled ++ hexPositions (trace fuel s buf).2, h < (trace fuel s buf).1.fed) ∧
      ∀ h ∈ handled, ∀ o ∈ s.held buf, h < o := by
  obtain ⟨_, _, origins⟩ := inv.held run buf
  obtain ⟨_, _, fed, _, _, _⟩ := trace_call fuel inv run buf
  have passed : ∀ h ∈ handled, ∀ o ∈ s.held buf, h < o := by
    intro h hh o ho
    rcases mem_held ho with ho | ho
    · exact hex.gone h hh o ho
    · exact (hex.read h hh).trans_le ho
  have distinct := (hexPositions_call fuel inv run buf).imp Nat.ne_of_lt
  refine ⟨List.nodup_append.mpr ⟨hex.nodup, distinct, ?_⟩, ?_, passed⟩
  · intro h hh h' hh' same
    obtain ⟨p, _, _, lt, rfl⟩ := mem_hexPositions_call fuel inv run hh'
    exact absurd (passed h hh _ (List.getElem_mem lt)) (by omega)
  · intro h hh
    rw [fed]
    rcases List.mem_append.mp hh with hh | hh
    · exact (hex.read h hh).trans_le (Nat.le_add_right _ _)
    · obtain ⟨p, _, _, lt, rfl⟩ := mem_hexPositions_call fuel inv run hh
      have := origins.below _ (List.getElem_mem lt)
      rw [List.length_append, ← inv.fed run] at this
      exact this

theorem hexPositions_append (a b : List (Nat × RawFrame)) :
    hexPositions (a ++ b) = hexPositions a ++ hexPositions b := by
  simp [hexPositions]

theorem afterChunks_eq (fuel : Nat) (chunks : List (List UInt8)) :
    afterChunks fuel chunks = (Machine.final (trace fuel) {} chunks).raw :=
  (final_trace_raw fuel {} chunks).symm

/-- Along a run whose calls are followed as required, positions stay distinct. -/
theorem hexInv_run (fuel : Nat) (chunks : List (List UInt8))
    (followed : HexFollowedRun fuel chunks) (pre post : List (List UInt8))
    (split : chunks = pre ++ post) :
    (hexPositions (acceptedFrames fuel pre)).Nodup ∧
      (post ≠ [] → (Machine.final (trace fuel) {} pre).raw.hung = true ∨
        HexInv (hexPositions (acceptedFrames fuel pre)) (Machine.final (trace fuel) {} pre)) := by
  induction pre using List.reverseRecOn generalizing post with
  | nil =>
      have nothing : hexPositions (acceptedFrames fuel []) = [] := rfl
      rw [nothing]
      exact ⟨List.nodup_nil, fun _ => .inr ⟨List.nodup_nil, by simp, by simp⟩⟩
  | append_singleton pre c ih =>
      obtain ⟨nodup, before⟩ := ih (c :: post) (by rw [split]; simp)
      set s := Machine.final (trace fuel) {} pre with hs
      have after : Machine.final (trace fuel) {} (pre ++ [c]) = (trace fuel s c).1 := by
        rw [Machine.final_append, Machine.final_cons, Machine.final_nil]
      rw [after, acceptedFrames_append, hexPositions_append]
      cases run : s.raw.hung with
      | true =>
          rw [trace_hung run]
          have same : hexPositions (acceptedFrames fuel pre) ++ hexPositions [] =
              hexPositions (acceptedFrames fuel pre) := List.append_nil _
          rw [same]
          exact ⟨nodup, fun _ => .inl run⟩
      | false =>
          have hex : HexInv (hexPositions (acceptedFrames fuel pre)) s := by
            rcases before (by simp) with stuck | hex
            · rw [run] at stuck
              cases stuck
            · exact hex
          have inv : TraceInv pre.flatten s := traceInv_final fuel pre
          obtain ⟨nodup', read, passed⟩ := hex.call fuel inv run c
          refine ⟨nodup', ?_⟩
          intro more
          obtain ⟨d, post, rfl⟩ := List.exists_cons_of_ne_nil more
          cases next : (trace fuel s c).1.raw.hung with
          | true => exact .inl rfl
          | false =>
              refine .inr ⟨nodup', read, ?_⟩
              intro h hh o ho
              have cond := followed pre c d post (by rw [split]; simp)
              rw [afterChunks_eq, afterChunks_eq, after, ← hs, next] at cond
              rw [Traced.kept] at ho
              split at ho
              · cases ho
              · rename_i notFull
                rcases cond with stuck | full | followed
                · cases stuck
                · exact (notFull full).elim
                · rcases List.mem_append.mp hh with hh | hh
                  · obtain ⟨n, origin, _⟩ := trace_call fuel inv run c
                    rw [origin] at ho
                    exact passed h hh o (List.mem_of_mem_drop ho)
                  · exact hexPositions_gone fuel inv run next followed h hh o ho

/-- **No `$HEXDATA` frame is handled twice** along a run in which every call that
another call follows meets a CSHG frame behind the `$HEXDATA` frames it handles. -/
theorem hexdata_handled_once (fuel : Nat) (chunks : List (List UInt8))
    (followed : HexFollowedRun fuel chunks) :
    (hexPositions (acceptedFrames fuel chunks)).Nodup :=
  (hexInv_run fuel chunks followed chunks [] (by simp)).1

/-- With the CSHG packet behind it the `$HEXDATA` packet is handled once. -/
theorem hexdata_handled_once_cshgPacket :
    HexFollowedRun 100 [hexPacket ++ cshgPacket, [0]] ∧
      (hexPositions (acceptedFrames 100 [hexPacket ++ cshgPacket, [0]])).Nodup := by
  have followed : HexFollowedRun 100 [hexPacket ++ cshgPacket, [0]] := by
    intro pre c d post split
    cases pre with
    | nil =>
        obtain ⟨rfl, -⟩ := List.cons.inj split
        refine .inr (.inr fun i f _ hf hk => ⟨16, ⟨.data1, 0, 1⟩, ?_, by decide +kernel, rfl⟩)
        have room := (frameAt_eq_some.mp hf).2.2
        rw [hk] at room
        have len : (scanned (afterChunks 100 []) (hexPacket ++ cshgPacket)).dataRawLen = 28 := by
          decide +kernel
        simp only [PacketKind.size, len] at room
        omega
    | cons b pre =>
        have len := congrArg List.length split
        simp at len
        omega
  exact ⟨followed, hexdata_handled_once 100 _ followed⟩

/-- Without it the next call, on one more byte, handles it again. -/
theorem hexPacket_handled_twice :
    ¬ (hexPositions (acceptedFrames 100 [hexPacket, [0]])).Nodup := by
  decide +kernel

end Ok3506.Gnss
