import Ok3506.Comm.Commands
import Ok3506.Comm.EphSwitch
import Ok3506.Gnss.Delivery
import Ok3506.Gnss.Dispatch
import Ok3506.Gnss.EphPayload

/-!
The ephemeris telemetry, from the serial line to the datagrams.

The GNSS thread reads a chunk, finds the frames it completes, and passes the record of each to
`net_send_eph` if its switch is on at that moment; in between, the other threads receive
commands and send. `relay` says what is sent: it runs over the frames of the stream and over
the commands, and knows neither buffers nor chunks.
-/

namespace Ok3506.Telemetry

open Mem Gnss Machine
open Comm (Env Service CommCall Registers EphType registers commandStep encodeFrame ephSwBit)

/-! ### The two threads -/

/-- The enumeration value that the case of a kind passes to `net_send_eph`. -/
def ephTypeOf : EphKind → EphType
  | .bd2 => .bd2eph
  | .bd3 => .bd3eph
  | .bd3cnav2 => .bd3cnav2eph
  | .bd3cnav3 => .bd3cnav3eph
  | .bdxw => .bdxweph
  | .gps => .gpseph
  | .glo => .gloeph
  | .gal => .galeph

/-- The GNSS thread and the service. Of a call under way, `data` is the buffer and `found` are
the frames that it has not come to. -/
structure Station where
  gnss : GnssRaw := {}
  data : Mem := fun _ => 0
  found : List (Nat × RawFrame) := []
  service : Service := {}

inductive Event where
  /-- the GNSS thread reads a chunk and looks for frames -/
  | read (chunk : List UInt8)
  /-- the GNSS thread handles the next frame -/
  | frame (fileEn : EphKind → Bool) (env : Env)
  /-- a step of the other threads -/
  | comm (i : Comm.Input)

/-- The record that a case passes to `net_send_eph`. -/
def sentRecord (actions : List SwitchAction) : Option (EphKind × EphRecord) :=
  actions.findSome? fun
    | .netSendEph k eph => some (k, eph)
    | .fileAppend _ _ => none

/-- The service behind `net_send_eph` for a record. -/
def sendRecord (s : Service) (env : Env) (k : EphKind) (eph : EphRecord) :
    Service × List CommCall :=
  Comm.step s (.netSendEph (ephTypeOf k) (ephPayload k eph) env)

/-- One step. The GNSS thread reads when no frame is left, and handles one as long as there
is one. -/
def step (fuel : Nat) (s : Station) : Event → Option (Station × List CommCall)
  | .read chunk =>
      if s.found = [] then
        let call := gnssHandleRawBytes fuel s.gnss chunk
        some ({ s with
          gnss := call.1, data := (scanned s.gnss chunk).dataRaw, found := call.2 }, [])
      else none
  | .frame fileEn env =>
      match s.found with
      | [] => none
      | p :: found =>
          match sentRecord (switchPacket ⟨fileEn, ephSwBit s.service.config.ephSw⟩ s.data p) with
          | some (k, eph) =>
              let (service, calls) := sendRecord s.service env k eph
              some ({ s with found, service }, calls)
          | none => some ({ s with found }, [])
  | .comm i =>
      let (service, calls) := Comm.step s.service i
      some ({ s with service }, calls)

/-! ### What is sent -/

/-- The record of a frame, if it is passed to an ephemeris decoder. -/
def ephFrame (data : Mem) (p : Nat × RawFrame) : Option (EphKind × EphRecord) :=
  match p.2.kind, ephKindOf p.2.type with
  | .data1, some k =>
      if LengthGuard p.2.length k then some (k, recordOf k (data.shift p.1)) else none
  | _, _ => none

/-- The EPH_INFO frame of a record, to the peer in force. -/
def ephInfo (id : UInt16) (r : Registers) (k : EphKind) (eph : EphRecord) : CommCall :=
  .udp (encodeFrame id Comm.sendCmdEphInfo ([(ephTypeOf k).toByte] ++ ephPayload k eph)) r.peer

/-- What is sent for a frame with the switches in force. -/
def relayed (id : UInt16) (r : Registers) (data : Mem) (p : Nat × RawFrame) : List CommCall :=
  match ephFrame data p with
  | some (k, eph) => if ephSwBit r.ephSw k then [ephInfo id r k eph] else []
  | none => []

/-- The EPH_INFO frames of a run: the commands act on the registers, and each frame of the
stream that is handled finds the registers as they are. -/
def relay (id : UInt16) (data : Mem) :
    Registers → List (Nat × RawFrame) → List Event → List CommCall
  | _, _, [] => []
  | r, frames, .read _ :: es => relay id data r frames es
  | r, p :: frames, .frame _ _ :: es => relayed id r data p ++ relay id data r frames es
  | r, [], .frame _ _ :: es => relay id data r [] es
  | r, frames, .comm i :: es => relay id data (commandStep id r i).1 frames es

/-- The call sends an EPH_INFO frame: the command byte of its frame says so. -/
def isEphInfo : CommCall → Bool
  | .udp data _ => data[4]? = some Comm.sendCmdEphInfo
  | .tcp _ | .mqtt _ => false

/-- A step of the other threads; only the GNSS thread sends records. -/
def Foreign : Comm.Input → Prop
  | .netSendEph _ _ _ => False
  | .netSend cmd _ _ => cmd ≠ Comm.sendCmdEphInfo
  | .recvfrom _ _ _ _ | .recvError | .pop => True

/-- What the GNSS thread reads in a step. -/
def Event.chunk? : Event → Option (List UInt8)
  | .read chunk => some chunk
  | .frame _ _ | .comm _ => none

/-- A step that handles a frame. -/
def Event.isFrame : Event → Bool
  | .frame _ _ => true
  | .read _ | .comm _ => false

/-! ### Calls -/

theorem encodeFrame_cmd (id : UInt16) (cmd : UInt8) (payload : List UInt8) :
    (encodeFrame id cmd payload)[4]? = some cmd := rfl

theorem isEphInfo_reply (id : UInt16) (r : Registers) (f : Comm.NetFrame) :
    ∀ c ∈ Comm.reply id r f, isEphInfo c = false := by
  rw [Comm.reply]
  split
  · intro c mem
    rw [List.mem_singleton.mp mem, isEphInfo, encodeFrame_cmd]
    decide
  · split
    · intro c mem
      rw [List.mem_singleton.mp mem, isEphInfo, encodeFrame_cmd]
      decide
    · intro c mem
      cases mem

/-- A step of the other threads that sends no EPH_INFO frame of its own sends none on behalf
of a datagram either. -/
theorem isEphInfo_foreign {s : Service} {i : Comm.Input} (foreign : Foreign i) :
    (Comm.step s i).2.filter isEphInfo = [] := by
  rw [(Comm.step_commandStep s i).2.2, List.filter_eq_nil_iff]
  intro c mem
  rw [Bool.not_eq_true]
  cases i with
  | recvfrom peer datagram stack env =>
      rw [commandStep] at mem
      split at mem
      · exact isEphInfo_reply _ _ _ c mem
      · cases mem
  | netSend cmd payload env =>
      rw [commandStep, List.mem_singleton] at mem
      rw [mem, isEphInfo, encodeFrame_cmd, decide_eq_false_iff_not, Option.some.injEq]
      exact foreign
  | netSendEph => exact foreign.elim
  | recvError | pop => cases mem

/-- **What the case of a frame does**: nothing, unless its record is that of an ephemeris. -/
theorem switchPacket_eq (sw : EphSwitches) (data : Mem) (p : Nat × RawFrame) :
    switchPacket sw data p =
      match ephFrame data p with
      | some (k, eph) =>
          (if recordsFile k && sw.fileEn k then [.fileAppend k eph] else []) ++
            (if sw.ephSw k then [.netSendEph k eph] else [])
      | none => [] := by
  rw [switchPacket, packetDecoder, ephFrame]
  cases kind : p.2.kind with
  | data2 =>
      simp only
      by_cases posdatab : p.2.type = rawPosdatab
      · by_cases long : p.2.length ≥ 70
        · rw [if_pos posdatab, if_pos long]
          rfl
        · rw [if_pos posdatab, if_neg long]
      · rw [if_neg posdatab]
  | data1 =>
      cases type : ephKindOf p.2.type with
      | some k =>
          simp only
          by_cases guarded : LengthGuard p.2.length k
          · rw [if_pos guarded, if_pos guarded]
            rfl
          · rw [if_neg guarded, if_neg guarded]
      | none =>
          simp only
          by_cases prangeb : p.2.type = rawPrangeb ∨ p.2.type = rawPrange2b
          · by_cases nonempty : p.2.length > 0
            · rw [if_pos prangeb, if_pos nonempty]
              rfl
            · rw [if_pos prangeb, if_neg nonempty]
          · rw [if_neg prangeb]

/-- The case of a frame passes its record on exactly when the switch is on. -/
theorem sentRecord_switchPacket (sw : EphSwitches) (data : Mem) (p : Nat × RawFrame) :
    sentRecord (switchPacket sw data p) = (ephFrame data p).filter fun r => sw.ephSw r.1 := by
  rw [switchPacket_eq]
  cases ephFrame data p with
  | none => rfl
  | some r =>
      obtain ⟨k, eph⟩ := r
      dsimp only
      rw [Option.filter_some]
      cases recordsFile k && sw.fileEn k <;> cases sw.ephSw k <;> simp [sentRecord]

/-- The frames that are relayed are EPH_INFO frames. -/
theorem filter_relayed (id : UInt16) (r : Registers) (data : Mem) (p : Nat × RawFrame) :
    (relayed id r data p).filter isEphInfo = relayed id r data p := by
  rw [List.filter_eq_self]
  intro c mem
  rw [relayed] at mem
  split at mem
  · split at mem
    · rw [List.mem_singleton.mp mem, ephInfo, isEphInfo, encodeFrame_cmd]
      decide
    · cases mem
  · cases mem

/-! ### One step -/

/-- The same frame lies in both memories, at places that may differ. -/
def SameFrame (data data' : Mem) (p q : Nat × RawFrame) : Prop :=
  p.2 = q.2 ∧ ∀ k < q.2.size, data.shift p.1 k = data'.shift q.1 k

section Steps

variable {S : FrameStream} {fuel : Nat} {s s' : Station} {n : Nat} {calls : List CommCall}
  {handled now rest : List (Nat × RawFrame)}

/-- After `n` bytes of the stream: some frames have been handled, the call under way has found
`now`, and the buffer waits for the rest. -/
structure Tracks (S : FrameStream) (s : Station) (n : Nat)
    (handled now rest : List (Nat × RawFrame)) : Prop where
  delivered : ∃ t : Traced, t.raw = s.gnss ∧ Delivered S t n (handled ++ now) rest
  found : List.Forall₂ (SameFrame s.data S.mem) s.found now

theorem Tracks.start (S : FrameStream) (service : Service) :
    Tracks S { service } 0 [] [] S.frames :=
  ⟨⟨{}, rfl, .start S⟩, .nil⟩

/-- **A chunk** is read when no frame is left, and finds the frames that it completes. -/
theorem Tracks.read (h : Tracks S s n handled now rest) (inside : S.NoFrameInside)
    (gaps : S.GapsAtMost 3062) (enough : sizeofDataRaw ≤ fuel) {c : List UInt8}
    (size : 1 ≤ c.length ∧ c.length ≤ 4096) (front : c <+: S.bytes.drop n)
    (read : n ≤ S.bytes.length)
    (stepped : step fuel s (.read c) = some (s', calls)) :
    calls = [] ∧ now = [] ∧ s'.service = s.service ∧
      ∃ now' later, rest = now' ++ later ∧ Tracks S s' (n + c.length) handled now' later := by
  obtain ⟨⟨t, raw, d⟩, found⟩ := h
  rw [step] at stepped
  split at stepped
  case isFalse => cases stepped
  case isTrue idle =>
    cases stepped
    rw [idle] at found
    cases found
    rw [List.append_nil] at d
    obtain ⟨behind, split⟩ := front
    have more : n + c.length ≤ S.bytes.length := by
      have := congrArg List.length split
      rw [List.length_append, List.length_drop] at this
      omega
    have next : S.bytes.take (n + c.length) = S.bytes.take n ++ c := by
      rw [List.take_add, ← split, List.take_left]
    have room : t.raw.dataRawLen + c.length ≤ sizeofDataRaw := by
      have half := d.dataRawLen_le read gaps
      have whole : sizeofDataRaw = 8192 := rfl
      omega
    obtain ⟨now', later, parts, -, d'⟩ := d.step inside read next more size.1 room enough
    have complete : ∀ p ∈ now', p.1 + p.2.size ≤ n + c.length := fun p hp =>
      d'.complete p (List.mem_append_right _ hp)
    have known := d.knownFrames inside read next more size.1 room parts complete d'.pending
    obtain ⟨length, bytes⟩ := d.scanned read next size.1 room
    have accepted : (gnssHandleRawBytes fuel t.raw c).2 = rebase (countAfter 0 handled) now' := by
      have bound := (d.inv.held d.run c).2.1
      have whole : sizeofDataRaw = 8192 := rfl
      rw [gnssHandleRawBytes_accepted d.run, scanOf, length]
      exact (handleGnssRaw_knownFrames (by omega) known (by omega)).2.1
    refine ⟨rfl, rfl, rfl, now', later, parts, ⟨⟨_, ?_, d'⟩, ?_⟩⟩
    · rw [trace_raw, raw]
    · simp only
      rw [← raw, accepted, rebase, List.forall₂_map_left_iff, List.forall₂_same]
      intro q hq
      refine ⟨rfl, fun k hk => ?_⟩
      have first := d.count_le_pending (by rw [parts]; exact List.mem_append_left _ hq)
      have last := complete q hq
      have here : countAfter 0 handled + (q.1 - countAfter 0 handled + k) = q.1 + k := by omega
      rw [shift_apply, shift_apply, bytes _ (by omega), here]

/-- **A frame** is handled with the switches in force. -/
theorem Tracks.frame (h : Tracks S s n handled now rest)
    (long : ∀ p ∈ S.frames, LongEnough (S.mem.shift p.1) p.2) {fileEn : EphKind → Bool}
    {env : Env} (stepped : step fuel s (.frame fileEn env) = some (s', calls)) :
    ∃ q now', now = q :: now' ∧ Tracks S s' n (handled ++ [q]) now' rest ∧
      registers s'.service = registers s.service ∧
      s'.service.config.id = s.service.config.id ∧
      calls = relayed s.service.config.id (registers s.service) S.mem q := by
  obtain ⟨⟨t, raw, delivered⟩, found⟩ := h
  rw [step] at stepped
  cases waiting : s.found with
  | nil =>
      rw [waiting] at stepped
      cases stepped
  | cons p left =>
      rw [waiting] at stepped found
      cases found with
      | @cons _ q _ now' first later =>
          have member : q ∈ S.frames := by
            rw [delivered.frames]
            simp
          have record := sentRecord_switchPacket ⟨fileEn, ephSwBit s.service.config.ephSw⟩
            S.mem q
          obtain ⟨i, f⟩ := p
          obtain ⟨j, g⟩ := q
          obtain rfl : f = g := first.1
          have same : switchPacket ⟨fileEn, ephSwBit s.service.config.ephSw⟩ s.data (i, f) =
              switchPacket ⟨fileEn, ephSwBit s.service.config.ephSw⟩ S.mem (j, f) :=
            switchPacket_eq_of_agree (long _ member) fun k hk => (first.2 k hk).symm
          rw [← same] at record
          have next : ∃ t : Traced, t.raw = s.gnss ∧
              Delivered S t n ((handled ++ [(j, f)]) ++ now') rest := by
            refine ⟨t, raw, ?_⟩
            rwa [List.append_assoc]
          refine ⟨_, now', rfl, ?_⟩
          simp only [record] at stepped
          rw [relayed]
          cases frame : ephFrame S.mem (j, f) with
          | none =>
              rw [frame] at stepped
              cases stepped
              exact ⟨⟨next, later⟩, rfl, rfl, rfl⟩
          | some r =>
              obtain ⟨k, eph⟩ := r
              rw [frame, Option.filter_some] at stepped
              by_cases on : ephSwBit s.service.config.ephSw k
              · have sent := Comm.step_commandStep s.service
                  (.netSendEph (ephTypeOf k) (ephPayload k eph) env)
                simp only [on, if_true, sendRecord] at stepped
                cases stepped
                refine ⟨⟨next, later⟩, sent.1, sent.2.1, ?_⟩
                rw [sent.2.2]
                exact (if_pos on).symm
              · simp only [on] at stepped
                cases stepped
                exact ⟨⟨next, later⟩, rfl, rfl, (if_neg on).symm⟩

/-- **A step of the other threads** acts on the registers. -/
theorem Tracks.comm (h : Tracks S s n handled now rest) {i : Comm.Input}
    (stepped : step fuel s (.comm i) = some (s', calls)) :
    Tracks S s' n handled now rest ∧
      registers s'.service = (commandStep s.service.config.id (registers s.service) i).1 ∧
      s'.service.config.id = s.service.config.id ∧ calls = (Comm.step s.service i).2 := by
  cases stepped
  obtain ⟨next, id, -⟩ := Comm.step_commandStep s.service i
  exact ⟨⟨h.delivered, h.found⟩, next, id, rfl⟩

end Steps

/-! ### Runs -/

section Run

variable {S : FrameStream} {fuel : Nat}

/-- From any state of a run, each frame that is still to come is relayed once. -/
theorem Tracks.run (inside : S.NoFrameInside) (gaps : S.GapsAtMost 3062)
    (long : ∀ p ∈ S.frames, LongEnough (S.mem.shift p.1) p.2) (enough : sizeofDataRaw ≤ fuel)
    {s s' : Station} {n : Nat} {handled now rest : List (Nat × RawFrame)}
    (h : Tracks S s n handled now rest) {es : List Event} {outs : List (List CommCall)}
    (run : exec (step fuel) s es = some (s', outs))
    (sizes : ∀ c, .read c ∈ es → 1 ≤ c.length ∧ c.length ≤ 4096)
    (foreign : ∀ i, .comm i ∈ es → Foreign i)
    (front : (es.filterMap Event.chunk?).flatten <+: S.bytes.drop n)
    (read : n ≤ S.bytes.length) :
    outs.flatten.filter isEphInfo =
        relay s.service.config.id S.mem (registers s.service) (now ++ rest) es ∧
      ∃ handled' now' rest',
        Tracks S s' (n + (es.filterMap Event.chunk?).flatten.length) handled' now' rest' ∧
          handled'.length = handled.length + es.countP Event.isFrame := by
  induction es generalizing s n handled now rest outs with
  | nil =>
      cases run
      exact ⟨rfl, handled, now, rest, h, rfl⟩
  | cons e es ih =>
      obtain ⟨next, out, later, stepped, tail, rfl⟩ := exec_cons_eq_some run
      have sizes' := fun c mem => sizes c (List.mem_cons_of_mem e mem)
      have foreign' := fun i mem => foreign i (List.mem_cons_of_mem e mem)
      rw [List.flatten_cons, List.filter_append]
      cases e with
      | read c =>
          have chunks : (Event.read c :: es).filterMap Event.chunk? =
              c :: es.filterMap Event.chunk? := rfl
          rw [chunks, List.flatten_cons] at front ⊢
          have first : c <+: S.bytes.drop n := (List.prefix_append _ _).trans front
          obtain ⟨rfl, rfl, service, now', rest', rfl, tracks⟩ :=
            h.read inside gaps enough (sizes c List.mem_cons_self) first read stepped
          have behind : (es.filterMap Event.chunk?).flatten <+: S.bytes.drop (n + c.length) := by
            obtain ⟨left, split⟩ := front
            rw [← List.drop_drop, ← split, List.append_assoc, List.drop_left]
            exact List.prefix_append _ _
          have more : n + c.length ≤ S.bytes.length := by
            have := first.length_le
            rw [List.length_drop] at this
            omega
          obtain ⟨same, handled', now'', rest'', tracks', count⟩ :=
            ih tracks tail sizes' foreign' behind more
          rw [service] at same
          refine ⟨same, handled', now'', rest'', ?_, count⟩
          rwa [List.length_append, ← Nat.add_assoc]
      | frame fileEn env =>
          obtain ⟨q, now', rfl, tracks, regs, id, rfl⟩ := h.frame long stepped
          obtain ⟨same, handled', now'', rest'', tracks', count⟩ :=
            ih tracks tail sizes' foreign' front read
          rw [regs, id] at same
          refine ⟨?_, handled', now'', rest'', tracks', ?_⟩
          · rw [filter_relayed, same]
            rfl
          · rw [count, List.length_append, List.countP_cons_of_pos rfl, List.length_singleton]
            omega
      | comm i =>
          obtain ⟨tracks, regs, id, rfl⟩ := h.comm stepped
          obtain ⟨same, handled', now'', rest'', tracks', count⟩ :=
            ih tracks tail sizes' foreign' front read
          rw [regs, id] at same
          refine ⟨?_, handled', now'', rest'', tracks', ?_⟩
          · rw [isEphInfo_foreign (foreign i List.mem_cons_self), same]
            rfl
          · rw [count, List.countP_cons_of_neg Bool.false_ne_true]

/-- **The telemetry.** Along every run, whatever the chunks and however commands come between
frames, the EPH_INFO frames that are sent are those of the relay; and once the stream is read
and no frame is left, each frame of it has been handled once. -/
theorem ephemeris_relayed (S : FrameStream) (inside : S.NoFrameInside)
    (gaps : S.GapsAtMost 3062) (long : ∀ p ∈ S.frames, LongEnough (S.mem.shift p.1) p.2)
    (fuel : Nat) (enough : sizeofDataRaw ≤ fuel) (service : Service) (es : List Event)
    (sizes : ∀ c, .read c ∈ es → 1 ≤ c.length ∧ c.length ≤ 4096)
    (foreign : ∀ i, .comm i ∈ es → Foreign i)
    (stream : (es.filterMap Event.chunk?).flatten <+: S.bytes)
    (s' : Station) (outs : List (List CommCall))
    (run : exec (step fuel) { service } es = some (s', outs)) :
    outs.flatten.filter isEphInfo =
        relay service.config.id S.mem (registers service) S.frames es ∧
      ((es.filterMap Event.chunk?).flatten = S.bytes → s'.found = [] →
        es.countP Event.isFrame = S.frames.length) := by
  obtain ⟨same, handled, now, rest, tracks, count⟩ :=
    (Tracks.start S service).run inside gaps long enough run sizes foreign stream (Nat.zero_le _)
  refine ⟨same, fun whole idle => ?_⟩
  obtain ⟨⟨t, -, delivered⟩, found⟩ := tracks
  rw [idle] at found
  cases found
  have frames := delivered.frames
  cases rest with
  | nil =>
      rw [frames, List.append_nil, List.append_nil, count]
      exact (Nat.zero_add _).symm
  | cons p rest =>
      have pending := delivered.pending p List.mem_cons_self
      have fits := (S.frames_spec (by rw [frames]; simp : p ∈ S.frames)).2.2.2
      rw [whole, Nat.zero_add] at pending
      omega

end Run

/-- A GLONASS ephemeris frame whose payload is zero, of the length that its decoder reads.
-/
def gloFrame : CshgFrame where
  bytes := [0x43, 0x53, 0x48, 0x47, 0x15, 0x00, 0x23, 0x00] ++ List.replicate 35 0 ++
    [0x59, 0xE3, 0x93]
  frame := ⟨.data1, 21, 35⟩
  kind := rfl
  size := rfl
  valid := ⟨by decide +kernel, by decide +kernel, by decide +kernel, by decide +kernel⟩
  nonempty := by decide
  small := by decide

/-- A command switches GLONASS on; the frame comes in two chunks, and a command without
meaning before it is handled. -/
def gloEvents : List Event :=
  let bytes := (zerosStream 2 3 gloFrame).bytes
  [.comm (Comm.commandInput Comm.revCmdSetEphSw [0x80, 0]), .read (bytes.take 20),
    .read (bytes.drop 20), .comm (Comm.commandInput 0xFF []), .frame (fun _ => false) {}]

theorem gloEvents_relayed :
    ∃ outs, (exec (step sizeofDataRaw) { service := Comm.openService } gloEvents).map Prod.snd =
        some outs ∧
      outs.flatten.filter isEphInfo = relay 1 (zerosStream 2 3 gloFrame).mem
        (registers Comm.openService) (zerosStream 2 3 gloFrame).frames gloEvents ∧
      (relay 1 (zerosStream 2 3 gloFrame).mem (registers Comm.openService)
        (zerosStream 2 3 gloFrame).frames gloEvents).length = 1 := by
  have inside : (zerosStream 2 3 gloFrame).NoFrameInside := by
    intro p hp i lt lt'
    have only : p = (2, ⟨.data1, 21, 35⟩) := List.mem_singleton.mp hp
    subst only
    have none : ∀ i < 48, 2 < i → frameAt (zerosStream 2 3 gloFrame).mem
        (zerosStream 2 3 gloFrame).bytes.length i = none := by
      decide +kernel
    exact none i lt' lt
  have long : ∀ p ∈ (zerosStream 2 3 gloFrame).frames,
      LongEnough ((zerosStream 2 3 gloFrame).mem.shift p.1) p.2 := by
    intro p hp
    rw [List.mem_singleton.mp hp]
    exact (by decide : payloadLen .glo ≤ 35)
  have sizes : ∀ c, .read c ∈ gloEvents → 1 ≤ c.length ∧ c.length ≤ 4096 := by
    intro c mem
    simp only [gloEvents, List.mem_cons, reduceCtorEq, false_or, or_false, Event.read.injEq,
      List.not_mem_nil] at mem
    rcases mem with rfl | rfl <;> decide +kernel
  have foreign : ∀ i, .comm i ∈ gloEvents → Foreign i := by
    intro i mem
    simp only [gloEvents, List.mem_cons, reduceCtorEq, false_or, or_false, Event.comm.injEq,
      List.not_mem_nil] at mem
    rcases mem with rfl | rfl <;> trivial
  have runs : (exec (step sizeofDataRaw) { service := Comm.openService } gloEvents).isSome := by
    decide +kernel
  obtain ⟨⟨s', outs⟩, run⟩ := Option.isSome_iff_exists.mp runs
  refine ⟨outs, by rw [run]; rfl, ?_, by decide +kernel⟩
  exact (ephemeris_relayed _ inside (by decide +kernel) long _ le_rfl _ _ sizes foreign
    (by decide +kernel) s' outs run).1

end Ok3506.Telemetry
