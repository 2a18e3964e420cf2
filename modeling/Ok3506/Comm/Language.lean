import Ok3506.Comm.Service

/-!
The language of the network frames, as the encoders and the receiver see it.
-/

namespace Ok3506.Comm

open Mem

variable {m : Mem} {len : Nat}

/-- `bytes` are what `net_send` passes on for an id, a command and a payload. -/
def NetSends (id : UInt16) (cmd : UInt8) (data : Mem) (len : Nat) (bytes : List UInt8) : Prop :=
  ∀ (s : Service) (env : Env), s.config.id = id →
    (netSend s env .udp cmd data len).call = .udp bytes s.udp.peer

theorem netSends_iff {id : UInt16} {cmd : UInt8} {data : Mem} {bytes : List UInt8} :
    NetSends id cmd data len bytes ↔ bytes = encodeFrame id cmd (data.bytes 0 len) := by
  constructor
  · intro h
    have call := h { config := { id } } {} rfl
    rw [netSend_eq] at call
    cases call
    rfl
  · rintro rfl s env rfl
    rw [netSend_eq]
    rfl

/-- The command and payload that a call hands over. -/
def RevCall.content (call : RevCall) : UInt8 × List UInt8 := (call.cmd, call.data.bytes 0 call.len)

/-- What is queued for a payload is accepted as that payload. -/
structure QueuesFrame (s : Service) (env : Env) (cmd : UInt8) (data : Mem) (len : Nat)
    (bytes : List UInt8) : Prop where
  sends : NetSends s.config.id cmd data len bytes
  queues : (netSend s env .udp cmd data len).ret = 0 →
    (netSend s env .udp cmd data len).service.udp.queue s.udp.queueTail =
      ⟨some bytes, bytes.length, s.udp.lastPeer, sizeofSockaddrIn⟩
  received : ∀ buffer : Mem, buffer.bytes 0 bytes.length = bytes →
    ∃ payload : Mem, commServiceReceive .udp buffer bytes.length = ⟨0, some ⟨cmd, payload, len⟩⟩ ∧
      payload.bytes 0 len = data.bytes 0 len

/-- What the two encoders and the receiver agree on. -/
structure FrameLanguage : Prop where
  roundTrip : ∀ s env cmd data len, len ≤ 65526 → ∃ bytes, QueuesFrame s env cmd data len bytes
  accepts : ∀ buffer : Mem, ∀ len ≤ 65536, (commServiceReceive .udp buffer len).ret = 0 ↔
    ∃ id cmd data n bytes trailing, n ≤ 65526 ∧ NetSends id cmd data n bytes ∧
      buffer.bytes 0 len = bytes ++ trailing
  bounded : ∀ buffer buffer' : Mem, ∀ len ≤ 65536, buffer.bytes 0 len = buffer'.bytes 0 len →
    (commServiceReceive .udp buffer len).ret = (commServiceReceive .udp buffer' len).ret ∧
      (commServiceReceive .udp buffer len).rev.map RevCall.content =
        (commServiceReceive .udp buffer' len).rev.map RevCall.content
  ephemeris : ∀ s env kind ephType data len, len ≤ 65525 → ∀ rest : Mem,
    let eph := netSendEph s env kind ephType data len
    let net := netSend s env kind sendCmdEphInfo
      (ofList ([ephType.toByte] ++ data.bytes 0 len) rest) (len + 1)
    eph.call = net.call ∧ eph.ret = net.ret ∧ eph.service.udp = net.service.udp

theorem queuesFrame_netSend (s : Service) (env : Env) (cmd : UInt8) (data : Mem)
    (fits : len ≤ 65526) :
    QueuesFrame s env cmd data len (encodeFrame s.config.id cmd (data.bytes 0 len)) where
  sends := netSends_iff.mpr rfl
  queues h := by
    rw [netSend_eq] at h ⊢
    have pushed : (commUdpSend s.udp (encodeFrame s.config.id cmd (data.bytes 0 len))
      env.mallocOk).2 = 0 := h
    exact queue_of_commUdpSend pushed
  received buffer same := by
    let f : NetFrame := ⟨s.config.id, cmd, data.bytes 0 len, by rwa [bytes_length]⟩
    have whole : f.encode <+: buffer.bytes 0 f.encode.length := by
      refine ⟨[], ?_⟩
      rw [List.append_nil]
      exact same.symm
    obtain ⟨receipt, payload⟩ := commServiceReceive_of_begins whole
    have size : f.payload.length = len := bytes_length data 0 len
    rw [size] at receipt payload
    exact ⟨buffer.shift 7, receipt, payload⟩

theorem content_of_bytes_eq {m' : Mem} (hlen : len ≤ 65536)
    (same : m.bytes 0 len = m'.bytes 0 len) :
    (commServiceReceive .udp m len).ret = (commServiceReceive .udp m' len).ret ∧
      (commServiceReceive .udp m len).rev.map RevCall.content =
        (commServiceReceive .udp m' len).rev.map RevCall.content := by
  by_cases found : ∃ f : NetFrame, f.encode <+: m.bytes 0 len
  · obtain ⟨f, h⟩ := found
    obtain ⟨receipt, payload⟩ := commServiceReceive_of_begins h
    obtain ⟨receipt', payload'⟩ := commServiceReceive_of_begins (same ▸ h)
    rw [receipt, receipt']
    refine ⟨rfl, ?_⟩
    simp only [Option.map_some, RevCall.content, payload, payload']
  · have none := not_exists.mp found
    rw [commServiceReceive_of_not_begins hlen none,
      commServiceReceive_of_not_begins hlen (same ▸ none)]
    exact ⟨rfl, rfl⟩

theorem netSendEph_agrees (s : Service) (env : Env) (kind : CommServiceKind) (ephType : EphType)
    (data : Mem) (len : Nat) (rest : Mem) :
    let eph := netSendEph s env kind ephType data len
    let net := netSend s env kind sendCmdEphInfo
      (ofList ([ephType.toByte] ++ data.bytes 0 len) rest) (len + 1)
    eph.call = net.call ∧ eph.ret = net.ret ∧ eph.service.udp = net.service.udp := by
  have size : ([ephType.toByte] ++ data.bytes 0 len).length = len + 1 := by
    rw [List.length_append, List.length_singleton, bytes_length, Nat.add_comm]
  have payload : (ofList ([ephType.toByte] ++ data.bytes 0 len) rest).bytes 0 (len + 1) =
      [ephType.toByte] ++ data.bytes 0 len := size ▸ bytes_ofList _ rest
  intro eph net
  simp only [eph, net, netSendEph_eq, netSend_eq, payload]
  cases kind <;> exact ⟨rfl, rfl, rfl⟩

/-- **Frames round-trip, and the receiver accepts exactly their language.** -/
theorem frameLanguage : FrameLanguage where
  roundTrip s env cmd data len fits := ⟨_, queuesFrame_netSend s env cmd data fits⟩
  accepts buffer len hlen := by
    rw [commServiceReceive_ret_iff hlen]
    constructor
    · rintro ⟨f, trailing, h⟩
      refine ⟨f.id, f.cmd, zeroPadded f.payload, f.payload.length, f.encode, trailing, f.fits,
        netSends_iff.mpr ?_, h.symm⟩
      rw [bytes_ofList, NetFrame.encode]
    · rintro ⟨id, cmd, data, n, bytes, trailing, fits, sends, h⟩
      refine ⟨⟨id, cmd, data.bytes 0 n, by rwa [bytes_length]⟩, trailing, ?_⟩
      rw [h, netSends_iff.mp sends, NetFrame.encode]
  bounded _ _ _ hlen same := content_of_bytes_eq hlen same
  ephemeris s env kind ephType data len _ rest := netSendEph_agrees s env kind ephType data len rest

end Ok3506.Comm
