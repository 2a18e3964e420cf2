import Ok3506.Comm.Service
import Ok3506.Lib.Machine

/-!
The UDP command protocol as a register machine.

`Registers` are the two settings and the peer; `commandStep` says what a
datagram does to them and which reply it causes. Every run of the service is
a run of this machine, whatever the queue, the receiver and the other services
answer.
-/

namespace Ok3506.Comm

open Mem Machine

/-! ### The register machine -/

/-- What the commands act on. -/
structure Registers where
  ephSw : UInt16
  outputFreq : UInt8
  peer : Option SockaddrIn
  deriving DecidableEq, Repr

/-- The switches after a frame: those of a SET_EPH_SW with a 2-byte payload. -/
def setEphSw (ephSw : UInt16) (f : NetFrame) : UInt16 :=
  match f.payload with
  | [low, high] =>
      if f.cmd = revCmdSetEphSw then UInt16.ofNat (low.toNat + 256 * high.toNat) else ephSw
  | _ => ephSw

/-- The frequency after a frame: that of a SET_OUTPUT_FREQ with a 1-byte payload. -/
def setOutputFreq (outputFreq : UInt8) (f : NetFrame) : UInt8 :=
  match f.payload with
  | [freq] => if f.cmd = revCmdSetOutputFreq then freq else outputFreq
  | _ => outputFreq

/-- The reply to a frame, with the values in force, to the peer in force. -/
def reply (id : UInt16) (r : Registers) (f : NetFrame) : List CommCall :=
  if f.cmd = revCmdSetEphSw ∨ f.cmd = revCmdQueryEphSw then
    [.udp (encodeFrame id sendCmdEphSw (le16 r.ephSw.toNat)) r.peer]
  else if f.cmd = revCmdSetOutputFreq ∨ f.cmd = revCmdQueryOutputFreq then
    [.udp (encodeFrame id sendCmdOutputFreq [r.outputFreq]) r.peer]
  else []

/-- A frame on the registers. -/
def Registers.accept (r : Registers) (f : NetFrame) : Registers :=
  { r with ephSw := setEphSw r.ephSw f, outputFreq := setOutputFreq r.outputFreq f }

/-- The frame that a step accepts. -/
def acceptedFrame : Input → Option NetFrame
  | .recvfrom _ datagram _ _ => NetFrame.decode (received datagram)
  | _ => none

/-- One step of the register machine. -/
def commandStep (id : UInt16) (r : Registers) : Input → Registers × List CommCall
  | .recvfrom peer datagram _ _ =>
      let r := { r with peer := some peer }
      match NetFrame.decode (received datagram) with
      | some f => (r.accept f, reply id (r.accept f) f)
      | none => (r, [])
  | .netSend cmd payload _ => (r, [.udp (encodeFrame id cmd payload) r.peer])
  | .netSendEph ephType payload _ =>
      (r, [.udp (encodeFrame id sendCmdEphInfo ([ephType.toByte] ++ payload)) r.peer])
  | .recvError | .pop => (r, [])

/-- The registers of a service. -/
def registers (s : Service) : Registers := ⟨s.config.ephSw, s.config.outputFreq, s.udp.peer⟩

/-! ### One datagram -/

variable {s : Service} {env : Env}

/-- The state in which a datagram is handled: its sender is the last peer. -/
def fromPeer (s : Service) (peer : SockaddrIn) : Service :=
  { s with udp := { s.udp with lastPeer := peer, lastPeerValid := true } }

theorem received_length_le (datagram : List UInt8) : (received datagram).length ≤ 1023 :=
  List.length_take_le _ _

/-- A datagram that begins with a frame is processed as that frame. -/
theorem commUdpRx_of_decode {peer : SockaddrIn} {datagram : List UInt8} {stack : Mem} {f : NetFrame}
    (h : NetFrame.decode (received datagram) = some f) :
    ∃ data : Mem, data.bytes 0 f.payload.length = f.payload ∧
      commUdpRx s env peer datagram stack =
        revProcess (fromPeer s peer) env ⟨f.cmd, data, f.payload.length⟩ := by
  have front : f.encode <+: (rxBuffer datagram stack).bytes 0 (received datagram).length := by
    rw [bytes_rxBuffer]
    exact decode_eq_some.mp h
  obtain ⟨receipt, payload⟩ := commServiceReceive_of_begins front
  refine ⟨(rxBuffer datagram stack).shift 7, payload, ?_⟩
  simp only [commUdpRx, receipt]
  rfl

/-- A datagram that begins with no frame is dropped. -/
theorem commUdpRx_of_decode_none {peer : SockaddrIn} {datagram : List UInt8} {stack : Mem}
    (h : NetFrame.decode (received datagram) = none) :
    commUdpRx s env peer datagram stack = (fromPeer s peer, []) := by
  have size := received_length_le datagram
  have none (f : NetFrame) :
      ¬ f.encode <+: (rxBuffer datagram stack).bytes 0 (received datagram).length := by
    rw [bytes_rxBuffer, ← decode_eq_some, h]
    exact fun found => by cases found
  simp only [commUdpRx, commServiceReceive_of_not_begins (by omega) none]
  rfl

/-- The frames of the register machine are those that `comm_service_receive`
accepts. -/
theorem ret_iff_decode (datagram : List UInt8) (stack : Mem) :
    (commServiceReceive .udp (rxBuffer datagram stack) (received datagram).length).ret = 0 ↔
      (NetFrame.decode (received datagram)).isSome := by
  have size := received_length_le datagram
  rw [commServiceReceive_ret_iff (by omega), bytes_rxBuffer, Option.isSome_iff_exists]
  simp only [decode_eq_some]

/-! ### What a send leaves alone -/

section Sends

variable (s : Service) (env : Env)

theorem registers_commServiceSend (kind : CommServiceKind) (data : List UInt8) :
    registers (commServiceSend s env kind data).service = registers s := by
  rw [registers, config_commServiceSend, peer_commServiceSend]
  rfl

theorem config_netSend (kind : CommServiceKind) (cmd : UInt8) (data : Mem) (len : Nat) :
    (netSend s env kind cmd data len).service.config = s.config := by
  rw [netSend_eq, config_commServiceSend]

theorem registers_netSend (kind : CommServiceKind) (cmd : UInt8) (data : Mem) (len : Nat) :
    registers (netSend s env kind cmd data len).service = registers s := by
  rw [netSend_eq, registers_commServiceSend]
  rfl

theorem call_netSend (cmd : UInt8) (data : Mem) (len : Nat) :
    (netSend s env .udp cmd data len).call =
      .udp (encodeFrame s.config.id cmd (data.bytes 0 len)) s.udp.peer := by
  rw [netSend_eq]
  rfl

theorem call_sendEphSw :
    (sendEphSw s env).call =
      .udp (encodeFrame s.config.id sendCmdEphSw (le16 s.config.ephSw.toNat)) s.udp.peer := by
  have value : (zeroPadded (le16 s.config.ephSw.toNat)).bytes 0 2 = le16 s.config.ephSw.toNat :=
    bytes_ofList _ _
  rw [sendEphSw, call_netSend, value]

theorem call_sendOutputFreq :
    (sendOutputFreq s env).call =
      .udp (encodeFrame s.config.id sendCmdOutputFreq [s.config.outputFreq]) s.udp.peer := by
  have value : (zeroPadded [s.config.outputFreq]).bytes 0 1 = [s.config.outputFreq] :=
    bytes_ofList _ _
  rw [sendOutputFreq, call_netSend, value]

end Sends

/-! ### What a frame sets -/

section Settings

variable {f : NetFrame} {r : Registers}

theorem setEphSw_eq_self {ephSw : UInt16}
    (h : f.cmd ≠ revCmdSetEphSw ∨ f.payload.length ≠ 2) : setEphSw ephSw f = ephSw := by
  rw [setEphSw]
  split
  · rename_i payload
    rw [payload] at h
    exact if_neg (h.resolve_right fun ne => ne rfl)
  · rfl

theorem setOutputFreq_eq_self {outputFreq : UInt8}
    (h : f.cmd ≠ revCmdSetOutputFreq ∨ f.payload.length ≠ 1) :
    setOutputFreq outputFreq f = outputFreq := by
  rw [setOutputFreq]
  split
  · rename_i payload
    rw [payload] at h
    exact if_neg (h.resolve_right fun ne => ne rfl)
  · rfl

theorem accept_eq_self (sw : f.cmd ≠ revCmdSetEphSw ∨ f.payload.length ≠ 2)
    (freq : f.cmd ≠ revCmdSetOutputFreq ∨ f.payload.length ≠ 1) : r.accept f = r := by
  rw [Registers.accept, setEphSw_eq_self sw, setOutputFreq_eq_self freq]

theorem accept_setEphSw {data : Mem} (cmd : f.cmd = revCmdSetEphSw)
    (payload : data.bytes 0 2 = f.payload) :
    r.accept f = { r with ephSw := UInt16.ofNat (data.load16 0) } := by
  have freq : setOutputFreq r.outputFreq f = r.outputFreq :=
    setOutputFreq_eq_self (.inl (by rw [cmd]; decide))
  have value : setEphSw r.ephSw f = UInt16.ofNat (data.load16 0) := by
    rw [setEphSw, ← payload, bytes_two, load16]
    exact if_pos cmd
  rw [Registers.accept, freq, value]

theorem accept_setOutputFreq {data : Mem} (cmd : f.cmd = revCmdSetOutputFreq)
    (payload : data.bytes 0 1 = f.payload) : r.accept f = { r with outputFreq := data 0 } := by
  have sw : setEphSw r.ephSw f = r.ephSw := setEphSw_eq_self (.inl (by rw [cmd]; decide))
  have value : setOutputFreq r.outputFreq f = data 0 := by
    rw [setOutputFreq, ← payload, bytes_one]
    exact if_pos cmd
  rw [Registers.accept, sw, value]

end Settings

/-! ### One command -/

/-- The outcome of a command in the state `s`: the registers accept the frame,
the id stays, and the reply is sent. -/
structure Answers (s : Service) (f : NetFrame) (out : Service × List CommCall) : Prop where
  registers : registers out.1 = (registers s).accept f
  id : out.1.config.id = s.config.id
  calls : out.2 = reply s.config.id ((Comm.registers s).accept f) f

section Replies

variable {s' : Service} {f : NetFrame}

theorem answers_sendEphSw (regs : registers s' = (registers s).accept f)
    (id : s'.config.id = s.config.id) (h : f.cmd = revCmdSetEphSw ∨ f.cmd = revCmdQueryEphSw) :
    Answers s f ((sendEphSw s' env).service, [(sendEphSw s' env).call]) where
  registers := by rw [← regs, sendEphSw, registers_netSend]
  id := by rw [← id, sendEphSw, config_netSend]
  calls := by
    rw [reply, if_pos h, call_sendEphSw, id, ← regs]
    rfl

theorem answers_sendOutputFreq (regs : registers s' = (registers s).accept f)
    (id : s'.config.id = s.config.id)
    (h : f.cmd = revCmdSetOutputFreq ∨ f.cmd = revCmdQueryOutputFreq) :
    Answers s f ((sendOutputFreq s' env).service, [(sendOutputFreq s' env).call]) where
  registers := by rw [← regs, sendOutputFreq, registers_netSend]
  id := by rw [← id, sendOutputFreq, config_netSend]
  calls := by
    have other : ¬ (f.cmd = revCmdSetEphSw ∨ f.cmd = revCmdQueryEphSw) := by
      rcases h with h | h <;> rw [h] <;> decide
    rw [reply, if_neg other, if_pos h, call_sendOutputFreq, id, ← regs]
    rfl

end Replies

/-- The arguments of `rev_process` are those of a frame. -/
structure Hands (call : RevCall) (f : NetFrame) : Prop where
  cmd : call.cmd = f.cmd
  len : call.len = f.payload.length
  payload : call.data.bytes 0 call.len = f.payload

/-- **One command.** `rev_process` does to the registers what the frame says,
and sends its reply. -/
theorem revProcess_answers {call : RevCall} {f : NetFrame} (h : Hands call f) :
    Answers s f (revProcess s env call) := by
  have hcmd := h.cmd
  have hlen := h.len
  rw [revProcess]
  split
  · rename_i cmd
    rw [hcmd] at cmd
    refine answers_sendEphSw ?_ (by split <;> rfl) (.inl cmd)
    split
    · rename_i two
      rw [accept_setEphSw cmd (two ▸ h.payload)]
      rfl
    · rename_i other
      exact (accept_eq_self (.inr (hlen ▸ other)) (.inl (by rw [cmd]; decide))).symm
  · rename_i notSet
    rw [hcmd] at notSet
    split
    · rename_i cmd
      rw [hcmd] at cmd
      refine answers_sendOutputFreq ?_ (by split <;> rfl) (.inl cmd)
      split
      · rename_i one
        rw [accept_setOutputFreq cmd (one ▸ h.payload)]
        rfl
      · rename_i other
        exact (accept_eq_self (.inl notSet) (.inr (hlen ▸ other))).symm
    · rename_i notFreq
      rw [hcmd] at notFreq
      have same : registers s = (registers s).accept f :=
        (accept_eq_self (.inl notSet) (.inl notFreq)).symm
      split
      · rename_i cmd
        exact answers_sendEphSw same rfl (.inr (hcmd ▸ cmd))
      · rename_i notQuery
        rw [hcmd] at notQuery
        split
        · rename_i cmd
          exact answers_sendOutputFreq same rfl (.inr (hcmd ▸ cmd))
        · rename_i notQueryFreq
          rw [hcmd] at notQueryFreq
          refine ⟨same, rfl, ?_⟩
          rw [reply, if_neg (not_or.mpr ⟨notSet, notQuery⟩),
            if_neg (not_or.mpr ⟨notFreq, notQueryFreq⟩)]

/-! ### Runs -/

/-- A step of the service is a step of the register machine. -/
theorem step_commandStep (s : Service) (i : Input) :
    registers (step s i).1 = (commandStep s.config.id (registers s) i).1 ∧
      (step s i).1.config.id = s.config.id ∧
        (step s i).2 = (commandStep s.config.id (registers s) i).2 := by
  cases i with
  | recvfrom peer datagram stack env =>
      simp only [step, commandStep]
      cases found : NetFrame.decode (received datagram) with
      | none =>
          rw [commUdpRx_of_decode_none found]
          exact ⟨rfl, rfl, rfl⟩
      | some f =>
          obtain ⟨data, payload, handled⟩ := commUdpRx_of_decode found
          have hands : Hands ⟨f.cmd, data, f.payload.length⟩ f := ⟨rfl, rfl, payload⟩
          have answers : Answers (fromPeer s peer) f
              (revProcess (fromPeer s peer) env ⟨f.cmd, data, f.payload.length⟩) :=
            revProcess_answers hands
          rw [handled]
          exact ⟨answers.registers, answers.id, answers.calls⟩
  | recvError => exact ⟨rfl, rfl, rfl⟩
  | netSend cmd payload env =>
      refine ⟨registers_netSend s env .udp cmd _ _, ?_, ?_⟩
      · rw [step, config_netSend]
      · rw [step, call_netSend, bytes_ofList]
        rfl
  | netSendEph ephType payload env =>
      simp only [step, netSendEph_eq, bytes_ofList, registers_commServiceSend,
        config_commServiceSend]
      exact ⟨rfl, trivial, rfl⟩
  | pop =>
      simp only [step]
      cases popped : commUdpQueuePopFrame s.udp with
      | popped frame udp =>
          refine ⟨?_, rfl, rfl⟩
          simp only [registers, commandStep, peer_of_popped popped]
      | waits => exact ⟨rfl, rfl, rfl⟩
      | stopped => exact ⟨rfl, rfl, rfl⟩

/-- The settings that a run leaves behind. -/
def settingsAfter (config : GlobCommConfig) (frames : List NetFrame) : GlobCommConfig :=
  { config with
    ephSw := frames.foldl setEphSw config.ephSw
    outputFreq := frames.foldl setOutputFreq config.outputFreq }

theorem ephSw_commandStep (id : UInt16) (r : Registers) (i : Input) :
    (commandStep id r i).1.ephSw = (acceptedFrame i).elim r.ephSw (setEphSw r.ephSw) := by
  cases i with
  | recvfrom peer datagram stack env =>
      simp only [commandStep, acceptedFrame]
      cases NetFrame.decode (received datagram) <;> rfl
  | recvError | netSend | netSendEph | pop => rfl

theorem outputFreq_commandStep (id : UInt16) (r : Registers) (i : Input) :
    (commandStep id r i).1.outputFreq =
      (acceptedFrame i).elim r.outputFreq (setOutputFreq r.outputFreq) := by
  cases i with
  | recvfrom peer datagram stack env =>
      simp only [commandStep, acceptedFrame]
      cases NetFrame.decode (received datagram) <;> rfl
  | recvError | netSend | netSendEph | pop => rfl

/-- The settings of the register machine are folds of the accepted frames. -/
theorem settings_commandStep (id : UInt16) (r : Registers) (is : List Input) :
    (final (commandStep id) r is).ephSw = (is.filterMap acceptedFrame).foldl setEphSw r.ephSw ∧
      (final (commandStep id) r is).outputFreq =
        (is.filterMap acceptedFrame).foldl setOutputFreq r.outputFreq :=
  ⟨final_foldl_events (ephSw_commandStep id) r is,
    final_foldl_events (outputFreq_commandStep id) r is⟩

/-- **The command protocol.** Along every run the settings are the fold of the
accepted frames, and the sends are those of the register machine. -/
theorem udp_commands (s : Service) (is : List Input) :
    (final step s is).config = settingsAfter s.config (is.filterMap acceptedFrame) ∧
      outputs step s is = outputs (commandStep s.config.id) (registers s) is := by
  have sim (s' : Service) (r : Registers) (i : Input)
      (h : registers s' = r ∧ s'.config.id = s.config.id) :
      (registers (step s' i).1 = (commandStep s.config.id r i).1 ∧
        (step s' i).1.config.id = s.config.id) ∧
        (step s' i).2 = (commandStep s.config.id r i).2 := by
    obtain ⟨rfl, id⟩ := h
    obtain ⟨next, same, calls⟩ := step_commandStep s' i
    rw [id] at next same calls
    exact ⟨⟨next, same⟩, calls⟩
  obtain ⟨⟨regs, id⟩, calls⟩ := simulation sim ⟨rfl, rfl⟩ is
  obtain ⟨ephSw, outputFreq⟩ := settings_commandStep s.config.id (registers s) is
  rw [← regs] at ephSw outputFreq
  refine ⟨?_, calls⟩
  rw [settingsAfter]
  exact GlobCommConfig.ext ephSw outputFreq id

/-! ### Rejected datagrams -/

/-- **A rejected datagram** names its sender the last peer and changes nothing
else: neither the settings nor the queue, and nothing is sent. -/
theorem step_rejected {peer : SockaddrIn} {datagram : List UInt8} {stack : Mem}
    (rejected :
      (commServiceReceive .udp (rxBuffer datagram stack) (received datagram).length).ret ≠ 0) :
    step s (.recvfrom peer datagram stack env) =
      ({ s with udp := { s.udp with lastPeer := peer, lastPeerValid := true } }, []) := by
  rw [Ne, ret_iff_decode, Option.not_isSome_iff_eq_none] at rejected
  exact commUdpRx_of_decode_none rejected

/-- One peer asks for the switches; then another sends a single byte. -/
def queryThenByte : List Input :=
  [.recvfrom ⟨5000, 1⟩ [0xAA, 0x55, 0x01, 0x00, 0xB0, 0x00, 0x00, 0xB1, 0xFF, 0xEE]
      (zeroPadded []) {},
    .recvfrom ⟨5001, 2⟩ [0] (zeroPadded []) {}]

/-- A frame is queued for the first peer; then another sends a query with a wrong checksum. -/
theorem step_rejected_checksum :
    ((final step {} (queryThenByte.take 1)).udp.queueCount = 1 ∧
      (final step {} (queryThenByte.take 1)).udp.peer = some ⟨5000, 1⟩) ∧
      step (final step {} (queryThenByte.take 1))
          (.recvfrom ⟨5001, 2⟩ [0xAA, 0x55, 0x01, 0x00, 0xB0, 0x00, 0x00, 0xB2, 0xFF, 0xEE]
            (zeroPadded []) {}) =
        ({ final step {} (queryThenByte.take 1) with
            udp := { (final step {} (queryThenByte.take 1)).udp with
              lastPeer := ⟨5001, 2⟩, lastPeerValid := true } }, []) :=
  ⟨⟨by decide +kernel, by decide +kernel⟩, step_rejected (by decide +kernel)⟩

/-- The byte is rejected, and takes the later sends away from the first peer. -/
theorem rejected_moves_peer :
    (commServiceReceive .udp (rxBuffer [0] (zeroPadded [])) 1).ret = -1 ∧
      (final step {} (queryThenByte.take 1)).udp.peer = some ⟨5000, 1⟩ ∧
      (final step {} queryThenByte).udp.peer = some ⟨5001, 2⟩ ∧
      (step (final step {} queryThenByte) (.netSend sendCmdPos [0] {})).2 =
        [.udp (encodeFrame 1 sendCmdPos [0]) (some ⟨5001, 2⟩)] := by
  refine ⟨by decide +kernel, by decide +kernel, by decide +kernel, by decide +kernel⟩

end Ok3506.Comm
