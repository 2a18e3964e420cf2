import Ok3506.Comm.Udp
import Ok3506.Gnss.Config

/-!
The UDP service: `net_send`, `rev_process` and the receive loop.

A `Service` is the state these functions share, `Env` what the C library and the
other services answer during one step. The runs are over the iterations of the
receive loop, interleaved with the sends of other threads and the pops of the
transmit thread.
-/

namespace Ok3506.Comm

open Mem Gnss

/-! ### State -/

/-- `glob_comm_config_t`, with its initial values. -/
@[ext] structure GlobCommConfig where
  ephSw : UInt16 := 0
  outputFreq : UInt8 := 1
  id : UInt16 := 1
  deriving DecidableEq, Repr

/-- The state behind the service; `sendBuf` and `sendEphBuf` are the static
buffers of `net_send` and `net_send_eph`. -/
structure Service where
  config : GlobCommConfig := {}
  udp : CommUdpContext := {}
  gnss : GnssCtrl := ⟨-1, fun _ => 0, []⟩
  sendBuf : Mem := fun _ => 0
  sendEphBuf : Mem := fun _ => 0

/-- The answers to the calls of one step: `malloc`, each `write` to the
receiver, and the sends of the other services. -/
structure Env where
  mallocOk : Bool := true
  write : GnssCommand → Int := fun _ => 0
  tcpSend : Int := 0
  mqttSend : Int := 0

/-- The call that ends `net_send`; for UDP with the peer it finds. -/
inductive CommCall where
  | udp (data : List UInt8) (peer : Option SockaddrIn)
  | tcp (data : List UInt8)
  | mqtt (data : List UInt8)
  deriving DecidableEq, Repr

/-- The outcome of a send: the state, the call it made and what it returned. -/
structure Sent where
  service : Service
  call : CommCall
  ret : Int

/-! ### Sending -/

/-- The switch over the services that ends `net_send` and `net_send_eph`. -/
def commServiceSend (s : Service) (env : Env) (kind : CommServiceKind) (data : List UInt8) : Sent :=
  match kind with
  | .udp =>
      let (udp, ret) := commUdpSend s.udp data env.mallocOk
      ⟨{ s with udp }, .udp data s.udp.peer, ret⟩
  | .tcp => ⟨s, .tcp data, env.tcpSend⟩
  | .mqtt => ⟨s, .mqtt data, env.mqttSend⟩

/-- `net_send`. -/
def netSend (s : Service) (env : Env) (kind : CommServiceKind) (cmd : UInt8) (data : Mem)
    (len : Nat) : Sent :=
  let sendBuf := netSendBuf s.config.id cmd data len s.sendBuf
  commServiceSend { s with sendBuf } env kind (sendBuf.bytes 0 (len + sizeofNetFrame))

/-- `net_send_eph`. -/
def netSendEph (s : Service) (env : Env) (kind : CommServiceKind) (ephType : EphType) (data : Mem)
    (len : Nat) : Sent :=
  let sendEphBuf := netSendEphBuf s.config.id ephType data len s.sendEphBuf
  commServiceSend { s with sendEphBuf } env kind (sendEphBuf.bytes 0 (len + sizeofNetFrame + 1))

/-! ### Commands -/

/-- `eph_sw.content`: the bit of each ephemeris kind. -/
def ephSwBit (value : UInt16) : EphKind → Bool
  | .bdxw => value.toNat.testBit 0
  | .bd2 => value.toNat.testBit 1
  | .bd3 => value.toNat.testBit 2
  | .bd3cnav2 => value.toNat.testBit 3
  | .bd3cnav3 => value.toNat.testBit 4
  | .gps => value.toNat.testBit 5
  | .gal => value.toNat.testBit 6
  | .glo => value.toNat.testBit 7

/-- One branch pair of `update_eph_sw`. -/
def updateEphOutput (config : GlobCommConfig) (write : GnssCommand → Int) (kind : EphKind)
    (type : String) (gnss : GnssCtrl) : GnssCtrl :=
  gnssCfgData gnss type (if ephSwBit config.ephSw kind then 1 else 0) config.outputFreq write

/-- `update_eph_sw`. -/
def updateEphSw (config : GlobCommConfig) (write : GnssCommand → Int) (gnss : GnssCtrl) :
    GnssCtrl :=
  let gnss := updateEphOutput config write .bdxw "BDXWEPHB" gnss
  let gnss := updateEphOutput config write .bd2 "BD2EPHB" gnss
  let gnss := updateEphOutput config write .bd3 "BD3EPHB" gnss
  let gnss := updateEphOutput config write .gps "GPSEPHB" gnss
  let gnss := updateEphOutput config write .gal "GALEPHB" gnss
  let gnss := updateEphOutput config write .glo "GLOEPHB" gnss
  let gnss := updateEphOutput config write .bd3cnav2 "BD3CANV2EPHB" gnss
  updateEphOutput config write .bd3cnav3 "BD3CNAV3EPHB" gnss

/-- `NET_REV_CMD_t`. -/
def revCmdSetEphSw : UInt8 := 0xA0
def revCmdSetOutputFreq : UInt8 := 0xA1
def revCmdQueryEphSw : UInt8 := 0xB0
def revCmdQueryOutputFreq : UInt8 := 0xB1

/-- `net_send(COMM_SERVICE_UDP, SEND_CMD_EPH_SW, &eph_sw.value, 2)`. -/
def sendEphSw (s : Service) (env : Env) : Sent :=
  netSend s env .udp sendCmdEphSw (zeroPadded (le16 s.config.ephSw.toNat)) 2

/-- `net_send(COMM_SERVICE_UDP, SEND_CMD_OUTPUT_FREQ, &output_freq, 1)`. -/
def sendOutputFreq (s : Service) (env : Env) : Sent :=
  netSend s env .udp sendCmdOutputFreq (zeroPadded [s.config.outputFreq]) 1

/-- `rev_process`; its sends are listed. -/
def revProcess (s : Service) (env : Env) (call : RevCall) : Service × List CommCall :=
  if call.cmd = revCmdSetEphSw then
    let s :=
      if call.len = 2 then
        let config := { s.config with ephSw := UInt16.ofNat (call.data.load16 0) }
        { s with config, gnss := updateEphSw config env.write s.gnss }
      else s
    let sent := sendEphSw s env
    (sent.service, [sent.call])
  else if call.cmd = revCmdSetOutputFreq then
    let s :=
      if call.len = 1 then { s with config := { s.config with outputFreq := call.data 0 } } else s
    let sent := sendOutputFreq s env
    (sent.service, [sent.call])
  else if call.cmd = revCmdQueryEphSw then
    let sent := sendEphSw s env
    (sent.service, [sent.call])
  else if call.cmd = revCmdQueryOutputFreq then
    let sent := sendOutputFreq s env
    (sent.service, [sent.call])
  else (s, [])

/-! ### The receive loop -/

/-- What `recvfrom` stores: at most `sizeof(buffer) - 1` bytes of a datagram. -/
def received (datagram : List UInt8) : List UInt8 := datagram.take 1023

/-- `buffer` after `recvfrom` and `buffer[n] = '\0'`; the rest of the stack
array keeps what was there. -/
def rxBuffer (datagram : List UInt8) (stack : Mem) : Mem :=
  let n := (received datagram).length
  (stack.copy 0 (zeroPadded (received datagram)) n).store8 n 0

/-- One iteration of `comm_udp_rx_thread_func` with a datagram. -/
def commUdpRx (s : Service) (env : Env) (peer : SockaddrIn) (datagram : List UInt8) (stack : Mem) :
    Service × List CommCall :=
  let buffer := rxBuffer datagram stack
  let s := { s with udp := { s.udp with lastPeer := peer, lastPeerValid := true } }
  match (commServiceReceive .udp buffer (received datagram).length).rev with
  | some call => revProcess s env call
  | none => (s, [])

/-- The steps of the service. -/
inductive Input where
  /-- the receive thread gets a datagram -/
  | recvfrom (peer : SockaddrIn) (datagram : List UInt8) (stack : Mem) (env : Env)
  /-- `recvfrom` fails, the loop goes on -/
  | recvError
  /-- another thread sends a frame over UDP -/
  | netSend (cmd : UInt8) (payload : List UInt8) (env : Env)
  /-- another thread sends an ephemeris record over UDP -/
  | netSendEph (ephType : EphType) (payload : List UInt8) (env : Env)
  /-- the transmit thread takes a frame -/
  | pop

/-- One step, with the sends it makes. -/
def step (s : Service) : Input → Service × List CommCall
  | .recvfrom peer datagram stack env => commUdpRx s env peer datagram stack
  | .recvError => (s, [])
  | .netSend cmd payload env =>
      let sent := netSend s env .udp cmd (zeroPadded payload) payload.length
      (sent.service, [sent.call])
  | .netSendEph ephType payload env =>
      let sent := netSendEph s env .udp ephType (zeroPadded payload) payload.length
      (sent.service, [sent.call])
  | .pop =>
      match commUdpQueuePopFrame s.udp with
      | .popped _ udp => ({ s with udp }, [])
      | _ => (s, [])

/-! ### What a send does -/

variable {s : Service} {env : Env}

theorem netSend_eq (kind : CommServiceKind) (cmd : UInt8) (data : Mem) (len : Nat) :
    netSend s env kind cmd data len =
      commServiceSend { s with sendBuf := netSendBuf s.config.id cmd data len s.sendBuf } env kind
        (encodeFrame s.config.id cmd (data.bytes 0 len)) := by
  rw [netSend, bytes_netSendBuf]

theorem netSendEph_eq (kind : CommServiceKind) (ephType : EphType) (data : Mem) (len : Nat) :
    netSendEph s env kind ephType data len =
      commServiceSend
        { s with sendEphBuf := netSendEphBuf s.config.id ephType data len s.sendEphBuf } env kind
        (encodeFrame s.config.id sendCmdEphInfo ([ephType.toByte] ++ data.bytes 0 len)) := by
  have extent : len + sizeofNetFrame + 1 = len + 1 + sizeofNetFrame := by omega
  rw [netSendEph, extent, bytes_netSendEphBuf]

@[simp] theorem config_commServiceSend (kind : CommServiceKind) (data : List UInt8) :
    (commServiceSend s env kind data).service.config = s.config := by
  cases kind <;> rfl

@[simp] theorem peer_commServiceSend (kind : CommServiceKind) (data : List UInt8) :
    (commServiceSend s env kind data).service.udp.peer = s.udp.peer := by
  cases kind with
  | udp => exact peer_commUdpSend
  | tcp => rfl
  | mqtt => rfl

/-- What `recvfrom` stored is the front of the buffer. -/
theorem bytes_rxBuffer (datagram : List UInt8) (stack : Mem) :
    (rxBuffer datagram stack).bytes 0 (received datagram).length = received datagram := by
  rw [rxBuffer, bytes_store8_of_disjoint (by omega), bytes_copy, bytes_ofList]

end Ok3506.Comm
