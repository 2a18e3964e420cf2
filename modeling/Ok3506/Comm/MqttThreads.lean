import Ok3506.Comm.TcpThreads

/-!
The receive and transmit threads of the MQTT module, and the teardowns of both
modules.

The transmit thread connects, publishes and reconnects; the receive thread drops
the connection when `recv` fails.
-/

namespace Ok3506.Comm

open Machine

/-! ### The threads of the MQTT module -/

/-- `fd` and `connected` of `comm_mqtt_context_t`. -/
structure CommMqttContext where
  fd : Int := -1
  connected : Bool := false
  deriving DecidableEq, Repr

/-- Where the transmit thread is, with the descriptor of its connection. -/
inductive MqttTxPc where
  /-- before `comm_mqtt_connect_broker` -/
  | connecting
  /-- before `comm_mqtt_set_connection(fd, 1)` -/
  | connected (fd : Int)
  /-- before `comm_mqtt_send_connect` -/
  | greeting (fd : Int)
  /-- before the `recv` of the CONNACK -/
  | awaiting (fd : Int)
  /-- before `comm_mqtt_send` -/
  | publishing (fd : Int) (tick : UInt32)
  /-- inside it, with the descriptor it read -/
  | sending (fd : Int) (tick : UInt32) (sampled : Int)
  /-- before `comm_mqtt_send_pingreq` -/
  | pinging (fd : Int) (tick : UInt32)
  /-- before `comm_mqtt_set_connection(-1, 0)` -/
  | closing
  deriving DecidableEq, Repr

/-- The MQTT module. -/
structure MqttState where
  ctx : CommMqttContext := {}
  files : Descriptors := {}
  rx : RxPc := .idle
  tx : MqttTxPc := .connecting

/-- The atomic steps. -/
inductive MqttInput where
  /-- `comm_mqtt_connect_broker`, with the descriptor it returns -/
  | txConnect (fd : Option Int)
  | txSetConnection
  | txSendConnect (ok : Bool)
  | txConnack
  | txGetConnection
  | txPublish (ok : Bool)
  | txPing (ok : Bool)
  | txClose
  /-- `comm_mqtt_get_connection` of the receive thread -/
  | rxSample
  | rxRecv
  | rxReturn (result : RecvResult)
  /-- `comm_mqtt_set_connection(-1, 0)` of the receive thread -/
  | rxClose
  deriving DecidableEq, Repr

/-- `comm_mqtt_set_connection`, with the connection it closes. -/
def commMqttSetConnection (s : MqttState) (fd : Int) (connected : Bool) :
    MqttState × Option Nat :=
  if 0 ≤ s.ctx.fd ∧ s.ctx.fd ≠ fd ∧ connected = false then
    ({ s with ctx := ⟨fd, connected⟩, files := s.files.close s.ctx.fd }, s.files.conn s.ctx.fd)
  else ({ s with ctx := ⟨fd, connected⟩ }, none)

/-- One step, when the thread it belongs to is there; the teardowns of the
receive thread are its outputs. -/
def mqttStep (s : MqttState) : MqttInput → Option (MqttState × Option Teardown)
  | .txConnect result =>
      match s.tx, result with
      | .connecting, none => some (s, none)
      | .connecting, some fd =>
          if 0 ≤ fd ∧ s.files.conn fd = none then
            some ({ s with files := s.files.connect fd, tx := .connected fd }, none)
          else none
      | _, _ => none
  | .txSetConnection =>
      match s.tx with
      | .connected fd =>
          some ({ (commMqttSetConnection s fd true).1 with tx := .greeting fd }, none)
      | _ => none
  | .txSendConnect ok =>
      match s.tx with
      | .greeting fd => some ({ s with tx := if ok then .awaiting fd else .closing }, none)
      | _ => none
  | .txConnack =>
      match s.tx with
      | .awaiting fd => some ({ s with tx := .publishing fd 0 }, none)
      | _ => none
  | .txGetConnection =>
      match s.tx with
      | .publishing fd tick =>
          some ({ s with
            tx := if ¬ s.ctx.connected ∨ s.ctx.fd < 0 then .closing
              else .sending fd (tick + 1) s.ctx.fd }, none)
      | _ => none
  | .txPublish ok =>
      match s.tx with
      | .sending fd tick _ =>
          some ({ s with
            tx := if ¬ ok then .closing
              else if tick % 4 = 0 then .pinging fd tick else .publishing fd tick }, none)
      | _ => none
  | .txPing ok =>
      match s.tx with
      | .pinging fd tick =>
          some ({ s with tx := if ok then .publishing fd tick else .closing }, none)
      | _ => none
  | .txClose =>
      match s.tx with
      | .closing =>
          some ({ (commMqttSetConnection s (-1) false).1 with tx := .connecting }, none)
      | _ => none
  | .rxSample =>
      match s.rx with
      | .idle =>
          some ({ s with
            rx := if ¬ s.ctx.connected ∨ s.ctx.fd < 0 then .idle else .sampled s.ctx.fd }, none)
      | _ => none
  | .rxRecv =>
      match s.rx with
      | .sampled fd => some ({ s with rx := .receiving (s.files.conn fd) }, none)
      | _ => none
  | .rxReturn result =>
      match s.rx with
      | .receiving conn => some ({ s with rx := rxAfter conn result }, none)
      | _ => none
  | .rxClose =>
      match s.rx with
      | .failed observed =>
          let (s', closed) := commMqttSetConnection s (-1) false
          some ({ s' with rx := .idle }, some ⟨closed, observed⟩)
      | _ => none

/-- The condition on a schedule: between the receive thread's reading of the
connection and its close no connection is set. -/
def mqttMonitor (stale : Bool) : MqttInput → Option Bool
  | .txSetConnection => some true
  | .rxSample => some false
  | .rxClose => if stale then none else some stale
  | _ => some stale

/-- The descriptor that the transmit thread is about to install. -/
def MqttTxPc.next : MqttTxPc → Option Int
  | .connected fd => some fd
  | _ => none

/-- The current connection. -/
def MqttState.current (s : MqttState) : Option Nat := s.files.current s.ctx.fd

/-- The invariant of the schedules that meet the condition. -/
structure MqttInv (s : MqttState) (stale : Bool) : Prop where
  clientOpen : ClientOpen s.ctx.fd s.files s.tx.next
  rx : stale = false → Blames s.current s.files s.rx.watch

section Mqtt

/-- `comm_mqtt_set_connection(-1, 0)` closes the current connection, and leaves
none. -/
theorem commMqttSetConnection_none (s : MqttState) :
    (commMqttSetConnection s (-1) false).2 = s.current ∧
      (commMqttSetConnection s (-1) false).1.current = none ∧
      (commMqttSetConnection s (-1) false).1.tx = s.tx := by
  unfold commMqttSetConnection MqttState.current Descriptors.current
  by_cases valid : 0 ≤ s.ctx.fd
  · have other : s.ctx.fd ≠ -1 := by omega
    simp [valid, other]
  · simp [valid]

theorem clientOpen_commMqttSetConnection {s : MqttState} {next : Option Int}
    (h : ClientOpen s.ctx.fd s.files next) :
    ClientOpen (commMqttSetConnection s (-1) false).1.ctx.fd
      (commMqttSetConnection s (-1) false).1.files next := by
  unfold commMqttSetConnection
  split
  · exact h.close
  · rename_i kept
    have closed : s.ctx.fd < 0 := by
      by_contra valid
      exact kept ⟨not_lt.mp valid, by omega, rfl⟩
    change ClientOpen (-1) s.files next
    refine ⟨fun client => absurd client (by decide), ?_⟩
    intro fd waiting
    obtain ⟨valid, -, found⟩ := h.accepted fd waiting
    exact ⟨valid, by omega, found⟩

/-- `comm_mqtt_set_connection(fd, 1)` closes nothing. -/
theorem commMqttSetConnection_some (s : MqttState) (fd : Int) :
    commMqttSetConnection s fd true = ({ s with ctx := ⟨fd, true⟩ }, none) :=
  if_neg fun h => nomatch h.2.2

/-! ### Each step keeps the invariant -/

variable {s : MqttState} {stale : Bool}

/-- The transmit thread moves on, and has no descriptor to install. -/
theorem MqttInv.txMoves (inv : MqttInv s stale) {tx : MqttTxPc} (none : tx.next = none) :
    MqttInv { s with tx } stale := by
  refine ⟨⟨inv.clientOpen.client, ?_⟩, inv.rx⟩
  intro fd waiting
  rw [none] at waiting
  cases waiting

/-- The receive thread moves on, with the right connection to blame. -/
theorem MqttInv.rxMoves (inv : MqttInv s stale) {rx : RxPc} {fresh : Bool}
    (blames : fresh = false → Blames s.current s.files rx.watch) : MqttInv { s with rx } fresh :=
  ⟨inv.clientOpen, blames⟩

theorem MqttInv.connect (inv : MqttInv s stale) {fd : Int} (valid : 0 ≤ fd)
    (unused : s.files.conn fd = none) :
    MqttInv { s with files := s.files.connect fd, tx := .connected fd } stale where
  clientOpen := inv.clientOpen.connect unused valid
  rx fresh := (inv.rx fresh).connect_current inv.clientOpen unused valid

theorem MqttInv.install (inv : MqttInv s stale) {fd : Int} (connected : s.tx = .connected fd) :
    MqttInv { (commMqttSetConnection s fd true).1 with tx := .greeting fd } true := by
  have clientOpen := inv.clientOpen
  rw [connected] at clientOpen
  rw [commMqttSetConnection_some]
  exact ⟨clientOpen.install, nofun⟩

/-- Closing leaves no connection to blame wrongly. -/
theorem MqttInv.close (inv : MqttInv s stale) :
    MqttInv (commMqttSetConnection s (-1) false).1 stale := by
  obtain ⟨-, gone, tx⟩ := commMqttSetConnection_none s
  constructor
  · rw [tx]
    exact clientOpen_commMqttSetConnection inv.clientOpen
  · intro _
    rw [gone]
    exact blames_of_none _ _

/-- **One step.** Each step that the monitor lets pass keeps the invariant, and
the receive thread closes only what had failed. -/
theorem mqttStep_keeps (s : MqttState) (stale : Bool) (i : MqttInput) (s' : MqttState)
    (out : Option Teardown) (stale' : Bool) (inv : MqttInv s stale)
    (step : mqttStep s i = some (s', out)) (passes : mqttMonitor stale i = some stale') :
    MqttInv s' stale' ∧ ∀ t, out = some t → t.Justified := by
  have rx := inv.rx
  cases i with
  | txConnect result =>
      simp only [mqttStep] at step
      split at step
      · cases step
        cases passes
        exact ⟨inv, nofun⟩
      · split at step
        · rename_i unused
          cases step
          cases passes
          exact ⟨inv.connect unused.1 unused.2, nofun⟩
        · cases step
      · cases step
  | txSetConnection =>
      simp only [mqttStep] at step
      split at step
      · rename_i connected
        cases step
        cases passes
        exact ⟨inv.install connected, nofun⟩
      · cases step
  | txSendConnect ok =>
      simp only [mqttStep] at step
      split at step
      · cases step
        cases passes
        exact ⟨inv.txMoves (by cases ok <;> rfl), nofun⟩
      · cases step
  | txConnack =>
      simp only [mqttStep] at step
      split at step
      · cases step
        cases passes
        exact ⟨inv.txMoves rfl, nofun⟩
      · cases step
  | txGetConnection =>
      simp only [mqttStep] at step
      split at step
      · cases step
        cases passes
        exact ⟨inv.txMoves (by split <;> rfl), nofun⟩
      · cases step
  | txPublish ok =>
      simp only [mqttStep] at step
      split at step
      · cases step
        cases passes
        refine ⟨inv.txMoves ?_, nofun⟩
        split
        · rfl
        · split <;> rfl
      · cases step
  | txPing ok =>
      simp only [mqttStep] at step
      split at step
      · cases step
        cases passes
        exact ⟨inv.txMoves (by cases ok <;> rfl), nofun⟩
      · cases step
  | txClose =>
      simp only [mqttStep] at step
      split at step
      · cases step
        cases passes
        exact ⟨inv.close.txMoves rfl, nofun⟩
      · cases step
  | rxSample =>
      simp only [mqttStep] at step
      split at step
      · cases step
        cases passes
        have opened (kept : ¬ (¬ s.ctx.connected ∨ s.ctx.fd < 0)) : 0 ≤ s.ctx.fd :=
          not_lt.mp fun closed => kept (.inr closed)
        exact ⟨inv.rxMoves fun _ => blames_rxSample opened, nofun⟩
      · cases step
  | rxRecv =>
      simp only [mqttStep] at step
      split at step
      · rename_i sampled
        cases step
        cases passes
        rw [sampled] at rx
        exact ⟨inv.rxMoves rx, nofun⟩
      · cases step
  | rxReturn result =>
      simp only [mqttStep] at step
      split at step
      · rename_i receiving
        cases step
        cases passes
        rw [receiving] at rx
        exact ⟨inv.rxMoves fun fresh => blames_rxAfter (rx fresh) result, nofun⟩
      · cases step
  | rxClose =>
      simp only [mqttStep] at step
      split at step
      · rename_i failed
        cases step
        rw [mqttMonitor] at passes
        split at passes
        · cases passes
        · rename_i fresh
          cases passes
          rw [failed] at rx
          refine ⟨inv.close.rxMoves fun _ => trivial, ?_⟩
          rintro t ⟨⟩
          rw [(commMqttSetConnection_none s).1]
          exact (rx (Bool.eq_false_iff.mpr fresh)).justified
      · cases step

end Mqtt

/-! ### Teardowns -/

/-- **Teardowns.** In every schedule in which nothing is installed between the
reading of a descriptor and the close on an error path, what is closed there is
the connection on which the call had failed. -/
theorem teardowns_justified (is : List TcpInput) (js : List MqttInput) :
    (∀ s outs, exec tcpStep {} is = some (s, outs) → allowed tcpMonitor {} is →
      ∀ t, some t ∈ outs → t.Justified) ∧
    (∀ s outs, exec mqttStep {} js = some (s, outs) → allowed mqttMonitor false js →
      ∀ t, some t ∈ outs → t.Justified) := by
  constructor
  · intro s outs run passes t mem
    have start : TcpInv {} {} := ⟨⟨nofun, nofun⟩, fun _ => trivial, fun _ => trivial⟩
    exact exec_monitored tcpStep_keeps start run passes (some t) mem t rfl
  · intro s outs run passes t mem
    have start : MqttInv {} false := ⟨⟨nofun, nofun⟩, fun _ => trivial⟩
    exact exec_monitored mqttStep_keeps start run passes (some t) mem t rfl

/-- A client ends its stream and is closed before the next one is installed. -/
def endedClient : List TcpInput :=
  [.accept 5, .replaceClient, .rxSample, .rxRecv, .rxReturn .endOfStream, .accept 6, .rxClose,
    .replaceClient]

/-- The receive thread drops a connection, and the transmit thread connects again. -/
def droppedBroker : List MqttInput :=
  [.txConnect (some 5), .txSetConnection, .txSendConnect true, .txConnack, .rxSample, .rxRecv,
    .rxReturn .error, .rxClose, .txGetConnection, .txClose, .txConnect (some 5), .txSetConnection]

theorem teardowns_justified_dropped :
    (∃ s outs t, exec tcpStep {} endedClient = some (s, outs) ∧ allowed tcpMonitor {} endedClient ∧
      some t ∈ outs ∧ t.Justified) ∧
    (∃ s outs t, exec mqttStep {} droppedBroker = some (s, outs) ∧
      allowed mqttMonitor false droppedBroker ∧ some t ∈ outs ∧ t.Justified) := by
  obtain ⟨tcp, mqtt⟩ := teardowns_justified endedClient droppedBroker
  refine ⟨⟨_, [none, none, none, none, none, none, some ⟨some 0, some 0⟩, none],
      ⟨some 0, some 0⟩, rfl, by decide, by decide, ?_⟩,
    ⟨_, [none, none, none, none, none, none, none, some ⟨some 0, some 0⟩, none, none, none, none],
      ⟨some 0, some 0⟩, rfl, by decide, by decide, ?_⟩⟩
  · exact tcp _ _ rfl (by decide) _ (by decide)
  · exact mqtt _ _ rfl (by decide) _ (by decide)

/-- A client is replaced; the receive thread has read the end of the stream on
the first, and closes the second. -/
def replacedClient : List TcpInput :=
  [.accept 5, .replaceClient, .rxSample, .rxRecv, .rxReturn .endOfStream,
    .accept 6, .replaceClient, .rxClose]

/-- The transmit thread reconnects before the receive thread drops the
connection on which `recv` had failed. -/
def reconnectedBroker : List MqttInput :=
  [.txConnect (some 5), .txSetConnection, .txSendConnect true, .txConnack, .rxSample, .rxRecv,
    .rxReturn .error, .txGetConnection, .txPublish false, .txClose, .txConnect (some 5),
    .txSetConnection, .rxClose]

theorem successor_torn_down :
    (exec tcpStep {} replacedClient).map (fun r => r.2.filterMap id) = some [⟨some 1, some 0⟩] ∧
      (exec mqttStep {} reconnectedBroker).map (fun r => r.2.filterMap id) =
        some [⟨some 1, some 0⟩] ∧
      ¬ Teardown.Justified ⟨some 1, some 0⟩ := by
  refine ⟨by decide, by decide, ?_⟩
  intro justified
  exact absurd (justified 1 rfl) (by decide)

end Ok3506.Comm
