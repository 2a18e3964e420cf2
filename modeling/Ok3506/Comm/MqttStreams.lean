import Ok3506.Comm.MqttPacket
import Ok3506.Comm.MqttThreads
import Ok3506.Comm.TcpStreams

/-!
What the broker receives.

The transmit thread connects, sends a CONNECT, then its status messages with a PINGREQ behind
every fourth, and reconnects when a call fails; meanwhile the receive thread may close the
connection at any moment. A session is what a connection would carry if it lasted; what every
connection carries is the front of a session.
-/

namespace Ok3506.Comm

open Machine Mem CString Reader

/-! ### The packets of a session -/

/-- `"{\"device\":\"ok3506\",\"tick\":%u}"` -/
def statusText (tick : UInt32) : List UInt8 :=
  ascii "\x7b\"device\":\"ok3506\",\"tick\":" ++ decimal tick.toNat ++ ascii "\x7d"

theorem length_statusText (tick : UInt32) :
    0 < (statusText tick).length ∧ (statusText tick).length ≤ 37 := by
  have digits : (decimal tick.toNat).length ≤ 10 :=
    (length_decimal_le_iff (by decide)).mpr (tick.toNat_lt.trans (by decide))
  have first : (ascii "\x7b\"device\":\"ok3506\",\"tick\":").length = 26 := by decide
  have last : (ascii "\x7d").length = 1 := by decide
  rw [statusText, List.length_append, List.length_append, first, last]
  omega

def status (tick : UInt32) : Payload where
  bytes := statusText tick
  nonempty := List.length_pos_iff.mp (length_statusText tick).1
  small := (length_statusText tick).2.trans_lt (by decide)

/-- A packet beside the bytes that encode it. -/
abbrev Coded := List UInt8 × Mqtt.Packet

section Packets

variable (config : CommMqttConfig)

def connectPacket : Coded :=
  (Mqtt.packetBytes 0x10 (Mqtt.connectBody config.keepalive.toNat config.clientId.text),
    .connect ⟨true, config.keepalive.toNat % 65536, config.clientId.text, none, none, none⟩)

def publishPacket (tick : UInt32) : Coded :=
  (Mqtt.packetBytes 0x30 (Mqtt.publishBody config.topic.text (statusText tick)),
    .publish ⟨false, 0, false, config.topic.text, none, statusText tick⟩)

def pingreqPacket : Coded := (Mqtt.packetBytes 0xC0 [], .pingreq)

/-- The packets of one turn of the transmit loop. -/
def turn (n : Nat) : List Coded :=
  publishPacket config (UInt32.ofNat n) :: if (n + 1) % 4 = 0 then [pingreqPacket] else []

/-- The packets of a session of `n` turns: CONNECT, and what each turn publishes. -/
def session (n : Nat) : List Coded :=
  connectPacket config :: (List.range n).flatMap (turn config)

/-- The bytes that a broker has received when a session of `n` turns is complete. -/
def sessionBytes (n : Nat) : List UInt8 := (session config n).flatMap Prod.fst

theorem session_succ (n : Nat) : session config (n + 1) = session config n ++ turn config n := by
  simp [session, List.range_succ]

theorem sessionBytes_succ (n : Nat) :
    sessionBytes config (n + 1) = sessionBytes config n ++
      ((publishPacket config (UInt32.ofNat n)).1 ++
        if (n + 1) % 4 = 0 then pingreqPacket.1 else []) := by
  rw [sessionBytes, session_succ, List.flatMap_append, turn, List.flatMap_cons, sessionBytes]
  split <;> simp

/-- A status message is never too long for the guard of `comm_mqtt_send_publish_fd`. -/
theorem not_tooLong (tick : UInt32) : ¬ TooLong config (status tick) := by
  have text : (status tick).bytes.length ≤ 37 := (length_statusText tick).2
  have topic := config.topic.fits
  unfold TooLong
  omega

theorem reads_connect : Reads Mqtt.readPacket (connectPacket config).1 (connectPacket config).2 :=
  Mqtt.reads_connectPacket _ (config.clientId.fits.trans (by decide))

theorem reads_publish (tick : UInt32) :
    Reads Mqtt.readPacket (publishPacket config tick).1 (publishPacket config tick).2 :=
  Mqtt.reads_publishPacket (config.topic.fits.trans (by decide))
    ((length_statusText tick).2.trans_lt (by decide))

theorem reads_session (n : Nat) : ∀ x ∈ session config n, Reads Mqtt.readPacket x.1 x.2 := by
  intro x mem
  rcases List.mem_cons.mp mem with rfl | mem
  · exact reads_connect config
  · obtain ⟨k, -, mem⟩ := List.mem_flatMap.mp mem
    rcases List.mem_cons.mp mem with rfl | mem
    · exact reads_publish config _
    · split at mem
      · rw [List.mem_singleton.mp mem]
        exact Mqtt.reads_pingreqPacket
      · cases mem

end Packets

/-! ### The threads -/

/-- The steps of the two threads; the calls that send carry what their buffer holds before and
what `send` returns. -/
inductive MqttEvent where
  | send (stack : Mem) (answers : List At.WriteEvent)
  | other (i : MqttInput)

/-- A step that is the end of a call that sends. -/
def MqttInput.sends : MqttInput → Bool
  | .txSendConnect _ | .txPublish _ | .txPing _ => true
  | _ => false

/-- The call that the transmit thread is about to make, with its descriptor. -/
def mqttCall (config : CommMqttConfig) (stack : Mem) :
    MqttTxPc → Option (Int × (List At.WriteEvent → MqttSent) × (Bool → MqttInput))
  | .greeting fd => some (fd, commMqttSendConnect config stack, .txSendConnect)
  | .sending _ tick sampled =>
      let text := statusText (tick - 1)
      some (sampled,
        commMqttSendPublishFd config (some (zeroPadded text)) text.length stack, .txPublish)
  | .pinging fd _ => some (fd, commMqttSendPingreq stack, .txPing)
  | .connecting | .connected _ | .awaiting _ | .publishing _ _ | .closing => none

/-- One step, with the bytes that a connection takes; `send` fails for a descriptor that is
closed. -/
def mqttTrafficStep (config : CommMqttConfig) (s : MqttState) :
    MqttEvent → Option (MqttState × List (Nat × List UInt8))
  | .send stack answers =>
      (mqttCall config stack s.tx).bind fun (fd, call, input) =>
        match s.files.conn fd with
        | some c =>
            let done := call answers
            (mqttStep s (input (done.ret = 0))).map fun next => (next.1, [(c, done.sent)])
        | none => (mqttStep s (input ((call [.error]).ret = 0))).map fun next => (next.1, [])
  | .other i => if i.sends then none else (mqttStep s i).map fun next => (next.1, [])

/-! ### Calls -/

/-- The bytes of the packet that the transmit thread is about to send. -/
def MqttTxPc.code (config : CommMqttConfig) : MqttTxPc → List UInt8
  | .greeting _ => (connectPacket config).1
  | .sending _ tick _ => (publishPacket config (tick - 1)).1
  | .pinging _ _ => pingreqPacket.1
  | .connecting | .connected _ | .awaiting _ | .publishing _ _ | .closing => []

/-- Where the transmit thread is when the packet was sent. -/
def MqttTxPc.after : MqttTxPc → MqttTxPc
  | .greeting fd => .awaiting fd
  | .sending fd tick _ => if tick % 4 = 0 then .pinging fd tick else .publishing fd tick
  | .pinging fd tick => .publishing fd tick
  | tx => tx

/-- The descriptor that the transmit thread holds in its state, while it has a connection.
-/
def MqttTxPc.descriptor : MqttTxPc → Option Int
  | .connected fd | .greeting fd | .awaiting fd | .publishing fd _ | .sending fd _ _
  | .pinging fd _ => some fd
  | .connecting | .closing => none

section Calls

variable {config : CommMqttConfig} {stack : Mem} {tx : MqttTxPc} {fd : Int}
  {call : List At.WriteEvent → MqttSent} {input : Bool → MqttInput}

/-- Each call writes the bytes of its packet out. -/
theorem mqttCall_writes (h : mqttCall config stack tx = some (fd, call, input)) :
    call = (fun answers =>
      commMqttWriteAll answers (ofList (tx.code config) stack) (tx.code config).length) ∧
      tx.code config ≠ [] := by
  cases tx with
  | connecting | connected | awaiting | publishing | closing => cases h
  | greeting =>
      cases h
      exact ⟨funext fun answers => commMqttSendConnect_eq stack config answers, nofun⟩
  | sending _ tick _ =>
      cases h
      refine ⟨funext fun answers => ?_, nofun⟩
      have sent := commMqttSendPublishFd_eq stack config (status (tick - 1)) (fun _ => 0) answers
      exact sent.trans (if_neg (not_tooLong config (tick - 1)))
  | pinging =>
      cases h
      exact ⟨rfl, nofun⟩

/-- A call is made on the descriptor of the thread. -/
theorem mqttCall_descriptor (h : mqttCall config stack tx = some (fd, call, input))
    (same : ∀ fd' tick sampled, tx = .sending fd' tick sampled → sampled = fd') :
    tx.descriptor = some fd := by
  cases tx with
  | connecting | connected | awaiting | publishing | closing => cases h
  | greeting | pinging =>
      cases h
      rfl
  | sending fd' tick sampled =>
      cases h
      rw [same fd' tick fd rfl]
      rfl

/-- The end of a call takes the transmit thread on, or to its close. -/
theorem mqttStep_sent {s : MqttState} (h : mqttCall config stack s.tx = some (fd, call, input))
    (ok : Bool) :
    mqttStep s (input ok) = some ({ s with tx := if ok then s.tx.after else .closing }, none) := by
  cases tx : s.tx <;> rw [tx] at h <;> cases h
  · simp [mqttStep, tx, MqttTxPc.after]
  · cases ok <;> simp [mqttStep, tx, MqttTxPc.after]
  · simp [mqttStep, tx, MqttTxPc.after]

theorem commMqttWriteAll_sent (answers : List At.WriteEvent) (code : List UInt8) (stack : Mem) :
    let done := commMqttWriteAll answers (ofList code stack) code.length
    done.sent <+: code ∧ (done.ret = 0 ↔ done.sent = code) := by
  have written := At.writeAll_sent answers code
  simpa [commMqttWriteAll] using written

end Calls

/-! ### The invariant -/

/-- What the connection of the transmit thread has taken, by where the thread is. -/
def Taken (config : CommMqttConfig) (bytes : List UInt8) : MqttTxPc → Prop
  | .connected _ | .greeting _ => bytes = []
  | .awaiting _ => bytes = sessionBytes config 0
  | .publishing _ tick => ∃ n, tick = UInt32.ofNat n ∧ bytes = sessionBytes config n
  | .sending _ tick _ => ∃ n, tick = UInt32.ofNat (n + 1) ∧ bytes = sessionBytes config n
  | .pinging _ tick =>
      ∃ n, tick = UInt32.ofNat (n + 1) ∧ (n + 1) % 4 = 0 ∧
        bytes = sessionBytes config n ++ (publishPacket config (UInt32.ofNat n)).1
  | .connecting | .closing => True

/-- The thread is in a turn, behind `comm_mqtt_set_connection(fd, 1)`. -/
def MqttTxPc.installed : MqttTxPc → Bool
  | .greeting _ | .awaiting _ | .publishing _ _ | .sending _ _ _ | .pinging _ _ => true
  | .connecting | .connected _ | .closing => false

/-- The invariant. The connection of the transmit thread is on its descriptor unless it was
closed, and the context holds that descriptor or none. -/
structure Talking (config : CommMqttConfig) (s : MqttState) (sent : List (Nat × List UInt8)) :
    Prop where
  made : ∀ fd c, s.files.conn fd = some c → c < s.files.made
  unmade : ∀ c, s.files.made ≤ c → takenBy c sent = []
  front : ∀ c, ∃ n, takenBy c sent <+: sessionBytes config n
  open_ : ∀ fd, s.tx.descriptor = some fd → ∃ c, c < s.files.made ∧
    (s.files.conn fd = some c ∨ s.files.conn fd = none) ∧ Taken config (takenBy c sent) s.tx
  current : ∀ fd, s.tx.descriptor = some fd → s.tx.installed = true →
    s.ctx = ⟨fd, true⟩ ∨ s.ctx = ⟨-1, false⟩
  sampled : ∀ fd tick sampled, s.tx = .sending fd tick sampled → sampled = fd

section Talking

variable {config : CommMqttConfig} {s : MqttState} {sent : List (Nat × List UInt8)}

theorem Talking.start : Talking config {} [] where
  made := nofun
  unmade _ _ := rfl
  front _ := ⟨0, List.nil_prefix⟩
  open_ := nofun
  current := nofun
  sampled := nofun

/-- A connection is closed, and there is none then. -/
theorem Talking.close (h : Talking config s sent) :
    Talking config (commMqttSetConnection s (-1) false).1 sent := by
  unfold commMqttSetConnection
  split
  case isFalse =>
    exact ⟨h.made, h.unmade, h.front, h.open_, fun _ _ _ => .inr rfl, h.sampled⟩
  case isTrue =>
    constructor
    case made => exact fun fd c found => h.made fd c (conn_close_eq_some.mp found).2
    case unmade => exact h.unmade
    case front => exact h.front
    case open_ =>
      intro fd there
      obtain ⟨c, made, held, taken⟩ := h.open_ fd there
      refine ⟨c, made, ?_, taken⟩
      change Function.update s.files.conn s.ctx.fd none fd = some c ∨
        Function.update s.files.conn s.ctx.fd none fd = none
      by_cases same : fd = s.ctx.fd
      · rw [same, Function.update_self]
        exact .inr rfl
      · rwa [Function.update_of_ne same]
    case current => exact fun _ _ _ => .inr rfl
    case sampled => exact h.sampled

/-- The transmit thread moves on without sending. -/
theorem Talking.moves (h : Talking config s sent) (tx : MqttTxPc)
    (same : tx.descriptor = s.tx.descriptor ∨ tx.descriptor = none)
    (taken : ∀ bytes, Taken config bytes s.tx → Taken config bytes tx)
    (installed : tx.installed = true → s.tx.installed = true)
    (sampled : ∀ fd tick sampled, tx = .sending fd tick sampled → sampled = fd) :
    Talking config { s with tx } sent where
  made := h.made
  unmade := h.unmade
  front := h.front
  open_ fd there := by
    rcases same with same | none
    · obtain ⟨c, made, held, now⟩ := h.open_ fd (same.symm.trans there)
      exact ⟨c, made, held, taken _ now⟩
    · rw [none] at there
      cases there
  current fd there turn := by
    rcases same with same | none
    · exact h.current fd (same.symm.trans there) (installed turn)
    · rw [none] at there
      cases there
  sampled := sampled

/-- A new connection starts with an empty session. -/
theorem Talking.connect (h : Talking config s sent) {fd : Int} :
    Talking config { s with files := s.files.connect fd, tx := .connected fd } sent where
  made fd' c found := by
    change Function.update s.files.conn fd (some s.files.made) fd' = some c at found
    change c < s.files.made + 1
    by_cases same : fd' = fd
    · rw [same, Function.update_self] at found
      exact (Option.some.inj found) ▸ Nat.lt_succ_self _
    · rw [Function.update_of_ne same] at found
      exact Nat.lt_succ_of_lt (h.made fd' c found)
  unmade c later := h.unmade c (Nat.le_of_succ_le later)
  front := h.front
  open_ fd' there := by
    cases there
    exact ⟨s.files.made, Nat.lt_succ_self _, .inl (Function.update_self _ _ _),
      h.unmade _ le_rfl⟩
  current := nofun
  sampled := nofun

theorem Talking.install (h : Talking config s sent) {fd : Int} (connected : s.tx = .connected fd) :
    Talking config { (commMqttSetConnection s fd true).1 with tx := .greeting fd } sent := by
  rw [commMqttSetConnection_some]
  have opened := h.open_ fd (by rw [connected]; rfl)
  rw [connected] at opened
  constructor
  case made => exact h.made
  case unmade => exact h.unmade
  case front => exact h.front
  case open_ =>
    intro fd' there
    cases there
    exact opened
  case current =>
    intro fd' there _
    cases there
    exact .inl rfl
  case sampled => exact nofun

/-- The counter of the loop is the number of the turn. -/
theorem tick_sub_one (n : Nat) : UInt32.ofNat (n + 1) - 1 = UInt32.ofNat n := by
  rw [UInt32.ofNat_add]
  exact UInt32.add_sub_cancel _ _

theorem tick_mod_four (n : Nat) : UInt32.ofNat n % 4 = 0 ↔ n % 4 = 0 := by
  rw [← UInt32.toNat_inj, UInt32.toNat_mod, UInt32.toNat_ofNat']
  change n % 2 ^ 32 % 4 = 0 ↔ n % 4 = 0
  omega

/-- With its packet the connection has taken the front of a session. -/
theorem taken_front {bytes : List UInt8} {tx : MqttTxPc} (taken : Taken config bytes tx)
    (sends : tx.code config ≠ []) :
    ∃ n, bytes ++ tx.code config <+: sessionBytes config n := by
  cases tx with
  | connecting | connected | awaiting | publishing | closing => exact absurd rfl sends
  | greeting =>
      rw [show bytes = [] from taken, List.nil_append]
      exact ⟨0, List.prefix_append _ _⟩
  | sending fd tick sampled =>
      obtain ⟨n, rfl, rfl⟩ := taken
      rw [MqttTxPc.code, tick_sub_one]
      refine ⟨n + 1, ?_⟩
      rw [sessionBytes_succ, ← List.append_assoc]
      exact List.prefix_append _ _
  | pinging fd tick =>
      obtain ⟨n, rfl, fourth, rfl⟩ := taken
      refine ⟨n + 1, ?_⟩
      rw [sessionBytes_succ, if_pos fourth, List.append_assoc]
      exact List.prefix_rfl

theorem taken_after {bytes : List UInt8} {tx : MqttTxPc} (taken : Taken config bytes tx)
    (sends : tx.code config ≠ []) : Taken config (bytes ++ tx.code config) tx.after := by
  cases tx with
  | connecting | connected | awaiting | publishing | closing => exact absurd rfl sends
  | greeting =>
      rw [show bytes = [] from taken, List.nil_append]
      exact (List.append_nil _).symm
  | sending fd tick sampled =>
      obtain ⟨n, rfl, rfl⟩ := taken
      rw [MqttTxPc.code, MqttTxPc.after, tick_sub_one]
      split
      case isTrue fourth => exact ⟨n, rfl, (tick_mod_four _).mp fourth, rfl⟩
      case isFalse other =>
        refine ⟨n + 1, rfl, ?_⟩
        rw [sessionBytes_succ, if_neg (mt (tick_mod_four _).mpr other), List.append_nil]
  | pinging fd tick =>
      obtain ⟨n, rfl, fourth, rfl⟩ := taken
      refine ⟨n + 1, rfl, ?_⟩
      rw [sessionBytes_succ, if_pos fourth, List.append_assoc]
      rfl

theorem after_spec {tx : MqttTxPc} (sends : tx.code config ≠ []) :
    tx.after.descriptor = tx.descriptor ∧ tx.installed = true ∧
      ∀ fd tick sampled, tx.after = .sending fd tick sampled → sampled = fd := by
  cases tx with
  | connecting | connected | awaiting | publishing | closing => exact absurd rfl sends
  | greeting | pinging => exact ⟨rfl, rfl, nofun⟩
  | sending fd tick sampled =>
      rw [MqttTxPc.after]
      split <;> exact ⟨rfl, rfl, nofun⟩

/-- A call that fails before it has written anything only sends the thread to its close. -/
theorem Talking.fails (h : Talking config s sent) : Talking config { s with tx := .closing } sent :=
  h.moves .closing (.inr rfl) (fun _ _ => trivial) nofun nofun

/-- The transmit thread closes its connection and starts again. -/
theorem Talking.reconnect (h : Talking config s sent) :
    Talking config { (commMqttSetConnection s (-1) false).1 with tx := .connecting } sent :=
  h.close.moves .connecting (.inr rfl) (fun _ _ => trivial) nofun nofun

/-- The CONNACK is not looked at; the loop starts. -/
theorem Talking.connack (h : Talking config s sent) {fd : Int} (awaiting : s.tx = .awaiting fd) :
    Talking config { s with tx := .publishing fd 0 } sent := by
  refine h.moves (.publishing fd 0) (.inl ?_) ?_ ?_ nofun <;> rw [awaiting]
  · rfl
  · exact fun bytes taken => ⟨0, rfl, taken⟩
  · exact id

/-- `comm_mqtt_send` finds the descriptor of the thread, if it finds one. -/
theorem Talking.sample (h : Talking config s sent) {fd : Int} {tick : UInt32}
    (publishing : s.tx = .publishing fd tick)
    (connected : ¬ (¬ s.ctx.connected ∨ s.ctx.fd < 0)) :
    Talking config { s with tx := .sending fd (tick + 1) s.ctx.fd } sent := by
  have same : s.ctx.fd = fd := by
    rcases h.current fd (by rw [publishing]; rfl) (by rw [publishing]; rfl) with here | gone
    · rw [here]
    · rw [gone] at connected
      exact absurd (.inr (by decide)) connected
  refine h.moves (.sending fd (tick + 1) s.ctx.fd) (.inl ?_) ?_ ?_ ?_
  · rw [publishing]
    rfl
  · rw [publishing]
    rintro bytes ⟨n, rfl, taken⟩
    exact ⟨n, (UInt32.ofNat_add n 1).symm, taken⟩
  · rw [publishing]
    exact id
  · intro _ _ _ sending
    cases sending
    exact same

/-- A step of the receive thread that closes nothing keeps the invariant. -/
theorem Talking.rxMoves (h : Talking config s sent) (rx : RxPc) :
    Talking config { s with rx } sent :=
  ⟨h.made, h.unmade, h.front, h.open_, h.current, h.sampled⟩

/-- A call writes the front of its packet; the thread goes on when it wrote all of it. -/
theorem Talking.write (h : Talking config s sent) {fd : Int} {c : Nat}
    (there : s.tx.descriptor = some fd) (found : s.files.conn fd = some c)
    (sends : s.tx.code config ≠ []) {bytes : List UInt8} (front : bytes <+: s.tx.code config) :
    Talking config { s with tx := if bytes = s.tx.code config then s.tx.after else .closing }
      (sent ++ [(c, bytes)]) := by
  obtain ⟨c', made, held, taken⟩ := h.open_ fd there
  obtain rfl : c = c' := by
    rcases held with held | none
    · exact Option.some.inj (found.symm.trans held)
    · rw [found] at none
      cases none
  obtain ⟨descriptor, installed, sampled⟩ := after_spec sends
  constructor
  case made => exact h.made
  case unmade =>
    intro c' later
    have other : c ≠ c' := by
      rintro rfl
      exact absurd made (not_lt.mpr later)
    rw [takenBy_append, takenBy_singleton, if_neg other, List.append_nil]
    exact h.unmade c' later
  case front =>
    intro c'
    rw [takenBy_append, takenBy_singleton]
    by_cases same : c = c'
    · subst same
      obtain ⟨n, whole⟩ := taken_front taken sends
      rw [if_pos rfl]
      exact ⟨n, ((List.prefix_append_right_inj _).mpr front).trans whole⟩
    · rw [if_neg same, List.append_nil]
      exact h.front c'
  case open_ =>
    intro fd' there'
    by_cases all : bytes = s.tx.code config
    · rw [if_pos all, descriptor] at there'
      obtain rfl : fd = fd' := Option.some.inj (there.symm.trans there')
      refine ⟨c, made, .inl found, ?_⟩
      rw [takenBy_append, takenBy_singleton, if_pos rfl, if_pos all, all]
      exact taken_after taken sends
    · rw [if_neg all] at there'
      cases there'
  case current =>
    intro fd' there' _
    by_cases all : bytes = s.tx.code config
    · rw [if_pos all, descriptor] at there'
      exact h.current fd' there' installed
    · rw [if_neg all] at there'
      cases there'
  case sampled =>
    by_cases all : bytes = s.tx.code config
    · rw [if_pos all]
      exact sampled
    · rw [if_neg all]
      exact nofun

end Talking

/-! ### Runs -/

section Runs

variable {config : CommMqttConfig}

/-- A call that sends, on the connection of its descriptor. -/
theorem Talking.send {s s' : MqttState} {sent out : List (Nat × List UInt8)}
    (h : Talking config s sent) {stack : Mem} {answers : List At.WriteEvent}
    (step : mqttTrafficStep config s (.send stack answers) = some (s', out)) :
    Talking config s' (sent ++ out) := by
  obtain ⟨⟨fd, call, input⟩, called, step⟩ := Option.bind_eq_some_iff.mp step
  obtain ⟨writes, sends⟩ := mqttCall_writes called
  have there := mqttCall_descriptor called h.sampled
  simp only [mqttStep_sent called, Option.map_some] at step
  cases found : s.files.conn fd with
  | some c =>
      obtain ⟨front, whole⟩ := commMqttWriteAll_sent answers (s.tx.code config) stack
      simp only [found, writes, whole, decide_eq_true_eq] at step
      cases step
      exact h.write there found sends front
  | none =>
      have refused : ¬ (commMqttWriteAll [.error] (ofList (s.tx.code config) stack)
          (s.tx.code config).length).ret = 0 := by
        obtain ⟨b, code, split⟩ := List.exists_cons_of_ne_nil sends
        simp only [commMqttWriteAll, bytes_ofList, split]
        exact (by decide : ¬ (-1 : Int) = 0)
      simp only [found, writes, refused, decide_false, Bool.false_eq_true, if_false] at step
      cases step
      rw [List.append_nil]
      exact h.fails

/-- **One step** of the two threads keeps the invariant, with the bytes that the step sends
added to the log. -/
theorem mqttTrafficStep_keeps (s : MqttState) (log : List (List (Nat × List UInt8)))
    (e : MqttEvent) (s' : MqttState) (out : List (Nat × List UInt8))
    (h : Talking config s log.flatten) (_ : True)
    (step : mqttTrafficStep config s e = some (s', out)) :
    Talking config s' (log ++ [out]).flatten := by
  rw [List.flatten_append, List.flatten_singleton]
  cases e with
  | send stack answers => exact h.send step
  | other i =>
      rw [mqttTrafficStep] at step
      split at step
      case isTrue => cases step
      case isFalse other =>
        obtain ⟨⟨next, t⟩, stepped, same⟩ := Option.map_eq_some_iff.mp step
        cases same
        rw [List.append_nil]
        cases i with
        | txSendConnect | txPublish | txPing => exact absurd rfl other
        | txConnect result =>
            simp only [mqttStep] at stepped
            split at stepped
            · cases stepped
              exact h
            · split at stepped
              · cases stepped
                exact h.connect
              · cases stepped
            · cases stepped
        | txSetConnection =>
            simp only [mqttStep] at stepped
            split at stepped
            · rename_i connected
              cases stepped
              exact h.install connected
            · cases stepped
        | txConnack =>
            simp only [mqttStep] at stepped
            split at stepped
            · rename_i awaiting
              cases stepped
              exact h.connack awaiting
            · cases stepped
        | txGetConnection =>
            simp only [mqttStep] at stepped
            split at stepped
            · rename_i publishing
              cases stepped
              split
              case isTrue => exact h.fails
              case isFalse connected => exact h.sample publishing connected
            · cases stepped
        | txClose =>
            simp only [mqttStep] at stepped
            split at stepped
            · cases stepped
              exact h.reconnect
            · cases stepped
        | rxSample | rxRecv | rxReturn =>
            simp only [mqttStep] at stepped
            split at stepped
            · cases stepped
              exact h.rxMoves _
            · cases stepped
        | rxClose =>
            simp only [mqttStep] at stepped
            split at stepped
            · cases stepped
              exact h.close.rxMoves _
            · cases stepped

/-- **What the broker receives.** Along every interleaving of the transmit and the receive
thread, whatever the calls return, what a connection takes is the front of a session: CONNECT,
then status messages with consecutive ticks, a PINGREQ behind every fourth. The broker reads
packets of the session only, in order, and before each status message it has all those before. -/
theorem broker_session (config : CommMqttConfig) (es : List MqttEvent) (s : MqttState)
    (log : List (List (Nat × List UInt8)))
    (run : exec (mqttTrafficStep config) {} es = some (s, log)) :
    (∀ c, ∃ n, takenBy c log.flatten <+: sessionBytes config n ∧
      ∀ k, (readMany Mqtt.readPacket k (takenBy c log.flatten)).1 <+:
        (session config n).map Prod.snd) ∧
      ∀ fd tick c, s.tx = .publishing fd tick → s.files.conn fd = some c →
        ∃ n, tick = UInt32.ofNat n ∧
          readMany Mqtt.readPacket (session config n).length (takenBy c log.flatten) =
            ((session config n).map Prod.snd, []) := by
  have start : Talking config {} ([] : List (List (Nat × List UInt8))).flatten := .start
  have h := exec_history (I := fun s log => Talking config s log.flatten)
    mqttTrafficStep_keeps start run (meets_of_forall (fun _ _ => trivial) _ _)
  rw [List.nil_append] at h
  constructor
  · intro c
    obtain ⟨n, front⟩ := h.front c
    exact ⟨n, front, fun k => readMany_front Mqtt.stable_readPacket rfl (reads_session config n)
      front k⟩
  · intro fd tick c publishing found
    obtain ⟨c', -, held, taken⟩ := h.open_ fd (by rw [publishing]; rfl)
    obtain rfl : c = c' := by
      rcases held with held | none
      · exact Option.some.inj (found.symm.trans held)
      · rw [found] at none
        cases none
    rw [publishing] at taken
    obtain ⟨n, rfl, whole⟩ := taken
    refine ⟨n, rfl, ?_⟩
    rw [whole]
    exact readMany_whole (reads_session config n) rfl le_rfl

end Runs

/-- The broker closes its end behind the first status message; the next connection breaks in
the middle of its CONNECT. -/
def brokenSessions : List MqttEvent :=
  [.other (.txConnect (some 5)), .other .txSetConnection,
    .send (fun _ => 0) [.accepted 3, .interrupted], .other .txConnack, .other .txGetConnection,
    .send (fun _ => 0) [], .other .rxSample, .other .txGetConnection, .other .rxRecv,
    .other (.rxReturn .endOfStream), .other .rxClose, .send (fun _ => 0) [], .other .txClose,
    .other (.txConnect (some 5)), .other .txSetConnection,
    .send (fun _ => 0) [.accepted 7, .error]]

theorem brokenSessions_session :
    ∃ s log, exec (mqttTrafficStep defaultConfig) {} brokenSessions = some (s, log) ∧
      (readMany Mqtt.readPacket 9 (takenBy 0 log.flatten)).1 =
        (session defaultConfig 1).map Prod.snd ∧
      takenBy 1 log.flatten = (sessionBytes defaultConfig 0).take 7 ∧
      (∀ c, ∃ n, takenBy c log.flatten <+: sessionBytes defaultConfig n ∧
        ∀ k, (readMany Mqtt.readPacket k (takenBy c log.flatten)).1 <+:
          (session defaultConfig n).map Prod.snd) ∧
      ∀ fd tick c, s.tx = .publishing fd tick → s.files.conn fd = some c →
        ∃ n, tick = UInt32.ofNat n ∧
          readMany Mqtt.readPacket (session defaultConfig n).length (takenBy c log.flatten) =
            ((session defaultConfig n).map Prod.snd, []) := by
  have runs : (exec (mqttTrafficStep defaultConfig) {} brokenSessions).isSome := by
    decide +kernel
  have bytes : (exec (mqttTrafficStep defaultConfig) {} brokenSessions).map
      (fun r => ((readMany Mqtt.readPacket 9 (takenBy 0 r.2.flatten)).1,
        takenBy 1 r.2.flatten)) =
      some ((session defaultConfig 1).map Prod.snd, (sessionBytes defaultConfig 0).take 7) := by
    decide +kernel
  obtain ⟨⟨s, log⟩, run⟩ := Option.isSome_iff_exists.mp runs
  rw [run, Option.map_some, Option.some.injEq, Prod.mk.injEq] at bytes
  exact ⟨s, log, run, bytes.1, bytes.2, broker_session defaultConfig brokenSessions s log run⟩

end Ok3506.Comm
