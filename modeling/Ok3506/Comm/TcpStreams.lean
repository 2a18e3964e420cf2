import Ok3506.Comm.Queues
import Ok3506.Comm.TcpThreads

/-!
What the clients of the TCP module receive.

A frame is popped, the current client is looked up once, and the frame is written to its
descriptor piece by piece, while other threads replace or close the client. As long as a
descriptor number is not reused in the middle of a frame, every client receives whole frames
in the order of the queue, and only the last of them may be cut.
-/

namespace Ok3506.Comm

open Machine

/-! ### Traffic -/

/-- The bytes of a queued frame, as many as its `len` says. -/
def CommTcpFrame.bytes (frame : CommTcpFrame) : List UInt8 :=
  (frame.data.getD []).take frame.len

/-- What a step adds to the traffic: the data of a `comm_tcp_send` that returns 0, the bytes
that `send` takes for a connection. -/
structure TcpTraffic where
  queued : List (List UInt8) := []
  sent : List (Nat × List UInt8) := []
  deriving DecidableEq

def tcpTraffic (s : TcpState) : TcpInput → TcpTraffic
  | .send data mallocOk =>
      if (commTcpSend s.ctx data mallocOk).2 = 0 then { queued := [data] } else {}
  | .txReturn (.sent n) =>
      match s.tx with
      | .sending _ frame written (some c) =>
          { sent := [(c, (frame.bytes.drop written).take n)] }
      | _ => {}
  | _ => {}

/-- One step of the threads, with its traffic. -/
def tcpTrafficStep (s : TcpState) (i : TcpInput) : Option (TcpState × TcpTraffic) :=
  (tcpStep s i).map fun next => (next.1, tcpTraffic s i)

/-- The frames that were queued along the run, oldest first. -/
def queuedData (log : List TcpTraffic) : List (List UInt8) := log.flatMap TcpTraffic.queued

/-- The bytes that a client has received along the run, in order. -/
def receivedBy (c : Nat) (log : List TcpTraffic) : List UInt8 :=
  takenBy c (log.flatMap TcpTraffic.sent)

/-- The descriptor that the transmit thread is writing to. -/
def TxPc.descriptor : TxPc → Option Int
  | .sampled fd _ _ | .sending fd _ _ _ => some fd
  | .idle | .popped _ | .failed _ => none

/-- The connection that a `send` under way was called for; the descriptor may have been closed
before. -/
def TxPc.called : TxPc → Option (Option Nat)
  | .sending _ _ _ conn => some conn
  | .idle | .popped _ | .sampled _ _ _ | .failed _ => none

/-- The condition on a step: no client gets the number of the descriptor that the transmit
thread is writing to; and `send` takes nothing for a descriptor that was closed. -/
def Undisturbed (s : TcpState) : TcpInput → Prop
  | .accept fd => s.tx.descriptor ≠ some fd
  | .txReturn (.sent _) => s.tx.called ≠ some none
  | _ => True

instance (s : TcpState) : DecidablePred (Undisturbed s)
  | .accept fd => inferInstanceAs (Decidable (s.tx.descriptor ≠ some fd))
  | .txReturn (.sent _) => inferInstanceAs (Decidable (s.tx.called ≠ some none))
  | .txReturn .interrupted | .txReturn .error | .replaceClient | .rxSample | .rxRecv
  | .rxReturn _ | .rxClose | .txPop | .txSample | .txSend | .txClose | .send _ _ => isTrue trivial

/-! ### Deliveries -/

/-- What has become of a frame: the client that was current, its bytes, and how many of them
were taken. -/
structure Delivery where
  client : Option Nat
  data : List UInt8
  written : Nat
  deriving DecidableEq

/-- The bytes of the frame that its client received: all of them, or the front of it where
the connection failed. -/
def Delivery.bytes (d : Delivery) : List UInt8 := d.data.take d.written

/-- The frames that went to a client. -/
def sentTo (c : Nat) (journal : List Delivery) : List Delivery :=
  journal.filter fun d => d.client = some c

/-- A frame that has been popped and has no client yet. -/
def TxPc.waiting : TxPc → List (List UInt8)
  | .popped frame => [frame.bytes]
  | .idle | .sampled _ _ _ | .sending _ _ _ _ | .failed _ => []

/-! ### Open connections -/

/-- Open descriptors are valid and refer to different connections. -/
structure Descriptors.Numbered (d : Descriptors) : Prop where
  valid : ∀ fd c, d.conn fd = some c → 0 ≤ fd
  made : ∀ fd c, d.conn fd = some c → c < d.made
  one : ∀ fd fd' c, d.conn fd = some c → d.conn fd' = some c → fd = fd'

/-- The connection was made and has been closed: no descriptor refers to it any more. -/
def Descriptors.Closed (d : Descriptors) (c : Nat) : Prop :=
  c < d.made ∧ ∀ fd, d.conn fd ≠ some c

/-- A connection that is the client's unless it was closed. -/
def TcpState.Held (s : TcpState) (c : Nat) : Prop :=
  c < s.files.made ∧ ∀ fd, s.files.conn fd = some c → fd = s.ctx.clientFd

/-- A descriptor of that connection, which may have been closed. -/
def TcpState.HeldBy (s : TcpState) (c : Nat) (fd : Int) : Prop :=
  s.Held c ∧ (s.files.conn fd = some c ∨ s.files.conn fd = none)

/-- The frame that the transmit thread is writing. -/
def Writing (s : TcpState) (now : List Delivery) : Prop :=
  match s.tx with
  | .idle | .popped _ => now = []
  | .sampled fd frame written =>
      ∃ c, now = [⟨some c, frame.bytes, written⟩] ∧ s.HeldBy c fd
  | .sending fd frame written conn =>
      ∃ c, now = [⟨some c, frame.bytes, written⟩] ∧ s.HeldBy c fd ∧
        (conn = some c ∨ conn = none)
  | .failed _ => ∃ c data written, now = [⟨some c, data, written⟩] ∧ s.Held c

/-- The invariant: the journal of the frames that are done with, and of the one being
written. -/
structure Streams (s : TcpState) (log : List TcpTraffic) (done now : List Delivery) : Prop where
  clientOpen : ClientOpen s.ctx.clientFd s.files s.accept.next
  files : s.files.Numbered
  ring : s.ctx.ring.WellFormed commTcpQueueCapacity
  queued : queuedData log = (done ++ now).map Delivery.data ++ s.tx.waiting ++
    (s.ctx.ring.contents commTcpQueueCapacity).map CommTcpFrame.bytes
  received : ∀ c, receivedBy c log = (sentTo c (done ++ now)).flatMap Delivery.bytes
  whole : ∀ d ∈ done, ∀ c, d.client = some c → d.bytes = d.data ∨ s.files.Closed c
  ordered : ∀ c, ∀ d ∈ (sentTo c (done ++ now)).dropLast, d.bytes = d.data
  writing : Writing s now

section Lists

variable (log : List TcpTraffic) (t : TcpTraffic) (c : Nat) (journal more : List Delivery)

@[simp] theorem queuedData_append :
    queuedData (log ++ [t]) = queuedData log ++ t.queued := by
  simp [queuedData]

@[simp] theorem receivedBy_append :
    receivedBy c (log ++ [t]) = receivedBy c log ++ takenBy c t.sent := by
  simp [receivedBy]

@[simp] theorem sentTo_append : sentTo c (journal ++ more) = sentTo c journal ++ sentTo c more :=
  List.filter_append _ _

theorem sentTo_singleton (d : Delivery) :
    sentTo c [d] = if d.client = some c then [d] else [] := by
  by_cases same : d.client = some c <;> simp [sentTo, same]

end Lists

/-! ### Opening and closing -/

section Files

variable {files : Descriptors} {fd : Int} {c : Nat}

theorem Descriptors.Numbered.connect (h : files.Numbered) (valid : 0 ≤ fd) :
    (files.connect fd).Numbered := by
  have new (fd' : Int) (c : Nat) (found : (files.connect fd).conn fd' = some c) :
      fd' = fd ∧ c = files.made ∨ fd' ≠ fd ∧ files.conn fd' = some c := by
    change Function.update files.conn fd (some files.made) fd' = some c at found
    by_cases same : fd' = fd
    · rw [same, Function.update_self] at found
      exact .inl ⟨same, (Option.some.inj found).symm⟩
    · rw [Function.update_of_ne same] at found
      exact .inr ⟨same, found⟩
  constructor
  · intro fd' c found
    rcases new fd' c found with ⟨rfl, -⟩ | ⟨-, old⟩
    · exact valid
    · exact h.valid fd' c old
  · intro fd' c found
    change c < files.made + 1
    rcases new fd' c found with ⟨-, rfl⟩ | ⟨-, old⟩
    · exact Nat.lt_succ_self _
    · exact Nat.lt_succ_of_lt (h.made fd' c old)
  · intro fd₁ fd₂ c first second
    rcases new fd₁ c first with ⟨rfl, rfl⟩ | ⟨-, old₁⟩ <;>
      rcases new fd₂ _ second with ⟨rfl, same⟩ | ⟨-, old₂⟩
    · rfl
    · exact absurd (h.made fd₂ _ old₂) (Nat.lt_irrefl _)
    · exact absurd (h.made fd₁ _ old₁) (by omega)
    · exact h.one fd₁ fd₂ c old₁ old₂

theorem conn_close_eq_some {fd' : Int} :
    (files.close fd).conn fd' = some c ↔ fd' ≠ fd ∧ files.conn fd' = some c := by
  change Function.update files.conn fd none fd' = some c ↔ _
  by_cases same : fd' = fd
  · simp [same]
  · simp [same, Function.update_of_ne]

theorem Descriptors.Numbered.close (h : files.Numbered) : (files.close fd).Numbered where
  valid fd' c found := h.valid fd' c (conn_close_eq_some.mp found).2
  made fd' c found := h.made fd' c (conn_close_eq_some.mp found).2
  one fd₁ fd₂ c first second :=
    h.one fd₁ fd₂ c (conn_close_eq_some.mp first).2 (conn_close_eq_some.mp second).2

end Files

/-- Connections are opened and closed, the client may be replaced; the transmit thread and the
queue stay as they are. -/
structure Follows (s s' : TcpState) : Prop where
  made : s.files.made ≤ s'.files.made
  old : ∀ fd c, c < s.files.made → s'.files.conn fd = some c →
    s.files.conn fd = some c ∧ (fd = s.ctx.clientFd → fd = s'.ctx.clientFd)
  kept : ∀ fd, s.tx.descriptor = some fd →
    s'.files.conn fd = s.files.conn fd ∨ s'.files.conn fd = none
  tx : s'.tx = s.tx
  ring : s'.ctx.ring = s.ctx.ring

section Follows

variable {s s' : TcpState} {log : List TcpTraffic} {done now : List Delivery} {c : Nat}
  {fd : Int}

theorem Follows.closed (f : Follows s s') (h : s.files.Closed c) : s'.files.Closed c :=
  ⟨h.1.trans_le f.made, fun fd found => h.2 fd (f.old fd c h.1 found).1⟩

theorem Follows.held (f : Follows s s') (h : s.Held c) : s'.Held c := by
  refine ⟨h.1.trans_le f.made, fun fd found => ?_⟩
  obtain ⟨before, client⟩ := f.old fd c h.1 found
  exact client (h.2 fd before)

theorem Follows.heldBy (f : Follows s s') (writes : s.tx.descriptor = some fd)
    (h : s.HeldBy c fd) : s'.HeldBy c fd := by
  refine ⟨f.held h.1, ?_⟩
  rcases f.kept fd writes with same | closed
  · rw [same]
    exact h.2
  · exact .inr closed

theorem Follows.writing (f : Follows s s') (h : Writing s now) : Writing s' now := by
  have heldBy (fd : Int) (c : Nat) := @Follows.heldBy s s' c fd f
  rw [Writing] at h ⊢
  rw [f.tx]
  cases tx : s.tx with
  | idle | popped => rwa [tx] at h
  | sampled fd frame written =>
      rw [tx] at h heldBy
      obtain ⟨c, now, held⟩ := h
      exact ⟨c, now, heldBy fd c rfl held⟩
  | sending fd frame written conn =>
      rw [tx] at h heldBy
      obtain ⟨c, now, held, called⟩ := h
      exact ⟨c, now, heldBy fd c rfl held, called⟩
  | failed conn =>
      rw [tx] at h
      obtain ⟨c, data, written, now, held⟩ := h
      exact ⟨c, data, written, now, f.held held⟩

/-- Connections may come and go: while the transmit thread and the queue stay, so does the
journal. -/
theorem Streams.follows (h : Streams s log done now) (f : Follows s s')
    (clientOpen : ClientOpen s'.ctx.clientFd s'.files s'.accept.next)
    (files : s'.files.Numbered) : Streams s' log done now where
  clientOpen := clientOpen
  files := files
  ring := by
    rw [f.ring]
    exact h.ring
  queued := by
    rw [f.ring, f.tx]
    exact h.queued
  received := h.received
  whole d mem c client := (h.whole d mem c client).imp id f.closed
  ordered := h.ordered
  writing := f.writing h.writing

/-- A step without traffic keeps the streams. -/
theorem Streams.quiet (h : Streams s log done now) : Streams s (log ++ [⟨[], []⟩]) done now where
  clientOpen := h.clientOpen
  files := h.files
  ring := h.ring
  queued := by
    rw [queuedData_append, List.append_nil]
    exact h.queued
  received c := by
    rw [receivedBy_append]
    exact (List.append_nil _).trans (h.received c)
  whole := h.whole
  ordered := h.ordered
  writing := h.writing

/-- A step of the receive thread that closes nothing keeps the streams. -/
theorem Streams.rxMoves (h : Streams s log done now) (rx : RxPc) :
    Streams { s with rx } log done now :=
  ⟨h.clientOpen, h.files, h.ring, h.queued, h.received, h.whole, h.ordered, h.writing⟩

theorem follows_accept (unused : s.files.conn fd = none) (other : s.tx.descriptor ≠ some fd) :
    Follows s { s with files := s.files.connect fd, accept := .accepted fd } where
  made := Nat.le_succ _
  old fd' c before found := by
    change Function.update s.files.conn fd (some s.files.made) fd' = some c at found
    by_cases same : fd' = fd
    · rw [same, Function.update_self] at found
      have := Option.some.inj found
      omega
    · rw [Function.update_of_ne same] at found
      exact ⟨found, id⟩
  kept fd' writes := by
    refine .inl (Function.update_of_ne ?_ _ _)
    rintro rfl
    exact other writes
  tx := rfl
  ring := rfl

/-- The client's descriptor is closed, and the client is another or none. -/
theorem follows_close {client : Int} {accept : AcceptPc} :
    Follows s { s with
      ctx := { s.ctx with clientFd := client }
      files := s.files.close s.ctx.clientFd
      accept } where
  made := le_rfl
  old fd' c _ found := by
    obtain ⟨other, before⟩ := conn_close_eq_some.mp found
    exact ⟨before, fun same => absurd same other⟩
  kept fd' _ := by
    change Function.update s.files.conn s.ctx.clientFd none fd' = _ ∨
      Function.update s.files.conn s.ctx.clientFd none fd' = none
    by_cases same : fd' = s.ctx.clientFd
    · rw [same, Function.update_self]
      exact .inr rfl
    · rw [Function.update_of_ne same]
      exact .inl rfl
  tx := rfl
  ring := rfl

/-- Installing a client where there is none leaves the traffic of the others alone. -/
theorem follows_install (files : s.files.Numbered) (none : s.ctx.clientFd < 0) {client : Int}
    {accept : AcceptPc} :
    Follows s { s with ctx := { s.ctx with clientFd := client }, accept } where
  made := le_rfl
  old fd' c _ found := by
    have valid := files.valid fd' c found
    exact ⟨found, fun same => by omega⟩
  kept _ _ := .inl rfl
  tx := rfl
  ring := rfl

theorem follows_replaceClient (files : s.files.Numbered) :
    Follows s (replaceClient s fd) := by
  rw [replaceClient]
  split
  · exact follows_close
  · rename_i none
    exact follows_install files (not_le.mp none)

theorem follows_commTcpCloseClient : Follows s (commTcpCloseClient s).1 := by
  rw [commTcpCloseClient]
  split
  · exact follows_close
  · exact ⟨le_rfl, fun _ _ _ found => ⟨found, id⟩, fun _ _ => .inl rfl, rfl, rfl⟩

theorem numbered_replaceClient (h : s.files.Numbered) : (replaceClient s fd).files.Numbered := by
  rw [replaceClient]
  split
  · exact h.close
  · exact h

theorem numbered_commTcpCloseClient (h : s.files.Numbered) :
    (commTcpCloseClient s).1.files.Numbered := by
  rw [commTcpCloseClient]
  split
  · exact h.close
  · exact h

theorem Streams.closeClient (h : Streams s log done now) :
    Streams (commTcpCloseClient s).1 log done now :=
  h.follows follows_commTcpCloseClient (clientOpen_commTcpCloseClient h.clientOpen)
    (numbered_commTcpCloseClient h.files)

end Follows

/-! ### The transmit thread -/

section Transmit

variable {s : TcpState} {log : List TcpTraffic} {done now : List Delivery} {c : Nat} {fd : Int}
  {frame : CommTcpFrame} {written : Nat}

theorem contents_of_popped {ctx ctx' : CommTcpContext}
    (ring : ctx.ring.WellFormed commTcpQueueCapacity)
    (h : commTcpQueuePop ctx = .popped frame ctx') :
    ctx'.ring.WellFormed commTcpQueueCapacity ∧
      ctx.ring.contents commTcpQueueCapacity =
        frame :: ctx'.ring.contents commTcpQueueCapacity := by
  by_cases empty : ctx.queueCount = 0
  · rw [commTcpQueuePop_of_empty empty] at h
    cases running : ctx.running <;> rw [running] at h <;> cases h
  · obtain ⟨after, popped, ringAfter⟩ := commTcpQueuePop_of_some empty
    rw [popped] at h
    cases h
    rw [ringAfter]
    exact ⟨ring.pop empty _, ring.contents_pop empty _⟩

theorem Streams.pop (h : Streams s log done now) (idle : s.tx = .idle) {ctx : CommTcpContext}
    (popped : commTcpQueuePop s.ctx = .popped frame ctx) :
    Streams { s with ctx, tx := .popped frame } log done now := by
  obtain ⟨ring, contents⟩ := contents_of_popped h.ring popped
  have client := clientFd_of_popped popped
  have writing := h.writing
  rw [Writing, idle] at writing
  constructor
  case clientOpen =>
    rw [client]
    exact h.clientOpen
  case files => exact h.files
  case ring => exact ring
  case queued =>
    rw [h.queued, idle, contents]
    simp [TxPc.waiting]
  case received => exact h.received
  case whole => exact h.whole
  case ordered => exact h.ordered
  case writing => exact writing

/-- A popped frame is dropped when there is no client. -/
theorem Streams.drop (h : Streams s log done now) (popped : s.tx = .popped frame) :
    Streams { s with tx := .idle } log (done ++ [⟨none, frame.bytes, 0⟩]) [] := by
  have writing := h.writing
  rw [Writing, popped] at writing
  subst writing
  have nobody (c : Nat) : sentTo c (done ++ [⟨none, frame.bytes, 0⟩] ++ []) =
      sentTo c (done ++ []) := by
    rw [sentTo_append, sentTo_append, sentTo_append, sentTo_singleton, if_neg nofun]
    simp
  constructor
  case clientOpen => exact h.clientOpen
  case files => exact h.files
  case ring => exact h.ring
  case queued =>
    rw [h.queued, popped]
    simp [TxPc.waiting]
  case received =>
    intro c
    rw [nobody]
    exact h.received c
  case whole =>
    intro d mem c client
    rcases List.mem_append.mp mem with old | new
    · exact h.whole d old c client
    · rw [List.mem_singleton.mp new] at client
      cases client
  case ordered =>
    intro c
    rw [nobody]
    exact h.ordered c
  case writing => rfl

/-- A popped frame goes to the client. The frames before it that went there are whole, since
the connection is open. -/
theorem Streams.address (h : Streams s log done now) (popped : s.tx = .popped frame)
    (valid : 0 ≤ s.ctx.clientFd) :
    ∃ c, Streams { s with tx := .sampled s.ctx.clientFd frame 0 } log done
      [⟨some c, frame.bytes, 0⟩] := by
  have writing := h.writing
  rw [Writing, popped] at writing
  subst writing
  obtain ⟨c, found⟩ := Option.isSome_iff_exists.mp (h.clientOpen.client valid)
  have more (c' : Nat) : sentTo c' (done ++ [⟨some c, frame.bytes, 0⟩]) =
      sentTo c' done ++ if c = c' then [⟨some c, frame.bytes, 0⟩] else [] := by
    rw [sentTo_append, sentTo_singleton]
    simp
  refine ⟨c, ?_⟩
  constructor
  case clientOpen => exact h.clientOpen
  case files => exact h.files
  case ring => exact h.ring
  case queued =>
    rw [h.queued, popped]
    simp [TxPc.waiting]
  case received =>
    intro c'
    rw [more, List.flatMap_append, h.received, List.append_nil]
    by_cases same : c = c' <;> simp [same, Delivery.bytes]
  case whole => exact h.whole
  case ordered =>
    intro c' d mem
    rw [more] at mem
    by_cases same : c = c'
    · subst same
      rw [if_pos rfl, List.dropLast_concat] at mem
      obtain ⟨before, went⟩ := List.mem_filter.mp mem
      refine (h.whole d before c (of_decide_eq_true went)).resolve_right ?_
      intro closed
      exact closed.2 _ found
    · rw [if_neg same] at mem
      have ordered := h.ordered c' d
      rw [sentTo_append] at ordered
      exact ordered mem
  case writing =>
    refine ⟨c, rfl, ⟨h.files.made _ c found, ?_⟩, .inl found⟩
    intro fd' other
    exact h.files.one fd' _ c other found

/-- The frame being written is done with: it is whole, or its connection is closed. -/
theorem Streams.finish {d : Delivery} (h : Streams s log done [d]) (quiet : s.tx.waiting = [])
    (ended : ∀ c, d.client = some c → d.bytes = d.data ∨ s.files.Closed c) :
    Streams { s with tx := .idle } log (done ++ [d]) [] := by
  constructor
  case clientOpen => exact h.clientOpen
  case files => exact h.files
  case ring => exact h.ring
  case queued =>
    rw [h.queued, quiet, List.append_nil (done ++ [d])]
    rfl
  case received =>
    intro c
    rw [List.append_nil]
    exact h.received c
  case whole =>
    intro d' mem
    rcases List.mem_append.mp mem with old | new
    · exact h.whole d' old
    · rw [List.mem_singleton.mp new]
      exact ended
  case ordered =>
    intro c
    rw [List.append_nil]
    exact h.ordered c
  case writing => rfl

/-- The transmit thread is somewhere else in the frame it is writing. -/
theorem Streams.moves (h : Streams s log done now) (tx : TxPc) (before : s.tx.waiting = [])
    (after : tx.waiting = []) (writing : Writing { s with tx } now) :
    Streams { s with tx } log done now where
  clientOpen := h.clientOpen
  files := h.files
  ring := h.ring
  queued := by
    rw [h.queued, before, after]
  received := h.received
  whole := h.whole
  ordered := h.ordered
  writing := writing

/-- The loop of `comm_tcp_write_all` goes on, or the frame is whole. -/
theorem Streams.write (h : Streams { s with tx := .sampled fd frame written } log done now) :
    ∃ done' now', Streams { s with tx := txWrite fd frame written } log done' now' := by
  rw [txWrite]
  split
  case isTrue => exact ⟨done, now, h⟩
  case isFalse all =>
    obtain ⟨c, rfl, -⟩ := h.writing
    refine ⟨_, _, h.finish rfl fun _ _ => .inl (List.take_of_length_le ?_)⟩
    have most : frame.bytes.length ≤ frame.len := List.length_take_le _ _
    exact most.trans (not_lt.mp all)

/-- `send` takes the next bytes of the frame. -/
theorem Streams.sent (h : Streams s log done now) {conn : Option Nat}
    (sending : s.tx = .sending fd frame written conn) {n : Nat}
    (undisturbed : Undisturbed s (.txReturn (.sent n))) :
    ∃ now', Streams { s with tx := .sampled fd frame (written + n) }
      (log ++ [tcpTraffic s (.txReturn (.sent n))]) done now' := by
  have writing := h.writing
  rw [Writing, sending] at writing
  obtain ⟨c, rfl, held, called⟩ := writing
  obtain rfl : conn = some c := by
    rcases called with called | rfl
    · exact called
    · rw [Undisturbed, sending] at undisturbed
      exact absurd rfl undisturbed
  have traffic : tcpTraffic s (.txReturn (.sent n)) =
      ⟨[], [(c, (frame.bytes.drop written).take n)]⟩ := by
    rw [tcpTraffic, sending]
  have longer (c' : Nat) (w : Nat) : sentTo c' (done ++ [⟨some c, frame.bytes, w⟩]) =
      sentTo c' done ++ if c = c' then [⟨some c, frame.bytes, w⟩] else [] := by
    rw [sentTo_append, sentTo_singleton]
    simp
  refine ⟨[⟨some c, frame.bytes, written + n⟩], ?_⟩
  constructor
  case clientOpen => exact h.clientOpen
  case files => exact h.files
  case ring => exact h.ring
  case queued =>
    rw [queuedData_append, h.queued, sending, traffic]
    simp [TxPc.waiting]
  case received =>
    intro c'
    rw [receivedBy_append, h.received, traffic, longer, longer, List.flatMap_append,
      List.flatMap_append, List.append_assoc]
    by_cases same : c = c' <;> simp [same, Delivery.bytes, List.take_add]
  case whole => exact h.whole
  case ordered =>
    intro c' d mem
    have ordered := h.ordered c' d
    rw [longer] at mem ordered
    by_cases same : c = c'
    · rw [if_pos same, List.dropLast_concat] at mem ordered
      exact ordered mem
    · rw [if_neg same] at mem ordered
      exact ordered mem
  case writing => exact ⟨c, rfl, held⟩

theorem clientFd_commTcpCloseClient (s : TcpState) : (commTcpCloseClient s).1.ctx.clientFd < 0 := by
  rw [commTcpCloseClient]
  split
  · exact (by decide : (-1 : Int) < 0)
  · rename_i none
    exact not_le.mp none

/-- The transmit thread gives a frame up: the connection it went to is closed now. -/
theorem Streams.giveUp (h : Streams s log done now) {conn : Option Nat}
    (failed : s.tx = .failed conn) :
    ∃ done', Streams { (commTcpCloseClient s).1 with tx := .idle } log done' [] := by
  have closed := h.closeClient
  have same := (commTcpCloseClient_spec s).2.2.2
  have writing := closed.writing
  rw [Writing, same, failed] at writing
  obtain ⟨c, data, written, rfl, held⟩ := writing
  refine ⟨_, closed.finish (by rw [same, failed]; rfl) ?_⟩
  rintro _ ⟨⟩
  refine .inr ⟨held.1, fun fd found => ?_⟩
  have valid := closed.files.valid fd c found
  have client := held.2 fd found
  have none := clientFd_commTcpCloseClient s
  omega

/-- `comm_tcp_send` queues its data, or leaves the queue as it is. -/
theorem Streams.enqueue (h : Streams s log done now) (data : List UInt8) (mallocOk : Bool) :
    Streams { s with ctx := (commTcpSend s.ctx data mallocOk).1 }
      (log ++ [tcpTraffic s (.send data mallocOk)]) done now := by
  have unchanged (same : commTcpSend s.ctx data mallocOk = (s.ctx, -1)) :
      Streams { s with ctx := (commTcpSend s.ctx data mallocOk).1 }
        (log ++ [tcpTraffic s (.send data mallocOk)]) done now := by
    rw [tcpTraffic, same, if_neg (by decide : ¬ (-1 : Int) = 0)]
    exact h.quiet
  by_cases empty : data.length = 0
  · exact unchanged (if_pos empty)
  · cases mallocOk with
    | false => exact unchanged (if_neg empty)
    | true =>
        by_cases full : s.ctx.queueCount = commTcpQueueCapacity
        · exact unchanged ((if_neg empty).trans (commTcpQueuePush_of_full full true))
        · obtain ⟨ret, ring⟩ := ring_commTcpQueuePush data full
          have push : commTcpSend s.ctx data true = commTcpQueuePush s.ctx data true :=
            if_neg empty
          have traffic : tcpTraffic s (.send data true) = ⟨[data], []⟩ := by
            rw [tcpTraffic, push, if_pos ret]
          have client := clientFd_commTcpSend s.ctx data true
          constructor
          case clientOpen =>
            rw [client]
            exact h.clientOpen
          case files => exact h.files
          case ring =>
            rw [push, ring]
            exact h.ring.push full _
          case queued =>
            rw [queuedData_append, h.queued, traffic, push, ring, h.ring.contents_push full]
            simp [CommTcpFrame.bytes]
          case received =>
            intro c
            rw [receivedBy_append, traffic]
            exact (List.append_nil _).trans (h.received c)
          case whole => exact h.whole
          case ordered => exact h.ordered
          case writing =>
            have writing := h.writing
            unfold Writing TcpState.HeldBy TcpState.Held at writing ⊢
            rwa [client]

end Transmit

/-! ### Runs -/

/-- **One step.** An undisturbed step keeps a journal. -/
theorem tcpTrafficStep_keeps (s : TcpState) (log : List TcpTraffic) (i : TcpInput)
    (s' : TcpState) (t : TcpTraffic) (inv : ∃ done now, Streams s log done now)
    (undisturbed : Undisturbed s i) (step : tcpTrafficStep s i = some (s', t)) :
    ∃ done now, Streams s' (log ++ [t]) done now := by
  obtain ⟨done, now, h⟩ := inv
  obtain ⟨⟨next, out⟩, stepped, same⟩ := Option.map_eq_some_iff.mp step
  cases same
  cases i with
  | accept fd =>
      simp only [tcpStep] at stepped
      split at stepped
      · split at stepped
        · rename_i unused
          cases stepped
          refine ⟨done, now, Streams.quiet ?_⟩
          exact h.follows (follows_accept unused.2 undisturbed)
            (h.clientOpen.connect unused.2 unused.1) (h.files.connect unused.1)
        · cases stepped
      · cases stepped
  | replaceClient =>
      simp only [tcpStep] at stepped
      split at stepped
      · rename_i accepted
        cases stepped
        have clientOpen := h.clientOpen
        rw [accepted] at clientOpen
        refine ⟨done, now, Streams.quiet ?_⟩
        exact h.follows (follows_replaceClient h.files) clientOpen.replace
          (numbered_replaceClient h.files)
      · cases stepped
  | rxSample | rxRecv | rxReturn result =>
      simp only [tcpStep] at stepped
      split at stepped
      · cases stepped
        exact ⟨done, now, h.quiet.rxMoves _⟩
      · cases stepped
  | rxClose =>
      simp only [tcpStep] at stepped
      split at stepped
      · cases stepped
        exact ⟨done, now, h.closeClient.quiet.rxMoves _⟩
      · cases stepped
  | txPop =>
      simp only [tcpStep] at stepped
      split at stepped
      · rename_i idle popped
        cases stepped
        exact ⟨done, now, (h.pop idle popped).quiet⟩
      · cases stepped
  | txSample =>
      simp only [tcpStep] at stepped
      split at stepped
      · rename_i frame popped
        cases stepped
        by_cases none : s.ctx.clientFd < 0
        · rw [if_pos none]
          exact ⟨_, _, (h.drop popped).quiet⟩
        · obtain ⟨c, addressed⟩ := h.address popped (not_lt.mp none)
          obtain ⟨done', now', written⟩ := addressed.write
          rw [if_neg none]
          exact ⟨done', now', written.quiet⟩
      · cases stepped
  | txSend =>
      simp only [tcpStep] at stepped
      split at stepped
      · rename_i fd frame written sampled
        cases stepped
        have writing := h.writing
        rw [Writing, sampled] at writing
        obtain ⟨c, entry, held⟩ := writing
        have waiting : s.tx.waiting = [] := by
          rw [sampled]
          rfl
        exact ⟨done, now, (h.moves (.sending fd frame written (s.files.conn fd)) waiting rfl
          ⟨c, entry, held, held.2⟩).quiet⟩
      · cases stepped
  | txReturn result =>
      simp only [tcpStep] at stepped
      split at stepped
      · rename_i fd frame written conn sending
        cases stepped
        have waiting : s.tx.waiting = [] := by
          rw [sending]
          rfl
        have writing := h.writing
        rw [Writing, sending] at writing
        obtain ⟨c, entry, held, -⟩ := writing
        cases result with
        | sent n =>
            obtain ⟨now', taken⟩ := h.sent sending undisturbed
            exact ⟨_, _, taken.write.choose_spec.choose_spec⟩
        | interrupted =>
            exact ⟨done, now,
              (h.moves (.sampled fd frame written) waiting rfl ⟨c, entry, held⟩).quiet⟩
        | error =>
            exact ⟨done, now,
              (h.moves (.failed conn) waiting rfl ⟨c, _, _, entry, held.1⟩).quiet⟩
      · cases stepped
  | txClose =>
      simp only [tcpStep] at stepped
      split at stepped
      · rename_i failed
        cases stepped
        obtain ⟨done', gone⟩ := h.giveUp failed
        exact ⟨done', [], gone.quiet⟩
      · cases stepped
  | send data mallocOk =>
      simp only [tcpStep] at stepped
      cases stepped
      exact ⟨done, now, h.enqueue data mallocOk⟩

theorem Streams.start : Streams {} [] [] [] where
  clientOpen := ⟨nofun, nofun⟩
  files := ⟨nofun, nofun, nofun⟩
  ring := wellFormed_of_start rfl rfl rfl
  queued := rfl
  received _ := rfl
  whole := nofun
  ordered := nofun
  writing := rfl

/-- **What the clients receive.** Along every undisturbed interleaving of the threads each
frame that `comm_tcp_send` accepted goes to one client at most, and a client receives whole
frames in the order in which they were accepted; only the last may be cut, and when nothing is
being written its connection is closed then. -/
theorem clients_receive_frames (is : List TcpInput)
    (undisturbed : Meets tcpTrafficStep Undisturbed {} is) (s : TcpState)
    (log : List TcpTraffic) (run : exec tcpTrafficStep {} is = some (s, log)) :
    ∃ journal : List Delivery,
      queuedData log = journal.map Delivery.data ++ s.tx.waiting ++
        (s.ctx.ring.contents commTcpQueueCapacity).map CommTcpFrame.bytes ∧
      (∀ c, receivedBy c log = (sentTo c journal).flatMap Delivery.bytes ∧
        ∀ d ∈ (sentTo c journal).dropLast, d.bytes = d.data) ∧
      (s.tx = .idle → ∀ d ∈ journal, ∀ c, d.client = some c →
        d.bytes = d.data ∨ s.files.Closed c) := by
  obtain ⟨done, now, h⟩ :=
    exec_history tcpTrafficStep_keeps ⟨[], [], .start⟩ run undisturbed
  rw [List.nil_append] at h
  refine ⟨done ++ now, h.queued, fun c => ⟨h.received c, h.ordered c⟩, ?_⟩
  intro idle d mem c client
  have writing := h.writing
  rw [Writing, idle] at writing
  rw [writing, List.append_nil] at mem
  exact h.whole d mem c client

/-- The second client comes when the first has received its frame. -/
def twoClients : List TcpInput :=
  [.accept 5, .replaceClient, .send [1, 2, 3] true, .send [4, 5] true, .txPop, .txSample, .txSend,
    .txReturn (.sent 2), .accept 6, .txSend, .txReturn (.sent 1), .replaceClient, .txPop,
    .txSample, .txSend, .txReturn (.sent 2)]

theorem twoClients_receive :
    ∃ s log, exec tcpTrafficStep {} twoClients = some (s, log) ∧
      receivedBy 0 log = [1, 2, 3] ∧ receivedBy 1 log = [4, 5] ∧
      ∃ journal : List Delivery,
        queuedData log = journal.map Delivery.data ++ s.tx.waiting ++
          (s.ctx.ring.contents commTcpQueueCapacity).map CommTcpFrame.bytes ∧
        (∀ c, receivedBy c log = (sentTo c journal).flatMap Delivery.bytes ∧
          ∀ d ∈ (sentTo c journal).dropLast, d.bytes = d.data) ∧
        (s.tx = .idle → ∀ d ∈ journal, ∀ c, d.client = some c →
          d.bytes = d.data ∨ s.files.Closed c) := by
  have runs : (exec tcpTrafficStep {} twoClients).isSome := by decide
  have bytes : (exec tcpTrafficStep {} twoClients).map
      (fun r => (receivedBy 0 r.2, receivedBy 1 r.2)) = some ([1, 2, 3], [4, 5]) := by decide
  obtain ⟨⟨s, log⟩, run⟩ := Option.isSome_iff_exists.mp runs
  rw [run, Option.map_some, Option.some.injEq, Prod.mk.injEq] at bytes
  exact ⟨s, log, run, bytes.1, bytes.2,
    clients_receive_frames twoClients (by decide) s log run⟩

/-- The first client leaves in the middle of a frame, the next one gets its descriptor number
and, with it, the rest of the frame. -/
def reusedDescriptor : List TcpInput :=
  [.accept 5, .replaceClient, .send [1, 2, 3] true, .txPop, .txSample, .txSend,
    .txReturn (.sent 1), .rxSample, .rxRecv, .rxReturn .endOfStream, .rxClose, .accept 5,
    .replaceClient, .txSend, .txReturn (.sent 2)]

theorem reusedDescriptor_tears :
    ¬ Meets tcpTrafficStep Undisturbed {} reusedDescriptor ∧
      (exec tcpTrafficStep {} reusedDescriptor).map
        (fun r => (queuedData r.2, receivedBy 0 r.2, receivedBy 1 r.2)) =
          some ([[1, 2, 3]], [1], [2, 3]) := by
  constructor <;> decide

end Ok3506.Comm
