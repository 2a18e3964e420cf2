import Ok3506.Comm.Connections
import Ok3506.Comm.Tcp
import Ok3506.Lib.Machine

/-!
The accept, receive and transmit threads of the TCP module.

`tcpStep` interleaves their atomic steps; the teardowns on the error paths are
its outputs. In a schedule in which no client is installed between a thread's
reading of the descriptor and its close, a thread closes only the connection on
which its call failed.
-/

namespace Ok3506.Comm

open Machine

/-! ### The threads of the TCP module -/

/-- Where the accept thread is. -/
inductive AcceptPc where
  | accepting
  | accepted (fd : Int)
  deriving DecidableEq, Repr

/-- Where the transmit thread is, inside `comm_tcp_write_all` with what it has
written. -/
inductive TxPc where
  | idle
  | popped (frame : CommTcpFrame)
  | sampled (fd : Int) (frame : CommTcpFrame) (written : Nat)
  | sending (fd : Int) (frame : CommTcpFrame) (written : Nat) (conn : Option Nat)
  | failed (observed : Option Nat)
  deriving DecidableEq

/-- The TCP module. -/
structure TcpState where
  ctx : CommTcpContext := { running := true }
  files : Descriptors := {}
  accept : AcceptPc := .accepting
  rx : RxPc := .idle
  tx : TxPc := .idle

/-- The atomic steps. -/
inductive TcpInput where
  /-- `accept` returns a descriptor -/
  | accept (fd : Int)
  /-- the critical section of the accept thread -/
  | replaceClient
  /-- `comm_tcp_get_client_fd` of the receive thread -/
  | rxSample
  | rxRecv
  | rxReturn (result : RecvResult)
  /-- `comm_tcp_close_client` of the receive thread -/
  | rxClose
  | txPop
  /-- `comm_tcp_get_client_fd` of the transmit thread -/
  | txSample
  | txSend
  | txReturn (result : SendResult)
  /-- `comm_tcp_close_client` of the transmit thread -/
  | txClose
  /-- `comm_tcp_send` of another thread -/
  | send (data : List UInt8) (mallocOk : Bool)
  deriving DecidableEq, Repr

/-- `comm_tcp_close_client`, with the connection it closes. -/
def commTcpCloseClient (s : TcpState) : TcpState × Option Nat :=
  if 0 ≤ s.ctx.clientFd then
    ({ s with ctx := { s.ctx with clientFd := -1 }, files := s.files.close s.ctx.clientFd },
      s.files.conn s.ctx.clientFd)
  else (s, none)

/-- What the accept thread does with a descriptor. -/
def replaceClient (s : TcpState) (fd : Int) : TcpState :=
  let files := if 0 ≤ s.ctx.clientFd then s.files.close s.ctx.clientFd else s.files
  { s with ctx := { s.ctx with clientFd := fd }, files, accept := .accepting }

/-- The loop of `comm_tcp_write_all`. -/
def txWrite (fd : Int) (frame : CommTcpFrame) (written : Nat) : TxPc :=
  if written < frame.len then .sampled fd frame written else .idle

/-- `comm_tcp_write_all` after `send`. -/
def txAfter (fd : Int) (frame : CommTcpFrame) (written : Nat) (conn : Option Nat) :
    SendResult → TxPc
  | .sent n => txWrite fd frame (written + n)
  | .interrupted => .sampled fd frame written
  | .error => .failed conn

/-- One step, when the thread it belongs to is there; the teardowns are its
outputs. -/
def tcpStep (s : TcpState) : TcpInput → Option (TcpState × Option Teardown)
  | .accept fd =>
      match s.accept with
      | .accepting =>
          if 0 ≤ fd ∧ s.files.conn fd = none then
            some ({ s with files := s.files.connect fd, accept := .accepted fd }, none)
          else none
      | .accepted _ => none
  | .replaceClient =>
      match s.accept with
      | .accepted fd => some (replaceClient s fd, none)
      | .accepting => none
  | .rxSample =>
      match s.rx with
      | .idle =>
          some ({ s with rx := if s.ctx.clientFd < 0 then .idle else .sampled s.ctx.clientFd },
            none)
      | _ => none
  | .rxRecv =>
      match s.rx with
      | .sampled fd => some ({ s with rx := .receiving (s.files.conn fd) }, none)
      | _ => none
  | .rxReturn result =>
      match s.rx with
      | .receiving conn => some ({ s with rx := rxAfter conn result }, none)
      | _ => none
  | .rxClose =>
      match s.rx with
      | .failed observed =>
          let (s', closed) := commTcpCloseClient s
          some ({ s' with rx := .idle }, some ⟨closed, observed⟩)
      | _ => none
  | .txPop =>
      match s.tx, commTcpQueuePop s.ctx with
      | .idle, .popped frame ctx => some ({ s with ctx, tx := .popped frame }, none)
      | _, _ => none
  | .txSample =>
      match s.tx with
      | .popped frame =>
          some ({ s with
            tx := if s.ctx.clientFd < 0 then .idle else txWrite s.ctx.clientFd frame 0 }, none)
      | _ => none
  | .txSend =>
      match s.tx with
      | .sampled fd frame written =>
          some ({ s with tx := .sending fd frame written (s.files.conn fd) }, none)
      | _ => none
  | .txReturn result =>
      match s.tx with
      | .sending fd frame written conn =>
          some ({ s with tx := txAfter fd frame written conn result }, none)
      | _ => none
  | .txClose =>
      match s.tx with
      | .failed observed =>
          let (s', closed) := commTcpCloseClient s
          some ({ s' with tx := .idle }, some ⟨closed, observed⟩)
      | _ => none
  | .send data mallocOk => some ({ s with ctx := (commTcpSend s.ctx data mallocOk).1 }, none)

/-! ### The TCP threads blame the right connection -/

/-- What the transmit thread blames. -/
def TxPc.watch : TxPc → Watch
  | .idle | .popped _ => .nothing
  | .sampled fd _ _ => .descriptor fd
  | .sending fd _ _ conn => .call fd conn
  | .failed conn => .connection conn

/-- The client's connection. -/
def TcpState.current (s : TcpState) : Option Nat := s.files.current s.ctx.clientFd

/-- For each of the two threads, whether a client was installed since it read
the descriptor last. -/
structure Stale where
  rx : Bool := false
  tx : Bool := false
  deriving DecidableEq, Repr

/-- The condition on a schedule: between a thread's reading of the descriptor
and its close no client is installed. -/
def tcpMonitor (stale : Stale) : TcpInput → Option Stale
  | .replaceClient => some ⟨true, true⟩
  | .rxSample => some { stale with rx := false }
  | .txSample => some { stale with tx := false }
  | .rxClose => if stale.rx then none else some stale
  | .txClose => if stale.tx then none else some stale
  | _ => some stale

/-- The descriptor that the accept thread is about to install. -/
def AcceptPc.next : AcceptPc → Option Int
  | .accepting => none
  | .accepted fd => some fd

/-- The invariant of the schedules that meet the condition. -/
structure TcpInv (s : TcpState) (stale : Stale) : Prop where
  clientOpen : ClientOpen s.ctx.clientFd s.files s.accept.next
  rx : stale.rx = false → Blames s.current s.files s.rx.watch
  tx : stale.tx = false → Blames s.current s.files s.tx.watch

section Tcp

variable {s : TcpState} {stale : Stale}

/-- `comm_tcp_close_client` closes the current connection, and leaves none. -/
theorem commTcpCloseClient_spec (s : TcpState) :
    (commTcpCloseClient s).2 = s.current ∧ (commTcpCloseClient s).1.current = none ∧
      (commTcpCloseClient s).1.rx = s.rx ∧ (commTcpCloseClient s).1.tx = s.tx := by
  unfold commTcpCloseClient TcpState.current Descriptors.current
  by_cases valid : 0 ≤ s.ctx.clientFd
  · simp [valid]
  · simp [valid]

theorem clientOpen_commTcpCloseClient (h : ClientOpen s.ctx.clientFd s.files s.accept.next) :
    ClientOpen (commTcpCloseClient s).1.ctx.clientFd (commTcpCloseClient s).1.files
      (commTcpCloseClient s).1.accept.next := by
  unfold commTcpCloseClient
  split
  · exact h.close
  · exact h

theorem clientFd_commTcpSend (ctx : CommTcpContext) (data : List UInt8) (mallocOk : Bool) :
    (commTcpSend ctx data mallocOk).1.clientFd = ctx.clientFd := by
  unfold commTcpSend commTcpQueuePush
  split
  · rfl
  · split
    · rfl
    · split <;> rfl

theorem clientFd_of_popped {ctx ctx' : CommTcpContext} {frame : CommTcpFrame}
    (h : commTcpQueuePop ctx = .popped frame ctx') : ctx'.clientFd = ctx.clientFd := by
  unfold commTcpQueuePop at h
  split at h
  · cases h
  · split at h
    · cases h
    · cases h
      rfl

/-- `comm_tcp_write_all` goes on with the descriptor, or blames the call. -/
theorem blames_txAfter {current : Option Nat} {files : Descriptors} {fd : Int}
    {frame : CommTcpFrame} {written : Nat} {conn : Option Nat} {result : SendResult}
    (h : Blames current files (.call fd conn)) :
    Blames current files (txAfter fd frame written conn result).watch := by
  have again : Blames current files (.descriptor fd) := h.imp id And.left
  cases result with
  | interrupted => exact again
  | error => exact h.imp id And.right
  | sent n =>
      simp only [txAfter, txWrite]
      split
      · exact again
      · trivial

/-- A close on the error path of a thread that the monitor lets pass. -/
theorem justified_commTcpCloseClient {observed : Option Nat}
    (blames : Blames s.current s.files (.connection observed)) :
    Teardown.Justified ⟨(commTcpCloseClient s).2, observed⟩ := by
  rw [(commTcpCloseClient_spec s).1]
  exact blames.justified

/-- After a close every thread blames the right connection. -/
theorem blames_commTcpCloseClient (s : TcpState) (files : Descriptors) (w : Watch) :
    Blames (commTcpCloseClient s).1.current files w := by
  rw [(commTcpCloseClient_spec s).2.1]
  exact blames_of_none files w

/-! ### Each step keeps the invariant -/

theorem TcpInv.accept (inv : TcpInv s stale) {fd : Int} (valid : 0 ≤ fd)
    (unused : s.files.conn fd = none) :
    TcpInv { s with files := s.files.connect fd, accept := .accepted fd } stale where
  clientOpen := inv.clientOpen.connect unused valid
  rx fresh := (inv.rx fresh).connect_current inv.clientOpen unused valid
  tx fresh := (inv.tx fresh).connect_current inv.clientOpen unused valid

theorem TcpInv.replaceClient (inv : TcpInv s stale) {fd : Int}
    (accepted : s.accept = .accepted fd) : TcpInv (replaceClient s fd) ⟨true, true⟩ := by
  have clientOpen := inv.clientOpen
  rw [accepted] at clientOpen
  exact ⟨clientOpen.replace, nofun, nofun⟩

/-- The receive thread moves on, with the right connection to blame. -/
theorem TcpInv.rxMoves (inv : TcpInv s stale) {rx : RxPc} {fresh : Bool}
    (blames : fresh = false → Blames s.current s.files rx.watch) :
    TcpInv { s with rx } { stale with rx := fresh } :=
  ⟨inv.clientOpen, blames, inv.tx⟩

/-- The transmit thread moves on, with the right connection to blame. -/
theorem TcpInv.txMoves (inv : TcpInv s stale) {tx : TxPc} {fresh : Bool}
    (blames : fresh = false → Blames s.current s.files tx.watch) :
    TcpInv { s with tx } { stale with tx := fresh } :=
  ⟨inv.clientOpen, inv.rx, blames⟩

/-- The queue may change as long as the client does not. -/
theorem TcpInv.queue (inv : TcpInv s stale) {ctx : CommTcpContext}
    (same : ctx.clientFd = s.ctx.clientFd) : TcpInv { s with ctx } stale := by
  obtain ⟨clientOpen, rx, tx⟩ := inv
  unfold TcpState.current at rx tx
  rw [← same] at clientOpen rx tx
  exact ⟨clientOpen, rx, tx⟩

/-- Closing leaves no connection to blame wrongly. -/
theorem TcpInv.close (inv : TcpInv s stale) : TcpInv (commTcpCloseClient s).1 stale :=
  ⟨clientOpen_commTcpCloseClient inv.clientOpen, fun _ => blames_commTcpCloseClient s _ _,
    fun _ => blames_commTcpCloseClient s _ _⟩

/-- The transmit thread that starts to write holds the current descriptor. -/
theorem blames_txSample (frame : CommTcpFrame) :
    Blames s.current s.files
      (if s.ctx.clientFd < 0 then TxPc.idle else txWrite s.ctx.clientFd frame 0).watch := by
  by_cases closed : s.ctx.clientFd < 0
  · rw [if_pos closed]
    trivial
  · rw [if_neg closed, txWrite]
    split
    · exact blames_sample (not_lt.mp closed)
    · trivial

/-- **One step.** Each step that the monitor lets pass keeps the invariant, and
closes on an error path only what had failed. -/
theorem tcpStep_keeps (s : TcpState) (stale : Stale) (i : TcpInput) (s' : TcpState)
    (out : Option Teardown) (stale' : Stale) (inv : TcpInv s stale)
    (step : tcpStep s i = some (s', out)) (passes : tcpMonitor stale i = some stale') :
    TcpInv s' stale' ∧ ∀ t, out = some t → t.Justified := by
  have rx := inv.rx
  have tx := inv.tx
  cases i with
  | accept fd =>
      simp only [tcpStep] at step
      split at step
      · split at step
        · rename_i unused
          cases step
          cases passes
          exact ⟨inv.accept unused.1 unused.2, nofun⟩
        · cases step
      · cases step
  | replaceClient =>
      simp only [tcpStep] at step
      split at step
      · rename_i accepted
        cases step
        cases passes
        exact ⟨inv.replaceClient accepted, nofun⟩
      · cases step
  | rxSample =>
      simp only [tcpStep] at step
      split at step
      · cases step
        cases passes
        exact ⟨inv.rxMoves fun _ => blames_rxSample not_lt.mp, nofun⟩
      · cases step
  | rxRecv =>
      simp only [tcpStep] at step
      split at step
      · rename_i sampled
        cases step
        cases passes
        rw [sampled] at rx
        exact ⟨inv.rxMoves rx, nofun⟩
      · cases step
  | rxReturn result =>
      simp only [tcpStep] at step
      split at step
      · rename_i receiving
        cases step
        cases passes
        rw [receiving] at rx
        exact ⟨inv.rxMoves fun fresh => blames_rxAfter (rx fresh) result, nofun⟩
      · cases step
  | rxClose =>
      simp only [tcpStep] at step
      split at step
      · rename_i failed
        cases step
        rw [tcpMonitor] at passes
        split at passes
        · cases passes
        · rename_i fresh
          cases passes
          rw [failed] at rx
          refine ⟨inv.close.rxMoves fun _ => trivial, ?_⟩
          rintro t ⟨⟩
          exact justified_commTcpCloseClient (rx (Bool.eq_false_iff.mpr fresh))
      · cases step
  | txPop =>
      simp only [tcpStep] at step
      split at step
      · rename_i popped
        cases step
        cases passes
        exact ⟨(inv.queue (clientFd_of_popped popped)).txMoves fun _ => trivial, nofun⟩
      · cases step
  | txSample =>
      simp only [tcpStep] at step
      split at step
      · rename_i frame _
        cases step
        cases passes
        exact ⟨inv.txMoves fun _ => blames_txSample frame, nofun⟩
      · cases step
  | txSend =>
      simp only [tcpStep] at step
      split at step
      · rename_i sampled
        cases step
        cases passes
        rw [sampled] at tx
        exact ⟨inv.txMoves fun fresh => (tx fresh).imp id fun found => ⟨found, found⟩, nofun⟩
      · cases step
  | txReturn result =>
      simp only [tcpStep] at step
      split at step
      · rename_i sending
        cases step
        cases passes
        rw [sending] at tx
        exact ⟨inv.txMoves fun fresh => blames_txAfter (tx fresh), nofun⟩
      · cases step
  | txClose =>
      simp only [tcpStep] at step
      split at step
      · rename_i failed
        cases step
        rw [tcpMonitor] at passes
        split at passes
        · cases passes
        · rename_i fresh
          cases passes
          rw [failed] at tx
          refine ⟨inv.close.txMoves fun _ => trivial, ?_⟩
          rintro t ⟨⟩
          exact justified_commTcpCloseClient (tx (Bool.eq_false_iff.mpr fresh))
      · cases step
  | send data mallocOk =>
      simp only [tcpStep] at step
      cases step
      cases passes
      exact ⟨inv.queue (clientFd_commTcpSend s.ctx data mallocOk), nofun⟩

end Tcp

end Ok3506.Comm
