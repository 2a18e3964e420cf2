import Ok3506.Comm.Frame

/-!
The transmit side of `comm_udp.c`: the last peer and the ring of queued frames.

The context holds what the mutexes protect, so every function here is one
critical section. The peer of a queued frame is fixed when it is pushed.
-/

namespace Ok3506.Comm

/-- `struct sockaddr_in`. -/
structure SockaddrIn where
  sinPort : UInt16
  sinAddr : UInt32
  deriving DecidableEq, Repr

/-- `sizeof(struct sockaddr_in)`. -/
def sizeofSockaddrIn : Nat := 16

/-- `COMM_UDP_QUEUE_CAPACITY`. -/
def commUdpQueueCapacity : Nat := 16

/-- `comm_udp_frame_t`; `none` is the null pointer. -/
structure CommUdpFrame where
  data : Option (List UInt8) := none
  len : Nat := 0
  peer : SockaddrIn := ⟨0, 0⟩
  peerLen : Nat := 0

/-- `comm_udp_context_t`, with its initial values. -/
structure CommUdpContext where
  fd : Int := -1
  running : Bool := false
  lastPeerValid : Bool := false
  lastPeer : SockaddrIn := ⟨0, 0⟩
  queue : Nat → CommUdpFrame := fun _ => {}
  queueHead : Nat := 0
  queueTail : Nat := 0
  queueCount : Nat := 0

/-- The peer that a send would be addressed to. -/
def CommUdpContext.peer (ctx : CommUdpContext) : Option SockaddrIn :=
  if ctx.lastPeerValid then some ctx.lastPeer else none

/-- `comm_udp_queue_push_frame`, where `malloc` succeeds or not. -/
def commUdpQueuePushFrame (ctx : CommUdpContext) (data : List UInt8) (peer : SockaddrIn)
    (peerLen : Nat) (mallocOk : Bool) : CommUdpContext × Int :=
  if ¬ mallocOk then (ctx, -1)
  else if ctx.queueCount = commUdpQueueCapacity then (ctx, -1)
  else
    ({ ctx with
        queue := fun k =>
          if k = ctx.queueTail then ⟨some data, data.length, peer, peerLen⟩ else ctx.queue k
        queueTail := (ctx.queueTail + 1) % commUdpQueueCapacity
        queueCount := ctx.queueCount + 1 }, 0)

/-- What a call of `comm_udp_queue_pop_frame` comes to. -/
inductive PopOutcome where
  | waits
  | stopped
  | popped (frame : CommUdpFrame) (ctx : CommUdpContext)

/-- `comm_udp_queue_pop_frame`. -/
def commUdpQueuePopFrame (ctx : CommUdpContext) : PopOutcome :=
  if ctx.running ∧ ctx.queueCount = 0 then .waits
  else if ¬ ctx.running ∧ ctx.queueCount = 0 then .stopped
  else
    .popped (ctx.queue ctx.queueHead)
      { ctx with
        queue := fun k =>
          if k = ctx.queueHead then { ctx.queue k with data := none, len := 0 } else ctx.queue k
        queueHead := (ctx.queueHead + 1) % commUdpQueueCapacity
        queueCount := ctx.queueCount - 1 }

/-- `comm_udp_send`. -/
def commUdpSend (ctx : CommUdpContext) (data : List UInt8) (mallocOk : Bool) :
    CommUdpContext × Int :=
  if data.length = 0 then (ctx, -1)
  else if ¬ ctx.lastPeerValid then (ctx, -1)
  else commUdpQueuePushFrame ctx data ctx.lastPeer sizeofSockaddrIn mallocOk

/-! ### What a push and a pop leave alone -/

variable {ctx : CommUdpContext} {data : List UInt8} {mallocOk : Bool}

@[simp] theorem peer_commUdpQueuePushFrame {peer : SockaddrIn} {peerLen : Nat} :
    (commUdpQueuePushFrame ctx data peer peerLen mallocOk).1.peer = ctx.peer := by
  rw [commUdpQueuePushFrame]
  split
  · rfl
  · split <;> rfl

@[simp] theorem peer_commUdpSend : (commUdpSend ctx data mallocOk).1.peer = ctx.peer := by
  rw [commUdpSend]
  split
  · rfl
  · split
    · rfl
    · exact peer_commUdpQueuePushFrame

theorem peer_of_popped {frame : CommUdpFrame} {ctx' : CommUdpContext}
    (h : commUdpQueuePopFrame ctx = .popped frame ctx') : ctx'.peer = ctx.peer := by
  rw [commUdpQueuePopFrame] at h
  split at h
  · cases h
  · split at h
    · cases h
    · cases h
      rfl

/-- A send that returns 0 puts exactly its bytes, for the last peer, into the
slot at the tail. -/
theorem queue_of_commUdpSend (h : (commUdpSend ctx data mallocOk).2 = 0) :
    (commUdpSend ctx data mallocOk).1.queue ctx.queueTail =
      ⟨some data, data.length, ctx.lastPeer, sizeofSockaddrIn⟩ := by
  rw [commUdpSend, commUdpQueuePushFrame] at h ⊢
  split at h
  · cases h
  · split at h
    · cases h
    · split at h
      · cases h
      · split at h
        · cases h
        · simp only [*, if_false, if_true]

end Ok3506.Comm
