import Ok3506.Comm.Frame

/-!
The transmit side of `comm_tcp.c`: the client descriptor and the ring of queued
frames. As for UDP every function is one critical section.
-/

namespace Ok3506.Comm

/-- `COMM_TCP_QUEUE_CAPACITY`. -/
def commTcpQueueCapacity : Nat := 16

/-- `comm_tcp_frame_t`; `none` is the null pointer. -/
structure CommTcpFrame where
  data : Option (List UInt8) := none
  len : Nat := 0
  deriving DecidableEq

/-- `comm_tcp_context_t`, with its initial values. -/
structure CommTcpContext where
  clientFd : Int := -1
  running : Bool := false
  queue : Nat → CommTcpFrame := fun _ => {}
  queueHead : Nat := 0
  queueTail : Nat := 0
  queueCount : Nat := 0

/-- `comm_tcp_queue_push`, where `malloc` succeeds or not. -/
def commTcpQueuePush (ctx : CommTcpContext) (data : List UInt8) (mallocOk : Bool) :
    CommTcpContext × Int :=
  if ¬ mallocOk then (ctx, -1)
  else if ctx.queueCount = commTcpQueueCapacity then (ctx, -1)
  else
    ({ ctx with
        queue := fun k => if k = ctx.queueTail then ⟨some data, data.length⟩ else ctx.queue k
        queueTail := (ctx.queueTail + 1) % commTcpQueueCapacity
        queueCount := ctx.queueCount + 1 }, 0)

/-- What a call of `comm_tcp_queue_pop` comes to. -/
inductive TcpPopOutcome where
  | waits
  | stopped
  | popped (frame : CommTcpFrame) (ctx : CommTcpContext)

/-- `comm_tcp_queue_pop`. -/
def commTcpQueuePop (ctx : CommTcpContext) : TcpPopOutcome :=
  if ctx.running ∧ ctx.queueCount = 0 then .waits
  else if ¬ ctx.running ∧ ctx.queueCount = 0 then .stopped
  else
    .popped (ctx.queue ctx.queueHead)
      { ctx with
        queue := fun k => if k = ctx.queueHead then { data := none, len := 0 } else ctx.queue k
        queueHead := (ctx.queueHead + 1) % commTcpQueueCapacity
        queueCount := ctx.queueCount - 1 }

/-- `comm_tcp_send`. -/
def commTcpSend (ctx : CommTcpContext) (data : List UInt8) (mallocOk : Bool) :
    CommTcpContext × Int :=
  if data.length = 0 then (ctx, -1) else commTcpQueuePush ctx data mallocOk

end Ok3506.Comm
