import Ok3506.Comm.Tcp
import Ok3506.Comm.Udp
import Ok3506.Lib.Ring

/-!
The transmit queues under concurrent senders.

`comm_udp_send` has two critical sections: it reads the last peer under one lock
and pushes under another, so a sender can be between the two while other threads
run. `comm_tcp_send` has one. Both rings are bounded FIFOs of 16 frames along
every interleaving.
-/

namespace Ok3506.Comm

open Machine

/-! ### The rings -/

/-- The ring in the UDP context. -/
def CommUdpContext.ring (ctx : CommUdpContext) : Ring CommUdpFrame :=
  ⟨ctx.queue, ctx.queueHead, ctx.queueTail, ctx.queueCount⟩

/-- The ring in the TCP context. -/
def CommTcpContext.ring (ctx : CommTcpContext) : Ring CommTcpFrame :=
  ⟨ctx.queue, ctx.queueHead, ctx.queueTail, ctx.queueCount⟩

section Udp

variable {ctx : CommUdpContext} {data : List UInt8} {peer : SockaddrIn} {peerLen : Nat}

theorem commUdpQueuePushFrame_of_full (full : ctx.queueCount = commUdpQueueCapacity)
    (mallocOk : Bool) : commUdpQueuePushFrame ctx data peer peerLen mallocOk = (ctx, -1) := by
  unfold commUdpQueuePushFrame
  rw [if_pos full, ite_self]

theorem ring_commUdpQueuePushFrame (data : List UInt8) (peer : SockaddrIn) (peerLen : Nat)
    (room : ctx.queueCount ≠ commUdpQueueCapacity) :
    (commUdpQueuePushFrame ctx data peer peerLen true).2 = 0 ∧
      (commUdpQueuePushFrame ctx data peer peerLen true).1.ring =
        ctx.ring.push commUdpQueueCapacity ⟨some data, data.length, peer, peerLen⟩ := by
  unfold commUdpQueuePushFrame
  rw [if_neg (not_not_intro rfl), if_neg room]
  refine ⟨rfl, ?_⟩
  unfold CommUdpContext.ring Ring.push
  congr 1
  funext k
  rw [Function.update_apply]

theorem ret_commUdpQueuePushFrame (ctx : CommUdpContext) (data : List UInt8) (peer : SockaddrIn)
    (peerLen : Nat) (mallocOk : Bool) :
    (commUdpQueuePushFrame ctx data peer peerLen mallocOk).2 = 0 ∨
      (commUdpQueuePushFrame ctx data peer peerLen mallocOk).2 = -1 := by
  unfold commUdpQueuePushFrame
  split
  · exact .inr rfl
  · split
    · exact .inr rfl
    · exact .inl rfl

theorem commUdpQueuePopFrame_of_empty (empty : ctx.queueCount = 0) :
    commUdpQueuePopFrame ctx = if ctx.running then .waits else .stopped := by
  unfold commUdpQueuePopFrame
  cases ctx.running <;> simp [empty]

theorem commUdpQueuePopFrame_of_some (some : ctx.queueCount ≠ 0) :
    ∃ ctx', commUdpQueuePopFrame ctx = .popped (ctx.queue ctx.queueHead) ctx' ∧
      ctx'.ring = ctx.ring.pop commUdpQueueCapacity
        { ctx.queue ctx.queueHead with data := none, len := 0 } := by
  unfold commUdpQueuePopFrame
  rw [if_neg (fun h => some h.2), if_neg (fun h => some h.2)]
  refine ⟨_, rfl, ?_⟩
  unfold CommUdpContext.ring Ring.pop
  congr 1
  funext k
  by_cases head : k = ctx.queueHead
  · subst head
    simp
  · simp [head]

end Udp

section Tcp

variable {ctx : CommTcpContext} {data : List UInt8}

theorem commTcpQueuePush_of_full (full : ctx.queueCount = commTcpQueueCapacity)
    (mallocOk : Bool) : commTcpQueuePush ctx data mallocOk = (ctx, -1) := by
  unfold commTcpQueuePush
  rw [if_pos full, ite_self]

theorem ring_commTcpQueuePush (data : List UInt8)
    (room : ctx.queueCount ≠ commTcpQueueCapacity) :
    (commTcpQueuePush ctx data true).2 = 0 ∧
      (commTcpQueuePush ctx data true).1.ring =
        ctx.ring.push commTcpQueueCapacity ⟨some data, data.length⟩ := by
  unfold commTcpQueuePush
  rw [if_neg (not_not_intro rfl), if_neg room]
  refine ⟨rfl, ?_⟩
  unfold CommTcpContext.ring Ring.push
  congr 1
  funext k
  rw [Function.update_apply]

theorem commTcpQueuePop_of_empty (empty : ctx.queueCount = 0) :
    commTcpQueuePop ctx = if ctx.running then .waits else .stopped := by
  unfold commTcpQueuePop
  cases ctx.running <;> simp [empty]

theorem commTcpQueuePop_of_some (some : ctx.queueCount ≠ 0) :
    ∃ ctx', commTcpQueuePop ctx = .popped (ctx.queue ctx.queueHead) ctx' ∧
      ctx'.ring = ctx.ring.pop commTcpQueueCapacity { data := none, len := 0 } := by
  unfold commTcpQueuePop
  rw [if_neg (fun h => some h.2), if_neg (fun h => some h.2)]
  refine ⟨_, rfl, ?_⟩
  unfold CommTcpContext.ring Ring.pop
  congr 1
  funext k
  rw [Function.update_apply]

end Tcp

/-! ### Senders -/

/-- What one step of a transmit side does, with the thread that does it. -/
inductive QueueOutput (Sender Frame : Type) where
  /-- the checks of a send passed, the frame is about to be pushed -/
  | enters (sender : Sender) (frame : Frame)
  /-- a send returned -1 before the queue -/
  | rejects (sender : Sender)
  /-- a push returned 0 -/
  | pushed (sender : Sender) (frame : Frame)
  /-- a push returned -1 -/
  | refused (sender : Sender) (frame : Frame)
  | popped (frame : Frame)
  | empty
  | other

variable {Sender Frame : Type}

/-- The effect of a step on the queue. -/
def QueueOutput.event : QueueOutput Sender Frame → Option (QueueEvent Frame)
  | .pushed _ frame => some (.pushed frame)
  | .refused _ frame => some (.refused frame)
  | .popped frame => some (.popped frame)
  | .empty => some .empty
  | .enters _ _ | .rejects _ | .other => none

/-- The outcome of a push. -/
def QueueOutput.ofPush (sender : Sender) (frame : Frame) (ret : Int) : QueueOutput Sender Frame :=
  if ret = 0 then .pushed sender frame
  else if ret = -1 then .refused sender frame
  else .other

/-! ### The UDP transmit side -/

/-- The frame that `comm_udp_send` pushes. -/
def commUdpFrame (data : List UInt8) (peer : SockaddrIn) : CommUdpFrame :=
  ⟨some data, data.length, peer, sizeofSockaddrIn⟩

/-- The context, and the senders that have read the last peer and not pushed yet. -/
structure UdpTransmit (Sender : Type) where
  ctx : CommUdpContext
  pending : Sender → Option (List UInt8 × SockaddrIn)

/-- After `comm_udp_init`: nothing is queued, nobody is sending. -/
def UdpTransmit.initial (Sender : Type) : UdpTransmit Sender :=
  ⟨{ running := true }, fun _ => none⟩

/-- The critical sections. -/
inductive UdpTransmitInput (Sender : Type) where
  /-- the receive thread stores the last peer -/
  | recvfrom (peer : SockaddrIn)
  /-- `comm_udp_send` checks its arguments and reads the last peer -/
  | send (sender : Sender) (data : List UInt8)
  /-- `comm_udp_queue_push_frame` of a sender that has read it -/
  | push (sender : Sender)
  /-- `comm_udp_queue_pop_frame` of the transmit thread -/
  | pop

/-- One critical section. A sender that is between its two sections does not
enter the first again. -/
def udpTransmitStep [DecidableEq Sender] (s : UdpTransmit Sender) :
    UdpTransmitInput Sender → UdpTransmit Sender × QueueOutput Sender CommUdpFrame
  | .recvfrom peer =>
      ({ s with ctx := { s.ctx with lastPeer := peer, lastPeerValid := true } }, .other)
  | .send sender data =>
      match s.pending sender with
      | some _ => (s, .other)
      | none =>
          if data.length = 0 then (s, .rejects sender)
          else if ¬ s.ctx.lastPeerValid then (s, .rejects sender)
          else
            ({ s with pending := Function.update s.pending sender (some (data, s.ctx.lastPeer)) },
              .enters sender (commUdpFrame data s.ctx.lastPeer))
  | .push sender =>
      match s.pending sender with
      | none => (s, .other)
      | some (data, peer) =>
          let (ctx, ret) := commUdpQueuePushFrame s.ctx data peer sizeofSockaddrIn true
          (⟨ctx, Function.update s.pending sender none⟩,
            .ofPush sender (commUdpFrame data peer) ret)
  | .pop =>
      match commUdpQueuePopFrame s.ctx with
      | .popped frame ctx => ({ s with ctx }, .popped frame)
      | .waits | .stopped => (s, .empty)

/-! ### The TCP transmit side -/

/-- The critical sections; `comm_tcp_send` has one. -/
inductive TcpTransmitInput (Sender : Type) where
  | send (sender : Sender) (data : List UInt8)
  | pop

/-- One critical section. -/
def tcpTransmitStep (ctx : CommTcpContext) :
    TcpTransmitInput Sender → CommTcpContext × QueueOutput Sender CommTcpFrame
  | .send sender data =>
      let (ctx, ret) := commTcpSend ctx data true
      (ctx, if data.length = 0 then .rejects sender
        else .ofPush sender ⟨some data, data.length⟩ ret)
  | .pop =>
      match commTcpQueuePop ctx with
      | .popped frame ctx => (ctx, .popped frame)
      | .waits | .stopped => (ctx, .empty)

/-! ### Each step is a FIFO step -/

section Steps

/-- The ring of a UDP transmit side. -/
def UdpTransmit.ring (s : UdpTransmit Sender) : Ring CommUdpFrame := s.ctx.ring

theorem event_ofPush_zero (sender : Sender) (frame : Frame) :
    (QueueOutput.ofPush sender frame 0).event = some (.pushed frame) := rfl

theorem event_ofPush_neg (sender : Sender) (frame : Frame) :
    (QueueOutput.ofPush sender frame (-1)).event = some (.refused frame) := rfl

/-- The frame that `comm_tcp_send` pushes. -/
def commTcpFrame (data : List UInt8) : CommTcpFrame := ⟨some data, data.length⟩

/-- A full queue refuses the frame, and the send returns -1. -/
theorem tcpSend_of_full {ctx : CommTcpContext} {data : List UInt8} (sender : Sender)
    (some_bytes : data ≠ []) (full : ctx.queueCount = commTcpQueueCapacity) :
    (commTcpSend ctx data true).2 = -1 ∧
      tcpTransmitStep ctx (.send sender data) = (ctx, .refused sender (commTcpFrame data)) := by
  have nonempty : ¬ data.length = 0 := mt List.length_eq_zero_iff.mp some_bytes
  have sent : commTcpSend ctx data true = (ctx, -1) := by
    rw [commTcpSend, if_neg nonempty, commTcpQueuePush_of_full full]
  simp only [tcpTransmitStep, sent, nonempty, if_false]
  exact ⟨trivial, rfl⟩

/-- With room in the queue the frame is pushed, and the send returns 0. -/
theorem tcpSend_of_room {ctx : CommTcpContext} {data : List UInt8} (sender : Sender)
    (some_bytes : data ≠ []) (room : ctx.queueCount ≠ commTcpQueueCapacity) :
    (commTcpSend ctx data true).2 = 0 ∧
      (tcpTransmitStep ctx (.send sender data)).2 = .pushed sender (commTcpFrame data) ∧
      (tcpTransmitStep ctx (.send sender data)).1.ring =
        ctx.ring.push commTcpQueueCapacity (commTcpFrame data) := by
  have nonempty : ¬ data.length = 0 := mt List.length_eq_zero_iff.mp some_bytes
  obtain ⟨ret, ring⟩ := ring_commTcpQueuePush data room
  simp only [tcpTransmitStep, commTcpSend, nonempty, if_false, ret]
  exact ⟨trivial, rfl, ring⟩

theorem tcpTransmitStep_local (ctx : CommTcpContext) (i : TcpTransmitInput Sender)
    (wf : ctx.ring.WellFormed commTcpQueueCapacity) :
    FifoLocal commTcpQueueCapacity CommTcpContext.ring QueueOutput.event ctx
      (tcpTransmitStep ctx i) := by
  cases i with
  | send sender data =>
      by_cases empty : data.length = 0
      · refine .of_idle wf ?_ ?_
        · simp [tcpTransmitStep, empty, QueueOutput.event]
        · simp [tcpTransmitStep, commTcpSend, empty]
      · have some_bytes : data ≠ [] := mt List.length_eq_zero_iff.mpr empty
        by_cases full : ctx.queueCount = commTcpQueueCapacity
        · rw [(tcpSend_of_full sender some_bytes full).2]
          exact .of_refused wf full rfl rfl
        · obtain ⟨-, pushed, ring⟩ := tcpSend_of_room sender some_bytes full
          exact .of_pushed wf full (by rw [pushed]; rfl) ring
  | pop =>
      by_cases none : ctx.queueCount = 0
      · have same : tcpTransmitStep ctx (.pop : TcpTransmitInput Sender) = (ctx, .empty) := by
          simp only [tcpTransmitStep, commTcpQueuePop_of_empty none]
          cases ctx.running <;> rfl
        rw [same]
        exact .of_empty wf none rfl rfl
      · obtain ⟨ctx', popped, ring⟩ := commTcpQueuePop_of_some none
        have step : tcpTransmitStep ctx (.pop : TcpTransmitInput Sender) =
            (ctx', .popped (ctx.queue ctx.queueHead)) := by
          simp only [tcpTransmitStep, popped]
        rw [step]
        exact .of_popped wf none rfl ring

variable [DecidableEq Sender]

theorem udpTransmitStep_local (s : UdpTransmit Sender) (i : UdpTransmitInput Sender)
    (wf : s.ring.WellFormed commUdpQueueCapacity) :
    FifoLocal commUdpQueueCapacity UdpTransmit.ring QueueOutput.event s (udpTransmitStep s i) := by
  cases i with
  | recvfrom peer => exact .of_idle wf rfl rfl
  | send sender data =>
      simp only [udpTransmitStep]
      cases s.pending sender with
      | some _ => exact .of_idle wf rfl rfl
      | none =>
          by_cases empty : data.length = 0
          · simp only [empty, if_true]
            exact .of_idle wf rfl rfl
          · simp only [empty, if_false]
            cases s.ctx.lastPeerValid <;> exact .of_idle wf rfl rfl
  | push sender =>
      cases waiting : s.pending sender with
      | none =>
          simp only [udpTransmitStep, waiting]
          exact .of_idle wf rfl rfl
      | some frame =>
          obtain ⟨data, peer⟩ := frame
          by_cases full : s.ctx.queueCount = commUdpQueueCapacity
          · have push : udpTransmitStep s (.push sender) =
                (⟨s.ctx, Function.update s.pending sender none⟩,
                  .ofPush sender (commUdpFrame data peer) (-1)) := by
              simp only [udpTransmitStep, waiting, commUdpQueuePushFrame_of_full full]
            rw [push]
            exact .of_refused wf full (event_ofPush_neg _ _) rfl
          · obtain ⟨ret, ring⟩ := ring_commUdpQueuePushFrame data peer sizeofSockaddrIn full
            have push : udpTransmitStep s (.push sender) =
                (⟨(commUdpQueuePushFrame s.ctx data peer sizeofSockaddrIn true).1,
                    Function.update s.pending sender none⟩,
                  .ofPush sender (commUdpFrame data peer) 0) := by
              simp only [udpTransmitStep, waiting, ret]
            rw [push]
            exact .of_pushed wf full (event_ofPush_zero _ _) ring
  | pop =>
      by_cases none : s.ctx.queueCount = 0
      · have same : udpTransmitStep s .pop = (s, .empty) := by
          simp only [udpTransmitStep, commUdpQueuePopFrame_of_empty none]
          cases s.ctx.running <;> rfl
        rw [same]
        exact .of_empty wf none rfl rfl
      · obtain ⟨ctx', popped, ring⟩ := commUdpQueuePopFrame_of_some none
        have step : udpTransmitStep s .pop =
            ({ s with ctx := ctx' }, .popped (s.ctx.queue s.ctx.queueHead)) := by
          simp only [udpTransmitStep, popped]
        rw [step]
        exact .of_popped wf none rfl ring

end Steps

/-! ### What a sender pushes -/

section Senders

variable [DecidableEq Sender]

/-- The frame with which a sender passes the checks of `comm_udp_send`. -/
def entersWith (sender : Sender) : QueueOutput Sender Frame → Option Frame
  | .enters t frame => if t = sender then some frame else none
  | _ => none

/-- The frame that a sender pushes, with or without success. -/
def pushesWith (sender : Sender) : QueueOutput Sender Frame → Option Frame
  | .pushed t frame | .refused t frame => if t = sender then some frame else none
  | _ => none

/-- The frame of a sender between its two critical sections. -/
def UdpTransmit.waiting (s : UdpTransmit Sender) (sender : Sender) : Option CommUdpFrame :=
  (s.pending sender).map fun (data, peer) => commUdpFrame data peer

theorem pushesWith_ofPush (sender t : Sender) (frame : Frame) {ret : Int}
    (h : ret = 0 ∨ ret = -1) :
    pushesWith sender (.ofPush t frame ret) = if t = sender then some frame else none := by
  rcases h with rfl | rfl <;> rfl

theorem entersWith_ofPush (sender t : Sender) (frame : Frame) (ret : Int) :
    entersWith sender (.ofPush t frame ret) = none := by
  unfold QueueOutput.ofPush
  split
  · rfl
  · split <;> rfl

/-- A frame waits from the step in which its sender enters to the step in which
it is pushed. -/
theorem waiting_step (s : UdpTransmit Sender) (i : UdpTransmitInput Sender) (sender : Sender) :
    (s.waiting sender).toList ++ (entersWith sender (udpTransmitStep s i).2).toList =
      (pushesWith sender (udpTransmitStep s i).2).toList ++
        ((udpTransmitStep s i).1.waiting sender).toList := by
  cases i with
  | recvfrom peer => simp [udpTransmitStep, entersWith, pushesWith, UdpTransmit.waiting]
  | send t data =>
      simp only [udpTransmitStep]
      cases idle : s.pending t with
      | some _ => simp [entersWith, pushesWith]
      | none =>
          by_cases empty : data.length = 0
          · simp [empty, entersWith, pushesWith]
          · by_cases valid : s.ctx.lastPeerValid = true
            · by_cases same : t = sender
              · subst same
                simp [empty, valid, entersWith, pushesWith, UdpTransmit.waiting, idle]
              · simp [empty, valid, entersWith, pushesWith, UdpTransmit.waiting, same,
                  Function.update_of_ne (Ne.symm same)]
            · simp [empty, valid, entersWith, pushesWith]
  | push t =>
      cases waits : s.pending t with
      | none => simp [udpTransmitStep, waits, entersWith, pushesWith]
      | some frame =>
          have ret := ret_commUdpQueuePushFrame s.ctx frame.1 frame.2 sizeofSockaddrIn true
          simp only [udpTransmitStep, waits, pushesWith_ofPush _ _ _ ret, entersWith_ofPush]
          by_cases same : t = sender
          · subst same
            simp [UdpTransmit.waiting, waits]
          · simp [UdpTransmit.waiting, same, Function.update_of_ne (Ne.symm same)]
  | pop =>
      simp only [udpTransmitStep]
      cases commUdpQueuePopFrame s.ctx <;>
        simp [entersWith, pushesWith, UdpTransmit.waiting]

/-- Along every run a sender pushes the frames with which it entered, in order. -/
theorem pushes_run (s : UdpTransmit Sender) (is : List (UdpTransmitInput Sender))
    (sender : Sender) :
    (s.waiting sender).toList ++ (outputs udpTransmitStep s is).filterMap (entersWith sender) =
      (outputs udpTransmitStep s is).filterMap (pushesWith sender) ++
        ((final udpTransmitStep s is).waiting sender).toList := by
  induction is generalizing s with
  | nil => simp
  | cons i is ih =>
      have now := waiting_step s i sender
      have later := ih (udpTransmitStep s i).1
      have split (f : QueueOutput Sender CommUdpFrame → Option CommUdpFrame) :
          (outputs udpTransmitStep s (i :: is)).filterMap f =
            (f (udpTransmitStep s i).2).toList ++
              (outputs udpTransmitStep (udpTransmitStep s i).1 is).filterMap f := by
        rw [outputs_cons, List.filterMap_cons]
        cases f (udpTransmitStep s i).2 <;> rfl
      rw [split, split, final_cons, ← List.append_assoc, now, List.append_assoc, later,
        List.append_assoc]

/-- A sender enters with its bytes and the last peer of that moment. -/
theorem enters_lastPeer {s : UdpTransmit Sender} {sender t : Sender} {data : List UInt8}
    {frame : CommUdpFrame} (h : (udpTransmitStep s (.send sender data)).2 = .enters t frame) :
    t = sender ∧ s.ctx.peer = some frame.peer ∧ frame.data = some data ∧
      frame.len = data.length := by
  simp only [udpTransmitStep] at h
  split at h
  · cases h
  · split at h
    · cases h
    · split at h
      · cases h
      · rename_i valid
        rw [QueueOutput.enters.injEq] at h
        obtain ⟨rfl, rfl⟩ := h
        rw [not_not] at valid
        exact ⟨rfl, by rw [CommUdpContext.peer, if_pos valid]; rfl, rfl, rfl⟩

/-- The two critical sections in a row are `comm_udp_send`. -/
theorem send_push {s : UdpTransmit Sender} {sender : Sender} (idle : s.pending sender = none)
    (data : List UInt8) :
    (final udpTransmitStep s [.send sender data, .push sender]).ctx =
      (commUdpSend s.ctx data true).1 := by
  simp only [final_cons, final_nil, udpTransmitStep, idle, commUdpSend]
  by_cases empty : data.length = 0
  · simp only [empty, if_true, idle]
  · by_cases valid : s.ctx.lastPeerValid = true
    · simp [empty, valid]
    · simp [empty, valid, idle]

end Senders

/-! ### Runs -/

theorem wellFormed_of_start {Frame : Type} {r : Ring Frame} (head : r.head = 0)
    (tail : r.tail = 0) (count : r.count = 0) : r.WellFormed 16 := by
  constructor
  · rw [count]
    exact Nat.zero_le 16
  · rw [head]
    exact Nat.zero_lt_succ 15
  · rw [head, tail, count]

end Ok3506.Comm
