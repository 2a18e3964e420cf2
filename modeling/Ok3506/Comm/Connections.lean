import Mathlib.Logic.Function.Basic
import Mathlib.Data.Int.Order.Basic

/-!
Descriptors, connections, and what a thread may close.

A thread reads the current descriptor under a lock, uses it outside, and on
failure closes whatever descriptor is current then. `Descriptors` says which
connection an open descriptor refers to, so that "the same connection" has a
meaning when descriptor numbers are reused. `Blames` is the relation between
what a thread holds and what is current.
-/

namespace Ok3506.Comm

/-! ### Descriptors -/

/-- The open descriptors of connections; connections are numbered as they are made. -/
structure Descriptors where
  conn : Int → Option Nat := fun _ => none
  made : Nat := 0

/-- `close`. -/
def Descriptors.close (d : Descriptors) (fd : Int) : Descriptors :=
  { d with conn := Function.update d.conn fd none }

/-- A new connection on an unused descriptor. -/
def Descriptors.connect (d : Descriptors) (fd : Int) : Descriptors :=
  { conn := Function.update d.conn fd (some d.made), made := d.made + 1 }

/-- What `recv` returns. -/
inductive RecvResult where
  | bytes
  | endOfStream
  | interrupted
  | error
  deriving DecidableEq, Repr

/-- What `send` returns. -/
inductive SendResult where
  | sent (n : Nat)
  | interrupted
  | error
  deriving DecidableEq, Repr

/-- A close on an error path: the connection it closed, if there was one, and
the connection on which the call had failed. -/
structure Teardown where
  closed : Option Nat
  observed : Option Nat
  deriving DecidableEq, Repr

/-- What was closed is what had failed. -/
def Teardown.Justified (t : Teardown) : Prop := ∀ c, t.closed = some c → t.observed = some c

/-- The connection of a descriptor that may be -1. -/
def Descriptors.current (d : Descriptors) (fd : Int) : Option Nat :=
  if 0 ≤ fd then d.conn fd else none

/-- The bytes that a connection was given, out of all that were sent. -/
def takenBy (c : Nat) (sent : List (Nat × List UInt8)) : List UInt8 :=
  (sent.filter fun p => p.1 = c).flatMap Prod.snd

@[simp] theorem takenBy_nil (c : Nat) : takenBy c [] = [] := rfl

@[simp] theorem takenBy_append (c : Nat) (sent more : List (Nat × List UInt8)) :
    takenBy c (sent ++ more) = takenBy c sent ++ takenBy c more := by
  simp [takenBy]

@[simp] theorem takenBy_singleton (c c' : Nat) (bytes : List UInt8) :
    takenBy c [(c', bytes)] = if c' = c then bytes else [] := by
  by_cases same : c' = c <;> simp [takenBy, same]

/-! ### A receive thread -/

/-- Where a receive thread is. A call in progress works on the connection that
its descriptor referred to when it was made. -/
inductive RxPc where
  | idle
  | sampled (fd : Int)
  | receiving (conn : Option Nat)
  | failed (observed : Option Nat)
  deriving DecidableEq, Repr

/-- The receive loop after `recv`. -/
def rxAfter (conn : Option Nat) : RecvResult → RxPc
  | .bytes | .interrupted => .idle
  | .endOfStream | .error => .failed conn

/-! ### The client and the descriptors -/

/-- The client is open, and so is a descriptor that is about to replace it. -/
structure ClientOpen (clientFd : Int) (files : Descriptors) (next : Option Int) : Prop where
  client : 0 ≤ clientFd → (files.conn clientFd).isSome
  accepted : ∀ fd, next = some fd → 0 ≤ fd ∧ fd ≠ clientFd ∧ (files.conn fd).isSome

/-- What a thread blames if its call fails: the connection of the descriptor it
holds, or that of the call it is in. -/
inductive Watch where
  | nothing
  | descriptor (fd : Int)
  | connection (conn : Option Nat)
  /-- a call that is repeated on the same descriptor unless it fails -/
  | call (fd : Int) (conn : Option Nat)

/-- A thread blames the current connection, unless there is none any more. -/
def Blames (current : Option Nat) (files : Descriptors) : Watch → Prop
  | .nothing => True
  | .descriptor fd => current = none ∨ current = files.conn fd
  | .connection conn => current = none ∨ current = conn
  | .call fd conn => current = none ∨ (current = files.conn fd ∧ current = conn)

section Descriptors

variable {clientFd fd : Int} {files : Descriptors} {next : Option Int}

theorem current_of_nonneg (valid : 0 ≤ clientFd) :
    files.current clientFd = files.conn clientFd :=
  if_pos valid

/-- A new descriptor is not that of the client. -/
theorem ClientOpen.ne_client (h : ClientOpen clientFd files next)
    (unused : files.conn fd = none) (valid : 0 ≤ fd) : fd ≠ clientFd := by
  rintro rfl
  have found := h.client valid
  rw [unused] at found
  cases found

theorem ClientOpen.connect (h : ClientOpen clientFd files next)
    (unused : files.conn fd = none) (valid : 0 ≤ fd) :
    ClientOpen clientFd (files.connect fd) (some fd) := by
  have other := h.ne_client unused valid
  constructor
  · intro client
    change (Function.update files.conn fd (some files.made) clientFd).isSome
    rw [Function.update_of_ne other.symm]
    exact h.client client
  · rintro _ ⟨⟩
    refine ⟨valid, other, ?_⟩
    change (Function.update files.conn fd (some files.made) fd).isSome
    rw [Function.update_self]
    rfl

theorem ClientOpen.close (h : ClientOpen clientFd files next) :
    ClientOpen (-1) (files.close clientFd) next := by
  constructor
  · intro client
    exact absurd client (by decide)
  · intro fd accepted
    obtain ⟨valid, other, found⟩ := h.accepted fd accepted
    refine ⟨valid, ?_, ?_⟩
    · rintro rfl
      exact absurd valid (by decide)
    · change (Function.update files.conn clientFd none fd).isSome
      rw [Function.update_of_ne other]
      exact found

theorem ClientOpen.install (h : ClientOpen clientFd files (some fd)) :
    ClientOpen fd files none :=
  ⟨fun _ => (h.accepted fd rfl).2.2, nofun⟩

theorem ClientOpen.replace (h : ClientOpen clientFd files (some fd)) :
    ClientOpen fd (if 0 ≤ clientFd then files.close clientFd else files) none := by
  split
  · exact h.close.install
  · exact h.install

/-- A new connection leaves the client alone. -/
theorem ClientOpen.current_connect (h : ClientOpen clientFd files next)
    (unused : files.conn fd = none) (valid : 0 ≤ fd) :
    (files.connect fd).current clientFd = files.current clientFd := by
  change (if 0 ≤ clientFd then Function.update files.conn fd (some files.made) clientFd else none) =
    files.current clientFd
  rw [Function.update_of_ne (h.ne_client unused valid).symm]
  rfl

variable {current : Option Nat} {w : Watch}

theorem blames_of_none (files : Descriptors) (w : Watch) : Blames none files w := by
  cases w with
  | nothing => trivial
  | descriptor | connection | call => exact .inl rfl

theorem conn_connect_of_ne {held : Int} (unused : files.conn fd = none)
    (open_ : files.conn held ≠ none) : (files.connect fd).conn held = files.conn held := by
  have other : held ≠ fd := by
    rintro rfl
    exact open_ unused
  exact Function.update_of_ne other _ _

/-- A descriptor that is reused had no connection to blame. -/
theorem Blames.connect (h : Blames current files w) (unused : files.conn fd = none) :
    Blames current (files.connect fd) w := by
  cases w with
  | nothing => trivial
  | connection conn => exact h
  | descriptor held =>
      by_cases none : current = none
      · exact .inl none
      · have found : current = files.conn held := h.resolve_left none
        refine .inr (found.trans ?_)
        exact (conn_connect_of_ne unused fun same => none (found.trans same)).symm
  | call held conn =>
      by_cases none : current = none
      · exact .inl none
      · obtain ⟨found, called⟩ := h.resolve_left none
        refine .inr ⟨found.trans ?_, called⟩
        exact (conn_connect_of_ne unused fun same => none (found.trans same)).symm

/-- A new connection does not change who is to blame. -/
theorem Blames.connect_current (h : Blames (files.current clientFd) files w)
    (opened : ClientOpen clientFd files next) (unused : files.conn fd = none) (valid : 0 ≤ fd) :
    Blames ((files.connect fd).current clientFd) (files.connect fd) w := by
  rw [opened.current_connect unused valid]
  exact h.connect unused

theorem blames_sample (valid : 0 ≤ clientFd) :
    Blames (files.current clientFd) files (.descriptor clientFd) :=
  .inr (current_of_nonneg valid)

/-- What is closed on the error path is what is blamed. -/
theorem Blames.justified {observed : Option Nat} (h : Blames current files (.connection observed)) :
    Teardown.Justified ⟨current, observed⟩ := by
  rintro c rfl
  rcases h with h | h
  · cases h
  · exact h.symm

end Descriptors

/-- What a receive thread blames. -/
def RxPc.watch : RxPc → Watch
  | .idle => .nothing
  | .sampled fd => .descriptor fd
  | .receiving conn | .failed conn => .connection conn

section Watch

variable {current conn : Option Nat} {files : Descriptors}

/-- A receive thread that is about to call `recv` holds the current descriptor. -/
theorem blames_rxSample {clientFd : Int} {c : Prop} [Decidable c] (opened : ¬ c → 0 ≤ clientFd) :
    Blames (files.current clientFd) files (if c then RxPc.idle else .sampled clientFd).watch := by
  by_cases closed : c
  · rw [if_pos closed]
    trivial
  · rw [if_neg closed]
    exact blames_sample (opened closed)

/-- After a failed `recv` the connection of the call is to blame. -/
theorem blames_rxAfter (h : Blames current files (.connection conn)) (result : RecvResult) :
    Blames current files (rxAfter conn result).watch := by
  cases result with
  | bytes | interrupted => trivial
  | endOfStream | error => exact h

end Watch

end Ok3506.Comm
