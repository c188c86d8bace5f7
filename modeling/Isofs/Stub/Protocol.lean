import Isofs.Library.Transition
import Mathlib.Data.Nat.Notation
import Mathlib.Logic.Function.Basic
import Mathlib.Tactic.Common

/-!
# The exchange protocol

Clients in `requestExchangeXS` and `signalDaemonAndWait`, daemons in `runDaemon` and
`daemonStarted`, and threads in `daemonStopped`. Code of the driver runs without
preemption between two semaphore calls, so a step is one semaphore call with the code
around it. An event semaphore is `true` when it is set, that is, when a wait blocks. Each
request that a client places gets a number of its own; `executed` counts how often the
daemons have handled it.
-/

namespace Isofs

namespace Protocol

/-- Where a client is. From `filling` to `leaving` it is between acquiring and releasing
`semSerialize`; `waiting` is the wait for `semRqDone`, and `reading` is behind a
`signalDaemonAndWait` that has returned `NO_ERROR`. -/
inductive ClientPc where
  | idle
  | wantLock
  | filling (id : ℕ)
  | armed (id : ℕ)
  | waiting (id : ℕ)
  | reading (id : ℕ)
  | leaving
  deriving DecidableEq, Repr

/-- Where a daemon process is. `got` is behind its wait for `semRqAvail`, and from `executing`
to `handled` it is between `GET_REQUEST` and `DONE_REQUEST`. -/
inductive DaemonPc where
  | idle
  | starting
  | ready
  | waiting
  | got
  | executing
  | handled
  deriving DecidableEq, Repr

/-- Where a thread in `daemonStopped` is. -/
inductive StopPc where
  | idle
  | requesting
  | unlocking
  deriving DecidableEq, Repr

/-- The thread that acquired `semSerialize` last. The semaphore itself does not know it. -/
inductive Owner (C S : Type) where
  | client (c : C)
  | stop (t : S)
  deriving DecidableEq, Repr

/-- What the exchange buffers of a daemon hold: the request placed in them, and the request
that the result in them is of. -/
structure Exchange where
  request : Option ℕ
  reply : Option ℕ
  deriving DecidableEq, Repr

/-- The driver, its clients, the daemon processes and the threads that stop a daemon. `mapped`
is the daemon whose buffers `pRequest` and `pFSData` point to. -/
structure State (C D S : Type) where
  pidDaemon : Option D
  semSerialize : Option (Owner C S)
  semRqAvail : Bool
  semRqDone : Bool
  mapped : Option D
  buffers : D → Exchange
  executed : ℕ → ℕ
  nextId : ℕ
  client : C → ClientPc
  daemon : D → DaemonPc
  stop : S → StopPc

/-- The actions. `interruptRequest`, `interruptWait`, `interruptGet` and `interruptStop` end a
wait with an error; in `refuse` the daemon does not get its own mutex. -/
inductive Action (C D S : Type) where
  | enter (c : C)
  | interruptRequest (c : C)
  | acquire (c : C)
  | write (c : C) (id : ℕ)
  | giveUp (c : C) (id : ℕ)
  | arm (c : C) (id : ℕ)
  | signal (c : C) (id : ℕ)
  | wake (c : C) (id : ℕ)
  | interruptWait (c : C) (id : ℕ)
  | undo (c : C) (id : ℕ)
  | finish (c : C) (id : ℕ)
  | release (c : C)
  | start (d : D)
  | started (d : D)
  | get (d : D)
  | wakeDaemon (d : D)
  | interruptGet (d : D)
  | setAvail (d : D)
  | handle (d : D)
  | refuse (d : D)
  | done (d : D)
  | quit (d : D)
  | stop (t : S)
  | acquireStop (t : S)
  | interruptStop (t : S)
  | releaseStop (t : S)
  deriving DecidableEq, Repr

variable {C D S : Type}

/-- Nothing runs, and no daemon has been started. -/
def State.start : State C D S where
  pidDaemon := none
  semSerialize := none
  semRqAvail := false
  semRqDone := false
  mapped := none
  buffers _ := ⟨none, none⟩
  executed _ := 0
  nextId := 0
  client _ := .idle
  daemon _ := .idle
  stop _ := .idle

/-- Which actions the code can take. -/
def Enabled (s : State C D S) : Action C D S → Prop
  | .enter c => s.client c = .idle ∧ s.pidDaemon ≠ none
  | .interruptRequest c => s.client c = .wantLock
  | .acquire c => s.client c = .wantLock ∧ s.semSerialize = none
  | .write c id => s.client c = .filling id
  | .giveUp c id => s.client c = .filling id
  | .arm c id => s.client c = .filling id
  | .signal c id => s.client c = .armed id
  | .wake c id => s.client c = .waiting id ∧ s.semRqDone = false
  | .interruptWait c id => s.client c = .waiting id
  | .undo c id => s.client c = .reading id
  | .finish c id => s.client c = .reading id
  | .release c => s.client c = .leaving
  | .start d => s.daemon d = .idle ∧ s.pidDaemon = none
  | .started d => s.daemon d = .starting
  | .get d => s.daemon d = .ready
  | .wakeDaemon d => s.daemon d = .waiting ∧ s.semRqAvail = false
  | .interruptGet d => s.daemon d = .waiting
  | .setAvail d => s.daemon d = .got
  | .handle d => s.daemon d = .executing
  | .refuse d => s.daemon d = .executing
  | .done d => s.daemon d = .handled
  | .quit d => s.daemon d = .ready
  | .stop t => s.stop t = .idle
  | .acquireStop t => s.stop t = .requesting ∧ s.semSerialize = none
  | .interruptStop t => s.stop t = .requesting
  | .releaseStop t => s.stop t = .unlocking

def State.setClient [DecidableEq C] (s : State C D S) (c : C) (pc : ClientPc) : State C D S :=
  { s with client := Function.update s.client c pc }

def State.setDaemon [DecidableEq D] (s : State C D S) (d : D) (pc : DaemonPc) : State C D S :=
  { s with daemon := Function.update s.daemon d pc }

def State.setStop [DecidableEq S] (s : State C D S) (t : S) (pc : StopPc) : State C D S :=
  { s with stop := Function.update s.stop t pc }

/-- Write request `id` to the buffers that the driver points to. -/
def State.place [DecidableEq D] (s : State C D S) (id : ℕ) : State C D S :=
  { s with
    buffers :=
      match s.mapped with
      | some d => Function.update s.buffers d { s.buffers d with request := some id }
      | none => s.buffers }

/-- Place a request of its own number, and go on filling the buffers. -/
def State.newRequest [DecidableEq C] [DecidableEq D] (s : State C D S) (c : C) : State C D S :=
  ({ s with nextId := s.nextId + 1 }.place s.nextId).setClient c (.filling s.nextId)

/-- Daemon `d` handles the request in its buffers. -/
def State.execute [DecidableEq D] (s : State C D S) (d : D) : State C D S :=
  { s with
    executed :=
      match (s.buffers d).request with
      | some id => Function.update s.executed id (s.executed id + 1)
      | none => s.executed
    buffers := Function.update s.buffers d { s.buffers d with reply := (s.buffers d).request } }

variable [DecidableEq C] [DecidableEq D] [DecidableEq S]

/-- The state after an action. -/
def next (s : State C D S) : Action C D S → State C D S
  | .enter c => s.setClient c .wantLock
  | .interruptRequest c => s.setClient c .idle
  | .acquire c =>
    if s.pidDaemon = none then { s with semSerialize := some (.client c) }.setClient c .leaving
    else { s with semSerialize := some (.client c) }.newRequest c
  | .write _ id => s.place id
  | .giveUp c _ => s.setClient c .leaving
  | .arm c id => { s with semRqDone := true }.setClient c (.armed id)
  | .signal c id => { s with semRqAvail := false }.setClient c (.waiting id)
  | .wake c id =>
    if s.pidDaemon = none then s.setClient c .leaving else s.setClient c (.reading id)
  | .interruptWait c _ => s.setClient c .leaving
  | .undo c _ => s.newRequest c
  | .finish c _ => s.setClient c .leaving
  | .release c => { s with semSerialize := none }.setClient c .idle
  | .start d =>
    { s with
      pidDaemon := some d, mapped := some d, semRqAvail := true
      buffers := Function.update s.buffers d ⟨none, none⟩ }.setDaemon d .starting
  | .started d => { s with semSerialize := none }.setDaemon d .ready
  | .get d => if s.pidDaemon = some d then s.setDaemon d .waiting else s.setDaemon d .idle
  | .wakeDaemon d => s.setDaemon d .got
  | .interruptGet d => s.setDaemon d .idle
  | .setAvail d => { s with semRqAvail := true }.setDaemon d .executing
  | .handle d => (s.execute d).setDaemon d .handled
  | .refuse d =>
    { s with buffers := Function.update s.buffers d { s.buffers d with reply := none } }.setDaemon d
      .handled
  | .done d =>
    if s.pidDaemon = some d then { s with semRqDone := false }.setDaemon d .ready
    else s.setDaemon d .idle
  | .quit d => s.setDaemon d .idle
  | .stop t => { s with pidDaemon := none, semRqDone := false }.setStop t .requesting
  | .acquireStop t => { s with semSerialize := some (.stop t) }.setStop t .unlocking
  | .interruptStop t => s.setStop t .idle
  | .releaseStop t => { s with semSerialize := none }.setStop t .idle

/-- A step by an action that `allowed` allows. -/
def Step (allowed : State C D S → Action C D S → Prop) (s s' : State C D S) : Prop :=
  ∃ a, Enabled s a ∧ allowed s a ∧ s' = next s a

/-- A step of the code. -/
def Any (_ : State C D S) (_ : Action C D S) : Prop := True

/-! ### Runs of given actions -/

instance (s : State C D S) (a : Action C D S) : Decidable (Enabled s a) := by
  cases a <;> dsimp only [Enabled] <;> infer_instance

instance (s : State C D S) (a : Action C D S) : Decidable (Any s a) :=
  inferInstanceAs (Decidable True)

/-- The state after the actions. -/
def runActions (s : State C D S) : List (Action C D S) → State C D S
  | [] => s
  | a :: as => runActions (next s a) as

/-- The actions can be taken one after the other, and are allowed. -/
def Legal (allowed : State C D S → Action C D S → Prop) (s : State C D S) :
    List (Action C D S) → Prop
  | [] => True
  | a :: as => Enabled s a ∧ allowed s a ∧ Legal allowed (next s a) as

instance decidableLegal (allowed : State C D S → Action C D S → Prop)
    [∀ s a, Decidable (allowed s a)] (s : State C D S) :
    (as : List (Action C D S)) → Decidable (Legal allowed s as)
  | [] => inferInstanceAs (Decidable True)
  | a :: as =>
    have := decidableLegal allowed (next s a) as
    inferInstanceAs (Decidable (_ ∧ _ ∧ _))

theorem reaches_runActions {allowed : State C D S → Action C D S → Prop} {s : State C D S}
    {as : List (Action C D S)} (h : Legal allowed s as) :
    Transition.Reaches (Step allowed) s (runActions s as) := by
  induction as generalizing s with
  | nil => exact Relation.ReflTransGen.refl
  | cons a as ih => exact Relation.ReflTransGen.head ⟨a, h.1, h.2.1, rfl⟩ (ih h.2.2)

end Protocol

end Isofs
