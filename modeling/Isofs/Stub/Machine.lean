import Isofs.Stub.Moves
import Isofs.Stub.ReplyMatching

/-!
# The driver at work

Threads that make calls of the driver, the daemon processes and the threads that stop a daemon, in
whatever order their semaphore calls come. A thread follows the code of its call and nothing else:
it is not told where the protocol has it. What its code has written to the exchange buffers takes
effect with its next semaphore call.
-/

namespace Isofs

namespace Protocol

variable {C D S : Type}

/-- The client that takes an action. -/
def Action.client : Action C D S → Option C
  | .enter c => some c
  | .interruptRequest c => some c
  | .acquire c => some c
  | .write c _ => some c
  | .giveUp c _ => some c
  | .arm c _ => some c
  | .signal c _ => some c
  | .wake c _ => some c
  | .interruptWait c _ => some c
  | .undo c _ => some c
  | .finish c _ => some c
  | .release c => some c
  | _ => none

theorem client_ite {p : Prop} [Decidable p] {s t : State C D S} {client : C → ClientPc}
    (hs : s.client = client) (ht : t.client = client) : (if p then s else t).client = client := by
  split
  · exact hs
  · exact ht

/-- The daemons and the threads that stop them leave the clients where they are. -/
theorem next_client_of_other [DecidableEq C] [DecidableEq D] [DecidableEq S] {s : State C D S}
    {a : Action C D S} (ha : a.client = none) : (next s a).client = s.client := by
  cases a with
  | get d => exact client_ite rfl rfl
  | done d => exact client_ite rfl rfl
  | _ => first | rfl | cases ha

end Protocol

namespace Stub

open Protocol

variable {δ C D S : Type}

/-- The action of the protocol that a move of client `c` is, its request being `id`. -/
def Move.action (c : C) (id : ℕ) : Move → Action C D S
  | .enter => .enter c
  | .acquire _ => .acquire c
  | .write => .write c id
  | .giveUp => .giveUp c id
  | .arm => .arm c id
  | .signal _ _ => .signal c id
  | .wake _ => .wake c id
  | .interruptWait => .interruptWait c id
  | .undo => .undo c id
  | .finish => .finish c id
  | .release => .release c

/-- Where the protocol has a client whose request is `id`. -/
def Shape.pc (id : ℕ) : Shape → ClientPc
  | .idle => .idle
  | .wantLock => .wantLock
  | .filling => .filling id
  | .armed => .armed id
  | .waiting => .waiting id
  | .reading => .reading id
  | .leaving => .leaving
  | .done => .idle

/-- What the semaphores and `pidDaemon` must be for a move to be made. -/
def Ready (s : State C D S) : Move → Prop
  | .enter => s.pidDaemon ≠ none
  | .acquire alive => s.semSerialize = none ∧ (alive = true ↔ s.pidDaemon ≠ none)
  | .wake alive => s.semRqDone = false ∧ (alive = true ↔ s.pidDaemon ≠ none)
  | _ => True

/-- The number of the request that a client has placed last. -/
def number (s : State C D S) (c : C) : ℕ := (s.client c).request.getD 0

variable [DecidableEq C] [DecidableEq D] [DecidableEq S]

theorem next_acquire_client (s : State C D S) (c : C) :
    (next s (.acquire c)).client =
      Function.update s.client c (if s.pidDaemon = none then .leaving else .filling s.nextId) := by
  by_cases hpid : s.pidDaemon = none
  · rw [if_pos hpid]
    exact congrArg State.client (if_pos hpid)
  · rw [if_neg hpid]
    exact congrArg State.client (if_neg hpid)

theorem next_wake_client (s : State C D S) (c : C) (id : ℕ) :
    (next s (.wake c id)).client =
      Function.update s.client c (if s.pidDaemon = none then .leaving else .reading id) := by
  by_cases hpid : s.pidDaemon = none
  · rw [if_pos hpid]
    exact congrArg State.client (if_pos hpid)
  · rw [if_neg hpid]
    exact congrArg State.client (if_neg hpid)

/-- A move in the order of the protocol is an action that the protocol can take. -/
theorem enabled_of_after {s : State C D S} {c : C} {p p' : Shape} {id : ℕ} {m : Move}
    (hpc : s.client c = p.pc id) (hafter : p.after m = some p') (hready : Ready s m) :
    Enabled s (m.action c (number s c)) ∧
      ∃ id', (next s (m.action c (number s c))).client =
        Function.update s.client c (p'.pc id') := by
  have hsame : s.client = Function.update s.client c (p.pc id) := by
    rw [← hpc, Function.update_eq_self]
  have hnumber (hrequest : (p.pc id).request = some id) : number s c = id := by
    rw [number, hpc, hrequest]
    rfl
  cases m with
  | enter =>
    cases p <;> cases hafter
    exact ⟨⟨hpc, hready⟩, id, rfl⟩
  | acquire alive =>
    cases p <;> cases hafter
    refine ⟨⟨hpc, hready.1⟩, s.nextId, (next_acquire_client s c).trans ?_⟩
    cases alive with
    | true =>
      rw [if_neg (hready.2.mp rfl)]
      rfl
    | false =>
      rw [if_pos (not_not.mp fun h => Bool.false_ne_true (hready.2.mpr h))]
      rfl
  | write =>
    cases p <;> cases hafter
    rw [hnumber rfl]
    exact ⟨hpc, id, hsame⟩
  | giveUp =>
    cases p <;> cases hafter
    rw [hnumber rfl]
    exact ⟨hpc, id, rfl⟩
  | arm =>
    cases p <;> cases hafter
    rw [hnumber rfl]
    exact ⟨hpc, id, rfl⟩
  | signal =>
    cases p <;> cases hafter
    rw [hnumber rfl]
    exact ⟨hpc, id, rfl⟩
  | wake alive =>
    cases p <;> cases hafter
    rw [hnumber rfl]
    refine ⟨⟨hpc, hready.1⟩, id, (next_wake_client s c id).trans ?_⟩
    cases alive with
    | true =>
      rw [if_neg (hready.2.mp rfl)]
      rfl
    | false =>
      rw [if_pos (not_not.mp fun h => Bool.false_ne_true (hready.2.mpr h))]
      rfl
  | interruptWait =>
    cases p <;> cases hafter
    rw [hnumber rfl]
    exact ⟨hpc, id, rfl⟩
  | undo =>
    cases p <;> cases hafter
    rw [hnumber rfl]
    exact ⟨hpc, s.nextId, rfl⟩
  | finish =>
    cases p <;> cases hafter
    rw [hnumber rfl]
    exact ⟨hpc, id, rfl⟩
  | release =>
    cases p <;> cases hafter
    exact ⟨hpc, id, rfl⟩

/-! ### The machine -/

/-- A thread in a call: the moves it has still to make, and what its code takes the buffers and the
daemon to be. -/
structure Thread (δ : Type) where
  call : DriverCall δ
  todo : List Move
  view : Shared δ

/-- The protocol, the buffers of each daemon and what it knows, the threads, and the calls that the
daemon that is attached has been there for, in the order in which they released the buffers. -/
structure Machine (δ C D S : Type) where
  protocol : State C D S
  shared : D → Shared δ
  thread : C → Option (Thread δ)
  answered : List (DriverCall δ)

namespace Machine

/-- Nothing runs. The buffers and the data of a daemon that starts are `fresh`. -/
def start (fresh : Shared δ) : Machine δ C D S := ⟨.start, fun _ => fresh, fun _ => none, []⟩

/-- The buffers that the driver points to, and their daemon, are `v`. -/
def Holds (m : Machine δ C D S) (v : Shared δ) : Prop :=
  ∀ d, m.protocol.mapped = some d → m.shared d = v

/-- Write to the buffers that the driver points to. -/
def put (m : Machine δ C D S) (q : Request) (data : Memory) : D → Shared δ :=
  match m.protocol.mapped with
  | some d => Function.update m.shared d { m.shared d with pRequest := q, pFSData := data }
  | none => m.shared

/-- What a move of a thread does to the buffers. -/
def sharedAfter (m : Machine δ C D S) (th : Thread δ) : Move → D → Shared δ
  | .signal q data => m.put q data
  | .giveUp => m.put th.call.final.pRequest th.call.final.pFSData
  | .finish => m.put th.call.final.pRequest th.call.final.pFSData
  | _ => m.shared

/-- The calls that have been answered. -/
def answeredAfter (m : Machine δ C D S) (th : Thread δ) : Move → List (DriverCall δ)
  | .release =>
    match m.protocol.pidDaemon with
    | some _ => m.answered ++ [th.call]
    | none => m.answered
  | _ => m.answered

/-- A move of thread `c`, which has then `rest` to do. -/
def move (serve : Shared δ → Shared δ) (m : Machine δ C D S) (c : C) (th : Thread δ) (mv : Move)
    (rest : List Move) : Machine δ C D S where
  protocol := next m.protocol (mv.action c (number m.protocol c))
  shared := m.sharedAfter th mv
  thread := Function.update m.thread c
    (some { th with todo := rest, view := mv.view serve th.view })
  answered := m.answeredAfter th mv

/-- An action of a daemon, or of a thread that stops it. A daemon that does not get its mutex
answers with the code `rc` of that. -/
def act (serve : Shared δ → Shared δ) (fresh : Shared δ) (rc : ApiRet) (m : Machine δ C D S)
    (a : Action C D S) : Machine δ C D S where
  protocol := next m.protocol a
  shared :=
    match a with
    | .start d => Function.update m.shared d fresh
    | .handle d => Function.update m.shared d (serve (m.shared d))
    | .refuse d => Function.update m.shared d
        { m.shared d with pRequest := { (m.shared d).pRequest with rc := rc } }
    | _ => m.shared
  thread := m.thread
  answered :=
    match a with
    | .start _ => []
    | _ => m.answered

/-- A step. A thread begins a call whose daemon works as `serve`; it goes on when the semaphores
and `pidDaemon` let it, and when it gets the buffers, they are as its call has found them. -/
inductive Step (serve : Shared δ → Shared δ) (fresh : Shared δ)
    (allowed : State C D S → Action C D S → Prop) : Machine δ C D S → Machine δ C D S → Prop where
  | begin (m : Machine δ C D S) (c : C) (x : DriverCall δ) (hthread : m.thread c = none)
      (hserve : x.env.serve = serve) :
      Step serve fresh allowed m
        { m with thread := Function.update m.thread c (some ⟨x, x.moves, x.state.shared⟩) }
  | move (m : Machine δ C D S) (c : C) (th : Thread δ) (mv : Move) (rest : List Move)
      (hthread : m.thread c = some th) (htodo : th.todo = mv :: rest)
      (hready : Ready m.protocol mv) (hfound : mv = .acquire true → m.Holds th.view)
      (hallowed : allowed m.protocol (mv.action c (number m.protocol c))) :
      Step serve fresh allowed m (m.move serve c th mv rest)
  | finish (m : Machine δ C D S) (c : C) (th : Thread δ) (hthread : m.thread c = some th)
      (htodo : th.todo = []) :
      Step serve fresh allowed m { m with thread := Function.update m.thread c none }
  | act (m : Machine δ C D S) (a : Action C D S) (rc : ApiRet) (ha : a.client = none)
      (henabled : Enabled m.protocol a) (hallowed : allowed m.protocol a) :
      Step serve fresh allowed m (m.act serve fresh rc a)

end Machine

/-! ### The code keeps to the protocol -/

variable {serve : Shared δ → Shared δ} {fresh : Shared δ}
  {allowed : State C D S → Action C D S → Prop}

/-- Before the lock is asked for nothing has been done. -/
theorem Shape.enter_of_after {p p' : Shape} {m : Move} (h : p.after m = some p')
    (hp' : p' = .idle ∨ p' = .wantLock) : p = .idle ∧ m = .enter := by
  cases m with
  | enter =>
    cases p <;> cases h
    exact ⟨rfl, rfl⟩
  | acquire alive =>
    cases p <;> cases h
    cases alive <;> rcases hp' with h | h <;> cases h
  | wake alive =>
    cases p <;> cases h
    cases alive <;> rcases hp' with h | h <;> cases h
  | _ =>
    rcases hp' with rfl | rfl
    · cases p <;> cases h
    · cases p <;> cases h

/-- What a thread that the protocol has at `p` has still to do is what it may do. -/
structure Thread.Ok (serve : Shared δ → Shared δ) (th : Thread δ) (p : Shape) : Prop where
  works : th.call.env.serve = serve
  leads : ∃ p' : Shape, p'.Rest ∧ p.lead th.todo = some p'
  daemon : (th.todo.foldl (Move.view serve) th.view).daemon = th.call.final.daemon
  found : p = .idle ∨ p = .wantLock → th.view = th.call.state.shared

theorem Thread.ok_begin {x : DriverCall δ} (hserve : x.env.serve = serve) :
    Thread.Ok serve ⟨x, x.moves, x.state.shared⟩ .idle where
  works := hserve
  leads := x.lead_moves
  daemon := by
    subst hserve
    exact x.daemon_final
  found _ := rfl

theorem Thread.Ok.step {th : Thread δ} {p : Shape} (h : th.Ok serve p) {mv : Move}
    {rest : List Move} (htodo : th.todo = mv :: rest) :
    ∃ p', p.after mv = some p' ∧
      Thread.Ok serve { th with todo := rest, view := mv.view serve th.view } p' := by
  obtain ⟨hserve, ⟨p₁, hrest, hlead⟩, hdaemon, hfound⟩ := h
  rw [htodo, Shape.lead_cons, Option.bind_eq_some_iff] at hlead
  obtain ⟨p', hafter, hlead⟩ := hlead
  rw [htodo, List.foldl_cons] at hdaemon
  refine ⟨p', hafter, hserve, ⟨p₁, hrest, hlead⟩, hdaemon, ?_⟩
  intro hp'
  obtain ⟨rfl, rfl⟩ := Shape.enter_of_after hafter hp'
  exact hfound (Or.inl rfl)

/-- A thread that leaves has only to release the buffers. -/
theorem Thread.Ok.daemon_of_leaving {th : Thread δ} (h : th.Ok serve .leaving) :
    th.view.daemon = th.call.final.daemon := by
  obtain ⟨-, ⟨p', hrest, hlead⟩, hdaemon, -⟩ := h
  cases htodo : th.todo with
  | nil =>
    rw [htodo, Shape.lead_nil] at hlead
    obtain rfl := Option.some.inj hlead
    rcases hrest with h | h <;> cases h
  | cons mv rest =>
    rw [htodo] at hlead hdaemon
    cases mv with
    | release =>
      cases rest with
      | nil => exact hdaemon
      | cons mv rest => cases mv <;> cases hlead
    | _ => cases hlead

namespace Machine

/-- Every thread is where the protocol has it. -/
def Threads (serve : Shared δ → Shared δ) (m : Machine δ C D S) : Prop :=
  ∀ c, (m.thread c = none → m.protocol.client c = .idle) ∧
    ∀ th, m.thread c = some th → ∃ p id, m.protocol.client c = p.pc id ∧ th.Ok serve p

omit [DecidableEq C] [DecidableEq D] [DecidableEq S] in
theorem threads_start : (start fresh : Machine δ C D S).Threads serve :=
  fun _ => ⟨fun _ => rfl, fun _ h => by cases h⟩

omit [DecidableEq C] [DecidableEq D] [DecidableEq S] in
/-- A thread that has nothing more to do in its call is outside. -/
theorem client_of_todo_nil {m : Machine δ C D S} (h : m.Threads serve) {c : C} {th : Thread δ}
    (hthread : m.thread c = some th) (htodo : th.todo = []) : m.protocol.client c = .idle := by
  obtain ⟨p, id, hpc, hok⟩ := (h c).2 th hthread
  obtain ⟨p', hrest, hlead⟩ := hok.leads
  rw [htodo, Shape.lead_nil] at hlead
  obtain rfl := Option.some.inj hlead
  rcases hrest with rfl | rfl
  · exact hpc
  · exact hpc

/-- A step keeps the threads where the protocol has them, and is a step of the protocol or none. -/
theorem Step.threads {m m' : Machine δ C D S} (hstep : Step serve fresh allowed m m')
    (h : m.Threads serve) :
    m'.Threads serve ∧
      (m'.protocol = m.protocol ∨ Protocol.Step allowed m.protocol m'.protocol) := by
  cases hstep with
  | begin c x hthread hserve =>
    refine ⟨fun c' => ?_, Or.inl rfl⟩
    by_cases hc : c' = c
    · subst hc
      dsimp only
      rw [Function.update_self]
      refine ⟨fun hnone => (Option.some_ne_none _ hnone).elim, fun th hth => ?_⟩
      obtain rfl := Option.some.inj hth
      exact ⟨.idle, 0, (h c').1 hthread, Thread.ok_begin hserve⟩
    · dsimp only
      rw [Function.update_of_ne hc]
      exact h c'
  | move c th mv rest hthread htodo hready hfound hallowed =>
    obtain ⟨p, id, hpc, hok⟩ := (h c).2 th hthread
    obtain ⟨p', hafter, hok'⟩ := hok.step htodo
    obtain ⟨henabled, id', hclient⟩ := enabled_of_after hpc hafter hready
    refine ⟨fun c' => ?_, Or.inr ⟨_, henabled, hallowed, rfl⟩⟩
    show (Function.update m.thread c _ c' = none → (next m.protocol _).client c' = .idle) ∧
      ∀ th', Function.update m.thread c _ c' = some th' →
        ∃ p id, (next m.protocol _).client c' = p.pc id ∧ th'.Ok serve p
    rw [hclient]
    by_cases hc : c' = c
    · subst hc
      rw [Function.update_self, Function.update_self]
      refine ⟨fun hnone => (Option.some_ne_none _ hnone).elim, fun th' hth => ?_⟩
      obtain rfl := Option.some.inj hth
      exact ⟨p', id', rfl, hok'⟩
    · rw [Function.update_of_ne hc, Function.update_of_ne hc]
      exact h c'
  | finish c th hthread htodo =>
    refine ⟨fun c' => ?_, Or.inl rfl⟩
    by_cases hc : c' = c
    · subst hc
      dsimp only
      rw [Function.update_self]
      exact ⟨fun _ => client_of_todo_nil h hthread htodo, fun _ hth => by cases hth⟩
    · dsimp only
      rw [Function.update_of_ne hc]
      exact h c'
  | act a rc ha henabled hallowed =>
    refine ⟨fun c => ?_, Or.inr ⟨a, henabled, hallowed, rfl⟩⟩
    show (m.thread c = none → (next m.protocol a).client c = .idle) ∧
      ∀ th, m.thread c = some th → ∃ p id, (next m.protocol a).client c = p.pc id ∧ th.Ok serve p
    rw [next_client_of_other ha]
    exact h c

end Machine

end Stub

end Isofs
