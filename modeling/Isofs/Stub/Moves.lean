import Isofs.Stub.Phases
import Isofs.Stub.Protocol

/-!
# The moves of a call

What a thread in an entry point does to the semaphores, as moves of a client of the exchange
protocol. The moves of a sound call are in the order that the protocol knows.
-/

namespace Isofs

namespace Stub

open LockTrace

variable {δ : Type} {env : StubEnv δ}

/-- One move of a client. `alive` is what it sees of the daemon. -/
inductive Move where
  | enter
  | acquire (alive : Bool)
  | write
  | giveUp
  | arm
  | signal (pRequest : Request) (pFSData : Memory)
  | wake (alive : Bool)
  | interruptWait
  | undo
  | finish
  | release

/-- Where a client is in a call, but for the number of its request. -/
inductive Shape where
  | idle
  | wantLock
  | filling
  | armed
  | waiting
  | reading
  | leaving
  | done
  deriving DecidableEq, Repr

namespace Shape

/-- Where a move leads to. A client that is done makes no more moves in the call. -/
def after : Shape → Move → Option Shape
  | .idle, .enter => some .wantLock
  | .wantLock, .acquire alive => some (if alive then .filling else .leaving)
  | .filling, .write => some .filling
  | .filling, .giveUp => some .leaving
  | .filling, .arm => some .armed
  | .armed, .signal _ _ => some .waiting
  | .waiting, .wake alive => some (if alive then .reading else .leaving)
  | .waiting, .interruptWait => some .leaving
  | .reading, .undo => some .filling
  | .reading, .finish => some .leaving
  | .leaving, .release => some .done
  | _, _ => none

/-- Where some moves lead to. -/
def lead (p : Shape) : List Move → Option Shape
  | [] => some p
  | m :: ms => (p.after m).bind (lead · ms)

@[simp] theorem lead_nil (p : Shape) : p.lead [] = some p := rfl

@[simp] theorem lead_cons (p : Shape) (m : Move) (ms : List Move) :
    p.lead (m :: ms) = (p.after m).bind (lead · ms) := rfl

theorem lead_append (p : Shape) (ms ms' : List Move) :
    p.lead (ms ++ ms') = (p.lead ms).bind (lead · ms') := by
  induction ms generalizing p with
  | nil => rfl
  | cons m ms ih =>
    rw [List.cons_append, lead_cons, lead_cons]
    cases p.after m with
    | none => rfl
    | some p' => exact ih p'

/-- The call is over, or has not begun. -/
def Rest (p : Shape) : Prop := p = .idle ∨ p = .done

end Shape

/-- What a call takes the buffers and the daemon to be behind a move. -/
def Move.view (serve : Shared δ → Shared δ) (v : Shared δ) : Move → Shared δ
  | .signal q m => { v with pRequest := q, pFSData := m }
  | .wake _ => serve v
  | _ => v

/-! ### The moves of a trace -/

/-- The moves of an event in phase `p`. -/
def movesAt (env : StubEnv δ) (p : CallPhase) : StubEvent → List Move
  | .requestSerialize => [.enter, .acquire env.daemonAfterRequest]
  | .clearSerialize =>
    match p with
    | .filling => [.giveUp, .release]
    | .waiting _ => [.interruptWait, .release]
    | .reading _ => [.finish, .release]
    | _ => [.release]
  | .signal => []
  | .setRqDone =>
    match p with
    | .reading _ => [.undo, .arm]
    | _ => [.arm]
  | .clearRqAvail q m => [.signal q m]
  | .waitRqDone =>
    match p with
    | .waiting signal => [.wake (env.daemonAfterWait signal)]
    | _ => []
  | .exchange =>
    match p with
    | .filling => [.write]
    | _ => []
  | .probe _ _ _ => []
  | .copyIn _ _ => []
  | .copyOut _ _ => []
  | .store _ => []

/-- The moves of a trace, oldest first. -/
def movesOf (env : StubEnv δ) : List StubEvent → List Move
  | [] => []
  | e :: es => movesOf env es ++ (callPhase env es).elim [] (movesAt env · e)

/-- Where the protocol has a call that is in phase `p` and in phase `q` of its lock. -/
def shapeOf (p : CallPhase) : Phase → Shape
  | .free => .idle
  | .held =>
    match p with
    | .outside => .idle
    | .filling => .filling
    | .armed _ => .armed
    | .waiting _ => .waiting
    | .reading _ => .reading
    | .leaving => .leaving
  | .done => .done

/-- One event of a call that keeps the lock discipline. -/
theorem lead_movesAt {p p' : CallPhase} {q q' : Phase} {e : StubEvent}
    (hp : p.next env e = some p') (hq : LockTrace.next q (lockEvent e) = some q') :
    (shapeOf p q).lead (movesAt env p e) = some (shapeOf p' q') := by
  cases e with
  | requestSerialize =>
    obtain ⟨rfl, rfl⟩ := eq_of_next_acquire hq
    cases p with
    | outside =>
      obtain rfl := Option.some.inj hp
      rw [movesAt]
      cases env.daemonAfterRequest <;> rfl
    | _ => cases hp
  | clearSerialize =>
    obtain ⟨rfl, rfl⟩ := eq_of_next_release hq
    cases p with
    | outside => cases hp
    | armed => cases hp
    | _ => rfl
  | setRqDone =>
    obtain ⟨rfl, rfl⟩ := eq_of_next_use hq
    cases p with
    | filling =>
      obtain rfl := Option.some.inj hp
      rfl
    | reading signal =>
      cases signal with
      | request =>
        obtain rfl := Option.some.inj hp
        rfl
      | undo => cases hp
    | _ => cases hp
  | clearRqAvail =>
    obtain ⟨rfl, rfl⟩ := eq_of_next_use hq
    cases p <;> cases hp
    rfl
  | waitRqDone =>
    obtain ⟨rfl, rfl⟩ := eq_of_next_use hq
    cases p with
    | waiting signal =>
      obtain rfl := Option.some.inj hp
      rw [movesAt]
      cases env.daemonAfterWait signal <;> rfl
    | _ => cases hp
  | exchange =>
    obtain ⟨rfl, rfl⟩ := eq_of_next_use hq
    cases p <;> cases hp <;> rfl
  | _ =>
    rw [eq_of_next_other hq, ← Option.some.inj hp]
    rfl

theorem lead_movesOf {es : List StubEvent} {p : CallPhase} {q : Phase}
    (hp : callPhase env es = some p) (hq : phase (es.map lockEvent) = some q) :
    Shape.idle.lead (movesOf env es) = some (shapeOf p q) := by
  induction es generalizing p q with
  | nil =>
    obtain rfl := Option.some.inj hp
    obtain rfl := Option.some.inj hq
    rfl
  | cons e es ih =>
    rw [callPhase, Option.bind_eq_some_iff] at hp
    rw [List.map_cons, phase_cons, Option.bind_eq_some_iff] at hq
    obtain ⟨p₀, hp₀, hp⟩ := hp
    obtain ⟨q₀, hq₀, hq⟩ := hq
    rw [movesOf, hp₀, Option.elim_some, Shape.lead_append, ih hp₀ hq₀]
    exact lead_movesAt hp hq

theorem view_movesOf {es : List StubEvent} {p : CallPhase} (hp : callPhase env es = some p)
    (v : Shared δ) : (movesOf env es).foldl (Move.view env.serve) v = viewAt env v es := by
  induction es generalizing p with
  | nil => rfl
  | cons e es ih =>
    rw [callPhase, Option.bind_eq_some_iff] at hp
    obtain ⟨p₀, hp₀, hp⟩ := hp
    rw [movesOf, hp₀, Option.elim_some, List.foldl_append, ih hp₀, viewAt]
    cases e <;> cases p₀ <;> first | rfl | cases hp

/-! ### Calls -/

/-- A sound call that can always clear `semRqAvail`. -/
structure DriverCall (δ : Type) extends SoundCall δ where
  clears : ∀ signal, env.clearRqAvail signal = .NO_ERROR

namespace DriverCall

variable (x : DriverCall δ)

/-- What the call leaves behind. -/
def final : StubState δ := ((x.call.body x.env).run { x.state with trace := [] }).2

/-- What the thread does in the call. -/
def moves : List Move := movesOf x.env x.final.trace

theorem final_inOrder : InOrder x.env x.state.shared x.final :=
  (StubCall.inOrder x.clears x.call).run (s := { x.state with trace := [] }) ⟨rfl, rfl⟩

/-- The moves of a call lead a client back outside. -/
theorem lead_moves : ∃ p : Shape, p.Rest ∧ Shape.idle.lead x.moves = some p := by
  obtain ⟨p, hp⟩ := x.final_inOrder
  rcases disciplined_of_sound x.sound with hfree | hdone
  · exact ⟨.idle, Or.inl rfl, lead_movesOf hp.phase hfree⟩
  · exact ⟨.done, Or.inr rfl, lead_movesOf hp.phase hdone⟩

/-- The daemon is left as the moves say. -/
theorem daemon_final :
    (x.moves.foldl (Move.view x.env.serve) x.state.shared).daemon = x.final.daemon := by
  obtain ⟨p, hp⟩ := x.final_inOrder
  rw [moves, view_movesOf hp.phase]
  exact hp.daemon.symm

end DriverCall

end Stub

end Isofs
