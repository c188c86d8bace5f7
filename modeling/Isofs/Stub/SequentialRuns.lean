import Isofs.Stub.Atomicity

/-!
# Sequential runs

Calls for which the helpers of the kernel succeed can be made one after the other: every sequential
run of such calls is an orderly run of the threads, the daemon serving each of them.
-/

namespace Isofs

namespace Stub

open Protocol

variable {δ C D S : Type} {serve : Shared δ → Shared δ} {fresh : Shared δ}

/-- The move is made while the daemon is there, and no wait fails. -/
def Move.Succeeds : Move → Prop
  | .acquire alive => alive = true
  | .wake alive => alive = true
  | .interruptWait => False
  | _ => True

/-- The helpers of the kernel succeed while the daemon is there, and the call asks for the exchange
buffers. -/
structure DriverCall.Succeeds (x : DriverCall δ) : Prop where
  alive : x.env.daemonAfterRequest = true
  waits : ∀ signal, x.env.waitRqDone signal = .NO_ERROR
  stays : ∀ signal, x.env.daemonAfterWait signal = true
  requests : .requestSerialize ∈ x.final.trace

/-- What has happened stays in the trace. -/
theorem Emits.keeps {α : Type} {P : StubEvent → Prop} {m : Stub δ α} (hm : Emits P m)
    (e : StubEvent) :
    Proc.Triple (fun s => e ∈ s.trace) m (fun _ s => e ∈ s.trace) (fun _ s => e ∈ s.trace) := by
  intro s he
  refine (hm.triple s.trace s ⟨[], rfl, List.forall_mem_nil _⟩).mono ?_ ?_
  · rintro - t ⟨es, htrace, -⟩
    rw [htrace]
    exact List.mem_append_right es he
  · rintro - t ⟨es, htrace, -⟩
    rw [htrace]
    exact List.mem_append_right es he

/-- An entry point that gets the exchange buffers has asked for them. -/
theorem requests_of_exchange {env : StubEnv δ} (hacquires : Acquires env) {fill : Stub δ Unit}
    {finish : Stub δ ApiRet} {P P' : StubEvent → Prop} (hfill : Emits P fill)
    (hfinish : Emits P' finish) (s : StubState δ) :
    .requestSerialize ∈ ((exchange env fill finish).run s).2.trace := by
  have hrequest : Proc.Ends (Proc.call (requestExchangeXS env) : Stub δ ApiRet)
      (fun _ t => .requestSerialize ∈ t.trace) (fun _ t => .requestSerialize ∈ t.trace) s := by
    obtain ⟨h1, h2, h3, h4⟩ := hacquires
    simp [Proc.Ends, requestExchangeXS, Proc.call, returnOnError, Proc.onlyIf, Proc.bind_apply, h1,
      h2, h3, h4, log]
  have hany {β : Type} {m : Stub δ β} {R : StubEvent → Prop} (hm : Emits R m) :
      Emits (fun _ => True) m := hm.mono fun _ _ => trivial
  refine Proc.Ends.run (Q := fun _ t => .requestSerialize ∈ t.trace)
    (R := fun _ t => .requestSerialize ∈ t.trace)
    (Proc.Ends.bind (hrequest.mono (fun rc t ht => ?_) fun _ _ h => h))
  refine Emits.keeps (P := fun _ => True) ?_ _ t ht
  exact (Emits.returnOnError rc).bind fun _ => (hany hfill).bind fun _ =>
    (Emits.call (Emits.signalDaemonAndWait trivial trivial (fun _ _ => trivial) trivial _)).bind
      fun _ => (Emits.onlyIf (Emits.releaseAndExit trivial _)).bind fun _ =>
        (hany hfinish).bind fun _ => Emits.releaseAndExit trivial _

theorem Shape.eq_of_lead_idle {p : Shape} {ms : List Move} (h : p.lead ms = some .idle) :
    p = .idle ∧ ms = [] := by
  induction ms generalizing p with
  | nil => exact ⟨Option.some.inj h, rfl⟩
  | cons mv ms ih =>
    rw [lead_cons, Option.bind_eq_some_iff] at h
    obtain ⟨p', hafter, hlead⟩ := h
    obtain ⟨rfl, -⟩ := ih hlead
    obtain ⟨rfl, rfl⟩ := Shape.enter_of_after hafter (Or.inl rfl)
    cases hafter

/-- A call that asks for the buffers makes moves. -/
theorem movesOf_ne_nil {env : StubEnv δ} {es : List StubEvent} {p : CallPhase}
    (hp : callPhase env es = some p) (h : .requestSerialize ∈ es) : movesOf env es ≠ [] := by
  induction es generalizing p with
  | nil => cases h
  | cons e es ih =>
    rw [callPhase, Option.bind_eq_some_iff] at hp
    obtain ⟨p₀, hp₀, -⟩ := hp
    rw [movesOf, hp₀, Option.elim_some, Ne, List.append_eq_nil_iff, not_and_or]
    rcases List.mem_cons.mp h with rfl | hrest
    · exact Or.inr (List.cons_ne_nil _ _)
    · exact Or.inl (ih hp₀ hrest)

namespace DriverCall

variable {x : DriverCall δ}

theorem Succeeds.movesAt (h : x.Succeeds) {p p' : CallPhase} {e : StubEvent}
    (hp : p.next x.env e = some p') : ∀ mv ∈ movesAt x.env p e, mv.Succeeds := by
  cases e with
  | requestSerialize =>
    exact List.forall_mem_cons.mpr ⟨trivial, List.forall_mem_singleton.mpr h.alive⟩
  | clearSerialize =>
    cases p with
    | waiting signal => exact absurd ((if_pos (h.waits signal)).symm.trans hp) (by simp)
    | _ => simp [Stub.movesAt, Move.Succeeds]
  | setRqDone => cases p <;> simp [Stub.movesAt, Move.Succeeds]
  | clearRqAvail => exact List.forall_mem_singleton.mpr trivial
  | waitRqDone =>
    cases p with
    | waiting signal => exact List.forall_mem_singleton.mpr (h.stays signal)
    | _ => exact List.forall_mem_nil _
  | exchange => cases p <;> simp [Stub.movesAt, Move.Succeeds]
  | _ => exact List.forall_mem_nil _

theorem Succeeds.movesOf (h : x.Succeeds) {es : List StubEvent} {p : CallPhase}
    (hp : callPhase x.env es = some p) : ∀ mv ∈ movesOf x.env es, mv.Succeeds := by
  induction es generalizing p with
  | nil => exact List.forall_mem_nil _
  | cons e es ih =>
    rw [callPhase, Option.bind_eq_some_iff] at hp
    obtain ⟨p₀, hp₀, hnext⟩ := hp
    rw [Stub.movesOf, hp₀, Option.elim_some, List.forall_mem_append]
    exact ⟨ih hp₀, h.movesAt hnext⟩

theorem Succeeds.moves (h : x.Succeeds) : ∀ mv ∈ x.moves, mv.Succeeds := by
  obtain ⟨p, hp⟩ := x.final_inOrder
  exact h.movesOf hp.phase

/-- It ends outside, with the buffers released. -/
theorem Succeeds.lead_moves (h : x.Succeeds) : Shape.idle.lead x.moves = some .done := by
  obtain ⟨p, hrest, hlead⟩ := x.lead_moves
  rcases hrest with rfl | rfl
  · obtain ⟨p, hp⟩ := x.final_inOrder
    exact absurd (Shape.eq_of_lead_idle hlead).2 (movesOf_ne_nil hp.phase h.requests)
  · exact hlead

end DriverCall

theorem Shape.waiting_of_after_signal {p p' : Shape} {q : Request} {data : Memory}
    (h : p.after (.signal q data) = some p') : p' = .waiting := by
  cases p <;> cases h
  rfl

theorem Shape.signal_of_after {p : Shape} {mv : Move} (h : p.after mv = some .waiting) :
    p = .armed ∧ ∃ q data, mv = .signal q data := by
  cases mv with
  | signal q data =>
    cases p <;> cases h
    exact ⟨rfl, q, data, rfl⟩
  | acquire alive => cases p <;> cases alive <;> cases h
  | wake alive => cases p <;> cases alive <;> cases h
  | _ => cases p <;> cases h

/-- Only a release ends a call. -/
theorem Shape.release_of_after {p : Shape} {mv : Move} (h : p.after mv = some .done) :
    p = .leaving ∧ mv = .release := by
  cases mv with
  | release =>
    cases p <;> cases h
    exact ⟨rfl, rfl⟩
  | acquire alive => cases p <;> cases alive <;> cases h
  | wake alive => cases p <;> cases alive <;> cases h
  | _ => cases p <;> cases h

theorem Shape.done_of_after_release {p p' : Shape} (h : p.after .release = some p') :
    p' = .done := by
  cases p <;> cases h
  rfl

variable [DecidableEq C] [DecidableEq D] [DecidableEq S]

/-! ### One client -/

/-- Client `c` is at `p`, the lock is free when it is outside, and daemon `d` waits for a request,
the one that `c` waits for being answered. -/
structure Attached (s : State C D S) (c : C) (d : D) (p : Shape) : Prop where
  client : ∃ id, s.client c = p.pc id
  pid : s.pidDaemon = some d
  mapped : s.mapped = some d
  lock : p = .idle ∨ p = .wantLock ∨ p = .done → s.semSerialize = none
  avail : s.semRqAvail = true
  daemon : s.daemon d = .waiting
  answered : p = .waiting → s.semRqDone = false

/-- What a daemon does for a request that is available. -/
def serviceOf (d : D) : List (Action C D S) :=
  [.wakeDaemon d, .setAvail d, .handle d, .done d, .get d]

section Attached

variable {s : State C D S} {c : C} {d : D} {p p' : Shape} {mv : Move}

omit [DecidableEq C] [DecidableEq D] [DecidableEq S] in
theorem Attached.ready (h : Attached s c d p) (hafter : p.after mv = some p')
    (hmv : mv.Succeeds) : Ready s mv ∧ Orderly s (mv.action c (number s c)) := by
  have halive : s.pidDaemon ≠ none := h.pid ▸ Option.some_ne_none d
  cases mv with
  | enter => exact ⟨halive, trivial⟩
  | acquire alive =>
    cases p <;> cases hafter
    exact ⟨⟨h.lock (Or.inr (Or.inl rfl)), iff_of_true hmv halive⟩, trivial⟩
  | wake alive =>
    cases p <;> cases hafter
    exact ⟨⟨h.answered rfl, iff_of_true hmv halive⟩, trivial⟩
  | interruptWait => exact hmv.elim
  | _ => exact ⟨trivial, trivial⟩

/-- Only a signal makes a request available, and no move is one of a daemon. -/
theorem next_move_daemon (s : State C D S) (c : C) (id : ℕ)
    (hmv : ∀ q data, mv ≠ .signal q data) :
    (Protocol.next s (mv.action c id)).semRqAvail = s.semRqAvail ∧
      (Protocol.next s (mv.action c id)).daemon = s.daemon := by
  cases mv with
  | acquire alive =>
    show (Protocol.next s (.acquire c)).semRqAvail = _ ∧ (Protocol.next s (.acquire c)).daemon = _
    by_cases hpid : s.pidDaemon = none
    · rw [show Protocol.next s (.acquire c) = _ from if_pos hpid]
      exact ⟨rfl, rfl⟩
    · rw [show Protocol.next s (.acquire c) = _ from if_neg hpid]
      exact ⟨rfl, rfl⟩
  | wake alive =>
    show (Protocol.next s (.wake c id)).semRqAvail = _ ∧ (Protocol.next s (.wake c id)).daemon = _
    by_cases hpid : s.pidDaemon = none
    · rw [show Protocol.next s (.wake c id) = _ from if_pos hpid]
      exact ⟨rfl, rfl⟩
    · rw [show Protocol.next s (.wake c id) = _ from if_neg hpid]
      exact ⟨rfl, rfl⟩
  | signal q data => exact absurd rfl (hmv q data)
  | _ => exact ⟨rfl, rfl⟩

/-- A move other than the signal. -/
theorem Attached.next (h : Attached s c d p) (hafter : p.after mv = some p') (hmv : mv.Succeeds)
    (hsignal : p' ≠ .waiting) :
    Attached (Protocol.next s (mv.action c (number s c))) c d p' := by
  obtain ⟨hready, -⟩ := h.ready hafter hmv
  obtain ⟨id, hpc⟩ := h.client
  obtain ⟨-, id', hclient⟩ := enabled_of_after hpc hafter hready
  obtain ⟨hmapped, hpid, -⟩ := Machine.next_move s c mv
  have hmv' (q : Request) (data : Memory) : mv ≠ .signal q data := by
    rintro rfl
    exact hsignal (Shape.waiting_of_after_signal hafter)
  obtain ⟨havail, hdaemon⟩ := next_move_daemon s c (number s c) hmv'
  refine ⟨⟨id', ?_⟩, hpid.trans h.pid, hmapped.trans h.mapped, fun hp' => ?_,
    havail.trans h.avail, (congrFun hdaemon d).trans h.daemon, fun h => absurd h hsignal⟩
  · rw [hclient, Function.update_self]
  · rcases hp' with hp' | hp' | rfl
    · obtain ⟨rfl, rfl⟩ := Shape.enter_of_after hafter (Or.inl hp')
      exact h.lock (Or.inl rfl)
    · obtain ⟨rfl, rfl⟩ := Shape.enter_of_after hafter (Or.inr hp')
      exact h.lock (Or.inl rfl)
    · obtain ⟨-, rfl⟩ := Shape.release_of_after hafter
      rfl

/-- Behind the signal the daemon serves the request. -/
theorem Attached.signal (h : Attached s c d .armed) (q : Request) (data : Memory) :
    Legal Orderly (Protocol.next s ((Move.signal q data).action c (number s c))) (serviceOf d) ∧
      Attached (runActions (Protocol.next s ((Move.signal q data).action c (number s c)))
        (serviceOf d)) c d .waiting := by
  obtain ⟨id, hpc⟩ := h.client
  have hpid := h.pid
  constructor
  · simp [serviceOf, Legal, Enabled, Orderly, Move.action, Protocol.next, State.setClient,
      State.setDaemon, State.execute, hpid, h.daemon]
  · refine ⟨⟨number s c, ?_⟩, ?_, ?_, ?_, ?_, ?_, ?_⟩ <;>
      simp [serviceOf, runActions, Move.action, Protocol.next, State.setClient, State.setDaemon,
        State.execute, hpid, h.mapped, Shape.pc]

end Attached

namespace Machine

variable {m : Machine δ C D S} {c : C} {d : D} {p p' : Shape} {th : Thread δ} {mv : Move}
  {rest : List Move}

/-- Some actions of daemons, one after the other. -/
def acts (serve : Shared δ → Shared δ) (fresh : Shared δ) (m : Machine δ C D S)
    (as : List (Action C D S)) : Machine δ C D S :=
  as.foldl (act serve fresh .NO_ERROR) m

theorem protocol_acts (m : Machine δ C D S) (as : List (Action C D S)) :
    (m.acts serve fresh as).protocol = runActions m.protocol as := by
  induction as generalizing m with
  | nil => rfl
  | cons a as ih => exact ih _

theorem thread_acts (m : Machine δ C D S) (as : List (Action C D S)) :
    (m.acts serve fresh as).thread = m.thread := by
  induction as generalizing m with
  | nil => rfl
  | cons a as ih => exact ih _

theorem reaches_acts {m : Machine δ C D S} {as : List (Action C D S)}
    (hclient : ∀ a ∈ as, a.client = none) (h : Legal Orderly m.protocol as) :
    Transition.Reaches (Step serve fresh Orderly) m (m.acts serve fresh as) := by
  induction as generalizing m with
  | nil => exact .refl
  | cons a as ih =>
    rw [List.forall_mem_cons] at hclient
    exact .head (.act m a .NO_ERROR hclient.1 h.1 h.2.1) (ih hclient.2 h.2.2)

omit [DecidableEq C] [DecidableEq D] [DecidableEq S] in
/-- A call is answered when it ends. -/
theorem answeredAfter_eq (h : Attached m.protocol c d p) (hafter : p.after mv = some p') :
    m.answeredAfter th mv = if p' = .done then m.answered ++ [th.call] else m.answered := by
  by_cases hdone : p' = .done
  · subst hdone
    obtain ⟨-, rfl⟩ := Shape.release_of_after hafter
    rw [if_pos rfl, answeredAfter, h.pid]
  · rw [if_neg hdone]
    cases mv with
    | release => exact absurd (Shape.done_of_after_release hafter) hdone
    | _ => rfl

end Machine

section Attached

variable {m : Machine δ C D S} {c : C} {d : D} {p p' : Shape} {th : Thread δ} {mv : Move}
  {rest : List Move} (serve fresh)

/-- The thread goes on, and the daemon serves its request when it has signalled. -/
theorem Attached.step (h : Attached m.protocol c d p) (hthread : m.thread c = some th)
    (htodo : th.todo = mv :: rest) (hafter : p.after mv = some p') (hmv : mv.Succeeds)
    (hfound : mv = .acquire true → m.Holds th.view) :
    ∃ m', Transition.Reaches (Machine.Step serve fresh Orderly) m m' ∧
      Attached m'.protocol c d p' ∧ m'.thread = Function.update m.thread c
        (some { th with todo := rest, view := mv.view serve th.view }) ∧
      m'.answered = m.answeredAfter th mv ∧
      (p' = .wantLock → m.Holds th.view → m'.Holds th.view) := by
  obtain ⟨hready, hallowed⟩ := h.ready hafter hmv
  have hstep : Machine.Step serve fresh Orderly m (m.move serve c th mv rest) :=
    .move m c th mv rest hthread htodo hready hfound hallowed
  by_cases hsignal : p' = .waiting
  · subst hsignal
    obtain ⟨rfl, q, data, rfl⟩ := Shape.signal_of_after hafter
    obtain ⟨hlegal, hattached⟩ := h.signal q data
    refine ⟨(m.move serve c th (.signal q data) rest).acts serve fresh (serviceOf d),
      .head hstep (Machine.reaches_acts ?_ hlegal), ?_, Machine.thread_acts _ _, rfl,
      fun h => by cases h⟩
    · simp [serviceOf, Action.client]
    · rw [Machine.protocol_acts]
      exact hattached
  · refine ⟨_, .single hstep, h.next hafter hmv hsignal, rfl, rfl, ?_⟩
    rintro rfl hholds
    obtain ⟨-, rfl⟩ := Shape.enter_of_after hafter (Or.inr rfl)
    exact Machine.holds_of_shared (Machine.next_move m.protocol c .enter).1 rfl hholds

/-- The thread makes all its moves. -/
theorem Attached.run {ms : List Move} (h : Attached m.protocol c d p) (hp : p ≠ .done)
    (hthread : m.thread c = some th) (htodo : th.todo = ms) (hlead : p.lead ms = some .done)
    (hmoves : ∀ mv ∈ ms, mv.Succeeds) (hfound : p = .idle ∨ p = .wantLock → m.Holds th.view) :
    ∃ m', Transition.Reaches (Machine.Step serve fresh Orderly) m m' ∧
      Attached m'.protocol c d .done ∧ (∃ th', m'.thread c = some th' ∧ th'.todo = []) ∧
        m'.answered = m.answered ++ [th.call] := by
  induction ms generalizing m p th with
  | nil => exact absurd (Option.some.inj hlead) hp
  | cons mv ms ih =>
    rw [Shape.lead_cons, Option.bind_eq_some_iff] at hlead
    obtain ⟨p', hafter, hlead⟩ := hlead
    rw [List.forall_mem_cons] at hmoves
    have hlock : mv = .acquire true → m.Holds th.view := by
      rintro rfl
      cases p <;> cases hafter
      exact hfound (Or.inr rfl)
    obtain ⟨m₁, hreaches, h₁, hthread₁, hanswered₁, hholds₁⟩ :=
      h.step serve fresh hthread htodo hafter hmoves.1 hlock
    rw [Machine.answeredAfter_eq h hafter] at hanswered₁
    have hself : m₁.thread c = some { th with todo := ms, view := mv.view serve th.view } := by
      rw [hthread₁, Function.update_self]
    by_cases hdone : p' = .done
    · subst hdone
      rw [if_pos rfl] at hanswered₁
      refine ⟨m₁, hreaches, h₁, ⟨_, hself, ?_⟩, hanswered₁⟩
      cases ms with
      | nil => rfl
      | cons mv' ms => cases mv' <;> cases hlead
    · rw [if_neg hdone] at hanswered₁
      have hfound₁ (hbefore : p' = .idle ∨ p' = .wantLock) : m₁.Holds (mv.view serve th.view) := by
        obtain ⟨rfl, rfl⟩ := Shape.enter_of_after hafter hbefore
        exact hholds₁ (Option.some.inj hafter).symm (hfound (Or.inl rfl))
      obtain ⟨m', hrest, h', hthread', hanswered'⟩ :=
        ih h₁ hdone hself rfl hlead hmoves.2 hfound₁
      rw [hanswered₁] at hanswered'
      exact ⟨m', hreaches.trans hrest, h', hthread', hanswered'⟩

end Attached

/-! ### Whole programs -/

/-- A call leaves one thing behind. -/
theorem eq_of_leads {xs : List (DriverCall δ)} {v w w' : Shared δ}
    (h : Transition.Leads (CallStep serve) xs v w)
    (h' : Transition.Leads (CallStep serve) xs v w') : w = w' := by
  induction h with
  | nil => exact Transition.leads_nil_iff.mp h'
  | cons hstep _ ih =>
    obtain ⟨t, hstep', hrest'⟩ := Transition.leads_cons_iff.mp h'
    obtain rfl := hstep.2.2.symm.trans hstep'.2.2
    exact ih hrest'

section Attached

variable {m : Machine δ C D S} {c : C} {d : D} (serve fresh)

/-- Between the calls the buffers are as the calls have left them. -/
theorem Attached.holds (h : Attached m.protocol c d .idle)
    (hrun : Transition.Reaches (Machine.Step serve fresh Orderly) (Machine.start fresh) m)
    {v : Shared δ} (hleads : Transition.Leads (CallStep serve) m.answered fresh v) : m.Holds v := by
  obtain ⟨-, hinv, b, hdata⟩ := Machine.dataOk_of_run hrun
  obtain rfl := eq_of_leads hdata.sequential hleads
  intro d' hd'
  obtain rfl := Option.some.inj (h.mapped.symm.trans hd')
  exact hdata.boundary _ h.pid (hinv.lock_free (h.lock (Or.inl rfl))).1

/-- One more call. -/
theorem Attached.call (h : Attached m.protocol c d .idle) (hthread : m.thread c = none)
    {x : DriverCall δ} (hserve : x.env.serve = serve) (hx : x.Succeeds)
    (hholds : m.Holds x.state.shared) :
    ∃ m', Transition.Reaches (Machine.Step serve fresh Orderly) m m' ∧
      Attached m'.protocol c d .idle ∧ m'.thread c = none ∧ m'.answered = m.answered ++ [x] := by
  have hbegin : Machine.Step serve fresh Orderly m
      { m with thread := Function.update m.thread c (some ⟨x, x.moves, x.state.shared⟩) } :=
    .begin m c x hthread hserve
  obtain ⟨m', hrun, h', ⟨th, hth, htodo⟩, hanswered⟩ :=
    Attached.run serve fresh h (m := { m with
      thread := Function.update m.thread c (some ⟨x, x.moves, x.state.shared⟩) })
      (by decide) (Function.update_self ..) rfl hx.lead_moves hx.moves fun _ => hholds
  refine ⟨{ m' with thread := Function.update m'.thread c none },
    (Relation.ReflTransGen.head hbegin hrun).tail (.finish m' c th hth htodo), ?_,
    Function.update_self .., hanswered⟩
  exact ⟨h'.client, h'.pid, h'.mapped, fun _ => h'.lock (Or.inr (Or.inr rfl)), h'.avail, h'.daemon,
    fun h => by cases h⟩

/-- More calls, one after the other. -/
theorem Attached.calls (h : Attached m.protocol c d .idle) (hthread : m.thread c = none)
    (hrun : Transition.Reaches (Machine.Step serve fresh Orderly) (Machine.start fresh) m)
    {xs : List (DriverCall δ)} (hxs : ∀ x ∈ xs, x.Succeeds) {v w : Shared δ}
    (hbefore : Transition.Leads (CallStep serve) m.answered fresh v)
    (hleads : Transition.Leads (CallStep serve) xs v w) :
    ∃ m' : Machine δ C D S,
      Transition.Reaches (Machine.Step serve fresh Orderly) (Machine.start fresh) m' ∧
        Attached m'.protocol c d .idle ∧ m'.answered = m.answered ++ xs := by
  induction xs generalizing m v with
  | nil => exact ⟨m, hrun, h, (List.append_nil _).symm⟩
  | cons x xs ih =>
    rw [List.forall_mem_cons] at hxs
    obtain ⟨t, hstep, hrest⟩ := Transition.leads_cons_iff.mp hleads
    obtain ⟨hserve, rfl, -⟩ := id hstep
    obtain ⟨m₁, hrun₁, h₁, hthread₁, hanswered₁⟩ :=
      h.call serve fresh hthread hserve hxs.1 (h.holds serve fresh hrun hbefore)
    have hbefore₁ : Transition.Leads (CallStep serve) m₁.answered fresh t := by
      rw [hanswered₁]
      exact hbefore.snoc hstep
    obtain ⟨m', hrun', h', hanswered'⟩ := ih h₁ hthread₁ (hrun.trans hrun₁) hxs.2 hbefore₁ hrest
    exact ⟨m', hrun', h', hanswered'.trans (by rw [hanswered₁, List.append_assoc]; rfl)⟩

end Attached

/-- A daemon can start and wait for a request, no call having been made. -/
theorem exists_attached (serve : Shared δ → Shared δ) (fresh : Shared δ) (c : C) (d : D) :
    ∃ m : Machine δ C D S,
      Transition.Reaches (Machine.Step serve fresh Orderly) (Machine.start fresh) m ∧
        Attached m.protocol c d .idle ∧ m.thread c = none ∧ m.answered = [] := by
  refine ⟨(Machine.start fresh).acts serve fresh [.start d, .started d, .get d],
    Machine.reaches_acts ?_ ?_, ?_, congrFun (Machine.thread_acts _ _) c, rfl⟩
  · simp [Action.client]
  · simp [Legal, Enabled, Orderly, Machine.start, State.start, Protocol.next, State.setDaemon]
  · rw [Machine.protocol_acts]
    refine ⟨⟨0, ?_⟩, ?_, ?_, ?_, ?_, ?_, ?_⟩ <;>
      simp [runActions, Machine.start, State.start, Protocol.next, State.setDaemon, Shape.pc]

/-- A run in which one thread makes the calls. -/
theorem exists_run_of_leads (c : C) (d : D) {xs : List (DriverCall δ)} (hxs : ∀ x ∈ xs, x.Succeeds)
    {w : Shared δ} (hleads : Transition.Leads (CallStep serve) xs fresh w) :
    ∃ m : Machine δ C D S,
      Transition.Reaches (Machine.Step serve fresh Orderly) (Machine.start fresh) m ∧
        Attached m.protocol c d .idle ∧ m.answered = xs := by
  obtain ⟨m₀, hstart, hattached, hthread, hnone⟩ :
      ∃ m : Machine δ C D S, _ := exists_attached serve fresh c d
  have hbefore : Transition.Leads (CallStep serve) m₀.answered fresh fresh := by
    rw [hnone]
    exact .nil fresh
  obtain ⟨m, hrun, hm, hanswered⟩ :=
    hattached.calls serve fresh hthread hstart hxs hbefore hleads
  rw [hnone, List.nil_append] at hanswered
  exact ⟨m, hrun, hm, hanswered⟩

/-- Calls for which the helpers succeed can be made in a row by one thread: the daemon answers each
of them, and what they leave behind is what their code says. -/
theorem sequential_calls_run (c : C) (d : D) {xs : List (DriverCall δ)}
    (hxs : ∀ x ∈ xs, x.Succeeds) {w : Shared δ}
    (hleads : Transition.Leads (CallStep serve) xs fresh w) :
    ∃ m : Machine δ C D S,
      Transition.Reaches (Machine.Step serve fresh Orderly) (Machine.start fresh) m ∧
        m.answered = xs ∧ m.protocol.pidDaemon = some d ∧ m.shared d = w := by
  obtain ⟨m, hrun, hm, hanswered⟩ :
      ∃ m : Machine δ C D S, _ := exists_run_of_leads c d hxs hleads
  refine ⟨m, hrun, hanswered, hm.pid, hm.holds serve fresh hrun ?_ d hm.mapped⟩
  rw [hanswered]
  exact hleads

/-- An `FS_FLUSHBUF` behind another one. -/
def flushAgain : DriverCall Unit := { flushCall with state := flushCall.final }

theorem sequential_calls_run_flushCall : ∃ m : Machine Unit Unit Unit Unit,
    Transition.Reaches (Machine.Step flushCall.env.serve idleState.shared Orderly)
      (Machine.start idleState.shared) m ∧ m.answered = [flushCall, flushAgain] ∧
      m.shared () = flushAgain.final.shared := by
  have hsucceeds : ∀ x ∈ [flushCall, flushAgain], x.Succeeds :=
    List.forall_mem_cons.mpr ⟨⟨rfl, fun _ => rfl, fun _ => rfl, List.mem_of_getLast? rfl⟩,
      List.forall_mem_singleton.mpr ⟨rfl, fun _ => rfl, fun _ => rfl, List.mem_of_getLast? rfl⟩⟩
  have hleads : Transition.Leads (CallStep flushCall.env.serve) [flushCall, flushAgain]
      idleState.shared flushAgain.final.shared :=
    .cons ⟨rfl, rfl, rfl⟩ (.cons ⟨rfl, rfl, rfl⟩ (.nil _))
  have h : ∃ m : Machine Unit Unit Unit Unit, _ := sequential_calls_run () () hsucceeds hleads
  obtain ⟨m, hrun, hanswered, -, hshared⟩ := h
  exact ⟨m, hrun, hanswered, hshared⟩

end Stub

end Isofs
