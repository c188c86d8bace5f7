import Isofs.Stub.Machine

/-!
# Calls are atomic

In an orderly run the calls that the daemon has been there for are as if each had run by itself,
one after the other, the daemon working when it is signalled: this is what the model of a single
call takes for granted.
-/

namespace Isofs

namespace Stub

open Protocol

variable {δ C D S : Type} {serve : Shared δ → Shared δ} {fresh : Shared δ}

/-- A call by itself: what it finds in the buffers and in the daemon, and what it leaves there. -/
def CallStep (serve : Shared δ → Shared δ) (x : DriverCall δ) (v w : Shared δ) : Prop :=
  x.env.serve = serve ∧ x.state.shared = v ∧ x.final.shared = w

/-- What the thread at `pc` knows of the buffers that the driver points to: `holds v` says that they
and their daemon are `v`. -/
def HolderData (serve : Shared δ → Shared δ) (holds : Shared δ → Prop) (executed : ℕ → ℕ)
    (alive : Prop) (th : Thread δ) : ClientPc → Prop
  | .filling _ => holds th.view
  | .armed _ => holds th.view
  | .waiting id =>
    (executed id = 0 → holds th.view) ∧ (executed id = 1 → holds (serve th.view))
  | .reading _ => holds th.view
  | .leaving => alive → holds th.call.final.shared
  | _ => True

section HolderData

variable {holds holds' : Shared δ → Prop} {executed executed' : ℕ → ℕ} {alive alive' : Prop}
  {th : Thread δ} {pc : ClientPc}

theorem HolderData.mono (h : HolderData serve holds executed alive th pc)
    (hholds : ∀ v, holds v → holds' v) (hexecuted : ∀ id, pc = .waiting id →
      executed' id = executed id) (halive : alive' → alive) :
    HolderData serve holds' executed' alive' th pc := by
  cases pc with
  | filling => exact hholds _ h
  | armed => exact hholds _ h
  | waiting id =>
    refine ⟨fun h0 => hholds _ (h.1 ?_), fun h1 => hholds _ (h.2 ?_)⟩
    · rw [← hexecuted id rfl, h0]
    · rw [← hexecuted id rfl, h1]
  | reading => exact hholds _ h
  | leaving => exact fun hl => hholds _ (h (halive hl))
  | _ => trivial

theorem holderData_of_not_inside (h : ¬ pc.Inside) :
    HolderData serve holds executed alive th pc := by
  cases pc with
  | idle => trivial
  | wantLock => trivial
  | leaving => exact absurd (Or.inr rfl) h
  | _ => exact absurd (Or.inl (Option.some_ne_none _)) h

end HolderData

namespace Machine

/-- The calls answered so far lead from fresh buffers to `b`, where the buffers and the daemon are
whenever no thread has the buffers. -/
structure DataOk (serve : Shared δ → Shared δ) (fresh : Shared δ) (m : Machine δ C D S)
    (b : Shared δ) : Prop where
  sequential : Transition.Leads (CallStep serve) m.answered fresh b
  boundary : ∀ d, m.protocol.pidDaemon = some d → (∀ c, ¬ (m.protocol.client c).Inside) →
    m.shared d = b
  found : ∀ c th, m.thread c = some th → (m.protocol.client c).Inside →
    m.protocol.pidDaemon ≠ none → th.call.state.shared = b
  holder : ∀ c th, m.thread c = some th → HolderData serve m.Holds m.protocol.executed
    (m.protocol.pidDaemon ≠ none) th (m.protocol.client c)

theorem dataOk_start : (start fresh : Machine δ C D S).DataOk serve fresh fresh where
  sequential := .nil _
  boundary d h := by cases h
  found c th h := by cases h
  holder c th h := by cases h

/-- A step that leaves the buffers, and the threads that have them, as they are. -/
theorem DataOk.frame {m m' : Machine δ C D S} {b : Shared δ} (h : m.DataOk serve fresh b)
    (hanswered : m'.answered = m.answered) (hshared : m'.shared = m.shared)
    (hmapped : m'.protocol.mapped = m.protocol.mapped)
    (hexecuted : m'.protocol.executed = m.protocol.executed)
    (hpid : ∀ d, m'.protocol.pidDaemon = some d → m.protocol.pidDaemon = some d)
    (hinside : ∀ c, (m'.protocol.client c).Inside ↔ (m.protocol.client c).Inside)
    (hthread : ∀ c th, m'.thread c = some th → (m'.protocol.client c).Inside →
      m.thread c = some th ∧ m'.protocol.client c = m.protocol.client c) :
    m'.DataOk serve fresh b := by
  have halive (hne : m'.protocol.pidDaemon ≠ none) : m.protocol.pidDaemon ≠ none := by
    obtain ⟨d, hd⟩ := Option.ne_none_iff_exists'.mp hne
    rw [hpid d hd]
    exact Option.some_ne_none d
  constructor
  · rw [hanswered]
    exact h.sequential
  · intro d hd hnone
    rw [hshared]
    exact h.boundary d (hpid d hd) fun c hc => hnone c ((hinside c).mpr hc)
  · intro c th hth hin hne
    exact h.found c th (hthread c th hth hin).1 ((hinside c).mp hin) (halive hne)
  · intro c th hth
    by_cases hin : (m'.protocol.client c).Inside
    · obtain ⟨hth', hclient⟩ := hthread c th hth hin
      rw [hclient]
      refine (h.holder c th hth').mono (fun v hv d hd => ?_)
        (fun _ _ => congrFun hexecuted _) halive
      rw [hshared]
      exact hv d (hmapped ▸ hd)
    · exact holderData_of_not_inside hin

variable [DecidableEq C] [DecidableEq D] [DecidableEq S]

/-- The moves of a client leave what the daemons have alone. -/
theorem next_of_client {s : State C D S} {a : Action C D S} (ha : a.client ≠ none) :
    (next s a).mapped = s.mapped ∧ (next s a).pidDaemon = s.pidDaemon ∧
      (next s a).executed = s.executed := by
  cases a with
  | acquire c =>
    by_cases hpid : s.pidDaemon = none
    · rw [show next s (.acquire c) = _ from if_pos hpid]
      exact ⟨rfl, rfl, rfl⟩
    · rw [show next s (.acquire c) = _ from if_neg hpid]
      exact ⟨rfl, rfl, rfl⟩
  | wake c id =>
    by_cases hpid : s.pidDaemon = none
    · rw [show next s (.wake c id) = _ from if_pos hpid]
      exact ⟨rfl, rfl, rfl⟩
    · rw [show next s (.wake c id) = _ from if_neg hpid]
      exact ⟨rfl, rfl, rfl⟩
  | _ => first | exact ⟨rfl, rfl, rfl⟩ | exact absurd rfl ha

/-! ### Moves of a thread -/

variable {m : Machine δ C D S} {b b' : Shared δ} {c : C} {th : Thread δ} {mv : Move}
  {rest : List Move}

theorem next_move (s : State C D S) (c : C) (mv : Move) :
    (next s (mv.action c (number s c))).mapped = s.mapped ∧
      (next s (mv.action c (number s c))).pidDaemon = s.pidDaemon ∧
      (next s (mv.action c (number s c))).executed = s.executed := by
  refine next_of_client ?_
  cases mv <;> exact Option.some_ne_none c

omit [DecidableEq C] [DecidableEq D] [DecidableEq S] in
theorem holds_of_shared {w : Shared δ} {m' : Machine δ C D S}
    (hmapped : m'.protocol.mapped = m.protocol.mapped) (hshared : m'.shared = m.shared)
    (h : m.Holds w) : m'.Holds w := by
  intro d hd
  rw [hshared]
  exact h d (hmapped ▸ hd)

omit [DecidableEq C] [DecidableEq S] in
/-- What is written to the buffers is what they hold then; the daemon does not change. -/
theorem holds_of_put {v w : Shared δ} {m' : Machine δ C D S}
    (hmapped : m'.protocol.mapped = m.protocol.mapped)
    (hshared : m'.shared = m.put w.pRequest w.pFSData) (hdaemon : v.daemon = w.daemon)
    (h : m.Holds v) : m'.Holds w := by
  intro d hd
  rw [hmapped] at hd
  rw [hshared, put, hd]
  dsimp only
  rw [Function.update_self, h d hd, hdaemon]

/-- A move while no other client is inside. -/
theorem dataOk_move (pc : ClientPc)
    (hclient : (next m.protocol (mv.action c (number m.protocol c))).client =
      Function.update m.protocol.client c pc)
    (hsole : ∀ c', c' ≠ c → ¬ (m.protocol.client c').Inside)
    (hseq : Transition.Leads (CallStep serve) (m.answeredAfter th mv) fresh b')
    (hboundary : ¬ pc.Inside → ∀ d, m.protocol.pidDaemon = some d → m.sharedAfter th mv d = b')
    (hfound : pc.Inside → m.protocol.pidDaemon ≠ none → th.call.state.shared = b')
    (hholder : HolderData serve (m.move serve c th mv rest).Holds m.protocol.executed
      (m.protocol.pidDaemon ≠ none)
      { th with todo := rest, view := mv.view serve th.view } pc) :
    (m.move serve c th mv rest).DataOk serve fresh b' := by
  obtain ⟨-, hpid, hexecuted⟩ := next_move m.protocol c mv
  have hclient' : (m.move serve c th mv rest).protocol.client =
      Function.update m.protocol.client c pc := hclient
  have hpid' : (m.move serve c th mv rest).protocol.pidDaemon = m.protocol.pidDaemon := hpid
  have hexecuted' : (m.move serve c th mv rest).protocol.executed = m.protocol.executed := hexecuted
  have hself : (m.move serve c th mv rest).thread c =
      some { th with todo := rest, view := mv.view serve th.view } := Function.update_self ..
  constructor
  · exact hseq
  · intro d hd hnone
    have hpc := hnone c
    rw [hclient', Function.update_self] at hpc
    exact hboundary hpc d (hpid'.symm.trans hd)
  · intro c' th' hth' hinside halive
    rw [hpid'] at halive
    rw [hclient'] at hinside
    by_cases hc : c' = c
    · subst hc
      rw [Function.update_self] at hinside
      rw [hself] at hth'
      obtain rfl := Option.some.inj hth'
      exact hfound hinside halive
    · rw [Function.update_of_ne hc] at hinside
      exact absurd hinside (hsole c' hc)
  · intro c' th' hth'
    rw [hpid', hexecuted', hclient']
    by_cases hc : c' = c
    · subst hc
      rw [hself] at hth'
      obtain rfl := Option.some.inj hth'
      rw [Function.update_self]
      exact hholder
    · rw [Function.update_of_ne hc]
      exact holderData_of_not_inside (hsole c' hc)

/-- A move of the client that has the buffers, after which it still has them. -/
theorem DataOk.goOn (h : m.DataOk serve fresh b) (hinv : Invariant m.protocol)
    (hthread : m.thread c = some th) (hbefore : (m.protocol.client c).Inside) (pc : ClientPc)
    (hpc : pc.Inside) (hanswered : m.answeredAfter th mv = m.answered)
    (hclient : (next m.protocol (mv.action c (number m.protocol c))).client =
      Function.update m.protocol.client c pc)
    (hholder : HolderData serve (m.move serve c th mv rest).Holds m.protocol.executed
      (m.protocol.pidDaemon ≠ none)
      { th with todo := rest, view := mv.view serve th.view } pc) :
    (m.move serve c th mv rest).DataOk serve fresh b := by
  refine dataOk_move pc hclient (fun c' hc => hinv.not_inside (Or.inr (hinv.lock c hbefore)) hc) ?_
    (fun hnot => absurd hpc hnot) (fun _ => h.found c th hthread hbefore) hholder
  rw [hanswered]
  exact h.sequential

/-- A client that waits for the lock has not touched anything. -/
theorem DataOk.enter (h : m.DataOk serve fresh b) (hidle : m.protocol.client c = .idle) :
    (m.move serve c th .enter rest).DataOk serve fresh b := by
  have hother {c' : C} (hc : c' ≠ c) :
      (m.move serve c th .enter rest).protocol.client c' = m.protocol.client c' :=
    Function.update_of_ne hc ..
  have hself : (m.move serve c th .enter rest).protocol.client c = .wantLock :=
    Function.update_self ..
  refine h.frame rfl rfl rfl rfl (fun _ hd => hd) ?_ ?_
  · intro c'
    by_cases hc : c' = c
    · subst hc
      rw [hself, hidle]
      exact iff_of_false not_inside_wantLock not_inside_idle
    · rw [hother hc]
  · intro c' th' hth' hinside
    by_cases hc : c' = c
    · subst hc
      rw [hself] at hinside
      exact absurd hinside not_inside_wantLock
    · exact ⟨(Function.update_of_ne hc _ m.thread).symm.trans hth', hother hc⟩

/-- The client that gets the lock finds what the calls answered so far have left. -/
theorem DataOk.acquire (h : m.DataOk serve fresh b) (hinv : Invariant m.protocol) {alive : Bool}
    (hok : th.Ok serve .wantLock) (hready : Ready m.protocol (.acquire alive))
    (hfound : alive = true → m.Holds th.view) :
    (m.move serve c th (.acquire alive) rest).DataOk serve fresh b := by
  obtain ⟨hmapped, -⟩ := next_move m.protocol c (.acquire alive)
  have hsole (c' : C) (_ : c' ≠ c) := (hinv.lock_free hready.1).1 c'
  cases alive with
  | true =>
    have halive := hready.2.mp rfl
    refine dataOk_move (.filling m.protocol.nextId) ?_ hsole h.sequential
      (fun hnot => absurd (inside_of_request rfl) hnot) (fun _ hne => ?_)
      (holds_of_shared hmapped rfl (hfound rfl))
    · refine (next_acquire_client m.protocol c).trans ?_
      rw [if_neg halive]
    · obtain ⟨d, hd⟩ := Option.ne_none_iff_exists'.mp hne
      rw [← hok.found (Or.inr rfl), ← hfound rfl d (hinv.pid_mapped d hd)]
      exact h.boundary d hd (hinv.lock_free hready.1).1
  | false =>
    have hdead := not_not.mp fun hne => Bool.false_ne_true (hready.2.mpr hne)
    refine dataOk_move .leaving ?_ hsole h.sequential (fun hnot => absurd (Or.inr rfl) hnot)
      (fun _ hne => absurd hdead hne) fun hne => absurd hdead hne
    refine (next_acquire_client m.protocol c).trans ?_
    rw [if_pos hdead]

/-- A client that wakes up while the daemon is there finds its request served. -/
theorem DataOk.wake (h : m.DataOk serve fresh b) (hinv : Invariant m.protocol)
    (hthread : m.thread c = some th) {alive : Bool} {id : ℕ}
    (hpc : m.protocol.client c = .waiting id) (hready : Ready m.protocol (.wake alive)) :
    (m.move serve c th (.wake alive) rest).DataOk serve fresh b := by
  obtain ⟨hmapped, -⟩ := next_move m.protocol c (.wake alive)
  have hdata := h.holder c th hthread
  have hholder := hinv.holder c
  rw [hpc] at hdata hholder
  have hbefore : (m.protocol.client c).Inside := hpc ▸ inside_of_request rfl
  have hnumber : number m.protocol c = id := by
    rw [number, hpc]
    rfl
  have hclient := next_wake_client m.protocol c (number m.protocol c)
  cases alive with
  | true =>
    have hanswered := (hholder.2.2 hready.1 (hready.2.mp rfl)).2
    refine h.goOn hinv hthread hbefore (.reading id) (inside_of_request rfl) rfl
      (hclient.trans ?_) (holds_of_shared hmapped rfl (hdata.2 hanswered.1))
    rw [if_neg (hready.2.mp rfl), hnumber]
  | false =>
    have hdead := not_not.mp fun hne => Bool.false_ne_true (hready.2.mpr hne)
    refine h.goOn hinv hthread hbefore .leaving (Or.inr rfl) rfl (hclient.trans ?_)
      fun hne => absurd hdead hne
    rw [if_pos hdead]

/-- The client that gives the lock back leaves what its call has made of the buffers: it is the
next of the sequential run. -/
theorem DataOk.release (h : m.DataOk serve fresh b) (hinv : Invariant m.protocol)
    (hthread : m.thread c = some th) (hok : th.Ok serve .leaving)
    (hpc : m.protocol.client c = .leaving) :
    ∃ b', (m.move serve c th .release rest).DataOk serve fresh b' := by
  have hdata := h.holder c th hthread
  rw [hpc] at hdata
  have hbefore : (m.protocol.client c).Inside := hpc ▸ Or.inr rfl
  have hsole (c' : C) (hc : c' ≠ c) := hinv.not_inside (Or.inr (hinv.lock c hbefore)) hc
  cases hattached : m.protocol.pidDaemon with
  | none =>
    refine ⟨b, dataOk_move .idle rfl hsole ?_ (fun _ d hd => ?_)
      (fun hin => absurd hin not_inside_idle) trivial⟩
    · rw [answeredAfter, hattached]
      exact h.sequential
    · rw [hattached] at hd
      cases hd
  | some d =>
    have halive : m.protocol.pidDaemon ≠ none := by
      rw [hattached]
      exact Option.some_ne_none d
    refine ⟨th.call.final.shared, dataOk_move .idle rfl hsole ?_ (fun _ d' hd => ?_)
      (fun hin => absurd hin not_inside_idle) trivial⟩
    · rw [answeredAfter, hattached]
      exact h.sequential.snoc ⟨hok.works, h.found c th hthread hbefore halive, rfl⟩
    · exact hdata halive d' (hinv.pid_mapped d' hd)

/-- An orderly move. -/
theorem DataOk.move (h : m.DataOk serve fresh b) (hinv : Invariant m.protocol)
    (hthreads : m.Threads serve) (hthread : m.thread c = some th) (htodo : th.todo = mv :: rest)
    (hready : Ready m.protocol mv) (hfound : mv = .acquire true → m.Holds th.view)
    (hallowed : Orderly m.protocol (mv.action c (number m.protocol c))) :
    ∃ b', (m.move serve c th mv rest).DataOk serve fresh b' := by
  obtain ⟨p, id, hpc, hok⟩ := (hthreads c).2 th hthread
  obtain ⟨p', hafter, hok'⟩ := hok.step htodo
  obtain ⟨hmapped, hpid, hexecuted⟩ := next_move m.protocol c mv
  have hdata := h.holder c th hthread
  rw [hpc] at hdata
  have hnumber (hrequest : (p.pc id).request = some id) : number m.protocol c = id := by
    rw [number, hpc, hrequest]
    rfl
  have hinside (hp : (p.pc id).Inside) : (m.protocol.client c).Inside := hpc ▸ hp
  cases mv with
  | enter =>
    cases p <;> cases hafter
    exact ⟨b, h.enter hpc⟩
  | acquire alive =>
    cases p <;> cases hafter
    exact ⟨b, h.acquire hinv hok hready fun halive => hfound (congrArg _ halive)⟩
  | write =>
    cases p <;> cases hafter
    refine ⟨b, h.goOn hinv hthread (hinside (inside_of_request rfl)) (.filling id)
      (inside_of_request rfl) rfl ?_ (holds_of_shared hmapped rfl hdata)⟩
    rw [← show m.protocol.client c = .filling id from hpc, Function.update_eq_self]
    rfl
  | giveUp =>
    cases p <;> cases hafter
    refine ⟨b, h.goOn hinv hthread (hinside (inside_of_request rfl)) .leaving (Or.inr rfl) rfl rfl
      fun _ => ?_⟩
    exact holds_of_put hmapped rfl hok'.daemon_of_leaving hdata
  | arm =>
    cases p <;> cases hafter
    refine ⟨b, h.goOn hinv hthread (hinside (inside_of_request rfl)) (.armed id)
      (inside_of_request rfl) rfl ?_ (holds_of_shared hmapped rfl hdata)⟩
    rw [hnumber rfl]
    rfl
  | signal q data =>
    cases p <;> cases hafter
    have hexecuted₀ : m.protocol.executed id = 0 := by
      have hholder := hinv.holder c
      rw [hpc] at hholder
      exact hholder.2.2.1
    refine ⟨b, h.goOn hinv hthread (hinside (inside_of_request rfl)) (.waiting id)
      (inside_of_request rfl) rfl ?_ ⟨fun _ =>
        holds_of_put (v := th.view) hmapped rfl rfl hdata, fun hone => ?_⟩⟩
    · rw [hnumber rfl]
      rfl
    · rw [hexecuted₀] at hone
      cases hone
  | wake alive =>
    cases p <;> cases hafter
    exact ⟨b, h.wake hinv hthread hpc hready⟩
  | interruptWait => exact hallowed.elim
  | undo =>
    cases p <;> cases hafter
    refine ⟨b, h.goOn hinv hthread (hinside (inside_of_request rfl)) (.filling m.protocol.nextId)
      (inside_of_request rfl) rfl rfl (holds_of_shared hmapped rfl hdata)⟩
  | finish =>
    cases p <;> cases hafter
    refine ⟨b, h.goOn hinv hthread (hinside (inside_of_request rfl)) .leaving (Or.inr rfl) rfl rfl
      fun _ => ?_⟩
    exact holds_of_put hmapped rfl hok'.daemon_of_leaving hdata
  | release =>
    cases p <;> cases hafter
    exact h.release hinv hthread hok hpc

/-! ### Daemons and the threads that stop them -/

/-- The action changes what the driver or a daemon has in the exchange buffers. -/
def Touches : Action C D S → Prop
  | .start _ => True
  | .handle _ => True
  | .refuse _ => True
  | _ => False

theorem next_of_not_touches {s : State C D S} {a : Action C D S} (ha : a.client = none)
    (htouches : ¬ Touches a) :
    (next s a).mapped = s.mapped ∧ (next s a).executed = s.executed ∧
      ∀ d, (next s a).pidDaemon = some d → s.pidDaemon = some d := by
  cases a with
  | start d => exact absurd trivial htouches
  | handle d => exact absurd trivial htouches
  | refuse d => exact absurd trivial htouches
  | get d =>
    by_cases hpid : s.pidDaemon = some d
    · rw [show next s (.get d) = _ from if_pos hpid]
      exact ⟨rfl, rfl, fun _ hd => hd⟩
    · rw [show next s (.get d) = _ from if_neg hpid]
      exact ⟨rfl, rfl, fun _ hd => hd⟩
  | done d =>
    by_cases hpid : s.pidDaemon = some d
    · rw [show next s (.done d) = _ from if_pos hpid]
      exact ⟨rfl, rfl, fun _ hd => hd⟩
    · rw [show next s (.done d) = _ from if_neg hpid]
      exact ⟨rfl, rfl, fun _ hd => hd⟩
  | stop t => exact ⟨rfl, rfl, fun _ hd => by cases hd⟩
  | _ => first | exact absurd ha (Option.some_ne_none _) | exact ⟨rfl, rfl, fun _ hd => hd⟩

theorem dataOk_start_daemon (hinv : Invariant m.protocol) {d : D}
    (hfree : m.protocol.semSerialize = none) (rc : ApiRet) :
    (m.act serve fresh rc (.start d)).DataOk serve fresh fresh := by
  have hnot (c : C) : ¬ ((m.act serve fresh rc (.start d)).protocol.client c).Inside :=
    (hinv.lock_free hfree).1 c
  refine ⟨.nil _, fun d' hd' _ => ?_, fun c th _ hin => absurd hin (hnot c),
    fun c th _ => holderData_of_not_inside (hnot c)⟩
  obtain rfl : d = d' := Option.some.inj hd'
  exact Function.update_self ..

/-- The daemon works for the client that waits, or for nobody. -/
theorem DataOk.handle (h : m.DataOk serve fresh b) (hinv : Invariant m.protocol) {d : D}
    (hd : m.protocol.daemon d = .executing) (rc : ApiRet) :
    (m.act serve fresh rc (.handle d)).DataOk serve fresh b := by
  have hshared : (m.act serve fresh rc (.handle d)).shared =
      Function.update m.shared d (serve (m.shared d)) := rfl
  have hexecuted : (m.act serve fresh rc (.handle d)).protocol.executed =
      (m.protocol.execute d).executed := rfl
  have hother {d' : D} (hd' : d' ≠ d) :
      (m.act serve fresh rc (.handle d)).shared d' = m.shared d' := by
    rw [hshared, Function.update_of_ne hd']
  by_cases hmapped : m.protocol.mapped = some d
  · -- somebody waits for this daemon
    have hcalm := not_calm_of_busy hmapped (Or.inr (Or.inl hd))
    refine ⟨h.sequential, fun d' hd' hnone => ?_, h.found, fun c th hth => ?_⟩
    · exact absurd (hinv.outside (fun c => request_eq_none_of_not_inside (hnone c))
        (hd' ▸ Option.some_ne_none d')) hcalm
    · have hok := hinv.holder c
      have hdata := h.holder c th hth
      show HolderData serve _ _ _ th (m.protocol.client c)
      cases hc : m.protocol.client c with
      | filling id =>
        rw [hc] at hok
        exact absurd hok.2.1 hcalm
      | armed id =>
        rw [hc] at hok
        exact absurd hok.2.1 hcalm
      | waiting id =>
        rw [hc] at hok hdata
        obtain ⟨hplaced, hpending | hhandled, -⟩ := hok
        · obtain ⟨-, d₀, hd₀, hreq, -⟩ := hplaced
          obtain rfl : d = d₀ := Option.some.inj (hmapped.symm.trans hd₀)
          have hone : (m.protocol.execute d).executed id = 1 := by
            simp [State.execute, hreq, hpending.1]
          refine ⟨fun hzero => ?_, fun _ d' hd' => ?_⟩
          · rw [hexecuted, hone] at hzero
            cases hzero
          · obtain rfl : d = d' := Option.some.inj (hmapped.symm.trans hd')
            rw [hshared, Function.update_self, hdata.1 hpending.1 d hmapped]
        · exact absurd hd (hhandled.2.2 d hmapped).2
      | reading id =>
        rw [hc] at hok
        exact absurd hok.2.1 hcalm
      | leaving =>
        intro hne
        refine absurd (hinv.outside (fun c' => ?_) hne) hcalm
        by_cases hcc : c' = c
        · rw [hcc, hc]
          rfl
        · have hinside : (m.protocol.client c).Inside := Or.inr hc
          exact request_eq_none_of_not_inside
            (hinv.not_inside (Or.inr (hinv.lock c hinside)) hcc)
      | _ => trivial
  · -- the buffers of another daemon are in use
    refine ⟨h.sequential, fun d' hd' hnone => ?_, h.found, fun c th hth => ?_⟩
    · rw [hother]
      · exact h.boundary d' hd' hnone
      · rintro rfl
        exact hmapped (hinv.pid_mapped _ hd')
    · refine (h.holder c th hth).mono (fun v hv d' hd' => ?_) (fun id hid => ?_) fun hne => hne
      · rw [hother]
        · exact hv d' hd'
        · rintro rfl
          exact hmapped hd'
      · have hok := hinv.holder c
        rw [hid] at hok
        obtain ⟨-, d', hd', -, huniq⟩ := hok.1
        refine execute_executed fun hreq => ?_
        rw [huniq d hreq] at hmapped
        exact hmapped hd'

/-- An orderly action of a daemon, or of a thread that stops it. -/
theorem DataOk.act (h : m.DataOk serve fresh b) (hinv : Invariant m.protocol)
    {a : Action C D S} (ha : a.client = none) (henabled : Enabled m.protocol a)
    (hallowed : Orderly m.protocol a) (rc : ApiRet) :
    ∃ b', (m.act serve fresh rc a).DataOk serve fresh b' := by
  have hclient := next_client_of_other (s := m.protocol) ha
  have hframe (htouches : ¬ Touches a) (hshared : (m.act serve fresh rc a).shared = m.shared)
      (hanswered : (m.act serve fresh rc a).answered = m.answered) :
      (m.act serve fresh rc a).DataOk serve fresh b := by
    obtain ⟨hmapped, hexecuted, hpid⟩ := next_of_not_touches (s := m.protocol) ha htouches
    exact h.frame hanswered hshared hmapped hexecuted hpid
      (fun c => iff_of_eq (congrArg ClientPc.Inside (congrFun hclient c)))
      fun c th hth _ => ⟨hth, congrFun hclient c⟩
  cases a with
  | start d => exact ⟨fresh, dataOk_start_daemon hinv hallowed rc⟩
  | handle d => exact ⟨b, h.handle hinv henabled rc⟩
  | refuse d => exact hallowed.elim
  | started d => exact ⟨b, hframe id rfl rfl⟩
  | get d => exact ⟨b, hframe id rfl rfl⟩
  | wakeDaemon d => exact ⟨b, hframe id rfl rfl⟩
  | interruptGet d => exact ⟨b, hframe id rfl rfl⟩
  | setAvail d => exact ⟨b, hframe id rfl rfl⟩
  | done d => exact ⟨b, hframe id rfl rfl⟩
  | quit d => exact ⟨b, hframe id rfl rfl⟩
  | stop t => exact ⟨b, hframe id rfl rfl⟩
  | acquireStop t => exact ⟨b, hframe id rfl rfl⟩
  | interruptStop t => exact ⟨b, hframe id rfl rfl⟩
  | releaseStop t => exact ⟨b, hframe id rfl rfl⟩
  | _ => cases ha

/-! ### Runs -/

/-- What an orderly step keeps. -/
theorem Step.dataOk {m' : Machine δ C D S} (hstep : Step serve fresh Orderly m m')
    (hthreads : m.Threads serve) (hinv : Invariant m.protocol) (h : m.DataOk serve fresh b) :
    ∃ b', m'.DataOk serve fresh b' := by
  cases hstep with
  | begin c x hthread hserve =>
    refine ⟨b, h.frame rfl rfl rfl rfl (fun _ hd => hd) (fun _ => Iff.rfl)
      fun c' th' hth' hinside => ⟨?_, rfl⟩⟩
    by_cases hc : c' = c
    · rw [hc, (hthreads c).1 hthread] at hinside
      exact absurd hinside not_inside_idle
    · exact (Function.update_of_ne hc _ m.thread).symm.trans hth'
  | move c th mv rest hthread htodo hready hfound hallowed =>
    exact h.move hinv hthreads hthread htodo hready hfound hallowed
  | finish c th hthread htodo =>
    refine ⟨b, h.frame rfl rfl rfl rfl (fun _ hd => hd) (fun _ => Iff.rfl)
      fun c' th' hth' hinside => ⟨?_, rfl⟩⟩
    by_cases hc : c' = c
    · rw [hc, client_of_todo_nil hthreads hthread htodo] at hinside
      exact absurd hinside not_inside_idle
    · exact (Function.update_of_ne hc _ m.thread).symm.trans hth'
  | act a rc ha henabled hallowed => exact h.act hinv ha henabled hallowed rc

/-- What an orderly run keeps. -/
theorem dataOk_of_run {m : Machine δ C D S}
    (hrun : Transition.Reaches (Step serve fresh Orderly) (start fresh) m) :
    m.Threads serve ∧ Invariant m.protocol ∧ ∃ b, m.DataOk serve fresh b := by
  induction hrun with
  | refl => exact ⟨threads_start, invariant_start, fresh, dataOk_start⟩
  | tail _ hstep ih =>
    obtain ⟨hthreads, hinv, b, hdata⟩ := ih
    obtain ⟨hthreads', hprotocol⟩ := hstep.threads hthreads
    refine ⟨hthreads', ?_, hstep.dataOk hthreads hinv hdata⟩
    rcases hprotocol with heq | hnext
    · rw [heq]
      exact hinv
    · exact hinv.step hnext

end Machine

/-- In an orderly run the calls answered by a daemon are those of a sequential run from fresh
buffers: each has found what the one before has left, and the daemon has worked for it alone. While
a thread fills the buffers, or reads the answer, they hold what its code takes them to hold. -/
theorem calls_atomic [DecidableEq C] [DecidableEq D] [DecidableEq S] {m : Machine δ C D S}
    (hrun : Transition.Reaches (Machine.Step serve fresh Orderly) (Machine.start fresh) m) :
    (∃ b, Transition.Leads (CallStep serve) m.answered fresh b ∧
      (∀ d, m.protocol.pidDaemon = some d → (∀ c, ¬ (m.protocol.client c).Inside) →
        m.shared d = b) ∧
      ∀ c th, m.thread c = some th → (m.protocol.client c).Inside →
        m.protocol.pidDaemon ≠ none → th.call.state.shared = b) ∧
    ∀ c th id, m.thread c = some th →
      m.protocol.client c = .filling id ∨ m.protocol.client c = .reading id → m.Holds th.view := by
  obtain ⟨-, -, b, h⟩ := Machine.dataOk_of_run hrun
  refine ⟨⟨b, h.sequential, h.boundary, h.found⟩, fun c th id hth hpc => ?_⟩
  have hdata := h.holder c th hth
  rcases hpc with hpc | hpc
  · rw [hpc] at hdata
    exact hdata
  · rw [hpc] at hdata
    exact hdata

/-! ### One call -/

/-- An `FS_FLUSHBUF` when all goes well. -/
def flushCall : DriverCall Unit where
  env := quietEnv fun _ => .NO_ERROR
  state := idleState
  call := .fsFlushBuf 0 0
  sound := trivial
  clears _ := rfl

theorem moves_flushCall : ∃ q data, flushCall.moves =
    [.enter, .acquire true, .write, .arm, .signal q data, .wake true, .finish, .release] :=
  ⟨_, _, rfl⟩

/-- A thread makes the call, and the daemon works for it. -/
theorem flushCall_runs : ∃ m : Machine Unit Unit Unit Unit,
    Transition.Reaches (Machine.Step flushCall.env.serve idleState.shared Orderly)
      (Machine.start idleState.shared) m ∧ m.answered = [flushCall] := by
  have hshared : idleState.shared = flushCall.state.shared := rfl
  obtain ⟨q, data, hmoves⟩ := moves_flushCall
  generalize flushCall = x at hmoves hshared ⊢
  have halive : true = true ↔ some () ≠ none := iff_of_true rfl (Option.some_ne_none _)
  refine ⟨_, .head (.act _ (.start ()) .NO_ERROR rfl ⟨rfl, rfl⟩ rfl) <|
    .head (.act _ (.started ()) .NO_ERROR rfl rfl rfl) <|
    .head (.act _ (.get ()) .NO_ERROR rfl rfl trivial) <|
    .head (.begin _ () x rfl rfl) <|
    .head (.move _ () _ .enter _ rfl hmoves (Option.some_ne_none _) (fun h => by cases h)
      trivial) <|
    .head (.move _ () _ (.acquire true) _ rfl rfl ⟨rfl, halive⟩ (fun _ _ _ => hshared) trivial) <|
    .head (.move _ () _ .write _ rfl rfl trivial (fun h => by cases h) trivial) <|
    .head (.move _ () _ .arm _ rfl rfl trivial (fun h => by cases h) trivial) <|
    .head (.move _ () _ (.signal q data) _ rfl rfl trivial (fun h => by cases h) trivial) <|
    .head (.act _ (.wakeDaemon ()) .NO_ERROR rfl ⟨rfl, rfl⟩ trivial) <|
    .head (.act _ (.setAvail ()) .NO_ERROR rfl rfl trivial) <|
    .head (.act _ (.handle ()) .NO_ERROR rfl rfl trivial) <|
    .head (.act _ (.done ()) .NO_ERROR rfl rfl trivial) <|
    .head (.move _ () _ (.wake true) _ rfl rfl ⟨rfl, halive⟩ (fun h => by cases h) trivial) <|
    .head (.move _ () _ .finish _ rfl rfl trivial (fun h => by cases h) trivial) <|
    .head (.move _ () _ .release _ rfl rfl trivial (fun h => by cases h) trivial) <|
    .refl, rfl⟩

theorem calls_atomic_flushCall : ∃ m : Machine Unit Unit Unit Unit, m.answered = [flushCall] ∧
    ∃ b, Transition.Leads (CallStep flushCall.env.serve) m.answered idleState.shared b := by
  obtain ⟨m, hrun, hanswered⟩ := flushCall_runs
  obtain ⟨⟨b, hleads, -⟩, -⟩ := calls_atomic hrun
  exact ⟨m, hanswered, b, hleads⟩

end Stub

end Isofs
