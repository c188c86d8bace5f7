import Isofs.Stub.ReplyMatching
import Mathlib.Data.Fintype.Basic

/-!
# Stopping the daemon

When the daemon is stopped only while no client is between acquiring `semSerialize` and
setting `semRqDone`, every thread that is blocked in the driver can go on.
-/

namespace Isofs

namespace Protocol

variable {C D S : Type} {s : State C D S}

/-- The client has the exchange buffers but has not set `semRqDone` yet. -/
def ClientPc.isFilling : ClientPc → Bool
  | .filling _ => true
  | _ => false

/-- Steps of a run in which no daemon goes away too early: it is stopped only while no client
is filling the buffers, and no search is undone behind it. -/
def Timely (s : State C D S) : Action C D S → Prop
  | .stop _ => ∀ c, (s.client c).isFilling = false
  | .undo _ _ => s.pidDaemon ≠ none
  | _ => True

/-- The steps that lead out of the driver without an interruption or a daemon. -/
def Draining (_ : State C D S) : Action C D S → Prop
  | .acquire _ => True
  | .signal _ _ => True
  | .wake _ _ => True
  | .finish _ _ => True
  | .release _ => True
  | .acquireStop _ => True
  | .releaseStop _ => True
  | _ => False

/-- Without a daemon, no client waits for a semaphore that nobody clears, and every client and
every thread in `daemonStopped` can get out of the driver. -/
structure NoLostWakeUp [DecidableEq C] [DecidableEq D] [DecidableEq S] (s : State C D S) :
    Prop where
  wakes : s.pidDaemon = none → ∀ c id, s.client c = .waiting id → s.semRqDone = false
  clients : s.pidDaemon = none → ∀ c, ∃ s',
    Transition.Reaches (Step Draining) s s' ∧ s'.client c = .idle
  stops : s.pidDaemon = none → ∀ t, ∃ s',
    Transition.Reaches (Step Draining) s s' ∧ s'.stop t = .idle

/-- The invariant of timely runs. -/
structure StopInvariant (s : State C D S) : Prop where
  owner_client : ∀ c, s.semSerialize = some (.client c) → (s.client c).Inside
  owner_stop : ∀ t, s.semSerialize = some (.stop t) → s.stop t = .unlocking
  done_clear : s.pidDaemon = none → s.semRqDone = false
  not_filling : s.pidDaemon = none → ∀ c, (s.client c).isFilling = false

theorem stopInvariant_start : StopInvariant (State.start : State C D S) where
  owner_client c h := by cases h
  owner_stop t h := by cases h
  done_clear _ := rfl
  not_filling _ _ := rfl

/-- A client that goes on inside keeps the invariant. -/
theorem StopInvariant.setClient [DecidableEq C] (h : StopInvariant s) (c : C) (pc : ClientPc)
    (howner : s.semSerialize = some (.client c) → pc.Inside)
    (hfilling : s.pidDaemon = none → pc.isFilling = false) : StopInvariant (s.setClient c pc) where
  owner_client c' hc' := by
    rw [State.setClient_client]
    by_cases hcc : c' = c
    · subst hcc
      rw [Function.update_self]
      exact howner hc'
    · rw [Function.update_of_ne hcc]
      exact h.owner_client c' hc'
  owner_stop := h.owner_stop
  done_clear := h.done_clear
  not_filling hpid c' := by
    rw [State.setClient_client]
    by_cases hcc : c' = c
    · rw [hcc, Function.update_self]
      exact hfilling hpid
    · rw [Function.update_of_ne hcc]
      exact h.not_filling hpid c'

/-- A client goes on, and with it the lock may be acquired or released. -/
theorem StopInvariant.setClientLock [DecidableEq C] (h : StopInvariant s) (c : C) (pc : ClientPc)
    {l : Option (Owner C S)} (hl : l = none ∨ l = some (.client c) ∧ pc.Inside)
    (hfilling : s.pidDaemon = none → pc.isFilling = false) :
    StopInvariant ({ s with semSerialize := l }.setClient c pc) where
  owner_client c' hc' := by
    have hl' : l = some (.client c') := hc'
    rcases hl with rfl | ⟨rfl, hpc⟩
    · cases hl'
    · obtain rfl : c = c' := by simpa using hl'
      rw [State.setClient_client, Function.update_self]
      exact hpc
  owner_stop t ht := by
    have hl' : l = some (.stop t) := ht
    rcases hl with rfl | ⟨rfl, -⟩ <;> cases hl'
  done_clear := h.done_clear
  not_filling hpid c' := by
    rw [State.setClient_client]
    by_cases hcc : c' = c
    · rw [hcc, Function.update_self]
      exact hfilling hpid
    · rw [Function.update_of_ne hcc]
      exact h.not_filling hpid c'

/-- A thread in `daemonStopped` goes on, and with it the lock may be acquired or released. -/
theorem StopInvariant.setStopLock [DecidableEq S] (h : StopInvariant s) (t : S) (pc : StopPc)
    {l : Option (Owner C S)} (hl : l = none ∨ l = some (.stop t) ∧ pc = .unlocking) :
    StopInvariant ({ s with semSerialize := l }.setStop t pc) where
  owner_client c hc := by
    have hl' : l = some (.client c) := hc
    rcases hl with rfl | ⟨rfl, -⟩ <;> cases hl'
  owner_stop t' ht' := by
    have hl' : l = some (.stop t') := ht'
    rcases hl with rfl | ⟨rfl, rfl⟩
    · cases hl'
    · obtain rfl : t = t' := by simpa using hl'
      simp [State.setStop]
  done_clear := h.done_clear
  not_filling := h.not_filling

/-- A thread in `daemonStopped` that does not hold the lock goes on. -/
theorem StopInvariant.setStop [DecidableEq S] (h : StopInvariant s) (t : S) (pc : StopPc)
    (ht : s.stop t ≠ .unlocking) : StopInvariant (s.setStop t pc) where
  owner_client := h.owner_client
  owner_stop t' ht' := by
    have hunlocking := h.owner_stop t' ht'
    have htt : t' ≠ t := by
      rintro rfl
      exact ht hunlocking
    simp only [State.setStop, Function.update_of_ne htt]
    exact hunlocking
  done_clear := h.done_clear
  not_filling := h.not_filling

theorem inside_leaving : (ClientPc.leaving).Inside := Or.inr rfl

/-- A client that holds the lock is not outside. -/
theorem StopInvariant.not_owner (h : StopInvariant s) {c : C} {pc : ClientPc}
    (hc : s.client c = pc) (hpc : ¬ pc.Inside) : s.semSerialize ≠ some (.client c) := by
  intro hlock
  have hinside := h.owner_client c hlock
  rw [hc] at hinside
  exact hpc hinside

/-- A step that leaves the lock, the clients and the threads in `daemonStopped` alone. -/
theorem StopInvariant.of_same (h : StopInvariant s) {s' : State C D S}
    (hlock : s'.semSerialize = s.semSerialize) (hclient : s'.client = s.client)
    (hstop : s'.stop = s.stop)
    (hpid : s'.pidDaemon = none →
      s.pidDaemon = none ∧ (s.semRqDone = false → s'.semRqDone = false)) :
    StopInvariant s' where
  owner_client c hc := by
    rw [hclient]
    exact h.owner_client c (hlock ▸ hc)
  owner_stop t ht := by
    rw [hstop]
    exact h.owner_stop t (hlock ▸ ht)
  done_clear hne := (hpid hne).2 (h.done_clear (hpid hne).1)
  not_filling hne := hclient ▸ h.not_filling (hpid hne).1

variable [DecidableEq C] [DecidableEq D] [DecidableEq S]

/-- A timely step keeps the invariant. -/
theorem StopInvariant.step (h : StopInvariant s) {s' : State C D S} (hstep : Step Timely s s') :
    StopInvariant s' := by
  obtain ⟨a, hen, hall, rfl⟩ := hstep
  have hreq : ∀ {pc : ClientPc} {id : ℕ}, pc.request = some id → pc.Inside := inside_of_request
  cases a with
  | enter c =>
    exact h.setClient c .wantLock (fun hl => absurd hl (h.not_owner hen.1 not_inside_idle))
      fun _ => rfl
  | interruptRequest c =>
    exact h.setClient c .idle (fun hl => absurd hl (h.not_owner hen not_inside_wantLock))
      fun _ => rfl
  | acquire c =>
    rw [next]
    split
    · exact h.setClientLock c .leaving (Or.inr ⟨rfl, inside_leaving⟩) fun _ => rfl
    · next hpid =>
      have hlocked := h.setClientLock c (.filling s.nextId) (Or.inr ⟨rfl, hreq rfl⟩)
        fun hne => absurd hne hpid
      exact hlocked.of_same rfl rfl rfl fun hne => ⟨hne, fun hd => hd⟩
  | write c id => exact h.of_same rfl rfl rfl fun hne => ⟨hne, fun hd => hd⟩
  | giveUp c id => exact h.setClient c .leaving (fun _ => inside_leaving) fun _ => rfl
  | arm c id =>
    -- a request is only written while a daemon is known
    have hpid : s.pidDaemon ≠ none := by
      intro hne
      have hnot := h.not_filling hne c
      rw [show s.client c = .filling id from hen] at hnot
      cases hnot
    exact (h.setClient c (.armed id) (fun _ => hreq rfl) fun _ => rfl).of_same rfl rfl rfl
      fun hne => absurd hne hpid
  | signal c id =>
    exact (h.setClient c (.waiting id) (fun _ => hreq rfl) fun _ => rfl).of_same rfl rfl rfl
      fun hne => ⟨hne, fun hd => hd⟩
  | wake c id =>
    rw [next]
    split
    · exact h.setClient c .leaving (fun _ => inside_leaving) fun _ => rfl
    · exact h.setClient c (.reading id) (fun _ => hreq rfl) fun _ => rfl
  | interruptWait c id => exact h.setClient c .leaving (fun _ => inside_leaving) fun _ => rfl
  | undo c id =>
    exact (h.setClient c (.filling s.nextId) (fun _ => hreq rfl)
      fun hne => absurd hne hall).of_same rfl rfl rfl fun hne => ⟨hne, fun hd => hd⟩
  | finish c id => exact h.setClient c .leaving (fun _ => inside_leaving) fun _ => rfl
  | release c => exact h.setClientLock c .idle (Or.inl rfl) fun _ => rfl
  | start d => exact h.of_same rfl rfl rfl fun hne => by cases hne
  | started d =>
    refine ⟨fun c hc => ?_, fun t ht => ?_, h.done_clear, h.not_filling⟩
    · cases hc
    · cases ht
  | get d =>
    rw [next]
    split <;> exact h.of_same rfl rfl rfl fun hne => ⟨hne, fun hd => hd⟩
  | wakeDaemon d => exact h.of_same rfl rfl rfl fun hne => ⟨hne, fun hd => hd⟩
  | interruptGet d => exact h.of_same rfl rfl rfl fun hne => ⟨hne, fun hd => hd⟩
  | setAvail d => exact h.of_same rfl rfl rfl fun hne => ⟨hne, fun hd => hd⟩
  | handle d => exact h.of_same rfl rfl rfl fun hne => ⟨hne, fun hd => hd⟩
  | refuse d => exact h.of_same rfl rfl rfl fun hne => ⟨hne, fun hd => hd⟩
  | done d =>
    rw [next]
    split
    · exact h.of_same rfl rfl rfl fun hne => ⟨hne, fun _ => rfl⟩
    · exact h.of_same rfl rfl rfl fun hne => ⟨hne, fun hd => hd⟩
  | quit d => exact h.of_same rfl rfl rfl fun hne => ⟨hne, fun hd => hd⟩
  | stop t =>
    -- here the process identifier is cleared, and `hall` says that no request is on its way
    have hidle : s.stop t ≠ .unlocking := by simp [show s.stop t = .idle from hen]
    have hnext := h.setStop t .requesting hidle
    exact ⟨hnext.owner_client, hnext.owner_stop, fun _ => rfl, fun _ => hall⟩
  | acquireStop t => exact h.setStopLock t .unlocking (Or.inr ⟨rfl, rfl⟩)
  | interruptStop t =>
    exact h.setStop t .idle (by simp [show s.stop t = .requesting from hen])
  | releaseStop t => exact h.setStopLock t .idle (Or.inl rfl)

/-! ### Getting out of the driver -/

/-- From `s` the client `c` gets out, to `s'`, and nothing else moves. -/
structure Drained (s : State C D S) (c : C) (s' : State C D S) : Prop where
  reaches : Transition.Reaches (Step Draining) s s'
  client : s'.client = Function.update s.client c .idle
  stop : s'.stop = s.stop
  lock : s'.semSerialize = none
  pid : s'.pidDaemon = none

/-- A step of the client on its way out. -/
theorem Drained.head {s₁ s' : State C D S} {c : C} {pc : ClientPc} (h : Drained s₁ c s')
    (hstep : Step Draining s s₁) (hclient : s₁.client = Function.update s.client c pc)
    (hstop : s₁.stop = s.stop) : Drained s c s' where
  reaches := Relation.ReflTransGen.head hstep h.reaches
  client := by rw [h.client, hclient, Function.update_idem]
  stop := h.stop.trans hstop
  lock := h.lock
  pid := h.pid

theorem exists_drained_of_leaving (hpid : s.pidDaemon = none) {c : C}
    (hc : s.client c = .leaving) : ∃ s', Drained s c s' :=
  ⟨next s (.release c), Relation.ReflTransGen.single ⟨.release c, hc, trivial, rfl⟩, rfl, rfl, rfl,
    hpid⟩

theorem exists_drained_of_waiting (hpid : s.pidDaemon = none) (hdone : s.semRqDone = false) {c : C}
    {id : ℕ} (hc : s.client c = .waiting id) : ∃ s', Drained s c s' := by
  have hnext : next s (.wake c id) = s.setClient c .leaving := by rw [next, if_pos hpid]
  obtain ⟨s', hs'⟩ := @exists_drained_of_leaving C D S (s.setClient c .leaving) _ _ _ hpid c
    (by simp)
  exact ⟨s', hs'.head ⟨.wake c id, ⟨hc, hdone⟩, trivial, hnext.symm⟩ rfl rfl⟩

/-- Without a daemon, a client inside gets out by itself. -/
theorem exists_drained (h : StopInvariant s) (hpid : s.pidDaemon = none) {c : C}
    (hc : (s.client c).Inside) : ∃ s', Drained s c s' := by
  have hdone := h.done_clear hpid
  cases hcl : s.client c with
  | idle => exact absurd (hcl ▸ hc) not_inside_idle
  | wantLock => exact absurd (hcl ▸ hc) not_inside_wantLock
  | filling id =>
    have hnot := h.not_filling hpid c
    rw [hcl] at hnot
    cases hnot
  | armed id =>
    obtain ⟨s', hs'⟩ := @exists_drained_of_waiting C D S
      ({ s with semRqAvail := false }.setClient c (.waiting id)) _ _ _ hpid hdone c id (by simp)
    exact ⟨s', hs'.head ⟨.signal c id, hcl, trivial, rfl⟩ rfl rfl⟩
  | waiting id => exact exists_drained_of_waiting hpid hdone hcl
  | reading id =>
    obtain ⟨s', hs'⟩ := @exists_drained_of_leaving C D S (s.setClient c .leaving) _ _ _ hpid c
      (by simp)
    exact ⟨s', hs'.head ⟨.finish c id, hcl, trivial, rfl⟩ rfl rfl⟩
  | leaving => exact exists_drained_of_leaving hpid hcl

/-- Without a daemon, the lock gets free, and nobody outside of it moves. -/
theorem exists_lock_free (h : StopInvariant s) (hpid : s.pidDaemon = none) :
    ∃ s', Transition.Reaches (Step Draining) s s' ∧ s'.semSerialize = none ∧ s'.pidDaemon = none ∧
      (∀ c, ¬ (s.client c).Inside → s'.client c = s.client c) ∧
      ∀ t, s.stop t ≠ .unlocking → s'.stop t = s.stop t := by
  cases hlock : s.semSerialize with
  | none => exact ⟨s, Relation.ReflTransGen.refl, hlock, hpid, fun _ _ => rfl, fun _ _ => rfl⟩
  | some owner =>
    cases owner with
    | client c =>
      have hc := h.owner_client c hlock
      obtain ⟨s', hs'⟩ := exists_drained h hpid hc
      refine ⟨s', hs'.reaches, hs'.lock, hs'.pid, fun c' hc' => ?_, fun t _ => by rw [hs'.stop]⟩
      have hcc : c' ≠ c := by
        rintro rfl
        exact hc' hc
      rw [hs'.client, Function.update_of_ne hcc]
    | stop t =>
      have ht := h.owner_stop t hlock
      refine ⟨next s (.releaseStop t),
        Relation.ReflTransGen.single ⟨.releaseStop t, ht, trivial, rfl⟩, rfl, hpid, fun _ _ => rfl,
        fun t' ht' => ?_⟩
      have htt : t' ≠ t := by
        rintro rfl
        exact ht' ht
      simp [next, State.setStop, htt]

theorem exists_client_idle (h : StopInvariant s) (hpid : s.pidDaemon = none) (c : C) :
    ∃ s', Transition.Reaches (Step Draining) s s' ∧ s'.client c = .idle := by
  by_cases hc : (s.client c).Inside
  · obtain ⟨s', hs'⟩ := exists_drained h hpid hc
    exact ⟨s', hs'.reaches, by rw [hs'.client, Function.update_self]⟩
  by_cases hidle : s.client c = .idle
  · exact ⟨s, Relation.ReflTransGen.refl, hidle⟩
  have hwant : s.client c = .wantLock := by
    cases hcl : s.client c <;> simp_all [ClientPc.Inside, ClientPc.request]
  -- the thread gets the lock, finds no daemon, and gives the lock back
  obtain ⟨s₁, hreach, hfree, hpid₁, hclient, -⟩ := exists_lock_free h hpid
  have hnext : next s₁ (.acquire c) =
      { s₁ with semSerialize := some (.client c) }.setClient c .leaving := by
    rw [next, if_pos hpid₁]
  have hstep : Step Draining s₁
      ({ s₁ with semSerialize := some (.client c) }.setClient c .leaving) :=
    ⟨.acquire c, ⟨(hclient c hc).trans hwant, hfree⟩, trivial, hnext.symm⟩
  obtain ⟨s', hs'⟩ := @exists_drained_of_leaving C D S
    ({ s₁ with semSerialize := some (.client c) }.setClient c .leaving) _ _ _ hpid₁ c (by simp)
  refine ⟨s', (hreach.tail hstep).trans hs'.reaches, ?_⟩
  rw [hs'.client, Function.update_self]

theorem exists_stop_idle (h : StopInvariant s) (hpid : s.pidDaemon = none) (t : S) :
    ∃ s', Transition.Reaches (Step Draining) s s' ∧ s'.stop t = .idle := by
  have hrelease : ∀ s : State C D S, s.stop t = .unlocking →
      ∃ s', Transition.Reaches (Step Draining) s s' ∧ s'.stop t = .idle := fun s ht =>
    ⟨next s (.releaseStop t), Relation.ReflTransGen.single ⟨.releaseStop t, ht, trivial, rfl⟩,
      by simp [next, State.setStop]⟩
  cases ht : s.stop t with
  | idle => exact ⟨s, Relation.ReflTransGen.refl, ht⟩
  | unlocking => exact hrelease s ht
  | requesting =>
    obtain ⟨s₁, hreach, hfree, -, -, hstop⟩ := exists_lock_free h hpid
    have hstep : Step Draining s₁ (next s₁ (.acquireStop t)) :=
      ⟨.acquireStop t, ⟨(hstop t (by simp [ht])).trans ht, hfree⟩, trivial, rfl⟩
    obtain ⟨s', hs', hidle⟩ := hrelease (next s₁ (.acquireStop t)) (by simp [next, State.setStop])
    exact ⟨s', (hreach.tail hstep).trans hs', hidle⟩

/-- In every state of a timely run, no wake-up is lost. -/
theorem no_lost_wake_up_of_timely
    (h : Transition.Reaches (Step Timely) (State.start : State C D S) s) : NoLostWakeUp s := by
  have hinv := Transition.invariant_of_step (Step Timely) (fun _ _ hs hstep => hs.step hstep) h
    stopInvariant_start
  exact ⟨fun hpid _ _ _ => hinv.done_clear hpid, exists_client_idle hinv, exists_stop_idle hinv⟩

instance [Fintype C] (s : State C D S) (a : Action C D S) : Decidable (Timely s a) :=
  match a with
  | .stop _ => inferInstanceAs (Decidable (∀ c, (s.client c).isFilling = false))
  | .undo _ _ => inferInstanceAs (Decidable (s.pidDaemon ≠ none))
  | .enter _ | .interruptRequest _ | .acquire _ | .write _ _ | .giveUp _ _ | .arm _ _
  | .signal _ _ | .wake _ _ | .interruptWait _ _ | .finish _ _ | .release _ | .start _
  | .started _ | .get _ | .wakeDaemon _ | .interruptGet _ | .setAvail _ | .handle _ | .refuse _
  | .done _ | .quit _ | .acquireStop _ | .interruptStop _ | .releaseStop _ =>
    inferInstanceAs (Decidable True)

/-- The daemon is stopped while a client waits for it and another one wants the lock. -/
def stoppedDaemon : List (Action Bool Unit Unit) :=
  [.start (), .started (), .get (), .enter true, .enter false, .acquire true, .arm true 0,
    .signal true 0, .stop ()]

theorem no_lost_wake_up_stoppedDaemon : NoLostWakeUp (runActions State.start stoppedDaemon) :=
  no_lost_wake_up_of_timely (reaches_runActions (by decide))

/-- The daemon is stopped while a client is filling the exchange buffers. -/
def stoppedTooEarly : List (Action Unit Unit Unit) :=
  [.start (), .started (), .get (), .enter (), .acquire (), .stop (), .arm () 0, .signal () 0]

/-- The client waits for a semaphore that no daemon clears. -/
theorem wake_up_lost : ∃ s : State Unit Unit Unit,
    Transition.Reaches (Step Any) State.start s ∧ ¬ NoLostWakeUp s := by
  refine ⟨runActions State.start stoppedTooEarly, reaches_runActions (by decide), fun h => ?_⟩
  have hclear := h.wakes rfl () 0 rfl
  revert hclear
  decide

end Protocol

end Isofs
