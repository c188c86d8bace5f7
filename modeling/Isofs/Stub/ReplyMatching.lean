import Isofs.Stub.Protocol

/-!
# Replies and their requests

When no wait for `semRqDone` is interrupted, a daemon gets its own mutex, and daemons are
started only while nobody holds `semSerialize`, every reply that a client reads is that of
its own request, which has been executed once.
-/

namespace Isofs

namespace Protocol

variable {C D S : Type} {s : State C D S}

/-- The number of the request that a client has placed and not yet done with. -/
def ClientPc.request : ClientPc → Option ℕ
  | .filling id => some id
  | .armed id => some id
  | .waiting id => some id
  | .reading id => some id
  | _ => none

/-- Between acquiring and releasing `semSerialize`. -/
def ClientPc.Inside (pc : ClientPc) : Prop := pc.request ≠ none ∨ pc = .leaving

/-- The daemon has taken a request and not yet given it back. -/
def DaemonPc.Busy (pc : DaemonPc) : Prop := pc = .got ∨ pc = .executing ∨ pc = .handled

/-- Every reply that is read belongs to the request of its reader, which has been executed
exactly once, and nobody writes to buffers that a daemon works on. -/
structure RepliesMatch (s : State C D S) : Prop where
  reading : ∀ c id, s.client c = .reading id →
    s.executed id = 1 ∧ ∃ d, s.mapped = some d ∧ (s.buffers d).reply = some id
  writing : ∀ c id d, s.client c = .filling id → s.mapped = some d →
    s.daemon d ≠ .executing ∧ s.daemon d ≠ .handled

/-- Steps of a run in which nothing gets lost: no wait for `semRqDone` is interrupted, a daemon
gets its own mutex, and a daemon is started only while nobody holds `semSerialize`. -/
def Orderly (s : State C D S) : Action C D S → Prop
  | .interruptWait _ _ => False
  | .refuse _ => False
  | .start _ => s.semSerialize = none
  | .started _ => s.semSerialize = none
  | _ => True

/-! ### The invariant -/

/-- No request is on its way to the daemon, or back. -/
def Calm (s : State C D S) : Prop :=
  s.semRqAvail = true ∧ ∀ d, s.mapped = some d → ¬ (s.daemon d).Busy

/-- Request `id` is in the buffers that the driver points to, and in no others. -/
def Placed (s : State C D S) (id : ℕ) : Prop :=
  id < s.nextId ∧ ∃ d, s.mapped = some d ∧ (s.buffers d).request = some id ∧
    ∀ d', (s.buffers d').request = some id → d' = d

/-- Request `id` has been executed once, and its result is in the buffers. -/
def Answered (s : State C D S) (id : ℕ) : Prop :=
  s.executed id = 1 ∧ ∃ d, s.mapped = some d ∧ (s.buffers d).reply = some id

/-- Request `id` has not been executed yet. -/
def Pending (s : State C D S) (id : ℕ) : Prop :=
  s.executed id = 0 ∧ ∀ d, s.mapped = some d →
    s.daemon d ≠ .handled ∧ (s.daemon d = .executing → s.semRqAvail = true)

/-- Request `id` has been executed, and nobody takes it again. -/
def Handled (s : State C D S) (id : ℕ) : Prop :=
  Answered s id ∧ s.semRqAvail = true ∧ ∀ d, s.mapped = some d →
    s.daemon d ≠ .got ∧ s.daemon d ≠ .executing

/-- What holds while a client is at `pc`. -/
def HolderOk (s : State C D S) : ClientPc → Prop
  | .filling id => Placed s id ∧ Calm s ∧ s.executed id = 0
  | .armed id =>
    Placed s id ∧ Calm s ∧ s.executed id = 0 ∧ (s.semRqDone = false → s.pidDaemon = none)
  | .waiting id =>
    Placed s id ∧ (Pending s id ∨ Handled s id) ∧
      (s.semRqDone = false → s.pidDaemon ≠ none → Calm s ∧ Answered s id)
  | .reading id => Placed s id ∧ Calm s ∧ Answered s id
  | _ => True

/-- The invariant of orderly runs. -/
structure Invariant (s : State C D S) : Prop where
  lock : ∀ c, (s.client c).Inside → s.semSerialize = some (.client c)
  unlocking : ∀ t, s.stop t = .unlocking → s.semSerialize = some (.stop t)
  pid_mapped : ∀ d, s.pidDaemon = some d → s.mapped = some d
  fresh : ∀ id, s.nextId ≤ id → s.executed id = 0 ∧ ∀ d, (s.buffers d).request ≠ some id
  outside : (∀ c, (s.client c).request = none) → s.pidDaemon ≠ none → Calm s
  holder : ∀ c, HolderOk s (s.client c)

theorem Invariant.repliesMatch (h : Invariant s) : RepliesMatch s := by
  constructor
  · intro c id hc
    have hok := h.holder c
    rw [hc] at hok
    exact hok.2.2
  · intro c id d hc hd
    have hok := h.holder c
    rw [hc] at hok
    have hbusy := hok.2.1.2 d hd
    exact ⟨fun he => hbusy (Or.inr (Or.inl he)), fun he => hbusy (Or.inr (Or.inr he))⟩

theorem invariant_start : Invariant (State.start : State C D S) where
  lock c h := by rcases h with h | h <;> simp [State.start, ClientPc.request] at h
  unlocking t h := by cases h
  pid_mapped d h := by cases h
  fresh id _ := ⟨rfl, fun d h => by cases h⟩
  outside _ h := absurd rfl h
  holder c := trivial

/-- While `c` holds the lock, or nobody does, no other client is inside. -/
theorem Invariant.not_inside (h : Invariant s) {c : C}
    (hlock : s.semSerialize = none ∨ s.semSerialize = some (.client c)) {c' : C} (hc : c' ≠ c) :
    ¬ (s.client c').Inside := by
  intro hinside
  have hc' := h.lock c' hinside
  rcases hlock with hl | hl
  · rw [hl] at hc'
    cases hc'
  · rw [hl, Option.some.injEq, Owner.client.injEq] at hc'
    exact hc hc'.symm

/-- Nothing is asked of a client that is outside. -/
theorem holderOk_of_not_inside {pc : ClientPc} (h : ¬ pc.Inside) : HolderOk s pc := by
  cases pc with
  | filling => exact absurd (Or.inl (by simp [ClientPc.request])) h
  | armed => exact absurd (Or.inl (by simp [ClientPc.request])) h
  | waiting => exact absurd (Or.inl (by simp [ClientPc.request])) h
  | reading => exact absurd (Or.inl (by simp [ClientPc.request])) h
  | _ => trivial

/-- With the lock free, nobody is inside and no thread unlocks the buffers. -/
theorem Invariant.lock_free (h : Invariant s) (hfree : s.semSerialize = none) :
    (∀ c, ¬ (s.client c).Inside) ∧ ∀ t, s.stop t ≠ .unlocking := by
  constructor
  · intro c hinside
    rw [h.lock c hinside] at hfree
    cases hfree
  · intro t hunlocking
    rw [h.unlocking t hunlocking] at hfree
    cases hfree

theorem request_eq_none_of_not_inside {pc : ClientPc} (h : ¬ pc.Inside) : pc.request = none := by
  by_contra hne
  exact h (Or.inl hne)

theorem not_inside_idle : ¬ ClientPc.idle.Inside := by
  rintro (h | h)
  · exact h rfl
  · cases h

theorem not_inside_wantLock : ¬ ClientPc.wantLock.Inside := by
  rintro (h | h)
  · exact h rfl
  · cases h

theorem inside_of_request {pc : ClientPc} {id : ℕ} (h : pc.request = some id) : pc.Inside :=
  Or.inl (by simp [h])

/-- No thread unlocks the buffers while a client holds the lock. -/
theorem Invariant.not_unlocking (h : Invariant s) {c : C} (hc : (s.client c).Inside) (t : S) :
    s.stop t ≠ .unlocking := by
  intro ht
  have hlock := h.lock c hc
  rw [h.unlocking t ht] at hlock
  cases hlock

/-! ### Steps of the others -/

/-- What holds of a client survives a step that keeps each part of it. -/
theorem HolderOk.mono {s s' : State C D S} {pc : ClientPc} (hok : HolderOk s pc)
    (hdone : s'.semRqDone = s.semRqDone) (hpid : s'.pidDaemon = s.pidDaemon)
    (hcalm : Calm s → Calm s') (hplaced : ∀ id, Placed s id → Placed s' id)
    (hexecuted : ∀ id, Placed s id → s'.executed id = s.executed id)
    (hanswered : ∀ id, Placed s id → Answered s id → Answered s' id)
    (hpending : ∀ id, Placed s id → Pending s id → Pending s' id)
    (hhandled : ∀ id, Placed s id → Handled s id → Handled s' id) : HolderOk s' pc := by
  cases pc with
  | filling id => exact ⟨hplaced id hok.1, hcalm hok.2.1, (hexecuted id hok.1).trans hok.2.2⟩
  | armed id =>
    refine ⟨hplaced id hok.1, hcalm hok.2.1, (hexecuted id hok.1).trans hok.2.2.1, ?_⟩
    rw [hdone, hpid]
    exact hok.2.2.2
  | waiting id =>
    refine ⟨hplaced id hok.1, hok.2.1.imp (hpending id hok.1) (hhandled id hok.1), ?_⟩
    rw [hdone, hpid]
    intro hrq hne
    obtain ⟨hc, ha⟩ := hok.2.2 hrq hne
    exact ⟨hcalm hc, hanswered id hok.1 ha⟩
  | reading id => exact ⟨hplaced id hok.1, hcalm hok.2.1, hanswered id hok.1 hok.2.2⟩
  | _ => trivial

/-- The buffers in use are not calm while daemon `d` works on them. -/
theorem not_calm_of_busy {d : D} (hd : s.mapped = some d) (hbusy : (s.daemon d).Busy) : ¬ Calm s :=
  fun h => h.2 d hd hbusy

/-- A daemon that goes on without taking a request bothers nobody. -/
theorem Invariant.setDaemon [DecidableEq D] (h : Invariant s) (d : D) {pc : DaemonPc}
    (hpc : ¬ pc.Busy) : Invariant (s.setDaemon d pc) := by
  have hother : ∀ {P : DaemonPc → Prop}, P pc → ∀ d', P (s.daemon d') →
      P ((s.setDaemon d pc).daemon d') := by
    intro P hp d' hd'
    simp only [State.setDaemon]
    by_cases hdd : d' = d
    · rw [hdd, Function.update_self]
      exact hp
    · rw [Function.update_of_ne hdd]
      exact hd'
  have hne : ∀ p, p = DaemonPc.got ∨ p = .executing ∨ p = .handled → pc ≠ p := by
    rintro p hp rfl
    exact hpc hp
  have hcalm : Calm s → Calm (s.setDaemon d pc) := fun hc =>
    ⟨hc.1, fun d' hd' => hother (P := fun p => ¬ p.Busy) hpc d' (hc.2 d' hd')⟩
  refine ⟨h.lock, h.unlocking, h.pid_mapped, h.fresh,
    fun hnone hpid => hcalm (h.outside hnone hpid),
    fun c => (h.holder c).mono rfl rfl hcalm (fun _ hp => hp) (fun _ _ => rfl) (fun _ _ ha => ha)
      (fun id _ hp => ⟨hp.1, fun d' hd' => ?_⟩) fun id _ hp => ⟨hp.1, hp.2.1, fun d' hd' => ?_⟩⟩
  · exact hother (P := fun p => p ≠ .handled ∧ (p = .executing → s.semRqAvail = true))
      ⟨hne _ (by simp), fun he => absurd he (hne _ (by simp))⟩ d' (hp.2 d' hd')
  · exact hother (P := fun p => p ≠ .got ∧ p ≠ .executing)
      ⟨hne _ (by simp), hne _ (by simp)⟩ d' (hp.2.2 d' hd')

/-- While the semaphore `semRqAvail` is clear, or the daemon in use is busy, something holds of a
waiting client only. -/
theorem Invariant.waiting_of_not_calm (h : Invariant s) (hcalm : ¬ Calm s) {s' : State C D S}
    (hclient : s'.client = s.client)
    (hwaiting : ∀ c id, s.client c = .waiting id → Placed s id → Pending s id ∨ Handled s id →
      (s.semRqDone = false → s.pidDaemon = none) → HolderOk s' (.waiting id)) :
    ∀ c, HolderOk s' (s'.client c) := by
  intro c
  have hok := h.holder c
  rw [hclient]
  cases hcl : s.client c with
  | filling id =>
    rw [hcl] at hok
    exact absurd hok.2.1 hcalm
  | armed id =>
    rw [hcl] at hok
    exact absurd hok.2.1 hcalm
  | waiting id =>
    rw [hcl] at hok
    refine hwaiting c id hcl hok.1 hok.2.1 fun hrq => ?_
    by_contra hpid
    exact hcalm (hok.2.2 hrq hpid).1
  | reading id =>
    rw [hcl] at hok
    exact absurd hok.2.1 hcalm
  | _ => trivial

/-- Then some client is waiting, or no daemon runs. -/
theorem Invariant.outside_of_not_calm (h : Invariant s) (hcalm : ¬ Calm s) {P : Prop}
    (hnone : ∀ c, (s.client c).request = none) (hpid : s.pidDaemon ≠ none) : P :=
  absurd (h.outside hnone hpid) hcalm

/-! ### Placing a request -/

/-- A thread that stops the daemon acquires or releases the lock while no client is inside. -/
theorem Invariant.setStop [DecidableEq S] (h : Invariant s) {t : S} {pc : StopPc}
    (l : Option (Owner C S))
    (hout : ∀ c, ¬ (s.client c).Inside) (hself : pc = .unlocking → l = some (.stop t))
    (hothers : ∀ t', t' ≠ t → s.stop t' ≠ .unlocking) :
    Invariant ({ s with semSerialize := l }.setStop t pc) := by
  refine ⟨fun c hc => absurd hc (hout c), fun t' ht' => ?_, h.pid_mapped, h.fresh, h.outside,
    fun c => holderOk_of_not_inside (hout c)⟩
  simp only [State.setStop] at ht'
  by_cases htt : t' = t
  · subst htt
    rw [Function.update_self] at ht'
    exact hself ht'
  · rw [Function.update_of_ne htt] at ht'
    exact absurd ht' (hothers t' htt)

section Executing

variable [DecidableEq D]

/-- A daemon that handles its request leaves the other requests alone. -/
theorem execute_executed {d : D} {id : ℕ} (h : (s.buffers d).request ≠ some id) :
    (s.execute d).executed id = s.executed id := by
  simp only [State.execute]
  cases hreq : (s.buffers d).request with
  | none => rfl
  | some id' =>
    have hne : id ≠ id' := by
      rintro rfl
      exact h hreq
    exact Function.update_of_ne hne _ _

theorem execute_request (d d' : D) :
    ((s.execute d).buffers d').request = (s.buffers d').request := by
  simp only [State.execute]
  by_cases hdd : d' = d
  · rw [hdd, Function.update_self]
  · rw [Function.update_of_ne hdd]

/-- While `d` goes on, the daemon in use stays where it is. -/
theorem setDaemon_of_not_mapped {d : D} (hmapped : s.mapped ≠ some d) (pc : DaemonPc) {d' : D}
    (hd' : s.mapped = some d') : Function.update s.daemon d pc d' = s.daemon d' := by
  have hne : d' ≠ d := by
    rintro rfl
    exact hmapped hd'
  rw [Function.update_of_ne hne]

end Executing

section Placing

variable [DecidableEq D]

/-- Writing to the buffers of `d` places the request there only. -/
theorem place_request {d : D} (hd : s.mapped = some d) (id : ℕ) {d' : D} {id' : ℕ}
    (h : ((s.place id).buffers d').request = some id') :
    (d' = d ∧ id' = id) ∨ (d' ≠ d ∧ (s.buffers d').request = some id') := by
  simp only [State.place, hd] at h
  by_cases hdd : d' = d
  · subst hdd
    rw [Function.update_self] at h
    exact Or.inl ⟨rfl, (Option.some.inj h).symm⟩
  · rw [Function.update_of_ne hdd] at h
    exact Or.inr ⟨hdd, h⟩

theorem place_request_self {d : D} (hd : s.mapped = some d) (id : ℕ) :
    ((s.place id).buffers d).request = some id := by
  simp [State.place, hd]

end Placing

section Clients

variable [DecidableEq C]

@[simp] theorem State.setClient_client (s : State C D S) (c : C) (pc : ClientPc) :
    (s.setClient c pc).client = Function.update s.client c pc := rfl

/-- Where the other clients are does not matter to what holds of one. -/
@[simp] theorem holderOk_setClient (s : State C D S) (c : C) (pc pc' : ClientPc) :
    HolderOk (s.setClient c pc) pc' = HolderOk s pc' := by
  cases pc' <;> rfl

/-- A client goes on without a change of the rest. -/
theorem Invariant.setClient (h : Invariant s) (c : C) (pc : ClientPc)
    (hlock : pc.Inside → s.semSerialize = some (.client c)) (hok : HolderOk s pc)
    (hcalm : pc.request = none → (s.client c).request = none ∨ (s.pidDaemon ≠ none → Calm s)) :
    Invariant (s.setClient c pc) where
  lock c' hinside := by
    by_cases hc : c' = c
    · subst hc
      exact hlock (by simpa using hinside)
    · exact h.lock c' (by simpa [hc] using hinside)
  unlocking := h.unlocking
  pid_mapped := h.pid_mapped
  fresh := h.fresh
  outside hnone hpid := by
    have hpc : pc.request = none := by simpa using hnone c
    rcases hcalm hpc with hc | hc
    · refine h.outside (fun c' => ?_) hpid
      by_cases hcc : c' = c
      · rw [hcc, hc]
      · simpa [hcc] using hnone c'
    · exact hc hpid
  holder c' := by
    rw [holderOk_setClient, State.setClient_client]
    by_cases hc : c' = c
    · rw [hc, Function.update_self]
      exact hok
    · rw [Function.update_of_ne hc]
      exact h.holder c'

/-- A client gives up its request, or is done with it. -/
theorem Invariant.leave (h : Invariant s) {c : C} (hinside : (s.client c).Inside)
    (hcalm : Calm s) : Invariant (s.setClient c .leaving) :=
  h.setClient c .leaving (fun _ => h.lock c hinside) trivial fun _ => Or.inr fun _ => hcalm

/-- The invariant, when no client but `c` can be inside. -/
theorem invariant_of_sole (c : C) (hsole : ∀ c', c' ≠ c → ¬ (s.client c').Inside)
    (hlock : (s.client c).Inside → s.semSerialize = some (.client c))
    (hunlocking : ∀ t, s.stop t = .unlocking → s.semSerialize = some (.stop t))
    (hmapped : ∀ d, s.pidDaemon = some d → s.mapped = some d)
    (hfresh : ∀ id, s.nextId ≤ id → s.executed id = 0 ∧ ∀ d, (s.buffers d).request ≠ some id)
    (hcalm : (s.client c).request = none → s.pidDaemon ≠ none → Calm s)
    (hok : HolderOk s (s.client c)) : Invariant s where
  lock c' hinside := by
    by_cases hc : c' = c
    · subst hc
      exact hlock hinside
    · exact absurd hinside (hsole c' hc)
  unlocking := hunlocking
  pid_mapped := hmapped
  fresh := hfresh
  outside hnone := hcalm (hnone c)
  holder c' := by
    by_cases hc : c' = c
    · subst hc
      exact hok
    · exact holderOk_of_not_inside (hsole c' hc)

/-- What is known of the other clients when `c` goes on to `pc`. -/
theorem Invariant.sole (h : Invariant s) {c : C}
    (hlock : s.semSerialize = none ∨ s.semSerialize = some (.client c)) (pc : ClientPc) :
    ∀ c', c' ≠ c → ¬ (Function.update s.client c pc c').Inside := by
  intro c' hc
  rw [Function.update_of_ne hc]
  exact h.not_inside hlock hc

variable [DecidableEq D]

/-- A client places a request of its own number. -/
theorem Invariant.newRequest (h : Invariant s) (c : C)
    (hlock : s.semSerialize = none ∨ s.semSerialize = some (.client c))
    (hd : ∃ d, s.mapped = some d) (hcalm : Calm s) :
    Invariant ({ s with semSerialize := some (.client c) }.newRequest c) := by
  obtain ⟨d, hd⟩ := hd
  have hnew := h.fresh s.nextId (Nat.le_refl _)
  have hstop : ∀ t, s.stop t ≠ .unlocking := by
    intro t ht
    rcases hlock with hl | hl
    · exact (h.lock_free hl).2 t ht
    · rw [h.unlocking t ht] at hl
      cases hl
  have hpid : ∀ d', s.pidDaemon = some d' → s.mapped = some d' := h.pid_mapped
  refine invariant_of_sole c ?_ (fun _ => rfl) (fun t ht => absurd ht (hstop t)) hpid ?_ ?_ ?_
  · intro c' hc
    simpa [State.newRequest, State.place, hc] using h.not_inside hlock hc
  · intro id hid
    refine ⟨(h.fresh id (Nat.le_of_succ_le hid)).1, fun d' h' => ?_⟩
    rcases place_request hd s.nextId h' with ⟨-, rfl⟩ | ⟨-, h'⟩
    · exact absurd hid (Nat.not_succ_le_self _)
    · exact (h.fresh id (Nat.le_of_succ_le hid)).2 d' h'
  · intro hnone
    simp [State.newRequest, ClientPc.request] at hnone
  · rw [State.newRequest, State.setClient_client, Function.update_self, holderOk_setClient]
    refine ⟨⟨Nat.lt_succ_self _, d, hd, place_request_self hd _, fun d' h' => ?_⟩, hcalm, hnew.1⟩
    rcases place_request hd s.nextId h' with ⟨rfl, -⟩ | ⟨-, h'⟩
    · rfl
    · exact absurd h' (hnew.2 d')

end Clients

section Actions

variable [DecidableEq C] [DecidableEq D] [DecidableEq S]

/-! ### Steps of a client -/

theorem Invariant.acquire (h : Invariant s) {c : C} (hfree : s.semSerialize = none) :
    Invariant (next s (.acquire c)) := by
  have hstop := (h.lock_free hfree).2
  rw [next]
  split
  · next hpid =>
    exact invariant_of_sole c (h.sole (Or.inl hfree) _) (fun _ => rfl)
      (fun t ht => absurd ht (hstop t)) h.pid_mapped h.fresh (fun _ hne => absurd hpid hne)
      (by simp [HolderOk])
  · next hpid =>
    obtain ⟨d, hd⟩ := Option.ne_none_iff_exists'.mp hpid
    exact h.newRequest c (Or.inl hfree) ⟨d, h.pid_mapped d hd⟩ (h.outside
      (fun c' => request_eq_none_of_not_inside ((h.lock_free hfree).1 c')) hpid)

theorem Invariant.write (h : Invariant s) {c : C} {id : ℕ} (hc : s.client c = .filling id) :
    Invariant (next s (.write c id)) := by
  have hok := h.holder c
  rw [hc] at hok
  obtain ⟨⟨-, d, hd, hreq, -⟩, -, -⟩ := hok
  have hsame : s.place id = s := by
    have hself : { s.buffers d with request := some id } = s.buffers d := by rw [← hreq]
    rw [State.place]
    split
    · next d' hd' =>
      obtain rfl : d = d' := Option.some.inj (hd.symm.trans hd')
      rw [hself, Function.update_eq_self]
    · rfl
  rw [next, hsame]
  exact h

theorem Invariant.arm (h : Invariant s) {c : C} {id : ℕ} (hc : s.client c = .filling id) :
    Invariant (next s (.arm c id)) := by
  have hinside : (s.client c).Inside := inside_of_request (by rw [hc]; rfl)
  have hlock := h.lock c hinside
  have hok := h.holder c
  rw [hc] at hok
  refine invariant_of_sole c (h.sole (Or.inr hlock) _) (fun _ => hlock) h.unlocking h.pid_mapped
    h.fresh (by simp [next, ClientPc.request]) ?_
  rw [next, State.setClient_client, Function.update_self, holderOk_setClient]
  exact ⟨hok.1, hok.2.1, hok.2.2, fun h => by cases h⟩

theorem Invariant.signal (h : Invariant s) {c : C} {id : ℕ} (hc : s.client c = .armed id) :
    Invariant (next s (.signal c id)) := by
  have hinside : (s.client c).Inside := inside_of_request (by rw [hc]; rfl)
  have hlock := h.lock c hinside
  have hok := h.holder c
  rw [hc] at hok
  obtain ⟨hplaced, hcalm, hexecuted, hdone⟩ := hok
  refine invariant_of_sole c (h.sole (Or.inr hlock) _) (fun _ => hlock) h.unlocking h.pid_mapped
    h.fresh (by simp [next, ClientPc.request]) ?_
  rw [next, State.setClient_client, Function.update_self, holderOk_setClient]
  refine ⟨hplaced, Or.inl ⟨hexecuted, fun d hd => ?_⟩, fun hrq hpid => absurd (hdone hrq) hpid⟩
  have hbusy := hcalm.2 d hd
  exact ⟨fun he => hbusy (Or.inr (Or.inr he)), fun he => absurd (Or.inr (Or.inl he)) hbusy⟩

theorem Invariant.wake (h : Invariant s) {c : C} {id : ℕ} (hc : s.client c = .waiting id)
    (hdone : s.semRqDone = false) : Invariant (next s (.wake c id)) := by
  have hinside : (s.client c).Inside := inside_of_request (by rw [hc]; rfl)
  have hok := h.holder c
  rw [hc] at hok
  rw [next]
  split
  · next hpid =>
    exact h.setClient c .leaving (fun _ => h.lock c hinside) trivial
      fun _ => Or.inr fun hne => absurd hpid hne
  · next hpid =>
    obtain ⟨hcalm, hanswered⟩ := hok.2.2 hdone hpid
    exact h.setClient c (.reading id) (fun _ => h.lock c hinside) ⟨hok.1, hcalm, hanswered⟩
      (by simp [ClientPc.request])

theorem Invariant.undo (h : Invariant s) {c : C} {id : ℕ} (hc : s.client c = .reading id) :
    Invariant (next s (.undo c id)) := by
  have hinside : (s.client c).Inside := inside_of_request (by rw [hc]; rfl)
  have hlock := h.lock c hinside
  have hok := h.holder c
  rw [hc] at hok
  obtain ⟨⟨-, d, hd, -⟩, hcalm, -⟩ := hok
  have hsame : { s with semSerialize := some (.client c) } = s := by rw [← hlock]
  have hnew := h.newRequest c (Or.inr hlock) ⟨d, hd⟩ hcalm
  rw [hsame] at hnew
  exact hnew

theorem Invariant.release (h : Invariant s) {c : C} (hc : s.client c = .leaving) :
    Invariant (next s (.release c)) := by
  have hinside : (s.client c).Inside := Or.inr hc
  have hlock := h.lock c hinside
  refine invariant_of_sole c (h.sole (Or.inr hlock) _) ?_
    (fun t ht => absurd ht (h.not_unlocking hinside t)) h.pid_mapped h.fresh (fun _ => ?_) ?_
  · rw [next, State.setClient_client, Function.update_self]
    rintro (hne | hne) <;> simp [ClientPc.request] at hne
  · refine h.outside fun c' => ?_
    by_cases hcc : c' = c
    · rw [hcc, hc]
      rfl
    · exact request_eq_none_of_not_inside (h.not_inside (Or.inr hlock) hcc)
  · rw [next, State.setClient_client, Function.update_self, holderOk_setClient]
    trivial

/-! ### Steps of a daemon -/

theorem Invariant.startDaemon (h : Invariant s) {d : D} (hfree : s.semSerialize = none) :
    Invariant (next s (.start d)) := by
  have hout := (h.lock_free hfree).1
  refine ⟨h.lock, h.unlocking, fun d' hd' => hd',
    fun id hid => ⟨(h.fresh id hid).1, fun d' h' => ?_⟩,
    fun _ _ => ⟨rfl, fun d' hd' => ?_⟩, fun c => holderOk_of_not_inside (hout c)⟩
  · simp only [next, State.setDaemon] at h'
    by_cases hdd : d' = d
    · rw [hdd, Function.update_self] at h'
      cases h'
    · rw [Function.update_of_ne hdd] at h'
      exact (h.fresh id hid).2 d' h'
  · obtain rfl : d = d' := Option.some.inj hd'
    simp [next, State.setDaemon, DaemonPc.Busy]

theorem Invariant.started (h : Invariant s) {d : D} (hfree : s.semSerialize = none) :
    Invariant (next s (.started d)) := by
  have hsame : { s with semSerialize := none } = s := by rw [← hfree]
  rw [next, hsame]
  exact h.setDaemon d (by simp [DaemonPc.Busy])

theorem Invariant.get (h : Invariant s) {d : D} : Invariant (next s (.get d)) := by
  rw [next]
  split <;> exact h.setDaemon d (by simp [DaemonPc.Busy])

theorem Invariant.wakeDaemon (h : Invariant s) {d : D} (havail : s.semRqAvail = false) :
    Invariant (next s (.wakeDaemon d)) := by
  have hcalm : ¬ Calm s := fun hc => by simp [hc.1] at havail
  refine ⟨h.lock, h.unlocking, h.pid_mapped, h.fresh, h.outside_of_not_calm hcalm,
    h.waiting_of_not_calm hcalm rfl ?_⟩
  rintro c id - hplaced (hp | hp) hdone
  · refine ⟨hplaced, Or.inl ⟨hp.1, fun d' hd' => ?_⟩, fun hrq hpid => absurd (hdone hrq) hpid⟩
    by_cases hdd : d' = d
    · simp [next, State.setDaemon, hdd]
    · simpa [next, State.setDaemon, hdd] using hp.2 d' hd'
  · rw [hp.2.1] at havail
    cases havail

theorem Invariant.setAvail (h : Invariant s) {d : D} (hd : s.daemon d = .got) :
    Invariant (next s (.setAvail d)) := by
  by_cases hmapped : s.mapped = some d
  · have hcalm := not_calm_of_busy hmapped (Or.inl hd)
    refine ⟨h.lock, h.unlocking, h.pid_mapped, h.fresh, h.outside_of_not_calm hcalm,
      h.waiting_of_not_calm hcalm rfl ?_⟩
    rintro c id - hplaced (hp | hp) hdone
    · refine ⟨hplaced, Or.inl ⟨hp.1, fun d' hd' => ⟨?_, fun _ => rfl⟩⟩,
        fun hrq hpid => absurd (hdone hrq) hpid⟩
      obtain rfl : d = d' := Option.some.inj (hmapped.symm.trans hd')
      simp [next, State.setDaemon]
    · exact absurd hd (hp.2.2 d hmapped).1
  · have hother : ∀ d', s.mapped = some d' →
        (next s (.setAvail d : Action C D S)).daemon d' = s.daemon d' :=
      fun d' hd' => setDaemon_of_not_mapped hmapped _ hd'
    have hcalm : Calm s → Calm (next s (.setAvail d : Action C D S)) := fun hc =>
      ⟨rfl, fun d' hd' => by rw [hother d' hd']; exact hc.2 d' hd'⟩
    refine ⟨h.lock, h.unlocking, h.pid_mapped, h.fresh,
      fun hnone hpid => hcalm (h.outside hnone hpid),
      fun c => (h.holder c).mono rfl rfl hcalm (fun _ hp => hp) (fun _ _ => rfl) (fun _ _ ha => ha)
        (fun id _ hp => ⟨hp.1, fun d' hd' => ?_⟩) fun id _ hp => ⟨hp.1, rfl, fun d' hd' => ?_⟩⟩
    · rw [hother d' hd']
      exact ⟨(hp.2 d' hd').1, fun _ => rfl⟩
    · rw [hother d' hd']
      exact hp.2.2 d' hd'

theorem Invariant.handle (h : Invariant s) {d : D} (hd : s.daemon d = .executing) :
    Invariant (next s (.handle d)) := by
  have hplaced : ∀ id, Placed s id → Placed (next s (.handle d : Action C D S)) id := by
    rintro id ⟨hlt, d', hd', hreq, huniq⟩
    exact ⟨hlt, d', hd', (execute_request d d').trans hreq,
      fun d'' h'' => huniq d'' ((execute_request d d'').symm.trans h'')⟩
  have hfresh : ∀ id, (next s (.handle d : Action C D S)).nextId ≤ id →
      (next s (.handle d : Action C D S)).executed id = 0 ∧
        ∀ d', ((next s (.handle d : Action C D S)).buffers d').request ≠ some id := by
    intro id hid
    obtain ⟨hzero, hreq⟩ := h.fresh id hid
    exact ⟨(execute_executed (hreq d)).trans hzero,
      fun d' h' => hreq d' ((execute_request d d').symm.trans h')⟩
  -- the daemon whose buffers are mapped answers the request that is placed in them
  by_cases hmapped : s.mapped = some d
  · have hcalm := not_calm_of_busy hmapped (Or.inr (Or.inl hd))
    refine ⟨h.lock, h.unlocking, h.pid_mapped, hfresh, h.outside_of_not_calm hcalm,
      h.waiting_of_not_calm hcalm rfl ?_⟩
    rintro c id - hpl (hp | hp) hdone
    · refine ⟨hplaced id hpl, Or.inr ⟨⟨?_, d, hmapped, ?_⟩, (hp.2 d hmapped).2 hd,
        fun d' hd' => ?_⟩,
        fun hrq hpid => absurd (hdone hrq) hpid⟩
      all_goals
        obtain ⟨-, d₀, hd₀, hreq, -⟩ := hpl
        obtain rfl : d = d₀ := Option.some.inj (hmapped.symm.trans hd₀)
      · simp [next, State.setDaemon, State.execute, hreq, hp.1]
      · simp [next, State.setDaemon, State.execute, hreq]
      · obtain rfl : d = d' := Option.some.inj (hmapped.symm.trans hd')
        simp [next, State.setDaemon]
    · exact absurd hd (hp.2.2 d hmapped).2
  · -- the buffers of another daemon hold another request
    have hne : ∀ d', s.mapped = some d' → d' ≠ d := by
      rintro d' hd' rfl
      exact hmapped hd'
    have hother : ∀ d', s.mapped = some d' →
        (next s (.handle d : Action C D S)).daemon d' = s.daemon d' :=
      fun d' hd' => setDaemon_of_not_mapped hmapped _ hd'
    have hexecuted : ∀ id, Placed s id →
        (next s (.handle d : Action C D S)).executed id = s.executed id := by
      rintro id ⟨-, d', hd', -, huniq⟩
      exact execute_executed fun h' => hne d' hd' (huniq d h').symm
    have hanswered : ∀ id, Placed s id → Answered s id →
        Answered (next s (.handle d : Action C D S)) id := by
      rintro id hpl ⟨hone, d', hd', hreply⟩
      refine ⟨(hexecuted id hpl).trans hone, d', hd', ?_⟩
      simpa [next, State.setDaemon, State.execute, hne d' hd'] using hreply
    have hcalm : Calm s → Calm (next s (.handle d : Action C D S)) := fun hc =>
      ⟨hc.1, fun d' hd' => by rw [hother d' hd']; exact hc.2 d' hd'⟩
    refine ⟨h.lock, h.unlocking, h.pid_mapped, hfresh,
      fun hnone hpid => hcalm (h.outside hnone hpid),
      fun c => (h.holder c).mono rfl rfl hcalm hplaced hexecuted hanswered
        (fun id hpl hp => ⟨(hexecuted id hpl).trans hp.1, fun d' hd' => ?_⟩)
        fun id hpl hp => ⟨hanswered id hpl hp.1, hp.2.1, fun d' hd' => ?_⟩⟩
    · rw [hother d' hd']
      exact hp.2 d' hd'
    · rw [hother d' hd']
      exact hp.2.2 d' hd'

theorem Invariant.done (h : Invariant s) {d : D} (hd : s.daemon d = .handled) :
    Invariant (next s (.done d)) := by
  rw [next]
  split
  · next hpid =>
    have hmapped := h.pid_mapped d hpid
    have hcalm := not_calm_of_busy hmapped (Or.inr (Or.inr hd))
    refine ⟨h.lock, h.unlocking, h.pid_mapped, h.fresh, h.outside_of_not_calm hcalm,
      h.waiting_of_not_calm hcalm rfl ?_⟩
    rintro c id - hplaced (hp | hp) -
    · exact absurd hd (hp.2 d hmapped).1
    · obtain ⟨hanswered, havail, -⟩ := hp
      have hready : ∀ d', s.mapped = some d' → Function.update s.daemon d .ready d' = .ready := by
        intro d' hd'
        obtain rfl : d = d' := Option.some.inj (hmapped.symm.trans hd')
        rw [Function.update_self]
      refine ⟨hplaced, Or.inr ⟨hanswered, havail, fun d' hd' => ?_⟩,
        fun _ _ => ⟨⟨havail, fun d' hd' => ?_⟩, hanswered⟩⟩
      · simp [State.setDaemon, hready d' hd']
      · simp [State.setDaemon, hready d' hd', DaemonPc.Busy]
  · exact h.setDaemon d (by simp [DaemonPc.Busy])

/-! ### Steps of a thread that stops the daemon -/

theorem Invariant.stop (h : Invariant s) {t : S} : Invariant (next s (.stop t)) := by
  refine ⟨h.lock, fun t' ht' => ?_, by simp [next, State.setStop], h.fresh,
    fun _ hpid => absurd rfl hpid, fun c => ?_⟩
  · simp only [next, State.setStop] at ht'
    by_cases htt : t' = t
    · rw [htt, Function.update_self] at ht'
      cases ht'
    · rw [Function.update_of_ne htt] at ht'
      exact h.unlocking t' ht'
  · have hok := h.holder c
    show HolderOk _ (s.client c)
    cases hcl : s.client c with
    | filling id => rw [hcl] at hok; exact hok
    | armed id => rw [hcl] at hok; exact ⟨hok.1, hok.2.1, hok.2.2.1, fun _ => rfl⟩
    | waiting id => rw [hcl] at hok; exact ⟨hok.1, hok.2.1, fun _ hne => absurd rfl hne⟩
    | reading id => rw [hcl] at hok; exact hok
    | _ => trivial

theorem Invariant.acquireStop (h : Invariant s) {t : S} (hfree : s.semSerialize = none) :
    Invariant (next s (.acquireStop t)) :=
  h.setStop _ (h.lock_free hfree).1 (fun _ => rfl) fun t' _ => (h.lock_free hfree).2 t'

theorem Invariant.interruptStop (h : Invariant s) {t : S} :
    Invariant (next s (.interruptStop t)) := by
  refine ⟨h.lock, fun t' ht' => ?_, h.pid_mapped, h.fresh, h.outside, fun c => ?_⟩
  · simp only [next, State.setStop] at ht'
    by_cases htt : t' = t
    · rw [htt, Function.update_self] at ht'
      cases ht'
    · rw [Function.update_of_ne htt] at ht'
      exact h.unlocking t' ht'
  · exact (h.holder c).mono rfl rfl (fun hc => hc) (fun _ hp => hp) (fun _ _ => rfl)
      (fun _ _ ha => ha) (fun _ _ hp => hp) fun _ _ hp => hp

theorem Invariant.releaseStop (h : Invariant s) {t : S} (ht : s.stop t = .unlocking) :
    Invariant (next s (.releaseStop t)) := by
  have hlock := h.unlocking t ht
  refine h.setStop none (fun c hc => ?_) (fun he => by cases he) fun t' htt ht' => ?_
  · have hc' := h.lock c hc
    rw [hlock] at hc'
    cases hc'
  · have ht'' := h.unlocking t' ht'
    rw [hlock, Option.some.injEq, Owner.stop.injEq] at ht''
    exact htt ht''.symm

/-! ### Runs -/

/-- An orderly step keeps the invariant. -/
theorem Invariant.step (h : Invariant s) {s' : State C D S} (hstep : Step Orderly s s') :
    Invariant s' := by
  obtain ⟨a, hen, hall, rfl⟩ := hstep
  have hinside : ∀ {c : C} {pc : ClientPc} {id : ℕ}, s.client c = pc → pc.request = some id →
      (s.client c).Inside := fun hc hreq => inside_of_request (by rw [hc]; exact hreq)
  cases a with
  | enter c =>
    exact h.setClient c .wantLock (by simp [ClientPc.Inside, ClientPc.request]) trivial
      fun _ => Or.inl (by rw [hen.1]; rfl)
  | interruptRequest c =>
    have hc : s.client c = .wantLock := hen
    exact h.setClient c .idle (by simp [ClientPc.Inside, ClientPc.request]) trivial
      fun _ => Or.inl (by rw [hc]; rfl)
  | acquire c => exact h.acquire hen.2
  | write c id => exact h.write hen
  | giveUp c id =>
    have hok := h.holder c
    rw [show s.client c = .filling id from hen] at hok
    exact h.leave (hinside hen rfl) hok.2.1
  | arm c id => exact h.arm hen
  | signal c id => exact h.signal hen
  | wake c id => exact h.wake hen.1 hen.2
  | interruptWait c id => exact hall.elim
  | undo c id => exact h.undo hen
  | finish c id =>
    have hok := h.holder c
    rw [show s.client c = .reading id from hen] at hok
    exact h.leave (hinside hen rfl) hok.2.1
  | release c => exact h.release hen
  | start d => exact h.startDaemon hall
  | started d => exact h.started hall
  | get d => exact h.get
  | wakeDaemon d => exact h.wakeDaemon hen.2
  | interruptGet d => exact h.setDaemon d (by simp [DaemonPc.Busy])
  | setAvail d => exact h.setAvail hen
  | handle d => exact h.handle hen
  | refuse d => exact hall.elim
  | done d => exact h.done hen
  | quit d => exact h.setDaemon d (by simp [DaemonPc.Busy])
  | stop t => exact h.stop
  | acquireStop t => exact h.acquireStop hen.2
  | interruptStop t => exact h.interruptStop
  | releaseStop t => exact h.releaseStop hen

instance (s : State C D S) (a : Action C D S) : Decidable (Orderly s a) :=
  match a with
  | .interruptWait _ _ | .refuse _ => inferInstanceAs (Decidable False)
  | .start _ | .started _ => inferInstanceAs (Decidable (s.semSerialize = none))
  | .enter _ | .interruptRequest _ | .acquire _ | .write _ _ | .giveUp _ _ | .arm _ _
  | .signal _ _ | .wake _ _ | .undo _ _ | .finish _ _ | .release _ | .get _ | .wakeDaemon _
  | .interruptGet _ | .setAvail _ | .handle _ | .done _ | .quit _ | .stop _ | .acquireStop _
  | .interruptStop _ | .releaseStop _ => inferInstanceAs (Decidable True)

/-- In every state of an orderly run, replies belong to the requests of their readers. -/
theorem replies_match_of_orderly
    (h : Transition.Reaches (Step Orderly) (State.start : State C D S) s) : RepliesMatch s :=
  (Transition.invariant_of_step (Step Orderly) (fun _ _ hs hstep => hs.step hstep) h
    invariant_start).repliesMatch

end Actions

/-- A daemon is started and serves one request. -/
def servedRequest : List (Action Unit Unit Unit) :=
  [.start (), .started (), .get (), .enter (), .acquire (), .arm () 0, .signal () 0,
    .wakeDaemon (), .setAvail (), .handle (), .done (), .wake () 0]

theorem replies_match_servedRequest : RepliesMatch (runActions State.start servedRequest) :=
  replies_match_of_orderly (reaches_runActions (by decide))

/-- The wait of the first client is interrupted after the daemon has handled its request. The
second client places its own before the daemon is done. -/
def lateReply : List (Action Bool Unit Unit) :=
  [.start (), .started (), .get (), .enter true, .acquire true, .arm true 0, .signal true 0,
    .wakeDaemon (), .setAvail (), .handle (), .interruptWait true 0, .release true,
    .enter false, .acquire false, .arm false 1, .signal false 1, .done (), .wake false 1]

/-- The second client reads a reply though its request has not been executed. -/
theorem late_reply_taken : ∃ s : State Bool Unit Unit,
    Transition.Reaches (Step Any) State.start s ∧ ¬ RepliesMatch s := by
  refine ⟨runActions State.start lateReply, reaches_runActions (by decide), fun h => ?_⟩
  have hexecuted := (h.reading false 1 rfl).1
  revert hexecuted
  decide

end Protocol

end Isofs
