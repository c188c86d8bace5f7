import Isofs.Library.LockTrace
import Isofs.Stub.EntryPoints

/-!
# Rules for the exchange lock

What the statements of the driver do to the phase of a call: most neither acquire nor
release the lock, `RELEASE_AND_EXIT` releases it and returns, and the frame `exchange`
acquires it.
-/

namespace Isofs

namespace Stub

open Proc LockTrace

variable {δ α β : Type} {env : StubEnv δ}

/-- What an event is to the lock on the exchange buffers. -/
def lockEvent : StubEvent → LockEvent
  | .requestSerialize => .acquire
  | .clearSerialize => .release
  | .signal => .other
  | .setRqDone => .use
  | .clearRqAvail _ _ => .use
  | .waitRqDone => .use
  | .exchange => .use
  | .probe _ _ _ => .other
  | .copyIn _ _ => .other
  | .copyOut _ _ => .other
  | .store _ => .other

/-- The call is in phase `p`, or has broken the discipline (`none`). -/
def InPhase (p : Option Phase) (s : StubState δ) : Prop := phase (s.trace.map lockEvent) = p

/-- The event neither acquires nor releases the lock. -/
def IsQuiet (e : StubEvent) : Prop := lockEvent e = .use ∨ lockEvent e = .other

/-- Quiet events keep a call that holds the lock holding it, and a broken one broken. -/
theorem phase_append_quiet {es trace : List StubEvent} (hes : ∀ e ∈ es, IsQuiet e)
    {p : Option Phase} (hp : p = some .held ∨ p = none) (h : phase (trace.map lockEvent) = p) :
    phase ((es ++ trace).map lockEvent) = p := by
  induction es with
  | nil => exact h
  | cons e es ih =>
    rw [List.forall_mem_cons] at hes
    rw [List.cons_append, List.map_cons, phase_cons, ih hes.2]
    rcases hp with rfl | rfl
    · rcases hes.1 with he | he <;> rw [he] <;> rfl
    · rfl

/-! ### The events of a statement -/

/-- A statement adds only events with `P` to the trace. -/
def Emits (P : StubEvent → Prop) (m : Stub δ α) : Prop :=
  ∀ s, ∃ es, (m s).2.trace = es ++ s.trace ∧ ∀ e ∈ es, P e

namespace Emits

variable {P : StubEvent → Prop}

theorem pure (a : α) : Emits P (Pure.pure a : Stub δ α) :=
  fun _ => ⟨[], rfl, List.forall_mem_nil _⟩

theorem ret (rc : ApiRet) : Emits P (Proc.ret rc : Stub δ α) :=
  fun _ => ⟨[], rfl, List.forall_mem_nil _⟩

theorem read (f : StubState δ → α) : Emits P (Proc.read f : Stub δ α) :=
  fun _ => ⟨[], rfl, List.forall_mem_nil _⟩

theorem bind {m : Stub δ α} {f : α → Stub δ β} (hm : Emits P m) (hf : ∀ a, Emits P (f a)) :
    Emits P (m >>= f) := by
  intro s
  obtain ⟨es, htrace, hes⟩ := hm s
  rw [bind_apply]
  cases hrun : m s with
  | mk result s' =>
    rw [hrun] at htrace
    cases result with
    | error rc => exact ⟨es, htrace, hes⟩
    | ok a =>
      obtain ⟨es', htrace', hes'⟩ := hf a s'
      refine ⟨es' ++ es, ?_, ?_⟩
      · rw [List.append_assoc, ← htrace]
        exact htrace'
      · intro e he
        exact (List.mem_append.mp he).elim (hes' e) (hes e)

theorem onlyIf {c : Prop} [Decidable c] {m : Stub δ Unit} (hm : Emits P m) :
    Emits P (Proc.onlyIf c m) := by
  rw [Proc.onlyIf]
  split
  · exact hm
  · exact pure ()

theorem ite {c : Prop} [Decidable c] {m m' : Stub δ α} (hm : Emits P m) (hm' : Emits P m') :
    Emits P (if c then m else m') := by
  split
  · exact hm
  · exact hm'

theorem call {m : Stub δ Empty} (hm : Emits P m) : Emits P (Proc.call m : Stub δ ApiRet) := by
  intro s
  obtain ⟨es, htrace, hes⟩ := hm s
  refine ⟨es, ?_, hes⟩
  rw [Proc.call]
  cases hrun : m s with
  | mk result s' =>
    rw [hrun] at htrace
    cases result with
    | ok a => exact a.elim
    | error rc => exact htrace

theorem log {e : StubEvent} (he : P e) : Emits P (log e : Stub δ Unit) :=
  fun _ => ⟨[e], rfl, List.forall_mem_singleton.mpr he⟩

theorem setRequest (h : P .exchange) (f : Request → Request) :
    Emits P (setRequest f : Stub δ Unit) :=
  fun _ => ⟨[.exchange], rfl, List.forall_mem_singleton.mpr h⟩

theorem getRequest (h : P .exchange) (f : Request → α) : Emits P (getRequest f : Stub δ α) :=
  fun _ => ⟨[.exchange], rfl, List.forall_mem_singleton.mpr h⟩

theorem copyIn (h : P .exchange) (p : Ptr) (len : UInt16) (hcopy : P (.copyIn p len)) :
    Emits P (copyIn p len : Stub δ Unit) :=
  fun _ => ⟨[.copyIn p len, .exchange], rfl,
    List.forall_mem_cons.mpr ⟨hcopy, List.forall_mem_singleton.mpr h⟩⟩

theorem copyOut (h : P .exchange) (p : Ptr) (len : UInt16) (hcopy : P (.copyOut p len)) :
    Emits P (copyOut p len : Stub δ Unit) :=
  fun _ => ⟨[.copyOut p len, .exchange], rfl,
    List.forall_mem_cons.mpr ⟨hcopy, List.forall_mem_singleton.mpr h⟩⟩

theorem setOError (p : Ptr) (oError : UInt16) (hcopy : P (.copyOut (p + 8) 4)) :
    Emits P (setOError p oError : Stub δ Unit) :=
  fun _ => ⟨[.copyOut (p + 8) 4], rfl, List.forall_mem_singleton.mpr hcopy⟩

theorem exchangeListLength (h : P .exchange) : Emits P (exchangeListLength : Stub δ ℕ) :=
  fun _ => ⟨[.exchange], rfl, List.forall_mem_singleton.mpr h⟩

theorem probe {site : ProbeSite} {p : Ptr} {len : UInt16} (h : P (.probe site p len)) :
    Emits P (probe env site p len) :=
  (log h).bind fun _ => pure _

theorem mustProbe {site : ProbeSite} {p : Ptr} {len : UInt16} (h : P (.probe site p len)) :
    Emits P (mustProbe env site p len) :=
  (probe h).bind fun _ => onlyIf (ret _)

theorem returnOnError (rc : ApiRet) : Emits P (returnOnError rc : Stub δ Unit) := onlyIf (ret rc)

theorem releaseAndExit (h : P .clearSerialize) (rc : ApiRet) :
    Emits P (releaseAndExit env rc : Stub δ α) :=
  (log h).bind fun _ => ret _

theorem mono {P' : StubEvent → Prop} {m : Stub δ α} (hm : Emits P m) (h : ∀ e, P e → P' e) :
    Emits P' m := by
  intro s
  obtain ⟨es, htrace, hes⟩ := hm s
  exact ⟨es, htrace, fun e he => h e (hes e he)⟩

theorem of_ends {m : Stub δ α}
    (h : ∀ s, Ends m (fun _ t => ∃ es, t.trace = es ++ s.trace ∧ ∀ e ∈ es, P e)
      (fun _ t => ∃ es, t.trace = es ++ s.trace ∧ ∀ e ∈ es, P e) s) : Emits P m := by
  intro s
  have hends := h s
  rw [Ends] at hends
  split at hends <;> next heq => rw [heq]; exact hends

/-- What a statement adds, however it ends. -/
theorem triple {m : Stub δ α} (hm : Emits P m) (trace : List StubEvent) :
    Triple (fun s => ∃ es, s.trace = es ++ trace ∧ ∀ e ∈ es, P e) m
      (fun _ s => ∃ es, s.trace = es ++ trace ∧ ∀ e ∈ es, P e)
      (fun _ s => ∃ es, s.trace = es ++ trace ∧ ∀ e ∈ es, P e) := by
  rintro s ⟨es, htrace, hes⟩
  obtain ⟨es', htrace', hes'⟩ := hm s
  have h : ∃ es, (m s).2.trace = es ++ trace ∧ ∀ e ∈ es, P e := by
    refine ⟨es' ++ es, by rw [htrace', htrace, List.append_assoc], fun e he => ?_⟩
    exact (List.mem_append.mp he).elim (hes' e) (hes e)
  rw [Ends]
  split <;> next heq => rw [heq] at h; exact h

theorem requestExchangeXS (hrequest : P .requestSerialize) (hclear : P .clearSerialize) :
    Emits P (requestExchangeXS env) :=
  (onlyIf (ret _)).bind fun _ => (onlyIf (ret _)).bind fun _ => (returnOnError _).bind fun _ =>
    (log hrequest).bind fun _ => (onlyIf ((log hclear).bind fun _ => ret _)).bind fun _ => ret _

theorem signalDaemonAndWait (hsignal : P .signal) (hset : P .setRqDone)
    (havail : ∀ q m, P (.clearRqAvail q m)) (hwait : P .waitRqDone) (signal : Signal) :
    Emits P (signalDaemonAndWait env signal) := by
  refine (log hsignal).bind fun _ => (returnOnError _).bind fun _ => (log hset).bind fun _ =>
    (returnOnError _).bind fun _ => bind ?_ fun _ => (returnOnError _).bind fun _ =>
      bind ?_ fun _ => (log hwait).bind fun _ => (onlyIf (ret _)).bind fun _ => ret _
  · exact fun s => ⟨[.clearRqAvail s.pRequest s.pFSData], rfl,
      List.forall_mem_singleton.mpr (havail _ _)⟩
  · exact fun _ => ⟨[], rfl, List.forall_mem_nil _⟩

section Lists

variable (hexchange : P .exchange) (hprobe : ∀ site p len, P (.probe site p len))
  (hin : ∀ p len, P (.copyIn p len))
include hexchange hprobe

section In

include hin

theorem listToBuf (turn : Turn) (site : EaopProbe) (p : Ptr) :
    Emits P (listToBuf env turn site p) :=
  (read _).bind fun _ => bind (bind (onlyIf (ret _)) fun _ => onlyIf (ret _)) fun _ =>
    (mustProbe (hprobe _ _ _)).bind fun _ => copyIn hexchange _ _ (hin _ _)

end In

variable (hcopy : ∀ p len, P (.copyOut p len))
include hcopy

theorem bufToFeas (turn : Turn) (pfeas : Ptr) : Emits P (bufToFeas env turn pfeas) :=
  (exchangeListLength hexchange).bind fun _ => (read _).bind fun _ =>
    (mustProbe (hprobe _ _ _)).bind fun _ => copyOut hexchange _ _ (hcopy _ _)

include hin

theorem copyEAOP (turn : Turn) (p : Ptr) (usWhat oError : UInt16) :
    Emits P (copyEAOP env turn p usWhat oError) := by
  refine (mustProbe (hprobe _ _ _)).bind fun _ => (read _).bind fun pgeas =>
    (read _).bind fun pfeas => bind (onlyIf ?_) fun _ => bind (onlyIf ?_) fun _ =>
      bind (onlyIf ?_) fun _ => ret _
  · exact (mustProbe (hprobe _ _ _)).bind fun _ => setOError _ _ (hcopy _ _)
  · exact (mustProbe (hprobe _ _ _)).bind fun _ =>
      (onlyIf (listToBuf hexchange hprobe hin _ _ _)).bind fun _ =>
        onlyIf (bufToFeas hexchange hprobe hcopy _ _)
  · exact (mustProbe (hprobe _ _ _)).bind fun _ => listToBuf hexchange hprobe hin _ _ _

end Lists

end Emits

/-! ### Quiet statements -/

/-- A statement that neither acquires nor releases the lock. -/
def Quiet (m : Stub δ α) : Prop :=
  ∀ s, ∃ es, (m s).2.trace = es ++ s.trace ∧ ∀ e ∈ es, IsQuiet e

/-- A quiet statement that does not return. -/
def Silent (m : Stub δ α) : Prop := Quiet m ∧ ∀ s, ∃ a, (m s).1 = .ok a

theorem isQuiet_exchange : IsQuiet .exchange := Or.inl rfl

theorem Quiet.pure (a : α) : Quiet (Pure.pure a : Stub δ α) := Emits.pure a

theorem Quiet.ret (rc : ApiRet) : Quiet (Proc.ret rc : Stub δ α) := Emits.ret rc

theorem Quiet.bind {m : Stub δ α} {f : α → Stub δ β} (hm : Quiet m) (hf : ∀ a, Quiet (f a)) :
    Quiet (m >>= f) :=
  Emits.bind hm hf

theorem Quiet.onlyIf {c : Prop} [Decidable c] {m : Stub δ Unit} (hm : Quiet m) :
    Quiet (Proc.onlyIf c m) :=
  Emits.onlyIf hm

theorem Silent.log {e : StubEvent} (he : IsQuiet e) : Silent (log e : Stub δ Unit) :=
  ⟨Emits.log he, fun _ => ⟨(), rfl⟩⟩

theorem Silent.setRequest (f : Request → Request) : Silent (setRequest f : Stub δ Unit) :=
  ⟨Emits.setRequest isQuiet_exchange f, fun _ => ⟨(), rfl⟩⟩

theorem Silent.getRequest (f : Request → α) : Silent (getRequest f : Stub δ α) :=
  ⟨Emits.getRequest isQuiet_exchange f, fun _ => ⟨_, rfl⟩⟩

theorem Silent.copyIn (p : Ptr) (len : UInt16) : Silent (copyIn p len : Stub δ Unit) :=
  ⟨Emits.copyIn isQuiet_exchange p len (Or.inr rfl), fun _ => ⟨(), rfl⟩⟩

theorem Silent.copyOut (p : Ptr) (len : UInt16) : Silent (copyOut p len : Stub δ Unit) :=
  ⟨Emits.copyOut isQuiet_exchange p len (Or.inr rfl), fun _ => ⟨(), rfl⟩⟩

theorem Silent.setOError (p : Ptr) (oError : UInt16) : Silent (setOError p oError : Stub δ Unit) :=
  ⟨Emits.setOError p oError (Or.inr rfl), fun _ => ⟨(), rfl⟩⟩

theorem Silent.exchangeListLength : Silent (exchangeListLength : Stub δ ℕ) :=
  ⟨Emits.exchangeListLength isQuiet_exchange, fun _ => ⟨_, rfl⟩⟩

theorem Silent.read (f : StubState δ → α) : Silent (Proc.read f : Stub δ α) :=
  ⟨Emits.read f, fun _ => ⟨_, rfl⟩⟩

theorem Silent.pure (a : α) : Silent (Pure.pure a : Stub δ α) :=
  ⟨Quiet.pure a, fun _ => ⟨a, rfl⟩⟩

theorem Silent.bind {m : Stub δ α} {f : α → Stub δ β} (hm : Silent m) (hf : ∀ a, Silent (f a)) :
    Silent (m >>= f) := by
  refine ⟨hm.1.bind fun a => (hf a).1, fun s => ?_⟩
  obtain ⟨a, ha⟩ := hm.2 s
  rw [bind_apply]
  cases hrun : m s with
  | mk result s' =>
    rw [hrun] at ha
    simp only at ha
    subst ha
    exact (hf a).2 s'

theorem Silent.onlyIf {c : Prop} [Decidable c] {m : Stub δ Unit} (hm : Silent m) :
    Silent (Proc.onlyIf c m) := by
  rw [Proc.onlyIf]
  split
  · exact hm
  · exact Silent.pure ()

/-- A called procedure returns to its caller. -/
theorem Silent.call {m : Stub δ Empty} (hm : Quiet m) : Silent (Proc.call m : Stub δ ApiRet) := by
  refine ⟨Emits.call hm, fun s => ?_⟩
  rw [Proc.call]
  cases hrun : m s with
  | mk result s' =>
    cases result with
    | ok a => exact a.elim
    | error rc => exact ⟨rc, rfl⟩

theorem Silent.probe (site : ProbeSite) (p : Ptr) (len : UInt16) : Silent (probe env site p len) :=
  Silent.bind (Silent.log (Or.inr rfl)) fun _ => Silent.pure _

theorem Silent.store (output : Output) : Silent (store output : Stub δ Unit) :=
  Silent.log (Or.inr rfl)

theorem Silent.requestRc : Silent (requestRc : Stub δ ApiRet) := Silent.getRequest _

theorem Silent.returnSffsi : Silent (returnSffsi : Stub δ Unit) :=
  Silent.bind (Silent.getRequest _) fun _ => Silent.store _

theorem Quiet.returnOnError (rc : ApiRet) : Quiet (returnOnError rc : Stub δ Unit) :=
  Quiet.onlyIf (Quiet.ret rc)

theorem Quiet.mustProbe (site : ProbeSite) (p : Ptr) (len : UInt16) :
    Quiet (mustProbe env site p len) :=
  Emits.mustProbe (Or.inr rfl)

/-- `copyEAOP` leaves the lock alone. -/
theorem Quiet.copyEAOP (turn : Turn) (p : Ptr) (usWhat oError : UInt16) :
    Quiet (copyEAOP env turn p usWhat oError) :=
  Emits.copyEAOP isQuiet_exchange (fun _ _ _ => Or.inr rfl) (fun _ _ => Or.inr rfl)
    (fun _ _ => Or.inr rfl) _ _ _ _

theorem Quiet.signalDaemonAndWait (signal : Signal) : Quiet (signalDaemonAndWait env signal) :=
  Emits.signalDaemonAndWait (Or.inr rfl) (Or.inl rfl) (fun _ _ => Or.inl rfl) (Or.inl rfl) signal

/-- Quiet statements keep the phase of a call that holds the lock, or has broken the
discipline. -/
theorem Quiet.triple {m : Stub δ α} (hm : Quiet m) {p : Option Phase}
    (hp : p = some .held ∨ p = none) :
    Triple (InPhase p) m (fun _ => InPhase p) (fun _ => InPhase p) := by
  intro s hs
  obtain ⟨es, htrace, hes⟩ := hm s
  have h := phase_append_quiet hes hp hs
  rw [← htrace] at h
  rw [Ends]
  split <;> next heq => rw [heq] at h; exact h

/-- A probe passes on the result it has in the environment. -/
theorem Quiet.probe_bind {site : ProbeSite} {p : Ptr} {len : UInt16} {f : ApiRet → Stub δ α}
    (h : Quiet (f (env.probe site))) : Quiet (probe env site p len >>= f) := by
  intro s
  obtain ⟨es, htrace, hes⟩ := h { s with trace := .probe site p len :: s.trace }
  refine ⟨es ++ [.probe site p len], ?_, ?_⟩
  · rw [List.append_assoc]
    exact htrace
  · intro e he
    rcases List.mem_append.mp he with he | he
    · exact hes e he
    · rw [List.mem_singleton.mp he]
      exact Or.inr rfl

theorem probe_bind_triple {site : ProbeSite} {p : Ptr} {len : UInt16} {f : ApiRet → Stub δ α}
    {q : Option Phase} (hq : q = some .held ∨ q = none) {Q : α → StubState δ → Prop}
    {R : ApiRet → StubState δ → Prop} (h : Triple (InPhase q) (f (env.probe site)) Q R) :
    Triple (InPhase q) (probe env site p len >>= f) Q R := by
  intro s hs
  refine h { s with trace := .probe site p len :: s.trace } ?_
  have hes : ∀ e ∈ [StubEvent.probe site p len], IsQuiet e := by simp [IsQuiet, lockEvent]
  exact phase_append_quiet hes hq hs

/-! ### Statements that may release the lock -/

/-- Ends with the lock held, or returns with the lock released. -/
def Keeps (m : Stub δ α) : Prop :=
  Triple (InPhase (some .held)) m (fun _ => InPhase (some .held)) (fun _ => InPhase (some .done))

theorem Silent.triple {m : Stub δ α} (hm : Silent m) {p : Option Phase}
    (hp : p = some .held ∨ p = none) {R : ApiRet → StubState δ → Prop} :
    Triple (InPhase p) m (fun _ => InPhase p) R := by
  intro s hs
  have h := hm.1.triple hp s hs
  obtain ⟨a, ha⟩ := hm.2 s
  rw [Ends] at h ⊢
  cases hrun : m s with
  | mk result s' =>
    rw [hrun] at h ha
    simp only at ha
    subst ha
    exact h

theorem Silent.keeps {m : Stub δ α} (hm : Silent m) : Keeps m := hm.triple (Or.inl rfl)

theorem Keeps.bind {m : Stub δ α} {f : α → Stub δ β} (hm : Keeps m) (hf : ∀ a, Keeps (f a)) :
    Keeps (m >>= f) :=
  Triple.bind hm hf

theorem Keeps.onlyIf {c : Prop} [Decidable c] {m : Stub δ Unit} (hm : Keeps m) :
    Keeps (Proc.onlyIf c m) :=
  Triple.onlyIf (fun _ => hm) fun _ _ hs => hs

/-- `RELEASE_AND_EXIT` returns with the lock released. -/
theorem releaseAndExit_triple (rc : ApiRet) {Q : α → StubState δ → Prop} :
    Triple (InPhase (some .held)) (releaseAndExit env rc : Stub δ α) Q
      (fun _ => InPhase (some .done)) := by
  intro s hs
  show phase _ = _
  rw [List.map_cons, phase_cons, hs]
  rfl

theorem Keeps.releaseAndExit (rc : ApiRet) : Keeps (releaseAndExit env rc : Stub δ α) :=
  releaseAndExit_triple rc

theorem Keeps.releaseOnError (rc code : ApiRet) : Keeps (releaseOnError env rc code) :=
  Keeps.onlyIf (Keeps.releaseAndExit code)

theorem Keeps.checkString (psz : List UInt8) (max : ℕ) : Keeps (checkString env psz max) :=
  Keeps.onlyIf (Keeps.releaseAndExit _)

theorem Keeps.probeOrRelease (site : ProbeSite) (p : Ptr) (len : UInt16) :
    Keeps (probeOrRelease env site p len) :=
  (Silent.probe site p len).keeps.bind fun _ => Keeps.releaseOnError _ _

theorem Keeps.pathRequest (rq : RequestCode) (cdfsi : Cdfsi) (cdfsd : Cdfsd)
    (pszName : List UInt8) (iCurDirEnd : UInt16) :
    Keeps (pathRequest env rq cdfsi cdfsd pszName iCurDirEnd) :=
  (Silent.setRequest _).keeps.bind fun _ => (Keeps.checkString _ _).bind fun _ =>
    (Silent.setRequest _).keeps

/-- Nothing repairs a broken call. -/
def Stuck (m : Stub δ α) : Prop :=
  Triple (InPhase none) m (fun _ => InPhase none) (fun _ => InPhase none)

theorem Quiet.stuck {m : Stub δ α} (hm : Quiet m) : Stuck m := hm.triple (Or.inr rfl)

/-- Releasing the lock without holding it breaks the discipline. -/
theorem releaseAndExit_breaks (rc : ApiRet) {p : Option Phase}
    (hp : p = some .done ∨ p = none) {Q : α → StubState δ → Prop} :
    Triple (InPhase p) (releaseAndExit env rc : Stub δ α) Q (fun _ => InPhase none) := by
  intro s hs
  show phase _ = _
  rw [List.map_cons, phase_cons, hs]
  rcases hp with rfl | rfl <;> rfl

theorem Stuck.releaseAndExit (rc : ApiRet) : Stuck (releaseAndExit env rc : Stub δ α) :=
  releaseAndExit_breaks rc (Or.inr rfl)

theorem Stuck.releaseOnError (rc code : ApiRet) : Stuck (releaseOnError env rc code) :=
  Triple.onlyIf (fun _ => Stuck.releaseAndExit code) fun _ _ hs => hs

end Stub

end Isofs
