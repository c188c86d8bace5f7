import Isofs.Stub.Atomicity
import Isofs.Stub.Sessions

/-!
# Files among the calls of others

Calls of the driver come one after the other. Those of others may be anything that does not end the
use of a file; what the owner of the file gets from its own are the bytes that the daemon has for
it.
-/

namespace Isofs

/-! ### The requests of a call -/

namespace Daemon

/-- The daemon after requests. -/
def serveAll (s : State) (rs : List Posted) : State := rs.foldl (fun s r => (serveAny s r).2) s

theorem serveAll_append (s : State) (rs rs' : List Posted) :
    serveAll s (rs ++ rs') = serveAll (serveAll s rs) rs' := by
  simp [serveAll, List.foldl_append]

/-- Every request is answered, and none of them is of the kind `ends`. -/
def Spares (ends : Posted → Prop) : State → List Posted → Prop
  | _, [] => True
  | s, r :: rs =>
    ¬ ends r ∧ (∃ rc, (serveAny s r).1 = .ret rc) ∧ Spares ends (serveAny s r).2 rs

/-- What such requests keep. -/
theorem Spares.invariant {ends : Posted → Prop} {I : State → Prop}
    (hstep : ∀ s r rc, I s → ¬ ends r → (serveAny s r).1 = .ret rc → I (serveAny s r).2)
    {s : State} {rs : List Posted} (h : Spares ends s rs) (hs : I s) : I (serveAll s rs) := by
  induction rs generalizing s with
  | nil => exact hs
  | cons r rs ih =>
    obtain ⟨hr, ⟨rc, hrc⟩, hrest⟩ := h
    exact ih hrest (hstep s r rc hs hr hrc)

end Daemon

namespace Stub

/-- The daemon of the wiring, behind the driver in another environment. -/
def Wiring.around (w : Wiring) (env : StubEnv Daemon.State) : Wiring := { w with env := env }

theorem Wiring.stub_around {w : Wiring} {env : StubEnv Daemon.State}
    (h : env.serve = w.stub.serve) : (w.around env).stub = env := by
  have hdaemon : env.daemon = (w.around env).stub.daemon := by
    funext d q m
    obtain ⟨hq, hm, hd⟩ := Shared.mk.inj (congrFun h ⟨q, m, d⟩)
    exact Prod.ext hd (Prod.ext hq hm)
  show { env with daemon := (w.around env).stub.daemon } = env
  rw [← hdaemon]

/-- The requests that the daemon has served in the events of a call, oldest first. -/
def postedIn (w : Wiring) (env : StubEnv Daemon.State) (v : Shared Daemon.State) :
    List StubEvent → List Daemon.Posted
  | [] => []
  | .waitRqDone :: es =>
    postedIn w env v es ++ [w.posted (viewAt env v es).pRequest (viewAt env v es).pFSData]
  | _ :: es => postedIn w env v es

theorem daemon_viewAt {w : Wiring} {env : StubEnv Daemon.State} (h : env.serve = w.stub.serve)
    (v : Shared Daemon.State) (es : List StubEvent) :
    (viewAt env v es).daemon = Daemon.serveAll v.daemon (postedIn w env v es) := by
  induction es with
  | nil => rfl
  | cons e es ih =>
    cases e with
    | waitRqDone =>
      rw [viewAt, viewAfter, h, postedIn, Daemon.serveAll_append, ← ih]
      rfl
    | _ => exact ih

namespace DriverCall

/-- What the call returns. -/
def code {δ : Type} (x : DriverCall δ) : ApiRet :=
  ((x.call.body x.env).run { x.state with trace := [] }).1

variable (w : Wiring) (x : DriverCall Daemon.State)

/-- The requests that the daemon serves in the call. -/
def requests : List Daemon.Posted := postedIn w x.env x.state.shared x.final.trace

/-- The requests of the call are answered, and none of them is of the kind `ends`. -/
def Spares (ends : Daemon.Posted → Prop) : Prop :=
  Daemon.Spares ends x.state.daemon (x.requests w)

/-- The moment at which the call is made. -/
def moment : Moment := ⟨w.around x.env, x.state.pRequest, x.state.pFSData, x.state.caller⟩

variable {w x}

theorem run_of_body {m : Stub Daemon.State Empty} (hbody : x.call.body x.env = m) :
    m.run { x.state with trace := [] } = (x.code, x.final) := by
  rw [← hbody]
  rfl

theorem final_daemon (h : x.env.serve = w.stub.serve) :
    x.final.daemon = Daemon.serveAll x.state.daemon (x.requests w) := by
  obtain ⟨p, hp⟩ := x.final_inOrder
  rw [hp.daemon, daemon_viewAt h]
  rfl

end DriverCall

/-- What the owner of the file `f` gets from calls of anybody, `ts` being what it does with the
file. Its reads and seeks fit, and the calls of the others do not end the use of the file. -/
inductive Uses (w : Wiring) (v : Ptr) : OpenFile → List (DriverCall Daemon.State) →
    List FileTurn → List (ApiRet × UInt16 × Memory) → Prop
  | nil (f : OpenFile) : Uses w v f [] [] []
  | read {f : OpenFile} {x : DriverCall Daemon.State} {xs : List (DriverCall Daemon.State)}
      {ts : List FileTurn} {gets : List (ApiRet × UInt16 × Memory)} (pData : Ptr)
      (pcbLen fsIOFlag : UInt16)
      (hcall : x.call = .fsRead f.sffsi f.sffsd pData pcbLen fsIOFlag)
      (hfits : (FileTurn.read (x.moment w) pData pcbLen fsIOFlag).Fits v ⟨x.state.daemon, f⟩)
      (hrest : Uses w v (f.after x.final.trace) xs ts gets) :
      Uses w v f (x :: xs) (.read (x.moment w) pData pcbLen fsIOFlag :: ts)
        ((x.code, pcbLenAfter pcbLen x.final.trace, x.final.caller) :: gets)
  | seek {f : OpenFile} {x : DriverCall Daemon.State} {xs : List (DriverCall Daemon.State)}
      {ts : List FileTurn} {gets : List (ApiRet × UInt16 × Memory)} (ibOffset : Int32)
      (usType fsIOFlag : UInt16)
      (hcall : x.call = .fsChgFilePtr f.sffsi f.sffsd ibOffset.toInt usType fsIOFlag)
      (hfits : (FileTurn.seek (x.moment w) ibOffset usType fsIOFlag).Fits v ⟨x.state.daemon, f⟩)
      (hrest : Uses w v (f.after x.final.trace) xs ts gets) :
      Uses w v f (x :: xs) (.seek (x.moment w) ibOffset usType fsIOFlag :: ts) gets
  | other {f : OpenFile} {x : DriverCall Daemon.State} {xs : List (DriverCall Daemon.State)}
      {ts : List FileTurn} {gets : List (ApiRet × UInt16 × Memory)}
      (hspares : x.Spares w (·.EndsFile v f.sffsd)) (hrest : Uses w v f xs ts gets) :
      Uses w v f (x :: xs) ts gets

section Uses

variable {w : Wiring} {v : Ptr} {f : OpenFile} {x : DriverCall Daemon.State}
  {vol : MountedVolume} {bytes : List UInt8} {block : ℕ}

/-- A call of the owner is run as its turn. -/
theorem run_moment (hserve : x.env.serve = w.stub.serve) {c : FileCall}
    (hcall : x.call.body x.env = c.body x.env f) :
    (DriverSession.mk x.state.daemon f).run (x.moment w) c = (x.code, x.final) := by
  show (c.body (w.around x.env).stub f).run { x.state with trace := [] } = _
  rw [Wiring.stub_around hserve]
  exact DriverCall.run_of_body hcall

theorem after_moment (hserve : x.env.serve = w.stub.serve) {c : FileCall}
    (hcall : x.call.body x.env = c.body x.env f) :
    (DriverSession.mk x.state.daemon f).afterCall (x.moment w) c =
      ⟨x.final.daemon, f.after x.final.trace⟩ := by
  rw [DriverSession.afterCall, run_moment hserve hcall]

/-- The owner gets what the cursor gives. -/
theorem Uses.gives {xs : List (DriverCall Daemon.State)} {ts : List FileTurn}
    {gets : List (ApiRet × UInt16 × Memory)} (huses : Uses w v f xs ts gets)
    {a b : Shared Daemon.State} (hleads : Transition.Leads (CallStep w.stub.serve) xs a b)
    (hfollows : (DriverSession.mk a.daemon f).atDaemon.Follows v f.sffsd vol bytes block) :
    gets = driverGives (fileCursor bytes f.sffsi) ts := by
  induction huses generalizing a with
  | nil f => rfl
  | @read f x xs ts gets pData pcbLen fsIOFlag hcall hfits hrest ih =>
    obtain ⟨t, ⟨hserve, rfl, rfl⟩, hleads⟩ := Transition.leads_cons_iff.mp hleads
    have hbody : x.call.body x.env = FileCall.body x.env f (.read pData pcbLen fsIOFlag) := by
      rw [hcall]
      rfl
    obtain ⟨hfollows', hcursor⟩ := DriverSession.follows_after hfollows hfits
    have hgives := (DriverSession.turn_simulates hfollows hfits).gives
    rw [DriverSession.after, after_moment hserve hbody] at hfollows' hcursor
    rw [DriverSession.answer, run_moment hserve hbody] at hgives
    rw [driverGives, ← hgives, ← hcursor, ← ih hleads hfollows']
    rfl
  | @seek f x xs ts gets ibOffset usType fsIOFlag hcall hfits hrest ih =>
    obtain ⟨t, ⟨hserve, rfl, rfl⟩, hleads⟩ := Transition.leads_cons_iff.mp hleads
    have hbody : x.call.body x.env =
        FileCall.body x.env f (.chgFilePtr ibOffset.toInt usType fsIOFlag) := by
      rw [hcall]
      rfl
    obtain ⟨hfollows', hcursor⟩ := DriverSession.follows_after hfollows hfits
    rw [DriverSession.after, after_moment hserve hbody] at hfollows' hcursor
    rw [driverGives, ← hcursor, ← ih hleads hfollows']
    rfl
  | @other f x xs ts gets hspares hrest ih =>
    obtain ⟨t, ⟨hserve, rfl, rfl⟩, hleads⟩ := Transition.leads_cons_iff.mp hleads
    refine ih hleads ?_
    show (DriverSession.mk x.final.daemon f).atDaemon.Follows v f.sffsd vol bytes block
    rw [DriverCall.final_daemon hserve]
    exact hspares.invariant (I := fun s =>
      (DriverSession.mk s f).atDaemon.Follows v f.sffsd vol bytes block)
      (fun s r rc hs hr hrc =>
        (Daemon.Session.Follows.turn (t := .other r) hs ⟨hr, rc, hrc⟩).follows)
      hfollows

end Uses

end Stub

end Isofs
