import Isofs.Daemon.Sessions
import Isofs.Stub.OpenHandles

/-!
# Reading an open file through the driver

A read or seek of the driver is a turn of the owner at the daemon. What the daemon gives gets to the
memory of the caller, and the file of the kernel follows the one of the daemon.
-/

namespace Isofs

namespace Stub

open Proc

/-- The kernel around the driver, and what a daemon for requests of all codes meets. -/
structure Wiring where
  env : StubEnv Daemon.State
  daemonEnv : Daemon.Env
  control : Daemon.ControlEnv
  sizes : FsInfoSizes

namespace Wiring

variable (w : Wiring)

def link : Link := ⟨w.env, w.daemonEnv, Daemon.handleOther w.control w.sizes⟩

/-- The driver with the daemon behind it. -/
def stub : StubEnv Daemon.State := w.link.stub

/-- The request as the daemon gets it. -/
def posted (q : Request) (m : Memory) : Daemon.Posted := ⟨q, m, w.daemonEnv, w.control, w.sizes⟩

theorem stub_daemon (d : Daemon.State) (q : Request) (m : Memory) :
    w.stub.daemon d q m = ((Daemon.serveAny d (w.posted q m)).2,
      Link.reply (Daemon.serveAny d (w.posted q m)).1 (Daemon.serveAny d (w.posted q m)).2.request,
      (Daemon.serveAny d (w.posted q m)).2.pData) := rfl

end Wiring

/-! ### What the kernel gets -/

/-- The event passes nothing on through a pointer parameter. -/
def StoresNothing : StubEvent → Prop
  | .store _ => False
  | _ => True

/-- The file of the kernel is as before until something is passed on. -/
theorem OpenFile.after_of_storesNothing (f : OpenFile) {trace : List StubEvent}
    (h : ∀ e ∈ trace, StoresNothing e) : f.after trace = f := by
  induction trace with
  | nil => rfl
  | cons e trace ih =>
    obtain ⟨he, htrace⟩ := List.forall_mem_cons.mp h
    refine (congrArg (OpenFile.store · e) (ih htrace)).trans ?_
    cases e with
    | store output => exact he.elim
    | _ => rfl

/-- `*pcbLen` after events, newest first. -/
def pcbLenAfter (pcbLen : UInt16) : List StubEvent → UInt16
  | [] => pcbLen
  | .store (.cbLen n) :: _ => n
  | _ :: trace => pcbLenAfter pcbLen trace

/-- The daemon has served the request, and nothing has been passed on yet. -/
structure Served (w : Wiring) (s : StubState Daemon.State) (q : Request) (m : Memory)
    (t : StubState Daemon.State) : Prop where
  caller : t.caller = s.caller
  daemon : t.daemon = (Daemon.serveAny s.daemon (w.posted q m)).2
  request : t.pRequest = Link.reply (Daemon.serveAny s.daemon (w.posted q m)).1
    (Daemon.serveAny s.daemon (w.posted q m)).2.request
  data : t.pFSData = (Daemon.serveAny s.daemon (w.posted q m)).2.pData
  silent : ∀ e ∈ t.trace, StoresNothing e

section Calls

variable {w : Wiring} {s : StubState Daemon.State} {R : ApiRet → StubState Daemon.State → Prop}

/-- What an entry point comes to: it does not get the exchange buffers, it returns while it fills
them, the signal fails, or its last part follows on the work of the daemon. -/
theorem exchange_served {fill : Stub Daemon.State Unit} {finish : Stub Daemon.State ApiRet}
    {q : Request} {m : Memory} {filled : Prop} (hs : s.trace = [])
    (hacquire : ¬ Acquires w.stub → ∀ t, R (acquireCode w.stub) t)
    (hsilent : Emits StoresNothing fill)
    (hfill : Triple (Prepared s s.pRequest s.pFSData) fill (fun _ t => filled ∧ Prepared s q m t) R)
    (hsignal : ¬ Signalled w.stub → ∀ t, R (exitCode w.stub (signalCode w.stub .request)) t)
    (hfinish : ∀ t, Served w s q m t → Ends finish
      (fun rc u => R (exitCode w.stub rc) { u with trace := .clearSerialize :: u.trace }) R t) :
    Ends (exchange w.stub fill finish) (fun _ _ => False) R s := by
  refine @exchange_ends_keeping _ w.stub s q m
    (fun t => ∃ es, t.trace = es ++ s.trace ∧ ∀ e ∈ es, StoresNothing e) _ _ filled _
    ⟨[], rfl, List.forall_mem_nil _⟩ ?_ ?_ ?_ ?_ (fun _ => hfill) ?_ fun _ _ hsignal => ?_
  · exact ((Emits.requestExchangeXS trivial trivial).triple _).consequence (fun _ h => h)
      (fun _ _ _ => trivial) fun _ _ h => h
  · exact (hsilent.triple _).consequence (fun _ h => h) (fun _ _ h => h) fun _ _ _ => trivial
  · exact ((Emits.signalDaemonAndWait trivial trivial (fun _ _ => trivial) trivial _).triple
      _).consequence (fun _ h => h) (fun _ _ _ => trivial) fun _ _ h => h
  · exact fun h t _ => hacquire (mt acquireCode_eq_noError_iff.mpr h) t
  · exact fun _ _ h t _ => hsignal (mt signalCode_eq_noError_iff.mpr h) t
  · rintro t ⟨ht, es, htrace, hes⟩
    obtain ⟨hdaemon, hrest⟩ := Prod.mk.inj (ht.works hsignal)
    obtain ⟨hrequest, hdata⟩ := Prod.mk.inj hrest
    refine hfinish t ⟨ht.caller, hdaemon, hrequest, hdata, ?_⟩
    rw [htrace, hs, List.append_nil]
    exact hes

/-- A buffer that can be accessed. -/
theorem probeOrRelease_ends {site : ProbeSite} (hprobe : w.stub.probe site = .NO_ERROR) (p : Ptr)
    (len : UInt16) {Q : Unit → StubState Daemon.State → Prop}
    (h : Q () { s with trace := .probe site p len :: s.trace }) :
    Ends (probeOrRelease w.stub site p len) Q R s := by
  refine Ends.bind (Ends.of_ok (probe_apply w.stub site p len s) ?_)
  rw [releaseOnError_of_ok hprobe]
  exact Ends.pure h

/-- Behind the work of the daemon `FS_READ` passes the bytes of the answer on. -/
theorem finishRead_ends {q : Request} {m : Memory} {pData : Ptr} {d : Daemon.State} {rc : ApiRet}
    (hserve : Daemon.serveAny s.daemon (w.posted q m) = (.ret rc, d))
    (hprobe : w.stub.probe .dataWrite = .NO_ERROR) (f : OpenFile) (pcbLen fsIOFlag : UInt16)
    {t : StubState Daemon.State} (ht : Served w s q m t) :
    Ends (FileCall.finish w.stub (.read pData pcbLen fsIOFlag)) (fun rc' u =>
      rc' = rc ∧ u.daemon = d ∧
      u.caller = s.caller.blit pData (d.pData.slice 0 d.request.cbLen.toUInt16.toNat) ∧
      f.after u.trace = ⟨d.request.sffsi, f.sffsd⟩ ∧
      pcbLenAfter pcbLen u.trace = d.request.cbLen.toUInt16) (fun _ _ => False) t := by
  have hrequest := ht.request
  have hdaemon := ht.daemon
  have hdata := ht.data
  rw [hserve] at hrequest hdaemon hdata
  have hafter : f.after t.trace = f := f.after_of_storesNothing ht.silent
  have hsffsi : t.pRequest.sffsi = d.request.sffsi := by rw [hrequest]; rfl
  have hcbLen : t.pRequest.cbLen = d.request.cbLen := by rw [hrequest]; rfl
  have hrc : t.pRequest.rc = rc := by rw [hrequest]; rfl
  have hfile : { f.after t.trace with sffsi := t.pRequest.sffsi } =
      ({ f with sffsi := d.request.sffsi } : OpenFile) := by
    rw [hafter, hsffsi]
  have hlength : t.pRequest.cbLen.toUInt16 = d.request.cbLen.toUInt16 := by rw [hcbLen]
  refine Ends.bind (Ends.bind (Ends.of_ok rfl (Ends.update ?_)))
  refine Ends.bind (Ends.of_ok rfl (Ends.bind (Ends.update (Ends.bind
    (Ends.onlyIf (fun _ => ?_) fun hzero => Ends.of_ok rfl ?_)))))
  · have hcaller : t.caller.blit pData (t.pFSData.slice 0 t.pRequest.cbLen.toUInt16.toNat) =
        s.caller.blit pData (d.pData.slice 0 d.request.cbLen.toUInt16.toNat) := by
      rw [ht.caller, hdata, hlength]
    refine Ends.bind (probeOrRelease_ends hprobe _ _ ?_)
    exact Ends.update (Ends.of_ok rfl ⟨hrc, hdaemon, hcaller, hfile, hlength⟩)
  · have hlen : d.request.cbLen.toUInt16 = 0 := hlength.symm.trans (not_not.mp hzero)
    refine ⟨hrc, hdaemon, ?_, hfile, hlength⟩
    rw [hlen]
    exact ht.caller.trans (Memory.blit_nil _ _).symm

/-- Behind the work of the daemon `FS_CHGFILEPTR` passes the file on. -/
theorem finishSeek_ends {q : Request} {m : Memory} {d : Daemon.State} {rc : ApiRet}
    (hserve : Daemon.serveAny s.daemon (w.posted q m) = (.ret rc, d)) (f : OpenFile) (ibOffset : ℤ)
    (usType fsIOFlag : UInt16) {t : StubState Daemon.State} (ht : Served w s q m t) :
    Ends (FileCall.finish w.stub (.chgFilePtr ibOffset usType fsIOFlag))
      (fun rc' u => rc' = rc ∧ u.daemon = d ∧ f.after u.trace = ⟨d.request.sffsi, f.sffsd⟩)
      (fun _ _ => False) t := by
  have hrequest := ht.request
  have hdaemon := ht.daemon
  rw [hserve] at hrequest hdaemon
  have hfile : { f.after t.trace with sffsi := t.pRequest.sffsi } =
      ({ f with sffsi := d.request.sffsi } : OpenFile) := by
    rw [f.after_of_storesNothing ht.silent, hrequest]
    rfl
  refine Ends.bind (Ends.bind (Ends.of_ok rfl (Ends.update (Ends.of_ok rfl ⟨?_, hdaemon, hfile⟩))))
  show t.pRequest.rc = rc
  rw [hrequest]
  rfl

end Calls

/-! ### Turns of the owner -/

/-- What the driver has when the owner calls it, and the kernel around it. -/
structure Moment where
  wiring : Wiring
  pRequest : Request
  pFSData : Memory
  caller : Memory

namespace Moment

variable (x : Moment)

/-- A call starts in front of the daemon `d`. -/
def start (d : Daemon.State) : StubState Daemon.State := ⟨x.pRequest, x.pFSData, x.caller, d, []⟩

/-- The kernel helpers succeed, and the volume of `hVPB` is at `v`. -/
structure Goes (hVPB : UInt16) (v : Ptr) : Prop where
  acquires : Acquires x.wiring.stub
  signalled : Signalled x.wiring.stub
  releases : x.wiring.stub.releaseSem = .NO_ERROR
  volume : x.wiring.stub.queryVPFSD hVPB = v

/-- The exchange buffers with another `fsIOFlag`. -/
def posted (fsIOFlag : UInt16) : Daemon.Posted :=
  x.wiring.posted { x.pRequest with fsIOFlag := fsIOFlag } x.pFSData

end Moment

/-- The owner of a file reads or seeks through the driver, or a request of anybody is served. -/
inductive FileTurn where
  | read (x : Moment) (pData : Ptr) (pcbLen fsIOFlag : UInt16)
  | seek (x : Moment) (ibOffset : Int32) (usType fsIOFlag : UInt16)
  | other (r : Daemon.Posted)

/-- The daemon and the file of the owner. -/
structure DriverSession where
  daemon : Daemon.State
  file : OpenFile

namespace FileTurn

/-- The turn at the daemon. -/
def daemonTurn : FileTurn → Daemon.Turn
  | read x _ pcbLen fsIOFlag => .read pcbLen (x.posted fsIOFlag)
  | seek x ibOffset usType fsIOFlag => .seek usType ibOffset (x.posted fsIOFlag)
  | other r => .other r

/-- What the caller of `FS_READ` gets for a cursor: a code, `*pcbLen` and its memory. -/
def gives (c : Cursor UInt8) : FileTurn → List (ApiRet × UInt16 × Memory)
  | read x pData pcbLen _ =>
    let bytes := c.read pcbLen.toNat
    [(.NO_ERROR, UInt16.ofNat bytes.length, x.caller.blit pData bytes)]
  | _ => []

/-- The kernel helpers succeed, a read starts before or at the end of the file into memory that can
be accessed, a seek fits, and other requests are answered and do not end the use of the file. -/
def Fits (v : Ptr) (y : DriverSession) : FileTurn → Prop
  | read x _ _ _ =>
    x.Goes y.file.sffsi.sfiHVPB v ∧ x.wiring.stub.probe .dataWrite = .NO_ERROR ∧
      y.file.sffsi.sfiPosition.toNat ≤ y.file.sffsi.sfiSize.toNat
  | seek x ibOffset usType _ =>
    x.Goes y.file.sffsi.sfiHVPB v ∧ SeekFits y.file.sffsi (seekType usType) ibOffset
  | other r => ¬ r.EndsFile v y.file.sffsd ∧ ∃ rc, (Daemon.serveAny y.daemon r).1 = .ret rc

end FileTurn

/-- What the callers get for a cursor over turns. -/
def driverGives : Cursor UInt8 → List FileTurn → List (ApiRet × UInt16 × Memory)
  | _, [] => []
  | c, t :: ts => t.gives c ++ driverGives (t.daemonTurn.move c) ts

namespace DriverSession

variable (y : DriverSession)

/-- The session at the daemon. -/
def atDaemon : Daemon.Session := ⟨y.daemon, y.file.sffsi⟩

/-- How a call of the owner ends. -/
def run (x : Moment) (c : FileCall) : ApiRet × StubState Daemon.State :=
  (c.body x.wiring.stub y.file).run (x.start y.daemon)

/-- The session after a call of the owner. -/
def afterCall (x : Moment) (c : FileCall) : DriverSession :=
  ⟨(y.run x c).2.daemon, y.file.after (y.run x c).2.trace⟩

def after : FileTurn → DriverSession
  | .read x pData pcbLen fsIOFlag => y.afterCall x (.read pData pcbLen fsIOFlag)
  | .seek x ibOffset usType fsIOFlag => y.afterCall x (.chgFilePtr ibOffset.toInt usType fsIOFlag)
  | .other r => { y with daemon := (Daemon.serveAny y.daemon r).2 }

/-- What the caller of `FS_READ` gets: the code, `*pcbLen` and its memory. -/
def answer : FileTurn → List (ApiRet × UInt16 × Memory)
  | .read x pData pcbLen fsIOFlag =>
    let r := y.run x (.read pData pcbLen fsIOFlag)
    [(r.1, pcbLenAfter pcbLen r.2.trace, r.2.caller)]
  | _ => []

def answers : DriverSession → List FileTurn → List (ApiRet × UInt16 × Memory)
  | _, [] => []
  | y, t :: ts => y.answer t ++ (y.after t).answers ts

/-- Each turn fits where it is taken. -/
def Fits (v : Ptr) : DriverSession → List FileTurn → Prop
  | _, [] => True
  | y, t :: ts => t.Fits v y ∧ (y.after t).Fits v ts

/-- The turn does at the daemon what its turn there does, and gives what the cursor gives. -/
structure TurnSimulates (v : Ptr) (bytes : List UInt8) (t : FileTurn) : Prop where
  atDaemon : (y.after t).atDaemon = y.atDaemon.after v y.file.sffsd t.daemonTurn
  sffsd : (y.after t).file.sffsd = y.file.sffsd
  gives : y.answer t = t.gives (fileCursor bytes y.file.sffsi)

section Simulation

variable {y : DriverSession} {v : Ptr} {vol : MountedVolume} {bytes : List UInt8} {block : ℕ}
  {x : Moment}

/-- A call of the owner that fills in its request alone ends as its last part does. -/
theorem run_of_finish {c : FileCall} {R : ApiRet → StubState Daemon.State → Prop}
    (hgoes : x.Goes y.file.sffsi.sfiHVPB v) (hdata : c.copyData x.wiring.stub = pure ())
    (hfinish : ∀ t, Served x.wiring (x.start y.daemon) (c.request x.wiring.stub y.file x.pRequest)
      x.pFSData t → Ends (c.finish x.wiring.stub)
        (fun rc u => R rc { u with trace := .clearSerialize :: u.trace }) R t) :
    R (y.run x c).1 (y.run x c).2 := by
  have hexit (rc : ApiRet) : exitCode x.wiring.stub rc = rc := by
    rw [exitCode, if_neg (not_not.mpr hgoes.releases)]
  refine Ends.run (Q := fun _ _ => False) ?_
  rw [c.body_eq]
  refine @exchange_served x.wiring (x.start y.daemon) R _ _
    (c.request x.wiring.stub y.file x.pRequest) x.pFSData True rfl
    (fun h => absurd hgoes.acquires h) ?_ ?_ (fun h => absurd hgoes.signalled h) fun t ht => ?_
  · rw [hdata]
    exact (Emits.setRequest trivial _).bind fun _ => Emits.pure _
  · rw [hdata]
    exact (setRequest_prepared _).bind fun _ => Triple.pure fun _ h => ⟨trivial, h⟩
  · simp only [hexit]
    exact hfinish t ht

/-- A read through the driver is the read of the owner at the daemon. -/
theorem read_simulates (h : y.atDaemon.Follows v y.file.sffsd vol bytes block) {pData : Ptr}
    {pcbLen fsIOFlag : UInt16} (ht : (FileTurn.read x pData pcbLen fsIOFlag).Fits v y) :
    y.TurnSimulates v bytes (.read x pData pcbLen fsIOFlag) := by
  obtain ⟨hgoes, hprobe, hpos⟩ := ht
  have hturn := h.read hpos pcbLen (x.posted fsIOFlag)
  obtain ⟨d, hd⟩ : ∃ d, d = (y.atDaemon.serve v y.file.sffsd
    (.read pcbLen (x.posted fsIOFlag))).2 := ⟨_, rfl⟩
  obtain ⟨hrc, hbytes⟩ := Prod.mk.inj (List.cons.inj hturn.gives).1
  have hserve : Daemon.serveAny y.daemon (x.wiring.posted
      (FileCall.request x.wiring.stub y.file (.read pData pcbLen fsIOFlag) x.pRequest)
      x.pFSData) = (.ret .NO_ERROR, d) := by
    rw [hd, ← hrc, ← hgoes.volume]
    rfl
  rw [← hd] at hbytes
  have hlength : d.request.cbLen.toNat =
      ((fileCursor bytes y.file.sffsi).read pcbLen.toNat).length := by
    have h := congrArg List.length hbytes
    rwa [Memory.length_slice] at h
  have hcbLen : d.request.cbLen.toUInt16.toNat = d.request.cbLen.toNat := by
    have hle := (fileCursor bytes y.file.sffsi).length_read pcbLen.toNat
    have hlt := pcbLen.toNat_lt
    rw [UInt32.toNat_toUInt16, Nat.mod_eq_of_lt (by omega)]
  obtain ⟨hrun, hdaemon, hcaller, hfile, hstored⟩ := @run_of_finish y v x
    (.read pData pcbLen fsIOFlag)
    (fun rc u => rc = .NO_ERROR ∧ u.daemon = d ∧
      u.caller = x.caller.blit pData (d.pData.slice 0 d.request.cbLen.toUInt16.toNat) ∧
      y.file.after u.trace = ⟨d.request.sffsi, y.file.sffsd⟩ ∧
      pcbLenAfter pcbLen u.trace = d.request.cbLen.toUInt16) hgoes rfl
    fun t ht => (finishRead_ends hserve hprobe y.file pcbLen fsIOFlag ht).mono (fun _ _ h => h)
      fun _ _ h => h.elim
  refine ⟨?_, ?_, ?_⟩
  · show Daemon.Session.mk (y.run x _).2.daemon (y.file.after (y.run x _).2.trace).sffsi = _
    rw [hdaemon, hfile, hd]
    rfl
  · show (y.file.after (y.run x _).2.trace).sffsd = _
    rw [hfile]
  · show [((y.run x _).1, pcbLenAfter pcbLen (y.run x _).2.trace, (y.run x _).2.caller)] = _
    rw [hrun, hstored, hcaller, hcbLen, hbytes, FileTurn.gives, ← hlength, ← hcbLen,
      UInt16.ofNat_toNat]
    rfl

/-- A seek through the driver is the seek of the owner at the daemon. -/
theorem seek_simulates {ibOffset : Int32} {usType fsIOFlag : UInt16}
    (hgoes : x.Goes y.file.sffsi.sfiHVPB v) :
    y.TurnSimulates v bytes (.seek x ibOffset usType fsIOFlag) := by
  obtain ⟨rc, d, hserve⟩ : ∃ rc d, y.atDaemon.serve v y.file.sffsd
      (.seek usType ibOffset (x.posted fsIOFlag)) = (.ret rc, d) := ⟨_, _, rfl⟩
  have hserve' : Daemon.serveAny y.daemon (x.wiring.posted
      (FileCall.request x.wiring.stub y.file (.chgFilePtr ibOffset.toInt usType fsIOFlag)
        x.pRequest) x.pFSData) = (.ret rc, d) := by
    rw [← hserve, ← hgoes.volume]
    rfl
  obtain ⟨-, hdaemon, hfile⟩ := @run_of_finish y v x (.chgFilePtr ibOffset.toInt usType fsIOFlag)
    (fun rc' u => rc' = rc ∧ u.daemon = d ∧
      y.file.after u.trace = ⟨d.request.sffsi, y.file.sffsd⟩) hgoes rfl
    fun t ht => (finishSeek_ends hserve' y.file ibOffset.toInt usType fsIOFlag ht).mono
      (fun _ _ h => h) fun _ _ h => h.elim
  refine ⟨?_, ?_, rfl⟩
  · show Daemon.Session.mk (y.run x _).2.daemon (y.file.after (y.run x _).2.trace).sffsi = _
    rw [hdaemon, hfile, Daemon.Session.after, FileTurn.daemonTurn, hserve]
    rfl
  · show (y.file.after (y.run x _).2.trace).sffsd = _
    rw [hfile]

/-- Every turn that fits is a turn of the owner at the daemon. -/
theorem turn_simulates (h : y.atDaemon.Follows v y.file.sffsd vol bytes block) {t : FileTurn}
    (ht : t.Fits v y) : y.TurnSimulates v bytes t := by
  cases t with
  | read x pData pcbLen fsIOFlag => exact read_simulates h ht
  | seek x ibOffset usType fsIOFlag => exact seek_simulates ht.1
  | other r => exact ⟨rfl, rfl, rfl⟩

theorem daemonTurn_fits {t : FileTurn} (ht : t.Fits v y) :
    t.daemonTurn.Fits v y.file.sffsd y.atDaemon := by
  cases t with
  | read x pData pcbLen fsIOFlag => exact ht.2.2
  | seek x ibOffset usType fsIOFlag => exact ht.2
  | other r => exact ht

/-- Behind a turn that fits the session is still that of the file, its cursor moved. -/
theorem follows_after (h : y.atDaemon.Follows v y.file.sffsd vol bytes block) {t : FileTurn}
    (ht : t.Fits v y) :
    (y.after t).atDaemon.Follows v (y.after t).file.sffsd vol bytes block ∧
      fileCursor bytes (y.after t).file.sffsi =
        t.daemonTurn.move (fileCursor bytes y.file.sffsi) := by
  have hsimulates := turn_simulates h ht
  have hturn := h.turn (daemonTurn_fits ht)
  constructor
  · rw [hsimulates.atDaemon, hsimulates.sffsd]
    exact hturn.follows
  · refine Eq.trans ?_ hturn.moves
    rw [← hsimulates.atDaemon]
    rfl

/-- Over turns that fit the callers get what the cursor gives. -/
theorem answers_of_follows (h : y.atDaemon.Follows v y.file.sffsd vol bytes block)
    {ts : List FileTurn} (hts : y.Fits v ts) :
    y.answers ts = driverGives (fileCursor bytes y.file.sffsi) ts := by
  induction ts generalizing y with
  | nil => rfl
  | cons t ts ih =>
    obtain ⟨hfollows, hmoves⟩ := follows_after h hts.1
    rw [answers, driverGives, (turn_simulates h hts.1).gives, ih hfollows hts.2, hmoves]

end Simulation

end DriverSession

/-! ### The open -/

/-- The daemon, its reply and what has been passed on of a file. -/
def Passed (f f' : OpenFile) (d : Daemon.State) (q : Request) (u : StubState Daemon.State) : Prop :=
  u.daemon = d ∧ u.pRequest = q ∧ f.after u.trace = f'

section Passed

variable {w : Wiring} {f f' : OpenFile} {d : Daemon.State} {q : Request}

theorem mustProbe_passed (site : ProbeSite) (p : Ptr) (len : UInt16) :
    Preserves (Passed f f' d q) (mustProbe w.stub site p len) :=
  .bind (.bind (.update fun _ h => h) fun _ => .pure) fun _ => .onlyIf .ret

theorem listToBuf_passed (turn : Turn) (site : EaopProbe) (p : Ptr) :
    Preserves (Passed f f' d q) (listToBuf w.stub turn site p) :=
  .bind .read fun _ => .bind (.bind (.onlyIf .ret) fun _ => .onlyIf .ret) fun _ =>
    .bind (mustProbe_passed _ _ _) fun _ => .update fun _ h => h

theorem bufToFeas_passed (turn : Turn) (pfeas : Ptr) :
    Preserves (Passed f f' d q) (bufToFeas w.stub turn pfeas) :=
  .bind (fun _ h => h) fun _ => .bind .read fun _ => .bind (mustProbe_passed _ _ _) fun _ =>
    .update fun _ h => h

/-- `copyEAOP` leaves the file, the daemon and the reply alone. -/
theorem copyEAOP_passed (turn : Turn) (p : Ptr) (usWhat oError : UInt16) :
    Preserves (Passed f f' d q) (copyEAOP w.stub turn p usWhat oError) := by
  refine .bind (mustProbe_passed _ _ _) fun _ => .bind .read fun pgeas => .bind .read fun pfeas =>
    .bind (.onlyIf ?_) fun _ => .bind (.onlyIf ?_) fun _ => .bind (.onlyIf ?_) fun _ => .ret
  · exact .bind (mustProbe_passed _ _ _) fun _ => .update fun _ h => h
  · exact .bind (mustProbe_passed _ _ _) fun _ => .bind (.onlyIf (listToBuf_passed _ _ _)) fun _ =>
      .onlyIf (bufToFeas_passed _ _)
  · exact .bind (mustProbe_passed _ _ _) fun _ => listToBuf_passed _ _ _

end Passed

namespace OpenCall

variable (o : OpenCall) {w : Wiring} {f : OpenFile} {s : StubState Daemon.State}

/-- The request as the daemon gets it. -/
def posted (w : Wiring) (f : OpenFile) (s : StubState Daemon.State) : Daemon.Posted :=
  w.posted (o.request w.stub f s.pRequest) (s.pFSData.blit 0 (feasIn s.caller o.pEABuf))

/-- How the open ends. -/
def run (w : Wiring) (f : OpenFile) (s : StubState Daemon.State) :
    ApiRet × StubState Daemon.State :=
  (o.body w.stub f).run { s with trace := [] }

/-- The driver, the daemon and the file after an open. -/
def session (w : Wiring) (f : OpenFile) (s : StubState Daemon.State) : DriverSession :=
  ⟨(o.run w f s).2.daemon, f.after (o.run w f s).2.trace⟩

/-- The file that an open passes on: its handle only for an `STYPE_FILE`. -/
def passedOn (f : OpenFile) (q : Request) : OpenFile :=
  ⟨q.sffsi, if q.sffsi.sfiType = STYPE_FILE then q.pOpenFileData else f.sffsd⟩

/-- A part that releases the exchange buffers before the request is handed over is an error. -/
theorem fill_refuses (env : StubEnv Daemon.State) :
    Triple (fun _ => True) (o.fill env f) (fun _ _ => True) (fun rc _ => rc ≠ .NO_ERROR) := by
  have hexit {rc : ApiRet} (hrc : rc ≠ .NO_ERROR) :
      Triple (fun _ => True) (releaseAndExit env rc : Stub Daemon.State Unit) (fun _ _ => True)
        (fun rc _ => rc ≠ .NO_ERROR) :=
    Triple.bind (Q := fun _ _ => True) (Triple.update fun _ _ => trivial) fun _ =>
      Triple.ret fun _ _ => exitCode_ne_noError hrc
  have hset (g : Request → Request) :
      Triple (fun _ => True) (setRequest g : Stub Daemon.State Unit) (fun _ _ => True)
        (fun rc _ => rc ≠ .NO_ERROR) := Triple.update fun _ _ => trivial
  refine (hset _).bind fun _ => (Triple.onlyIf (fun _ => hexit (by decide)) fun _ _ h => h).bind
    fun _ => (hset _).bind fun _ => ?_
  split
  · refine Triple.bind (Triple.call (S := fun _ _ => True) fun _ _ => Ends.true) fun rc => ?_
    exact (Triple.onlyIf (fun hrc => hexit hrc) fun _ _ h => h).bind fun _ => hset _
  · exact hset _

theorem fill_silent (env : StubEnv Daemon.State) : Emits StoresNothing (o.fill env f) := by
  refine (Emits.setRequest trivial _).bind fun _ => (Emits.checkString trivial _ _).bind fun _ =>
    (Emits.setRequest trivial _).bind fun _ => ?_
  split
  · exact (Emits.call (Emits.copyEAOP trivial (fun _ _ _ => trivial) (fun _ _ => trivial)
      (fun _ _ => trivial) _ _ _ _)).bind fun _ =>
        (Emits.onlyIf (Emits.releaseAndExit trivial _)).bind fun _ => Emits.setRequest trivial _
  · exact Emits.setRequest trivial _

/-- The statements that follow the store of the handle end with the code of the reply, or with an
error. -/
theorem rest_passed {f' : OpenFile} {d : Daemon.State} {q : Request} :
    Triple (Passed f f' d q) (o.rest w.stub) (fun rc u => rc = q.rc ∧ Passed f f' d q u)
      (fun rc _ => rc ≠ .NO_ERROR) := by
  have hget {α : Type} (g : Request → α) {R : ApiRet → StubState Daemon.State → Prop} :
      Triple (Passed f f' d q) (getRequest g : Stub Daemon.State α)
        (fun _ => Passed f f' d q) R := fun _ h => h
  have hstore (output : Output) (hkeeps : ∀ g : OpenFile, g.store (.store output) = g)
      {R : ApiRet → StubState Daemon.State → Prop} :
      Triple (Passed f f' d q) (store output) (fun _ => Passed f f' d q) R :=
    Triple.update fun _ h => ⟨h.1, h.2.1, (hkeeps _).trans h.2.2⟩
  have hrc : Triple (Passed f f' d q) (requestRc : Stub Daemon.State ApiRet)
      (fun rc u => rc = q.rc ∧ Passed f f' d q u) (fun rc _ => rc ≠ .NO_ERROR) :=
    fun _ h => ⟨congrArg Request.rc h.2.1, h⟩
  refine (hget _).bind fun _ => (hstore _ fun _ => rfl).bind fun _ => (hget _).bind fun _ =>
    (hstore _ fun _ => rfl).bind fun _ => ?_
  split
  · refine (hget _).bind fun _ => (Triple.call (copyEAOP_passed _ _ _ _)).bind fun rc => ?_
    refine Triple.bind (Q := fun _ => Passed f f' d q) (Triple.onlyIf (fun hne => ?_)
      fun _ _ h => h) fun _ => hrc
    exact Triple.bind (Q := fun _ _ => True) (Triple.update fun _ _ => trivial) fun _ =>
      Triple.ret fun _ _ => exitCode_ne_noError hne
  · exact hrc

/-- Behind the work of the daemon the file is passed on. -/
theorem finish_passed {q : Request} {m : Memory} {d : Daemon.State} {rc : ApiRet}
    (hserve : Daemon.serveAny s.daemon (w.posted q m) = (.ret rc, d))
    {t : StubState Daemon.State} (ht : Served w s q m t) :
    Ends (o.finish w.stub) (fun rc' u => rc' = rc ∧ u.daemon = d ∧
      f.after u.trace = passedOn f d.request) (fun rc' _ => rc' ≠ .NO_ERROR) t := by
  have hrequest : t.pRequest = { d.request with rc := rc } := by
    rw [ht.request, hserve]
    rfl
  have hdaemon : t.daemon = d := by rw [ht.daemon, hserve]
  have hafter : f.after t.trace = f := f.after_of_storesNothing ht.silent
  have hrest {u : StubState Daemon.State}
      (hu : Passed f (passedOn f d.request) d { d.request with rc := rc } u) :
      Ends (o.rest w.stub) (fun rc' u => rc' = rc ∧ u.daemon = d ∧
        f.after u.trace = passedOn f d.request) (fun rc' _ => rc' ≠ .NO_ERROR) u :=
    (o.rest_passed u hu).mono (fun _ _ h => ⟨h.1, h.2.1, h.2.2.2⟩) fun _ _ h => h
  have hsffsi : t.pRequest.sffsi = d.request.sffsi := by rw [hrequest]
  have hhandle : t.pRequest.pOpenFileData = d.request.pOpenFileData := by rw [hrequest]
  refine Ends.bind (Ends.of_ok rfl (Ends.bind (Ends.update (Ends.bind (Ends.of_ok rfl
    (Ends.bind (Ends.onlyIf (fun hfile => Ends.update ?_) fun hother => ?_)))))))
  · refine hrest ⟨hdaemon, hrequest, ?_⟩
    show OpenFile.mk t.pRequest.sffsi t.pRequest.pOpenFileData = _
    rw [passedOn, if_pos (hsffsi ▸ hfile), hsffsi, hhandle]
  · refine hrest ⟨hdaemon, hrequest, ?_⟩
    show OpenFile.mk t.pRequest.sffsi (f.after t.trace).sffsd = _
    rw [passedOn, if_neg (hsffsi ▸ hother), hsffsi, hafter]

/-- An open whose request is answered and that succeeds was granted by the daemon, and its file was
passed on. -/
theorem granted_of_run (h : (o.run w f s).1 = .NO_ERROR)
    (hanswered : ∃ rc, (Daemon.serveAny s.daemon (o.posted w f s)).1 = .ret rc) :
    (Daemon.serveAny s.daemon (o.posted w f s)).1 = .ret .NO_ERROR ∧
      o.session w f s = ⟨(Daemon.serveAny s.daemon (o.posted w f s)).2,
        passedOn f (Daemon.serveAny s.daemon (o.posted w f s)).2.request⟩ := by
  obtain ⟨rc, hrc⟩ := hanswered
  have hserve : Daemon.serveAny s.daemon (o.posted w f s) =
      (.ret rc, (Daemon.serveAny s.daemon (o.posted w f s)).2) := Prod.ext hrc rfl
  rw [hrc]
  generalize (Daemon.serveAny s.daemon (o.posted w f s)).2 = d at hserve
  have hend : (o.run w f s).1 = .NO_ERROR → rc = .NO_ERROR ∧ (o.run w f s).2.daemon = d ∧
      f.after (o.run w f s).2.trace = passedOn f d.request := by
    refine Ends.run (Q := fun _ _ => False) (R := fun (rc' : ApiRet) (u : StubState Daemon.State) =>
      rc' = .NO_ERROR → rc = .NO_ERROR ∧ u.daemon = d ∧ f.after u.trace = passedOn f d.request) ?_
    rw [body_eq]
    refine exchange_served rfl (fun hnot _ hok => ?_) (o.fill_silent _)
      (((o.fill_prepared).and (o.fill_refuses _)).consequence (fun _ h => ⟨h, trivial⟩)
        (fun _ _ h => h.1) fun _ _ h hok => absurd hok h.2) (fun hnot _ hok => ?_) fun t ht => ?_
    · exact absurd (acquireCode_eq_noError_iff.mp hok) hnot
    · exact absurd hok (exitCode_ne_noError (mt signalCode_eq_noError_iff.mp hnot))
    · have hserved : Served w s (o.request w.stub f s.pRequest)
          (s.pFSData.blit 0 (feasIn s.caller o.pEABuf)) t :=
        ⟨ht.caller, ht.daemon, ht.request, ht.data, ht.silent⟩
      refine (o.finish_passed (f := f) hserve hserved).mono (fun rc' u h hok => ?_)
        fun _ _ h hok => absurd hok h
      obtain ⟨rfl, hdaemon, hfile⟩ := h
      refine ⟨?_, hdaemon, hfile⟩
      by_contra hne
      exact absurd hok (exitCode_ne_noError hne)
  obtain ⟨rfl, hdaemon, hfile⟩ := hend h
  exact ⟨rfl, by rw [session, hdaemon, hfile]⟩

end OpenCall

end Stub

end Isofs
