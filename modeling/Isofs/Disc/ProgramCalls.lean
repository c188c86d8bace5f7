import Isofs.Disc.Driver
import Isofs.Disc.Mounting
import Isofs.Stub.Attach
import Isofs.Stub.SequentialRuns
import Isofs.Stub.SharedUse

/-!
# The calls of a program

A program attaches a disc, opens a path and reads the file. What the calls leave behind when they
succeed, and when they do.
-/

namespace Isofs

namespace Stub

/-! ### An attach and an open -/

/-- The call of the driver. -/
def AttachCall.call (a : AttachCall) : StubCall :=
  .fsAttach FSA_ATTACH a.pszDev (some a.pvpfsd) a.pcdfsd a.pParm a.pcbParm

/-- The call of the driver for the file `f`. -/
def OpenCall.call (o : OpenCall) (f : OpenFile) : StubCall :=
  .fsOpenCreate o.cdfsi o.cdfsd o.pszName o.iCurDirEnd f.sffsi o.flOpenMode o.fsOpenFlag o.fsAttr
    o.pEABuf

section Program

variable {k : ℕ} (d : WritableDisc k) (w : Wiring) (a : AttachCall) (o : OpenCall) (f : OpenFile)
  (v : Ptr) (nls : Option NlsTable) (x : DriverCall Daemon.State)

/-- The call attaches the disc and succeeds, its request being answered. -/
structure Attaches : Prop where
  call : x.call = a.call
  succeeds : x.code = .NO_ERROR
  answered : ∃ rc, (Daemon.serveAny x.state.daemon (a.posted w x.state)).1 = .ret rc
  image : w.daemonEnv.mount.fopen (cString (szBasePath (a.posted w x.state).pData)) = some d.image
  offset : iOffsetParm (a.posted w x.state).pData = d.session
  fuel : 1 ≤ w.daemonEnv.fuel

/-- The call opens a path of the volume and succeeds. -/
structure OpensPath : Prop where
  call : x.call = o.call f
  succeeds : x.code = .NO_ERROR
  volume : x.env.queryVPFSD o.cdfsi.cdiHVPB = v
  through : d.PathThroughDirs nls (o.pszName.drop 2)
  fcb : f.sffsi.sfiType &&& STYPE_FCB = 0

/-- The table for the characters of the volume that the call attaches. -/
def callNls : Option NlsTable := attachedNls w.daemonEnv.mount (a.posted w x.state).pData

variable {d w a o f v nls x}

theorem callNls_eq :
    callNls w a x = attachedNls w.daemonEnv.mount (a.data x.state.caller x.state.pFSData) := rfl

theorem AttachCall.run_call (henv : w.stub = x.env) (hcall : x.call = a.call) :
    a.run w x.state = (x.code, x.final) := by
  rw [AttachCall.run, henv]
  apply DriverCall.run_of_body
  rw [hcall]
  rfl

theorem OpenCall.run_call (henv : w.stub = x.env) (hcall : x.call = o.call f) :
    o.run w f x.state = (x.code, x.final) := by
  rw [OpenCall.run, henv]
  apply DriverCall.run_of_body
  rw [hcall]
  rfl

theorem Attaches.mounted (h : Attaches d w a x) (hserve : x.env.serve = w.stub.serve) :
    ∃ vol, (x.final.daemon.core.volumes (vpfsdAfter a.pvpfsd x.final.trace)).map VolNode.vol =
      some vol ∧ d.MountedAs (callNls w a x) vol := by
  have hrun := AttachCall.run_call (Wiring.stub_around hserve) h.call
  have hgranted := @AttachCall.granted_of_run a (w.around x.env) x.state
    (by rw [hrun]; exact h.succeeds) h.answered
  rw [hrun] at hgranted
  obtain ⟨hok, hdaemon, hvolume⟩ := hgranted
  rw [hdaemon, hvolume]
  exact d.attach_mounts rfl rfl h.image h.offset h.fuel hok

theorem OpensPath.session (h : OpensPath d o f v nls x) (hserve : x.env.serve = w.stub.serve) :
    o.session (w.around x.env) f x.state = ⟨x.final.daemon, f.after x.final.trace⟩ ∧
      (o.run (w.around x.env) f x.state).1 = .NO_ERROR := by
  have hrun := OpenCall.run_call (Wiring.stub_around hserve) h.call
  rw [OpenCall.session, hrun]
  exact ⟨rfl, h.succeeds⟩

/-- Behind an open that succeeds the kernel and the daemon have the file of the path. -/
theorem OpensPath.follows (h : OpensPath d o f v nls x) (hserve : x.env.serve = w.stub.serve)
    {node : VolNode} (hnode : x.state.daemon.core.volumes v = some node)
    (hmounted : d.MountedAs nls node.vol) :
    ∃ n bytes, d.resolve nls (o.pszName.drop 2) = some n ∧ d.content n = .file bytes ∧
      (f.after x.final.trace).sffsi.sfiSize.toNat = bytes.length ∧
      (f.after x.final.trace).sffsi.sfiPosition = 0 ∧
      (DriverSession.mk x.final.daemon (f.after x.final.trace)).atDaemon.Follows v
        (f.after x.final.trace).sffsd node.vol bytes (d.place n).block ∧
      fileCursor bytes (f.after x.final.trace).sffsi = ⟨bytes, 0⟩ := by
  obtain ⟨hsession, hok⟩ := h.session hserve
  have hvolume : (w.around x.env).stub.queryVPFSD o.cdfsi.cdiHVPB = v := by
    rw [Wiring.stub_around hserve]
    exact h.volume
  have hfollows := OpenCall.session_follows (hvolume ▸ hnode) hmounted.level hmounted.onVolume
    (hmounted.nls ▸ h.through) h.fcb hok
  rw [hmounted.nls, hsession, hvolume] at hfollows
  exact hfollows

end Program

/-! ### Calls that succeed -/

/-- The helpers of the kernel succeed, and the volume of every `hVPB` is at `v`. -/
structure Wiring.Helps (w : Wiring) (v : Ptr) : Prop where
  acquires : Acquires w.stub
  sets : w.stub.setRqDone .request = .NO_ERROR
  clears : ∀ signal, w.stub.clearRqAvail signal = .NO_ERROR
  waits : ∀ signal, w.stub.waitRqDone signal = .NO_ERROR
  stays : ∀ signal, w.stub.daemonAfterWait signal = true
  releases : w.stub.releaseSem = .NO_ERROR
  probes : ∀ site, w.stub.probe site = .NO_ERROR
  volume : ∀ hVPB, w.stub.queryVPFSD hVPB = v

/-- The attach is one of the disc, and the daemon that it meets can make it. -/
structure AttachCall.Suits {k : ℕ} (a : AttachCall) (d : WritableDisc k) (w : Wiring)
    (s : StubState Daemon.State) : Prop where
  drive : Daemon.IsDrive a.pszDev
  parms : checkAttachParms a.pcbParm (a.posted w s).pData = .NO_ERROR
  image : w.daemonEnv.mount.fopen (cString (szBasePath (a.posted w s).pData)) = some d.image
  offset : iOffsetParm (a.posted w s).pData = d.session
  fuel : 1 ≤ w.daemonEnv.fuel
  malloc : w.daemonEnv.mount.malloc = true
  first : Daemon.LinkLive s.daemon.core s.daemon.server.pFirstVolume

/-- The open is one to read of a file of the disc. -/
structure OpenCall.Suits {k : ℕ} (o : OpenCall) (d : WritableDisc k) (w : Wiring) (f : OpenFile)
    (nls : Option NlsTable) (bytes : List UInt8) : Prop where
  name : o.pszName.length < CCHMAXPATH
  noEAs : o.pEABuf = none
  mode : Daemon.OpensToRead (o.request w.stub f default)
  malloc : w.daemonEnv.malloc = true
  names : ∃ n, d.resolve nls (o.pszName.drop 2) = some n ∧ d.content n = .file bytes
  fcb : f.sffsi.sfiType &&& STYPE_FCB = 0

/-- The calls read the file, each as many bytes as asked for and to the address asked for, and they
give the string piece by piece. -/
def Delivers :
    OpenFile → List UInt8 → List (Ptr × UInt16) → List (DriverCall Daemon.State) → Prop
  | _, _, [], [] => True
  | f, bytes, (pData, cbLen) :: reads, x :: xs =>
    x.call = .fsRead f.sffsi f.sffsd pData cbLen 0 ∧ x.code = .NO_ERROR ∧
      pcbLenAfter cbLen x.final.trace = UInt16.ofNat (bytes.take cbLen.toNat).length ∧
      x.final.caller = x.state.caller.blit pData (bytes.take cbLen.toNat) ∧
      Delivers (f.after x.final.trace) (bytes.drop cbLen.toNat) reads xs
  | _, _, _, _ => False

section Helps

variable {k : ℕ} {d : WritableDisc k} {w : Wiring} {a : AttachCall} {o : OpenCall} {f : OpenFile}
  {v : Ptr} {nls : Option NlsTable} {bytes : List UInt8} {x : DriverCall Daemon.State}

theorem Wiring.Helps.signalled (h : w.Helps v) : Signalled w.stub :=
  ⟨h.sets, h.clears _, h.waits _, h.stays _⟩

theorem Wiring.Helps.succeeds (h : w.Helps v) (henv : x.env = w.stub)
    {fill : Stub Daemon.State Unit} {finish : Stub Daemon.State ApiRet} {P P' : StubEvent → Prop}
    (hbody : x.call.body x.env = exchange x.env fill finish) (hfill : Emits P fill)
    (hfinish : Emits P' finish) : x.Succeeds := by
  refine ⟨?_, ?_, ?_, ?_⟩
  · rw [henv]
    exact h.acquires.2.2.2
  · rw [henv]
    exact h.waits
  · rw [henv]
    exact h.stays
  · rw [DriverCall.final, hbody]
    exact requests_of_exchange (henv ▸ h.acquires) hfill hfinish _

theorem Wiring.Helps.file_succeeds (h : w.Helps v) (henv : x.env = w.stub) {c : FileCall}
    (hbody : x.call.body x.env = c.body x.env f) : x.Succeeds :=
  h.succeeds henv (hbody.trans c.body_eq)
    ((Emits.setRequest trivial _).bind fun _ => c.copyData_emits) c.finish_emits

theorem AttachCall.Suits.attaches (ha : a.Suits d w x.state) (h : w.Helps v)
    (henv : x.env = w.stub) (hcall : x.call = a.call) :
    Attaches d w a x ∧
      vpfsdAfter a.pvpfsd x.final.trace = x.state.daemon.server.volumes.next := by
  obtain ⟨t, hserve, hvolume⟩ := d.attach_granted (r := a.posted w x.state) rfl rfl ha.drive
    ha.first ha.parms ha.malloc ha.image ha.offset ha.fuel
  have hgranted := congrArg Prod.fst hserve
  have hname : a.pszDev.length < FSXCHG_ATTACH_DEVMAX := by
    have hdrive := ha.drive
    simp only [Daemon.IsDrive, not_or, not_not] at hdrive
    rw [hdrive.2.1]
    decide
  have hsucceeds : (a.run w x.state).1 = .NO_ERROR :=
    a.run_of_granted h.acquires h.signalled h.releases ⟨hname, fun _ => h.probes _⟩ hgranted
  obtain ⟨-, -, hpassed⟩ := a.granted_of_run hsucceeds ⟨_, hgranted⟩
  rw [AttachCall.run_call henv.symm hcall] at hsucceeds hpassed
  refine ⟨⟨hcall, hsucceeds, ⟨_, hgranted⟩, ha.image, ha.offset, ha.fuel⟩, ?_⟩
  rw [← hvolume]
  refine hpassed.trans ?_
  rw [hserve]

theorem OpenCall.Suits.opensPath (ho : o.Suits d w f nls bytes) (h : w.Helps v)
    (henv : x.env = w.stub) (hcall : x.call = o.call f) {node : VolNode}
    (hnode : x.state.daemon.core.volumes v = some node) (hmounted : d.MountedAs nls node.vol) :
    OpensPath d o f v nls x := by
  obtain ⟨n, hn, hbytes⟩ := ho.names
  have hvolume := h.volume o.cdfsi.cdiHVPB
  have hsucceeds : (o.run w f x.state).1 = .NO_ERROR :=
    OpenCall.run_of_named h.acquires h.signalled h.releases ho.name ho.noEAs
      ⟨ho.mode.path, ho.mode.action, ho.mode.dasd, ho.mode.mode⟩ ho.malloc (hvolume ▸ hnode)
      hmounted.level hmounted.onVolume (hmounted.nls ▸ hn) hbytes
  rw [OpenCall.run_call henv.symm hcall] at hsucceeds
  exact ⟨hcall, hsucceeds, henv ▸ hvolume, Disc.throughDirs_of_resolve hn, ho.fcb⟩

/-- Reads of a file that is open can be made one after the other, and give what follows its
position. -/
theorem Wiring.Helps.delivers (h : w.Helps v) {vol : MountedVolume} {block : ℕ}
    (reads : List (Ptr × UInt16)) (s : StubState Daemon.State) (f : OpenFile)
    (hfollows : (DriverSession.mk s.daemon f).atDaemon.Follows v f.sffsd vol bytes block)
    (hle : f.sffsi.sfiPosition.toNat ≤ bytes.length) :
    ∃ xs t, Transition.Leads (CallStep w.stub.serve) xs s.shared t ∧ (∀ x ∈ xs, x.Succeeds) ∧
      Delivers f (bytes.drop f.sffsi.sfiPosition.toNat) reads xs := by
  induction reads generalizing s f with
  | nil => exact ⟨[], _, .nil _, List.forall_mem_nil _, trivial⟩
  | cons r reads ih =>
    obtain ⟨pData, cbLen⟩ := r
    let x : DriverCall Daemon.State :=
      ⟨⟨w.stub, s, .fsRead f.sffsi f.sffsd pData cbLen 0, trivial⟩, h.clears⟩
    have hserve : x.env.serve = w.stub.serve := rfl
    have hbody : x.call.body x.env = FileCall.body x.env f (.read pData cbLen 0) := rfl
    have hstub : (x.moment w).wiring.stub = w.stub := Wiring.stub_around rfl
    have hsize : f.sffsi.sfiSize.toNat = bytes.length := by
      obtain ⟨-, file, -, -, hsize⟩ := hfollows
      exact hsize
    have hfits : (FileTurn.read (x.moment w) pData cbLen 0).Fits v ⟨s.daemon, f⟩ := by
      refine ⟨⟨?_, ?_, ?_, ?_⟩, ?_, ?_⟩
      · rw [hstub]
        exact h.acquires
      · rw [hstub]
        exact h.signalled
      · rw [hstub]
        exact h.releases
      · rw [hstub]
        exact h.volume _
      · rw [hstub]
        exact h.probes _
      · exact hsize ▸ hle
    obtain ⟨hfollows', hcursor⟩ := DriverSession.follows_after hfollows hfits
    have hgives := (DriverSession.turn_simulates hfollows hfits).gives
    rw [DriverSession.after, after_moment hserve hbody] at hfollows' hcursor
    rw [DriverSession.answer, run_moment hserve hbody] at hgives
    obtain ⟨hcode, hrest⟩ := Prod.mk.inj (List.cons.inj hgives).1
    obtain ⟨hlength, hcaller⟩ := Prod.mk.inj hrest
    have hposition : (f.after x.final.trace).sffsi.sfiPosition.toNat =
        ((fileCursor bytes f.sffsi).advance cbLen.toNat).pos := congrArg Cursor.pos hcursor
    have hdrop : bytes.drop (f.after x.final.trace).sffsi.sfiPosition.toNat =
        (bytes.drop f.sffsi.sfiPosition.toNat).drop cbLen.toNat := by
      rw [hposition]
      exact (fileCursor bytes f.sffsi).drop_pos_advance _
    have hle' : (f.after x.final.trace).sffsi.sfiPosition.toNat ≤ bytes.length := by
      rw [hposition]
      exact Cursor.pos_advance_le (c := fileCursor bytes f.sffsi) hle _
    obtain ⟨xs, t, hleads, hxs, hdelivers⟩ := ih x.final (f.after x.final.trace) hfollows' hle'
    refine ⟨x :: xs, t, .cons ⟨rfl, rfl, rfl⟩ hleads, List.forall_mem_cons.mpr ⟨?_, hxs⟩,
      rfl, hcode, hlength, hcaller, ?_⟩
    · exact h.file_succeeds rfl hbody
    · rw [hdrop] at hdelivers
      exact hdelivers

end Helps

end Stub

end Isofs
