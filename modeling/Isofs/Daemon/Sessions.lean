import Isofs.Daemon.OpenFiles
import Isofs.Daemon.ReadOnly
import Isofs.File.Stored

/-!
# Reading an open file among other requests

The owner of an open file reads and seeks in it while anybody makes requests of all kinds. The reads
give the bytes of the file from a cursor on that only the owner moves.
-/

namespace Isofs.Daemon

open Proc

/-- The daemon, and what the kernel keeps for the open file. -/
structure Session where
  daemon : State
  sffsi : Sffsi

/-- The owner of the file reads or seeks, or anybody makes a request. The fields of `r` that the
entry points of the owner do not set are arbitrary. -/
inductive Turn where
  | read (cbLen : UInt16) (r : Posted)
  | seek (usType : UInt16) (ibOffset : Int32) (r : Posted)
  | other (r : Posted)

namespace Turn

/-- The request of a turn on the file at `p` of the volume at `v`. -/
def posted (v p : Ptr) (sffsi : Sffsi) : Turn → Posted
  | read cbLen r =>
    { r with
      request :=
        { r.request with
          rq := .FSRQ_READ, pVolData := v, pOpenFileData := p, sffsi := sffsi
          cbLen := cbLen.toUInt32 } }
  | seek usType ibOffset r =>
    { r with
      request :=
        { r.request with
          rq := .FSRQ_CHGFILEPTR, pVolData := v, pOpenFileData := p, sffsi := sffsi
          usType := usType, ibOffset := ibOffset.toInt } }
  | other r => r

/-- The turn is one of the owner. -/
def isOwn : Turn → Bool
  | read .. => true
  | seek .. => true
  | other _ => false

/-- The cursor of the owner after the turn. -/
def move (c : Cursor UInt8) : Turn → Cursor UInt8
  | read cbLen _ => c.advance cbLen.toNat
  | seek usType ibOffset _ => seekCursor c (seekType usType, ibOffset)
  | other _ => c

/-- What the owner gets from the turn. -/
def gives (c : Cursor UInt8) : Turn → List (Outcome × List UInt8)
  | read cbLen _ => [(.ret .NO_ERROR, c.read cbLen.toNat)]
  | _ => []

/-- A read starts before or at the end of the file, a seek fits, and other requests are answered and
do not end the use of the file. -/
def Fits (v p : Ptr) (x : Session) : Turn → Prop
  | read .. => x.sffsi.sfiPosition.toNat ≤ x.sffsi.sfiSize.toNat
  | seek usType ibOffset _ => SeekFits x.sffsi (seekType usType) ibOffset
  | other r => ¬ r.EndsFile v p ∧ ∃ rc, (serveAny x.daemon r).1 = .ret rc

end Turn

/-- What the read of a turn asks for. -/
def Turn.asked : Turn → List ℕ
  | .read cbLen _ => [cbLen.toNat]
  | _ => []

/-- The turn is no seek. -/
def Turn.isStraight : Turn → Bool
  | .seek .. => false
  | _ => true

/-- What the cursor gives over turns. -/
def cursorGives : Cursor UInt8 → List Turn → List (Outcome × List UInt8)
  | _, [] => []
  | c, t :: ts => t.gives c ++ cursorGives (t.move c) ts

/-- Without seeks the reads give the file from the cursor on, as far as they ask for it. -/
theorem flatten_cursorGives {ts : List Turn} (hts : ∀ t ∈ ts, t.isStraight = true)
    (c : Cursor UInt8) :
    ((cursorGives c ts).map Prod.snd).flatten = c.read (ts.flatMap Turn.asked).sum := by
  have hreads : (cursorGives c ts).map Prod.snd = c.reads (ts.flatMap Turn.asked) := by
    induction ts generalizing c with
    | nil => rfl
    | cons t ts ih =>
      rw [List.forall_mem_cons] at hts
      rw [cursorGives, List.map_append, List.flatMap_cons, ih hts.2]
      cases t with
      | read cbLen r => rfl
      | seek usType ibOffset r => cases hts.1
      | other r => rfl
  rw [hreads, Cursor.flatten_reads]

namespace Session

variable (v p : Ptr)

/-- How the request of a turn ends, and the daemon afterwards. -/
def serve (x : Session) (t : Turn) : Outcome × State := serveAny x.daemon (t.posted v p x.sffsi)

/-- The kernel takes back what the owner has passed on. -/
def after (x : Session) (t : Turn) : Session :=
  ⟨(x.serve v p t).2, if t.isOwn then (x.serve v p t).2.request.sffsi else x.sffsi⟩

/-- The code of a read and the bytes that it counts. -/
def readAnswer (r : Outcome × State) : Outcome × List UInt8 :=
  (r.1, r.2.pData.slice 0 r.2.request.cbLen.toNat)

/-- What the owner gets from a turn. -/
def answer (x : Session) (t : Turn) : List (Outcome × List UInt8) :=
  match t with
  | .read .. => [readAnswer (x.serve v p t)]
  | _ => []

/-- What the owner gets over turns. -/
def answers : Session → List Turn → List (Outcome × List UInt8)
  | _, [] => []
  | x, t :: ts => x.answer v p t ++ (x.after v p t).answers ts

/-- Each turn fits where it is taken. -/
def Fits : Session → List Turn → Prop
  | _, [] => True
  | x, t :: ts => t.Fits v p x ∧ (x.after v p t).Fits ts

/-- The session after turns. -/
def afterAll : Session → List Turn → Session
  | x, [] => x
  | x, t :: ts => (x.after v p t).afterAll ts

end Session

/-- The session is that of a file with these bytes. -/
structure Session.Follows (v p : Ptr) (vol : MountedVolume) (bytes : List UInt8) (block : ℕ)
    (x : Session) : Prop where
  holds : vol.isoFile.Holds block bytes
  file : ∃ file, HasFile v p vol file x.daemon ∧ FileOf bytes block file.iExtent x.sffsi

section Turns

variable {v p : Ptr} {vol : MountedVolume} {bytes : List UInt8} {block : ℕ} {x : Session}

/-- What `fsRead` leaves for a file that is open. -/
theorem fsRead_of_hasFile {env : Env} {s : State} {file : OpenFileData}
    (h : HasFile s.request.pVolData s.request.pOpenFileData vol file s) :
    let r := Isofs.fsRead vol.toVolData env.sectorStack env.pos s.pData
      ⟨s.request.sffsi, file.iExtent, UInt16.ofNat s.request.cbLen.toNat⟩
    Proc.run (fsRead env) s = (.ret r.rc,
      { s with
        request := { s.request with sffsi := r.pread.sffsi, cbLen := r.pread.cbLen.toUInt32 }
        pData := r.pData }) := by
  intro r
  obtain ⟨node, hnode, hvol⟩ := Option.map_eq_some_iff.mp h.volume
  have haccess : access volumes s.request.pVolData s = (.ok node, s) := by
    rw [access, show (volumes s).objects s.request.pVolData = some node from hnode]
  have hfile : access State.openFiles s.request.pOpenFileData s = (.ok file, s) := by
    rw [access, show s.openFiles.objects s.request.pOpenFileData = some file from h.file]
  rw [fsRead, run_bind_of_ok (read_apply _ _), run_bind_of_ok haccess, run_bind_of_ok hfile,
    run_bind_of_ok (read_apply _ _)]
  rw [hvol]
  rfl

/-- What a turn leaves and gives, for a session whose cursor is `c`. -/
structure TurnFollows (v p : Ptr) (vol : MountedVolume) (bytes : List UInt8) (block : ℕ)
    (x : Session) (t : Turn) : Prop where
  gives : x.answer v p t = t.gives (fileCursor bytes x.sffsi)
  moves : fileCursor bytes (x.after v p t).sffsi = t.move (fileCursor bytes x.sffsi)
  follows : (x.after v p t).Follows v p vol bytes block

theorem toNat_toUInt32_ofNat (n : UInt16) : UInt16.ofNat n.toUInt32.toNat = n := by
  rw [UInt16.toNat_toUInt32, UInt16.ofNat_toNat]

/-- A read gives what the cursor gives. -/
theorem Session.Follows.read (h : x.Follows v p vol bytes block)
    (hpos : x.sffsi.sfiPosition.toNat ≤ x.sffsi.sfiSize.toNat) (cbLen : UInt16) (r : Posted) :
    TurnFollows v p vol bytes block x (.read cbLen r) := by
  obtain ⟨file, hfile, hof⟩ := h.file
  have hserve := @fsRead_of_hasFile vol r.env
    { x.daemon with
      request := (Turn.posted v p x.sffsi (.read cbLen r)).request, pData := r.pData }
    file ⟨hfile.volume, hfile.file⟩
  have hreads := @fsRead_readsCursor vol.toVolData bytes block ⟨x.sffsi, file.iExtent, cbLen⟩
    h.holds hof (hof.size ▸ hpos) r.env.sectorStack r.env.pos r.pData
  have hcbLen : UInt16.ofNat
      (Turn.posted v p x.sffsi (.read cbLen r)).request.cbLen.toNat = cbLen :=
    toNat_toUInt32_ofNat cbLen
  rw [hcbLen] at hserve
  generalize hreply : Isofs.fsRead vol.toVolData r.env.sectorStack r.env.pos r.pData
    ⟨x.sffsi, file.iExtent, cbLen⟩ = reply at hreads
  have hturn : x.serve v p (.read cbLen r) = (.ret reply.rc,
      { x.daemon with
        request :=
          { (Turn.posted v p x.sffsi (.read cbLen r)).request with
            sffsi := reply.pread.sffsi, cbLen := reply.pread.cbLen.toUInt32 }
        pData := reply.pData }) := by
    rw [← hreply]
    exact hserve
  have hafter : x.after v p (.read cbLen r) =
      ⟨(x.serve v p (.read cbLen r)).2, reply.pread.sffsi⟩ := by
    rw [Session.after, hturn]
    rfl
  refine ⟨?_, ?_, h.holds, file, ?_, hof.extent, ?_⟩
  · show [Session.readAnswer (x.serve v p (.read cbLen r))] = _
    rw [hturn, Session.readAnswer, hreads.rc]
    show [(_, reply.pData.slice 0 reply.pread.cbLen.toUInt32.toNat)] = _
    rw [UInt16.toNat_toUInt32, hreads.data]
    rfl
  · rw [hafter]
    exact hreads.moved
  · rw [hafter, hturn]
    exact ⟨hfile.volume, hfile.file⟩
  · rw [hafter]
    exact hreads.size

/-- A seek that fits moves the cursor. -/
theorem Session.Follows.seek (h : x.Follows v p vol bytes block) {usType : UInt16}
    {ibOffset : Int32} (hfits : SeekFits x.sffsi (seekType usType) ibOffset) (r : Posted) :
    TurnFollows v p vol bytes block x (.seek usType ibOffset r) := by
  obtain ⟨file, hfile, hof⟩ := h.file
  have hseek := Isofs.sfiSize_fsChgFilePtr x.sffsi (seekType usType) ibOffset.toInt
  have hmoved := fsChgFilePtr_seekCursor hof.size hfits
  generalize hreply : Isofs.fsChgFilePtr x.sffsi (seekType usType) ibOffset.toInt = reply
    at hseek hmoved
  have hturn : x.serve v p (.seek usType ibOffset r) = (.ret reply.1,
      { x.daemon with
        request :=
          { (Turn.posted v p x.sffsi (.seek usType ibOffset r)).request with sffsi := reply.2 }
        pData := r.pData }) := by
    rw [← hreply]
    rfl
  have hafter : x.after v p (.seek usType ibOffset r) =
      ⟨(x.serve v p (.seek usType ibOffset r)).2, reply.2⟩ := by
    rw [Session.after, hturn]
    rfl
  refine ⟨rfl, ?_, h.holds, file, ?_, hof.extent, ?_⟩
  · rw [hafter]
    exact hmoved
  · rw [hafter, hturn]
    exact ⟨hfile.volume, hfile.file⟩
  · rw [hafter]
    exact (congrArg UInt32.toNat hseek).trans hof.size

/-- Every turn that fits follows the cursor. -/
theorem Session.Follows.turn (h : x.Follows v p vol bytes block) {t : Turn} (ht : t.Fits v p x) :
    TurnFollows v p vol bytes block x t := by
  cases t with
  | read cbLen r => exact h.read ht cbLen r
  | seek usType ibOffset r => exact h.seek ht r
  | other r =>
    obtain ⟨hends, rc, hrc⟩ := ht
    obtain ⟨file, hfile, hof⟩ := h.file
    exact ⟨rfl, rfl, h.holds, file, hfile.serveAny hends hrc, hof⟩

/-- Over turns that fit the owner gets what the cursor gives, whatever requests are made between
them. -/
theorem Session.Follows.answers (h : x.Follows v p vol bytes block) {ts : List Turn}
    (hts : x.Fits v p ts) :
    x.answers v p ts = cursorGives (fileCursor bytes x.sffsi) ts ∧
      (x.afterAll v p ts).Follows v p vol bytes block := by
  induction ts generalizing x with
  | nil => exact ⟨rfl, h⟩
  | cons t ts ih =>
    have hturn := h.turn hts.1
    obtain ⟨hrest, hfollows⟩ := ih hturn.follows hts.2
    rw [hturn.moves] at hrest
    refine ⟨?_, hfollows⟩
    rw [Session.answers, cursorGives, hturn.gives, hrest]

end Turns

/-! ### The open -/

/-- What the open of a file leaves: the file and its volume, and its size with a position at the
start in the reply. -/
structure OpenLeaves (v : Ptr) (vol : MountedVolume) (e : IsoDirEntry) (s : State) : Prop where
  file : ∃ file, HasFile v s.request.pOpenFileData vol file s ∧ file.iExtent = e.iExtent
  size : s.request.sffsi.sfiSize = UInt32.ofInt e.iSize
  position : s.request.sffsi.sfiPosition = 0

/-- The request asks to open a file for reading. -/
structure OpensToRead (q : Request) : Prop where
  path : badPath q.szName = false
  action : q.fsOpenFlag &&& 0x000f = OPEN_ACTION_OPEN_IF_EXISTS
  dasd : q.flOpenMode &&& OPEN_FLAGS_DASD = 0
  mode : opensForWriting q = false

section Open

variable {env : Env} {s : State} {vol : MountedVolume} {e : IsoDirEntry}

theorem finalizeOpen_leaves (hmalloc : env.malloc = true)
    (hvol : (s.core.volumes s.request.pVolData).map VolNode.vol = some vol)
    (pszName : List UInt8) (node : Ptr) :
    Ends (finalizeOpen env pszName e node) (fun _ _ => False)
      (fun o t => o = .ret .NO_ERROR ∧ OpenLeaves s.request.pVolData vol e t) s := by
  obtain ⟨volume, hvolume, -⟩ := Option.map_eq_some_iff.mp hvol
  refine Ends.bind
    (Ends.onlyIf (fun hfails => absurd (hmalloc.symm.trans hfails) nofun) fun _ => ?_)
  refine Ends.bind (Ends.read (Ends.bind (Ends.update (Ends.bind (Ends.update
    (Ends.bind (Ends.read ?_)))))))
  refine Ends.bind (access_ends volumes (fun hdead => absurd ⟨volume, hvolume⟩ hdead) fun _ _ => ?_)
  refine Ends.bind (Ends.update (Ends.bind (Ends.update (done_ends ⟨rfl, ?_⟩))))
  refine ⟨⟨⟨e.iExtent, e.iSize, pszName, node, e⟩, ⟨?_, ?_⟩, rfl⟩, rfl, rfl⟩
  · exact (map_vol_countFiles s.core s.request.pVolData 1).trans hvol
  · show (s.openFiles.malloc _).2.objects s.openFiles.next = some _
    rw [Heap.objects_malloc, Function.update_self]

theorem openFound_leaves (hmalloc : env.malloc = true) {q : Request} (hq : OpensToRead q)
    (he : e.isDir = false)
    (hvol : (s.core.volumes s.request.pVolData).map VolNode.vol = some vol) (node : Ptr) :
    Ends (openFound env q e node) (fun _ _ => False)
      (fun o t => o = .ret .NO_ERROR ∧ OpenLeaves s.request.pVolData vol e t) s := by
  have hopened := @finalizeOpen_leaves env s vol e hmalloc hvol e.chrName node
  have hfail : ¬ q.fsOpenFlag &&& 0x000f = OPEN_ACTION_FAIL_IF_EXISTS := by
    rw [hq.action]
    decide
  have hname : ¬ CCHMAXPATH ≤ e.chrName.length :=
    Nat.not_le.mpr (Nat.lt_trans e.chrName_length_lt (by decide))
  have hfile : ¬ e.flFlags &&& FILE_DIRECTORY ≠ 0 := by
    have hmode : ¬ e.stMode = .S_IFDIR := of_decide_eq_false he
    rw [e.flFlags_eq, dosFlags, if_neg hmode]
    decide
  refine Ends.ite (fun h => absurd h hfail) fun _ => Ends.ite (fun h => absurd h hname) fun _ =>
    Ends.ite (fun h => absurd h hfile) fun _ => Ends.ite (fun _ => ?_)
      fun h => absurd hq.action h
  refine Ends.ite (fun _ => hopened) fun h3 => Ends.ite (fun h0 => ?_) fun _ => hopened
  rw [access_bits] at h0
  exact absurd ⟨h0, h3⟩ (of_decide_eq_false hq.mode)

/-- The open of a file that the path of the request leads to. -/
theorem fsOpenCreate_leaves (hmalloc : env.malloc = true) (hq : OpensToRead s.request)
    {node : VolNode} {w : Walk (Option IsoDirEntry)}
    (hnode : s.core.volumes s.request.pVolData = some node) (hlevel : node.vol.ucsLevel ≤ 3)
    (hwalk : Isofs.isoQueryIsoEntryFromPath node.vol.toVolData env.sectorStack env.pos
      (s.request.szName.drop 2) = some w) (hfound : w.result = some e) (he : e.isDir = false) :
    Ends (fsOpenCreate env) (fun _ _ => False)
      (fun o t => o = .ret .NO_ERROR ∧ OpenLeaves s.request.pVolData node.vol e t) s := by
  refine Ends.bind (Ends.update (Ends.bind (Ends.read ?_)))
  refine Ends.bind (Ends.onlyIf (fun h => absurd (hq.path.symm.trans h) nofun) fun _ => ?_)
  refine Ends.bind (Ends.onlyIf (fun h => absurd hq.dasd h) fun _ => ?_)
  refine Ends.bind (access_ends volumes (fun hdead => absurd ⟨node, hnode⟩ hdead)
    fun node' hnode' => ?_)
  obtain rfl := Option.some.inj (hnode.symm.trans hnode')
  refine Ends.bind (isoQueryIsoEntryFromPath_ends (fun h => absurd hlevel (Nat.not_le.mpr h))
    (fun w' _ hw' hnone _ => ?_) fun w' e' n nodes hw' he' _ _ => ?_)
  · obtain rfl := Option.some.inj (hwalk.symm.trans hw')
    cases hfound.symm.trans hnone
  · obtain rfl := Option.some.inj (hwalk.symm.trans hw')
    obtain rfl := Option.some.inj (hfound.symm.trans he')
    refine openFound_leaves hmalloc ⟨hq.path, hq.action, hq.dasd, hq.mode⟩ he ?_ n
    exact congrArg (Option.map VolNode.vol) hnode

/-- An open of requests of all codes is handled as the open it is. -/
theorem serveAny_of_openCreate {r : Posted} (hrq : r.request.rq = .FSRQ_OPENCREATE) (s : State) :
    serveAny s r =
      (fsOpenCreate r.env).run { s with request := r.request, pData := r.pData } := by
  refine serveAny_of_some (i := ⟨.openCreate, r.request, r.pData, r.env⟩) ?_ s
  rw [Posted.incoming, hrq]
  rfl

theorem serveAny_openCreate {r : Posted} (hrq : r.request.rq = .FSRQ_OPENCREATE)
    (hmalloc : r.env.malloc = true) (hq : OpensToRead r.request) {node : VolNode}
    {w : Walk (Option IsoDirEntry)} (hnode : s.core.volumes r.request.pVolData = some node)
    (hlevel : node.vol.ucsLevel ≤ 3)
    (hwalk : Isofs.isoQueryIsoEntryFromPath node.vol.toVolData r.env.sectorStack r.env.pos
      (r.request.szName.drop 2) = some w) (hfound : w.result = some e) (he : e.isDir = false) :
    ∃ t, serveAny s r = (.ret .NO_ERROR, t) ∧ OpenLeaves r.request.pVolData node.vol e t := by
  have hserve := serveAny_of_openCreate hrq s
  obtain ⟨hrc, hleaves⟩ := Ends.run
    (fsOpenCreate_leaves (s := { s with request := r.request, pData := r.pData }) hmalloc hq hnode
      hlevel hwalk hfound he)
  exact ⟨_, hserve.trans (Prod.ext hrc rfl), hleaves⟩

/-! ### An open that is granted -/

/-- The open is answered, and if it is granted, it has opened the file of the entry. -/
structure OpenAnswer (v : Ptr) (vol : MountedVolume) (e : IsoDirEntry) (o : Outcome) (t : State) :
    Prop where
  answered : ∃ rc, o = .ret rc
  granted : o = .ret .NO_ERROR → e.isDir = false ∧ OpenLeaves v vol e t

theorem OpenAnswer.of_ne {v : Ptr} {rc : ApiRet} {t : State} (h : rc ≠ .NO_ERROR) :
    OpenAnswer v vol e (.ret rc) t :=
  ⟨⟨rc, rfl⟩, fun heq => absurd (Outcome.ret.inj heq) h⟩

theorem finalizeOpen_answer (hfile : e.isDir = false)
    (hvol : (s.core.volumes s.request.pVolData).map VolNode.vol = some vol)
    (pszName : List UInt8) (node : Ptr) :
    Ends (finalizeOpen env pszName e node) (fun _ _ => False)
      (fun o t => OpenAnswer s.request.pVolData vol e o t) s := by
  by_cases hmalloc : env.malloc = true
  · refine (finalizeOpen_leaves hmalloc hvol pszName node).mono (fun _ _ h => h) fun o t h => ?_
    exact ⟨⟨_, h.1⟩, fun _ => ⟨hfile, h.2⟩⟩
  · refine Ends.bind (Ends.onlyIf (fun _ => done_ends (.of_ne (by decide))) fun h => ?_)
    exact absurd (Bool.eq_false_iff.mpr hmalloc) h

theorem openFound_answer (q : Request) {node : Ptr} {nodes : Heap Unit}
    (hfree : s.isoDirEntries.objects node = none)
    (hnodes : nodes.objects = Function.update s.isoDirEntries.objects node (some ()))
    (hvol : (s.core.volumes s.request.pVolData).map VolNode.vol = some vol) :
    Ends (openFound env q e node) (fun _ _ => False)
      (fun o t => OpenAnswer s.request.pVolData vol e o t) (s.withNodes nodes) := by
  have hrefused {rc : ApiRet} (hrc : rc ≠ .NO_ERROR) :
      Ends (freeAndReturn node rc) (fun _ _ => False)
        (fun o t => OpenAnswer s.request.pVolData vol e o t) (s.withNodes nodes) :=
    freeAndReturn_ends hfree hnodes fun _ _ => .of_ne hrc
  refine Ends.ite (fun _ => hrefused (by decide)) fun _ => Ends.ite (fun _ => hrefused (by decide))
    fun _ => Ends.ite (fun _ => hrefused (by decide)) fun hflags => ?_
  have hfile : e.isDir = false := by
    refine decide_eq_false fun hmode => hflags ?_
    rw [e.flFlags_eq, dosFlags, if_pos hmode]
    decide
  have hopened := @finalizeOpen_answer env (s.withNodes nodes) vol e hfile hvol e.chrName node
  refine Ends.ite (fun _ => ?_) fun _ => Ends.ite (fun _ => hrefused (by decide)) fun _ =>
    hrefused (by decide)
  exact Ends.ite (fun _ => hopened) fun _ => Ends.ite (fun _ => hrefused (by decide)) fun _ =>
    hopened

/-- An open on a volume that is mounted is answered, and what it grants is the file that its path
leads to. -/
theorem fsOpenCreate_answer {node : VolNode}
    (hnode : s.core.volumes s.request.pVolData = some node) (hlevel : node.vol.ucsLevel ≤ 3) :
    Ends (fsOpenCreate env) (fun _ _ => False)
      (fun o t => (∃ rc, o = .ret rc) ∧ (o = .ret .NO_ERROR → ∃ w e,
        Isofs.isoQueryIsoEntryFromPath node.vol.toVolData env.sectorStack env.pos
          (s.request.szName.drop 2) = some w ∧ w.result = some e ∧ e.isDir = false ∧
        OpenLeaves s.request.pVolData node.vol e t)) s := by
  have hrefused {rc : ApiRet} (hrc : rc ≠ .NO_ERROR) {φ : Prop} :
      (∃ rc', (Outcome.ret rc) = .ret rc') ∧ (Outcome.ret rc = .ret .NO_ERROR → φ) :=
    ⟨⟨rc, rfl⟩, fun heq => absurd (Outcome.ret.inj heq) hrc⟩
  refine Ends.bind (Ends.update (Ends.bind (Ends.read ?_)))
  refine Ends.bind (Ends.onlyIf (fun _ => done_ends (hrefused (by decide))) fun _ => ?_)
  refine Ends.bind (Ends.onlyIf (fun _ => done_ends (hrefused (by decide))) fun _ => ?_)
  refine Ends.bind (access_ends volumes (fun hdead => absurd ⟨node, hnode⟩ hdead)
    fun node' hnode' => ?_)
  obtain rfl := Option.some.inj (hnode.symm.trans hnode')
  refine Ends.bind (isoQueryIsoEntryFromPath_ends (fun h => absurd hlevel (Nat.not_le.mpr h))
    (fun _ _ _ _ _ => done_ends (hrefused (by decide)))
    fun w e n nodes hw he hfree hnodes => ?_)
  refine (openFound_answer (s := { s with request := _ }) _ hfree hnodes
    (congrArg (Option.map VolNode.vol) hnode)).mono (fun _ _ h => h) fun o t h => ?_
  exact ⟨h.answered, fun hok => ⟨w, e, hw, he, h.granted hok⟩⟩

end Open

end Isofs.Daemon
