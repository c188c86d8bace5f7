import Isofs.Daemon.Lifetimes
import Isofs.Daemon.Requests

/-!
# A read-only file system

No request that asks for a change of the disc is granted, and over every run of requests of all
codes the daemon refines the ledger.
-/

namespace Isofs.Daemon

open Proc

/-- The access mode of an open is one for writing. OS/2 opens executables with both bits. -/
def opensForWriting (q : Request) : Bool := q.flOpenMode &&& 3 ≠ 0 ∧ q.flOpenMode &&& 3 ≠ 3

/-- From `s` the statement does not return `NO_ERROR`. -/
def RefusesFrom {α : Type} (m : Handler α) (s : State) : Prop :=
  Ends m (fun _ _ => True) (fun o _ => o ≠ .ret .NO_ERROR) s

theorem RefusesFrom.run {m : Handler Empty} {s : State} (h : RefusesFrom m s) :
    (m.run s).1 ≠ .ret .NO_ERROR :=
  Ends.run h

section Refusals

variable {α β : Type} {s : State} {env : Env}

/-- A statement that does not return `NO_ERROR`, and then others. -/
theorem RefusesFrom.bind {m : Handler α} {k : α → Handler β} (hm : RefusesFrom m s)
    (hk : ∀ a t, RefusesFrom (k a) t) : RefusesFrom (m >>= k) s :=
  Ends.bind (hm.mono (fun a t _ => hk a t) fun _ _ h => h)

/-- The two access bits together. -/
theorem access_bits (mode : UInt32) :
    (mode &&& OPEN_ACCESS_WRITEONLY) ||| (mode &&& OPEN_ACCESS_READWRITE) = mode &&& 3 :=
  UInt32.toBitVec_inj.mp BitVec.and_or_distrib_left.symm

end Refusals

/-- No options are set. -/
def plainControl : ControlEnv where
  args := ⟨fun _ => [], fun _ => true, fun _ => 0⟩
  easizebuf _ _ := []
  fuel := 0
  settings := ⟨false, 0⟩

/-- The image is attached as drive E. -/
def attachPost : Posted where
  request := { attachRequest.request with rq := .FSRQ_ATTACH }
  pData := attachParms
  env := jolietRequestEnv
  control := plainControl
  sizes := ⟨18, 17, 13⟩

/-- The file `A` is to be deleted. -/
def deletePost : Posted where
  request :=
    { (default : Request) with
      rq := .FSRQ_DELETE, pVolData := 1, szName := [0x45, 0x3a, 0x2f, 0x41] }
  pData := Memory.zeros
  env := jolietRequestEnv
  control := plainControl
  sizes := ⟨18, 17, 13⟩

/-- A request of any code, and the ledger with its event. -/
def System.post (sys : System) (r : Posted) : Outcome × System :=
  match r.incoming with
  | some i => sys.next i
  | none => ((serveAny sys.daemon r).1, ⟨(serveAny sys.daemon r).2, sys.ledger⟩)

/-- A request that may be made is answered with a code. -/
def PostStep (may : System → Incoming → Prop) (sys sys' : System) : Prop :=
  ∃ r rc, (∀ i, r.incoming = some i → may sys i) ∧ sys.post r = (.ret rc, sys')

/-- The systems that a run of such requests reaches. -/
def Posts (may : System → Incoming → Prop) (sys : System) : Prop :=
  Transition.Reaches (PostStep may) System.initial sys

/-- The systems differ in the exchange buffers only. -/
structure SameSystem (sys sys' : System) : Prop where
  daemon : SameObjects sys.daemon sys'.daemon
  ledger : sys'.ledger = sys.ledger

/-- Such systems answer every request alike. -/
theorem SameSystem.next {sys sys' : System} (h : SameSystem sys sys') (i : Incoming) :
    sys'.next i = sys.next i := by
  unfold System.next
  rw [h.daemon.serve, h.ledger]

theorem post_of_some {r : Posted} {i : Incoming} (h : r.incoming = some i) (sys : System) :
    sys.post r = sys.next i := by
  rw [System.post, h]

theorem post_of_none {r : Posted} (h : r.incoming = none) (sys : System) :
    sys.post r = ((serveAny sys.daemon r).1, ⟨(serveAny sys.daemon r).2, sys.ledger⟩) := by
  rw [System.post, h]

/-- What a system is asked does not depend on its exchange buffers. -/
def BlindToBuffers (may : System → Incoming → Prop) : Prop :=
  ∀ sys sys' i, SameSystem sys sys' → may sys i → may sys' i

/-- A step that uses no objects is none, and any other is one of the requests on objects. -/
theorem postStep_simulated {may : System → Incoming → Prop} (hmay : BlindToBuffers may)
    {sys sys' t : System} (hsame : SameSystem t sys) (h : PostStep may sys sys') :
    ∃ t', Relation.ReflGen (Step may) t t' ∧ SameSystem t' sys' := by
  obtain ⟨r, rc, hr, hpost⟩ := h
  cases hi : r.incoming with
  | none =>
    rw [post_of_none hi] at hpost
    obtain ⟨-, rfl⟩ := Prod.mk.inj hpost
    exact ⟨t, .refl, hsame.daemon.trans (serveAny_sameObjects hi sys.daemon), hsame.ledger⟩
  | some i =>
    rw [post_of_some hi, hsame.next] at hpost
    have hback : SameSystem sys t := ⟨hsame.daemon.symm, hsame.ledger.symm⟩
    exact ⟨sys', .single ⟨i, rc, hmay _ _ i hback (hr i hi), hpost⟩, .refl _, rfl⟩

/-- Every run of requests of all codes is one of the requests on objects, up to the exchange
buffers. -/
theorem Posts.reachable {may : System → Incoming → Prop} (hmay : BlindToBuffers may)
    {sys : System} (h : Posts may sys) : ∃ t, Reachable may t ∧ SameSystem t sys := by
  induction h with
  | refl => exact ⟨System.initial, .refl, .refl _, rfl⟩
  | tail _ hstep ih =>
    obtain ⟨t, hreach, hsame⟩ := ih
    obtain ⟨t', hstep', hsame'⟩ := postStep_simulated hmay hsame hstep
    exact ⟨t', hreach.trans hstep'.to_reflTransGen, hsame'⟩

/-- Over every run of requests of all codes the daemon refines the ledger, and it answers whatever
comes next as after a run of the requests on objects alone. -/
theorem posts_refine {may : System → Incoming → Prop} (hmay : BlindToBuffers may) {sys : System}
    (h : Posts may sys) :
    Represents sys.ledger sys.daemon.core ∧
      ∃ t, Reachable may t ∧ ∀ i, sys.next i = t.next i := by
  obtain ⟨t, hreach, hsame⟩ := h.reachable hmay
  refine ⟨?_, t, hreach, fun i => hsame.next i⟩
  rw [hsame.ledger, hsame.daemon.core]
  exact reachable_represents hreach

/-- The image is attached, and a file is not deleted. -/
theorem posts_attach_delete : ∃ sys, Posts (fun _ _ => True) sys ∧ sys.ledger = ⟨[1], [], []⟩ := by
  have hfirst : FirstJoliet jolietFile (iOffsetParm attachPost.pData) 0 := by
    rw [show attachPost.pData = attachParms from rfl, iOffsetParm_attachParms]
    exact firstJoliet_jolietFile
  obtain ⟨scan, -, hmount⟩ := @attachVolume_of_joliet jolietEnv 0 attachParms attachPost.request
    initial.server jolietFile 0 checkAttachParms_attachParms rfl rfl hfirst (Nat.le_refl 0)
  obtain ⟨sys, hnext, -, hledger⟩ := @next_mount System.initial
    ⟨.attach, attachPost.request, attachParms, jolietRequestEnv⟩ _ _ rfl
    (by decide : IsDrive attachRequest.request.szDev) rfl (Or.inl rfl) hmount
  have hattach : System.initial.post attachPost = (.ret .NO_ERROR, sys) := by
    rw [post_of_some rfl, ← hnext]
    rfl
  have hdelete : sys.post deletePost =
      (.ret .ERROR_WRITE_PROTECT, ⟨(serveAny sys.daemon deletePost).2, sys.ledger⟩) := by
    rw [post_of_none rfl]
    rfl
  exact ⟨_, (Relation.ReflTransGen.single ⟨attachPost, _, fun _ _ => trivial, hattach⟩).tail
    ⟨deletePost, _, fun _ _ => trivial, hdelete⟩, hledger⟩

theorem posts_refine_attach_delete : ∃ sys : System, Represents sys.ledger sys.daemon.core ∧
    sys.ledger = ⟨[1], [], []⟩ ∧
      ∃ t, Reachable (fun _ _ => True) t ∧ ∀ i, sys.next i = t.next i := by
  obtain ⟨sys, hposts, hledger⟩ := posts_attach_delete
  obtain ⟨hrepr, hrun⟩ := posts_refine (fun _ _ _ _ _ => trivial) hposts
  exact ⟨sys, hrepr, hledger, hrun⟩

end Isofs.Daemon
