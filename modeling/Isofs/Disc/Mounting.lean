import Isofs.Disc.Access

/-!
# Attaching a disc

An `FSRQ_ATTACH` for the image of a disc that was written: the daemon can grant it, and when it
does, the volume that it links has the file system of the disc.
-/

namespace Isofs

open Proc

theorem Daemon.serveAny_of_attach {r : Posted} (hrq : r.request.rq = .FSRQ_ATTACH) (s : State) :
    serveAny s r = (fsAttach r.env).run { s with request := r.request, pData := r.pData } := by
  refine serveAny_of_some (i := ⟨.attach, r.request, r.pData, r.env⟩) ?_ s
  rw [Posted.incoming, hrq]
  rfl

/-- A mount that succeeds has passed its checks. -/
theorem checked_of_attachVolume {env : MountEnv} {fuel : ℕ} {pData : Memory}
    {pattach reply : Request} {server server' : ServerData}
    (h : attachVolume env fuel pData pattach server = some (.NO_ERROR, reply, server')) :
    checkAttachParms pattach.cbParm pData = .NO_ERROR ∧ env.malloc = true := by
  rw [attachVolume] at h
  by_cases hcheck : checkAttachParms pattach.cbParm pData ≠ .NO_ERROR
  · rw [if_pos hcheck] at h
    exact absurd (congrArg Prod.fst (Option.some.inj h)) hcheck
  · rw [if_neg hcheck] at h
    by_cases hmalloc : env.malloc = false
    · rw [if_pos hmalloc] at h
      cases congrArg Prod.fst (Option.some.inj h)
    · exact ⟨not_not.mp hcheck, Bool.not_eq_false _ ▸ hmalloc⟩

namespace WritableDisc

variable {k : ℕ} (d : WritableDisc k)

theorem mountedAs_of_attachVolume {env : MountEnv} {fuel : ℕ} {pData : Memory}
    {pattach reply : Request} {server server' : ServerData}
    (hopen : env.fopen (cString (szBasePath pData)) = some d.image)
    (hoffset : iOffsetParm pData = d.session) (hfuel : 1 ≤ fuel)
    (h : attachVolume env fuel pData pattach server = some (.NO_ERROR, reply, server')) :
    ∃ vol, (server'.volumes.objects reply.pVolData).map VolNode.vol = some vol ∧
      d.MountedAs (attachedNls env pData) vol := by
  obtain ⟨hcheck, hmalloc⟩ := checked_of_attachVolume h
  have hfirst : FirstJoliet d.image (iOffsetParm pData) 1 := hoffset ▸ d.firstJoliet
  obtain ⟨scan, hscan, hattach⟩ := @attachVolume_of_joliet _ _ _ pattach server _ _ hcheck hmalloc
    hopen hfirst hfuel
  obtain ⟨-, hpair⟩ := Prod.mk.inj (Option.some.inj (h.symm.trans hattach))
  obtain ⟨rfl, rfl⟩ := Prod.mk.inj hpair
  rw [hoffset] at hscan
  exact ⟨mountedVolume env pData pattach.szDev d.image scan, vol_mount env pData server _,
    d.mountedAs_mountedVolume hscan⟩

/-- An attach of the disc that the daemon grants links a volume with its file system. -/
theorem attach_mounts {s : Daemon.State} {r : Daemon.Posted} (hrq : r.request.rq = .FSRQ_ATTACH)
    (hflag : r.request.fsFlag = FSA_ATTACH)
    (hopen : r.env.mount.fopen (cString (szBasePath r.pData)) = some d.image)
    (hoffset : iOffsetParm r.pData = d.session) (hfuel : 1 ≤ r.env.fuel)
    (hok : (Daemon.serveAny s r).1 = .ret .NO_ERROR) :
    ∃ vol, ((Daemon.serveAny s r).2.core.volumes
        (Daemon.serveAny s r).2.request.pVolData).map VolNode.vol = some vol ∧
      d.MountedAs (attachedNls r.env.mount r.pData) vol := by
  rw [Daemon.serveAny_of_attach hrq s] at hok ⊢
  revert hok
  refine @Ends.run _ _ (fun o t => o = .ret .NO_ERROR →
    ∃ vol, (t.core.volumes t.request.pVolData).map VolNode.vol = some vol ∧
      d.MountedAs (attachedNls r.env.mount r.pData) vol) _ (Daemon.fsAttach r.env)
    (fun _ _ => False) ?_
  refine Ends.bind (Ends.read (Ends.bind (Ends.onlyIf (fun _ => Daemon.done_ends fun h => ?_)
    fun _ => Ends.ite (fun _ => ?_) (absurd hflag))))
  · cases h
  refine Ends.bind (Daemon.attachVolume_ends (fun h => by cases h) (fun _ h => by cases h)
    fun rc reply server hattach => ?_)
  refine Ends.bind (Ends.update (Daemon.done_ends fun hrc => ?_))
  obtain rfl : rc = .NO_ERROR := Daemon.Outcome.ret.inj hrc
  exact d.mountedAs_of_attachVolume hopen hoffset hfuel hattach

/-- The daemon grants an attach of the disc. -/
theorem attach_granted {s : Daemon.State}
    {r : Daemon.Posted} (hrq : r.request.rq = .FSRQ_ATTACH) (hflag : r.request.fsFlag = FSA_ATTACH)
    (hdrive : Daemon.IsDrive r.request.szDev)
    (hfirst : Daemon.LinkLive s.core s.server.pFirstVolume)
    (hcheck : checkAttachParms r.request.cbParm r.pData = .NO_ERROR)
    (hmalloc : r.env.mount.malloc = true)
    (hopen : r.env.mount.fopen (cString (szBasePath r.pData)) = some d.image)
    (hoffset : iOffsetParm r.pData = d.session) (hfuel : 1 ≤ r.env.fuel) :
    ∃ t, Daemon.serveAny s r = (.ret .NO_ERROR, t) ∧
      t.request.pVolData = s.server.volumes.next := by
  have hjoliet : FirstJoliet d.image (iOffsetParm r.pData) 1 := hoffset ▸ d.firstJoliet
  obtain ⟨scan, -, hmount⟩ := @attachVolume_of_joliet _ _ _ r.request s.server _ _ hcheck hmalloc
    hopen hjoliet hfuel
  obtain ⟨hrc, hreply, -⟩ := Ends.run (@Daemon.fsAttach_mount r.env
    { s with request := r.request, pData := r.pData } _ _ hdrive hflag hfirst hmount)
  rw [Daemon.serveAny_of_attach hrq]
  exact ⟨_, Prod.ext hrc rfl, congrArg Request.pVolData hreply⟩

end WritableDisc

end Isofs
