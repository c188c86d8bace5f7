import Isofs.Daemon.Lifetimes

/-!
# The levels of mounted volumes

A mount takes the first Joliet descriptor, so every volume of the daemon has one of the three
levels, and the exit of `getDirEntries` at an unknown level is never taken.
-/

namespace Isofs.Daemon

/-- What a mount makes of its image. -/
structure MountsFirstJoliet (pData : Memory) (server : ServerData) (isoFile : IsoFile)
    (r : ApiRet × Request × ServerData) : Prop where
  succeeds : r.1 = .NO_ERROR ↔ JolietBeforeEnd isoFile (iOffsetParm pData)
  selects : r.1 = .NO_ERROR → Selects isoFile (iOffsetParm pData) server r.2
  refuses : r.1 ≠ .NO_ERROR → Refuses server r

/-- Every volume has a level that its directories can be read with. -/
theorem next_ne_exit {may : System → Incoming → Prop} {sys : System} (hsys : Reachable may sys)
    (r : Incoming) : (sys.next r).1 ≠ .exit := by
  have hserved := serve_served sys.daemon r
  rw [next_outcome]
  intro hexit
  rw [hexit] at hserved
  obtain ⟨node, hnode, hlevel⟩ := hserved
  have hle := ((reachable_represents hsys).listed.level _ node hnode).2
  omega

/-- A mount whose parameters are valid selects the first Joliet descriptor, if it comes before the
first terminator. In every run of the daemon all volumes have a known level, and no request makes
the daemon exit. -/
theorem mount_selects_first_joliet :
    (∀ (env : MountEnv) (pData : Memory) (pattach : Request) (server : ServerData)
      (isoFile : IsoFile), checkAttachParms pattach.cbParm pData = .NO_ERROR → env.malloc = true →
      env.fopen (cString (szBasePath pData)) = some isoFile →
      (∃ k, InFile isoFile (iOffsetParm pData) k ∧
        endsScan (descriptor isoFile (iOffsetParm pData) k) = true) →
      ∃ n, ∀ fuel ≥ n, ∃ r, Isofs.attachVolume env fuel pData pattach server = some r ∧
        MountsFirstJoliet pData server isoFile r) ∧
    ∀ may sys, Reachable may sys →
      (∀ p node, sys.daemon.core.volumes p = some node → node.vol.ucsLevel ∈ [1, 2, 3]) ∧
        ∀ r, (sys.next r).1 ≠ .exit := by
  refine ⟨fun env pData pattach server isoFile hcheck hmalloc hopen hreaches => ?_,
    fun may sys hsys => ⟨fun p node hnode => ?_, next_ne_exit hsys⟩⟩
  · obtain ⟨n, hn⟩ := attachVolume_selects hcheck hmalloc
      hopen hreaches
    refine ⟨n, fun fuel hfuel => ?_⟩
    obtain ⟨r, hr, hsucceeds, hselects, hrefuses⟩ := hn fuel hfuel
    exact ⟨r, hr, hsucceeds, hselects, hrefuses⟩
  · obtain ⟨hpos, hle⟩ := (reachable_represents hsys).listed.level p node hnode
    simp only [List.mem_cons, List.not_mem_nil, or_false]
    omega

/-- The image with one descriptor, and the daemon that has attached it. -/
theorem mount_selects_first_joliet_attached :
    (∃ n, ∀ fuel ≥ n, ∃ r, Isofs.attachVolume jolietEnv fuel attachParms attachRequest.request
        initial.server = some r ∧
      MountsFirstJoliet attachParms initial.server jolietFile r) ∧
    ∃ (sys : System) (node : VolNode), sys.daemon.core.volumes 1 = some node ∧
      node.vol.ucsLevel ∈ [1, 2, 3] ∧
      (sys.next findRequest).1 ≠ .exit := by
  obtain ⟨hin, hjoliet, -⟩ := firstJoliet_jolietFile
  obtain ⟨sys, node, hattach, -, hnode, -⟩ := next_attachRequest
  obtain ⟨hlevel, hexit⟩ := mount_selects_first_joliet.2 (fun _ _ => True) sys
    (.single ⟨attachRequest, _, trivial, hattach⟩)
  refine ⟨mount_selects_first_joliet.1 jolietEnv attachParms attachRequest.request initial.server
    jolietFile checkAttachParms_attachParms rfl rfl ?_, sys, node, hnode, hlevel 1 node hnode,
    hexit findRequest⟩
  rw [iOffsetParm_attachParms]
  exact ⟨0, hin, by simp [endsScan, hjoliet]⟩

end Isofs.Daemon
