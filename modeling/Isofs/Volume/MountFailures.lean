import Isofs.Library.Transition
import Isofs.Volume.Mount

/-!
# Mounts that fail

What a failed mount holds on to. Every error return of `attachVolume` gives back what was acquired
before it, but for the one that is taken when no Joliet descriptor is found.
-/

namespace Isofs

open TwosComplement Loop Transition

/-- The daemon holds the same volumes, open ISO files and translation tables. -/
structure SameHoldings (server server' : ServerData) : Prop where
  first : server'.pFirstVolume = server.pFirstVolume
  volumes : server'.volumes.objects = server.volumes.objects
  isoFiles : server'.isoFiles = server.isoFiles
  nlsUses : server'.nlsUses = server.nlsUses

theorem SameHoldings.refl (server : ServerData) : SameHoldings server server := ⟨rfl, rfl, rfl, rfl⟩

theorem SameHoldings.trans {server server' server'' : ServerData} (h : SameHoldings server server')
    (h' : SameHoldings server' server'') : SameHoldings server server'' :=
  ⟨h'.first.trans h.first, h'.volumes.trans h.volumes, h'.isoFiles.trans h.isoFiles,
    h'.nlsUses.trans h.nlsUses⟩

/-- The descriptor that the scan has in its buffer after `k` rounds. -/
def scanned (isoFile : IsoFile) (iOffset : ℤ) (k : ℕ) : Memory :=
  ((nextDescriptor isoFile iOffset)^[k] (firstDescriptor isoFile iOffset)).ipd

/-- The descriptors of the image have a terminator before any Joliet descriptor. -/
def EndsWithoutJoliet (isoFile : IsoFile) (iOffset : ℤ) : Prop :=
  ∃ k, scanned isoFile iOffset k 0 = ISO_VD_END ∧
    ∀ j < k, endsScan (scanned isoFile iOffset j) = false

/-- A mount with valid parameters, and the memory it needs, of an image that can be opened and has
no Joliet descriptor. -/
def LacksJoliet (env : MountEnv) (pData : Memory) (cbParm : UInt16) : Prop :=
  checkAttachParms cbParm pData = .NO_ERROR ∧ env.malloc = true ∧
    ∃ isoFile, env.fopen (cString (szBasePath pData)) = some isoFile ∧
      EndsWithoutJoliet isoFile (iOffsetParm pData)

/-! ### The tables -/

/-- A use of a table that begins and ends at once is not counted. -/
theorem countTable_countTable (server : ServerData) (nls : Option NlsTable) :
    ((server.countTable nls 1).countTable nls (-1)) = server := by
  rw [ServerData.countTable, ServerData.countTable]
  split
  · show { server with nlsUses := server.nlsUses + 1 + -1 } = server
    rw [Int.add_neg_cancel_right]
  · rfl

theorem countTable_isoFiles (server : ServerData) (nls : Option NlsTable) (n : ℤ) :
    (server.countTable nls n).isoFiles = server.isoFiles := by
  rw [ServerData.countTable]
  split <;> rfl

/-! ### One mount -/

section Mount

variable {env : MountEnv} {fuel : ℕ} {pData : Memory} {pattach : Request} {server : ServerData}
  {r : ApiRet × Request × ServerData}

/-- A file that cannot be opened: the table and the volume are given back. -/
theorem sameHoldings_of_noFile (hcheck : checkAttachParms pattach.cbParm pData = .NO_ERROR)
    (hmalloc : env.malloc = true) (hopen : env.fopen (cString (szBasePath pData)) = none)
    (h : attachVolume env fuel pData pattach server = some r) : SameHoldings server r.2.2 := by
  rw [attachVolume, if_neg (not_not.mpr hcheck), if_neg (by rw [hmalloc]; decide), hopen] at h
  obtain rfl := Option.some.inj h
  simp only [countTable_countTable]
  exact ⟨rfl, objects_free_malloc server.volumes .cleared, rfl, rfl⟩

/-- A mount whose scan ends at a terminator keeps the file open. -/
theorem not_sameHoldings_of_end {isoFile : IsoFile} {scan : ScanState}
    (hend : scan.ipd 0 = ISO_VD_END) :
    ¬ SameHoldings server (finishAttach env pData pattach (scanningServer env pData server)
      server.volumes.next isoFile scan).2.2 := by
  rw [finishAttach_of_end _ _ _ _ _ _ hend]
  intro h
  have hfiles : (scanningServer env pData server).isoFiles = server.isoFiles + 1 :=
    congrArg (· + 1) (countTable_isoFiles _ _ _)
  have hsame : (scanningServer env pData server).isoFiles = server.isoFiles := h.isoFiles
  omega

/-- The scan of a mount that returns ends at the first descriptor that ends it, and that tells
whether the image lacks a Joliet descriptor. -/
theorem endsWithoutJoliet_iff {isoFile : IsoFile} {iOffset : ℤ} {scan : ScanState}
    (hscan : scanDescriptors fuel isoFile iOffset = some scan) :
    EndsWithoutJoliet isoFile iOffset ↔ scan.ipd 0 = ISO_VD_END := by
  obtain ⟨k, -, rfl, hstop, hfirst⟩ := runUntil_eq_some hscan
  constructor
  · rintro ⟨j, hend, hbefore⟩
    have hj : endsScan (scanned isoFile iOffset j) = true := by simp [endsScan, hend]
    rcases Nat.lt_trichotomy j k with hlt | rfl | hlt
    · exact absurd hj (by rw [scanned, hfirst j hlt]; decide)
    · exact hend
    · exact absurd hstop (by rw [← scanned, hbefore k hlt]; decide)
  · exact fun hend => ⟨k, hend, hfirst⟩

/-- A mount that fails gives everything back exactly when it does not fail for want of a Joliet
descriptor. -/
theorem failed_sameHoldings_iff (h : attachVolume env fuel pData pattach server = some r) :
    (r.1 ≠ .NO_ERROR → SameHoldings server r.2.2) ↔ ¬ LacksJoliet env pData pattach.cbParm := by
  -- up to the open nothing has been taken
  by_cases hcheck : checkAttachParms pattach.cbParm pData = .NO_ERROR
  swap
  · rw [attachVolume, if_pos hcheck] at h
    obtain rfl := Option.some.inj h
    exact iff_of_true (fun _ => .refl server) fun hlacks => hcheck hlacks.1
  by_cases hmalloc : env.malloc = true
  swap
  · rw [attachVolume, if_neg (not_not.mpr hcheck), if_pos (Bool.not_eq_true _ ▸ hmalloc)] at h
    obtain rfl := Option.some.inj h
    exact iff_of_true (fun _ => .refl server) fun hlacks => hmalloc hlacks.2.1
  cases hopen : env.fopen (cString (szBasePath pData)) with
  | none =>
    refine iff_of_true (fun _ => sameHoldings_of_noFile hcheck hmalloc hopen h) ?_
    rintro ⟨-, -, isoFile, hfile, -⟩
    rw [hopen] at hfile
    cases hfile
  | some isoFile =>
    rw [attachVolume_of_open hcheck hmalloc hopen] at h
    obtain ⟨scan, hscan, rfl⟩ := Option.map_eq_some_iff.mp h
    -- the descriptor that ends the scan decides
    have hlacks : LacksJoliet env pData pattach.cbParm ↔ scan.ipd 0 = ISO_VD_END := by
      rw [← endsWithoutJoliet_iff hscan]
      refine ⟨?_, fun hends => ⟨hcheck, hmalloc, isoFile, hopen, hends⟩⟩
      rintro ⟨-, -, file, hfile, hends⟩
      rw [hopen] at hfile
      exact Option.some.inj hfile ▸ hends
    rw [hlacks]
    by_cases hend : scan.ipd 0 = ISO_VD_END
    · refine iff_of_false (fun hsame => not_sameHoldings_of_end hend (hsame ?_)) (not_not.mpr hend)
      rw [finishAttach_of_end _ _ _ _ _ _ hend]
      intro hrc
      cases hrc
    · refine iff_of_true (fun hrc => absurd ?_ hrc) hend
      rw [finishAttach_of_joliet _ _ _ _ _ _ hend]

end Mount

/-! ### Sequences of failed mounts -/

/-- A mount that fails, but not for want of a Joliet descriptor. -/
def FailedMount (server server' : ServerData) : Prop :=
  ∃ env fuel pData pattach r, attachVolume env fuel pData pattach server = some r ∧
    r.1 ≠ .NO_ERROR ∧ r.2.2 = server' ∧ ¬ LacksJoliet env pData pattach.cbParm

theorem sameHoldings_of_failedMounts {server server' : ServerData}
    (hrun : Reaches FailedMount server server') : SameHoldings server server' := by
  refine invariant_of_step FailedMount (I := SameHoldings server) ?_ hrun (.refl server)
  rintro s s' hs ⟨env, fuel, pData, pattach, r, hr, hrc, rfl, hlacks⟩
  exact hs.trans ((failed_sameHoldings_iff hr).mpr hlacks hrc)

/-- A failed mount leaves nothing behind exactly when it does not fail for want of a Joliet
descriptor, and so does any number of such mounts. -/
theorem failed_mount_leaves_nothing_iff (server : ServerData) :
    (∀ (env : MountEnv) (fuel : ℕ) (pData : Memory) (pattach : Request)
      (r : ApiRet × Request × ServerData), attachVolume env fuel pData pattach server = some r →
      ((r.1 ≠ .NO_ERROR → SameHoldings server r.2.2) ↔ ¬ LacksJoliet env pData pattach.cbParm)) ∧
    ∀ server', Reaches FailedMount server server' → SameHoldings server server' :=
  ⟨fun _ _ _ _ _ h => failed_sameHoldings_iff h, fun _ hrun => sameHoldings_of_failedMounts hrun⟩

/-- A daemon without a volume. -/
def bareServer : ServerData := ⟨0, Heap.empty, 0, 0⟩

/-- A mount whose image cannot be opened, once and twice. -/
theorem failed_mount_leaves_nothing_noFile :
    ∃ r r', attachVolume ⟨true, fun _ => none, none, fun _ => none⟩ 0 attachParms
        { (default : Request) with cbParm := 524 } bareServer = some r ∧
      SameHoldings bareServer r.2.2 ∧
      attachVolume ⟨true, fun _ => none, none, fun _ => none⟩ 0 attachParms
        { (default : Request) with cbParm := 524 } r.2.2 = some r' ∧
      SameHoldings bareServer r'.2.2 := by
  have hlacks : ¬ LacksJoliet ⟨true, fun _ => none, none, fun _ => none⟩ attachParms 524 := by
    rintro ⟨-, -, isoFile, hfile, -⟩
    cases hfile
  have hmount (server : ServerData) : ∃ r, attachVolume ⟨true, fun _ => none, none, fun _ => none⟩ 0
      attachParms { (default : Request) with cbParm := 524 } server = some r ∧ r.1 ≠ .NO_ERROR := by
    rw [attachVolume, if_neg (not_not.mpr checkAttachParms_attachParms)]
    refine ⟨_, rfl, fun hrc => ?_⟩
    cases hrc
  obtain ⟨r, hr, hrc⟩ := hmount bareServer
  obtain ⟨r', hr', hrc'⟩ := hmount r.2.2
  refine ⟨r, r', hr, ((failed_mount_leaves_nothing_iff _).1 _ _ _ _ _ hr).mpr hlacks hrc, hr', ?_⟩
  have hstep : FailedMount bareServer r.2.2 := ⟨_, _, _, _, r, hr, hrc, rfl, hlacks⟩
  have hstep' : FailedMount r.2.2 r'.2.2 := ⟨_, _, _, _, r', hr', hrc', rfl, hlacks⟩
  exact (failed_mount_leaves_nothing_iff _).2 _ ((Relation.ReflTransGen.single hstep).tail hstep')

/-- An image that ends with the first byte of a terminator. -/
def terminatorFile : IsoFile where
  bytes := List.replicate 32768 0 ++ [255]
  size_lt := by rw [List.length_append, List.length_replicate]; decide

theorem scanned_terminatorFile : scanned terminatorFile 0 0 0 = ISO_VD_END := by
  have hread : terminatorFile.read 32768 2048 = [255] := by
    rw [IsoFile.read, terminatorFile, List.drop_left' List.length_replicate]
    rfl
  have hposition : IsoFile.lseek 0 (IsoFile.blockOffset (16 + 0)) = 32768 := by decide
  rw [scanned, Function.iterate_zero_apply, firstDescriptor, readDescriptor, IsoFile.seekRead]
  simp only [hposition, hread]
  rfl

/-- The mount of that image fails and leaves it open. -/
theorem failed_mount_leaves_file :
    ∃ r, attachVolume ⟨true, fun _ => none, none, fun _ => some terminatorFile⟩ 0 attachParms
        { (default : Request) with cbParm := 524 } bareServer = some r ∧
      r.1 = .ERROR_ISOFS_NOJOLIETSVD ∧ ¬ SameHoldings bareServer r.2.2 := by
  have hoffset : iOffsetParm attachParms = 0 := by decide +kernel
  have hend : (firstDescriptor terminatorFile 0).ipd 0 = ISO_VD_END := scanned_terminatorFile
  have hscan : scanDescriptors 0 terminatorFile 0 = some (firstDescriptor terminatorFile 0) :=
    runUntil_of_stop (by simp [endsScan, hend]) 0
  rw [@attachVolume_of_open _ 0 attachParms { (default : Request) with cbParm := 524 } bareServer
    terminatorFile checkAttachParms_attachParms rfl rfl, hoffset, hscan, Option.map_some]
  refine ⟨_, rfl, ?_, not_sameHoldings_of_end hend⟩
  rw [finishAttach_of_end _ _ _ _ _ _ hend]

end Isofs
