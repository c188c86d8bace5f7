import Mathlib.Data.Nat.Find
import Isofs.Library.LinkedList
import Isofs.Volume.ScanTermination

/-!
# What a mount leaves

A mount that fails leaves the list of volumes as it was, and one that succeeds puts a new
volume of a known level at its head. The volume is that of the first Joliet descriptor.
-/

namespace Isofs

open TwosComplement Loop Memory

/-- The links of the list of volumes. -/
def volLinks : Links VolNode where
  next := VolNode.pNext
  prev := VolNode.pPrev
  setNext p node := { node with pNext := p }
  setPrev p node := { node with pPrev := p }
  next_setNext _ _ := rfl
  prev_setNext _ _ := rfl
  next_setPrev _ _ := rfl
  prev_setPrev _ _ := rfl

/-- A volume as a mount sets it up. -/
def newVolume (pFirstVolume : Ptr) (vol : MountedVolume) : VolNode :=
  ⟨vol, 0, 0, pFirstVolume, 0⟩

theorem objects_link (server : ServerData) (p : Ptr) (vol : MountedVolume) {node : VolNode}
    (hp : server.volumes.objects p = some node) :
    (server.link p vol).volumes.objects =
      volLinks.push server.volumes.objects server.pFirstVolume p
        (newVolume server.pFirstVolume vol) := by
  rw [Links.push, Links.relinkPrev, ServerData.link]
  split
  · rw [Heap.objects_modify, Heap.objects_modify, hp]
    rfl
  · rw [Heap.objects_modify, hp]
    rfl

/-- What a mount may leave. -/
inductive Attached (server : ServerData) (pattach : Request) :
    ApiRet × Request × ServerData → Prop
  | fails {rc : ApiRet} {server' : ServerData} (hrc : rc ≠ .NO_ERROR)
      (hfirst : server'.pFirstVolume = server.pFirstVolume)
      (hvolumes : server'.volumes.objects = server.volumes.objects) :
      Attached server pattach (rc, { pattach with pVolData := 0 }, server')
  | succeeds {server' : ServerData} (vol : MountedVolume) (hpos : 1 ≤ vol.ucsLevel)
      (hle : vol.ucsLevel ≤ 3) (hfirst : server'.pFirstVolume = server.volumes.next)
      (hvolumes : server'.volumes.objects =
        volLinks.push server.volumes.objects server.pFirstVolume server.volumes.next
          (newVolume server.pFirstVolume vol)) :
      Attached server pattach
        (.NO_ERROR, { pattach with pVolData := server.volumes.next }, server')

/-- What was allocated and is released at once is gone. -/
theorem objects_free_malloc (volumes : Heap VolNode) (node : VolNode) :
    ((volumes.malloc node).2.free volumes.next).objects = volumes.objects := by
  rw [Heap.objects_free, Heap.objects_malloc, Function.update_idem, ← volumes.objects_next,
    Function.update_eq_self]

@[simp] theorem countTable_pFirstVolume (server : ServerData) (nls : Option NlsTable) (n : ℤ) :
    (server.countTable nls n).pFirstVolume = server.pFirstVolume := by
  rw [ServerData.countTable]
  split <;> rfl

@[simp] theorem countTable_volumes (server : ServerData) (nls : Option NlsTable) (n : ℤ) :
    (server.countTable nls n).volumes = server.volumes := by
  rw [ServerData.countTable]
  split <;> rfl

/-- The level of a Joliet descriptor. -/
theorem ucsLevelOf_le (c : UInt8) : ucsLevelOf c ≤ 3 := by
  unfold ucsLevelOf
  split <;> decide

/-- Behind the scan the level is known, unless the descriptor is the terminator. -/
theorem ucsLevelOf_pos {ipd : Memory} (h : endsScan ipd = true) (hend : ipd 0 ≠ ISO_VD_END) :
    1 ≤ ucsLevelOf (escapeSequence ipd 2) := by
  have hjoliet : isJoliet ipd = true := by simpa [endsScan, hend] using h
  simp only [isJoliet, decide_eq_true_eq] at hjoliet
  exact Nat.one_le_iff_ne_zero.mpr hjoliet.2.2.2.2

theorem ucsLevel_mountedVolume (env : MountEnv) (pData : Memory) (szDev : List UInt8)
    (isoFile : IsoFile) (scan : ScanState) :
    (mountedVolume env pData szDev isoFile scan).ucsLevel =
      ucsLevelOf (escapeSequence scan.ipd 2) := rfl

/-- The two ways in which a mount ends behind its scan. -/
theorem finishAttach_of_end (env : MountEnv) (pData : Memory) (pattach : Request)
    (server : ServerData) (p : Ptr) (isoFile : IsoFile) {scan : ScanState}
    (h : scan.ipd 0 = ISO_VD_END) :
    finishAttach env pData pattach server p isoFile scan =
      (.ERROR_ISOFS_NOJOLIETSVD, pattach, { server with volumes := server.volumes.free p }) := by
  rw [finishAttach, if_pos h]

theorem finishAttach_of_joliet (env : MountEnv) (pData : Memory) (pattach : Request)
    (server : ServerData) (p : Ptr) (isoFile : IsoFile) {scan : ScanState}
    (h : scan.ipd 0 ≠ ISO_VD_END) :
    finishAttach env pData pattach server p isoFile scan =
      (.NO_ERROR, { pattach with pVolData := p },
        server.link p (mountedVolume env pData pattach.szDev isoFile scan)) := by
  have hlevel : ¬ 3 < (mountedVolume env pData pattach.szDev isoFile scan).ucsLevel := by
    rw [ucsLevel_mountedVolume]
    exact Nat.not_lt.mpr (ucsLevelOf_le _)
  rw [finishAttach, if_neg h, if_neg hlevel]

/-- The daemon during the scan of a mount. -/
def scanningServer (env : MountEnv) (pData : Memory) (server : ServerData) : ServerData :=
  let server := { server with volumes := (server.volumes.malloc .cleared).2 }.countTable
    (loadTable env (charSetParm pData)).2 1
  { server with isoFiles := server.isoFiles + 1 }

theorem pFirstVolume_scanningServer (env : MountEnv) (pData : Memory) (server : ServerData) :
    (scanningServer env pData server).pFirstVolume = server.pFirstVolume :=
  countTable_pFirstVolume _ _ _

theorem volumes_scanningServer (env : MountEnv) (pData : Memory) (server : ServerData) :
    (scanningServer env pData server).volumes = (server.volumes.malloc .cleared).2 :=
  countTable_volumes _ _ _

/-- The volumes once the one that is mounted is linked. -/
theorem objects_mount (env : MountEnv) (pData : Memory) (server : ServerData)
    (vol : MountedVolume) :
    ((scanningServer env pData server).link server.volumes.next vol).volumes.objects =
      volLinks.push server.volumes.objects server.pFirstVolume server.volumes.next
        (newVolume server.pFirstVolume vol) := by
  have hlive : (scanningServer env pData server).volumes.objects server.volumes.next =
      some .cleared := by
    rw [volumes_scanningServer, Heap.objects_malloc, Function.update_self]
  rw [objects_link _ _ _ hlive, pFirstVolume_scanningServer, volumes_scanningServer,
    Heap.objects_malloc, Links.push, Links.push, Function.update_idem]

/-- A volume that is mounted is linked at the address of its node. -/
theorem vol_mount (env : MountEnv) (pData : Memory) (server : ServerData) (vol : MountedVolume) :
    (((scanningServer env pData server).link server.volumes.next vol).volumes.objects
      server.volumes.next).map VolNode.vol = some vol := by
  have hpush := volLinks.map_push (f := VolNode.vol) (fun _ _ => rfl) server.volumes.objects
    server.pFirstVolume server.volumes.next (newVolume server.pFirstVolume vol) server.volumes.next
  rw [if_pos rfl] at hpush
  rw [objects_mount]
  exact hpush

/-- A mount whose parameters, memory and image are there runs the scan. -/
theorem attachVolume_of_open {env : MountEnv} {fuel : ℕ} {pData : Memory} {pattach : Request}
    {server : ServerData} {isoFile : IsoFile}
    (hcheck : checkAttachParms pattach.cbParm pData = .NO_ERROR) (hmalloc : env.malloc = true)
    (hopen : env.fopen (cString (szBasePath pData)) = some isoFile) :
    attachVolume env fuel pData pattach server =
      (scanDescriptors fuel isoFile (iOffsetParm pData)).map
        (finishAttach env pData { pattach with pVolData := 0 } (scanningServer env pData server)
          server.volumes.next isoFile) := by
  rw [attachVolume, if_neg (not_not.mpr hcheck), if_neg (by rw [hmalloc]; decide), hopen]
  rfl

/-- Every mount that returns leaves what `Attached` says. -/
theorem attachVolume_attached {env : MountEnv} {fuel : ℕ} {pData : Memory} {pattach : Request}
    {server : ServerData} {r : ApiRet × Request × ServerData}
    (h : attachVolume env fuel pData pattach server = some r) : Attached server pattach r := by
  by_cases hcheck : checkAttachParms pattach.cbParm pData = .NO_ERROR
  swap
  · rw [attachVolume, if_pos hcheck] at h
    obtain rfl := Option.some.inj h
    exact .fails hcheck rfl rfl
  by_cases hmalloc : env.malloc = true
  swap
  · rw [attachVolume, if_neg (not_not.mpr hcheck), if_pos (Bool.not_eq_true _ ▸ hmalloc)] at h
    obtain rfl := Option.some.inj h
    exact .fails (by decide) rfl rfl
  cases hopen : env.fopen (cString (szBasePath pData)) with
  | none =>
    rw [attachVolume, if_neg (not_not.mpr hcheck), if_neg (by rw [hmalloc]; decide), hopen] at h
    obtain rfl := Option.some.inj h
    refine .fails (by decide) (by simp) ?_
    simp only [countTable_volumes]
    exact objects_free_malloc server.volumes .cleared
  | some isoFile =>
    rw [attachVolume_of_open hcheck hmalloc hopen] at h
    have hfirst := pFirstVolume_scanningServer env pData server
    have hvolumes := volumes_scanningServer env pData server
    obtain ⟨scan, hscan, rfl⟩ := Option.map_eq_some_iff.mp h
    obtain ⟨_, -, -, hends, -⟩ := runUntil_eq_some hscan
    by_cases hend : scan.ipd 0 = ISO_VD_END
    · rw [finishAttach_of_end _ _ _ _ _ _ hend]
      refine .fails (by decide) hfirst ?_
      rw [hvolumes]
      exact objects_free_malloc server.volumes .cleared
    · rw [finishAttach_of_joliet _ _ _ _ _ _ hend]
      exact .succeeds (mountedVolume env pData pattach.szDev isoFile scan)
        (ucsLevelOf_pos hends hend) (ucsLevelOf_le _) rfl (objects_mount ..)

/-- The offset that a mount accepts. -/
theorem iOffsetParm_nonneg {cbParm : UInt16} {pData : Memory}
    (hcheck : checkAttachParms cbParm pData = .NO_ERROR) : 0 ≤ iOffsetParm pData := by
  by_contra hneg
  rw [checkAttachParms] at hcheck
  split_ifs at hcheck
  omega

/-! ### The descriptors of an image -/

/-- Block `16 + iOffset + k` of an image. -/
def descriptor (isoFile : IsoFile) (iOffset : ℤ) (k : ℕ) : Memory :=
  Memory.zeros.blit 0 (isoFile.read (2048 * ((16 + iOffset).toNat + k)) 2048)

/-- The block lies before the end of the file. -/
def InFile (isoFile : IsoFile) (iOffset : ℤ) (k : ℕ) : Prop :=
  2048 * ((16 + iOffset).toNat + k + 1) ≤ isoFile.bytes.length

section Descriptors

variable {isoFile : IsoFile} {iOffset : ℤ} {k : ℕ}

theorem InFile.mono (h : InFile isoFile iOffset k) {j : ℕ} (hj : j ≤ k) :
    InFile isoFile iOffset j := by
  unfold InFile at h ⊢
  omega

/-- A block that lies in the file is read where it is. -/
theorem InFile.readPosition_eq (h : InFile isoFile iOffset k) (hpos : 0 ≤ iOffset) (pos : ℕ) :
    readPosition iOffset (16 + k) pos = 2048 * ((16 + iOffset).toNat + k) := by
  have hsize := isoFile.size_lt
  have htarget : target iOffset (16 + k) = (16 + iOffset).toNat + k := by
    rw [InFile] at h
    rw [target]
    omega
  rw [InFile] at h
  rw [readPosition, htarget, if_pos (by omega)]

theorem InFile.length_read (h : InFile isoFile iOffset k) :
    (isoFile.read (2048 * ((16 + iOffset).toNat + k)) 2048).length = 2048 := by
  rw [InFile] at h
  rw [IsoFile.length_read]
  omega

/-- A whole block over another one. -/
theorem InFile.blit_descriptor (h : InFile isoFile iOffset (k + 1)) :
    (descriptor isoFile iOffset k).blit 0
        (isoFile.read (2048 * ((16 + iOffset).toNat + (k + 1))) 2048) =
      descriptor isoFile iOffset (k + 1) := by
  have hlen : (isoFile.read (2048 * ((16 + iOffset).toNat + k)) 2048).length ≤
      (isoFile.read (2048 * ((16 + iOffset).toNat + (k + 1))) 2048).length := by
    rw [h.length_read, (h.mono (Nat.le_succ k)).length_read]
  rw [descriptor, Memory.blit_overlay, overlay, List.drop_eq_nil_of_le hlen, List.append_nil]
  rfl

/-- The scan has the blocks of the image in its buffer, one after the other. -/
theorem InFile.iterate (h : InFile isoFile iOffset k) (hpos : 0 ≤ iOffset) :
    ((nextDescriptor isoFile iOffset)^[k] (firstDescriptor isoFile iOffset)).ipd =
      descriptor isoFile iOffset k := by
  induction k with
  | zero =>
    rw [Function.iterate_zero_apply, firstDescriptor, readDescriptor_eq]
    have hread : readPosition iOffset 16 0 = 2048 * ((16 + iOffset).toNat + 0) := by
      simpa using h.readPosition_eq hpos 0
    rw [hread]
    rfl
  | succ k ih =>
    have hread := h.readPosition_eq hpos
    rw [Function.iterate_succ_apply', nextDescriptor, readDescriptor_eq, iterate_block,
      Int.add_assoc]
    rw [Int.natCast_succ] at hread
    rw [hread]
    show Memory.blit _ 0 _ = _
    rw [ih (h.mono (Nat.le_succ k)), h.blit_descriptor]

/-- With a block in the file that ends it, the scan ends at the first such block. -/
theorem scanDescriptors_of_first (hin : InFile isoFile iOffset k) (hpos : 0 ≤ iOffset)
    (hends : endsScan (descriptor isoFile iOffset k) = true)
    (hfirst : ∀ j < k, endsScan (descriptor isoFile iOffset j) = false) {fuel : ℕ}
    (hfuel : k ≤ fuel) :
    ∃ scan, scanDescriptors fuel isoFile iOffset = some scan ∧
      scan.ipd = descriptor isoFile iOffset k := by
  refine ⟨_, runUntil_of_first ?_ (fun j hj => ?_) hfuel, hin.iterate hpos⟩
  · rw [hin.iterate hpos, hends]
  · rw [(hin.mono (Nat.le_of_lt hj)).iterate hpos, hfirst j hj]

/-- A Joliet descriptor occurs before the first terminator. -/
def JolietBeforeEnd (isoFile : IsoFile) (iOffset : ℤ) : Prop :=
  ∃ k, InFile isoFile iOffset k ∧ isJoliet (descriptor isoFile iOffset k) = true ∧
    ∀ j < k, descriptor isoFile iOffset j 0 ≠ ISO_VD_END

/-- Block `k` is the first one that is a Joliet descriptor, and no terminator is before it. -/
def FirstJoliet (isoFile : IsoFile) (iOffset : ℤ) (k : ℕ) : Prop :=
  InFile isoFile iOffset k ∧ isJoliet (descriptor isoFile iOffset k) = true ∧
    ∀ j < k, endsScan (descriptor isoFile iOffset j) = false

theorem endsScan_eq_false {ipd : Memory} (h : endsScan ipd = false) :
    ipd 0 ≠ ISO_VD_END ∧ isJoliet ipd = false := by
  simpa [endsScan] using h

/-- A Joliet descriptor is not a terminator. -/
theorem type_of_isJoliet {ipd : Memory} (h : isJoliet ipd = true) : ipd 0 ≠ ISO_VD_END := by
  simp only [isJoliet, decide_eq_true_eq] at h
  rw [h.1]
  decide

/-- The first block that ends the scan tells whether a Joliet descriptor comes before the first
terminator. -/
theorem jolietBeforeEnd_iff (hin : InFile isoFile iOffset k)
    (hends : endsScan (descriptor isoFile iOffset k) = true)
    (hfirst : ∀ j < k, endsScan (descriptor isoFile iOffset j) = false) :
    JolietBeforeEnd isoFile iOffset ↔ descriptor isoFile iOffset k 0 ≠ ISO_VD_END := by
  constructor
  · rintro ⟨j, -, hjoliet, hbefore⟩ hend
    have hj : endsScan (descriptor isoFile iOffset j) = true := by simp [endsScan, hjoliet]
    rcases Nat.lt_trichotomy j k with hlt | rfl | hlt
    · rw [hfirst j hlt] at hj
      cases hj
    · exact type_of_isJoliet hjoliet hend
    · exact hbefore k hlt hend
  · intro hend
    refine ⟨k, hin, by simpa [endsScan, hend] using hends, fun j hj => ?_⟩
    exact (endsScan_eq_false (hfirst j hj)).1

end Descriptors

/-- A mount with valid parameters of an image with a Joliet descriptor. -/
theorem attachVolume_of_joliet {env : MountEnv} {fuel : ℕ} {pData : Memory} {pattach : Request}
    {server : ServerData} {isoFile : IsoFile} {k : ℕ}
    (hcheck : checkAttachParms pattach.cbParm pData = .NO_ERROR) (hmalloc : env.malloc = true)
    (hopen : env.fopen (cString (szBasePath pData)) = some isoFile)
    (hjoliet : FirstJoliet isoFile (iOffsetParm pData) k) (hfuel : k ≤ fuel) :
    ∃ scan, scan.ipd = descriptor isoFile (iOffsetParm pData) k ∧
      attachVolume env fuel pData pattach server =
        some (.NO_ERROR, { pattach with pVolData := server.volumes.next },
          (scanningServer env pData server).link server.volumes.next
            (mountedVolume env pData pattach.szDev isoFile scan)) := by
  obtain ⟨hin, hends, hfirst⟩ := hjoliet
  have hstop : endsScan (descriptor isoFile (iOffsetParm pData) k) = true := by
    simp [endsScan, hends]
  obtain ⟨scan, hscan, hipd⟩ := scanDescriptors_of_first hin (iOffsetParm_nonneg hcheck) hstop
    hfirst hfuel
  refine ⟨scan, hipd, ?_⟩
  rw [attachVolume_of_open hcheck hmalloc hopen, hscan, Option.map_some,
    finishAttach_of_joliet _ _ _ _ _ _ (hipd ▸ type_of_isJoliet hends)]

/-- A mount that succeeds: the volume is that of the first Joliet descriptor, and it is linked
at the head of the list. -/
structure Selects (isoFile : IsoFile) (iOffset : ℤ) (server : ServerData)
    (r : Request × ServerData) : Prop where
  pVolData : r.1.pVolData = server.volumes.next
  first : r.2.pFirstVolume = server.volumes.next
  volume : ∃ k vol, FirstJoliet isoFile iOffset k ∧
    vol.ipd = descriptor isoFile iOffset k ∧
    vol.ucsLevel = ucsLevelOf (escapeSequence (descriptor isoFile iOffset k) 2) ∧
    vol.ucsLevel ∈ [1, 2, 3] ∧
    vol.iRootExtent = isonum733 (descriptor isoFile iOffset k) (rootRecord + 2) ∧
    vol.iRootSize = isonum733 (descriptor isoFile iOffset k) (rootRecord + 10) ∧
    vol.chrCDName = (descriptor isoFile iOffset 0).slice 40 32 ∧
    r.2.volumes.objects = volLinks.push server.volumes.objects server.pFirstVolume
      server.volumes.next (newVolume server.pFirstVolume vol)

/-- A mount that finds no Joliet descriptor. -/
structure Refuses (server : ServerData) (r : ApiRet × Request × ServerData) : Prop where
  rc : r.1 = .ERROR_ISOFS_NOJOLIETSVD
  pVolData : r.2.1.pVolData = 0
  first : r.2.2.pFirstVolume = server.pFirstVolume
  volumes : r.2.2.volumes.objects = server.volumes.objects

/-- When the descriptors reach one that ends the scan, a mount with valid parameters takes the
first Joliet descriptor, if it comes before the first terminator. -/
theorem attachVolume_selects {env : MountEnv} {pData : Memory} {pattach : Request}
    {server : ServerData} {isoFile : IsoFile}
    (hcheck : checkAttachParms pattach.cbParm pData = .NO_ERROR) (hmalloc : env.malloc = true)
    (hopen : env.fopen (cString (szBasePath pData)) = some isoFile)
    (hreaches : ∃ k, InFile isoFile (iOffsetParm pData) k ∧
      endsScan (descriptor isoFile (iOffsetParm pData) k) = true) :
    ∃ n, ∀ fuel ≥ n, ∃ r, attachVolume env fuel pData pattach server = some r ∧
      (r.1 = .NO_ERROR ↔ JolietBeforeEnd isoFile (iOffsetParm pData)) ∧
      (r.1 = .NO_ERROR → Selects isoFile (iOffsetParm pData) server r.2) ∧
      (r.1 ≠ .NO_ERROR → Refuses server r) := by
  have hpos := iOffsetParm_nonneg hcheck
  classical
  -- the scan stops at the first descriptor that ends it
  obtain ⟨k, ⟨hin, hends⟩, hleast⟩ := Nat.findX hreaches
  have hfirst : ∀ j < k, endsScan (descriptor isoFile (iOffsetParm pData) j) = false := by
    intro j hj
    by_contra hstop
    exact hleast j hj ⟨hin.mono (Nat.le_of_lt hj), Bool.not_eq_false _ ▸ hstop⟩
  have hzero : (firstDescriptor isoFile (iOffsetParm pData)).ipd =
      descriptor isoFile (iOffsetParm pData) 0 :=
    (hin.mono (Nat.zero_le k)).iterate hpos
  refine ⟨k, fun fuel hfuel => ?_⟩
  obtain ⟨scan, hscan, hipd⟩ := scanDescriptors_of_first hin hpos hends hfirst hfuel
  rw [attachVolume_of_open hcheck hmalloc hopen, hscan, Option.map_some,
    jolietBeforeEnd_iff hin hends
    hfirst]
  refine ⟨_, rfl, ?_⟩
  by_cases hend : descriptor isoFile (iOffsetParm pData) k 0 = ISO_VD_END
  · rw [finishAttach_of_end _ _ _ _ _ _ (hipd ▸ hend)]
    have hrc : ApiRet.ERROR_ISOFS_NOJOLIETSVD ≠ .NO_ERROR := by decide
    refine ⟨iff_of_false hrc (not_not.mpr hend), fun h => absurd h hrc, fun _ => ?_⟩
    refine ⟨rfl, rfl, pFirstVolume_scanningServer env pData server, ?_⟩
    show ((scanningServer env pData server).volumes.free _).objects = _
    rw [volumes_scanningServer]
    exact objects_free_malloc server.volumes .cleared
  · rw [finishAttach_of_joliet _ _ _ _ _ _ (hipd ▸ hend)]
    refine ⟨iff_of_true rfl hend, fun _ => ⟨rfl, rfl, ?_⟩, fun h => absurd rfl h⟩
    have hlevel := ucsLevelOf_pos hends hend
    have hle := ucsLevelOf_le (escapeSequence (descriptor isoFile (iOffsetParm pData) k) 2)
    refine ⟨k, mountedVolume env pData pattach.szDev isoFile scan,
      ⟨hin, by simpa [endsScan, hend] using hends, hfirst⟩, hipd, ?_, ?_, ?_, ?_, ?_,
      objects_mount ..⟩
    · rw [ucsLevel_mountedVolume, hipd]
    · rw [ucsLevel_mountedVolume, hipd]
      simp only [List.mem_cons, List.not_mem_nil, or_false]
      omega
    · rw [← hipd]
      rfl
    · rw [← hipd]
      rfl
    · rw [← hzero]
      rfl

end Isofs
