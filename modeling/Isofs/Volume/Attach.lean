import Isofs.Interface.Request
import Isofs.Library.Heap
import Isofs.Library.Loop
import Isofs.Volume.Data

/-!
# Mounting a volume

`attachVolume` of `attach.c`. The scan for the Joliet volume descriptor has no bound, so it
runs with fuel. The results of the C library and of `libunls` are parameters; `int` and
file offsets have 32 bits.
-/

namespace Isofs

open TwosComplement Loop

/-- `VolData`, as `attachVolume` sets it up. -/
structure MountedVolume extends VolData where
  chDrive : UInt8
  fReadOnly : Bool
  fileName : List UInt8
  chrCDName : List UInt8
  iSectorOffset : ℤ
  szCharSet : List UInt8

/-- A `VolData` with its counters and its links. -/
structure VolNode where
  vol : MountedVolume
  cOpenFiles : ℤ
  cSearches : ℤ
  pNext : Ptr
  pPrev : Ptr

/-- A cleared `VolData`. It has no open file, hence no bytes to read. -/
def VolNode.cleared : VolNode where
  vol :=
    { isoFile := ⟨[], IsoFile.length_nil_lt⟩, ipd := Memory.zeros, iRootExtent := 0, iRootSize := 0
      ucsLevel := 0, nls := none, chDrive := 0, fReadOnly := false, fileName := []
      chrCDName := [], iSectorOffset := 0, szCharSet := [] }
  cOpenFiles := 0
  cSearches := 0
  pNext := 0
  pPrev := 0

/-- `ServerData`, and what the daemon holds for its volumes: the live `VolData` objects, the
number of open ISO files, and how often translation tables are in use. -/
structure ServerData where
  pFirstVolume : Ptr
  volumes : Heap VolNode
  isoFiles : ℤ
  nlsUses : ℤ

/-- What a mount meets: whether `malloc` succeeds, the results of `load_nls` and `fopen`, and
the codepage that `DosQueryCp` gives. -/
structure MountEnv where
  malloc : Bool
  loadNls : List UInt8 → Option NlsTable
  queryCp : Option ℕ
  fopen : List UInt8 → Option IsoFile

/-- `sizeof(AEFS_ATTACH)`: the flags, the base path, the character set and the offset. -/
def sizeofAefsAttach : UInt16 := 524

/-- `VERIFYFIXED` of a character array: whether it lacks a terminator. -/
def verifyFixed (chars : List UInt8) : Bool := 0 ∉ chars

def isalpha (b : UInt8) : Bool := (0x41 ≤ b ∧ b ≤ 0x5a) ∨ (0x61 ≤ b ∧ b ≤ 0x7a)

/-- `toupper` of the C locale. -/
def toupper (b : UInt8) : UInt8 := if 0x61 ≤ b ∧ b ≤ 0x7a then b - 32 else b

/-- The base path starts with a drive and a separator, or is a UNC path. -/
def isAbsolute (path : List UInt8) : Bool :=
  match path with
  | 0x5c :: 0x5c :: _ => true
  | 0x2f :: 0x2f :: _ => true
  | drive :: 0x3a :: sep :: _ => isalpha drive ∧ (sep = 0x5c ∨ sep = 0x2f)
  | _ => false

/-- The parameters of an attach request in the data buffer. -/
def szBasePath (pData : Memory) : List UInt8 := pData.slice 4 CCHMAXPATH

/-- `szCharSet`, copied with `strncpy` to an array of `CCHMAXPATH` characters. -/
def charSetParm (pData : Memory) : List UInt8 := cString (pData.slice 264 CCHMAXPATH)

def iOffsetParm (pData : Memory) : ℤ := wrap32 (pData.le32 520)

/-- The checks of the parameters. -/
def checkAttachParms (cbParm : UInt16) (pData : Memory) : ApiRet :=
  if cbParm ≠ sizeofAefsAttach ∨ verifyFixed (szBasePath pData) then .ERROR_INVALID_PARAMETER
  else if ¬ isAbsolute (cString (szBasePath pData)) then .ERROR_INVALID_PARAMETER
  else if iOffsetParm pData < 0 then .ERROR_ISOFS_INVALIDOFFSET
  else .NO_ERROR

/-- `checkCpSupport`. -/
def checkCpSupport (iCp : ℕ) : Bool :=
  iCp ∈ [437, 737, 775, 850, 852, 855, 857, 860, 861, 862, 863, 864, 865, 866, 869, 874]

/-- The characters of `sprintf(szCharSet, "cp%d", iCp)`. -/
def cpName (iCp : ℕ) : List UInt8 := ("cp" ++ toString iCp).toUTF8.data.toList

/-- The name of the character set and its translation table, if there is one. -/
def loadTable (env : MountEnv) (szCharSet : List UInt8) : List UInt8 × Option NlsTable :=
  if szCharSet ≠ [] then (szCharSet, env.loadNls szCharSet)
  else
    match env.queryCp with
    | some iCp =>
      if checkCpSupport iCp then (cpName iCp, env.loadNls (cpName iCp)) else (szCharSet, none)
    | none => (szCharSet, none)

/-! ### The descriptor scan -/

def ISO_VD_SUPPLEMENTARY : UInt8 := 2
def ISO_VD_END : UInt8 := 255

/-- `ipd.escape_sequences[i]`. -/
def escapeSequence (ipd : Memory) (i : ℕ) : UInt8 := ipd (88 + i)

/-- The level that the third character of the escape sequence stands for. -/
def ucsLevelOf (c : UInt8) : ℕ :=
  match c with
  | 0x40 => 1
  | 0x43 => 2
  | 0x45 => 3
  | _ => 0

/-- The descriptor is a supplementary one with a UCS escape sequence. -/
def isJoliet (ipd : Memory) : Bool :=
  ipd 0 = ISO_VD_SUPPLEMENTARY ∧ escapeSequence ipd 0 = 0x25 ∧ escapeSequence ipd 1 = 0x2f ∧
    escapeSequence ipd 3 = 0 ∧ ucsLevelOf (escapeSequence ipd 2) ≠ 0

/-- The scan leaves its loop at this descriptor. -/
def endsScan (ipd : Memory) : Bool := ipd 0 = ISO_VD_END ∨ isJoliet ipd

/-- The scan: the block read last, the descriptor buffer and the file position. -/
structure ScanState where
  block : ℤ
  ipd : Memory
  pos : ℕ

/-- Read descriptor `block`. -/
def readDescriptor (isoFile : IsoFile) (iSectorOffset block : ℤ) (ipd : Memory) (pos : ℕ) :
    ScanState :=
  let (ipd, pos) := isoFile.seekRead pos (IsoFile.blockOffset (block + iSectorOffset)) 2048 ipd
  ⟨block, ipd, pos⟩

/-- The first descriptor, read over a cleared buffer. -/
def firstDescriptor (isoFile : IsoFile) (iSectorOffset : ℤ) : ScanState :=
  readDescriptor isoFile iSectorOffset 16 Memory.zeros 0

/-- One round of the loop. -/
def nextDescriptor (isoFile : IsoFile) (iSectorOffset : ℤ) (s : ScanState) : ScanState :=
  readDescriptor isoFile iSectorOffset (s.block + 1) s.ipd s.pos

/-- The scan, as far as the fuel lasts. -/
def scanDescriptors (fuel : ℕ) (isoFile : IsoFile) (iSectorOffset : ℤ) : Option ScanState :=
  runUntil (fun s => endsScan s.ipd) (nextDescriptor isoFile iSectorOffset) fuel
    (firstDescriptor isoFile iSectorOffset)

/-! ### The mount -/

/-- A use of a translation table begins (`1`) or ends (`-1`). -/
def ServerData.countTable (server : ServerData) (nls : Option NlsTable) (n : ℤ) : ServerData :=
  if nls.isSome then { server with nlsUses := server.nlsUses + n } else server

/-- Put the volume at `p` at the head of the list. -/
def ServerData.link (server : ServerData) (p : Ptr) (vol : MountedVolume) : ServerData :=
  let volumes := server.volumes.modify p fun _ =>
    { vol := vol, cOpenFiles := 0, cSearches := 0, pNext := server.pFirstVolume, pPrev := 0 }
  { server with
    pFirstVolume := p
    volumes :=
      if server.pFirstVolume ≠ 0 then
        volumes.modify server.pFirstVolume fun node => { node with pPrev := p }
      else volumes }

/-- The volume of a mount whose scan ended at `scan`. -/
def mountedVolume (env : MountEnv) (pData : Memory) (szDev : List UInt8) (isoFile : IsoFile)
    (scan : ScanState) : MountedVolume :=
  let (szCharSet, nls) := loadTable env (charSetParm pData)
  { isoFile := isoFile
    ipd := scan.ipd
    iRootExtent := isonum733 scan.ipd (rootRecord + 2)
    iRootSize := isonum733 scan.ipd (rootRecord + 10)
    ucsLevel := ucsLevelOf (escapeSequence scan.ipd 2)
    nls := nls
    chDrive := toupper (szDev.headD 0)
    fReadOnly := true
    fileName := cString (szBasePath pData)
    chrCDName := (firstDescriptor isoFile (iOffsetParm pData)).ipd.slice 40 32
    iSectorOffset := iOffsetParm pData
    szCharSet := szCharSet }

/-- The end of the mount: `pVolData` becomes a volume, or is released again. -/
def finishAttach (env : MountEnv) (pData : Memory) (pattach : Request) (server : ServerData)
    (pVolData : Ptr) (isoFile : IsoFile) (scan : ScanState) : ApiRet × Request × ServerData :=
  let vol := mountedVolume env pData pattach.szDev isoFile scan
  if scan.ipd 0 = ISO_VD_END then
    -- neither the file nor the table is given back
    (.ERROR_ISOFS_NOJOLIETSVD, pattach, { server with volumes := server.volumes.free pVolData })
  else if 3 < vol.ucsLevel then
    let server := server.countTable vol.nls (-1)
    (.ERROR_ISOFS_WRONGJOLIETUCS, pattach, { server with volumes := server.volumes.free pVolData })
  else (.NO_ERROR, { pattach with pVolData := pVolData }, server.link pVolData vol)

/-- `attachVolume`: the result code, the request and the daemon afterwards. -/
def attachVolume (env : MountEnv) (fuel : ℕ) (pData : Memory) (pattach : Request)
    (server : ServerData) : Option (ApiRet × Request × ServerData) :=
  let pattach := { pattach with pVolData := 0 }
  let rc := checkAttachParms pattach.cbParm pData
  if rc ≠ .NO_ERROR then some (rc, pattach, server)
  else if env.malloc = false then some (.ERROR_NOT_ENOUGH_MEMORY, pattach, server)
  else
    let (pVolData, volumes) := server.volumes.malloc .cleared
    let nls := (loadTable env (charSetParm pData)).2
    let server := { server with volumes := volumes }.countTable nls 1
    match env.fopen (cString (szBasePath pData)) with
    | none =>
      let server := server.countTable nls (-1)
      some (.ERROR_ISOFS_FILEOPEN, pattach,
        { server with volumes := server.volumes.free pVolData })
    | some isoFile =>
      let server := { server with isoFiles := server.isoFiles + 1 }
      (scanDescriptors fuel isoFile (iOffsetParm pData)).map
        (finishAttach env pData pattach server pVolData isoFile)

end Isofs
