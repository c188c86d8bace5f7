import Isofs.Daemon.Handlers

/-!
# Searches in the daemon

The four search requests of `find.c` with the objects that they allocate and release, and the
requests of the daemon together.
-/

namespace Isofs.Daemon

open Proc

/-- Allocate a `SearchData`. -/
def mallocSearch (data : SearchData) : Handler Ptr := fun s =>
  (.ok s.searches.next, { s with searches := (s.searches.malloc ⟨data, []⟩).2 })

/-- `freeSearchData`. -/
def freeSearchData (p : Ptr) : Handler Unit := do
  let _ ← access State.searches p
  update fun s => { s with searches := s.searches.free p }

/-- Change the `SearchData` at `p`. -/
def setSearch (p : Ptr) (f : SearchNode → SearchNode) : Handler Unit :=
  update fun s => { s with searches := s.searches.modify p f }

/-- Release the search and return. -/
def closeAndReturn {α : Type} (pSearchData : Ptr) (rc : ApiRet) : Handler α := do
  freeSearchData pSearchData
  done rc

/-- The extent and the length of the directory that is searched, and the file position. -/
def searchedExtent (vol : VolData) (env : Env) (pSearchData : Ptr) (szDir : List UInt8) :
    Handler (ℤ × ℤ × ℕ) :=
  if szDir ≠ [] then do
    let (found, pos) ← isoQueryIsoEntryFromPath vol env szDir
    match found with
    | none => closeAndReturn pSearchData .ERROR_PATH_NOT_FOUND
    | some (pIsoDirEntry, node) =>
      if pIsoDirEntry.isDir then do
        freeEntry node
        return (pIsoDirEntry.iExtent, pIsoDirEntry.iSize, pos)
      else do
        freeEntry node
        closeAndReturn pSearchData .ERROR_PATH_NOT_FOUND
  else return (vol.iRootExtent, rootRecordSize vol, env.pos)

/-- Store the reply of a call on the search at `pSearchData`. -/
def storeReply (pSearchData : Ptr) (r : FindReply) : Handler Unit := do
  setSearch pSearchData fun node => { node with data := r.search }
  setRequest fun q => { q with cMatch := r.cMatch }
  setData r.pData

/-- The first batch of a search in `entries`, which are those at `nodes`. -/
def findFirstIn (env : Env) (p : Request) (pSearchData : Ptr) (entries : List IsoDirEntry)
    (nodes : List Ptr) : Handler Empty := do
  setSearch pSearchData fun _ => ⟨newSearch env.toFindEnv p entries, nodes⟩
  onlyIf (entries = []) (closeAndReturn pSearchData .ERROR_FILE_NOT_FOUND)
  let pData ← read (·.pData)
  let r := storeMatches env.stack (newSearch env.toFindEnv p entries) pData p
  storeReply pSearchData r
  onlyIf (r.rc ≠ .NO_ERROR ∧ r.rc ≠ .ERROR_EAS_DIDNT_FIT) (closeAndReturn pSearchData r.rc)
  setRequest fun q => { q with pSearchData := pSearchData }
  setVolume p.pVolData fun node => { node with cSearches := node.cSearches + 1 }
  done r.rc

/-- The part of `fsFindFirst` behind the allocation of the search. -/
def findFirstFrom (env : Env) (p : Request) (vol : VolData) (pSearchData : Ptr) :
    Handler Empty := do
  let parts := splitPath (p.szName.drop 2)
  onlyIf (parts.2 = []) (closeAndReturn pSearchData .ERROR_INVALID_PARAMETER)
  let (iExtent, iSize, pos) ← searchedExtent vol env pSearchData parts.1
  let (entries, nodes, _) ← getDirEntries vol env pos iExtent iSize
  findFirstIn env p pSearchData entries nodes

/-- `fsFindFirst`. -/
def fsFindFirst (env : Env) : Handler Empty := do
  let p ← read (·.request)
  let node ← access volumes p.pVolData
  setRequest fun r => { r with pSearchData := 0 }
  onlyIf (badPath p.szName) (done .ERROR_INVALID_PARAMETER)
  onlyIf (p.usLevel ≠ FIL_STANDARD ∧ p.usLevel ≠ FIL_QUERYEASIZE ∧
    p.usLevel ≠ FIL_QUERYEASFROMLIST) (done .ERROR_NOT_SUPPORTED)
  onlyIf (env.malloc = false) (done .ERROR_NOT_ENOUGH_MEMORY)
  let pSearchData ← mallocSearch (newSearch env.toFindEnv p [])
  findFirstFrom env p node.vol.toVolData pSearchData

/-- What `fsFindNext` and `fsFindFromName` do with the search. -/
def findMore (env : Env) (p : Request) : Handler Empty := do
  let node ← access State.searches p.pSearchData
  let pData ← read (·.pData)
  let r := storeMatches env.stack node.data pData p
  storeReply p.pSearchData r
  done r.rc

/-- `fsFindNext`. -/
def fsFindNext (env : Env) : Handler Empty := do
  let p ← read (·.request)
  let _ ← access volumes p.pVolData
  findMore env p

/-- `fsFindFromName`. -/
def fsFindFromName (env : Env) : Handler Empty := do
  let p ← read (·.request)
  let _ ← access volumes p.pVolData
  onlyIf (verifyString p.szName CCHMAXPATH) (done .ERROR_INVALID_PARAMETER)
  findMore env p

/-- `fsFindClose`. -/
def fsFindClose : Handler Empty := do
  let p ← read (·.request)
  freeSearchData p.pSearchData
  let _ ← access volumes p.pVolData
  setVolume p.pVolData fun node => { node with cSearches := node.cSearches - 1 }
  done .NO_ERROR

/-! ### Requests -/

/-- The requests on volumes, files and searches. -/
inductive Call where
  | attach
  | openCreate
  | close
  | read
  | fileInfo
  | pathInfo
  | fileAttribute
  | chDir
  | findFirst
  | findNext
  | findFromName
  | findClose
  deriving DecidableEq, Repr

/-- `handleRequest`, as far as these requests go. -/
def handleRequest (env : Env) : Call → Handler Empty
  | .attach => fsAttach env
  | .openCreate => fsOpenCreate env
  | .close => fsClose
  | .read => fsRead env
  | .fileInfo => fsFileInfo env
  | .pathInfo => fsPathInfo env
  | .fileAttribute => fsFileAttribute env
  | .chDir => fsChDir env
  | .findFirst => fsFindFirst env
  | .findNext => fsFindNext env
  | .findFromName => fsFindFromName env
  | .findClose => fsFindClose

/-- A request as the daemon gets it: the contents of its exchange buffers and what it meets. -/
structure Incoming where
  call : Call
  request : Request
  pData : Memory
  env : Env

/-- Handle a request: how the handler ends, and the daemon afterwards. -/
def serve (s : State) (r : Incoming) : Outcome × State :=
  (handleRequest r.env r.call).run { s with request := r.request, pData := r.pData }

/-- The daemon before its first request. -/
def initial : State where
  server := ⟨0, Heap.empty, 0, 0⟩
  openFiles := Heap.empty
  searches := Heap.empty
  isoDirEntries := Heap.empty
  request := default
  pData := Memory.zeros

end Isofs.Daemon
