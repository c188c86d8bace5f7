import Isofs.Find.Search
import Isofs.Library.Procedure
import Isofs.Volume.Attach

/-!
# The state of the daemon

The daemon handles one request after the other. Its objects live in heaps, and a handler that
uses an object which is not live ends there. `IsoDirEntry` nodes are tracked by their addresses
alone; what they hold is in the `SearchData` and `OpenFileData` that own them.
-/

namespace Isofs

/-- `OpenFileData`, with the entry that `pIsoEntry` points to. -/
structure OpenFileData where
  iExtent : ℤ
  iSize : ℤ
  szName : List UInt8
  pIsoEntry : Ptr
  isoEntry : IsoDirEntry

/-- A `SearchData`, with the nodes of its entry list. -/
structure SearchNode where
  data : SearchData
  nodes : List Ptr

namespace Daemon

/-- The daemon, with the request and the data in its exchange buffers. -/
structure State where
  server : ServerData
  openFiles : Heap OpenFileData
  searches : Heap SearchNode
  isoDirEntries : Heap Unit
  request : Request
  pData : Memory

/-- How a handler ends: it returns a code, it uses an object that is not live, the daemon exits,
or it is still waiting for the end of a loop. -/
inductive Outcome where
  | ret (rc : ApiRet)
  | dead
  | exit
  | waiting
  deriving DecidableEq, Repr

/-- A statement of a handler. -/
abbrev Handler (α : Type) := Proc State Outcome α

/-- What a request meets: the results of `malloc` and of the C library, what the memory of a new
`SearchData` holds in place of `iNext`, the stack, and the file position that the requests
before have left. -/
structure Env extends FindEnv where
  mount : MountEnv
  fuel : ℕ
  pos : ℕ

open Proc

/-- `return rc`. -/
def done {α : Type} (rc : ApiRet) : Handler α := ret (.ret rc)

/-- Use the object at `p`. -/
def access {β : Type} (heap : State → Heap β) (p : Ptr) : Handler β := fun s =>
  match (heap s).objects p with
  | some b => (.ok b, s)
  | none => (.error .dead, s)

/-- Use the object that a link leads to, unless the link is null. -/
def accessLink {β : Type} (heap : State → Heap β) (p : Ptr) : Handler Unit :=
  onlyIf (p ≠ 0) do
    let _ ← access heap p

def volumes (s : State) : Heap VolNode := s.server.volumes

/-- Change the request. -/
def setRequest (f : Request → Request) : Handler Unit :=
  update fun s => { s with request := f s.request }

def setData (pData : Memory) : Handler Unit := update fun s => { s with pData := pData }

/-- Change the `VolData` at `p`. -/
def setVolume (p : Ptr) (f : VolNode → VolNode) : Handler Unit :=
  update fun s => { s with server := { s.server with volumes := s.server.volumes.modify p f } }

/-! ### Nodes -/

/-- Allocate `n` nodes. -/
def mallocEntries (n : ℕ) : Handler (List Ptr) := fun s =>
  (.ok (List.range' s.isoDirEntries.next n),
    { s with isoDirEntries := s.isoDirEntries.mallocMany n () })

/-- Release a node. -/
def freeEntry (p : Ptr) : Handler Unit := do
  let _ ← access State.isoDirEntries p
  update fun s => { s with isoDirEntries := s.isoDirEntries.free p }

/-- `isoFreeDirEntries`. -/
def isoFreeDirEntries : List Ptr → Handler Unit
  | [] => pure ()
  | p :: ps => do
    freeEntry p
    isoFreeDirEntries ps

/-- `getDirEntries`: the entries, their nodes and the file position. -/
def getDirEntries (vol : VolData) (env : Env) (pos : ℕ) (extent len : ℤ) :
    Handler (List IsoDirEntry × List Ptr × ℕ) :=
  match Isofs.getDirEntries vol env.sectorStack pos extent len with
  | none => ret .exit
  | some (entries, pos) => do
    let nodes ← mallocEntries entries.length
    return (entries, nodes, pos)

/-- One node for `pEntry`. -/
def mallocEntry (pEntry : IsoDirEntry) : Handler (IsoDirEntry × Ptr) := do
  let nodes ← mallocEntries 1
  return (pEntry, nodes.headD 0)

end Daemon

end Isofs
