import Isofs.Interface.Request
import Isofs.Library.Procedure

/-!
# The exchange buffers of the driver

How `stubfsd.c` gets exclusive access to the exchange buffers, signals the daemon and
gives the access back. What the kernel helpers return and what the daemon does to the
exchange buffers is a parameter, `StubEnv`; a call records in a trace, newest event
first, what it does to the semaphores, the exchange buffers and its caller's memory.
-/

namespace Isofs

/-- Where `signalDaemonAndWait` is called: for the request, or in `undoFindFirst`. -/
inductive Signal where
  | request
  | undo
  deriving DecidableEq, Repr

/-- Whether `copyEAOP` is called before or after the daemon has worked. -/
inductive Turn where
  | pre
  | post
  deriving DecidableEq, Repr

/-- The calls of `FSH_PROBEBUF` in `copyEAOP`. -/
inductive EaopProbe where
  | eaopRead
  | eaopWrite
  | feaLength
  | feaRead
  | feaWrite
  | geaLength
  | geaRead
  deriving DecidableEq, Repr

/-- The calls of `FSH_PROBEBUF`; an entry point reaches each at most once. -/
inductive ProbeSite where
  | pcbParm
  | parmRead
  | parmWrite
  | pcbData
  | dataRead
  | dataWrite
  | eaop (turn : Turn) (probe : EaopProbe)
  deriving DecidableEq, Repr

/-- What a call meets: the values of `pidDaemon` it sees, the results of the kernel helpers
and what the daemon, in its state `δ`, does to the exchange buffers. -/
structure StubEnv (δ : Type) where
  daemonAtDetach : Bool
  daemonAtEntry : Bool
  callerIsDaemon : Bool
  requestSem : ApiRet
  daemonAfterRequest : Bool
  releaseSem : ApiRet
  setRqDone : Signal → ApiRet
  clearRqAvail : Signal → ApiRet
  waitRqDone : Signal → ApiRet
  daemonAfterWait : Signal → Bool
  probe : ProbeSite → ApiRet
  queryVPFSD : UInt16 → Ptr
  daemon : δ → Request → Memory → δ × Request × Memory

/-- What an entry point stores through its pointer parameters. -/
inductive Output where
  | sffsi (sffsi : Sffsi)
  | sffsd (pOpenFileData : Ptr)
  | fsfsd (pSearchData : Ptr)
  | vpfsd (pVolData : Ptr)
  | cdfsd (cdfsd : Cdfsd)
  | cbParm (n : UInt16)
  | cbData (n : UInt16)
  | cbLen (n : UInt16)
  | cMatch (n : UInt16)
  | usAction (n : UInt16)
  | fsGenFlag (n : UInt16)
  | fsAttr (n : UInt16)
  | szName (name : List UInt8)

/-- The events of a call. `signal` is the call of `signalDaemonAndWait`, `exchange` an access to the
exchange buffers. -/
inductive StubEvent where
  | requestSerialize
  | clearSerialize
  | signal
  | setRqDone
  | clearRqAvail (pRequest : Request) (pFSData : Memory)
  | waitRqDone
  | exchange
  | probe (site : ProbeSite) (addr : Ptr) (len : UInt16)
  | copyIn (addr : Ptr) (len : UInt16)
  | copyOut (addr : Ptr) (len : UInt16)
  | store (output : Output)

/-- The exchange buffers, the caller's memory, the daemon and the trace. -/
structure StubState (δ : Type) where
  pRequest : Request
  pFSData : Memory
  caller : Memory
  daemon : δ
  trace : List StubEvent

/-- Statements of the driver. -/
abbrev Stub (δ α : Type) := Proc (StubState δ) ApiRet α

namespace Stub

open Proc

variable {δ α : Type} (env : StubEnv δ)

def log (e : StubEvent) : Stub δ Unit := update fun s => { s with trace := e :: s.trace }

/-- Write to the request buffer. -/
def setRequest (f : Request → Request) : Stub δ Unit :=
  update fun s => { s with pRequest := f s.pRequest, trace := .exchange :: s.trace }

/-- Read from the request buffer. -/
def getRequest (f : Request → α) : Stub δ α := fun s =>
  (.ok (f s.pRequest), { s with trace := .exchange :: s.trace })

/-- `memcpy(pFSData, p, len)`. -/
def copyIn (p : Ptr) (len : UInt16) : Stub δ Unit :=
  update fun s =>
    { s with
      pFSData := s.pFSData.blit 0 (s.caller.slice p len.toNat)
      trace := .copyIn p len :: .exchange :: s.trace }

/-- `memcpy(p, pFSData, len)`. -/
def copyOut (p : Ptr) (len : UInt16) : Stub δ Unit :=
  update fun s =>
    { s with
      caller := s.caller.blit p (s.pFSData.slice 0 len.toNat)
      trace := .copyOut p len :: .exchange :: s.trace }

/-- `FSH_PROBEBUF`. -/
def probe (site : ProbeSite) (p : Ptr) (len : UInt16) : Stub δ ApiRet := do
  log (.probe site p len)
  return env.probe site

@[simp] theorem probe_apply (site : ProbeSite) (p : Ptr) (len : UInt16) (s : StubState δ) :
    probe env site p len s =
      (.ok (env.probe site), { s with trace := .probe site p len :: s.trace }) := rfl

def store (output : Output) : Stub δ Unit := log (.store output)

/-- `if (rc) return rc;` -/
def returnOnError (rc : ApiRet) : Stub δ Unit := onlyIf (rc ≠ .NO_ERROR) (ret rc)

/-- `requestExchangeXS`. -/
def requestExchangeXS : Stub δ Empty := do
  onlyIf (env.daemonAtEntry = false) (ret .ERROR_STUBFSD_DAEMON_NOT_RUNNING)
  onlyIf (env.callerIsDaemon = true) (ret .ERROR_STUBFSD_DEADLOCK)
  returnOnError env.requestSem
  log .requestSerialize
  onlyIf (env.daemonAfterRequest = false) do
    log .clearSerialize
    ret .ERROR_STUBFSD_DAEMON_NOT_RUNNING
  ret .NO_ERROR

/-- `RELEASE_AND_EXIT`: releases the exchange buffers and returns from the function it
stands in. -/
def releaseAndExit (rc : ApiRet) : Stub δ α := do
  log .clearSerialize
  ret (if env.releaseSem ≠ .NO_ERROR then env.releaseSem else rc)

/-- `if (rc) RELEASE_AND_EXIT(code);` -/
def releaseOnError (rc code : ApiRet) : Stub δ Unit :=
  onlyIf (rc ≠ .NO_ERROR) (releaseAndExit env code)

/-- The daemon works on the request between `GET_REQUEST` and `DONE_REQUEST`. -/
def daemonWorks : Stub δ Unit :=
  update fun s =>
    let (daemon, pRequest, pFSData) := env.daemon s.daemon s.pRequest s.pFSData
    { s with daemon := daemon, pRequest := pRequest, pFSData := pFSData }

/-- `FSH_SEMCLEAR(&semRqAvail)`. -/
def clearRqAvail : Stub δ Unit :=
  update fun s => { s with trace := .clearRqAvail s.pRequest s.pFSData :: s.trace }

/-- `signalDaemonAndWait`. -/
def signalDaemonAndWait (signal : Signal) : Stub δ Empty := do
  log .signal
  returnOnError (env.setRqDone signal)
  log .setRqDone
  returnOnError (env.clearRqAvail signal)
  clearRqAvail
  returnOnError (env.waitRqDone signal)
  daemonWorks env
  log .waitRqDone
  onlyIf (env.daemonAfterWait signal = false) (ret .ERROR_STUBFSD_DAEMON_NOT_RUNNING)
  ret .NO_ERROR

/-- The frame of an entry point: request the exchange buffers, `fill` them, signal the
daemon, and release them with the code that `finish` ends with. -/
def exchange (fill : Stub δ Unit) (finish : Stub δ ApiRet) : Stub δ Empty := do
  let rc ← call (requestExchangeXS env)
  returnOnError rc
  fill
  let rc ← call (signalDaemonAndWait env .request)
  releaseOnError env rc rc
  let rc ← finish
  releaseAndExit env rc

end Stub

end Isofs
