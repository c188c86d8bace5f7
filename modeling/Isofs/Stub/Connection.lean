import Isofs.Daemon.Bookkeeping
import Isofs.Stub.Frames

/-!
# The driver with the daemon behind it

The exchange buffers that the driver hands over are those that `handleRequest` works on, and a
call of an entry point is a run of both.
-/

namespace Isofs

/-- `usType` of an `FS_CHGFILEPTR`. -/
def seekType (usType : UInt16) : SeekType :=
  if usType = 0 then .FILE_BEGIN
  else if usType = 1 then .FILE_CURRENT
  else if usType = 2 then .FILE_END
  else .unknown

namespace Daemon

open Proc

/-- `fsChgFilePtr` on the request buffer. -/
def fsChgFilePtr : Handler Empty := do
  let p ← read (·.request)
  let r := Isofs.fsChgFilePtr p.sffsi (seekType p.usType) p.ibOffset
  setRequest fun q => { q with sffsi := r.2 }
  done r.1

/-- The requests by their codes. -/
def callOf : RequestCode → Option Call
  | .FSRQ_ATTACH => some .attach
  | .FSRQ_OPENCREATE => some .openCreate
  | .FSRQ_CLOSE => some .close
  | .FSRQ_READ => some .read
  | .FSRQ_FILEINFO => some .fileInfo
  | .FSRQ_PATHINFO => some .pathInfo
  | .FSRQ_FILEATTRIBUTE => some .fileAttribute
  | .FSRQ_CHDIR => some .chDir
  | .FSRQ_FINDFIRST => some .findFirst
  | .FSRQ_FINDNEXT => some .findNext
  | .FSRQ_FINDFROMNAME => some .findFromName
  | .FSRQ_FINDCLOSE => some .findClose
  | _ => none

/-- The `switch` of `handleRequest`. `others` are the handlers that use no volume, file or
search. -/
def dispatch (env : Env) (others : RequestCode → Handler Empty) (rq : RequestCode) :
    Handler Empty :=
  match callOf rq with
  | some call => handleRequest env call
  | none => if rq = .FSRQ_CHGFILEPTR then fsChgFilePtr else others rq

end Daemon

namespace Stub

open Proc

/-- The driver, the daemon that it is connected to, and what a call of both meets. -/
structure Link where
  env : StubEnv Daemon.State
  daemonEnv : Daemon.Env
  others : RequestCode → Daemon.Handler Empty

namespace Link

variable (l : Link)

/-- How the handler of the exchange buffers `q` and `m` ends, and the daemon afterwards. -/
def handle (d : Daemon.State) (q : Request) (m : Memory) : Daemon.Outcome × Daemon.State :=
  (Daemon.dispatch l.daemonEnv l.others q.rq).run { d with request := q, pData := m }

/-- The request buffer when the daemon is done: `pRequest->rc = rc`. -/
def reply : Daemon.Outcome → Request → Request
  | .ret rc, q => { q with rc := rc }
  | _, q => q

/-- The driver, whose daemon is the one of the link. -/
def stub : StubEnv Daemon.State :=
  { l.env with
    daemon := fun d q m =>
      let (outcome, d) := l.handle d q m
      (d, reply outcome d.request, d.pData) }

theorem stub_daemon (d : Daemon.State) (q : Request) (m : Memory) :
    l.stub.daemon d q m = ((l.handle d q m).2,
      reply (l.handle d q m).1 (l.handle d q m).2.request, (l.handle d q m).2.pData) := rfl

/-- What a request with a code of `callOf` comes to. -/
theorem handle_of_callOf {call : Daemon.Call} {q : Request} (h : Daemon.callOf q.rq = some call)
    (d : Daemon.State) (m : Memory) :
    l.handle d q m = Daemon.serve d ⟨call, q, m, l.daemonEnv⟩ := by
  rw [handle, Daemon.dispatch, h]
  rfl

end Link

/-- The trace of a call from `s`, newest event first. -/
def callTrace {δ : Type} (m : Stub δ Empty) (s : StubState δ) : List StubEvent :=
  (m.run { s with trace := [] }).2.trace

/-- What holds of every end of a call holds of its trace. -/
theorem callTrace_of_ends {δ : Type} {m : Stub δ Empty} {s : StubState δ}
    {R : List StubEvent → Prop}
    (h : Ends m (fun _ _ => False) (fun _ t => R t.trace) { s with trace := [] }) :
    R (callTrace m s) :=
  h.run

theorem Emits.callTrace {δ : Type} {P : StubEvent → Prop} {m : Stub δ Empty} (h : Emits P m)
    (s : StubState δ) : ∀ e ∈ callTrace m s, P e := by
  refine callTrace_of_ends (R := fun trace => ∀ e ∈ trace, P e) ?_
  refine (h.triple [] { s with trace := [] } ⟨[], rfl, List.forall_mem_nil _⟩).mono
    (fun e => e.elim) ?_
  rintro rc t ⟨es, htrace, hes⟩
  rw [htrace, List.append_nil]
  exact hes

end Stub

end Isofs
