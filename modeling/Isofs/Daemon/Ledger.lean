import Isofs.Daemon.SearchEffects
import Isofs.Library.Transition

/-!
# The ledger of the kernel

What the kernel knows of the daemon: the attached volumes, and the open files and searches with
the volumes that issued them. The daemon refines the ledger over every run: its list holds the
attached volumes, and its objects are those that are open.
-/

namespace Isofs.Daemon

/-- Handles that are in use, each with the volume that issued it. -/
abbrev Handles := List (Ptr × Ptr)

/-- The ledger. The volume attached last comes first. -/
structure Ledger where
  volumes : List Ptr
  files : Handles
  searches : Handles

/-- The handle at `p` is given back. -/
def Handles.release (hs : Handles) (p : Ptr) : Handles := hs.filter fun h => h.1 ≠ p

/-- The handles themselves. -/
def Handles.addresses (hs : Handles) : List Ptr := hs.map Prod.fst

/-- The number of handles that a volume has issued. -/
def Handles.count (hs : Handles) (v : Ptr) : ℕ := hs.countP fun h => h.2 = v

/-- The ledger after an event. -/
def Ledger.after (l : Ledger) : Event → Ledger
  | .attach p => { l with volumes := p :: l.volumes }
  | .detach p => { l with volumes := l.volumes.erase p }
  | .open v p => { l with files := (p, v) :: l.files }
  | .close _ p => { l with files := Handles.release l.files p }
  | .find v p => { l with searches := (p, v) :: l.searches }
  | .findClose _ p => { l with searches := Handles.release l.searches p }

/-- The daemon with the ledger. -/
structure System where
  daemon : State
  ledger : Ledger

/-- A request that is answered, and the ledger with its event. -/
def System.next (sys : System) (r : Incoming) : Outcome × System :=
  let (outcome, daemon) := serve sys.daemon r
  match outcome with
  | .ret rc =>
    match r.event rc daemon.request with
    | some e => (.ret rc, ⟨daemon, sys.ledger.after e⟩)
    | none => (.ret rc, ⟨daemon, sys.ledger⟩)
  | outcome => (outcome, ⟨daemon, sys.ledger⟩)

/-- The system before the first request. -/
def System.initial : System := ⟨Daemon.initial, ⟨[], [], []⟩⟩

/-- A request that may be made is answered with a code. -/
def Step (may : System → Incoming → Prop) (sys sys' : System) : Prop :=
  ∃ r rc, may sys r ∧ sys.next r = (.ret rc, sys')

/-- The systems that a run of such requests reaches. -/
def Reachable (may : System → Incoming → Prop) (sys : System) : Prop :=
  Transition.Reaches (Step may) System.initial sys

/-- More requests reach more systems. -/
theorem Reachable.mono {may may' : System → Incoming → Prop} {sys : System}
    (h : Reachable may sys) (hmay : ∀ sys r, may sys r → may' sys r) : Reachable may' sys := by
  induction h with
  | refl => exact .refl
  | tail _ hstep ih =>
    obtain ⟨r, rc, hr, hnext⟩ := hstep
    exact ih.tail ⟨r, rc, hmay _ r hr, hnext⟩

/-- What a request that is answered leaves. -/
theorem next_replied {sys sys' : System} {r : Incoming} {rc : ApiRet}
    (h : sys.next r = (.ret rc, sys')) :
    (∃ e, r.event rc sys'.daemon.request = some e ∧ Applies sys.daemon.core sys'.daemon.core e ∧
      sys'.ledger = sys.ledger.after e) ∨
    (r.event rc sys'.daemon.request = none ∧ sys'.ledger = sys.ledger ∧
      ∃ ns, Fresh sys.daemon.core ns ∧ sys'.daemon.core = sys.daemon.core.withNodes ns ∧
        (r.env.malloc = true → (ns = [] ↔ ¬ Leaks sys.daemon.core r))) := by
  have hserved := serve_served sys.daemon r
  rw [System.next] at h
  generalize serve sys.daemon r = served at h hserved
  obtain ⟨outcome, daemon⟩ := served
  cases outcome with
  | ret code =>
    have hreplied : Replied r sys.daemon.core code daemon.request daemon.core := hserved
    dsimp only at h
    rw [Replied] at hreplied
    cases hevent : r.event code daemon.request with
    | some e =>
      rw [hevent] at h hreplied
      obtain ⟨hrc, rfl⟩ := Prod.mk.inj h
      obtain rfl := Outcome.ret.inj hrc
      exact Or.inl ⟨e, hevent, hreplied, rfl⟩
    | none =>
      rw [hevent] at h hreplied
      obtain ⟨hrc, rfl⟩ := Prod.mk.inj h
      obtain rfl := Outcome.ret.inj hrc
      exact Or.inr ⟨hevent, rfl, hreplied⟩
  | dead => cases h
  | exit => cases h
  | waiting => cases h

end Isofs.Daemon
