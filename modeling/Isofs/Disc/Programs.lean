import Isofs.Disc.ProgramCalls

/-!
# Programs on a disc

A disc that was written is attached, and a program opens and reads one of its files, while other
threads make calls of their own. What the program gets are the bytes of the file, in whatever order
the semaphore calls of the threads and of the daemon come; and every file can be read so.
-/

namespace Isofs

namespace Stub

section Runs

open Protocol

variable {C D S : Type} [DecidableEq C] [DecidableEq D] [DecidableEq S]

end Runs

/-! ### A program on a disc -/

/-- A daemon that finds the image of the disc behind every path. -/
def twoNamesEnv : Daemon.Env :=
  { Daemon.jolietRequestEnv with
    mount := { jolietEnv with fopen := fun _ => some twoNamesDisc.image }
    fuel := 1 }

def twoNamesWiring : Wiring := { plainWiring with daemonEnv := twoNamesEnv }

/-- The attach of drive `E:`. -/
def attachDrive : AttachCall := ⟨[0x45, 0x3a], 0, none, 0, 524⟩

/-- The call of the thread that attaches the disc. -/
def attachTwoNames : DriverCall Daemon.State where
  env := twoNamesWiring.stub
  state := ⟨default, attachParms, attachParms, Daemon.initial, []⟩
  call := attachDrive.call
  sound := trivial
  clears _ := rfl

theorem data_attachTwoNames :
    (attachDrive.posted twoNamesWiring attachTwoNames.state).pData = attachParms := by
  have hsame : attachTwoNames.state.pFSData = attachTwoNames.state.caller := rfl
  have hparm : attachDrive.pParm = 0 := rfl
  rw [AttachCall.posted_pData, AttachCall.data, hsame, hparm, Memory.blit_slice]
  rfl

theorem helps_twoNames : twoNamesWiring.Helps 1 where
  acquires := ⟨rfl, rfl, rfl, rfl⟩
  sets := rfl
  clears _ := rfl
  waits _ := rfl
  stays _ := rfl
  releases := rfl
  probes _ := rfl
  volume _ := rfl

theorem suits_attachDrive : attachDrive.Suits twoNamesDisc twoNamesWiring attachTwoNames.state where
  drive := by decide
  parms := by
    rw [data_attachTwoNames]
    exact checkAttachParms_attachParms
  image := rfl
  offset := by
    rw [data_attachTwoNames]
    exact iOffsetParm_attachParms
  fuel := Nat.le_refl 1
  malloc := rfl
  first := Or.inl rfl

theorem suits_openInDirectory :
    openInDirectory.Suits twoNamesDisc twoNamesWiring ⟨default, 0⟩
      (callNls twoNamesWiring attachDrive attachTwoNames) [0x68, 0x69] := by
  have hset : charSetParm attachParms = [] := by decide +kernel
  have hnls : callNls twoNamesWiring attachDrive attachTwoNames = none := by
    rw [callNls, data_attachTwoNames, attachedNls, hset]
    rfl
  rw [hnls]
  exact ⟨by decide, rfl, ⟨by decide, by decide, by decide, by decide⟩, rfl,
    ⟨1, resolve_twoNames, rfl⟩, by decide⟩

section Runs

open Protocol

variable {C D S : Type} [DecidableEq C] [DecidableEq D] [DecidableEq S]

/-- Every file of a written disc can be read: when the helpers of the kernel succeed and the daemon
has memory, there is a run in which a thread attaches the disc, opens the path of the file and reads
it piece by piece through the handle that it got, and each read gives its piece. -/
theorem program_can_read {k : ℕ} {d : WritableDisc k} {w : Wiring} {a : AttachCall} {o : OpenCall}
    {f : OpenFile} {v : Ptr} {bytes : List UInt8} {fresh : Shared Daemon.State} {caller : Memory}
    (h : w.Helps v) (hv : fresh.daemon.server.volumes.next = v)
    (ha : a.Suits d w ⟨fresh.pRequest, fresh.pFSData, caller, fresh.daemon, []⟩)
    (ho : o.Suits d w f (attachedNls w.daemonEnv.mount (a.data caller fresh.pFSData)) bytes)
    (c : C) (e : D) (reads : List (Ptr × UInt16)) :
    ∃ (m : Machine Daemon.State C D S) (x y : DriverCall Daemon.State)
      (xs : List (DriverCall Daemon.State)),
      Transition.Reaches (Machine.Step w.stub.serve fresh Orderly) (Machine.start fresh) m ∧
      m.answered = x :: y :: xs ∧ m.protocol.pidDaemon = some e ∧
      x.call = a.call ∧ x.code = .NO_ERROR ∧ y.call = o.call f ∧ y.code = .NO_ERROR ∧
      Delivers (f.after y.final.trace) bytes reads xs := by
  let x : DriverCall Daemon.State :=
    ⟨⟨w.stub, ⟨fresh.pRequest, fresh.pFSData, caller, fresh.daemon, []⟩, a.call, trivial⟩, h.clears⟩
  let y : DriverCall Daemon.State := ⟨⟨w.stub, x.final, o.call f, trivial⟩, h.clears⟩
  obtain ⟨hattaches, hpassed⟩ := AttachCall.Suits.attaches (x := x) ha h rfl rfl
  obtain ⟨vol, hvol, hmounted⟩ := hattaches.mounted rfl
  rw [hpassed] at hvol
  obtain ⟨node, hnode, rfl⟩ := Option.map_eq_some_iff.mp (hv ▸ hvol)
  have hopens : OpensPath d o f v (callNls w a x) y :=
    OpenCall.Suits.opensPath ho h rfl rfl hnode hmounted
  obtain ⟨n, bytes', hn, hbytes', -, hposition, hfollows, -⟩ := hopens.follows rfl hnode hmounted
  obtain ⟨n', hn', hbytes⟩ := ho.names
  obtain rfl : n = n' := Option.some.inj (hn.symm.trans hn')
  obtain rfl : bytes' = bytes := FileContent.file.inj (hbytes'.symm.trans hbytes)
  have hle : (f.after y.final.trace).sffsi.sfiPosition.toNat ≤ bytes'.length := by
    rw [hposition]
    exact Nat.zero_le _
  obtain ⟨xs, t, hleads, hxs, hdelivers⟩ := h.delivers reads y.final _ hfollows hle
  rw [hposition] at hdelivers
  have hsucceeds : ∀ z ∈ x :: y :: xs, z.Succeeds := by
    refine List.forall_mem_cons.mpr ⟨?_, List.forall_mem_cons.mpr ⟨?_, hxs⟩⟩
    · exact h.succeeds rfl a.body_eq a.fill_silent a.finish_emits
    · exact h.succeeds rfl o.body_eq (o.fill_silent _) o.finish_local
  have hprogram : Transition.Leads (CallStep w.stub.serve) (x :: y :: xs) fresh t :=
    .cons ⟨rfl, rfl, rfl⟩ (.cons ⟨rfl, rfl, rfl⟩ hleads)
  obtain ⟨m, hrun, hm, hanswered⟩ : ∃ m : Machine Daemon.State C D S, _ :=
    exists_run_of_leads c e hsucceeds hprogram
  exact ⟨m, x, y, xs, hrun, hanswered, hm.pid, rfl, hattaches.succeeds, rfl, hopens.succeeds,
    hdelivers⟩

end Runs

/-- The file is read byte by byte; the third read finds nothing more. -/
theorem program_can_read_twoNames :
    ∃ (m : Machine Daemon.State Unit Unit Unit) (x y : DriverCall Daemon.State)
      (xs : List (DriverCall Daemon.State)),
      m.answered = x :: y :: xs ∧
      Delivers (OpenFile.after ⟨default, 0⟩ y.final.trace) [0x68, 0x69]
        [(100, 1), (101, 1), (102, 1)] xs := by
  have hsuits := suits_openInDirectory
  rw [callNls_eq] at hsuits
  have h : ∃ m : Machine Daemon.State Unit Unit Unit, _ :=
    @program_can_read Unit Unit Unit _ _ _ 3 twoNamesDisc twoNamesWiring attachDrive
      openInDirectory ⟨default, 0⟩ 1 [0x68, 0x69] attachTwoNames.state.shared
      attachTwoNames.state.caller helps_twoNames rfl suits_attachDrive hsuits () ()
      [(100, 1), (101, 1), (102, 1)]
  obtain ⟨m, x, y, xs, -, hanswered, -, -, -, -, -, hdelivers⟩ := h
  exact ⟨m, x, y, xs, hanswered, hdelivers⟩

end Stub

end Isofs
