import Isofs.Interface.Request

/-!
# The parameters of the daemon

`fsFsCtl` of `attach.c` and `processArgs` of `isofsdmn.c`. The strings of an
`FSCTL_AEFS_SETPARAMS` are counted by one loop and collected by another; the second has no bound,
so it runs with fuel, and it records the addresses that it reads.
-/

namespace Isofs

open Memory

/-! ### Program arguments -/

/-- What the arguments set. -/
structure Settings where
  fQuit : Bool
  loglevel : ℤ

/-- What `processArgs` meets: the results of `getopt_long` for an argument vector, each with
`optarg`, whether a log file can be opened, and `atoi`. -/
structure ArgsEnv where
  getoptLong : List (List UInt8) → List (ℤ × List UInt8)
  freopen : List UInt8 → Bool
  atoi : List UInt8 → ℤ

/-- How `processArgs` ends: it returns, or `printUsage` exits. -/
inductive ArgsEnd where
  | ret (n : ℤ)
  | exit (status : ℤ)
  deriving DecidableEq

/-- The loop of `processArgs`. -/
def processOptions (env : ArgsEnv) (startup : Bool) :
    List (ℤ × List UInt8) → Settings → ArgsEnd × Settings
  | [], s => (.ret 0, s)
  | (c, optarg) :: rest, s =>
    if c = 0 then processOptions env startup rest s
    else if c = 1 then (if startup then .exit 0 else .ret 1, s)
    else if c = 2 then (.ret 1, s)
    else if c = 3 then
      if env.freopen optarg then processOptions env startup rest s else (.ret 1, s)
    else if c = 4 then
      processOptions env startup rest
        { s with loglevel := if env.atoi optarg < 1 then 1 else env.atoi optarg }
    else if c = 8 then processOptions env startup rest { s with fQuit := true }
    -- `printDaemonStats` returns at once
    else if c = 9 then processOptions env startup rest s
    else (if startup then .exit 1 else .ret 1, s)

/-- `processArgs`. -/
def processArgs (env : ArgsEnv) (argv : List (List UInt8)) (startup : Bool) (s : Settings) :
    ArgsEnd × Settings :=
  processOptions env startup (env.getoptLong argv) s

/-! ### The parameter block -/

/-- `sizeof(AEFS_SETPARAMS)`, which holds `szParams` only. -/
def sizeofAefsSetparams : UInt16 := 1024

/-- `"fsctl"`. -/
def fsctlName : List UInt8 := [0x66, 0x73, 0x63, 0x74, 0x6c]

/-- The loop that counts the arguments, with its number of rounds; nothing when `ok` stays 0. -/
def countLoop (szParams : Memory) : ℕ → Ptr → ℕ → Option ℕ
  | 0, _, _ => none
  | n + 1, p, argc =>
    if szParams p = 0 then
      if szParams (p + 1) = 0 then some (argc + 1) else countLoop szParams n (p + 1) (argc + 1)
    else countLoop szParams n (p + 1) argc

/-- A string that has been passed, the pointer behind its terminator, and the addresses read. -/
structure Passed where
  str : List UInt8
  p : Ptr
  reads : List Ptr

/-- `while (*p++) ;`. -/
def passString (szParams : Memory) : ℕ → Ptr → Option Passed
  | 0, _ => none
  | fuel + 1, p =>
    if szParams p = 0 then some ⟨[], p + 1, [p]⟩
    else (passString szParams fuel (p + 1)).map fun r => ⟨szParams p :: r.str, r.p, p :: r.reads⟩

/-- The loop that collects the arguments: the strings that are left, and the addresses read. -/
def collectLoop (szParams : Memory) (fuel : ℕ) : ℕ → Ptr → Option (List (List UInt8) × List Ptr)
  | 0, _ => some ([], [])
  | n + 1, p => do
    let r ← passString szParams fuel p
    let (argv, reads) ← collectLoop szParams fuel n r.p
    return (r.str :: argv, r.reads ++ reads)

/-- An argument vector, and the addresses that were read to collect it. -/
structure ArgVector where
  argc : ℕ
  argv : List (List UInt8)
  reads : List Ptr

/-- The arguments that an `FSCTL_AEFS_SETPARAMS` passes to `processArgs`, unless it is refused. -/
def paramsVector (szParams : Memory) (fuel : ℕ) : Option (Except ApiRet ArgVector) :=
  match countLoop szParams (sizeofAefsSetparams.toNat - 1) 0 1 with
  | none => some (.error .ERROR_INVALID_PARAMETER)
  | some argc => (collectLoop szParams fuel (argc - 1) 0).map fun (argv, reads) =>
    .ok ⟨argc, fsctlName :: argv, reads⟩

/-! ### The control requests -/

def FSCTL_ERROR_INFO : UInt16 := 1
def FSCTL_MAX_EASIZE : UInt16 := 2
def FSCTL_AEFS_SETPARAMS : UInt16 := 0x8020

/-- What an `FS_FSCTL` is answered with. -/
structure FsCtlReply where
  rc : ApiRet
  cbData : UInt16
  pData : Memory
  settings : Settings

/-- `sprintf(p, "ISOFS error %ld", error)`. -/
def errorText (error : ℕ) : List UInt8 :=
  [0x49, 0x53, 0x4f, 0x46, 0x53, 0x20, 0x65, 0x72, 0x72, 0x6f, 0x72, 0x20] ++
    (Nat.toDigits 10 error).map fun c => UInt8.ofNat c.toNat

/-- The end of an `FSCTL_AEFS_SETPARAMS`, with what `processArgs` returns. -/
def setParamsReply (p : Request) (pData : Memory) : ArgsEnd × Settings → FsCtlReply
  | (result, s) =>
    ⟨if result = .ret 0 then .NO_ERROR else .ERROR_AEFS_SETAEFSPARAMS, p.cbData, pData, s⟩

/-- `fsFsCtl`. `easizebuf` is an `EASIZEBUF` with these values, as it is laid out in memory. -/
def fsFsCtl (env : ArgsEnv) (easizebuf : ℕ → ℕ → List UInt8) (fuel : ℕ) (s : Settings)
    (pData : Memory) (p : Request) : Option FsCtlReply :=
  if p.usFunc = FSCTL_ERROR_INFO then
    if p.cbParm < 2 then some ⟨.ERROR_INVALID_PARAMETER, p.cbData, pData, s⟩
    else
      let text := errorText ((pData 0).toNat + (pData 1).toNat * 2 ^ 8)
      let cbData := UInt16.ofNat (text.length + 1)
      let rc : ApiRet := if p.cbMaxData < cbData then .ERROR_BUFFER_OVERFLOW else .NO_ERROR
      some ⟨rc, cbData, pData.blit 0 (text ++ [0]), s⟩
  else if p.usFunc = FSCTL_MAX_EASIZE then
    let buf := easizebuf 65535 65535
    let cbData := UInt16.ofNat buf.length
    if p.cbMaxData < cbData then some ⟨.ERROR_BUFFER_OVERFLOW, cbData, pData, s⟩
    else some ⟨.NO_ERROR, cbData, pData.blit 0 buf, s⟩
  else if p.usFunc = FSCTL_AEFS_SETPARAMS then
    if p.cbParm ≠ sizeofAefsSetparams then some ⟨.ERROR_INVALID_PARAMETER, p.cbData, pData, s⟩
    else
      match paramsVector pData fuel with
      | none => none
      | some (.error rc) => some ⟨rc, p.cbData, pData, s⟩
      | some (.ok v) => some (setParamsReply p pData (processArgs env v.argv false s))
  else some ⟨.ERROR_NOT_SUPPORTED, p.cbData, pData, s⟩

/-! ### The split of the parameters -/

/-- Strings with their terminators, one behind the other. -/
def argBytes (ss : List (List UInt8)) : List UInt8 := ss.flatMap (· ++ [0])

theorem argBytes_cons (str : List UInt8) (ss : List (List UInt8)) :
    argBytes (str :: ss) = str ++ 0 :: argBytes ss := by
  rw [argBytes, List.flatMap_cons, List.append_assoc]
  rfl

/-- The bytes at `j` and behind it are both NUL. -/
def IsDoubleNul (szParams : Memory) (j : ℕ) : Prop := szParams j = 0 ∧ szParams (j + 1) = 0

instance (szParams : Memory) (j : ℕ) : Decidable (IsDoubleNul szParams j) :=
  inferInstanceAs (Decidable (_ ∧ _))

/-- The first pair of adjacent NULs in `szParams` starts at `j`. -/
structure IsFirstDoubleNul (szParams : Memory) (j : ℕ) : Prop where
  within : j + 1 < sizeofAefsSetparams.toNat
  isDoubleNul : IsDoubleNul szParams j
  first : ∀ i < j, ¬ IsDoubleNul szParams i

/-- The vector has the strings of the part of `szParams` that ends with the first pair of adjacent
NULs, which starts at `j`, and nothing behind that part was read for it. -/
structure SplitsUpTo (szParams : Memory) (j : ℕ) (v : ArgVector) : Prop where
  argv : ∃ ss, v.argv = fsctlName :: ss ∧ v.argc = ss.length + 1 ∧ (∀ str ∈ ss, 0 ∉ str) ∧
    argBytes ss ++ [0] = szParams.slice 0 (j + 2)
  reads : ∀ addr ∈ v.reads, addr < j + 2

section Split

variable {szParams : Memory}

/-- Without a pair of NULs the arguments are not counted. -/
theorem countLoop_eq_none {n p : ℕ} (h : ∀ j, p ≤ j → j < p + n → ¬ IsDoubleNul szParams j)
    (argc : ℕ) : countLoop szParams n p argc = none := by
  induction n generalizing p argc with
  | zero => rfl
  | succ n ih =>
    have hrest : ∀ j, p + 1 ≤ j → j < p + 1 + n → ¬ IsDoubleNul szParams j := by
      intro j hlo hhi
      exact h j (by omega) (by omega)
    rw [countLoop]
    split
    · next hp =>
      rw [if_neg fun hnext => h p (Nat.le_refl p) (by omega) ⟨hp, hnext⟩]
      exact ih hrest _
    · exact ih hrest _

/-- Up to the first pair of NULs there are strings, and the counting loop counts them. -/
theorem exists_strings {p j : ℕ} (hpj : p ≤ j) (hpair : IsDoubleNul szParams j)
    (hfirst : ∀ i, p ≤ i → i < j → ¬ IsDoubleNul szParams i) :
    ∃ ss, ss ≠ [] ∧ HoldsAt szParams p (argBytes ss) ∧ p + (argBytes ss).length = j + 1 ∧
      (∀ str ∈ ss, 0 ∉ str) ∧
      ∀ n argc, j < p + n → countLoop szParams n p argc = some (argc + ss.length) := by
  induction hdist : j - p generalizing p with
  | zero =>
    -- the pair itself ends an empty string
    obtain rfl : p = j := by omega
    refine ⟨[[]], List.cons_ne_nil _ _, holdsAt_singleton.mpr hpair.1, rfl, ?_, fun n argc hn => ?_⟩
    · exact List.forall_mem_singleton.mpr List.not_mem_nil
    · obtain ⟨n, rfl⟩ : ∃ k, n = k + 1 := ⟨n - 1, by omega⟩
      rw [countLoop, if_pos hpair.1, if_pos hpair.2]
      rfl
  | succ dist ih =>
    obtain ⟨ss, hne, hholds, hlength, hstrings, hcount⟩ := ih (p := p + 1) (by omega)
      (fun i hlo hhi => hfirst i (by omega) hhi) (by omega)
    have hstep {n : ℕ} (hn : j < p + n) : ∃ k, n = k + 1 ∧ j < p + 1 + k :=
      ⟨n - 1, by omega, by omega⟩
    by_cases hp : szParams p = 0
    · -- one more string, which is empty
      have hnext : szParams (p + 1) ≠ 0 := by
        intro hnext
        exact hfirst p (Nat.le_refl p) (by omega) ⟨hp, hnext⟩
      refine ⟨[] :: ss, List.cons_ne_nil _ _, ?_, ?_, ?_, fun n argc hn => ?_⟩
      · rw [argBytes_cons, List.nil_append, ← List.singleton_append, holdsAt_append]
        exact ⟨holdsAt_singleton.mpr hp, hholds⟩
      · rw [argBytes_cons, List.nil_append, List.length_cons]
        omega
      · exact List.forall_mem_cons.mpr ⟨List.not_mem_nil, hstrings⟩
      · obtain ⟨k, rfl, hk⟩ := hstep hn
        rw [countLoop, if_pos hp, if_neg hnext, hcount k _ hk, List.length_cons]
        congr 1
        omega
    · -- the first string starts a byte earlier
      obtain ⟨str, ss, rfl⟩ := List.exists_cons_of_ne_nil hne
      obtain ⟨hstr, hss⟩ := List.forall_mem_cons.mp hstrings
      refine ⟨(szParams p :: str) :: ss, List.cons_ne_nil _ _, ?_, ?_, ?_, fun n argc hn => ?_⟩
      · rw [argBytes_cons] at hholds ⊢
        rw [List.cons_append, ← List.singleton_append, holdsAt_append]
        exact ⟨holdsAt_singleton.mpr rfl, hholds⟩
      · rw [argBytes_cons] at hlength ⊢
        rw [List.cons_append, List.length_cons]
        omega
      · refine List.forall_mem_cons.mpr ⟨fun hmem => ?_, hss⟩
        rcases List.mem_cons.mp hmem with hzero | hmem
        · exact hp hzero.symm
        · exact hstr hmem
      · obtain ⟨k, rfl, hk⟩ := hstep hn
        rw [countLoop, if_neg hp, hcount k _ hk]
        rfl

/-- A string is passed up to its terminator. -/
theorem passString_eq {str : List UInt8} {p fuel : ℕ} (hholds : HoldsAt szParams p (str ++ [0]))
    (hstr : 0 ∉ str) (hfuel : str.length < fuel) :
    passString szParams fuel p =
      some ⟨str, p + str.length + 1, List.range' p (str.length + 1)⟩ := by
  induction str generalizing p fuel with
  | nil =>
    obtain ⟨fuel, rfl⟩ : ∃ k, fuel = k + 1 := ⟨fuel - 1, by omega⟩
    have hp : szParams p = 0 := holdsAt_singleton.mp hholds
    rw [passString, if_pos hp]
    rfl
  | cons c str ih =>
    obtain ⟨fuel, rfl⟩ : ∃ k, fuel = k + 1 := ⟨fuel - 1, by omega⟩
    rw [List.cons_append, ← List.singleton_append, holdsAt_append, holdsAt_singleton] at hholds
    obtain ⟨rfl, hrest⟩ := hholds
    rw [List.mem_cons, not_or] at hstr
    have hnext := ih hrest hstr.2 (Nat.lt_of_succ_lt_succ hfuel)
    rw [List.length_singleton] at hnext
    rw [passString, if_neg (Ne.symm hstr.1), hnext]
    simp only [Option.map_some, List.length_cons, List.range'_succ, Nat.add_right_comm p 1,
      Nat.add_assoc]

/-- The strings are collected as they stand, and nothing behind them is read. -/
theorem collectLoop_eq {ss : List (List UInt8)} {p fuel : ℕ}
    (hholds : HoldsAt szParams p (argBytes ss)) (hstrings : ∀ str ∈ ss, 0 ∉ str)
    (hfuel : (argBytes ss).length ≤ fuel) :
    ∃ reads, collectLoop szParams fuel ss.length p = some (ss, reads) ∧
      ∀ addr ∈ reads, addr < p + (argBytes ss).length := by
  induction ss generalizing p with
  | nil => exact ⟨[], rfl, List.forall_mem_nil _⟩
  | cons str ss ih =>
    obtain ⟨hstr, hss⟩ := List.forall_mem_cons.mp hstrings
    have hcons : argBytes (str :: ss) = (str ++ [0]) ++ argBytes ss := by
      rw [argBytes_cons, List.append_assoc]
      rfl
    have hlength : (argBytes (str :: ss)).length = str.length + 1 + (argBytes ss).length := by
      rw [hcons, List.length_append, List.length_append]
      rfl
    rw [hlength] at hfuel ⊢
    rw [hcons, holdsAt_append, List.length_append] at hholds
    obtain ⟨reads, hcollect, hreads⟩ := ih hholds.2 hss (by omega)
    have hpass := passString_eq hholds.1 hstr (show str.length < fuel by omega)
    have hnext : p + (str.length + [(0 : UInt8)].length) = p + str.length + 1 := rfl
    rw [hnext] at hcollect hreads
    refine ⟨List.range' p (str.length + 1) ++ reads, ?_, fun addr haddr => ?_⟩
    · rw [List.length_cons, collectLoop, hpass]
      simp only [Option.bind_eq_bind, Option.bind_some, hcollect]
      rfl
    · rcases List.mem_append.mp haddr with haddr | haddr
      · exact Nat.lt_of_lt_of_le (List.mem_range'_1.mp haddr).2 (by omega)
      · exact Nat.lt_of_lt_of_le (hreads addr haddr) (by omega)

/-- The vector of the parameters, when there is a pair of NULs. -/
theorem paramsVector_splits {j fuel : ℕ} (h : IsFirstDoubleNul szParams j)
    (hfuel : sizeofAefsSetparams.toNat ≤ fuel) :
    ∃ v, paramsVector szParams fuel = some (.ok v) ∧ SplitsUpTo szParams j v := by
  have hwithin := h.within
  obtain ⟨ss, -, hholds, hlength, hstrings, hcount⟩ :=
    exists_strings (Nat.zero_le j) h.isDoubleNul fun i _ => h.first i
  obtain ⟨reads, hcollect, hreads⟩ := @collectLoop_eq szParams ss 0 fuel hholds hstrings (by omega)
  refine ⟨⟨1 + ss.length, fsctlName :: ss, reads⟩, ?_, ⟨ss, rfl, Nat.add_comm _ _, hstrings, ?_⟩,
    ?_⟩
  · rw [paramsVector, hcount _ 1 (by omega)]
    simp only [Nat.add_sub_cancel_left, hcollect, Option.map_some]
  · have hprefix : HoldsAt szParams 0 (argBytes ss ++ [0]) := by
      refine holdsAt_append.mpr ⟨hholds, holdsAt_singleton.mpr ?_⟩
      rw [hlength]
      exact h.isDoubleNul.2
    have hslice := hprefix.slice
    rw [List.length_append, List.length_singleton] at hslice
    rw [← hslice]
    congr 1
    omega
  · intro addr haddr
    exact Nat.lt_of_lt_of_le (hreads addr haddr) (by omega)

/-- Without one the parameters are refused. -/
theorem paramsVector_of_none (h : ∀ j, j + 1 < sizeofAefsSetparams.toNat →
    ¬ IsDoubleNul szParams j) (fuel : ℕ) :
    paramsVector szParams fuel = some (.error .ERROR_INVALID_PARAMETER) := by
  rw [paramsVector, countLoop_eq_none fun j _ hj => h j (by omega)]

/-- A pair of NULs comes first or another one does. -/
theorem exists_isFirstDoubleNul {j : ℕ} (hj : j + 1 < sizeofAefsSetparams.toNat)
    (hpair : IsDoubleNul szParams j) : ∃ i, IsFirstDoubleNul szParams i := by
  induction j using Nat.strongRecOn with
  | ind j ih =>
    by_cases hbefore : ∃ i, i < j ∧ IsDoubleNul szParams i
    · obtain ⟨i, hi, hpair'⟩ := hbefore
      exact ih i hi (by omega) hpair'
    · exact ⟨j, hj, hpair, fun i hi hpair' => hbefore ⟨i, hi, hpair'⟩⟩

end Split

/-- An `FSCTL_AEFS_SETPARAMS` of the right size comes to an end. It is refused exactly when no two
adjacent bytes of `szParams` are NUL; otherwise `processArgs` gets the strings up to the first two
that are. -/
theorem fsFsCtl_splits_params (env : ArgsEnv) (easizebuf : ℕ → ℕ → List UInt8) {fuel : ℕ}
    (hfuel : sizeofAefsSetparams.toNat ≤ fuel) (s : Settings) (pData : Memory) {p : Request}
    (hfunc : p.usFunc = FSCTL_AEFS_SETPARAMS) (hsize : p.cbParm = sizeofAefsSetparams) :
    ∃ reply, fsFsCtl env easizebuf fuel s pData p = some reply ∧
      (reply.rc = .ERROR_INVALID_PARAMETER ↔
        ∀ j, j + 1 < sizeofAefsSetparams.toNat → ¬ IsDoubleNul pData j) ∧
      ∀ j, IsFirstDoubleNul pData j → ∃ v, paramsVector pData fuel = some (.ok v) ∧
        SplitsUpTo pData j v ∧
        reply = setParamsReply p pData (processArgs env v.argv false s) := by
  have hrun : fsFsCtl env easizebuf fuel s pData p =
      match paramsVector pData fuel with
      | none => none
      | some (.error rc) => some ⟨rc, p.cbData, pData, s⟩
      | some (.ok v) => some (setParamsReply p pData (processArgs env v.argv false s)) := by
    rw [fsFsCtl, hfunc, if_neg (by decide), if_neg (by decide), if_pos rfl, hsize,
      if_neg (not_not.mpr rfl)]
  rw [hrun]
  -- without two adjacent NULs the count runs off the parameters
  by_cases hnone : ∀ j, j + 1 < sizeofAefsSetparams.toNat → ¬ IsDoubleNul pData j
  · rw [paramsVector_of_none hnone]
    refine ⟨_, rfl, iff_of_true rfl hnone, fun j hj => ?_⟩
    exact absurd hj.isDoubleNul (hnone j hj.within)
  · obtain ⟨j, hj⟩ := not_forall.mp hnone
    obtain ⟨hwithin, hpair⟩ := Classical.not_imp.mp hj
    obtain ⟨i, hi⟩ := exists_isFirstDoubleNul hwithin (not_not.mp hpair)
    obtain ⟨v, hv, -⟩ := paramsVector_splits hi hfuel
    rw [hv]
    refine ⟨_, rfl, iff_of_false (fun hrc => ?_) hnone, fun j hj => ?_⟩
    · -- `processArgs` does not give this code
      rw [setParamsReply] at hrc
      split at hrc
      · cases hrc
      · cases hrc
    · obtain ⟨v', hv', hsplits⟩ := paramsVector_splits hj hfuel
      cases hv.symm.trans hv'
      exact ⟨v, rfl, hsplits, rfl⟩

/-- Arguments without options. -/
def quietArgs : ArgsEnv := ⟨fun _ => [], fun _ => true, fun _ => 0⟩

/-- The one parameter `a`, in a request of the right size. -/
def setParamsRequest : Request :=
  { (default : Request) with usFunc := FSCTL_AEFS_SETPARAMS, cbParm := sizeofAefsSetparams }

theorem fsFsCtl_accepts_param :
    ∃ reply, fsFsCtl quietArgs (fun _ _ => []) 1024 ⟨false, 1⟩ (zeros.blit 0 [0x61])
      setParamsRequest = some reply ∧ reply.rc ≠ .ERROR_INVALID_PARAMETER := by
  obtain ⟨reply, hrun, hrc, -⟩ := fsFsCtl_splits_params quietArgs (fun _ _ => [])
    (Nat.le_refl 1024) ⟨false, 1⟩ (zeros.blit 0 [0x61])
    (show setParamsRequest.usFunc = FSCTL_AEFS_SETPARAMS from rfl) rfl
  have hpair : IsDoubleNul (zeros.blit 0 [0x61]) 1 := ⟨rfl, rfl⟩
  exact ⟨reply, hrun, fun h => hrc.mp h 1 (by decide) hpair⟩

end Isofs
