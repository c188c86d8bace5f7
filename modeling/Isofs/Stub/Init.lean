import Isofs.Interface.Request

/-!
# The start of the driver

`FS_INIT` of `stubfsd.c`, which takes the name of the file system from its parameter string. The
memory from `FS_NAME` on is modelled with what stands behind the array, and each store is recorded.
-/

namespace Isofs

namespace Stub

open Memory

/-- `sizeof(FS_NAME)`: seven letters, four zeros and the terminator. -/
def sizeofFsName : ℕ := 12

/-- The memory from `FS_NAME` on, and the indices that have been written, oldest first. -/
structure FsName where
  mem : Memory
  writes : List ℕ

/-- `FS_NAME[i] = c`. -/
def FsName.store (name : FsName) (i : ℕ) (c : UInt8) : FsName :=
  ⟨name.mem.blit i [c], name.writes ++ [i]⟩

/-- `c == ' ' || c == '\t'`. -/
def isBlank (c : UInt8) : Bool := c = 0x20 || c = 0x09

/-- The loop that copies the name: the index where it stops, and the name. -/
def copyLoop : ℕ → List UInt8 → FsName → ℕ × FsName
  | i, [], name => (i, name)
  | i, c :: p, name =>
    if i < sizeofFsName ∧ c ≠ 0 ∧ ¬ isBlank c then copyLoop (i + 1) p (name.store i c)
    else (i, name)

/-- The variables that `FS_INIT` sets. -/
structure Globals where
  fsName : FsName
  deviceHelp : Ptr
  pidDaemon : UInt16
  pRequest : Ptr
  pFSData : Ptr

/-- What `DevHelp_AllocGDTSelector` returns, and the two selectors. -/
structure InitEnv where
  allocGDTSelector : ApiRet
  requestSel : UInt16
  dataSel : UInt16

/-- `MAKEP`. -/
def makeP (sel off : UInt16) : Ptr := sel.toNat * 2 ^ 16 + off.toNat

/-- The statements of `FS_INIT` on the IFS name. -/
def parseName (pszParm : List UInt8) (name : FsName) : FsName :=
  match pszParm.dropWhile isBlank with
  | [] => name
  | c :: p =>
    if c ≠ 0 then
      let (i, name) := copyLoop 0 (c :: p) name
      name.store i 0
    else name

/-- `FS_INIT`. -/
def fsInit (env : InitEnv) (pszParm : List UInt8) (pDevHlp : Ptr) (g : Globals) :
    ApiRet × Globals :=
  let g := { g with
    deviceHelp := pDevHlp, pidDaemon := 0, fsName := parseName pszParm g.fsName }
  if env.allocGDTSelector ≠ .NO_ERROR then (env.allocGDTSelector, g)
  else
    (.NO_ERROR,
      { g with pRequest := makeP env.requestSel 0, pFSData := makeP env.dataSel 0 })

/-! ### The name -/

/-- The characters of a token. -/
def isTokenChar (c : UInt8) : Bool := c ≠ 0 ∧ ¬ isBlank c

/-- The token that the parameters start with. -/
def nameToken (pszParm : List UInt8) : List UInt8 :=
  (pszParm.dropWhile isBlank).takeWhile isTokenChar

/-- The parameters have left their token, cut to fit, in the array, and nothing was stored outside
of it. -/
structure NameParsed (pszParm : List UInt8) (before : Memory) (after : FsName) : Prop where
  within : ∀ i ∈ after.writes, i < sizeofFsName
  present : nameToken pszParm ≠ [] →
    HoldsAt after.mem 0 ((nameToken pszParm).take (sizeofFsName - 1) ++ [0])
  absent : nameToken pszParm = [] → ∀ i < sizeofFsName, after.mem i = before i

/-- Characters that have been stored one behind the other. -/
def FsName.storeAll (name : FsName) (i : ℕ) (chars : List UInt8) : FsName :=
  ⟨name.mem.blit i chars, name.writes ++ List.range' i chars.length⟩

theorem FsName.storeAll_nil (name : FsName) (i : ℕ) : name.storeAll i [] = name := by
  rw [storeAll, blit_nil, List.length_nil, List.range'_zero, List.append_nil]

theorem FsName.storeAll_store (name : FsName) (i : ℕ) (c : UInt8) (chars : List UInt8) :
    (name.store i c).storeAll (i + 1) chars = name.storeAll i (c :: chars) := by
  have hblit := blit_append name.mem i [c] chars
  rw [List.length_singleton, List.singleton_append] at hblit
  rw [storeAll, storeAll, store, hblit, List.append_assoc, List.singleton_append, List.length_cons,
    List.range'_succ]

theorem FsName.store_storeAll (name : FsName) (i : ℕ) (chars : List UInt8) (c : UInt8) :
    (name.storeAll i chars).store (i + chars.length) c = name.storeAll i (chars ++ [c]) := by
  rw [storeAll, storeAll, store, blit_append, List.append_assoc, List.length_append,
    List.length_singleton, List.range'_1_concat]

/-- The loop copies the token from where it stands, as far as the array goes. -/
theorem copyLoop_eq {i : ℕ} (hi : i ≤ sizeofFsName) (p : List UInt8) (name : FsName) :
    copyLoop i p name =
      (i + ((p.takeWhile isTokenChar).take (sizeofFsName - i)).length,
        name.storeAll i ((p.takeWhile isTokenChar).take (sizeofFsName - i))) := by
  induction p generalizing i name with
  | nil =>
    rw [List.takeWhile_nil, List.take_nil, FsName.storeAll_nil]
    rfl
  | cons c p ih =>
    rw [copyLoop]
    by_cases hc : isTokenChar c = true
    · rw [List.takeWhile_cons_of_pos hc]
      have hchar : c ≠ 0 ∧ ¬ isBlank c := of_decide_eq_true hc
      by_cases hroom : i < sizeofFsName
      · have hleft : sizeofFsName - i = sizeofFsName - (i + 1) + 1 := by omega
        rw [if_pos ⟨hroom, hchar⟩, @ih (i + 1) hroom, hleft, List.take_succ_cons,
          FsName.storeAll_store, List.length_cons, Nat.add_assoc i 1, Nat.add_comm 1]
      · -- the array is full
        have hfull : sizeofFsName - i = 0 := by omega
        rw [if_neg fun h => hroom h.1, hfull, List.take_zero, FsName.storeAll_nil]
        rfl
    · rw [List.takeWhile_cons_of_neg hc, List.take_nil, FsName.storeAll_nil,
        if_neg fun h => hc (decide_eq_true h.2)]
      rfl

/-- There is a token when the parameters go on behind the blanks. -/
theorem nameToken_eq_nil_iff {pszParm : List UInt8} {c : UInt8} {p : List UInt8}
    (h : pszParm.dropWhile isBlank = c :: p) : nameToken pszParm = [] ↔ c = 0 := by
  have hblank : isBlank c = false := by
    have hhead := List.head?_dropWhile_not isBlank pszParm
    rw [h] at hhead
    exact hhead
  rw [nameToken, h]
  by_cases hc : c = 0
  · have hchar : ¬ isTokenChar c = true := fun h => (of_decide_eq_true h).1 hc
    rw [List.takeWhile_cons_of_neg hchar]
    exact iff_of_true rfl hc
  · have hchar : isTokenChar c = true := decide_eq_true
      ⟨hc, by rw [hblank]; exact Bool.false_ne_true⟩
    rw [List.takeWhile_cons_of_pos hchar]
    exact iff_of_false (List.cons_ne_nil _ _) hc

/-- Without a token nothing is stored. -/
theorem parseName_of_absent {pszParm : List UInt8} (h : nameToken pszParm = []) (name : FsName) :
    parseName pszParm name = name := by
  rw [parseName]
  split
  · rfl
  · next c p hdrop => rw [if_neg (not_not.mpr ((nameToken_eq_nil_iff hdrop).mp h))]

/-- With one its characters are stored as far as the array goes, and a terminator behind them. -/
theorem parseName_of_present {pszParm : List UInt8} (h : nameToken pszParm ≠ []) (name : FsName) :
    parseName pszParm name = name.storeAll 0 ((nameToken pszParm).take sizeofFsName ++ [0]) := by
  rw [parseName]
  split
  · next hdrop =>
    rw [nameToken, hdrop] at h
    exact absurd rfl h
  · next c p hdrop =>
    have hc : c ≠ 0 := mt (nameToken_eq_nil_iff hdrop).mpr h
    have htoken : (c :: p).takeWhile isTokenChar = nameToken pszParm := by rw [nameToken, hdrop]
    rw [if_pos hc, copyLoop_eq (Nat.zero_le _), htoken, Nat.sub_zero]
    exact name.store_storeAll 0 _ 0

theorem fsName_fsInit (env : InitEnv) (pszParm : List UInt8) (pDevHlp : Ptr) (g : Globals) :
    (fsInit env pszParm pDevHlp g).2.fsName = parseName pszParm g.fsName := by
  rw [fsInit]
  split <;> rfl

/-- `FS_INIT` keeps to `FS_NAME` exactly when the token is shorter than the array: with one of
twelve characters or more it stores the terminator behind it. -/
theorem fsInit_name_iff (env : InitEnv) (pszParm : List UInt8) (pDevHlp : Ptr) (g : Globals)
    (mem : Memory) :
    NameParsed pszParm mem (fsInit env pszParm pDevHlp { g with fsName := ⟨mem, []⟩ }).2.fsName ↔
      (nameToken pszParm).length < sizeofFsName := by
  rw [fsName_fsInit]
  by_cases htoken : nameToken pszParm = []
  · rw [parseName_of_absent htoken, htoken]
    refine iff_of_true ⟨List.forall_mem_nil _, fun h => absurd htoken h, fun _ _ _ => rfl⟩ ?_
    decide
  · rw [parseName_of_present htoken]
    constructor
    · intro h
      by_contra hlong
      -- the last index written is that of the terminator
      have hfull : ((nameToken pszParm).take sizeofFsName).length = sizeofFsName := by
        rw [List.length_take, Nat.min_eq_left (Nat.not_lt.mp hlong)]
      have hlast : sizeofFsName ∈
          List.range' 0 ((nameToken pszParm).take sizeofFsName ++ [0]).length := by
        rw [List.length_append, hfull, List.length_singleton]
        exact List.mem_range'_1.mpr ⟨Nat.zero_le _, by omega⟩
      exact absurd (h.within _ hlast) (Nat.lt_irrefl _)
    · intro hshort
      have hall : (nameToken pszParm).take sizeofFsName = nameToken pszParm :=
        List.take_of_length_le (Nat.le_of_lt hshort)
      have hcut : (nameToken pszParm).take (sizeofFsName - 1) = nameToken pszParm :=
        List.take_of_length_le (Nat.le_sub_one_of_lt hshort)
      rw [hall]
      refine ⟨fun i hi => ?_, fun _ => ?_, fun h => absurd h htoken⟩
      · have hlt := (List.mem_range'_1.mp hi).2
        rw [List.length_append, List.length_singleton] at hlt
        omega
      · rw [hcut]
        exact holdsAt_blit mem 0 _

/-- A kernel that gives selectors. -/
def selectorEnv : InitEnv := ⟨.NO_ERROR, 0, 0⟩

def zeroGlobals : Globals := ⟨⟨zeros, []⟩, 0, 0, 0, 0⟩

/-- A name of twelve letters is stored with its terminator at index 12. -/
theorem fsInit_overruns :
    ¬ NameParsed (List.replicate 12 0x41) zeros
      (fsInit selectorEnv (List.replicate 12 0x41) 0 zeroGlobals).2.fsName := by
  intro h
  have hwrite :
      12 ∈ (fsInit selectorEnv (List.replicate 12 0x41) 0 zeroGlobals).2.fsName.writes := by
    decide
  exact absurd (h.within _ hwrite) (by decide)

end Stub

end Isofs
