import Isofs.Path.Resolve
import Isofs.Volume.Attach

/-!
# Names in a search

`nameMatches` of `find.c` and `hasNon83Name` of `utils.c`, on C strings without their
terminator, and that `strupr` on a name changes the answer of neither.
-/

namespace Isofs

/-- `strupr`. -/
def strupr (psz : List UInt8) : List UInt8 := psz.map toupper

/-- The case `'*'`: some rest of the name satisfies the test, the shortest being tried first. -/
def starMatches (test : List UInt8 → Bool) : List UInt8 → Bool
  | [] => test []
  | c :: name => starMatches test name || test (c :: name)

/-- `nameMatches`. -/
def nameMatches (pszExp : List UInt8) (pszName : List UInt8) : Bool :=
  match pszExp with
  | [] => (pszName.dropWhile (· = 0x2e)).isEmpty
  | 0x2a :: exp => starMatches (nameMatches exp) pszName
  | 0x3f :: exp =>
    match pszName with
    | [] => true
    | c :: name => if c = 0x2e then nameMatches exp (c :: name) else nameMatches exp name
  | 0x2e :: exp =>
    match pszName with
    | [] => nameMatches exp []
    | c :: name => c = 0x2e && nameMatches exp name
  | e :: exp =>
    match pszName with
    | [] => false
    | c :: name => tolower e = tolower c && nameMatches exp name

/-- `DOSBADCHARS`. -/
def DOSBADCHARS : List UInt8 :=
  [0x3c, 0x3e, 0x7c, 0x2b, 0x3d, 0x3a, 0x3b, 0x2c, 0x2e, 0x22, 0x2f, 0x5c, 0x5b, 0x5d]

/-- The loop of `hasNon83Name`. -/
def non83Loop (ext : Bool) (i : ℕ) : List UInt8 → Bool
  | [] => false
  | c :: psz =>
    let i := i + 1
    if ext then
      c = 0x2e || 3 < i || c ∈ DOSBADCHARS || non83Loop ext i psz
    else if c = 0x2e then non83Loop true 0 psz
    else 8 < i || c ∈ DOSBADCHARS || non83Loop ext i psz

/-- `hasNon83Name`. -/
def hasNon83Name (pszName : List UInt8) : Bool :=
  if pszName = [0x2e] ∨ pszName = [0x2e, 0x2e] then false else non83Loop false 0 pszName

/-! ### Case -/

/-- A property of bytes holds if it holds of every number below 256. -/
theorem forall_byte {P : UInt8 → Prop} (h : ∀ n < 256, P (UInt8.ofNat n)) (c : UInt8) : P c := by
  have := h c.toNat c.toNat_lt
  rwa [UInt8.ofNat_toNat] at this

theorem tolower_toupper (c : UInt8) : tolower (toupper c) = tolower c := by
  induction c using forall_byte
  decide +revert +kernel

theorem toupper_eq_dot_iff (c : UInt8) : toupper c = 0x2e ↔ c = 0x2e := by
  induction c using forall_byte
  decide +revert +kernel

theorem toupper_eq_zero_iff (c : UInt8) : toupper c = 0 ↔ c = 0 := by
  induction c using forall_byte
  decide +revert +kernel

theorem toupper_mem_DOSBADCHARS_iff (c : UInt8) : toupper c ∈ DOSBADCHARS ↔ c ∈ DOSBADCHARS := by
  induction c using forall_byte
  decide +revert +kernel

theorem length_strupr (psz : List UInt8) : (strupr psz).length = psz.length :=
  List.length_map toupper

theorem zero_notMem_strupr {psz : List UInt8} (h : 0 ∉ psz) : 0 ∉ strupr psz := by
  rw [strupr, List.mem_map]
  rintro ⟨c, hc, hzero⟩
  rw [toupper_eq_zero_iff] at hzero
  exact h (hzero ▸ hc)

/-- `strupr` does not make a dot of another character, nor another one of a dot. -/
theorem strupr_eq_dots_iff (psz : List UInt8) {dots : List UInt8} (h : ∀ c ∈ dots, c = 0x2e) :
    strupr psz = dots ↔ psz = dots := by
  induction psz generalizing dots with
  | nil => rfl
  | cons c psz ih =>
    cases dots with
    | nil => simp [strupr]
    | cons d dots =>
      have hd : d = 0x2e := h d List.mem_cons_self
      have := ih fun c hc => h c (List.mem_cons_of_mem d hc)
      rw [strupr, List.map_cons, List.cons.injEq, List.cons.injEq, hd, toupper_eq_dot_iff]
      exact and_congr_right fun _ => this

theorem starMatches_strupr {test : List UInt8 → Bool} (h : ∀ name, test (strupr name) = test name)
    (name : List UInt8) : starMatches test (strupr name) = starMatches test name := by
  induction name with
  | nil => exact h []
  | cons c name ih =>
    show (starMatches test (strupr name) || test (strupr (c :: name))) =
      (starMatches test name || test (c :: name))
    rw [ih, h]

theorem dropWhile_dot_strupr (name : List UInt8) :
    ((strupr name).dropWhile (· = 0x2e)).isEmpty = (name.dropWhile (· = 0x2e)).isEmpty := by
  induction name with
  | nil => rfl
  | cons c name ih =>
    simp only [strupr, List.map_cons, List.dropWhile_cons, toupper_eq_dot_iff] at ih ⊢
    by_cases hc : c = 0x2e
    · simpa [hc] using ih
    · simp [hc]

/-- A name matches when its upper case does. -/
theorem nameMatches_strupr (pszExp pszName : List UInt8) :
    nameMatches pszExp (strupr pszName) = nameMatches pszExp pszName := by
  induction pszExp generalizing pszName with
  | nil => exact dropWhile_dot_strupr pszName
  | cons e exp ih =>
    unfold nameMatches
    split
    · next h => cases h
    · next h =>
      cases h
      exact starMatches_strupr ih pszName
    · next h =>
      cases h
      cases pszName with
      | nil => rfl
      | cons c name =>
        have hcons := ih (c :: name)
        simp only [strupr, List.map_cons, toupper_eq_dot_iff] at hcons ⊢
        rw [hcons, ← strupr, ih]
    · next h =>
      cases h
      cases pszName with
      | nil => exact ih []
      | cons c name =>
        simp only [strupr, List.map_cons, toupper_eq_dot_iff]
        rw [← strupr, ih]
    · next h =>
      cases h
      cases pszName with
      | nil => rfl
      | cons c name =>
        simp only [strupr, List.map_cons, tolower_toupper]
        rw [← strupr, ih]

theorem non83Loop_strupr (ext : Bool) (i : ℕ) (psz : List UInt8) :
    non83Loop ext i (strupr psz) = non83Loop ext i psz := by
  induction psz generalizing ext i with
  | nil => rfl
  | cons c psz ih =>
    simp only [strupr, List.map_cons, non83Loop, toupper_eq_dot_iff, toupper_mem_DOSBADCHARS_iff]
    rw [← strupr, ih, ih]

/-- A name is an 8.3 name when its upper case is. -/
theorem hasNon83Name_strupr (pszName : List UInt8) :
    hasNon83Name (strupr pszName) = hasNon83Name pszName := by
  simp only [hasNon83Name, @strupr_eq_dots_iff pszName [0x2e] (by simp),
    @strupr_eq_dots_iff pszName [0x2e, 0x2e] (by simp), non83Loop_strupr]

end Isofs
