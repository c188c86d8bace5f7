import Isofs.Volume.Data

/-!
# Reading a directory extent

`getDirEntries` of `isoaccess.c`: the outer loop reads one 2048-byte sector after
the other into a buffer on the stack, the inner loop walks the records of the
buffered sector. `stack` is the memory behind that buffer: nothing stops a record
near the end of the sector from being decoded past it.
-/

namespace Isofs

open TwosComplement

/-- `sizeof(struct iso_directory_record)`: the 33 fixed bytes and `name[MAX_ISONAME + 1]`. -/
def sizeofDirectoryRecord : ℕ := 71

/-- `idr->name_len[0]` of the record at `i`. -/
def nameLen (buffer : Memory) (i : ℕ) : ℕ := (buffer (i + 32)).toNat

/-- `idr->name[j]` of the record at `i`. -/
def nameByte (buffer : Memory) (i j : ℕ) : UInt8 := buffer (i + 33 + j)

/-- One UCS-2 character converted to a codepage byte. Without a table the low byte is
taken; an absent page gives `'\0'`. -/
def convertChar (nls : Option NlsTable) (uh ul : UInt8) : UInt8 :=
  match nls with
  | none => ul
  | some table =>
    match table.pageUni2charset uh with
    | none => 0
    | some up => up ul

/-- The characters put into `name_buf` for the record at `i`. -/
def nameBuf (vol : VolData) (buffer : Memory) (i : ℕ) : Option (List UInt8) :=
  if nameLen buffer i = 1 ∧ nameByte buffer i 0 = 0 then some [0x2e]
  else if nameLen buffer i = 1 ∧ nameByte buffer i 0 = 1 then some [0x2e, 0x2e]
  else
    match vol.ucsLevel with
    | 3 | 2 | 1 =>
      some ((List.range (nameLen buffer i / 2)).map fun j =>
        convertChar vol.nls (nameByte buffer i (j * 2)) (nameByte buffer i (j * 2 + 1)))
    | 0 => some ((List.range (nameLen buffer i)).map (nameByte buffer i))
    -- an unknown level: the daemon calls `exit(1)`
    | _ => none

/-- A converted name always fits `name_buf[256]` with its terminator. -/
theorem length_nameBuf_lt {vol : VolData} {buffer : Memory} {i : ℕ} {chars : List UInt8}
    (h : nameBuf vol buffer i = some chars) : chars.length < 256 := by
  have hlen : nameLen buffer i < 256 := (buffer (i + 32)).toNat_lt
  rw [nameBuf] at h
  split at h
  · simp only [Option.some.injEq] at h
    subst h
    decide
  · split at h
    · simp only [Option.some.injEq] at h
      subst h
      decide
    · split at h <;> simp only [Option.some.injEq, reduceCtorEq] at h <;> subst h <;>
        rw [List.length_map, List.length_range] <;> omega

/-- At a Joliet level that a mount selects the name conversion never gives up. -/
theorem nameBuf_isSome {vol : VolData} (hucs : vol.ucsLevel ≤ 3) (buffer : Memory) (i : ℕ) :
    ∃ chars, nameBuf vol buffer i = some chars := by
  rw [nameBuf]
  split
  · exact ⟨_, rfl⟩
  · split
    · exact ⟨_, rfl⟩
    · have hlevel : vol.ucsLevel = 0 ∨ vol.ucsLevel = 1 ∨ vol.ucsLevel = 2 ∨ vol.ucsLevel = 3 := by
        omega
      rcases hlevel with h | h | h | h <;> rw [h] <;> exact ⟨_, rfl⟩

/-- The entry built for the record at `i` of the sector `extent`, whose characters in
`name_buf` are `chars`. -/
def recordEntry (buffer : Memory) (extent : ℤ) (i : ℕ) (chars : List UInt8)
    (h : chars.length < 256) : IsoDirEntry :=
  let stMode : FileMode := if buffer (i + 25) &&& 2 ≠ 0 then .S_IFDIR else .S_IFREG
  { flFlags := dosFlags stMode
    iExtent := isonum733 buffer (i + 2)
    iSize := isonum733 buffer (i + 10)
    iParentExtent := extent
    chrName := cString chars
    stSize := isonum733 buffer (i + 10)
    stMode := stMode
    dateBuf := buffer.slice (i + 18) 9
    chrName_length_lt := Nat.lt_of_le_of_lt (length_cString_le chars) h
    chrName_no_nul := zero_notMem_cString chars
    flFlags_eq := rfl }

/-- The body of the inner loop: the entry of the record at `i`. -/
def decodeRecord (vol : VolData) (buffer : Memory) (extent : ℤ) (i : ℕ) : Option IsoDirEntry :=
  match h : nameBuf vol buffer i with
  | none => none
  | some chars => some (recordEntry buffer extent i chars (length_nameBuf_lt h))

/-- The inner loop from offset `i` on: one entry for each record of the buffered sector. -/
def sectorEntries (vol : VolData) (buffer : Memory) (extent : ℤ) (i : ℕ) :
    Option (List IsoDirEntry) :=
  if _hlen : buffer i = 0 then some []
  else
    match decodeRecord vol buffer extent i with
    | none => none
    | some e =>
      if _hi : 2048 - sizeofDirectoryRecord < i + (buffer i).toNat then some [e]
      else (sectorEntries vol buffer extent (i + (buffer i).toNat)).map (e :: ·)
termination_by 2048 - i
decreasing_by
  have hpos := UInt8.toNat_pos_of_ne_zero _hlen
  rw [sizeofDirectoryRecord] at _hi
  omega

/-- The outer loop, with the sector buffer as the previous read left it. -/
def dirSectors (vol : VolData) (buffer : Memory) (pos : ℕ) (extent len : ℤ) :
    Option (List IsoDirEntry × ℕ) :=
  if 0 < len then
    let (buffer, pos) := vol.isoFile.seekRead pos (IsoFile.blockOffset extent) 2048 buffer
    match sectorEntries vol buffer extent 0 with
    | none => none
    | some entries =>
      (dirSectors vol buffer pos (wrap32 (extent + 1)) (len - 2048)).map fun (rest, pos) =>
        (entries ++ rest, pos)
  else some ([], pos)
termination_by len.toNat

theorem dirSectors_of_nonpos (vol : VolData) (buffer : Memory) (pos : ℕ) (extent : ℤ) {len : ℤ}
    (h : len ≤ 0) : dirSectors vol buffer pos extent len = some ([], pos) := by
  rw [dirSectors, if_neg (by omega)]

/-- One turn of the outer loop. -/
theorem dirSectors_of_pos (vol : VolData) (buffer : Memory) (pos : ℕ) (extent : ℤ) {len : ℤ}
    (h : 0 < len) {sector : Memory × ℕ}
    (hsector : vol.isoFile.seekRead pos (IsoFile.blockOffset extent) 2048 buffer = sector) :
    dirSectors vol buffer pos extent len =
      match sectorEntries vol sector.1 extent 0 with
      | none => none
      | some entries =>
        (dirSectors vol sector.1 sector.2 (wrap32 (extent + 1)) (len - 2048)).map
          fun (rest, pos) => (entries ++ rest, pos) := by
  subst hsector
  rw [dirSectors, if_pos h]

/-- `getDirEntries`: the entries of the directory at `extent` with `len` bytes, and the
file position afterwards; `none` when the daemon exits. -/
def getDirEntries (vol : VolData) (stack : Memory) (pos : ℕ) (extent len : ℤ) :
    Option (List IsoDirEntry × ℕ) :=
  dirSectors vol (stack.clear 2048) pos extent len

/-- The records depend on the level and the table of the volume only. -/
theorem sectorEntries_congr {vol vol' : VolData} (hlevel : vol'.ucsLevel = vol.ucsLevel)
    (hnls : vol'.nls = vol.nls) (buffer : Memory) (extent : ℤ) (i : ℕ) :
    sectorEntries vol' buffer extent i = sectorEntries vol buffer extent i := by
  have hrecord (i : ℕ) : decodeRecord vol' buffer extent i = decodeRecord vol buffer extent i := by
    obtain ⟨_, _, _, _, level, nls⟩ := vol
    obtain ⟨_, _, _, _, level', nls'⟩ := vol'
    obtain rfl : level' = level := hlevel
    obtain rfl : nls' = nls := hnls
    rfl
  fun_induction sectorEntries vol buffer extent i with
  | case1 i hlen => rw [sectorEntries, dif_pos hlen]
  | case2 i hlen hnone => rw [sectorEntries, dif_neg hlen, hrecord, hnone]
  | case3 i hlen e he hi =>
    rw [sectorEntries, dif_neg hlen, hrecord, he]
    exact dif_pos hi
  | case4 i hlen e he hi ih =>
    rw [sectorEntries, dif_neg hlen, hrecord, he]
    simp only [dif_neg hi, ih]

theorem sectorEntries_isSome {vol : VolData} (hucs : vol.ucsLevel ≤ 3) (buffer : Memory)
    (extent : ℤ) (i : ℕ) : ∃ entries, sectorEntries vol buffer extent i = some entries := by
  induction i using sectorEntries.induct vol buffer extent with
  | case1 i hlen => exact ⟨[], by rw [sectorEntries, dif_pos hlen]⟩
  | case2 i hlen hnone =>
    obtain ⟨chars, hchars⟩ := nameBuf_isSome hucs buffer i
    rw [decodeRecord] at hnone
    split at hnone
    · next h => rw [hchars] at h; cases h
    · cases hnone
  | case3 i hlen e he hi =>
    rw [sectorEntries, dif_neg hlen, he]
    simp only [dif_pos hi]
    exact ⟨[e], rfl⟩
  | case4 i hlen e he hi ih =>
    obtain ⟨entries, hentries⟩ := ih
    refine ⟨e :: entries, ?_⟩
    rw [sectorEntries, dif_neg hlen, he]
    simp only [dif_neg hi, hentries, Option.map_some]

/-- On an attached volume a listing always returns. -/
theorem getDirEntries_isSome {vol : VolData} (hucs : vol.ucsLevel ≤ 3) (stack : Memory) (pos : ℕ)
    (extent len : ℤ) : ∃ entries pos',
      getDirEntries vol stack pos extent len = some (entries, pos') := by
  suffices h : ∀ (n : ℕ) (buffer : Memory) (pos : ℕ) (extent len : ℤ), len ≤ 2048 * n →
      ∃ entries pos', dirSectors vol buffer pos extent len = some (entries, pos') from
    h len.toNat _ pos extent len (by omega)
  intro n
  induction n with
  | zero =>
    intro buffer pos extent len hlen
    exact ⟨[], pos, dirSectors_of_nonpos _ _ _ _ (by omega)⟩
  | succ n ih =>
    intro buffer pos extent len hlen
    by_cases hpos : 0 < len
    · obtain ⟨entries, hentries⟩ := sectorEntries_isSome hucs
        (vol.isoFile.seekRead pos (IsoFile.blockOffset extent) 2048 buffer).1 extent 0
      obtain ⟨rest, pos', hrest⟩ := ih
        (vol.isoFile.seekRead pos (IsoFile.blockOffset extent) 2048 buffer).1
        (vol.isoFile.seekRead pos (IsoFile.blockOffset extent) 2048 buffer).2
        (wrap32 (extent + 1)) (len - 2048) (by omega)
      refine ⟨entries ++ rest, pos', ?_⟩
      rw [dirSectors_of_pos _ _ _ _ hpos rfl, hentries]
      simp only [hrest, Option.map_some]
    · exact ⟨[], pos, dirSectors_of_nonpos _ _ _ _ (by omega)⟩

end Isofs
