import Isofs.Directory.Soundness

/-!
# Joliet names

What becomes of the big-endian UCS-2 name of a directory record. A character whose conversion
gives a NUL ends the name.
-/

namespace Isofs

/-- A UCS-2 character, high byte first. -/
abbrev UcsChar := UInt8 × UInt8

/-- The translation of a character, unless the table has none. -/
def translation (nls : Option NlsTable) (c : UcsChar) : Option UInt8 := do
  let table ← nls
  let up ← table.pageUni2charset c.1
  if up c.2 = 0 then none else some (up c.2)

/-- The codepage name has one character for each of `chars`, none of them a NUL: the one of the
table if that has one, and any substitute otherwise. -/
structure KeepsName (nls : Option NlsTable) (chars : List UcsChar) (chrName : List UInt8) :
    Prop where
  length : chrName.length = chars.length
  no_nul : 0 ∉ chrName
  translated : ∀ (j : ℕ) (c : UcsChar) (b : UInt8), chars[j]? = some c →
    translation nls c = some b → chrName[j]? = some b

/-- Without a table the low byte of the character is not zero, and with one the character has a
translation. -/
def Converts (nls : Option NlsTable) (c : UcsChar) : Prop :=
  match nls with
  | none => c.2 ≠ 0
  | some table => ∃ up, table.pageUni2charset c.1 = some up ∧ up c.2 ≠ 0

namespace RecordPlace

/-- The characters of the name of the record. -/
def ucsName (p : RecordPlace) : List UcsChar :=
  (List.range (nameLen p.read.buffer p.offset / 2)).map fun j =>
    (nameByte p.read.buffer p.offset (j * 2), nameByte p.read.buffer p.offset (j * 2 + 1))

/-- The record lies in its sector and holds a name of at least one UCS-2 character, none of them
U+0000. -/
structure HoldsUcsName (p : RecordPlace) : Prop where
  inside : p.offset + p.length ≤ 2048
  covers : 33 + nameLen p.read.buffer p.offset ≤ p.length
  even : nameLen p.read.buffer p.offset % 2 = 0
  pos : 0 < nameLen p.read.buffer p.offset
  no_nul : (0, 0) ∉ p.ucsName

end RecordPlace

/-! ### The conversion -/

theorem convertChar_ne_zero_iff {nls : Option NlsTable} {c : UcsChar} :
    convertChar nls c.1 c.2 ≠ 0 ↔ Converts nls c := by
  cases nls with
  | none => rfl
  | some table =>
    rw [convertChar, Converts]
    cases hpage : table.pageUni2charset c.1 with
    | none =>
      constructor
      · intro h
        exact absurd rfl h
      · rintro ⟨up, h, -⟩
        cases h
    | some up =>
      constructor
      · intro h
        exact ⟨up, rfl, h⟩
      · rintro ⟨up', h, hne⟩
        cases h
        exact hne

/-- A character that has a translation is converted to it. -/
theorem convertChar_of_translation {nls : Option NlsTable} {c : UcsChar} {b : UInt8}
    (h : translation nls c = some b) : convertChar nls c.1 c.2 = b := by
  cases nls with
  | none => cases h
  | some table =>
    rw [translation, Option.bind_eq_bind, Option.bind_some] at h
    rw [convertChar]
    cases hpage : table.pageUni2charset c.1 with
    | none =>
      rw [hpage] at h
      cases h
    | some up =>
      rw [hpage, Option.bind_eq_bind, Option.bind_some] at h
      split at h
      · cases h
      · exact Option.some.inj h

/-- The C string of some characters is as long as they are when none of them is a NUL. -/
theorem cString_eq_self_iff {chars : List UInt8} : cString chars = chars ↔ 0 ∉ chars := by
  constructor
  · intro h
    rw [← h]
    exact zero_notMem_cString chars
  · intro h
    refine List.takeWhile_eq_self_iff.mpr fun c hc => decide_eq_true ?_
    rintro rfl
    exact h hc

theorem cString_eq_of_length {chars : List UInt8} (h : (cString chars).length = chars.length) :
    cString chars = chars :=
  (List.takeWhile_prefix _).eq_of_length h

/-- The C string of the converted characters keeps the name exactly when they all convert. -/
theorem keepsName_cString_iff {nls : Option NlsTable} {chars : List UcsChar} :
    KeepsName nls chars (cString (chars.map fun c => convertChar nls c.1 c.2)) ↔
      ∀ c ∈ chars, Converts nls c := by
  constructor
  · intro h c hc
    have hself := cString_eq_of_length (h.length.trans (List.length_map _).symm)
    have hzero := cString_eq_self_iff.mp hself
    refine convertChar_ne_zero_iff.mp fun h0 => hzero (List.mem_map.mpr ⟨c, hc, h0⟩)
  · intro h
    have hself : cString (chars.map fun c => convertChar nls c.1 c.2) =
        chars.map fun c => convertChar nls c.1 c.2 := by
      refine cString_eq_self_iff.mpr fun hmem => ?_
      obtain ⟨c, hc, h0⟩ := List.mem_map.mp hmem
      exact convertChar_ne_zero_iff.mpr (h c hc) h0
    refine ⟨?_, zero_notMem_cString _, fun j c b hj hb => ?_⟩
    · rw [hself, List.length_map]
    · rw [hself, List.getElem?_map, hj, Option.map_some, convertChar_of_translation hb]

/-! ### Listings -/

/-- The name that is decoded at a record with a UCS-2 name. -/
theorem chrName_of_decodedAt {vol : AttachedVolume} {e : IsoDirEntry} {p : RecordPlace}
    (h : DecodedAt vol.toVolData e p) (hname : p.HoldsUcsName) :
    e.chrName = cString (p.ucsName.map fun c => convertChar vol.nls c.1 c.2) := by
  have heven := hname.even
  have hpos := hname.pos
  have hlevel : vol.ucsLevel = 1 ∨ vol.ucsLevel = 2 ∨ vol.ucsLevel = 3 := by
    have h1 := vol.ucsLevel_pos
    have h3 := vol.ucsLevel_le
    omega
  have hbuf : nameBuf vol.toVolData p.read.buffer p.offset =
      some (p.ucsName.map fun c => convertChar vol.nls c.1 c.2) := by
    rw [nameBuf, if_neg (by omega), if_neg (by omega), RecordPlace.ucsName, List.map_map]
    rcases hlevel with hl | hl | hl <;> rw [hl] <;> rfl
  rw [DecodedAt, decodeRecord] at h
  split at h
  · cases h
  · next chars hchars =>
    rw [hbuf, Option.some.injEq] at hchars
    obtain rfl := Option.some.inj h
    rw [hchars]
    rfl

/-- Each entry of a listing keeps the UCS-2 name of its record. -/
def KeepsNames (vol : VolData) (stack : Memory) (pos : ℕ) (extent len : ℤ) : Prop :=
  ∃ entries pos', getDirEntries vol stack pos extent len = some (entries, pos') ∧
    List.Forall₂ (fun e p => p.HoldsUcsName → KeepsName vol.nls p.ucsName e.chrName) entries
      (recordPlaces 0 (dirReads vol.isoFile stack pos extent len))

/-- Each entry of a listing that was decoded from a record with a UCS-2 name keeps that name exactly
when each of its characters converts to a codepage character other than NUL. -/
theorem joliet_names_kept_iff (vol : AttachedVolume) (stack : Memory) (pos : ℕ) (extent len : ℤ) :
    ∃ entries pos', getDirEntries vol.toVolData stack pos extent len = some (entries, pos') ∧
      List.Forall₂ (fun e p => p.HoldsUcsName →
          (KeepsName vol.nls p.ucsName e.chrName ↔ ∀ c ∈ p.ucsName, Converts vol.nls c)) entries
        (recordPlaces 0 (dirReads vol.isoFile stack pos extent len)) := by
  obtain ⟨entries, pos', hlist, hall⟩ :=
    getDirEntries_places vol.ucsLevel_le stack pos extent len
  refine ⟨entries, pos', hlist, hall.imp fun e p hdecoded hname => ?_⟩
  rw [chrName_of_decodedAt hdecoded hname]
  exact keepsName_cString_iff

/-! ### A name that is lost -/

/-- An image of one directory record, whose name is the one character U+0400. -/
def cyrillicFile : IsoFile where
  bytes := 36 :: List.replicate 31 0 ++ [2, 4, 0, 0]
  size_lt := by decide

def cyrillicVolume : AttachedVolume :=
  { overlongVolume with isoFile := cyrillicFile }

/-- Where all names are kept, the characters of each of them convert. -/
theorem KeepsNames.converts {vol : AttachedVolume} {stack : Memory} {pos : ℕ} {extent len : ℤ}
    (h : KeepsNames vol.toVolData stack pos extent len) {p : RecordPlace}
    (hp : p ∈ recordPlaces 0 (dirReads vol.isoFile stack pos extent len)) (hname : p.HoldsUcsName) :
    ∀ c ∈ p.ucsName, Converts vol.nls c := by
  obtain ⟨entries, pos', hlist, hkeeps⟩ := h
  obtain ⟨entries', pos'', hlist', hdecoded⟩ :=
    getDirEntries_places vol.ucsLevel_le stack pos extent len
  obtain ⟨rfl, -⟩ := Prod.mk.inj (Option.some.inj (hlist.symm.trans hlist'))
  obtain ⟨i, hi, rfl⟩ := List.getElem_of_mem hp
  have hi' : i < entries.length := hdecoded.length_eq.symm ▸ hi
  have hkeep := hkeeps.get hi' hi hname
  rw [chrName_of_decodedAt (hdecoded.get hi' hi) hname] at hkeep
  exact keepsName_cString_iff.mp hkeep

/-- The record is listed without a name. -/
theorem cyrillic_name_is_lost :
    ¬ KeepsNames cyrillicVolume.toVolData Memory.zeros 0 0 2048 := by
  intro h
  obtain ⟨p, hp⟩ : ∃ p : RecordPlace,
      p = ⟨0, cyrillicFile.sectorRead (Memory.zeros.clear 2048) 0 0 2048, 0⟩ := ⟨_, rfl⟩
  have hplace : p ∈ recordPlaces 0 (dirReads cyrillicFile Memory.zeros 0 0 2048) := by
    rw [hp]
    exact mem_places_iff.mpr ⟨rfl, mem_recordOffsets_self (by decide)⟩
  have hucs : p.ucsName = [(4, 0)] := by
    rw [hp]
    decide
  have hname : p.HoldsUcsName := by
    refine ⟨?_, ?_, ?_, ?_, by rw [hucs]; decide⟩ <;> rw [hp] <;> decide
  have hall := h.converts hplace hname
  rw [hucs] at hall
  exact hall (4, 0) List.mem_cons_self rfl

end Isofs
