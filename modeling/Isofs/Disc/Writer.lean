import Mathlib.Data.List.FinRange
import Isofs.Disc.Stored
import Isofs.Library.Blocks
import Isofs.Volume.Mount

/-!
# Writing a disc

A writer of Joliet discs: it puts the volume descriptors of `iso9660.h` behind the system area and
every node behind the one before it. What it writes is an image that stores the file system.
-/

namespace Isofs

open Blocks

/-! ### Nodes -/

/-- The room for records in a sector: the last bytes stay free, so that no record starts in them. -/
def sectorRoom : ℕ := 2011

section Sizes

variable {ν : Type}

/-- The named nodes of a directory by sectors. -/
def packChildren (children : List (RecordName × ν)) : List (List (RecordName × ν)) :=
  pack (fun c => DirItem.recordLength c.1.bytes.length) sectorRoom children

/-- The size in the record of a node. -/
def contentSize : FileContent ν RecordName UInt8 → ℕ
  | .file bytes => bytes.length
  | .dir children => 2048 * (packChildren children).length

/-- The number of blocks that a node takes up. -/
def contentBlocks : FileContent ν RecordName UInt8 → ℕ
  | .file bytes => count 2048 bytes.length
  | .dir children => (packChildren children).length

theorem contentSize_le (c : FileContent ν RecordName UInt8) :
    contentSize c ≤ 2048 * contentBlocks c := by
  cases c with
  | file bytes => exact le_mul_count (by decide) bytes.length
  | dir children => exact Nat.le_refl _

end Sizes

/-- A disc that has room on an image. `before` is what stands in front of the descriptors: earlier
sessions and the system area. -/
structure WritableDisc (k : ℕ) extends Disc (Fin k) where
  session : ℕ
  before : List UInt8
  volumeId : List UInt8
  length_before : before.length = 2048 * (session + 16)
  length_volumeId : volumeId.length = 32
  isDir_root : (content root).isDir = true
  blocks_lt :
    session + 19 + ((List.finRange k).map fun n => contentBlocks (content n)).sum < 2 ^ 20

namespace WritableDisc

variable {k : ℕ} (d : WritableDisc k)

/-- The blocks that each node takes up. -/
def counts : List ℕ := (List.finRange k).map fun n => contentBlocks (d.content n)

/-- Where a node is written. -/
def place (n : Fin k) : Place := ⟨start (d.session + 19) d.counts n, contentSize (d.content n)⟩

theorem getElem?_counts (n : Fin k) : d.counts[n.1]? = some (contentBlocks (d.content n)) := by
  simp [counts]

theorem block_add_le (n : Fin k) :
    (d.place n).block + contentBlocks (d.content n) ≤ d.session + 19 + d.counts.sum :=
  start_add_le (d.session + 19) d.counts (d.getElem?_counts n)

/-- The item of a named node. -/
def item (c : RecordName × Fin k) : DirItem where
  name := c.1
  extent := (d.place c.2).block
  size := (d.place c.2).size
  isDir := (d.content c.2).isDir
  date := d.date c.2
  extent_lt := by
    have hle := d.block_add_le c.2
    have hlt := d.blocks_lt
    rw [counts] at hle
    omega
  size_lt := by
    have hle := d.block_add_le c.2
    have hlt := d.blocks_lt
    have hsize := contentSize_le (d.content c.2)
    rw [counts] at hle
    show contentSize (d.content c.2) < 2 ^ 31
    omega

/-- The sectors of a directory with their items. -/
def sectors (children : List (RecordName × Fin k)) : List (List DirItem) :=
  (packChildren children).map fun bin => bin.map d.item

/-- What is written for a node. -/
def nodeBytes (n : Fin k) : List UInt8 :=
  match d.content n with
  | .file bytes => fill 2048 0 bytes
  | .dir children => DirLayout.sectorBytes (d.sectors children)

/-! ### Descriptors -/

/-- The front of a volume descriptor, up to the escape sequences. -/
def descriptorHead (type : UInt8) : List UInt8 :=
  [type, 0x43, 0x44, 0x30, 0x30, 0x31, 1, 0] ++ List.replicate 32 0x20 ++ d.volumeId ++
    List.replicate 8 0 ++ DirItem.bothEndian (d.session + 19 + d.counts.sum)

/-- The escape sequence of level 3, and what stands between it and the record of the root: the sizes
of the volume set and of a block, and no path tables. -/
def descriptorMiddle : List UInt8 :=
  [0x25, 0x2f, 0x45] ++ List.replicate 29 0 ++ [1, 0, 0, 1, 1, 0, 0, 1, 0, 8, 8, 0] ++
    List.replicate 24 0

/-- The supplementary volume descriptor. -/
def supplementary : List UInt8 :=
  d.descriptorHead ISO_VD_SUPPLEMENTARY ++ descriptorMiddle ++ (d.item (.self, d.root)).bytes ++
    List.replicate 1858 0

/-- The primary volume descriptor; the daemon looks at its type and its volume name only. -/
def primary : List UInt8 := d.descriptorHead 1 ++ List.replicate 1960 0

/-- The volume descriptor set terminator. -/
def terminator : List UInt8 := ISO_VD_END :: List.replicate 2047 0

/-- What is written. -/
def bytes : List UInt8 :=
  d.before ++ (d.primary ++ (d.supplementary ++ (terminator ++
    (List.finRange k).flatMap d.nodeBytes)))

theorem length_descriptorHead (type : UInt8) : (d.descriptorHead type).length = 88 := by
  simp [descriptorHead, DirItem.bothEndian, Memory.le32Bytes, d.length_volumeId]

theorem length_rootRecord : (d.item (.self, d.root)).bytes.length = 34 :=
  DirItem.length_bytes _

theorem length_supplementary : d.supplementary.length = 2048 := by
  rw [supplementary, List.length_append, List.length_append, List.length_append,
    length_descriptorHead, length_rootRecord, List.length_replicate]
  rfl

theorem length_primary : d.primary.length = 2048 := by
  rw [primary, List.length_append, length_descriptorHead, List.length_replicate]

theorem length_terminator : terminator.length = 2048 := by
  rw [terminator, List.length_cons, List.length_replicate]

/-! ### Layout -/

/-- The sectors of a directory keep to the room that they have. -/
theorem totalLength_sectors {children : List (RecordName × Fin k)} :
    ∀ s ∈ d.sectors children, totalLength (s.map DirItem.record) ≤ sectorRoom := by
  intro s hs
  obtain ⟨bin, hbin, rfl⟩ := List.mem_map.mp hs
  have hroom := @sum_le_of_mem_pack (RecordName × Fin k)
    (fun c => DirItem.recordLength c.1.bytes.length) sectorRoom children
    (fun c _ => (DirItem.recordLength_lt c.1).le.trans (by decide)) bin hbin
  rw [totalLength, List.map_map, List.map_map]
  refine le_of_eq_of_le (congrArg List.sum (List.map_congr_left fun c _ => ?_)) hroom
  exact DirItem.length_bytes _

/-- A record starts before the last 34 bytes of its sector's records. -/
theorem startsFrom_le {rs : List DirRecord} (hpos : ∀ r ∈ rs, 34 ≤ r.bytes.length) {i p : ℕ}
    (hp : p ∈ startsFrom i rs) : p + 34 ≤ i + totalLength rs := by
  induction rs generalizing i with
  | nil => cases hp
  | cons r rs ih =>
    rw [List.forall_mem_cons] at hpos
    have htotal : totalLength (r :: rs) = r.bytes.length + totalLength rs := by
      rw [totalLength, List.map_cons, List.sum_cons, totalLength]
    rw [startsFrom, List.mem_cons] at hp
    rcases hp with rfl | hp
    · omega
    · have hle := ih hpos.2 hp
      omega

theorem fits_sectors (children : List (RecordName × Fin k)) :
    ∀ s ∈ d.sectors children, totalLength (s.map DirItem.record) ≤ 2048 := by
  intro s hs
  have htotal := d.totalLength_sectors s hs
  rw [sectorRoom] at htotal
  omega

theorem starts_sectors (children : List (RecordName × Fin k)) :
    ∀ s ∈ d.sectors children, ∀ p ∈ startsFrom 0 (s.map DirItem.record),
      p ≤ 2048 - sizeofDirectoryRecord := by
  intro s hs p hp
  have htotal := d.totalLength_sectors s hs
  have hlast := startsFrom_le (fun r hr => by
    obtain ⟨item, -, rfl⟩ := List.mem_map.mp hr
    rw [DirItem.bytes_record, DirItem.length_bytes, DirItem.recordLength]
    split <;> omega) hp
  rw [sectorRoom] at htotal
  rw [sizeofDirectoryRecord]
  omega

/-- A directory as it is written. -/
def layout (children : List (RecordName × Fin k)) : DirLayout where
  sectors := d.sectors children
  fits := d.fits_sectors children
  starts := d.starts_sectors children

theorem items_layout (children : List (RecordName × Fin k)) :
    (d.layout children).items = children.map d.item := by
  show ((packChildren children).map fun bin => bin.map d.item).flatten = _
  rw [← List.map_flatten, packChildren, flatten_pack]

theorem length_sectors (children : List (RecordName × Fin k)) :
    (d.sectors children).length = (packChildren children).length :=
  List.length_map ..

theorem length_nodeBytes (n : Fin k) :
    (d.nodeBytes n).length = 2048 * contentBlocks (d.content n) := by
  rw [nodeBytes]
  cases d.content n with
  | file bytes => exact length_fill (by decide) 0 bytes
  | dir children =>
    rw [contentBlocks, ← d.length_sectors children]
    exact (d.layout children).length_bytes

theorem forall₂_nodeBytes : List.Forall₂ (fun s n => s.length = 2048 * n)
    ((List.finRange k).map d.nodeBytes) d.counts := by
  rw [counts, List.forall₂_map_left_iff, List.forall₂_map_right_iff, List.forall₂_same]
  exact fun n _ => d.length_nodeBytes n

theorem length_bytes : d.bytes.length = 2048 * (d.session + 19 + d.counts.sum) := by
  have hnodes := length_flatten_take d.forall₂_nodeBytes k
  have hall : ((List.finRange k).map d.nodeBytes).take k = (List.finRange k).map d.nodeBytes :=
    List.take_of_length_le (by simp)
  have hcounts : d.counts.take k = d.counts := List.take_of_length_le (by simp [counts])
  rw [hall, hcounts, ← List.flatMap_def] at hnodes
  rw [bytes, List.length_append, List.length_append, List.length_append, List.length_append,
    d.length_before, d.length_primary, d.length_supplementary, length_terminator, hnodes]
  omega

/-- The image. -/
def image : IsoFile where
  bytes := d.bytes
  size_lt := by
    have hlt := d.blocks_lt
    rw [length_bytes, counts]
    omega

/-- Everything stands in the image one behind the other. -/
theorem holds_front : d.image.Holds 0 d.bytes := List.prefix_refl _

theorem holds_descriptors : d.image.Holds (d.session + 16) d.primary ∧
    d.image.Holds (d.session + 17) d.supplementary := by
  have hprimary := d.holds_front.right d.length_before
  rw [Nat.zero_add] at hprimary
  exact ⟨hprimary.left, (hprimary.right (k := 1) d.length_primary).left⟩

theorem holds_node (n : Fin k) : d.image.Holds (d.place n).block (d.nodeBytes n) := by
  have hnodes := ((d.holds_front.right d.length_before).right (k := 1) d.length_primary).right
    (k := 1) d.length_supplementary |>.right (k := 1) length_terminator
  have hn : n.1 < (List.finRange k).length := by simp
  have hsplit : (List.finRange k).flatMap d.nodeBytes =
      ((List.finRange k).map d.nodeBytes |>.take n).flatten ++
        (d.nodeBytes n ++ ((List.finRange k).drop (n + 1)).flatMap d.nodeBytes) := by
    have hparts := List.take_append_drop n.1 (List.finRange k)
    rw [List.drop_eq_getElem_cons hn, List.getElem_finRange] at hparts
    rw [← List.map_take, ← List.flatMap_def]
    refine (congrArg (List.flatMap d.nodeBytes) hparts).symm.trans ?_
    rw [List.flatMap_append, List.flatMap_cons]
    rfl
  rw [hsplit] at hnodes
  have hnode := (hnodes.right (length_flatten_take d.forall₂_nodeBytes n)).left
  have hblock : 0 + (d.session + 16) + 1 + 1 + 1 + (d.counts.take n).sum = (d.place n).block := by
    show _ = d.session + 19 + (d.counts.take n).sum
    omega
  rwa [hblock] at hnode

/-- The image stores the file system. -/
theorem stored : d.Stored d.place d.image := by
  refine ⟨fun n bytes hn => ?_, fun n children hn => ?_, fun n _ => ?_⟩
  · have hnode := d.holds_node n
    rw [nodeBytes, hn] at hnode
    exact ⟨congrArg contentSize hn, hnode.left⟩
  · have hnode := d.holds_node n
    rw [nodeBytes, hn] at hnode
    refine ⟨d.layout children, ?_, ?_, hnode⟩
    · rw [items_layout, List.forall₂_map_left_iff, List.forall₂_same]
      exact fun c _ => ⟨rfl, rfl, rfl, rfl, rfl⟩
    · show contentSize (d.content n) = 2048 * (d.sectors children).length
      rw [hn, contentSize, length_sectors]
  · show d.session + 19 + (d.counts.take n).sum ≠ 0
    omega

/-! ### The mount -/

variable {d}

/-- A descriptor buffer holds the descriptor that stands in the block. -/
theorem holdsAt_descriptor {j : ℕ} {bytes : List UInt8} (hlen : bytes.length = 2048)
    (h : d.image.Holds (d.session + 16 + j) bytes) :
    (descriptor d.image d.session j).HoldsAt 0 bytes := by
  have hblock : (16 + (d.session : ℤ)).toNat + j = d.session + 16 + j := by omega
  have hread := h.read
  rw [hlen] at hread
  rw [descriptor, hblock, hread]
  exact Memory.holdsAt_blit Memory.zeros 0 bytes

variable (d)

theorem holdsAt_primary : (descriptor d.image d.session 0).HoldsAt 0 d.primary :=
  holdsAt_descriptor d.length_primary d.holds_descriptors.1

theorem holdsAt_supplementary : (descriptor d.image d.session 1).HoldsAt 0 d.supplementary :=
  holdsAt_descriptor d.length_supplementary d.holds_descriptors.2

theorem type_primary : descriptor d.image d.session 0 0 = 1 :=
  d.holdsAt_primary 0 (by rw [d.length_primary]; decide)

/-- The escape sequence of the supplementary descriptor. -/
theorem escapeSequence_supplementary {i : ℕ} (hi : i < 4) :
    escapeSequence (descriptor d.image d.session 1) i = [0x25, 0x2f, 0x45, 0][i] := by
  have h := d.holdsAt_supplementary
  simp only [supplementary, Memory.holdsAt_append, length_descriptorHead] at h
  have hmiddle := h.1.1.2 i (Nat.lt_of_lt_of_le hi (by decide))
  rw [escapeSequence, ← Nat.zero_add 88, hmiddle]
  obtain rfl | rfl | rfl | rfl : i = 0 ∨ i = 1 ∨ i = 2 ∨ i = 3 := by omega
  all_goals rfl

theorem holdsAt_rootRecord :
    (descriptor d.image d.session 1).HoldsAt rootRecord (d.item (.self, d.root)).bytes := by
  have h := d.holdsAt_supplementary
  simp only [supplementary, Memory.holdsAt_append, List.length_append, length_descriptorHead] at h
  exact h.1.2

theorem isJoliet_supplementary : isJoliet (descriptor d.image d.session 1) = true := by
  have htype : descriptor d.image d.session 1 0 = ISO_VD_SUPPLEMENTARY :=
    d.holdsAt_supplementary 0 (by rw [d.length_supplementary]; decide)
  have h0 := d.escapeSequence_supplementary (i := 0) (by decide)
  have h1 := d.escapeSequence_supplementary (i := 1) (by decide)
  have h2 := d.escapeSequence_supplementary (i := 2) (by decide)
  have h3 := d.escapeSequence_supplementary (i := 3) (by decide)
  rw [isJoliet, htype, h0, h1, h2, h3]
  decide

/-- The supplementary descriptor is the first Joliet descriptor that a mount finds. -/
theorem firstJoliet : FirstJoliet d.image d.session 1 := by
  refine ⟨?_, d.isJoliet_supplementary, fun j hj => ?_⟩
  · have hlength := d.length_bytes
    rw [InFile]
    show _ ≤ d.bytes.length
    omega
  · obtain rfl : j = 0 := Nat.lt_one_iff.mp hj
    have htype := d.type_primary
    have hsup : ¬ (1 : UInt8) = ISO_VD_SUPPLEMENTARY := by decide
    have hend : ¬ (1 : UInt8) = ISO_VD_END := by decide
    simp only [endsScan, isJoliet, htype, hsup, hend, false_and, decide_false, or_self,
      Bool.false_eq_true]

/-- A volume with the supplementary descriptor has the file system. -/
theorem onVolume {vol : VolData} (hfile : vol.isoFile = d.image)
    (hipd : vol.ipd = descriptor d.image d.session 1)
    (hextent : vol.iRootExtent = isonum733 vol.ipd (rootRecord + 2))
    (hsize : vol.iRootSize = isonum733 vol.ipd (rootRecord + 10)) :
    d.OnVolume d.place vol := by
  have hroot := d.holdsAt_rootRecord
  rw [← hipd] at hroot
  refine ⟨hfile ▸ d.stored, d.isDir_root, ?_, DirItem.isonum733_size hroot, ?_,
    DirItem.slice_date hroot⟩
  · rw [hextent, DirItem.isonum733_extent hroot]
    rfl
  · rw [hsize, DirItem.isonum733_size hroot]
    rfl

end WritableDisc

end Isofs
