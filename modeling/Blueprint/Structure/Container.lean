import Blueprint.Nbt.Document
import Blueprint.Structure

/-!
# Structures as documents

The container of a structure is a compound with the version of the game data, the size,
the palette, the blocks and the entities. Properties and data that are not there are left
out; the three lists carry their item type even when they are empty.
-/

namespace Blueprint

open Nbt

/-- Why a structure has no container. -/
inductive ContainerError where
  /-- the place of a state in the palette does not fit its tag -/
  | paletteIndex (index : Nat)
  /-- a tag cannot be written -/
  | tag (e : EncodeError)
deriving DecidableEq, Repr

/-- What is wrong with the structure. -/
def ContainerError.message : ContainerError → String
  | paletteIndex index => s!"palette index {index} overflows"
  | tag e => e.message

/-- A list of words. -/
def wordsTag (words : List Int32) : Tag := .list 3 (words.map .int)

/-- The tag of a position. -/
def Pos.tag (p : Pos) : Tag := wordsTag p.toList

/-- The tag of a palette entry. -/
def PaletteEntry.tag (e : PaletteEntry) : Tag :=
  let properties := e.properties.entries.map fun (key, value) => (key, Tag.string value)
  .compound
    (("Name", .string e.name) ::
      if properties.isEmpty then [] else [("Properties", .compound properties)])

/-- The tag of a block. -/
def PlacedBlock.tag (b : PlacedBlock) : Except ContainerError Tag :=
  if b.paletteIndex < 0x80000000 then
    .ok (.compound
      (("state", .int (Int32.ofNat b.paletteIndex)) :: ("pos", b.pos.tag) ::
        (b.data.map fun data => ("nbt", Tag.compound data)).toList))
  else .error (.paletteIndex b.paletteIndex)

/-- The tag of an entity. -/
def PlacedEntity.tag (e : PlacedEntity) : Tag :=
  .compound
    [("pos", .list 6 (e.point.toList.map .double)), ("blockPos", e.blockPos.tag),
      ("nbt", .compound e.data)]

/-- The tags of blocks, one after another. -/
def blockTags : List PlacedBlock → Except ContainerError (List Tag)
  | [] => .ok []
  | b :: bs => do
    let first ← b.tag
    let rest ← blockTags bs
    return first :: rest

namespace Structure

/-- The document of a structure; its root has no name. -/
def document (s : Structure) : Except ContainerError Document := do
  let blocks ← blockTags s.blocks
  return ⟨"", .compound
    [("DataVersion", .int s.dataVersion), ("size", wordsTag [s.size.w, s.size.h, s.size.l]),
      ("palette", .list 10 (s.palette.map PaletteEntry.tag)), ("blocks", .list 10 blocks),
      ("entities", .list 10 (s.entities.map PlacedEntity.tag))]⟩

/-- The bytes of the container, before compression. -/
def encodeRaw (s : Structure) : Except ContainerError (List UInt8) := do
  let d ← s.document
  d.encode.mapError .tag

/-- The bytes of the container file. -/
def encode (s : Structure) : Except ContainerError (List UInt8) :=
  Gzip.compress <$> s.encodeRaw

end Structure

end Blueprint
