import Blueprint.BlockState
import Blueprint.Nbt.Tag
import Blueprint.Vec3

/-!
# Structures

A structure is what a plan is compiled into: the palette of its distinct block states, its
blocks in the order of their positions, each with the place of its state in the palette,
and its entities. Property values are texts by now.
-/

namespace Blueprint

open Nbt

/-- A block state of a palette. -/
structure PaletteEntry where
  /-- the identifier of the block -/
  name : String
  /-- its properties in text form -/
  properties : SortedMap String String
deriving DecidableEq

/-- The palette entry of a block state. -/
def BlockState.paletteEntry (s : BlockState) : PaletteEntry :=
  ⟨s.id, s.properties.map fun _ v => v.text⟩

/-- A block of a structure. -/
structure PlacedBlock where
  /-- its cell -/
  pos : Pos
  /-- the place of its state in the palette -/
  paletteIndex : Nat
  /-- the data of its block entity -/
  data : Option Compound

/-- An entity of a structure. -/
structure PlacedEntity where
  /-- its point -/
  point : Vec3 Binary64
  /-- the cell it belongs to -/
  blockPos : Pos
  /-- its data -/
  data : Compound

/-- A compiled building. -/
structure Structure where
  /-- the extent of its box -/
  size : Size
  /-- its distinct block states -/
  palette : List PaletteEntry
  /-- its blocks -/
  blocks : List PlacedBlock
  /-- its entities -/
  entities : List PlacedEntity
  /-- the version of the game data it is made for -/
  dataVersion : Int32

end Blueprint
