import Blueprint.Nbt.Document
import Blueprint.SortedMap

/-!
# Templates

The data of block entities and entities is not part of a plan: a plan names a template,
and the payload of that template is put into the structure as it is. It is never turned
or mirrored, so what it says about directions stays as it was authored.
-/

namespace Blueprint

open Nbt

/-- What a template holds the data of. -/
inductive TemplateKind where
  | blockEntity
  | entity
deriving DecidableEq, Repr

namespace TemplateKind

/-- All kinds, in the order in which they are loaded. -/
def all : List TemplateKind := [blockEntity, entity]

/-- The kind as messages show it. -/
def text : TemplateKind → String
  | blockEntity => "block entity"
  | entity => "entity"

/-- The directory that holds the templates of the kind. -/
def directory : TemplateKind → String
  | blockEntity => "block_entities"
  | entity => "entities"

end TemplateKind

/-! ## Payloads -/

/-- Why a file is no template. -/
inductive TemplateError where
  /-- it is no document -/
  | malformed (e : DecodeError)
  /-- its root is no compound -/
  | notCompound
deriving DecidableEq, Repr

/-- What is wrong with the file. -/
def TemplateError.message : TemplateError → String
  | malformed e => s!"malformed NBT: {e.message}"
  | notCompound => "root tag must be a compound"

/-- The payload in a root compound: a compound that stands alone under `template` is taken
out of its wrapping. -/
def Template.unwrap : Compound → Compound
  | [("template", .compound inner)] => inner
  | root => root

/-- The payload of a template file. -/
def Template.payload (bytes : List UInt8) : Except TemplateError Compound :=
  match Document.ofBytes bytes with
  | .error e => .error (.malformed e)
  | .ok d =>
    match d.root.compound? with
    | none => .error .notCompound
    | some root => .ok (unwrap root)

/-! ## Libraries -/

/-- The payloads of a run by kind and name. -/
structure TemplateLibrary where
  /-- the payloads for block entities -/
  blockEntities : SortedMap String Compound
  /-- the payloads for entities -/
  entities : SortedMap String Compound

namespace TemplateLibrary

/-- The library without templates. -/
def empty : TemplateLibrary := ⟨.empty, .empty⟩

instance : Inhabited TemplateLibrary := ⟨empty⟩

/-- The payload of a template. -/
def get? (l : TemplateLibrary) : TemplateKind → String → Option Compound
  | .blockEntity => l.blockEntities.get?
  | .entity => l.entities.get?

/-- Adds a template, instead of one of the same kind and name. -/
def insert (l : TemplateLibrary) (kind : TemplateKind) (name : String) (payload : Compound) :
    TemplateLibrary :=
  match kind with
  | .blockEntity => { l with blockEntities := l.blockEntities.insert name payload }
  | .entity => { l with entities := l.entities.insert name payload }

/-- The number of templates. -/
def size (l : TemplateLibrary) : Nat := l.blockEntities.size + l.entities.size

/-- Whether there is no template. -/
def isEmpty (l : TemplateLibrary) : Bool := l.blockEntities.isEmpty && l.entities.isEmpty

end TemplateLibrary

end Blueprint
