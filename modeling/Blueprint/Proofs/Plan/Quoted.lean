import Blueprint.Batch.Error
import Blueprint.Proofs.Text.Lines

/-!
# What messages quote

The message of a failure consists of fixed words, of numbers and of texts that are put in as they
are. `PlanError.quoted` lists these texts, with fields among them, since a field may be named after
a material. A message is broken exactly where one of the texts in it is
(`PlanError.breaks_message`).
-/

namespace Blueprint

open Text

/-! ## Positions -/

/-- Numbers are written without line breaks. -/
theorem oneLine_wordText (n : Int32) : OneLine (wordText n) := oneLine_toString_int n.toInt

@[simp] theorem breaks_wordText (n : Int32) : breaks (wordText n) = 0 :=
  (oneLine_wordText n).breaks_eq

@[simp] theorem Pos.breaks_text (p : Pos) : breaks p.text = 0 := by
  simp (disch := decide) [Pos.text, OneLine.breaks_eq]

@[simp] theorem Size.breaks_text (s : Size) : breaks s.text = 0 := by
  simp (disch := decide) [Size.text, OneLine.breaks_eq]

/-! ## Failures of reading -/

/-- The texts that the message quotes. -/
def Json.ShapeError.quoted : ShapeError → List String
  | unknownField name => [name]
  | unknownVariant name => [name]
  | missingField name => [name]
  | duplicateField name => [name]
  | _ => []

/-- What is wrong with a shape is said in fixed words and quoted names. -/
theorem Json.ShapeError.breaks_message (e : ShapeError) :
    breaks e.message = (e.quoted.map breaks).sum := by
  cases e <;> unfold message <;> simp (disch := decide) [quoted, OneLine.breaks_eq]

/-- The texts that the message quotes. -/
def BlockState.SyntaxError.quoted : SyntaxError → List String
  | form state => [state]
  | segment piece state => [piece, state]
  | duplicate key state => [key, state]

/-- What is wrong with a state is said in fixed words and quotes of it. -/
theorem BlockState.SyntaxError.breaks_message (e : SyntaxError) :
    breaks e.message = (e.quoted.map breaks).sum := by
  cases e <;> unfold message <;> simp (disch := decide) [quoted, OneLine.breaks_eq]

/-- The texts that the message quotes. -/
def SchemaError.quoted : SchemaError → List String
  | shape e => e.quoted
  | blank field => [field]
  | biomes missing unknown => missing ++ unknown
  | undefinedMaterial _ key biome => [key, biome]
  | state field e => field :: e.quoted
  | noPalette biome => [biome]
  | noMapping key _ biome => key :: biome.toList
  | unbound key _ => [key]
  | clash output others => output :: others
  | _ => []

/-- What is wrong with a document is said in fixed words, numbers and quotes. -/
theorem SchemaError.breaks_message (e : SchemaError) :
    breaks e.message = (e.quoted.map breaks).sum := by
  have hcomma : breaks ", " = 0 := by decide
  cases e with
  | shape e => exact e.breaks_message
  | state field e =>
    unfold message
    simp (disch := decide) [quoted, e.breaks_message, OneLine.breaks_eq]
  | biomes missing unknown =>
    unfold message
    simp (disch := decide) [quoted, breaks_intercalate hcomma, OneLine.breaks_eq]
  | noMapping key pos biome =>
    cases biome <;> unfold message <;> simp (disch := decide) [quoted, OneLine.breaks_eq]
  | clash output others =>
    unfold message
    simp (disch := decide) [quoted, breaks_intercalate hcomma, OneLine.breaks_eq]
  | _ =>
    unfold message
    simp (disch := decide) [quoted, schemaVersion, OneLine.breaks_eq]

/-! ## Failures of checks -/

/-- The texts that the message quotes. -/
def JigsawError.quoted : JigsawError → List String
  | identifier _ _ field given => [field, given]
  | joint _ _ given => [given]
  | orientation _ _ given => [given]
  | _ => []

/-- What is wrong with connectors is said in fixed words, numbers and quotes. -/
theorem JigsawError.breaks_message (e : JigsawError) :
    breaks e.message = (e.quoted.map breaks).sum := by
  have hjoints : breaks (", ".intercalate jigsawJoints) = 0 := by decide
  cases e <;> unfold message <;> simp (disch := decide) [quoted, hjoints, OneLine.breaks_eq]

/-- The texts that the message quotes. -/
def Violation.quoted : Violation → List String
  | block id => [id]
  | property id key => [key, id]
  | value id key text => [text, id, key]

/-- What is not allowed is said in fixed words and quotes. -/
theorem Violation.breaks_message (e : Violation) :
    breaks e.message = (e.quoted.map breaks).sum := by
  cases e <;> unfold message <;> simp (disch := decide) [quoted, OneLine.breaks_eq, Nat.add_assoc]

/-! ## Failures of files -/

/-- The texts that the message quotes: the words of the system. -/
def FileError.quoted : FileError → List String
  | other text => [text]
  | _ => []

/-- A failure of a file is said in fixed words, or in those of the system. -/
theorem FileError.breaks_message (e : FileError) :
    breaks e.message = (e.quoted.map breaks).sum := by
  cases e <;> unfold message <;> simp (disch := decide) [quoted, OneLine.breaks_eq]

/-- The texts that the message quotes. -/
def Nbt.EncodeError.quoted : EncodeError → List String
  | terminatorEntry key => [key]
  | _ => []

/-- Why a tag is not written is said in fixed words, numbers and the key without a value. -/
theorem Nbt.EncodeError.breaks_message (e : EncodeError) :
    breaks e.message = (e.quoted.map breaks).sum := by
  cases e <;> unfold message <;> simp (disch := decide) [quoted, OneLine.breaks_eq]

/-- The texts that the message quotes. -/
def ContainerError.quoted : ContainerError → List String
  | paletteIndex _ => []
  | tag e => e.quoted

/-- Why a structure is not written is said in the same way. -/
theorem ContainerError.breaks_message (e : ContainerError) :
    breaks e.message = (e.quoted.map breaks).sum := by
  cases e with
  | tag e => exact e.breaks_message
  | paletteIndex index =>
    unfold message
    simp (disch := decide) [quoted, OneLine.breaks_eq]

/-! ## All failures of a plan -/

/-- The texts that the message quotes. -/
def PlanError.quoted : PlanError → List String
  | malformed => []
  | schema e => e.quoted
  | notAllowed _ violation => violation.quoted
  | outOfBounds .. => []
  | templateNotFound _ name => [name]
  | jigsaw e => e.quoted
  | file path e => path :: e.quoted
  | container path e => path :: e.quoted

/-- **A message is broken where a text in it is**, and nowhere else. -/
theorem PlanError.breaks_message (e : PlanError) :
    breaks e.message = (e.quoted.map breaks).sum := by
  have hplaced (what : Placed) : breaks what.text = 0 := by cases what <;> decide
  have hkind (kind : TemplateKind) : breaks kind.text = 0 := by cases kind <;> decide
  cases e <;> unfold message <;> simp (disch := decide) [quoted, SchemaError.breaks_message,
    Violation.breaks_message, JigsawError.breaks_message, FileError.breaks_message,
    ContainerError.breaks_message, hplaced, hkind, OneLine.breaks_eq]

end Blueprint
