/-!
# Inflating

The reader of the DEFLATE format: blocks of stored bytes, or of literals and copies of
earlier output written in canonical prefix codes. Bits are taken from the lowest bit of
each byte upwards.

A stream that breaks off or breaks a rule has still produced the bytes before that place,
so the outcome is always the output with the way it ended.
-/

namespace Blueprint.Gzip

/-- How a compressed stream ends. -/
inductive Ending where
  /-- after its last block, before these bytes -/
  | complete (rest : List UInt8)
  /-- in the middle, for lack of bytes -/
  | cutShort
  /-- at a place that breaks a rule of the format, before these bytes -/
  | corrupt (rest : List UInt8)
deriving DecidableEq, Repr

namespace Inflate

/-- Why reading stops early. -/
inductive Fault where
  | cutShort
  | corrupt
deriving DecidableEq, Repr

/-- What is left to read and what has been produced. -/
structure State where
  /-- the bits left of the byte that is being read -/
  pending : List Bool
  /-- the bytes after it -/
  bytes : List UInt8
  /-- the output so far -/
  output : Array UInt8

/-- A computation that keeps its output when it fails. -/
abbrev Inflater := ExceptT Fault (StateM State)

/-! ## Bits and bytes -/

/-- The lowest `n` bits of a number, lowest first. -/
def lowBits : (n : Nat) → Nat → List Bool
  | 0, _ => []
  | n + 1, k => (k % 2 == 1) :: lowBits n (k / 2)

/-- The next bit. -/
def bit : Inflater Bool := do
  let s ← get
  match s.pending, s.bytes with
  | b :: rest, _ =>
    set { s with pending := rest }
    return b
  | [], byte :: bytes =>
    match lowBits 8 byte.toNat with
    | b :: rest =>
      set { s with pending := rest, bytes := bytes }
      return b
    | [] => throw .corrupt
  | [], [] => throw .cutShort

/-- A number of `n` bits, lowest first. -/
def bits : (n : Nat) → Inflater Nat
  | 0 => return 0
  | n + 1 => do
    let low ← bit
    let high ← bits n
    return low.toNat + 2 * high

/-- The next whole byte. -/
def byte : Inflater UInt8 := do
  let s ← get
  match s.bytes with
  | b :: rest =>
    set { s with bytes := rest }
    return b
  | [] => throw .cutShort

/-- Produces a byte. -/
def emit (b : UInt8) : Inflater Unit := modify fun s => { s with output := s.output.push b }

/-- Produces `n` bytes again that came `distance` bytes ago; before the start of the
output there are zeros. -/
def copy (distance : Nat) : (n : Nat) → Inflater Unit
  | 0 => return
  | n + 1 => do
    let output := (← get).output
    emit (if distance ≤ output.size then output.getD (output.size - distance) 0 else 0)
    copy distance n

/-- Produces the next `n` bytes as they are. -/
def stored : (n : Nat) → Inflater Unit
  | 0 => return
  | n + 1 => do
    emit (← byte)
    stored n

/-! ## Prefix codes -/

/-- A canonical prefix code: how many symbols have a code of one bit, two bits and so on up
to the longest, and the symbols in the order of their codes. -/
structure Code where
  /-- the number of codes of each length, from one bit upwards -/
  counts : List Nat
  /-- the symbols in the order of their codes -/
  symbols : Array Nat

/-- The lengths that codes have, up to the longest; one bit at least. -/
def codeLengths (lengths : List Nat) : List Nat :=
  (List.range (lengths.foldl max 1)).map (· + 1)

/-- The symbols that have a code of the given length. -/
def symbolsOfLength (lengths : List Nat) (length : Nat) : List Nat :=
  (lengths.zipIdx.filter fun (l, _) => l = length).map Prod.snd

/-- The code in which symbol `i` has the `i`-th length; no code where that is zero. -/
def Code.ofLengths (lengths : List Nat) : Code where
  counts := (codeLengths lengths).map fun length => (symbolsOfLength lengths length).length
  symbols := ((codeLengths lengths).flatMap (symbolsOfLength lengths)).toArray

/-- How many words of the greatest length begin with some code. -/
def coverage (counts : List Nat) : Nat := counts.foldl (fun n count => 2 * n + count) 0

/-- Whether every sequence of bits begins with exactly one code. -/
def Code.isComplete (c : Code) : Bool := coverage c.counts == 1 <<< c.counts.length

/-- The next symbol: codes of one length follow each other, and the first of them follows
the last of the length before. No more bits are read than the longest code has. -/
def Code.next (symbols : Array Nat) :
    (counts : List Nat) → (word first index : Nat) → Inflater Nat
  | [], _, _, _ => throw .corrupt
  | count :: counts, word, first, index => do
    let word := 2 * word + (← bit).toNat
    if word < first + count then return symbols.getD (index + (word - first)) 0
    else Code.next symbols counts word (2 * (first + count)) (index + count)

/-- The next symbol of the code. -/
def Code.symbol (c : Code) : Inflater Nat := Code.next c.symbols c.counts 0 0 0

/-! ## Blocks of symbols -/

/-- The shortest length and the number of extra bits of each length symbol from 257. -/
def lengthTable : List (Nat × Nat) :=
  [(3, 0), (4, 0), (5, 0), (6, 0), (7, 0), (8, 0), (9, 0), (10, 0), (11, 1), (13, 1),
   (15, 1), (17, 1), (19, 2), (23, 2), (27, 2), (31, 2), (35, 3), (43, 3), (51, 3),
   (59, 3), (67, 4), (83, 4), (99, 4), (115, 4), (131, 5), (163, 5), (195, 5), (227, 5),
   (258, 0)]

/-- The shortest distance and the number of extra bits of each distance symbol. -/
def distanceTable : List (Nat × Nat) :=
  [(1, 0), (2, 0), (3, 0), (4, 0), (5, 1), (7, 1), (9, 2), (13, 2), (17, 3), (25, 3),
   (33, 4), (49, 4), (65, 5), (97, 5), (129, 6), (193, 6), (257, 7), (385, 7), (513, 8),
   (769, 8), (1025, 9), (1537, 9), (2049, 10), (3073, 10), (4097, 11), (6145, 11),
   (8193, 12), (12289, 12), (16385, 13), (24577, 13)]

/-- A number of a table: the shortest one of its symbol and what the extra bits add. -/
def tableValue (table : List (Nat × Nat)) (symbol : Nat) : Inflater Nat :=
  match table[symbol]? with
  | some (base, extra) => do return base + (← bits extra)
  | none => throw .corrupt

/-- Symbols up to the end of the block. Every symbol takes a bit at least, so `fuel` is
enough when it exceeds the number of bits. -/
def symbols (literals distances : Code) : (fuel : Nat) → Inflater Unit
  | 0 => throw .cutShort
  | fuel + 1 => do
    let symbol ← literals.symbol
    if symbol < 256 then
      emit (UInt8.ofNat symbol)
      symbols literals distances fuel
    else if symbol = 256 then return
    else
      let length ← tableValue lengthTable (symbol - 257)
      let distance ← tableValue distanceTable (← distances.symbol)
      copy distance length
      symbols literals distances fuel

/-- The lengths of the codes of a block that does not say them. -/
def fixedLiterals : Code :=
  .ofLengths (List.replicate 144 8 ++ List.replicate 112 9 ++ List.replicate 24 7 ++
    List.replicate 8 8)

/-- The distance code of a block that does not say it. -/
def fixedDistances : Code := .ofLengths (List.replicate 32 5)

/-- The order in which the lengths of the code for code lengths are given. -/
def lengthOrder : List Nat :=
  [16, 17, 18, 0, 8, 7, 9, 6, 10, 5, 11, 4, 12, 3, 13, 2, 14, 1, 15]

/-- Reads `total` code lengths after those in `read` (last first): a length as such, or a
repetition of the last length or of zero. -/
def codeLengthsOf (code : Code) (total : Nat) : (fuel : Nat) → List Nat → Inflater (List Nat)
  | 0, _ => throw .cutShort
  | fuel + 1, read =>
    if read.length = total then return read.reverse
    else if total < read.length then throw .corrupt
    else do
      match ← code.symbol with
      | 16 =>
        match read with
        | last :: _ => codeLengthsOf code total fuel (List.replicate (3 + (← bits 2)) last ++ read)
        | [] => throw .corrupt
      | 17 => codeLengthsOf code total fuel (List.replicate (3 + (← bits 3)) 0 ++ read)
      | 18 => codeLengthsOf code total fuel (List.replicate (11 + (← bits 7)) 0 ++ read)
      | length => codeLengthsOf code total fuel (length :: read)

/-- Reads `n` numbers of three bits. -/
def triples : (n : Nat) → Inflater (List Nat)
  | 0 => return []
  | n + 1 => do
    let first ← bits 3
    let rest ← triples n
    return first :: rest

/-- A code must be complete, unless it has no symbol or just one with a code of one bit. -/
def Code.isUsable (c : Code) : Bool :=
  c.isComplete || (c.counts.length ≤ 1 && c.symbols.size ≤ 1)

/-- The codes that stand at the start of a block. -/
def dynamicCodes : Inflater (Code × Code) := do
  let literalCount := 257 + (← bits 5)
  let distanceCount := 1 + (← bits 5)
  let lengthCount := 4 + (← bits 4)
  if 286 < literalCount ∨ 30 < distanceCount then throw .corrupt
  let given ← triples lengthCount
  let ofSymbol := lengthOrder.zip given
  let lengthCode := Code.ofLengths ((List.range 19).map fun s => (ofSymbol.lookup s).getD 0)
  if !lengthCode.isComplete then throw .corrupt
  let lengths ← codeLengthsOf lengthCode (literalCount + distanceCount)
    (literalCount + distanceCount + 1) []
  let literals := Code.ofLengths (lengths.take literalCount)
  let distances := Code.ofLengths (lengths.drop literalCount)
  if !(literals.isUsable && distances.isUsable) then throw .corrupt
  return (literals, distances)

/-- A block of bytes as they are: it starts at a whole byte with their number, once plain
and once with all bits flipped. -/
def storedBlock : Inflater Unit := do
  modify fun s => { s with pending := [] }
  let low ← byte
  let high ← byte
  let lowFlipped ← byte
  let highFlipped ← byte
  if lowFlipped != ~~~low || highFlipped != ~~~high then throw .corrupt
  stored (low.toNat + 256 * high.toNat)

/-- Blocks up to the last one. Every block takes a bit at least. -/
def blocks (symbolFuel : Nat) : (fuel : Nat) → Inflater Unit
  | 0 => throw .cutShort
  | fuel + 1 => do
    let isLast ← bit
    match ← bits 2 with
    | 0 => storedBlock
    | 1 => symbols fixedLiterals fixedDistances symbolFuel
    | 2 =>
      let (literals, distances) ← dynamicCodes
      symbols literals distances symbolFuel
    | _ => throw .corrupt
    if isLast then return else blocks symbolFuel fuel

end Inflate

/-- The output of a compressed stream and how the stream ends. -/
def inflate (bytes : List UInt8) : Array UInt8 × Ending :=
  let fuel := 8 * bytes.length + 1
  match (Inflate.blocks fuel fuel).run.run ⟨[], bytes, #[]⟩ with
  | (.ok (), s) => (s.output, .complete s.bytes)
  | (.error .cutShort, s) => (s.output, .cutShort)
  | (.error .corrupt, s) => (s.output, .corrupt s.bytes)

end Blueprint.Gzip
