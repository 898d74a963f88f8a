/-!
# Double-precision numbers as words

Entity coordinates and some tags are IEEE 754 double-precision numbers. They are kept as
their 64 bits: a word can be written out again exactly as it came, zeros of both signs
and all not-a-numbers included, and equality is equality of the words.
-/

namespace Blueprint

/-- A double-precision number, held as its bits. -/
structure Binary64 where
  /-- sign, exponent and fraction -/
  bits : UInt64
deriving DecidableEq, Repr, Inhabited

namespace Binary64

/-- The eleven bits of the exponent are all set. -/
def isSpecial (a : Binary64) : Bool := (a.bits >>> 52) &&& 0x7FF == 0x7FF

/-- Neither infinite nor a not-a-number. -/
def isFinite (a : Binary64) : Bool := !a.isSpecial

/-- A not-a-number: the exponent is full and the fraction is not zero. -/
def isNaN (a : Binary64) : Bool := a.isSpecial && a.bits &&& 0xFFFFFFFFFFFFF != 0

/-- The not-a-number with the quiet bit set and everything else kept. -/
def quieted (a : Binary64) : Binary64 := ⟨a.bits ||| 0x8000000000000⟩

/-- The number as arithmetic sees it. -/
def toFloat (a : Binary64) : Float := Float.ofBits a.bits

/-- The number of an arithmetic result. -/
def ofFloat (f : Float) : Binary64 := ⟨f.toBits⟩

/-- The number of a word; every word is one exactly. -/
def ofWord (n : Int32) : Binary64 := ofFloat (Float.ofInt n.toInt)

/-- The rounded difference. An operand that is no number comes out quieted, with its other
bits kept. -/
def sub (a b : Binary64) : Binary64 :=
  if a.isNaN then a.quieted
  else if b.isNaN then b.quieted
  else ofFloat (a.toFloat - b.toFloat)

instance : Sub Binary64 := ⟨sub⟩

/-- The same magnitude with a minus sign in front. -/
def negated (a : Binary64) : Binary64 := ⟨a.bits ^^^ 0x8000000000000000⟩

/-- The number nearest to a power of ten. -/
def powerOfTen (n : Nat) : Float := Float.ofScientific 1 false n

/-- `significand · 10 ^ exponent`, multiplied or divided out in double precision; nothing if it lies
beyond the finite numbers. Both factors are rounded before their product is, so the result may
be a neighbour of the nearest number. No finite number is a power of ten above the 308th: what is
that small is divided twice, and below that there is nothing but zero. -/
def ofDecimal? (significand : Nat) (exponent : Int) : Option Binary64 :=
  let value := Float.ofNat significand
  if significand = 0 then some ⟨0⟩
  else if 308 < exponent then none
  else if 0 ≤ exponent then
    let product := ofFloat (value * powerOfTen exponent.toNat)
    if product.isFinite then some product else none
  else if -308 ≤ exponent then some (ofFloat (value / powerOfTen exponent.natAbs))
  else if -616 ≤ exponent then
    some (ofFloat (value / powerOfTen 308 / powerOfTen (exponent + 308).natAbs))
  else some ⟨0⟩

end Binary64

/-- A single-precision number, held as its bits. -/
structure Binary32 where
  /-- sign, exponent and fraction -/
  bits : UInt32
deriving DecidableEq, Repr, Inhabited

end Blueprint
