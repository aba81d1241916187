/-!
# Binary floating-point formats

A format is fixed by the widths of its exponent and fraction fields; a datum is the natural number
of its bits. Widening to a larger format is exact. Narrowing is defined only where nothing is lost,
so that `widen` undoes `narrow?`.
-/
namespace PluginRelay

structure BinaryFormat where
  exponentWidth : Nat
  fractionWidth : Nat
  deriving DecidableEq, Repr

namespace BinaryFormat

def half : BinaryFormat := ⟨5, 10⟩
def single : BinaryFormat := ⟨8, 23⟩
def double : BinaryFormat := ⟨11, 52⟩

variable (f : BinaryFormat)

/-- The biased exponent of infinities and of data that are no numbers. -/
def maxExponent : Nat := 1 <<< f.exponentWidth - 1

def bias : Nat := 1 <<< (f.exponentWidth - 1) - 1

def fraction (bits : Nat) : Nat := bits % 1 <<< f.fractionWidth

def exponent (bits : Nat) : Nat := bits >>> f.fractionWidth % 1 <<< f.exponentWidth

def negative (bits : Nat) : Bool := bits >>> (f.fractionWidth + f.exponentWidth) % 2 = 1

def pack (negative : Bool) (exponent fraction : Nat) : Nat :=
  (if negative then 1 <<< (f.fractionWidth + f.exponentWidth) else 0) +
    exponent <<< f.fractionWidth + fraction

def isNaN (bits : Nat) : Bool :=
  f.exponent bits = f.maxExponent && f.fraction bits != 0

def isInfinite (bits : Nat) : Bool :=
  f.exponent bits = f.maxExponent && f.fraction bits == 0

/-- The bit that tells a quiet datum that is no number from a signalling one. -/
def quietBit : Nat := 1 <<< (f.fractionWidth - 1)

/-- A finite datum is `significand * 2 ^ power`, up to its sign. -/
def significand (bits : Nat) : Nat :=
  if f.exponent bits = 0 then f.fraction bits else 1 <<< f.fractionWidth + f.fraction bits

def power (bits : Nat) : Int :=
  (if f.exponent bits = 0 then (1 : Int) else f.exponent bits) - f.bias - f.fractionWidth

/-- The datum of the larger format `g` with the same value; what is no number becomes quiet. -/
def widen (g : BinaryFormat) (bits : Nat) : Nat :=
  let shift := g.fractionWidth - f.fractionWidth
  let sign := f.negative bits
  let e := f.exponent bits
  let m := f.fraction bits
  if e = f.maxExponent then
    if m = 0 then g.pack sign g.maxExponent 0
    else g.pack sign g.maxExponent ((m % f.quietBit) <<< shift + g.quietBit)
  else if e = 0 then
    if m = 0 then g.pack sign 0 0
    else
      let top := m.log2
      g.pack sign (g.bias + 1 + top - f.bias - f.fractionWidth)
        ((m - 1 <<< top) <<< (g.fractionWidth - top))
  else g.pack sign (g.bias + e - f.bias) (m <<< shift)

/-- The datum of the smaller format `g` that keeps sign and exponent and drops the end of the fraction. -/
def cut (g : BinaryFormat) (bits : Nat) : Nat :=
  let shift := f.fractionWidth - g.fractionWidth
  let sign := f.negative bits
  let e := f.exponent bits
  let m := f.fraction bits
  if e = f.maxExponent then g.pack sign g.maxExponent (m >>> shift)
  else if e + g.bias ≤ f.bias then
    let missing := f.bias + 1 - g.bias - e
    g.pack sign 0 ((1 <<< f.fractionWidth + m) >>> (shift + missing))
  else g.pack sign (e + g.bias - f.bias) (m >>> shift)

/-- The datum of the smaller format `g` that widens to these bits, if there is one. -/
def narrow? (g : BinaryFormat) (bits : Nat) : Option Nat :=
  let e := f.exponent bits
  if e < f.maxExponent ∧ g.maxExponent + f.bias ≤ e + g.bias then none
  else if e = 0 then if f.fraction bits = 0 then some (g.pack (f.negative bits) 0 0) else none
  else if g.widen f (f.cut g bits) = bits then some (f.cut g bits) else none

end BinaryFormat

end PluginRelay
