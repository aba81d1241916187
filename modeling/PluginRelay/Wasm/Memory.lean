import Std.Data.TreeMap
import PluginRelay.Bytes
import PluginRelay.Wasm.Type

/-!
# Linear memory

A memory has a size in pages; its bytes are zero until they are written. An access that is not
within the size has no result.
-/
namespace PluginRelay.Wasm

structure Memory where
  pages : Nat
  most : Nat
  cells : Std.TreeMap Nat UInt8

namespace Memory

def pageSize : Nat := 65536

def ofLimits (l : Limits) : Memory := ⟨l.least, l.most.getD 65536, ∅⟩

def size (m : Memory) : Nat := m.pages * pageSize

def byte (m : Memory) (address : Nat) : UInt8 := m.cells.getD address 0

def fits (m : Memory) (address count : Nat) : Bool := address + count ≤ m.size

def read? (m : Memory) (address count : Nat) : Option Bytes :=
  if m.fits address count then some ((List.range count).map fun i => m.byte (address + i)) else none

def writeFrom (cells : Std.TreeMap Nat UInt8) (address : Nat) : Bytes → Std.TreeMap Nat UInt8
  | [] => cells
  | b :: rest => writeFrom (cells.insert address b) (address + 1) rest

def write? (m : Memory) (address : Nat) (bytes : Bytes) : Option Memory :=
  if m.fits address bytes.length then
    match m with
    | ⟨pages, most, cells⟩ => some ⟨pages, most, writeFrom cells address bytes⟩
  else none

/-- The number whose little-endian digits stand at the address. -/
def readNat? (m : Memory) (address count : Nat) : Option Nat :=
  (m.read? address count).map fun bytes => Bytes.toNat bytes.reverse

def writeNat? (m : Memory) (address count n : Nat) : Option Memory :=
  m.write? address (Bytes.ofNat count n).reverse

/-- Grows by some pages, unless that is more than the memory may have. -/
def grow? (m : Memory) (pages : Nat) : Option Memory :=
  if m.pages + pages ≤ min m.most 65536 then some { m with pages := m.pages + pages } else none

end Memory

end PluginRelay.Wasm
