import OpaeLibs.Lib.BitFields

namespace OpaeLibs.Ofs.OfsParse

open OpaeLibs.Lib.BitFields

structure OfsField where
  name : String
  bits : List Nat
  bits_ne : bits ≠ []

namespace OfsField

def max (f : OfsField) : Nat := f.bits.max f.bits_ne

def min (f : OfsField) : Nat := f.bits.min f.bits_ne

end OfsField

structure OfsRegister where
  name : String
  offset : Nat
  fields : List OfsField

structure OfsDriver (φ : Type) where
  name : String
  registers : List OfsRegister
  functions : List φ

inductive PyError
  | valueError
deriving DecidableEq

/-- What `c_struct_templ` declares for a register: its offset, the bits of its value and the
bit-fields beside the value. -/
structure RegisterUnion where
  name : String
  offset : Nat
  width : Nat
  fields : List (BitField String)

/-- The declarations of a header, and what its init function adds to the pointer it has mapped for
each member of the driver. -/
structure Header where
  unions : List RegisterUnion
  inits : List (String × Nat)

def declareFields (pod : Nat) (fields : List OfsField) : List (BitField String) :=
  (fields.mergeSort fun f g => f.min ≤ g.min).map fun f => ⟨f.name, pod, f.max - f.min + 1⟩

def registerWidth (top : Nat) : Nat := if top > 32 then 64 else 32

def topBit (r : OfsRegister) : Option Nat := (r.fields.map OfsField.max).max?

def writeStructure (r : OfsRegister) : Except PyError RegisterUnion :=
  match topBit r with
  | none => .error .valueError
  | some top =>
    .ok ⟨r.name, r.offset, registerWidth top, declareFields (registerWidth top) r.fields⟩

def writeDriver (registers : List OfsRegister) : List (String × Nat) :=
  registers.map fun r => (r.name, r.offset)

/-- No header is written for a driver without functions. -/
def writeHeader {φ : Type} (data : OfsDriver φ) : Except PyError (Option Header) :=
  if data.functions.isEmpty then return none
  else do
    let unions ← data.registers.mapM writeStructure
    return some ⟨unions, writeDriver data.registers⟩

/-- The bytes of a `uint64_t`, to which the init function's pointer points. -/
abbrev sizeofUint64 : Nat := 8

namespace Header

/-- The address that the init function gives a member of the driver, counted from where the space
is mapped. -/
def pointer (header : Header) (r : String) : Option Nat := do
  let (_, n) ← header.inits.find? fun i => i.1 = r
  return 0 + sizeofUint64 * n

/-- `drv->r_r->f_f`. A bit-field that is wider than its type is not C. -/
def read (header : Header) (space : Nat → UInt8) (r f : String) : Option Nat := do
  let u ← header.unions.find? fun u => u.name = r
  let a ← header.pointer r
  guard (u.fields.all fun m => m.width ≤ m.pod)
  let (m, pos) ← (place 0 u.fields).find? fun p => p.1.name = f
  return Lib.BitFields.read space a m pos

/-- The number of bits of `drv->r_r->value`. -/
def valueWidth (header : Header) (r : String) : Option Nat :=
  (header.unions.find? fun u => u.name = r).map RegisterUnion.width

end Header

end OpaeLibs.Ofs.OfsParse
