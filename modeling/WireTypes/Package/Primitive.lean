/-!
# Predeclared types

The predeclared types of Go that have a wire form of their own.
-/

set_option autoImplicit false

namespace WireTypes.Package

/-- The predeclared types. -/
inductive Primitive where
  | bool | string
  | int | int8 | int16 | int32 | int64
  | uint | uint8 | uint16 | uint32 | uint64 | uintptr
  | float32 | float64 | complex64 | complex128
  | byte | rune | any
deriving Repr, DecidableEq, Inhabited

namespace Primitive

/-- The Go spelling. -/
def name : Primitive → String
  | bool => "bool"
  | string => "string"
  | int => "int"
  | int8 => "int8"
  | int16 => "int16"
  | int32 => "int32"
  | int64 => "int64"
  | uint => "uint"
  | uint8 => "uint8"
  | uint16 => "uint16"
  | uint32 => "uint32"
  | uint64 => "uint64"
  | uintptr => "uintptr"
  | float32 => "float32"
  | float64 => "float64"
  | complex64 => "complex64"
  | complex128 => "complex128"
  | byte => "byte"
  | rune => "rune"
  | any => "any"

/-- All primitives. -/
def all : List Primitive :=
  [bool, string, int, int8, int16, int32, int64, uint, uint8, uint16, uint32, uint64, uintptr,
   float32, float64, complex64, complex128, byte, rune, any]

/-- The primitive with a spelling; the empty interface is a second spelling of `any`. -/
def ofName? (s : String) : Option Primitive :=
  if s = "interface\x7b\x7d" then some any else all.find? (·.name = s)

/-- All but truth values, strings and `any` are numbers. -/
def isNumeric (p : Primitive) : Bool :=
  p ≠ bool && p ≠ string && p ≠ any

/-- A sequence of these is base64 text on the wire. -/
def isByte (p : Primitive) : Bool :=
  p = uint8 || p = byte

end Primitive

end WireTypes.Package
