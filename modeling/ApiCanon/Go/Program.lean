import ApiCanon.Syntax.Token

/-!
# Programs in Go

What is kept of a program: its package, its functions, its types with the fields of structs, and the
comments between them, each with its place.
-/

namespace ApiCanon.Go

open Syntax (Comment)

/-- A member of a struct. -/
inductive Member where
  | comment (c : Comment)
  /-- Fields of one type; an embedded field has no name.  Type and tag are as written. -/
  | field (names : List String) (type tag : String) (lastLine : Nat)
  deriving DecidableEq, Repr, Inhabited

/-- A struct with its name. -/
structure Struct where
  name : String
  members : List Member
  deriving Repr, Inhabited

/-- A part of a program. -/
inductive Item where
  | comment (c : Comment)
  | package (name : String) (line : Nat)
  | function (line : Nat)
  /-- A declaration of types, with the structs among them. -/
  | types (structs : List Struct) (line : Nat)
  | other (line : Nat)
  deriving Repr, Inhabited

/-- A text that is no program, with the line of the fault. -/
structure SyntaxError where
  line : Nat
  deriving DecidableEq, Repr

/-- Tells the parts of the program that a text is, or where it is none. -/
abbrev Parser := List Char → Except SyntaxError (List Item)

end ApiCanon.Go
