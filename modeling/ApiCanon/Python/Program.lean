/-!
# Programs in Python

What is kept of a program: definitions, assignments and calls with their literals.  Other
expressions keep their text and their direct parts; of other statements only those inside of them
are kept.
-/

namespace ApiCanon.Python

mutual

/-- An expression. -/
inductive Expr where
  | name (text : String)
  /-- A single literal, with its quotes. -/
  | string (text : String)
  | call (text : String) (function : Expr) (arguments : List Argument)
  /-- Any other expression; `place` tells whether a value can be assigned to it. -/
  | other (text : String) (place : Bool) (parts : List Expr)

/-- An argument of a call. -/
inductive Argument where
  | positional (value : Expr)
  | keyword (text name : String) (value : Expr)

end

deriving instance Repr, Inhabited for Expr
deriving instance Repr, Inhabited for Argument

namespace Expr

/-- The text of an expression. -/
def text : Expr → String
  | name t => t
  | string t => t
  | call t _ _ => t
  | other t _ _ => t

/-- The direct parts of an expression. -/
def parts : Expr → List Expr
  | name _ => []
  | string _ => []
  | call _ f _ => [f]
  | other _ _ p => p

/-- Whether a value can be assigned to an expression. -/
def isPlace : Expr → Bool
  | name _ => true
  | other _ place _ => place
  | _ => false

end Expr

namespace Argument

def text : Argument → String
  | positional v => v.text
  | keyword t _ _ => t

end Argument

/-- A parameter of a function; those that gather others are left out. -/
structure Formal where
  name : String
  annotation? : Option String
  default? : Option Expr
  deriving Repr, Inhabited

/-- An expression in front of a definition. -/
structure Decorator where
  line : Nat
  expr : Expr
  deriving Repr, Inhabited

/-- A statement. -/
inductive Stmt where
  /-- Expressions with commas between them. -/
  | expression (parts : List Expr)
  /-- An assignment; its target is kept if it is a name. -/
  | assignment (target? annotation? : Option String) (value? : Option Expr)
  | classDef (name : String) (bases : List String) (body : List Stmt)
  | function (name : String) (formals : List Formal) (returns? : Option String)
    (body : List Stmt)
  | decorated (decorators : List Decorator) (definition : Stmt)
  /-- A statement with others inside of it. -/
  | compound (body : List Stmt)
  | simple
  deriving Repr, Inhabited

mutual

/-- A statement and all those inside of it, in the order of the text. -/
def Stmt.all : Stmt → List Stmt
  | .classDef n b body => .classDef n b body :: allOf body
  | .function n f r body => .function n f r body :: allOf body
  | .decorated ds d => .decorated ds d :: d.all
  | .compound body => .compound body :: allOf body
  | .expression p => [.expression p]
  | .assignment t a v => [.assignment t a v]
  | .simple => [.simple]

/-- Statements and all those inside of them. -/
def allOf : List Stmt → List Stmt
  | [] => []
  | s :: r => s.all ++ allOf r

end

/-! ## Parsers -/

/-- A text that is no program, with the line of the fault. -/
structure SyntaxError where
  line : Nat
  deriving DecidableEq, Repr

/-- Tells the statements of the program that a text is, or where it is none. -/
abbrev Parser := List Char → Except SyntaxError (List Stmt)

end ApiCanon.Python
