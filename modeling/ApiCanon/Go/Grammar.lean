import ApiCanon.Go.Program

/-!
# The grammar of Go

Which texts are Go, and the outline of those that are: the package, the functions, the types with
the fields of structs, and the comments between them.  Bodies of functions and initial values are
only checked.

A line that ends behind a complete statement ends the statement.  Elsewhere the ends of lines do
not count, and nowhere do they between brackets.

A statement may stand outside of functions, as in a fragment of a program.
-/

namespace ApiCanon.Go

open Syntax Reader

/-! ## Tokens -/

section

open Splitter

/-- How many hexadecimal digits an escape has behind its letter. -/
def escapeDigits (letter : Char) : Nat :=
  if letter == 'x' then 2 else if letter == 'u' then 4 else if letter == 'U' then 8 else 0

/-- The rest of an interpreted literal with its closing quote. -/
def splitInterpreted : Splitter
  | [] => none
  | '\\' :: c :: r =>
    -- the digits are not split off here, as they stand for themselves as well
    if (((one (isDigitIn 16)).times (escapeDigits c)) r).isSome then
      (splitInterpreted r).map (behind ['\\', c])
    else none
  | c :: r =>
    if c == '"' then some ([c], r)
    else if c == '\n' then none
    else (splitInterpreted r).map (behind [c])

/-- What stands between the quotes of a character: itself, or an escape. -/
def splitRune : Splitter :=
  let hex (n : Nat) : Splitter := (one (isDigitIn 16)).times n
  let escape := firstOf [
    oneOf "abfnrtv\\\x27\"",
    (oneOf "x").followedBy (hex (escapeDigits 'x')),
    (oneOf "u").followedBy (hex (escapeDigits 'u')),
    (oneOf "U").followedBy (hex (escapeDigits 'U')),
    (one (isDigitIn 8)).times 3]
  firstOf [one fun c => c != '\'' && c != '\\', (oneOf "\\").followedBy escape]

/-- A literal: an interpreted one, a character, or a text as it stands. -/
def splitLiteral : Splitter
  | '"' :: r => (splitInterpreted r).map (behind ['"'])
  | '\'' :: r => (splitRune.followedBy (one (· == '\'')) r).map (behind ['\''])
  | '\x60' :: r =>
    (Text.splitAtFirst? (· == '\x60') r).map fun (a, rest) => ('\x60' :: a ++ ['\x60'], rest)
  | _ => none

/-- A number: a whole one in one of four bases, or one with a point or an exponent.  The letter `i`
behind it marks imaginary numbers, whose whole part may begin with zeros. -/
def splitNumber : Splitter :=
  let decimals := digits 10
  let power := (exponent "eE" decimals).perhaps
  let mantissa := firstOf [
    (oneOf "_").perhaps.followedBy
      ((digits 16).followedBy ((oneOf ".").followedBy (digits 16).perhaps).perhaps),
    (oneOf ".").followedBy (digits 16)]
  let real := firstOf [
    (oneOf "0").followedBy ((oneOf "xX").followedBy (mantissa.followedBy (exponent "pP" decimals))),
    inBase "xX" 16, inBase "oO" 8, inBase "bB" 2,
    decimals.followedBy ((oneOf ".").followedBy (decimals.perhaps.followedBy power)),
    (oneOf ".").followedBy (decimals.followedBy power),
    decimals.followedBy (exponent "eE" decimals),
    (oneOf "0").followedBy ((oneOf "_").perhaps.followedBy (digits 8)),
    oneOf "0",
    digits 10]
  firstOf [real.followedBy (oneOf "i"), decimals.followedBy (oneOf "i"), real]

def splitComment : Splitter
  | '/' :: '/' :: r =>
    some ('/' :: '/' :: r.takeWhile (· != '\n'), r.dropWhile (· != '\n'))
  | '/' :: '*' :: r =>
    (Text.splitFirst? ['*', '/'] r).map fun (a, rest) => ('/' :: '*' :: a ++ ['*', '/'], rest)
  | _ => none

end

def lexis : Lexis where
  comment? := splitComment
  literal? := splitLiteral
  number? := splitNumber
  marks :=
    ["<<=", ">>=", "&^=", "...", "&&", "||", "<-", "++", "--", "==", "!=", "<=", ">=", ":=", "+=",
      "-=", "*=", "/=", "%=", "&=", "|=", "^=", "<<", ">>", "&^", "+", "-", "*", "/", "%", "&",
      "|", "^", "<", ">", "=", "!", "~", "(", ")", "[", "]", "\x7b", "\x7d", ",", ";", ".", ":"]
  joinsLines := false

/-! ## Small parts -/

/-- Whether the line goes on with the next token. -/
def goesOn : Reader Bool := do
  let t ← peek
  pure (!t.startsLine && !t.isFinish)

/-- Whether the next token is a mark on the same line. -/
def markGoesOn (m : String) : Reader Bool := do
  pure ((← peek).isMark m && (← goesOn))

/-- Takes the end of a statement: a semicolon, or the end of the line. -/
def statementEnd : Reader Unit := do
  let t ← peek
  if t.isMark ";" then
    let _ ← next
  else unless t.startsLine do refuseUnended

/-- Takes the end of a statement, if there is one. -/
def optionalEnd : Reader Bool := do
  let t ← peek
  if t.isMark ";" then
    let _ ← next
    pure true
  else pure t.startsLine

/-- The words that begin a type other than a name. -/
def typeWords : List String := ["struct", "interface", "map", "chan", "func"]

/-- Takes a name where no word has a meaning of its own but those of types. -/
def plainName : Reader String := do
  let t ← peek
  if t.kind == .word && !typeWords.contains t.text then anyWord else refuse

/-- How an expression is read: whether a brace may open a literal, and whether the ends of lines
do not count. -/
structure Context where
  literals : Bool
  bracketed : Bool

def Context.plain : Context := ⟨true, false⟩

def Context.header : Context := ⟨false, false⟩

def Context.inBrackets : Context := ⟨true, true⟩

def binaryMarks : List String :=
  ["||", "&&", "==", "!=", "<", "<=", ">", ">=", "+", "-", "|", "^", "*", "/", "%", "<<", ">>",
    "&", "&^"]

def unaryMarks : List String := ["+", "-", "!", "^", "*", "&", "<-", "~"]

def assignMarks : List String :=
  ["=", ":=", "+=", "-=", "*=", "/=", "%=", "&=", "|=", "^=", "<<=", ">>=", "&^="]

/-- Whether the next token is one of some marks and, unless between brackets, on the same line. -/
def oneOf (c : Context) (marks : List String) : Reader Bool := do
  let t ← peek
  pure (t.kind == .mark && marks.contains t.text && (c.bracketed || !t.startsLine))

/-- Reads the tag of a field, if it has one, behind the tokens of its type. -/
def readTag (names : List String) (type : List Token) : Reader Member := do
  let t ← peek
  if t.kind == .literal && !t.startsLine then
    let _ ← next
    pure (.field names (sourceOf type) t.text t.lastLine)
  else pure (.field names (sourceOf type) "" ((type.getLast?.map Token.lastLine).getD t.line))

/-! ## Types, expressions and statements

Every reader takes the depth to which it may descend. -/

mutual

/-- Reads a type. -/
def readType : Nat → Reader Unit
  | 0 => refuse
  | n + 1 => do
    let t ← peek
    if t.kind == .mark then
      match t.text with
      | "*" | "~" =>
        let _ ← next
        readType n
      | "<-" =>
        let _ ← next
        word "chan"
        readType n
      | "(" =>
        let _ ← next
        readType n
        mark ")"
      | "[" =>
        let _ ← next
        if ← optionalMark "]" then readType n
        else
          unless ← optionalMark "..." do readExpr n .inBrackets
          mark "]"
          if (← peek).startsLine then refuse
          readType n
      | _ => refuse
    else if t.kind == .word then
      match t.text with
      | "struct" =>
        let _ ← next
        let _ ← readFields n
      | "interface" =>
        let _ ← next
        mark "\x7b"
        readElements n
      | "map" =>
        let _ ← next
        mark "["
        readType n
        mark "]"
        readType n
      | "chan" =>
        let _ ← next
        let _ ← optionalMark "<-"
        readType n
      | "func" =>
        let _ ← next
        readParameters n
        readResult n
      | _ => readNamedType n
    else refuse

/-- Reads a name, perhaps of another package and perhaps with arguments. -/
def readNamedType : Nat → Reader Unit
  | 0 => refuse
  | n + 1 => do
    let _ ← anyWord
    if ← markGoesOn "." then
      let _ ← next
      let _ ← anyWord
    if ← markGoesOn "[" then
      either (do
        mark "["
        readConstraint n
        readMoreConstraints n) (pure ())

/-- Reads the rest of a list of constraints and its closing bracket. -/
def readMoreConstraints : Nat → Reader Unit
  | 0 => refuse
  | n + 1 => do
    if ← optionalMark "]" then pure ()
    else
      mark ","
      if ← optionalMark "]" then pure ()
      else
        readConstraint n
        readMoreConstraints n

/-- Reads types with bars between them. -/
def readConstraint : Nat → Reader Unit
  | 0 => refuse
  | n + 1 => do
    readType n
    if ← optionalMark "|" then readConstraint n

/-- Reads the members of an interface and the closing brace. -/
def readElements : Nat → Reader Unit
  | 0 => refuse
  | n + 1 => do
    if ← optionalMark "\x7d" then pure ()
    else
      either (do
        let _ ← anyWord
        readParameters n
        readResult n) (readConstraint n)
      if ← optionalMark "\x7d" then pure ()
      else
        unless ← optionalEnd do refuse
        readElements n

/-- Reads the members of a struct from its opening to its closing brace. -/
def readFields : Nat → Reader (List Member)
  | 0 => refuse
  | n + 1 => do
    mark "\x7b"
    readMembers n

/-- Reads members of a struct up to its closing brace. -/
def readMembers : Nat → Reader (List Member)
  | 0 => refuse
  | n + 1 => do
    let comments := (← peek).comments.map Member.comment
    if ← optionalMark "\x7d" then pure comments
    else
      let field ← either (readField n) (readEmbedded n)
      let closing ← peek
      if closing.isMark "\x7d" then pure (comments ++ field :: (← readMembers n))
      else
        -- a comment that stands in front of a semicolon belongs to the struct as well
        let between := if closing.isMark ";" then closing.comments.map Member.comment else []
        unless ← optionalEnd do refuse
        pure (comments ++ field :: between ++ (← readMembers n))

/-- Reads fields with names. -/
def readField : Nat → Reader Member
  | 0 => refuse
  | n + 1 => do
    let names ← readNames n
    unless ← goesOn do refuse
    let (_, used) ← withTokens (readType n)
    readTag names used

/-- Reads an embedded field. -/
def readEmbedded : Nat → Reader Member
  | 0 => refuse
  | n + 1 => do
    let _ ← optionalMark "*"
    let (_, used) ← withTokens (readNamedType n)
    readTag [] used

/-- Reads names with commas between them. -/
def readNames : Nat → Reader (List String)
  | 0 => refuse
  | n + 1 => do
    let name ← anyWord
    if ← optionalMark "," then pure (name :: (← readNames n)) else pure [name]

/-- Reads parameters from the opening to the closing bracket. -/
def readParameters : Nat → Reader Unit
  | 0 => refuse
  | n + 1 => do
    mark "("
    readMoreParameters n

/-- Reads parameters up to the closing bracket. -/
def readMoreParameters : Nat → Reader Unit
  | 0 => refuse
  | n + 1 => do
    if ← optionalMark ")" then pure ()
    else
      either (do
          let _ ← plainName
          let _ ← optionalMark "..."
          readType n
          readParameterEnd n)
        (do
          let _ ← optionalMark "..."
          readType n
          readParameterEnd n)

/-- Reads what follows a parameter. -/
def readParameterEnd : Nat → Reader Unit
  | 0 => refuse
  | n + 1 => do
    if ← optionalMark "," then readMoreParameters n else mark ")"

/-- Reads the result of a function, if it has one. -/
def readResult : Nat → Reader Unit
  | 0 => refuse
  | n + 1 => do
    let t ← peek
    if t.startsLine then pure ()
    else if t.isMark "(" then readParameters n
    else if t.kind == .word || t.isMark "*" || t.isMark "[" || t.isMark "<-" then
      either (readType n) (pure ())
    else pure ()

/-- Reads an expression: operands with operators between them. -/
def readExpr : Nat → Context → Reader Unit
  | 0, _ => refuse
  | n + 1, c => do
    readUnary n c
    if ← oneOf c binaryMarks then
      let _ ← next
      readExpr n c

/-- Reads an operand with the operators in front of it and the parts behind it. -/
def readUnary : Nat → Context → Reader Unit
  | 0, _ => refuse
  | n + 1, c => do
    let t ← peek
    if t.kind == .mark && unaryMarks.contains t.text then
      let _ ← next
      readUnary n c
    else
      readOperand n c
      readSuffixes n c

/-- Reads an operand. -/
def readOperand : Nat → Context → Reader Unit
  | 0, _ => refuse
  | n + 1, c => do
    let t ← peek
    match t.kind with
    | .number | .literal =>
      let _ ← next
    | .word =>
      if t.text == "func" then
        let _ ← next
        readParameters n
        readResult n
        if ← markGoesOn "\x7b" then readBlock n
      else if typeWords.contains t.text then
        readType n
        if (← peek).isMark "\x7b" then readLiteral n
      else
        let _ ← next
        if c.literals && (← markGoesOn "\x7b") then either (readLiteral n) (pure ())
    | .mark =>
      if t.text == "(" then
        let _ ← next
        either (do
            readExpr n .inBrackets
            mark ")")
          (do
            readType n
            mark ")")
      else if t.text == "[" then
        readType n
        if (← peek).isMark "\x7b" then readLiteral n
      else refuse
    | _ => refuse

/-- Reads what may follow an operand: members, assertions, indices, calls and literals. -/
def readSuffixes : Nat → Context → Reader Unit
  | 0, _ => refuse
  | n + 1, c => do
    if ← oneOf c [".", "[", "("] then
      let t ← next
      if t.text == "." then
        if ← optionalMark "(" then
          unless ← optionalWord "type" do readType n
          mark ")"
        else
          let _ ← anyWord
      else if t.text == "[" then readIndex n
      else readArguments n
      if c.literals && (← markGoesOn "\x7b") && t.text != "(" then
        either (readLiteral n) (pure ())
      readSuffixes n c

/-- Reads indices or bounds up to the closing bracket. -/
def readIndex : Nat → Reader Unit
  | 0 => refuse
  | n + 1 => do
    if ← optionalMark "]" then pure ()
    else if ← optionalMark ":" then readIndex n
    else
      readExpr n .inBrackets
      let t ← peek
      if t.isMark "," then
        let _ ← next
        readIndex n
      else if t.isMark ":" then readIndex n
      else mark "]"

/-- Reads arguments up to the closing bracket. -/
def readArguments : Nat → Reader Unit
  | 0 => refuse
  | n + 1 => do
    if ← optionalMark ")" then pure ()
    else
      readExpr n .inBrackets
      let _ ← optionalMark "..."
      if ← optionalMark "," then readArguments n else mark ")"

/-- Reads a composite value from the opening to the closing brace. -/
def readLiteral : Nat → Reader Unit
  | 0 => refuse
  | n + 1 => do
    mark "\x7b"
    readEntries n

/-- Reads entries of a composite value up to the closing brace. -/
def readEntries : Nat → Reader Unit
  | 0 => refuse
  | n + 1 => do
    if ← optionalMark "\x7d" then pure ()
    else
      readEntry n
      if ← optionalMark ":" then readEntry n
      if ← optionalMark "," then readEntries n else mark "\x7d"

/-- Reads a value or a key of a composite value. -/
def readEntry : Nat → Reader Unit
  | 0 => refuse
  | n + 1 => do
    if (← peek).isMark "\x7b" then readLiteral n else readExpr n .inBrackets

/-- Reads expressions with commas between them. -/
def readExprs : Nat → Context → Reader Unit
  | 0, _ => refuse
  | n + 1, c => do
    readExpr n c
    if ← oneOf c [","] then
      let _ ← next
      readExprs n c

/-- Reads an expression, an assignment, a step or a sending. -/
def readSimple : Nat → Context → Reader Unit
  | 0, _ => refuse
  | n + 1, c => do
    readExprs n c
    if ← oneOf c assignMarks then
      let _ ← next
      if ← optionalWord "range" then readExpr n c else readExprs n c
    else if ← oneOf c ["++", "--"] then
      let _ ← next
    else if ← oneOf c ["<-"] then
      let _ ← next
      readExpr n c

/-- Reads a block. -/
def readBlock : Nat → Reader Unit
  | 0 => refuse
  | n + 1 => do
    mark "\x7b"
    readStatements n
    mark "\x7d"

/-- Reads statements up to a closing brace or another case. -/
def readStatements : Nat → Reader Unit
  | 0 => refuse
  | n + 1 => do
    let t ← peek
    if t.isMark "\x7d" || t.isWord "case" || t.isWord "default" then pure ()
    else
      readStatement n
      let t ← peek
      if t.isMark "\x7d" then pure ()
      else
        unless ← optionalEnd do refuse
        readStatements n

/-- Reads the cases of a choice and the closing brace. -/
def readCases : Nat → Reader Unit
  | 0 => refuse
  | n + 1 => do
    if ← optionalMark "\x7d" then pure ()
    else
      if ← optionalWord "default" then pure ()
      else
        word "case"
        readSimple n .plain
      mark ":"
      readStatements n
      readCases n

/-- Reads values declared together, up to the closing bracket. -/
def readValueGroup : Nat → Reader Unit
  | 0 => refuse
  | n + 1 => do
    if ← optionalMark ")" then pure ()
    else
      readValueSpec n
      unless ← optionalEnd do refuse
      readValueGroup n

/-- Reads names, a type and values, as far as they are there. -/
def readValueSpec : Nat → Reader Unit
  | 0 => refuse
  | n + 1 => do
    let _ ← readNames n
    if (← goesOn) && !(← peek).isMark "=" && !(← peek).isMark ";" && !(← peek).isMark ")" then
      readType n
    if ← markGoesOn "=" then
      let _ ← next
      readExprs n .plain

/-- Reads a type with its name; its members, if it is a struct. -/
def readTypeSpec : Nat → Reader (Option Struct)
  | 0 => refuse
  | n + 1 => do
    let name ← anyWord
    either (do
        mark "["
        readTypeParameters n
        readTypeBody name n)
      (readTypeBody name n)

/-- Reads the parameters of a type up to the closing bracket. -/
def readTypeParameters : Nat → Reader Unit
  | 0 => refuse
  | n + 1 => do
    let _ ← readNames n
    readConstraint n
    if ← optionalMark "," then
      unless ← optionalMark "]" do readTypeParameters n
    else mark "]"

/-- Reads what a name stands for. -/
def readTypeBody (name : String) : Nat → Reader (Option Struct)
  | 0 => refuse
  | n + 1 => do
    if ← optionalMark "=" then
      readType n
      pure none
    else if (← peek).isWord "struct" then
      let _ ← next
      pure (some ⟨name, ← readFields n⟩)
    else
      readType n
      pure none

/-- Reads types declared together, up to the closing bracket. -/
def readTypeGroup : Nat → Reader (List Struct)
  | 0 => refuse
  | n + 1 => do
    if ← optionalMark ")" then pure []
    else
      let s ← readTypeSpec n
      unless ← optionalEnd do refuse
      pure (s.toList ++ (← readTypeGroup n))

/-- Reads a statement. -/
def readStatement : Nat → Reader Unit
  | 0 => refuse
  | n + 1 => do
    let t ← peek
    if t.isMark "\x7b" then readBlock n
    else if t.isMark ";" then pure ()
    else if t.kind == .word then
      match t.text with
      | "var" | "const" =>
        let _ ← next
        if ← optionalMark "(" then readValueGroup n else readValueSpec n
      | "type" =>
        let _ ← next
        if ← optionalMark "(" then
          let _ ← readTypeGroup n
        else
          let _ ← readTypeSpec n
      | "return" =>
        let _ ← next
        let t ← peek
        if !t.startsLine && !t.isFinish && !t.isMark ";" && !t.isMark "\x7d" then
          readExprs n .plain
      | "go" | "defer" =>
        let _ ← next
        readExpr n .plain
      | "fallthrough" =>
        let _ ← next
      | "break" | "continue" =>
        let _ ← next
        if (← peek).kind == .word && (← goesOn) then
          let _ ← next
      | "goto" =>
        let _ ← next
        let _ ← anyWord
      | "if" => readIf n
      | "for" => readFor n
      | "switch" =>
        let _ ← next
        readHeader n
        mark "\x7b"
        readCases n
      | "select" =>
        let _ ← next
        mark "\x7b"
        readCases n
      | _ =>
        if (← peekSecond).isMark ":" then
          let _ ← next
          let _ ← next
          unless (← peek).isMark "\x7d" do readStatement n
        else readSimple n .plain
    else readSimple n .plain

/-- Reads a condition with its branches. -/
def readIf : Nat → Reader Unit
  | 0 => refuse
  | n + 1 => do
    word "if"
    readHeader n
    readBlock n
    if (← peek).isWord "else" && (← goesOn) then
      let _ ← next
      if (← peek).isWord "if" then readIf n else readBlock n

/-- Reads what stands between a word and its block. -/
def readHeader : Nat → Reader Unit
  | 0 => refuse
  | n + 1 => do
    let t ← peek
    if t.isMark "\x7b" then pure ()
    else if t.isMark ";" then
      let _ ← next
      readHeader n
    else
      readSimple n .header
      if ← optionalMark ";" then readHeader n

/-- Reads a loop. -/
def readFor : Nat → Reader Unit
  | 0 => refuse
  | n + 1 => do
    word "for"
    if ← optionalWord "range" then readExpr n .header else readHeader n
    readBlock n

end

/-! ## Programs -/

/-- Reads an import, one or several. -/
def readImport (n : Nat) : Reader Unit := do
  let spec : Reader Unit := do
    let t ← peek
    if t.kind == .word || t.isMark "." then
      let _ ← next
    if (← peek).kind == .literal then
      let _ ← next
    else refuse
  let rec group : Nat → Reader Unit
    | 0 => refuse
    | n + 1 => do
      if ← optionalMark ")" then pure ()
      else
        spec
        if ← optionalMark ")" then pure ()
        else
          unless ← optionalEnd do refuse
          group n
  word "import"
  if ← optionalMark "(" then group n else spec

/-- Reads a function or a method behind its first word. -/
def readFunction (n : Nat) : Reader Unit := do
  let t ← peek
  if t.isMark "(" then readParameters n
  let _ ← anyWord
  if (← peek).isMark "[" then
    let _ ← next
    readTypeParameters n
  readParameters n
  readResult n
  if ← markGoesOn "\x7b" then readBlock n

/-- Reads a part of a program, and tells whether it may end without an end of its line. -/
def readItem (n : Nat) : Reader (Item × Bool) := do
  let t ← peek
  let statement : Reader (Item × Bool) := do
    readStatement n
    pure (.other t.line, false)
  if t.isWord "package" then
    let _ ← next
    let name ← peek
    let _ ← anyWord
    pure (.package ((name.comments.head?.map Comment.text).getD name.text) t.line, true)
  else if t.isWord "import" then
    readImport n
    pure (.other t.line, true)
  else if t.isWord "func" then
    either (do
      let _ ← next
      readFunction n
      pure (.function t.line, true)) statement
  else if t.isWord "type" then
    let _ ← next
    let structs ← if ← optionalMark "(" then readTypeGroup n else
      pure (← readTypeSpec n).toList
    pure (.types structs t.line, false)
  else statement

/-- The line at which a fault is reported: that of the token in the way.  At the end of the text
it is the line of the item that is cut off, and where only the end of a statement is missing it is
the first line of the program. -/
def lineOfFault (start first : Nat) (f : Fault) : Nat :=
  if f.unended then first else if f.token.isFinish then start else f.token.line

/-- Reads the items of a program. -/
def readItems (first depth : Nat) : Nat → List Token → Except SyntaxError (List Item)
  | 0, _ => .error ⟨first⟩
  | n + 1, s =>
    let t := s.headD endToken
    let comments := t.comments.map Item.comment
    if t.isFinish then .ok comments
    else
      match readItem depth s with
      | .error f => .error ⟨lineOfFault t.line first f⟩
      | .ok ((item, mayEnd), rest) =>
        if mayEnd && (rest.headD endToken).isFinish then do
          pure (comments ++ item :: (← readItems first depth n rest))
        else
          let closing := rest.headD endToken
          let between := if closing.isMark ";" then closing.comments.map Item.comment else []
          match statementEnd rest with
          | .error f => .error ⟨lineOfFault t.line first f⟩
          | .ok (_, after) => do
            pure (comments ++ item :: between ++ (← readItems first depth n after))

/-- The line of the first token or comment. -/
def firstLine (s : List Token) : Nat :=
  let t := s.headD endToken
  (t.comments.head?.map Comment.line).getD t.line

/-- The outline of a program. -/
def outline : Parser := fun text =>
  let s := tokens lexis text
  readItems (firstLine s) (20 * s.length + 20) (s.length + 1) s

end ApiCanon.Go
