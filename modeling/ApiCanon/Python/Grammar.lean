import ApiCanon.Python.Lexis
import ApiCanon.Python.Program

/-!
# The grammar of Python

Which texts are Python, and the program that is kept of those that are.

A statement ends with its line once it is complete; between brackets, and where a part is missing,
the ends of lines do not count.  A block is indented deeper than the line that opens it, and ends
with the first line that is indented less than its own first line.  A block may be empty.
-/

namespace ApiCanon.Python

open Syntax Reader

/-! ## Small parts -/

/-- Whether the next token still belongs to the line. -/
def goesOn (bracketed : Bool) : Reader Bool := do
  let t ← peek
  pure (!t.isFinish && (bracketed || !t.startsLine))

/-- Whether a statement ends in front of the next token. -/
def atEnd : Reader Bool := do
  let t ← peek
  pure (t.isFinish || t.startsLine || t.isMark ";")

/-- Whether the next token is a certain mark that still belongs to the line. -/
def markFollows (bracketed : Bool) (m : String) : Reader Bool := do
  pure ((← peek).isMark m && (← goesOn bracketed))

/-- Whether the next token is a certain word that still belongs to the line. -/
def wordFollows (bracketed : Bool) (w : String) : Reader Bool := do
  pure ((← peek).isWord w && (← goesOn bracketed))

/-- Takes a word that may be a name. -/
def freeName : Reader String := do
  let t ← peek
  if t.kind == .word && !reservedWords.contains t.text then anyWord else refuse

/-- Takes the end of a line. -/
def lineEnd : Reader Unit := do
  let t ← peek
  unless t.isFinish || t.startsLine do refuse

/-- The source from some place up to the next token. -/
def sourceSince (start : List Token) : Reader String := fun s =>
  .ok (sourceOf (start.take (start.length - s.length)), s)

/-- The tokens that are left. -/
def here : Reader (List Token) := fun s => .ok (s, s)

/-- Reads names with points between them. -/
def dottedName : Nat → Reader Unit
  | 0 => refuse
  | n + 1 => do
    let _ ← freeName
    if ← optionalMark "." then dottedName n

/-- How strongly an operator binds; comparisons share one strength. -/
def strength? (t : Token) : Option Nat :=
  match t.kind, t.text with
  | .word, "or" => some 1
  | .word, "and" => some 2
  | .word, "in" => some 4
  | .word, "is" => some 4
  | .word, "not" => some 4
  | .mark, m =>
    if ["<", "<=", "==", "!=", ">=", ">", "<>"].contains m then some 4
    else if m == "|" then some 5
    else if m == "^" then some 6
    else if m == "&" then some 7
    else if m == "<<" || m == ">>" then some 8
    else if m == "+" || m == "-" then some 9
    else if ["*", "@", "/", "%", "//"].contains m then some 10
    else if m == "**" then some 12
    else none
  | _, _ => none

/-- The strength of a negation, and that of a comparison and of what may be a target of a loop. -/
def notStrength : Nat := 3

def targetStrength : Nat := 5

def signStrength : Nat := 11

def signMarks : List String := ["+", "-", "~"]

/-- The marks that an operand may begin with. -/
def operandMarks : List String := signMarks ++ ["...", "(", "[", "\x7b"]

/-- Whether a value is awaited: the word is also a name, unless an operand follows. -/
def awaits (bracketed : Bool) : Reader Bool := do
  let t ← peekSecond
  let operand := match t.kind with
    | .number | .literal => true
    | .word => ["None", "True", "False"].contains t.text || !reservedWords.contains t.text
    | .mark => operandMarks.contains t.text
    | _ => false
  pure ((← peek).isWord "await" && operand && (bracketed || !t.startsLine))

/-- Takes an operator; some consist of two words. -/
def operator : Reader Unit := do
  let t ← next
  if t.isWord "not" then word "in"
  else if t.isWord "is" then
    let _ ← optionalWord "not"

def augmentedMarks : List String :=
  ["+=", "-=", "*=", "/=", "@=", "//=", "%=", "**=", ">>=", "<<=", "&=", "^=", "|="]

/-! ## Expressions

Every reader takes the depth to which it may descend.  Where `bracketed` holds, the ends of lines
do not count. -/

mutual

/-- Reads an expression. -/
def readExpr : Nat → Bool → Reader Expr
  | 0, _ => refuse
  | n + 1, bracketed => do
    let start ← here
    let t ← peek
    if t.isWord "lambda" then
      let _ ← next
      let _ ← readFormals n false ":"
      let body ← readExpr n bracketed
      pure (.other (← sourceSince start) false [body])
    else if t.kind == .word && (← peekSecond).isMark ":=" then
      let a ← freeName
      mark ":="
      let value ← readExpr n bracketed
      pure (.other (← sourceSince start) false [.name a, value])
    else
      let e ← readChain n bracketed 0
      let e ← if ← wordFollows bracketed "if" then
          either (do
            word "if"
            let condition ← readChain n bracketed 0
            word "else"
            let alternative ← readExpr n bracketed
            pure (.other (← sourceSince start) false [e, condition, alternative])) (pure e)
        else pure e
      if ← wordFollows bracketed "as" then
        let _ ← next
        let target ← readChain n bracketed targetStrength
        pure (.other (← sourceSince start) false [e, target])
      else pure e

/-- Reads operands with operators between them that bind at least as strongly as `least`. -/
def readChain : Nat → Bool → Nat → Reader Expr
  | 0, _, _ => refuse
  | n + 1, bracketed, least => do
    let start ← here
    let t ← peek
    let first ←
      if t.isWord "not" then do
        let _ ← next
        let e ← readChain n bracketed notStrength
        pure (Expr.other (← sourceSince start) false [e])
      else if t.kind == .mark && signMarks.contains t.text then do
        let _ ← next
        let e ← readChain n bracketed signStrength
        pure (Expr.other (← sourceSince start) false [e])
      else readPrimary n bracketed
    readMoreChain n bracketed least start first

/-- Reads further operators with their operands behind an operand. -/
def readMoreChain : Nat → Bool → Nat → List Token → Expr → Reader Expr
  | 0, _, _, _, _ => refuse
  | n + 1, bracketed, least, start, left => do
    let t ← peek
    match strength? t with
    | none => pure left
    | some k =>
      if k < least || !(← goesOn bracketed) then pure left
      else if t.isWord "not" && !(← peekSecond).isWord "in" then pure left
      else
        operator
        let right ← readChain n bracketed (if k == 12 then signStrength else k + 1)
        let e := Expr.other (← sourceSince start) false [left, right]
        readMoreChain n bracketed least start e

/-- Reads an operand with the parts behind it. -/
def readPrimary : Nat → Bool → Reader Expr
  | 0, _ => refuse
  | n + 1, bracketed => do
    let start ← here
    if ← awaits bracketed then
      let _ ← next
      let t ← peek
      let e ←
        if t.kind == .mark && signMarks.contains t.text then readChain n bracketed signStrength
        else readPrimary n bracketed
      pure (.other (← sourceSince start) false [e])
    else
      let e ← readAtom n bracketed
      readSuffixes n bracketed start e

/-- Reads members, indices and calls behind an operand. -/
def readSuffixes : Nat → Bool → List Token → Expr → Reader Expr
  | 0, _, _, _ => refuse
  | n + 1, bracketed, start, e => do
    if ← markFollows bracketed "." then
      let _ ← next
      let _ ← freeName
      let e := Expr.other (← sourceSince start) true [e]
      readSuffixes n bracketed start e
    else if ← markFollows bracketed "[" then
      let _ ← next
      let (items, _) ← readItems n "]"
      let e := Expr.other (← sourceSince start) true (e :: items)
      readSuffixes n bracketed start e
    else if ← markFollows bracketed "(" then
      let _ ← next
      let arguments ← readArguments n
      let e := Expr.call (← sourceSince start) e arguments
      readSuffixes n bracketed start e
    else pure e

/-- Reads a name, a number, literals or a bracketed expression. -/
def readAtom : Nat → Bool → Reader Expr
  | 0, _ => refuse
  | n + 1, bracketed => do
    let start ← here
    let t ← peek
    match t.kind with
    | .number =>
      let _ ← next
      pure (.other t.text false [])
    | .literal =>
      let _ ← next
      let more ← readLiterals n bracketed
      if more.isEmpty then pure (.string t.text)
      else pure (.other (← sourceSince start) false (.string t.text :: more))
    | .word =>
      if ["None", "True", "False"].contains t.text then
        let _ ← next
        pure (.other t.text false [])
      else pure (.name (← freeName))
    | .mark =>
      match t.text with
      | "..." =>
        let _ ← next
        pure (.other t.text false [])
      | "(" =>
        let _ ← next
        let (items, place) ← readItems n ")"
        pure (.other (← sourceSince start) place items)
      | "[" =>
        let _ ← next
        let (items, place) ← readItems n "]"
        pure (.other (← sourceSince start) place items)
      | "\x7b" =>
        let _ ← next
        let (items, _) ← readItems n "\x7d"
        pure (.other (← sourceSince start) false items)
      | "*" =>
        let _ ← next
        let e ← readChain n bracketed targetStrength
        pure (.other (← sourceSince start) e.isPlace [e])
      | _ => refuse
    | _ => refuse

/-- Reads literals that stand side by side. -/
def readLiterals : Nat → Bool → Reader (List Expr)
  | 0, _ => refuse
  | n + 1, bracketed => do
    let t ← peek
    if t.kind == .literal && (← goesOn bracketed) then
      let _ ← next
      pure (.string t.text :: (← readLiterals n bracketed))
    else pure []

/-- Reads the items of a bracketed expression and the closing bracket; also tells whether a value
can be assigned to all of them. -/
def readItems : Nat → String → Reader (List Expr × Bool)
  | 0, _ => refuse
  | n + 1, closing => do
    if ← optionalMark closing then pure ([], true)
    else
      let e ← readItem n
      let t ← peek
      if t.isWord "for" || t.isWord "async" then
        readClauses n
        let _ ← optionalMark ","
        mark closing
        pure ([e], false)
      else if ← optionalMark "," then
        let (more, place) ← readItems n closing
        pure (e :: more, e.isPlace && place)
      else
        mark closing
        pure ([e], e.isPlace)

/-- Reads an item: an expression, a pair, a range or what is to be unpacked. -/
def readItem : Nat → Reader Expr
  | 0 => refuse
  | n + 1 => do
    let start ← here
    let t ← peek
    if t.isMark "**" then
      let _ ← next
      let e ← readExpr n true
      pure (.other (← sourceSince start) false [e])
    else if t.isWord "yield" then readYield n true
    else if t.isMark ":" then
      let bounds ← readBounds n
      pure (.other (← sourceSince start) false bounds)
    else
      let e ← readExpr n true
      if (← peek).isMark ":" then
        let bounds ← readBounds n
        pure (.other (← sourceSince start) false (e :: bounds))
      else pure e

/-- Reads colons with what stands behind each of them. -/
def readBounds : Nat → Reader (List Expr)
  | 0 => refuse
  | n + 1 => do
    if ← optionalMark ":" then
      let t ← peek
      if t.isMark ":" || t.isMark "," || t.isMark "]" then readBounds n
      else
        let e ← readExpr n true
        pure (e :: (← readBounds n))
    else pure []

/-- Reads the loops and the conditions behind the item of a comprehension. -/
def readClauses : Nat → Reader Unit
  | 0 => refuse
  | n + 1 => do
    let t ← peek
    if t.isWord "for" || t.isWord "async" then
      let _ ← optionalWord "async"
      word "for"
      readTargets n true
      word "in"
      let _ ← readChain n true 0
      readClauses n
    else if t.isWord "if" then
      let _ ← next
      let _ ← readChain n true 0
      readClauses n
    else pure ()

/-- Reads the targets of a loop. -/
def readTargets : Nat → Bool → Reader Unit
  | 0, _ => refuse
  | n + 1, bracketed => do
    let _ ← readChain n bracketed targetStrength
    if ← optionalMark "," then
      unless (← peek).isWord "in" do readTargets n bracketed

/-- Reads the arguments of a call and the closing bracket. -/
def readArguments : Nat → Reader (List Argument)
  | 0 => refuse
  | n + 1 => do
    if ← optionalMark ")" then pure []
    else
      let start ← here
      let t ← peek
      if t.kind == .word && (← peekSecond).isMark "=" then
        let a ← freeName
        mark "="
        let value ← readExpr n true
        let argument := Argument.keyword (← sourceSince start) a value
        pure (argument :: (← readMoreArguments n))
      else
        let e ← readItem n
        let t ← peek
        if t.isWord "for" || t.isWord "async" then readClauses n
        pure (.positional e :: (← readMoreArguments n))

/-- Reads further arguments behind a comma, or the closing bracket. -/
def readMoreArguments : Nat → Reader (List Argument)
  | 0 => refuse
  | n + 1 => do
    if ← optionalMark "," then readArguments n
    else
      mark ")"
      pure []

/-- Reads the parameters of a function up to the closing mark.  Those of a definition may have
types. -/
def readFormals : Nat → Bool → String → Reader (List Formal)
  | 0, _, _ => refuse
  | n + 1, typed, closing => do
    if ← optionalMark closing then pure []
    else
      let t ← peek
      let formal? ←
        if t.isMark "*" || t.isMark "**" then do
          let _ ← next
          if (← peek).kind == .word then
            let _ ← freeName
            if typed && (← peek).isMark ":" then
              let _ ← next
              let _ ← readExpr n true
          pure none
        else if t.isMark "/" then do
          let _ ← next
          pure none
        else if t.isMark "(" then do
          let _ ← readAtom n true
          if ← optionalMark "=" then
            let _ ← readExpr n true
          pure none
        else do
          let a ← freeName
          let annotation? ←
            if typed && (← peek).isMark ":" then do
              let _ ← next
              pure (some (← readExpr n true).text)
            else pure none
          let default? ←
            if ← optionalMark "=" then do
              pure (some (← readExpr n true))
            else pure none
          pure (some ⟨a, annotation?, default?⟩)
      if ← optionalMark "," then pure (formal?.toList ++ (← readFormals n typed closing))
      else
        mark closing
        pure formal?.toList

/-- Reads an expression that hands out values. -/
def readYield : Nat → Bool → Reader Expr
  | 0, _ => refuse
  | n + 1, bracketed => do
    let start ← here
    word "yield"
    if ← wordFollows bracketed "from" then
      let _ ← next
      let _ ← readExpr n bracketed
    else
      let t ← peek
      unless t.isFinish || t.isMark ")" || t.isMark ";" || (!bracketed && t.startsLine) do
        let _ ← readExprs n bracketed
    pure (.other (← sourceSince start) false [])

/-- Reads expressions with commas between them; also tells whether there is a comma. -/
def readExprs : Nat → Bool → Reader (List Expr × Bool)
  | 0, _ => refuse
  | n + 1, bracketed => do
    let e ← readExpr n bracketed
    if ← markFollows bracketed "," then
      let _ ← next
      let t ← peek
      if !(← goesOn bracketed) || t.isMark "=" || t.isMark ":" || t.isMark ";" || t.isMark ")" ||
          t.isWord "in" then
        pure ([e], true)
      else
        let (more, _) ← readExprs n bracketed
        pure (e :: more, true)
    else pure ([e], false)

end

/-! ## Simple statements -/

/-- Reads what stands behind an equals sign: a value, or a further assignment.  Several values, and
a further assignment, have no parts of their own. -/
def readValue : Nat → Nat → Reader Expr
  | 0, _ => refuse
  | k + 1, n => do
    let start ← here
    if (← peek).isWord "yield" then readYield n false
    else
      let (es, comma) ← readExprs n false
      if ← markFollows false "=" then
        unless es.all Expr.isPlace do refuse
        let _ ← next
        let _ ← readValue k n
        pure (.other (← sourceSince start) false [])
      else
        match es, comma with
        | [e], false => pure e
        | _, _ => pure (.other (← sourceSince start) false es)

/-- Reads an expression, or an assignment to one. -/
def readAssignment (n : Nat) : Reader Stmt := do
  if (← peek).isWord "yield" then
    pure (.expression [← readYield n false])
  else
    let (es, comma) ← readExprs n false
    let t ← peek
    let target? := match es, comma with
      | [.name a], false => some a
      | _, _ => none
    if !(← goesOn false) then pure (.expression es)
    else if t.isMark "=" then
      unless es.all Expr.isPlace do refuse
      let _ ← next
      pure (.assignment target? none (some (← readValue n n)))
    else if t.isMark ":" then
      unless es.all Expr.isPlace do refuse
      let _ ← next
      let annotation ← readExpr n false
      if ← markFollows false "=" then
        let _ ← next
        pure (.assignment target? (some annotation.text) (some (← readValue n n)))
      else pure (.assignment target? (some annotation.text) none)
    else if t.kind == .mark && augmentedMarks.contains t.text then
      let _ ← next
      let _ ← readValue n n
      pure .simple
    else pure (.expression es)

/-- Reads a name that is imported, and the name it is given. -/
def importedName (n : Nat) : Reader Unit := do
  dottedName n
  if ← optionalWord "as" then
    let _ ← freeName

/-- Reads imported names with commas between them and perhaps behind the last. -/
def importedNames : Nat → Nat → Bool → Reader Unit
  | 0, _, _ => refuse
  | k + 1, n, bracketed => do
    importedName n
    if ← optionalMark "," then
      let t ← peek
      unless t.isFinish || t.isMark ")" || (!bracketed && (t.startsLine || t.isMark ";")) do
        importedNames k n bracketed

/-- Reads an import from a package behind its first word. -/
def importFrom (n : Nat) : Reader Unit := do
  let rec points : Nat → Reader Bool
    | 0 => refuse
    | k + 1 => do
      if (← optionalMark "...") || (← optionalMark ".") then
        let _ ← points k
        pure true
      else pure false
  let relative ← points n
  unless relative && (← peek).isWord "import" do dottedName n
  word "import"
  if ← optionalMark "*" then pure ()
  else if ← optionalMark "(" then
    importedNames n n true
    mark ")"
  else importedNames n n false

/-- Reads names with commas between them. -/
def readNames : Nat → Reader Unit
  | 0 => refuse
  | k + 1 => do
    let _ ← freeName
    if ← optionalMark "," then readNames k

/-- Reads expressions unless the statement ends. -/
def optionalExprs (n : Nat) : Reader Unit := do
  unless ← atEnd do
    let _ ← readExprs n false

/-- Whether a word is followed by an operand on its line. -/
def operandFollows : Reader Bool := do
  let t ← peekSecond
  pure (!t.startsLine && (t.kind == .literal || t.kind == .number ||
    (t.kind == .word && (!reservedWords.contains t.text ||
      ["None", "True", "False", "lambda"].contains t.text))))

/-- Reads a simple statement. -/
def readSimple (n : Nat) : Reader Stmt := do
  let t ← peek
  let after (p : Reader Unit) : Reader Stmt := do
    let _ ← next
    p
    pure .simple
  if t.kind != .word then readAssignment n
  else match t.text with
    | "pass" | "break" | "continue" => after (pure ())
    | "return" => after (optionalExprs n)
    | "raise" => after do
      optionalExprs n
      if ← wordFollows false "from" then
        let _ ← next
        let _ ← readExpr n false
    | "del" => after do
      let _ ← readExprs n false
    | "assert" => after do
      let _ ← readExprs n false
    | "global" | "nonlocal" => after (readNames n)
    | "import" => after (importedNames n n false)
    | "from" => after (importFrom n)
    | "type" =>
      if (← peekSecond).kind == .word && !reservedWords.contains (← peekSecond).text &&
          !(← peekSecond).startsLine then
        after do
          let _ ← readExpr n false
          mark "="
          let _ ← readExpr n false
      else readAssignment n
    | "print" | "exec" =>
      if ← operandFollows then
        after do
          let _ ← readExprs n false
          if ← optionalWord "in" then
            let _ ← readExprs n false
      else readAssignment n
    | _ => readAssignment n

/-- Reads the simple statements of a line with its end. -/
def readLine : Nat → Nat → Reader (List Stmt)
  | 0, _ => refuse
  | k + 1, n => do
    let s ← readSimple n
    if ← optionalMark ";" then
      let t ← peek
      if t.isFinish || t.startsLine then pure [s]
      else pure (s :: (← readLine k n))
    else
      lineEnd
      pure [s]

/-! ## Statements with blocks -/

mutual

/-- Reads a colon and the block behind it.  `level` is the indentation of the statement that the
block belongs to. -/
def readSuite : Nat → Nat → Nat → Reader (List Stmt)
  | 0, _, _ => refuse
  | k + 1, n, level => do
    mark ":"
    let t ← peek
    if t.isFinish then pure []
    else match t.indent with
      | none => readLine n n
      | some i => if level < i then readBlock k n i else pure []

/-- Reads the statements that are indented at least as deep as `level`. -/
def readBlock : Nat → Nat → Nat → Reader (List Stmt)
  | 0, _, _ => refuse
  | k + 1, n, level => do
    let t ← peek
    if t.isFinish || t.indent.any (· < level) then pure []
    else
      let s ← readStatement k n level
      pure (s ++ (← readBlock k n level))

/-- Reads a statement, or all those of its line. -/
def readStatement : Nat → Nat → Nat → Reader (List Stmt)
  | 0, _, _ => refuse
  | k + 1, n, level => do
    let t ← peek
    if t.isMark "@" then
      let decorators ← readDecorators k n
      pure [.decorated decorators (← readDefinition k n level)]
    else if t.kind != .word then readLine n n
    else match t.text with
      | "def" | "class" => pure [← readDefinition k n level]
      | "async" =>
        let second ← peekSecond
        if second.isWord "def" then pure [← readDefinition k n level]
        else if second.isWord "for" || second.isWord "with" then
          let _ ← next
          readStatement k n level
        else readLine n n
      | "if" | "while" =>
        let _ ← next
        let _ ← readExpr n false
        let body ← readSuite k n level
        pure [.compound (body ++ (← readBranches k n level))]
      | "for" =>
        let _ ← next
        readTargets n false
        word "in"
        let _ ← readExprs n false
        let body ← readSuite k n level
        pure [.compound (body ++ (← readBranches k n level))]
      | "try" =>
        let _ ← next
        let body ← readSuite k n level
        let t ← peek
        unless t.isWord "except" || t.isWord "finally" do refuse
        pure [.compound (body ++ (← readBranches k n level))]
      | "with" =>
        let _ ← next
        let _ ← readExprs n false
        pure [.compound (← readSuite k n level)]
      | "match" =>
        either (do
          let _ ← next
          let _ ← readExprs n false
          mark ":"
          let t ← peek
          match t.indent with
          | some i =>
            if t.isWord "case" && level < i then pure [.compound (← readCases k n i)] else refuse
          | none => refuse) (readLine n n)
      | _ => readLine n n

/-- Reads the further branches of a statement. -/
def readBranches : Nat → Nat → Nat → Reader (List Stmt)
  | 0, _, _ => refuse
  | k + 1, n, level => do
    let t ← peek
    if t.indent.any (· < level) then pure []
    else if t.isWord "elif" then
      let _ ← next
      let _ ← readExpr n false
      let body ← readSuite k n level
      pure (body ++ (← readBranches k n level))
    else if t.isWord "else" || t.isWord "finally" then
      let _ ← next
      let body ← readSuite k n level
      pure (body ++ (← readBranches k n level))
    else if t.isWord "except" then
      let _ ← next
      let _ ← optionalMark "*"
      unless (← peek).isMark ":" do
        let _ ← readExprs n false
      let body ← readSuite k n level
      pure (body ++ (← readBranches k n level))
    else pure []

/-- Reads the cases of a choice. -/
def readCases : Nat → Nat → Nat → Reader (List Stmt)
  | 0, _, _ => refuse
  | k + 1, n, level => do
    let t ← peek
    if t.isFinish || t.indent.any (· < level) then pure []
    else
      word "case"
      let _ ← readExprs n false
      if ← optionalWord "if" then
        let _ ← readExpr n false
      let body ← readSuite k n level
      pure (body ++ (← readCases k n level))

/-- Reads the decorators in front of a definition. -/
def readDecorators : Nat → Nat → Reader (List Decorator)
  | 0, _ => refuse
  | k + 1, n => do
    let t ← peek
    if t.isMark "@" then
      let _ ← next
      let e ← readExpr n false
      lineEnd
      pure (⟨t.line, e⟩ :: (← readDecorators k n))
    else pure []

/-- Reads a function or a class. -/
def readDefinition : Nat → Nat → Nat → Reader Stmt
  | 0, _, _ => refuse
  | k + 1, n, level => do
    if ← optionalWord "class" then
      let a ← freeName
      if ← optionalMark "[" then
        let _ ← readItems n "]"
      let bases ← if ← optionalMark "(" then readArguments n else pure []
      pure (.classDef a (bases.map Argument.text) (← readSuite k n level))
    else
      let _ ← optionalWord "async"
      word "def"
      let a ← freeName
      if ← optionalMark "[" then
        let _ ← readItems n "]"
      mark "("
      let formals ← readFormals n true ")"
      let returns? ← if ← optionalMark "->" then
          pure (some (← readExpr n false).text)
        else pure none
      pure (.function a formals returns? (← readSuite k n level))

end

/-! ## Programs -/

/-- Reads the statements of a program.  A fault at the end of the text is reported at the first
line of the statement that is cut off. -/
def readStatements (depth : Nat) : Nat → List Token → Except SyntaxError (List Stmt)
  | 0, _ => .ok []
  | k + 1, s =>
    let t := s.headD endToken
    if t.isFinish then .ok []
    else
      match readStatement depth depth 0 s with
      | .error f => .error ⟨if f.token.isFinish then t.line else f.token.line⟩
      | .ok (a, rest) => do
        pure (a ++ (← readStatements depth k rest))

/-- The program that a text is. -/
def program : Parser := fun text =>
  let s := tokens lexis text
  readStatements (30 * s.length + 30) (s.length + 1) s

end ApiCanon.Python
