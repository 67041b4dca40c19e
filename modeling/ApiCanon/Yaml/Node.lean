import ApiCanon.Yaml.Token

/-!
# Nodes of YAML

The tree of a document: scalars, sequences, mappings and aliases.  Where a document cannot be read
any further, a broken node stands in its tree, and nothing follows it.

An anchor is numbered by the count of distinct names in front of it.  Two anchors may have one
number when a name is used again; an alias then stands for the later of them.
-/

namespace ApiCanon.Yaml

/-- A node of a document. -/
inductive Node where
  | scalar (start : Mark) (tag? : Option String) (plain : Bool) (text : String)
  | sequence (start : Mark) (tag? : Option String) (items : List Node)
  | mapping (start : Mark) (tag? : Option String) (entries : List (Node × Node))
  | aliasOf (anchor : Nat)
  | broken (e : ReadError)
  deriving Repr, Inhabited

/-- A scalar that is not written. -/
def Node.missing (m : Mark) : Node := .scalar m none true ""

/-- Tokens under way to a tree. -/
structure Builder where
  tokens : List Token
  /-- The names of anchors with their numbers. -/
  names : List (String × Nat)
  /-- The nodes of anchors by their numbers, in the order of the text. -/
  anchors : List (Nat × Node)
  /-- The handles of tags with what they stand for. -/
  handles : List (String × String)
  broken : Bool
  deriving Inhabited

/-- A reader of tokens. -/
abbrev Build := StateM Builder

namespace Build

def endToken : Token := ⟨.streamEnd, .zero, .zero⟩

def peek : Build Token := do
  pure ((← get).tokens.headD endToken)

def skip : Build Unit := modify fun b => { b with tokens := b.tokens.tail }

/-- Whether the document cannot be read any further. -/
def isBroken : Build Bool := do
  pure (← get).broken

/-- Ends the document with an error. -/
def cut (e : ReadError) : Build Node := do
  modify fun b => { b with broken := true }
  pure (.broken e)

/-- Ends the document at a token that does not fit. -/
def unexpected (t : Token) (problem : Problem) (activity : Activity) (start : Mark) :
    Build Node :=
  cut <| .malformed <| match t.kind with
    | .broken f => f
    | _ => ⟨problem, t.start, 0, some (activity, start)⟩

/-- Gives a name a number, in its place if the name is there. -/
def renumber (name : String) (n : Nat) : List (String × Nat) → List (String × Nat)
  | [] => [(name, n)]
  | (k, m) :: r => if k = name then (k, n) :: r else (k, m) :: renumber name n r

/-- Notes an anchor in front of its node; gives back its number. -/
def openAnchor (name : String) : Build Nat := do
  let b ← get
  let n := b.names.length
  set { b with names := renumber name n b.names }
  pure n

/-- Puts a node under the number of its anchor, in front of the anchors inside of it. -/
def closeAnchor (outside : Nat) (number? : Option Nat) (x : Node) : Build Unit :=
  match number? with
  | none => pure ()
  | some n => modify fun b =>
    { b with anchors := b.anchors.take outside ++ (n, x) :: b.anchors.drop outside }

end Build

open Build

/-! ## Properties -/

/-- What stands in front of a node. -/
structure Properties where
  start : Mark
  anchor? : Option String
  tag? : Option (String × String × Mark)

/-- Reads an anchor and a tag, in either order. -/
def readProperties : Build Properties := do
  let t ← peek
  match t.kind with
  | .anchor name =>
    skip
    let u ← peek
    match u.kind with
    | .tag h s =>
      skip
      pure ⟨t.start, some name, some (h, s, u.start)⟩
    | _ => pure ⟨t.start, some name, none⟩
  | .tag h s =>
    skip
    let u ← peek
    match u.kind with
    | .anchor name =>
      skip
      pure ⟨t.start, some name, some (h, s, t.start)⟩
    | _ => pure ⟨t.start, none, some (h, s, t.start)⟩
  | _ => pure ⟨t.start, none, none⟩

/-- The tag of a node in full; none if its handle is unknown. -/
def resolveTag (handles : List (String × String)) (handle suffix : String) : Option String :=
  if handle.isEmpty then some suffix else (handles.lookup handle).map (· ++ suffix)

/-! ## Nodes -/

mutual

/-- Reads a node.  Blocks may begin in `block`, and a sequence that is not indented in
`indentless`. -/
def readNode : Nat → Bool → Bool → Build Node
  | 0, _, _ => pure default
  | n + 1, block, indentless => do
    let t ← peek
    match t.kind with
    | .aliasOf name =>
      skip
      match (← get).names.lookup name with
      | some k => pure (.aliasOf k)
      | none => cut (.unknownAnchor t.start)
    | _ =>
      let p ← readProperties
      match p.tag? with
      | none => readContent n block indentless p none
      | some (handle, suffix, place) =>
        let after ← peek
        match after.kind, resolveTag (← get).handles handle suffix with
        | .broken f, _ => cut (.malformed f)
        | _, some tag => readContent n block indentless p (some tag)
        | _, none => cut (.malformed ⟨.unknownHandle, place, 0, some (.node, p.start)⟩)

/-- Reads a node behind its properties. -/
def readContent : Nat → Bool → Bool → Properties → Option String → Build Node
  | 0, _, _, _, _ => pure default
  | n + 1, block, indentless, p, tag? => do
    let t ← peek
    let outside := (← get).anchors.length
    let anchored (read : Build Node) : Build Node := do
      let number? ← match p.anchor? with
        | some name => do pure (some (← openAnchor name))
        | none => pure none
      let x ← read
      closeAnchor outside number? x
      pure x
    match t.kind with
    | .scalar plain text =>
      skip
      anchored (pure (.scalar p.start tag? plain text))
    | .flowSequenceStart =>
      skip
      anchored do pure (.sequence p.start tag? (← readFlowItems n true t.start))
    | .flowMappingStart =>
      skip
      anchored do pure (.mapping p.start tag? (← readFlowEntries n true t.start))
    | .blockEntry =>
      if indentless then
        anchored do pure (.sequence p.start tag? (← readIndentlessItems n))
      else readNothing p tag? block t
    | .blockSequenceStart =>
      if block then
        skip
        anchored do pure (.sequence p.start tag? (← readBlockItems n t.start))
      else readNothing p tag? block t
    | .blockMappingStart =>
      if block then
        skip
        anchored do pure (.mapping p.start tag? (← readBlockEntries n t.start))
      else readNothing p tag? block t
    | _ => readNothing p tag? block t

/-- Reads the node of properties without content; without properties something is missing. -/
def readNothing (p : Properties) (tag? : Option String) (block : Bool) (t : Token) :
    Build Node := do
  match t.kind with
  | .broken f => cut (.malformed f)
  | _ =>
    let outside := (← get).anchors.length
    if p.anchor?.isNone && tag?.isNone then
      unexpected t .missingContent (if block then .blockNode else .flowNode) p.start
    else
      let x := Node.scalar p.start tag? true ""
      match p.anchor? with
      | some name =>
        let k ← openAnchor name
        closeAnchor outside (some k) x
        pure x
      | none => pure x

/-- Reads the items of a sequence in a block, with its end. -/
def readBlockItems : Nat → Mark → Build (List Node)
  | 0, _ => pure []
  | n + 1, start => do
    let t ← peek
    match t.kind with
    | .blockEntry =>
      skip
      let u ← peek
      let x ← match u.kind with
        | .blockEntry | .blockEnd => pure (Node.missing t.stop)
        | _ => readNode n true false
      if ← isBroken then pure [x] else pure (x :: (← readBlockItems n start))
    | .blockEnd =>
      skip
      pure []
    | _ => pure [← unexpected t .missingDash .blockSequence start]

/-- Reads the items of a sequence that is not indented. -/
def readIndentlessItems : Nat → Build (List Node)
  | 0 => pure []
  | n + 1 => do
    let t ← peek
    match t.kind with
    | .blockEntry =>
      skip
      let u ← peek
      let x ← match u.kind with
        | .blockEntry | .key | .value | .blockEnd => pure (Node.missing t.stop)
        | _ => readNode n true false
      if ← isBroken then pure [x] else pure (x :: (← readIndentlessItems n))
    | .broken f => pure [← cut (.malformed f)]
    | _ => pure []

/-- Reads the entries of a mapping in a block, with its end. -/
def readBlockEntries : Nat → Mark → Build (List (Node × Node))
  | 0, _ => pure []
  | n + 1, start => do
    let t ← peek
    match t.kind with
    | .key =>
      skip
      let u ← peek
      let k ← match u.kind with
        | .key | .value | .blockEnd => pure (Node.missing t.stop)
        | _ => readNode n true true
      if ← isBroken then pure [(k, k)]
      else
        let v ← readBlockValue n
        if ← isBroken then pure [(k, v)] else pure ((k, v) :: (← readBlockEntries n start))
    | .blockEnd =>
      skip
      pure []
    | _ =>
      let x ← unexpected t .missingKey .blockMapping start
      pure [(x, x)]

/-- Reads the value of an entry in a block. -/
def readBlockValue : Nat → Build Node
  | 0 => pure default
  | n + 1 => do
    let t ← peek
    match t.kind with
    | .value =>
      skip
      let u ← peek
      match u.kind with
      | .key | .value | .blockEnd => pure (Node.missing t.stop)
      | _ => readNode n true true
    | .broken f => cut (.malformed f)
    | _ => pure (Node.missing t.start)

/-- Reads the items of a sequence in brackets, with its end. -/
def readFlowItems : Nat → Bool → Mark → Build (List Node)
  | 0, _, _ => pure []
  | n + 1, first, start => do
    let t ← peek
    match t.kind with
    | .flowSequenceEnd =>
      skip
      pure []
    | .flowEntry =>
      if first then readFlowItem n start
      else
        skip
        readFlowItem n start
    | _ =>
      if first then readFlowItem n start
      else pure [← unexpected t .missingBracket .flowSequence start]

/-- Reads an item of a sequence in brackets, perhaps a single entry, and those behind it. -/
def readFlowItem : Nat → Mark → Build (List Node)
  | 0, _ => pure []
  | n + 1, start => do
    let t ← peek
    match t.kind with
    | .flowSequenceEnd =>
      skip
      pure []
    | _ =>
      let x ← match t.kind with
        | .key => do
          skip
          let e ← readSingleEntry n
          pure (Node.mapping t.start none [e])
        | _ => readNode n false false
      if ← isBroken then pure [x] else pure (x :: (← readFlowItems n false start))

/-- Reads a single entry in a sequence.  A mark that stands in the place of its key is dropped. -/
def readSingleEntry : Nat → Build (Node × Node)
  | 0 => pure default
  | n + 1 => do
    let t ← peek
    let k ← match t.kind with
      | .value | .flowEntry | .flowSequenceEnd => do
        skip
        pure (Node.missing t.stop)
      | _ => readNode n false false
    if ← isBroken then pure (k, k)
    else
      let u ← peek
      match u.kind with
      | .value =>
        skip
        let w ← peek
        match w.kind with
        | .flowEntry | .flowSequenceEnd => pure (k, Node.missing w.start)
        | _ => pure (k, ← readNode n false false)
      | .broken f => pure (k, ← cut (.malformed f))
      | _ => pure (k, Node.missing u.start)

/-- Reads the entries of a mapping in braces, with its end. -/
def readFlowEntries : Nat → Bool → Mark → Build (List (Node × Node))
  | 0, _, _ => pure []
  | n + 1, first, start => do
    let t ← peek
    match t.kind with
    | .flowMappingEnd =>
      skip
      pure []
    | .flowEntry =>
      if first then readFlowEntry n start
      else
        skip
        readFlowEntry n start
    | _ =>
      if first then readFlowEntry n start
      else
        let x ← unexpected t .missingBrace .flowMapping start
        pure [(x, x)]

/-- Reads an entry of a mapping in braces, and those behind it.  A node without a mark for a key has
no value. -/
def readFlowEntry : Nat → Mark → Build (List (Node × Node))
  | 0, _ => pure []
  | n + 1, start => do
    let t ← peek
    match t.kind with
    | .flowMappingEnd =>
      skip
      pure []
    | .key =>
      skip
      let u ← peek
      let k ← match u.kind with
        | .value | .flowEntry | .flowMappingEnd => pure (Node.missing u.start)
        | _ => readNode n false false
      if ← isBroken then pure [(k, k)]
      else
        let v ← readFlowValue n
        if ← isBroken then pure [(k, v)] else pure ((k, v) :: (← readFlowEntries n false start))
    | _ =>
      let k ← readNode n false false
      if ← isBroken then pure [(k, k)]
      else
        let u ← peek
        match u.kind with
        | .broken f =>
          let v ← cut (.malformed f)
          pure [(k, v)]
        | _ => pure ((k, Node.missing u.start) :: (← readFlowEntries n false start))

/-- Reads the value of an entry in braces. -/
def readFlowValue : Nat → Build Node
  | 0 => pure default
  | n + 1 => do
    let t ← peek
    match t.kind with
    | .value =>
      skip
      let u ← peek
      match u.kind with
      | .flowEntry | .flowMappingEnd => pure (Node.missing u.start)
      | _ => readNode n false false
    | .broken f => cut (.malformed f)
    | _ => pure (Node.missing t.start)

end

/-! ## Documents -/

/-- The first document of a text. -/
structure Document where
  /-- The tree; none if the text has no document. -/
  root? : Option Node
  anchors : List (Nat × Node)
  /-- Why nothing can be read behind the tree. -/
  fault? : Option Fault
  /-- Whether anything else follows the document. -/
  continued : Bool
  deriving Inhabited

/-- The handles that are known without a directive. -/
def defaultHandles : List (String × String) := [("!", "!"), ("!!", "tag:yaml.org,2002:")]

/-- Reads directives up to another token, with the handles they declare. -/
def readDirectives : List Token → Bool → List (String × String) →
    Except Fault (List Token × List (String × String))
  | [], _, handles => .ok ([], handles)
  | t :: r, versioned, handles =>
    match t.kind with
    | .versionDirective major minor =>
      if versioned then .error ⟨.repeatedVersion, t.start, 0, none⟩
      else if major == 1 && (minor == 1 || minor == 2) then readDirectives r true handles
      else .error ⟨.unknownVersion, t.start, 0, none⟩
    | .tagDirective handle uri =>
      if (handles.lookup handle).isSome then .error ⟨.repeatedHandle, t.start, 0, none⟩
      else readDirectives r versioned (handles ++ [(handle, uri)])
    | .broken f => .error f
    | _ => .ok (t :: r, handles)

/-- What follows the tree of a document. -/
def Document.ofRest (root : Node) (b : Builder) : Document :=
  if b.broken then ⟨some root, b.anchors, none, false⟩
  else
    match b.tokens.head?.map Token.kind with
    | some (.broken f) => ⟨some root, b.anchors, some f, false⟩
    | _ =>
      match (b.tokens.dropWhile fun t => t.kind == .documentEnd).head?.map Token.kind with
      | some .streamEnd => ⟨some root, b.anchors, none, false⟩
      | _ => ⟨some root, b.anchors, none, true⟩

/-- A document that breaks off in front of its tree. -/
def Document.ofFault (f : Fault) : Document := ⟨some (.broken (.malformed f)), [], none, false⟩

/-- Reads the first document from its tokens. -/
def Document.ofTokens (tokens : List Token) : Document :=
  let fuel := 4 * tokens.length + 4
  let tree (read : Build Node) (rest : List Token) (handles : List (String × String)) : Document :=
    let (root, b) := read.run ⟨rest, [], [], handles ++ defaultHandles, false⟩
    .ofRest root b
  match tokens.head?.map Token.kind with
  | none => ⟨none, [], none, false⟩
  | some .streamEnd => ⟨none, [], none, false⟩
  | some (.broken f) => .ofFault f
  | some (.versionDirective _ _) | some (.tagDirective _ _) | some .documentStart =>
    match readDirectives tokens false [] with
    | .error f => .ofFault f
    | .ok (rest, handles) =>
      match rest with
      | [] => ⟨none, [], none, false⟩
      | t :: r =>
        match t.kind with
        | .documentStart =>
          match r.head?.map Token.kind with
          | some (.versionDirective _ _) | some (.tagDirective _ _) | some .documentStart
          | some .documentEnd | some .streamEnd =>
            tree (do pure (Node.missing (← peek).start)) r handles
          | _ => tree (readNode fuel true false) r handles
        | _ => .ofFault ⟨.missingDocumentStart, t.start, 0, none⟩
  | some _ => tree (readNode fuel true false) tokens []

end ApiCanon.Yaml
