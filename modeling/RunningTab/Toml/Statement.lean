import RunningTab.Toml.Quoted

/-!
# The lines of a document

A document is a list of statements: headers of tables, headers of elements of arrays of tables, and
keys with their values. Values nest, arrays and braces in arrays and braces, at most
`RunningTab.Toml.depthLimit` deep; a dotted key has at most as many parts.
-/

namespace RunningTab.Toml

/-- How deep values nest, and how many parts a key has, at most. -/
def depthLimit : Nat := 79

/-! ### What stands between -/

/-- The rest behind spaces and tabs. -/
def skipSpaces (t : Text) : Text :=
  t.dropWhile fun c => c == ' ' || c == '\t'

/-- The rest behind a comment, if one begins here. -/
def skipComment (t : Text) : Text :=
  if t.head? = some '#' then t.dropWhile isPrintable else t

/-- The rest behind the end of a line, with blanks and a comment before it. The end of the text
ends a line. -/
def endOfLine? (t : Text) : Option Text :=
  match skipComment (skipSpaces t) with
  | [] => some []
  | t => afterLineEnd? t

/-- The rest behind blanks, line ends and whole comments; `inComment` tells whether a comment has
begun. -/
def skipLines? (inComment : Bool) : Text → Option Text
  | [] => some []
  | '\r' :: '\n' :: t => skipLines? false t
  | c :: t =>
    if c = '\n' then skipLines? false t
    else if inComment then (if isPrintable c then skipLines? true t else none)
    else if c = ' ' ∨ c = '\t' then skipLines? false t
    else if c = '#' then skipLines? true t
    else some (c :: t)

/-! ### Keys -/

/-- The characters of keys without quotes. -/
def isKeyChar (c : Char) : Bool :=
  isLetter c || Text.isDigit c || c == '-' || c == '_'

/-- One part of a key. -/
def keyPart? (t : Text) : Option (Text × Text) :=
  match t with
  | '"' :: t => basic? t
  | '\'' :: t => literal? t
  | t =>
    let run := t.takeWhile isKeyChar
    if run = [] then none else some (run, t.dropWhile isKeyChar)

/-- A key of at most so many parts with dots between them. -/
def keyWithin : Nat → Text → Option (List Text × Text)
  | 0, _ => none
  | n + 1, t => do
    let (part, t) ← keyPart? (skipSpaces t)
    match skipSpaces t with
    | '.' :: t =>
      let (parts, t) ← keyWithin n t
      return (part :: parts, t)
    | t => return ([part], t)

/-- A key, with the blanks around its parts. -/
def key? (t : Text) : Option (List Text × Text) :=
  keyWithin depthLimit t

/-! ### Values -/

/-- The elements of an array behind its opening bracket, read one by one with `read`. The number
bounds how many there are. -/
def elementsWithin (read : Text → Option (Node × Text)) : Nat → Text →
    Option (List Node × Text)
  | 0, _ => none
  | n + 1, t => do
    match ← skipLines? false t with
    | ']' :: t => return ([], t)
    | t =>
      let (element, t) ← read t
      match ← skipLines? false t with
      | ',' :: t =>
        let (elements, t) ← elementsWithin read n t
        return (element :: elements, t)
      | ']' :: t => return ([element], t)
      | _ => none

/-- A key, its value read with `read`, and the blanks behind them. -/
def pair? (read : Text → Option (Node × Text)) (t : Text) :
    Option ((List Text × Node) × Text) := do
  let (key, t) ← key? t
  let t ← expect? '=' t
  let (node, t) ← read (skipSpaces t)
  return ((key, node), skipSpaces t)

/-- The pairs of a table in braces from the first one on. The number bounds how many there are. -/
def pairsWithin (read : Text → Option (Node × Text)) : Nat → Text →
    Option (List (List Text × Node) × Text)
  | 0, _ => none
  | n + 1, t => do
    let (pair, t) ← pair? read t
    match t with
    | ',' :: t =>
      let (pairs, t) ← pairsWithin read n t
      return (pair :: pairs, t)
    | '}' :: t => return ([pair], t)
    | _ => none

/-- The table that pairs in braces define. -/
def inlineTable? (pairs : List (List Text × Node)) : Option Node :=
  (pairs.foldlM (fun es pair => Entries.define .ofInlineKey pair.1 pair.2 .inline es) []).map
    (.table .inline)

/-- A value that nests at most so deep, and the rest. -/
def valueWithin : Nat → Text → Option (Node × Text)
  | depth, t =>
    match depth, t with
    | d + 1, '[' :: t =>
      (elementsWithin (valueWithin d) (t.length + 1) t).map fun r => (.array r.1, r.2)
    | d + 1, '{' :: t =>
      match skipSpaces t with
      | '}' :: t => some (.table .inline [], t)
      | t => do
        let (pairs, t) ← pairsWithin (valueWithin d) (t.length + 1) t
        return (← inlineTable? pairs, t)
    | _, t =>
      match t with
      | '"' :: _ | '\'' :: _ => (quoted? t).map fun r => (.text r.1, r.2)
      | t => scalar? t

/-- **A value**, and the rest. -/
def value? (t : Text) : Option (Node × Text) :=
  valueWithin depthLimit t

/-! ### Statements -/

/-- A line of a document that says something. -/
inductive Statement where
  | header (path : List Text)
  | elementHeader (path : List Text)
  | pair (key : List Text) (node : Node)

/-- The statement at the head of a text, and the lines behind it. -/
def statement? : Text → Option (Statement × Text)
  | '[' :: '[' :: t => do
    let (path, t) ← key? t
    let t ← endOfLine? (← expect? ']' (← expect? ']' t))
    return (.elementHeader path, t)
  | '[' :: t => do
    let (path, t) ← key? t
    let t ← endOfLine? (← expect? ']' t)
    return (.header path, t)
  | t => do
    let ((key, node), t) ← pair? value? t
    return (.pair key node, ← endOfLine? t)

/-- The statements of a text with at most so many lines. -/
def statementsWithin : Nat → Text → Option (List Statement)
  | 0, _ => none
  | n + 1, t =>
    match skipSpaces t with
    | [] => some []
    | '#' :: t => (endOfLine? ('#' :: t)).bind (statementsWithin n)
    | '\n' :: t => statementsWithin n t
    | '\r' :: t => (expect? '\n' t).bind (statementsWithin n)
    | t => do
      let (statement, t) ← statement? t
      return statement :: (← statementsWithin n t)

/-- **The statements of a text.** A byte order mark may come first. -/
def statements? (t : Text) : Option (List Statement) :=
  let t := if t.head? = some '\uFEFF' then t.drop 1 else t
  statementsWithin (t.length + 1) t

end RunningTab.Toml
