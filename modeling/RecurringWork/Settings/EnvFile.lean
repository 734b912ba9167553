import RecurringWork.Settings.Variables

/-!
# RecurringWork.Settings.EnvFile

**Variables from a file of assignments.** The file is read in two steps. Its physical
lines are first joined into logical ones, since a quoted value may run over the end of
a line (`logicalLines`); then each logical line is read as an assignment, a blank or a
comment (`assignment`). The first line that is neither ends the reading.

A value may be quoted in two ways. Within single quotes everything stands for itself;
elsewhere a backslash takes the meaning from the character behind it and a dollar sign
inserts the value of a variable, that of the environment if it has one and else that
of an earlier line.

There are two ways to use a file. `Settings.ofFile` takes it as the settings, which
the environment completes: a later line beats an earlier one, and any line beats the
environment. `Settings.ofEnvironment` takes it as an addition to the environment,
which beats every line, as does an earlier line a later one; what cannot be read is
passed over.
-/

namespace RecurringWork

namespace EnvFile

/-- A line that cannot be read: the text at fault, and how far reading came. -/
structure BadLine where
  text : List Char
  index : Nat
  deriving DecidableEq, Repr

def BadLine.message (b : BadLine) : String :=
  "Error parsing line: '" ++ String.ofList b.text ++ "', error at line index: " ++ toString b.index

/-- The length of a text in bytes. -/
def byteLength (cs : List Char) : Nat := cs.foldr (fun c n => c.utf8Size + n) 0

/-! ### Logical lines -/

/-- Where the scanner of physical lines is. -/
inductive Scanner
  /-- Outside quotes, behind anything but a blank. -/
  | plain
  /-- Outside quotes, behind a blank. -/
  | blank
  /-- Outside quotes, behind a backslash. -/
  | escape
  /-- Inside double quotes. -/
  | weak
  | weakEscape
  /-- Inside single quotes. -/
  | strong
  | strongEscape
  deriving DecidableEq, Repr

namespace Scanner

/-- The character that opens quotes or escapes, outside them. -/
def opening (c : Char) : Scanner :=
  if c = '\\' then escape else if c = '"' then weak else if c = '\'' then strong else plain

/-- The scanner behind one more character. -/
def next : Scanner → Char → Scanner
  -- The end of a line is no blank: a value that ends there is complete.
  | plain, c => if Text.isBlank c ∧ c ≠ '\n' ∧ c ≠ '\r' then blank else opening c
  | blank, c => opening c
  | escape, _ => plain
  | weak, c => if c = '\\' then weakEscape else if c = '"' then plain else weak
  | weakEscape, _ => weak
  | strong, c => if c = '\\' then strongEscape else if c = '\'' then plain else strong
  | strongEscape, _ => strong

/-- Scan a physical line: the scanner at its end, or what precedes the comment that
ends it. -/
def line : Scanner → List Char → Scanner ⊕ List Char
  | s, [] => .inl s
  | s, c :: cs =>
      if s = blank ∧ c = '#' then .inr []
      else
        match line (s.next c) cs with
        | .inl s => .inl s
        | .inr before => .inr (c :: before)

end Scanner

/-- A logical line. -/
inductive Line
  | text (cs : List Char)
  /-- The file ends inside quotes or behind a blank. -/
  | open (bad : BadLine)
  deriving DecidableEq, Repr

/-- The text without the end of its last line. -/
def chomp (cs : List Char) : List Char :=
  match cs.reverse with
  | '\n' :: '\r' :: rest => rest.reverse
  | '\n' :: rest => rest.reverse
  | _ => cs

/-- Physical lines, each with the character that ends it. `current` is what has been
read of the line, backwards. -/
def physicalLines : List Char → List Char → List (List Char)
  | [], [] => []
  | current, [] => [current.reverse]
  | current, c :: cs =>
      if c = '\n' then (c :: current).reverse :: physicalLines [] cs
      else physicalLines (c :: current) cs

/-- Join physical lines. `held` is what has been read of a logical line. A comment
that begins the line leaves nothing of it; one further back leaves what precedes it. -/
def logicalLines : List Char → Scanner → List (List Char) → List Line
  | held, s, [] => if s = .plain then [] else [.open ⟨held, byteLength held⟩]
  | held, s, l :: ls =>
      if (Text.trimStart (held ++ l)).head? = some '#' then .text [] :: logicalLines [] .plain ls
      else
        match s.line l with
        | .inr before => .text (held ++ before) :: logicalLines [] .plain ls
        | .inl .plain => .text (chomp (held ++ l)) :: logicalLines [] .plain ls
        | .inl s => logicalLines (held ++ l) s ls

/-! ### Values -/

/-- The insertion of a variable that is under way. -/
inductive Insertion
  | none
  /-- Behind a dollar sign. -/
  | plain
  /-- Behind a dollar sign and an opening brace. -/
  | braced
  deriving DecidableEq, Repr

structure ValueState where
  strong : Bool
  weak : Bool
  escaped : Bool
  /-- Behind a blank that ended the value. -/
  ended : Bool
  /-- Behind the sign that starts a comment. -/
  comment : Bool
  insertion : Insertion
  /-- The name to be inserted so far. -/
  name : List Char
  /-- The value so far. -/
  output : List Char
  deriving DecidableEq, Repr

namespace ValueState

def start : ValueState := ⟨false, false, false, false, false, .none, [], []⟩

def push (s : ValueState) (c : Char) : ValueState := { s with output := s.output ++ [c] }

def insert (vars : Settings.Variables) (s : ValueState) : ValueState :=
  { s with
    output := s.output ++ ((vars (String.ofList s.name)).getD "").toList
    name := []
    insertion := .none }

/-- A character while an insertion is under way. -/
def duringInsertion (vars : Settings.Variables) (s : ValueState) (c : Char) : ValueState :=
  if Text.isAlphanumeric c then { s with name := s.name ++ [c] }
  else if s.insertion = .braced then
    if c = '\x7d' then s.insert vars else { s with name := s.name ++ [c] }
  else if c = '\x7b' ∧ s.name = [] then { s with insertion := .braced }
  -- One insertion can follow right behind another.
  else if c = '$' then { s.insert vars with insertion := .plain }
  else (s.insert vars).push c

def ordinary (s : ValueState) (c : Char) : ValueState :=
  if s.weak then
    if c = '"' then { s with weak := false }
    else if c = '\\' then { s with escaped := true }
    else s.push c
  else if c = '\'' then { s with strong := true }
  else if c = '"' then { s with weak := true }
  else if c = '\\' then { s with escaped := true }
  else if c = ' ' ∨ c = '\t' then { s with ended := true }
  else s.push c

def escapedChar? (c : Char) : Option Char :=
  if c = '\\' ∨ c = '\'' ∨ c = '"' ∨ c = '$' ∨ c = ' ' then some c
  else if c = 'n' then some '\n'
  else none

/-- The state behind one more character, unless the character cannot stand here. -/
def next? (vars : Settings.Variables) (s : ValueState) (c : Char) : Option ValueState :=
  if s.comment then some s
  else if s.ended then
    if c = ' ' ∨ c = '\t' then some s
    else if c = '#' then some { s with comment := true }
    else none
  else if s.escaped then
    (escapedChar? c).map fun e => { s with escaped := false }.push e
  -- Single quotes come before insertions: inside them a dollar sign is a character.
  else if s.strong then some (if c = '\'' then { s with strong := false } else s.push c)
  else if s.insertion ≠ .none then some (s.duringInsertion vars c)
  else if c = '$' then some { s with insertion := .plain }
  else some (s.ordinary c)

/-- The value is not finished. -/
def isOpen (s : ValueState) : Bool := s.insertion == .braced || s.strong || s.weak

end ValueState

/-- Read the rest of the value `whole`, `index` characters of which lie behind. -/
def valueFrom (vars : Settings.Variables) (whole : List Char) :
    Nat → ValueState → List Char → Except BadLine ValueState
  | _, s, [] => .ok s
  | index, s, c :: cs =>
      match s.next? vars c with
      | some s => valueFrom vars whole (index + 1) s cs
      | none => .error ⟨whole, index⟩

/-- The value that a text denotes. -/
def value (vars : Settings.Variables) (whole : List Char) : Except BadLine String := do
  let s ← valueFrom vars whole 0 .start whole
  if s.isOpen then .error ⟨whole, byteLength whole - 1⟩
  else pure (String.ofList (s.insert vars).output)

/-! ### Assignments -/

/-- The reader of a line: what is left, and how many bytes lie behind. -/
structure Cursor where
  rest : List Char
  position : Nat

namespace Cursor

/-- Move past the characters in front that are in a class. -/
def skip (inClass : Char → Bool) (c : Cursor) : Cursor :=
  ⟨c.rest.dropWhile inClass, c.position + byteLength (c.rest.takeWhile inClass)⟩

def isNameStart (c : Char) : Bool := c.isAlpha || c == '_'

def isNameChar (c : Char) : Bool := c.isAlphanum || c == '_' || c == '.'

/-- A name in front. -/
def name (line : List Char) (c : Cursor) : Except BadLine (String × Cursor) :=
  if (c.rest.head?.map isNameStart).getD false then
    .ok (String.ofList (c.rest.takeWhile isNameChar), c.skip isNameChar)
  else .error ⟨line, c.position⟩

/-- An equals sign in front. -/
def equals (line : List Char) (c : Cursor) : Except BadLine Cursor :=
  match c.rest with
  | '=' :: rest => .ok ⟨rest, c.position + 1⟩
  | _ => .error ⟨line, c.position⟩

def skipBlanks (c : Cursor) : Cursor := c.skip Text.isBlank

end Cursor

/-- The name in front of the equals sign, and what follows the sign. The word
`export` may precede the name, and is a name itself if an equals sign follows. -/
def target (line : List Char) (c : Cursor) : Except BadLine (String × Cursor) := do
  let (name, c) ← c.name line
  let c := c.skipBlanks
  if name = "export" then
    match c.equals line with
    | .ok c => pure (name, c)
    -- It precedes the name proper.
    | .error _ =>
        let (name, c) ← c.name line
        let c ← c.skipBlanks.equals line
        pure (name, c)
  else
    let c ← c.equals line
    pure (name, c)

/-- The assignment of a logical line; blank lines and comments have none. -/
def assignment (vars : Settings.Variables) (line : List Char) :
    Except BadLine (Option (String × String)) :=
  let c := (Cursor.mk (Text.trimEnd line) 0).skipBlanks
  if c.rest.head?.all (· == '#') then .ok none
  else do
    let (name, c) ← target line c
    let c := c.skipBlanks
    if c.rest.head?.all (· == '#') then pure (some (name, ""))
    else
      let v ← value vars c.rest
      pure (some (name, v))

/-- How the reading of a file ended. -/
inductive Ending
  | complete
  | bad (line : BadLine)
  deriving DecidableEq, Repr

/-- The value that the first assignment of a name gives. -/
def firstValue? (assigned : List (String × String)) (name : String) : Option String :=
  (assigned.find? fun a => a.1 == name).map Prod.snd

/-- The value that the last assignment of a name gives. -/
def lastValue? (assigned : List (String × String)) (name : String) : Option String :=
  firstValue? assigned.reverse name

/-- Read logical lines after those that gave the assignments `done`. `environment`
says which variables are set after given assignments. -/
def assignmentsFrom (environment : List (String × String) → Settings.Variables) :
    List (String × String) → List Line → List (String × String) × Ending
  | done, [] => (done, .complete)
  | done, .open bad :: _ => (done, .bad bad)
  | done, .text cs :: ls =>
      let vars name := environment done name <|> lastValue? done name
      match assignment vars cs with
      | .error bad => (done, .bad bad)
      | .ok none => assignmentsFrom environment done ls
      | .ok (some a) => assignmentsFrom environment (done ++ [a]) ls

/-- The assignments of a file up to the first line that cannot be read. -/
def assignments (environment : List (String × String) → Settings.Variables) (cs : List Char) :
    List (String × String) × Ending :=
  assignmentsFrom environment [] (logicalLines [] .plain (physicalLines [] cs))

end EnvFile

namespace Settings

/-- The settings in the file called `path`, completed by the environment. The content
is missing if there is no such file. -/
def ofFile (path : String) (content : Option String) (environment : Variables) :
    Except Error Settings :=
  match content with
  | none =>
      .error (.configuration ("Failed to read " ++ path ++
        ": No such file or directory (os error 2)"))
  | some text =>
      match EnvFile.assignments (fun _ => environment) text.toList with
      | (_, .bad line) =>
          .error (.configuration ("Invalid line in " ++ path ++ ": " ++ line.message))
      | (assigned, .complete) =>
          ofVariables fun name => EnvFile.lastValue? assigned name <|> environment name

/-- The file without the mark that some editors put in front. -/
def withoutMark (cs : List Char) : List Char :=
  match cs with
  | '\ufeff' :: rest => rest
  | cs => cs

/-- The settings in the environment, to which a file adds variables that are not
set. -/
def ofEnvironment (content : Option String) (environment : Variables) :
    Except Error Settings :=
  let after (done : List (String × String)) : Variables := fun name =>
    environment name <|> EnvFile.firstValue? done name
  match content.map fun text => EnvFile.assignments after (withoutMark text.toList) with
  | some (assigned, _) => ofVariables (after assigned)
  | none => ofVariables environment

end Settings

end RecurringWork
