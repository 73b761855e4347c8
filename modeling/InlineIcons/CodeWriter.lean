/-!
Program text with indentation. Text is described by steps, some of which hold further steps, and is
written by running them: a scope is closed where its steps end, also when they leave early, so every
scope that is opened is closed once and at the level where it was opened.
-/
namespace InlineIcons

/-- A step of writing. `leave` gives up all that is left to write, apart from closing what is open. -/
inductive Step where
  | append (text : String)
  | line (text : String)
  | emptyLine
  | startLine
  | endLine
  | scope (header : String) (body : List Step)
  | indented (body : List Step)
  | leave
  deriving Repr, Inhabited

structure CodeWriter where
  text : String
  level : Nat
  deriving DecidableEq, Repr, Inhabited

namespace CodeWriter

def start : CodeWriter := ⟨"", 0⟩

def append (w : CodeWriter) (text : String) : CodeWriter := { w with text := w.text ++ text }

def indentation (level : Nat) : String := String.ofList (List.replicate (4 * level) ' ')

def startLine (w : CodeWriter) : CodeWriter := w.append (indentation w.level)

def endLine (w : CodeWriter) : CodeWriter := w.append "\n"

def line (w : CodeWriter) (text : String) : CodeWriter := (w.startLine.append text).endLine

def opening (header : String) : String := if header.isEmpty then "\x7b" else header ++ " \x7b"

def openScope (w : CodeWriter) (header : String) : CodeWriter :=
  let w := w.line (opening header)
  { w with level := w.level + 1 }

def closeScope (w : CodeWriter) : CodeWriter :=
  { w with level := w.level - 1 }.line "\x7d"

def indent (w : CodeWriter) : CodeWriter := { w with level := w.level + 1 }

def dedent (w : CodeWriter) : CodeWriter := { w with level := w.level - 1 }

/-- The outcome of some steps: the writer after them, the writer after each change on the way, and
whether they were left early. -/
structure Run where
  writer : CodeWriter
  log : List CodeWriter
  left : Bool
  deriving DecidableEq, Repr

def Run.one (w : CodeWriter) : Run := ⟨w, [w], false⟩

mutual
def step (w : CodeWriter) : Step → Run
  | .append text => .one (w.append text)
  | .line text => .one (w.line text)
  | .emptyLine => .one w.endLine
  | .startLine => .one w.startLine
  | .endLine => .one w.endLine
  | .scope header body =>
    let opened := w.openScope header
    let inner := opened.run body
    let closed := inner.writer.closeScope
    ⟨closed, opened :: inner.log ++ [closed], inner.left⟩
  | .indented body =>
    let opened := w.indent
    let inner := opened.run body
    let closed := inner.writer.dedent
    ⟨closed, opened :: inner.log ++ [closed], inner.left⟩
  | .leave => ⟨w, [], true⟩

/-- Runs steps in order, up to one that leaves. -/
def run (w : CodeWriter) : List Step → Run
  | [] => ⟨w, [], false⟩
  | s :: rest =>
    let r := w.step s
    if r.left then r
    else
      let more := r.writer.run rest
      ⟨more.writer, r.log ++ more.log, more.left⟩
end

/-- What a writer holds beyond an earlier one. -/
def added (earlier later : CodeWriter) : String :=
  String.ofList (later.text.toList.drop earlier.text.toList.length)

/-- The levels and the added texts of a log, from a given writer on. -/
def changes (w : CodeWriter) : List CodeWriter → List (Nat × String)
  | [] => []
  | next :: rest => (next.level, added w next) :: changes next rest

def write (steps : List Step) : String := (start.run steps).writer.text

end CodeWriter
end InlineIcons
