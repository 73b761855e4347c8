import InlineIcons.FileTree.Basic

/-!
Watching folders for changes: the roots that are watched, each of them once, and what can happen.
-/
namespace InlineIcons

inductive WatchError where
  /-- A root cannot be watched because it is not there. -/
  | noRoot (root : Path)
  deriving DecidableEq, Repr

def WatchError.message : WatchError → String
  | noRoot root => "Watch notification error: " ++ root.text ++ ": No path was found."

inductive WatchEvent where
  | modified (path : Path)
  | deleted (path : Path)
  | failed (message : String)
  deriving DecidableEq, Repr

namespace WatchEvent

def path? : WatchEvent → Option Path
  | modified p | deleted p => some p
  | failed _ => none

def message? : WatchEvent → Option String
  | failed message => some message
  | _ => none

def isError (e : WatchEvent) : Bool := e.message?.isSome

end WatchEvent

/-- The roots to watch, in the order in which they were added. -/
structure Watcher where
  roots : List Path

namespace Watcher

def ofRoot (root : Path) : Watcher := ⟨[root]⟩

/-- Adds a root unless it is there under this or another spelling. -/
def addRoot (w : Watcher) (root : Path) : Watcher :=
  if w.roots.any root.same then w else ⟨w.roots ++ [root]⟩

def start (w : Watcher) (t : FileTree) : Except WatchError Unit :=
  match w.roots.find? fun root => !t.has root with
  | some root => .error (.noRoot root)
  | none => .ok ()

end Watcher
end InlineIcons
