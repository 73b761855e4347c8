import InlineIcons.Path

/-!
A text file that was found below a root.
-/
namespace InlineIcons

structure TextFile where
  /-- Where it is, as the root with the path below it. -/
  path : Path
  /-- Its path below the root; empty where the root is the file. -/
  relative : Path
  text : String
  deriving DecidableEq, Repr

end InlineIcons
