import SchemaDocs.Text.Basic
/-!
# Paths

A path is relative, or absolute with one or two slashes at its start, and has components.  Empty
components and single dots are dropped when a path is read; double dots stay.  The empty path names
the current directory and is written as a dot.
-/

namespace SchemaDocs

structure Path where
  /-- The slashes at the start: none, one or two. -/
  root : Text
  components : List Text
  deriving DecidableEq

namespace Path

/-- The component that stands for the directory above. -/
def up : Text := ".."

/-- The slashes at the start of a path: exactly two have a meaning of their own, and any other
number counts as one. -/
def rootOf (t : Text) : Text :=
  match (t.takeWhile fun c => c == ('/' : CodePoint)).length with
  | 0 => []
  | 2 => "//"
  | _ => "/"

def ofText (t : Text) : Path where
  root := rootOf t
  components := (Text.split '/' t).filter fun part => !part.isEmpty && part != ("." : Text)

def text (p : Path) : Text :=
  if p.root.isEmpty && p.components.isEmpty then "." else p.root ++ Text.join "/" p.components

/-- A path inside another one; an absolute path stands for itself. -/
def join (p q : Path) : Path :=
  if q.root.isEmpty then { p with components := p.components ++ q.components } else q

def parent (p : Path) : Path :=
  { p with components := p.components.dropLast }

/-- The last component; empty if there is none. -/
def name (p : Path) : Text :=
  p.components.getLast?.getD []

/-- A path with U+0000 in it names nothing. -/
def hasNull (p : Path) : Bool :=
  p.components.any fun part => part.any fun c => c.value == 0

end Path

end SchemaDocs
