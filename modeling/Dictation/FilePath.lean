import Dictation.Text.Basic

/-!
# File paths

A path is its root (nothing, one slash, or just two slashes) and the names after it.  Empty names
and single points drop out; a path without root and names is a point.
-/

namespace Dictation

structure FilePath where
  root : Text := []
  names : List Text := []
deriving DecidableEq, Repr

namespace FilePath

/-- the pieces between the separators -/
def split (sep : Char) : Text → List Text
  | [] => [[]]
  | c :: r =>
    if c == sep then [] :: split sep r
    else
      match split sep r with
      | [] => [[c]]
      | n :: ns => (c :: n) :: ns

def rootOf (t : Text) : Text :=
  let slashes := t.takeWhile (· == '/')
  if slashes.length = 2 then slashes else slashes.take 1

def isName (n : Text) : Bool := n != [] && n != ['.']

def ofText (t : Text) : FilePath := ⟨rootOf t, (split '/' t).filter isName⟩

def child (p : FilePath) (name : Text) : FilePath := { p with names := p.names ++ [name] }

def descend (p : FilePath) (names : List String) : FilePath :=
  { p with names := p.names ++ names.map String.toList }

/-- the directory that the last name is in -/
def parent (p : FilePath) : FilePath := { p with names := p.names.dropLast }

theorem parent_child (p : FilePath) (name : Text) : (p.child name).parent = p := by
  simp [parent, child]

def text (p : FilePath) : Text :=
  if p.root.isEmpty && p.names.isEmpty then ['.'] else p.root ++ Text.joinWith ['/'] p.names

example : (ofText "a//b/./c/".toList).text = "a/b/c".toList := by decide
example : (ofText "".toList).text = ".".toList := by decide
example : (ofText "///a".toList).text = "/a".toList := by decide

end FilePath
end Dictation
