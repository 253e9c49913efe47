/-!
# Files

What is needed of a file system, and the parts of a path. A path has names
between slashes; a point stands for the directory it is in.
-/

namespace SchemaLint

structure Files (m : Type → Type) where
  isFile : String → m Bool
  isDir : String → m Bool
  /-- The text of a file, if it can be read and is text. -/
  read : String → m (Option String)

namespace Path

def split : List Char → List (List Char)
  | [] => [[]]
  | c :: rest =>
    if c = '/' then [] :: split rest
    else
      match split rest with
      | [] => [[c]]
      | part :: parts => (c :: part) :: parts

def parts (path : String) : List String := (split path.toList).map String.ofList

def fileName? (path : String) : Option String := do
  let name ←
    ((parts path).filter fun part => part != "" && part != ".").getLast?
  if name == ".." then none else some name

/-- What follows the last point of the last name, if something comes before
it. -/
def extension? (path : String) : Option String := do
  let reversed := (← fileName? path).toList.reverse
  let ending := reversed.takeWhile (· != '.')
  match reversed.drop ending.length with
  | _ :: _ :: _ => some (String.ofList ending.reverse)
  | _ => none

def join (dir name : String) : String :=
  if dir == "" || dir.endsWith "/" then dir ++ name else dir ++ "/" ++ name

end Path

end SchemaLint
