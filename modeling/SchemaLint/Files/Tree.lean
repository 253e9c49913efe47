import SchemaLint.Files.Basic

/-!
# Files in memory

A tree of directories and files under one directory, from which paths start. The
directories above it are there too, but nothing else in them is known.
-/

namespace SchemaLint

structure FileTree where
  /-- Directories by the names that lead to them. Those that hold a file need
  not be listed. -/
  dirs : List (List String) := []
  files : List (List String × ByteArray) := []

namespace FileTree

def names (path : String) : List String :=
  (Path.parts path).filter fun part => part != "" && part != "."

def ofEntries (dirs : List String) (files : List (String × ByteArray)) :
    FileTree :=
  ⟨dirs.map names, files.map fun (path, content) => (names path, content)⟩

/-- Whether a place is the directory from which paths start, or one above it. -/
def isAbove (place : List String) : Bool := place.all (· == "..")

def hasDir (tree : FileTree) (place : List String) : Bool :=
  isAbove place || tree.dirs.any place.isPrefixOf ||
    tree.files.any fun (file, _) =>
    place.isPrefixOf file && place.length < file.length

def parent (place : List String) : List String :=
  if isAbove place then place ++ [".."] else place.dropLast

/-- Where a path leads from a directory. Only the last part may be no
directory. -/
def follow (tree : FileTree) (place : List String) :
    List String → Option (List String)
  | [] => some place
  | part :: rest =>
    if tree.hasDir place then
      if part == "" || part == "." then tree.follow place rest
      else if part == ".." then tree.follow (parent place) rest
      else tree.follow (place ++ [part]) rest
    else none

/-- Where a path leads. The empty path and those that start with a slash lead
nowhere. -/
def find? (tree : FileTree) (path : String) : Option (List String) :=
  if path == "" || path.startsWith "/" then none
  else tree.follow [] (Path.parts path)

def content? (tree : FileTree) (path : String) : Option ByteArray := do
  tree.files.lookup (← tree.find? path)

def toFiles (tree : FileTree) : Files Id where
  isFile path := (tree.content? path).isSome
  isDir path := (tree.find? path).any tree.hasDir
  read path := (tree.content? path).bind String.fromUTF8?

end FileTree

end SchemaLint
