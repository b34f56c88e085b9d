/-!
Places in a tree of files and what stands at them. A place is the list of names
on the way to it, the nearest first, so that its tail is the directory around
it. A tree held in memory answers what stands at a place, and follows a typed
path step by step from a directory: every step but the last has to arrive at a
directory, and no path leads out at the top.
-/

namespace SegmentQuota

abbrev Place := List String

inductive Entry where
  | text (content : String)
  | closed
  deriving DecidableEq

namespace Place

def pathText (top : String) (place : Place) : String :=
  "/".intercalate (top :: place.reverse)

/-- The nearest directory, from `here` up, in which something of the given name stands. -/
def nearestWith (name : String) (peek : Place → Option Entry) : Place → Option Place
  | [] => if (peek [name]).isSome then some [] else none
  | inner :: outer =>
      if (peek (name :: inner :: outer)).isSome then some (inner :: outer)
      else nearestWith name peek outer

def names (path : String) : List String := (path.toList.splitOn '/').map String.ofList

def step? (here : Place) (name : String) : Option Place :=
  if name = "" ∨ name = "." then some here
  else if name = ".." then
    match here with
    | [] => none
    | _ :: outer => some outer
  else some (name :: here)

end Place

abbrev FileTree := List (Place × Entry)

namespace FileTree

def peek (tree : FileTree) : Place → Option Entry
  | [] => some .closed
  | place => tree.lookup place

def follow (tree : FileTree) : Place → List String → Option Place
  | here, [] => some here
  | here, name :: rest =>
      match tree.peek here with
      | some .closed =>
          match here.step? name with
          | some next => follow tree next rest
          | none => none
      | _ => none

def typed? (tree : FileTree) (here : Place) (path : String) : Option Entry :=
  if path.startsWith "/" ∨ path = "" then none
  else (tree.follow here (Place.names path)).bind tree.peek

def grow (tree : FileTree) : Place → List String → FileTree × Place
  | here, [] => (tree, here)
  | here, name :: rest =>
      let next := (here.step? name).getD here
      if (tree.peek next).isSome then grow tree next rest
      else grow ((next, .closed) :: tree) next rest

def withDirectory (tree : FileTree) (path : String) : FileTree × Place :=
  tree.grow [] (Place.names path)

def withFile (tree : FileTree) (path content : String) : FileTree :=
  let names := Place.names path
  let (grown, directory) := tree.grow [] names.dropLast
  (names.getLastD "" :: directory, .text content) :: grown

end FileTree

end SegmentQuota
