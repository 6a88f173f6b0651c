/-!
# Paths

A path is a text of names with slashes between them.

* `Path.names`: all names of a path, and `Path.components`: those that matter.
* `Path.parent`, `Path.ancestors`: the paths of the folders that lead to a path.
* `Path.joined`: a path that starts from a folder.
* `Path.withEnding`: a path whose last name goes on with a point and an ending.
-/

namespace FleetMatch.Path

/-- The path does not start from the working folder. -/
def isAbsolute (path : String) : Bool := path.toList.head? == some '/'

/-- The pieces between the slashes of a path. -/
def pieces : List Char → List (List Char)
  | [] => [[]]
  | c :: rest =>
    if c = '/' then [] :: pieces rest
    else
      match pieces rest with
      | first :: others => (c :: first) :: others
      | [] => [[c]]

/-- The names of a path. -/
def names (path : String) : List String :=
  ((pieces path.toList).filter (!·.isEmpty)).map String.ofList

/-- The names of a path without those that mean the folder they stand in, except at the start. -/
def components (path : String) : List String :=
  let others := (names path).filter (· != ".")
  if (names path).head? = some "." && !isAbsolute path then "." :: others else others

/-- The path with the given components. -/
def ofComponents (absolute : Bool) (cs : List String) : String :=
  (if absolute then "/" else "") ++ "/".intercalate cs

/-- The path of the folder in which a path lies. -/
def parent (path : String) : String :=
  ofComponents (isAbsolute path) (components path).dropLast

/-- The folders that lead to a path, the nearest first. -/
def ancestors (path : String) : List String :=
  let cs := components path
  ((List.range cs.length).drop 1).reverse.map fun n =>
    ofComponents (isAbsolute path) (cs.take n)

/-- A path that starts from a folder. -/
def joined (folder path : String) : String :=
  if isAbsolute path || folder.isEmpty then path
  else if folder.toList.getLast? = some '/' then folder ++ path
  else folder ++ "/" ++ path

/-- The path whose last name goes on with a point and an ending, if the last name is one. -/
def withEnding (ending path : String) : Option String :=
  match (components path).getLast? with
  | none => none
  | some last =>
    if last = "." || last = ".." then none
    else some (ofComponents (isAbsolute path) (components path) ++ "." ++ ending)

/-- What stands after the last point of the last name of a path.  A name that starts with its only
point has no such ending. -/
def ending? (path : String) : Option String :=
  let name := (path.toList.reverse.takeWhile (· != '/')).reverse
  let stem := (name.reverse.dropWhile (· != '.')).drop 1
  if stem.isEmpty then none
  else some (String.ofList (name.reverse.takeWhile (· != '.')).reverse)

end FleetMatch.Path
