import FleetMatch.Folder.Path

/-!
# The working folder

The files and folders that the program sees and makes.  What lies outside the working folder is
taken to be there and to be a folder; nothing is kept of it.

* `Folder.read`: the contents of a file.
* `Folder.make`: makes one folder, `Folder.makeAll` also those that lead to it.
* `Folder.append`: opens a file for writing at its end, which makes it if it is not there.
* `Folder.listing?`: the names in a folder.
-/

namespace FleetMatch

/-- What keeps a path from being used. -/
inductive PathFault where
  | missing
  | exists
  | notFolder
  | isFolder
  | nameTooLong
  | notText
  deriving DecidableEq, Repr

/-- The fault in words. -/
def PathFault.message : PathFault → String
  | .missing => "No such file or directory (os error 2)"
  | .exists => "File exists (os error 17)"
  | .notFolder => "Not a directory (os error 20)"
  | .isFolder => "Is a directory (os error 21)"
  | .nameTooLong => "File name too long (os error 36)"
  | .notText => "file name contained an unexpected NUL byte"

/-- What stands at a path. -/
inductive FolderEntry where
  | folder
  | file (contents : List UInt8)

/-- What lies in the working folder, by the names that lead there. -/
structure Folder where
  entries : List (List String × FolderEntry)

namespace Folder

/-- What stands at a place. -/
def entry? (f : Folder) (place : List String) : Option FolderEntry :=
  if place.isEmpty then some .folder else f.entries.lookup place

/-- Puts something at a place where nothing stands. -/
def put (f : Folder) (place : List String) (entry : FolderEntry) : Folder :=
  if (f.entry? place).isSome then f else ⟨f.entries ++ [(place, entry)]⟩

/-- Puts a file at a place, in folders that are there from then on. -/
def putFile (f : Folder) (place : List String) (contents : List UInt8) : Folder :=
  let folders := (List.range place.length).map place.take
  (folders.foldl (fun f inner => f.put inner .folder) f).put place (.file contents)

/-- The folder that holds some files. -/
def ofFiles (files : List (String × List UInt8)) : Folder :=
  files.foldl (fun f (path, contents) =>
    f.putFile ((Path.names path).filter (· != ".")) contents) ⟨[]⟩

/-- The greatest length of a name and of a path in bytes. -/
def nameLimit : Nat := 255

/-- See `nameLimit`. -/
def pathLimit : Nat := 4095

/-- Goes on from a place to the folder with a name; there is no place outside the working folder. -/
def enter (f : Folder) (place : Option (List String)) (name : String) :
    Except PathFault (Option (List String)) :=
  if nameLimit < name.utf8ByteSize then .error .nameTooLong
  else
    match place with
    | none => .ok none
    | some names =>
      if name = "." then .ok place
      else if name = ".." then .ok (if names.isEmpty then none else some names.dropLast)
      else
        match f.entry? (names ++ [name]) with
        | some .folder => .ok (some (names ++ [name]))
        | some (.file _) => .error .notFolder
        | none => .error .missing

/-- The place of the folder that some names lead to. -/
def walk (f : Folder) (absolute : Bool) (names : List String) :
    Except PathFault (Option (List String)) :=
  names.foldlM f.enter (if absolute then none else some [])

/-- Where a path leads to. -/
inductive Target where
  /-- A folder that the path names as one that is there. -/
  | folder
  /-- Somewhere outside the working folder. -/
  | outside
  /-- A place inside the working folder. -/
  | inside (place : List String)

/-- Where a path leads to. -/
def target (f : Folder) (path : String) : Except PathFault Target :=
  if path.toList.contains '\x00' then .error .notText
  else if pathLimit < path.utf8ByteSize then .error .nameTooLong
  else
    let names := Path.names path
    match names.getLast? with
    | none => if path.isEmpty then .error .missing else .ok .folder
    | some last =>
      match f.walk (Path.isAbsolute path) names.dropLast with
      | .error e => .error e
      | .ok place =>
        if last = "." || last = ".." then .ok .folder
        else if nameLimit < last.utf8ByteSize then .error .nameTooLong
        else
          match place with
          | none => .ok .outside
          | some names => .ok (.inside (names ++ [last]))

/-- The path leads to a folder that is there. -/
def isFolder (f : Folder) (path : String) : Bool :=
  match f.walk (Path.isAbsolute path) (Path.names path) with
  | .ok _ => true
  | .error _ => false

/-- The contents of the file at a path. -/
def read (f : Folder) (path : String) : Except PathFault (List UInt8) :=
  match f.target path with
  | .error e => .error e
  | .ok .folder => .error .isFolder
  | .ok .outside => .error .missing
  | .ok (.inside place) =>
    match f.entry? place with
    | some (.file contents) =>
      if path.toList.getLast? = some '/' then .error .notFolder else .ok contents
    | some .folder => .error .isFolder
    | none => .error .missing

/-- The contents of the file at a path, if there is one. -/
def contents? (f : Folder) (path : String) : Option (List UInt8) := (f.read path).toOption

/-- Makes a folder. -/
def make (f : Folder) (path : String) : Except PathFault Folder :=
  match f.target path with
  | .error e => .error e
  | .ok .folder => .error .exists
  | .ok .outside => .error .exists
  | .ok (.inside place) =>
    if (f.entry? place).isSome then .error .exists else .ok (f.put place .folder)

/-- Makes a folder if it is not there; whatever else keeps it from being made is returned beside the
unchanged folder. -/
def makeOnce (f : Folder) (path : String) : Folder × Option PathFault :=
  match f.make path with
  | .ok f => (f, none)
  | .error e => (f, if e = .exists && f.isFolder path then none else some e)

/-- Makes folders one after the other, up to the first that cannot be made. -/
def makeEach (f : Folder) : List String → Folder × Option PathFault
  | [] => (f, none)
  | path :: rest =>
    match f.makeOnce path with
    | (f, none) => makeEach f rest
    | (f, some e) => (f, some e)

/-- The paths that have to be made, the deepest last, and the fault that makes trying useless. -/
def toMake (f : Folder) : List String → List String → List String × Option PathFault
  | [], later => (later, none)
  | path :: rest, later =>
    match f.makeOnce path with
    | (_, none) => (path :: later, none)
    | (_, some .missing) => toMake f rest (path :: later)
    | (_, some e) => ([], some e)

/-- Makes a folder and those that lead to it, as far as they are not there. -/
def makeAll (f : Folder) (path : String) : Folder × Option PathFault :=
  if path.isEmpty then (f, none)
  else
    match f.toMake (path :: Path.ancestors path) [] with
    | (_, some e) => (f, some e)
    | (paths, none) => f.makeEach paths

/-- Opens a file for writing at its end. -/
def append (f : Folder) (path : String) : Except PathFault Folder :=
  match f.target path with
  | .error e => .error e
  | .ok .folder => .error .isFolder
  | .ok .outside => .ok f
  | .ok (.inside place) =>
    match f.entry? place with
    | some .folder => .error .isFolder
    | _ => .ok (f.put place (.file []))

/-- The names in a folder of the working folder, in order. -/
def listing? (f : Folder) (name : String) : Option (List String) :=
  match f.entry? [name] with
  | some .folder =>
    some ((f.entries.filterMap fun (place, _) =>
      match place with
      | [first, second] => if first = name then some second else none
      | _ => none).mergeSort fun a b => (compare a b).isLE)
  | _ => none

end Folder

end FleetMatch
