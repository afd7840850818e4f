import TunnelFleet.Dict
import TunnelFleet.Failure
import TunnelFleet.Text.Basic

namespace TunnelFleet

/-- What a file holds: text, or bytes that are none. -/
inductive Contents where
  | text (s : String)
  | bytes (raw : List UInt8)
deriving DecidableEq

def Contents.ofBytes (raw : List UInt8) : Contents :=
  match String.fromUTF8? ⟨raw.toArray⟩ with
  | some s => .text s
  | none => .bytes raw

def Contents.read : Contents → Except HostFault String
  | .text s => .ok s
  | .bytes _ => .error .notText

/-- A directory with files in it. Nothing else is on the disk but the null device. -/
structure Disk where
  directory : String
  files : Dict Contents := .empty

namespace Disk

def names (path : String) : List String :=
  ((Text.splitAt '/' path.toList).map String.ofList).filter fun name => name != "" && name != "."

inductive Place where
  | directory
  | file (name : String)
  | beyond (name : String)
  | nowhere
  | null
  | tooLong
deriving DecidableEq

def nameLimit : Nat :=
  255

def pathLimit : Nat :=
  4096

/-- Follows a path on the way to the directory with the files and into it: `base` is the names that
lead there, `here` those of the way so far. -/
def walk (base : List String) (slash : Bool) : List String → List String → Place
  | _, [] => .directory
  | here, name :: rest =>
      if nameLimit < name.utf8ByteSize then .tooLong
      else if (here ++ [name]).isPrefixOf base then walk base slash (here ++ [name]) rest
      else if name = ".." then walk base slash here.dropLast rest
      else if here = base then if rest.isEmpty && !slash then .file name else .beyond name
      else .nowhere

/-- Follows a path from a directory that is apart from the one with the files. Nothing is found on
it but the directories above. -/
def walkApart : List String → Place
  | [] => .directory
  | name :: rest =>
      if nameLimit < name.utf8ByteSize then .tooLong
      else if name = ".." then walkApart rest
      else .nowhere

def isAbsolute (path : String) : Bool :=
  path.toList.head? == some '/'

def nullDevice : List String :=
  ["dev", "null"]

/-- A path that ends in a slash goes beyond the file that it names. One that begins at another
place than the directory with the files does not lead there. -/
def place (d : Disk) (path : String) : Place :=
  let slash := path.toList.getLast? = some '/'
  if pathLimit ≤ path.utf8ByteSize then .tooLong
  else if isAbsolute path && names path == nullDevice && !slash then .null
  else if isAbsolute path = isAbsolute d.directory then
    walk (names d.directory) slash [] (names path)
  else walkApart (names path)

def read (d : Disk) (path : String) : Except HostFault String :=
  match d.place path with
  | .directory => .error .isDirectory
  | .file name =>
      match d.files.get? name with
      | some contents => contents.read
      | none => .error .notFound
  | .beyond name =>
      match d.files.get? name with
      | some _ => .error .notDirectory
      | none => .error .notFound
  | .nowhere => .error .notFound
  | .null => .ok ""
  | .tooLong => .error .nameTooLong

def write (d : Disk) (path text : String) : Except HostFault Unit × Disk :=
  match d.place path with
  | .directory => (.error .isDirectory, d)
  | .file name => (.ok (), { d with files := d.files.insert name (.text text) })
  | .beyond name =>
      (.error (if (d.files.get? name).isSome then .notDirectory else .notFound), d)
  | .nowhere => (.error .notFound, d)
  | .null => (.ok (), d)
  | .tooLong => (.error .nameTooLong, d)

end Disk

end TunnelFleet
