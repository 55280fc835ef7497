import FileMagic.Stream

/-! A directory of files, and what a path leads to in it. -/

namespace FileMagic

/-- Files by their paths from the directory, each a list of names. -/
structure Directory where
  files : List (List Text × Bytes)

namespace Directory

/-- The names of a path. -/
def names : Text → List Text
  | [] => [[]]
  | c :: rest =>
    if c = '/' then [] :: names rest
    else match names rest with
      | [] => [[c]]
      | n :: ns => (c :: n) :: ns

def ofFiles (files : List (Text × Bytes)) : Directory :=
  ⟨files.map fun (name, content) => (names name, content)⟩

/-- The file that the names lead to from a place in the directory. What is above the
directory, or beside it, is not known to exist. -/
def walk (d : Directory) (place : List Text) : List Text → Except FileFault Bytes
  | [] => .error .directory
  | name :: rest =>
    if name = [] ∨ name = ['.'] then walk d place rest
    else if name = ['.', '.'] then
      match place with
      | [] => if rest.all (· = []) then .error .directory else .error .missing
      | place => walk d place.dropLast rest
    else
      let place := place ++ [name]
      match d.files.lookup place with
      | some content => if rest.isEmpty then .ok content else .error .notDirectory
      | none =>
        if d.files.any fun f => place.isPrefixOf f.1 then walk d place rest
        else .error .missing

def find (d : Directory) (path : Text) : Except FileFault Bytes :=
  match path with
  | [] => .error .missing
  | '/' :: rest => if rest.all (· = '/') then .error .directory else .error .missing
  | path => d.walk [] (names path)

end Directory
end FileMagic
