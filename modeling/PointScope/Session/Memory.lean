import PointScope.Session.Host

/-!
Surroundings in memory: a tree of files, the text printed so far and the events logged so far. A
session in memory is a function, so it can be studied like any other.

A directory is there if a file is in it. The root is the directory that a session runs in.
-/

namespace PointScope.Session

/-- Files, printed text and logged events. -/
structure Memory where
  /-- Files by the names on the way to them. -/
  files : List (List String × ByteArray) := []
  printed : String := ""
  /-- The events logged, the last one first. -/
  noted : List Notice := []

namespace Memory

inductive Entry where
  | file (content : ByteArray)
  | directory
  /-- Nothing is there, but a file could be. -/
  | vacant
  /-- No file can be there. -/
  | unreachable (fault : FileFault)

def isDirectory (s : Memory) (path : List String) : Bool :=
  path.isEmpty || s.files.any fun (p, _) => path.isPrefixOf p && path != p

/-- What is at a path, given the names that are still to be followed from a directory. -/
def follow (s : Memory) (at_ : List String) : List String → Entry
  | [] => .directory
  | "" :: rest | "." :: rest => s.follow at_ rest
  | ".." :: rest => s.follow at_.dropLast rest
  | name :: rest =>
    let path := at_ ++ [name]
    if s.isDirectory path then s.follow path rest
    else
      match s.files.lookup path, rest with
      | some content, [] => .file content
      | some _, _ => .unreachable .notDirectory
      | none, [] => .vacant
      | none, [""] => .unreachable .isDirectory
      | none, _ => .unreachable .notFound

/-- The names on the way to a path, without those that lead nowhere else. -/
def normalize (at_ : List String) : List String → List String
  | [] => at_
  | "" :: rest | "." :: rest => normalize at_ rest
  | ".." :: rest => normalize at_.dropLast rest
  | name :: rest => normalize (at_ ++ [name]) rest

def entry (s : Memory) (path : String) : Entry := s.follow [] (path.splitOn "/")

def content (s : Memory) (path : String) : Except FileFault ByteArray :=
  match s.entry path with
  | .file content => .ok content
  | .directory => .error .isDirectory
  | .vacant => .error .notFound
  | .unreachable .isDirectory => .error .notFound
  | .unreachable fault => .error fault

def put (s : Memory) (path : String) (content : ByteArray) : Memory :=
  let names := normalize [] (path.splitOn "/")
  { s with files := (names, content) :: s.files.filter (·.1 != names) }

def overwrite (s : Memory) (path : String) (content : ByteArray) : Except FileFault Memory :=
  match s.entry path with
  | .file _ | .vacant => .ok (s.put path content)
  | .directory => .error .isDirectory
  | .unreachable fault => .error fault

def host : Host (StateM Memory) where
  read path := fun s => (s.content path, s)
  write path content := fun s =>
    match s.overwrite path content with
    | .ok s => (.ok (), s)
    | .error fault => (.error fault, s)
  print text := modify fun s => { s with printed := s.printed ++ text }
  note event := modify fun s => { s with noted := event :: s.noted }

end Memory

end PointScope.Session
