import CommitPipeline.Store

/-!
# Disks

A disk is a tree of directories and files. It is walked along routes: a route is the text of a
path, taken apart at its slashes. An empty name and a dot stay where they are, two dots go one
directory up, and each of the three asks for a directory to stand in; so a slash at the end asks
for a directory too.

The module introduces:

* `Disk.walk` — where a route leads;
* `Disk.makeDirectory` — makes the directory at the end of a route;
* `Disk.makeDirectories` — makes what is missing on the way as well;
* `Disk.writeFile` — writes a file.
-/

namespace CommitPipeline

/-- The names on the way from the root down to a file or directory. -/
abbrev Path := List String

/-- A path as it is written. -/
structure Route where
  /-- The directory it starts from. -/
  start : Path
  /-- What stands between its slashes. -/
  names : List String

namespace Route

/-- The routes to the directories above the end of a route, the lowest one first. What stays where
it is does not count as a step. -/
def above (r : Route) : List Route :=
  let names := r.names.filter fun name => name ≠ "" && name ≠ "."
  (List.range names.length).reverse.map fun count => { r with names := names.take count }

/-- The route to a name in the directory at the end of a route. -/
def child (r : Route) (name : String) : Route := { r with names := r.names ++ [name] }

end Route

/-- What a file holds. -/
inductive FileBody where
  /-- Bytes that are no database, unless there are none. -/
  | plain (bytes : Bytes)
  /-- A database. -/
  | database (store : Store)
  deriving DecidableEq

/-- A tree of directories and files. -/
structure Disk where
  /-- The directory that routes start from if their text does not begin with a slash. -/
  home : Path := []
  /-- The directories besides the root. -/
  directories : List Path := []
  /-- The files. -/
  files : List (Path × FileBody) := []
  /-- The files of databases that are open. -/
  locked : List Path := []

namespace Disk

/-- The most bytes that a name takes. -/
def maxNameBytes : Nat := 255

/-- The most bytes that a path takes, counted from the root. -/
def maxPathBytes : Nat := 4095

/-- A disk that holds nothing but the way to its home. -/
def withHome (home : Path) : Disk where
  home
  directories := (List.range home.length).map fun count => home.take (count + 1)

/-- What the file at a path holds. -/
def file? (d : Disk) (p : Path) : Option FileBody :=
  (d.files.find? (fun entry => entry.1 = p)).map Prod.snd

/-- Whether there is a file at a path. -/
def isFile (d : Disk) (p : Path) : Bool := (d.file? p).isSome

/-- Whether there is a directory at a path. -/
def isDirectory (d : Disk) (p : Path) : Bool := p = [] || d.directories.contains p

/-- Whether there is anything at a path. -/
def hasPath (d : Disk) (p : Path) : Bool := d.isDirectory p || d.isFile p

/-- The route of a text, which must neither be too long nor hold a zero character. -/
def route (d : Disk) (text : String) : Except IoCause Route :=
  let start := if text.toList.head? = some '/' then [] else d.home
  let bytes := start.foldl (fun bytes name => bytes + name.utf8ByteSize + 1) text.utf8ByteSize
  if text.toList.contains '\x00' then .error .zeroInName
  else if maxPathBytes ≤ bytes then .error .nameTooLong
  else .ok { start, names := text.splitOn "/" }

/-- Walks from a path along names. The last name need not exist. -/
def walkFrom (d : Disk) (here : Path) : List String → Except IoCause Path
  | [] => .ok here
  | name :: rest =>
    if d.isFile here then .error .notADirectory
    else if !d.isDirectory here then .error .notFound
    else if name = "" || name = "." then d.walkFrom here rest
    else if name = ".." then d.walkFrom here.dropLast rest
    else if maxNameBytes < name.utf8ByteSize then .error .nameTooLong
    else d.walkFrom (here ++ [name]) rest

/-- Where a route leads. -/
def walk (d : Disk) (r : Route) : Except IoCause Path := d.walkFrom r.start r.names

/-- Whether a route leads to anything that satisfies a test. -/
def leadsTo (d : Disk) (test : Path → Bool) (r : Route) : Bool :=
  match d.walk r with
  | .ok p => test p
  | .error _ => false

/-- Whether there is anything at the end of the route of a text. -/
def has (d : Disk) (text : String) : Bool :=
  match d.route text with
  | .ok r => d.leadsTo d.hasPath r
  | .error _ => false

/-- Makes the directory at the end of a route, in one that exists. -/
def makeDirectory (d : Disk) (r : Route) : Except IoCause Disk :=
  -- Slashes at the end are left out: what they ask for is what is made.
  match r.names.reverse.dropWhile (· = "") with
  | [] => .error .fileExists
  | name :: above => do
    let here ← d.walk ({ r with names := above.reverse : Route }.child ".")
    if name = "." || name = ".." then throw .fileExists
    if maxNameBytes < name.utf8ByteSize then throw .nameTooLong
    if d.hasPath (here ++ [name]) then throw .fileExists
    return { d with directories := (here ++ [name]) :: d.directories }

/-- Makes the directory at the end of the first of the routes, and those at the ends of the others,
which lie above it, as far as they are missing. It does not matter if a directory is there already.
What was made before a failure stays. -/
def makeFirst : List Route → Act IoCause Disk Unit
  | [], d => (.ok (), d)
  | r :: above, d =>
    match d.makeDirectory r with
    | .ok d => (.ok (), d)
    | .error .notFound =>
      match makeFirst above d with
      | (.error cause, d) => (.error cause, d)
      | (.ok (), d) =>
        match d.makeDirectory r with
        | .ok d => (.ok (), d)
        | .error cause => (if d.leadsTo d.isDirectory r then .ok () else .error cause, d)
    | .error cause => (if d.leadsTo d.isDirectory r then .ok () else .error cause, d)

/-- Makes the directory at the end of a route with all directories above it. -/
def makeDirectories (r : Route) : Act IoCause Disk Unit := makeFirst (r :: r.above)

/-- Puts a file at a path. -/
def putFile (d : Disk) (p : Path) (body : FileBody) : Disk :=
  { d with files := (p, body) :: d.files.filter (fun entry => entry.1 ≠ p) }

/-- Writes a file, over the one that was there, making the directories above it. Nothing is
written if the text does not lead to where a file can be. -/
def writeFile (d : Disk) (text : String) (body : FileBody) : Disk :=
  match d.route text with
  | .error _ => d
  | .ok r =>
    let (_, d) := makeFirst r.above d
    match d.walk r with
    | .error _ => d
    | .ok p => if d.isDirectory p then d else d.putFile p body

end Disk

end CommitPipeline
