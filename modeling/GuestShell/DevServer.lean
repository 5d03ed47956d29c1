import GuestShell.Disk.Error
import GuestShell.Text.Blank
import GuestShell.Text.Utf8

/-!
# The development server

The server shows the files below one directory, its *root*, to a browser.  Every answer says that the
page is isolated from other origins, because without that the browser gives it no shared memory, and
that it is not to be kept.

A target is mapped to a path by going on from the root, component by component.  Only names lead
further, and a target with two dots for a component has no path at all.  So no path leads out of the
root.
-/

namespace GuestShell

/-- How the server is started. -/
structure DevServer where
  port : Nat
  root : String
  deriving DecidableEq

namespace DevServer

/-! ## Starting -/

/-- The value of decimal digits, with a plus sign in front or not. -/
def decimal? (s : String) : Option Nat :=
  let digits := if Text.startsWith s "+" then s.toList.drop 1 else s.toList
  if digits = [] || !digits.all Char.isDigit then none
  else some (digits.foldl (fun n c => n * 10 + (c.toNat - 0x30)) 0)

/-- A port number. -/
def port? (s : String) : Option Nat := (decimal? s).filter (· < UInt16.size)

/-- The server that the arguments describe: the port, and the root. -/
def ofArgs (args : List String) : DevServer where
  port := (args[0]?.bind port?).getD 8080
  root := args[1]?.getD "www"

/-- Where the server listens. -/
def listensAt (port : String) : String := "0.0.0.0:" ++ port

/-- What the server says when it has started. -/
def banner (root port : String) : String :=
  "wasmterm dev server\n  root: " ++ root ++ "\n  http://localhost:" ++ port ++ "\n"

/-- What the server says when it cannot listen, before the reason. -/
def complaint (port : String) : String := "failed to start server on " ++ listensAt port

/-! ## From targets to paths -/

/-- Whether a character separates the pieces of a target. -/
def isSlash (c : Char) : Bool := c == '/'

/-- The page that is shown for the root. -/
def indexPage : String := "index.html"

/-- The part of a target that names a file. -/
def filePart (target : String) : String :=
  String.ofList (target.toList.takeWhile (· != '?'))

/-- What is named, without the slashes in front; if that is nothing, the index page. -/
def named (file : String) : List Char :=
  let cs := file.toList.dropWhile isSlash
  if cs = [] then indexPage.toList else cs

/-- What a path is made of. -/
inductive Component where
  /-- A slash in front. -/
  | top
  /-- A single dot in front. -/
  | here
  /-- Two dots. -/
  | parent
  | name (s : String)
  deriving DecidableEq

/-- What a piece between slashes stands for; an empty one and a single dot stand for nothing. -/
def Component.ofPiece? (piece : List Char) : Option Component :=
  if piece = [] ∨ piece = ['.'] then none
  else if piece = ['.', '.'] then some .parent
  else some (.name (String.ofList piece))

/-- The components of a path, in their order. -/
def components (path : List Char) : List Component :=
  let pieces := Text.splitOn isSlash path
  let front :=
    if path.head? = some '/' then [.top]
    else if pieces.head? = some ['.'] then [.here]
    else []
  front ++ pieces.filterMap Component.ofPiece?

/-- A path that goes on with another one, which stands alone if it begins with a slash. -/
def extended (path more : String) : String :=
  if Text.startsWith more "/" then more
  else if path = "" || Text.endsWith path "/" then path ++ more
  else path ++ "/" ++ more

/-- Goes on from a path, component by component.  Only names lead further; what would lead up or
elsewhere is refused. -/
def descend : (path : String) → List Component → Option String
  | path, [] => some path
  | path, .name s :: rest => descend (extended path s) rest
  | path, .here :: rest => descend path rest
  | _, .top :: _ | _, .parent :: _ => none

/-- The path of a file below a root. -/
def path? (root file : String) : Option String :=
  descend root (components (named file))

/-! ## Answers -/

/-- What follows the last dot of the last name in a path.  A dot that begins the name does not
count. -/
def ending? (path : String) : Option String :=
  let name := Text.lastPiece isSlash path.toList
  let ending := Text.lastPiece (· == '.') name
  if ending.length + 1 < name.length then some (String.ofList ending) else none

/-- The type of the contents of a file, by its ending. -/
def contentType (path : String) : String :=
  match ending? path with
  | some "html" => "text/html; charset=utf-8"
  | some "js" | some "mjs" => "application/javascript"
  | some "wasm" => "application/wasm"
  | some "css" => "text/css"
  | some "json" => "application/json"
  | some "svg" => "image/svg+xml"
  | some "ico" => "image/x-icon"
  | _ => "application/octet-stream"

/-- The headers that every answer has. -/
def isolation : List (String × String) :=
  [("cross-origin-opener-policy", "same-origin"), ("cross-origin-embedder-policy", "require-corp"),
    ("cache-control", "no-cache")]

/-- What the server answers. -/
structure Response where
  status : Nat
  contentType : String
  body : Bytes
  deriving DecidableEq

/-- The headers of an answer. -/
def Response.headers (r : Response) : List (String × String) :=
  ("content-type", r.contentType) :: isolation

/-- The answer for what there is not. -/
def notFound : Response := ⟨404, "text/plain", Text.encode "404 Not Found"⟩

/-- The answer for a file: whatever cannot be read is not there. -/
def ofFile (path : String) : Except DiskError Bytes → Response
  | .ok bytes => ⟨200, contentType path, bytes⟩
  | .error _ => notFound

/-- The answer for a target, given a way to read files. -/
def respond (read : String → Except DiskError Bytes) (root target : String) : Response :=
  match path? root (filePart target) with
  | some path => ofFile path (read path)
  | none => notFound

/-- The answer as it is sent; who asks for the head of an answer gets no body. -/
def sent (method : String) (r : Response) : Response :=
  if method = "HEAD" then { r with body := [] } else r

end DevServer

end GuestShell
