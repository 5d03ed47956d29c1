import GuestShell.Catalog.Error
import GuestShell.Disk.Error
import GuestShell.Http.Address
import GuestShell.Task

/-!
# Fetching

A request is built up step by step and then sent.  What it is sent to is an address on the network or,
when it is no such address, a file of the machine.

Sending is a task over two requests to the surroundings: read a file, or exchange a message for a
response.  Nothing goes out for a request with a flaw.
-/

namespace GuestShell

/-- What is done with an address. -/
inductive HttpMethod where
  | get
  | post
  deriving DecidableEq

/-- The name of a method on the wire. -/
def HttpMethod.name : HttpMethod → String
  | get => "GET"
  | post => "POST"

/-- A request that is being built up. -/
structure HttpRequest where
  method : HttpMethod
  url : String
  headers : List (String × String)
  body : Option Bytes
  deriving DecidableEq

/-- A request as it goes out. -/
structure HttpMessage where
  method : HttpMethod
  address : HttpAddress
  headers : List (String × String)
  body : Bytes
  deriving DecidableEq

/-- What comes back. -/
structure HttpResponse where
  status : Nat
  body : Bytes
  deriving DecidableEq

/-! ## Building -/

namespace HttpRequest

/-- A request with nothing but its method and its address. -/
def ofMethod (method : HttpMethod) (url : String) : HttpRequest := ⟨method, url, [], none⟩

/-- A request for what is at an address. -/
def get (url : String) : HttpRequest := ofMethod .get url

/-- A request to take what is sent along. -/
def post (url : String) : HttpRequest := ofMethod .post url

/-- Adds a header. -/
def header (name value : String) (r : HttpRequest) : HttpRequest :=
  { r with headers := r.headers ++ [(name, value)] }

/-- Sends JSON text along, and asks for JSON. -/
def json (text : String) (r : HttpRequest) : HttpRequest :=
  { (r.header "Accept" "application/json").header "Content-Type" "application/json" with
    body := some (Text.encode text) }

/-! ## What goes out -/

/-- What can stand in the name of a header. -/
def isNameChar (c : Char) : Bool :=
  c.isAlphanum || "!#$%&'*+-.^_\x60|~".toList.contains c

/-- What can stand in the value of a header. -/
def isValueChar (c : Char) : Bool :=
  c == '\t' || (0x20 ≤ c.toNat && c.toNat != 0x7f)

/-- What is wrong with a header. -/
def headerFlaw? (h : String × String) : Option HttpFlaw :=
  if h.1 = "" || !h.1.toList.all isNameChar then some .headerName
  else if !h.2.toList.all isValueChar then some .headerValue
  else none

/-- Headers in the order in which they go out: those of one name together. -/
def grouped (headers : List (String × String)) : List (String × String) :=
  (headers.map (·.1)).eraseDups.flatMap fun name => headers.filter fun h => h.1 == name

/-- The message of a request, or what is wrong with it.  A request for what is there sends nothing
along. -/
def message (r : HttpRequest) : Except HttpFlaw HttpMessage := do
  let address ← HttpAddress.ofUrl r.url
  match r.headers.findSome? headerFlaw? with
  | some flaw => throw flaw
  | none =>
    return {
      method := r.method
      address := address
      headers := grouped (r.headers.map fun h => (h.1.toLower, h.2))
      body := match r.method with
        | .get => []
        | .post => r.body.getD [] }

end HttpRequest

/-- The value of a header of a message. -/
def HttpMessage.header? (m : HttpMessage) (name : String) : Option String :=
  (m.headers.find? fun h => h.1 == name).map (·.2)

/-! ## What comes back -/

/-- The longest body that is taken in. -/
def HttpResponse.maxLength : Nat := 256 * 1024 * 1024

/-- What a response says about an address. -/
def HttpResponse.contents (r : HttpResponse) (url : String) : Except FetchError Bytes :=
  if r.status = 404 then .error (.notFound url)
  else if 400 ≤ r.status ∧ r.status < 600 then .error (.status url r.status)
  else if maxLength < r.body.length then
    .error (.network url ("the response body is larger than request limit: " ++ toString maxLength))
  else .ok r.body

/-! ## Sending -/

namespace Fetching

/-- What fetching asks its surroundings. -/
inductive Request where
  | read (path : String)
  | exchange (m : HttpMessage)

/-- The answers to the requests; an exchange that fails gives the reason. -/
abbrev Answer : Request → Type
  | .read _ => Except DiskError Bytes
  | .exchange _ => Except String HttpResponse

end Fetching

/-- Something that is being fetched. -/
abbrev Fetching (α : Type) := Task Fetching.Request Fetching.Answer α

/-- What reading a file says about its address. -/
def fileContents (url : String) : Except DiskError Bytes → Except FetchError Bytes
  | .ok bytes => .ok bytes
  | .error .noEntry => .error (.notFound url)
  | .error e => .error (.network url e.message)

/-- What an exchange says about an address. -/
def exchangedContents (url : String) : Except String HttpResponse → Except FetchError Bytes
  | .ok response => response.contents url
  | .error reason => .error (.network url reason)

/-- Sends a request. -/
def HttpRequest.send (r : HttpRequest) : Fetching (Except FetchError Bytes) := do
  if !HttpAddress.isUrl r.url then
    return fileContents r.url (← Task.request (.read r.url))
  match r.message with
  | .error flaw => return .error (.network r.url flaw.message)
  | .ok m => return exchangedContents r.url (← Task.request (.exchange m))

namespace Fetching

/-- Fetches what is at an address. -/
def get (url : String) : Fetching (Except FetchError Bytes) := (HttpRequest.get url).send

/-- Sends JSON text to an address. -/
def post (url body : String) : Fetching (Except FetchError Bytes) :=
  ((HttpRequest.post url).json body).send

end Fetching

end GuestShell
