import GuestShell.Catalog.Error
import GuestShell.Dict

/-!
# A source with fixed answers

A source that has a fixed answer for each address, whichever way it is asked for, and remembers what
it was asked.  What it has no answer for is not found.
-/

namespace GuestShell

/-- One question to a source. -/
inductive SourceRequest where
  | get (url : String)
  | post (url body : String)
  deriving DecidableEq

/-- The address that is asked for. -/
def SourceRequest.url : SourceRequest → String
  | get url => url
  | post url _ => url

/-- Answers under addresses, and the questions, in their order. -/
structure FixedSource where
  answers : Dict String (Except FetchError Bytes)
  requests : List SourceRequest

namespace FixedSource

/-- A source with nothing in it. -/
def empty : FixedSource := ⟨Dict.empty, []⟩

/-- Gives an address an answer. -/
def put (s : FixedSource) (url : String) (answer : Except FetchError Bytes) : FixedSource :=
  { s with answers := s.answers.insert url answer }

/-- Puts bytes under an address. -/
def insert (s : FixedSource) (url : String) (bytes : Bytes) : FixedSource := s.put url (.ok bytes)

/-- Takes away what is under an address. -/
def erase (s : FixedSource) (url : String) : FixedSource :=
  { s with answers := s.answers.erase url }

/-- What there is under an address. -/
def answer (s : FixedSource) (url : String) : Except FetchError Bytes :=
  (s.answers.find? url).getD (.error (.notFound url))

/-- Asks a question. -/
def fetch (s : FixedSource) (r : SourceRequest) : Except FetchError Bytes × FixedSource :=
  (s.answer r.url, { s with requests := s.requests ++ [r] })

/-- The source with its questions forgotten. -/
def forget (s : FixedSource) : FixedSource := { s with requests := [] }

end FixedSource

end GuestShell
