import GuestShell.Engine.Error

/-!
# Why a program cannot be found

`FetchError` is about one address, `ResolveError` about the name of a program.
-/

namespace GuestShell

/-- Why nothing was fetched from an address. -/
inductive FetchError where
  | notFound (url : String)
  | status (url : String) (code : Nat)
  | network (url reason : String)
  deriving DecidableEq

/-- The wording of a fetch error. -/
def FetchError.message : FetchError → String
  | notFound url => "not found: " ++ url
  | status url code => url ++ " answered with status " ++ toString code
  | network url reason => "fetching " ++ url ++ " failed: " ++ reason

/-- Why no module was found under a name. -/
inductive ResolveError where
  | notFound (name : String)
  | invalid (name reason : String)
  /-- A link leads to something that is no program name. -/
  | badLink (name target : String)
  | linkCycle (name : String)
  | unsupportedAbi (name abi : String)
  | noArtifact (name : String)
  | multipleArtifacts (name : String) (count : Nat)
  | registry (name reason : String)
  | fetch (e : FetchError)
  | compile (name : String) (e : EngineError)
  deriving DecidableEq

/-- The wording of a resolve error. -/
def ResolveError.message : ResolveError → String
  | notFound name => name ++ ": command not found"
  | invalid name reason => name ++ ": invalid module: " ++ reason
  | badLink name target => name ++ ": link points to invalid name '" ++ target ++ "'"
  | linkCycle name => name ++ ": too many levels of links"
  | unsupportedAbi name abi =>
    name ++ ": only WASI modules are supported, this command uses the '" ++ abi ++ "' ABI"
  | noArtifact name => name ++ ": package contains no module"
  | multipleArtifacts name count =>
    name ++ ": package contains " ++ toString count ++ " modules, expected exactly one"
  | registry name reason => name ++ ": registry error: " ++ reason
  | fetch e => e.message
  | compile name e => name ++ ": " ++ e.message

end GuestShell
