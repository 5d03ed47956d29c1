import GuestShell.Text.Blank
import GuestShell.Text.Utf8

/-!
# Addresses on the network

An address begins with `http://` or `https://`.  Up to the first slash, question mark or number sign
goes the *authority*, which names the host; from there to the number sign goes the *target*, which is
what the host is asked for.  What comes after a number sign is not sent.

Few characters are allowed in an authority, and more of them in a target, where servers see many that
should have been written in another way.  `HttpAddress.ofUrl` says what is wrong with an address that
cannot be used.
-/

namespace GuestShell

/-- Why a request cannot be sent. -/
inductive HttpFlaw where
  | tooLong
  | character
  | authority
  | noAuthority
  | headerName
  | headerValue
  deriving DecidableEq

/-- The wording of a flaw. -/
def HttpFlaw.message : HttpFlaw → String
  | tooLong => "http: uri too long"
  | character => "http: invalid uri character"
  | authority => "http: invalid authority"
  | noAuthority => "http: invalid format"
  | headerName => "http: invalid HTTP header name"
  | headerValue => "http: failed to parse header value"

/-- Where a request goes, and what it asks for. -/
structure HttpAddress where
  /-- Whether the connection is to be encrypted. -/
  secure : Bool
  authority : String
  target : String
  deriving DecidableEq

namespace HttpAddress

/-! ## The authority -/

/-- What can stand in an authority, unless it is escaped. -/
def isAuthorityChar (c : Char) : Bool :=
  c.isAlphanum || "!$&'()*+,-.:;=@[]_~".toList.contains c

/-- The brackets of an authority are a pair around the host, if there are any. -/
def bracketsAgree (cs : List Char) : Bool :=
  let brackets := cs.filter fun c => c == '[' || c == ']'
  brackets == [] || brackets == ['[', ']']

/-- What goes after the name of the user and the brackets of the host. -/
def hostTail (cs : List Char) : List Char :=
  Text.lastPiece (fun c => c == '@' || c == ']') cs

/-- What is wrong with an authority.  Escapes can only stand in the name of a user or in brackets;
elsewhere there is at most one colon, in front of the port. -/
def authorityFlaw? (cs : List Char) : Option HttpFlaw :=
  if cs = [] then some .noAuthority
  else if !cs.all (fun c => isAuthorityChar c || c == '%') then some .character
  else if !bracketsAgree cs || cs.getLast? == some '@' || (hostTail cs).contains '%' ||
      1 < (hostTail cs).count ':' then some .authority
  else none

/-! ## The target -/

/-- What can stand in the path of a target. -/
def isPathChar (c : Char) : Bool :=
  0x20 < c.toNat && !"#<>?\x60".toList.contains c

/-- What can stand in the query of a target. -/
def isQueryChar (c : Char) : Bool :=
  0x20 < c.toNat && !"\"#<>".toList.contains c

/-- The target in what goes after the authority; without anything there it is the root. -/
def targetOf (cs : List Char) : Except HttpFlaw String :=
  let sent := cs.takeWhile (· != '#')
  let path := sent.takeWhile (· != '?')
  let query := (sent.dropWhile (· != '?')).drop 1
  if !path.all isPathChar || !query.all isQueryChar then .error .character
  else if sent = [] then .ok "/"
  else .ok (String.ofList sent)

/-! ## Addresses -/

/-- Whether a text is the address of something on the network. -/
def isUrl (url : String) : Bool :=
  Text.startsWith url "http://" || Text.startsWith url "https://"

/-- The longest an address can be, in bytes. -/
def maxLength : Nat := 65534

/-- The characters that end an authority. -/
def endsAuthority (c : Char) : Bool := c == '/' || c == '?' || c == '#'

/-- The address that a text is, if it is one on the network. -/
def ofUrl (url : String) : Except HttpFlaw HttpAddress := do
  if maxLength < Text.byteLength url then throw .tooLong
  let secure := Text.startsWith url "https://"
  let rest := url.toList.drop (if secure then 8 else 7)
  let authority := rest.takeWhile fun c => !endsAuthority c
  match authorityFlaw? authority with
  | some flaw => throw flaw
  | none =>
    let target ← targetOf (rest.dropWhile fun c => !endsAuthority c)
    return ⟨secure, String.ofList authority, target⟩

/-- The host and the port, without the name of a user. -/
def host (a : HttpAddress) : String :=
  String.ofList (Text.lastPiece (· == '@') a.authority.toList)

end HttpAddress

end GuestShell
