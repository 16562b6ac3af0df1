/-
# PolicyClient.Endpoint.Uri -- taking an endpoint apart

An endpoint is a scheme, an authority and a path with an optional query, or an authority
or a path alone.  `Uri.parse?` accepts no character outside the sets given here, no
unpaired bracket, no second port, no user part without a host, and no percent sign in
the host.

The host of a URI is what stands in its authority after the user part and before the port
(`Uri.host`).

URIs are read by a library that comes from elsewhere.  What is used of it is a record of its
functions (`UriLibrary`); the one that runs is `Uri.library`.
-/

namespace PolicyClient

set_option autoImplicit false

/-- The parts of an endpoint.  A scheme is in lower case if it is one of the two
well-known ones. -/
structure Uri where
  scheme : Option (List Char) := none
  authority : List Char := []
  path : List Char := []
deriving DecidableEq, Inhabited, Repr

namespace Uri

/-! ## Schemes -/

def isSchemeChar (c : Char) : Bool := c.isAlphanum || "+-.~".toList.contains c

/-- The longest scheme. -/
def maxSchemeLength : Nat := 64

/-- What is left after `start`, read without regard to case. -/
def afterPrefix? (start s : List Char) : Option (List Char) :=
  if (s.take start.length).map Char.toLower = start then some (s.drop start.length) else none

/-- Splits off a scheme, if there is one.  A scheme that is too long makes the endpoint
unreadable. -/
def splitScheme? (s : List Char) : Option (Option (List Char) × List Char) :=
  match afterPrefix? "http://".toList s with
  | some rest => some (some "http".toList, rest)
  | none =>
    match afterPrefix? "https://".toList s with
    | some rest => some (some "https".toList, rest)
    | none =>
      let name := s.takeWhile isSchemeChar
      match s.drop name.length with
      | ':' :: '/' :: '/' :: rest =>
        if s.length ≤ 3 then some (none, s)
        else if maxSchemeLength < name.length then none
        else some (some name, rest)
      | _ => some (none, s)

/-! ## Authorities -/

def isAuthorityChar (c : Char) : Bool := c.isAlphanum || "!$&'()*+,-.:;=@[]_~".toList.contains c

def endsAuthority (c : Char) : Bool := c = '/' || c = '?' || c = '#'

/-- The most colons before a port or a bracket is reached. -/
def maxColons : Nat := 8

/-- What has been seen of an authority. -/
structure AuthorityScan where
  /-- Colons since the last user part or bracket. -/
  colons : Nat := 0
  opened : Bool := false
  closed : Bool := false
  /-- A percent sign since the last user part or bracket. -/
  percent : Bool := false
  /-- Whether the last character ended the user part. -/
  afterUser : Bool := false
deriving DecidableEq, Repr

/-- Takes in one character of an authority. -/
def AuthorityScan.next? (s : AuthorityScan) (c : Char) : Option AuthorityScan :=
  let s := { s with afterUser := false }
  if c = ':' then if maxColons ≤ s.colons then none else some { s with colons := s.colons + 1 }
  else if c = '[' then if s.percent || s.opened then none else some { s with opened := true }
  else if c = ']' then
    if !s.opened || s.closed then none
    else some { s with closed := true, colons := 0, percent := false }
  else if c = '@' then some { s with colons := 0, percent := false, afterUser := true }
  else if c = '%' then some { s with percent := true }
  else if isAuthorityChar c then some s
  else none

/-- Whether an authority may end here. -/
def AuthorityScan.mayEnd (s : AuthorityScan) : Bool :=
  s.opened == s.closed && s.colons ≤ 1 && !s.afterUser && !s.percent

/-- Splits off the authority, which may be empty. -/
def splitAuthority? (s : List Char) : Option (List Char × List Char) := do
  let authority := s.takeWhile fun c => !endsAuthority c
  let scan ← authority.foldlM AuthorityScan.next? {}
  if scan.mayEnd then some (authority, s.drop authority.length) else none

/-! ## Paths -/

/-- Whether a character is beyond the basic set; all of these may stand in paths and
queries. -/
def isHigh (c : Char) : Bool := 0x80 ≤ c.toNat

def isPathChar (c : Char) : Bool :=
  let n := c.toNat
  n = 0x21 || (0x24 ≤ n && n ≤ 0x3b) || n = 0x3d || (0x40 ≤ n && n ≤ 0x5f) ||
    (0x61 ≤ n && n ≤ 0x7a) || n = 0x7c || n = 0x7e || isHigh c || c = '"' ||
    c = '\x7b' || c = '\x7d'

def isQueryChar (c : Char) : Bool :=
  let n := c.toNat
  n = 0x21 || (0x24 ≤ n && n ≤ 0x3b) || n = 0x3d || (0x3f ≤ n && n ≤ 0x7e) || isHigh c

/-- A path and a query up to the fragment, if all their characters are allowed. -/
def pathAndQuery? (s : List Char) : Option (List Char) :=
  let path := s.takeWhile fun c => c != '?' && c != '#'
  if !path.all isPathChar then none
  else match s.drop path.length with
    | '?' :: rest =>
      let query := rest.takeWhile (· != '#')
      if query.all isQueryChar then some (path ++ '?' :: query) else none
    | _ => some path

/-! ## Endpoints -/

/-- The longest endpoint, in bytes. -/
def maxLength : Nat := 65534

/-- An endpoint that is an authority and nothing else. -/
def authorityAlone? (s : List Char) : Option Uri := do
  let (authority, rest) ← splitAuthority? s
  if rest.isEmpty then some { authority } else none

/-- The parts of an endpoint. -/
def parse? (endpoint : String) : Option Uri :=
  let s := endpoint.toList
  if maxLength < endpoint.utf8ByteSize then none
  else match s with
    | [] => none
    | ['*'] => some { path := ['*'] }
    | [c] => if c = '/' then some { path := ['/'] } else authorityAlone? [c]
    | '/' :: _ => (pathAndQuery? s).map fun path => { path }
    | _ => do
      match ← splitScheme? s with
      | (none, s) => authorityAlone? s
      | (some scheme, s) =>
        let (authority, rest) ← splitAuthority? s
        if authority.isEmpty then none
        else
          let path ← pathAndQuery? rest
          some { scheme := some scheme, authority, path }

/-- The host: what stands after the user part and before the port.  A bracketed host
keeps its brackets. -/
def host (u : Uri) : List Char :=
  let hostAndPort := (u.authority.reverse.takeWhile (· != '@')).reverse
  match hostAndPort with
  | '[' :: _ => hostAndPort.takeWhile (· != ']') ++ [']']
  | _ => hostAndPort.takeWhile (· != ':')

end Uri

/-- What a library that reads URIs offers. -/
structure UriLibrary (υ : Type) where
  parse? : String → Option υ
  scheme : υ → Option (List Char)
  authority : υ → List Char
  host : υ → List Char

/-- The library that runs. -/
def Uri.library : UriLibrary Uri := ⟨Uri.parse?, Uri.scheme, Uri.authority, Uri.host⟩

end PolicyClient
