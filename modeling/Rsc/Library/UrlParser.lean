import Rsc.Library.FormUrlEncoded
import Rsc.Library.Text

/-!
The URL parser, with the resolution of a reference against a base. Every state of it is a
function of the characters that are left; those before the path build a `UrlRecord`, those of
the path collect segments. Which texts are hosts is a parameter.
-/

namespace Rsc.Library.UrlParser

/-- The segments of a path, or the text that stands in their place. -/
inductive Path
  | text (text : List Char)
  | segments (list : List (List Char))
  deriving DecidableEq

structure UrlRecord where
  scheme : List Char
  username : List Char
  password : List Char
  host : Option String
  port : Option Nat
  path : Path
  query : Option (List Char)
  fragment : Option (List Char)
  deriving DecidableEq

/-- The host that a text names, opaque or as a domain or an address. -/
abbrev HostParser : Type := Bool → List Char → Option String

/-! ## Characters -/

/-- A control character or a space. -/
def isC0ControlOrSpace (c : Char) : Bool := c.toNat ≤ 0x20

def isTabOrNewline (c : Char) : Bool := c == '\t' || c == '\n' || c == '\r'

/-- What of an input is read. -/
def strip (input : List Char) : List Char :=
  ((input.dropWhile isC0ControlOrSpace).reverse.dropWhile isC0ControlOrSpace).reverse.filter
    (!isTabOrNewline ·)

def isC0ControlPercent (c : Char) : Bool := c.toNat ≤ 0x1F || 0x7E < c.toNat

/-- Besides, the space and `"<>` and the grave accent. -/
def isFragmentPercent (c : Char) : Bool :=
  isC0ControlPercent c || [0x20, 0x22, 0x3C, 0x3E, 0x60].contains c.toNat

/-- Besides, the space and `"#<>`. -/
def isQueryPercent (c : Char) : Bool :=
  isC0ControlPercent c || [0x20, 0x22, 0x23, 0x3C, 0x3E].contains c.toNat

/-- Besides, the apostrophe. -/
def isSpecialQueryPercent (c : Char) : Bool := isQueryPercent c || c.toNat == 0x27

/-- Besides, `?^`, the grave accent and the braces. -/
def isPathPercent (c : Char) : Bool :=
  isQueryPercent c || [0x3F, 0x5E, 0x60, 0x7B, 0x7D].contains c.toNat

/-- Besides, `/:;=@[\]|`. -/
def isUserinfoPercent (c : Char) : Bool :=
  isPathPercent c || [0x2F, 0x3A, 0x3B, 0x3D, 0x40, 0x5B, 0x5C, 0x5D, 0x7C].contains c.toNat

def percentByte (b : UInt8) : List Char :=
  ['%', Char.ofNat (FormUrlEncoded.hexDigit (b.toNat / 16)).toNat,
    Char.ofNat (FormUrlEncoded.hexDigit (b.toNat % 16)).toNat]

/-- UTF-8 percent-encode. -/
def percentEncode (inSet : Char → Bool) (c : Char) : List Char :=
  if inSet c then (String.utf8EncodeChar c).flatMap percentByte else [c]

/-! ## Schemes -/

def fileScheme : List Char := "file".toList

def isSpecial (scheme : List Char) : Bool :=
  ["ftp".toList, fileScheme, "http".toList, "https".toList, "ws".toList, "wss".toList].contains
    scheme

def defaultPort (scheme : List Char) : Option Nat :=
  if scheme = "ftp".toList then some 21
  else if scheme = "http".toList ∨ scheme = "ws".toList then some 80
  else if scheme = "https".toList ∨ scheme = "wss".toList then some 443
  else none

def isSchemeChar (c : Char) : Bool := c.isAlphanum || c == '+' || c == '-' || c == '.'

/-- Scheme start state and scheme state: the scheme that the input begins with. -/
def splitScheme (input : List Char) : Option (List Char × List Char) :=
  if input.head?.any Char.isAlpha then
    match input.dropWhile isSchemeChar with
    | ':' :: rest => some ((input.takeWhile isSchemeChar).map Char.toLower, rest)
    | _ => none
  else none

/-- A slash, or a backslash where the scheme is special. -/
def isSlash (scheme : List Char) (c : Char) : Bool := c == '/' || (isSpecial scheme && c == '\\')

/-- The end of an authority. -/
def isDelimiter (scheme : List Char) (c : Char) : Bool := isSlash scheme c || c == '?' || c == '#'

/-! ## Windows drive letters -/

def isDriveLetter : List Char → Bool
  | [a, b] => a.isAlpha && (b == ':' || b == '|')
  | _ => false

def isNormalizedDriveLetter (segment : List Char) : Bool :=
  isDriveLetter segment && segment.getLast? == some ':'

def startsWithDriveLetter : List Char → Bool
  | [a, b] => isDriveLetter [a, b]
  | a :: b :: c :: _ => isDriveLetter [a, b] && isDelimiter fileScheme c
  | _ => false

/-! ## Paths -/

def isSingleDot (segment : List Char) : Bool :=
  [".".toList, "%2e".toList].contains (segment.map Char.toLower)

def isDoubleDot (segment : List Char) : Bool :=
  ["..".toList, ".%2e".toList, "%2e.".toList, "%2e%2e".toList].contains (segment.map Char.toLower)

/-- Shorten a path. -/
def shorten (scheme : List Char) (path : List (List Char)) : List (List Char) :=
  if scheme = fileScheme ∧ path.length = 1 ∧ path.all isNormalizedDriveLetter then path
  else path.dropLast

/-- A segment ends, with a slash or with the path. -/
def endSegment (scheme : List Char) (slash : Bool) (path : List (List Char))
    (segment : List Char) : List (List Char) :=
  if isDoubleDot segment then
    if slash then shorten scheme path else shorten scheme path ++ [[]]
  else if isSingleDot segment then
    if slash then path else path ++ [[]]
  else if scheme = fileScheme ∧ path = [] ∧ isDriveLetter segment then
    path ++ [segment.take 1 ++ [':']]
  else path ++ [segment]

/-- Path state: the path, and what follows it. -/
def pathState (scheme : List Char) (path : List (List Char)) (buffer : List Char) :
    List Char → List (List Char) × List Char
  | [] => (endSegment scheme false path buffer, [])
  | c :: rest =>
      if isSlash scheme c then pathState scheme (endSegment scheme true path buffer) [] rest
      else if c == '?' || c == '#' then (endSegment scheme false path buffer, c :: rest)
      else pathState scheme path (buffer ++ percentEncode isPathPercent c) rest

/-- Path start state. -/
def pathStartState (scheme : List Char) (rest : List Char) : List (List Char) × List Char :=
  match rest with
  | [] => if isSpecial scheme then pathState scheme [] [] [] else ([], [])
  | c :: cs =>
      if isSlash scheme c then pathState scheme [] [] cs
      else if !isSpecial scheme && (c == '?' || c == '#') then ([], c :: cs)
      else pathState scheme [] [] (c :: cs)

/-- Opaque path state; a space at the end of the path is encoded. -/
def opaquePathState : List Char → List Char × List Char
  | [] => ([], [])
  | c :: rest =>
      if c == '?' || c == '#' then ([], c :: rest)
      else
        let encoded :=
          if c == ' ' then
            if rest.head? == some '?' || rest.head? == some '#' then "%20".toList else [' ']
          else percentEncode isC0ControlPercent c
        (encoded ++ (opaquePathState rest).1, (opaquePathState rest).2)

/-! ## Queries and fragments -/

/-- Fragment state. -/
def fragmentState : List Char → Option (List Char)
  | '#' :: rest => some (rest.flatMap (percentEncode isFragmentPercent))
  | _ => none

/-- Query state. -/
def queryState (scheme : List Char) : List Char → Option (List Char)
  | '?' :: rest => some ((rest.takeWhile (· != '#')).flatMap
      (percentEncode (if isSpecial scheme then isSpecialQueryPercent else isQueryPercent)))
  | _ => none

/-- What follows a path. -/
def UrlRecord.withTail (url : UrlRecord) (rest : List Char) : UrlRecord :=
  { url with
    query := queryState url.scheme rest
    fragment := fragmentState (rest.dropWhile (· != '#')) }

/-- The URL with a path, and with what follows it. -/
def UrlRecord.withPath (url : UrlRecord) (path : List (List Char) × List Char) : UrlRecord :=
  { url with path := .segments path.1 }.withTail path.2

/-! ## Authorities -/

/-- Whom a URL is for. -/
structure Authority where
  username : List Char
  password : List Char
  host : String
  port : Option Nat

/-- Host state: the host, and the port after the first colon outside brackets. -/
def hostState (insideBrackets : Bool) : List Char → List Char × Option (List Char)
  | [] => ([], none)
  | c :: rest =>
      if c == ':' && !insideBrackets then ([], some rest)
      else
        let inside := c == '[' || (insideBrackets && c != ']')
        (c :: (hostState inside rest).1, (hostState inside rest).2)

/-- Port state: no port when there are no digits or it is the one of the scheme. -/
def portState (scheme : List Char) (digits : List Char) : Option (Option Nat) :=
  if digits = [] then some none
  else if digits.all Char.isDigit && Nat.ofDigitChars 10 digits 0 ≤ 65535 then
    if defaultPort scheme = some (Nat.ofDigitChars 10 digits 0) then some none
    else some (some (Nat.ofDigitChars 10 digits 0))
  else none

/-- The user and the password, and the host with its port, after the last `@`. -/
def splitUserinfo (text : List Char) : Option (List Char × List Char) × List Char :=
  match Text.splitOnce '@' text.reverse with
  | some (after, before) => (some ((Text.splitOnce ':' before.reverse).getD (before.reverse, [])),
      after.reverse)
  | none => (none, text)

section

variable (parseHost : HostParser)

/-- Authority state, on the text up to the delimiter. -/
def readAuthority (scheme : List Char) (text : List Char) : Option Authority :=
  let (userinfo, hostport) := splitUserinfo text
  let (host, port) := hostState false hostport
  if hostport = [] && userinfo.isSome || host = [] && (port.isSome || isSpecial scheme) then none
  else do
    let host ← parseHost (!isSpecial scheme) host
    let port ← portState scheme (port.getD [])
    let (username, password) := userinfo.getD ([], [])
    return ⟨username.flatMap (percentEncode isUserinfoPercent),
      password.flatMap (percentEncode isUserinfoPercent), host, port⟩

/-- The URL of a scheme and an authority, with an empty path. -/
def Authority.toUrl (authority : Authority) (scheme : List Char) : UrlRecord where
  scheme := scheme
  username := authority.username
  password := authority.password
  host := some authority.host
  port := authority.port
  path := .segments []
  query := none
  fragment := none

def authorityState (scheme : List Char) (rest : List Char) : Option UrlRecord := do
  let authority ← readAuthority parseHost scheme (rest.takeWhile (!isDelimiter scheme ·))
  return (authority.toUrl scheme).withPath
    (pathStartState scheme (rest.dropWhile (!isDelimiter scheme ·)))

/-- Special authority slashes state and special authority ignore slashes state. -/
def specialAuthorityState (scheme : List Char) (rest : List Char) : Option UrlRecord :=
  authorityState parseHost scheme (rest.dropWhile fun c => c == '/' || c == '\\')

/-! ## Files -/

/-- A URL with the scheme `file`. -/
def fileUrl (host : Option String) : UrlRecord where
  scheme := fileScheme
  username := []
  password := []
  host := host
  port := none
  path := .segments []
  query := none
  fragment := none

def Path.list : Path → List (List Char)
  | .text _ => []
  | .segments list => list

/-- File host state, on the text up to the delimiter: a host that is written must be one. -/
def readFileHost (text : List Char) : Option String :=
  if text = [] then some ""
  else (parseHost false text).map fun host => if host = "localhost" then "" else host

def fileHostState (rest : List Char) : Option UrlRecord :=
  let text := rest.takeWhile (!isDelimiter fileScheme ·)
  let after := rest.dropWhile (!isDelimiter fileScheme ·)
  if isDriveLetter text then
    some ((fileUrl (some "")).withPath (pathState fileScheme [] text after))
  else (readFileHost parseHost text).map fun host =>
    (fileUrl (some host)).withPath (pathStartState fileScheme after)

/-- The base, when it is a file. -/
def fileBase (base : Option UrlRecord) : Option UrlRecord :=
  base.filter (·.scheme == fileScheme)

def fileSlashState (base : Option UrlRecord) (rest : List Char) : Option UrlRecord :=
  if rest.head?.any (isSlash fileScheme) then fileHostState parseHost rest.tail
  else
    match fileBase base with
    | some base =>
        let drive := (base.path.list.take 1).filter isNormalizedDriveLetter
        some ((fileUrl base.host).withPath (pathState fileScheme
          (if startsWithDriveLetter rest then [] else drive) [] rest))
    | none => some ((fileUrl (some "")).withPath (pathState fileScheme [] [] rest))

def fileState (base : Option UrlRecord) (rest : List Char) : Option UrlRecord :=
  if rest.head?.any (isSlash fileScheme) then fileSlashState parseHost base rest.tail
  else
    match fileBase base with
    | some base =>
        let url := { fileUrl base.host with path := base.path }
        match rest with
        | [] => some { url with query := base.query }
        | '?' :: _ => some (url.withTail rest)
        | '#' :: _ => some { url with query := base.query, fragment := fragmentState rest }
        | _ => some (url.withPath (pathState fileScheme
            (if startsWithDriveLetter rest then [] else shorten fileScheme base.path.list) []
            rest))
    | none => some ((fileUrl (some "")).withPath (pathState fileScheme [] [] rest))

/-! ## References -/

/-- Relative slash state. -/
def relativeSlashState (base : UrlRecord) (rest : List Char) : Option UrlRecord :=
  if isSpecial base.scheme && rest.head?.any (isSlash base.scheme) then
    specialAuthorityState parseHost base.scheme rest.tail
  else if rest.head? == some '/' then authorityState parseHost base.scheme rest.tail
  else some (base.withPath (pathState base.scheme [] [] rest))

/-- Relative state. -/
def relativeState (base : UrlRecord) (rest : List Char) : Option UrlRecord :=
  if rest.head?.any (isSlash base.scheme) then relativeSlashState parseHost base rest.tail
  else
    match rest with
    | [] => some { base with fragment := none }
    | '?' :: _ => some (base.withTail rest)
    | '#' :: _ => some { base with fragment := fragmentState rest }
    | _ => some (base.withPath (pathState base.scheme (shorten base.scheme base.path.list) [] rest))

/-- Special relative or authority state. -/
def specialRelativeOrAuthorityState (base : UrlRecord) (rest : List Char) : Option UrlRecord :=
  if "//".toList.isPrefixOf rest then specialAuthorityState parseHost base.scheme (rest.drop 2)
  else relativeState parseHost base rest

/-- Path or authority state. -/
def pathOrAuthorityState (scheme : List Char) (rest : List Char) : Option UrlRecord :=
  if rest.head? == some '/' then authorityState parseHost scheme rest.tail
  else some ({ fileUrl none with scheme := scheme }.withPath (pathState scheme [] [] rest))

/-- No scheme state. -/
def noSchemeState (base : Option UrlRecord) (rest : List Char) : Option UrlRecord :=
  match base with
  | none => none
  | some base =>
      match base.path with
      | .text _ =>
          if rest.head? == some '#' then some { base with fragment := fragmentState rest } else none
      | .segments _ =>
          if base.scheme = fileScheme then fileState parseHost (some base) rest
          else relativeState parseHost base rest

/-- The parser, on what is left of the input by `strip`. -/
def schemeState (base : Option UrlRecord) (input : List Char) : Option UrlRecord :=
  match splitScheme input with
  | none => noSchemeState parseHost base input
  | some (scheme, rest) =>
      if scheme = fileScheme then fileState parseHost base rest
      else if isSpecial scheme then
        match base.filter (·.scheme == scheme) with
        | some base => specialRelativeOrAuthorityState parseHost base rest
        | none => specialAuthorityState parseHost scheme rest
      else if rest.head? == some '/' then pathOrAuthorityState parseHost scheme rest.tail
      else
        let (text, after) := opaquePathState rest
        some ({ fileUrl none with scheme := scheme, path := .text text }.withTail after)

/-- `Url::parse`. -/
def parse (input : String) : Option UrlRecord := schemeState parseHost none (strip input.toList)

/-- `Url::join`. -/
def join (base : UrlRecord) (input : String) : Option UrlRecord :=
  schemeState parseHost (some base) (strip input.toList)

end

/-- `Url::cannot_be_a_base`. -/
def UrlRecord.cannotBeABase (url : UrlRecord) : Bool :=
  match url.path with
  | .text _ => true
  | .segments _ => false

theorem UrlRecord.cannotBeABase_eq_false {url : UrlRecord} (h : url.cannotBeABase = false) :
    ∃ list, url.path = .segments list := by
  rw [cannotBeABase] at h
  split at h
  · cases h
  · next list hpath => exact ⟨list, hpath⟩

/-- `Url::path`. -/
def UrlRecord.pathText (url : UrlRecord) : List Char :=
  match url.path with
  | .text text => text
  | .segments list => list.flatMap ('/' :: ·)

end Rsc.Library.UrlParser
