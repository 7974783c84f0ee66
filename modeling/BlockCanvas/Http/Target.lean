import BlockCanvas.Http.Host
import BlockCanvas.Number.Reading
import BlockCanvas.Text.Shown
namespace BlockCanvas.Http

-- What a request is sent to.
structure Target where
  path : String
  query : List (String × String)
deriving DecidableEq

-- Why a text names nothing that a request can be sent to.
inductive TargetFault where
  | tooLong
  | control (c : Char) (place : Nat)
  | host (fault : Host.Fault) (given : String)
  | port (given : String)
  | doubleSlash
  | leadingColon
  | partTooLong (part : String)
deriving DecidableEq

def TargetFault.message : TargetFault → String
  | .tooLong => "URL too long"
  | .control c place =>
      "Invalid non-printable ASCII character in URL, " ++ Text.shown (String.singleton c) ++
        " at position " ++ toString place ++ "."
  | .host .notNumbered given => "Invalid IPv4 address: " ++ Text.shown given
  | .host .notGrouped given => "Invalid IPv6 address: " ++ Text.shown given
  | .host .notName given => "Invalid IDNA hostname: " ++ Text.shown given
  | .port given => "Invalid port: " ++ Text.shown given
  | .doubleSlash => "Relative URLs cannot have a path starting with '//'"
  | .leadingColon => "Relative URLs cannot have a path starting with ':'"
  | .partTooLong part => "URL component '" ++ part ++ "' too long"

-- The parts of a target as it is written.
structure Reference where
  scheme : List Char
  authority : List Char
  path : List Char
  query : Option (List Char)

structure Authority where
  user : List Char
  host : List Char
  port : List Char

namespace Reference

def isSchemeChar (c : Char) : Bool := c.isAlphanum || c = '+' || c = '.' || c = '-'

-- A colon ends a scheme, also an empty one.
def takeScheme (text : List Char) : List Char × List Char :=
  let scheme := text.takeWhile isSchemeChar
  match text.dropWhile isSchemeChar with
  | ':' :: rest =>
      if scheme.isEmpty ∨ scheme.head?.any Char.isAlpha then (scheme, rest) else ([], text)
  | _ => ([], text)

def endsAuthority (c : Char) : Bool := c = '/' || c = '?' || c = '#'
def endsPath (c : Char) : Bool := c = '?' || c = '#'

def takeAuthority : List Char → List Char × List Char
  | '/' :: '/' :: rest =>
      (rest.takeWhile fun c => !endsAuthority c, rest.dropWhile fun c => !endsAuthority c)
  | text => ([], text)

-- What follows a number sign is for the reader of the reply only.
def ofText (text : List Char) : Reference :=
  let (scheme, rest) := takeScheme text
  let (authority, rest) := takeAuthority rest
  let path := rest.takeWhile fun c => !endsPath c
  match rest.dropWhile fun c => !endsPath c with
  | '?' :: query => ⟨scheme, authority, path, some (query.takeWhile (· != '#'))⟩
  | _ => ⟨scheme, authority, path, none⟩

end Reference

namespace Authority

-- The user ends at the last sign for it, a host in brackets at the last bracket.
def ofText (text : List Char) : Authority :=
  let address := (text.reverse.takeWhile (· != '@')).reverse
  let user := text.take (text.length - address.length - 1)
  let bracketed := (address.reverse.dropWhile (· != ']')).reverse
  let host :=
    if address.head? = some '[' ∧ !bracketed.isEmpty then bracketed
    else address.takeWhile (· != ':')
  match address.drop host.length with
  | ':' :: port => ⟨user, host, port⟩
  | port => ⟨user, host, port⟩

def defaultPorts : List (String × Int) :=
  [("ftp", 21), ("http", 80), ("https", 443), ("ws", 80), ("wss", 443)]

-- The port, unless it goes without saying.
def port? (scheme : List Char) (port : List Char) : Except TargetFault (Option Int) :=
  if port.isEmpty then .ok none
  else
    match Number.integerArgument? (String.ofList port) with
    | none => .error (.port (String.ofList port))
    | some number =>
        let usual := (defaultPorts.find? fun row => row.1.toList = scheme).map Prod.snd
        .ok (if usual = some number then none else some number)

-- Whether there is an authority at all.
def isPresent (scheme : List Char) (authority : Authority) : Except TargetFault Bool :=
  match Host.fault? authority.host with
  | some fault => .error (.host fault (String.ofList authority.host))
  | none => do
      let port ← port? scheme authority.port
      return !authority.user.isEmpty || !authority.host.isEmpty || port.isSome

end Authority

namespace Target

-- The text before the first mark and the text behind it.
def cutAt (mark : Char) (text : List Char) : List Char × List Char :=
  (text.takeWhile (· != mark), (text.dropWhile (· != mark)).tail)

-- A percent sign with two hexadecimal digits stands for a byte, all else for itself.
def escapedBytes : List Char → List Nat
  | [] => []
  | '%' :: a :: b :: rest =>
    match Text.hexValue? a, Text.hexValue? b with
    | some high, some low => (high * 16 + low) :: escapedBytes rest
    | _, _ => '%'.toNat :: escapedBytes (a :: b :: rest)
  | c :: rest => Text.bytesOf (String.singleton c) ++ escapedBytes rest

def unescape (text : List Char) : String := Text.ofBytes (escapedBytes text)

-- Steps to the same place and back are taken. What is done so far is kept in reverse.
def walk (done : List (List Char)) : List (List Char) → List (List Char)
  | [] => done.reverse
  | step :: rest =>
      if step = ['.'] then walk done rest
      else if step = ['.', '.'] then
        walk (if done.isEmpty ∨ done = [[]] then done else done.tail) rest
      else walk (step :: done) rest

def normalPath (path : List Char) : List Char :=
  ['/'].intercalate (walk [] (Text.splitWhere (· == '/') path))

-- A plus sign is a space, a name alone has an empty value, and empty pairs are skipped.
def readQuery (text : List Char) : List (String × String) :=
  ((Text.splitWhere (· == '&') text).filter fun pair => !pair.isEmpty).map fun pair =>
    let plain := pair.map fun c => if c = '+' then ' ' else c
    let (name, value) := cutAt '=' plain
    (unescape name, unescape value)

def greatestLength : Nat := 65536

-- The length with all characters escaped that may not stand for themselves.
def escapedLength (reserved : List Char) (text : List Char) : Nat :=
  text.foldl (fun sum c =>
    if ' ' < c ∧ c.toNat < 0x7f ∧ c ∉ reserved then sum + 1 else sum + 3 * c.utf8Size) 0

def reservedInQuery : List Char := ['"', '#', '<', '>']
def reservedInPath : List Char := reservedInQuery ++ ['?', '\x60', '\x7b', '\x7d']

def isControl (c : Char) : Bool := c.toNat < 0x20 || c.toNat = 0x7f

-- The first character that may not stand in a target, and its place.
def misplaced? (text : List Char) : Option (Char × Nat) :=
  (text.find? isControl).map fun c => (c, (text.takeWhile fun d => !isControl d).length)

-- A path of its own does not look like a host or a scheme.
def pathFault? (path : List Char) : Option TargetFault :=
  if ['/', '/'].isPrefixOf path then some .doubleSlash
  else if path.head? = some ':' then some .leadingColon
  else none

-- A path that is not sent to a host of its own is taken from the root of the service.
def fromRoot (path : List Char) (query : Option (List Char)) : Except TargetFault (List Char) :=
  let rooted := '/' :: path.dropWhile (· == '/')
  if greatestLength < escapedLength reservedInPath rooted then .error (.partTooLong "path")
  else if greatestLength < escapedLength reservedInQuery (query.getD []) then
    .error (.partTooLong "query")
  else .ok (normalPath rooted)

def read (text : String) : Except TargetFault Target :=
  let chars := text.toList
  if greatestLength < chars.length then .error .tooLong
  else
    match misplaced? chars with
    | some (c, place) => .error (.control c place)
    | none => do
        let written := Reference.ofText chars
        let authority := Authority.ofText written.authority
        let named ← authority.isPresent written.scheme
        let absolute := !written.scheme.isEmpty && !authority.host.isEmpty
        let path ←
          if written.scheme.isEmpty ∧ !named then
            match pathFault? written.path with
            | some fault => .error fault
            | none => fromRoot written.path written.query
          else if absolute then .ok (normalPath written.path)
          else fromRoot (normalPath written.path) written.query
        return ⟨if path.isEmpty then "/" else unescape path, readQuery (written.query.getD [])⟩

end Target
end BlockCanvas.Http
