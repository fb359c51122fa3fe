import Recap.Blaze.Packet

/-! What the web server makes of a request target, and the files it answers with. -/

namespace Recap.HTTP

open Recap.Blaze

/-- The separator of path segments. -/
abbrev slash : UInt8 := 47

/-- The segment that leads to the directory above. -/
abbrev parent : Bytes := [46, 46]

namespace URI

/-- `utils::to_number<char>` of two characters, with base 16. -/
def toChar (text : Bytes) : UInt8 :=
  match text.dropWhile isSpace with
  | [] => 0
  | sign :: rest =>
    if sign = 45 then 0 - UInt8.ofNat (digitsValue 16 (leadingDigits 16 rest))
    else if sign = 43 then UInt8.ofNat (digitsValue 16 (leadingDigits 16 rest))
    else UInt8.ofNat (digitsValue 16 (leadingDigits 16 (sign :: rest)))

/-- `URI::decode`, which drops a percent sign that has less than two characters behind it. -/
def decode : Bytes → Bytes
  | [] => []
  | [symbol] => if symbol = 37 then [] else if symbol = 43 then [32] else [symbol]
  | [symbol, last] =>
    if symbol = 37 then decode [last]
    else if symbol = 43 then 32 :: decode [last]
    else symbol :: decode [last]
  | symbol :: first :: second :: rest =>
    if symbol = 37 then toChar [first, second] :: decode rest
    else if symbol = 43 then 32 :: decode (first :: second :: rest)
    else symbol :: decode (first :: second :: rest)

/-- `std::string_view::find`: the first place from an offset on where a text stands. -/
def find (path text : Bytes) (offset : Nat) : Option Nat :=
  (List.range (path.length + 1)).find? fun position =>
    offset ≤ position ∧ text.isPrefixOf (path.drop position)

/-- Where the scheme ends, which is at the start if there is none. -/
def parseScheme (path : Bytes) : Nat :=
  match find path (ascii "://") 0 with
  | some position => position + 3
  | none => 0

/-- Where the authority ends, which is where it starts if no path follows. -/
def parseAuthority (path : Bytes) (offset : Nat) : Nat :=
  (find path [slash] offset).getD offset

/-- The resource, which ends where a query or a fragment starts. -/
def parsePath (path : Bytes) (offset : Nat) : Bytes :=
  match find path (ascii "?") offset with
  | some position => (path.drop offset).take (position - offset)
  | none =>
    match find path (ascii "#") offset with
    | some position => (path.drop offset).take (position - offset)
    | none => path.drop offset

/-- `URI::parse` of a request target, by the resource that it comes to. -/
def resource (target : Bytes) : Bytes :=
  let path := decode target
  let authorityEnd := parseAuthority path (parseScheme path)
  if authorityEnd + 1 < path.length then parsePath path authorityEnd else []

end URI

/-- The patterns of the routes. -/
inductive Pattern where
  | literal (text : Bytes)
  /-- A text with one place for any character. -/
  | anyBetween (front back : Bytes)
  /-- A text, and then any number of certain characters, but maybe at least one. -/
  | below (front : Bytes) (character : UInt8 → Bool) (atLeastOne : Bool)

/-- `RoutePath::equals` -/
def Pattern.equals (pattern : Pattern) (resource : Bytes) : Bool :=
  match pattern with
  | .literal text => resource = text
  | .anyBetween front back =>
    resource.length = front.length + 1 + back.length ∧ front.isPrefixOf resource ∧
      back.isSuffixOf resource
  | .below front character atLeastOne =>
    let rest := resource.drop front.length
    front.isPrefixOf resource ∧ rest.all character ∧ (atLeastOne → rest ≠ [])

/-- `[a-zA-Z0-9_.]` -/
def nameCharacter (character : UInt8) : Bool :=
  (97 ≤ character ∧ character ≤ 122) ∨ (65 ≤ character ∧ character ≤ 90) ∨
    (48 ≤ character ∧ character ≤ 57) ∨ character = 95 ∨ character = 46

/-- `[/a-zA-Z0-9\-_.]` -/
def pathCharacter (character : UInt8) : Bool :=
  nameCharacter character ∨ character = slash ∨ character = 45

/-- What a route does, as far as it is about static files. -/
inductive Handler where
  | responseWithFileInStorage
  | other
deriving DecidableEq

/-- The routes in the order of `API::setup`, each of them for both methods. -/
def routes : List (Pattern × Handler) :=
  [(.literal (ascii "/api"), .other),
    (.literal (ascii "/telemetryevent"), .other),
    (.literal (ascii "/recap/api"), .other),
    (.literal (ascii "/bootstrap/api"), .other),
    (.literal (ascii "/bootstrap/launcher/"), .other),
    (.below (ascii "/bootstrap/launcher/") pathCharacter false, .responseWithFileInStorage),
    (.literal (ascii "/Game/api"), .other),
    (.below (ascii "/template_png/") nameCharacter true, .responseWithFileInStorage),
    (.below (ascii "/creature_png/") nameCharacter true, .other),
    (.literal (ascii "/Game/service/png"), .other),
    (.literal (ascii "/survey/api"), .other),
    (.literal (ascii "/qos/qos"), .other),
    (.literal (ascii "/qos/firewall"), .other),
    (.literal (ascii "/qos/firetype"), .other),
    (.anyBetween (ascii "/favicon") (ascii "ico"), .other),
    (.below (ascii "/assets/") pathCharacter false, .responseWithFileInStorage),
    (.below (ascii "/web/sporelabsGame/") pathCharacter false, .responseWithFileInStorage),
    (.literal (ascii "/web/sporelabs/alerts"), .other),
    (.literal (ascii "/web/sporelabs/resetpassword"), .other),
    (.below (ascii "/web/sporelabs/") pathCharacter false, .other)]

/-- `Router::run`, by what the first route that fits does. -/
def route (resource : Bytes) : Option Handler :=
  (routes.find? fun entry => entry.1.equals resource).map Prod.snd

/-- The files of the server. -/
structure FileSystem where
  present : Bytes → Bool
  isDirectory : Bytes → Bool

/-- Whether the last character of a text is a separator. -/
def endsWithSlash (text : Bytes) : Bool :=
  text.getLast? = some slash

/-- `API::responseWithFileInStorage`, by the file that it opens. -/
def responseWithFileInStorage (files : FileSystem) (resource path : Bytes) : Option Bytes :=
  let name := if endsWithSlash path ∧ resource.head? = some slash then resource.tail else resource
  let name := if endsWithSlash name then name ++ ascii "index.html" else name
  let wholePath := path ++ name
  if !files.present wholePath || files.isDirectory wholePath then
    if files.present (wholePath ++ ascii "/index.html") then some (wholePath ++ ascii "/index.html")
    else none
  else some wholePath

/-- The check that `handle_request` makes of a target. -/
def accepts (target : Bytes) : Bool :=
  target.head? = some slash ∧ URI.find target parent 0 = none

/-- `handle_request`, by the file that a static route opens below a directory. -/
def handleRequest (files : FileSystem) (path target : Bytes) : Option Bytes :=
  if accepts target then
    match route (URI.resource target) with
    | some .responseWithFileInStorage => responseWithFileInStorage files (URI.resource target) path
    | _ => none
  else none

end Recap.HTTP
