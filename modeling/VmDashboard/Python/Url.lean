import VmDashboard.Python.Case
import VmDashboard.Python.IpAddress

/-!
# `urllib.parse.urlsplit` and `urlparse`

The parts of a URL, and the host and port read from its network location. `none` and
`.error` stand for a `ValueError`. The NFKC normalisation of the Unicode tables is an argument.
-/

namespace Python

structure SplitResult where
  scheme : List Char
  netloc : List Char
  deriving DecidableEq

/-- `text.partition(c)`, without the separator; the flag says whether it was found. -/
def partition (c : Char) (cs : List Char) : List Char × Bool × List Char :=
  match cs.span (· ≠ c) with
  | (before, []) => (before, false, [])
  | (before, _ :: after) => (before, true, after)

/-- `text.rpartition(c)[2]`. -/
def afterLast (c : Char) (cs : List Char) : List Char :=
  (cs.reverse.takeWhile (· ≠ c)).reverse

def isAsciiLetter (c : Char) : Bool := ('a' ≤ c && c ≤ 'z') || ('A' ≤ c && c ≤ 'Z')

def isSchemeChar (c : Char) : Bool := isAsciiLetter c || isAsciiDigit c || "+-.".toList.contains c

/-- The scheme in lower case, and what follows its colon. -/
def splitScheme (cs : List Char) : List Char × List Char :=
  let (before, found, after) := partition ':' cs
  if found && before.head?.any isAsciiLetter && before.all isSchemeChar then
    (lowerChars [] before, after)
  else ([], cs)

/-- `\Av[a-fA-F0-9]+\..+\Z`. -/
def isIpvFuture (cs : List Char) : Bool :=
  match cs with
  | 'v' :: rest =>
    let digits := rest.takeWhile isHexDigit
    digits ≠ [] && (match rest.drop digits.length with
      | '.' :: tail => tail ≠ [] && !tail.contains '\n'
      | _ => false)
  | _ => false

def checkBracketedHost (hostname : List Char) : Bool :=
  if hostname.head? = some 'v' then isIpvFuture hostname
  else
    match ipAddress (String.ofList hostname) with
    | some (.v6 ..) => true
    | _ => false

def checkBracketedNetloc (netloc : List Char) : Bool :=
  let (before, bracket, bracketed) := partition '[' (afterLast '@' netloc)
  if bracket then
    let (hostname, _, port) := partition ']' bracketed
    before = [] && (port = [] || port.head? = some ':') && checkBracketedHost hostname
  else checkBracketedHost (partition ':' before).1

/-- `_checknetloc`: no character of the netloc stands for a delimiter under NFKC. -/
def checkNetloc (nfkc : List Char → List Char) (netloc : List Char) : Bool :=
  let plain := netloc.filter fun c => !"@:#?".toList.contains c
  netloc.all (·.toNat < 128) || nfkc plain = plain ||
    (nfkc plain).all fun c => !"/?#@:".toList.contains c

def urlsplit (nfkc : List Char → List Char) (url : String) : Option SplitResult :=
  let cs := (url.toList.dropWhile (·.toNat ≤ 32)).filter fun c => !"\t\r\n".toList.contains c
  let (scheme, rest) := splitScheme cs
  match rest with
  | '/' :: '/' :: rest =>
    let netloc := rest.takeWhile fun c => !"/?#".toList.contains c
    let opening := netloc.contains '['
    if opening ≠ netloc.contains ']' || (opening && !checkBracketedNetloc netloc) ||
      !checkNetloc nfkc netloc then none
    else some ⟨scheme, netloc⟩
  | _ => some ⟨scheme, []⟩

/-- `_hostinfo`. -/
def SplitResult.hostinfo (parts : SplitResult) : List Char × List Char :=
  let hostinfo := afterLast '@' parts.netloc
  let (_, bracket, bracketed) := partition '[' hostinfo
  if bracket then
    let (hostname, _, port) := partition ']' bracketed
    (hostname, (partition ':' port).2.2)
  else
    let (hostname, _, port) := partition ':' hostinfo
    (hostname, port)

/-- The host, its zone left as it is; `none` for an empty one. -/
def SplitResult.hostname (parts : SplitResult) : Option String :=
  let (name, percent, zone) := partition '%' parts.hostinfo.1
  if parts.hostinfo.1 = [] then none
  else some (String.ofList (lowerChars [] name ++ if percent then '%' :: zone else []))

def SplitResult.port (parts : SplitResult) : Except String (Option ℕ) :=
  let port := parts.hostinfo.2
  if port = [] then .ok none
  else if !port.all isAsciiDigit then
    .error ("Port could not be cast to integer value as " ++ reprText (String.ofList port))
  else if 4300 < port.length then
    .error ("Exceeds the limit (4300 digits) for integer string conversion: value has " ++
      toString port.length ++ " digits; use sys.set_int_max_str_digits() to increase the limit")
  else if 65535 < numeral 10 port then .error "Port out of range 0-65535"
  else .ok (some (numeral 10 port))

/-! ### What follows the network location -/

structure ParseResult extends SplitResult where
  path : List Char
  params : List Char
  query : List Char
  fragment : List Char
  deriving DecidableEq

/-- `uses_params`. -/
def usesParams : List String :=
  ["", "ftp", "hdl", "prospero", "http", "https", "shttp", "rtsp", "rtspu", "sip", "sips", "mms",
   "sftp", "tel"]

/-- `_splitparams`: the first semicolon of the last segment. -/
def splitParams (path : List Char) : List Char × List Char :=
  let segment := afterLast '/' path
  let (before, _, params) := partition ';' segment
  (path.take (path.length - segment.length) ++ before, params)

def urlparse (nfkc : List Char → List Char) (url : String) : Option ParseResult :=
  (urlsplit nfkc url).map fun parts =>
    let cs := (url.toList.dropWhile (·.toNat ≤ 32)).filter fun c => !"\t\r\n".toList.contains c
    let rest := match (splitScheme cs).2 with
      | '/' :: '/' :: rest => rest.dropWhile fun c => !"/?#".toList.contains c
      | rest => rest
    let (rest, _, fragment) := partition '#' rest
    let (path, _, query) := partition '?' rest
    let (path, params) :=
      if String.ofList parts.scheme ∈ usesParams then splitParams path else (path, [])
    { parts with path, params, query, fragment }

example : (urlparse id "https://sts.eu-west-1.amazonaws.com/a/b;c?d#e").map
      (fun parts => (parts.path, parts.params, parts.query, parts.fragment)) =
    some ("/a/b".toList, "c".toList, "d".toList, "e".toList) := by decide +kernel

example : (urlsplit id "HTTP://user@[::FFFF:127.0.0.1%Eth]:8080/x").map
      (fun parts => (parts.hostname, parts.port.toOption)) =
    some (some "::ffff:127.0.0.1%Eth", some (some 8080)) := by decide +kernel

end Python
