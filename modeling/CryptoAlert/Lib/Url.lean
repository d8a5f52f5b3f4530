import CryptoAlert.Lib.Text

/-!
# Splitting and reassembling URLs

The splitting of a URL into scheme, network location, path, query and fragment, and the
inverse, for network locations without a bracketed host.
-/

namespace CryptoAlert.Url

open Text

def isSchemeChar (c : Char) : Bool :=
  c.isAlphanum || c == '+' || c == '-' || c == '.'

/-- The schemes whose URLs have a network location. -/
def usesNetloc : List String :=
  ["", "ftp", "http", "gopher", "nntp", "telnet", "imap", "wais", "file", "mms", "https",
    "shttp", "snews", "prospero", "rtsp", "rtsps", "rtspu", "rsync", "svn", "svn+ssh", "sftp",
    "nfs", "git", "git+ssh", "ws", "wss", "itms-services"]

structure SplitResult where
  scheme : List Char
  netloc : List Char
  path : List Char
  query : List Char
  fragment : List Char
deriving DecidableEq, Repr

/-- The text before the first `c` and, if there is one, the text behind it. -/
def partition (c : Char) (s : List Char) : List Char × Option (List Char) :=
  match s.dropWhile (· != c) with
  | [] => (s, none)
  | _ :: rest => (s.takeWhile (· != c), some rest)

/-- Cuts off the scheme if what precedes the first colon is one. -/
def splitScheme (url : List Char) : List Char × List Char :=
  match partition ':' url with
  | (first :: more, some rest) =>
      if first.isAlpha && (first :: more).all isSchemeChar then
        ((first :: more).map Char.toLower, rest)
      else ([], url)
  | _ => ([], url)

/-- Cuts off the network location, up to the first of `/`, `?` and `#`. -/
def splitNetloc (url : List Char) : List Char × List Char :=
  match url with
  | '/' :: '/' :: rest =>
      let stop := fun c => !(c == '/' || c == '?' || c == '#')
      (rest.takeWhile stop, rest.dropWhile stop)
  | _ => ([], url)

variable (u : UnicodeData)

/-- Rejects a network location that normalisation would turn into one with a delimiter. -/
def checkNetloc (netloc : List Char) : Bool :=
  if netloc.all (·.toNat < 128) then true
  else
    let n := netloc.filter fun c => !(c == '@' || c == ':' || c == '#' || c == '?')
    let normal := u.nfkc n
    n == normal ||
      !(normal.any fun c => c == '/' || c == '?' || c == '#' || c == '@' || c == ':')

/-- `none` where the splitting raises. -/
def urlsplit (url : List Char) : Option SplitResult :=
  let url := url.dropWhile (·.toNat ≤ 32)
  let url := url.filter fun c => !(c == '\t' || c == '\r' || c == '\n')
  let (scheme, url) := splitScheme url
  let (netloc, url) := splitNetloc url
  let (url, fragment) := partition '#' url
  let (path, query) := partition '?' url
  if checkNetloc u netloc then
    some ⟨scheme, netloc, path, query.getD [], fragment.getD []⟩
  else none

namespace SplitResult

/-- Host and port of the network location behind the credentials. -/
def hostinfo (parts : SplitResult) : List Char × Option (List Char) :=
  let (hostname, port) := partition ':' (parts.netloc.rtakeWhile (· != '@'))
  (hostname, port.filter fun p => !p.isEmpty)

/-- The host in lower case; a zone identifier keeps its case. -/
def hostname (parts : SplitResult) : Option (List Char) :=
  let host := parts.hostinfo.1
  if host.isEmpty then none
  else some (u.lower (host.takeWhile (· != '%')) ++ host.dropWhile (· != '%'))

/-- The port, `none` if it is absent or is no number up to 65535. -/
def port (parts : SplitResult) : Option Nat :=
  match parts.hostinfo.2 with
  | none => none
  | some digits =>
      if digits.all Char.isDigit && digits.length ≤ 4300 then
        let n := digits.foldl (fun n c => 10 * n + (c.toNat - 48)) 0
        if n ≤ 65535 then some n else none
      else none

end SplitResult

/-- Reassembles scheme, network location and path. -/
def urlunsplit (scheme netloc path : List Char) : List Char :=
  let rooted :=
    if !path.isEmpty && path.head? != some '/' then '/' :: path else path
  let url :=
    if !netloc.isEmpty then '/' :: '/' :: netloc ++ rooted
    else if path.take 2 == ['/', '/'] then '/' :: '/' :: path
    else if !scheme.isEmpty && usesNetloc.contains (String.ofList scheme) &&
        (path.isEmpty || path.head? == some '/') then '/' :: '/' :: path
    else path
  if scheme.isEmpty then url else scheme ++ ':' :: url

theorem urlunsplit_scheme {scheme : List Char} (hs : scheme ≠ []) (netloc path : List Char) :
    ∃ rest, urlunsplit scheme netloc path = scheme ++ ':' :: rest := by
  have hempty : scheme.isEmpty = false := by simpa using hs
  simp only [urlunsplit, hempty]
  exact ⟨_, rfl⟩

end CryptoAlert.Url
