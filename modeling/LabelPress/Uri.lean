import LabelPress.Charset.Utf8
import LabelPress.Decimal.Reader
import LabelPress.Text.Hex

/-!
# Addresses

The parts of an address, and addresses that are given relative to another one. An address without a
scheme is relative; `.` and `..` among the names of its path are followed.
-/

namespace LabelPress

structure Uri where
  scheme : String := ""
  authority : String := ""
  path : String := ""
  query : String := ""
  fragment : String := ""
  deriving DecidableEq, Repr

namespace Uri

/-- The schemes whose addresses have names in a path, so that one can be relative to another. -/
def pathSchemes : List String := [
  "", "ftp", "http", "gopher", "nntp", "imap", "wais", "file", "https", "shttp", "mms", "prospero",
  "rtsp", "rtsps", "rtspu", "sftp", "svn", "svn+ssh", "ws", "wss"]

/-- The schemes whose addresses begin with two slashes even if no authority follows. -/
def hostSchemes : List String := [
  "", "ftp", "http", "gopher", "nntp", "telnet", "imap", "wais", "file", "mms", "https", "shttp",
  "snews", "prospero", "rtsp", "rtsps", "rtspu", "rsync", "svn", "svn+ssh", "sftp", "nfs", "git",
  "git+ssh", "ws", "wss"]

/-- What stands before the first occurrence of a character, and what stands after it. -/
def cutAt (c : Char) (cs : List Char) : List Char × Option (List Char) :=
  match cs.dropWhile (· != c) with
  | [] => (cs, none)
  | _ :: rest => (cs.takeWhile (· != c), some rest)

def isScheme (cs : List Char) : Bool :=
  match cs with
  | [] => false
  | c :: _ => c.isAlpha && cs.all fun c => c.isAlphanum || "+-.".toList.contains c

/-- A scheme before a colon, or another one, and the rest. -/
def splitScheme (cs : List Char) (default : String) : String × List Char :=
  match cutAt ':' cs with
  | (scheme, some rest) =>
    if isScheme scheme then (String.ofList (scheme.map Decimal.lowerAscii), rest)
    else (default, cs)
  | (_, none) => (default, cs)

/-- The authority behind two slashes, and the rest. -/
def splitAuthority (cs : List Char) : List Char × List Char :=
  match cs with
  | '/' :: '/' :: rest =>
    let isEnd (c : Char) : Bool := c == '/' || c == '?' || c == '#'
    (rest.takeWhile (!isEnd ·), rest.dropWhile (!isEnd ·))
  | _ => ([], cs)

/-- The parts of an address, the scheme of which may be given from elsewhere. -/
def parse (s : String) (default : String) : Uri :=
  let cs := (s.toList.dropWhile (· ≤ ' ')).filter fun c => c != '\t' && c != '\r' && c != '\n'
  let (scheme, cs) := splitScheme cs default
  let (authority, cs) := splitAuthority cs
  let (cs, fragment) := cutAt '#' cs
  let (path, query) := cutAt '?' cs
  { scheme
    authority := String.ofList authority
    path := String.ofList path
    query := String.ofList (query.getD [])
    fragment := String.ofList (fragment.getD []) }

def render (u : Uri) : String :=
  let hosted := u.authority ≠ "" ∨ (u.scheme ≠ "" ∧ hostSchemes.contains u.scheme) ∨
    "//".isPrefixOf u.path
  let path :=
    if hosted then
      "//" ++ u.authority ++ (if u.path ≠ "" ∧ !"/".isPrefixOf u.path then "/" else "") ++ u.path
    else u.path
  (if u.scheme = "" then "" else u.scheme ++ ":") ++ path ++
    (if u.query = "" then "" else "?" ++ u.query) ++
    if u.fragment = "" then "" else "#" ++ u.fragment

def names (path : String) : List String :=
  (path.toList.splitOn '/').map String.ofList

/-- The names without those that stand for the folder itself or for the one above it. -/
def follow (names : List String) : List String :=
  names.foldl (fun done name =>
    if name = ".." then done.dropLast
    else if name = "." then done
    else done ++ [name]) []

def joinPaths (base path : String) : String :=
  let own := names path
  let before := names base
  let before := if before.getLast? = some "" then before else before.dropLast
  let all :=
    if "/".isPrefixOf path then own
    else
      let all := before ++ own
      all.take 1 ++ ((all.drop 1).dropLast.filter (· ≠ "")) ++ (all.drop 1).getLast?.toList
  let last := all.getLast?.getD ""
  let done := follow all ++ if last = "." ∨ last = ".." then [""] else []
  let joined := "/".intercalate done
  if joined = "" then "/" else joined

def join (base address : String) : String :=
  if base = "" then address
  else if address = "" then base
  else
    let b := parse base ""
    let u := parse address b.scheme
    if u.scheme ≠ b.scheme ∨ !pathSchemes.contains u.scheme then address
    else if u.authority ≠ "" then u.render
    else if u.path = "" then
      { u with
        authority := b.authority, path := b.path
        query := if u.query = "" then b.query else u.query }.render
    else { u with authority := b.authority, path := joinPaths b.path u.path }.render

/-- An address without its fragment, and the fragment. -/
def splitFragment (address : String) : String × String :=
  if address.toList.contains '#' then
    let u := parse address ""
    ({ u with fragment := "" }.render, u.fragment)
  else (address, "")

/-- An address without the marks of empty fragments at its end. -/
def stripFragment (address : String) : String :=
  String.ofList (address.toList.reverse.dropWhile (· == '#')).reverse

/-- The bytes that a text begins with as percent signs with two hexadecimal digits, and the rest. -/
def takeBytes : List Char → List UInt8 × List Char
  | '%' :: a :: b :: rest =>
    match Text.hexNumber? [a, b] with
    | some n =>
      let (bytes, rest) := takeBytes rest
      (n.toUInt8 :: bytes, rest)
    | none => ([], '%' :: a :: b :: rest)
  | rest => ([], rest)

theorem length_takeBytes (cs : List Char) : (takeBytes cs).2.length ≤ cs.length := by
  fun_induction takeBytes cs with
  | case1 a b rest n h bytes rest' hb ih =>
    simp only [hb, List.length_cons] at ih ⊢
    omega
  | case2 => simp
  | case3 => simp

theorem length_lt_of_takeBytes {cs tail : List Char} {b : UInt8} {bytes : List UInt8}
    (h : takeBytes cs = (b :: bytes, tail)) : tail.length < cs.length := by
  unfold takeBytes at h
  split at h
  · next a a' rest =>
    split at h
    · have hrest := length_takeBytes rest
      simp only [Prod.mk.injEq] at h
      rw [h.2] at hrest
      simp only [List.length_cons]
      omega
    · simp at h
  · simp at h

/-- The first character of bytes in UTF-8, and how many bytes it takes. -/
def firstChar? (bytes : List UInt8) : Option (Nat × Char) :=
  [1, 2, 3, 4].findSome? fun n =>
    match Charset.decodeUtf8 (bytes.take n) with
    | .ok [c] => some (n, c)
    | _ => none

/-- The characters of bytes in UTF-8; U+FFFD stands for a byte that is no part of one. -/
def decodeBytes (bytes : List UInt8) : List Char :=
  match bytes with
  | [] => []
  | b :: rest =>
    match firstChar? (b :: rest) with
    | some (n, c) => c :: decodeBytes (rest.drop (n - 1))
    | none => '\ufffd' :: decodeBytes rest
termination_by bytes.length

/-- Characters with percent signs and digits in place of some of them, as the characters meant. -/
def unescape (cs : List Char) : List Char :=
  match cs with
  | [] => []
  | c :: rest =>
    match _h : takeBytes (c :: rest) with
    | ([], _) => c :: unescape rest
    | (b :: bytes, tail) => decodeBytes (b :: bytes) ++ unescape tail
termination_by cs.length
decreasing_by
  · exact Nat.lt_succ_self _
  · exact length_lt_of_takeBytes _h

end Uri

end LabelPress
