import SqlLayout.Files.Bytes
import SqlLayout.Text.Numeral

/-!
# Document identifiers

An editor names a document by a URI. The same document has many spellings: any character can be
written as percent signs with the hexadecimal bytes of its encoding. Two spellings name the same
document if they are equal once that is undone (`percentDecode`); the case of letters matters.
`Uri.parse` cuts a spelling into its parts, which is how the file of a document is found. Like the
rest of the host, this stands for a library that the editor service runs in.
-/

namespace SqlLayout.Host

/-- An identifier of a document in its parts, none of which is encoded. -/
structure Uri where
  scheme : Text
  authority : Text
  path : Text
  query : Text
  fragment : Text
deriving DecidableEq

/-- The bytes of a text in which percent signs with two hexadecimal digits stand for bytes. -/
def percentBytes : Text → Bytes
  | '%' :: a :: b :: rest =>
    match Text.hexDigit? a, Text.hexDigit? b with
    | some high, some low => (16 * high + low).toUInt8 :: percentBytes rest
    | _, _ => Text.bytes ['%'] ++ percentBytes (a :: b :: rest)
  | c :: rest => Text.bytes [c] ++ percentBytes rest
  | [] => []

/-- The text that an identifier, or a part of one, stands for. -/
def percentDecode (t : Text) : Text :=
  Utf8.mend (percentBytes t)

/-- The part of a text in front of the first mark and the part behind it. -/
def cutAt (mark : Char) (t : Text) : Text × Text :=
  let first := t.takeWhile (· ≠ mark)
  (first, t.drop (first.length + 1))

namespace Uri

def isSchemeChar (c : Char) : Bool :=
  c.isAlphanum || c == '+' || c == '-' || c == '.'

/-- The scheme in front of the first colon, in small letters, and the rest. -/
def splitScheme (t : Text) : Text × Text :=
  match cutAt ':' t with
  | ([], _) => ([], t)
  | (c :: cs, rest) =>
    if cs.length + 1 < t.length ∧ c.isAlpha ∧ cs.all isSchemeChar then
      ((c :: cs).map Char.toLower, rest)
    else ([], t)

def splitAuthority : Text → Text × Text
  | '/' :: '/' :: t =>
    let authority := t.takeWhile fun c => c ≠ '/' && c ≠ '?' && c ≠ '#'
    (authority, t.drop authority.length)
  | t => ([], t)

/-- A spelling without what does not belong to it: control characters and spaces at its start, and
tabs and line ends anywhere. -/
def clean (t : Text) : Text :=
  (t.dropWhile fun c => c.toNat ≤ 32).filter fun c => c ≠ '\t' && c ≠ '\r' && c ≠ '\n'

def parse (t : Text) : Uri :=
  let (scheme, t) := splitScheme (clean t)
  let (authority, t) := splitAuthority t
  let (t, fragment) := cutAt '#' t
  let (path, query) := cutAt '?' t
  { scheme, authority := percentDecode authority, path := percentDecode path,
    query := percentDecode query, fragment := percentDecode fragment }

/-- The path of the file that an identifier names: a drive stands in small without the slash before
it, and a host before the path. -/
def filePath (u : Uri) : Text :=
  if !u.authority.isEmpty && !u.path.isEmpty && u.scheme = "file".toList then
    '/' :: '/' :: u.authority ++ u.path
  else
    match u.path with
    | '/' :: c :: ':' :: rest => if c.isAlpha then c.toLower :: ':' :: rest else u.path
    | path => path

end Uri

end SqlLayout.Host
