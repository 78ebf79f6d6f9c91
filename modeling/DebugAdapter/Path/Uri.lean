import DebugAdapter.Path.Basic
import DebugAdapter.Text.Hex
import DebugAdapter.Text.Utf8

/-!
# File URIs

Conversion of absolute paths to `file` URIs and back. A path with a drive letter has backslashes and
no slash in front; in a URI it has slashes and one in front. Bytes that are not plain are written
with a percent sign and two digits.
-/

namespace DebugAdapter.Path

/-- The path starts with a drive letter and a colon. -/
def startsWithDrive : List Char → Bool
  | letter :: ':' :: _ => letter.isAlpha
  | _ => false

/-- A byte that stands for itself in a URI. -/
def isPlainByte (b : UInt8) : Bool :=
  let c := Char.ofNat b.toNat
  b < 0x80 && (c.isAlphanum || c == '-' || c == '.' || c == '_' || c == '~' || c == '/' || c == ':')

/-- A byte as it is written in a URI. -/
def percentEncode (b : UInt8) : List Char :=
  if isPlainByte b then [Char.ofNat b.toNat]
  else '%' :: Text.hexFixed Text.hexDigitUpper 2 b.toNat

/-- The byte that two characters after a percent sign mean. A plus sign may stand in the place of the
first digit. -/
def percentByte? (a b : Char) : Option UInt8 := do
  let low ← Text.hexValue? b
  if a = '+' then return UInt8.ofNat low
  let high ← Text.hexValue? a
  return UInt8.ofNat (high * 16 + low)

/-- The bytes that a part of a URI means. -/
def percentDecode? : List Char → Option (List UInt8)
  | [] => some []
  | '%' :: a :: b :: rest => do
    let byte ← percentByte? a b
    return byte :: (← percentDecode? rest)
  | c :: rest =>
    -- fewer than two characters are left behind the sign
    if c = '%' then none
    else (percentDecode? rest).map (String.utf8EncodeChar c ++ ·)

/-- The absolute path that is put into a URI: with slashes, and with one in front. -/
def uriPath? (path : List Char) : Option (List Char) :=
  let path := forward path
  if path.head? = some '/' then some path
  else if startsWithDrive path then some ('/' :: path)
  else none

/-- The URI of an absolute path. -/
def toUri? (path : String) : Option String :=
  (uriPath? path.toList).map fun p =>
    "file://" ++ String.ofList ((Text.Utf8.encode (String.ofList p)).flatMap percentEncode)

/-- The path behind the authority of a `file` URI, which is empty or the local host. -/
def localPart? (uri : List Char) : Option (List Char) :=
  let scheme := "file://".toList
  if scheme.isPrefixOf uri then
    let (authority, path) := (uri.drop scheme.length).span (· != '/')
    if path.isEmpty then none
    else if authority = [] || authority = "localhost".toList then some path
    else none
  else none

/-- The path of a `file` URI. -/
def ofUri? (uri : String) : Option String := do
  let bytes ← percentDecode? (← localPart? uri.toList)
  let path := (← Text.Utf8.decode? bytes).toList
  let withoutRoot := path.drop 1
  -- a drive letter stands behind the root in a URI, but at the front of a path
  return String.ofList (if startsWithDrive withoutRoot then backward withoutRoot else path)

end DebugAdapter.Path
