import FogHttp.Lib.Delimiter
import FogHttp.Multipart.Stream

/-!
# A reference parser for multipart bodies

`parse` reads a `multipart/form-data` body with no knowledge of how it was
written.  A delimiter is a line that starts with two hyphens and the boundary,
wherever it stands.  So the body is cut at every line break in front of one,
with a line break added before the body.  What is behind a delimiter is a part,
or two hyphens after the last one.

The headers of a part are lines, each a name and a value around the first `": "`.
The parameters of `Content-Disposition` are quoted strings, and a backslash in
one stands for the character behind it.
-/

namespace FogHttp.Multipart

open Lib

/-- A parsed part. -/
structure Part where
  headerNames : List Text
  parameters : List (Text × Text)
  contentType : Option Text
  content : Bytes
deriving DecidableEq

/-- ASCII bytes as text. -/
def decodeAscii (bytes : Bytes) : Option Text :=
  if bytes.all fun byte => byte.toNat < 0x80 then
    some (bytes.map fun byte => Char.ofNat byte.toNat)
  else none

/-- The value of a quoted string behind its opening quote, and the text behind the closing
one. -/
def unquote : Text → Option (Text × Text)
  | [] => none
  | '"' :: rest => some ([], rest)
  | '\\' :: c :: rest => (unquote rest).map fun (value, after) => (c :: value, after)
  | ['\\'] => none
  | c :: rest => (unquote rest).map fun (value, after) => (c :: value, after)

/-- The text behind `pre`. -/
def stripText (pre text : Text) : Option Text :=
  if pre.isPrefixOf text then some (text.drop pre.length) else none

/-- At most `count` parameters, each behind a semicolon and a blank. -/
def parseParameters : Nat → Text → Option (List (Text × Text))
  | 0, text => if text.isEmpty then some [] else none
  | count + 1, text =>
      if text.isEmpty then some []
      else do
        let text ← stripText "; " text
        let (name, text) ← cut "=\"" text
        let (value, text) ← unquote text
        let parameters ← parseParameters count text
        some ((name, value) :: parameters)

/-- The parameters of `Content-Disposition: form-data`. -/
def parseDisposition (value : Text) : Option (List (Text × Text)) := do
  let text ← stripText "form-data" value
  parseParameters text.length text

/-- One header line. -/
def parseHeader (line : Bytes) : Option (Text × Text) := do
  let text ← decodeAscii line
  cut ": " text

/-- The part behind a delimiter line. -/
def parsePart (text : Bytes) : Option Part := do
  let (head, content) ← cut (CRLF ++ CRLF) text
  let headers ← (splitEach CRLF head).mapM parseHeader
  let disposition ← headers.lookup ("Content-Disposition" : Text)
  let parameters ← parseDisposition disposition
  some ⟨headers.map Prod.fst, parameters, headers.lookup ("Content-Type" : Text), content⟩

/-- The parts behind the delimiters, up to the closing one. -/
def parseParts : List Bytes → Option (List Part)
  | [] => none
  | piece :: pieces =>
      if (encode "--").isPrefixOf piece then some []
      else if CRLF.isPrefixOf piece then do
        let part ← parsePart (piece.drop CRLF.length)
        let parts ← parseParts pieces
        some (part :: parts)
      else none

/-- The parts of a body.  What is before the first delimiter is skipped. -/
def parse (boundary : Text) (body : Bytes) : Option (List Part) :=
  parseParts (splitEach (encode (crlf ++ "--".toList ++ boundary)) (CRLF ++ body)).tail

/-! ## What a payload stands for -/

/-- The bytes of a content that is not made by a factory. -/
def FileContent.body : FileContent → Bytes
  | .bytes content => content
  | .iterable chunks => chunks.flatten
  | .asyncIterable chunks => chunks.flatten
  | .callable fresh =>
      match (freshContent fresh).1 with
      | .bytes content => content
      | .iterable chunks => chunks.flatten
      | .asyncIterable chunks => chunks.flatten
      | .callable _ => []

def MultipartField.part (field : MultipartField) : Part :=
  ⟨["Content-Disposition"], [("name", field.name)], none, field.content⟩

def MultipartFile.part (file : MultipartFile) : Part :=
  ⟨["Content-Disposition", "Content-Type"], [("name", file.name), ("filename", file.filename)],
    some file.contentType, file.content.body⟩

/-- The parts of a payload, in the order of the body. -/
def MultipartPayload.parts (payload : MultipartPayload) : List Part :=
  payload.fields.map MultipartField.part ++ payload.files.map MultipartFile.part

/-- A content that holds no delimiter line, and does not start with one. -/
def Avoids (boundary : Boundary) (content : Bytes) : Prop :=
  ¬ encode (crlf ++ "--".toList ++ boundary.text) <:+: content ∧
    ¬ encode ("--".toList ++ boundary.text) <+: content

instance (boundary : Boundary) (content : Bytes) : Decidable (Avoids boundary content) :=
  inferInstanceAs (Decidable (_ ∧ _))

end FogHttp.Multipart
