import FogHttp.Lib.Generator
import FogHttp.Multipart.Payload

/-!
# The streams of a multipart body

A part is a delimiter line, its headers, an empty line, the content and a line
break.  `MultipartStream` yields the fields and then the files, and
`AsyncMultipartStream` yields the same from asynchronous contents.  A payload
with factories is made fresh first.

Closing the sources, the thread of `SyncIteratorRunner` and the event loop are
left out: the runner hands the chunks of its iterator on one by one.
-/

namespace FogHttp.Multipart

open Lib

/-- A generator of byte chunks. -/
abbrev ByteGenerator := Generated PyError Bytes Unit

def crlf : Text := ['\r', '\n']

def CRLF : Bytes := encode crlf

/-! ## Encoding -/

def boundaryPrefix : Text := "foghttp-"

/-- A digit of `bytes.hex()`. -/
def hexDigit (digit : Nat) : Char :=
  if digit < 10 then Char.ofNat ('0'.toNat + digit) else Char.ofNat ('a'.toNat + (digit - 10))

/-- `token_hex` of the random bytes. -/
def tokenHex (bytes : List UInt8) : Text :=
  bytes.flatMap fun byte => [hexDigit (byte.toNat / 16), hexDigit (byte.toNat % 16)]

theorem isHeaderValueChar_hexDigit {digit : Nat} (h : digit < 16) :
    isHeaderValueChar (hexDigit digit) = true := by
  have hdigits : ∀ digit : Fin 16, isHeaderValueChar (hexDigit digit.val) = true := by decide
  exact hdigits ⟨digit, h⟩

/-- `generate_boundary` with the random bytes of `token_hex`. -/
def generateBoundary (bytes : List UInt8) : Boundary where
  text := boundaryPrefix ++ tokenHex bytes
  printable := by
    rw [List.all_append, Bool.and_eq_true]
    refine ⟨rfl, List.all_eq_true.mpr fun c hmem => ?_⟩
    obtain ⟨byte, -, hdigit⟩ := List.mem_flatMap.mp hmem
    have hlt := byte.toNat_lt
    simp only [List.mem_cons, List.not_mem_nil, or_false] at hdigit
    rcases hdigit with rfl | rfl
    · exact isHeaderValueChar_hexDigit (by omega)
    · exact isHeaderValueChar_hexDigit (by omega)

/-- One parameter of `_disposition_header`. -/
def dispositionParam (name value : Text) : Except PyError Text := do
  let quoted ← quotedHeaderValue value
  .ok (name ++ "=\"".toList ++ quoted ++ "\"".toList)

/-- `_disposition_header`. -/
def dispositionHeader (params : List (Text × Text)) : Except PyError Text := do
  let encodedParams ← params.mapM fun (name, value) => dispositionParam name value
  .ok ("Content-Disposition: form-data; ".toList ++
    List.intercalate "; ".toList encodedParams)

/-- `_headers_text`. -/
def headersText (dispositionParams : List (Text × Text)) (contentType : Option Text) :
    Except PyError Text := do
  let disposition ← dispositionHeader dispositionParams
  match contentType with
  | none => .ok disposition
  | some contentType => do
      let value ← headerValue contentType
      .ok (List.intercalate crlf [disposition, "Content-Type: ".toList ++ value])

/-- `_part_header`. -/
def partHeader (boundary : Boundary) (dispositionParams : List (Text × Text))
    (contentType : Option Text) : Except PyError Bytes := do
  let headerText ← headersText dispositionParams contentType
  .ok (encode ("--".toList ++ boundary.text ++ crlf ++ headerText ++ crlf ++ crlf))

/-- `field_header`. -/
def fieldHeader (boundary : Boundary) (field : MultipartField) : Except PyError Bytes :=
  partHeader boundary [("name", field.name)] none

/-- `file_header`. -/
def fileHeader (boundary : Boundary) (file : MultipartFile) : Except PyError Bytes :=
  partHeader boundary [("name", file.name), ("filename", file.filename)] file.contentType

/-- `closing_boundary`.  On printable ASCII `encode("ascii")` is `encode()`. -/
def closingBoundary (boundary : Boundary) : Bytes :=
  encode ("--".toList ++ boundary.text ++ "--".toList ++ crlf)

/-! ## Iterators -/

/-- `yield chunk`. -/
def yieldBytes (chunk : Bytes) : ByteGenerator := .one chunk ()

/-- `yield` of an expression that may raise. -/
def yieldResult (chunk : Except PyError Bytes) : ByteGenerator :=
  (Generated.lift chunk).andThen yieldBytes

/-- `iter_fields`. -/
def iterFields (boundary : Boundary) (fields : List MultipartField) : ByteGenerator :=
  Generated.forEach (fun field =>
    (yieldResult (fieldHeader boundary field)).andThen fun () =>
      (yieldBytes field.content).andThen fun () => yieldBytes CRLF) fields

/-- `iter_file_content`. -/
def iterFileContent (file : MultipartFile) : ByteGenerator :=
  match file.content with
  | .bytes content => yieldBytes content
  | .iterable chunks => Generated.forEach yieldBytes chunks
  | .asyncIterable _ => .raise (.typeError multipartFilesUnsupported)
  | .callable _ => .raise (.typeError multipartFilesUnsupported)

/-- `aiter_file_content`. -/
def aiterFileContent (file : MultipartFile) : ByteGenerator :=
  match file.content with
  | .asyncIterable chunks => Generated.forEach yieldBytes chunks
  | .bytes _ => .raise (.typeError multipartFilesUnsupported)
  | .iterable _ => .raise (.typeError multipartFilesUnsupported)
  | .callable _ => .raise (.typeError multipartFilesUnsupported)

/-- `aiter_sync_file_content`. -/
def aiterSyncFileContent (file : MultipartFile) : ByteGenerator :=
  (iterFileContent file).reyield

/-- The round of a file in a stream, with the iterator of its content. -/
def iterFile (boundary : Boundary) (file : MultipartFile) (content : ByteGenerator) :
    ByteGenerator :=
  (yieldResult (fileHeader boundary file)).andThen fun () =>
    content.andThen fun () => yieldBytes CRLF

/-! ## Streams -/

/-- `MultipartStream.__iter__`. -/
def multipartStream (payload : MultipartPayload) : ByteGenerator :=
  (iterFields payload.boundary payload.fields).andThen fun () =>
    (Generated.forEach (fun file => iterFile payload.boundary file (iterFileContent file))
      payload.files).andThen fun () =>
      yieldBytes (closingBoundary payload.boundary)

/-- `AsyncMultipartStream._iterate`. -/
def asyncMultipartStream (payload : MultipartPayload) : ByteGenerator :=
  (iterFields payload.boundary payload.fields).reyield.andThen fun () =>
    (Generated.forEach (fun file => iterFile payload.boundary file
      (if file.asyncSource then aiterFileContent file else aiterSyncFileContent file).reyield)
      payload.files).andThen fun () =>
      yieldBytes (closingBoundary payload.boundary)

/-! ## Fresh payloads -/

/-- The content and the kind of a new source. -/
def freshContent : Source → FileContent × Bool
  | .bytes content => (.bytes content, false)
  | .iterable chunks => (.iterable chunks, false)
  | .binaryFile reads => (fileUploadSource reads, false)
  | .asyncIterable chunks => (.asyncIterable chunks, true)

/-- `_fresh_file`. -/
def freshFile (file : MultipartFile) : MultipartFile :=
  if file.sourceFactory then
    match file.content with
    | .callable fresh =>
        { file with
          content := (freshContent fresh).1
          asyncSource := (freshContent fresh).2
          sourceFactory := false }
    | _ => file
  else file

/-- `_fresh_payload`, which is the payload itself when there is no factory. -/
def freshPayload (payload : MultipartPayload) : MultipartPayload :=
  { payload with files := payload.files.map freshFile }

end FogHttp.Multipart
