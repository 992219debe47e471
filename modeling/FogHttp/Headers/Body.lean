import FogHttp.Headers.Headers
import FogHttp.Multipart.Payload

/-!
# The headers that a body generates

`encode_body` sets the content type of form data, of JSON and of files.  Form data and JSON
only need one: a content type that is there stays.  A multipart body needs its boundary in
the content type, so it completes a content type that is there or rejects it.

What `encode_body` makes of the body itself is left out, also its errors.
-/

namespace FogHttp

open Lib Multipart

def contentTypeHeader : Text := "content-type"

def formUrlencodedContentType : Text := "application/x-www-form-urlencoded"

def jsonContentType : Text := "application/json"

def multipartFormData : Text := "multipart/form-data"

def boundaryParameter : Text := "boundary"

def multipartContentTypeUnsupported : Text := "files require a multipart content-type"

def multipartContentTypeBoundaryUnsupported : Text :=
  "multipart content-type boundary is managed by FogHTTP"

/-! ## Content types -/

/-- `_ContentTypeSplitter`. -/
structure ContentTypeSplitter where
  parts : List Text
  buffer : Text
  inQuote : Bool
  escape : Bool
deriving DecidableEq, Repr

namespace ContentTypeSplitter

def new : ContentTypeSplitter := ⟨[], [], false, false⟩

/-- `_append`. -/
def append (splitter : ContentTypeSplitter) (char : Char) : ContentTypeSplitter :=
  let appended := { splitter with buffer := splitter.buffer ++ [char] }
  if splitter.escape then { appended with escape := false }
  else if char == '\\' && splitter.inQuote then { appended with escape := true }
  else if char == '"' then { appended with inQuote := !splitter.inQuote }
  else if char == ';' && !splitter.inQuote then
    { splitter with parts := splitter.parts ++ [splitter.buffer], buffer := [] }
  else appended

/-- `split`. -/
def split (contentType : Text) : Except PyError (List Text) :=
  let splitter := contentType.foldl append new
  if splitter.inQuote || splitter.escape then
    .error (.valueError multipartContentTypeUnsupported)
  else .ok (splitter.parts ++ [splitter.buffer])

end ContentTypeSplitter

/-- `_content_type_parts`. -/
def contentTypeParts (contentType : Text) : Except PyError (Text × List Text) := do
  let _ ← Multipart.headerValue contentType
  let parts ← ContentTypeSplitter.split contentType
  match (parts.map trim).filter fun part => !part.isEmpty with
  | [] => .error (.valueError multipartContentTypeUnsupported)
  | mediaType :: parameters => .ok (mediaType, parameters)

/-- `_parameter_name`. -/
def parameterName (parameter : Text) : Text :=
  toAsciiLowercase (trim (parameter.takeWhile fun char => char != '='))

/-- `content_type_with_boundary`. -/
def contentTypeWithBoundary (mediaType : Text) (parameters : List Text) (boundary : Text) :
    Text :=
  List.intercalate ("; " : Text)
    (mediaType :: parameters ++ [boundaryParameter ++ '=' :: boundary])

/-- `explicit_content_type_with_boundary`. -/
def explicitContentTypeWithBoundary (contentType boundary : Text) : Except PyError Text := do
  let (mediaType, parameters) ← contentTypeParts contentType
  if toAsciiLowercase mediaType != multipartFormData then
    .error (.valueError multipartContentTypeUnsupported)
  else if parameters.any fun parameter => parameterName parameter == boundaryParameter then
    .error (.valueError multipartContentTypeBoundaryUnsupported)
  else .ok (contentTypeWithBoundary mediaType parameters boundary)

/-! ## Bodies -/

/-- The source of a body, with what its content type depends on. -/
inductive BodySource where
  | none
  | content
  /-- `data` that is `bytes` or a `str`. -/
  | rawData
  | formData
  | json
  | files (boundary : Text)
deriving DecidableEq, Repr

/-- The content type that `encode_body` sets beside an existing one. -/
def BodySource.contentType (source : BodySource) (existing : Option Text) :
    Except PyError (Option Text) :=
  match source, existing with
  | .none, _ | .content, _ | .rawData, _ => .ok Option.none
  | .formData, Option.none => .ok (some formUrlencodedContentType)
  | .json, Option.none => .ok (some jsonContentType)
  | .formData, some _ | .json, some _ => .ok Option.none
  | .files boundary, Option.none =>
      .ok (some (contentTypeWithBoundary multipartFormData [] boundary))
  | .files boundary, some contentType =>
      (explicitContentTypeWithBoundary contentType boundary).map some

/-- The lower-case names of the headers that the body generates. -/
def BodySource.generated (source : BodySource) (headers : Headers) : List Text :=
  match source.contentType (headers.get contentTypeHeader) with
  | .ok (some _) => [contentTypeHeader]
  | _ => []

end FogHttp
