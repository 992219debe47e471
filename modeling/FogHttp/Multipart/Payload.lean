import FogHttp.Lib.Text

/-!
# The payload of a multipart body

`multipart_payload` builds the parts of a multipart body from the `data` and the
`files` of a request.  It accepts names, filenames and content types of
printable ASCII only.

Python objects come in here by what the code asks them for.  A name is a text or
another object.  A field value is `bytes`, or an object with its `str`.  The
content of a file is given by the first test of `_content_file_part` that it
passes, with what it yields.  A factory makes a new content for every stream.

The lengths of the contents are left out.  No function here reads them.
-/

namespace FogHttp.Multipart

open Lib

abbrev Bytes := List UInt8

/-- The exceptions of the package, with their messages. -/
inductive PyError where
  | valueError (message : Text)
  | typeError (message : Text)
deriving DecidableEq, Repr

def multipartDataUnsupported : Text :=
  "files can only be combined with mapping or repeated-pair form data"

def multipartFilesUnsupported : Text :=
  "files must be a mapping or sequence of pairs with bytes, binary file-like, byte streams, " ++
    "stream factories, or file tuples"

def multipartFileFactoryMixUnsupported : Text :=
  "multipart file factories cannot be mixed with non-replayable direct file or stream parts"

def multipartHeaderValueUnsupported : Text :=
  "multipart field names, filenames, and content types must be printable ASCII"

def defaultFileContentType : Text := "application/octet-stream"

/-- `str.encode()`. -/
def encode (text : Text) : Bytes := text.flatMap String.utf8EncodeChar

/-! ## Values -/

/-- `_is_header_value_char`. -/
def isHeaderValueChar (c : Char) : Bool := 0x20 ≤ c.toNat && c.toNat < 0x7F

/-- `header_value`. -/
def headerValue (value : Text) : Except PyError Text :=
  if value.all isHeaderValueChar then .ok value
  else .error (.valueError multipartHeaderValueUnsupported)

/-- `text_value` of a text, or of another object. -/
def textValue : Option Text → Except PyError Text
  | none => .error (.typeError multipartHeaderValueUnsupported)
  | some value => headerValue value

/-- `filename_value`. -/
def filenameValue (value : Option Text) : Except PyError Text := do
  let filename ← textValue value
  if filename.isEmpty then .error (.valueError multipartHeaderValueUnsupported) else .ok filename

/-- `Path(name).name` on POSIX: the last component of the path. -/
def pathName (name : Text) : Text :=
  ((name.splitOn '/').filter fun component => component ≠ [] && component ≠ ['.']).getLast?.getD []

/-- `filename_from_content`, with the text in the attribute `name` of the content. -/
def filenameFromContent (name : Option Text) (fallback : Text) : Except PyError Text :=
  match name with
  | some name => if name.isEmpty then filenameValue fallback else filenameValue (pathName name)
  | none => filenameValue fallback

/-- `value.replace(old, new)` for one character. -/
def replace (old : Char) (new value : Text) : Text :=
  value.flatMap fun c => if c = old then new else [c]

/-- `quoted_header_value`. -/
def quotedHeaderValue (value : Text) : Except PyError Text := do
  let safeValue ← headerValue value
  .ok (replace '"' ['\\', '"'] (replace '\\' ['\\', '\\'] safeValue))

/-! ## Models -/

/-- A boundary of printable ASCII. -/
structure Boundary where
  text : Text
  printable : text.all isHeaderValueChar = true
deriving DecidableEq

/-- `MultipartField`. -/
structure MultipartField where
  name : Text
  content : Bytes
deriving DecidableEq

/-- What a factory returns. -/
inductive Source where
  | bytes (content : Bytes)
  | iterable (chunks : List Bytes)
  | binaryFile (reads : List Bytes)
  | asyncIterable (chunks : List Bytes)
deriving DecidableEq

/-- The content of a `MultipartFile`. -/
inductive FileContent where
  | bytes (content : Bytes)
  | iterable (chunks : List Bytes)
  | asyncIterable (chunks : List Bytes)
  | callable (fresh : Source)
deriving DecidableEq

/-- `FileUploadSource.__iter__`: the chunks up to the first empty one. -/
def fileUploadSource (reads : List Bytes) : FileContent :=
  .iterable (reads.takeWhile fun chunk => !chunk.isEmpty)

/-- `MultipartFile`. -/
structure MultipartFile where
  name : Text
  filename : Text
  content : FileContent
  contentType : Text
  replayable : Bool
  asyncSource : Bool
  sourceFactory : Bool
deriving DecidableEq

/-- `MultipartPayload`. -/
structure MultipartPayload where
  boundary : Boundary
  fields : List MultipartField
  files : List MultipartFile
deriving DecidableEq

namespace MultipartPayload

/-- `MultipartPayload.replayable`. -/
def replayable (payload : MultipartPayload) : Bool := payload.files.all MultipartFile.replayable

/-- `MultipartPayload.async_source`. -/
def asyncSource (payload : MultipartPayload) : Bool := payload.files.any MultipartFile.asyncSource

/-- `MultipartPayload.has_file_factories`. -/
def hasFileFactories (payload : MultipartPayload) : Bool :=
  payload.files.any MultipartFile.sourceFactory

end MultipartPayload

/-! ## Fields -/

/-- A value of a field. -/
inductive FieldValue where
  | bytes (content : Bytes)
  | other (str : Text)
deriving DecidableEq

/-- A value of `data`: one value, or a sequence of them. -/
inductive DataValue where
  | one (value : FieldValue)
  | sequence (values : List FieldValue)
deriving DecidableEq

/-- `data`. -/
inductive RequestData where
  | none
  | scalar
  | items (items : List (Option Text × DataValue))
deriving DecidableEq

/-- `_field_content`. -/
def fieldContent : FieldValue → Bytes
  | .bytes content => content
  | .other str => encode str

/-- `_iter_data_items`. -/
def iterDataItems (data : List (Option Text × DataValue)) :
    Except PyError (List (Text × FieldValue)) := do
  let fields ← data.mapM fun (rawName, rawValue) => do
    let name ← textValue rawName
    match rawValue with
    | .one value => .ok [(name, value)]
    | .sequence values => .ok (values.map fun value => (name, value))
  .ok fields.flatten

/-- `multipart_fields`. -/
def multipartFields : RequestData → Except PyError (List MultipartField)
  | .none => .ok []
  | .scalar => .error (.typeError multipartDataUnsupported)
  | .items items =>
      match iterDataItems items with
      | .error _ => .error (.typeError multipartDataUnsupported)
      | .ok fields => .ok (fields.map fun (name, value) => ⟨name, fieldContent value⟩)

/-! ## Files -/

/-- The content of a file, by the first test that it passes. -/
inductive ContentObject where
  | bytesLike (content : Bytes)
  | binaryFile (reads : List Bytes)
  | asyncStream (chunks : List Bytes)
  | syncStream (chunks : List Bytes)
  | callable (fresh : Source)
  | unsupported
deriving DecidableEq

/-- A value of `files`: a tuple whose first entry is a text, or a bare content. -/
inductive FileValue where
  | pair (filename : Text) (content : ContentObject)
  | triple (filename : Text) (content : ContentObject) (contentType : Option Text)
  | bare (content : ContentObject) (name : Option Text)
deriving DecidableEq

/-- `_file_value`. -/
def fileValue (value : FileValue) (fieldName : Text) :
    Except PyError (Text × ContentObject × Text) :=
  match value with
  | .pair filename content => do
      let filename ← filenameValue filename
      .ok (filename, content, defaultFileContentType)
  | .triple filename content contentType => do
      let contentType ← textValue contentType
      let filename ← filenameValue filename
      .ok (filename, content, contentType)
  | .bare content name => do
      let filename ← filenameFromContent name fieldName
      .ok (filename, content, defaultFileContentType)

/-- `_content_file_part`. -/
def contentFilePart (fieldName filename contentType : Text) :
    ContentObject → Except PyError MultipartFile
  | .bytesLike content =>
      .ok ⟨fieldName, filename, .bytes content, contentType, true, false, false⟩
  | .binaryFile reads =>
      .ok ⟨fieldName, filename, fileUploadSource reads, contentType, false, false, false⟩
  | .asyncStream chunks =>
      .ok ⟨fieldName, filename, .asyncIterable chunks, contentType, false, true, false⟩
  | .syncStream chunks =>
      .ok ⟨fieldName, filename, .iterable chunks, contentType, false, false, false⟩
  | .callable fresh => .ok ⟨fieldName, filename, .callable fresh, contentType, true, false, true⟩
  | .unsupported => .error (.typeError multipartFilesUnsupported)

/-- `_file_part`. -/
def filePart (fieldName : Text) (value : FileValue) : Except PyError MultipartFile := do
  let (filename, content, contentType) ← fileValue value fieldName
  contentFilePart fieldName filename contentType content

/-- `_iter_file_items` and `_multipart_file_parts`. -/
def multipartFileParts (files : List (Option Text × FileValue)) :
    Except PyError (List MultipartFile) := do
  let items ← files.mapM fun (rawName, rawValue) => do
    let name ← textValue rawName
    .ok (name, rawValue)
  items.mapM fun (fieldName, value) => filePart fieldName value

/-- `multipart_files`. -/
def multipartFiles : Option (List (Option Text × FileValue)) →
    Except PyError (List MultipartFile)
  | none => .ok []
  | some files =>
      match multipartFileParts files with
      | .error _ => .error (.typeError multipartFilesUnsupported)
      | .ok parts => .ok parts

/-! ## The payload -/

/-- `multipart_payload`, with `_validate_file_factory_mix`. -/
def multipartPayload (boundary : Boundary) (data : RequestData)
    (files : Option (List (Option Text × FileValue))) : Except PyError MultipartPayload := do
  let fields ← multipartFields data
  let files ← multipartFiles files
  let payload : MultipartPayload := ⟨boundary, fields, files⟩
  if payload.hasFileFactories && !payload.replayable then
    .error (.typeError multipartFileFactoryMixUnsupported)
  else .ok payload

end FogHttp.Multipart
