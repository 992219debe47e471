import FogHttp.Lib.Fallible
import FogHttp.Multipart.Parsing

/-!
# Multipart round trip

An accepted payload holds printable texts only, and marks its factories and its
asynchronous contents.  So no stream raises on it, and what a stream yields is
the `wire` of its parts, which `parse_wire` reads back.
-/

namespace FogHttp.Multipart

open Lib

/-! ## Accepted values -/

theorem printable_of_textValue {value : Option Text} {text : Text}
    (h : textValue value = .ok text) :
    Printable text := by
  cases value with
  | none => simp [textValue] at h
  | some value =>
      obtain ⟨hprintable, rfl⟩ := printable_of_headerValue h
      exact hprintable

theorem printable_of_filenameValue {value : Option Text} {filename : Text}
    (h : filenameValue value = .ok filename) : Printable filename := by
  unfold filenameValue at h
  rw [bind_eq_ok] at h
  obtain ⟨text, htext, h⟩ := h
  split at h
  · simp at h
  · obtain rfl := Except.ok.inj h
    exact printable_of_textValue htext

theorem printable_of_filenameFromContent {name : Option Text} {fallback filename : Text}
    (h : filenameFromContent name fallback = .ok filename) : Printable filename := by
  unfold filenameFromContent at h
  split at h
  · split at h
    · exact printable_of_filenameValue h
    · exact printable_of_filenameValue h
  · exact printable_of_filenameValue h

theorem quotedHeaderValue_eq {value quoted : Text} (h : quotedHeaderValue value = .ok quoted) :
    quoted = quote value := by
  have hbind := h
  unfold quotedHeaderValue at hbind
  rw [bind_eq_ok] at hbind
  obtain ⟨safeValue, hvalue, -⟩ := hbind
  rw [quotedHeaderValue_of_printable (printable_of_headerValue hvalue).1] at h
  exact (Except.ok.inj h).symm

/-! ## Accepted payloads -/

def FileContent.isCallable : FileContent → Bool
  | .callable _ => true
  | _ => false

def FileContent.isAsyncIterable : FileContent → Bool
  | .asyncIterable _ => true
  | _ => false

/-- A file that may be written: its texts are printable, and its marks fit its content. -/
structure MultipartFile.Sound (file : MultipartFile) : Prop where
  name : Printable file.name
  filename : Printable file.filename
  contentType : Printable file.contentType
  sourceFactory : file.sourceFactory = file.content.isCallable
  asyncSource : file.asyncSource = file.content.isAsyncIterable

theorem printable_of_iterDataItems {items : List (Option Text × DataValue)}
    {pairs : List (Text × FieldValue)} (h : iterDataItems items = .ok pairs) :
    ∀ pair ∈ pairs, Printable pair.1 := by
  intro pair hmem
  unfold iterDataItems at h
  rw [bind_eq_ok] at h
  obtain ⟨groups, hgroups, hflatten⟩ := h
  obtain rfl := Except.ok.inj hflatten
  obtain ⟨group, hgroup, hpair⟩ := List.mem_flatten.mp hmem
  obtain ⟨⟨rawName, rawValue⟩, -, hraw⟩ := exists_of_mem_mapM hgroups hgroup
  rw [bind_eq_ok] at hraw
  obtain ⟨name, hname, hraw⟩ := hraw
  have hprintable := printable_of_textValue hname
  cases rawValue with
  | one value =>
      obtain rfl := Except.ok.inj hraw
      rw [List.mem_singleton.mp hpair]
      exact hprintable
  | sequence values =>
      obtain rfl := Except.ok.inj hraw
      obtain ⟨value, -, rfl⟩ := List.mem_map.mp hpair
      exact hprintable

theorem printable_of_multipartFields {data : RequestData} {fields : List MultipartField}
    (h : multipartFields data = .ok fields) : ∀ field ∈ fields, Printable field.name := by
  intro field hmem
  cases data with
  | none =>
      obtain rfl := Except.ok.inj h
      exact absurd hmem List.not_mem_nil
  | scalar => simp [multipartFields] at h
  | items items =>
      unfold multipartFields at h
      cases hitems : iterDataItems items with
      | error error => simp [hitems] at h
      | ok pairs =>
          simp only [hitems] at h
          obtain rfl := Except.ok.inj h
          obtain ⟨pair, hpair, rfl⟩ := List.mem_map.mp hmem
          exact printable_of_iterDataItems hitems pair hpair

theorem printable_of_fileValue {value : FileValue} {fieldName filename contentType : Text}
    {content : ContentObject}
    (h : fileValue value fieldName = .ok (filename, content, contentType)) :
    Printable filename ∧ Printable contentType := by
  have hdefault : Printable defaultFileContentType := by decide
  cases value with
  | pair rawFilename content =>
      unfold fileValue at h
      rw [bind_eq_ok] at h
      obtain ⟨filename, hfilename, h⟩ := h
      cases h
      exact ⟨printable_of_filenameValue hfilename, hdefault⟩
  | triple rawFilename content rawContentType =>
      unfold fileValue at h
      rw [bind_eq_ok] at h
      obtain ⟨contentType, hcontentType, h⟩ := h
      rw [bind_eq_ok] at h
      obtain ⟨filename, hfilename, h⟩ := h
      cases h
      exact ⟨printable_of_filenameValue hfilename, printable_of_textValue hcontentType⟩
  | bare content name =>
      unfold fileValue at h
      rw [bind_eq_ok] at h
      obtain ⟨filename, hfilename, h⟩ := h
      cases h
      exact ⟨printable_of_filenameFromContent hfilename, hdefault⟩

theorem sound_contentFilePart {fieldName filename contentType : Text} {content : ContentObject}
    {file : MultipartFile} (hname : Printable fieldName) (hfilename : Printable filename)
    (hcontentType : Printable contentType)
    (h : contentFilePart fieldName filename contentType content = .ok file) : file.Sound := by
  cases content with
  | unsupported => simp [contentFilePart] at h
  | _ =>
      obtain rfl := Except.ok.inj h
      exact ⟨hname, hfilename, hcontentType, rfl, rfl⟩

theorem sound_multipartFileParts {values : List (Option Text × FileValue)}
    {files : List MultipartFile} (h : multipartFileParts values = .ok files) :
    ∀ file ∈ files, file.Sound := by
  intro file hmem
  unfold multipartFileParts at h
  rw [bind_eq_ok] at h
  obtain ⟨items, hitems, hfiles⟩ := h
  obtain ⟨⟨fieldName, value⟩, hitem, hfile⟩ := exists_of_mem_mapM hfiles hmem
  obtain ⟨⟨rawName, rawValue⟩, -, hraw⟩ := exists_of_mem_mapM hitems hitem
  rw [bind_eq_ok] at hraw
  obtain ⟨name, hname, hpair⟩ := hraw
  cases hpair
  change filePart fieldName value = _ at hfile
  unfold filePart at hfile
  rw [bind_eq_ok] at hfile
  obtain ⟨⟨filename, content, contentType⟩, hvalue, hfile⟩ := hfile
  obtain ⟨hfilename, hcontentType⟩ := printable_of_fileValue hvalue
  exact sound_contentFilePart (printable_of_textValue hname) hfilename hcontentType hfile

theorem sound_multipartFiles {values : Option (List (Option Text × FileValue))}
    {files : List MultipartFile} (h : multipartFiles values = .ok files) :
    ∀ file ∈ files, file.Sound := by
  cases values with
  | none =>
      obtain rfl := Except.ok.inj h
      exact fun _ hmem => absurd hmem List.not_mem_nil
  | some values =>
      unfold multipartFiles at h
      cases hparts : multipartFileParts values with
      | error error => simp [hparts] at h
      | ok parts =>
          simp only [hparts] at h
          obtain rfl := Except.ok.inj h
          exact sound_multipartFileParts hparts

/-- A payload that may be written. -/
structure MultipartPayload.Sound (payload : MultipartPayload) : Prop where
  fields : ∀ field ∈ payload.fields, Printable field.name
  files : ∀ file ∈ payload.files, file.Sound

variable {boundary : Boundary} {data : RequestData}
  {files : Option (List (Option Text × FileValue))} {payload : MultipartPayload}

theorem sound_multipartPayload (h : multipartPayload boundary data files = .ok payload) :
    payload.Sound ∧ payload.boundary = boundary := by
  unfold multipartPayload at h
  rw [bind_eq_ok] at h
  obtain ⟨fields, hfields, h⟩ := h
  rw [bind_eq_ok] at h
  obtain ⟨parts, hparts, h⟩ := h
  dsimp only at h
  split at h
  · simp at h
  · obtain rfl := Except.ok.inj h
    exact ⟨⟨printable_of_multipartFields hfields, sound_multipartFiles hparts⟩, rfl⟩

/-! ## Fresh payloads -/

/-- A fresh file holds a content, and stands for the same part. -/
theorem freshFile_spec {file : MultipartFile} (h : file.Sound) :
    (freshFile file).Sound ∧ (freshFile file).content.isCallable = false ∧
      (freshFile file).part = file.part := by
  obtain ⟨name, filename, content, contentType, replayable, asyncSource, sourceFactory⟩ := file
  obtain ⟨hname, hfilename, hcontentType, hfactory, hasync⟩ := h
  dsimp only at hfactory hasync
  subst hfactory hasync
  cases content with
  | callable fresh =>
      cases fresh with
      | _ => exact ⟨⟨hname, hfilename, hcontentType, rfl, rfl⟩, rfl, rfl⟩
  | _ => exact ⟨⟨hname, hfilename, hcontentType, rfl, rfl⟩, rfl, rfl⟩

/-- A payload without factories is fresh. -/
theorem freshPayload_eq (h : payload.hasFileFactories = false) :
    freshPayload payload = payload := by
  have hfiles : payload.files.map freshFile = payload.files := by
    refine (List.map_congr_left fun file hmem => ?_).trans (List.map_id payload.files)
    unfold freshFile
    rw [if_neg (List.any_eq_false.mp h file hmem)]
    rfl
  unfold freshPayload
  rw [hfiles]

/-- The parts of a fresh payload are those of the payload. -/
theorem parts_freshPayload (h : payload.Sound) : (freshPayload payload).parts = payload.parts := by
  have hfiles : (payload.files.map freshFile).map MultipartFile.part =
      payload.files.map MultipartFile.part := by
    rw [List.map_map]
    exact List.map_congr_left fun file hmem => (freshFile_spec (h.files file hmem)).2.2
  unfold MultipartPayload.parts freshPayload
  rw [hfiles]

/-! ## Headers -/

theorem flatMap_parameterText {parameters : List (Text × Text)} (hne : parameters ≠ []) :
    parameters.flatMap parameterText =
      "; ".toList ++ List.intercalate "; ".toList (parameters.map quotedParam) := by
  induction parameters with
  | nil => exact absurd rfl hne
  | cons parameter parameters ih =>
      cases parameters with
      | nil => simp [parameterText, List.intercalate]
      | cons next parameters =>
          rw [List.flatMap_cons, ih (List.cons_ne_nil _ _)]
          simp [parameterText, List.intercalate]

theorem dispositionParam_of_printable {parameter : Text × Text} (h : Printable parameter.2) :
    dispositionParam parameter.1 parameter.2 = .ok (quotedParam parameter) := by
  unfold dispositionParam
  rw [quotedHeaderValue_of_printable h]
  simp [bind, Except.bind, quotedParam]

theorem dispositionHeader_of_printable {parameters : List (Text × Text)} (hne : parameters ≠ [])
    (h : ∀ parameter ∈ parameters, Printable parameter.2) :
    dispositionHeader parameters =
      .ok (headerLine ("Content-Disposition".toList, dispositionValue parameters)) := by
  have hparams : parameters.mapM (fun parameter => dispositionParam parameter.1 parameter.2) =
      .ok (parameters.map quotedParam) := by
    clear hne
    induction parameters with
    | nil => rfl
    | cons parameter parameters ih =>
        rw [List.mapM_cons, ih fun other hmem => h other (List.mem_cons_of_mem _ hmem)]
        rw [dispositionParam_of_printable (h parameter List.mem_cons_self)]
        rfl
  have hline : "Content-Disposition: form-data; ".toList ++
      List.intercalate "; ".toList (parameters.map quotedParam) =
        headerLine ("Content-Disposition".toList, dispositionValue parameters) := by
    unfold headerLine dispositionValue
    dsimp only
    rw [flatMap_parameterText hne]
    simp only [← List.append_assoc]
    rfl
  unfold dispositionHeader
  change (parameters.mapM (fun parameter => dispositionParam parameter.1 parameter.2) >>= _) = _
  rw [hparams]
  exact congrArg Except.ok hline

variable {part : Part}

theorem headersText_of_writable (h : part.Writable) (hne : part.parameters ≠ []) :
    headersText part.parameters part.contentType = .ok part.head := by
  unfold headersText
  rw [dispositionHeader_of_printable hne h.values]
  unfold Part.head Part.headers
  cases hcontentType : part.contentType with
  | none => simp [List.intercalate, bind, Except.bind]
  | some contentType =>
      have hvalue := headerValue_of_printable (h.contentType contentType hcontentType)
      simp only [bind, Except.bind, hvalue]
      rfl

/-- The header of a part, with its delimiter line and its empty line. -/
def headerBytes (boundary : Boundary) (part : Part) : Bytes :=
  dashBoundary boundary ++ (CRLF ++ (encode part.head ++ (CRLF ++ CRLF)))

theorem partHeader_of_writable (boundary : Boundary) (h : part.Writable)
    (hne : part.parameters ≠ []) :
    partHeader boundary part.parameters part.contentType = .ok (headerBytes boundary part) := by
  unfold partHeader
  rw [headersText_of_writable h hne]
  refine congrArg Except.ok ?_
  simp only [encode_append, headerBytes, dashBoundary, List.append_assoc]
  rfl

/-- A header, a content and a line break are the bytes of a part. -/
theorem headerBytes_append (boundary : Boundary) (part : Part) :
    headerBytes boundary part ++ (part.content ++ CRLF) = partBytes boundary part := by
  simp only [headerBytes, partBytes, Part.wire, List.append_assoc]

theorem writable_field {field : MultipartField} (h : Printable field.name) :
    field.part.Writable where
  headerNames := rfl
  names := by
    intro parameter hmem
    rw [List.mem_singleton.mp hmem]
    show Printable "name".toList ∧ '=' ∉ "name".toList
    decide
  values := by
    intro parameter hmem
    rw [List.mem_singleton.mp hmem]
    exact h
  contentType := by
    intro contentType hnone
    cases hnone

theorem writable_file {file : MultipartFile} (h : file.Sound) : file.part.Writable where
  headerNames := rfl
  names := by
    intro parameter hmem
    rcases List.mem_cons.mp hmem with rfl | hmem
    · show Printable "name".toList ∧ '=' ∉ "name".toList
      decide
    · rw [List.mem_singleton.mp hmem]
      show Printable "filename".toList ∧ '=' ∉ "filename".toList
      decide
  values := by
    intro parameter hmem
    rcases List.mem_cons.mp hmem with rfl | hmem
    · exact h.name
    · rw [List.mem_singleton.mp hmem]
      exact h.filename
  contentType := by
    intro contentType hnone
    cases hnone
    exact h.contentType

theorem writable_parts (h : payload.Sound) : ∀ part ∈ payload.parts, part.Writable := by
  intro part hmem
  rcases List.mem_append.mp hmem with hmem | hmem
  · obtain ⟨field, hfield, rfl⟩ := List.mem_map.mp hmem
    exact writable_field (h.fields field hfield)
  · obtain ⟨file, hfile, rfl⟩ := List.mem_map.mp hmem
    exact writable_file (h.files file hfile)

/-! ## Streams -/

/-- The chunks of a content that is not made by a factory. -/
def FileContent.chunks : FileContent → List Bytes
  | .bytes content => [content]
  | .iterable chunks => chunks
  | .asyncIterable chunks => chunks
  | .callable _ => []

theorem flatten_chunks {content : FileContent} (h : content.isCallable = false) :
    content.chunks.flatten = content.body := by
  cases content with
  | bytes content => exact List.append_nil content
  | iterable chunks => rfl
  | asyncIterable chunks => rfl
  | callable fresh => simp [FileContent.isCallable] at h

theorem forEach_yieldBytes (chunks : List Bytes) :
    Generated.forEach yieldBytes chunks = ⟨chunks, .ok ()⟩ := by
  have hyields : Generated.forEach yieldBytes chunks =
      ⟨chunks.flatMap fun chunk => [chunk], .ok ()⟩ :=
    Generated.forEach_of_ok fun _ _ => rfl
  rw [hyields, List.flatMap_singleton']

/-- A part that does not raise. -/
theorem iterPart_of_ok {header : Except PyError Bytes} {content : ByteGenerator} {bytes : Bytes}
    {chunks : List Bytes} (hheader : header = .ok bytes) (hcontent : content = ⟨chunks, .ok ()⟩) :
    ((yieldResult header).andThen fun () => content.andThen fun () => yieldBytes CRLF) =
      ⟨bytes :: (chunks ++ [CRLF]), .ok ()⟩ := by
  subst hheader hcontent
  rfl

/-- The chunks of a part. -/
def partChunks (boundary : Boundary) (part : Part) (chunks : List Bytes) : List Bytes :=
  headerBytes boundary part :: (chunks ++ [CRLF])

theorem flatten_partChunks (boundary : Boundary) {part : Part} {chunks : List Bytes}
    (h : chunks.flatten = part.content) :
    (partChunks boundary part chunks).flatten = partBytes boundary part := by
  rw [partChunks, List.flatten_cons, List.flatten_append, h, ← headerBytes_append]
  simp

theorem iterFields_of_sound (h : payload.Sound) :
    iterFields payload.boundary payload.fields = ⟨payload.fields.flatMap fun field =>
      partChunks payload.boundary field.part [field.content], .ok ()⟩ := by
  refine Generated.forEach_of_ok fun field hmem => iterPart_of_ok ?_ rfl
  exact partHeader_of_writable _ (writable_field (h.fields field hmem)) (List.cons_ne_nil _ _)

theorem iterFile_of_sound (boundary : Boundary) {file : MultipartFile} {content : ByteGenerator}
    (h : file.Sound) (hcontent : content = ⟨file.content.chunks, .ok ()⟩) :
    iterFile boundary file content =
      ⟨partChunks boundary file.part file.content.chunks, .ok ()⟩ :=
  iterPart_of_ok (partHeader_of_writable _ (writable_file h) (List.cons_ne_nil _ _)) hcontent

theorem iterFileContent_of_sync {file : MultipartFile} (hcallable : file.content.isCallable = false)
    (hasync : file.content.isAsyncIterable = false) :
    iterFileContent file = ⟨file.content.chunks, .ok ()⟩ := by
  unfold iterFileContent
  cases hcontent : file.content with
  | bytes content => rfl
  | iterable chunks => exact forEach_yieldBytes chunks
  | asyncIterable chunks => simp [hcontent, FileContent.isAsyncIterable] at hasync
  | callable fresh => simp [hcontent, FileContent.isCallable] at hcallable

/-- The asynchronous stream picks the iterator that fits the content. -/
theorem aiterContent_of_sound {file : MultipartFile} (h : file.Sound)
    (hcallable : file.content.isCallable = false) :
    (if file.asyncSource then aiterFileContent file else aiterSyncFileContent file).reyield =
      ⟨file.content.chunks, .ok ()⟩ := by
  rw [Generated.reyield_eq, h.asyncSource]
  cases hasync : file.content.isAsyncIterable with
  | true =>
      rw [if_pos rfl, aiterFileContent]
      cases hcontent : file.content with
      | asyncIterable chunks => exact forEach_yieldBytes chunks
      | _ => simp [hcontent, FileContent.isAsyncIterable] at hasync
  | false =>
      rw [if_neg Bool.false_ne_true, aiterSyncFileContent, Generated.reyield_eq]
      exact iterFileContent_of_sync hcallable hasync

/-- The chunks of a body. -/
def MultipartPayload.chunks (payload : MultipartPayload) : List Bytes :=
  (payload.fields.flatMap fun field => partChunks payload.boundary field.part [field.content]) ++
    ((payload.files.flatMap fun file =>
      partChunks payload.boundary file.part file.content.chunks) ++
        [closingBoundary payload.boundary])

/-- A payload that is fresh: no content is made by a factory. -/
def MultipartPayload.Fresh (payload : MultipartPayload) : Prop :=
  ∀ file ∈ payload.files, file.content.isCallable = false

theorem sound_freshPayload (h : payload.Sound) :
    (freshPayload payload).Sound ∧ (freshPayload payload).Fresh := by
  refine ⟨⟨h.fields, fun file hmem => ?_⟩, fun file hmem => ?_⟩
  · obtain ⟨original, horiginal, rfl⟩ := List.mem_map.mp hmem
    exact (freshFile_spec (h.files original horiginal)).1
  · obtain ⟨original, horiginal, rfl⟩ := List.mem_map.mp hmem
    exact (freshFile_spec (h.files original horiginal)).2.1

theorem asyncMultipartStream_of_sound (h : payload.Sound) (hfresh : payload.Fresh) :
    asyncMultipartStream payload = ⟨payload.chunks, .ok ()⟩ := by
  have hfiles : Generated.forEach (fun file => iterFile payload.boundary file
      (if file.asyncSource then aiterFileContent file else aiterSyncFileContent file).reyield)
      payload.files = ⟨payload.files.flatMap fun file =>
        partChunks payload.boundary file.part file.content.chunks, .ok ()⟩ :=
    Generated.forEach_of_ok fun file hmem => iterFile_of_sound _ (h.files file hmem)
      (aiterContent_of_sound (h.files file hmem) (hfresh file hmem))
  unfold asyncMultipartStream
  rw [Generated.reyield_eq, iterFields_of_sound h, hfiles]
  rfl

theorem multipartStream_of_sound (h : payload.Sound) (hfresh : payload.Fresh)
    (hsync : payload.asyncSource = false) : multipartStream payload = ⟨payload.chunks, .ok ()⟩ := by
  have hasync : ∀ file ∈ payload.files, file.content.isAsyncIterable = false := by
    intro file hmem
    rw [← (h.files file hmem).asyncSource]
    exact Bool.not_eq_true _ ▸ List.any_eq_false.mp hsync file hmem
  have hfiles : Generated.forEach (fun file => iterFile payload.boundary file
      (iterFileContent file)) payload.files = ⟨payload.files.flatMap fun file =>
        partChunks payload.boundary file.part file.content.chunks, .ok ()⟩ :=
    Generated.forEach_of_ok fun file hmem => iterFile_of_sound _ (h.files file hmem)
      (iterFileContent_of_sync (hfresh file hmem) (hasync file hmem))
  unfold multipartStream
  rw [iterFields_of_sound h, hfiles]
  rfl

/-- The chunks of a body are the bytes of its parts. -/
theorem flatten_chunks_eq_wire (hfresh : payload.Fresh) :
    payload.chunks.flatten = wire payload.boundary payload.parts := by
  have hfields : (payload.fields.flatMap fun field =>
      partChunks payload.boundary field.part [field.content]).flatten =
      (payload.fields.map MultipartField.part).flatMap (partBytes payload.boundary) := by
    rw [List.flatMap_map, List.flatMap_def, List.flatten_flatten, List.map_map, List.flatMap_def]
    refine congrArg List.flatten (List.map_congr_left fun field _ => ?_)
    exact flatten_partChunks _ (List.append_nil field.content)
  have hfiles : (payload.files.flatMap fun file =>
      partChunks payload.boundary file.part file.content.chunks).flatten =
      (payload.files.map MultipartFile.part).flatMap (partBytes payload.boundary) := by
    rw [List.flatMap_map, List.flatMap_def, List.flatten_flatten, List.map_map, List.flatMap_def]
    refine congrArg List.flatten (List.map_congr_left fun file hmem => ?_)
    exact flatten_partChunks _ (flatten_chunks (hfresh file hmem))
  rw [MultipartPayload.chunks, List.flatten_append, List.flatten_append, hfields, hfiles, wire,
    MultipartPayload.parts, List.flatMap_append, List.append_assoc, List.flatten_singleton]

/-! ## The round trip -/

/-- The streams of an accepted payload, made fresh, do not raise and yield its parts. -/
theorem streams_of_accepted (h : multipartPayload boundary data files = .ok payload) :
    ((freshPayload payload).asyncSource = false → ∃ chunks,
      multipartStream (freshPayload payload) = ⟨chunks, .ok ()⟩ ∧
        chunks.flatten = wire boundary payload.parts) ∧
    ∃ chunks, asyncMultipartStream (freshPayload payload) = ⟨chunks, .ok ()⟩ ∧
      chunks.flatten = wire boundary payload.parts := by
  obtain ⟨hsound, rfl⟩ := sound_multipartPayload h
  obtain ⟨hfreshSound, hfresh⟩ := sound_freshPayload hsound
  have hwire : (freshPayload payload).chunks.flatten = wire payload.boundary payload.parts := by
    rw [flatten_chunks_eq_wire hfresh, parts_freshPayload hsound]
    rfl
  exact ⟨fun hsync => ⟨_, multipartStream_of_sound hfreshSound hfresh hsync, hwire⟩,
    _, asyncMultipartStream_of_sound hfreshSound hfresh, hwire⟩

/-- The body of an accepted payload holds its fields and then its files, in order, with their
names, filenames, content types and contents, and nothing else.  Both streams yield the bytes of
the parts only, and quoting loses nothing. -/
theorem multipart_round_trip (h : multipartPayload boundary data files = .ok payload) :
    ((∀ part ∈ payload.parts, Avoids boundary part.content) →
      ((freshPayload payload).asyncSource = false → ∃ chunks,
        multipartStream (freshPayload payload) = ⟨chunks, .ok ()⟩ ∧
          parse boundary.text chunks.flatten = some payload.parts) ∧
      ∃ chunks, asyncMultipartStream (freshPayload payload) = ⟨chunks, .ok ()⟩ ∧
        parse boundary.text chunks.flatten = some payload.parts) ∧
    (∀ data files other, multipartPayload boundary data files = .ok other →
      other.parts = payload.parts → (freshPayload payload).asyncSource = false →
        (asyncMultipartStream (freshPayload other)).yields.flatten =
          (multipartStream (freshPayload payload)).yields.flatten) ∧
    (payload.hasFileFactories = false → freshPayload payload = payload) ∧
    ∀ left right quoted, quotedHeaderValue left = .ok quoted →
      quotedHeaderValue right = .ok quoted → left = right := by
  obtain ⟨hsync, hasync⟩ := streams_of_accepted h
  refine ⟨fun havoids => ?_, fun data files other hother hparts hstream => ?_, freshPayload_eq,
    fun left right quoted hleft hright => ?_⟩
  · have hparse : parse boundary.text (wire boundary payload.parts) = some payload.parts :=
      parse_wire (writable_parts (sound_multipartPayload h).1) havoids
    refine ⟨fun hstream => ?_, ?_⟩
    · obtain ⟨chunks, hchunks, hwire⟩ := hsync hstream
      exact ⟨chunks, hchunks, hwire ▸ hparse⟩
    · obtain ⟨chunks, hchunks, hwire⟩ := hasync
      exact ⟨chunks, hchunks, hwire ▸ hparse⟩
  · obtain ⟨chunks, hchunks, hwire⟩ := hsync hstream
    obtain ⟨-, otherChunks, hotherChunks, hotherWire⟩ := streams_of_accepted hother
    rw [hchunks, hotherChunks]
    show otherChunks.flatten = chunks.flatten
    rw [hotherWire, hwire, hparts]
  · rw [quotedHeaderValue_eq hleft] at hright
    exact quote_injective (quotedHeaderValue_eq hright)

/-- A field and an upload whose names and filename try to leave their quotes, and whose content
holds a line break and two hyphens. -/
theorem multipart_round_trip_quotes : ∃ chunks,
    multipartStream ⟨⟨"b".toList, rfl⟩, [⟨"a\"; x=\"y".toList, []⟩], [⟨"up\\".toList,
      "\\\"; name=\"z".toList, .bytes [13, 10, 45, 45], defaultFileContentType, true, false,
      false⟩]⟩ = ⟨chunks, .ok ()⟩ ∧
      parse "b".toList chunks.flatten = some [
        ⟨["Content-Disposition".toList], [("name".toList, "a\"; x=\"y".toList)], none, []⟩,
        ⟨["Content-Disposition".toList, "Content-Type".toList],
          [("name".toList, "up\\".toList), ("filename".toList, "\\\"; name=\"z".toList)],
          some defaultFileContentType, [13, 10, 45, 45]⟩] := by
  have haccepted : multipartPayload ⟨"b".toList, rfl⟩
      (.items [(some "a\"; x=\"y".toList, .one (.bytes []))])
      (some [(some "up\\".toList, .pair "\\\"; name=\"z".toList (.bytesLike [13, 10, 45, 45]))]) =
        .ok ⟨⟨"b".toList, rfl⟩, [⟨"a\"; x=\"y".toList, []⟩], [⟨"up\\".toList,
          "\\\"; name=\"z".toList, .bytes [13, 10, 45, 45], defaultFileContentType, true, false,
          false⟩]⟩ := by decide
  exact ((multipart_round_trip haccepted).1 (by decide)).1 (by decide)

end FogHttp.Multipart
