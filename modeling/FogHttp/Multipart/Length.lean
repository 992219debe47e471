import FogHttp.Multipart.RoundTrip
import FogHttp.Upload.Chunks

/-!
# The length of a multipart body

`multipart_content_length` adds up the parts of a payload without its streams, from
the lengths that its files declare.  The feeder counts its chunks down from the sum.

A payload here comes with the `content_length` of its files, in their order.  What
`file_content_length` finds out about a file from its descriptor or by seeking is an
input, next to the value.
-/

namespace FogHttp.Multipart

open Lib RequestBody

/-! ## Declared lengths -/

/-- The content in a value of `files`. -/
def FileValue.content : FileValue → ContentObject
  | .pair _ content => content
  | .triple _ content _ => content
  | .bare content _ => content

/-- The `content_length` in `_content_file_part`.  `answer` is that of
`file_content_length`. -/
def ContentObject.contentLength (answer : Option Nat) : ContentObject → Option Nat
  | .bytesLike content => some content.length
  | .binaryFile _ => answer
  | .asyncStream _ => none
  | .syncStream _ => none
  | .callable _ => none
  | .unsupported => none

/-- A payload, and `MultipartFile.content_length` of its files. -/
structure DeclaredPayload where
  payload : MultipartPayload
  contentLengths : List (Option Nat)

/-- The entries of `files`, with the answers of `file_content_length`. -/
abbrev DeclaredFiles := List (Option Text × FileValue × Option Nat)

/-- `multipart_payload`. -/
def declaredPayload (boundary : Boundary) (data : RequestData) (files : Option DeclaredFiles) :
    Except PyError DeclaredPayload := do
  let payload ← multipartPayload boundary data
    (files.map fun entries => entries.map fun (name, value, _) => (name, value))
  .ok ⟨payload, (files.getD []).map fun (_, value, answer) => value.content.contentLength answer⟩

namespace DeclaredPayload

/-- The files with their lengths. -/
def files (declared : DeclaredPayload) : List (MultipartFile × Option Nat) :=
  declared.payload.files.zip declared.contentLengths

/-- Every file with a declared length yields this many bytes. -/
def Exact (declared : DeclaredPayload) : Prop :=
  ∀ file length, (file, some length) ∈ declared.files → file.content.body.length = length

end DeclaredPayload

/-! ## The sum -/

/-- `_field_content_length`. -/
def fieldContentLength (boundary : Boundary) (field : MultipartField) : Except PyError Nat := do
  let header ← fieldHeader boundary field
  .ok (header.length + field.content.length + CRLF.length)

/-- `_fields_content_length`. -/
def fieldsContentLength (boundary : Boundary) (fields : List MultipartField) :
    Except PyError Nat := do
  let lengths ← fields.mapM (fieldContentLength boundary)
  .ok lengths.sum

/-- `_files_content_length`, from a `total` on. -/
def filesContentLength (boundary : Boundary) :
    Nat → List (MultipartFile × Option Nat) → Except PyError (Option Nat)
  | total, [] => .ok (some total)
  | _, (_, none) :: _ => .ok none
  | total, (file, some contentLength) :: files => do
      let header ← fileHeader boundary file
      filesContentLength boundary (total + (header.length + contentLength + CRLF.length)) files

/-- `multipart_content_length`. -/
def multipartContentLength (declared : DeclaredPayload) : Except PyError (Option Nat) := do
  let fileLength ← filesContentLength declared.payload.boundary 0 declared.files
  match fileLength with
  | none => .ok none
  | some fileLength => do
      let closingLength := (closingBoundary declared.payload.boundary).length
      let fieldLength ← fieldsContentLength declared.payload.boundary declared.payload.fields
      .ok (some (closingLength + fieldLength + fileLength))

/-- The length of a part, from the length of its content. -/
def partLength (boundary : Boundary) (part : Part) (contentLength : Nat) : Nat :=
  (headerBytes boundary part).length + contentLength + CRLF.length

theorem length_flatten_partChunks (boundary : Boundary) (part : Part) (chunks : List Bytes) :
    (partChunks boundary part chunks).flatten.length =
      partLength boundary part chunks.flatten.length := by
  rw [partChunks, List.flatten_cons, List.flatten_append, List.flatten_singleton,
    List.length_append, List.length_append, ← Nat.add_assoc]
  rfl

theorem fieldHeader_of_printable (boundary : Boundary) {field : MultipartField}
    (h : Printable field.name) : fieldHeader boundary field = .ok (headerBytes boundary field.part) :=
  partHeader_of_writable boundary (writable_field h) (List.cons_ne_nil _ _)

theorem fileHeader_of_sound (boundary : Boundary) {file : MultipartFile} (h : file.Sound) :
    fileHeader boundary file = .ok (headerBytes boundary file.part) :=
  partHeader_of_writable boundary (writable_file h) (List.cons_ne_nil _ _)

/-- The fields add up to the length of their chunks. -/
theorem fieldsContentLength_of_printable (boundary : Boundary) {fields : List MultipartField}
    (h : ∀ field ∈ fields, Printable field.name) :
    fieldsContentLength boundary fields = .ok (fields.flatMap fun field =>
      partChunks boundary field.part [field.content]).flatten.length := by
  have hlengths : fields.mapM (fieldContentLength boundary) =
      .ok (fields.map fun field => partLength boundary field.part field.content.length) := by
    induction fields with
    | nil => rfl
    | cons field fields ih =>
        rw [List.mapM_cons, ih fun other hmem => h other (List.mem_cons_of_mem _ hmem)]
        unfold fieldContentLength
        rw [fieldHeader_of_printable boundary (h field List.mem_cons_self)]
        rfl
  have hchunks : (fields.map fun field => partLength boundary field.part field.content.length) =
      fields.map fun field => (partChunks boundary field.part [field.content]).flatten.length :=
    List.map_congr_left fun field _ => by
      rw [length_flatten_partChunks, List.flatten_singleton]
  unfold fieldsContentLength
  rw [hlengths, hchunks]
  refine congrArg Except.ok ?_
  rw [List.flatMap_def, List.flatten_flatten, List.length_flatten, List.map_map, List.map_map]
  rfl

/-- A file without a declared length leaves the sum without a value. -/
theorem filesContentLength_of_none (boundary : Boundary)
    {files : List (MultipartFile × Option Nat)} (total : Nat) (hsound : ∀ file ∈ files, file.1.Sound)
    (h : none ∈ files.map Prod.snd) : filesContentLength boundary total files = .ok none := by
  induction files generalizing total with
  | nil => simp at h
  | cons entry files ih =>
      obtain ⟨file, contentLength⟩ := entry
      cases contentLength with
      | none => rfl
      | some contentLength =>
          have hrest : none ∈ files.map Prod.snd := by simpa using h
          rw [filesContentLength, fileHeader_of_sound boundary (hsound _ List.mem_cons_self)]
          exact ih _ (fun other hmem => hsound other (List.mem_cons_of_mem _ hmem)) hrest

/-- Files that all declare their lengths add up to their parts. -/
theorem filesContentLength_of_declared (boundary : Boundary)
    {files : List (MultipartFile × Option Nat)} (total : Nat) (hsound : ∀ file ∈ files, file.1.Sound)
    (h : none ∉ files.map Prod.snd) :
    filesContentLength boundary total files = .ok (some (total + (files.map fun file =>
      partLength boundary file.1.part (file.2.getD 0)).sum)) := by
  induction files generalizing total with
  | nil => rfl
  | cons entry files ih =>
      obtain ⟨file, contentLength⟩ := entry
      cases contentLength with
      | none => simp at h
      | some contentLength =>
          have hrest : none ∉ files.map Prod.snd := by simpa using h
          rw [filesContentLength, fileHeader_of_sound boundary (hsound _ List.mem_cons_self)]
          refine (ih _ (fun other hmem => hsound other (List.mem_cons_of_mem _ hmem)) hrest).trans ?_
          exact congrArg (fun length => Except.ok (some length)) (Nat.add_assoc total _ _)

/-! ## Accepted payloads -/

/-- The content of a file is the one in its value. -/
theorem content_of_fileValue {value : FileValue} {fieldName filename contentType : Text}
    {content : ContentObject}
    (h : fileValue value fieldName = .ok (filename, content, contentType)) :
    content = value.content := by
  cases value with
  | pair rawFilename content =>
      unfold fileValue at h
      rw [bind_eq_ok] at h
      obtain ⟨_, -, h⟩ := h
      cases h
      rfl
  | triple rawFilename content rawContentType =>
      unfold fileValue at h
      rw [bind_eq_ok] at h
      obtain ⟨_, -, h⟩ := h
      rw [bind_eq_ok] at h
      obtain ⟨_, -, h⟩ := h
      cases h
      rfl
  | bare content name =>
      unfold fileValue at h
      rw [bind_eq_ok] at h
      obtain ⟨_, -, h⟩ := h
      cases h
      rfl

/-- A declared length belongs to a content that an ordinary iterator reads. -/
theorem content_of_filePart {fieldName : Text} {value : FileValue} {answer : Option Nat}
    {file : MultipartFile} (h : filePart fieldName value = .ok file)
    (hdeclared : value.content.contentLength answer ≠ none) :
    file.content.isCallable = false ∧ file.content.isAsyncIterable = false := by
  unfold filePart at h
  rw [bind_eq_ok] at h
  obtain ⟨⟨filename, content, contentType⟩, hvalue, hfile⟩ := h
  obtain rfl := content_of_fileValue hvalue
  dsimp only at hfile
  cases hcontent : value.content with
  | bytesLike content =>
      rw [hcontent] at hfile
      obtain rfl := Except.ok.inj hfile
      exact ⟨rfl, rfl⟩
  | binaryFile reads =>
      rw [hcontent] at hfile
      obtain rfl := Except.ok.inj hfile
      exact ⟨rfl, rfl⟩
  | asyncStream chunks => exact absurd (by rw [hcontent]; rfl) hdeclared
  | syncStream chunks => exact absurd (by rw [hcontent]; rfl) hdeclared
  | callable fresh => exact absurd (by rw [hcontent]; rfl) hdeclared
  | unsupported => exact absurd (by rw [hcontent]; rfl) hdeclared

/-- A file next to its length. -/
def Declares (file : MultipartFile) (contentLength : Option Nat) : Prop :=
  contentLength ≠ none → file.content.isCallable = false ∧ file.content.isAsyncIterable = false

theorem forall₂_of_multipartFileParts {entries : DeclaredFiles} {files : List MultipartFile}
    (h : multipartFileParts (entries.map fun (name, value, _) => (name, value)) = .ok files) :
    List.Forall₂ Declares files
      (entries.map fun (_, value, answer) => value.content.contentLength answer) := by
  unfold multipartFileParts at h
  rw [bind_eq_ok] at h
  obtain ⟨items, hitems, hfiles⟩ := h
  have hnames := mapM_eq_ok hitems
  have hparts := mapM_eq_ok hfiles
  clear hitems hfiles
  induction entries generalizing items files with
  | nil =>
      cases hnames
      cases hparts
      exact .nil
  | cons entry entries ih =>
      obtain ⟨rawName, value, answer⟩ := entry
      cases hnames with
      | cons hname hnames =>
          cases hparts with
          | cons hpart hparts =>
              refine .cons ?_ (ih _ hnames hparts)
              rw [bind_eq_ok] at hname
              obtain ⟨name, -, hitem⟩ := hname
              obtain rfl := Except.ok.inj hitem
              exact content_of_filePart hpart

theorem forall₂_of_multipartFiles {entries : Option DeclaredFiles} {files : List MultipartFile}
    (h : multipartFiles (entries.map fun entries =>
      entries.map fun (name, value, _) => (name, value)) = .ok files) :
    List.Forall₂ Declares files
      ((entries.getD []).map fun (_, value, answer) => value.content.contentLength answer) := by
  cases entries with
  | none =>
      obtain rfl := Except.ok.inj h
      exact .nil
  | some entries =>
      unfold multipartFiles at h
      dsimp only [Option.map_some] at h
      cases hparts : multipartFileParts (entries.map fun (name, value, _) => (name, value)) with
      | error error => simp [hparts] at h
      | ok parts =>
          rw [hparts] at h
          obtain rfl := Except.ok.inj h
          exact forall₂_of_multipartFileParts hparts

variable {boundary : Boundary} {data : RequestData} {entries : Option DeclaredFiles}
  {declared : DeclaredPayload}

/-- An accepted payload may be written, and has a length for every file. -/
theorem declaredPayload_spec (h : declaredPayload boundary data entries = .ok declared) :
    declared.payload.Sound ∧ declared.payload.boundary = boundary ∧
      List.Forall₂ Declares declared.payload.files declared.contentLengths := by
  unfold declaredPayload at h
  rw [bind_eq_ok] at h
  obtain ⟨payload, hpayload, h⟩ := h
  obtain rfl := Except.ok.inj h
  obtain ⟨hsound, hboundary⟩ := sound_multipartPayload hpayload
  refine ⟨hsound, hboundary, ?_⟩
  unfold multipartPayload at hpayload
  rw [bind_eq_ok] at hpayload
  obtain ⟨fields, -, hpayload⟩ := hpayload
  rw [bind_eq_ok] at hpayload
  obtain ⟨parts, hparts, hpayload⟩ := hpayload
  dsimp only at hpayload
  split at hpayload
  · simp at hpayload
  · obtain rfl := Except.ok.inj hpayload
    exact forall₂_of_multipartFiles hparts

namespace DeclaredPayload

theorem sound_files (h : declared.payload.Sound) : ∀ file ∈ declared.files, file.1.Sound :=
  fun _ hmem => h.files _ (List.of_mem_zip hmem).1

theorem map_snd_files (h : List.Forall₂ Declares declared.payload.files declared.contentLengths) :
    declared.files.map Prod.snd = declared.contentLengths :=
  List.map_snd_zip h.length_eq.ge

theorem map_fst_files (h : List.Forall₂ Declares declared.payload.files declared.contentLengths) :
    declared.files.map Prod.fst = declared.payload.files :=
  List.map_fst_zip h.length_eq.le

/-- Files that declare their lengths are read by an ordinary iterator. -/
theorem content_of_declared
    (h : List.Forall₂ Declares declared.payload.files declared.contentLengths)
    (hnone : none ∉ declared.contentLengths) : ∀ file ∈ declared.payload.files,
      file.content.isCallable = false ∧ file.content.isAsyncIterable = false := by
  intro file hmem
  obtain ⟨i, hi, rfl⟩ := List.getElem_of_mem hmem
  have hj : i < declared.contentLengths.length := h.length_eq ▸ hi
  refine h.get hi hj fun hsame => hnone ?_
  exact hsame ▸ List.getElem_mem hj

/-- Exact files add up to the length of their chunks. -/
theorem sum_partLength
    (h : List.Forall₂ Declares declared.payload.files declared.contentLengths)
    (hnone : none ∉ declared.contentLengths) (hexact : declared.Exact) :
    (declared.files.map fun file =>
      partLength boundary file.1.part (file.2.getD 0)).sum =
      (declared.payload.files.flatMap fun file =>
        partChunks boundary file.part file.content.chunks).flatten.length := by
  have hlengths : ∀ file ∈ declared.files, partLength boundary file.1.part (file.2.getD 0) =
      (partChunks boundary file.1.part file.1.content.chunks).flatten.length := by
    rintro ⟨file, contentLength⟩ hmem
    have hcallable := (content_of_declared h hnone file (List.of_mem_zip hmem).1).1
    rw [length_flatten_partChunks, flatten_chunks hcallable]
    cases contentLength with
    | none => exact absurd (List.of_mem_zip hmem).2 hnone
    | some contentLength => rw [hexact file contentLength hmem, Option.getD_some]
  rw [List.map_congr_left hlengths, ← map_fst_files h, List.flatMap_def, List.flatten_flatten,
    List.length_flatten, List.map_map, List.map_map, List.map_map]
  rfl

end DeclaredPayload

/-- The sum has no value when a file has no length, and is that of the chunks of exact files. -/
theorem multipartContentLength_spec (hsound : declared.payload.Sound)
    (h : List.Forall₂ Declares declared.payload.files declared.contentLengths) :
    (none ∈ declared.contentLengths → multipartContentLength declared = .ok none) ∧
    (none ∉ declared.contentLengths → ∃ length,
      multipartContentLength declared = .ok (some length) ∧
        (declared.Exact → declared.payload.chunks.flatten.length = length)) := by
  have hfiles := DeclaredPayload.sound_files hsound
  rw [← DeclaredPayload.map_snd_files h]
  refine ⟨fun hnone => ?_, fun hnone => ?_⟩
  · unfold multipartContentLength
    rw [filesContentLength_of_none _ 0 hfiles hnone]
    rfl
  · unfold multipartContentLength
    rw [filesContentLength_of_declared _ 0 hfiles hnone,
      fieldsContentLength_of_printable _ hsound.fields]
    refine ⟨_, rfl, fun hexact => ?_⟩
    rw [DeclaredPayload.map_snd_files h] at hnone
    rw [DeclaredPayload.sum_partLength h hnone hexact, MultipartPayload.chunks,
      List.flatten_append, List.flatten_append, List.flatten_singleton, List.length_append,
      List.length_append]
    omega

theorem closingBoundary_ne_nil (boundary : Boundary) : closingBoundary boundary ≠ [] := by
  unfold closingBoundary
  simp [encode]

/-- The length of an accepted payload has no value exactly when a file declares none.  When every
file yields as many bytes as it declares, it is the length of what both streams emit.  The feeder
that counts down from it hands every chunk on, and marks the closing boundary only as final. -/
theorem declared_length_eq_emitted (h : declaredPayload boundary data entries = .ok declared) :
    ∃ contentLength, multipartContentLength declared = .ok contentLength ∧
      (contentLength = none ↔ none ∈ declared.contentLengths) ∧
      ∀ length, contentLength = some length → declared.Exact → ∃ chunks,
        multipartStream declared.payload = ⟨chunks ++ [closingBoundary boundary], .ok ()⟩ ∧
        asyncMultipartStream declared.payload = ⟨chunks ++ [closingBoundary boundary], .ok ()⟩ ∧
        (chunks ++ [closingBoundary boundary]).flatten.length = length ∧
        syncBodyChunks (multipartStream declared.payload) (some length) =
          ⟨chunks.map (·, false) ++ [(closingBoundary boundary, true)], .ok ()⟩ ∧
        asyncBodyChunks (asyncMultipartStream declared.payload) (some length) =
          ⟨chunks.map (·, false) ++ [(closingBoundary boundary, true)], .ok ()⟩ := by
  obtain ⟨hsound, rfl, hdeclares⟩ := declaredPayload_spec h
  obtain ⟨hundeclared, hdeclared⟩ := multipartContentLength_spec hsound hdeclares
  by_cases hnone : none ∈ declared.contentLengths
  · exact ⟨none, hundeclared hnone, iff_of_true rfl hnone, fun _ hsome => nomatch hsome⟩
  · obtain ⟨length, hlength, hexact⟩ := hdeclared hnone
    refine ⟨some length, hlength, iff_of_false (Option.some_ne_none length) hnone, ?_⟩
    intro other hsome hyields
    obtain rfl := Option.some.inj hsome
    have hcontents := DeclaredPayload.content_of_declared hdeclares hnone
    have hfresh : declared.payload.Fresh := fun file hmem => (hcontents file hmem).1
    have hsync : declared.payload.asyncSource = false := by
      refine List.any_eq_false.mpr fun file hmem => ?_
      rw [(hsound.files file hmem).asyncSource, (hcontents file hmem).2]
      exact Bool.false_ne_true
    have hchunks := hexact hyields
    have hstream := multipartStream_of_sound hsound hfresh hsync
    have hasync := asyncMultipartStream_of_sound hsound hfresh
    rw [MultipartPayload.chunks, ← List.append_assoc] at hchunks hstream hasync
    refine ⟨_, hstream, hasync, hchunks, ?_, ?_⟩
    · rw [hstream, ← hchunks]
      exact bodyChunks_of_length (closingBoundary_ne_nil _) _
    · rw [hasync, ← hchunks]
      exact bodyChunks_of_length (closingBoundary_ne_nil _) _

/-- A field and two files, whose texts are read in full. -/
theorem declared_length_eq_emitted_example : ∃ chunks : List Bytes,
    asyncBodyChunks (asyncMultipartStream ⟨⟨"b".toList, rfl⟩, [⟨"a".toList, []⟩],
      [⟨"f".toList, "n".toList, .bytes [120], defaultFileContentType, true, false, false⟩,
        ⟨"g".toList, "n".toList, .iterable [[121, 122], [123]], defaultFileContentType, false,
          false, false⟩]⟩) (some 272) =
      ⟨chunks.map (·, false) ++ [(closingBoundary ⟨"b".toList, rfl⟩, true)], .ok ()⟩ := by
  have haccepted : declaredPayload ⟨"b".toList, rfl⟩
      (.items [(some "a".toList, .one (.bytes []))])
      (some [(some "f".toList, .pair "n".toList (.bytesLike [120]), none),
        (some "g".toList, .pair "n".toList (.binaryFile [[121, 122], [123], []]), some 3)]) =
      .ok ⟨⟨⟨"b".toList, rfl⟩, [⟨"a".toList, []⟩],
        [⟨"f".toList, "n".toList, .bytes [120], defaultFileContentType, true, false, false⟩,
          ⟨"g".toList, "n".toList, .iterable [[121, 122], [123]], defaultFileContentType, false,
            false, false⟩]⟩, [some 1, some 3]⟩ := rfl
  obtain ⟨contentLength, hlength, -, hemitted⟩ := declared_length_eq_emitted haccepted
  have hsum : contentLength = some 272 := by
    refine Except.ok.inj (hlength.symm.trans ?_)
    decide +kernel
  obtain ⟨chunks, -, -, -, -, hchunks⟩ := hemitted 272 hsum (by
    intro file length hmem
    simp only [DeclaredPayload.files, List.zip_cons_cons, List.zip_nil_right, List.mem_cons,
      Prod.mk.injEq, Option.some.injEq, List.not_mem_nil, or_false] at hmem
    rcases hmem with ⟨rfl, rfl⟩ | ⟨rfl, rfl⟩
    · rfl
    · rfl)
  exact ⟨chunks, hchunks⟩

end FogHttp.Multipart
