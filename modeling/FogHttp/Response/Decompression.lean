import FogHttp.Budgets.Reservation
import FogHttp.Lib.Loop
import FogHttp.Streaming.Decoder

/-!
# Buffered response bodies

A buffered body is collected chunk by chunk and then decoded as a whole, one
content coding after the other.  Every chunk that is kept, encoded or decoded,
is reserved in the budget of the client first.  A decode attempt reserves what
it reads on top of the encoded copy.  When it fails it releases its own bytes,
and when it succeeds the bytes of the encoded copy are released.  A failed zlib
attempt is followed by one with raw deflate.

The readers of the decoders are outside the repository.  Each attempt takes a
stream of `ReadAnswer`s: what its reader gives in a round, and how many bytes
other responses hold in the budget when an operation of that round comes to the
counter.  `FogHttp.Budgets` has the operations one by one; here a call is taken
as a whole, by `AtomicLoop.settle`.

Two fields of a reservation are ghosts.  `charged` is what its operations have
left in the counter, and `attempts` is the record of the decode attempts.
-/

namespace FogHttp.Response

open Lib Budgets
open Streaming (Bytes)

/-! ## The plan -/

inductive ContentCoding where
  | gzip
  | deflate
  | brotli
deriving DecidableEq, Repr

inductive ContentCodingPlan where
  | decode (codings : List ContentCoding)
  | leaveEncoded
deriving DecidableEq, Repr

/-- `supported_content_coding`. -/
def supportedContentCoding (coding : Text) : Option ContentCoding :=
  if coding = ("gzip" : Text) ∨ coding = ("x-gzip" : Text) then some .gzip
  else if coding = ("deflate" : Text) then some .deflate
  else if coding = ("br" : Text) then some .brotli
  else none

/-- The inner loop body of `content_coding_plan`.  There is no result where the
function returns `LeaveEncoded`. -/
def planItem (codings : List ContentCoding) (item : Text) : Option (List ContentCoding) :=
  let coding := toAsciiLowercase (trim item)
  if coding.isEmpty || coding == ("identity" : Text) then some codings
  else (supportedContentCoding coding).map fun supported => codings ++ [supported]

/-- The outer loop body of `content_coding_plan`.  `toStr` is `HeaderValue::to_str`
of the `http` crate. -/
def planValue (toStr : Text → Option Text) (codings : List ContentCoding) (value : Text) :
    Option (List ContentCoding) :=
  (toStr value).bind fun value => (value.splitOn ',').foldlM planItem codings

/-- `content_coding_plan` on the `Content-Encoding` values. -/
def contentCodingPlan (toStr : Text → Option Text) (values : List Text) : ContentCodingPlan :=
  match values.foldlM (planValue toStr) [] with
  | none => .leaveEncoded
  | some codings => if codings.isEmpty then .leaveEncoded else .decode codings

/-- `content_coding_name`. -/
def contentCodingName : ContentCoding → Text
  | .gzip => "gzip"
  | .deflate => "deflate"
  | .brotli => "br"

/-! ## Reservations -/

inductive ResponseBodyError where
  | tooLarge (limit : Nat)
  | budgetExceeded (limit : Nat)
  | counterOverflow
  | reservationOverflow
  | reservationUnderflow
  | decodeReservationOverflow
  | decode (coding source : Text)
deriving DecidableEq, Repr

/-- One call of `decode_reader_result`. -/
structure DecodeAttempt where
  encodedSize : Nat
  reservedBefore : Nat
  reservedAfter : Nat
  succeeded : Bool
deriving DecidableEq, Repr

structure BufferedBodyReservation where
  reservedBytes : Nat
  charged : Nat
  attempts : List DecodeAttempt
deriving DecidableEq, Repr

namespace BufferedBodyReservation

/-- `BufferedBodyBudget::start_response`. -/
def startResponse : BufferedBodyReservation := ⟨0, 0, []⟩

/-- `BufferedBodyReservation::reserve_chunk`, with `others` bytes of other
responses in the counter. -/
def reserveChunk (maxBufferedResponseBytes : Option Nat) (others : Nat)
    (reservation : BufferedBodyReservation) (chunkSize : Nat) :
    Except ResponseBodyError Unit × BufferedBodyReservation :=
  match checkedAdd reservation.reservedBytes chunkSize with
  | none => (.error .reservationOverflow, reservation)
  | some nextReservedBytes =>
      match (reserveBufferedResponseBytes chunkSize maxBufferedResponseBytes).settle
          (others + reservation.charged) with
      | .error .limitExceeded =>
          (.error (.budgetExceeded (maxBufferedResponseBytes.getD 0)), reservation)
      | .error .counterOverflow => (.error .counterOverflow, reservation)
      | .ok counter =>
          (.ok (), { reservation with
            reservedBytes := nextReservedBytes, charged := counter - others })

/-- `BufferedBodyBudget::release_bytes`: what is left of the charge.  A counter
that is too small is left alone. -/
def releaseBytes (others : Nat) (reservation : BufferedBodyReservation) (byteCount : Nat) : Nat :=
  match (releaseBufferedResponseBytes byteCount).settle (others + reservation.charged) with
  | .error () => reservation.charged
  | .ok counter => counter - others

/-- `BufferedBodyReservation::release_chunk`. -/
def releaseChunk (others : Nat) (reservation : BufferedBodyReservation) (chunkSize : Nat) :
    Except ResponseBodyError Unit × BufferedBodyReservation :=
  if chunkSize = 0 then (.ok (), reservation)
  else
    match checkedSub reservation.reservedBytes chunkSize with
    | none => (.error .reservationUnderflow, reservation)
    | some nextReservedBytes =>
        (.ok (), { reservation with
          reservedBytes := nextReservedBytes
          charged := reservation.releaseBytes others chunkSize })

/-- The drop of a reservation: what is left of the charge. -/
def drop (others : Nat) (reservation : BufferedBodyReservation) : Nat :=
  reservation.releaseBytes others reservation.reservedBytes

end BufferedBodyReservation

/-- The limits of a response. -/
structure BodyLimits where
  maxResponseBodySize : Option Nat
  maxBufferedResponseBytes : Option Nat
deriving DecidableEq, Repr

/-- An error that is returned, with the reservation that is dropped on the way. -/
structure Failure where
  error : ResponseBodyError
  reservation : BufferedBodyReservation
deriving DecidableEq, Repr

/-! ## Collecting -/

/-- `enforce_response_body_limit`. -/
def enforceResponseBodyLimit (currentSize chunkSize : Nat) (maxResponseBodySize : Option Nat) :
    Except ResponseBodyError Unit :=
  match maxResponseBodySize with
  | none => .ok ()
  | some limit =>
      match checkedAdd currentSize chunkSize with
      | none => .error (.tooLarge limit)
      | some nextSize => if nextSize > limit then .error (.tooLarge limit) else .ok ()

structure CollectedBody where
  content : Bytes
  reservation : BufferedBodyReservation
deriving DecidableEq, Repr

/-- A data frame, and what other responses hold when it is reserved. -/
structure DataFrame where
  data : Bytes
  others : Nat
deriving DecidableEq, Repr

/-- `BufferedBodyCollector::push_data`. -/
def pushData (limits : BodyLimits) (collected : CollectedBody) (frame : DataFrame) :
    Except Failure CollectedBody :=
  match enforceResponseBodyLimit collected.content.length frame.data.length
      limits.maxResponseBodySize with
  | .error error => .error ⟨error, collected.reservation⟩
  | .ok () =>
      match collected.reservation.reserveChunk limits.maxBufferedResponseBytes frame.others
          frame.data.length with
      | (.error error, reservation) => .error ⟨error, reservation⟩
      | (.ok (), reservation) => .ok ⟨collected.content ++ frame.data, reservation⟩

/-- A body is collected from its frames, up to the first error. -/
def collect (limits : BodyLimits) (frames : List DataFrame) : Except Failure CollectedBody :=
  frames.foldlM (pushData limits) ⟨[], .startResponse⟩

/-! ## Decoding -/

/-- One round of a decode attempt as its surroundings see it. -/
structure ReadAnswer where
  /-- What `Read::read` returns. -/
  read : Except Text Bytes
  /-- What other responses hold when a chunk is reserved. -/
  othersAtReserve : Nat
  /-- What other responses hold when the attempt releases its bytes. -/
  othersAtRelease : Nat

inductive DecodeAttemptError where
  | read (error : Text)
  | runtime (error : ResponseBodyError)
deriving DecidableEq, Repr

/-- The variables of `decode_reader_result`. -/
structure Attempt where
  decoded : Bytes
  attemptReserved : Nat
  reservation : BufferedBodyReservation

/-- An error exit of `decode_reader_result`. -/
def Attempt.abandon (attempt : Attempt) (others : Nat) (error : DecodeAttemptError) :
    Round Attempt (Except DecodeAttemptError Bytes) :=
  match attempt.reservation.releaseChunk others attempt.attemptReserved with
  | (.error releaseError, reservation) =>
      .done (.error (.runtime releaseError)) { attempt with reservation }
  | (.ok (), reservation) => .done (.error error) { attempt with reservation }

/-- The loop body of `decode_reader_result`. -/
def readRound (limits : BodyLimits) (answer : ReadAnswer) (attempt : Attempt) :
    Round Attempt (Except DecodeAttemptError Bytes) :=
  match answer.read with
  | .error error => attempt.abandon answer.othersAtRelease (.read error)
  | .ok bytes =>
      if bytes.isEmpty then .done (.ok attempt.decoded) attempt
      else
        match enforceResponseBodyLimit attempt.decoded.length bytes.length
            limits.maxResponseBodySize with
        | .error error => attempt.abandon answer.othersAtRelease (.runtime error)
        | .ok () =>
            match attempt.reservation.reserveChunk limits.maxBufferedResponseBytes
                answer.othersAtReserve bytes.length with
            | (.error error, reservation) =>
                { attempt with reservation }.abandon answer.othersAtRelease (.runtime error)
            | (.ok (), reservation) =>
                match checkedAdd attempt.attemptReserved bytes.length with
                | none =>
                    { attempt with reservation }.abandon answer.othersAtRelease
                      (.runtime .decodeReservationOverflow)
                | some nextAttemptReserved =>
                    .again ⟨attempt.decoded ++ bytes, nextAttemptReserved, reservation⟩

/-- More rounds than a reservation can have: each one reserves a byte. -/
def readFuel : Nat := 2 ^ 64 + 1

/-- `decode_reader_result` on a reader of `content`. -/
def decodeReaderResult (limits : BodyLimits) (reader : Nat → ReadAnswer) (content : Bytes)
    (reservation : BufferedBodyReservation) :
    Option (Except DecodeAttemptError Bytes) × BufferedBodyReservation :=
  let (result, attempt) := loop (readRound limits) readFuel reader ⟨[], 0, reservation⟩
  let record : DecodeAttempt :=
    ⟨content.length, reservation.reservedBytes, attempt.reservation.reservedBytes,
      result.any Except.isOk⟩
  (result, { attempt.reservation with attempts := attempt.reservation.attempts ++ [record] })

/-- `decode_attempt_error`. -/
def decodeAttemptError (coding : ContentCoding) : DecodeAttemptError → ResponseBodyError
  | .read source => .decode (contentCodingName coding) source
  | .runtime error => error

/-- `decode_reader`. -/
def decodeReader (limits : BodyLimits) (coding : ContentCoding) (reader : Nat → ReadAnswer)
    (content : Bytes) (reservation : BufferedBodyReservation) :
    Option (Except ResponseBodyError Bytes) × BufferedBodyReservation :=
  let (result, reservation) := decodeReaderResult limits reader content reservation
  (result.map fun result => result.mapError (decodeAttemptError coding), reservation)

/-- What the surroundings do while one coding is undone. -/
structure LayerAnswers where
  /-- The reader of the coding; the zlib reader for deflate. -/
  reader : Nat → ReadAnswer
  /-- The raw deflate reader. -/
  rawReader : Nat → ReadAnswer
  /-- What other responses hold when the encoded copy is released. -/
  others : Nat

/-- `decode_deflate`. -/
def decodeDeflate (limits : BodyLimits) (answers : LayerAnswers) (content : Bytes)
    (reservation : BufferedBodyReservation) :
    Option (Except ResponseBodyError Bytes) × BufferedBodyReservation :=
  match decodeReaderResult limits answers.reader content reservation with
  | (none, reservation) => (none, reservation)
  | (some (.ok decoded), reservation) => (some (.ok decoded), reservation)
  | (some (.error (.read _)), reservation) =>
      decodeReader limits .deflate answers.rawReader content reservation
  | (some (.error (.runtime error)), reservation) => (some (.error error), reservation)

/-- `decode_content_coding`. -/
def decodeContentCoding (limits : BodyLimits) (coding : ContentCoding) (answers : LayerAnswers)
    (content : Bytes) (reservation : BufferedBodyReservation) :
    Option (Except ResponseBodyError Bytes) × BufferedBodyReservation :=
  match coding with
  | .gzip => decodeReader limits .gzip answers.reader content reservation
  | .deflate => decodeDeflate limits answers content reservation
  | .brotli => decodeReader limits .brotli answers.reader content reservation

structure ResponseBody where
  content : Bytes
  reservation : BufferedBodyReservation
  decoded : Bool
deriving DecidableEq, Repr

/-- The loop of `decode_supported_body` over the codings that are left, in the
order in which they are undone. -/
def decodeLayers (limits : BodyLimits) :
    List ContentCoding → (Nat → LayerAnswers) → CollectedBody →
      Option (Except Failure ResponseBody)
  | [], _, body => some (.ok ⟨body.content, body.reservation, true⟩)
  | coding :: codings, answers, body =>
      match decodeContentCoding limits coding (answers 0) body.content body.reservation with
      | (none, _) => none
      | (some (.error error), reservation) => some (.error ⟨error, reservation⟩)
      | (some (.ok decoded), reservation) =>
          match reservation.releaseChunk (answers 0).others body.content.length with
          | (.error error, reservation) => some (.error ⟨error, reservation⟩)
          | (.ok (), reservation) =>
              decodeLayers limits codings (fun n => answers (n + 1)) ⟨decoded, reservation⟩

/-- The codings of a plan in the order in which they are undone. -/
def decodeOrder (codings : List ContentCoding) : List ContentCoding := codings.reverse

/-- `decode_supported_body`. -/
def decodeSupportedBody (limits : BodyLimits) (codings : List ContentCoding)
    (answers : Nat → LayerAnswers) (body : CollectedBody) :
    Option (Except Failure ResponseBody) :=
  decodeLayers limits (decodeOrder codings) answers body

/-- `decode_body`.  There is no result when the fuel of a loop runs out. -/
def decodeBody (limits : BodyLimits) (plan : ContentCodingPlan) (answers : Nat → LayerAnswers)
    (collected : CollectedBody) : Option (Except Failure ResponseBody) :=
  match plan with
  | .decode codings => decodeSupportedBody limits codings answers collected
  | .leaveEncoded => some (.ok ⟨collected.content, collected.reservation, false⟩)

/-- A response is received: its body is collected and then decoded. -/
def receiveBody (limits : BodyLimits) (frames : List DataFrame) (plan : ContentCodingPlan)
    (answers : Nat → LayerAnswers) : Option (Except Failure ResponseBody) :=
  match collect limits frames with
  | .error failure => some (.error failure)
  | .ok collected => decodeBody limits plan answers collected

end FogHttp.Response
