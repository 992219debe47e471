import FogHttp.Lib.Digits
import FogHttp.Lib.Loop
import FogHttp.Lib.Search

/-!
# The CONNECT tunnel

`establishTunnel` asks a proxy for a tunnel: it writes the CONNECT request, and
it reads the answer in pieces of at most 256 bytes until a blank line ends the
response head.  The bytes behind the head belong to the tunnel already.
`HttpsTunnelConnection` keeps them as its read prefix, and `pollRead` hands them
out before it reads the socket again.

`Socket` is the proxy's side of the connection: the pieces in which its bytes
arrive, and what a read finds after the last one.  A read returns at most as
much as the buffer of the caller holds, and the rest of the piece stays.  An
`await` that never completes is `Poll.pending`.

The order in the read loop matters.  After every read the terminator is
searched first, and only a response without one is held against
`maxConnectResponseBytes`.

Left out: the authority of the request as a part of its URI, and the writing
half of the connection, which passes every call on.  The records of the metrics
stand in `FogHttp.Proxy.Endpoint`.
-/

namespace FogHttp.Proxy

open Lib

abbrev Bytes := List UInt8

def maxConnectResponseBytes : Nat := 8 * 1024

/-- The size of the read buffer in `establish_tunnel`. -/
def chunkSize : Nat := 256

/-! ## Errors -/

/-- `std::io::ErrorKind`, with the kinds that the source tells apart. -/
inductive ErrorKind where
  | brokenPipe
  | connectionAborted
  | connectionReset
  | notConnected
  | unexpectedEof
  | other
deriving DecidableEq, Repr

/-- `std::io::Error`. -/
structure IoError where
  kind : ErrorKind
  message : Text
deriving DecidableEq, Repr

inductive ProxyTunnelFailureKind where
  | authentication
  | timeout
  | earlyClose
  | other
deriving DecidableEq, Repr

structure TunnelEstablishError where
  error : Text
  kind : ProxyTunnelFailureKind
deriving DecidableEq, Repr

/-- `TunnelEstablishError::other`. -/
def TunnelEstablishError.other (error : Text) : TunnelEstablishError := ⟨error, .other⟩

/-- `TunnelEstablishError::io`. -/
def TunnelEstablishError.io (error : IoError) : TunnelEstablishError :=
  ⟨error.message,
    match error.kind with
    | .brokenPipe | .connectionAborted | .connectionReset | .notConnected | .unexpectedEof =>
        .earlyClose
    | .other => .other⟩

def proxyConnectClosed : Text :=
  "proxy closed the connection before the CONNECT tunnel was established"

def proxyConnectInvalidResponse : Text :=
  "proxy returned an invalid response to the CONNECT request"

/-- `proxy_connect_rejected`. -/
def proxyConnectRejected (status : Nat) : Text :=
  "proxy rejected the CONNECT tunnel with status " ++ decimal status

/-! ## The socket -/

/-- `std::task::Poll`. -/
inductive Poll (α : Type) where
  | pending
  | ready (value : α)
deriving DecidableEq, Repr

/-- A piece of the stream that arrives at once. -/
abbrev Segment := { bytes : Bytes // bytes ≠ [] }

/-- What a read finds when all bytes have been read. -/
inductive Ending where
  | closed
  | failed (error : IoError)
  | silent
deriving DecidableEq, Repr

/-- A read at the end of the stream. -/
def Ending.poll : Ending → Poll (Except IoError Bytes)
  | .closed => .ready (.ok [])
  | .failed error => .ready (.error error)
  | .silent => .pending

structure Socket where
  segments : List Segment
  ending : Ending
  /-- How `write_all` of the request ends. -/
  writing : Poll (Except IoError Unit)
  /-- How the `flush` after it ends. -/
  flushing : Poll (Except IoError Unit)
  written : Text
deriving DecidableEq

/-- All bytes that the proxy still sends. -/
def Socket.bytes (socket : Socket) : Bytes := (socket.segments.map Subtype.val).flatten

/-- The pieces behind the first `count` bytes of a piece. -/
def remaining (segment : Segment) (rest : List Segment) (count : Nat) : List Segment :=
  if h : segment.1.drop count = [] then rest else ⟨segment.1.drop count, h⟩ :: rest

/-- `poll_read` of the stream with room for `capacity` bytes. -/
def Socket.pollRead (socket : Socket) (capacity : Nat) : Poll (Except IoError Bytes) × Socket :=
  match socket.segments with
  | [] => (socket.ending.poll, socket)
  | segment :: rest =>
      (.ready (.ok (segment.1.take capacity)),
        { socket with segments := remaining segment rest capacity })

/-! ## The response head -/

def crlf : Bytes := [13, 10]

def headTerminator : Bytes := [13, 10, 13, 10]

/-- `find_headers_end`. -/
def findHeadersEnd (buffer : Bytes) : Option Nat :=
  (position headTerminator buffer).map fun index => index + 4

/-- `std::str::from_utf8`. -/
def fromUtf8 (bytes : Bytes) : Option Text :=
  (ByteArray.mk bytes.toArray).utf8Decode?.map Array.toList

/-- `str::split_whitespace`. -/
def splitWhitespace (text : Text) : List Text :=
  (text.splitOnP isWhitespace).filter fun word => !word.isEmpty

/-- `Option::ok_or`. -/
def okOr {α ε : Type} (error : ε) : Option α → Except ε α
  | none => .error error
  | some value => .ok value

/-- `parse_connect_status`. -/
def parseConnectStatus (response : Bytes) : Except Text Nat := do
  let lineEnd ← okOr proxyConnectInvalidResponse (position crlf response)
  let statusLine ← okOr proxyConnectInvalidResponse (fromUtf8 (response.take lineEnd))
  let parts := splitWhitespace statusLine
  let version := parts.head?.getD []
  if version ≠ "HTTP/1.0" ∧ version ≠ "HTTP/1.1" then .error proxyConnectInvalidResponse
  else
    let code ← okOr proxyConnectInvalidResponse parts[1]?
    if utf8Len code ≠ 3 ∨ code.all Char.isDigit = false then .error proxyConnectInvalidResponse
    else okOr proxyConnectInvalidResponse (parseUint (2 ^ 16) code)

/-! ## The connection -/

structure HttpsTunnelConnection where
  inner : Socket
  readPrefix : Option Bytes
deriving DecidableEq

/-- `HttpsTunnelConnection::poll_read` with room for `capacity` bytes. -/
def HttpsTunnelConnection.pollRead (connection : HttpsTunnelConnection) (capacity : Nat) :
    Poll (Except IoError Bytes) × HttpsTunnelConnection :=
  let readPrefix := connection.readPrefix.getD []
  if readPrefix ≠ [] then
    let copyLen := min readPrefix.length capacity
    let rest := readPrefix.drop copyLen
    (.ready (.ok (readPrefix.take copyLen)),
      ⟨connection.inner, if rest = [] then none else some rest⟩)
  else
    let (result, inner) := connection.inner.pollRead capacity
    (result, ⟨inner, none⟩)

/-! ## The establishment -/

abbrev Outcome := Poll (Except TunnelEstablishError HttpsTunnelConnection)

/-- The text of the CONNECT request. -/
def connectRequest (authority : Text) (proxyAuthorization : Option Text) : Text :=
  "CONNECT " ++ authority ++ " HTTP/1.1\r\nHost: " ++ authority ++ "\r\n" ++
    (match proxyAuthorization with
      | some authorization => "Proxy-Authorization: " ++ authorization ++ "\r\n"
      | none => []) ++
    "\r\n"

/-- The stream and the response so far. -/
structure Reading where
  io : Socket
  response : Bytes

/-- What `establish_tunnel` makes of a response whose head is complete. -/
def checkHead (io : Socket) (response : Bytes) (headersEnd : Nat) :
    Except TunnelEstablishError HttpsTunnelConnection :=
  match parseConnectStatus (response.take headersEnd) with
  | .error error => .error (.other error)
  | .ok status =>
      if ¬ (200 ≤ status ∧ status < 300) then
        .error ⟨proxyConnectRejected status, if status = 407 then .authentication else .other⟩
      else if response.length = headersEnd then .ok ⟨io, none⟩
      else .ok ⟨io, some (response.drop headersEnd)⟩

/-- The end of the loop body, with the bytes of the read appended. -/
def examine (io : Socket) (response : Bytes) : Round Reading Outcome :=
  match findHeadersEnd response with
  | some headersEnd => .done (.ready (checkHead io response headersEnd)) ⟨io, response⟩
  | none =>
      if response.length > maxConnectResponseBytes then
        .done (.ready (.error (.other proxyConnectInvalidResponse))) ⟨io, response⟩
      else .again ⟨io, response⟩

/-- The body of the read loop in `establish_tunnel`. -/
def readRound (_ : Unit) (state : Reading) : Round Reading Outcome :=
  match state.io.pollRead chunkSize with
  | (.pending, io) => .done .pending ⟨io, state.response⟩
  | (.ready (.error error), io) => .done (.ready (.error (.io error))) ⟨io, state.response⟩
  | (.ready (.ok []), io) =>
      .done (.ready (.error ⟨proxyConnectClosed, .earlyClose⟩)) ⟨io, state.response⟩
  | (.ready (.ok chunk), io) => examine io (state.response ++ chunk)

/-- The read loop.  Every further round reads a byte or more, so this is enough
fuel for a response up to the limit. -/
def readResponse (io : Socket) : Option Outcome :=
  (loop readRound (maxConnectResponseBytes + 2) (fun _ => ()) ⟨io, []⟩).1

/-- What follows an `await` of a write, with its `?`. -/
def afterWrite (result : Poll (Except IoError Unit)) (next : Option Outcome) : Option Outcome :=
  match result with
  | .pending => some .pending
  | .ready (.error error) => some (.ready (.error (.io error)))
  | .ready (.ok ()) => next

/-- `establish_tunnel`.  A pending outcome waits for the proxy.  There is always
an outcome (`establishTunnel_returns`). -/
def establishTunnel (stream : Socket) (authority : Text) (proxyAuthorization : Option Text) :
    Option Outcome :=
  let io := { stream with written := stream.written ++ connectRequest authority proxyAuthorization }
  afterWrite stream.writing (afterWrite stream.flushing (readResponse io))

/-! ## What one read does -/

theorem remaining_bytes (segment : Segment) (rest : List Segment) (count : Nat) :
    segment.1.take count ++ ((remaining segment rest count).map Subtype.val).flatten =
      segment.1 ++ (rest.map Subtype.val).flatten := by
  rw [remaining]
  split
  case isTrue h =>
    rw [List.take_of_length_le (List.drop_eq_nil_iff.mp h)]
  case isFalse h =>
    rw [List.map_cons, List.flatten_cons, ← List.append_assoc, List.take_append_drop]

/-- A read with room takes bytes from the front of the stream, while there are any. -/
theorem Socket.pollRead_spec (socket : Socket) {capacity : Nat} (hroom : 0 < capacity)
    (hbytes : socket.segments ≠ []) :
    ∃ byte more segments,
      socket.pollRead capacity = (.ready (.ok (byte :: more)), { socket with segments }) ∧
        byte :: more ++ (segments.map Subtype.val).flatten = socket.bytes ∧
        more.length < capacity := by
  rw [Socket.pollRead, Socket.bytes]
  cases hsegments : socket.segments with
  | nil => exact absurd hsegments hbytes
  | cons segment rest =>
      obtain ⟨bytes, hne⟩ := segment
      cases bytes with
      | nil => exact absurd rfl hne
      | cons byte more =>
          cases capacity with
          | zero => omega
          | succ capacity =>
              refine ⟨byte, more.take capacity, _, rfl, ?_, ?_⟩
              · exact remaining_bytes ⟨byte :: more, hne⟩ rest (capacity + 1)
              · rw [List.length_take]
                omega

theorem Socket.bytes_eq_nil {socket : Socket} : socket.bytes = [] ↔ socket.segments = [] := by
  rw [Socket.bytes]
  cases socket.segments with
  | nil => simp
  | cons segment rest =>
      obtain ⟨bytes, hne⟩ := segment
      simp [hne]

/-! ## What the loop returns -/

/-- The verdict on a socket whose bytes were all read without a head. -/
def Ending.outcome : Ending → Outcome
  | .closed => .ready (.error ⟨proxyConnectClosed, .earlyClose⟩)
  | .failed error => .ready (.error (.io error))
  | .silent => .pending

/-- The response so far has no head, and it is within the limit. -/
structure Reading.Open (bytes : Bytes) (ending : Ending) (state : Reading) : Prop where
  split : state.response ++ state.io.bytes = bytes
  ending : state.io.ending = ending
  headless : findHeadersEnd state.response = none
  short : state.response.length ≤ maxConnectResponseBytes

/-- How the loop may end on the bytes of a proxy. -/
inductive Judged (bytes : Bytes) (ending : Ending) : Outcome → Prop where
  /-- All bytes were read. -/
  | ended (hnone : findHeadersEnd bytes = none)
      (hshort : bytes.length ≤ maxConnectResponseBytes) :
      Judged bytes ending ending.outcome
  /-- The head was found, at most one buffer beyond the limit. -/
  | head {headersEnd : Nat} {io : Socket} {response : Bytes}
      (hfound : findHeadersEnd bytes = some headersEnd)
      (hsplit : response ++ io.bytes = bytes)
      (hresponse : findHeadersEnd response = some headersEnd)
      (hreach : headersEnd ≤ maxConnectResponseBytes + chunkSize) :
      Judged bytes ending (.ready (checkHead io response headersEnd))
  /-- The limit was passed before the end of the head. -/
  | limit (hlong : maxConnectResponseBytes < bytes.length)
      (hlate : ∀ headersEnd, findHeadersEnd bytes = some headersEnd →
        maxConnectResponseBytes + 1 < headersEnd) :
      Judged bytes ending (.ready (.error (.other proxyConnectInvalidResponse)))

theorem findHeadersEnd_le {buffer : Bytes} {headersEnd : Nat}
    (h : findHeadersEnd buffer = some headersEnd) : headersEnd ≤ buffer.length := by
  obtain ⟨index, hindex, rfl⟩ := Option.map_eq_some_iff.mp h
  exact position_add_length_le (by decide) hindex

theorem findHeadersEnd_append {buffer : Bytes} {headersEnd : Nat}
    (h : findHeadersEnd buffer = some headersEnd) (more : Bytes) :
    findHeadersEnd (buffer ++ more) = some headersEnd := by
  obtain ⟨index, hindex, rfl⟩ := Option.map_eq_some_iff.mp h
  rw [findHeadersEnd, position_append hindex]
  rfl

/-- A head that ends inside of the bytes so far is found in them. -/
theorem findHeadersEnd_of_append {buffer more : Bytes} {headersEnd : Nat}
    (h : findHeadersEnd (buffer ++ more) = some headersEnd) (hfits : headersEnd ≤ buffer.length) :
    findHeadersEnd buffer = some headersEnd := by
  obtain ⟨index, hindex, rfl⟩ := Option.map_eq_some_iff.mp h
  rw [findHeadersEnd, position_of_append hindex (by decide) hfits]
  rfl

/-- One round keeps the reading open, with fewer bytes to come, or ends it as judged. -/
theorem readRound_meets {bytes : Bytes} {ending : Ending} {state : Reading}
    (h : state.Open bytes ending) :
    (readRound () state).Meets (fun outcome _ => Judged bytes ending outcome)
      (fun next => next.Open bytes ending ∧
        maxConnectResponseBytes + 1 - next.response.length <
          maxConnectResponseBytes + 1 - state.response.length) := by
  have hshort := h.short
  by_cases hsegments : state.io.segments = []
  · have hall : state.response = bytes := by
      rw [← h.split, Socket.bytes_eq_nil.mpr hsegments, List.append_nil]
    have hended : Judged bytes ending ending.outcome :=
      .ended (hall ▸ h.headless) (hall ▸ h.short)
    have hpoll : state.io.pollRead chunkSize = (ending.poll, state.io) := by
      rw [Socket.pollRead, hsegments, h.ending]
    rw [readRound, hpoll]
    cases ending with
    | closed => exact hended
    | failed error => exact hended
    | silent => exact hended
  · obtain ⟨byte, more, segments, hpoll, hbytes, hroom⟩ :=
      state.io.pollRead_spec (show 0 < chunkSize by decide) hsegments
    have hsplit : (state.response ++ byte :: more) ++ (segments.map Subtype.val).flatten =
        bytes := by
      rw [List.append_assoc, hbytes]
      exact h.split
    have hlength : (state.response ++ byte :: more).length =
        state.response.length + (more.length + 1) := by
      rw [List.length_append, List.length_cons]
    rw [readRound, hpoll]
    simp only [examine]
    cases hfound : findHeadersEnd (state.response ++ byte :: more) with
    | some headersEnd =>
        have hle := findHeadersEnd_le hfound
        apply Judged.head (hsplit ▸ findHeadersEnd_append hfound _) hsplit hfound
        omega
    | none =>
        by_cases hlimit : (state.response ++ byte :: more).length > maxConnectResponseBytes
        · simp only [if_pos hlimit]
          apply Judged.limit
          · rw [← hsplit, List.length_append]
            omega
          · intro headersEnd hend
            by_contra hearly
            rw [findHeadersEnd_of_append (hsplit ▸ hend) (by omega)] at hfound
            simp at hfound
        · simp only [if_neg hlimit]
          have hwithin : (state.response ++ byte :: more).length ≤ maxConnectResponseBytes := by
            omega
          refine ⟨⟨hsplit, h.ending, hfound, hwithin⟩, ?_⟩
          show maxConnectResponseBytes + 1 - (state.response ++ byte :: more).length < _
          omega

/-- The loop returns, and its outcome is one that the bytes allow. -/
theorem readResponse_judged (io : Socket) :
    ∃ outcome, readResponse io = some outcome ∧ Judged io.bytes io.ending outcome := by
  have hopen : Reading.Open io.bytes io.ending ⟨io, []⟩ := ⟨rfl, rfl, rfl, Nat.zero_le _⟩
  obtain ⟨outcome, final, hloop, hjudged⟩ :=
    loop_meets (Reading.Open io.bytes io.ending)
      (fun outcome _ => Judged io.bytes io.ending outcome)
      (fun state => maxConnectResponseBytes + 1 - state.response.length)
      (fun _ _ h => readRound_meets h) (maxConnectResponseBytes + 2) (fun _ => ())
      ⟨io, []⟩ hopen (Nat.lt_succ_self _)
  exact ⟨outcome, by rw [readResponse, hloop], hjudged⟩

/-- The writes go before a judged reading of the proxy's bytes. -/
theorem establishTunnel_judged (stream : Socket) (authority : Text)
    (proxyAuthorization : Option Text) :
    ∃ outcome, establishTunnel stream authority proxyAuthorization =
        afterWrite stream.writing (afterWrite stream.flushing (some outcome)) ∧
      Judged stream.bytes stream.ending outcome := by
  obtain ⟨outcome, houtcome, hjudged⟩ := readResponse_judged
    { stream with written := stream.written ++ connectRequest authority proxyAuthorization }
  refine ⟨outcome, ?_, hjudged⟩
  rw [establishTunnel]
  simp only [houtcome]

/-- `establish_tunnel` never stops without an outcome, other than by waiting. -/
theorem establishTunnel_returns (stream : Socket) (authority : Text)
    (proxyAuthorization : Option Text) :
    ∃ outcome, establishTunnel stream authority proxyAuthorization = some outcome := by
  obtain ⟨outcome, houtcome, -⟩ := establishTunnel_judged stream authority proxyAuthorization
  rw [houtcome]
  cases hwriting : stream.writing with
  | pending => exact ⟨_, rfl⟩
  | ready result =>
      cases result with
      | error error => exact ⟨_, rfl⟩
      | ok _ =>
          cases hflushing : stream.flushing with
          | pending => exact ⟨_, rfl⟩
          | ready result =>
              cases result with
              | error error => exact ⟨_, rfl⟩
              | ok _ => exact ⟨_, rfl⟩

end FogHttp.Proxy
