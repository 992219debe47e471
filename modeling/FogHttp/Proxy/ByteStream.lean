import FogHttp.Lib.Fallible
import FogHttp.Proxy.Tunnel

/-!
# The byte stream of a tunnel

What a caller reads from a tunnel is what the proxy sent behind the response
head.  The state of the connection holds these bytes in two places, the read
prefix and the socket, and `pending` is the one behind the other.  A read moves
bytes from the front of `pending` to the caller (`pollRead_spec`), however the
proxy split them and however large the buffer is.  `readMany_received` is the
statement about any number of reads.

`connect_preserves_stream` starts at the CONNECT request.  The head is the
shortest beginning of the proxy's bytes that ends with a blank line, and its
first line is a success of HTTP/1.0 or HTTP/1.1.
-/

namespace FogHttp.Proxy

open Lib

/-! ## Reads of a connection -/

/-- The bytes that a connection has still to deliver. -/
def HttpsTunnelConnection.pending (connection : HttpsTunnelConnection) : Bytes :=
  connection.readPrefix.getD [] ++ connection.inner.bytes

/-- The bytes of a read. -/
def received : Poll (Except IoError Bytes) → Bytes
  | .ready (.ok bytes) => bytes
  | _ => []

/-- Reads with the given buffer sizes, one after the other. -/
def readMany (connection : HttpsTunnelConnection) : List Nat → Bytes × HttpsTunnelConnection
  | [] => ([], connection)
  | capacity :: capacities =>
      let (result, connection) := connection.pollRead capacity
      let (bytes, connection) := readMany connection capacities
      (received result ++ bytes, connection)

/-- A read of the socket takes what it returns from the front of its bytes. -/
theorem Socket.pollRead_bytes (socket : Socket) (capacity : Nat) :
    received (socket.pollRead capacity).1 ++ (socket.pollRead capacity).2.bytes =
      socket.bytes := by
  rw [Socket.pollRead]
  cases hsegments : socket.segments with
  | nil => cases hending : socket.ending <;> rfl
  | cons segment rest =>
      have htaken := remaining_bytes segment rest capacity
      simp only [received, Socket.bytes, hsegments, List.map_cons, List.flatten_cons]
      exact htaken

/-- A read takes what it returns from the front of the pending bytes. -/
theorem pollRead_pending (connection : HttpsTunnelConnection) (capacity : Nat) :
    received (connection.pollRead capacity).1 ++ (connection.pollRead capacity).2.pending =
      connection.pending := by
  simp only [HttpsTunnelConnection.pollRead, HttpsTunnelConnection.pending]
  by_cases hskipped : connection.readPrefix.getD [] = []
  · simp only [hskipped, ne_eq, not_true_eq_false, if_false, Option.getD_none, List.nil_append]
    exact Socket.pollRead_bytes connection.inner capacity
  · simp only [ne_eq, hskipped, not_false_eq_true, if_true, received]
    have hrest : ∀ rest : Bytes, (if rest = [] then none else some rest).getD [] = rest := by
      intro rest
      by_cases hempty : rest = []
      · rw [if_pos hempty, hempty]
        rfl
      · rw [if_neg hempty]
        rfl
    rw [hrest, ← List.append_assoc, List.take_append_drop]

/-- While bytes are pending, a read with room returns some of them. -/
theorem pollRead_of_pending (connection : HttpsTunnelConnection) {capacity : Nat}
    (hroom : 0 < capacity) (hpending : connection.pending ≠ []) :
    ∃ bytes, (connection.pollRead capacity).1 = .ready (.ok bytes) ∧ bytes ≠ [] := by
  simp only [HttpsTunnelConnection.pollRead]
  by_cases hskipped : connection.readPrefix.getD [] = []
  · have hbytes : connection.inner.bytes ≠ [] := by
      intro hempty
      apply hpending
      rw [HttpsTunnelConnection.pending, hskipped, hempty]
      rfl
    obtain ⟨byte, more, segments, hpoll, -, -⟩ := connection.inner.pollRead_spec hroom
      fun hempty => hbytes (Socket.bytes_eq_nil.mpr hempty)
    simp only [hskipped, ne_eq, not_true_eq_false, if_false, hpoll]
    exact ⟨byte :: more, rfl, List.cons_ne_nil byte more⟩
  · simp only [ne_eq, hskipped, not_false_eq_true, if_true]
    refine ⟨_, rfl, ?_⟩
    intro hnothing
    have hlength := congrArg List.length hnothing
    have hpositive := List.length_pos_iff.mpr hskipped
    rw [List.length_take, List.length_nil] at hlength
    omega

/-- Any number of reads: the bytes received and the bytes still pending are the
bytes that were pending before. -/
theorem readMany_received (connection : HttpsTunnelConnection) (capacities : List Nat) :
    (readMany connection capacities).1 ++ (readMany connection capacities).2.pending =
      connection.pending := by
  induction capacities generalizing connection with
  | nil => rfl
  | cons capacity capacities ih =>
      have hread := pollRead_pending connection capacity
      rw [← ih (connection.pollRead capacity).2, ← List.append_assoc] at hread
      exact hread

/-- Reads with room deliver everything, when there are enough of them. -/
theorem readMany_complete (connection : HttpsTunnelConnection) {capacities : List Nat}
    (hroom : ∀ capacity ∈ capacities, 0 < capacity)
    (henough : connection.pending.length ≤ capacities.length) :
    (readMany connection capacities).2.pending = [] := by
  induction capacities generalizing connection with
  | nil => exact List.eq_nil_of_length_eq_zero (Nat.le_zero.mp henough)
  | cons capacity capacities ih =>
      apply ih (connection.pollRead capacity).2
      · intro next hnext
        exact hroom next (List.mem_cons_of_mem capacity hnext)
      · have hread := congrArg List.length (pollRead_pending connection capacity)
        rw [List.length_append] at hread
        rw [List.length_cons] at henough
        by_cases hpending : connection.pending = []
        · rw [hpending, List.length_nil] at hread
          omega
        · obtain ⟨bytes, hresult, hne⟩ :=
            pollRead_of_pending connection (hroom capacity List.mem_cons_self) hpending
          have hpositive := List.length_pos_iff.mpr hne
          rw [hresult, received] at hread
          omega

/-! ## The status line -/

/-- The first line says HTTP/1.0 or HTTP/1.1, and its code has three digits, the
first of them a two. -/
def SuccessLine (bytes : Bytes) : Prop :=
  ∃ lineEnd line version second third more,
    position crlf bytes = some lineEnd ∧
    fromUtf8 (bytes.take lineEnd) = some line ∧
    splitWhitespace line = version :: ['2', second, third] :: more ∧
    (version = ("HTTP/1.0" : Text) ∨ version = ("HTTP/1.1" : Text)) ∧
    second.isDigit = true ∧ third.isDigit = true

theorem okOr_eq_ok {α ε : Type} {error : ε} {option : Option α} {value : α} :
    okOr error option = .ok value ↔ option = some value := by
  cases option with
  | none => simp [okOr]
  | some _ => simp [okOr]

theorem isDigit_range {c : Char} (h : c.isDigit = true) : 48 ≤ c.toNat ∧ c.toNat ≤ 57 := by
  simp only [Char.isDigit, Bool.and_eq_true, decide_eq_true_eq, ge_iff_le,
    UInt32.le_iff_toNat_le] at h
  exact h

theorem utf8Len_digits {digits : Text} (h : ∀ c ∈ digits, c.isDigit = true) :
    utf8Len digits = digits.length := by
  induction digits with
  | nil => rfl
  | cons c rest ih =>
      have hrange := isDigit_range (h c List.mem_cons_self)
      have hsize : c.utf8Size = 1 := by
        have hval : c.val ≤ 0x7f := by
          rw [UInt32.le_iff_toNat_le]
          show c.toNat ≤ 127
          omega
        exact if_pos hval
      have hrest := ih fun d hd => h d (List.mem_cons_of_mem c hd)
      rw [utf8Len, List.map_cons, List.sum_cons, hsize, List.length_cons]
      rw [utf8Len] at hrest
      omega

/-- A code of three digits that is a success starts with a two. -/
theorem code_of_success {code : Text} {status : Nat} (hlength : utf8Len code = 3)
    (hdigits : ∀ c ∈ code, c.isDigit = true) (hparse : parseUint (2 ^ 16) code = some status)
    (hsuccess : 200 ≤ status ∧ status < 300) :
    ∃ second third, code = ['2', second, third] ∧ second.isDigit = true ∧
      third.isDigit = true := by
  rw [utf8Len_digits hdigits] at hlength
  obtain ⟨first, second, third, rfl⟩ := List.length_eq_three.mp hlength
  rw [parseUint_digits (by decide) (List.cons_ne_nil _ _) hdigits, checked] at hparse
  simp only [List.forall_mem_cons, List.not_mem_nil, false_imp_iff, implies_true,
    and_true] at hdigits
  obtain ⟨hfirst, hsecond, hthird⟩ := hdigits
  have hfirst := isDigit_range hfirst
  have hsecond' := isDigit_range hsecond
  have hthird' := isDigit_range hthird
  have hvalue : digitsValue [first, second, third] =
      ((0 * 10 + (first.toNat - 48)) * 10 + (second.toNat - 48)) * 10 + (third.toNat - 48) := rfl
  split at hparse
  case isFalse => simp at hparse
  case isTrue =>
    rw [Option.some.injEq, hvalue] at hparse
    have htwo : first = '2' := by
      apply Char.toNat_inj.mp
      show first.toNat = 50
      omega
    exact ⟨second, third, by rw [htwo], hsecond, hthird⟩

/-- A head with a status in the 200s has a success line, also in a longer text. -/
theorem successLine_of_status {head : Bytes} {status : Nat}
    (h : parseConnectStatus head = .ok status) (hsuccess : 200 ≤ status ∧ status < 300)
    (more : Bytes) : SuccessLine (head ++ more) := by
  rw [parseConnectStatus, bind_eq_ok] at h
  obtain ⟨lineEnd, hline, h⟩ := h
  rw [okOr_eq_ok] at hline
  rw [bind_eq_ok] at h
  obtain ⟨line, htext, h⟩ := h
  rw [okOr_eq_ok] at htext
  simp only at h
  split at h
  case isTrue => simp at h
  case isFalse hversion =>
    rw [bind_eq_ok] at h
    obtain ⟨code, hcode, h⟩ := h
    rw [okOr_eq_ok] at hcode
    split at h
    case isTrue => simp at h
    case isFalse hdigits =>
      rw [okOr_eq_ok] at h
      simp only [not_or, ne_eq, not_not, Bool.not_eq_false, List.all_eq_true] at hdigits
      obtain ⟨second, third, rfl, hsecond, hthird⟩ :=
        code_of_success hdigits.1 hdigits.2 h hsuccess
      have hfits := position_add_length_le (by decide) hline
      cases hwords : splitWhitespace line with
      | nil => simp [hwords] at hcode
      | cons version words =>
          rw [hwords] at hversion hcode
          cases words with
          | nil => simp at hcode
          | cons word words =>
              simp only [List.getElem?_cons_succ, List.getElem?_cons_zero,
                Option.some.injEq] at hcode
              refine ⟨lineEnd, line, version, second, third, words,
                position_append hline more, ?_, hcode ▸ hwords, ?_, hsecond, hthird⟩
              · rw [List.take_append_of_le_length (by omega)]
                exact htext
              · rw [List.head?_cons, Option.getD_some] at hversion
                by_cases hold : version = ("HTTP/1.0" : Text)
                · exact Or.inl hold
                · by_contra hnew
                  exact hversion ⟨hold, fun hsame => hnew (Or.inr hsame)⟩

/-! ## From the CONNECT request to the last byte -/

/-- What a successful check of the head says. -/
theorem checkHead_eq_ok {io : Socket} {response : Bytes} {headersEnd : Nat}
    {connection : HttpsTunnelConnection} (h : checkHead io response headersEnd = .ok connection) :
    connection.pending = response.drop headersEnd ++ io.bytes ∧
      ∃ status, parseConnectStatus (response.take headersEnd) = .ok status ∧
        200 ≤ status ∧ status < 300 := by
  rw [checkHead] at h
  cases hstatus : parseConnectStatus (response.take headersEnd) with
  | error error => simp [hstatus] at h
  | ok status =>
      rw [hstatus] at h
      simp only at h
      split at h
      case isTrue => simp at h
      case isFalse hsuccess =>
        refine ⟨?_, status, rfl, by omega⟩
        split at h
        case isTrue hall =>
          rw [Except.ok.injEq] at h
          rw [← h, List.drop_of_length_le (by omega)]
          rfl
        case isFalse =>
          rw [Except.ok.injEq] at h
          rw [← h]
          rfl

/-- A tunnel comes from a judged reading of the proxy's bytes. -/
theorem judged_of_establishTunnel {stream : Socket} {authority : Text}
    {proxyAuthorization : Option Text} {connection : HttpsTunnelConnection}
    (h : establishTunnel stream authority proxyAuthorization =
      some (.ready (.ok connection))) :
    Judged stream.bytes stream.ending (.ready (.ok connection)) := by
  obtain ⟨outcome, houtcome, hjudged⟩ := establishTunnel_judged stream authority proxyAuthorization
  rw [houtcome] at h
  cases hwriting : stream.writing with
  | pending => simp [hwriting, afterWrite] at h
  | ready result =>
      cases result with
      | error error => simp [hwriting, afterWrite] at h
      | ok _ =>
          cases hflushing : stream.flushing with
          | pending => simp [hwriting, hflushing, afterWrite] at h
          | ready result =>
              cases result with
              | error error => simp [hwriting, hflushing, afterWrite] at h
              | ok _ =>
                  rw [hwriting, hflushing, afterWrite, afterWrite, Option.some.injEq] at h
                  exact h ▸ hjudged

/-- A tunnel delivers exactly what the proxy sent behind its response head.  The
head ends at the first blank line.  Reads of any sizes return the bytes behind it
in their order, and a read with room returns some of them while there are any. -/
theorem connect_preserves_stream {stream : Socket} {authority : Text}
    {proxyAuthorization : Option Text} {connection : HttpsTunnelConnection}
    (h : establishTunnel stream authority proxyAuthorization =
      some (.ready (.ok connection))) :
    ∃ head rest, stream.bytes = head ++ rest ∧ FirstEnd headTerminator head ∧
      SuccessLine head ∧
      (∀ capacities, (readMany connection capacities).1 ++
        (readMany connection capacities).2.pending = rest) ∧
      (∀ capacities, (∀ capacity ∈ capacities, 0 < capacity) →
        rest.length ≤ capacities.length → (readMany connection capacities).1 = rest) ∧
      (∀ capacities capacity, 0 < capacity →
        (readMany connection capacities).2.pending ≠ [] →
        ∃ bytes, ((readMany connection capacities).2.pollRead capacity).1 = .ready (.ok bytes) ∧
          bytes ≠ []) := by
  have hjudged := judged_of_establishTunnel h
  generalize houtcome : (Poll.ready (.ok connection) : Outcome) = outcome at hjudged
  cases hjudged with
  | ended hnone hshort =>
      cases hending : stream.ending <;> simp [hending, Ending.outcome] at houtcome
  | limit hlong hlate => simp at houtcome
  | @head headersEnd io response hfound hsplit hresponse hreach =>
      rw [Poll.ready.injEq] at houtcome
      obtain ⟨hpending, status, hstatus, hsuccess⟩ := checkHead_eq_ok houtcome.symm
      obtain ⟨index, hindex, rfl⟩ := Option.map_eq_some_iff.mp hresponse
      have hreads := readMany_received connection
      rw [hpending] at hreads
      refine ⟨response.take (index + 4), response.drop (index + 4) ++ io.bytes, ?_,
        firstEnd_of_position (by decide) hindex, ?_, hreads, ?_, ?_⟩
      · rw [← List.append_assoc, List.take_append_drop]
        exact hsplit.symm
      · have hline := successLine_of_status hstatus hsuccess []
        rw [List.append_nil] at hline
        exact hline
      · intro capacities hroom henough
        have hdone := readMany_complete connection hroom (hpending ▸ henough)
        have hall := hreads capacities
        rw [hdone, List.append_nil] at hall
        exact hall
      · intro capacities capacity hroom hmore
        exact pollRead_of_pending _ hroom hmore

namespace TunnelExample

/-- A head of one line and one byte of the tunnel, in three pieces. -/
def stream : Socket where
  segments := [
    ⟨[72, 84, 84, 80, 47, 49, 46, 49, 32], by decide⟩,
    ⟨[50, 48, 48, 13, 10, 13], by decide⟩,
    ⟨[10, 22], by decide⟩]
  ending := .silent
  writing := .ready (.ok ())
  flushing := .ready (.ok ())
  written := []

/-- The connection, with the byte of the tunnel as its read prefix. -/
def connection : HttpsTunnelConnection :=
  ⟨{ stream with segments := [], written := connectRequest "api.example:443" none }, some [22]⟩

end TunnelExample

open TunnelExample in
theorem connect_preserves_stream_example :
    ∃ head, stream.bytes = head ++ [22] ∧ FirstEnd headTerminator head ∧ SuccessLine head := by
  obtain ⟨head, rest, hsplit, hend, hline, hreads, -⟩ :=
    connect_preserves_stream (show establishTunnel stream "api.example:443" none =
      some (.ready (.ok connection)) by decide +kernel)
  have hread : (readMany connection [1]).1 ++ (readMany connection [1]).2.pending = [22] := by
    decide
  rw [hreads [1]] at hread
  exact ⟨head, hread ▸ hsplit, hend, hline⟩

end FogHttp.Proxy
