import FogHttp.Proxy.Tunnel

/-!
# The segmentation of a CONNECT response

A proxy decides what bytes it sends, and the network decides in what pieces they
arrive.  `Sends` relates a socket to the first, and leaves the second open up to
pieces of 1 to 256 bytes.

The size limit is applied to the bytes that have arrived, and only when they hold
no complete head.  A head that ends beyond the limit is therefore refused when a
read stops between the limit and its end, and accepted when one read covers both.
`LimitRace` is the condition for it: the head ends within one read buffer of the
limit, and its status is not refused in the same way anyhow.

`settled` is the verdict as a function of the bytes.  Without a race it is the
verdict of every segmentation (`verdict_eq_settled`), and with a race there are two
segmentations with different verdicts (`verdict_cut`).
-/

namespace FogHttp.Proxy

open Lib

/-! ## Verdicts -/

inductive Verdict where
  | waiting
  | established
  | failed (kind : ProxyTunnelFailureKind)
deriving DecidableEq, Repr

def Poll.verdict : Outcome → Verdict
  | .pending => .waiting
  | .ready (.ok _) => .established
  | .ready (.error error) => .failed error.kind

/-- The verdict of `establish_tunnel` on a socket. -/
def verdictOf (socket : Socket) (authority : Text) (proxyAuthorization : Option Text) :
    Option Verdict :=
  (establishTunnel socket authority proxyAuthorization).map Poll.verdict

/-- What a proxy does, without the pieces in which its bytes arrive. -/
structure Peer where
  bytes : Bytes
  ending : Ending
  writing : Poll (Except IoError Unit)
  flushing : Poll (Except IoError Unit)

/-- The socket delivers what the proxy does, in pieces of 1 to 256 bytes. -/
structure Peer.Sends (peer : Peer) (socket : Socket) : Prop where
  bytes : socket.bytes = peer.bytes
  ending : socket.ending = peer.ending
  writing : socket.writing = peer.writing
  flushing : socket.flushing = peer.flushing
  sizes : ∀ segment ∈ socket.segments, segment.1.length ≤ chunkSize

/-- The verdict on a complete head. -/
def headVerdict (head : Bytes) : Verdict :=
  match parseConnectStatus head with
  | .error _ => .failed .other
  | .ok status =>
      if 200 ≤ status ∧ status < 300 then .established
      else if status = 407 then .failed .authentication
      else .failed .other

/-- The head ends after the limit, by no more than a read buffer, and its status
is a success or asks for authentication. -/
def LimitRace (peer : Peer) : Prop :=
  peer.writing = .ready (.ok ()) ∧ peer.flushing = .ready (.ok ()) ∧
  ∃ headersEnd status, findHeadersEnd peer.bytes = some headersEnd ∧
    maxConnectResponseBytes + 2 ≤ headersEnd ∧
    headersEnd ≤ maxConnectResponseBytes + chunkSize ∧
    parseConnectStatus (peer.bytes.take headersEnd) = .ok status ∧
    (200 ≤ status ∧ status < 300 ∨ status = 407)

/-! ## Without a race -/

theorem checkHead_verdict (io : Socket) (response : Bytes) (headersEnd : Nat) :
    (Poll.ready (checkHead io response headersEnd)).verdict =
      headVerdict (response.take headersEnd) := by
  rw [checkHead, headVerdict]
  cases hstatus : parseConnectStatus (response.take headersEnd) with
  | error error => rfl
  | ok status =>
      by_cases hsuccess : 200 ≤ status ∧ status < 300
      · by_cases hall : response.length = headersEnd <;> simp [hsuccess, hall, Poll.verdict]
      · by_cases hauth : status = 407 <;> simp [hsuccess, hauth, Poll.verdict]

/-- The verdict on the bytes of a proxy to which the request went out. -/
def settledRead (bytes : Bytes) (ending : Ending) : Verdict :=
  match findHeadersEnd bytes with
  | none =>
      if bytes.length ≤ maxConnectResponseBytes then ending.outcome.verdict else .failed .other
  | some headersEnd =>
      if headersEnd ≤ maxConnectResponseBytes + 1 then headVerdict (bytes.take headersEnd)
      else .failed .other

/-- A head whose verdict is no plain failure has a status that says so. -/
theorem status_of_headVerdict {head : Bytes} (h : headVerdict head ≠ .failed .other) :
    ∃ status, parseConnectStatus head = .ok status ∧
      (200 ≤ status ∧ status < 300 ∨ status = 407) := by
  rw [headVerdict] at h
  cases hstatus : parseConnectStatus head with
  | error error => simp [hstatus] at h
  | ok status =>
      rw [hstatus] at h
      refine ⟨status, rfl, ?_⟩
      by_contra hneither
      rw [not_or] at hneither
      simp [hneither] at h

theorem headVerdict_of_status {head : Bytes} {status : Nat}
    (h : parseConnectStatus head = .ok status)
    (hstatus : 200 ≤ status ∧ status < 300 ∨ status = 407) :
    headVerdict head ≠ .failed .other := by
  rw [headVerdict, h]
  rcases hstatus with hsuccess | rfl
  · simp [hsuccess]
  · simp

/-- Any judgement on the bytes is the settled verdict, unless the limit decides it. -/
theorem Judged.verdict_eq {bytes : Bytes} {ending : Ending} {outcome : Outcome}
    (h : Judged bytes ending outcome)
    (hrace : ∀ headersEnd, findHeadersEnd bytes = some headersEnd →
      maxConnectResponseBytes + 2 ≤ headersEnd →
      headersEnd ≤ maxConnectResponseBytes + chunkSize →
      headVerdict (bytes.take headersEnd) = .failed .other) :
    outcome.verdict = settledRead bytes ending := by
  rw [settledRead]
  cases h with
  | ended hnone hshort => rw [hnone]; simp only [if_pos hshort]
  | @head headersEnd io response hfound hsplit hresponse hreach =>
      have hhead : response.take headersEnd = bytes.take headersEnd := by
        rw [← hsplit, List.take_append_of_le_length (findHeadersEnd_le hresponse)]
      rw [hfound, checkHead_verdict, hhead]
      by_cases hwithin : headersEnd ≤ maxConnectResponseBytes + 1
      · simp only [if_pos hwithin]
      · simp only [if_neg hwithin]
        exact hrace headersEnd hfound (by omega) hreach
  | limit hlong hlate =>
      cases hfound : findHeadersEnd bytes with
      | none => simp only [if_neg (show ¬ bytes.length ≤ maxConnectResponseBytes by omega)]; rfl
      | some headersEnd =>
          have hbeyond := hlate headersEnd hfound
          simp only [if_neg (show ¬ headersEnd ≤ maxConnectResponseBytes + 1 by omega)]
          rfl

/-- The verdict on a proxy as a function of what the proxy does. -/
def settled (peer : Peer) : Verdict :=
  match peer.writing, peer.flushing with
  | .pending, _ => .waiting
  | .ready (.error error), _ => .failed (TunnelEstablishError.io error).kind
  | .ready (.ok ()), .pending => .waiting
  | .ready (.ok ()), .ready (.error error) => .failed (TunnelEstablishError.io error).kind
  | .ready (.ok ()), .ready (.ok ()) => settledRead peer.bytes peer.ending

/-- Without a race at the limit, every segmentation leads to the settled verdict. -/
theorem verdict_eq_settled {peer : Peer} {socket : Socket} (hsends : peer.Sends socket)
    (hrace : ¬ LimitRace peer) (authority : Text) (proxyAuthorization : Option Text) :
    verdictOf socket authority proxyAuthorization = some (settled peer) := by
  obtain ⟨outcome, houtcome, hjudged⟩ :=
    establishTunnel_judged socket authority proxyAuthorization
  rw [verdictOf, houtcome, settled, hsends.writing, hsends.flushing]
  cases hwriting : peer.writing with
  | pending => rfl
  | ready result =>
      cases result with
      | error error => rfl
      | ok _ =>
          cases hflushing : peer.flushing with
          | pending => rfl
          | ready result =>
              cases result with
              | error error => rfl
              | ok _ =>
                  have hread := hjudged.verdict_eq (by
                    intro headersEnd hfound hbeyond hreach
                    have hpeer : findHeadersEnd peer.bytes = some headersEnd :=
                      hsends.bytes ▸ hfound
                    by_contra hverdict
                    obtain ⟨status, hstatus, hkind⟩ := status_of_headVerdict hverdict
                    exact hrace ⟨hwriting, hflushing, headersEnd, status, hpeer, hbeyond, hreach,
                      hsends.bytes ▸ hstatus, hkind⟩)
                  show some outcome.verdict = some (settledRead peer.bytes peer.ending)
                  rw [hread, hsends.bytes, hsends.ending]

/-! ## With a race -/

/-- Bytes that arrive one at a time. -/
def singles (bytes : Bytes) : List Segment :=
  bytes.map fun byte => ⟨[byte], List.cons_ne_nil byte []⟩

/-- Bytes that arrive at once. -/
def piece (bytes : Bytes) : List Segment := if h : bytes = [] then [] else [⟨bytes, h⟩]

theorem singles_flatten (bytes : Bytes) : ((singles bytes).map Subtype.val).flatten = bytes := by
  induction bytes with
  | nil => rfl
  | cons byte bytes ih => exact congrArg (byte :: ·) ih

theorem piece_flatten (bytes : Bytes) : ((piece bytes).map Subtype.val).flatten = bytes := by
  rw [piece]
  split
  case isTrue h => exact h.symm
  case isFalse => simp

/-- The bytes up to the limit one at a time, the next `count` bytes at once, and
the others one at a time again. -/
def cut (peer : Peer) (count : Nat) : Socket where
  segments :=
    singles (peer.bytes.take maxConnectResponseBytes) ++
      (piece ((peer.bytes.drop maxConnectResponseBytes).take count) ++
        singles (peer.bytes.drop (maxConnectResponseBytes + count)))
  ending := peer.ending
  writing := peer.writing
  flushing := peer.flushing
  written := []

theorem sends_cut (peer : Peer) {count : Nat} (hcount : count ≤ chunkSize) :
    peer.Sends (cut peer count) where
  bytes := by
    rw [Socket.bytes, cut, List.map_append, List.map_append, List.flatten_append,
      List.flatten_append, singles_flatten, piece_flatten, singles_flatten, ← List.drop_drop,
      List.take_append_drop, List.take_append_drop]
  ending := rfl
  writing := rfl
  flushing := rfl
  sizes := by
    have hsingles : ∀ bytes, ∀ segment ∈ singles bytes, segment.1.length ≤ chunkSize := by
      intro bytes segment hsegment
      obtain ⟨byte, -, rfl⟩ := List.mem_map.mp hsegment
      show 1 ≤ 256
      omega
    intro segment hsegment
    rw [cut] at hsegment
    simp only [List.mem_append] at hsegment
    rcases hsegment with hbefore | hpiece | hbehind
    · exact hsingles _ segment hbefore
    · rw [piece] at hpiece
      split at hpiece
      case isTrue => simp at hpiece
      case isFalse =>
        rw [List.mem_singleton.mp hpiece]
        have hlength := List.length_take_le count (peer.bytes.drop maxConnectResponseBytes)
        exact hlength.trans hcount
    · exact hsingles _ segment hbehind

/-- A round that reads a whole piece. -/
theorem readRound_segment {io : Socket} {segment : Segment} {rest : List Segment}
    (hsegments : io.segments = segment :: rest) (hsize : segment.1.length ≤ chunkSize)
    (response : Bytes) :
    readRound () ⟨io, response⟩ = examine { io with segments := rest } (response ++ segment.1) := by
  obtain ⟨bytes, hne⟩ := segment
  have hrest : remaining ⟨bytes, hne⟩ rest chunkSize = rest :=
    dif_pos (List.drop_eq_nil_of_le hsize)
  have hpoll : io.pollRead chunkSize = (.ready (.ok bytes), { io with segments := rest }) := by
    rw [Socket.pollRead, hsegments]
    simp only [hrest]
    rw [List.take_of_length_le hsize]
  rw [readRound, hpoll]
  cases bytes with
  | nil => exact absurd rfl hne
  | cons byte more => rfl

/-- Rounds that read one byte each, within the limit and before the end of the head. -/
theorem loop_singles (io : Socket) {rest : List Segment} (fuel : Nat) {bytes : Bytes}
    (response : Bytes)
    (hsegments : io.segments = singles bytes ++ rest)
    (hnone : findHeadersEnd (response ++ bytes) = none)
    (hshort : (response ++ bytes).length ≤ maxConnectResponseBytes) :
    ∃ later : Socket, later.segments = rest ∧
      loop readRound (fuel + bytes.length) (fun _ => ()) ⟨io, response⟩ =
        loop readRound fuel (fun _ => ()) ⟨later, response ++ bytes⟩ := by
  induction bytes generalizing io response with
  | nil => exact ⟨io, hsegments, by rw [List.append_nil]; rfl⟩
  | cons byte bytes ih =>
      have hsplit : response ++ byte :: bytes = (response ++ [byte]) ++ bytes := by simp
      rw [hsplit] at hnone hshort
      have hearly : findHeadersEnd (response ++ [byte]) = none := by
        rw [findHeadersEnd, Option.map_eq_none_iff] at hnone ⊢
        exact position_eq_none_of_append hnone
      have hwithin : ¬ (response ++ [byte]).length > maxConnectResponseBytes := by
        rw [List.length_append] at hshort
        omega
      have hround := readRound_segment hsegments (show 1 ≤ 256 by omega) response
      obtain ⟨later, hlater, hloop⟩ :=
        ih { io with segments := singles bytes ++ rest } (response ++ [byte]) rfl hnone hshort
      refine ⟨later, hlater, ?_⟩
      rw [hsplit, ← hloop, List.length_cons, ← Nat.add_assoc, loop, hround, examine, hearly]
      simp only [if_neg hwithin]
      rfl

/-- There is no head before the end of the first one. -/
theorem findHeadersEnd_take {bytes : Bytes} {headersEnd count : Nat}
    (hfound : findHeadersEnd bytes = some headersEnd) (hearly : count < headersEnd) :
    findHeadersEnd (bytes.take count) = none := by
  cases hfirst : findHeadersEnd (bytes.take count) with
  | none => rfl
  | some other =>
      have hother := findHeadersEnd_append hfirst (bytes.drop count)
      have hle := findHeadersEnd_le hfirst
      rw [List.take_append_drop, hfound, Option.some.injEq] at hother
      rw [List.length_take] at hle
      omega

/-- The verdict when the read that passes the limit brings `count` bytes. -/
theorem verdict_cut (peer : Peer) (count : Nat) (hcount : 0 < count) (hroom : count ≤ chunkSize)
    (hwriting : peer.writing = .ready (.ok ())) (hflushing : peer.flushing = .ready (.ok ()))
    (hlong : maxConnectResponseBytes + count ≤ peer.bytes.length)
    (hnone : findHeadersEnd (peer.bytes.take maxConnectResponseBytes) = none)
    (authority : Text) (proxyAuthorization : Option Text) :
    verdictOf (cut peer count) authority proxyAuthorization =
      some (match findHeadersEnd (peer.bytes.take (maxConnectResponseBytes + count)) with
        | some headersEnd =>
            headVerdict ((peer.bytes.take (maxConnectResponseBytes + count)).take headersEnd)
        | none => .failed .other) := by
  let io : Socket :=
    { cut peer count with written := [] ++ connectRequest authority proxyAuthorization }
  have hlimit : (peer.bytes.take maxConnectResponseBytes).length = maxConnectResponseBytes := by
    rw [List.length_take]
    omega
  have hchunk : ((peer.bytes.drop maxConnectResponseBytes).take count).length = count := by
    rw [List.length_take, List.length_drop]
    omega
  have hne : (peer.bytes.drop maxConnectResponseBytes).take count ≠ [] := by
    intro hempty
    rw [hempty, List.length_nil] at hchunk
    omega
  have hpassed : (peer.bytes.take (maxConnectResponseBytes + count)).length >
      maxConnectResponseBytes := by
    rw [List.length_take]
    omega
  -- The bytes up to the limit are read without a verdict, and the next read decides.
  obtain ⟨later, hlater, hloop⟩ := loop_singles io 2 [] rfl hnone hlimit.le
  rw [piece, dif_neg hne] at hlater
  have hround := readRound_segment hlater (hchunk.trans_le hroom)
    (peer.bytes.take maxConnectResponseBytes)
  rw [← List.take_add] at hround
  have hread : readResponse io =
      (loop readRound 2 (fun _ => ()) ⟨later, peer.bytes.take maxConnectResponseBytes⟩).1 := by
    rw [hlimit] at hloop
    exact congrArg Prod.fst hloop
  have hestablish : establishTunnel (cut peer count) authority proxyAuthorization =
      afterWrite peer.writing (afterWrite peer.flushing (readResponse io)) := rfl
  rw [verdictOf, hestablish, hwriting, hflushing, hread, loop, hround, examine]
  cases hfound : findHeadersEnd (peer.bytes.take (maxConnectResponseBytes + count)) with
  | some headersEnd => simp only [afterWrite, Option.map_some, checkHead_verdict]
  | none =>
      simp only [if_pos hpassed]
      rfl

/-- There is always a verdict. -/
theorem verdictOf_isSome (socket : Socket) (authority : Text) (proxyAuthorization : Option Text) :
    ∃ verdict, verdictOf socket authority proxyAuthorization = some verdict := by
  obtain ⟨outcome, houtcome⟩ := establishTunnel_returns socket authority proxyAuthorization
  exact ⟨outcome.verdict, by rw [verdictOf, houtcome, Option.map_some]⟩

/-- There is a verdict on every segmentation, and it does not depend on the
segmentation exactly when the head does not end just beyond the limit. -/
theorem verdict_independent_iff (peer : Peer) (authority : Text)
    (proxyAuthorization : Option Text) :
    (∀ socket : Socket, peer.Sends socket →
      ∃ verdict, verdictOf socket authority proxyAuthorization = some verdict) ∧
    ((∀ first second : Socket, peer.Sends first → peer.Sends second →
      verdictOf first authority proxyAuthorization =
        verdictOf second authority proxyAuthorization) ↔ ¬ LimitRace peer) := by
  refine ⟨fun socket _ => verdictOf_isSome socket authority proxyAuthorization, ?_⟩
  constructor
  · rintro hsame ⟨hwriting, hflushing, headersEnd, status, hfound, hbeyond, hreach, hstatus, hkind⟩
    have hfits := findHeadersEnd_le hfound
    obtain ⟨count, hcount⟩ : ∃ count, headersEnd = maxConnectResponseBytes + count :=
      ⟨headersEnd - maxConnectResponseBytes, by omega⟩
    have hwhole : findHeadersEnd (peer.bytes.take (maxConnectResponseBytes + count)) =
        some headersEnd := by
      have hsplit := List.take_append_drop (maxConnectResponseBytes + count) peer.bytes
      rw [← hsplit] at hfound
      apply findHeadersEnd_of_append hfound
      rw [List.length_take]
      omega
    -- A read that stops one byte behind the limit, and one that reaches the end of the head.
    have hrefused := verdict_cut peer 1 (by omega) (by decide) hwriting hflushing (by omega)
      (findHeadersEnd_take hfound (by omega)) authority proxyAuthorization
    have haccepted := verdict_cut peer count (by omega) (by omega) hwriting hflushing
      (by omega) (findHeadersEnd_take hfound (by omega)) authority proxyAuthorization
    rw [findHeadersEnd_take hfound (by omega)] at hrefused
    rw [hwhole] at haccepted
    simp only [List.take_take, ← hcount, Nat.min_self] at haccepted
    have hequal := hsame _ _ (sends_cut peer (show 1 ≤ chunkSize by decide))
      (sends_cut peer (show count ≤ chunkSize by omega))
    rw [hrefused, haccepted, Option.some.injEq] at hequal
    exact headVerdict_of_status hstatus hkind hequal.symm
  · intro hrace first second hfirst hsecond
    rw [verdict_eq_settled hfirst hrace, verdict_eq_settled hsecond hrace]

/-! ## A race at the limit -/

/-- A status that was read stays the same when more of the head arrives. -/
theorem parseConnectStatus_append {head : Bytes} {status : Nat}
    (h : parseConnectStatus head = .ok status) (more : Bytes) :
    parseConnectStatus (head ++ more) = .ok status := by
  cases hline : position crlf head with
  | none => simp [parseConnectStatus, hline, okOr, bind, Except.bind] at h
  | some lineEnd =>
      have hfits := position_add_length_le (by decide) hline
      have htake : (head ++ more).take lineEnd = head.take lineEnd :=
        List.take_append_of_le_length (by omega)
      rw [parseConnectStatus, hline] at h
      rw [parseConnectStatus, position_append hline]
      simp only [okOr, bind, Except.bind, htake] at h ⊢
      exact h

namespace LimitExample

/-- `HTTP/1.1 200 OK`, a line break and the name of a header. -/
def lead : Bytes :=
  [72, 84, 84, 80, 47, 49, 46, 49, 32, 50, 48, 48, 32, 79, 75, 13, 10, 88, 58, 32]

/-- A head of 8194 bytes: one header fills it. -/
def peer : Peer where
  bytes := lead ++ (List.replicate 8170 97 ++ headTerminator)
  ending := .silent
  writing := .ready (.ok ())
  flushing := .ready (.ok ())

theorem position_padding (count : Nat) :
    position headTerminator (List.replicate count 97 ++ headTerminator) = some count := by
  induction count with
  | zero => decide
  | succ count ih =>
      have hnot : ¬ headTerminator <+: 97 :: (List.replicate count 97 ++ headTerminator) := by
        simp [headTerminator]
      rw [List.replicate_succ, List.cons_append, position_cons_of_no_match hnot, ih]
      rfl

theorem findHeadersEnd_padded (count : Nat) :
    findHeadersEnd (lead ++ (List.replicate count 97 ++ headTerminator)) = some (24 + count) := by
  have hpadding := position_padding count
  simp only [headTerminator] at hpadding
  simp only [findHeadersEnd, lead, List.cons_append, List.nil_append, position, headTerminator,
    List.isPrefixOf, hpadding]
  simp
  omega

theorem peer_length : peer.bytes.length = 8194 := by
  rw [peer, List.length_append, List.length_append, List.length_replicate]
  rfl

theorem peer_status : headVerdict peer.bytes = .established := by
  have hline : parseConnectStatus lead = .ok 200 := by decide +kernel
  rw [headVerdict, peer, parseConnectStatus_append hline]
  rfl

end LimitExample

open LimitExample in
/-- The same bytes are refused when the read that passes the limit brings one
byte, and accepted when it brings two. -/
theorem verdict_depends_on_segmentation :
    ∃ first second : Socket, peer.Sends first ∧ peer.Sends second ∧
      verdictOf first "api.example:443" none = some (.failed .other) ∧
      verdictOf second "api.example:443" none = some .established := by
  have hlength := peer_length
  have hfound : findHeadersEnd peer.bytes = some 8194 := findHeadersEnd_padded 8170
  have hlimit : maxConnectResponseBytes = 8192 := rfl
  have hnone := findHeadersEnd_take hfound (show maxConnectResponseBytes < 8194 by decide)
  have hwhole : peer.bytes.take (maxConnectResponseBytes + 2) = peer.bytes :=
    List.take_of_length_le (by omega)
  have hrefused := verdict_cut peer 1 (by omega) (by decide) rfl rfl
    (by omega) hnone "api.example:443" none
  have haccepted := verdict_cut peer 2 (by omega) (by decide) rfl rfl
    (by omega) hnone "api.example:443" none
  rw [findHeadersEnd_take hfound (by omega)] at hrefused
  rw [hwhole, hfound] at haccepted
  refine ⟨cut peer 1, cut peer 2, sends_cut peer (by decide), sends_cut peer (by decide),
    hrefused, ?_⟩
  rw [haccepted]
  simp only
  rw [List.take_of_length_le hlength.le, peer_status]

end FogHttp.Proxy
