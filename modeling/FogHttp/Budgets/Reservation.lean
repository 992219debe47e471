import FogHttp.Lib.Cas
import FogHttp.Lib.Text
import FogHttp.Lib.Transition

/-!
# Byte budgets

A client has two byte budgets: one for buffered response bodies and one for the
decoders of streams.  A budget is an atomic counter in `Metrics`, and a
reservation is the share that one response or one decoder holds of it.  The
counter moves in compare-exchange loops, the share in a field of the
reservation, and a drop gives the share back.

A reservation has one owner, so at most one of its calls runs at a time, but
the reservations of a budget run on any number of threads.  `Budget.step` is one
atomic operation or one piece of local code of one reservation, and the runs of
`budgetSystem` are all interleavings.

The two budgets have the same shape.  `BudgetKind` says which loops a budget
runs and which calls it offers: a decoder reserves once, when the reservation is
created, and has no reservation when that fails.

Two fields of a reservation are ghosts.  `before` is the share at the start of
the last call, and `applied` is what the atomic operations of that call added to
the counter.
-/

namespace FogHttp.Budgets

open Lib

/-! ## The counters -/

/-- `usize::checked_add`. -/
def checkedAdd (left right : Nat) : Option Nat :=
  if left + right < 2 ^ 64 then some (left + right) else none

/-- `usize::checked_sub`. -/
def checkedSub (left right : Nat) : Option Nat :=
  if right ≤ left then some (left - right) else none

inductive BufferedByteReservationError where
  | counterOverflow
  | limitExceeded
deriving DecidableEq, Repr

/-- `Metrics::reserve_buffered_response_bytes`. -/
def reserveBufferedResponseBytes (byteCount : Nat) (maxBufferedResponseBytes : Option Nat) :
    AtomicLoop BufferedByteReservationError where
  returnsAtOnce := byteCount = 0
  update current :=
    match checkedAdd current byteCount with
    | none => .error .counterOverflow
    | some next =>
        if maxBufferedResponseBytes.any fun limit => next > limit then .error .limitExceeded
        else .ok next

/-- `Metrics::release_buffered_response_bytes`.  The error is the branch for a counter that
is too small. -/
def releaseBufferedResponseBytes (byteCount : Nat) : AtomicLoop Unit where
  returnsAtOnce := byteCount = 0
  update current :=
    match checkedSub current byteCount with
    | none => .error ()
    | some next => .ok next

/-- `Metrics::try_reserve_stream_decoder_bytes`. -/
def tryReserveStreamDecoderBytes (bytes maxBytes : Nat) : AtomicLoop Unit where
  returnsAtOnce := false
  update current :=
    match (checkedAdd current bytes).filter fun next => next ≤ maxBytes with
    | none => .error ()
    | some next => .ok next

/-- `Metrics::release_stream_decoder_bytes`. -/
def releaseStreamDecoderBytes (bytes : Nat) : AtomicLoop Unit where
  returnsAtOnce := false
  update current :=
    match checkedSub current bytes with
    | none => .error ()
    | some next => .ok next

/-! ## The kinds of budget -/

/-- The errors of the calls. -/
inductive ReservationError where
  | budgetExceeded (limit : Nat)
  | counterOverflow
  | reservationOverflow
  | reservationUnderflow
  | streamDecoderBudgetExceeded (maxBytes : Nat)
deriving DecidableEq, Repr

/-- The error of `BufferedBodyBudget::reserve_bytes`. -/
def bufferedError (maxBufferedResponseBytes : Option Nat) :
    BufferedByteReservationError → ReservationError
  | .limitExceeded => .budgetExceeded (maxBufferedResponseBytes.getD 0)
  | .counterOverflow => .counterOverflow

inductive BudgetKind where
  | buffered (maxBufferedResponseBytes : Option Nat)
  | streamDecoder (maxBytes : Nat)
deriving DecidableEq, Repr

namespace BudgetKind

/-- The configured limit. -/
def limit : BudgetKind → Option Nat
  | buffered maxBufferedResponseBytes => maxBufferedResponseBytes
  | streamDecoder maxBytes => some maxBytes

/-- The loop that takes bytes from the budget. -/
def reserveBytes (byteCount : Nat) : BudgetKind → AtomicLoop ReservationError
  | buffered maxBufferedResponseBytes =>
      (reserveBufferedResponseBytes byteCount maxBufferedResponseBytes).mapError
        (bufferedError maxBufferedResponseBytes)
  | streamDecoder maxBytes =>
      (tryReserveStreamDecoderBytes byteCount maxBytes).mapError
        fun () => .streamDecoderBudgetExceeded maxBytes

/-- The loop that gives bytes back. -/
def releaseBytes (byteCount : Nat) : BudgetKind → AtomicLoop Unit
  | buffered _ => releaseBufferedResponseBytes byteCount
  | streamDecoder _ => releaseStreamDecoderBytes byteCount

end BudgetKind

/-! ## Reservations -/

/-- The call that runs, with the variables it holds. -/
inductive Phase where
  | idle
  | reserving (chunkSize nextReservedBytes : Nat) (cas : Cas ReservationError)
  | releasing (chunkSize nextReservedBytes : Nat) (cas : Cas Unit)
  | dropping (cas : Cas Unit)
  | dropped

/-- `BufferedBodyReservation` or `StreamDecoderReservation`. -/
structure Reservation where
  reservedBytes : Nat
  phase : Phase
  /-- The result of the last call, once it returned. -/
  returned : Option (Except ReservationError Unit)
  before : Nat
  applied : Int

namespace Reservation

/-- The share of the budget.  A call counts from its successful exchange on. -/
def size (reservation : Reservation) : Nat :=
  match reservation.phase with
  | .reserving _ nextReservedBytes (.done (.ok ())) => nextReservedBytes
  | .releasing _ nextReservedBytes (.done (.ok ())) => nextReservedBytes
  | .dropping (.done (.ok ())) => 0
  | .dropped => 0
  | _ => reservation.reservedBytes

/-- A call starts, with its ghosts. -/
def enter (reservation : Reservation) (phase : Phase) : Reservation :=
  { reservation with phase, returned := none, before := reservation.size, applied := 0 }

/-- A call returns without an atomic operation. -/
def answer (reservation : Reservation) (result : Except ReservationError Unit) : Reservation :=
  { reservation with returned := some result, before := reservation.size, applied := 0 }

/-- `BufferedBodyBudget::start_response`. -/
def startResponse : Reservation := ⟨0, .idle, none, 0, 0⟩

/-- `StreamDecoderReservation::try_new` up to its first atomic operation. -/
def tryNew (kind : BudgetKind) (bytes : Nat) : Reservation :=
  ⟨0, .reserving bytes bytes (kind.reserveBytes bytes).start, none, 0, 0⟩

/-- `BufferedBodyReservation::reserve_chunk` up to its first atomic operation. -/
def reserveChunk (kind : BudgetKind) (reservation : Reservation) (chunkSize : Nat) :
    Reservation :=
  match checkedAdd reservation.reservedBytes chunkSize with
  | none => reservation.answer (.error .reservationOverflow)
  | some next =>
      reservation.enter (.reserving chunkSize next (kind.reserveBytes chunkSize).start)

/-- `BufferedBodyReservation::release_chunk` up to its first atomic operation. -/
def releaseChunk (kind : BudgetKind) (reservation : Reservation) (chunkSize : Nat) :
    Reservation :=
  if chunkSize = 0 then reservation.answer (.ok ())
  else
    match checkedSub reservation.reservedBytes chunkSize with
    | none => reservation.answer (.error .reservationUnderflow)
    | some next =>
        reservation.enter (.releasing chunkSize next (kind.releaseBytes chunkSize).start)

/-- The drop of a reservation up to its first atomic operation. -/
def drop (kind : BudgetKind) (reservation : Reservation) : Reservation :=
  reservation.enter (.dropping (kind.releaseBytes reservation.reservedBytes).start)

/-- One atomic operation of the call that runs. -/
def atomic (kind : BudgetKind) (spurious : Bool) (counter : Nat) (reservation : Reservation) :
    Option (Nat × Reservation) :=
  match reservation.phase with
  | .reserving chunkSize next cas =>
      ((kind.reserveBytes chunkSize).step spurious counter cas).map fun stepped =>
        (stepped.1,
          { reservation with
            phase := .reserving chunkSize next stepped.2
            applied := reservation.applied + (stepped.1 - counter : Int) })
  | .releasing chunkSize next cas =>
      ((kind.releaseBytes chunkSize).step spurious counter cas).map fun stepped =>
        (stepped.1,
          { reservation with
            phase := .releasing chunkSize next stepped.2
            applied := reservation.applied + (stepped.1 - counter : Int) })
  | .dropping cas =>
      ((kind.releaseBytes reservation.reservedBytes).step spurious counter cas).map
        fun stepped =>
          (stepped.1,
            { reservation with
              phase := .dropping stepped.2
              applied := reservation.applied + (stepped.1 - counter : Int) })
  | .idle | .dropped => none

/-- The rest of a call after its last atomic operation.  `release_bytes` does not say
whether it took the branch for a counter that is too small. -/
def finish (kind : BudgetKind) (reservation : Reservation) : Option Reservation :=
  match reservation.phase with
  | .reserving _ nextReservedBytes (.done (.ok ())) =>
      some { reservation with
        reservedBytes := nextReservedBytes, phase := .idle, returned := some (.ok ()) }
  | .reserving _ _ (.done (.error error)) =>
      some { reservation with
        phase := match kind with
          | .buffered _ => .idle
          | .streamDecoder _ => .dropped
        returned := some (.error error) }
  | .releasing _ nextReservedBytes (.done _) =>
      some { reservation with
        reservedBytes := nextReservedBytes, phase := .idle, returned := some (.ok ()) }
  | .dropping (.done _) => some { reservation with phase := .dropped, returned := some (.ok ()) }
  | _ => none

end Reservation

/-! ## The system -/

/-- The counters of a budget and its reservations. -/
structure Budget where
  counter : Nat
  /-- `buffered_response_budget_rejections`. -/
  rejections : Nat
  reservations : List Reservation

inductive BudgetEvent where
  | startResponse
  | tryNew (bytes : Nat)
  | reserveChunk (i chunkSize : Nat)
  | releaseChunk (i chunkSize : Nat)
  | drop (i : Nat)
  | atomic (i : Nat) (spurious : Bool)
  | finish (i : Nat)
deriving DecidableEq, Repr

/-- The calls that a budget offers. -/
def BudgetKind.offers : BudgetKind → BudgetEvent → Bool
  | .buffered _, .tryNew _ => false
  | .streamDecoder _, .startResponse => false
  | .streamDecoder _, .reserveChunk _ _ => false
  | .streamDecoder _, .releaseChunk _ _ => false
  | _, _ => true

namespace Budget

/-- A new reservation. -/
def push (budget : Budget) (reservation : Reservation) : Budget :=
  { budget with reservations := budget.reservations ++ [reservation] }

/-- Reservation `i` starts a call. -/
def call (budget : Budget) (i : Nat) (enter : Reservation → Reservation) : Option Budget :=
  match budget.reservations[i]? with
  | some reservation =>
      match reservation.phase with
      | .idle => some { budget with reservations := budget.reservations.set i (enter reservation) }
      | _ => none
  | none => none

/-- The result counts as a rejection. -/
def isRejection : Option (Except ReservationError Unit) → Bool
  | some (.error (.budgetExceeded _)) => true
  | _ => false

/-- One event of a budget that offers it. -/
def advance (kind : BudgetKind) (budget : Budget) : BudgetEvent → Option Budget
  | .startResponse => some (budget.push .startResponse)
  | .tryNew bytes => some (budget.push (.tryNew kind bytes))
  | .reserveChunk i chunkSize => budget.call i fun reservation =>
      reservation.reserveChunk kind chunkSize
  | .releaseChunk i chunkSize => budget.call i fun reservation =>
      reservation.releaseChunk kind chunkSize
  | .drop i => budget.call i fun reservation => reservation.drop kind
  | .atomic i spurious =>
      match budget.reservations[i]? with
      | some reservation =>
          (reservation.atomic kind spurious budget.counter).map fun stepped =>
            { budget with
              counter := stepped.1
              reservations := budget.reservations.set i stepped.2 }
      | none => none
  | .finish i =>
      match budget.reservations[i]? with
      | some reservation =>
          (reservation.finish kind).map fun finished =>
            { budget with
              rejections := budget.rejections + (isRejection finished.returned).toNat
              reservations := budget.reservations.set i finished }
      | none => none

/-- One event. -/
def step (kind : BudgetKind) (budget : Budget) (event : BudgetEvent) : Option Budget :=
  if kind.offers event then budget.advance kind event else none

end Budget

/-- The budget of a client from its start on. -/
def budgetSystem (kind : BudgetKind) : TransitionSystem Budget BudgetEvent where
  init := ⟨0, 0, []⟩
  step := Budget.step kind

end FogHttp.Budgets
