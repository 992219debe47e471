import FogHttp.Lib.Semaphore
import FogHttp.Lib.Text
import FogHttp.Lib.Transition

/-!
# The connection gate

`ConnectionGate` limits the connections of a client, globally and per origin.  This
module models it as a transition system whose parties are the calls of
`ConnectionGate::acquire`, each from its call to the end of the permit that it may
obtain.

* The semaphores live in an arena, so the position of a semaphore is its identity and
  stands for an `Arc` to it.  The map of `OriginConnectionGates` holds one `Arc` of
  each of its semaphores, an acquisition holds one while it works on the origin, and an
  owned permit holds one until it has been released.
* `OriginConnectionGates::semaphore` runs under the lock of the map.  Its `retain`
  visits the entries one after the other, and for each of them the strong count and the
  available permits are read in two steps, because a party that needs no lock can run
  in between.
* A waiting future ends by its timeout or by cancellation at its await point.  The
  budget of the executor can suspend it there before its first poll has reached the
  semaphore.

The clone that `acquire_permit` receives lives only while its caller holds an `Arc` of
the same semaphore, so it is not counted: `retain` asks only whether there is another
`Arc` than the one of the map.  Metrics and the fields of the timeout error are left
out.
-/

namespace FogHttp.ConnectionLimit

open Lib

/-- The limits that `ConnectionGate::new` receives. -/
structure Limits where
  maxConnections : Option Nat
  maxConnectionsPerHost : Option Nat
deriving DecidableEq, Repr

/-- `ORIGIN_GATE_CLEANUP_THRESHOLD`. -/
def originGateCleanupThreshold : Nat := 1024

/-- The two semaphores that an acquisition asks. -/
inductive Scope where
  | origin
  | global
deriving DecidableEq, Repr

/-- The next section of an acquisition. -/
inductive Phase where
  /-- Called; the lookup of the origin semaphore is next, if there is one. -/
  | called
  /-- Under the lock, in `retain` before these entries. -/
  | retaining (rest : List (Text × Nat))
  /-- Under the lock, in `retain`: the strong count of `entry` was one, and its
  available permits are next. -/
  | checking (entry : Text × Nat) (rest : List (Text × Nat))
  /-- Under the lock; the new semaphore is next. -/
  | inserting
  /-- In `acquire_permit`; `try_acquire_owned` is next. -/
  | acquiring (scope : Scope)
  /-- The first poll of `acquire_owned` is next. -/
  | waiting (scope : Scope)
  /-- At the await point, in the queue of the semaphore. -/
  | queued (scope : Scope)
  /-- The `ConnectionPermit` is outstanding. -/
  | outstanding
  /-- The origin permit is released next. -/
  | droppingOrigin
  /-- The last `Arc` is dropped next. -/
  | droppingArc
  | finished
deriving DecidableEq, Repr

/-- The party holds the lock of the origin map. -/
def Phase.locking : Phase → Bool
  | .retaining _ | .checking _ _ | .inserting => true
  | _ => false

/-- One call of `ConnectionGate::acquire` and the permit that came of it. -/
structure Acquisition where
  origin : Option Text
  /-- The `Arc` of the origin semaphore that the acquisition holds by itself. -/
  semaphore : Option Nat
  /-- The semaphore of the owned permit in `_origin`. -/
  originPermit : Option Nat
  /-- The semaphore of the owned permit in `_global`. -/
  globalPermit : Option Nat
  phase : Phase
deriving DecidableEq, Repr

namespace Acquisition

/-- A call that has done nothing yet. -/
def call (origin : Option Text) : Acquisition := ⟨origin, none, none, none, .called⟩

/-- The strong references to a semaphore that the acquisition holds. -/
def references (k : Nat) (acquisition : Acquisition) : Nat :=
  (acquisition.semaphore == some k).toNat + (acquisition.originPermit == some k).toNat

/-- The permits of a semaphore that the acquisition holds. -/
def permits (k : Nat) (acquisition : Acquisition) : Nat :=
  (acquisition.originPermit == some k).toNat + (acquisition.globalPermit == some k).toNat

/-- The `ConnectionPermit` of the acquisition is outstanding. -/
def outstanding (acquisition : Acquisition) : Bool := acquisition.phase == .outstanding

/-- The acquisition asks for a permit of an origin semaphore or has one. -/
def usesOrigin (acquisition : Acquisition) : Bool :=
  match acquisition.phase with
  | .acquiring _ | .waiting _ | .queued _ | .outstanding | .droppingOrigin => true
  | _ => false

end Acquisition

structure ConnectionGate where
  semaphores : List Semaphore
  global : Option Nat
  /-- The map of `OriginConnectionGates`. -/
  gates : List (Text × Nat)
  /-- The acquisition that holds the lock of the map. -/
  lock : Option Nat
  acquisitions : List Acquisition
deriving DecidableEq, Repr

namespace ConnectionGate

/-- `ConnectionGate::new`. -/
def new (limits : Limits) : ConnectionGate :=
  match limits.maxConnections with
  | none => ⟨[], none, [], none, []⟩
  | some limit => ⟨[.new limit], some 0, [], none, []⟩

/-- The state of acquisition `i` after a section. -/
def put (gate : ConnectionGate) (i : Nat) (acquisition : Acquisition) : ConnectionGate :=
  { gate with acquisitions := gate.acquisitions.set i acquisition }

/-- `Arc::strong_count` of a semaphore in the map. -/
def strongCount (gate : ConnectionGate) (k : Nat) : Nat :=
  1 + (gate.acquisitions.map (Acquisition.references k)).sum

/-- The semaphore that an acquisition asks for a permit. -/
def target (gate : ConnectionGate) (acquisition : Acquisition) : Scope → Option Nat
  | .origin => acquisition.semaphore
  | .global => gate.global

/-- Where an acquisition goes when it is done with its origin. -/
def afterOrigin (gate : ConnectionGate) : Phase :=
  if gate.global.isSome then .acquiring .global else .outstanding

/-- The acquisition after `acquire_permit` returned a permit.  The `Arc` of the origin
semaphore goes with the end of its `match` arm. -/
def granted (gate : ConnectionGate) (acquisition : Acquisition) : Scope → Acquisition
  | .origin => { acquisition with
      semaphore := none
      originPermit := acquisition.semaphore
      phase := gate.afterOrigin }
  | .global => { acquisition with globalPermit := gate.global, phase := .outstanding }

/-- `OriginConnectionGates::semaphore` up to the lookup: a found semaphore is returned,
otherwise the lock stays with the acquisition. -/
def lookupSemaphore (gate : ConnectionGate) (i : Nat) (acquisition : Acquisition)
    (origin : Text) : Option ConnectionGate :=
  if gate.lock.isSome then none
  else
    match gate.gates.lookup origin with
    | some k =>
        some (gate.put i { acquisition with semaphore := some k, phase := .acquiring .origin })
    | none =>
        some ({ gate with lock := some i }.put i { acquisition with
          phase :=
            if gate.gates.length ≥ originGateCleanupThreshold then .retaining gate.gates
            else .inserting })

/-- The second half of the `retain` condition for one entry. -/
def checkAvailable (limits : Limits) (gate : ConnectionGate) (i : Nat)
    (acquisition : Acquisition) (entry : Text × Nat) (rest : List (Text × Nat)) :
    Option ConnectionGate := do
  let limit ← limits.maxConnectionsPerHost
  let semaphore ← gate.semaphores[entry.2]?
  let kept :=
    if semaphore.available < limit then gate.gates
    else gate.gates.filter fun other => other != entry
  some ({ gate with gates := kept }.put i { acquisition with phase := .retaining rest })

/-- The end of `OriginConnectionGates::semaphore`: a new semaphore for the origin. -/
def insertSemaphore (limits : Limits) (gate : ConnectionGate) (i : Nat)
    (acquisition : Acquisition) : Option ConnectionGate := do
  let limit ← limits.maxConnectionsPerHost
  let origin ← acquisition.origin
  let k := gate.semaphores.length
  some ({ gate with
    semaphores := gate.semaphores ++ [Semaphore.new limit]
    gates := (origin, k) :: gate.gates.filter fun entry => entry.1 != origin
    lock := none }.put i
      { acquisition with semaphore := some k, phase := .acquiring .origin })

/-- `try_acquire_owned` and the first poll of `acquire_owned` both take an available
permit.  Without one the acquisition goes on with `otherwise`. -/
def tryPermit (gate : ConnectionGate) (i : Nat) (acquisition : Acquisition) (scope : Scope)
    (otherwise : Nat → Semaphore → ConnectionGate) : Option ConnectionGate := do
  let k ← gate.target acquisition scope
  let semaphore ← gate.semaphores[k]?
  match semaphore.tryAcquire with
  | some after =>
      some ({ gate with semaphores := gate.semaphores.set k after }.put i
        (gate.granted acquisition scope))
  | none => some (otherwise k semaphore)

/-- A later poll of `acquire_owned`. -/
def pollPermit (gate : ConnectionGate) (i : Nat) (acquisition : Acquisition) (scope : Scope) :
    Option ConnectionGate := do
  let k ← gate.target acquisition scope
  let semaphore ← gate.semaphores[k]?
  let after ← semaphore.takeUp i
  some ({ gate with semaphores := gate.semaphores.set k after }.put i
    (gate.granted acquisition scope))

/-- Where the error of `acquire_permit` leaves the acquisition: the `?` drops what it
holds. -/
def afterError : Scope → Phase
  | .origin => .droppingArc
  | .global => .droppingOrigin

/-- The drop of a future in the queue of its semaphore. -/
def cancelPermit (gate : ConnectionGate) (i : Nat) (acquisition : Acquisition) (scope : Scope) :
    Option ConnectionGate := do
  let k ← gate.target acquisition scope
  let semaphore ← gate.semaphores[k]?
  some ({ gate with semaphores := gate.semaphores.set k (semaphore.cancel i) }.put i
    { acquisition with phase := afterError scope })

/-- The drop of `_global`. -/
def dropGlobal (gate : ConnectionGate) (i : Nat) (acquisition : Acquisition) :
    Option ConnectionGate :=
  match acquisition.globalPermit with
  | none => some (gate.put i { acquisition with phase := .droppingOrigin })
  | some k => do
      let semaphore ← gate.semaphores[k]?
      some ({ gate with semaphores := gate.semaphores.set k semaphore.release }.put i
        { acquisition with globalPermit := none, phase := .droppingOrigin })

/-- The drop of `_origin`.  The owned permit gives its permit back before its `Arc`
goes. -/
def dropOrigin (gate : ConnectionGate) (i : Nat) (acquisition : Acquisition) :
    Option ConnectionGate :=
  match acquisition.originPermit with
  | none => some (gate.put i { acquisition with phase := .droppingArc })
  | some k => do
      let semaphore ← gate.semaphores[k]?
      some ({ gate with semaphores := gate.semaphores.set k semaphore.release }.put i
        { acquisition with
          semaphore := some k, originPermit := none, phase := .droppingArc })

/-- The next section of acquisition `i`. -/
def advance (limits : Limits) (gate : ConnectionGate) (i : Nat) (acquisition : Acquisition) :
    Option ConnectionGate :=
  match acquisition.phase with
  | .called =>
      match acquisition.origin, limits.maxConnectionsPerHost with
      | some origin, some _ => gate.lookupSemaphore i acquisition origin
      | _, _ => some (gate.put i { acquisition with phase := gate.afterOrigin })
  | .retaining [] => some (gate.put i { acquisition with phase := .inserting })
  | .retaining (entry :: rest) =>
      if gate.strongCount entry.2 > 1 then
        some (gate.put i { acquisition with phase := .retaining rest })
      else some (gate.put i { acquisition with phase := .checking entry rest })
  | .checking entry rest => gate.checkAvailable limits i acquisition entry rest
  | .inserting => gate.insertSemaphore limits i acquisition
  | .acquiring scope =>
      gate.tryPermit i acquisition scope fun _ _ =>
        gate.put i { acquisition with phase := .waiting scope }
  | .waiting scope =>
      gate.tryPermit i acquisition scope fun k semaphore =>
        { gate with semaphores := gate.semaphores.set k (semaphore.enqueue i) }.put i
          { acquisition with phase := .queued scope }
  | .queued scope => gate.pollPermit i acquisition scope
  | .outstanding => gate.dropGlobal i acquisition
  | .droppingOrigin => gate.dropOrigin i acquisition
  | .droppingArc =>
      some (gate.put i { acquisition with semaphore := none, phase := .finished })
  | .finished => none

/-- The future of acquisition `i` ends at its await point. -/
def leave (gate : ConnectionGate) (i : Nat) (acquisition : Acquisition) :
    Option ConnectionGate :=
  match acquisition.phase with
  | .waiting scope => some (gate.put i { acquisition with phase := afterError scope })
  | .queued scope => gate.cancelPermit i acquisition scope
  | _ => none

inductive Event where
  /-- A call of `acquire`. -/
  | call (origin : Option Text)
  /-- The next section of acquisition `i`. -/
  | advance (i : Nat)
  /-- The waiting future of acquisition `i` ends by its timeout or by cancellation. -/
  | leave (i : Nat)
deriving DecidableEq, Repr

/-- One step of the gate. -/
def step (limits : Limits) (gate : ConnectionGate) : Event → Option ConnectionGate
  | .call origin => some { gate with acquisitions := gate.acquisitions ++ [.call origin] }
  | .advance i => do
      let acquisition ← gate.acquisitions[i]?
      gate.advance limits i acquisition
  | .leave i => do
      let acquisition ← gate.acquisitions[i]?
      gate.leave i acquisition

/-- What an event can do.  Every event but a new call is a section of one
acquisition. -/
theorem step_cases {limits : Limits} {gate next : ConnectionGate} {event : Event}
    (h : gate.step limits event = some next) :
    (∃ origin, next = { gate with acquisitions := gate.acquisitions ++ [.call origin] }) ∨
      ∃ i acquisition, gate.acquisitions[i]? = some acquisition ∧
        (gate.advance limits i acquisition = some next ∨
          gate.leave i acquisition = some next) := by
  cases event with
  | call origin => exact Or.inl ⟨origin, (Option.some.inj h).symm⟩
  | advance i =>
      simp only [step, Option.bind_eq_bind, Option.bind_eq_some_iff] at h
      obtain ⟨acquisition, hi, h⟩ := h
      exact Or.inr ⟨i, acquisition, hi, Or.inl h⟩
  | leave i =>
      simp only [step, Option.bind_eq_bind, Option.bind_eq_some_iff] at h
      obtain ⟨acquisition, hi, h⟩ := h
      exact Or.inr ⟨i, acquisition, hi, Or.inr h⟩

/-- A section replaces one acquisition, and only a section under the lock edits the
map. -/
theorem advance_cases {limits : Limits} {gate next : ConnectionGate} {i : Nat}
    {acquisition : Acquisition} (h : gate.advance limits i acquisition = some next) :
    (∃ new, next.acquisitions = gate.acquisitions.set i new) ∧
      (acquisition.phase.locking = false → next.gates = gate.gates) := by
  unfold advance at h
  cases hphase : acquisition.phase <;> simp only [hphase] at h
  case called =>
    split at h
    · unfold lookupSemaphore at h
      split at h
      · simp at h
      · split at h <;> obtain rfl := Option.some.inj h <;> exact ⟨⟨_, rfl⟩, fun _ => rfl⟩
    · obtain rfl := Option.some.inj h
      exact ⟨⟨_, rfl⟩, fun _ => rfl⟩
  case retaining rest =>
    cases rest with
    | nil =>
        obtain rfl := Option.some.inj h
        exact ⟨⟨_, rfl⟩, fun _ => rfl⟩
    | cons entry rest =>
        dsimp only at h
        split at h <;> obtain rfl := Option.some.inj h <;> exact ⟨⟨_, rfl⟩, fun _ => rfl⟩
  case checking entry rest =>
    simp only [checkAvailable, Option.bind_eq_bind, Option.bind_eq_some_iff] at h
    obtain ⟨limit, -, semaphore, -, h⟩ := h
    obtain rfl := Option.some.inj h
    exact ⟨⟨_, rfl⟩, by simp [Phase.locking]⟩
  case inserting =>
    simp only [insertSemaphore, Option.bind_eq_bind, Option.bind_eq_some_iff] at h
    obtain ⟨limit, -, origin, -, h⟩ := h
    obtain rfl := Option.some.inj h
    exact ⟨⟨_, rfl⟩, by simp [Phase.locking]⟩
  case acquiring | waiting =>
    simp only [tryPermit, Option.bind_eq_bind, Option.bind_eq_some_iff] at h
    obtain ⟨k, -, semaphore, -, h⟩ := h
    split at h <;> obtain rfl := Option.some.inj h <;> exact ⟨⟨_, rfl⟩, fun _ => rfl⟩
  case queued =>
    simp only [pollPermit, Option.bind_eq_bind, Option.bind_eq_some_iff] at h
    obtain ⟨k, -, semaphore, -, after, -, h⟩ := h
    obtain rfl := Option.some.inj h
    exact ⟨⟨_, rfl⟩, fun _ => rfl⟩
  case outstanding =>
    unfold dropGlobal at h
    split at h
    · obtain rfl := Option.some.inj h
      exact ⟨⟨_, rfl⟩, fun _ => rfl⟩
    · simp only [Option.bind_eq_bind, Option.bind_eq_some_iff] at h
      obtain ⟨semaphore, -, h⟩ := h
      obtain rfl := Option.some.inj h
      exact ⟨⟨_, rfl⟩, fun _ => rfl⟩
  case droppingOrigin =>
    unfold dropOrigin at h
    split at h
    · obtain rfl := Option.some.inj h
      exact ⟨⟨_, rfl⟩, fun _ => rfl⟩
    · simp only [Option.bind_eq_bind, Option.bind_eq_some_iff] at h
      obtain ⟨semaphore, -, h⟩ := h
      obtain rfl := Option.some.inj h
      exact ⟨⟨_, rfl⟩, fun _ => rfl⟩
  case droppingArc =>
    obtain rfl := Option.some.inj h
    exact ⟨⟨_, rfl⟩, fun _ => rfl⟩
  case finished => simp at h

/-- The end of a future replaces its acquisition and leaves the map alone. -/
theorem leave_cases {gate next : ConnectionGate} {i : Nat} {acquisition : Acquisition}
    (h : gate.leave i acquisition = some next) :
    (∃ new, next.acquisitions = gate.acquisitions.set i new) ∧ next.gates = gate.gates := by
  unfold leave at h
  split at h
  · obtain rfl := Option.some.inj h
    exact ⟨⟨_, rfl⟩, rfl⟩
  · simp only [cancelPermit, Option.bind_eq_bind, Option.bind_eq_some_iff] at h
    obtain ⟨k, -, semaphore, -, h⟩ := h
    obtain rfl := Option.some.inj h
    exact ⟨⟨_, rfl⟩, rfl⟩
  · simp at h

/-- The gate and all its interleavings. -/
def system (limits : Limits) : TransitionSystem ConnectionGate Event :=
  ⟨new limits, step limits⟩

end ConnectionGate

end FogHttp.ConnectionLimit
