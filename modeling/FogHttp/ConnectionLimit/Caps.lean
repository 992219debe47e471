import FogHttp.ConnectionLimit.Gate
import FogHttp.Lib.Entries
import FogHttp.Lib.Positions

/-!
# The connection gate keeps its caps

`Balanced` is the invariant of the gate.  For every semaphore, the free permits and the
permits that acquisitions hold add up to the configured limit, and the futures that the
semaphore knows are the acquisitions at their await points.  An acquisition that
refers to an origin semaphore refers to the one that the map has for its origin.

The cleanup is the delicate part.  An acquisition gets its first `Arc` of a semaphore
under the lock, so while `retain` runs nobody gains one: an entry whose strong count
was one is still unreferenced when its available permits have been read.

`Balanced.put` is the step lemma for a section that leaves the map alone, and
`Balanced.exchange` its case for a section that works on one semaphore.
`Balanced.remove` and `Balanced.insert` are the two edits of the map.
-/

namespace FogHttp.ConnectionLimit

open Lib

/-! ## What an acquisition holds -/

/-- The position of the global semaphore. -/
def Limits.global (limits : Limits) : Option Nat := limits.maxConnections.map fun _ => 0

/-- The limit of a semaphore. -/
def Limits.limit (limits : Limits) (k : Nat) : Option Nat :=
  if limits.global = some k then limits.maxConnections else limits.maxConnectionsPerHost

namespace Acquisition

/-- The acquisition holds an `Arc` of an origin semaphore. -/
def Refers (acquisition : Acquisition) (k : Nat) : Prop :=
  acquisition.semaphore = some k ∨ acquisition.originPermit = some k

/-- The semaphore in whose queue the acquisition waits. -/
def awaited (limits : Limits) (acquisition : Acquisition) : Option Nat :=
  match acquisition.phase with
  | .queued .origin => acquisition.semaphore
  | .queued .global => limits.global
  | _ => none

/-- The acquisition is limited by its origin. -/
def limited (limits : Limits) (acquisition : Acquisition) : Bool :=
  acquisition.origin.isSome && limits.maxConnectionsPerHost.isSome

end Acquisition

/-- The acquisition asks for an origin permit. -/
def Phase.asksOrigin : Phase → Bool
  | .acquiring .origin | .waiting .origin | .queued .origin => true
  | _ => false

/-- The acquisition has its origin permit, if it is limited by its origin. -/
def Phase.ownsOrigin : Phase → Bool
  | .acquiring .global | .waiting .global | .queued .global => true
  | .outstanding | .droppingOrigin => true
  | _ => false

/-- What an acquisition holds at each of its sections. -/
structure Shaped (limits : Limits) (acquisition : Acquisition) : Prop where
  semaphore : acquisition.phase ≠ .droppingArc →
    acquisition.semaphore.isSome = acquisition.phase.asksOrigin
  originPermit : acquisition.originPermit.isSome =
    (acquisition.limited limits && acquisition.phase.ownsOrigin)
  globalPermit : acquisition.globalPermit =
    if acquisition.phase = .outstanding then limits.global else none
  limited : (acquisition.phase.locking || acquisition.phase.asksOrigin) = true →
    acquisition.limited limits = true

/-- The invariant of the gate. -/
structure Balanced (limits : Limits) (gate : ConnectionGate) : Prop where
  global : gate.global = limits.global
  globalLt : ∀ k, limits.global = some k → k < gate.semaphores.length
  balance : ∀ (k : Nat) (semaphore : Semaphore), gate.semaphores[k]? = some semaphore →
    limits.limit k =
      some (semaphore.free + (gate.acquisitions.map (Acquisition.permits k)).sum)
  waits : ∀ (k : Nat) (semaphore : Semaphore), gate.semaphores[k]? = some semaphore →
    ∀ w, semaphore.Waits w ↔ ∃ acquisition : Acquisition,
      gate.acquisitions[w]? = some acquisition ∧ acquisition.awaited limits = some k
  distinct : ∀ (k : Nat) (semaphore : Semaphore), gate.semaphores[k]? = some semaphore →
    semaphore.Distinct
  entries : ∀ entry ∈ gate.gates,
    entry.2 < gate.semaphores.length ∧ limits.global ≠ some entry.2
  shared : ∀ acquisition ∈ gate.acquisitions, ∀ k, acquisition.Refers k →
    ∃ origin, acquisition.origin = some origin ∧ gate.gates.lookup origin = some k
  shaped : ∀ acquisition ∈ gate.acquisitions, Shaped limits acquisition
  locked : ∀ (i : Nat) (acquisition : Acquisition), gate.acquisitions[i]? = some acquisition →
    acquisition.phase.locking = true →
      gate.lock = some i ∧
        ∃ origin, acquisition.origin = some origin ∧ gate.gates.lookup origin = none
  unreferenced : ∀ acquisition ∈ gate.acquisitions, ∀ entry rest,
    acquisition.phase = .checking entry rest →
      ∀ other ∈ gate.acquisitions, ¬ other.Refers entry.2

/-! ## The step lemma -/

/-- What a section does to semaphore `k`: the permits that the acquisition gains are the
ones that the semaphore loses, and only its own future comes or goes. -/
structure Exchange (limits : Limits) (i k : Nat) (old new : Acquisition)
    (before after : Semaphore) : Prop where
  free : after.free + new.permits k = before.free + old.permits k
  waits : ∀ w, after.Waits w ↔
    if w = i then new.awaited limits = some k else before.Waits w
  distinct : after.Distinct

/-- The own future of an acquisition is known to the semaphore that it awaits. -/
theorem Balanced.waits_self {limits : Limits} {gate : ConnectionGate} {i k : Nat}
    {acquisition : Acquisition} {semaphore : Semaphore} (h : Balanced limits gate)
    (hi : gate.acquisitions[i]? = some acquisition)
    (hk : gate.semaphores[k]? = some semaphore) :
    semaphore.Waits i ↔ acquisition.awaited limits = some k := by
  rw [h.waits k semaphore hk i, hi]
  constructor
  · intro hex
    obtain ⟨same, hsame, hawaited⟩ := hex
    rw [Option.some.injEq] at hsame
    rw [hsame]
    exact hawaited
  · intro hawaited
    exact ⟨acquisition, rfl, hawaited⟩

/-- The step lemma for a section that leaves the map alone. -/
theorem Balanced.put {limits : Limits} {gate : ConnectionGate} {i : Nat}
    {old new : Acquisition} {semaphores : List Semaphore} {lock : Option Nat}
    (h : Balanced limits gate) (hi : gate.acquisitions[i]? = some old)
    (hlength : semaphores.length = gate.semaphores.length)
    (hexchange : ∀ k after, semaphores[k]? = some after →
      ∃ before, gate.semaphores[k]? = some before ∧
        Exchange limits i k old new before after)
    (horigin : new.origin = old.origin)
    (hrefers : ∀ k, new.Refers k → old.Refers k ∨
      gate.lock = none ∧ new.phase.locking = false ∧
        ∃ origin, new.origin = some origin ∧ gate.gates.lookup origin = some k)
    (hshaped : Shaped limits new)
    (hlock : lock = gate.lock ∨ gate.lock = none ∨ gate.lock = some i)
    (hlocking : new.phase.locking = true → lock = some i ∧
      ∃ origin, new.origin = some origin ∧ gate.gates.lookup origin = none)
    (hchecking : ∀ entry rest, new.phase = .checking entry rest →
      ∀ other ∈ gate.acquisitions, ¬ other.Refers entry.2) :
    Balanced limits
      ⟨semaphores, gate.global, gate.gates, lock, gate.acquisitions.set i new⟩ := by
  have hmem : old ∈ gate.acquisitions := List.mem_iff_getElem?.mpr ⟨i, hi⟩
  refine ⟨h.global, by rw [hlength]; exact h.globalLt, ?_, ?_, ?_,
    by rw [hlength]; exact h.entries, ?_, forall_mem_set h.shaped hshaped, ?_, ?_⟩
  · intro k after hk
    obtain ⟨before, hbefore, hexchange⟩ := hexchange k after hk
    have hsum := sum_map_set_add (Acquisition.permits k) new hi
    have htotal := h.balance k before hbefore
    have hfree := hexchange.free
    rw [htotal, Option.some.injEq]
    show before.free + _ =
      after.free + ((gate.acquisitions.set i new).map (Acquisition.permits k)).sum
    omega
  · intro k after hk w
    obtain ⟨before, hbefore, hexchange⟩ := hexchange k after hk
    rw [hexchange.waits w]
    show _ ↔ ∃ acquisition, (gate.acquisitions.set i new)[w]? = some acquisition ∧ _
    split
    · rename_i hw
      subst hw
      rw [List.getElem?_set_self (List.getElem?_eq_some_iff.mp hi).1]
      simp
    · rename_i hw
      rw [List.getElem?_set_ne (Ne.symm hw)]
      exact h.waits k before hbefore w
  · intro k after hk
    obtain ⟨before, hbefore, hexchange⟩ := hexchange k after hk
    exact hexchange.distinct
  · refine forall_mem_set h.shared fun k hk => ?_
    rcases hrefers k hk with hold | ⟨-, -, hfound⟩
    · rw [horigin]
      exact h.shared old hmem k hold
    · exact hfound
  · intro j acquisition hj hphase
    rcases getElem?_set_cases hj with ⟨rfl, rfl⟩ | ⟨hne, hj⟩
    · exact hlocking hphase
    · obtain ⟨hheld, habsent⟩ := h.locked j acquisition hj hphase
      refine ⟨?_, habsent⟩
      show lock = some j
      rcases hlock with hsame | hfree | hown
      · rw [hsame, hheld]
      · simp [hheld] at hfree
      · rw [hheld, Option.some.injEq] at hown
        exact absurd hown hne
  · intro acquisition hacquisition entry rest hphase
    obtain ⟨j, hj⟩ := List.mem_iff_getElem?.mp hacquisition
    rcases getElem?_set_cases hj with ⟨rfl, rfl⟩ | ⟨hne, hj⟩
    · refine forall_mem_set (hchecking entry rest hphase) fun hnew => ?_
      rcases hrefers entry.2 hnew with hold | ⟨-, hnot, -⟩
      · exact hchecking entry rest hphase old hmem hold
      · simp [hphase, Phase.locking] at hnot
    · -- Another acquisition is in the cleanup, so this one gained no reference.
      have hother := h.unreferenced acquisition (List.mem_iff_getElem?.mpr ⟨j, hj⟩)
        entry rest hphase
      have hheld := (h.locked j acquisition hj (by rw [hphase]; rfl)).1
      refine forall_mem_set hother fun hnew => ?_
      rcases hrefers entry.2 hnew with hold | ⟨hfree, -⟩
      · exact hother old hmem hold
      · simp [hheld] at hfree

/-- The step lemma for a section that works on no semaphore and keeps the lock where it
is. -/
theorem Balanced.move {limits : Limits} {gate : ConnectionGate} {i : Nat}
    {old new : Acquisition} (h : Balanced limits gate)
    (hi : gate.acquisitions[i]? = some old)
    (hpermits : ∀ k, new.permits k = old.permits k)
    (hawaited : new.awaited limits = old.awaited limits)
    (horigin : new.origin = old.origin) (hrefers : ∀ k, new.Refers k → old.Refers k)
    (hshaped : Shaped limits new)
    (hlocking : new.phase.locking = true → old.phase.locking = true)
    (hchecking : ∀ entry rest, new.phase = .checking entry rest →
      ∀ other ∈ gate.acquisitions, ¬ other.Refers entry.2) :
    Balanced limits (gate.put i new) := by
  refine h.put hi rfl ?_ horigin (fun k hk => Or.inl (hrefers k hk)) hshaped (Or.inl rfl) ?_
    hchecking
  · intro k semaphore hk
    refine ⟨semaphore, hk, by rw [hpermits], ?_, h.distinct k semaphore hk⟩
    intro w
    split
    · rename_i hw
      subst hw
      rw [hawaited]
      exact h.waits_self hi hk
    · rfl
  · intro hphase
    rw [horigin]
    exact h.locked i old hi (hlocking hphase)

/-- The step lemma for a section without the lock that works on semaphore `k`. -/
theorem Balanced.exchange {limits : Limits} {gate : ConnectionGate} {i k : Nat}
    {old new : Acquisition} {before after : Semaphore} (h : Balanced limits gate)
    (hi : gate.acquisitions[i]? = some old) (hk : gate.semaphores[k]? = some before)
    (hexchange : Exchange limits i k old new before after)
    (hpermits : ∀ j, j ≠ k → new.permits j = old.permits j)
    (hawaited : ∀ j, j ≠ k → (new.awaited limits = some j ↔ old.awaited limits = some j))
    (horigin : new.origin = old.origin) (hrefers : ∀ j, new.Refers j → old.Refers j)
    (hshaped : Shaped limits new) (hlocking : new.phase.locking = false) :
    Balanced limits ({ gate with semaphores := gate.semaphores.set k after }.put i new) := by
  refine h.put hi (List.length_set ..) ?_ horigin (fun k hk => Or.inl (hrefers k hk)) hshaped
    (Or.inl rfl) (by simp [hlocking]) ?_
  · intro j semaphore hj
    rcases getElem?_set_cases hj with ⟨rfl, rfl⟩ | ⟨hne, hj⟩
    · exact ⟨before, hk, hexchange⟩
    · refine ⟨semaphore, hj, by rw [hpermits j hne], ?_, h.distinct j semaphore hj⟩
      intro w
      split
      · rename_i hw
        subst hw
        rw [hawaited j hne]
        exact h.waits_self hi hj
      · rfl
  · intro entry rest hphase
    simp [hphase, Phase.locking] at hlocking

/-! ## The sections on a semaphore -/

/-- The acquisition is in `acquire_permit`. -/
def Phase.asks (phase : Phase) (scope : Scope) : Prop :=
  phase = .acquiring scope ∨ phase = .waiting scope ∨ phase = .queued scope

/-- A grant adds one permit of the asked semaphore. -/
theorem permits_granted {limits : Limits} {gate : ConnectionGate} {acquisition : Acquisition}
    {scope : Scope} {k : Nat} (hshaped : Shaped limits acquisition)
    (hphase : acquisition.phase.asks scope)
    (htarget : gate.target acquisition scope = some k) (j : Nat) :
    (gate.granted acquisition scope).permits j = acquisition.permits j + (k == j).toNat := by
  have hglobal := hshaped.globalPermit
  have horigin := hshaped.originPermit
  cases scope with
  | origin =>
      have hnone : acquisition.originPermit = none := by
        rcases hphase with hphase | hphase | hphase <;>
          simpa [hphase, Phase.ownsOrigin] using horigin
      have hsemaphore : acquisition.semaphore = some k := htarget
      simp only [Acquisition.permits, ConnectionGate.granted, hnone, hsemaphore]
      simp
      omega
  | global =>
      have hnone : acquisition.globalPermit = none := by
        rcases hphase with hphase | hphase | hphase <;> simpa [hphase] using hglobal
      have hgate : gate.global = some k := htarget
      simp only [Acquisition.permits, ConnectionGate.granted, hnone, hgate]
      simp

/-- A grant leaves the acquisition in shape. -/
theorem Shaped.granted {limits : Limits} {gate : ConnectionGate} {acquisition : Acquisition}
    {scope : Scope} (hshaped : Shaped limits acquisition) (hgate : gate.global = limits.global)
    (hphase : acquisition.phase.asks scope) :
    Shaped limits (gate.granted acquisition scope) := by
  have hglobal := hshaped.globalPermit
  have horigin := hshaped.originPermit
  have hsemaphore := hshaped.semaphore
  have hlimited := hshaped.limited
  cases scope with
  | origin =>
      have hheld : acquisition.semaphore.isSome = true := by
        rcases hphase with hphase | hphase | hphase <;>
          simpa [hphase, Phase.asksOrigin] using hsemaphore
      have hasked : acquisition.limited limits = true := by
        rcases hphase with hphase | hphase | hphase <;>
          simpa [hphase, Phase.asksOrigin] using hlimited
      have hnone : acquisition.globalPermit = none := by
        rcases hphase with hphase | hphase | hphase <;> simpa [hphase] using hglobal
      cases hconfigured : gate.global with
      | none =>
          have hafter : gate.afterOrigin = .outstanding := by
            simp [ConnectionGate.afterOrigin, hconfigured]
          constructor <;>
            simp_all [ConnectionGate.granted, Phase.asksOrigin, Phase.ownsOrigin,
              Phase.locking, Acquisition.limited]
      | some k =>
          have hafter : gate.afterOrigin = .acquiring .global := by
            simp [ConnectionGate.afterOrigin, hconfigured]
          constructor <;>
            simp_all [ConnectionGate.granted, Phase.asksOrigin, Phase.ownsOrigin,
              Phase.locking, Acquisition.limited]
  | global =>
      refine ⟨?_, ?_, ?_, ?_⟩
      · intro _
        show acquisition.semaphore.isSome = false
        rcases hphase with hphase | hphase | hphase <;>
          simpa [hphase, Phase.asksOrigin] using hsemaphore
      · show acquisition.originPermit.isSome = (acquisition.limited limits && true)
        rcases hphase with hphase | hphase | hphase <;>
          simpa [hphase, Phase.ownsOrigin] using horigin
      · show gate.global = limits.global
        exact hgate
      · intro himpossible
        simp [ConnectionGate.granted, Phase.locking, Phase.asksOrigin] at himpossible

theorem awaited_granted (limits : Limits) (gate : ConnectionGate) (acquisition : Acquisition)
    (scope : Scope) : (gate.granted acquisition scope).awaited limits = none := by
  cases scope with
  | origin =>
      unfold ConnectionGate.granted ConnectionGate.afterOrigin Acquisition.awaited
      cases gate.global <;> rfl
  | global => rfl

/-- An acquisition that asks a semaphore awaits no other. -/
theorem awaited_of_asks {limits : Limits} {gate : ConnectionGate} {acquisition : Acquisition}
    {scope : Scope} {k : Nat} (hgate : gate.global = limits.global)
    (hphase : acquisition.phase.asks scope)
    (htarget : gate.target acquisition scope = some k) {j : Nat}
    (hawaited : acquisition.awaited limits = some j) : j = k := by
  have htarget' : (match scope with
      | .origin => acquisition.semaphore
      | .global => limits.global) = some k := by
    rw [← hgate]
    cases scope <;> exact htarget
  rcases hphase with hphase | hphase | hphase
  · simp [Acquisition.awaited, hphase] at hawaited
  · simp [Acquisition.awaited, hphase] at hawaited
  · cases scope <;> simp_all [Acquisition.awaited]

/-- A granted acquisition refers to nothing that it did not refer to before. -/
theorem refers_of_granted {gate : ConnectionGate} {acquisition : Acquisition} {scope : Scope}
    {j : Nat} (h : (gate.granted acquisition scope).Refers j) : acquisition.Refers j := by
  cases scope with
  | origin => exact Or.inl (h.resolve_left (by simp [ConnectionGate.granted]))
  | global => exact h

/-- The step lemma for a grant. -/
theorem Balanced.grant {limits : Limits} {gate : ConnectionGate} {i k : Nat}
    {acquisition : Acquisition} {scope : Scope} {before after : Semaphore}
    (h : Balanced limits gate) (hi : gate.acquisitions[i]? = some acquisition)
    (hphase : acquisition.phase.asks scope)
    (htarget : gate.target acquisition scope = some k)
    (hk : gate.semaphores[k]? = some before) (hfree : after.free + 1 = before.free)
    (hwaits : ∀ w, after.Waits w ↔ w ≠ i ∧ before.Waits w) (hdistinct : after.Distinct) :
    Balanced limits ({ gate with semaphores := gate.semaphores.set k after }.put i
      (gate.granted acquisition scope)) := by
  have hshaped := h.shaped acquisition (List.mem_iff_getElem?.mpr ⟨i, hi⟩)
  have hpermits := permits_granted hshaped hphase htarget
  refine h.exchange hi hk ⟨?_, ?_, hdistinct⟩ ?_ ?_ ?_ (fun j => refers_of_granted)
    (hshaped.granted h.global hphase) ?_
  · rw [hpermits k]
    simp
    omega
  · intro w
    rw [hwaits w, awaited_granted]
    split <;> simp_all
  · intro j hne
    rw [hpermits j, beq_eq_false_iff_ne.mpr (Ne.symm hne)]
    rfl
  · intro j hne
    rw [awaited_granted]
    constructor
    · simp
    · intro hawaited
      exact absurd (awaited_of_asks h.global hphase htarget hawaited) hne
  · cases scope <;> rfl
  · cases scope with
    | origin =>
        show gate.afterOrigin.locking = false
        unfold ConnectionGate.afterOrigin
        split <;> rfl
    | global => rfl

/-- An immediate acquisition, or one at the first poll. -/
theorem balanced_tryPermit {limits : Limits} {gate next : ConnectionGate} {i : Nat}
    {acquisition : Acquisition} {scope : Scope}
    {otherwise : Nat → Semaphore → ConnectionGate} (h : Balanced limits gate)
    (hi : gate.acquisitions[i]? = some acquisition)
    (hphase : acquisition.phase = .acquiring scope ∨ acquisition.phase = .waiting scope)
    (hotherwise : ∀ k semaphore, gate.target acquisition scope = some k →
      gate.semaphores[k]? = some semaphore → Balanced limits (otherwise k semaphore))
    (hstep : gate.tryPermit i acquisition scope otherwise = some next) :
    Balanced limits next := by
  simp only [ConnectionGate.tryPermit, Option.bind_eq_bind, Option.bind_eq_some_iff] at hstep
  obtain ⟨k, htarget, before, hk, hstep⟩ := hstep
  split at hstep
  · rename_i after htry
    obtain rfl := Option.some.inj hstep
    have hqueues := Semaphore.tryAcquire_queues htry
    refine h.grant hi ?_ htarget hk (Semaphore.free_of_tryAcquire htry) ?_ ?_
    · rcases hphase with hphase | hphase
      · exact Or.inl hphase
      · exact Or.inr (Or.inl hphase)
    · intro w
      have hsame : after.Waits w ↔ before.Waits w := by
        unfold Semaphore.Waits
        rw [hqueues]
      have hself : ¬ before.Waits i := by
        rw [h.waits_self hi hk]
        rcases hphase with hphase | hphase <;> simp [Acquisition.awaited, hphase]
      rw [hsame]
      constructor
      · intro hwaits
        refine ⟨?_, hwaits⟩
        intro hw
        exact hself (hw ▸ hwaits)
      · exact And.right
    · unfold Semaphore.Distinct
      rw [hqueues]
      exact h.distinct k before hk
  · obtain rfl := Option.some.inj hstep
    exact hotherwise k before htarget hk

/-- A later poll of a queued future. -/
theorem balanced_pollPermit {limits : Limits} {gate next : ConnectionGate} {i : Nat}
    {acquisition : Acquisition} {scope : Scope} (h : Balanced limits gate)
    (hi : gate.acquisitions[i]? = some acquisition)
    (hphase : acquisition.phase = .queued scope)
    (hstep : gate.pollPermit i acquisition scope = some next) : Balanced limits next := by
  simp only [ConnectionGate.pollPermit, Option.bind_eq_bind, Option.bind_eq_some_iff] at hstep
  obtain ⟨k, htarget, before, hk, after, htake, hstep⟩ := hstep
  obtain rfl := Option.some.inj hstep
  have hqueues := Semaphore.takeUp_queues htake
  obtain ⟨hgone, hdistinct⟩ :=
    (Semaphore.distinct_of_perm_cons hqueues).mp (h.distinct k before hk)
  refine h.grant hi (Or.inr (Or.inr hphase)) htarget hk (Semaphore.free_of_takeUp htake) ?_
    hdistinct
  intro w
  rw [Semaphore.waits_of_perm_cons hqueues w]
  constructor
  · intro hwaits
    exact ⟨fun hw => hgone (hw ▸ hwaits), Or.inr hwaits⟩
  · intro hwaits
    exact hwaits.2.resolve_left hwaits.1

/-- An acquisition that goes on asking the same semaphore keeps its shape. -/
theorem Shaped.asks {limits : Limits} {acquisition : Acquisition} {scope : Scope} {phase : Phase}
    (hshaped : Shaped limits acquisition) (hbefore : acquisition.phase.asks scope)
    (hafter : phase.asks scope) : Shaped limits { acquisition with phase } := by
  obtain ⟨hsemaphore, horigin, hglobal, hlimited⟩ := hshaped
  cases scope <;> rcases hbefore with hbefore | hbefore | hbefore <;>
    rcases hafter with rfl | rfl | rfl <;>
    constructor <;>
    simp_all [Phase.asksOrigin, Phase.ownsOrigin, Phase.locking, Acquisition.limited]

/-- An acquisition whose `acquire_permit` failed is in shape. -/
theorem Shaped.afterError {limits : Limits} {acquisition : Acquisition} {scope : Scope}
    (hshaped : Shaped limits acquisition) (hbefore : acquisition.phase.asks scope) :
    Shaped limits { acquisition with phase := ConnectionGate.afterError scope } := by
  obtain ⟨hsemaphore, horigin, hglobal, hlimited⟩ := hshaped
  cases scope <;> rcases hbefore with hbefore | hbefore | hbefore <;>
    constructor <;>
    simp_all [ConnectionGate.afterError, Phase.asksOrigin, Phase.ownsOrigin, Phase.locking,
      Acquisition.limited]

/-- A queued acquisition awaits the semaphore that it asks. -/
theorem awaited_of_queued {limits : Limits} {gate : ConnectionGate} {acquisition : Acquisition}
    {scope : Scope} (hgate : gate.global = limits.global)
    (hphase : acquisition.phase = .queued scope) :
    acquisition.awaited limits = gate.target acquisition scope := by
  cases scope <;> simp [Acquisition.awaited, ConnectionGate.target, hphase, hgate]

/-- The first poll of `acquire_owned` without an available permit. -/
theorem balanced_enqueue {limits : Limits} {gate : ConnectionGate} {i k : Nat}
    {acquisition : Acquisition} {scope : Scope} {before : Semaphore}
    (h : Balanced limits gate) (hi : gate.acquisitions[i]? = some acquisition)
    (hphase : acquisition.phase = .waiting scope)
    (htarget : gate.target acquisition scope = some k)
    (hk : gate.semaphores[k]? = some before) :
    Balanced limits ({ gate with semaphores := gate.semaphores.set k (before.enqueue i) }.put i
      { acquisition with phase := .queued scope }) := by
  have hshaped := h.shaped acquisition (List.mem_iff_getElem?.mpr ⟨i, hi⟩)
  have hold : acquisition.awaited limits = none := by simp [Acquisition.awaited, hphase]
  have hnew : Acquisition.awaited limits { acquisition with phase := .queued scope } = some k := by
    rw [awaited_of_queued h.global rfl, ← htarget]
    cases scope <;> rfl
  have hself : ¬ before.Waits i := by
    rw [h.waits_self hi hk, hold]
    simp
  have hqueues := before.enqueue_queues i
  refine h.exchange hi hk ⟨rfl, ?_, ?_⟩ (fun _ _ => rfl) ?_ rfl (fun _ => id) ?_ rfl
  · intro w
    rw [Semaphore.waits_of_perm_cons hqueues w, hnew]
    split <;> simp_all
  · exact (Semaphore.distinct_of_perm_cons hqueues).mpr ⟨hself, h.distinct k before hk⟩
  · intro j hne
    rw [hnew, hold, Option.some.injEq]
    constructor
    · intro hj
      exact absurd hj.symm hne
    · simp
  · exact hshaped.asks (Or.inr (Or.inl hphase)) (Or.inr (Or.inr rfl))

theorem awaited_afterError (limits : Limits) (acquisition : Acquisition) (scope : Scope) :
    Acquisition.awaited limits
      { acquisition with phase := ConnectionGate.afterError scope } = none := by
  cases scope <;> rfl

theorem locking_afterError (scope : Scope) :
    (ConnectionGate.afterError scope).locking = false := by
  cases scope <;> rfl

/-- The end of a queued future. -/
theorem balanced_cancelPermit {limits : Limits} {gate next : ConnectionGate} {i : Nat}
    {acquisition : Acquisition} {scope : Scope} (h : Balanced limits gate)
    (hi : gate.acquisitions[i]? = some acquisition)
    (hphase : acquisition.phase = .queued scope)
    (hstep : gate.cancelPermit i acquisition scope = some next) : Balanced limits next := by
  simp only [ConnectionGate.cancelPermit, Option.bind_eq_bind, Option.bind_eq_some_iff] at hstep
  obtain ⟨k, htarget, before, hk, hstep⟩ := hstep
  obtain rfl := Option.some.inj hstep
  have hasks : acquisition.phase.asks scope := Or.inr (Or.inr hphase)
  have hshaped := h.shaped acquisition (List.mem_iff_getElem?.mpr ⟨i, hi⟩)
  have hwaits : before.Waits i := by
    rw [h.waits_self hi hk, awaited_of_queued h.global hphase, htarget]
  have hqueues := Semaphore.cancel_queues hwaits
  obtain ⟨hgone, hdistinct⟩ :=
    (Semaphore.distinct_of_perm_cons hqueues).mp (h.distinct k before hk)
  refine h.exchange hi hk ⟨by rw [Semaphore.free_cancel]; rfl, ?_, hdistinct⟩ (fun _ _ => rfl)
    ?_ rfl (fun _ => id) (hshaped.afterError hasks) (locking_afterError scope)
  · intro w
    rw [Semaphore.waits_of_perm_cons hqueues w, awaited_afterError]
    split <;> simp_all
  · intro j hne
    rw [awaited_afterError]
    constructor
    · simp
    · intro hawaited
      exact absurd (awaited_of_asks h.global hasks htarget hawaited) hne

/-- The step lemma for the drop of a permit. -/
theorem Balanced.release {limits : Limits} {gate : ConnectionGate} {i k : Nat}
    {old new : Acquisition} {before : Semaphore} (h : Balanced limits gate)
    (hi : gate.acquisitions[i]? = some old) (hk : gate.semaphores[k]? = some before)
    (hpermits : ∀ j, new.permits j + (k == j).toNat = old.permits j)
    (hawaited : old.awaited limits = none ∧ new.awaited limits = none)
    (horigin : new.origin = old.origin) (hrefers : ∀ j, new.Refers j → old.Refers j)
    (hshaped : Shaped limits new) (hlocking : new.phase.locking = false) :
    Balanced limits
      ({ gate with semaphores := gate.semaphores.set k before.release }.put i new) := by
  obtain ⟨hbefore, hafter⟩ := hawaited
  have hqueues := before.release_queues
  refine h.exchange hi hk ⟨?_, ?_, ?_⟩ ?_ ?_ horigin hrefers hshaped hlocking
  · have hgain := hpermits k
    simp at hgain
    rw [Semaphore.free_release]
    omega
  · intro w
    have hsame : before.release.Waits w ↔ before.Waits w := hqueues.mem_iff
    have hself : ¬ before.Waits i := by
      rw [h.waits_self hi hk, hbefore]
      simp
    rw [hsame, hafter]
    split <;> simp_all
  · exact hqueues.nodup_iff.mpr (h.distinct k before hk)
  · intro j hne
    have hgain := hpermits j
    rw [beq_eq_false_iff_ne.mpr (Ne.symm hne)] at hgain
    exact hgain
  · intro j _
    rw [hbefore, hafter]

/-- The drop of `_global`. -/
theorem balanced_dropGlobal {limits : Limits} {gate next : ConnectionGate} {i : Nat}
    {acquisition : Acquisition} (h : Balanced limits gate)
    (hi : gate.acquisitions[i]? = some acquisition) (hphase : acquisition.phase = .outstanding)
    (hstep : gate.dropGlobal i acquisition = some next) : Balanced limits next := by
  obtain ⟨hsemaphore, horigin, hglobal, -⟩ :=
    h.shaped acquisition (List.mem_iff_getElem?.mpr ⟨i, hi⟩)
  have hfree : acquisition.semaphore = none := by
    simpa [hphase, Phase.asksOrigin] using hsemaphore
  unfold ConnectionGate.dropGlobal at hstep
  split at hstep
  · rename_i hnone
    obtain rfl := Option.some.inj hstep
    refine h.move hi (fun _ => rfl) (by simp [Acquisition.awaited, hphase]) rfl (fun _ => id) ?_
      (by simp [Phase.locking]) (by simp)
    constructor <;>
      simp_all [Phase.asksOrigin, Phase.ownsOrigin, Phase.locking, Acquisition.limited]
  · rename_i k hsome
    simp only [Option.bind_eq_bind, Option.bind_eq_some_iff] at hstep
    obtain ⟨before, hk, hstep⟩ := hstep
    obtain rfl := Option.some.inj hstep
    refine h.release hi hk ?_ ⟨by simp [Acquisition.awaited, hphase], rfl⟩ rfl (fun _ => id) ?_
      rfl
    · intro j
      simp [Acquisition.permits, hsome]
    · constructor <;>
        simp_all [Phase.asksOrigin, Phase.ownsOrigin, Phase.locking, Acquisition.limited]

/-- The drop of `_origin`. -/
theorem balanced_dropOrigin {limits : Limits} {gate next : ConnectionGate} {i : Nat}
    {acquisition : Acquisition} (h : Balanced limits gate)
    (hi : gate.acquisitions[i]? = some acquisition)
    (hphase : acquisition.phase = .droppingOrigin)
    (hstep : gate.dropOrigin i acquisition = some next) : Balanced limits next := by
  obtain ⟨hsemaphore, horigin, hglobal, -⟩ :=
    h.shaped acquisition (List.mem_iff_getElem?.mpr ⟨i, hi⟩)
  have hfree : acquisition.semaphore = none := by
    simpa [hphase, Phase.asksOrigin] using hsemaphore
  have hnone : acquisition.globalPermit = none := by simpa [hphase] using hglobal
  unfold ConnectionGate.dropOrigin at hstep
  split at hstep
  · rename_i hpermit
    obtain rfl := Option.some.inj hstep
    refine h.move hi (fun _ => rfl) (by simp [Acquisition.awaited, hphase]) rfl (fun _ => id) ?_
      (by simp [Phase.locking]) (by simp)
    constructor <;>
      simp_all [Phase.asksOrigin, Phase.ownsOrigin, Phase.locking, Acquisition.limited]
  · rename_i k hpermit
    simp only [Option.bind_eq_bind, Option.bind_eq_some_iff] at hstep
    obtain ⟨before, hk, hstep⟩ := hstep
    obtain rfl := Option.some.inj hstep
    refine h.release hi hk ?_ ⟨by simp [Acquisition.awaited, hphase], rfl⟩ rfl ?_ ?_ rfl
    · intro j
      simp [Acquisition.permits, hpermit, hnone]
    · intro j hrefers
      rcases hrefers with hsame | himpossible
      · exact Or.inr (hpermit.trans hsame)
      · simp at himpossible
    · constructor <;>
        simp_all [Phase.asksOrigin, Phase.ownsOrigin, Phase.locking, Acquisition.limited]

/-! ## The origin map -/

/-- An entry that nobody refers to can be removed. -/
theorem Balanced.remove {limits : Limits} {gate : ConnectionGate} {entry : Text × Nat}
    (h : Balanced limits gate)
    (hfree : ∀ acquisition ∈ gate.acquisitions, ¬ acquisition.Refers entry.2) :
    Balanced limits
      { gate with gates := gate.gates.filter fun other => other != entry } := by
  refine ⟨h.global, h.globalLt, h.balance, h.waits, h.distinct, ?_, ?_, h.shaped, ?_,
    h.unreferenced⟩
  · intro other hmem
    exact h.entries other (List.mem_filter.mp hmem).1
  · intro acquisition hmem k hk
    obtain ⟨origin, horigin, hfound⟩ := h.shared acquisition hmem k hk
    refine ⟨origin, horigin, lookup_filter hfound ?_⟩
    rw [bne_iff_ne]
    intro hsame
    exact hfree acquisition hmem (hsame ▸ hk)
  · intro i acquisition hi hphase
    obtain ⟨hheld, origin, horigin, habsent⟩ := h.locked i acquisition hi hphase
    exact ⟨hheld, origin, horigin, lookup_filter_none _ habsent⟩

/-- An entry with a strong count of one has no other reference. -/
theorem not_refers_of_strongCount {gate : ConnectionGate} {k : Nat}
    (h : ¬ gate.strongCount k > 1) :
    ∀ acquisition ∈ gate.acquisitions, ¬ acquisition.Refers k := by
  intro acquisition hmem hrefers
  obtain ⟨i, hi⟩ := List.mem_iff_getElem?.mp hmem
  have hle := le_sum_map (Acquisition.references k) hi
  have hpos : 0 < acquisition.references k := by
    unfold Acquisition.references
    rcases hrefers with hsome | hsome
    · rw [hsome, beq_self_eq_true, Bool.toNat_true]
      omega
    · rw [hsome, beq_self_eq_true, Bool.toNat_true]
      omega
  unfold ConnectionGate.strongCount at h
  omega

/-- The second half of the `retain` condition. -/
theorem balanced_checkAvailable {limits : Limits} {gate next : ConnectionGate} {i : Nat}
    {acquisition : Acquisition} {entry : Text × Nat} {rest : List (Text × Nat)}
    (h : Balanced limits gate) (hi : gate.acquisitions[i]? = some acquisition)
    (hphase : acquisition.phase = .checking entry rest)
    (hstep : gate.checkAvailable limits i acquisition entry rest = some next) :
    Balanced limits next := by
  have hmem : acquisition ∈ gate.acquisitions := List.mem_iff_getElem?.mpr ⟨i, hi⟩
  have hshaped : Shaped limits { acquisition with phase := .retaining rest } := by
    obtain ⟨hsemaphore, horigin, hglobal, hlimited⟩ := h.shaped acquisition hmem
    constructor <;>
      simp_all [Phase.asksOrigin, Phase.ownsOrigin, Phase.locking, Acquisition.limited]
  have hmove : ∀ {gates : List (Text × Nat)}, Balanced limits { gate with gates } →
      Balanced limits
        ({ gate with gates }.put i { acquisition with phase := .retaining rest }) := by
    intro gates hgates
    exact hgates.move hi (fun _ => rfl) (by simp [Acquisition.awaited, hphase]) rfl
      (fun _ => id) hshaped (fun _ => by rw [hphase]; rfl) (by simp)
  simp only [ConnectionGate.checkAvailable, Option.bind_eq_bind, Option.bind_eq_some_iff]
    at hstep
  obtain ⟨limit, -, semaphore, -, hstep⟩ := hstep
  obtain rfl := Option.some.inj hstep
  apply hmove
  split
  · exact h
  · exact h.remove (h.unreferenced acquisition hmem entry rest hphase)

/-- Nobody holds a permit of a semaphore that does not exist yet. -/
theorem Balanced.permits_eq_zero {limits : Limits} {gate : ConnectionGate}
    (h : Balanced limits gate) :
    (gate.acquisitions.map (Acquisition.permits gate.semaphores.length)).sum = 0 := by
  rw [List.sum_eq_zero_iff_forall_eq_nat]
  intro count hcount
  obtain ⟨acquisition, hmem, rfl⟩ := List.mem_map.mp hcount
  have hnotOrigin : acquisition.originPermit ≠ some gate.semaphores.length := by
    intro hsome
    obtain ⟨origin, -, hfound⟩ := h.shared acquisition hmem _ (Or.inr hsome)
    exact absurd (h.entries _ (mem_of_lookup hfound)).1 (Nat.lt_irrefl _)
  have hnotGlobal : acquisition.globalPermit ≠ some gate.semaphores.length := by
    intro hsome
    have hglobal := (h.shaped acquisition hmem).globalPermit
    rw [hsome] at hglobal
    split at hglobal
    · exact absurd (h.globalLt _ hglobal.symm) (Nat.lt_irrefl _)
    · simp at hglobal
  simp [Acquisition.permits, hnotOrigin, hnotGlobal]

/-- Nobody awaits a semaphore that does not exist yet. -/
theorem Balanced.awaited_ne_length {limits : Limits} {gate : ConnectionGate}
    (h : Balanced limits gate) {acquisition : Acquisition}
    (hmem : acquisition ∈ gate.acquisitions) :
    acquisition.awaited limits ≠ some gate.semaphores.length := by
  intro hawaited
  unfold Acquisition.awaited at hawaited
  split at hawaited
  · obtain ⟨origin, -, hfound⟩ := h.shared acquisition hmem _ (Or.inl hawaited)
    exact absurd (h.entries _ (mem_of_lookup hfound)).1 (Nat.lt_irrefl _)
  · exact absurd (h.globalLt _ hawaited) (Nat.lt_irrefl _)
  · simp at hawaited

/-- A new origin semaphore in the arena. -/
theorem Balanced.push {limits : Limits} {gate : ConnectionGate} {limit : Nat}
    (h : Balanced limits gate) (hlimit : limits.maxConnectionsPerHost = some limit) :
    Balanced limits { gate with semaphores := gate.semaphores ++ [Semaphore.new limit] } := by
  refine ⟨h.global, ?_, ?_, ?_, ?_, ?_, h.shared, h.shaped, h.locked, h.unreferenced⟩
  · intro k hk
    have hlt := h.globalLt k hk
    simp
    omega
  · intro k semaphore hk
    rcases getElem?_push_cases hk with hk | ⟨rfl, rfl⟩
    · exact h.balance k semaphore hk
    · have hother : limits.global ≠ some gate.semaphores.length := by
        intro hglobal
        exact absurd (h.globalLt _ hglobal) (Nat.lt_irrefl _)
      show limits.limit gate.semaphores.length =
        some (limit + (gate.acquisitions.map
          (Acquisition.permits gate.semaphores.length)).sum)
      rw [Limits.limit, if_neg hother, h.permits_eq_zero, hlimit]
      rfl
  · intro k semaphore hk w
    rcases getElem?_push_cases hk with hk | ⟨rfl, rfl⟩
    · exact h.waits k semaphore hk w
    · constructor
      · intro hwaits
        exact absurd hwaits (Semaphore.not_waits_new limit w)
      · intro hex
        obtain ⟨acquisition, hw, hawaited⟩ := hex
        exact absurd hawaited (h.awaited_ne_length (List.mem_iff_getElem?.mpr ⟨w, hw⟩))
  · intro k semaphore hk
    rcases getElem?_push_cases hk with hk | ⟨rfl, rfl⟩
    · exact h.distinct k semaphore hk
    · exact Semaphore.distinct_new limit
  · intro entry hmem
    obtain ⟨hlt, hother⟩ := h.entries entry hmem
    refine ⟨?_, hother⟩
    simp
    omega

/-- The end of the lookup under the lock: acquisition `i` brings semaphore `k` into the
map for its origin, which has none, and leaves the lock. -/
theorem Balanced.insert {limits : Limits} {gate : ConnectionGate} {i k : Nat}
    {acquisition : Acquisition} {origin : Text} (h : Balanced limits gate)
    (hi : gate.acquisitions[i]? = some acquisition) (hphase : acquisition.phase = .inserting)
    (horigin : acquisition.origin = some origin) (hk : k < gate.semaphores.length)
    (hglobal : limits.global ≠ some k) :
    Balanced limits ({ gate with
      gates := (origin, k) :: gate.gates.filter fun entry => entry.1 != origin
      lock := none }.put i
        { acquisition with semaphore := some k, phase := .acquiring .origin }) := by
  have hmem : acquisition ∈ gate.acquisitions := List.mem_iff_getElem?.mpr ⟨i, hi⟩
  obtain ⟨hheld, origin', horigin', habsent⟩ :=
    h.locked i acquisition hi (by rw [hphase]; rfl)
  obtain rfl : origin = origin' := Option.some.inj (horigin.symm.trans horigin')
  obtain ⟨hsemaphore, hpermit, hglobalPermit, hlimited⟩ := h.shaped acquisition hmem
  -- Whoever else is under the lock would hold it.
  have hothers : ∀ (j : Nat) (other : Acquisition), (gate.acquisitions.set i
      { acquisition with semaphore := some k, phase := .acquiring .origin })[j]? = some other →
      other.phase.locking = false := by
    intro j other hj
    rcases getElem?_set_cases hj with ⟨-, rfl⟩ | ⟨hne, hj⟩
    · rfl
    · by_contra hnot
      have hother := (h.locked j other hj (by simpa using hnot)).1
      rw [hheld, Option.some.injEq] at hother
      exact hne hother.symm
  refine ⟨h.global, h.globalLt, ?_, ?_, h.distinct, ?_, ?_, forall_mem_set h.shaped ?_, ?_, ?_⟩
  · intro j semaphore hj
    have hsum := sum_map_set_add (Acquisition.permits j)
      { acquisition with semaphore := some k, phase := .acquiring .origin } hi
    rw [h.balance j semaphore hj, Option.some.injEq]
    have hsame : Acquisition.permits j
        { acquisition with semaphore := some k, phase := .acquiring .origin } =
          acquisition.permits j := rfl
    show _ = semaphore.free + (List.map _ (gate.acquisitions.set i _)).sum
    omega
  · intro j semaphore hj w
    rw [h.waits j semaphore hj w]
    show _ ↔ ∃ other, (gate.acquisitions.set i _)[w]? = some other ∧ _
    by_cases hw : w = i
    · subst hw
      rw [hi, List.getElem?_set_self (List.getElem?_eq_some_iff.mp hi).1]
      simp [Acquisition.awaited, hphase]
    · rw [List.getElem?_set_ne (Ne.symm hw)]
  · intro entry hentry
    rcases List.mem_cons.mp hentry with rfl | hentry
    · exact ⟨hk, hglobal⟩
    · exact h.entries entry (List.mem_filter.mp hentry).1
  · refine forall_mem_set ?_ ?_
    · intro other hother j hj
      obtain ⟨o, ho, hfound⟩ := h.shared other hother j hj
      have hne : o ≠ origin := by
        intro hsame
        rw [hsame, habsent] at hfound
        simp at hfound
      refine ⟨o, ho, (lookup_cons_of_ne k hne).trans (lookup_filter hfound ?_)⟩
      simpa using hne
    · intro j hj
      refine ⟨origin, horigin, ?_⟩
      have hnone : acquisition.originPermit = none := by
        simpa [hphase, Phase.ownsOrigin] using hpermit
      have hsame : k = j := by
        rcases hj with hj | hj
        · exact Option.some.inj hj
        · simp [hnone] at hj
      subst hsame
      exact List.lookup_cons_self
  · constructor <;>
      simp_all [Phase.asksOrigin, Phase.ownsOrigin, Phase.locking, Acquisition.limited]
  · intro j other hj hlocking
    rw [hothers j other hj] at hlocking
    simp at hlocking
  · intro other hother entry rest hchecking
    obtain ⟨j, hj⟩ := List.mem_iff_getElem?.mp hother
    have hnot := hothers j other hj
    rw [hchecking] at hnot
    simp [Phase.locking] at hnot

/-- The section that inserts a new semaphore. -/
theorem balanced_insertSemaphore {limits : Limits} {gate next : ConnectionGate} {i : Nat}
    {acquisition : Acquisition} (h : Balanced limits gate)
    (hi : gate.acquisitions[i]? = some acquisition) (hphase : acquisition.phase = .inserting)
    (hstep : gate.insertSemaphore limits i acquisition = some next) :
    Balanced limits next := by
  simp only [ConnectionGate.insertSemaphore, Option.bind_eq_bind, Option.bind_eq_some_iff]
    at hstep
  obtain ⟨limit, hlimit, origin, horigin, hstep⟩ := hstep
  obtain rfl := Option.some.inj hstep
  refine (h.push hlimit).insert hi hphase horigin (by simp) ?_
  intro hglobal
  exact absurd (h.globalLt _ hglobal) (Nat.lt_irrefl _)

/-- The lookup of the origin semaphore. -/
theorem balanced_lookupSemaphore {limits : Limits} {gate next : ConnectionGate} {i : Nat}
    {acquisition : Acquisition} {origin : Text} (h : Balanced limits gate)
    (hi : gate.acquisitions[i]? = some acquisition) (hphase : acquisition.phase = .called)
    (horigin : acquisition.origin = some origin)
    (hconfigured : limits.maxConnectionsPerHost.isSome = true)
    (hstep : gate.lookupSemaphore i acquisition origin = some next) :
    Balanced limits next := by
  obtain ⟨hsemaphore, hpermit, hglobal, -⟩ :=
    h.shaped acquisition (List.mem_iff_getElem?.mpr ⟨i, hi⟩)
  have hnone : acquisition.originPermit = none := by
    simpa [hphase, Phase.ownsOrigin] using hpermit
  have hsame : ∀ (new : Acquisition) (k : Nat) (semaphore : Semaphore),
      gate.semaphores[k]? = some semaphore → new.permits k = acquisition.permits k →
      new.awaited limits = none → Exchange limits i k acquisition new semaphore semaphore := by
    intro new k semaphore hk hpermits hawaited
    refine ⟨by rw [hpermits], ?_, h.distinct k semaphore hk⟩
    intro w
    split
    · rename_i hw
      subst hw
      rw [h.waits_self hi hk, hawaited]
      simp [Acquisition.awaited, hphase]
    · rfl
  unfold ConnectionGate.lookupSemaphore at hstep
  split at hstep
  · simp at hstep
  · rename_i hfree
    replace hfree : gate.lock = none := by simpa using hfree
    split at hstep
    · rename_i k hfound
      obtain rfl := Option.some.inj hstep
      refine h.put hi rfl (fun j semaphore hj => ⟨semaphore, hj, hsame _ j semaphore hj rfl rfl⟩)
        rfl ?_ ?_ (Or.inl rfl) (by simp [Phase.locking]) (by simp)
      · intro j hj
        refine Or.inr ⟨hfree, rfl, origin, horigin, ?_⟩
        rcases hj with hj | hj
        · rw [hfound]
          exact hj
        · simp [hnone] at hj
      · constructor <;>
          simp_all [Phase.asksOrigin, Phase.ownsOrigin, Phase.locking, Acquisition.limited]
    · rename_i habsent
      obtain rfl := Option.some.inj hstep
      split
      all_goals
        refine h.put hi rfl
          (fun j semaphore hj => ⟨semaphore, hj, hsame _ j semaphore hj rfl rfl⟩)
          rfl (fun _ => Or.inl) ?_ (Or.inr (Or.inl hfree))
          (fun _ => ⟨rfl, origin, horigin, habsent⟩) (by simp)
        constructor <;>
          simp_all [Phase.asksOrigin, Phase.ownsOrigin, Phase.locking, Acquisition.limited]

/-! ## Runs -/

/-- A new gate is balanced. -/
theorem balanced_new (limits : Limits) : Balanced limits (.new limits) := by
  unfold ConnectionGate.new
  cases hmax : limits.maxConnections with
  | none =>
      have hglobal : limits.global = none := by simp [Limits.global, hmax]
      exact ⟨hglobal.symm, by simp [hglobal], by simp, by simp, by simp, by simp, by simp, by simp,
        by simp, by simp⟩
  | some limit =>
      have hglobal : limits.global = some 0 := by simp [Limits.global, hmax]
      refine ⟨hglobal.symm, by simp [hglobal], ?_, ?_, ?_, by simp, by simp, by simp, by simp,
        by simp⟩
      all_goals
        intro k semaphore hk
        obtain ⟨rfl, rfl⟩ : k = 0 ∧ semaphore = .new limit := by
          cases k <;> simp_all
      · simp [Limits.limit, hglobal, hmax]
      · intro w
        simp
      · exact Semaphore.distinct_new limit

/-- A new call holds nothing. -/
theorem balanced_call {limits : Limits} {gate : ConnectionGate} (origin : Option Text)
    (h : Balanced limits gate) :
    Balanced limits { gate with acquisitions := gate.acquisitions ++ [.call origin] } := by
  refine ⟨h.global, h.globalLt, ?_, ?_, h.distinct, h.entries, ?_, ?_, ?_, ?_⟩
  · intro k semaphore hk
    rw [h.balance k semaphore hk, List.map_append, List.sum_append]
    rfl
  · intro k semaphore hk w
    rw [h.waits k semaphore hk w]
    constructor
    · intro hex
      obtain ⟨acquisition, hw, hawaited⟩ := hex
      refine ⟨acquisition, ?_, hawaited⟩
      show (gate.acquisitions ++ _)[w]? = _
      rw [List.getElem?_append_left (List.getElem?_eq_some_iff.mp hw).1, hw]
    · intro hex
      obtain ⟨acquisition, hw, hawaited⟩ := hex
      rcases getElem?_push_cases hw with hw | ⟨-, rfl⟩
      · exact ⟨acquisition, hw, hawaited⟩
      · simp [Acquisition.awaited, Acquisition.call] at hawaited
  · intro acquisition hmem k hk
    rcases List.mem_append.mp hmem with hmem | hmem
    · exact h.shared acquisition hmem k hk
    · obtain rfl := List.mem_singleton.mp hmem
      simp [Acquisition.Refers, Acquisition.call] at hk
  · intro acquisition hmem
    rcases List.mem_append.mp hmem with hmem | hmem
    · exact h.shaped acquisition hmem
    · obtain rfl := List.mem_singleton.mp hmem
      constructor <;>
        simp [Acquisition.call, Phase.asksOrigin, Phase.ownsOrigin, Phase.locking]
  · intro i acquisition hi hphase
    rcases getElem?_push_cases hi with hi | ⟨-, rfl⟩
    · exact h.locked i acquisition hi hphase
    · simp [Acquisition.call, Phase.locking] at hphase
  · intro acquisition hmem entry rest hphase other hother
    rcases List.mem_append.mp hmem with hmem | hmem
    · rcases List.mem_append.mp hother with hother | hother
      · exact h.unreferenced acquisition hmem entry rest hphase other hother
      · obtain rfl := List.mem_singleton.mp hother
        simp [Acquisition.Refers, Acquisition.call]
    · obtain rfl := List.mem_singleton.mp hmem
      simp [Acquisition.call] at hphase

/-- A section that only moves an acquisition on within the cleanup. -/
theorem Balanced.retain {limits : Limits} {gate : ConnectionGate} {i : Nat}
    {acquisition : Acquisition} {phase : Phase} (h : Balanced limits gate)
    (hi : gate.acquisitions[i]? = some acquisition)
    (hbefore : acquisition.phase.locking = true) (hafter : phase.locking = true)
    (hchecking : ∀ entry rest, phase = .checking entry rest →
      ∀ other ∈ gate.acquisitions, ¬ other.Refers entry.2) :
    Balanced limits (gate.put i { acquisition with phase }) := by
  have hplain : ∀ phase : Phase, phase.locking = true → phase.asksOrigin = false ∧
      phase.ownsOrigin = false ∧ phase ≠ .outstanding ∧ phase ≠ .droppingArc := by
    intro phase hphase
    cases phase <;> simp_all [Phase.locking, Phase.asksOrigin, Phase.ownsOrigin]
  have hold := hplain _ hbefore
  have hnew := hplain _ hafter
  obtain ⟨hsemaphore, horigin, hglobal, hlimited⟩ :=
    h.shaped acquisition (List.mem_iff_getElem?.mpr ⟨i, hi⟩)
  refine h.move hi (fun _ => rfl) ?_ rfl (fun _ => id) ?_ (fun _ => hbefore) hchecking
  · unfold Acquisition.awaited
    cases phase <;> cases hphase : acquisition.phase <;> simp_all [Phase.locking]
  · constructor <;> simp_all [Acquisition.limited]

/-- Every section keeps the balance. -/
theorem balanced_advance {limits : Limits} {gate next : ConnectionGate} {i : Nat}
    {acquisition : Acquisition} (h : Balanced limits gate)
    (hi : gate.acquisitions[i]? = some acquisition)
    (hstep : gate.advance limits i acquisition = some next) : Balanced limits next := by
  have hmem : acquisition ∈ gate.acquisitions := List.mem_iff_getElem?.mpr ⟨i, hi⟩
  have hshaped := h.shaped acquisition hmem
  unfold ConnectionGate.advance at hstep
  cases hphase : acquisition.phase <;> simp only [hphase] at hstep
  case called =>
    split at hstep
    · rename_i origin limit horigin hlimit
      exact balanced_lookupSemaphore h hi hphase horigin (by rw [hlimit]; rfl) hstep
    · rename_i hfree
      obtain rfl := Option.some.inj hstep
      obtain ⟨hsemaphore, horigin, hglobal, -⟩ := hshaped
      have hunlimited : acquisition.limited limits = false := by
        cases horigin' : acquisition.origin with
        | none => simp [Acquisition.limited, horigin']
        | some origin =>
            cases hlimit : limits.maxConnectionsPerHost with
            | none => simp [Acquisition.limited, hlimit]
            | some limit => exact (hfree origin limit horigin' hlimit).elim
      have hconfigured := h.global
      unfold ConnectionGate.afterOrigin
      split
      all_goals
        refine h.move hi (fun _ => rfl) (by simp [Acquisition.awaited, hphase]) rfl
          (fun _ => id) ?_ (by simp [Phase.locking]) (by simp)
        constructor <;>
          simp_all [Phase.asksOrigin, Phase.ownsOrigin, Phase.locking, Acquisition.limited]
  case retaining rest =>
    cases rest with
    | nil =>
        obtain rfl := Option.some.inj hstep
        exact h.retain hi (by rw [hphase]; rfl) rfl (by simp)
    | cons entry rest =>
        dsimp only at hstep
        split at hstep
        · obtain rfl := Option.some.inj hstep
          exact h.retain hi (by rw [hphase]; rfl) rfl (by simp)
        · rename_i hcount
          obtain rfl := Option.some.inj hstep
          refine h.retain hi (by rw [hphase]; rfl) rfl ?_
          intro entry' rest' hsame
          obtain ⟨rfl, -⟩ : entry = entry' ∧ rest = rest' := by simpa using hsame
          exact not_refers_of_strongCount hcount
  case checking entry rest => exact balanced_checkAvailable h hi hphase hstep
  case inserting => exact balanced_insertSemaphore h hi hphase hstep
  case acquiring scope =>
    refine balanced_tryPermit h hi (Or.inl hphase) ?_ hstep
    intro k semaphore _ _
    refine h.move hi (fun _ => rfl) (by simp [Acquisition.awaited, hphase]) rfl (fun _ => id)
      (hshaped.asks (Or.inl hphase) (Or.inr (Or.inl rfl))) (by simp [Phase.locking]) (by simp)
  case waiting scope =>
    refine balanced_tryPermit h hi (Or.inr hphase) ?_ hstep
    intro k semaphore htarget hk
    exact balanced_enqueue h hi hphase htarget hk
  case queued scope => exact balanced_pollPermit h hi hphase hstep
  case outstanding => exact balanced_dropGlobal h hi hphase hstep
  case droppingOrigin => exact balanced_dropOrigin h hi hphase hstep
  case droppingArc =>
    obtain rfl := Option.some.inj hstep
    obtain ⟨-, horigin, hglobal, -⟩ := hshaped
    refine h.move hi (fun _ => rfl) (by simp [Acquisition.awaited, hphase]) rfl ?_ ?_
      (by simp [Phase.locking]) (by simp)
    · intro k hk
      exact Or.inr (hk.resolve_left (by simp))
    · constructor <;>
        simp_all [Phase.asksOrigin, Phase.ownsOrigin, Phase.locking, Acquisition.limited]
  case finished => simp at hstep

/-- The end of a future at its await point keeps the balance. -/
theorem balanced_leave {limits : Limits} {gate next : ConnectionGate} {i : Nat}
    {acquisition : Acquisition} (h : Balanced limits gate)
    (hi : gate.acquisitions[i]? = some acquisition)
    (hstep : gate.leave i acquisition = some next) : Balanced limits next := by
  have hshaped := h.shaped acquisition (List.mem_iff_getElem?.mpr ⟨i, hi⟩)
  unfold ConnectionGate.leave at hstep
  split at hstep
  · rename_i scope hphase
    obtain rfl := Option.some.inj hstep
    refine h.move hi (fun _ => rfl) ?_ rfl (fun _ => id)
      (hshaped.afterError (Or.inr (Or.inl hphase))) (by simp [locking_afterError]) ?_
    · rw [awaited_afterError]
      simp [Acquisition.awaited, hphase]
    · intro entry rest himpossible
      cases scope <;> simp [ConnectionGate.afterError] at himpossible
  · rename_i scope hphase
    exact balanced_cancelPermit h hi hphase hstep
  · simp at hstep

/-- Every event keeps the balance. -/
theorem balanced_step {limits : Limits} {gate next : ConnectionGate}
    {event : ConnectionGate.Event} (h : Balanced limits gate)
    (hstep : gate.step limits event = some next) : Balanced limits next := by
  rcases ConnectionGate.step_cases hstep with ⟨origin, rfl⟩ | ⟨i, acquisition, hi, hsection⟩
  · exact balanced_call origin h
  · rcases hsection with hadvance | hleave
    · exact balanced_advance h hi hadvance
    · exact balanced_leave h hi hleave

/-- Every reachable gate is balanced. -/
theorem balanced_of_reachable {limits : Limits} {gate : ConnectionGate}
    (h : (ConnectionGate.system limits).Reachable gate) : Balanced limits gate :=
  h.invariant (Balanced limits) (balanced_new limits) fun _ hbalanced hstep =>
    balanced_step hbalanced hstep

/-! ## The caps -/

section Caps

variable {limits : Limits} {gate : ConnectionGate}

/-- An acquisition of a limited origin that uses its semaphore refers to the one in the
map. -/
theorem Balanced.refers_of_usesOrigin (h : Balanced limits gate) {acquisition : Acquisition}
    (hmem : acquisition ∈ gate.acquisitions) (huses : acquisition.usesOrigin = true)
    (hlimited : acquisition.limited limits = true) :
    ∃ origin k, acquisition.origin = some origin ∧ acquisition.Refers k ∧
      gate.gates.lookup origin = some k := by
  obtain ⟨hsemaphore, horigin, -, -⟩ := h.shaped acquisition hmem
  have hrefers : ∃ k, acquisition.Refers k := by
    have heither : acquisition.phase.asksOrigin = true ∧ acquisition.phase ≠ .droppingArc ∨
        acquisition.phase.ownsOrigin = true := by
      unfold Acquisition.usesOrigin at huses
      split at huses
      case h_1 scope hphase | h_2 scope hphase | h_3 scope hphase =>
        cases scope <;> simp [hphase, Phase.asksOrigin, Phase.ownsOrigin]
      case h_4 hphase | h_5 hphase => simp [hphase, Phase.ownsOrigin]
      case h_6 => simp at huses
    rcases heither with ⟨hasks, hnot⟩ | howns
    · obtain ⟨k, hk⟩ := Option.isSome_iff_exists.mp ((hsemaphore hnot).trans hasks)
      exact ⟨k, Or.inl hk⟩
    · obtain ⟨k, hk⟩ := Option.isSome_iff_exists.mp
        (horigin.trans (by rw [hlimited, howns]; rfl))
      exact ⟨k, Or.inr hk⟩
  obtain ⟨k, hk⟩ := hrefers
  obtain ⟨origin, hown, hfound⟩ := h.shared acquisition hmem k hk
  exact ⟨origin, k, hown, hk, hfound⟩

/-- The permit of an outstanding acquisition comes from the semaphore in the map. -/
theorem Balanced.originPermit_of_outstanding (h : Balanced limits gate)
    {acquisition : Acquisition} (hmem : acquisition ∈ gate.acquisitions)
    (hout : acquisition.outstanding = true) {origin : Text}
    (horigin : acquisition.origin = some origin)
    (hconfigured : limits.maxConnectionsPerHost.isSome = true) :
    ∃ k, acquisition.originPermit = some k ∧ gate.gates.lookup origin = some k := by
  have hphase : acquisition.phase = .outstanding := by
    simpa [Acquisition.outstanding] using hout
  have hpermit := (h.shaped acquisition hmem).originPermit
  rw [Acquisition.limited, horigin, hconfigured, hphase] at hpermit
  obtain ⟨k, hk⟩ := Option.isSome_iff_exists.mp hpermit
  obtain ⟨origin', horigin', hfound⟩ := h.shared acquisition hmem k (Or.inr hk)
  rw [horigin, Option.some.injEq] at horigin'
  exact ⟨k, hk, horigin' ▸ hfound⟩

/-- Every outstanding permit holds a global one. -/
theorem Balanced.outstanding_le (h : Balanced limits gate) {limit : Nat}
    (hlimit : limits.maxConnections = some limit) :
    gate.acquisitions.countP Acquisition.outstanding ≤ limit := by
  have hglobal : limits.global = some 0 := by simp [Limits.global, hlimit]
  obtain ⟨semaphore, hsemaphore⟩ : ∃ semaphore, gate.semaphores[0]? = some semaphore :=
    ⟨_, List.getElem?_eq_getElem (h.globalLt 0 hglobal)⟩
  have hbalance := h.balance 0 semaphore hsemaphore
  rw [Limits.limit, if_pos hglobal, hlimit, Option.some.injEq] at hbalance
  have hcount : gate.acquisitions.countP Acquisition.outstanding ≤
      (gate.acquisitions.map (Acquisition.permits 0)).sum := by
    refine countP_le_sum_map fun acquisition hmem hout => ?_
    have hpermit := (h.shaped acquisition hmem).globalPermit
    rw [if_pos (by simpa [Acquisition.outstanding] using hout), hglobal] at hpermit
    unfold Acquisition.permits
    rw [hpermit, beq_self_eq_true, Bool.toNat_true]
    omega
  omega

/-- Every outstanding permit of a limited origin holds one of the semaphore in the
map. -/
theorem Balanced.outstanding_per_host_le (h : Balanced limits gate) {limit : Nat}
    (hlimit : limits.maxConnectionsPerHost = some limit) (origin : Text) :
    gate.acquisitions.countP (fun acquisition =>
      acquisition.outstanding && acquisition.origin == some origin) ≤ limit := by
  have hconfigured : limits.maxConnectionsPerHost.isSome = true := by rw [hlimit]; rfl
  have hpermit : ∀ acquisition ∈ gate.acquisitions,
      (acquisition.outstanding && acquisition.origin == some origin) = true →
        ∃ k, acquisition.originPermit = some k ∧ gate.gates.lookup origin = some k := by
    intro acquisition hmem hboth
    rw [Bool.and_eq_true, beq_iff_eq] at hboth
    exact h.originPermit_of_outstanding hmem hboth.1 hboth.2 hconfigured
  cases hfound : gate.gates.lookup origin with
  | none =>
      have hzero : gate.acquisitions.countP (fun acquisition =>
          acquisition.outstanding && acquisition.origin == some origin) = 0 := by
        rw [List.countP_eq_zero]
        intro acquisition hmem hboth
        obtain ⟨k, -, hlookup⟩ := hpermit acquisition hmem hboth
        simp [hfound] at hlookup
      omega
  | some k =>
      obtain ⟨hlt, hother⟩ := h.entries _ (mem_of_lookup hfound)
      have hbalance := h.balance k _ (List.getElem?_eq_getElem hlt)
      rw [Limits.limit, if_neg hother, hlimit, Option.some.injEq] at hbalance
      have hcount : gate.acquisitions.countP (fun acquisition =>
          acquisition.outstanding && acquisition.origin == some origin) ≤
          (gate.acquisitions.map (Acquisition.permits k)).sum := by
        refine countP_le_sum_map fun acquisition hmem hboth => ?_
        obtain ⟨k', hk', hlookup⟩ := hpermit acquisition hmem hboth
        obtain rfl : k = k' := Option.some.inj (hfound.symm.trans hlookup)
        unfold Acquisition.permits
        rw [hk', beq_self_eq_true, Bool.toNat_true]
        omega
      omega

/-- No step takes the semaphore of an origin out of the map while an acquisition of that
origin uses it. -/
theorem Balanced.not_removed (h : Balanced limits gate) {next : ConnectionGate}
    {event : ConnectionGate.Event} (hstep : gate.step limits event = some next)
    {origin : Text} {k : Nat} (hfound : gate.gates.lookup origin = some k)
    (hremoved : next.gates.lookup origin ≠ some k) {acquisition : Acquisition}
    (hmem : acquisition ∈ gate.acquisitions) (horigin : acquisition.origin = some origin) :
    acquisition.usesOrigin = false := by
  by_contra hnot
  have huses : acquisition.usesOrigin = true := by simpa using hnot
  -- An entry of the map has a limit of its own.
  have hlimited : acquisition.limited limits = true := by
    obtain ⟨hlt, hother⟩ := h.entries _ (mem_of_lookup hfound)
    have hbalance := h.balance k _ (List.getElem?_eq_getElem hlt)
    rw [Limits.limit, if_neg hother] at hbalance
    simp [Acquisition.limited, horigin, hbalance]
  have hnext := balanced_step h hstep
  -- If the acquisition is still there, the map of the next state has its semaphore.
  have hstays : acquisition ∈ next.acquisitions → False := by
    intro hstay
    obtain ⟨o, j, ho, hj, hlookup⟩ := h.refers_of_usesOrigin hmem huses hlimited
    obtain ⟨o', ho', hlookup'⟩ := hnext.shared acquisition hstay j hj
    obtain rfl : origin = o := Option.some.inj (horigin.symm.trans ho)
    obtain rfl : origin = o' := Option.some.inj (horigin.symm.trans ho')
    obtain rfl : k = j := Option.some.inj (hfound.symm.trans hlookup)
    exact hremoved hlookup'
  rcases ConnectionGate.step_cases hstep with ⟨_, rfl⟩ | ⟨i, mover, hi, hsection⟩
  · exact hstays (List.mem_append_left _ hmem)
  · have hcases : (∃ new, next.acquisitions = gate.acquisitions.set i new) ∧
        (mover.phase.locking = false → next.gates = gate.gates) := by
      rcases hsection with hadvance | hleave
      · exact ConnectionGate.advance_cases hadvance
      · obtain ⟨hset, hgates⟩ := ConnectionGate.leave_cases hleave
        exact ⟨hset, fun _ => hgates⟩
    obtain ⟨⟨new, hset⟩, hgates⟩ := hcases
    obtain ⟨j, hj⟩ := List.mem_iff_getElem?.mp hmem
    by_cases hsame : i = j
    · subst hsame
      obtain rfl : mover = acquisition := Option.some.inj (hi.symm.trans hj)
      have hunlocked : mover.phase.locking = false := by
        unfold Acquisition.usesOrigin at huses
        cases hphase : mover.phase <;> simp_all [Phase.locking]
      rw [hgates hunlocked] at hremoved
      exact hremoved hfound
    · refine hstays (List.mem_iff_getElem?.mpr ⟨j, ?_⟩)
      rw [hset, List.getElem?_set_ne hsame, hj]

/-- A finished acquisition has given everything back. -/
theorem Balanced.finished_empty (h : Balanced limits gate) {acquisition : Acquisition}
    (hmem : acquisition ∈ gate.acquisitions) (hphase : acquisition.phase = .finished) :
    acquisition.semaphore = none ∧ acquisition.originPermit = none ∧
      acquisition.globalPermit = none := by
  obtain ⟨hsemaphore, horigin, hglobal, -⟩ := h.shaped acquisition hmem
  refine ⟨?_, ?_, ?_⟩
  · simpa [hphase, Phase.asksOrigin] using hsemaphore
  · simpa [hphase, Phase.ownsOrigin] using horigin
  · simpa [hphase] using hglobal

/-- When every acquisition is finished, every semaphore is as it was made. -/
theorem Balanced.idle (h : Balanced limits gate)
    (hfinished : ∀ acquisition ∈ gate.acquisitions, acquisition.phase = .finished) {k : Nat}
    {semaphore : Semaphore} (hk : gate.semaphores[k]? = some semaphore) :
    some semaphore = (limits.limit k).map Semaphore.new := by
  have hnobody : ∀ w, ¬ semaphore.Waits w := by
    intro w hwaits
    obtain ⟨acquisition, hw, hawaited⟩ := (h.waits k semaphore hk w).mp hwaits
    have hphase := hfinished acquisition (List.mem_iff_getElem?.mpr ⟨w, hw⟩)
    simp [Acquisition.awaited, hphase] at hawaited
  have hempty : semaphore.queue ++ semaphore.assigned = [] :=
    List.eq_nil_iff_forall_not_mem.mpr hnobody
  obtain ⟨hqueue, hassigned⟩ := List.append_eq_nil_iff.mp hempty
  have hnone : (gate.acquisitions.map (Acquisition.permits k)).sum = 0 := by
    rw [List.sum_eq_zero_iff_forall_eq_nat]
    intro count hcount
    obtain ⟨acquisition, hmem, rfl⟩ := List.mem_map.mp hcount
    obtain ⟨-, horigin, hglobal⟩ := h.finished_empty hmem (hfinished acquisition hmem)
    simp [Acquisition.permits, horigin, hglobal]
  rw [h.balance k semaphore hk, hnone, Option.map_some, Option.some.injEq]
  cases semaphore
  simp_all [Semaphore.new, Semaphore.free]

/-- An acquisition that has failed or that drops its permit is never held up. -/
theorem Balanced.drop_advances (h : Balanced limits gate) {i : Nat} {acquisition : Acquisition}
    (hi : gate.acquisitions[i]? = some acquisition)
    (hphase : acquisition.phase = .droppingOrigin ∨ acquisition.phase = .droppingArc) :
    ∃ next, gate.step limits (.advance i) = some next := by
  have hadvance : gate.step limits (.advance i) = gate.advance limits i acquisition := by
    simp [ConnectionGate.step, hi]
  rw [hadvance]
  rcases hphase with hphase | hphase
  · cases hpermit : acquisition.originPermit with
    | none =>
        exact ⟨_, by
          simp only [ConnectionGate.advance, hphase, ConnectionGate.dropOrigin, hpermit]
          rfl⟩
    | some k =>
        obtain ⟨origin, -, hfound⟩ :=
          h.shared acquisition (List.mem_iff_getElem?.mpr ⟨i, hi⟩) k (Or.inr hpermit)
        have hlt := (h.entries _ (mem_of_lookup hfound)).1
        exact ⟨_, by
          simp only [ConnectionGate.advance, hphase, ConnectionGate.dropOrigin, hpermit,
            List.getElem?_eq_getElem hlt]
          rfl⟩
  · exact ⟨_, by
      simp only [ConnectionGate.advance, hphase]
      rfl⟩

end Caps

/-- The caps of the connection gate.  In every state of every interleaving the
outstanding permits are within both limits.  No step takes the semaphore of an origin
out of the map while an acquisition waits for it or has its permit, so two outstanding
permits of one origin come from one semaphore.  Free and held permits of a semaphore
add up to its limit, its queue knows only acquisitions at their await points, and an
acquisition that is finished, whether it failed, was cancelled or dropped its permit,
holds nothing; on its way there nothing holds it up. -/
theorem connection_gate_caps (limits : Limits) (events : List ConnectionGate.Event)
    (gate : ConnectionGate) (hrun : (ConnectionGate.system limits).run events = some gate) :
    (∀ limit, limits.maxConnections = some limit →
      gate.acquisitions.countP Acquisition.outstanding ≤ limit) ∧
    (∀ limit, limits.maxConnectionsPerHost = some limit → ∀ origin,
      gate.acquisitions.countP (fun acquisition =>
        acquisition.outstanding && acquisition.origin == some origin) ≤ limit) ∧
    (∀ event next, gate.step limits event = some next → ∀ origin k,
      gate.gates.lookup origin = some k → next.gates.lookup origin ≠ some k →
        ∀ acquisition ∈ gate.acquisitions, acquisition.origin = some origin →
          acquisition.usesOrigin = false) ∧
    (limits.maxConnectionsPerHost.isSome = true → ∀ first ∈ gate.acquisitions,
      ∀ second ∈ gate.acquisitions, first.outstanding = true → second.outstanding = true →
        first.origin = second.origin → first.originPermit = second.originPermit) ∧
    (∀ k semaphore, gate.semaphores[k]? = some semaphore →
      limits.limit k = some (semaphore.available + semaphore.assigned.length +
        (gate.acquisitions.map (Acquisition.permits k)).sum) ∧
      ∀ w, semaphore.Waits w → ∃ acquisition, gate.acquisitions[w]? = some acquisition ∧
        acquisition.awaited limits = some k) ∧
    (∀ acquisition ∈ gate.acquisitions, acquisition.phase = .finished →
      acquisition.semaphore = none ∧ acquisition.originPermit = none ∧
        acquisition.globalPermit = none) ∧
    ((∀ acquisition ∈ gate.acquisitions, acquisition.phase = .finished) →
      ∀ k semaphore, gate.semaphores[k]? = some semaphore →
        some semaphore = (limits.limit k).map Semaphore.new) ∧
    (∀ i acquisition, gate.acquisitions[i]? = some acquisition →
      acquisition.phase = .droppingOrigin ∨ acquisition.phase = .droppingArc →
        ∃ next, gate.step limits (.advance i) = some next) := by
  have h := balanced_of_reachable (TransitionSystem.reachable_of_run hrun)
  refine ⟨fun limit hlimit => h.outstanding_le hlimit,
    fun limit hlimit origin => h.outstanding_per_host_le hlimit origin, ?_, ?_, ?_,
    fun acquisition hmem hphase => h.finished_empty hmem hphase,
    fun hfinished k semaphore hk => h.idle hfinished hk,
    fun i acquisition hi hphase => h.drop_advances hi hphase⟩
  · intro event next hstep origin k hfound hremoved acquisition hmem horigin
    exact h.not_removed hstep hfound hremoved hmem horigin
  · intro hconfigured first hfirst second hsecond houtFirst houtSecond hsame
    cases horigin : first.origin with
    | none =>
        have hnone : ∀ acquisition ∈ gate.acquisitions, acquisition.origin = none →
            acquisition.originPermit = none := by
          intro acquisition hmem hno
          simpa [Acquisition.limited, hno] using (h.shaped acquisition hmem).originPermit
        rw [hnone first hfirst horigin, hnone second hsecond (hsame ▸ horigin)]
    | some origin =>
        obtain ⟨j, hj, hfoundFirst⟩ :=
          h.originPermit_of_outstanding hfirst houtFirst horigin hconfigured
        obtain ⟨k, hk, hfoundSecond⟩ :=
          h.originPermit_of_outstanding hsecond houtSecond (hsame ▸ horigin) hconfigured
        rw [hj, hk, ← hfoundFirst, hfoundSecond]
  · intro k semaphore hk
    exact ⟨h.balance k semaphore hk, fun w => (h.waits k semaphore hk w).mp⟩

/-- One connection in all and one per host. -/
def exampleLimits : Limits := ⟨some 1, some 1⟩

/-- Two calls for one origin.  The second waits, is given the permit of the first when
that is dropped, and is cancelled before it takes it up. -/
def exampleEvents : List ConnectionGate.Event :=
  [.call (some "a"), .call (some "a"), .advance 0, .advance 0, .advance 0, .advance 0,
    .advance 1, .advance 1, .advance 1, .advance 0, .advance 0, .leave 1, .advance 1, .advance 0]

/-- Where the example ends: both permits are back. -/
def exampleGate : ConnectionGate :=
  ⟨[.new 1, .new 1], some 0, [("a", 1)], none,
    [⟨some "a", none, none, none, .finished⟩, ⟨some "a", none, none, none, .finished⟩]⟩

theorem connection_gate_caps_example :
    (ConnectionGate.system exampleLimits).run exampleEvents = some exampleGate ∧
      exampleGate.acquisitions.countP Acquisition.outstanding ≤ 1 := by
  have hrun : (ConnectionGate.system exampleLimits).run exampleEvents = some exampleGate := by
    decide
  exact ⟨hrun, (connection_gate_caps exampleLimits exampleEvents exampleGate hrun).1 1 rfl⟩

end FogHttp.ConnectionLimit
