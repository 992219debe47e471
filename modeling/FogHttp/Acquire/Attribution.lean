import FogHttp.Acquire.Tally
import Mathlib.Data.List.Nodup

/-!
# The metrics account for all calls

The sums over the map are the numbers of outstanding permits and of waiters as long as the
map has the metrics of every call that has counted itself.

A cleanup keeps these, since they do not look idle.  It removes the metrics of a call that
has looked them up and has not counted itself yet, and of one whose permits were granted
and that is no longer counted as pending.  `Mapped` is the invariant of the runs in which
this does not happen, and `origin_diagnostics_account` is what follows.  In
`account_missing_permit` it happens, and an outstanding permit is in no sum.
-/

namespace FogHttp.Acquire

open Lib

/-! ## Every run -/

/-- The counters of all metrics are right, whether they are in the map or not. -/
structure Counted (metered : MeteredGate) : Prop where
  matched : Matched metered.gate
  aligned : Aligned metered.gate.parties metered.calls
  tallied : Tallied metered.registry metered.calls
  keyed : WellKeyed metered.registry

theorem counted_new (config : GateConfig) : Counted (.new config) where
  matched := matched_new config
  aligned := ⟨rfl, by simp [MeteredGate.new]⟩
  tallied := ⟨by simp [MeteredGate.new, OriginMetricsRegistry.new],
    by simp [MeteredGate.new, OriginMetricsRegistry.new], by simp [MeteredGate.new]⟩
  keyed := ⟨by simp [MeteredGate.new, OriginMetricsRegistry.new], List.nodup_nil,
    List.nodup_nil⟩

/-- A section of the gate, in which party `i` becomes `new`. -/
structure Replaces (gate : Gate) (i : Nat) (party new : Party) (next : Gate) : Prop where
  found : gate.parties[i]? = some party
  parties : next.parties.map Party.view = (gate.parties.set i new).map Party.view
  origin : new.origin = party.origin
  matched : Matched next

/-- What a step does. -/
inductive MeteredStep (metered : MeteredGate) : MeteredGate.Event → MeteredGate → Prop where
  | call (origin : Text) :
      MeteredStep metered (.call origin) { metered with
        gate := { metered.gate with parties := metered.gate.parties ++ [.call origin] }
        calls := metered.calls ++ [MeteredCall.mk origin .looking] }
  | access {i : Nat} {party : Party} {call : MeteredCall} {next : MeteredGate}
      (found : metered.gate.parties[i]? = some party) (called : metered.calls[i]? = some call)
      (access : Access metered i call party.phase next) : MeteredStep metered (.metrics i) next
  /-- A section in which the stage of the call stays. -/
  | advance {event : MeteredGate.Event} {i : Nat} {party new : Party} {call : MeteredCall}
      {gate : Gate} (called : metered.calls[i]? = some call)
      (replaces : Replaces metered.gate i party new gate)
      (fits : call.stage.fits new.phase = true) : MeteredStep metered event { metered with gate }
  /-- A call fails before it has counted itself. -/
  | fail {event : MeteredGate.Event} {i m : Nat} {party new : Party} {call : MeteredCall}
      {gate : Gate} (called : metered.calls[i]? = some call)
      (replaces : Replaces metered.gate i party new gate) (stage : call.stage = .found m)
      (phase : new.phase = .finished) :
      MeteredStep metered event ({ metered with gate }.setStage i call .done)
  | register {i m : Nat} {party new : Party} {call : MeteredCall} {gate : Gate}
      (called : metered.calls[i]? = some call)
      (replaces : Replaces metered.gate i party new gate) (stage : call.stage = .found m)
      (phase : new.phase = .looping) :
      MeteredStep metered (.advance i)
        (({ metered with gate }.update m .pendingRequestStarted).setStage i call (.pending m))
  | metricsFor (origin : Text) :
      MeteredStep metered (.metricsFor origin)
        { metered with registry := (metered.registry.metricsFor origin).2 }
  | connections (m count : Nat) :
      MeteredStep metered (.connections m count)
        (metered.update m fun metrics => { metrics with activeConnections := count })

section Inversion

variable {config : GateConfig} {metered next : MeteredGate}

/-- A section of the gate replaces a party and keeps the counts of its queue. -/
theorem GateSection.replaces {full : Prop} {gate after : Gate} {i : Nat} {party new : Party}
    (h : GateSection full gate i party new after) (hmatched : Matched gate)
    (hi : gate.parties[i]? = some party) : Replaces gate i party new after :=
  ⟨hi, h.parties, h.origin, hmatched.replace hi h.parties h.queue⟩

/-- A section that changes the phase of a party without a change of the queue. -/
theorem replaces_put {gate : Gate} {i : Nat} {party new : Party} (hmatched : Matched gate)
    (hi : gate.parties[i]? = some party) (horigin : new.origin = party.origin)
    (hqueue : new.queueId = party.queueId) : Replaces gate i party new (gate.put i new) :=
  ⟨hi, rfl, horigin, hmatched.replace hi rfl fun ids => by rw [hqueue]; rfl⟩

theorem meteredStep_of_advance (h : Counted metered) {i : Nat} {party : Party}
    {call : MeteredCall} (hi : metered.gate.parties[i]? = some party)
    (hcall : metered.calls[i]? = some call)
    (hstep : metered.advance config i party call = some next) :
    MeteredStep metered (.advance i) next := by
  unfold MeteredGate.advance at hstep
  split at hstep
  case isFalse => cases hstep
  rename_i hlets
  rw [Option.map_eq_some_iff] at hstep
  obtain ⟨gate, hgate, hnext⟩ := hstep
  obtain ⟨new, hsection⟩ := gateSection_of_advance h.matched hi hgate
  have hreplaces := hsection.replaces h.matched hi
  have hphase := hsection.phase
  split at hnext
  · rename_i m blockedBy hstage hregistering
    rw [hregistering] at hphase
    generalize hafter : new.phase = after at hphase
    split at hnext
    · rename_i hfull
      subst hnext
      cases hphase with
      | rejected => exact .fail hcall hreplaces hstage hafter
      | registered _ hroom => exact absurd hfull hroom
    · rename_i hroom
      subst hnext
      cases hphase with
      | rejected _ hfull => exact absurd hfull hroom
      | registered => exact .register hcall hreplaces hstage hafter
  · rename_i hother
    subst hnext
    refine .advance hcall hreplaces (MetricsStage.fits_of_lets hlets hphase ?_)
    intro blockedBy hregistering
    rw [hregistering] at hlets
    cases hstage : call.stage with
    | found m => exact hother m blockedBy hstage hregistering
    | _ =>
        rw [hstage] at hlets
        cases hlets

/-- The inversion lemma of the metered gate. -/
theorem meteredStep_of_step (h : Counted metered) {event : MeteredGate.Event}
    (hstep : metered.step config event = some next) : MeteredStep metered event next := by
  cases event with
  | call origin => exact Option.some.inj hstep ▸ .call origin
  | metrics i =>
      simp only [MeteredGate.step, Option.bind_eq_bind, Option.bind_eq_some_iff] at hstep
      obtain ⟨party, hi, call, hcall, haccess⟩ := hstep
      have hfits := (h.aligned.fits i party call hi hcall).2
      exact .access hi hcall (access_of_accessMetrics hfits haccess)
  | advance i =>
      simp only [MeteredGate.step, Option.bind_eq_bind, Option.bind_eq_some_iff] at hstep
      obtain ⟨party, hi, call, hcall, hadvance⟩ := hstep
      exact meteredStep_of_advance h hi hcall hadvance
  | expire i =>
      simp only [MeteredGate.step, Gate.step, Option.bind_eq_bind, Option.bind_eq_some_iff]
        at hstep
      obtain ⟨call, hcall, gate, ⟨party, hi, hgate⟩, hnext⟩ := hstep
      split at hgate
      · rename_i queueWasEmpty hphase
        have hfits := (h.aligned.fits i party call hi hcall).2
        rw [hphase] at hfits
        obtain ⟨m, hstage⟩ : ∃ m, call.stage = .found m := by
          cases hstage : call.stage with
          | found m => exact ⟨m, rfl⟩
          | _ =>
              rw [hstage] at hfits
              cases hfits
        rw [← Option.some.inj hnext, ← Option.some.inj hgate]
        refine .fail hcall (replaces_put h.matched hi rfl ?_) hstage rfl
        exact queueId_eq_of_not_queued (by rw [hphase]; rfl) rfl
      · cases hgate
  | abandon i =>
      simp only [MeteredGate.step, Gate.step, Option.bind_eq_bind, Option.bind_eq_some_iff]
        at hstep
      obtain ⟨gate, ⟨party, hi, hgate⟩, hnext⟩ := hstep
      split at hgate
      · rename_i hphase
        have hlt : i < metered.calls.length := by
          rw [h.aligned.length]
          exact (List.getElem?_eq_some_iff.mp hi).1
        have hcall := List.getElem?_eq_getElem hlt
        have hfits := (h.aligned.fits i party _ hi hcall).2
        rw [hphase] at hfits
        rw [← Option.some.inj hnext, ← Option.some.inj hgate]
        refine .advance hcall (replaces_put h.matched hi rfl ?_) ?_
        · rw [Party.queueId_of_queued rfl, Party.queueId_of_queued (by rw [hphase]; rfl)]
        · generalize metered.calls[i].stage = stage at hfits
          cases stage <;> first | rfl | cases hfits
      · cases hgate
  | metricsFor origin => exact Option.some.inj hstep ▸ .metricsFor origin
  | connections m count => exact Option.some.inj hstep ▸ .connections m count

end Inversion

section Counts

variable {config : GateConfig} {metered next : MeteredGate}

theorem Counted.call (h : Counted metered) (origin : Text) :
    Counted { metered with
      gate := { metered.gate with parties := metered.gate.parties ++ [.call origin] }
      calls := metered.calls ++ [MeteredCall.mk origin .looking] } where
  matched := by
    intro ids
    show metered.gate.waiters.countP _ = (metered.gate.parties ++ [Party.call origin]).countP _
    rw [List.countP_append, ← h.matched ids]
    rfl
  aligned := by
    refine ⟨by simp [h.aligned.length], ?_⟩
    intro i party call hi hcall
    rcases getElem?_push_cases hi with hi | ⟨rfl, rfl⟩
    · rcases getElem?_push_cases hcall with hcall | ⟨rfl, -⟩
      · exact h.aligned.fits i party call hi hcall
      · have hlt := (List.getElem?_eq_some_iff.mp hi).1
        rw [h.aligned.length] at hlt
        exact absurd hlt (Nat.lt_irrefl _)
    · rw [← h.aligned.length, List.getElem?_concat_length, Option.some.injEq] at hcall
      subst hcall
      exact ⟨rfl, rfl⟩
  tallied := h.tallied.newCall origin
  keyed := h.keyed

theorem Counted.access (h : Counted metered) {i : Nat} {party : Party} {call : MeteredCall}
    (hi : metered.gate.parties[i]? = some party) (hcall : metered.calls[i]? = some call)
    (haccess : Access metered i call party.phase next) : Counted next := by
  have hmem := List.mem_of_getElem? hcall
  have hfits := (h.aligned.fits i party call hi hcall).2
  cases haccess with
  | hit hstage m hlookup =>
      rw [hstage] at hfits
      refine ⟨h.matched, h.aligned.restage hi hcall ?_, h.tallied.restage hcall ?_ ?_ ?_, h.keyed⟩
      · cases hphase : party.phase <;> rw [hphase] at hfits <;> first | rfl | cases hfits
      · simp [hstage]
      · simp
      · intro k hk
        obtain rfl : m = k := Option.some.inj hk
        exact h.keyed.entries _ (mem_of_lookup hlookup)
  | miss hstage =>
      rw [hstage] at hfits
      refine ⟨h.matched, h.aligned.restage hi hcall ?_, h.tallied.restage hcall ?_ ?_ ?_, h.keyed⟩
      · cases hphase : party.phase <;> rw [hphase] at hfits <;> first | rfl | cases hfits
      · simp [hstage]
      · simp
      · intro k hk
        cases hk
  | insert hstage =>
      rw [hstage] at hfits
      have hkeyed := h.keyed.metricsFor call.origin
      refine ⟨h.matched, h.aligned.restage hi hcall ?_,
        (h.tallied.metricsFor call.origin).restage hcall ?_ ?_ ?_, hkeyed⟩
      · cases hphase : party.phase <;> rw [hphase] at hfits <;> first | rfl | cases hfits
      · simp [hstage]
      · simp
      · intro k hk
        obtain rfl : (metered.registry.metricsFor call.origin).1 = k := Option.some.inj hk
        exact hkeyed.entries _ (mem_of_lookup (metered.registry.lookup_metricsFor call.origin))
  | count m haccess =>
      exact ⟨h.matched, h.aligned.restage hi hcall haccess.fits,
        h.tallied.recount hcall haccess.handle.1 haccess.handle.2 fun metrics hm =>
          haccess.recount h.tallied hmem hm, h.keyed.update m _⟩

/-- The step lemma of the counters. -/
theorem Counted.step (h : Counted metered) {event : MeteredGate.Event}
    (hstep : MeteredStep metered event next) : Counted next := by
  cases hstep with
  | call origin => exact h.call origin
  | access hi hcall haccess => exact h.access hi hcall haccess
  | advance hcall hreplaces hfits =>
      exact ⟨hreplaces.matched,
        h.aligned.advance hreplaces.found hcall hreplaces.parties hreplaces.origin hfits,
        h.tallied, h.keyed⟩
  | fail hcall hreplaces hstage hphase =>
      refine ⟨hreplaces.matched,
        h.aligned.replace hreplaces.found hcall hreplaces.parties hreplaces.origin ?_,
        h.tallied.restage hcall ?_ ?_ ?_, h.keyed⟩
      · rw [hphase]
        rfl
      · simp [hstage]
      · simp
      · intro k hk
        cases hk
  | @register i m _ _ call _ hcall hreplaces hstage hphase =>
      refine ⟨hreplaces.matched,
        h.aligned.replace hreplaces.found hcall hreplaces.parties hreplaces.origin ?_,
        h.tallied.recount hcall (by rw [hstage]; rfl) (Or.inl rfl) ?_, h.keyed.update m _⟩
      · rw [hphase]
        rfl
      · intro metrics _
        rw [hstage]
        refine ⟨rfl, ?_⟩
        rw [beq_self_eq_true]
        rfl
  | metricsFor origin =>
      exact ⟨h.matched, h.aligned, h.tallied.metricsFor origin, h.keyed.metricsFor origin⟩
  | connections m count =>
      refine ⟨h.matched, h.aligned, ?_, h.keyed.update m _⟩
      have hsame : ∀ (k : Nat) (changed : OriginMetrics),
          (metered.registry.metrics.modify m fun metrics =>
            { metrics with activeConnections := count })[k]? = some changed →
          ∃ metrics : OriginMetrics, metered.registry.metrics[k]? = some metrics ∧
            changed.activeRequests = metrics.activeRequests ∧
            changed.pendingRequests = metrics.pendingRequests := by
        intro k changed hk
        by_cases hmk : m = k
        · subst hmk
          rw [List.getElem?_modify_eq, Option.map_eq_map, Option.map_eq_some_iff] at hk
          obtain ⟨metrics, hm, rfl⟩ := hk
          exact ⟨metrics, hm, rfl, rfl⟩
        · rw [List.getElem?_modify_ne _ _ hmk] at hk
          exact ⟨changed, hk, rfl, rfl⟩
      refine ⟨?_, ?_, ?_⟩
      · intro k changed hk
        obtain ⟨metrics, hm, hactive, -⟩ := hsame k changed hk
        rw [hactive]
        exact h.tallied.active k metrics hm
      · intro k changed hk
        obtain ⟨metrics, hm, -, hpending⟩ := hsame k changed hk
        rw [hpending]
        exact h.tallied.pending k metrics hm
      · intro call hmem k hk
        show k < (metered.registry.metrics.modify m _).length
        rw [List.length_modify]
        exact h.tallied.handles call hmem k hk

theorem counted_of_reachable (h : (MeteredGate.system config).Reachable metered) :
    Counted metered := by
  refine h.invariant Counted (counted_new config) ?_
  intro state after event _ hstate hstep
  exact hstate.step (meteredStep_of_step hstate hstep)

end Counts

/-! ## Runs that keep metrics in use -/

/-- The map has the metrics that a call will still update. -/
def Mapped (metered : MeteredGate) : Prop :=
  ∀ call ∈ metered.calls, ∀ m, call.stage.handle = some m →
    metered.registry.origins.lookup call.origin = some m

section Maps

variable {metered next : MeteredGate}

/-- A call that takes no other metrics than it holds. -/
theorem Mapped.restage (h : Mapped metered) {i : Nat} {call : MeteredCall}
    {stage : MetricsStage} (hcall : metered.calls[i]? = some call) (after : MeteredGate)
    (horigins : after.registry.origins = metered.registry.origins)
    (hcalls : after.calls = metered.calls.set i { call with stage })
    (hhandle : stage.handle = call.stage.handle ∨ stage.handle = none) : Mapped after := by
  unfold Mapped
  rw [hcalls, horigins]
  refine forall_mem_set h ?_
  intro m hm
  rcases hhandle with hhandle | hhandle
  · exact h call (List.mem_of_getElem? hcall) m (hhandle.symm.trans hm)
  · rw [hhandle] at hm
    cases hm

/-- A lookup that removes no metrics in use keeps all of them in the map. -/
theorem Mapped.metricsFor (h : Mapped metered) (hcounted : Counted metered)
    {event : MeteredGate.Event} {origin : Text} (hlookup : metered.writeLookup event = some origin)
    (hkeeps : metered.keepsHeld event = true) :
    Mapped { metered with registry := (metered.registry.metricsFor origin).2 } := by
  intro call hmem m hm
  refine OriginMetricsRegistry.lookup_metricsFor_of_not_prunes (h call hmem m hm) ?_
  unfold MeteredGate.keepsHeld at hkeeps
  rw [hlookup, Option.all_some, List.all_eq_true] at hkeeps
  have hcall := hkeeps call hmem
  cases hstage : call.stage with
  | found k =>
      rw [hstage] at hcall hm
      obtain rfl : k = m := Option.some.inj hm
      simpa using hcall
  | pending k =>
      rw [hstage] at hm
      obtain rfl : k = m := Option.some.inj hm
      simp [OriginMetricsRegistry.prunes, hcounted.tallied.not_isIdle hmem (Or.inl hstage)]
  | active k =>
      rw [hstage] at hm
      obtain rfl : k = m := Option.some.inj hm
      simp [OriginMetricsRegistry.prunes, hcounted.tallied.not_isIdle hmem (Or.inr hstage)]
  | looking | missed | done =>
      rw [hstage] at hm
      cases hm

/-- The step lemma of the map. -/
theorem Mapped.step (h : Mapped metered) (hcounted : Counted metered)
    {event : MeteredGate.Event} (hkeeps : metered.keepsHeld event = true)
    (hstep : MeteredStep metered event next) : Mapped next := by
  cases hstep with
  | call origin =>
      intro call hmem m hm
      rcases List.mem_append.mp hmem with hmem | hmem
      · exact h call hmem m hm
      · obtain rfl := List.mem_singleton.mp hmem
        cases hm
  | @access i _ call _ hi hcall haccess =>
      cases haccess with
      | hit hstage m hlookup =>
          refine forall_mem_set h ?_
          intro k hk
          obtain rfl : m = k := Option.some.inj hk
          exact hlookup
      | miss hstage => exact h.restage hcall _ rfl rfl (Or.inr rfl)
      | insert hstage =>
          have hwrite : metered.writeLookup (.metrics i) = some call.origin := by
            simp [MeteredGate.writeLookup, hcall, hstage]
          refine forall_mem_set (h.metricsFor hcounted hwrite hkeeps) ?_
          intro k hk
          obtain rfl : (metered.registry.metricsFor call.origin).1 = k := Option.some.inj hk
          exact metered.registry.lookup_metricsFor call.origin
      | count m haccess =>
          obtain ⟨hbefore, hafter⟩ := haccess.handle
          rw [← hbefore] at hafter
          exact h.restage hcall _ rfl rfl hafter
  | advance => exact h
  | fail hcall _ _ _ => exact h.restage hcall _ rfl rfl (Or.inr rfl)
  | register hcall _ hstage _ =>
      exact h.restage hcall _ rfl rfl (Or.inl (by rw [hstage]; rfl))
  | metricsFor origin => exact h.metricsFor hcounted rfl hkeeps
  | connections => exact h

end Maps

/-! ## The sums -/

section Sums

variable {metered : MeteredGate} {registry : OriginMetricsRegistry} {calls : List MeteredCall}

/-- The calls that are counted in metrics `m` by a counter with this stage are those of the
origin of `m`. -/
theorem Mapped.stage_iff (h : Mapped metered) (hkeyed : WellKeyed metered.registry)
    {counted : Nat → MetricsStage} (hhandle : ∀ m, (counted m).handle = some m)
    {entry : Text × Nat} (hentry : entry ∈ metered.registry.origins) {call : MeteredCall}
    (hcall : call ∈ metered.calls) :
    call.stage = counted entry.2 ↔ (∃ m, call.stage = counted m) ∧ call.origin = entry.1 := by
  have hlookup := lookup_of_mem hkeyed.keys hentry
  constructor
  · intro hstage
    refine ⟨⟨_, hstage⟩, ?_⟩
    have hmem := mem_of_lookup (h call hcall entry.2 (hstage ▸ hhandle _))
    exact congrArg Prod.fst (List.inj_on_of_nodup_map hkeyed.values hmem hentry rfl)
  · rintro ⟨⟨m, hstage⟩, horigin⟩
    have hown := h call hcall m (hstage ▸ hhandle m)
    rw [horigin, hlookup, Option.some.injEq] at hown
    rw [hstage, hown]

/-- The metrics of a call that counts itself are in the map. -/
theorem Mapped.any_stage (h : Mapped metered) {counted : Nat → MetricsStage}
    (hhandle : ∀ m, (counted m).handle = some m) {call : MeteredCall} {m : Nat}
    (hcall : call ∈ metered.calls) (hstage : call.stage = counted m) :
    (metered.registry.origins.map Prod.snd).any (fun k => call.stage == counted k) = true := by
  have hmem := mem_of_lookup (h call hcall m (hstage ▸ hhandle m))
  rw [List.any_eq_true]
  exact ⟨m, List.mem_map.mpr ⟨_, hmem, rfl⟩, beq_iff_eq.mpr hstage⟩

/-- A sum over the map counts the calls at the stages of its counter. -/
theorem Mapped.total_eq (h : Mapped metered) (hkeyed : WellKeyed metered.registry)
    {counted : Nat → MetricsStage} (hhandle : ∀ m, (counted m).handle = some m)
    {counter : OriginMetrics → Nat} {p : MeteredCall → Bool}
    (hcounter : ∀ (m : Nat) (metrics : OriginMetrics),
      metered.registry.metrics[m]? = some metrics →
        counter metrics = metered.calls.countP fun call => call.stage == counted m)
    (hp : ∀ call : MeteredCall, p call = true ↔ ∃ m, call.stage = counted m) :
    metered.registry.total counter = metered.calls.countP p := by
  have hdisjoint : ∀ i j (call : MeteredCall), (call.stage == counted i) = true →
      (call.stage == counted j) = true → i = j := by
    intro i j call hi hj
    have hsame : counted i = counted j := (beq_iff_eq.mp hi).symm.trans (beq_iff_eq.mp hj)
    have hhandles := congrArg MetricsStage.handle hsame
    rwa [hhandle, hhandle, Option.some.injEq] at hhandles
  calc metered.registry.total counter
      = ((metered.registry.origins.map Prod.snd).map fun m =>
          metered.calls.countP fun call => call.stage == counted m).sum := by
        unfold OriginMetricsRegistry.total
        rw [List.map_map]
        refine congrArg List.sum (List.map_congr_left fun entry hentry => ?_)
        have hm := List.getElem?_eq_getElem (hkeyed.entries entry hentry)
        rw [hm, Option.map_some, Option.getD_some, hcounter entry.2 _ hm]
        rfl
    _ = metered.calls.countP fun call =>
          (metered.registry.origins.map Prod.snd).any fun m => call.stage == counted m :=
        sum_map_countP hdisjoint hkeyed.values _
    _ = metered.calls.countP p := by
        refine List.countP_congr fun call hcall => ?_
        rw [hp call]
        constructor
        · intro hany
          obtain ⟨m, -, hstage⟩ := List.any_eq_true.mp hany
          exact ⟨m, beq_iff_eq.mp hstage⟩
        · rintro ⟨m, hstage⟩
          exact h.any_stage hhandle hcall hstage

/-- The counter of an entry of the map counts the calls of its origin. -/
theorem Mapped.counter_eq (h : Mapped metered) (hkeyed : WellKeyed metered.registry)
    {counted : Nat → MetricsStage} (hhandle : ∀ m, (counted m).handle = some m)
    {p : MeteredCall → Bool}
    (hp : ∀ call : MeteredCall, p call = true ↔ ∃ m, call.stage = counted m)
    {entry : Text × Nat} (hentry : entry ∈ metered.registry.origins) :
    metered.calls.countP (fun call => call.stage == counted entry.2) =
      metered.calls.countP fun call => p call && call.origin == entry.1 := by
  refine List.countP_congr fun call hcall => ?_
  rw [beq_iff_eq, h.stage_iff hkeyed hhandle hentry hcall, Bool.and_eq_true, hp call,
    beq_iff_eq]

theorem MeteredCall.outstanding_iff (call : MeteredCall) :
    call.outstanding = true ↔ ∃ m, call.stage = .active m := by
  unfold outstanding
  split <;> simp_all

theorem MeteredCall.waiting_iff (call : MeteredCall) :
    call.waiting = true ↔ ∃ m, call.stage = .pending m := by
  unfold waiting
  split <;> simp_all

/-- In a settled state the waiters are the entries of the queue. -/
theorem Counted.countP_waiting (h : Counted metered) (hsettled : metered.settled = true) :
    metered.calls.countP MeteredCall.waiting = metered.gate.waiters.length := by
  have hqueue := h.matched fun _ => true
  rw [List.countP_true] at hqueue
  rw [hqueue]
  refine countP_eq_of_positions h.aligned.length ?_
  intro i call party hcall hi
  have hfits := (h.aligned.fits i party call hi hcall).2
  have hpair : (call, party) ∈ metered.calls.zip metered.gate.parties := by
    refine List.mem_iff_getElem?.mpr ⟨i, ?_⟩
    rw [List.getElem?_zip_eq_some]
    exact ⟨hcall, hi⟩
  have hcallSettled := List.all_eq_true.mp hsettled _ hpair
  dsimp only at hcallSettled
  unfold MeteredCall.waiting
  split
  · rename_i m hstage
    rw [hstage] at hcallSettled
    rw [Party.queueId_of_queued hcallSettled]
    rfl
  · rename_i hstage
    rw [Party.queueId_of_not_queued]
    · rfl
    · cases hphase : party.phase <;> first | rfl | skip
      all_goals
        rw [hphase] at hfits
        cases hcallStage : call.stage with
        | pending m => exact absurd hcallStage (hstage m)
        | _ =>
            rw [hcallStage] at hfits
            cases hfits

end Sums

/-- In a run in which no cleanup removes metrics that a call has looked up and will still
update, the metrics account for all permits and waiters in every settled state: the sums
over the map, the counters of each origin, and an entry for every call that is counted. -/
theorem origin_diagnostics_account (config : GateConfig) (events : List MeteredGate.Event)
    (metered : MeteredGate) (hrun : (MeteredGate.system config).run events = some metered)
    (halong : (MeteredGate.system config).along MeteredGate.keepsHeld (.new config) events =
      true)
    (hsettled : metered.settled = true) :
    (metered.registry.total OriginMetrics.activeRequests =
        metered.calls.countP MeteredCall.outstanding ∧
      metered.registry.total OriginMetrics.pendingRequests = metered.gate.waiters.length) ∧
    (∀ entry ∈ metered.registry.origins, ∃ metrics : OriginMetrics,
      metered.registry.metrics[entry.2]? = some metrics ∧
      metrics.activeRequests =
        metered.calls.countP (fun call => call.outstanding && call.origin == entry.1) ∧
      metrics.pendingRequests =
        metered.calls.countP fun call => call.waiting && call.origin == entry.1) ∧
    ∀ call ∈ metered.calls, (call.outstanding || call.waiting) = true →
      ∃ m, metered.registry.origins.lookup call.origin = some m := by
  have hcounted := counted_of_reachable (TransitionSystem.reachable_of_run hrun)
  have hmapped : Mapped metered := by
    refine TransitionSystem.invariant_of_along Mapped ?_ .init hrun halong ?_
    · intro state next event hreachable hstate hkeeps hstep
      have hstateCounted := counted_of_reachable hreachable
      exact hstate.step hstateCounted hkeeps (meteredStep_of_step hstateCounted hstep)
    · intro call hmem
      cases hmem
  have hactive := fun m => hcounted.tallied.active m
  have hpending := fun m => hcounted.tallied.pending m
  refine ⟨⟨?_, ?_⟩, ?_, ?_⟩
  · exact hmapped.total_eq hcounted.keyed (fun _ => rfl) hactive MeteredCall.outstanding_iff
  · rw [← hcounted.countP_waiting hsettled]
    exact hmapped.total_eq hcounted.keyed (fun _ => rfl) hpending MeteredCall.waiting_iff
  · intro entry hentry
    have hm := List.getElem?_eq_getElem (hcounted.keyed.entries entry hentry)
    refine ⟨_, hm, ?_, ?_⟩
    · rw [hactive _ _ hm]
      exact hmapped.counter_eq hcounted.keyed (fun _ => rfl) MeteredCall.outstanding_iff hentry
    · rw [hpending _ _ hm]
      exact hmapped.counter_eq hcounted.keyed (fun _ => rfl) MeteredCall.waiting_iff hentry
  · intro call hmem hcounts
    rcases (Bool.or_eq_true _ _).mp hcounts with houtstanding | hwaiting
    · obtain ⟨m, hstage⟩ := call.outstanding_iff.mp houtstanding
      exact ⟨m, hmapped call hmem m (by rw [hstage]; rfl)⟩
    · obtain ⟨m, hstage⟩ := call.waiting_iff.mp hwaiting
      exact ⟨m, hmapped call hmem m (by rw [hstage]; rfl)⟩

/-- One call of an origin has its permit, and another one waits. -/
def exampleMetered : List MeteredGate.Event :=
  [.call "a", .metrics 0, .metrics 0, .advance 0, .advance 0, .metrics 0, .call "a",
    .metrics 1, .advance 1, .advance 1, .advance 1, .advance 1]

theorem origin_diagnostics_account_example :
    ∃ metered, (MeteredGate.system exampleConfig).run exampleMetered = some metered ∧
      metered.registry.total OriginMetrics.activeRequests = 1 ∧
      metered.registry.total OriginMetrics.pendingRequests = 1 := by
  refine ⟨_, rfl, ?_⟩
  exact (origin_diagnostics_account exampleConfig exampleMetered _ rfl (by decide)
    (by decide)).1

/-! ## A permit that is in no sum -/

/-- A map with the metrics of `n` origins that nobody uses. -/
structure Crowded (registry : OriginMetricsRegistry) (n : Nat) : Prop where
  length : registry.origins.length = n
  metrics : registry.metrics = List.replicate n .new
  keys : ∀ entry ∈ registry.origins, entry.1.length < n
  entries : ∀ entry ∈ registry.origins, entry.2 < n

section Crowd

variable {registry : OriginMetricsRegistry} {n : Nat}

theorem Crowded.lookup (h : Crowded registry n) :
    registry.origins.lookup (List.replicate n 'b') = none := by
  rw [List.lookup_eq_none_iff]
  intro entry hmem
  rw [bne_iff_ne]
  rintro hsame
  have hlt := h.keys entry hmem
  rw [← hsame, List.length_replicate] at hlt
  exact Nat.lt_irrefl _ hlt

/-- A lookup below the threshold adds an entry. -/
theorem Crowded.grow (h : Crowded registry n) (hn : n < originPressureCleanupThreshold) :
    Crowded (registry.metricsFor (List.replicate n 'b')).2 (n + 1) := by
  have hlength : registry.metrics.length = n := by rw [h.metrics, List.length_replicate]
  unfold OriginMetricsRegistry.metricsFor
  rw [h.lookup, if_neg (by rw [h.length]; exact Nat.not_le.mpr hn)]
  refine ⟨?_, ?_, ?_, ?_⟩
  · exact congrArg Nat.succ h.length
  · show registry.metrics ++ [.new] = _
    rw [h.metrics, List.replicate_succ']
  · intro entry hmem
    rcases List.mem_cons.mp hmem with rfl | hmem
    · rw [List.length_replicate]
      exact Nat.lt_succ_self n
    · exact Nat.lt_succ_of_lt (h.keys entry hmem)
  · intro entry hmem
    rcases List.mem_cons.mp hmem with rfl | hmem
    · rw [hlength]
      exact Nat.lt_succ_self n
    · exact Nat.lt_succ_of_lt (h.entries entry hmem)

/-- A lookup at the threshold removes all other entries. -/
theorem Crowded.cleanup (h : Crowded registry n) (hn : originPressureCleanupThreshold ≤ n) :
    (registry.metricsFor (List.replicate n 'b')).2 =
      ⟨[(List.replicate n 'b', n)], List.replicate (n + 1) .new⟩ := by
  have hlength : registry.metrics.length = n := by rw [h.metrics, List.length_replicate]
  have hidle : registry.origins.filter (fun entry => !registry.isIdle entry.2) = [] := by
    rw [List.filter_eq_nil_iff]
    intro entry hmem
    unfold OriginMetricsRegistry.isIdle
    rw [h.metrics, List.getElem?_replicate_of_lt (h.entries entry hmem)]
    decide
  unfold OriginMetricsRegistry.metricsFor
  rw [h.lookup, if_pos (by rw [h.length]; exact hn), hidle]
  dsimp only
  rw [hlength, h.metrics, List.replicate_succ']

end Crowd

/-- Lookups of new origins. -/
def crowd (n : Nat) : List MeteredGate.Event :=
  (List.range n).map fun k => .metricsFor (List.replicate (k + 1) 'b')

theorem crowd_succ (n : Nat) :
    crowd (n + 1) = crowd n ++ [.metricsFor (List.replicate (n + 1) 'b')] := by
  unfold crowd
  rw [List.range_succ, List.map_append]
  rfl

/-- The lookups of `n` new origins leave the gate and the calls alone. -/
theorem run_crowd (config : GateConfig) (metered : MeteredGate) (n : Nat)
    (hn : n < originPressureCleanupThreshold) (h : Crowded metered.registry 1) :
    ∃ registry, (crowd n).foldlM (MeteredGate.step config) metered =
      some { metered with registry } ∧ Crowded registry (n + 1) := by
  induction n with
  | zero => exact ⟨metered.registry, rfl, h⟩
  | succ n ih =>
      obtain ⟨registry, hrun, hcrowded⟩ := ih (Nat.lt_of_succ_lt hn)
      refine ⟨_, ?_, hcrowded.grow hn⟩
      rw [crowd_succ, List.foldlM_append, hrun]
      rfl

/-- With one more lookup only the metrics of its origin are in the map. -/
theorem run_crowd_cleanup (config : GateConfig) (metered : MeteredGate)
    (h : Crowded metered.registry 1) :
    (crowd originPressureCleanupThreshold).foldlM (MeteredGate.step config) metered =
      some { metered with registry :=
        ⟨[(List.replicate originPressureCleanupThreshold 'b', originPressureCleanupThreshold)],
          List.replicate (originPressureCleanupThreshold + 1) .new⟩ } := by
  obtain ⟨n, hn⟩ : ∃ n, originPressureCleanupThreshold = n + 1 := ⟨1023, rfl⟩
  have hlt : n < originPressureCleanupThreshold := by rw [hn]; exact n.lt_succ_self
  obtain ⟨registry, hrun, hcrowded⟩ := run_crowd config metered n hlt h
  rw [hn, crowd_succ, List.foldlM_append, hrun, ← hcrowded.cleanup (Nat.le_of_eq hn)]
  rfl

/-- The call has looked its metrics up. -/
def lookedUp : MeteredGate where
  gate := ⟨⟨1, []⟩, [], 1, [], [.call []]⟩
  registry := ⟨[([], 0)], [.new]⟩
  calls := [⟨[], .found 0⟩]

/-- The map has an entry of another origin only, and the call has its permit. -/
def missingPermit (n : Nat) : MeteredGate where
  gate := ⟨⟨0, []⟩, [], 1, [], [⟨[], none, 0, .new, .holding⟩]⟩
  registry := OriginMetricsRegistry.update
    ⟨[(List.replicate n 'b', n)], List.replicate (n + 1) .new⟩ 0 .activeRequestStarted
  calls := [⟨[], .active 0⟩]

theorem total_missingPermit {n : Nat} (hn : 0 ≠ n) :
    (missingPermit n).registry.total OriginMetrics.activeRequests = 0 := by
  unfold missingPermit OriginMetricsRegistry.total OriginMetricsRegistry.update
  rw [List.map_singleton, List.getElem?_modify_ne _ _ hn,
    List.getElem?_replicate_of_lt n.lt_succ_self]
  rfl

/-- A run that begins with a lookup by the call. -/
theorem run_lookedUp (events : List MeteredGate.Event) :
    (MeteredGate.system ⟨1, none, 0⟩).run ([.call [], .metrics 0, .metrics 0] ++ events) =
      events.foldlM (MeteredGate.step ⟨1, none, 0⟩) lookedUp := rfl

/-- The call goes on to its permit. -/
theorem run_missingPermit (n : Nat) :
    List.foldlM (MeteredGate.step ⟨1, none, 0⟩) { lookedUp with registry :=
        ⟨[(List.replicate n 'b', n)], List.replicate (n + 1) .new⟩ }
      [.advance 0, .advance 0, .metrics 0] = some (missingPermit n) := rfl

/-- A call looks its metrics up, many other origins are looked up, and the call goes on to
its permit. -/
def crowdedOut : List MeteredGate.Event :=
  [.call [], .metrics 0, .metrics 0] ++
    (crowd originPressureCleanupThreshold ++ [.advance 0, .advance 0, .metrics 0])

/-- The last lookup removes the metrics of the call, and its permit is in no sum. -/
theorem account_missing_permit :
    ∃ metered, (MeteredGate.system ⟨1, none, 0⟩).run crowdedOut = some metered ∧
      metered.settled = true ∧ metered.registry.total OriginMetrics.activeRequests = 0 ∧
      metered.calls.countP MeteredCall.outstanding = 1 := by
  have hcrowd := run_crowd_cleanup ⟨1, none, 0⟩ lookedUp ⟨rfl, rfl, by simp [lookedUp],
    by simp [lookedUp]⟩
  refine ⟨missingPermit originPressureCleanupThreshold, ?_, rfl,
    total_missingPermit (by decide), rfl⟩
  rw [crowdedOut, run_lookedUp, List.foldlM_append, hcrowd]
  exact run_missingPermit _

end FogHttp.Acquire
