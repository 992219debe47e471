import FogHttp.Acquire.Metrics
import FogHttp.Acquire.Sections
import FogHttp.Lib.Entries

/-!
# The counters of the metrics

`Counted` is the invariant of the metered gate that holds in every run.

* `Aligned`: the stage of a call fits the phase of its party.
* `Tallied`: the counters of metrics in the arena are the numbers of calls that have counted
  themselves there, whether the metrics are in the map or not.
* `WellKeyed`: the map has one entry for an origin, and one for metrics.

It does not say that the metrics of a call are in the map.
-/

namespace FogHttp.Acquire

open Lib

/-! ## Stages and phases -/

/-- The stages that a call can be at while its party is in a phase. -/
def MetricsStage.fits : MetricsStage → Phase → Bool
  | .looking, .called | .missed, .called => true
  | .found _, .called | .found _, .located | .found _, .queueing _ | .found _, .registering _
  | .found _, .notifyingHead true | .found _, .notifyingOne _ true
  | .found _, .holding => true
  | .pending _, .looping | .pending _, .enabled | .pending _, .parked | .pending _, .abandoned
  | .pending _, .notifyingHead _ => true
  | .active _, .holding => true
  | .done, .notifyingHead false | .done, .notifyingOne _ false | .done, .holding
  | .done, .releasedOrigin | .done, .finished => true
  | _, _ => false

/-- A section of the gate keeps the stage of its call, unless the call is registering. -/
theorem MetricsStage.fits_of_lets {full : Prop} {stage : MetricsStage} {before after : Phase}
    (hlets : stage.lets before = true) (hstep : PhaseStep full before after)
    (hregistering : ∀ blockedBy, before ≠ .registering blockedBy) :
    stage.fits after = true := by
  cases hstep with
  | rejected blockedBy | registered blockedBy => exact absurd rfl (hregistering blockedBy)
  | nobody granted | notifying _ granted | notified _ granted =>
      cases granted <;> cases stage <;> first | rfl | cases hlets
  | _ => cases stage <;> first | rfl | cases hlets

/-- Every party has a call, and the stage of the call fits its phase. -/
structure Aligned (parties : List Party) (calls : List MeteredCall) : Prop where
  length : calls.length = parties.length
  fits : ∀ (i : Nat) (party : Party) (call : MeteredCall), parties[i]? = some party →
    calls[i]? = some call → call.origin = party.origin ∧ call.stage.fits party.phase = true

/-- A section of one party, which may also bring its call to another stage. -/
theorem Aligned.replace {parties others : List Party} {calls : List MeteredCall} {i : Nat}
    {party new : Party} {call : MeteredCall} {stage : MetricsStage} (h : Aligned parties calls)
    (hi : parties[i]? = some party) (hcall : calls[i]? = some call)
    (hparties : others.map Party.view = (parties.set i new).map Party.view)
    (horigin : new.origin = party.origin) (hfits : stage.fits new.phase = true) :
    Aligned others (calls.set i { call with stage }) where
  length := by
    have hlength := congrArg List.length hparties
    simp only [List.length_map, List.length_set] at hlength
    rw [List.length_set, h.length, hlength]
  fits := by
    intro j after other hj hother
    have hview : (others.map Party.view)[j]? = some after.view := by
      rw [List.getElem?_map, hj]
      rfl
    rw [hparties, List.getElem?_map, Option.map_eq_some_iff] at hview
    obtain ⟨seen, hseen, hsame⟩ := hview
    obtain ⟨hsameOrigin, hsamePhase, -⟩ : seen.origin = after.origin ∧
        seen.phase = after.phase ∧ seen.waiterId = after.waiterId := by
      simpa [Party.view] using hsame
    rw [← hsameOrigin, ← hsamePhase]
    rcases getElem?_set_cases hseen with ⟨rfl, rfl⟩ | ⟨hji, hseen⟩
    · rw [List.getElem?_set_self (List.getElem?_eq_some_iff.mp hcall).1] at hother
      obtain rfl := Option.some.inj hother
      exact ⟨(h.fits j party call hi hcall).1.trans horigin.symm, hfits⟩
    · rw [List.getElem?_set_ne (Ne.symm hji)] at hother
      exact h.fits j seen other hseen hother

/-- A step that leaves the gate alone. -/
theorem Aligned.restage {parties : List Party} {calls : List MeteredCall} {i : Nat}
    {party : Party} {call : MeteredCall} {stage : MetricsStage} (h : Aligned parties calls)
    (hi : parties[i]? = some party) (hcall : calls[i]? = some call)
    (hfits : stage.fits party.phase = true) :
    Aligned parties (calls.set i { call with stage }) := by
  refine h.replace hi hcall ?_ rfl hfits
  rw [set_eq_self hi]

/-- A section that leaves the stage of its call alone. -/
theorem Aligned.advance {parties others : List Party} {calls : List MeteredCall} {i : Nat}
    {party new : Party} {call : MeteredCall} (h : Aligned parties calls)
    (hi : parties[i]? = some party) (hcall : calls[i]? = some call)
    (hparties : others.map Party.view = (parties.set i new).map Party.view)
    (horigin : new.origin = party.origin) (hfits : call.stage.fits new.phase = true) :
    Aligned others calls := by
  have hreplace := h.replace hi hcall hparties horigin hfits
  rwa [set_eq_self hcall] at hreplace

/-! ## Counters and stages -/

/-- The counters of all metrics in the arena are numbers of calls. -/
structure Tallied (registry : OriginMetricsRegistry) (calls : List MeteredCall) : Prop where
  active : ∀ (m : Nat) (metrics : OriginMetrics), registry.metrics[m]? = some metrics →
    metrics.activeRequests = calls.countP fun call => call.stage == .active m
  pending : ∀ (m : Nat) (metrics : OriginMetrics), registry.metrics[m]? = some metrics →
    metrics.pendingRequests = calls.countP fun call => call.stage == .pending m
  handles : ∀ call ∈ calls, ∀ m, call.stage.handle = some m → m < registry.metrics.length

/-- How an access changes the counters that a call is counted in. -/
structure Recount (m : Nat) (stage after : MetricsStage)
    (metrics changed : OriginMetrics) : Prop where
  active : changed.activeRequests + (stage == .active m).toNat =
    metrics.activeRequests + (after == .active m).toNat
  pending : changed.pendingRequests + (stage == .pending m).toNat =
    metrics.pendingRequests + (after == .pending m).toNat

section Tallies

variable {registry : OriginMetricsRegistry} {calls : List MeteredCall} {i m : Nat}
  {call : MeteredCall} {stage : MetricsStage}

theorem Tallied.activeRequests_pos (h : Tallied registry calls) {metrics : OriginMetrics}
    (hm : registry.metrics[m]? = some metrics) (hmem : call ∈ calls)
    (hstage : call.stage = .active m) : 0 < metrics.activeRequests := by
  rw [h.active m metrics hm, List.countP_pos_iff]
  exact ⟨call, hmem, by simp [hstage]⟩

theorem Tallied.pendingRequests_pos (h : Tallied registry calls) {metrics : OriginMetrics}
    (hm : registry.metrics[m]? = some metrics) (hmem : call ∈ calls)
    (hstage : call.stage = .pending m) : 0 < metrics.pendingRequests := by
  rw [h.pending m metrics hm, List.countP_pos_iff]
  exact ⟨call, hmem, by simp [hstage]⟩

/-- Metrics that a call is counted in are not idle. -/
theorem Tallied.not_isIdle (h : Tallied registry calls) (hmem : call ∈ calls)
    (hstage : call.stage = .pending m ∨ call.stage = .active m) : registry.isIdle m = false := by
  unfold OriginMetricsRegistry.isIdle
  cases hm : registry.metrics[m]? with
  | none => rfl
  | some metrics =>
      rw [Option.any_some]
      rcases hstage with hstage | hstage
      · have hpos := h.pendingRequests_pos hm hmem hstage
        simp [OriginMetrics.isIdle, Nat.pos_iff_ne_zero.mp hpos]
      · have hpos := h.activeRequests_pos hm hmem hstage
        simp [OriginMetrics.isIdle, Nat.pos_iff_ne_zero.mp hpos]

/-- A change of the metrics of a call with a change of its stage. -/
theorem Tallied.replace (h : Tallied registry calls) (hcall : calls[i]? = some call)
    {after : OriginMetricsRegistry} (hlength : after.metrics.length = registry.metrics.length)
    (hmetrics : ∀ (k : Nat) (changed : OriginMetrics), after.metrics[k]? = some changed →
      ∃ metrics, registry.metrics[k]? = some metrics ∧
        Recount k call.stage stage metrics changed)
    (hhandle : ∀ k, stage.handle = some k → k < registry.metrics.length) :
    Tallied after (calls.set i { call with stage }) where
  active := by
    intro k changed hk
    obtain ⟨metrics, hbefore, hrecount⟩ := hmetrics k changed hk
    have hset := countP_set_add (fun call : MeteredCall => call.stage == .active k)
      { call with stage } hcall
    dsimp only at hset
    have hcount := h.active k metrics hbefore
    have hchange := hrecount.active
    omega
  pending := by
    intro k changed hk
    obtain ⟨metrics, hbefore, hrecount⟩ := hmetrics k changed hk
    have hset := countP_set_add (fun call : MeteredCall => call.stage == .pending k)
      { call with stage } hcall
    dsimp only at hset
    have hcount := h.pending k metrics hbefore
    have hchange := hrecount.pending
    omega
  handles := by
    rw [hlength]
    exact forall_mem_set h.handles hhandle

/-- A change between stages that count nothing. -/
theorem Tallied.restage (h : Tallied registry calls) (hcall : calls[i]? = some call)
    (hbefore : ∀ k, call.stage ≠ .active k ∧ call.stage ≠ .pending k)
    (hafter : ∀ k, stage ≠ .active k ∧ stage ≠ .pending k)
    (hhandle : ∀ k, stage.handle = some k → k < registry.metrics.length) :
    Tallied registry (calls.set i { call with stage }) := by
  refine h.replace hcall rfl ?_ hhandle
  intro k metrics hk
  refine ⟨metrics, hk, ?_, ?_⟩
  · rw [beq_eq_false_iff_ne.mpr (hbefore k).1, beq_eq_false_iff_ne.mpr (hafter k).1]
  · rw [beq_eq_false_iff_ne.mpr (hbefore k).2, beq_eq_false_iff_ne.mpr (hafter k).2]

/-- A call counts itself in or out of the metrics that it holds. -/
theorem Tallied.recount (h : Tallied registry calls) (hcall : calls[i]? = some call)
    (hstage : call.stage.handle = some m)
    (hafter : stage.handle = some m ∨ stage.handle = none)
    {change : OriginMetrics → OriginMetrics}
    (hchange : ∀ metrics, registry.metrics[m]? = some metrics →
      Recount m call.stage stage metrics (change metrics)) :
    Tallied (registry.update m change) (calls.set i { call with stage }) := by
  -- The other metrics do not count the call, neither before nor after the step.
  have hother : ∀ (k : Nat) (metrics : OriginMetrics), k ≠ m →
      Recount k call.stage stage metrics metrics := by
    intro k metrics hk
    have hbefore : (call.stage == .active k) = false ∧ (call.stage == .pending k) = false := by
      constructor <;> refine beq_eq_false_iff_ne.mpr fun hsame => hk ?_ <;>
        simpa [hsame, MetricsStage.handle] using hstage
    have hend : (stage == .active k) = false ∧ (stage == .pending k) = false := by
      constructor <;> refine beq_eq_false_iff_ne.mpr fun hsame => hk ?_ <;>
        simpa [hsame, MetricsStage.handle] using hafter
    constructor
    · rw [hbefore.1, hend.1]
    · rw [hbefore.2, hend.2]
  refine h.replace hcall (by simp [OriginMetricsRegistry.update]) ?_ ?_
  · intro k changed hk
    by_cases hkm : m = k
    · subst hkm
      rw [OriginMetricsRegistry.update, List.getElem?_modify_eq, Option.map_eq_map,
        Option.map_eq_some_iff] at hk
      obtain ⟨metrics, hm, rfl⟩ := hk
      exact ⟨metrics, hm, hchange metrics hm⟩
    · rw [OriginMetricsRegistry.update, List.getElem?_modify_ne _ _ hkm] at hk
      exact ⟨changed, hk, hother k changed (Ne.symm hkm)⟩
  · intro k hk
    rcases hafter with hafter | hafter
    · obtain rfl : m = k := Option.some.inj (hafter.symm.trans hk)
      exact h.handles call (List.mem_of_getElem? hcall) m hstage
    · rw [hafter] at hk
      cases hk

/-- New metrics count nothing. -/
theorem Tallied.push (h : Tallied registry calls) (origins : List (Text × Nat)) :
    Tallied ⟨origins, registry.metrics ++ [.new]⟩ calls := by
  have hfresh : ∀ (stage : Nat → MetricsStage), (∀ m, (stage m).handle = some m) →
      calls.countP (fun call => call.stage == stage registry.metrics.length) = 0 := by
    intro stage hhandle
    rw [List.countP_eq_zero]
    intro call hmem hstage
    have hlt := h.handles call hmem _ (beq_iff_eq.mp hstage ▸ hhandle _)
    exact Nat.lt_irrefl _ hlt
  refine ⟨?_, ?_, ?_⟩
  · intro m metrics hm
    rcases getElem?_push_cases hm with hm | ⟨rfl, rfl⟩
    · exact h.active m metrics hm
    · exact (hfresh .active fun _ => rfl).symm
  · intro m metrics hm
    rcases getElem?_push_cases hm with hm | ⟨rfl, rfl⟩
    · exact h.pending m metrics hm
    · exact (hfresh .pending fun _ => rfl).symm
  · intro call hmem m hm
    have hlt := h.handles call hmem m hm
    rw [List.length_append, List.length_singleton]
    omega

/-- A call that starts counts nothing. -/
theorem Tallied.newCall (h : Tallied registry calls) (origin : Text) :
    Tallied registry (calls ++ [MeteredCall.mk origin .looking]) where
  active := by
    intro m metrics hm
    rw [List.countP_append, h.active m metrics hm]
    rfl
  pending := by
    intro m metrics hm
    rw [List.countP_append, h.pending m metrics hm]
    rfl
  handles := by
    intro call hmem m hm
    rcases List.mem_append.mp hmem with hmem | hmem
    · exact h.handles call hmem m hm
    · obtain rfl := List.mem_singleton.mp hmem
      cases hm

end Tallies

/-! ## The map -/

/-- The map has one entry for an origin, and the entries have metrics of their own. -/
structure WellKeyed (registry : OriginMetricsRegistry) : Prop where
  entries : ∀ entry ∈ registry.origins, entry.2 < registry.metrics.length
  keys : (registry.origins.map Prod.fst).Nodup
  values : (registry.origins.map Prod.snd).Nodup

namespace OriginMetricsRegistry

variable {registry : OriginMetricsRegistry} {origin other : Text} {m : Nat}

/-- A lookup finds the entry of the origin, or it adds one with new metrics in front of the
entries that it keeps. -/
theorem metricsFor_cases (registry : OriginMetricsRegistry) (origin : Text) :
    (∃ m, registry.origins.lookup origin = some m ∧
      registry.metricsFor origin = (m, registry)) ∨
    ∃ kept, registry.origins.lookup origin = none ∧ kept.Sublist registry.origins ∧
      registry.metricsFor origin = (registry.metrics.length,
        ⟨(origin, registry.metrics.length) :: kept, registry.metrics ++ [.new]⟩) := by
  unfold metricsFor
  cases hlookup : registry.origins.lookup origin with
  | some m => exact Or.inl ⟨m, rfl, rfl⟩
  | none =>
      refine Or.inr ⟨_, rfl, ?_, rfl⟩
      split
      · exact List.filter_sublist
      · exact List.Sublist.refl _

/-- The metrics of the origin are in the map after its lookup. -/
theorem lookup_metricsFor (registry : OriginMetricsRegistry) (origin : Text) :
    (registry.metricsFor origin).2.origins.lookup origin =
      some (registry.metricsFor origin).1 := by
  rcases registry.metricsFor_cases origin with ⟨m, hlookup, heq⟩ | ⟨kept, -, -, heq⟩
  · rw [heq]
    exact hlookup
  · rw [heq]
    exact List.lookup_cons_self

/-- An entry that the lookup does not remove is still found. -/
theorem lookup_metricsFor_of_not_prunes (h : registry.origins.lookup other = some m)
    (hkept : registry.prunes origin m = false) :
    (registry.metricsFor origin).2.origins.lookup other = some m := by
  unfold metricsFor
  cases hlookup : registry.origins.lookup origin with
  | some _ => exact h
  | none =>
      have hne : other ≠ origin := by
        rintro rfl
        rw [hlookup] at h
        cases h
      dsimp only
      rw [lookup_cons_of_ne _ hne]
      split
      · rename_i hlarge
        refine lookup_filter h ?_
        simpa [prunes, hlookup, hlarge] using hkept
      · exact h

end OriginMetricsRegistry

theorem WellKeyed.metricsFor {registry : OriginMetricsRegistry} (h : WellKeyed registry)
    (origin : Text) : WellKeyed (registry.metricsFor origin).2 := by
  rcases registry.metricsFor_cases origin with ⟨m, -, heq⟩ | ⟨kept, hnone, hkept, heq⟩
  · rw [heq]
    exact h
  · rw [heq]
    refine ⟨?_, ?_, ?_⟩
    · intro entry hmem
      show entry.2 < (registry.metrics ++ [OriginMetrics.new]).length
      rw [List.length_append, List.length_singleton]
      rcases List.mem_cons.mp hmem with rfl | hmem
      · exact Nat.lt_succ_self _
      · exact Nat.lt_succ_of_lt (h.entries entry (hkept.subset hmem))
    · refine List.nodup_cons.mpr ⟨?_, h.keys.sublist (hkept.map _)⟩
      intro hmem
      obtain ⟨entry, hentry, hkey⟩ := List.mem_map.mp hmem
      have hdiffers := List.lookup_eq_none_iff.mp hnone entry (hkept.subset hentry)
      rw [hkey, bne_self_eq_false] at hdiffers
      cases hdiffers
    · refine List.nodup_cons.mpr ⟨?_, h.values.sublist (hkept.map _)⟩
      intro hmem
      obtain ⟨entry, hentry, hvalue⟩ := List.mem_map.mp hmem
      have hlt := h.entries entry (hkept.subset hentry)
      rw [hvalue] at hlt
      exact Nat.lt_irrefl _ hlt

theorem WellKeyed.update {registry : OriginMetricsRegistry} (h : WellKeyed registry) (m : Nat)
    (change : OriginMetrics → OriginMetrics) : WellKeyed (registry.update m change) where
  entries := by
    intro entry hmem
    show entry.2 < (registry.metrics.modify m change).length
    rw [List.length_modify]
    exact h.entries entry hmem
  keys := h.keys
  values := h.values

theorem Tallied.metricsFor {registry : OriginMetricsRegistry} {calls : List MeteredCall}
    (h : Tallied registry calls) (origin : Text) :
    Tallied (registry.metricsFor origin).2 calls := by
  rcases registry.metricsFor_cases origin with ⟨m, -, heq⟩ | ⟨kept, -, -, heq⟩
  · rw [heq]
    exact h
  · rw [heq]
    exact h.push _

/-! ## Accesses -/

/-- The accesses that change a counter: the stage of the call and the phase of its party,
the stage after the access, and the change. -/
inductive CounterAccess (m : Nat) : MetricsStage → Phase → MetricsStage →
    (OriginMetrics → OriginMetrics) → Prop where
  /-- A waiter has its permits. -/
  | granted : CounterAccess m (.pending m) (.notifyingHead true) (.found m)
      .pendingRequestFinished
  /-- A waiter has given up. -/
  | left : CounterAccess m (.pending m) (.notifyingHead false) .done .pendingRequestFinished
  | acquired : CounterAccess m (.found m) .holding (.active m) .activeRequestStarted
  | dropped : CounterAccess m (.active m) .holding .done .activeRequestFinished

/-- What an access of call `i` to the registry or to its metrics does. -/
inductive Access (metered : MeteredGate) (i : Nat) (call : MeteredCall) (phase : Phase) :
    MeteredGate → Prop where
  | hit (stage : call.stage = .looking) (m : Nat)
      (lookup : metered.registry.origins.lookup call.origin = some m) :
      Access metered i call phase (metered.setStage i call (.found m))
  | miss (stage : call.stage = .looking) :
      Access metered i call phase (metered.setStage i call .missed)
  | insert (stage : call.stage = .missed) :
      Access metered i call phase
        ({ metered with registry := (metered.registry.metricsFor call.origin).2 }.setStage i call
          (.found (metered.registry.metricsFor call.origin).1))
  | count (m : Nat) {after : MetricsStage} {change : OriginMetrics → OriginMetrics}
      (access : CounterAccess m call.stage phase after change) :
      Access metered i call phase ((metered.update m change).setStage i call after)

theorem access_of_accessMetrics {metered next : MeteredGate} {i : Nat} {call : MeteredCall}
    {phase : Phase} (hfits : call.stage.fits phase = true)
    (h : metered.accessMetrics i call phase = some next) :
    Access metered i call phase next := by
  unfold MeteredGate.accessMetrics at h
  dsimp only at h
  split at h
  · rename_i hstage
    split at h
    · rename_i m hlookup
      exact Option.some.inj h ▸ .hit hstage m hlookup
    · exact Option.some.inj h ▸ .miss hstage
  · rename_i hstage
    exact Option.some.inj h ▸ .insert hstage
  · rename_i m granted hstage
    refine Option.some.inj h ▸ .count m ?_
    rw [hstage]
    cases granted
    · exact .left
    · exact .granted
  · rename_i m hstage
    -- A waiter that gives up always finds its entry.
    rw [hstage] at hfits
    cases hfits
  · rename_i m hstage
    refine Option.some.inj h ▸ .count m ?_
    rw [hstage]
    exact .acquired
  · rename_i m hstage
    refine Option.some.inj h ▸ .count m ?_
    rw [hstage]
    exact .dropped
  · cases h

theorem CounterAccess.handle {m : Nat} {stage after : MetricsStage} {phase : Phase}
    {change : OriginMetrics → OriginMetrics} (h : CounterAccess m stage phase after change) :
    stage.handle = some m ∧ (after.handle = some m ∨ after.handle = none) := by
  cases h <;> simp [MetricsStage.handle]

theorem CounterAccess.fits {m : Nat} {stage after : MetricsStage} {phase : Phase}
    {change : OriginMetrics → OriginMetrics} (h : CounterAccess m stage phase after change) :
    after.fits phase = true := by
  cases h <;> rfl

/-- An access changes the counter by the call. -/
theorem CounterAccess.recount {registry : OriginMetricsRegistry} {calls : List MeteredCall}
    {call : MeteredCall} {m : Nat} {after : MetricsStage} {phase : Phase}
    {change : OriginMetrics → OriginMetrics} (h : Tallied registry calls) (hmem : call ∈ calls)
    (haccess : CounterAccess m call.stage phase after change) {metrics : OriginMetrics}
    (hm : registry.metrics[m]? = some metrics) :
    Recount m call.stage after metrics (change metrics) := by
  have hactive := h.activeRequests_pos hm hmem
  have hpending := h.pendingRequests_pos hm hmem
  generalize call.stage = stage at haccess hactive hpending
  cases haccess with
  | granted | left =>
      refine ⟨rfl, ?_⟩
      rw [beq_self_eq_true]
      exact Nat.sub_add_cancel (hpending rfl)
  | acquired =>
      refine ⟨?_, rfl⟩
      rw [beq_self_eq_true]
      rfl
  | dropped =>
      refine ⟨?_, rfl⟩
      rw [beq_self_eq_true]
      exact Nat.sub_add_cancel (hactive rfl)

end FogHttp.Acquire
