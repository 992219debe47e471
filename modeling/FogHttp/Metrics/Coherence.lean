import FogHttp.Lib.Entries
import FogHttp.Lib.Positions
import FogHttp.Metrics.Reporting

/-!
# The transport snapshot at rest

The client and its origins are counted apart, by threads that run in any order, so a snapshot
may catch them in between; `has_coherent_pressure` looks for that.

* `Reporter.Settling` says that what a reporter has still to do takes its shares to what it has
  reported, and that it can afford it.
* `Accounted` is the invariant: the counters are the sums of the shares, the client's of all
  reporters and an origin's of those that hold its metrics.
* `transport_state_at_rest`: once no report is being made, all counters are exactly what was
  reported, and a snapshot is coherent unless the registry has lost somebody's pressure.
-/

namespace FogHttp.Metrics

open Lib

/-! ## One operation -/

/-- What an operation does to the share of its reporter. -/
def Op.change (op : Op) : Progress → Tally → Tally
  | .did _ => op.record
  | _ => id

namespace Op.Steps

variable {op : Op} {account next : Account} {progress : Progress}

theorem tally_eq (h : op.Steps account next progress)
    (hsaturated : account.tally.saturated = account.tally) :
    next.tally = (op.change progress account.tally).saturated := by
  cases h with
  | again hvalid hnext => exact (congrArg Account.tally hnext).trans hsaturated.symm
  | goes hleft hnext => exact (congrArg Account.tally hnext).trans hsaturated.symm
  | did hleft hnext => exact hnext

theorem change_within (h : op.Steps account next progress) {share : Tally}
    (haffords : op.Affords share) : ActsWithin (op.change progress) share := by
  cases h with
  | again hvalid hnext => exact ActsWithin.id share
  | goes hleft hnext => exact ActsWithin.id share
  | did hleft hnext => exact Op.record_within haffords

theorem change_saturated (h : op.Steps account next progress) (tally : Tally) :
    (op.change progress tally.saturated).saturated = (op.change progress tally).saturated := by
  cases h with
  | again hvalid hnext => exact Tally.saturated_saturated tally
  | goes hleft hnext => exact Tally.saturated_saturated tally
  | did hleft hnext => exact Op.record_saturated op tally

end Op.Steps

/-! ## Reporters -/

namespace Reporter

/-- What is left to do takes the shares to what was reported. -/
structure Settling (reporter : Reporter) : Prop where
  settles : ∀ side,
    Settles (opsOn side reporter.todo) (reporter.shares side) reporter.recorded
  valid : ∀ task ∈ reporter.todo.head?, task.op.Valid reporter.cas

theorem settling_new (m : Nat) : (new m).Settling :=
  ⟨fun _ => ⟨trivial, rfl⟩, fun _ h => absurd h (Option.not_mem_none _)⟩

variable {reporter next : Reporter}

/-- Between two reports the shares are what was reported. -/
theorem Settling.shares_eq (h : reporter.Settling) (hdone : reporter.todo = []) (side : Side) :
    reporter.shares side = reporter.recorded := by
  have hsettles := (h.settles side).2
  rw [hdone] at hsettles
  exact hsettles

theorem recorded_report (report : Report) :
    { reporter with reports := reporter.reports ++ [report] }.recorded =
      report.effect reporter.recorded := by
  unfold recorded
  rw [List.foldl_append]
  rfl

theorem Settling.report {report : Report} (h : reporter.Settling)
    (hreport : reporter.report report = some next) :
    next.Settling ∧ next.shares = reporter.shares ∧ next.metrics = reporter.metrics := by
  unfold Reporter.report at hreport
  split at hreport
  · rename_i hready
    obtain rfl := Option.some.inj hreport
    refine ⟨⟨fun side => ?_, fun task _ => task.op.valid_load⟩, rfl, rfl⟩
    have hrecorded : Reporter.recorded { reporter with
        todo := report.tasks
        cas := .load
        reports := reporter.reports ++ [report] } = report.effect reporter.recorded :=
      recorded_report report
    rw [hrecorded]
    change Settles _ (reporter.shares side) _
    rw [h.shares_eq hready.1 side]
    exact Report.settles side hready.2
  · exact absurd hreport.symm (Option.some_ne_none _)

theorem after_metrics (task : Task) (rest : List Task) (progress : Progress) :
    (reporter.after task rest progress).metrics = reporter.metrics := by
  cases progress <;> rfl

theorem after_recorded (task : Task) (rest : List Task) (progress : Progress) :
    (reporter.after task rest progress).recorded = reporter.recorded := by
  cases progress <;> rfl

theorem after_shares (task : Task) (rest : List Task) (progress : Progress) :
    (reporter.after task rest progress).shares =
      Function.update reporter.shares task.side
        (task.op.change progress (reporter.shares task.side)) := by
  cases progress with
  | again cas => exact (Function.update_eq_self _ _).symm
  | goes left => exact (Function.update_eq_self _ _).symm
  | did left => rfl

/-- What is left after an operation. -/
theorem after_todo_cases {task : Task} {rest : List Task} {account after : Account}
    {progress : Progress} (hsteps : task.op.Steps account after progress)
    (htodo : reporter.todo = task :: rest) :
    (reporter.after task rest progress).todo = task :: rest ∧
        task.op.change progress = id ∧ task.op.Valid (reporter.after task rest progress).cas ∨
      ∃ left middle, (reporter.after task rest progress).todo =
          left.map (⟨task.side, ·⟩) ++ rest ∧
        Op.Amounts left middle ∧ (reporter.after task rest progress).cas = .load ∧
        ∀ share, middle (task.op.change progress share) = task.op.record share := by
  cases hsteps with
  | again hvalid hnext => exact Or.inl ⟨htodo, rfl, hvalid⟩
  | @goes left hleft hnext => exact Or.inr ⟨left, _, rfl, hleft, rfl, fun _ => rfl⟩
  | @did left hleft hnext => exact Or.inr ⟨left, _, rfl, hleft, rfl, fun _ => rfl⟩

theorem opsOn_cons_self {task : Task} (rest : List Task) :
    opsOn task.side (task :: rest) = task.op :: opsOn task.side rest := by
  unfold opsOn
  rw [List.filter_cons, if_pos (decide_eq_true rfl)]
  rfl

theorem opsOn_cons_of_ne {task : Task} {side : Side} (hside : side ≠ task.side)
    (rest : List Task) : opsOn side (task :: rest) = opsOn side rest := by
  unfold opsOn
  rw [List.filter_cons, if_neg (by simpa using hside.symm)]

/-- The reporter can afford the statement that it is at. -/
theorem Settling.affords {task : Task} {rest : List Task} (h : reporter.Settling)
    (htodo : reporter.todo = task :: rest) : task.op.Affords (reporter.shares task.side) := by
  have hsettles := (h.settles task.side).1
  rw [htodo, opsOn_cons_self] at hsettles
  exact hsettles.1

/-- An operation keeps a reporter on its way. -/
theorem Settling.after {task : Task} {rest : List Task} {account after : Account}
    {progress : Progress} (h : reporter.Settling)
    (hsteps : task.op.Steps account after progress) (htodo : reporter.todo = task :: rest) :
    (reporter.after task rest progress).Settling := by
  refine ⟨fun side => ?_, ?_⟩
  · rw [after_recorded, after_shares]
    have hsettles := h.settles side
    rw [htodo] at hsettles
    obtain ⟨hnext, hchange, -⟩ | ⟨left, middle, hnext, hleft, -, hmiddle⟩ :=
      after_todo_cases hsteps htodo
    · have hshares : Function.update reporter.shares task.side (reporter.shares task.side) =
          reporter.shares := Function.update_eq_self _ _
      rw [hnext, hchange, id, hshares]
      exact hsettles
    · rw [hnext, opsOn_append, opsOn_map]
      by_cases hside : side = task.side
      · subst hside
        rw [opsOn_cons_self] at hsettles
        rw [if_pos rfl, Function.update_self]
        have hrecord : Settles left (task.op.change progress (reporter.shares task.side))
            (task.op.record (reporter.shares task.side)) :=
          ⟨hleft.affords _, (hleft.records _).trans (hmiddle _)⟩
        exact hrecord.append ⟨hsettles.1.2, hsettles.2⟩
      · rw [opsOn_cons_of_ne hside] at hsettles
        rw [if_neg (Ne.symm hside), Function.update_of_ne hside]
        exact hsettles
  · intro first hfirst
    obtain ⟨hnext, -, hvalid⟩ | ⟨left, middle, hnext, -, hload, -⟩ :=
      after_todo_cases hsteps htodo
    · rw [hnext] at hfirst
      obtain rfl := Option.some.inj hfirst
      exact hvalid
    · rw [hload]
      exact first.op.valid_load

end Reporter

/-! ## The invariant -/

namespace OriginMetricsRegistry

/-- The entries name metrics, and nothing is lost without a trace. -/
structure Sound (registry : OriginMetricsRegistry) : Prop where
  nodup : (registry.origins.map Prod.snd).Nodup
  named : ∀ m ∈ registry.origins.map Prod.snd, m < registry.metrics.length
  complete : registry.prunedIdleOrigins = false →
    ∀ m, m < registry.metrics.length → m ∈ registry.origins.map Prod.snd

variable {registry : OriginMetricsRegistry}

theorem sound_new : new.Sound :=
  ⟨List.nodup_nil, fun _ h => absurd h List.not_mem_nil, fun _ m h => absurd h (Nat.not_lt_zero m)⟩

theorem kept_sublist (isIdle : Nat → Bool) : (registry.kept isIdle).Sublist registry.origins := by
  unfold kept
  split
  · exact List.filter_sublist
  · exact List.Sublist.refl _

/-- A lookup names metrics of the registry, and keeps what others hold. -/
theorem Sound.metricsFor (h : registry.Sound) (isIdle : Nat → Bool) (origin : Text) (now : Nat) :
    (registry.metricsFor isIdle origin now).2.Sound ∧
      (registry.metricsFor isIdle origin now).1 <
        (registry.metricsFor isIdle origin now).2.metrics.length ∧
      ((registry.metricsFor isIdle origin now).2.metrics = registry.metrics ∨
        (registry.metricsFor isIdle origin now).2.metrics =
          registry.metrics ++ [.new origin now]) := by
  unfold OriginMetricsRegistry.metricsFor
  split
  · rename_i m hlookup
    exact ⟨h, h.named m (List.mem_map_of_mem (mem_of_lookup hlookup)), Or.inl rfl⟩
  · have hkept : ((registry.kept isIdle).map Prod.snd).Sublist (registry.origins.map Prod.snd) :=
      (kept_sublist isIdle).map Prod.snd
    refine ⟨⟨?_, ?_, ?_⟩, ?_, Or.inr rfl⟩
    · change (_ :: (registry.kept isIdle).map Prod.snd).Nodup
      refine List.nodup_cons.mpr ⟨fun hmem => ?_, h.nodup.sublist hkept⟩
      exact Nat.lt_irrefl _ (h.named _ (hkept.subset hmem))
    · intro m hm
      rw [List.length_append]
      rcases List.mem_cons.mp hm with rfl | hm
      · exact Nat.lt_succ_self _
      · exact Nat.lt_succ_of_lt (h.named m (hkept.subset hm))
    · intro hpruned m hm
      obtain ⟨hbefore, hlength⟩ := Bool.or_eq_false_iff.mp hpruned
      have hsame : registry.kept isIdle = registry.origins :=
        (kept_sublist isIdle).eq_of_length_le (Nat.le_of_not_lt (of_decide_eq_false hlength))
      rw [List.map_cons, hsame]
      rw [List.length_append] at hm
      rcases Nat.lt_succ_iff_lt_or_eq.mp hm with hlt | heq
      · exact List.mem_cons_of_mem _ (h.complete hbefore m hlt)
      · exact heq ▸ List.mem_cons_self
    · rw [List.length_append]
      exact Nat.lt_succ_self _

end OriginMetricsRegistry

namespace Reporter

/-- The share of a reporter in the counters of the client. -/
def clientShare (reporter : Reporter) : Tally := reporter.shares .metrics

/-- The share of a reporter in the metrics `m`. -/
def originShare (m : Nat) (reporter : Reporter) : Tally :=
  if reporter.metrics = m then reporter.shares .origin else 0

end Reporter

/-- All counters are the sums of the shares. -/
structure Accounted (state : State) : Prop where
  client : state.metrics.tally = (state.reporters.map Reporter.clientShare).sum.saturated
  origins : ∀ (m : Nat) (metrics : OriginMetrics), state.registry.metrics[m]? = some metrics →
    metrics.account.tally = (state.reporters.map (Reporter.originShare m)).sum.saturated
  holds : ∀ reporter ∈ state.reporters, reporter.metrics < state.registry.metrics.length
  settling : ∀ reporter ∈ state.reporters, reporter.Settling
  sound : state.registry.Sound

namespace Accounted

variable {state next : State}

theorem new : Accounted State.new where
  client := rfl
  origins _ _ h := absurd h.symm (Option.some_ne_none _)
  holds _ h := absurd h List.not_mem_nil
  settling _ h := absurd h List.not_mem_nil
  sound := OriginMetricsRegistry.sound_new

/-- A reporter that has no share yet. -/
theorem sum_map_push {share : Reporter → Tally} {reporter : Reporter} (h : share reporter = 0) :
    ((state.reporters ++ [reporter]).map share).sum = (state.reporters.map share).sum := by
  rw [List.map_append, List.sum_append, List.map_singleton, List.sum_singleton, h, add_zero]

/-- New metrics have no reporter yet. -/
theorem sum_originShare_length (h : Accounted state) :
    (state.reporters.map (Reporter.originShare state.registry.metrics.length)).sum = 0 := by
  refine List.sum_eq_zero fun share hshare => ?_
  obtain ⟨reporter, hreporter, rfl⟩ := List.mem_map.mp hshare
  exact if_neg (Nat.ne_of_lt (h.holds reporter hreporter))

theorem enter (h : Accounted state) (origin : Text) (isIdle : Nat → Bool) (now : Nat) :
    Accounted { state with
      registry := (state.registry.metricsFor isIdle origin now).2
      reporters := state.reporters ++ [.new (state.registry.metricsFor isIdle origin now).1] } := by
  obtain ⟨hsound, hlt, hmetrics⟩ := h.sound.metricsFor isIdle origin now
  have horiginShare : ∀ m, ((state.reporters ++
      [Reporter.new (state.registry.metricsFor isIdle origin now).1]).map
        (Reporter.originShare m)).sum = (state.reporters.map (Reporter.originShare m)).sum := by
    intro m
    refine sum_map_push ?_
    unfold Reporter.originShare
    split
    · rfl
    · rfl
  refine ⟨?_, ?_, ?_, ?_, hsound⟩
  · exact h.client.trans (congrArg Tally.saturated (sum_map_push rfl).symm)
  · intro m metrics hm
    rw [horiginShare]
    rcases hmetrics with hsame | hpushed
    · exact h.origins m metrics (hsame ▸ hm)
    · have hcases : (state.registry.metrics ++ [.new origin now])[m]? = some metrics :=
        hpushed ▸ hm
      rcases getElem?_push_cases hcases with hold | ⟨rfl, rfl⟩
      · exact h.origins m metrics hold
      · rw [h.sum_originShare_length]
        rfl
  · have hlength : state.registry.metrics.length ≤
        (state.registry.metricsFor isIdle origin now).2.metrics.length := by
      rcases hmetrics with hsame | hpushed
      · exact Nat.le_of_eq (congrArg List.length hsame.symm)
      · rw [hpushed, List.length_append]
        exact Nat.le_add_right _ _
    intro reporter hreporter
    rcases List.mem_append.mp hreporter with hold | hnew
    · exact Nat.lt_of_lt_of_le (h.holds reporter hold) hlength
    · rw [List.mem_singleton.mp hnew]
      exact hlt
  · intro reporter hreporter
    rcases List.mem_append.mp hreporter with hold | hnew
    · exact h.settling reporter hold
    · rw [List.mem_singleton.mp hnew]
      exact Reporter.settling_new _

theorem report (h : Accounted state) {i : Nat} {reporter after : Reporter} {report : Report}
    (hreporter : state.reporters[i]? = some reporter)
    (hreport : reporter.report report = some after) :
    Accounted { state with reporters := state.reporters.set i after } := by
  have hmem := List.mem_of_getElem? hreporter
  obtain ⟨hsettling, hshares, hmetrics⟩ := (h.settling reporter hmem).report hreport
  have hclient : after.clientShare = reporter.clientShare := congrFun hshares _
  have horigin : ∀ m, after.originShare m = reporter.originShare m := by
    intro m
    unfold Reporter.originShare
    rw [hshares, hmetrics]
  refine ⟨?_, ?_, ?_, ?_, h.sound⟩
  · exact h.client.trans (congrArg Tally.saturated (sum_map_set_same _ hreporter hclient).symm)
  · intro m metrics hm
    rw [sum_map_set_same _ hreporter (horigin m)]
    exact h.origins m metrics hm
  · exact forall_mem_set h.holds (hmetrics ▸ h.holds reporter hmem)
  · exact forall_mem_set h.settling hsettling

theorem advance (h : Accounted state) {i : Nat} {reporter : Reporter} {task : Task}
    {rest : List Task} {account after : Account} {progress : Progress}
    (hreporter : state.reporters[i]? = some reporter) (htodo : reporter.todo = task :: rest)
    (haccount : state.account reporter task.side = some account)
    (hsteps : account.tally.saturated = account.tally → task.op.Steps account after progress) :
    Accounted { state.setAccount reporter after task.side with
      reporters := state.reporters.set i (reporter.after task rest progress) } := by
  have hmem := List.mem_of_getElem? hreporter
  have hreporterSettling := h.settling reporter hmem
  have haffords := hreporterSettling.affords htodo
  have hafterMetrics : (reporter.after task rest progress).metrics = reporter.metrics :=
    reporter.after_metrics task rest progress
  cases hside : task.side with
  | metrics =>
      rw [hside] at haccount haffords
      obtain rfl := Option.some.inj haccount
      have hsaturated : state.metrics.tally.saturated = state.metrics.tally := by
        rw [h.client, Tally.saturated_saturated]
      have hop := hsteps hsaturated
      have hclient : (reporter.after task rest progress).clientShare =
          task.op.change progress reporter.clientShare := by
        unfold Reporter.clientShare
        rw [Reporter.after_shares, hside, Function.update_self]
      have horigin : ∀ m, (reporter.after task rest progress).originShare m =
          reporter.originShare m := by
        intro m
        unfold Reporter.originShare
        rw [Reporter.after_shares, hside, hafterMetrics, Function.update_of_ne (by decide)]
      refine ⟨?_, ?_, ?_, ?_, h.sound⟩
      · change after.tally = _
        rw [sum_map_set _ hreporter hclient (hop.change_within haffords), hop.tally_eq hsaturated,
          h.client, hop.change_saturated]
      · intro m metrics hm
        rw [sum_map_set_same _ hreporter (horigin m)]
        exact h.origins m metrics hm
      · exact forall_mem_set h.holds (hafterMetrics ▸ h.holds reporter hmem)
      · exact forall_mem_set h.settling (hreporterSettling.after hop htodo)
  | origin =>
      rw [hside] at haccount haffords
      obtain ⟨metrics, hmetrics, rfl⟩ := Option.map_eq_some_iff.mp haccount
      have haccounts := h.origins _ metrics hmetrics
      have hsaturated : metrics.account.tally.saturated = metrics.account.tally := by
        rw [haccounts, Tally.saturated_saturated]
      have hop := hsteps hsaturated
      have hclient : (reporter.after task rest progress).clientShare = reporter.clientShare := by
        unfold Reporter.clientShare
        rw [Reporter.after_shares, hside, Function.update_of_ne (by decide)]
      have hregistry : (state.registry.setAccount reporter.metrics after).metrics =
          state.registry.metrics.set reporter.metrics { metrics with account := after } :=
        modify_eq_set_of_getElem? _ hmetrics
      have hlength : (state.registry.setAccount reporter.metrics after).metrics.length =
          state.registry.metrics.length := List.length_modify ..
      refine ⟨?_, ?_, ?_, ?_, ?_⟩
      · exact h.client.trans (congrArg Tally.saturated (sum_map_set_same _ hreporter hclient).symm)
      · intro m other hm
        have hcases : (state.registry.metrics.set reporter.metrics
            { metrics with account := after })[m]? = some other := hregistry ▸ hm
        rcases getElem?_set_cases hcases with ⟨rfl, rfl⟩ | ⟨hne, hold⟩
        · have hshare : (reporter.after task rest progress).originShare reporter.metrics =
              task.op.change progress (reporter.originShare reporter.metrics) := by
            unfold Reporter.originShare
            rw [hafterMetrics, if_pos rfl, if_pos rfl, Reporter.after_shares, hside,
              Function.update_self]
          have hwithin : ActsWithin (task.op.change progress)
              (reporter.originShare reporter.metrics) := by
            unfold Reporter.originShare
            rw [if_pos rfl]
            exact hop.change_within haffords
          rw [sum_map_set _ hreporter hshare hwithin]
          change after.tally = _
          rw [hop.tally_eq hsaturated, haccounts, hop.change_saturated]
        · have hshare : (reporter.after task rest progress).originShare m =
              reporter.originShare m := by
            unfold Reporter.originShare
            rw [hafterMetrics, if_neg (Ne.symm hne), if_neg (Ne.symm hne)]
          rw [sum_map_set_same _ hreporter hshare]
          exact h.origins m other hold
      · refine forall_mem_set (fun party hparty => ?_) ?_
        · exact hlength ▸ h.holds party hparty
        · exact hlength ▸ hafterMetrics ▸ h.holds reporter hmem
      · exact forall_mem_set h.settling (hreporterSettling.after hop htodo)
      · exact ⟨h.sound.nodup, fun m hm => hlength ▸ h.sound.named m hm,
          fun hpruned m hm => h.sound.complete hpruned m (hlength ▸ hm)⟩

theorem step (h : Accounted state) (hmoves : state.Moves next) : Accounted next := by
  cases hmoves with
  | entered origin isIdle now => exact h.enter origin isIdle now
  | reported hreporter hreport => exact h.report hreporter hreport
  | @advanced _ _ _ reporter task _ _ _ _ hreporter htodo haccount hop =>
      have hvalid := (h.settling reporter (List.mem_of_getElem? hreporter)).valid task
        (by rw [htodo]; rfl)
      exact h.advance hreporter htodo haccount fun hsaturated =>
        Op.step_cases hvalid hsaturated hop

theorem of_reachable (h : system.Reachable state) : Accounted state :=
  h.invariant Accounted new fun _ ih hstep => ih.step (State.moves_of_step hstep)

/-- The client has counted what was reported. -/
theorem client_at_rest (h : Accounted state) (hrest : state.AtRest) :
    state.metrics.tally = state.recorded.saturated := by
  have hshares : state.reporters.map Reporter.clientShare =
      state.reporters.map Reporter.recorded :=
    List.map_congr_left fun reporter hreporter =>
      (h.settling reporter hreporter).shares_eq (hrest reporter hreporter) _
  rw [h.client, hshares]
  rfl

/-- The metrics of an origin have counted what was reported for them. -/
theorem origin_at_rest (h : Accounted state) (hrest : state.AtRest) {m : Nat}
    {metrics : OriginMetrics} (hmetrics : state.registry.metrics[m]? = some metrics) :
    metrics.account.tally = (state.recordedFor m).saturated := by
  have hshares : state.reporters.map (Reporter.originShare m) =
      state.reporters.map fun reporter =>
        if reporter.metrics = m then reporter.recorded else 0 := by
    refine List.map_congr_left fun reporter hreporter => ?_
    unfold Reporter.originShare
    rw [(h.settling reporter hreporter).shares_eq (hrest reporter hreporter)]
  rw [h.origins m metrics hmetrics, hshares]
  rfl

/-- What was reported, by the metrics that it was reported for. -/
theorem recorded_eq_sum (h : Accounted state) :
    state.recorded = ((List.range state.registry.metrics.length).map state.recordedFor).sum :=
  (sum_map_partition _ _ Reporter.metrics _ h.holds).symm

end Accounted

/-! ## Sums over the registry -/

theorem Tally.sum_count (tallies : List Tally) (c : Count) :
    tallies.sum.count c = (tallies.map fun tally => tally.count c).sum := by
  induction tallies with
  | nil => rfl
  | cons first rest ih =>
      rw [List.sum_cons, List.map_cons, List.sum_cons, ← ih]
      rfl

theorem Tally.sum_saturated {α : Type} (entries : List α) (f : α → Tally) :
    ((entries.map fun entry => (f entry).saturated).sum).saturated =
      (entries.map f).sum.saturated := by
  induction entries with
  | nil => rfl
  | cons first rest ih =>
      rw [List.map_cons, List.sum_cons, List.map_cons, List.sum_cons, Tally.saturated_add,
        ← Tally.add_saturated, ih, Tally.add_saturated]

theorem fromOrigins_eq (origins : List OriginMetricsSnapshot) :
    fromOrigins origins = (origins.map OriginMetricsSnapshot.tally).sum.saturated := by
  have hfold : ∀ (totals : Tally), origins.foldl
      (fun totals origin => (totals + origin.tally).saturated) totals.saturated =
        (totals + (origins.map OriginMetricsSnapshot.tally).sum).saturated := by
    induction origins with
    | nil =>
        intro totals
        rw [List.foldl_nil, List.map_nil, List.sum_nil, add_zero]
    | cons first rest ih =>
        intro totals
        rw [List.foldl_cons, Tally.saturated_add, ih, List.map_cons, List.sum_cons, add_assoc]
  have h := hfold 0
  rw [zero_add] at h
  exact h

/-- A part of the counted numbers is shown, and all others are zero. -/
theorem sum_eq_shown_iff {known lost : List Nat} {counted shown : Nat → Nat}
    (hle : ∀ m ∈ known, shown m ≤ counted m) :
    (known.map counted).sum + (lost.map counted).sum = (known.map shown).sum ↔
      (∀ m ∈ lost, counted m = 0) ∧ ∀ m ∈ known, shown m = counted m := by
  have hsum : (known.map shown).sum ≤ (known.map counted).sum ∧
      ((known.map shown).sum = (known.map counted).sum ↔ ∀ m ∈ known, shown m = counted m) := by
    induction known with
    | nil => exact ⟨Nat.le_refl _, fun _ _ h => absurd h List.not_mem_nil, fun _ => rfl⟩
    | cons first rest ih =>
        obtain ⟨hrest, hiff⟩ := ih fun m hm => hle m (List.mem_cons_of_mem _ hm)
        have hfirst := hle first List.mem_cons_self
        rw [List.map_cons, List.map_cons, List.sum_cons, List.sum_cons, List.forall_mem_cons,
          ← hiff]
        omega
  have hlost : (lost.map counted).sum = 0 ↔ ∀ m ∈ lost, counted m = 0 := by
    rw [List.sum_eq_zero_iff_forall_eq_nat, List.forall_mem_map]
  rw [← hsum.2, ← hlost]
  omega

namespace State

/-- The metrics that the registry knows. -/
def known (state : State) : List Nat := state.registry.origins.map Prod.snd

/-- The metrics that it has dropped. -/
def lost (state : State) : List Nat :=
  (List.range state.registry.metrics.length).filter fun m => !state.known.contains m

/-- The tally of the metrics `m` in a snapshot. -/
def shown (state : State) (clock : Nat → Nat) (m : Nat) : Tally :=
  (state.registry.metrics[m]?.map fun metrics => (metrics.snapshot (clock m)).tally).getD 0

/-- The numbers of requests and connections that there are. -/
def currentCounts : List Count :=
  [.activeRequests, .pendingRequests, .activeConnections, .idleConnections]

/-- Nothing is going on for an origin that the registry has dropped, and every origin with idle
connections knows since when. -/
structure ShowsPressure (state : State) : Prop where
  dropped : ∀ (m : Nat) (metrics : OriginMetrics), state.registry.metrics[m]? = some metrics →
    m ∉ state.known → ∀ c ∈ currentCounts, metrics.account.tally.count c = 0
  started : ∀ (m : Nat) (metrics : OriginMetrics), state.registry.metrics[m]? = some metrics →
    metrics.account.idleStartedAtNs = 0 → metrics.account.tally.count .idleConnections = 0

variable {state : State}

theorem mem_lost {m : Nat} :
    m ∈ state.lost ↔ m < state.registry.metrics.length ∧ m ∉ state.known := by
  unfold lost
  rw [List.mem_filter, List.mem_range, Bool.not_eq_true', List.contains_eq_mem,
    decide_eq_false_iff_not]

theorem known_append_lost (h : state.registry.Sound) :
    (state.known ++ state.lost).Perm (List.range state.registry.metrics.length) := by
  refine (List.perm_ext_iff_of_nodup ?_ List.nodup_range).mpr fun m => ?_
  · refine List.nodup_append.mpr ⟨h.nodup, List.nodup_range.filter _, ?_⟩
    rintro m hknown other hother rfl
    exact (mem_lost.mp hother).2 hknown
  · rw [List.mem_append, mem_lost, List.mem_range]
    constructor
    · rintro (hknown | hdropped)
      · exact h.named m hknown
      · exact hdropped.1
    · intro hm
      by_cases hknown : m ∈ state.known
      · exact Or.inl hknown
      · exact Or.inr ⟨hm, hknown⟩

/-- The totals of a snapshot. -/
theorem fromOrigins_snapshots (clock : Nat → Nat) :
    fromOrigins (state.registry.snapshots clock) =
      (state.known.map (state.shown clock)).sum.saturated := by
  rw [fromOrigins_eq]
  refine congrArg Tally.saturated ?_
  refine (((List.mergeSort_perm _ _).map OriginMetricsSnapshot.tally).sum_eq).trans ?_
  unfold known
  induction state.registry.origins with
  | nil => rfl
  | cons entry rest ih =>
      rw [List.filterMap_cons, List.map_cons, List.map_cons, List.sum_cons, ← ih]
      unfold shown
      cases state.registry.metrics[entry.2]? with
      | none => exact (zero_add _).symm
      | some metrics => rfl

/-- What a snapshot shows of the metrics `m`. -/
theorem shown_of_getElem? {clock : Nat → Nat} {m : Nat} {metrics : OriginMetrics}
    (h : state.registry.metrics[m]? = some metrics) :
    state.shown clock m = metrics.account.tally.setCount .idleConnections
      (metrics.idleStateSnapshot (clock m)).1 := by
  unfold shown
  rw [h]
  rfl

theorem shown_count_of_ne {clock : Nat → Nat} {m : Nat} {metrics : OriginMetrics} {c : Count}
    (h : state.registry.metrics[m]? = some metrics) (hc : c ≠ .idleConnections) :
    (state.shown clock m).count c = metrics.account.tally.count c := by
  rw [shown_of_getElem? h, Tally.setCount_count_of_ne _ _ hc]

/-- Idle connections without a start are not shown. -/
theorem shown_count_idle {clock : Nat → Nat} {m : Nat} {metrics : OriginMetrics}
    (h : state.registry.metrics[m]? = some metrics) :
    (state.shown clock m).count .idleConnections =
      if metrics.account.idleStartedAtNs = 0 then 0
      else metrics.account.tally.count .idleConnections := by
  rw [shown_of_getElem? h, Tally.setCount_count_self]
  unfold OriginMetrics.idleStateSnapshot
  by_cases hstarted : metrics.account.idleStartedAtNs = 0
  · rw [if_pos (Or.inr hstarted), if_pos hstarted]
  · rw [if_neg hstarted]
    by_cases hidle : metrics.account.tally.count .idleConnections = 0
    · rw [if_pos (Or.inl hidle), hidle]
    · rw [if_neg (by tauto)]

end State

namespace Accounted

variable {state : State}

/-- The number that the client has counted, from what was reported for the metrics. -/
theorem count_at_rest (h : Accounted state) (hrest : state.AtRest) (c : Count) :
    state.metrics.tally.count c =
      (state.known.map fun m => (state.recordedFor m).count c).sum +
        (state.lost.map fun m => (state.recordedFor m).count c).sum := by
  rw [h.client_at_rest hrest, Tally.saturated_count, h.recorded_eq_sum, Tally.sum_count,
    ← List.sum_append, ← List.map_append, List.map_map]
  exact ((State.known_append_lost h.sound).map _).sum_eq.symm

/-- The gauges of a snapshot agree when the registry shows all pressure, and only then. -/
theorem currentCounts_iff (h : Accounted state) (hrest : state.AtRest) (clock : Nat → Nat) :
    (∀ c ∈ State.currentCounts, state.metrics.tally.count c =
        (fromOrigins (state.registry.snapshots clock)).count c) ↔ state.ShowsPressure := by
  have hknown : ∀ m ∈ state.known, ∃ metrics, state.registry.metrics[m]? = some metrics :=
    fun m hm => ⟨_, List.getElem?_eq_getElem (h.sound.named m hm)⟩
  have hcounted : ∀ (m : Nat) (metrics : OriginMetrics) (c : Count),
      state.registry.metrics[m]? = some metrics →
        metrics.account.tally.count c = (state.recordedFor m).count c := by
    intro m metrics c hmetrics
    rw [h.origin_at_rest hrest hmetrics]
    rfl
  have hle : ∀ c, ∀ m ∈ state.known,
      (state.shown clock m).count c ≤ (state.recordedFor m).count c := by
    intro c m hm
    obtain ⟨metrics, hmetrics⟩ := hknown m hm
    rw [← hcounted m metrics c hmetrics]
    by_cases hc : c = .idleConnections
    · rw [hc, State.shown_count_idle hmetrics]
      split
      · exact Nat.zero_le _
      · exact Nat.le_refl _
    · exact Nat.le_of_eq (State.shown_count_of_ne hmetrics hc)
  have hcount : ∀ c, state.metrics.tally.count c =
      (fromOrigins (state.registry.snapshots clock)).count c ↔
        (∀ m ∈ state.lost, (state.recordedFor m).count c = 0) ∧
          ∀ m ∈ state.known, (state.shown clock m).count c = (state.recordedFor m).count c := by
    intro c
    rw [h.count_at_rest hrest, State.fromOrigins_snapshots, Tally.saturated_count,
      Tally.sum_count, List.map_map]
    exact sum_eq_shown_iff (hle c)
  constructor
  · intro hall
    have hdropped : ∀ (m : Nat) (metrics : OriginMetrics),
        state.registry.metrics[m]? = some metrics → m ∉ state.known →
          ∀ c ∈ State.currentCounts, metrics.account.tally.count c = 0 := by
      intro m metrics hmetrics hm c hc
      rw [hcounted m metrics c hmetrics]
      have hlt : m < state.registry.metrics.length := (List.getElem?_eq_some_iff.mp hmetrics).1
      exact ((hcount c).mp (hall c hc)).1 m (State.mem_lost.mpr ⟨hlt, hm⟩)
    refine ⟨hdropped, fun m metrics hmetrics hstarted => ?_⟩
    have hidle : Count.idleConnections ∈ State.currentCounts := by decide
    by_cases hm : m ∈ state.known
    · rw [hcounted m metrics _ hmetrics,
        ← ((hcount .idleConnections).mp (hall _ hidle)).2 m hm,
        State.shown_count_idle hmetrics, if_pos hstarted]
    · exact hdropped m metrics hmetrics hm _ hidle
  · intro hshows c hc
    refine (hcount c).mpr ⟨fun m hm => ?_, fun m hm => ?_⟩
    · obtain ⟨hlt, hunknown⟩ := State.mem_lost.mp hm
      have hmetrics := List.getElem?_eq_getElem hlt
      rw [← hcounted m _ c hmetrics]
      exact hshows.dropped m _ hmetrics hunknown c hc
    · obtain ⟨metrics, hmetrics⟩ := hknown m hm
      rw [← hcounted m metrics c hmetrics]
      by_cases hidle : c = .idleConnections
      · rw [hidle, State.shown_count_idle hmetrics]
        split
        · exact (hshows.started m metrics hmetrics ‹_›).symm
        · rfl
      · exact State.shown_count_of_ne hmetrics hidle

/-- Nothing is missing in the totals of a registry that has dropped nothing. -/
theorem totals_eq (h : Accounted state) (hrest : state.AtRest)
    (hkept : state.registry.prunedIdleOrigins = false) (hshows : state.ShowsPressure)
    (clock : Nat → Nat) :
    fromOrigins (state.registry.snapshots clock) = state.metrics.tally := by
  have hlost : state.lost = [] := by
    refine List.eq_nil_iff_forall_not_mem.mpr fun m hm => ?_
    obtain ⟨hlt, hunknown⟩ := State.mem_lost.mp hm
    exact hunknown (h.sound.complete hkept m hlt)
  have hperm := State.known_append_lost h.sound
  rw [hlost, List.append_nil] at hperm
  have hshown : state.known.map (state.shown clock) =
      state.known.map fun m => (state.recordedFor m).saturated := by
    refine List.map_congr_left fun m hm => ?_
    have hmetrics := List.getElem?_eq_getElem (h.sound.named m hm)
    rw [← h.origin_at_rest hrest hmetrics]
    refine Tally.ext (funext fun c => ?_) ?_ ?_
    · by_cases hidle : c = .idleConnections
      · rw [hidle, State.shown_count_idle hmetrics]
        split
        · exact (hshows.started m _ hmetrics ‹_›).symm
        · rfl
      · exact State.shown_count_of_ne hmetrics hidle
    · rw [State.shown_of_getElem? hmetrics]
      rfl
    · rw [State.shown_of_getElem? hmetrics]
      rfl
  rw [State.fromOrigins_snapshots, hshown, Tally.sum_saturated, h.client_at_rest hrest,
    h.recorded_eq_sum, (hperm.map state.recordedFor).sum_eq]

end Accounted

/-! ## The snapshot -/

namespace TransportStateSnapshot

theorem hasCoherentCurrentPressure_iff {snapshot : TransportStateSnapshot} {totals : Tally} :
    snapshot.hasCoherentCurrentPressure totals = true ↔
      ∀ c ∈ State.currentCounts, snapshot.metrics.count c = totals.count c := by
  unfold hasCoherentCurrentPressure State.currentCounts
  simp only [Bool.and_eq_true, beq_iff_eq, List.forall_mem_cons, and_assoc]
  simp

theorem hasCoherentHistoricalTransportCounters_self (snapshot : TransportStateSnapshot) :
    snapshot.hasCoherentHistoricalTransportCounters snapshot.metrics = true := by
  unfold hasCoherentHistoricalTransportCounters
  simp

end TransportStateSnapshot

/-- The result is coherent as soon as one of the attempts is. -/
theorem retrySnapshot_coherent (once : Nat → TransportStateSnapshot) (attempt left : Nat) :
    (retrySnapshot once attempt left).hasCoherentPressure = true ↔
      ∃ later, later ≤ left ∧ (once (attempt + later)).hasCoherentPressure = true := by
  induction left generalizing attempt with
  | zero =>
      constructor
      · exact fun h => ⟨0, Nat.le_refl 0, h⟩
      · rintro ⟨later, hle, h⟩
        obtain rfl := Nat.le_zero.mp hle
        exact h
  | succ left ih =>
      rw [retrySnapshot]
      split
      · rename_i hfirst
        exact ⟨fun _ => ⟨0, Nat.zero_le _, hfirst⟩, fun _ => hfirst⟩
      · rename_i hfirst
        rw [ih]
        constructor
        · rintro ⟨later, hle, h⟩
          refine ⟨later + 1, Nat.succ_le_succ hle, ?_⟩
          rw [← Nat.add_assoc, Nat.add_right_comm]
          exact h
        · rintro ⟨later, hle, h⟩
          cases later with
          | zero => exact absurd h hfirst
          | succ later =>
              refine ⟨later, Nat.le_of_succ_le_succ hle, ?_⟩
              rw [Nat.add_right_comm, Nat.add_assoc]
              exact h

theorem Accounted.coherent_iff {state : State} (h : Accounted state) (hrest : state.AtRest)
    (metadata : TelemetrySnapshotMetadata) (clock : Nat → Nat) :
    (state.transportStateSnapshotOnce metadata clock).hasCoherentPressure = true ↔
      state.ShowsPressure := by
  have hcurrent := h.currentCounts_iff hrest clock
  unfold TransportStateSnapshot.hasCoherentPressure
  rw [Bool.and_eq_true, TransportStateSnapshot.hasCoherentCurrentPressure_iff]
  constructor
  · rintro ⟨hcounts, -⟩
    exact hcurrent.mp hcounts
  · intro hshows
    refine ⟨hcurrent.mpr hshows, ?_⟩
    cases hpruned : state.registry.prunedIdleOrigins with
    | true =>
        refine Bool.or_eq_true_iff.mpr (Or.inl ?_)
        change (!(!state.registry.prunedIdleOrigins)) = true
        rw [hpruned]
        rfl
    | false =>
        refine Bool.or_eq_true_iff.mpr (Or.inr ?_)
        change TransportStateSnapshot.hasCoherentHistoricalTransportCounters _
          (fromOrigins (state.registry.snapshots clock)) = true
        rw [h.totals_eq hrest hpruned hshows clock]
        exact TransportStateSnapshot.hasCoherentHistoricalTransportCounters_self _

/-- Whatever the interleaving was: once no report is being made, the counters of the client and
of every origin are exactly what was reported, and the transport snapshot is coherent unless
the registry has dropped an origin that is in use, or an origin does not know since when its
connections are idle. -/
theorem transport_state_at_rest {state : State} (h : system.Reachable state)
    (hrest : state.AtRest) :
    state.metrics.tally = state.recorded.saturated ∧
      (∀ (m : Nat) (metrics : OriginMetrics), state.registry.metrics[m]? = some metrics →
        metrics.account.tally = (state.recordedFor m).saturated) ∧
      (state.registry.prunedIdleOrigins = false →
        ∀ m, m < state.registry.metrics.length → m ∈ state.known) ∧
      ∀ (metadata : TelemetrySnapshotMetadata) (clock : Nat → Nat → Nat),
        (transportStateSnapshot fun attempt =>
          state.transportStateSnapshotOnce metadata (clock attempt)).hasCoherentPressure = true ↔
            state.ShowsPressure := by
  have haccounted := Accounted.of_reachable h
  refine ⟨haccounted.client_at_rest hrest,
    fun m metrics hmetrics => haccounted.origin_at_rest hrest hmetrics,
    haccounted.sound.complete, fun metadata clock => ?_⟩
  unfold transportStateSnapshot
  rw [retrySnapshot_coherent]
  constructor
  · rintro ⟨later, -, hcoherent⟩
    exact (haccounted.coherent_iff hrest metadata _).mp hcoherent
  · intro hshows
    exact ⟨0, Nat.zero_le _, (haccounted.coherent_iff hrest metadata _).mpr hshows⟩

namespace CoherenceExample

/-- A number of rounds in which two reporters take turns. -/
def rounds (number i j now : Nat) : List State.Event :=
  (List.replicate number [State.Event.advance i now false, .advance j now false]).flatten

/-- A request and a connection count for one origin at the same time.  Both look at the time of
the last activity before either raises it; the connection fails once, then raises it, and so the
request does not.  After that the connection becomes idle while a second origin gets one. -/
def events : List State.Event :=
  [.enter ['o'] (fun _ => false) 0, .enter ['o'] (fun _ => false) 1,
    .enter ['p'] (fun _ => false) 2, .report 0 (.both .activeRequestStarted),
    .report 1 (.both .connectionOpened), .report 2 (.both .connectionOpened)] ++
    rounds 3 0 1 3 ++ [.advance 1 4 false, .advance 1 4 false] ++ rounds 1 0 1 5 ++
    [.advance 1 6 true, .advance 1 6 false, .advance 0 6 false,
      .report 1 (.both .connectionBecameIdle)] ++
    rounds 5 2 1 7 ++ [.advance 2 8 false, .advance 2 8 false]

def state : State := (system.run events).getD State.new

theorem reachable : system.Reachable state :=
  TransitionSystem.reachable_of_run (show system.run events = some state from rfl)

theorem atRest : state.AtRest := by
  have hdone : state.reporters.map Reporter.todo = [[], [], []] := rfl
  intro reporter hreporter
  have htodo : reporter.todo ∈ state.reporters.map Reporter.todo := List.mem_map_of_mem hreporter
  rw [hdone] at htodo
  simpa using htodo

theorem showsPressure : state.ShowsPressure where
  dropped m metrics hmetrics hunknown := by
    have hlt : m < 2 := (List.getElem?_eq_some_iff.mp hmetrics).1
    have hknown : state.known = [1, 0] := rfl
    rw [hknown] at hunknown
    obtain rfl | rfl : m = 0 ∨ m = 1 := by omega
    · exact absurd (by decide) hunknown
    · exact absurd (by decide) hunknown
  started m metrics hmetrics hstarted := by
    have hlt : m < 2 := (List.getElem?_eq_some_iff.mp hmetrics).1
    obtain rfl | rfl : m = 0 ∨ m = 1 := by omega
    · -- The first origin has an idle connection, and knows since when.
      obtain rfl := Option.some.inj hmetrics
      exact absurd hstarted (by decide)
    · obtain rfl := Option.some.inj hmetrics
      rfl

/-- One permit and two connections are counted on both sides, one of the connections is idle, and
the snapshot says that the two sides agree. -/
theorem transport_state_at_rest_example :
    (transportStateSnapshot fun _ =>
      state.transportStateSnapshotOnce ⟨4, 1⟩ fun _ => 9).hasCoherentPressure = true ∧
        State.currentCounts.map state.metrics.tally.count = [1, 0, 2, 1] :=
  ⟨((transport_state_at_rest reachable atRest).2.2.2 ⟨4, 1⟩ fun _ _ => 9).mpr showsPressure, rfl⟩

end CoherenceExample

end FogHttp.Metrics
