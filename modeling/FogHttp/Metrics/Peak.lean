import FogHttp.Metrics.Coherence

/-!
# The peak of the pending requests

A pending request is counted by one operation, and the peak is raised by a loop after it.  In
between other requests come and go, and other threads raise the peak.

* `Covered` says of a number that the peak has reached it, or that a reporter will raise the
  peak to it.  Later steps keep that.
* `Attained` says of a number that so many requests were pending once.
* `peak_pending_requests`: once no report is being made, the peak is the largest number of
  requests that ever was pending, on either side.
-/

namespace FogHttp.Metrics

open Lib

/-! ## Operations on the peak -/

namespace Op

variable {op : Op} {account after : Account} {now : Nat} {spurious : Bool} {cas : Cas Unit}
  {progress : Progress}

/-- A loop on another counter leaves the peak alone. -/
theorem loopStep_peak {target : Cell × AtomicLoop Unit} (hne : target.1 ≠ .peakPendingRequests)
    (h : loopStep spurious account cas target = some (after, progress)) :
    after.peakPendingRequests = account.peakPendingRequests := by
  obtain ⟨⟨value, next⟩, -, h⟩ := Option.bind_eq_some_iff.mp h
  obtain ⟨rfl, -⟩ := Prod.mk.inj (Option.some.inj h)
  cases hcell : target.1 with
  | peakPendingRequests => exact absurd hcell hne
  | count c => rfl
  | waitTimeTotalNs w => rfl
  | waitTimeMaxNs w => rfl
  | lastActivityAtNs => rfl

/-- Only one statement changes the peak. -/
theorem step_peak_of_ne (hne : ∀ current, op ≠ .raisePeak current)
    (h : op.step now spurious account cas = some (after, progress)) :
    after.peakPendingRequests = account.peakPendingRequests := by
  cases op with
  | raisePeak current => exact absurd rfl (hne current)
  | saturatingSub c => exact loopStep_peak (by simp) h
  | saturatingAdd w ns => exact loopStep_peak (by simp) h
  | updateMax w ns => exact loopStep_peak (by simp) h
  | raiseActivity now => exact loopStep_peak (by simp) h
  | fetchAdd c =>
      obtain ⟨rfl, -⟩ := Prod.mk.inj (Option.some.inj h)
      rfl
  | fetchSub c =>
      obtain ⟨rfl, -⟩ := Prod.mk.inj (Option.some.inj h)
      rfl
  | store w ns =>
      obtain ⟨rfl, -⟩ := Prod.mk.inj (Option.some.inj h)
      rfl
  | register =>
      obtain ⟨rfl, -⟩ := Prod.mk.inj (Option.some.inj h)
      rfl
  | touch =>
      obtain ⟨rfl, -⟩ := Prod.mk.inj (Option.some.inj h)
      rfl
  | touchIdle =>
      obtain ⟨rfl, -⟩ := Prod.mk.inj (Option.some.inj h)
      rfl
  | enterIdle startedAt =>
      obtain ⟨rfl, -⟩ := Prod.mk.inj (Option.some.inj h)
      rfl
  | leaveIdle =>
      obtain ⟨rfl, -⟩ := Prod.mk.inj (Option.some.inj h)
      rfl

/-- The loop goes on, or it has raised the peak. -/
theorem step_raisePeak {current : Nat} (hvalid : (raisePeak current).Valid cas)
    (h : (raisePeak current).step now spurious account cas = some (after, progress)) :
    (∃ cas, progress = .again cas) ∧ after.peakPendingRequests = account.peakPendingRequests ∨
      progress = .did [] ∧
        after.peakPendingRequests = max account.peakPendingRequests current := by
  obtain ⟨⟨value, next⟩, hstep, h⟩ := Option.bind_eq_some_iff.mp h
  have hloop : (updateAtomicMax current).Valid cas := hvalid _ rfl
  obtain ⟨rfl, rfl⟩ := Prod.mk.inj (Option.some.inj h)
  cases next with
  | done result => exact Or.inr ⟨rfl, after_of_updateAtomicMax hloop hstep⟩
  | load =>
      obtain ⟨-, hbody | hdone⟩ := AtomicLoop.step_cases hloop hstep
      · exact Or.inl ⟨⟨_, rfl⟩, hbody.1⟩
      · exact absurd hdone.2 (by simp)
  | exchange expected stored =>
      obtain ⟨-, hbody | hdone⟩ := AtomicLoop.step_cases hloop hstep
      · exact Or.inl ⟨⟨_, rfl⟩, hbody.1⟩
      · exact absurd hdone.2 (by simp)

/-- The peak never goes down. -/
theorem step_peak_le (hvalid : op.Valid cas)
    (h : op.step now spurious account cas = some (after, progress)) :
    account.peakPendingRequests ≤ after.peakPendingRequests := by
  by_cases hraise : ∃ current, op = .raisePeak current
  · obtain ⟨current, rfl⟩ := hraise
    rcases step_raisePeak hvalid h with ⟨-, hsame⟩ | ⟨-, hraised⟩
    · exact Nat.le_of_eq hsame.symm
    · rw [hraised]
      exact Nat.le_max_left _ _
  · exact Nat.le_of_eq (step_peak_of_ne (fun current hop => hraise ⟨current, hop⟩) h).symm

end Op

/-! ## Pending requests -/

/-- A pending request is only counted together with the peak. -/
def Op.plain (op : Op) : Bool := op != .fetchAdd .pendingRequests

/-- The peak is only raised after such a count. -/
def Op.reported : Op → Bool
  | .raisePeak _ => false
  | op => op.plain

theorem Op.plain_of_reported {op : Op} (h : op.reported = true) : op.plain = true := by
  cases op with
  | raisePeak current => rfl
  | _ => exact h

theorem Tally.lose_count_le (tally : Tally) (c d : Count) :
    (tally.lose c).count d ≤ tally.count d := by
  by_cases hd : d = c
  · rw [hd, lose, setCount_count_self]
    exact Nat.sub_le _ _
  · rw [lose, setCount_count_of_ne _ _ hd]

theorem Tally.gain_count_of_ne (tally : Tally) {c d : Count} (h : d ≠ c) :
    (tally.gain c).count d = tally.count d := setCount_count_of_ne _ _ h

/-- What a statement does to the number of pending requests. -/
theorem Op.record_pending {op : Op} (hplain : op.plain = true) (hregister : op ≠ .register)
    (tally : Tally) :
    (op.record tally).count .pendingRequests ≤ tally.count .pendingRequests := by
  cases op with
  | register => exact absurd rfl hregister
  | fetchAdd c =>
      have hc : Count.pendingRequests ≠ c := by
        rintro rfl
        exact absurd hplain Bool.false_ne_true
      exact Nat.le_of_eq (tally.gain_count_of_ne hc)
  | fetchSub c => exact tally.lose_count_le c _
  | saturatingSub c => exact tally.lose_count_le c _
  | leaveIdle => exact tally.lose_count_le _ _
  | touchIdle => exact Nat.le_of_eq (tally.gain_count_of_ne (by decide))
  | enterIdle startedAt => exact Nat.le_of_eq (tally.gain_count_of_ne (by decide))
  | _ => exact Nat.le_refl _

/-- An operation of any other statement adds no pending request. -/
theorem Op.Steps.pending_le {op : Op} {account after : Account} {progress : Progress}
    (h : op.Steps account after progress)
    (hsaturated : account.tally.saturated = account.tally) (hplain : op.plain = true)
    (hregister : op ≠ .register) :
    after.tally.count .pendingRequests ≤ account.tally.count .pendingRequests := by
  rw [h.tally_eq hsaturated, Tally.saturated_count]
  cases h with
  | again hvalid hnext => exact Nat.le_refl _
  | goes hleft hnext => exact Nat.le_refl _
  | did hleft hnext => exact Op.record_pending hplain hregister _

theorem Method.reported_onMetrics (method : Method) :
    method.onMetrics.all Op.reported = true := by
  cases method with
  | responseBodyFinished outcome =>
      cases outcome with
      | reuseEligible => rfl
      | closed => rfl
      | aborted => rfl
  | _ => rfl

theorem Method.reported_onOrigin (method : Method) : method.onOrigin.all Op.reported = true := by
  cases method with
  | connectionBecameIdle => rfl
  | connectionLeftIdle => rfl
  | _ =>
      refine List.all_append.trans ?_
      rw [reported_onMetrics]
      rfl

theorem reported_map {side : Side} {ops : List Op} (h : ops.all Op.reported = true) :
    ∀ task ∈ ops.map (Task.mk side), task.op.reported = true := by
  intro task htask
  obtain ⟨op, hop, rfl⟩ := List.mem_map.mp htask
  exact List.all_eq_true.mp h op hop

theorem Report.reported (report : Report) : ∀ task ∈ report.tasks, task.op.reported = true := by
  intro task htask
  cases report with
  | both method =>
      rcases List.mem_append.mp htask with hmetrics | horigin
      · exact reported_map method.reported_onMetrics task hmetrics
      · exact reported_map method.reported_onOrigin task horigin
  | pendingAcquireDropped elapsed =>
      rcases List.mem_append.mp htask with hmetrics | horigin
      · refine reported_map ?_ task hmetrics
        rw [List.all_append, Method.reported_onMetrics, Method.reported_onMetrics]
        rfl
      · refine reported_map ?_ task horigin
        rw [List.all_append, Method.reported_onOrigin, Method.reported_onOrigin]
        rfl

/-! ## Both sides at once -/

/-- The client, or the metrics of an origin. -/
inductive Place where
  | client
  | origin (m : Nat)
deriving DecidableEq, Repr

def Reporter.place (reporter : Reporter) : Side → Place
  | .metrics => .client
  | .origin => .origin reporter.metrics

namespace State

def accountAt (state : State) : Place → Option Account
  | .client => some state.metrics
  | .origin m => state.registry.metrics[m]?.map OriginMetrics.account

theorem account_eq (state : State) (reporter : Reporter) (side : Side) :
    state.account reporter side = state.accountAt (reporter.place side) := by
  cases side with
  | metrics => rfl
  | origin => rfl

/-- An operation changes the counters of one place. -/
theorem accountAt_setAccount {state : State} {reporter : Reporter} {side : Side}
    {account : Account} (after : Account)
    (h : state.account reporter side = some account) (place : Place) :
    (state.setAccount reporter after side).accountAt place =
      if place = reporter.place side then some after else state.accountAt place := by
  cases side with
  | metrics =>
      cases place with
      | client => rfl
      | origin m => rfl
  | origin =>
      cases place with
      | client => rfl
      | origin m =>
          obtain ⟨metrics, hmetrics, -⟩ := Option.map_eq_some_iff.mp h
          change ((state.registry.metrics.modify reporter.metrics _)[m]?).map _ = _
          by_cases hm : m = reporter.metrics
          · subst hm
            have hplace : Place.origin reporter.metrics = reporter.place .origin := rfl
            rw [List.getElem?_modify_eq, hmetrics, if_pos hplace]
            rfl
          · rw [List.getElem?_modify_ne _ _ (Ne.symm hm), if_neg (by
              intro hplace
              exact hm (Place.origin.inj hplace))]
            rfl

/-- A lookup keeps all counters, and new ones are zero. -/
theorem accountAt_enter {state : State} (h : state.registry.Sound) (origin : Text)
    (isIdle : Nat → Bool) (now : Nat) (reporters : List Reporter) (place : Place) :
    ({ state with
        registry := (state.registry.metricsFor isIdle origin now).2
        reporters } : State).accountAt place = state.accountAt place ∨
      state.accountAt place = none ∧ ({ state with
        registry := (state.registry.metricsFor isIdle origin now).2
        reporters } : State).accountAt place = some (OriginMetrics.new origin now).account := by
  obtain ⟨-, -, hsame | hpushed⟩ := h.metricsFor isIdle origin now
  · cases place with
    | client => exact Or.inl rfl
    | origin m => exact Or.inl (congrArg (fun all => (all[m]?).map OriginMetrics.account) hsame)
  · cases place with
    | client => exact Or.inl rfl
    | origin m =>
        change ((state.registry.metricsFor isIdle origin now).2.metrics[m]?).map _ =
            (state.registry.metrics[m]?).map _ ∨
          (state.registry.metrics[m]?).map _ = none ∧
            ((state.registry.metricsFor isIdle origin now).2.metrics[m]?).map _ =
              some (OriginMetrics.new origin now).account
        rw [hpushed]
        rcases Nat.lt_trichotomy m state.registry.metrics.length with hlt | rfl | hgt
        · rw [List.getElem?_append_left hlt]
          exact Or.inl rfl
        · rw [List.getElem?_concat_length]
          exact Or.inr ⟨by rw [List.getElem?_eq_none (Nat.le_refl _)]; rfl, rfl⟩
        · rw [List.getElem?_eq_none (by rw [List.length_append, List.length_singleton]; omega),
            List.getElem?_eq_none (Nat.le_of_lt hgt)]
          exact Or.inl rfl

end State

theorem Accounted.saturated {state : State} (h : Accounted state) {place : Place}
    {account : Account} (haccount : state.accountAt place = some account) :
    account.tally.saturated = account.tally := by
  cases place with
  | client =>
      obtain rfl := Option.some.inj haccount
      rw [h.client, Tally.saturated_saturated]
  | origin m =>
      obtain ⟨metrics, hmetrics, rfl⟩ := Option.map_eq_some_iff.mp haccount
      rw [h.origins m metrics hmetrics, Tally.saturated_saturated]

/-! ## What is left of a statement -/

/-- What can be left of a statement. -/
theorem Op.left_cases {op : Op} {account after : Account} {now : Nat} {spurious : Bool}
    {cas : Cas Unit} {progress : Progress} {left : List Op}
    (h : op.step now spurious account cas = some (after, progress))
    (hleft : progress = .goes left ∨ progress = .did left) :
    left = [] ∨ left = [.raiseActivity now] ∨ left = [.raiseActivity now, .enterIdle now] ∨
      left = [.raisePeak (after.tally.count .pendingRequests)] := by
  have hnothing : ∀ {next : Account}, some (next, Progress.did []) = some (after, progress) →
      left = [] := by
    intro next h
    obtain ⟨-, rfl⟩ := Prod.mk.inj (Option.some.inj h)
    rcases hleft with hleft | hleft
    · exact absurd hleft (by simp)
    · exact (Progress.did.inj hleft).symm
  have hloop : ∀ {target : Cell × AtomicLoop Unit},
      loopStep spurious account cas target = some (after, progress) → left = [] := by
    intro target h
    obtain ⟨⟨value, next⟩, -, h⟩ := Option.bind_eq_some_iff.mp h
    cases next with
    | done result => exact hnothing h
    | load =>
        obtain ⟨-, rfl⟩ := Prod.mk.inj (Option.some.inj h)
        exact absurd hleft (by simp)
    | exchange expected stored =>
        obtain ⟨-, rfl⟩ := Prod.mk.inj (Option.some.inj h)
        exact absurd hleft (by simp)
  cases op with
  | register =>
      obtain ⟨rfl, rfl⟩ := Prod.mk.inj (Option.some.inj h)
      rcases hleft with hleft | hleft
      · exact absurd hleft (by simp)
      · have hpending := account.tally.setCount_count_self .pendingRequests
          (account.tally.count .pendingRequests + 1)
        refine Or.inr (Or.inr (Or.inr ?_))
        rw [← Progress.did.inj hleft]
        exact congrArg (fun n => [Op.raisePeak n]) hpending.symm
  | touch =>
      obtain ⟨-, rfl⟩ := Prod.mk.inj (Option.some.inj h)
      rcases hleft with hleft | hleft
      · exact Or.inr (Or.inl (Progress.goes.inj hleft).symm)
      · exact absurd hleft (by simp)
  | touchIdle =>
      obtain ⟨-, rfl⟩ := Prod.mk.inj (Option.some.inj h)
      rcases hleft with hleft | hleft
      · exact Or.inr (Or.inr (Or.inl (Progress.goes.inj hleft).symm))
      · exact absurd hleft (by simp)
  | fetchAdd c => exact Or.inl (hnothing h)
  | fetchSub c => exact Or.inl (hnothing h)
  | store w ns => exact Or.inl (hnothing h)
  | enterIdle startedAt => exact Or.inl (hnothing h)
  | leaveIdle => exact Or.inl (hnothing h)
  | saturatingSub c => exact Or.inl (hloop h)
  | saturatingAdd w ns => exact Or.inl (hloop h)
  | updateMax w ns => exact Or.inl (hloop h)
  | raisePeak other => exact Or.inl (hloop h)
  | raiseActivity now => exact Or.inl (hloop h)

/-- Every statement that is left is plain, and a raise of the peak is to the number of pending
requests that there are. -/
theorem Op.left_plain {op other : Op} {account after : Account} {now : Nat} {spurious : Bool}
    {cas : Cas Unit} {progress : Progress} {left : List Op}
    (h : op.step now spurious account cas = some (after, progress))
    (hleft : progress = .goes left ∨ progress = .did left) (hmem : other ∈ left) :
    other.plain = true ∧ ∀ current, other = .raisePeak current →
      current = after.tally.count .pendingRequests := by
  rcases Op.left_cases h hleft with rfl | rfl | rfl | rfl
  · exact absurd hmem List.not_mem_nil
  · obtain rfl := List.mem_singleton.mp hmem
    exact ⟨rfl, fun _ h => absurd h (by simp)⟩
  · rcases List.mem_cons.mp hmem with rfl | hmem
    · exact ⟨rfl, fun _ h => absurd h (by simp)⟩
    · obtain rfl := List.mem_singleton.mp hmem
      exact ⟨rfl, fun _ h => absurd h (by simp)⟩
  · obtain rfl := List.mem_singleton.mp hmem
    exact ⟨rfl, fun _ h => (Op.raisePeak.inj h).symm⟩

/-- The statements after an operation are old ones, or what is left of the statement. -/
theorem Reporter.mem_after_todo {reporter : Reporter} {task other : Task} {rest : List Task}
    {progress : Progress} (htodo : reporter.todo = task :: rest)
    (h : other ∈ (reporter.after task rest progress).todo) :
    other ∈ reporter.todo ∨ ∃ left op, (progress = .goes left ∨ progress = .did left) ∧
      op ∈ left ∧ other = ⟨task.side, op⟩ := by
  have hpushed : ∀ left : List Op, other ∈ left.map (⟨task.side, ·⟩) ++ rest →
      other ∈ reporter.todo ∨ ∃ op ∈ left, other = ⟨task.side, op⟩ := by
    intro left h
    rcases List.mem_append.mp h with hleft | hrest
    · obtain ⟨op, hop, rfl⟩ := List.mem_map.mp hleft
      exact Or.inr ⟨op, hop, rfl⟩
    · exact Or.inl (htodo ▸ List.mem_cons_of_mem _ hrest)
  cases progress with
  | again cas => exact Or.inl h
  | goes left =>
      rcases hpushed left h with hold | ⟨op, hop, heq⟩
      · exact Or.inl hold
      · exact Or.inr ⟨left, op, Or.inl rfl, hop, heq⟩
  | did left =>
      rcases hpushed left h with hold | ⟨op, hop, heq⟩
      · exact Or.inl hold
      · exact Or.inr ⟨left, op, Or.inr rfl, hop, heq⟩

/-- A statement behind the first one is still to be done. -/
theorem Reporter.mem_after_todo_of_rest {reporter : Reporter} {task other : Task}
    {rest : List Task} {progress : Progress} (htodo : reporter.todo = task :: rest)
    (h : other ∈ rest) : other ∈ (reporter.after task rest progress).todo := by
  cases progress with
  | again cas => exact htodo ▸ List.mem_cons_of_mem _ h
  | goes left => exact List.mem_append_right _ h
  | did left => exact List.mem_append_right _ h

/-! ## Numbers that the peak has reached or will reach -/

/-- The reporter will raise a peak to this number. -/
def Reporter.Raises (reporter : Reporter) (place : Place) (n : Nat) : Prop :=
  ∃ side current, reporter.place side = place ∧
    (⟨side, .raisePeak current⟩ : Task) ∈ reporter.todo ∧ n ≤ current

/-- The peak has reached this number, or it will. -/
def Covered (place : Place) (n : Nat) (state : State) : Prop :=
  (∃ account, state.accountAt place = some account ∧ n ≤ account.peakPendingRequests) ∨
    ∃ reporter ∈ state.reporters, reporter.Raises place n

theorem Covered.mono {place : Place} {n m : Nat} {state : State} (h : Covered place n state)
    (hle : m ≤ n) : Covered place m state := by
  rcases h with ⟨account, haccount, hn⟩ | ⟨reporter, hmem, side, current, hplace, htask, hn⟩
  · exact Or.inl ⟨account, haccount, Nat.le_trans hle hn⟩
  · exact Or.inr ⟨reporter, hmem, side, current, hplace, htask, Nat.le_trans hle hn⟩

/-- So many requests were pending once. -/
def Attained (place : Place) (n : Nat) (state : State) : Prop :=
  ∃ earlier account, system.Reachable earlier ∧ system.Later earlier state ∧
    earlier.accountAt place = some account ∧ account.tally.count .pendingRequests = n

theorem Attained.now {place : Place} {state : State} {account : Account}
    (h : system.Reachable state) (haccount : state.accountAt place = some account) :
    Attained place (account.tally.count .pendingRequests) state :=
  ⟨state, account, h, ⟨[], rfl⟩, haccount, rfl⟩

theorem Attained.step {place : Place} {n : Nat} {state next : State} {event : State.Event}
    (h : Attained place n state) (hstep : system.step state event = some next) :
    Attained place n next := by
  obtain ⟨earlier, account, hreachable, ⟨events, hrun⟩, haccount, hn⟩ := h
  refine ⟨earlier, account, hreachable, ⟨events ++ [event], ?_⟩, haccount, hn⟩
  rw [List.foldlM_append, hrun]
  change (system.step state event >>= fun last => some last) = some next
  rw [hstep]
  rfl

namespace Reporter

theorem after_place {reporter : Reporter} (task : Task) (rest : List Task) (progress : Progress)
    (side : Side) : (reporter.after task rest progress).place side = reporter.place side := by
  cases side with
  | metrics => rfl
  | origin => exact congrArg Place.origin (reporter.after_metrics task rest progress)

end Reporter

namespace State

variable {state : State} {reporter : Reporter} {task : Task} {account : Account}

/-- The counters after an operation. -/
theorem accountAt_advanced (after : Account)
    (haccount : state.account reporter task.side = some account) (reporters : List Reporter)
    (place : Place) :
    ({ state.setAccount reporter after task.side with reporters } : State).accountAt place =
      if place = reporter.place task.side then some after else state.accountAt place :=
  (accountAt_setAccount after haccount place).trans rfl

end State

/-- A number that was covered stays covered. -/
theorem Covered.moves {place : Place} {n : Nat} {state next : State} (h : Covered place n state)
    (haccounted : Accounted state) (hmoves : state.Moves next) : Covered place n next := by
  cases hmoves with
  | entered origin isIdle now =>
      rcases h with ⟨account, haccount, hn⟩ | ⟨reporter, hmem, hraises⟩
      · refine Or.inl ⟨account, ?_, hn⟩
        rcases State.accountAt_enter haccounted.sound origin isIdle now _ place with
          hsame | ⟨hnone, -⟩
        · exact hsame.trans haccount
        · exact absurd (haccount.symm.trans hnone) (Option.some_ne_none _)
      · exact Or.inr ⟨reporter, List.mem_append_left _ hmem, hraises⟩
  | @reported i reporter after report hreporter hreport =>
      rcases h with hreached | hraises
      · exact Or.inl hreached
      · refine Or.inr (exists_mem_set hreporter ?_ hraises)
        rintro ⟨side, current, -, htask, -⟩
        unfold Reporter.report at hreport
        split at hreport
        · rename_i hready
          rw [hready.1] at htask
          exact absurd htask List.not_mem_nil
        · exact absurd hreport.symm (Option.some_ne_none _)
  | @advanced i now spurious reporter task rest account after progress hreporter htodo haccount
      hop =>
      have hvalid := (haccounted.settling reporter (List.mem_of_getElem? hreporter)).valid task
        (by rw [htodo]; rfl)
      have hat := State.accountAt_advanced after haccount
        (state.reporters.set i (reporter.after task rest progress)) place
      rcases h with ⟨old, hold, hn⟩ | hraises
      · refine Or.inl ?_
        by_cases hplace : place = reporter.place task.side
        · refine ⟨after, hat.trans (if_pos hplace), ?_⟩
          rw [State.account_eq, ← hplace, hold] at haccount
          obtain rfl := Option.some.inj haccount
          exact Nat.le_trans hn (Op.step_peak_le hvalid hop)
        · exact ⟨old, hat.trans ((if_neg hplace).trans hold), hn⟩
      · by_cases hmine : reporter.Raises place n
        · obtain ⟨side, current, hplace, htask, hn⟩ := hmine
          have hthere : reporter.after task rest progress ∈
              state.reporters.set i (reporter.after task rest progress) :=
            mem_set_self hreporter
          rcases List.mem_cons.mp (htodo ▸ htask) with rfl | hrest
          · rcases Op.step_raisePeak hvalid hop with ⟨⟨cas, rfl⟩, -⟩ | ⟨-, hraised⟩
            · exact Or.inr ⟨_, hthere, side, current, hplace, htask, hn⟩
            · refine Or.inl ⟨after, hat.trans (if_pos hplace.symm), ?_⟩
              rw [hraised]
              exact Nat.le_trans hn (Nat.le_max_right _ _)
          · exact Or.inr ⟨_, hthere, side, current,
              (reporter.after_place task rest progress side).trans hplace,
              Reporter.mem_after_todo_of_rest htodo hrest, hn⟩
        · exact Or.inr (exists_mem_set hreporter hmine hraises)

/-! ## Every run -/

structure Peaked (state : State) : Prop where
  plain : ∀ reporter ∈ state.reporters, ∀ task ∈ reporter.todo, task.op.plain = true
  covered : ∀ (place : Place) (account : Account), state.accountAt place = some account →
    Covered place (account.tally.count .pendingRequests) state
  attained : ∀ (place : Place) (account : Account), state.accountAt place = some account →
    Attained place account.peakPendingRequests state
  raises : ∀ reporter ∈ state.reporters, ∀ (side : Side) (current : Nat),
    (⟨side, .raisePeak current⟩ : Task) ∈ reporter.todo →
      Attained (reporter.place side) current state

namespace Peaked

variable {state next : State}

theorem new : Peaked State.new where
  plain _ h := absurd h List.not_mem_nil
  covered place account haccount := by
    refine Or.inl ⟨account, haccount, ?_⟩
    cases place with
    | client =>
        obtain rfl := Option.some.inj haccount
        exact Nat.le_refl 0
    | origin m => exact absurd haccount.symm (Option.some_ne_none _)
  attained place account haccount := by
    cases place with
    | client =>
        obtain rfl := Option.some.inj haccount
        exact Attained.now .init haccount
    | origin m => exact absurd haccount.symm (Option.some_ne_none _)
  raises _ h := absurd h List.not_mem_nil

theorem entered (h : Peaked state) (haccounted : Accounted state) {event : State.Event}
    (hreachable : system.Reachable state) (origin : Text) (isIdle : Nat → Bool) (now : Nat)
    (hstep : system.step state event = some
      { state with
        registry := (state.registry.metricsFor isIdle origin now).2
        reporters := state.reporters ++
          [Reporter.new (state.registry.metricsFor isIdle origin now).1] }) :
    Peaked { state with
      registry := (state.registry.metricsFor isIdle origin now).2
      reporters := state.reporters ++
        [Reporter.new (state.registry.metricsFor isIdle origin now).1] } := by
  have hmoves := State.moves_of_step hstep
  have haccounts := State.accountAt_enter haccounted.sound origin isIdle now
    (state.reporters ++ [Reporter.new (state.registry.metricsFor isIdle origin now).1])
  have hreporters : ∀ reporter ∈ state.reporters ++
      [Reporter.new (state.registry.metricsFor isIdle origin now).1],
      reporter ∈ state.reporters ∨ reporter.todo = [] := by
    intro reporter hmem
    rcases List.mem_append.mp hmem with hold | hnew
    · exact Or.inl hold
    · exact Or.inr (List.mem_singleton.mp hnew ▸ rfl)
  refine ⟨?_, ?_, ?_, ?_⟩
  · intro reporter hmem task htask
    rcases hreporters reporter hmem with hold | hnone
    · exact h.plain reporter hold task htask
    · exact absurd (hnone ▸ htask) List.not_mem_nil
  · intro place account haccount
    rcases haccounts place with hsame | ⟨-, hzero⟩
    · exact (h.covered place account (hsame.symm.trans haccount)).moves haccounted hmoves
    · obtain rfl := Option.some.inj (hzero.symm.trans haccount)
      exact Or.inl ⟨_, haccount, Nat.le_refl 0⟩
  · intro place account haccount
    rcases haccounts place with hsame | ⟨-, hzero⟩
    · exact (h.attained place account (hsame.symm.trans haccount)).step hstep
    · obtain rfl := Option.some.inj (hzero.symm.trans haccount)
      exact Attained.now (hreachable.step hstep) haccount
  · intro reporter hmem side current htask
    rcases hreporters reporter hmem with hold | hnone
    · exact (h.raises reporter hold side current htask).step hstep
    · exact absurd (hnone ▸ htask) List.not_mem_nil

theorem reported (h : Peaked state) (haccounted : Accounted state) {event : State.Event}
    {i : Nat} {reporter after : Reporter} {report : Report}
    (hreport : reporter.report report = some after)
    (hstep : system.step state event =
      some { state with reporters := state.reporters.set i after }) :
    Peaked { state with reporters := state.reporters.set i after } := by
  have hmoves := State.moves_of_step hstep
  have htodo : after.todo = report.tasks := by
    unfold Reporter.report at hreport
    split at hreport
    · exact (Option.some.inj hreport) ▸ rfl
    · exact absurd hreport.symm (Option.some_ne_none _)
  refine ⟨?_, ?_, ?_, ?_⟩
  · refine forall_mem_set h.plain fun task htask => ?_
    exact Op.plain_of_reported (report.reported task (htodo ▸ htask))
  · intro place account haccount
    exact (h.covered place account haccount).moves haccounted hmoves
  · intro place account haccount
    exact (h.attained place account haccount).step hstep
  · refine forall_mem_set (fun other hother side current htask => ?_)
      fun side current htask => ?_
    · exact (h.raises other hother side current htask).step hstep
    · have hreported := report.reported ⟨side, .raisePeak current⟩ (htodo ▸ htask)
      exact absurd hreported Bool.false_ne_true

theorem advanced (h : Peaked state) (haccounted : Accounted state) {event : State.Event}
    (hreachable : system.Reachable state) {i now : Nat} {spurious : Bool} {reporter : Reporter}
    {task : Task} {rest : List Task} {account after : Account} {progress : Progress}
    (hreporter : state.reporters[i]? = some reporter) (htodo : reporter.todo = task :: rest)
    (haccount : state.account reporter task.side = some account)
    (hop : task.op.step now spurious account reporter.cas = some (after, progress))
    (hstep : system.step state event = some
      { state.setAccount reporter after task.side with
        reporters := state.reporters.set i (reporter.after task rest progress) }) :
    Peaked { state.setAccount reporter after task.side with
      reporters := state.reporters.set i (reporter.after task rest progress) } := by
  have hmoves := State.moves_of_step hstep
  have hmem := List.mem_of_getElem? hreporter
  have hvalid := (haccounted.settling reporter hmem).valid task (by rw [htodo]; rfl)
  have hat := State.accountAt_advanced after haccount
    (state.reporters.set i (reporter.after task rest progress))
  have haccountAt : state.accountAt (reporter.place task.side) = some account :=
    state.account_eq reporter task.side ▸ haccount
  have hafter := (hat (reporter.place task.side)).trans (if_pos rfl)
  have hplain : task.op.plain = true := h.plain reporter hmem task (htodo ▸ List.mem_cons_self)
  refine ⟨?_, ?_, ?_, ?_⟩
  · refine forall_mem_set h.plain fun other hother => ?_
    rcases Reporter.mem_after_todo htodo hother with hold | ⟨left, op, hleft, hop', rfl⟩
    · exact h.plain reporter hmem other hold
    · exact (Op.left_plain hop hleft hop').1
  · intro place other hother
    by_cases hplace : place = reporter.place task.side
    · subst hplace
      obtain rfl := Option.some.inj (hafter.symm.trans hother)
      by_cases hregister : task.op = .register
      · rw [hregister] at hop
        obtain ⟨rfl, rfl⟩ := Prod.mk.inj (Option.some.inj hop)
        refine Or.inr ⟨_, mem_set_self hreporter, task.side, _, Reporter.after_place .., ?_,
          Nat.le_of_eq (Tally.setCount_count_self _ _ _)⟩
        exact List.mem_append_left _ List.mem_cons_self
      · have hsaturated := haccounted.saturated haccountAt
        have hle := (Op.step_cases hvalid hsaturated hop).pending_le hsaturated hplain hregister
        exact ((h.covered _ account haccountAt).moves haccounted hmoves).mono hle
    · have hsame := (hat place).trans (if_neg hplace)
      exact (h.covered place other (hsame.symm.trans hother)).moves haccounted hmoves
  · intro place other hother
    by_cases hplace : place = reporter.place task.side
    · subst hplace
      obtain rfl := Option.some.inj (hafter.symm.trans hother)
      have hpeak := (h.attained _ account haccountAt).step hstep
      by_cases hraise : ∃ current, task.op = .raisePeak current
      · obtain ⟨current, hcurrent⟩ := hraise
        rw [hcurrent] at hvalid hop
        rcases Op.step_raisePeak hvalid hop with ⟨-, hsame⟩ | ⟨-, hraised⟩
        · exact hsame ▸ hpeak
        · have htask : (⟨task.side, .raisePeak current⟩ : Task) ∈ reporter.todo :=
            htodo ▸ hcurrent ▸ List.mem_cons_self
          have hcurrent := (h.raises reporter hmem task.side current htask).step hstep
          rcases Nat.le_total account.peakPendingRequests current with hle | hle
          · rw [hraised, Nat.max_eq_right hle]
            exact hcurrent
          · rw [hraised, Nat.max_eq_left hle]
            exact hpeak
      · have hsame := Op.step_peak_of_ne (fun current hop => hraise ⟨current, hop⟩) hop
        exact hsame ▸ hpeak
    · have hsame := (hat place).trans (if_neg hplace)
      exact (h.attained place other (hsame.symm.trans hother)).step hstep
  · refine forall_mem_set (fun other hother side current htask => ?_)
      fun side current htask => ?_
    · exact (h.raises other hother side current htask).step hstep
    · rw [Reporter.after_place]
      rcases Reporter.mem_after_todo htodo htask with hold | ⟨left, op, hleft, hop', heq⟩
      · exact (h.raises reporter hmem side current hold).step hstep
      · obtain ⟨rfl, rfl⟩ := Task.mk.inj heq
        rw [(Op.left_plain hop hleft hop').2 current rfl]
        exact Attained.now (hreachable.step hstep) hafter

theorem step (h : Peaked state) {event : State.Event} (hreachable : system.Reachable state)
    (hstep : system.step state event = some next) : Peaked next := by
  have haccounted := Accounted.of_reachable hreachable
  have hmoves := State.moves_of_step hstep
  cases hmoves with
  | entered origin isIdle now => exact h.entered haccounted hreachable origin isIdle now hstep
  | reported hreporter hreport => exact h.reported haccounted hreport hstep
  | advanced hreporter htodo haccount hop =>
      exact h.advanced haccounted hreachable hreporter htodo haccount hop hstep

theorem of_reachable (h : system.Reachable state) : Peaked state :=
  h.invariant Peaked new fun hreachable ih hstep => ih.step hreachable hstep

end Peaked

/-- Once no report is being made, the peak of the client, or of an origin, is the largest number
of requests that were pending at any time, although a request is counted before the peak is
raised. -/
theorem peak_pending_requests {state : State} {place : Place} {account : Account}
    (h : system.Reachable state) (hrest : state.AtRest)
    (haccount : state.accountAt place = some account) :
    (∀ (earlier : State) (other : Account), system.Reachable earlier →
        system.Later earlier state → earlier.accountAt place = some other →
          other.tally.count .pendingRequests ≤ account.peakPendingRequests) ∧
      ∃ (earlier : State) (other : Account), system.Reachable earlier ∧
        system.Later earlier state ∧ earlier.accountAt place = some other ∧
          other.tally.count .pendingRequests = account.peakPendingRequests := by
  refine ⟨fun earlier other hearlier hlater hother => ?_,
    (Peaked.of_reachable h).attained place account haccount⟩
  have hcovered : Covered place (other.tally.count .pendingRequests) state :=
    hlater.stable (Covered place (other.tally.count .pendingRequests))
      (fun hreachable hcovered hstep =>
        hcovered.moves (Accounted.of_reachable hreachable) (State.moves_of_step hstep))
      hearlier ((Peaked.of_reachable hearlier).covered place other hother)
  rcases hcovered with ⟨same, hsame, hle⟩ | ⟨reporter, hmem, side, current, -, htask, -⟩
  · obtain rfl := Option.some.inj (hsame.symm.trans haccount)
    exact hle
  · exact absurd (hrest reporter hmem ▸ htask) List.not_mem_nil

namespace PeakExample

/-- Two requests wait for one origin: the first one is counted, the second one is counted and
raises the peak before the first one does, and then the first one stops waiting. -/
def events : List State.Event :=
  [.enter ['o'] (fun _ => false) 0, .enter ['o'] (fun _ => false) 0,
    .report 0 (.both .pendingRequestStarted), .report 1 (.both .pendingRequestStarted),
    .advance 0 1 false] ++ List.replicate 9 (.advance 1 2 false) ++
    List.replicate 7 (.advance 0 3 false) ++ [.report 0 (.pendingAcquireDropped 5)] ++
    List.replicate 17 (.advance 0 4 false)

def state : State := (system.run events).getD State.new

theorem reachable : system.Reachable state :=
  TransitionSystem.reachable_of_run (show system.run events = some state from rfl)

theorem atRest : state.AtRest := by
  have hdone : state.reporters.map Reporter.todo = [[], []] := rfl
  intro reporter hreporter
  have htodo : reporter.todo ∈ state.reporters.map Reporter.todo := List.mem_map_of_mem hreporter
  rw [hdone] at htodo
  simpa using htodo

/-- One request is left, and the peak is two because two were pending once. -/
theorem peak_pending_requests_example :
    state.metrics.tally.count .pendingRequests = 1 ∧
      ∃ (earlier : State) (other : Account), system.Reachable earlier ∧
        system.Later earlier state ∧ earlier.accountAt .client = some other ∧
          other.tally.count .pendingRequests = 2 :=
  ⟨rfl, (peak_pending_requests reachable atRest
    (show state.accountAt .client = some state.metrics from rfl)).2⟩

end PeakExample

end FogHttp.Metrics
