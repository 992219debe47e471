import FogHttp.Telemetry.Accounted

/-!
# When the telemetry is complete across shutdown

Opens are always complete: the closer holds strong references to the opens that are
pending, so it finishes every open that nobody else does.  For connections it holds weak
references, and it upgrades them after the store of `closed`.  In between, a call of
`closed` is already declined, and the last handle of its connection can be dropped:
then the upgrade fails, and nobody records the end of the connection.

* `inTime` is the condition on a step that excludes just this: no last handle is dropped
  while the flag of its connection is not set and the closer has not got hold of it.
* `Claimed` is the invariant of the runs whose steps are all in time: a connection whose
  flag is not set is collected, or it is alive and about to be.
* `Lost` is what a step that is not in time leads to, and it stays.

`connection_telemetry_complete_iff` puts both directions together.
-/

namespace FogHttp.Telemetry

open Lib

/-! ## Steps as the connections see them -/

/-- What a step does to the connections and to what the closer knows of them. -/
inductive ConnectionChange (client : ClientTelemetry) (event : ClientTelemetry.Event)
    (next : ClientTelemetry) : Prop where
  | same (connections : next.connections = client.connections)
      (registered : next.registered = client.registered) (closer : next.closer = client.closer)
  /-- A new connection before the seal.  Only dead ones leave the registry. -/
  | opened (opener : Nat) (origin : Option Text) (pruned : List Nat)
      (unsealed : client.closed = false)
      (dead : ∀ c ∈ pruned,
        (client.connections[c]?.any fun connection => connection.handles == 0) = true)
      (connections : next.connections =
        client.connections ++ [Connection.mk opener origin false 1 .due])
      (registered : next.registered =
        (client.registered.filter fun c => c ∉ pruned) ++ [client.connections.length])
      (closer : next.closer = client.closer)
  /-- A section of connection `c`. -/
  | moved (c : Nat) (old new : Connection) (found : client.connections[c]? = some old)
      (alive : ¬ (old.handles = 0 ∧ old.call = .returned))
      (flag : old.closed = true → new.closed = true)
      (handles : old.handles ≤ new.handles ∨
        event = .dropHandle c ∧ new.handles + 1 = old.handles)
      (connections : next.connections = client.connections.set c new)
      (registered : next.registered = client.registered) (closer : next.closer = client.closer)
  | closing (errorType : TelemetryErrorType)
      (section_eq : client.closeConnections errorType = some next)

/-- The sections of an open. -/
theorem connectionChange_advanceOpen {client next : ClientTelemetry}
    {event : ClientTelemetry.Event} {i : Nat} {entry : ConnectionOpen} {pruned : List Nat}
    (hstep : client.advanceOpen i entry pruned = some next) :
    ConnectionChange client event next := by
  unfold ClientTelemetry.advanceOpen at hstep
  split at hstep
  · unfold ClientTelemetry.openedConnection at hstep
    split at hstep
    · simp at hstep
    · rename_i hguard
      obtain ⟨-, hdead⟩ := not_or.mp hguard
      rw [Decidable.not_not] at hdead
      split at hstep
      · obtain rfl := Option.some.inj hstep
        exact .same rfl rfl rfl
      · rename_i hunsealed
        obtain rfl := Option.some.inj hstep
        simp only [Bool.or_eq_true, not_or, Bool.not_eq_true] at hunsealed
        exact .opened i entry.origin pruned hunsealed.1 hdead rfl rfl rfl
  · split at hstep <;> obtain rfl := Option.some.inj hstep <;> exact .same rfl rfl rfl
  · obtain rfl := Option.some.inj hstep
    exact .same rfl rfl rfl
  · simp only [Option.bind_eq_bind, Option.bind_eq_some_iff] at hstep
    obtain ⟨⟨after, phase⟩, hproduce, hstep⟩ := hstep
    obtain rfl := Option.some.inj hstep
    rw [(produced_of_produce hproduce).rest]
    exact .same rfl rfl rfl
  · simp at hstep

/-- The sections of a call of `closed`. -/
theorem connectionChange_advanceClosed {client next : ClientTelemetry}
    {event : ClientTelemetry.Event} {c : Nat} {connection : Connection}
    (hc : client.connections[c]? = some connection)
    (hstep : client.advanceClosed c connection = some next) :
    ConnectionChange client event next := by
  unfold ClientTelemetry.advanceClosed at hstep
  split at hstep
  · rename_i hcall
    have halive : ¬ (connection.handles = 0 ∧ connection.call = .returned) := by simp [hcall]
    split at hstep
    · obtain rfl := Option.some.inj hstep
      refine .moved c connection _ hc halive ?_ ?_ rfl rfl rfl
      · exact fun hflag => hflag
      · exact Or.inl (Nat.le_refl _)
    · obtain rfl := Option.some.inj hstep
      refine .moved c connection _ hc halive ?_ ?_ rfl rfl rfl
      · exact fun _ => rfl
      · exact Or.inl (Nat.le_refl _)
  · rename_i hcall
    have halive : ¬ (connection.handles = 0 ∧ connection.call = .returned) := by simp [hcall]
    obtain rfl := Option.some.inj hstep
    refine .moved c connection _ hc halive ?_ ?_ rfl rfl rfl
    · exact fun hflag => hflag
    · exact Or.inl (Nat.le_refl _)
  · rename_i phase _ _ hcall
    have halive : ¬ (connection.handles = 0 ∧ connection.call = .returned) := by simp [hcall]
    simp only [Option.bind_eq_bind, Option.bind_eq_some_iff] at hstep
    obtain ⟨⟨after, phase'⟩, hproduce, hstep⟩ := hstep
    obtain rfl := Option.some.inj hstep
    rw [(produced_of_produce hproduce).rest]
    refine .moved c connection _ hc halive ?_ ?_ rfl rfl rfl
    · exact fun hflag => hflag
    · exact Or.inl (Nat.le_refl _)
  · simp at hstep

/-- Every step is one of the four changes. -/
theorem connectionChange_of_step {client next : ClientTelemetry} {event : ClientTelemetry.Event}
    (hstep : client.step event = some next) : ConnectionChange client event next := by
  cases event with
  | connectionOpen origin pruned =>
      simp only [ClientTelemetry.step, ClientTelemetry.connectionOpen] at hstep
      split at hstep
      · simp at hstep
      · split at hstep <;> obtain rfl := Option.some.inj hstep <;> exact .same rfl rfl rfl
  | consume i how terminalErrorType =>
      simp only [ClientTelemetry.step, Option.bind_eq_bind, Option.bind_eq_some_iff] at hstep
      obtain ⟨entry, -, hstep⟩ := hstep
      split at hstep
      · obtain rfl := Option.some.inj hstep
        exact .same rfl rfl rfl
      · simp at hstep
  | advanceOpen i pruned =>
      simp only [ClientTelemetry.step, Option.bind_eq_bind, Option.bind_eq_some_iff] at hstep
      obtain ⟨entry, -, hstep⟩ := hstep
      exact connectionChange_advanceOpen hstep
  | clone c =>
      simp only [ClientTelemetry.step, Option.bind_eq_bind, Option.bind_eq_some_iff] at hstep
      obtain ⟨connection, hc, hstep⟩ := hstep
      split at hstep
      · rename_i hpos
        obtain rfl := Option.some.inj hstep
        refine .moved c connection _ hc (by omega) ?_ ?_ rfl rfl rfl
        · exact fun hflag => hflag
        · exact Or.inl (Nat.le_succ _)
      · simp at hstep
  | callClosed c =>
      simp only [ClientTelemetry.step, Option.bind_eq_bind, Option.bind_eq_some_iff] at hstep
      obtain ⟨connection, hc, hstep⟩ := hstep
      split at hstep
      · rename_i hguard
        obtain rfl := Option.some.inj hstep
        refine .moved c connection _ hc (by omega) ?_ ?_ rfl rfl rfl
        · exact fun hflag => hflag
        · exact Or.inl (Nat.le_refl _)
      · simp at hstep
  | advanceClosed c =>
      simp only [ClientTelemetry.step, Option.bind_eq_bind, Option.bind_eq_some_iff] at hstep
      obtain ⟨connection, hc, hstep⟩ := hstep
      exact connectionChange_advanceClosed hc hstep
  | dropHandle c =>
      simp only [ClientTelemetry.step, Option.bind_eq_bind, Option.bind_eq_some_iff] at hstep
      obtain ⟨connection, hc, hstep⟩ := hstep
      split at hstep
      · rename_i hguard
        obtain rfl := Option.some.inj hstep
        refine .moved c connection _ hc (by omega) ?_ ?_ rfl rfl rfl
        · exact fun hflag => hflag
        · right
          refine ⟨rfl, ?_⟩
          show connection.handles - 1 + 1 = connection.handles
          omega
      · simp at hstep
  | closeConnections errorType => exact .closing errorType hstep

/-! ## Steps in time -/

/-- The step does not drop the last handle of a connection whose flag is not set and that
the closer has not collected. -/
def ClientTelemetry.inTime (client : ClientTelemetry) : ClientTelemetry.Event → Bool
  | .dropHandle c =>
      match client.connections[c]? with
      | some connection =>
          connection.handles != 1 || connection.closed || client.closer.collected.contains c
      | none => true
  | _ => true

/-- The weak references that the closer has still to upgrade. -/
def Closer.uncollected (registered : List Nat) : Closer → List Nat
  | .idle => registered
  | .collecting rest _ => rest
  | _ => []

/-- A connection whose flag is not set is collected, or alive and about to be. -/
def Claimed (client : ClientTelemetry) : Prop :=
  ∀ (c : Nat) (connection : Connection), client.connections[c]? = some connection →
    connection.closed = false → c ∈ client.closer.collected ∨
      0 < connection.handles ∧ c ∈ client.closer.uncollected client.registered

/-- A section of the closer that changes neither the connections nor what it knows of them. -/
theorem Claimed.keep {client next : ClientTelemetry} {before : Closer} (h : Claimed client)
    (hcloser : client.closer = before) (hconnections : next.connections = client.connections)
    (hcollected : next.closer.collected = before.collected)
    (huncollected : next.closer.uncollected next.registered =
      before.uncollected client.registered) : Claimed next := by
  subst hcloser
  intro c connection hc hunclosed
  rw [hconnections] at hc
  rw [hcollected, huncollected]
  exact h c connection hc hunclosed

/-- While it closes what it collected, the closer drops the connections that are closed. -/
theorem Claimed.collected_of_ne {client : ClientTelemetry} {c d : Nat} {connection : Connection}
    {collected : List Nat} (h : Claimed client)
    (hcloser : client.closer = .closing (d :: collected))
    (hc : client.connections[c]? = some connection) (hunclosed : connection.closed = false)
    (hne : c ≠ d) : c ∈ collected := by
  have hclaim := h c connection hc hunclosed
  rw [hcloser] at hclaim
  rcases hclaim with hcollected | ⟨-, himpossible⟩
  · exact (List.mem_cons.mp hcollected).resolve_left hne
  · cases himpossible

/-- The sections of the closer keep its claims. -/
theorem claimed_closeConnections {client next : ClientTelemetry}
    {errorType : TelemetryErrorType} (h : Claimed client)
    (hstep : client.closeConnections errorType = some next) : Claimed next := by
  cases closingStep_of_closeConnections hstep with
  | close hcloser => exact h.keep hcloser rfl rfl rfl
  | upgrade d rest collected hcloser =>
      intro c connection hc hunclosed
      have hclaim := h c connection hc hunclosed
      rw [hcloser] at hclaim
      show c ∈ (if client.upgrade d then collected ++ [d] else collected) ∨ _ ∧ c ∈ rest
      rcases hclaim with hcollected | ⟨halive, huncollected⟩
      · left
        split
        · exact List.mem_append_left _ hcollected
        · exact hcollected
      · rcases List.mem_cons.mp huncollected with rfl | hrest
        · -- The connection is alive, so the upgrade succeeds.
          have hupgrade : client.upgrade c = true := by
            rw [ClientTelemetry.upgrade, hc, Option.any_some]
            exact decide_eq_true halive
          left
          rw [if_pos hupgrade]
          exact List.mem_append_right _ (List.mem_singleton.mpr rfl)
        · exact Or.inr ⟨halive, hrest⟩
  | takeOpens collected hcloser => exact h.keep hcloser rfl rfl rfl
  | goOn opens collected hcloser hzero => exact h.keep hcloser rfl rfl rfl
  | skipOpen i opens collected entry hcloser hi hfinished => exact h.keep hcloser rfl rfl rfl
  | claimOpen i opens collected entry hcloser hi hunfinished =>
      exact h.keep hcloser rfl rfl rfl
  | recordOpen i opens collected entry hcloser hi => exact h.keep hcloser rfl rfl rfl
  | endOpens collected hcloser => exact h.keep hcloser rfl rfl rfl
  | skipConnection d collected closed hcloser hd hset =>
      intro c connection hc hunclosed
      refine Or.inl (h.collected_of_ne hcloser hc hunclosed ?_)
      intro hsame
      subst hsame
      obtain rfl := Option.some.inj (hc.symm.trans hd)
      rw [hset] at hunclosed
      cases hunclosed
  | claimConnection d collected old hcloser hd hopen =>
      intro c connection hc hunclosed
      rcases getElem?_set_cases hc with ⟨rfl, rfl⟩ | ⟨hne, hc⟩
      · cases hunclosed
      · exact Or.inl (h.collected_of_ne hcloser hc hunclosed hne)
  | recordConnection d collected connection hcloser hd => exact h.keep hcloser rfl rfl rfl
  | endConnections hcloser => exact h.keep hcloser rfl rfl rfl

/-- A step in time keeps the claims. -/
theorem claimed_step {client next : ClientTelemetry} {event : ClientTelemetry.Event}
    (haccounted : Accounted client) (h : Claimed client) (htime : client.inTime event = true)
    (hstep : client.step event = some next) : Claimed next := by
  cases connectionChange_of_step hstep with
  | same hconnections hregistered hcloser =>
      intro c connection hc hunclosed
      rw [hconnections] at hc
      rw [hregistered, hcloser]
      exact h c connection hc hunclosed
  | opened opener origin pruned hunsealed hdead hconnections hregistered hcloser =>
      have hidle := haccounted.sealed.mp hunsealed
      intro c connection hc hunclosed
      rw [hconnections] at hc
      rw [hregistered, hcloser, hidle]
      rcases getElem?_push_cases hc with hc | ⟨rfl, rfl⟩
      · have hclaim := h c connection hc hunclosed
        rw [hidle] at hclaim
        obtain ⟨halive, hmem⟩ := hclaim.resolve_left (by simp [Closer.collected])
        have hnot : c ∉ pruned := by
          intro hpruned
          have hzero := hdead c hpruned
          rw [hc, Option.any_some, beq_iff_eq] at hzero
          omega
        exact Or.inr ⟨halive, List.mem_append_left _
          (List.mem_filter.mpr ⟨hmem, by simpa using hnot⟩)⟩
      · exact Or.inr ⟨Nat.one_pos, List.mem_append_right _ (List.mem_singleton.mpr rfl)⟩
  | moved c old new hfound _ hflag hhandles hconnections hregistered hcloser =>
      intro d connection hd hunclosed
      rw [hconnections] at hd
      rw [hregistered, hcloser]
      rcases getElem?_set_cases hd with ⟨rfl, rfl⟩ | ⟨-, hd⟩
      · have hopen : old.closed = false := by
          by_contra hnot
          rw [hflag (by simpa using hnot)] at hunclosed
          cases hunclosed
        rcases h d old hfound hopen with hcollected | ⟨halive, huncollected⟩
        · exact Or.inl hcollected
        · rcases hhandles with hle | ⟨rfl, hdropped⟩
          · exact Or.inr ⟨Nat.lt_of_lt_of_le halive hle, huncollected⟩
          · by_cases hlast : old.handles = 1
            · left
              simpa [ClientTelemetry.inTime, hfound, hlast, hopen] using htime
            · exact Or.inr ⟨by omega, huncollected⟩
      · exact h d connection hd hunclosed
  | closing errorType hclose => exact claimed_closeConnections h hclose

/-! ## What a late step leads to -/

/-- A connection whose end nobody will record: its flag is not set, its call of `closed`
has returned, no handle is left, and the closer has not got hold of it. -/
structure Lost (client : ClientTelemetry) (c : Nat) : Prop where
  unclosed : ∃ connection : Connection, client.connections[c]? = some connection ∧
    connection.closed = false ∧ connection.handles = 0 ∧ connection.call = .returned
  uncollected : c ∉ client.closer.collected
  sealed : client.closer ≠ .idle

/-- What a section of the closer after the seal does to the connections. -/
theorem closeConnections_cases {client next : ClientTelemetry}
    {errorType : TelemetryErrorType} (hsealed : client.closer ≠ .idle)
    (hstep : client.closeConnections errorType = some next) :
    next.closer ≠ .idle ∧
      (∀ c ∈ next.closer.collected,
        c ∈ client.closer.collected ∨ client.upgrade c = true) ∧
      (next.connections = client.connections ∨ ∃ d new, d ∈ client.closer.collected ∧
        next.connections = client.connections.set d new) := by
  cases closingStep_of_closeConnections hstep with
  | close hcloser => exact absurd hcloser hsealed
  | upgrade d rest collected hcloser =>
      rw [hcloser]
      refine ⟨by simp, ?_, Or.inl rfl⟩
      intro c hc
      replace hc : c ∈ (if client.upgrade d then collected ++ [d] else collected) := hc
      split at hc
      · rename_i hupgrade
        rcases List.mem_append.mp hc with hc | hc
        · exact Or.inl hc
        · exact Or.inr (List.mem_singleton.mp hc ▸ hupgrade)
      · exact Or.inl hc
  | takeOpens collected hcloser =>
      rw [hcloser]
      exact ⟨by simp, fun c hc => Or.inl hc, Or.inl rfl⟩
  | goOn opens collected hcloser hzero =>
      rw [hcloser]
      exact ⟨by simp, fun c hc => Or.inl hc, Or.inl rfl⟩
  | skipOpen i opens collected entry hcloser hi hfinished =>
      rw [hcloser]
      exact ⟨by simp, fun c hc => Or.inl hc, Or.inl rfl⟩
  | claimOpen i opens collected entry hcloser hi hunfinished =>
      rw [hcloser]
      exact ⟨by simp [ClientTelemetry.putOpen], fun c hc => Or.inl hc, Or.inl rfl⟩
  | recordOpen i opens collected entry hcloser hi =>
      rw [hcloser]
      exact ⟨by simp [ClientTelemetry.record], fun c hc => Or.inl hc, Or.inl rfl⟩
  | endOpens collected hcloser =>
      rw [hcloser]
      exact ⟨by simp, fun c hc => Or.inl hc, Or.inl rfl⟩
  | skipConnection d collected connection hcloser hd hclosed =>
      rw [hcloser]
      exact ⟨by simp, fun c hc => Or.inl (List.mem_cons_of_mem d hc), Or.inl rfl⟩
  | claimConnection d collected connection hcloser hd hunclosed =>
      rw [hcloser]
      refine ⟨by simp [ClientTelemetry.putConnection],
        fun c hc => Or.inl (List.mem_cons_of_mem d hc), Or.inr ⟨d, _, ?_, rfl⟩⟩
      exact List.mem_cons_self
  | recordConnection d collected connection hcloser hd =>
      rw [hcloser]
      exact ⟨by simp [ClientTelemetry.record], fun c hc => Or.inl hc, Or.inl rfl⟩
  | endConnections hcloser =>
      rw [hcloser]
      exact ⟨by simp, fun c hc => Or.inl hc, Or.inl rfl⟩

/-- A lost connection stays lost. -/
theorem lost_step {client next : ClientTelemetry} {event : ClientTelemetry.Event} {c : Nat}
    (haccounted : Accounted client) (h : Lost client c)
    (hstep : client.step event = some next) : Lost next c := by
  obtain ⟨connection, hc, hunclosed, hdead, hreturned⟩ := h.unclosed
  cases connectionChange_of_step hstep with
  | same hconnections _ hcloser =>
      refine ⟨⟨connection, ?_, hunclosed, hdead, hreturned⟩, ?_, ?_⟩
      · rw [hconnections, hc]
      · rw [hcloser]
        exact h.uncollected
      · rw [hcloser]
        exact h.sealed
  | opened _ _ _ hunsealed => exact absurd (haccounted.sealed.mp hunsealed) h.sealed
  | moved d old new hfound halive _ _ hconnections _ hcloser =>
      have hne : d ≠ c := by
        intro hsame
        subst hsame
        obtain rfl := Option.some.inj (hfound.symm.trans hc)
        exact halive ⟨hdead, hreturned⟩
      refine ⟨⟨connection, ?_, hunclosed, hdead, hreturned⟩, ?_, ?_⟩
      · rw [hconnections, List.getElem?_set_ne hne, hc]
      · rw [hcloser]
        exact h.uncollected
      · rw [hcloser]
        exact h.sealed
  | closing errorType hclose =>
      obtain ⟨hsealed, hcollected, hconnections⟩ := closeConnections_cases h.sealed hclose
      refine ⟨⟨connection, ?_, hunclosed, hdead, hreturned⟩, ?_, hsealed⟩
      · rcases hconnections with hsame | ⟨d, new, hd, hset⟩
        · rw [hsame, hc]
        · have hne : d ≠ c := fun hsame => h.uncollected (hsame ▸ hd)
          rw [hset, List.getElem?_set_ne hne, hc]
      · intro hmem
        rcases hcollected c hmem with hbefore | hupgrade
        · exact h.uncollected hbefore
        · rw [ClientTelemetry.upgrade, hc, Option.any_some, hdead] at hupgrade
          cases hupgrade

/-- A step that is not in time loses a connection. -/
theorem lost_of_not_inTime {client next : ClientTelemetry} {event : ClientTelemetry.Event}
    (haccounted : Accounted client) (hlate : client.inTime event = false)
    (hstep : client.step event = some next) : ∃ c, Lost next c := by
  cases event with
  | dropHandle c =>
      simp only [ClientTelemetry.step, Option.bind_eq_bind, Option.bind_eq_some_iff] at hstep
      obtain ⟨connection, hc, hstep⟩ := hstep
      have hcondition : connection.handles = 1 ∧ connection.closed = false ∧
          c ∉ client.closer.collected := by
        simpa [ClientTelemetry.inTime, hc, and_assoc] using hlate
      obtain ⟨hlast, hunclosed, huncollected⟩ := hcondition
      split at hstep
      · rename_i hguard
        obtain rfl := Option.some.inj hstep
        have hreturned : connection.call = .returned := by
          rcases hguard with hmany | ⟨-, hreturned⟩
          · omega
          · exact hreturned
        -- The call has returned without setting the flag, so it was declined.
        have hclosed := haccounted.declined connection (List.mem_iff_getElem?.mpr ⟨c, hc⟩)
          hunclosed (by rw [Connection.settled, hreturned])
        refine ⟨c, ⟨{ connection with handles := connection.handles - 1 }, ?_, hunclosed, ?_,
          hreturned⟩, huncollected, ?_⟩
        · exact List.getElem?_set_self (List.getElem?_eq_some_iff.mp hc).1
        · show connection.handles - 1 = 0
          omega
        · intro hidle
          rw [haccounted.sealed.mpr hidle] at hclosed
          cases hclosed
      · simp at hstep
  | _ => cases hlate

/-! ## Completeness -/

/-- The telemetry of a state is complete: every open that came before the seal has at most
one record, and exactly one when `close_connections` has returned; every connection has
at most one record of its end, and exactly one when the handles are dropped as well; and
after the return nothing is recorded any more. -/
structure Complete (client : ClientTelemetry) : Prop where
  opens : ∀ (i : Nat) (entry : ConnectionOpen), client.opens[i]? = some entry →
    entry.registered = true → openRecords client.log i ≤ 1 ∧
      (client.closer = .returned → openRecords client.log i = 1)
  closings : ∀ c, c < client.connections.length → closedRecords client.log c ≤ 1 ∧
    (client.closer = .returned →
      (∀ connection ∈ client.connections, connection.handles = 0) →
        closedRecords client.log c = 1)
  silent : client.closer = .returned → ∀ event next, client.step event = some next →
    next.log = client.log

/-- Nothing is recorded after the return. -/
theorem Accounted.log_of_returned {client next : ClientTelemetry}
    {event : ClientTelemetry.Event} (h : Accounted client)
    (hreturned : client.closer = .returned) (hstep : client.step event = some next) :
    next.log = client.log := by
  obtain ⟨hopens, hconnections⟩ := h.drained (by rw [hreturned]; rfl)
  have hclosed := h.closed_of_closer (by simp [hreturned])
  cases event with
  | connectionOpen origin pruned =>
      simp only [ClientTelemetry.step, ClientTelemetry.connectionOpen] at hstep
      split at hstep
      · simp at hstep
      · obtain rfl := Option.some.inj hstep
        rfl
  | consume i how terminalErrorType =>
      simp only [ClientTelemetry.step, Option.bind_eq_bind, Option.bind_eq_some_iff] at hstep
      obtain ⟨entry, -, hstep⟩ := hstep
      split at hstep
      · obtain rfl := Option.some.inj hstep
        rfl
      · simp at hstep
  | advanceOpen i pruned =>
      simp only [ClientTelemetry.step, Option.bind_eq_bind, Option.bind_eq_some_iff] at hstep
      obtain ⟨entry, hi, hstep⟩ := hstep
      have hquiet := hopens entry (List.mem_iff_getElem?.mpr ⟨i, hi⟩)
      unfold ClientTelemetry.advanceOpen at hstep
      split at hstep
      case h_1 rest hstage => simp [ConnectionOpen.writing, hstage, CallPhase.writing] at hquiet
      case h_2 errorType rest hstage =>
        simp [ConnectionOpen.writing, hstage, CallPhase.writing] at hquiet
      case h_3 errorType rest hstage =>
        simp [ConnectionOpen.writing, hstage, CallPhase.writing] at hquiet
      case h_4 =>
        simp only [Option.bind_eq_bind, Option.bind_eq_some_iff] at hstep
        obtain ⟨⟨after, phase⟩, hproduce, hstep⟩ := hstep
        obtain rfl := Option.some.inj hstep
        rw [(produced_of_produce hproduce).rest]
        rfl
      case h_5 => simp at hstep
  | clone c | callClosed c | dropHandle c =>
      simp only [ClientTelemetry.step, Option.bind_eq_bind, Option.bind_eq_some_iff] at hstep
      obtain ⟨connection, -, hstep⟩ := hstep
      split at hstep
      · obtain rfl := Option.some.inj hstep
        rfl
      · simp at hstep
  | advanceClosed c =>
      simp only [ClientTelemetry.step, Option.bind_eq_bind, Option.bind_eq_some_iff] at hstep
      obtain ⟨connection, hc, hstep⟩ := hstep
      have hquiet := hconnections connection (List.mem_iff_getElem?.mpr ⟨c, hc⟩)
      unfold ClientTelemetry.advanceClosed at hstep
      split at hstep
      case h_1 hcall => simp [Connection.writing, hcall, CallPhase.writing] at hquiet
      case h_2 hcall => simp [Connection.writing, hcall, CallPhase.writing] at hquiet
      case h_3 =>
        simp only [Option.bind_eq_bind, Option.bind_eq_some_iff] at hstep
        obtain ⟨⟨after, phase⟩, hproduce, hstep⟩ := hstep
        obtain rfl := Option.some.inj hstep
        rw [(produced_of_produce hproduce).rest]
        rfl
      case h_4 => simp at hstep
  | closeConnections errorType =>
      simp only [ClientTelemetry.step, ClientTelemetry.closeConnections, hreturned] at hstep
      cases hstep

/-- A state in which all flags are accounted for and claimed is complete. -/
theorem complete_of_claimed {client : ClientTelemetry} (haccounted : Accounted client)
    (hclaimed : Claimed client) : Complete client := by
  refine ⟨?_, ?_, ?_⟩
  · intro i entry hi hregistered
    have hbalance := haccounted.opens i entry hi
    have hflag := Bool.toNat_le (entry.registered && entry.finished)
    refine ⟨by omega, ?_⟩
    intro hreturned
    have hfinished : entry.finished = true := by
      by_contra hnot
      have hpending := haccounted.pending i entry hi (by simpa using hnot)
      rw [hreturned] at hpending
      cases hpending
    have hquiet : entry.recording = false := by
      by_contra hnot
      have hwriting := (haccounted.drained (by rw [hreturned]; rfl)).1 entry
        (List.mem_iff_getElem?.mpr ⟨i, hi⟩)
      rw [entry.writing_of_recording (by simpa using hnot)] at hwriting
      cases hwriting
    rw [hregistered, hfinished, hquiet, hreturned] at hbalance
    exact hbalance
  · intro c hc
    have hget := List.getElem?_eq_getElem hc
    have hbalance := haccounted.closings c _ hget
    have hflag := Bool.toNat_le client.connections[c].closed
    refine ⟨by omega, ?_⟩
    intro hreturned _
    have hclosed : client.connections[c].closed = true := by
      by_contra hnot
      have hclaim := hclaimed c _ hget (by simpa using hnot)
      rw [hreturned] at hclaim
      rcases hclaim with himpossible | ⟨-, himpossible⟩ <;> cases himpossible
    have hquiet : client.connections[c].recording = false := by
      by_contra hnot
      have hwriting := (haccounted.drained (by rw [hreturned]; rfl)).2 _
        (List.getElem_mem hc)
      rw [Connection.writing_of_recording _ (by simpa using hnot)] at hwriting
      cases hwriting
    rw [hclosed, hquiet, hreturned] at hbalance
    exact hbalance
  · intro hreturned event next hstep
    exact haccounted.log_of_returned hreturned hstep

/-- A state with a lost connection is not complete once everything has ended. -/
theorem Lost.not_complete {client : ClientTelemetry} {c : Nat} (h : Lost client c)
    (haccounted : Accounted client) (hreturned : client.closer = .returned)
    (hdropped : ∀ connection ∈ client.connections, connection.handles = 0) :
    ¬ Complete client := by
  intro hcomplete
  obtain ⟨connection, hc, hunclosed, -, -⟩ := h.unclosed
  have hone := (hcomplete.closings c (List.getElem?_eq_some_iff.mp hc).1).2 hreturned hdropped
  have hbalance := haccounted.closings c connection hc
  rw [hunclosed, Bool.toNat_false] at hbalance
  omega

/-- When the connection telemetry is complete across shutdown.  Every state of a run whose
steps are all in time is complete.  The other way round, a run at whose end
`close_connections` has returned and all handles are dropped is complete only if all of
its steps were in time. -/
theorem connection_telemetry_complete_iff (events : List ClientTelemetry.Event)
    (client : ClientTelemetry) (hrun : ClientTelemetry.system.run events = some client) :
    (ClientTelemetry.system.along ClientTelemetry.inTime .new events = true →
      Complete client) ∧
    (client.closer = .returned →
      (∀ connection ∈ client.connections, connection.handles = 0) →
        (Complete client ↔
          ClientTelemetry.system.along ClientTelemetry.inTime .new events = true)) := by
  have haccounted := accounted_of_reachable (TransitionSystem.reachable_of_run hrun)
  have hforward : ClientTelemetry.system.along ClientTelemetry.inTime .new events = true →
      Complete client := by
    intro halong
    refine complete_of_claimed haccounted ?_
    refine TransitionSystem.invariant_of_along Claimed ?_ .init hrun halong ?_
    · intro state next event hreachable hclaimed htime hstep
      exact claimed_step (accounted_of_reachable hreachable) hclaimed htime hstep
    · intro c connection hc
      cases hc
  refine ⟨hforward, fun hreturned hdropped => ⟨fun hcomplete => ?_, hforward⟩⟩
  by_contra hnot
  have hmissed : ClientTelemetry.system.along ClientTelemetry.inTime .new events = false := by
    simpa using hnot
  obtain ⟨before, event, after, hreachable, hlate, hstep, hlater⟩ :=
    TransitionSystem.exists_of_not_along .init hrun hmissed
  obtain ⟨c, hlost⟩ := lost_of_not_inTime (accounted_of_reachable hreachable) hlate hstep
  have hfinal : Lost client c := by
    refine hlater.stable (fun state => Lost state c) ?_ (hreachable.step hstep) hlost
    intro state next event hstate hlost hstep
    exact lost_step (accounted_of_reachable hstate) hlost hstep
  exact hfinal.not_complete haccounted hreturned hdropped hcomplete

/-! ## The two orders of a race -/

/-- One connection is opened. -/
def openingEvents : List ClientTelemetry.Event :=
  [.connectionOpen (some "a") [], .consume 0 .opened .cancelledError] ++
    List.replicate 10 (.advanceOpen 0 [])

/-- The connection is closed between the seal and the upgrade: its call of `closed` is
declined, and its last handle is gone when the closer comes to it. -/
def lateEvents : List ClientTelemetry.Event :=
  openingEvents ++ [.closeConnections .cancelledError, .callClosed 0, .advanceClosed 0,
    .dropHandle 0] ++ List.replicate 6 (.closeConnections .cancelledError)

/-- The connection is closed after `close_connections`. -/
def earlyEvents : List ClientTelemetry.Event :=
  openingEvents ++ List.replicate 9 (.closeConnections .cancelledError) ++
    [.callClosed 0, .advanceClosed 0, .dropHandle 0]

/-- Where the first order ends: the connection has no record of its end. -/
def lateClient : ClientTelemetry :=
  ⟨true, 0, [⟨some "a", true, true, .dropped⟩], [⟨0, some "a", false, 0, .returned⟩], [], [],
    .returned, [(.ofOpen 0, .connectionOpened (some "a"))]⟩

/-- Where the second order ends. -/
def earlyClient : ClientTelemetry :=
  ⟨true, 0, [⟨some "a", true, true, .dropped⟩], [⟨0, some "a", true, 0, .returned⟩], [], [],
    .returned, [(.ofOpen 0, .connectionOpened (some "a")),
      (.ofConnection 0, .connectionClosed (some "a"))]⟩

/-- A run in which everything has ended and an opened connection has no record of its
end. -/
theorem connection_telemetry_incomplete :
    ClientTelemetry.system.run lateEvents = some lateClient ∧
      lateClient.closer = .returned ∧
      (∀ connection ∈ lateClient.connections, connection.handles = 0) ∧
      openRecords lateClient.log 0 = 1 ∧ closedRecords lateClient.log 0 = 0 ∧
      ¬ Complete lateClient := by
  refine ⟨by decide, rfl, by decide, by decide, by decide, ?_⟩
  intro hcomplete
  have hone := (hcomplete.closings 0 (by decide)).2 rfl (by decide)
  exact absurd hone (by decide)

theorem connection_telemetry_complete_iff_example :
    ClientTelemetry.system.run earlyEvents = some earlyClient ∧ Complete earlyClient := by
  have hrun : ClientTelemetry.system.run earlyEvents = some earlyClient := by decide
  exact ⟨hrun, (connection_telemetry_complete_iff earlyEvents earlyClient hrun).1 (by decide)⟩

end FogHttp.Telemetry
