import FogHttp.Client.Lifecycle

/-!
# The shutdown of a sync client

`Consistent` is the invariant of a sync client with its threads.  `Stage.Fits` says what
the place of a thread means for the shared state: a send that may use the raw client has a
token, and a close that has left its waiting loop has found no token.  A raw client is
created only for a send with a token, so nobody creates one after that, and only the close
that came first closes it.

`attentive` is the discipline of the condition: whoever takes the last token away, or
completes the close, notifies.  So a close that waits is never left behind, and a client
on which some call has not returned always has a thread that can go on.
-/

namespace FogHttp.SyncClient

open Lib

variable {client client' : Client} {stages : List Stage} {i j : Nat} {stage old new : Stage}

/-! ## The invariant -/

/-- The close has found no token and has taken the raw client away. -/
structure Client.Drained (client : Client) : Prop where
  closed : client.closed = true
  tokens : client.activeSyncSendTokens = []
  client : client.client = none

/-- The close that came first, until it has completed. -/
def Stage.winner : Stage → Bool
  | .close .draining | .close (.closing _) | .close (.completing _) => true
  | _ => false

/-- What the place of thread `i` means for the client. -/
def Stage.Fits (client : Client) (i : Nat) : Stage → Prop
  | .send .admitted => i ∈ client.activeSyncSendTokens
  | .send (.requesting raw) =>
      i ∈ client.activeSyncSendTokens ∧ client.client = some raw
  | .send .finishing => True
  | .send .entering | .send .beginning | .send .returned | .close .entering =>
      i ∉ client.activeSyncSendTokens
  | .close .draining =>
      i ∉ client.activeSyncSendTokens ∧ client.closed = true ∧ client.closeComplete = false
  | .close .awaiting => i ∉ client.activeSyncSendTokens ∧ client.closed = true
  | .close (.closing raw) =>
      client.Drained ∧ client.closeComplete = false ∧ raw = 0 ∧ client.rawClients = [0]
  | .close (.completing _) =>
      client.Drained ∧ client.closeComplete = false ∧ client.rawClients ≠ [0]
  | .close (.emitting _) | .close .returned => client.closeComplete = true

theorem Stage.Fits.closed_of_winner (h : stage.Fits client i) (hwinner : stage.winner = true) :
    client.closed = true := by
  cases stage with
  | send send => cases hwinner
  | close close =>
      cases close with
      | draining => exact h.2.1
      | closing raw => exact h.1.closed
      | completing raw => exact h.1.closed
      | _ => cases hwinner

/-- Where the raw client is. -/
inductive Client.Owned (client : Client) (stages : List Stage) : Prop where
  | absent (none : client.client = none) (rawClients : client.rawClients = [])
  | active (some : client.client = some 0) (rawClients : client.rawClients = [0])
  /-- A close has it. -/
  | taken (drained : client.Drained) (rawClients : client.rawClients = [0])
      (mem : Stage.close (.closing 0) ∈ stages)
  | closed (drained : client.Drained) (rawClients : client.rawClients = [1])

structure Consistent (client : Client) (stages : List Stage) : Prop where
  fits : ∀ {i : Nat} {stage : Stage}, stages[i]? = some stage → stage.Fits client i
  bounded : ∀ i ∈ client.activeSyncSendTokens, i < stages.length
  unique : ∀ {i j : Nat} {first second : Stage}, stages[i]? = some first →
    stages[j]? = some second → first.winner = true → second.winner = true → i = j
  running : client.closed = true → client.closeComplete = false →
    ∃ stage ∈ stages, stage.winner = true
  complete : client.closeComplete = true → client.Drained ∧ client.rawClients ≠ [0]
  owned : client.Owned stages

theorem consistent_new : Consistent Client.new [] where
  fits := nofun
  bounded := nofun
  unique := nofun
  running := nofun
  complete := nofun
  owned := .absent rfl rfl

/-- A new thread has no token. -/
theorem Consistent.start (h : Consistent client stages) (call : Call) :
    Consistent client (stages ++ [call.enter]) where
  fits := by
    intro i stage hstage
    rcases getElem?_push_cases hstage with hold | ⟨hi, rfl⟩
    · exact h.fits hold
    · have hfresh : i ∉ client.activeSyncSendTokens := fun hmem =>
        absurd (h.bounded i hmem) (by omega)
      cases call with
      | send => exact hfresh
      | close => exact hfresh
  bounded := fun i hmem => by
    rw [List.length_append]
    exact Nat.lt_add_right _ (h.bounded i hmem)
  unique := by
    have hnew : ∀ {i : Nat} {stage : Stage}, (stages ++ [call.enter])[i]? = some stage →
        stage.winner = true → stages[i]? = some stage := by
      intro i stage hstage hwinner
      rcases getElem?_push_cases hstage with hold | ⟨-, rfl⟩
      · exact hold
      · cases call <;> cases hwinner
    intro i j first second hfirst hsecond hwins hwins'
    exact h.unique (hnew hfirst hwins) (hnew hsecond hwins') hwins hwins'
  running := fun hclosed hcomplete => by
    obtain ⟨stage, hmem, hwinner⟩ := h.running hclosed hcomplete
    exact ⟨stage, List.mem_append_left _ hmem, hwinner⟩
  complete := h.complete
  owned := by
    cases h.owned with
    | absent hnone hraws => exact .absent hnone hraws
    | active hsome hraws => exact .active hsome hraws
    | taken hdrained hraws hmem => exact .taken hdrained hraws (List.mem_append_left _ hmem)
    | closed hdrained hraws => exact .closed hdrained hraws

/-! ## One turn -/

/-- What a turn of thread `i` means to the others. -/
structure Client.Keeps (client client' : Client) (i : Nat) : Prop where
  tokens : ∀ j ≠ i, j ∈ client'.activeSyncSendTokens ↔ j ∈ client.activeSyncSendTokens
  raw : ∀ raw, client.activeSyncSendTokens ≠ [] → client.client = some raw →
    client'.client = some raw
  closed : client.closed = true → client'.closed = true
  drained : client.Drained → client'.Drained
  complete : client.closeComplete = true → client'.closeComplete = true

theorem Client.Keeps.refl (client : Client) (i : Nat) : client.Keeps client i :=
  ⟨fun _ _ => Iff.rfl, fun _ _ h => h, fun h => h, fun h => h, fun h => h⟩

/-- The other threads fit after a turn, when there is no other winner or the turn leaves what
a winner relies on. -/
theorem Stage.Fits.keep (h : stage.Fits client j) (hkeeps : client.Keeps client' i)
    (hne : j ≠ i) (hwinner : stage.winner = true →
      client'.closeComplete = client.closeComplete ∧
        (client.Drained → client'.rawClients = client.rawClients)) :
    stage.Fits client' j := by
  have htokens := hkeeps.tokens j hne
  cases stage with
  | send send =>
      cases send with
      | admitted => exact htokens.mpr h
      | requesting raw =>
          exact ⟨htokens.mpr h.1, hkeeps.raw raw (List.ne_nil_of_mem h.1) h.2⟩
      | finishing => trivial
      | entering => exact fun hmem => h (htokens.mp hmem)
      | beginning => exact fun hmem => h (htokens.mp hmem)
      | returned => exact fun hmem => h (htokens.mp hmem)
  | close close =>
      cases close with
      | entering => exact fun hmem => h (htokens.mp hmem)
      | draining =>
          obtain ⟨hcomplete, -⟩ := hwinner rfl
          exact ⟨fun hmem => h.1 (htokens.mp hmem), hkeeps.closed h.2.1, hcomplete.trans h.2.2⟩
      | awaiting => exact ⟨fun hmem => h.1 (htokens.mp hmem), hkeeps.closed h.2⟩
      | closing raw =>
          obtain ⟨hcomplete, hraws⟩ := hwinner rfl
          exact ⟨hkeeps.drained h.1, hcomplete.trans h.2.1, h.2.2.1,
            (hraws h.1).trans h.2.2.2⟩
      | completing raw =>
          obtain ⟨hcomplete, hraws⟩ := hwinner rfl
          exact ⟨hkeeps.drained h.1, hcomplete.trans h.2.1, hraws h.1 ▸ h.2.2⟩
      | emitting raw => exact hkeeps.complete h
      | returned => exact hkeeps.complete h

/-- What a turn of thread `i` has to meet. -/
structure Advances (client client' : Client) (stages : List Stage) (i : Nat)
    (old new : Stage) : Prop where
  keeps : client.Keeps client' i
  fits : new.Fits client' i
  bounded : ∀ j ∈ client'.activeSyncSendTokens, j = i ∨ j ∈ client.activeSyncSendTokens
  /-- A new winner finds the client open. -/
  winner : new.winner = true → old.winner = true ∨ client.closed = false
  /-- The winner goes only when it has completed the close. -/
  running : client'.closed = true → client'.closeComplete = false → new.winner = true ∨
    old.winner = false ∧ client.closed = true
  complete : client'.closeComplete = true → client'.Drained ∧ client'.rawClients ≠ [0]
  /-- Only the winner completes the close and uses its raw client. -/
  others : old.winner = true ∨ client.closed = false ∨
    client'.closeComplete = client.closeComplete ∧
      (client.Drained → client'.rawClients = client.rawClients)
  owned : client'.Owned (stages.set i new)

theorem Consistent.advance (h : Consistent client stages) (hold : stages[i]? = some old)
    (hadvance : Advances client client' stages i old new) :
    Consistent client' (stages.set i new) where
  fits := by
    intro j stage hstage
    rcases getElem?_set_cases hstage with ⟨rfl, rfl⟩ | ⟨hj, hother⟩
    · exact hadvance.fits
    · refine (h.fits hother).keep hadvance.keeps hj fun hwinner => ?_
      rcases hadvance.others with hwins | hopen | hsame
      · exact absurd (h.unique hother hold hwinner hwins) hj
      · rw [(h.fits hother).closed_of_winner hwinner] at hopen
        cases hopen
      · exact hsame
  bounded := by
    intro j hmem
    rw [List.length_set]
    rcases hadvance.bounded j hmem with rfl | hmem
    · exact (List.getElem?_eq_some_iff.mp hold).1
    · exact h.bounded j hmem
  unique := by
    -- Nobody else is a winner when the thread becomes one.
    have honly : ∀ {j : Nat} {stage : Stage}, j ≠ i → stages[j]? = some stage →
        new.winner = true → stage.winner = true → False := by
      intro j stage hj hother hnew hwinner
      rcases hadvance.winner hnew with hwins | hopen
      · exact hj (h.unique hother hold hwinner hwins)
      · rw [(h.fits hother).closed_of_winner hwinner] at hopen
        cases hopen
    intro j k first second hfirst hsecond hwins hwins'
    rcases getElem?_set_cases hfirst with ⟨rfl, rfl⟩ | ⟨hj, hfirst'⟩
    · rcases getElem?_set_cases hsecond with ⟨rfl, -⟩ | ⟨hk, hsecond'⟩
      · rfl
      · exact (honly hk hsecond' hwins hwins').elim
    · rcases getElem?_set_cases hsecond with ⟨rfl, rfl⟩ | ⟨-, hsecond'⟩
      · exact (honly hj hfirst' hwins' hwins).elim
      · exact h.unique hfirst' hsecond' hwins hwins'
  running := by
    intro hclosed hcomplete
    rcases hadvance.running hclosed hcomplete with hnew | ⟨hloser, hclosed⟩
    · exact ⟨new, mem_set_self hold, hnew⟩
    · have hbefore : client.closeComplete = false := by
        by_contra htrue
        rw [hadvance.keeps.complete (Bool.not_eq_false _ ▸ htrue)] at hcomplete
        cases hcomplete
      refine exists_mem_set hold ?_ (h.running hclosed hbefore)
      rw [hloser]
      exact Bool.false_ne_true
  complete := hadvance.complete
  owned := hadvance.owned

/-! ## The turns of a send -/

/-- A turn that leaves the client alone. -/
theorem Consistent.stay (h : Consistent client stages) (hold : stages[i]? = some old)
    (hfits : new.Fits client i) (hwinner : new.winner = old.winner)
    (hne : old ≠ .close (.closing 0)) : Advances client client stages i old new where
  keeps := .refl client i
  fits := hfits
  bounded := fun _ hmem => Or.inr hmem
  winner := fun hwins => Or.inl (hwinner ▸ hwins)
  running := fun hclosed _ => by
    cases hwins : new.winner with
    | true => exact Or.inl rfl
    | false => exact Or.inr ⟨hwinner ▸ hwins, hclosed⟩
  complete := h.complete
  others := Or.inr (Or.inr ⟨rfl, fun _ => rfl⟩)
  owned := by
    cases h.owned with
    | absent hnone hraws => exact .absent hnone hraws
    | active hsome hraws => exact .active hsome hraws
    | taken hdrained hraws hmem =>
        obtain ⟨_, hother, rfl⟩ := exists_mem_set (P := (· = Stage.close (.closing 0))) hold hne
          ⟨_, hmem, rfl⟩
        exact .taken hdrained hraws hother
    | closed hdrained hraws => exact .closed hdrained hraws

theorem Consistent.not_drained (h : Consistent client stages)
    (hi : i ∈ client.activeSyncSendTokens) :
    ¬ client.Drained ∧ client.closeComplete = false := by
  have hnot : ¬ client.Drained := fun hdrained => by
    rw [hdrained.tokens] at hi
    cases hi
  refine ⟨hnot, ?_⟩
  cases hcomplete : client.closeComplete with
  | true => exact absurd (h.complete hcomplete).1 hnot
  | false => rfl

theorem Consistent.not_drained_of_open (h : Consistent client stages)
    (hopen : client.closed = false) :
    ¬ client.Drained ∧ client.closeComplete = false := by
  have hnot : ¬ client.Drained := fun hdrained => by
    rw [hdrained.closed] at hopen
    cases hopen
  refine ⟨hnot, ?_⟩
  cases hcomplete : client.closeComplete with
  | true => exact absurd (h.complete hcomplete).1 hnot
  | false => rfl

theorem Consistent.beginSyncSend (h : Consistent client stages) (hopen : client.closed = false)
    (hold : old.winner = false) :
    Advances client (client.beginSyncSend i) stages i old (.send .admitted) where
  keeps :=
    { tokens := fun j hj => by
        rw [Client.beginSyncSend, List.mem_append, List.mem_singleton]
        exact or_iff_left hj
      raw := fun _ _ hraw => hraw
      closed := fun hclosed => hclosed
      drained := fun hdrained => absurd hdrained (h.not_drained_of_open hopen).1
      complete := fun hcomplete => hcomplete }
  fits := List.mem_append_right _ (List.mem_singleton_self i)
  bounded := fun j hmem => by
    rcases List.mem_append.mp hmem with hmem | hmem
    · exact Or.inr hmem
    · exact Or.inl (List.mem_singleton.mp hmem)
  winner := nofun
  running := fun hclosed _ => Or.inr ⟨hold, hclosed⟩
  complete := fun hcomplete => by
    rw [Client.beginSyncSend, (h.not_drained_of_open hopen).2] at hcomplete
    cases hcomplete
  others := Or.inr (Or.inl hopen)
  owned := by
    cases h.owned with
    | absent hnone hraws => exact .absent hnone hraws
    | active hsome hraws => exact .active hsome hraws
    | taken hdrained => exact absurd hdrained (h.not_drained_of_open hopen).1
    | closed hdrained => exact absurd hdrained (h.not_drained_of_open hopen).1

/-- A send with a token gets the only raw client. -/
theorem Consistent.rawClientLocked (h : Consistent client stages)
    (hold : stages[i]? = some (.send .admitted)) :
    Advances client client.rawClientLocked.2 stages i (.send .admitted)
      (.send (.requesting client.rawClientLocked.1)) := by
  have hmem : i ∈ client.activeSyncSendTokens := h.fits hold
  obtain ⟨hnot, hcomplete⟩ := h.not_drained hmem
  unfold Client.rawClientLocked
  split
  · rename_i raw hraw
    exact h.stay hold ⟨hmem, hraw⟩ rfl nofun
  · rename_i hraw
    -- No raw client was created before.
    have hnil : client.rawClients = [] := by
      cases h.owned with
      | absent hnone hraws => exact hraws
      | active hsome => rw [hraw] at hsome; cases hsome
      | taken hdrained => exact absurd hdrained hnot
      | closed hdrained => exact absurd hdrained hnot
    refine
      { keeps := ⟨fun _ _ => Iff.rfl, ?_, fun hclosed => hclosed,
          fun hdrained => absurd hdrained hnot, fun hcomplete => hcomplete⟩
        fits := ⟨hmem, rfl⟩
        bounded := fun _ hmem => Or.inr hmem
        winner := nofun
        running := fun hclosed _ => Or.inr ⟨rfl, hclosed⟩
        complete := ?_
        others := Or.inr (Or.inr ⟨rfl, fun hdrained => absurd hdrained hnot⟩)
        owned := .active ?_ ?_ }
    · intro raw _ hsome
      rw [hraw] at hsome
      cases hsome
    · intro htrue
      rw [hcomplete] at htrue
      cases htrue
    · rw [hnil]
      rfl
    · rw [hnil]
      rfl

theorem Client.Drained.finishSyncSend (h : client.Drained) (i : Nat) :
    (client.finishSyncSend i).Drained :=
  ⟨h.closed, by rw [Client.finishSyncSend, h.tokens]; rfl, h.client⟩

theorem Consistent.finishSyncSend (h : Consistent client stages)
    (hold : stages[i]? = some (.send .finishing)) :
    Advances client (client.finishSyncSend i) stages i (.send .finishing) (.send .returned) where
  keeps :=
    { tokens := fun j hj => by
        rw [Client.finishSyncSend, List.mem_filter]
        simp [hj]
      raw := fun _ _ hraw => hraw
      closed := fun hclosed => hclosed
      drained := fun hdrained => hdrained.finishSyncSend i
      complete := fun hcomplete => hcomplete }
  fits := by
    show i ∉ (client.finishSyncSend i).activeSyncSendTokens
    rw [Client.finishSyncSend, List.mem_filter]
    simp
  bounded := fun _ hmem => Or.inr (List.mem_of_mem_filter hmem)
  winner := nofun
  running := fun hclosed _ => Or.inr ⟨rfl, hclosed⟩
  complete := fun hcomplete =>
    ⟨(h.complete hcomplete).1.finishSyncSend i, (h.complete hcomplete).2⟩
  others := Or.inr (Or.inr ⟨rfl, fun _ => rfl⟩)
  owned := by
    cases h.owned with
    | absent hnone hraws => exact .absent hnone hraws
    | active hsome hraws => exact .active hsome hraws
    | taken hdrained hraws hmem =>
        have hother : ∃ stage ∈ stages.set i (.send .returned), stage = .close (.closing 0) :=
          exists_mem_set hold nofun ⟨_, hmem, rfl⟩
        obtain ⟨_, hother, rfl⟩ := hother
        exact .taken (hdrained.finishSyncSend i) hraws hother
    | closed hdrained hraws => exact .closed (hdrained.finishSyncSend i) hraws

/-! ## The turns of a close -/

/-- The close that came first goes on or waits. -/
theorem Consistent.drain (h : Consistent client stages) (hold : stages[i]? = some old)
    (hlead : old.winner = true ∨ client.closed = false) (hfree : i ∉ client.activeSyncSendTokens)
    (hcomplete : client.closeComplete = false) (hne : old ≠ .close (.closing 0))
    {waits notifies : Bool}
    (hturn : drain { client with closed := true } = (client', new, waits, notifies)) :
    Advances client client' stages i old new := by
  -- Nobody else has the raw client: it would be a winner as well.
  have hnot : Stage.close (.closing 0) ∉ stages := by
    intro hmem
    obtain ⟨j, hj⟩ := List.mem_iff_getElem?.mp hmem
    rcases hlead with hwins | hopen
    · obtain rfl := h.unique hj hold rfl hwins
      exact hne (Option.some.inj (hold.symm.trans hj))
    · exact absurd (h.fits hj).1 (h.not_drained_of_open hopen).1
  have hothers : ∀ {P : Prop}, old.winner = true ∨ client.closed = false ∨ P :=
    hlead.elim Or.inl fun hopen => Or.inr (Or.inl hopen)
  unfold SyncClient.drain at hturn
  dsimp only at hturn
  split at hturn
  · rename_i htokens
    cases hturn
    have htokens : client.activeSyncSendTokens ≠ [] := by
      intro hnil
      rw [hnil] at htokens
      cases htokens
    refine
      { keeps := ⟨fun _ _ => Iff.rfl, fun _ _ hraw => hraw, fun _ => rfl,
          fun hdrained => absurd hdrained.tokens htokens, fun hcomplete => hcomplete⟩
        fits := ⟨hfree, rfl, hcomplete⟩
        bounded := fun _ hmem => Or.inr hmem
        winner := fun _ => hlead
        running := fun _ _ => Or.inl rfl
        complete := fun htrue => ?_
        others := hothers
        owned := ?_ }
    · rw [hcomplete] at htrue
      cases htrue
    · cases h.owned with
      | absent hnone hraws => exact .absent hnone hraws
      | active hsome hraws => exact .active hsome hraws
      | taken hdrained => exact absurd hdrained.tokens htokens
      | closed hdrained => exact absurd hdrained.tokens htokens
  · rename_i htokens
    have htokens : client.activeSyncSendTokens = [] := by
      simpa using htokens
    have hkeepsTokens : ∀ raw : Nat, client.activeSyncSendTokens ≠ [] → client.client = some raw →
        client'.client = some raw := fun _ hne => absurd htokens hne
    split at hturn
    · rename_i hnone
      cases hturn
      have hdrained : ({ client with closed := true, closeComplete := true } : Client).Drained :=
        ⟨rfl, htokens, hnone⟩
      refine
        { keeps := ⟨fun _ _ => Iff.rfl, hkeepsTokens, fun _ => rfl, fun _ => hdrained,
            fun _ => rfl⟩
          fits := rfl
          bounded := fun _ hmem => Or.inr hmem
          winner := nofun
          running := nofun
          complete := fun _ => ⟨hdrained, ?_⟩
          others := hothers
          owned := ?_ }
      · cases h.owned with
        | absent _ hraws => rw [hraws]; exact nofun
        | active hsome => rw [hnone] at hsome; cases hsome
        | taken _ _ hmem => exact absurd hmem hnot
        | closed _ hraws => rw [hraws]; decide
      · cases h.owned with
        | absent _ hraws => exact .absent hnone hraws
        | active hsome => rw [hnone] at hsome; cases hsome
        | taken _ _ hmem => exact absurd hmem hnot
        | closed _ hraws => exact .closed hdrained hraws
    · rename_i raw hsome
      cases hturn
      have hdrained : ({ client with closed := true, client := none } : Client).Drained :=
        ⟨rfl, htokens, rfl⟩
      have howner : raw = 0 ∧ client.rawClients = [0] := by
        cases h.owned with
        | absent hnone => rw [hnone] at hsome; cases hsome
        | active hactive hraws => exact ⟨Option.some.inj (hsome.symm.trans hactive), hraws⟩
        | taken _ _ hmem => exact absurd hmem hnot
        | closed hclosed => rw [hclosed.client] at hsome; cases hsome
      obtain ⟨rfl, hraws⟩ := howner
      exact
        { keeps := ⟨fun _ _ => Iff.rfl, hkeepsTokens, fun _ => rfl, fun _ => hdrained,
            fun hcomplete => hcomplete⟩
          fits := ⟨hdrained, hcomplete, rfl, hraws⟩
          bounded := fun _ hmem => Or.inr hmem
          winner := fun _ => hlead
          running := fun _ _ => Or.inl rfl
          complete := fun htrue => by
            rw [hcomplete] at htrue
            cases htrue
          others := hothers
          owned := .taken hdrained hraws (mem_set_self hold) }

theorem Client.Drained.free (h : client.Drained) (i : Nat) : i ∉ client.activeSyncSendTokens := by
  rw [h.tokens]
  exact List.not_mem_nil

/-- The close uses its raw client. -/
theorem Consistent.closeRawClient (h : Consistent client stages) {raw : Nat}
    (hold : stages[i]? = some (.close (.closing raw))) (left : Option Nat) :
    Advances client (client.closeRawClient raw) stages i (.close (.closing raw))
      (.close (.completing left)) := by
  obtain ⟨hdrained, hcomplete, rfl, hraws⟩ := h.fits hold
  have hclosed : (client.closeRawClient 0).rawClients = [1] := by
    rw [Client.closeRawClient, hraws]
    rfl
  have hdrained' : (client.closeRawClient 0).Drained :=
    ⟨hdrained.closed, hdrained.tokens, hdrained.client⟩
  have hne : (client.closeRawClient 0).rawClients ≠ [0] := by
    rw [hclosed]
    decide
  exact
    { keeps := ⟨fun _ _ => Iff.rfl, fun _ _ hraw => hraw, fun hclosed => hclosed,
        fun _ => hdrained', fun hcomplete => hcomplete⟩
      fits := ⟨hdrained', hcomplete, hne⟩
      bounded := fun _ hmem => Or.inr hmem
      winner := fun _ => Or.inl rfl
      running := fun _ _ => Or.inl rfl
      complete := fun _ => ⟨hdrained', hne⟩
      others := Or.inl rfl
      owned := .closed hdrained' hclosed }

theorem Consistent.completeClose (h : Consistent client stages) {left : Option Nat}
    (hold : stages[i]? = some (.close (.completing left))) :
    Advances client { client with closeComplete := true } stages i (.close (.completing left))
      (.close (left.elim .returned .emitting)) := by
  obtain ⟨hdrained, -, hne⟩ := h.fits hold
  have hdrained' : ({ client with closeComplete := true } : Client).Drained :=
    ⟨hdrained.closed, hdrained.tokens, hdrained.client⟩
  refine
    { keeps := ⟨fun _ _ => Iff.rfl, fun _ _ hraw => hraw, fun hclosed => hclosed,
        fun _ => hdrained', fun _ => rfl⟩
      fits := ?_
      bounded := fun _ hmem => Or.inr hmem
      winner := ?_
      running := nofun
      complete := fun _ => ⟨hdrained', hne⟩
      others := Or.inl rfl
      owned := ?_ }
  · cases left with
    | none => rfl
    | some raw => rfl
  · exact fun _ => Or.inl rfl
  · cases h.owned with
    | absent _ hraws => exact .absent hdrained.client hraws
    | active hsome => rw [hdrained.client] at hsome; cases hsome
    | taken _ hraws => exact absurd hraws hne
    | closed _ hraws => exact .closed hdrained' hraws

theorem Consistent.awaitComplete (h : Consistent client stages) (hold : stages[i]? = some old)
    (hwinner : old.winner = false) (hclosed : client.closed = true)
    (hfree : i ∉ client.activeSyncSendTokens) {waits notifies : Bool}
    (hturn : awaitComplete client = (client', new, waits, notifies)) :
    Advances client client' stages i old new := by
  have hne : old ≠ .close (.closing 0) := by
    rintro rfl
    cases hwinner
  unfold SyncClient.awaitComplete at hturn
  split at hturn
  · cases hturn
    exact h.stay hold ⟨hfree, hclosed⟩ hwinner.symm hne
  · rename_i hcomplete
    cases hturn
    have hcomplete : client.closeComplete = true := by simpa using hcomplete
    exact h.stay hold hcomplete hwinner.symm hne

theorem Consistent.sendTurn (h : Consistent client stages) {stage : SendStage}
    (hold : stages[i]? = some (.send stage)) {raises waits notifies : Bool}
    (hturn : stage.turn i raises client = some (client', new, waits, notifies)) :
    Advances client client' stages i (.send stage) new := by
  have hfits := h.fits hold
  cases stage with
  | entering =>
      obtain ⟨rfl, rfl, -⟩ := Prod.ext_iff.mp (Option.some.inj hturn)
      refine h.stay hold ?_ ?_ nofun
      · split <;> exact hfits
      · split <;> rfl
  | beginning =>
      rw [SendStage.turn] at hturn
      split at hturn
      · obtain ⟨rfl, rfl, -⟩ := Prod.ext_iff.mp (Option.some.inj hturn)
        exact h.stay hold trivial rfl nofun
      · rename_i hopen
        obtain ⟨rfl, rfl, -⟩ := Prod.ext_iff.mp (Option.some.inj hturn)
        exact h.beginSyncSend (Bool.eq_false_iff.mpr hopen) rfl
  | admitted =>
      rw [SendStage.turn] at hturn
      split at hturn
      · obtain ⟨rfl, rfl, -⟩ := Prod.ext_iff.mp (Option.some.inj hturn)
        exact h.stay hold trivial rfl nofun
      · obtain ⟨rfl, rfl, -⟩ := Prod.ext_iff.mp (Option.some.inj hturn)
        exact h.rawClientLocked hold
  | requesting raw =>
      obtain ⟨rfl, rfl, -⟩ := Prod.ext_iff.mp (Option.some.inj hturn)
      exact h.stay hold trivial rfl nofun
  | finishing =>
      obtain ⟨rfl, rfl, -⟩ := Prod.ext_iff.mp (Option.some.inj hturn)
      exact h.finishSyncSend hold
  | returned => cases hturn

theorem Consistent.closeTurn (h : Consistent client stages) {stage : CloseStage}
    (hold : stages[i]? = some (.close stage)) {raises waits notifies : Bool}
    (hturn : stage.turn raises client = some (client', new, waits, notifies)) :
    Advances client client' stages i (.close stage) new := by
  have hfits := h.fits hold
  cases stage with
  | entering =>
      have hturn := Option.some.inj hturn
      split at hturn
      · rename_i hclosed
        exact h.awaitComplete hold rfl hclosed hfits hturn
      · rename_i hopen
        have hopen := Bool.eq_false_iff.mpr hopen
        exact h.drain hold (Or.inr hopen) hfits (h.not_drained_of_open hopen).2 nofun hturn
  | draining =>
      obtain ⟨hfree, hclosed, hcomplete⟩ := hfits
      have hturn := Option.some.inj hturn
      have hsame : { client with closed := true } = client := by
        rw [← hclosed]
      rw [← hsame] at hturn
      exact h.drain hold (Or.inl rfl) hfree hcomplete nofun hturn
  | awaiting => exact h.awaitComplete hold rfl hfits.2 hfits.1 (Option.some.inj hturn)
  | closing raw =>
      obtain ⟨rfl, rfl, -⟩ := Prod.ext_iff.mp (Option.some.inj hturn)
      exact h.closeRawClient hold _
  | completing raw =>
      obtain ⟨rfl, rfl, -⟩ := Prod.ext_iff.mp (Option.some.inj hturn)
      exact h.completeClose hold
  | emitting raw =>
      obtain ⟨rfl, rfl, -⟩ := Prod.ext_iff.mp (Option.some.inj hturn)
      exact h.stay hold hfits rfl nofun
  | returned => cases hturn

/-- Every turn keeps the invariant. -/
theorem Consistent.turn (h : Consistent client stages) (hold : stages[i]? = some old)
    {raises waits notifies : Bool}
    (hturn : old.turn i raises client = some (client', new, waits, notifies)) :
    Consistent client' (stages.set i new) := by
  refine h.advance hold ?_
  cases old with
  | send stage => exact h.sendTurn hold hturn
  | close stage => exact h.closeTurn hold hturn

/-- In every interleaving of sends and closes. -/
theorem consistent_of_reachable {state : Monitor.State Client Stage}
    (h : monitor.system.Reachable state) : Consistent state.shared state.stages :=
  Monitor.invariant_of_reachable Consistent consistent_new
    (fun call hinv => hinv.start call) (fun hinv hold hturn => hinv.turn hold hturn) h

/-! ## Nobody waits forever -/

/-- The condition of the loop that a close waits in. -/
def mustWait (client : Client) : Stage → Prop
  | .close .draining => client.activeSyncSendTokens ≠ []
  | .close .awaiting => client.closeComplete = false
  | _ => False

/-- What a turn without a notification leaves to those who wait. -/
structure Client.Silent (client client' : Client) : Prop where
  tokens : client.activeSyncSendTokens ≠ [] → client'.activeSyncSendTokens ≠ []
  complete : client'.closeComplete = client.closeComplete

theorem Client.Silent.refl (client : Client) : client.Silent client := ⟨fun hne => hne, rfl⟩

theorem awaitComplete_client {waits notifies : Bool}
    (hturn : awaitComplete client = (client', new, waits, notifies)) : client' = client := by
  unfold awaitComplete at hturn
  split at hturn <;> cases hturn <;> rfl

theorem drain_silent {waits : Bool} (hturn : drain client = (client', new, waits, false)) :
    client.Silent client' := by
  unfold drain at hturn
  split at hturn
  · cases hturn
    exact .refl client
  · split at hturn
    · cases hturn
    · cases hturn
      exact ⟨fun hne => hne, rfl⟩

theorem SendStage.silent {stage : SendStage} {raises waits : Bool}
    (hturn : stage.turn i raises client = some (client', new, waits, false)) :
    client.Silent client' := by
  cases stage with
  | entering =>
      cases hturn
      exact .refl client
  | beginning =>
      rw [SendStage.turn] at hturn
      split at hturn
      · cases hturn
        exact .refl client
      · cases hturn
        exact ⟨fun _ => List.concat_ne_nil _ _, rfl⟩
  | admitted =>
      rw [SendStage.turn] at hturn
      split at hturn
      · cases hturn
        exact .refl client
      · obtain ⟨rfl, -⟩ := Prod.ext_iff.mp (Option.some.inj hturn)
        show client.Silent client.rawClientLocked.2
        unfold Client.rawClientLocked
        split <;> exact ⟨fun hne => hne, rfl⟩
  | requesting raw =>
      cases hturn
      exact .refl client
  | finishing =>
      rw [SendStage.turn] at hturn
      injection hturn with hturn
      injection hturn with hclient hrest
      injection hrest with _ hrest
      injection hrest with _ hloud
      subst hclient
      refine ⟨fun _ hnil => ?_, rfl⟩
      rw [hnil] at hloud
      cases hloud
  | returned => cases hturn

theorem CloseStage.silent {stage : CloseStage} {raises waits : Bool}
    (hturn : stage.turn raises client = some (client', new, waits, false)) :
    client.Silent client' := by
  cases stage with
  | entering =>
      have hturn := Option.some.inj hturn
      split at hturn
      · rw [awaitComplete_client hturn]
        exact .refl client
      · exact ⟨(drain_silent hturn).tokens, (drain_silent hturn).complete⟩
  | draining => exact drain_silent (Option.some.inj hturn)
  | awaiting =>
      rw [awaitComplete_client (Option.some.inj hturn)]
      exact .refl client
  | closing raw =>
      cases hturn
      exact ⟨fun hne => hne, rfl⟩
  | completing left => cases hturn
  | emitting raw =>
      cases hturn
      exact .refl client
  | returned => cases hturn

/-- Whoever may end a loop notifies. -/
theorem attentive : Monitor.Attentive monitor mustWait where
  waits := by
    intro i raises client client' old new notifies hturn
    cases old with
    | send stage =>
        have hturn : stage.turn i raises client = some (client', new, true, notifies) := hturn
        cases stage with
        | entering => cases hturn
        | beginning =>
            rw [SendStage.turn] at hturn
            split at hturn <;> cases hturn
        | admitted =>
            rw [SendStage.turn] at hturn
            split at hturn <;> cases hturn
        | requesting raw => cases hturn
        | finishing => cases hturn
        | returned => cases hturn
    | close stage =>
        have hawait : awaitComplete client = (client', new, true, notifies) →
            mustWait client' new := by
          intro hturn
          unfold awaitComplete at hturn
          split at hturn
          · rename_i hcomplete
            cases hturn
            simpa [mustWait] using hcomplete
          · cases hturn
        have hdrain : ∀ {client client' : Client},
            drain client = (client', new, true, notifies) → mustWait client' new := by
          intro client client' hturn
          unfold drain at hturn
          split at hturn
          · rename_i htokens
            cases hturn
            simpa [mustWait] using htokens
          · split at hturn <;> cases hturn
        have hturn : stage.turn raises client = some (client', new, true, notifies) := hturn
        cases stage with
        | entering =>
            have hturn := Option.some.inj hturn
            split at hturn
            · exact hawait hturn
            · exact hdrain hturn
        | draining => exact hdrain (Option.some.inj hturn)
        | awaiting => exact hawait (Option.some.inj hturn)
        | closing raw => cases hturn
        | completing left => cases hturn
        | emitting raw => cases hturn
        | returned => cases hturn
  keeps := by
    intro i raises client client' old new waits hturn other hwait
    have hsilent : client.Silent client' := by
      cases old with
      | send stage => exact SendStage.silent hturn
      | close stage => exact CloseStage.silent hturn
    cases other with
    | send stage => exact hwait
    | close stage =>
        cases stage with
        | draining => exact hsilent.tokens hwait
        | awaiting => exact hsilent.complete.trans hwait
        | _ => exact hwait

/-- How far a thread is from its end. -/
def Stage.rank : Stage → Nat
  | .send .entering => 5
  | .send .beginning => 4
  | .send .admitted => 3
  | .send (.requesting _) => 2
  | .send .finishing => 1
  | .send .returned => 0
  | .close .entering => 5
  | .close .draining | .close .awaiting => 4
  | .close (.closing _) => 3
  | .close (.completing _) => 2
  | .close (.emitting _) => 1
  | .close .returned => 0

theorem descends : Monitor.Descends monitor Stage.rank := by
  intro i raises client client' old new waits notifies hturn
  cases old with
  | send stage =>
      left
      have hturn : stage.turn i raises client = some (client', new, waits, notifies) := hturn
      cases stage with
      | entering =>
          cases hturn
          split <;> decide
      | beginning =>
          rw [SendStage.turn] at hturn
          split at hturn <;> cases hturn <;> decide
      | admitted =>
          rw [SendStage.turn] at hturn
          split at hturn
          · cases hturn
            decide
          · cases hturn
            exact Nat.lt_succ_self 2
      | requesting raw =>
          cases hturn
          exact Nat.lt_succ_self 1
      | finishing =>
          cases hturn
          decide
      | returned => cases hturn
  | close stage =>
      have hawait : awaitComplete client = (client', new, waits, notifies) →
          new.rank < 4 ∨ new.rank = 4 ∧ waits = true ∧ notifies = false := by
        intro hturn
        unfold awaitComplete at hturn
        split at hturn <;> cases hturn
        · exact Or.inr ⟨rfl, rfl, rfl⟩
        · exact Or.inl (by decide)
      have hdrain : ∀ {client client' : Client}, drain client = (client', new, waits, notifies) →
          new.rank < 4 ∨ new.rank = 4 ∧ waits = true ∧ notifies = false := by
        intro client client' hturn
        unfold drain at hturn
        split at hturn
        · cases hturn
          exact Or.inr ⟨rfl, rfl, rfl⟩
        · split at hturn <;> cases hturn
          · exact Or.inl (by decide)
          · exact Or.inl (Nat.lt_succ_self 3)
      have hturn : stage.turn raises client = some (client', new, waits, notifies) := hturn
      cases stage with
      | entering =>
          have hturn := Option.some.inj hturn
          have hle : new.rank < 4 ∨ new.rank = 4 ∧ waits = true ∧ notifies = false := by
            split at hturn
            · exact hawait hturn
            · exact hdrain hturn
          have hrank : (Stage.close .entering).rank = 5 := rfl
          left
          omega
      | draining => exact hdrain (Option.some.inj hturn)
      | awaiting => exact hawait (Option.some.inj hturn)
      | closing raw =>
          left
          cases hturn
          exact Nat.lt_succ_self 2
      | completing left =>
          left
          cases hturn
          cases left with
          | none => exact Nat.succ_pos 1
          | some raw => exact Nat.lt_succ_self 1
      | emitting raw =>
          left
          cases hturn
          exact Nat.lt_succ_self 0
      | returned => cases hturn

/-! ## The shutdown -/

/-- The call of a thread is over. -/
def Stage.over : Stage → Bool
  | .send .returned | .close .returned => true
  | _ => false

theorem turn_isSome (h : stage.over = false) (i : Nat) (raises : Bool) (client : Client) :
    (stage.turn i raises client).isSome = true := by
  cases stage with
  | send send =>
      rw [Stage.turn]
      cases send with
      | beginning =>
          rw [SendStage.turn]
          split <;> rfl
      | admitted =>
          rw [SendStage.turn]
          split <;> rfl
      | returned => cases h
      | _ => rfl
  | close close =>
      cases close with
      | returned => cases h
      | _ => rfl

/-- Whoever has a token is in the middle of a send. -/
theorem Consistent.holder (h : Consistent client stages) (hmem : i ∈ client.activeSyncSendTokens) :
    ∃ stage : SendStage, stages[i]? = some (.send stage) ∧ stage ≠ .returned := by
  obtain ⟨hnot, hcomplete⟩ := h.not_drained hmem
  obtain ⟨stage, hstage⟩ : ∃ stage, stages[i]? = some stage :=
    ⟨_, List.getElem?_eq_getElem (h.bounded i hmem)⟩
  have hfits := h.fits hstage
  cases stage with
  | send stage =>
      refine ⟨stage, hstage, ?_⟩
      rintro rfl
      exact hfits hmem
  | close stage =>
      cases stage with
      | entering => exact absurd hmem hfits
      | draining => exact absurd hmem hfits.1
      | awaiting => exact absurd hmem hfits.1
      | closing raw => exact absurd hfits.1 hnot
      | completing left => exact absurd hfits.1 hnot
      | emitting raw => exact absurd (h.complete hfits).1 hnot
      | returned => exact absurd (h.complete hfits).1 hnot

/-- When some call is not over, somebody is awake who can go on. -/
theorem exists_awake {state : Monitor.State Client Stage} (h : monitor.system.Reachable state)
    {i : Nat} {stage : Stage} (hstage : state.stages[i]? = some stage)
    (hover : stage.over = false) :
    ∃ thread ∈ state.threads, thread.asleep = false ∧ thread.stage.over = false := by
  have hinv := consistent_of_reachable h
  have hguarded := Monitor.guarded_of_reachable attentive h
  have hthread : ∀ {i : Nat} {stage : Stage}, state.stages[i]? = some stage →
      ∃ thread ∈ state.threads, thread.stage = stage := by
    intro i stage hstage
    rw [Monitor.State.stages, List.getElem?_map, Option.map_eq_some_iff] at hstage
    obtain ⟨thread, hthread, rfl⟩ := hstage
    exact ⟨thread, List.mem_iff_getElem?.mpr ⟨i, hthread⟩, rfl⟩
  -- A thread that does not wait in a loop is awake.
  have hawake : ∀ {i : Nat} {stage : Stage}, state.stages[i]? = some stage →
      stage.over = false → ¬ mustWait state.shared stage →
      ∃ thread ∈ state.threads, thread.asleep = false ∧ thread.stage.over = false := by
    intro i stage hstage hover hnot
    obtain ⟨thread, hmem, rfl⟩ := hthread hstage
    refine ⟨thread, hmem, Bool.eq_false_iff.mpr fun hasleep => ?_, hover⟩
    exact hnot (hguarded thread hmem hasleep)
  -- The close that came first waits for a send, and a send never waits.
  have hdraining : state.shared.activeSyncSendTokens ≠ [] →
      ∃ thread ∈ state.threads, thread.asleep = false ∧ thread.stage.over = false := by
    intro hne
    obtain ⟨j, hmem⟩ := List.exists_mem_of_ne_nil _ hne
    obtain ⟨stage, hstage, hreturned⟩ := hinv.holder hmem
    refine hawake hstage ?_ id
    cases stage with
    | returned => exact absurd rfl hreturned
    | _ => rfl
  by_cases hwait : mustWait state.shared stage
  · cases stage with
    | send stage => exact hwait.elim
    | close stage =>
        cases stage with
        | draining => exact hdraining hwait
        | awaiting =>
            obtain ⟨winner, hmem, hwins⟩ := hinv.running (hinv.fits hstage).2 hwait
            obtain ⟨j, hj⟩ := List.mem_iff_getElem?.mp hmem
            by_cases hwait : mustWait state.shared winner
            · cases winner with
              | send winner => cases hwins
              | close winner =>
                  cases winner with
                  | draining => exact hdraining hwait
                  | closing raw => exact hwait.elim
                  | completing left => exact hwait.elim
                  | _ => cases hwins
            · refine hawake hj ?_ hwait
              cases winner with
              | send winner => cases hwins
              | close winner =>
                  cases winner with
                  | returned => cases hwins
                  | _ => rfl
        | _ => exact hwait.elim
  · exact hawake hstage hover hwait

/-- In every interleaving of sends and closes, a send uses a raw client that is not closed,
and a raw client is closed once.  A close that returns leaves no send with a token and no
raw client open.  Nobody waits forever: the calls that were made take a bounded number of
turns, and where no turn is left they are over. -/
theorem sync_client_shutdown {state : Monitor.State Client Stage}
    (h : monitor.system.Reachable state) :
    (∀ raw, .send (.requesting raw) ∈ state.stages → state.shared.rawClients[raw]? = some 0) ∧
      (state.shared.rawClients.length ≤ 1 ∧ ∀ closes ∈ state.shared.rawClients, closes ≤ 1) ∧
      (.close .returned ∈ state.stages → state.shared.activeSyncSendTokens = [] ∧
        ∀ closes ∈ state.shared.rawClients, closes = 1) ∧
      (∀ (turns : List (Nat × Bool)) (final : Monitor.State Client Stage),
        (turns.map fun turn => .turn turn.1 turn.2).foldlM monitor.step state = some final →
          turns.length ≤ state.budget Stage.rank) ∧
      ((∀ i raises, monitor.step state (.turn i raises) = none) →
        ∀ stage ∈ state.stages, stage.over = true) := by
  have hinv := consistent_of_reachable h
  refine ⟨?_, ?_, ?_, ?_, ?_⟩
  · intro raw hmem
    obtain ⟨i, hi⟩ := List.mem_iff_getElem?.mp hmem
    obtain ⟨htoken, hraw⟩ := hinv.fits hi
    cases hinv.owned with
    | absent hnone => rw [hnone] at hraw; cases hraw
    | active hsome hraws =>
        obtain rfl := Option.some.inj (hsome.symm.trans hraw)
        rw [hraws]
        rfl
    | taken hdrained => exact absurd htoken (hdrained.free i)
    | closed hdrained => exact absurd htoken (hdrained.free i)
  · cases hinv.owned with
    | absent _ hraws => rw [hraws]; decide
    | active _ hraws => rw [hraws]; decide
    | taken _ hraws => rw [hraws]; decide
    | closed _ hraws => rw [hraws]; decide
  · intro hmem
    obtain ⟨i, hi⟩ := List.mem_iff_getElem?.mp hmem
    obtain ⟨hdrained, hne⟩ := hinv.complete (hinv.fits hi)
    refine ⟨hdrained.tokens, ?_⟩
    cases hinv.owned with
    | absent _ hraws => rw [hraws]; nofun
    | active _ hraws => exact absurd hraws hne
    | taken _ hraws => exact absurd hraws hne
    | closed _ hraws => rw [hraws]; decide
  · intro turns final hrun
    have hle := Monitor.turns_le_budget descends hrun
    omega
  · intro hstuck stage hmem
    obtain ⟨i, hi⟩ := List.mem_iff_getElem?.mp hmem
    by_contra hover
    obtain ⟨thread, hthread, hawake, hover⟩ :=
      exists_awake h hi (Bool.eq_false_iff.mpr hover)
    obtain ⟨j, hj⟩ := List.mem_iff_getElem?.mp hthread
    obtain ⟨next, hnext⟩ : ∃ next, monitor.step state (.turn j false) = some next :=
      Monitor.turn_enabled hj hawake (turn_isSome hover j false state.shared)
    rw [hstuck] at hnext
    cases hnext

/-- A close begins while a send has the raw client, waits for it, and closes the raw client
after it. -/
theorem sync_client_shutdown_example :
    ∃ state : Monitor.State Client Stage,
      monitor.system.Reachable state ∧ .close .returned ∈ state.stages ∧
        state.shared.activeSyncSendTokens = [] ∧ ∀ closes ∈ state.shared.rawClients, closes = 1 :=
  have hrun : monitor.system.run
      [.start .send, .start .close, .turn 0 false, .turn 0 false, .turn 0 false, .turn 1 false,
        .turn 0 false, .turn 0 false, .turn 1 false, .turn 1 false, .turn 1 false,
        .turn 1 false] =
      some ⟨⟨true, none, [], true, [1]⟩,
        [⟨.send .returned, false⟩, ⟨.close .returned, false⟩]⟩ := by
    decide
  have hreachable := TransitionSystem.reachable_of_run hrun
  ⟨_, hreachable, by decide, (sync_client_shutdown hreachable).2.2.1 (by decide)⟩

end FogHttp.SyncClient
