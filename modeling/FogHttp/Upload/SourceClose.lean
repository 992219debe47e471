import FogHttp.Upload.Sources

/-!
# A source is closed once

A thread `holds` a source while it has the claim and the close has not begun.  `Balanced`
says that the holders and the closes of a source never exceed its claim, so a source is
closed at most once, whatever fails.

As long as workers and closes start, the claim is never given back and the two sides are
equal.  `Owed` adds that a source which nobody has claimed is not forgotten: a thread is on
its way to interrupt it, or it is registered, and then the close of the body comes across
it.  A body that is closed and at rest has closed every source.

`Turns` says once what a turn can do, and every invariant is read off it.
-/

namespace FogHttp.UploadSources

open Lib

variable {body body' : UploadBody} {threads started : List Stage} {thread old new : Stage}
  {answer : Answer} {i n : Nat} {cleanup : UploadSourceCleanup}

namespace Stage

/-- The thread has the claim of the source, and no close has begun for it. -/
def holds (source : Nat) : Stage → Bool
  | .closing _ source' => source' == source
  | .finishing _ source' release => release && source' == source
  | _ => false

/-- The thread will give the claim back. -/
def releases : Stage → Bool
  | .finishing _ _ release => release
  | _ => false

/-- The source that the thread is about. -/
def source : Stage → Option Nat
  | .registering source _ | .orphaned source _ | .failing source | .fresh source
  | .checking source | .launching source | .feeding source | .waiting source
  | .claiming _ source | .closing _ source | .finishing _ source _ => some source
  | .starting | .preparing | .shutting | .interrupting _ | .ended => none

/-- No source depends on the thread, and it has no claim. -/
def idle : Stage → Bool
  | .starting | .preparing | .failing _ | .fresh _ | .checking _ | .launching _ | .feeding _
  | .waiting _ | .claiming .close _ | .claiming .acloseFromSync _ | .ended => true
  | _ => false

theorem holds_eq_false (h : thread.source ≠ some n) : thread.holds n = false := by
  cases thread with
  | closing closer source =>
      refine Bool.eq_false_iff.mpr fun hholds => h ?_
      exact congrArg some (beq_iff_eq.mp hholds)
  | finishing closer source release =>
      refine Bool.eq_false_iff.mpr fun hholds => h ?_
      exact congrArg some (beq_iff_eq.mp (Bool.and_eq_true_iff.mp hholds).2)
  | _ => rfl

theorem idle_holds (h : thread.idle = true) (n : Nat) : thread.holds n = false := by
  cases thread <;> first | rfl | cases h

theorem idle_releases (h : thread.idle = true) : thread.releases = false := by
  cases thread <;> first | rfl | cases h

end Stage

/-! ## What a turn can do -/

/-- The inversion of a turn. -/
inductive Turns (answer : Answer) (body : UploadBody) : Stage → Turn → Prop where
  /-- The thread goes on, and the body stays as it is. -/
  | pass {old new : Stage} {started : List Stage} (old_idle : old.idle = true)
      (new_idle : new.idle = true)
      (named : ∀ source, new.source = some source →
        old.source = some source ∨ body.replayable = false ∧ source = 0)
      (starts : ∀ thread ∈ started, ∃ source, old.source = some source ∧
        (thread = .feeding source ∨ thread = .claiming .interrupt source)) :
      Turns answer body old (body, new, started)
  | prepare (failed : Bool) :
      Turns answer body .preparing ({ body with cleanups := body.cleanups ++ [.new] },
        .registering body.cleanups.length failed, [])
  | register {source : Nat} {failed : Bool} {new : Stage} (isOpen : body.closed = false)
      (new_idle : new.idle = true) (named : new.source = some source) :
      Turns answer body (.registering source failed)
        ({ body with sourceCleanups := body.sourceCleanups ++ [source] }, new, [])
  | orphan {source : Nat} {failed : Bool} :
      Turns answer body (.registering source failed) (body, .orphaned source failed, [])
  | interruptOrphan {source : Nat} {failed : Bool} {new : Stage} (new_idle : new.idle = true)
      (named : new.source = some source) :
      Turns answer body (.orphaned source failed) (body, new, interrupter source answer.starts)
  | refuse {closer : Closer} {source : Nat} {cleanup : UploadSourceCleanup}
      (found : body.cleanups[source]? = some cleanup) (refused : cleanup.claim closer = none) :
      Turns answer body (.claiming closer source) (body, .ended, [])
  | claim {closer : Closer} {source : Nat} {cleanup cleanup' : UploadSourceCleanup}
      (found : body.cleanups[source]? = some cleanup)
      (claimed : cleanup.claim closer = some cleanup') :
      Turns answer body (.claiming closer source)
        (body.setCleanup source cleanup', .closing closer source, [])
  | close {closer : Closer} {source : Nat} {cleanup : UploadSourceCleanup} {new : Stage}
      (found : body.cleanups[source]? = some cleanup)
      (next : new = .ended ∨
        new = .finishing closer source (closer.releases answer.starts answer.raises)) :
      Turns answer body (.closing closer source)
        (body.setCleanup source (cleanup.closeSource answer.starts), new, [])
  | finish {closer : Closer} {source : Nat} {release : Bool} {cleanup : UploadSourceCleanup}
      (found : body.cleanups[source]? = some cleanup) :
      Turns answer body (.finishing closer source release)
        (body.setCleanup source (cleanup.finish closer release), .ended, [])
  | shut : Turns answer body .shutting ({ body with closed := true }, .interrupting 0, [])
  | interrupt {index source : Nat} (found : body.sourceCleanups[index]? = some source) :
      Turns answer body (.interrupting index)
        (body, .interrupting (index + 1), interrupter source answer.starts)
  | interrupted {index : Nat} (none : body.sourceCleanups[index]? = none) :
      Turns answer body (.interrupting index) (body, .ended, [])

theorem interrupter_mem {source : Nat} {starts : Bool} (h : thread ∈ interrupter source starts) :
    thread = .claiming .interrupt source := by
  unfold interrupter at h
  split at h
  · exact List.mem_singleton.mp h
  · cases h

theorem turns_of_turn {turn : Turn} (hturn : old.turn answer body = some turn) :
    Turns answer body old turn := by
  have hpass : ∀ {old new : Stage} {source : Nat}, old.idle = true → new.idle = true →
      old.source = some source → new.source = some source ∨ new.source = none →
        Turns answer body old (body, new, []) := by
    intro old new source hold hnew hsource hsame
    refine .pass hold hnew (fun named hnamed => Or.inl ?_) nofun
    rcases hsame with hsame | hnone
    · exact hsource.trans (hsame.symm.trans hnamed)
    · rw [hnone] at hnamed
      cases hnamed
  cases old with
  | starting =>
      rw [Stage.turn] at hturn
      split at hturn
      · cases hturn
        exact .pass rfl rfl nofun nofun
      · split at hturn
        · cases hturn
          exact .pass rfl rfl nofun nofun
        · rename_i hplain
          cases hturn
          refine .pass rfl rfl (fun source hsource => Or.inr ?_) nofun
          exact ⟨Bool.eq_false_iff.mpr hplain, (Option.some.inj hsource).symm⟩
  | preparing =>
      rw [Stage.turn] at hturn
      split at hturn
      · cases hturn
        exact .pass rfl rfl nofun nofun
      · cases hturn
        exact .prepare _
  | registering source failed =>
      rw [Stage.turn] at hturn
      split at hturn
      · cases hturn
        exact .orphan
      · rename_i hopen
        cases hturn
        refine .register (Bool.eq_false_iff.mpr hopen) ?_ ?_ <;> split <;> rfl
  | orphaned source failed =>
      cases hturn
      refine .interruptOrphan ?_ ?_ <;> split <;> rfl
  | failing source =>
      cases hturn
      exact .pass rfl rfl nofun fun thread hmem => ⟨source, rfl, Or.inr (interrupter_mem hmem)⟩
  | fresh source =>
      cases hturn
      split
      · exact hpass rfl rfl rfl (Or.inr rfl)
      · exact hpass rfl rfl rfl (Or.inl rfl)
  | checking source =>
      cases hturn
      split <;> exact hpass rfl rfl rfl (Or.inl rfl)
  | launching source =>
      rw [Stage.turn] at hturn
      split at hturn
      · cases hturn
        exact hpass rfl rfl rfl (Or.inr rfl)
      · cases hturn
        refine .pass rfl rfl nofun fun thread hmem => ⟨source, rfl, Or.inl ?_⟩
        split at hmem
        · exact List.mem_singleton.mp hmem
        · cases hmem
  | feeding source =>
      cases hturn
      exact hpass rfl rfl rfl (Or.inl rfl)
  | waiting source =>
      rw [Stage.turn, Option.bind_eq_bind, Option.bind_eq_some_iff] at hturn
      obtain ⟨found, -, hturn⟩ := hturn
      split at hturn
      · cases hturn
        exact hpass rfl rfl rfl (Or.inl rfl)
      · split at hturn <;> cases hturn
        exact hpass rfl rfl rfl (Or.inr rfl)
  | claiming closer source =>
      rw [Stage.turn, Option.bind_eq_bind, Option.bind_eq_some_iff] at hturn
      obtain ⟨found, hfound, hturn⟩ := hturn
      split at hturn
      · rename_i hclaim
        cases hturn
        exact .refuse hfound hclaim
      · rename_i hclaim
        cases hturn
        exact .claim hfound hclaim
  | closing closer source =>
      rw [Stage.turn, Option.bind_eq_bind, Option.bind_eq_some_iff] at hturn
      obtain ⟨found, hfound, hturn⟩ := hturn
      cases hturn
      refine .close hfound ?_
      split
      · exact Or.inr rfl
      · exact Or.inl rfl
  | finishing closer source release =>
      rw [Stage.turn, Option.bind_eq_bind, Option.bind_eq_some_iff] at hturn
      obtain ⟨found, hfound, hturn⟩ := hturn
      cases hturn
      exact .finish hfound
  | shutting =>
      cases hturn
      exact .shut
  | interrupting index =>
      rw [Stage.turn] at hturn
      split at hturn
      · rename_i hnone
        cases hturn
        exact .interrupted hnone
      · rename_i source hsource
        cases hturn
        exact .interrupt hsource
  | ended => cases hturn

/-- The threads that a turn starts are at their first stage. -/
theorem Turns.started_cases (h : Turns answer body old (body', new, started)) :
    ∀ thread ∈ started, ∃ source,
      thread = .feeding source ∨ thread = .claiming .interrupt source := by
  intro thread hmem
  cases h with
  | pass _ _ _ hstarted =>
      obtain ⟨source, -, hthread⟩ := hstarted thread hmem
      exact ⟨source, hthread⟩
  | interruptOrphan => exact ⟨_, Or.inr (interrupter_mem hmem)⟩
  | interrupt => exact ⟨_, Or.inr (interrupter_mem hmem)⟩
  | _ => cases hmem

/-! ## At most one close -/

/-- The cleanup of a source after a turn.  A claim pays for a holder or for a close. -/
inductive Pays (old new : Stage) (answer : Answer) (cleanups : List UploadSourceCleanup)
    (n : Nat) (cleanup' : UploadSourceCleanup) : Prop where
  | fresh (position : n = cleanups.length) (fresh : cleanup' = .new) (free : new.holds n = false)
  | known (cleanup : UploadSourceCleanup) (position : cleanups[n]? = some cleanup)
      (le : (new.holds n).toNat + cleanup'.closes + cleanup.claimed.toNat ≤
        (old.holds n).toNat + cleanup.closes + cleanup'.claimed.toNat)
      (eq : old.begins answer = true → old.releases = false →
        (new.holds n).toNat + cleanup'.closes + cleanup.claimed.toNat =
            (old.holds n).toNat + cleanup.closes + cleanup'.claimed.toNat ∧
          (cleanup.claimed = true → cleanup'.claimed = true))

/-- A turn that does not touch a cleanup. -/
theorem Pays.same (h : body.cleanups[n]? = some cleanup) (hold : old.holds n = false)
    (hnew : new.holds n = false) : Pays old new answer body.cleanups n cleanup := by
  refine .known cleanup h ?_ fun _ _ => ⟨?_, fun h => h⟩
  · rw [hold, hnew]
  · rw [hold, hnew]

/-- A turn that sets the cleanup of its source. -/
theorem Pays.set {source : Nat} {cleanup' : UploadSourceCleanup} (hold : old.source = some source)
    (hnew : new.source = some source ∨ new.source = none)
    (hown : Pays old new answer body.cleanups source cleanup') {entry : UploadSourceCleanup}
    (h : (body.setCleanup source cleanup').cleanups[n]? = some entry) :
    Pays old new answer body.cleanups n entry := by
  rcases getElem?_set_cases h with ⟨rfl, rfl⟩ | ⟨hne, hentry⟩
  · exact hown
  · refine .same hentry (Stage.holds_eq_false ?_) (Stage.holds_eq_false ?_)
    · rw [hold]
      exact fun hsame => hne (Option.some.inj hsame).symm
    · rcases hnew with hnew | hnew
      · rw [hnew]
        exact fun hsame => hne (Option.some.inj hsame).symm
      · rw [hnew]
        nofun

theorem claim_eq {closer : Closer} {cleanup' : UploadSourceCleanup}
    (h : cleanup.claim closer = some cleanup') :
    cleanup.claimed = false ∧ cleanup'.claimed = true ∧ cleanup'.closes = cleanup.closes := by
  unfold UploadSourceCleanup.claim at h
  cases closer with
  | close =>
      dsimp only at h
      split at h
      · cases h
      · rename_i hfree
        cases h
        rw [Bool.or_eq_true, not_or] at hfree
        exact ⟨Bool.eq_false_iff.mpr hfree.2, rfl, rfl⟩
  | acloseFromSync =>
      dsimp only at h
      split at h
      · cases h
      · rename_i hfree
        cases h
        exact ⟨Bool.eq_false_iff.mpr hfree, rfl, rfl⟩
  | interrupt =>
      dsimp only at h
      split at h
      · cases h
      · rename_i hfree
        cases h
        exact ⟨Bool.eq_false_iff.mpr hfree, rfl, rfl⟩

theorem closing_holds (closer : Closer) (source : Nat) :
    ((Stage.closing closer source).holds source).toNat = 1 := by
  rw [Stage.holds, beq_self_eq_true, Bool.toNat_true]

theorem finishing_holds (closer : Closer) (source : Nat) (release : Bool) :
    (Stage.finishing closer source release).holds source = release := by
  rw [Stage.holds, beq_self_eq_true, Bool.and_true]

theorem pays_close {closer : Closer} {source : Nat} (hfound : body.cleanups[source]? = some cleanup)
    (hnew : new = .ended ∨
      new = .finishing closer source (closer.releases answer.starts answer.raises)) :
    Pays (.closing closer source) new answer body.cleanups source
      (cleanup.closeSource answer.starts) := by
  have hclaimed : (cleanup.closeSource answer.starts).claimed = cleanup.claimed := rfl
  have hcloses : (cleanup.closeSource answer.starts).closes =
    cleanup.closes + answer.starts.toNat := rfl
  -- A thread that holds on has not begun the close.
  have hholds : (new.holds source).toNat + answer.starts.toNat ≤ 1 ∧
      (answer.starts = true → new.holds source = false) := by
    rcases hnew with rfl | rfl
    · have hover : (Stage.ended.holds source).toNat = 0 := rfl
      rw [hover, Nat.zero_add]
      exact ⟨Bool.toNat_le _, fun _ => rfl⟩
    · rw [finishing_holds]
      unfold Closer.releases
      cases answer.starts with
      | true => exact ⟨Nat.le_refl _, fun _ => rfl⟩
      | false => exact ⟨Bool.toNat_le _, nofun⟩
  refine .known cleanup hfound ?_ fun hbegins _ => ⟨?_, fun h => h⟩
  · rw [closing_holds, hcloses, hclaimed]
    omega
  · have hstarts : answer.starts = true := hbegins
    rw [closing_holds, hcloses, hclaimed, hholds.2 hstarts, hstarts, Bool.toNat_true,
      Bool.toNat_false]
    omega

theorem pays_finish {closer : Closer} {source : Nat} {release : Bool}
    (hfound : body.cleanups[source]? = some cleanup) :
    Pays (.finishing closer source release) .ended answer body.cleanups source
      (cleanup.finish closer release) := by
  have hcloses : (cleanup.finish closer release).closes = cleanup.closes := rfl
  have hover : (Stage.ended.holds source).toNat = 0 := rfl
  have hle := Bool.toNat_le cleanup.claimed
  refine .known cleanup hfound ?_ fun _ hkept => ?_
  · rw [finishing_holds, hover, hcloses]
    cases release with
    | true =>
        rw [Bool.toNat_true]
        omega
    | false =>
        have hkept : (cleanup.finish closer false).claimed = cleanup.claimed := Bool.and_true _
        rw [hkept, Bool.toNat_false]
  · have hkept : release = false := hkept
    subst hkept
    have hkept : (cleanup.finish closer false).claimed = cleanup.claimed := Bool.and_true _
    rw [finishing_holds, hover, hcloses, hkept, Bool.toNat_false]
    exact ⟨rfl, fun h => h⟩

/-- Every turn pays for what it does to a cleanup. -/
theorem Turns.pays (h : Turns answer body old (body', new, started))
    (hcleanup : body'.cleanups[n]? = some cleanup) :
    Pays old new answer body.cleanups n cleanup := by
  cases h with
  | pass hold hnew => exact .same hcleanup (Stage.idle_holds hold n) (Stage.idle_holds hnew n)
  | prepare failed =>
      rcases getElem?_push_cases hcleanup with hknown | ⟨hn, hfresh⟩
      · exact .same hknown rfl rfl
      · exact .fresh hn hfresh rfl
  | register _ hnew => exact .same hcleanup rfl (Stage.idle_holds hnew n)
  | orphan => exact .same hcleanup rfl rfl
  | interruptOrphan hnew => exact .same hcleanup rfl (Stage.idle_holds hnew n)
  | refuse => exact .same hcleanup rfl rfl
  | @claim closer source found claimed hfound hclaim =>
      obtain ⟨hfree, htaken, hcloses⟩ := claim_eq hclaim
      have hold : ((Stage.claiming closer source).holds source).toNat = 0 := rfl
      refine .set rfl (Or.inl rfl) (.known found hfound ?_ fun _ _ => ⟨?_, fun _ => htaken⟩)
        hcleanup
      · rw [hold, closing_holds, hfree, htaken, hcloses, Bool.toNat_true, Bool.toNat_false]
        omega
      · rw [hold, closing_holds, hfree, htaken, hcloses, Bool.toNat_true, Bool.toNat_false]
        omega
  | close hfound hnew =>
      refine .set rfl ?_ (pays_close hfound hnew) hcleanup
      rcases hnew with rfl | rfl
      · exact Or.inr rfl
      · exact Or.inl rfl
  | finish hfound => exact .set rfl (Or.inr rfl) (pays_finish hfound) hcleanup
  | shut => exact .same hcleanup rfl rfl
  | interrupt => exact .same hcleanup rfl rfl
  | interrupted => exact .same hcleanup rfl rfl

/-- What is named is there. -/
structure Bounded (body : UploadBody) (threads : List Stage) : Prop where
  threads : ∀ thread ∈ threads, ∀ source, thread.source = some source →
    source < body.cleanups.length
  registered : ∀ source ∈ body.sourceCleanups, source < body.cleanups.length
  plain : body.replayable = false → 0 < body.cleanups.length

/-- The threads after a turn that leaves the body alone but for the contents of cleanups. -/
theorem Bounded.keep (h : Bounded body threads)
    (hlength : body'.cleanups.length = body.cleanups.length)
    (hregistered : ∀ source ∈ body'.sourceCleanups, source < body.cleanups.length)
    (hreplayable : body'.replayable = body.replayable)
    (hnew : ∀ source, new.source = some source → source < body.cleanups.length)
    (hstarted : ∀ thread ∈ started, ∀ source, thread.source = some source →
      source < body.cleanups.length) : Bounded body' (threads.set i new ++ started) := by
  refine ⟨?_, ?_, ?_⟩
  · intro thread hmem
    rw [hlength]
    rcases List.mem_append.mp hmem with hmem | hmem
    · exact forall_mem_set h.threads hnew thread hmem
    · exact hstarted thread hmem
  · rw [hlength]
    exact hregistered
  · rw [hlength, hreplayable]
    exact h.plain

theorem Bounded.turn (h : Bounded body threads) (hmem : old ∈ threads)
    (hturn : Turns answer body old (body', new, started)) :
    Bounded body' (threads.set i new ++ started) := by
  have hold := h.threads old hmem
  -- The source of the turn is there, and so is that of a thread which it interrupts.
  have hown : ∀ {source : Nat} {new : Stage}, old.source = some source →
      new.source = some source ∨ new.source = none →
        ∀ named, new.source = some named → named < body.cleanups.length := by
    intro source new hsource hnew named hnamed
    rcases hnew with hsame | hnone
    · exact Option.some.inj (hsame.symm.trans hnamed) ▸ hold source hsource
    · rw [hnone] at hnamed
      cases hnamed
  have hinterrupter : ∀ {source : Nat} {starts : Bool}, source < body.cleanups.length →
      ∀ thread ∈ interrupter source starts, ∀ source, thread.source = some source →
        source < body.cleanups.length := by
    intro source starts hsource thread hmem named hnamed
    rw [interrupter_mem hmem] at hnamed
    exact Option.some.inj hnamed ▸ hsource
  cases hturn with
  | pass _ _ hnamed hstarted =>
      refine h.keep rfl h.registered rfl (fun source hsource => ?_) fun thread hthread => ?_
      · rcases hnamed source hsource with hsame | ⟨hplain, rfl⟩
        · exact hold source hsame
        · exact h.plain hplain
      · obtain ⟨source, hsource, rfl | rfl⟩ := hstarted thread hthread
        · exact fun named hnamed => Option.some.inj hnamed ▸ hold source hsource
        · exact fun named hnamed => Option.some.inj hnamed ▸ hold source hsource
  | prepare failed =>
      have hlength : (body.cleanups ++ [UploadSourceCleanup.new]).length =
        body.cleanups.length + 1 := List.length_append
      refine ⟨?_, ?_, fun _ => by dsimp only; omega⟩
      · rw [List.append_nil]
        refine forall_mem_set (fun thread hthread source hsource => ?_) fun source hsource => ?_
        · have hlt := h.threads thread hthread source hsource
          dsimp only
          omega
        · rw [← Option.some.inj hsource]
          dsimp only
          omega
      · intro source hsource
        have hlt := h.registered source hsource
        dsimp only
        omega
  | @register source failed new _ _ hnamed =>
      refine h.keep rfl (fun named hmem => ?_) rfl (hown rfl (Or.inl hnamed)) nofun
      rcases List.mem_append.mp hmem with hmem | hmem
      · exact h.registered named hmem
      · exact List.mem_singleton.mp hmem ▸ hold source rfl
  | orphan => exact h.keep rfl h.registered rfl (hown rfl (Or.inl rfl)) nofun
  | @interruptOrphan source failed new _ hnamed =>
      exact h.keep rfl h.registered rfl (hown rfl (Or.inl hnamed))
        (hinterrupter (hold source rfl))
  | refuse => exact h.keep rfl h.registered rfl nofun nofun
  | claim => exact h.keep List.length_set h.registered rfl (hown rfl (Or.inl rfl)) nofun
  | close hfound hnew =>
      refine h.keep List.length_set h.registered rfl (hown rfl ?_) nofun
      rcases hnew with rfl | rfl
      · exact Or.inr rfl
      · exact Or.inl rfl
  | finish => exact h.keep List.length_set h.registered rfl nofun nofun
  | shut => exact h.keep rfl h.registered rfl nofun nofun
  | interrupt hsource =>
      exact h.keep rfl h.registered rfl nofun
        (hinterrupter (h.registered _ (List.mem_of_getElem? hsource)))
  | interrupted => exact h.keep rfl h.registered rfl nofun nofun

/-- The claim pays for the holders and the closes of a source. -/
def Balanced (body : UploadBody) (threads : List Stage) : Prop :=
  ∀ n cleanup, body.cleanups[n]? = some cleanup →
    threads.countP (Stage.holds n) + cleanup.closes ≤ cleanup.claimed.toNat

/-- The threads that a turn starts hold nothing. -/
theorem Turns.started_free (h : Turns answer body old (body', new, started)) (n : Nat) :
    started.countP (Stage.holds n) = 0 := by
  rw [List.countP_eq_zero]
  intro thread hmem hholds
  obtain ⟨source, rfl | rfl⟩ := h.started_cases thread hmem
  · cases hholds
  · cases hholds

/-- Nobody holds a source that is not there. -/
theorem Bounded.nobody (h : Bounded body threads) (hn : n = body.cleanups.length) :
    threads.countP (Stage.holds n) = 0 := by
  rw [List.countP_eq_zero]
  intro thread hmem hholds
  have hsource : thread.source = some n := by
    by_contra hne
    rw [Stage.holds_eq_false hne] at hholds
    cases hholds
  exact absurd (h.threads thread hmem n hsource) (by omega)

theorem Balanced.turn (h : Balanced body threads) (hbounded : Bounded body threads)
    (hold : threads[i]? = some old) (hturn : Turns answer body old (body', new, started)) :
    Balanced body' (threads.set i new ++ started) := by
  intro n cleanup hcleanup
  have hcount := countP_set_add (Stage.holds n) new hold
  rw [List.countP_append, hturn.started_free, Nat.add_zero]
  cases hturn.pays hcleanup with
  | fresh hn hfresh hnew =>
      rw [hnew, hbounded.nobody hn] at hcount
      rw [hfresh]
      dsimp only [UploadSourceCleanup.new]
      rw [Bool.toNat_false] at hcount ⊢
      omega
  | known found hfound hle heq =>
      have hpaid := h n found hfound
      omega

/-! ## Every source is closed -/

/-- Somebody will interrupt the source if nobody has claimed it by then. -/
def Stage.Owes (body : UploadBody) (n : Nat) : Stage → Prop
  | .registering source _ | .orphaned source _ | .claiming .interrupt source => source = n
  | .interrupting index => n ∈ body.sourceCleanups.drop index
  | _ => False

theorem Stage.idle_not_owes (h : thread.idle = true) : ¬ thread.Owes body n := by
  cases thread with
  | claiming closer source => cases closer <;> first | exact id | cases h
  | registering => cases h
  | orphaned => cases h
  | interrupting => cases h
  | _ => exact id

/-- The source is claimed, somebody will claim it, or the close of the body will find it. -/
def Cared (body : UploadBody) (threads : List Stage) (n : Nat) (cleanup : UploadSourceCleanup) :
    Prop :=
  cleanup.claimed = true ∨ (∃ thread ∈ threads, thread.Owes body n) ∨
    n ∈ body.sourceCleanups ∧ body.closed = false

structure Settled (body : UploadBody) (threads : List Stage) : Prop where
  exact : ∀ n cleanup, body.cleanups[n]? = some cleanup →
    threads.countP (Stage.holds n) + cleanup.closes = cleanup.claimed.toNat
  keeping : ∀ thread ∈ threads, thread.releases = false
  cared : ∀ n cleanup, body.cleanups[n]? = some cleanup → Cared body threads n cleanup

theorem Turns.keeping (h : Turns answer body old (body', new, started))
    (hbegins : old.begins answer = true) : new.releases = false := by
  cases h with
  | pass _ hnew => exact Stage.idle_releases hnew
  | register _ hnew => exact Stage.idle_releases hnew
  | interruptOrphan hnew => exact Stage.idle_releases hnew
  | close _ hnew =>
      have hstarts : answer.starts = true := hbegins
      rcases hnew with rfl | rfl
      · rfl
      · rw [Stage.releases, Closer.releases, hstarts]
        rfl
  | _ => rfl

/-- Registered sources stay registered, and only the close of the body closes it. -/
theorem Turns.frame (h : Turns answer body old (body', new, started)) :
    body.sourceCleanups <+: body'.sourceCleanups ∧
      (body'.closed = body.closed ∨ old = .shutting) := by
  cases h with
  | register => exact ⟨List.prefix_append _ _, Or.inl rfl⟩
  | shut => exact ⟨List.prefix_refl _, Or.inr rfl⟩
  | _ => exact ⟨List.prefix_refl _, Or.inl rfl⟩

theorem Stage.Owes.mono (h : thread.Owes body n)
    (hhead : body.sourceCleanups <+: body'.sourceCleanups) : thread.Owes body' n := by
  cases thread with
  | interrupting index =>
      obtain ⟨rest, hrest⟩ := hhead
      show n ∈ body'.sourceCleanups.drop index
      rw [← hrest, List.drop_append]
      exact List.mem_append_left _ h
  | claiming closer source => cases closer <;> exact h
  | registering => exact h
  | orphaned => exact h
  | _ => exact h.elim

/-- Whoever makes a source registers it. -/
theorem Turns.fresh_owes (h : Turns answer body old (body', new, started))
    (hn : n = body.cleanups.length) (hcleanup : body'.cleanups[n]? = some cleanup) :
    new.Owes body' n := by
  have hlt : n < body'.cleanups.length := (List.getElem?_eq_some_iff.mp hcleanup).1
  have hset : ∀ source cleanup, (body.setCleanup source cleanup).cleanups.length =
    body.cleanups.length := fun _ _ => List.length_set
  cases h with
  | prepare => exact hn.symm
  | claim => rw [hset] at hlt; omega
  | close => rw [hset] at hlt; omega
  | finish => rw [hset] at hlt; omega
  | _ => exact absurd hlt (Nat.not_lt.mpr (Nat.le_of_eq hn.symm))

/-- A thread that owes an interrupt pays it, or passes the debt on. -/
theorem Turns.owes (h : Turns answer body old (body', new, started))
    (hbegins : old.begins answer = true) (howes : old.Owes body n)
    (hcleanup : body'.cleanups[n]? = some cleanup) :
    cleanup.claimed = true ∨ (∃ thread ∈ new :: started, thread.Owes body' n) ∨
      n ∈ body'.sourceCleanups ∧ body'.closed = false := by
  cases h with
  | pass hold => exact absurd howes (Stage.idle_not_owes hold)
  | register hopen =>
      cases howes
      exact Or.inr (Or.inr ⟨List.mem_append_right _ (List.mem_singleton_self _), hopen⟩)
  | orphan => exact Or.inr (Or.inl ⟨_, List.mem_cons_self, howes⟩)
  | interruptOrphan =>
      have hstarts : answer.starts = true := hbegins
      refine Or.inr (Or.inl ⟨.claiming .interrupt _, List.mem_cons_of_mem _ ?_, howes⟩)
      rw [interrupter, if_pos hstarts]
      exact List.mem_singleton_self _
  | @refuse closer source found hfound hrefused =>
      cases closer with
      | interrupt =>
          cases howes
          obtain rfl := Option.some.inj (hfound.symm.trans hcleanup)
          rw [UploadSourceCleanup.claim] at hrefused
          split at hrefused
          · rename_i hclaimed
            exact Or.inl hclaimed
          · cases hrefused
      | _ => exact howes.elim
  | @claim closer source found claimed hfound hclaim =>
      cases closer with
      | interrupt =>
          cases howes
          rcases getElem?_set_cases hcleanup with ⟨-, rfl⟩ | ⟨hne, -⟩
          · exact Or.inl (claim_eq hclaim).2.1
          · exact absurd rfl hne
      | _ => exact howes.elim
  | @interrupt index source hsource =>
      have hstarts : answer.starts = true := hbegins
      have hmem : n ∈ body.sourceCleanups.drop index := howes
      obtain ⟨hindex, rfl⟩ := List.getElem?_eq_some_iff.mp hsource
      rw [List.drop_eq_getElem_cons hindex] at hmem
      rcases List.mem_cons.mp hmem with rfl | hlater
      · refine Or.inr (Or.inl ⟨.claiming .interrupt _, List.mem_cons_of_mem _ ?_, rfl⟩)
        rw [interrupter, if_pos hstarts]
        exact List.mem_singleton_self _
      · exact Or.inr (Or.inl ⟨_, List.mem_cons_self, hlater⟩)
  | @interrupted index hnone =>
      have hmem : n ∈ body.sourceCleanups.drop index := howes
      rw [List.drop_eq_nil_of_le (List.getElem?_eq_none_iff.mp hnone)] at hmem
      cases hmem
  | _ => exact howes.elim

theorem Settled.turn (h : Settled body threads) (hbounded : Bounded body threads)
    (hold : threads[i]? = some old) (hturn : Turns answer body old (body', new, started))
    (hbegins : old.begins answer = true) : Settled body' (threads.set i new ++ started) := by
  have hkept := h.keeping old (List.mem_of_getElem? hold)
  have hmem_new : ∀ thread ∈ new :: started, thread ∈ threads.set i new ++ started := by
    intro thread hmem
    rcases List.mem_cons.mp hmem with rfl | hmem
    · exact List.mem_append_left _ (mem_set_self hold)
    · exact List.mem_append_right _ hmem
  refine ⟨?_, ?_, ?_⟩
  · intro n cleanup hcleanup
    have hcount := countP_set_add (Stage.holds n) new hold
    rw [List.countP_append, hturn.started_free, Nat.add_zero]
    cases hturn.pays hcleanup with
    | fresh hn hfresh hnew =>
        rw [hnew, hbounded.nobody hn] at hcount
        rw [hfresh]
        dsimp only [UploadSourceCleanup.new]
        rw [Bool.toNat_false] at hcount ⊢
        omega
    | known found hfound hle heq =>
        have hpaid := h.exact n found hfound
        have hsame := (heq hbegins hkept).1
        omega
  · intro thread hmem
    rcases List.mem_append.mp hmem with hmem | hmem
    · exact forall_mem_set h.keeping (hturn.keeping hbegins) thread hmem
    · obtain ⟨source, rfl | rfl⟩ := hturn.started_cases thread hmem
      · rfl
      · rfl
  · intro n cleanup hcleanup
    cases hturn.pays hcleanup with
    | fresh hn =>
        exact Or.inr (Or.inl ⟨new, hmem_new new List.mem_cons_self, hturn.fresh_owes hn hcleanup⟩)
    | known found hfound hle heq =>
        obtain ⟨hhead, hclosed⟩ := hturn.frame
        rcases h.cared n found hfound with hclaimed | ⟨thread, hthread, howes⟩ | ⟨hmem, hopen⟩
        · exact Or.inl ((heq hbegins hkept).2 hclaimed)
        · by_cases hown : old.Owes body n
          · rcases hturn.owes hbegins hown hcleanup with hclaimed | ⟨later, hlater, howes⟩ | hreg
            · exact Or.inl hclaimed
            · exact Or.inr (Or.inl ⟨later, hmem_new later hlater, howes⟩)
            · exact Or.inr (Or.inr hreg)
          · obtain ⟨other, hother, howes⟩ := exists_mem_set (P := Stage.Owes body n) hold hown
              ⟨thread, hthread, howes⟩
            exact Or.inr (Or.inl ⟨other, List.mem_append_left _ hother, howes.mono hhead⟩)
        · rcases hclosed with hsame | rfl
          · exact Or.inr (Or.inr ⟨hhead.subset hmem, hsame.trans hopen⟩)
          · cases hturn with
            | pass hidle => cases hidle
            | shut => exact Or.inr (Or.inl ⟨_, hmem_new _ List.mem_cons_self, hmem⟩)

/-! ## Runs -/

structure Holds (state : State) : Prop where
  bounded : Bounded state.body state.threads
  balanced : Balanced state.body state.threads

theorem holds_new (replayable : Bool) : Holds ⟨.new replayable, []⟩ := by
  cases replayable with
  | true => exact ⟨⟨nofun, nofun, nofun⟩, nofun⟩
  | false =>
      refine ⟨⟨nofun, ?_, fun _ => Nat.one_pos⟩, ?_⟩
      · intro source hmem
        rw [List.mem_singleton.mp hmem]
        exact Nat.one_pos
      · intro n cleanup hcleanup
        cases n with
        | zero =>
            cases hcleanup
            exact Nat.le_refl 0
        | succ n => cases hcleanup

theorem settled_new (replayable : Bool) : Settled (.new replayable) [] := by
  cases replayable with
  | true => exact ⟨nofun, nofun, nofun⟩
  | false =>
      refine ⟨?_, nofun, ?_⟩
      · intro n cleanup hcleanup
        cases n with
        | zero =>
            cases hcleanup
            rfl
        | succ n => cases hcleanup
      · intro n cleanup hcleanup
        cases n with
        | zero => exact Or.inr (Or.inr ⟨List.mem_singleton_self 0, rfl⟩)
        | succ n => cases hcleanup

/-- The inversion lemma of a step. -/
theorem step_cases {state next : State} {event : Event} (h : step state event = some next) :
    (∃ call : Call, event = .call call ∧
      next = { state with threads := state.threads ++ [call.enter] }) ∨
    ∃ i answer old body new started, event = .turn i answer ∧ state.threads[i]? = some old ∧
      Turns answer state.body old (body, new, started) ∧
        next = ⟨body, state.threads.set i new ++ started⟩ := by
  cases event with
  | call call => exact Or.inl ⟨call, rfl, (Option.some.inj h).symm⟩
  | turn i answer =>
      rw [step, Option.bind_eq_bind, Option.bind_eq_some_iff] at h
      obtain ⟨old, hold, h⟩ := h
      rw [Option.bind_eq_bind, Option.bind_eq_some_iff] at h
      obtain ⟨⟨body, new, started⟩, hturn, h⟩ := h
      exact Or.inr ⟨i, answer, old, body, new, started, rfl, hold, turns_of_turn hturn,
        (Option.some.inj h).symm⟩

theorem Call.enter_source (call : Call) : call.enter.source = none := by
  cases call <;> rfl

theorem Call.enter_holds (call : Call) (n : Nat) : call.enter.holds n = false := by
  cases call <;> rfl

theorem Holds.step {state next : State} {event : Event} (h : Holds state)
    (hstep : UploadSources.step state event = some next) : Holds next := by
  rcases step_cases hstep with ⟨call, -, rfl⟩ |
    ⟨i, answer, old, body, new, started, -, hold, hturn, rfl⟩
  · refine ⟨⟨?_, h.bounded.registered, h.bounded.plain⟩, ?_⟩
    · intro thread hmem source hsource
      rcases List.mem_append.mp hmem with hmem | hmem
      · exact h.bounded.threads thread hmem source hsource
      · rw [List.mem_singleton.mp hmem, call.enter_source] at hsource
        cases hsource
    · intro n cleanup hcleanup
      rw [List.countP_append, List.countP_singleton, call.enter_holds]
      exact h.balanced n cleanup hcleanup
  · exact ⟨h.bounded.turn (List.mem_of_getElem? hold) hturn,
      h.balanced.turn h.bounded hold hturn⟩

theorem Settled.step {state next : State} {event : Event}
    (h : Settled state.body state.threads) (hholds : Holds state)
    (hstart : workersStart state event = true)
    (hstep : UploadSources.step state event = some next) : Settled next.body next.threads := by
  rcases step_cases hstep with ⟨call, -, rfl⟩ |
    ⟨i, answer, old, body, new, started, rfl, hold, hturn, rfl⟩
  · refine ⟨?_, ?_, ?_⟩
    · intro n cleanup hcleanup
      rw [List.countP_append, List.countP_singleton, call.enter_holds]
      exact h.exact n cleanup hcleanup
    · intro thread hmem
      rcases List.mem_append.mp hmem with hmem | hmem
      · exact h.keeping thread hmem
      · rw [List.mem_singleton.mp hmem]
        cases call <;> rfl
    · intro n cleanup hcleanup
      rcases h.cared n cleanup hcleanup with hclaimed | ⟨thread, hmem, howes⟩ | hregistered
      · exact Or.inl hclaimed
      · exact Or.inr (Or.inl ⟨thread, List.mem_append_left _ hmem, howes⟩)
      · exact Or.inr (Or.inr hregistered)
  · rw [workersStart, hold] at hstart
    exact h.turn hholds.bounded hold hturn hstart

/-- However the calls of `start` and `close`, the feeders and the interrupts of a body
interleave, and whatever fails, one thread at a time has the claim of a source, and a source
is closed at most once.  When workers and closes start, a body that is closed and at rest has
closed every source exactly once. -/
theorem upload_sources_closed_once {replayable : Bool} {state : State} {events : List Event}
    (hrun : (system replayable).run events = some state) :
    (∀ n, n < state.body.cleanups.length → state.threads.countP (Stage.holds n) ≤ 1) ∧
      (∀ cleanup ∈ state.body.cleanups, cleanup.closes ≤ 1) ∧
      ((system replayable).along workersStart (system replayable).init events = true →
        state.body.closed = true → (∀ thread ∈ state.threads, thread = .ended) →
          ∀ cleanup ∈ state.body.cleanups, cleanup.closes = 1) := by
  have hreachable := TransitionSystem.reachable_of_run hrun
  have hholds : Holds state :=
    hreachable.invariant Holds (holds_new replayable) fun _ hinv hstep => hinv.step hstep
  refine ⟨?_, ?_, ?_⟩
  · intro n hn
    have hpaid := hholds.balanced n _ (List.getElem?_eq_getElem hn)
    have hle := Bool.toNat_le state.body.cleanups[n].claimed
    omega
  · intro cleanup hmem
    obtain ⟨n, hn⟩ := List.mem_iff_getElem?.mp hmem
    have hpaid := hholds.balanced n cleanup hn
    have hle := Bool.toNat_le cleanup.claimed
    omega
  · intro halong hclosed hover cleanup hmem
    obtain ⟨n, hn⟩ := List.mem_iff_getElem?.mp hmem
    have hsettled : Holds state ∧ Settled state.body state.threads := by
      refine TransitionSystem.invariant_of_along
        (fun state => Holds state ∧ Settled state.body state.threads) ?_ .init hrun halong
        ⟨holds_new replayable, settled_new replayable⟩
      intro state next event _ hinv hstart hstep
      exact ⟨hinv.1.step hstep, hinv.2.step hinv.1 hstart hstep⟩
    have hnobody : state.threads.countP (Stage.holds n) = 0 := by
      rw [List.countP_eq_zero]
      intro thread hthread hholds
      rw [hover thread hthread] at hholds
      cases hholds
    have hexact := hsettled.2.exact n cleanup hn
    rcases hsettled.2.cared n cleanup hn with hclaimed | ⟨thread, hthread, howes⟩ | ⟨-, hopen⟩
    · rw [hclaimed, hnobody, Bool.toNat_true] at hexact
      omega
    · rw [hover thread hthread] at howes
      exact howes.elim
    · rw [hclosed] at hopen
      cases hopen

/-- The answers of a run in which nothing fails. -/
def Answer.good : Answer := ⟨true, false, false, false, false⟩

/-- The body is closed while its factory makes a source, which is interrupted nevertheless. -/
theorem upload_sources_closed_once_example :
    ∃ state, (∀ cleanup ∈ state.body.cleanups, cleanup.closes = 1) ∧
      state.body.cleanups.length = 1 ∧
        (system true).run
          ([.call .start, .call .close] ++ [0, 0, 1, 0, 0, 1, 0, 2, 2, 2].map (.turn · .good)) =
            some state :=
  have hrun : (system true).run
      ([.call .start, .call .close] ++ [0, 0, 1, 0, 0, 1, 0, 2, 2, 2].map (.turn · .good)) =
        some ⟨⟨true, true, [], [⟨true, true, 1⟩]⟩, [.ended, .ended, .ended]⟩ := by
    decide
  ⟨_, (upload_sources_closed_once hrun).2.2 (by decide) (by decide) (by decide), by decide, hrun⟩

end FogHttp.UploadSources
