import FogHttp.Headers.Request
import FogHttp.Lib.Positions

/-!
# What the provenance says about a header

`EditHistory` keeps books about the edits of a request: the names that the caller has
touched, and whether `request.headers` was replaced by another object.  An assignment
touches the names in the old object and those in the new one.

The provenance keeps no such books.  It has the names of all replacements and the log of the
current object.  `Tracked` is the invariant that relates the two, and `tracked_run` carries
it over all edits.  `mem_overrides` and its companions say what the provenance answers then.
-/

namespace FogHttp

open Lib Multipart

/-! ## Keeping books -/

structure EditHistory where
  request : Request
  /-- The names that the caller has touched since the build. -/
  touched : List Text
  replaced : Bool

namespace EditHistory

/-- The history of a request that was just built. -/
def start (request : Request) : EditHistory := ⟨request, [], false⟩

/-- The names that an edit of `request.headers` touches. -/
def touches (request : Request) : Edit → List Text
  | .change object change =>
      if object = request.headers ∧ (request.currentHeaders.change change).isSome then
        [change.name]
      else []
  | .assign object =>
      match request.objects[object]? with
      | some headers =>
          if object = request.headers then []
          else request.currentHeaders.headerNames ++ headers.headerNames
      | none => []
  | .create _ | .checkpoint _ => []

/-- The edit replaces `request.headers` by another object. -/
def replaces (request : Request) : Edit → Bool
  | .assign object => object != request.headers && request.objects[object]?.isSome
  | _ => false

def step (history : EditHistory) (edit : Edit) : EditHistory where
  request := history.request.edit edit
  touched := history.touched ++ touches history.request edit
  replaced := history.replaced || replaces history.request edit

/-- The history after a list of edits. -/
def run (history : EditHistory) (edits : List Edit) : EditHistory := edits.foldl step history

end EditHistory

/-! ## The invariant -/

/-- The provenance and the current headers, beside the books. -/
structure Tracked (history : EditHistory) (provenance : AuthHeaderProvenance)
    (headers : Headers) : Prop where
  known : history.request.provenance = some provenance
  found : history.request.objects[history.request.headers]? = some headers
  tracked : provenance.trackedHeaders = some history.request.headers
  logged : headers.logged = true
  version : provenance.trackedVersion ≤ headers.mutationSerial
  removed : ∀ name ∈ provenance.baselineNames, name ∉ headers.lowerNames →
    name ∈ provenance.changed headers
  touched : ∀ name ∈ provenance.changed headers, name ∈ history.touched
  present : ∀ name ∈ headers.lowerNames, name ∈ history.touched →
    name ∈ provenance.changed headers
  replaced : history.replaced = true → ∀ name ∈ headers.lowerNames, name ∈ history.touched
  lower : ∀ name ∈ history.touched, normalizeHeaderName name = name

section Invariant

variable {history : EditHistory} {provenance : AuthHeaderProvenance} {headers : Headers}

theorem Tracked.currentHeaders (h : Tracked history provenance headers) :
    history.request.currentHeaders = headers := by
  rw [Request.currentHeaders, h.found]
  rfl

theorem mem_headerNames {name : Text} :
    name ∈ headers.headerNames ↔ name ∈ headers.lowerNames := Headers.mem_map_iter

/-- An edit that leaves `request.headers` alone. -/
theorem Tracked.frame (h : Tracked history provenance headers) {next : EditHistory}
    (hprovenance : next.request.provenance = history.request.provenance)
    (hheaders : next.request.headers = history.request.headers)
    (hfound : next.request.objects[history.request.headers]? =
      history.request.objects[history.request.headers]?)
    (htouched : next.touched = history.touched) (hreplaced : next.replaced = history.replaced) :
    Tracked next provenance headers where
  known := hprovenance.trans h.known
  found := by rw [hheaders, hfound, h.found]
  tracked := by rw [hheaders, h.tracked]
  logged := h.logged
  version := h.version
  removed := h.removed
  touched := by
    rw [htouched]
    exact h.touched
  present := by
    rw [htouched]
    exact h.present
  replaced := by
    rw [htouched, hreplaced]
    exact h.replaced
  lower := by
    rw [htouched]
    exact h.lower

/-- What a change does to the names and to the log. -/
structure Changes (headers after : Headers) (change : HeaderChange) : Prop where
  logged : after.logged = true
  serial : after.mutationSerial = headers.mutationSerial + 1
  log : ∀ {checkpoint : Nat} {name : Text}, checkpoint ≤ headers.mutationSerial →
    (name ∈ after.mutationsAfter checkpoint ↔
      name = change.name ∨ name ∈ headers.mutationsAfter checkpoint)
  names : ∀ {name : Text}, name ≠ change.name →
    (name ∈ after.lowerNames ↔ name ∈ headers.lowerNames)

/-- A change replaces the items and records its name. -/
theorem change_eq {after : Headers} {change : HeaderChange}
    (h : headers.change change = some after) :
    ∃ items, after = { headers with items }.recordMutation change.name := by
  cases change with
  | set name value => exact ⟨_, (Option.some.inj h).symm⟩
  | add name value => exact ⟨_, (Option.some.inj h).symm⟩
  | delete name =>
      unfold Headers.change Headers.delete at h
      dsimp only at h
      split at h
      · cases h
      · exact ⟨_, (Option.some.inj h).symm⟩

theorem changes_of_change {after : Headers} {change : HeaderChange}
    (hlogged : headers.logged = true) (h : headers.change change = some after) :
    Changes headers after change := by
  refine ⟨?_, ?_, ?_, ?_⟩
  · obtain ⟨items, rfl⟩ := change_eq h
    rw [Headers.recordMutation_logged]
    exact hlogged
  · obtain ⟨items, rfl⟩ := change_eq h
    exact Headers.recordMutation_serial hlogged
  · obtain ⟨items, rfl⟩ := change_eq h
    exact fun hcheckpoint => Headers.mem_mutationsAfter_recordMutation hlogged hcheckpoint
  · intro other hother
    cases change with
    | set name value =>
        rw [← Option.some.inj h, Headers.mem_lowerNames_set]
        exact or_iff_left hother
    | add name value =>
        rw [← Option.some.inj h, Headers.mem_lowerNames_add]
        exact or_iff_left hother
    | delete name =>
        rw [Headers.mem_lowerNames_delete h]
        exact and_iff_left hother

/-- A change of the current headers. -/
theorem Tracked.change (h : Tracked history provenance headers) {after : Headers}
    {change : HeaderChange} (hchange : headers.change change = some after) :
    Tracked
      { history with
        request := { history.request with
          objects := history.request.objects.set history.request.headers after }
        touched := history.touched ++ [change.name] } provenance after := by
  have hchanges := changes_of_change h.logged hchange
  have hlog : ∀ name, name ∈ provenance.changed after ↔
      name = change.name ∨ name ∈ provenance.changed headers := by
    intro name
    rw [AuthHeaderProvenance.changed, AuthHeaderProvenance.changed, List.mem_append,
      List.mem_append, hchanges.log h.version]
    tauto
  refine ⟨h.known, ?_, h.tracked, hchanges.logged, ?_, ?_, ?_, ?_, ?_, ?_⟩
  · exact List.getElem?_set_self (List.getElem?_eq_some_iff.mp h.found).1
  · rw [hchanges.serial]
    exact Nat.le_succ_of_le h.version
  · intro name hbaseline habsent
    rw [hlog]
    by_cases hname : name = change.name
    · exact Or.inl hname
    · rw [hchanges.names hname] at habsent
      exact Or.inr (h.removed name hbaseline habsent)
  · intro name hname
    rw [List.mem_append, List.mem_singleton]
    rcases (hlog name).mp hname with hname | hname
    · exact Or.inr hname
    · exact Or.inl (h.touched name hname)
  · intro name hpresent htouched
    rw [hlog]
    by_cases hname : name = change.name
    · exact Or.inl hname
    · rw [hchanges.names hname] at hpresent
      rw [List.mem_append, List.mem_singleton] at htouched
      exact Or.inr (h.present name hpresent (htouched.resolve_right hname))
  · intro hreplaced name hpresent
    rw [List.mem_append, List.mem_singleton]
    by_cases hname : name = change.name
    · exact Or.inr hname
    · rw [hchanges.names hname] at hpresent
      exact Or.inl (h.replaced hreplaced name hpresent)
  · intro name hname
    rcases List.mem_append.mp hname with hname | hname
    · exact h.lower name hname
    · rw [List.mem_singleton.mp hname]
      cases change <;> exact toAsciiLowercase_idem _

/-- Tracking takes the version of the object as it is then. -/
theorem track_eq (provenance : AuthHeaderProvenance) (object : Nat) (headers : Headers) :
    provenance.track object headers =
      ({ provenance with
        trackedHeaders := some object
        trackedVersion := headers.mutationCheckpoint.2.mutationSerial },
        headers.mutationCheckpoint.2) := by
  rw [← Headers.mutationCheckpoint_fst]
  rfl

/-- An assignment of another object. -/
theorem Tracked.assign (h : Tracked history provenance headers) {object : Nat} {new : Headers}
    (hnew : history.request.objects[object]? = some new)
    (hother : object ≠ history.request.headers) :
    Tracked
      { request := history.request.setHeaders object new
        touched := history.touched ++ (headers.headerNames ++ new.headerNames)
        replaced := true }
      (provenance.replace object new).1 (provenance.replace object new).2 := by
  have hreplace : provenance.replace object new =
      ({ provenance with
        replacementNames :=
          provenance.replacementNames ++ provenance.baselineNames ++ new.headerNames
        trackedHeaders := some object
        trackedVersion := new.mutationCheckpoint.2.mutationSerial },
        new.mutationCheckpoint.2) := by
    unfold AuthHeaderProvenance.replace
    rw [if_neg, track_eq]
    rw [h.tracked]
    exact fun hsame => hother (Option.some.inj hsame)
  have hchanged : ∀ name, name ∈ (provenance.replace object new).1.changed
      (provenance.replace object new).2 ↔
        (name ∈ provenance.replacementNames ∨ name ∈ provenance.baselineNames) ∨
          name ∈ new.lowerNames := by
    intro name
    rw [hreplace, AuthHeaderProvenance.changed, Headers.mutationsAfter_serial, List.append_nil,
      List.mem_append, List.mem_append, mem_headerNames]
  have hnames : (provenance.replace object new).2.lowerNames = new.lowerNames := by
    rw [hreplace, Headers.lowerNames, Headers.mutationCheckpoint_items]
    rfl
  refine ⟨?_, ?_, ?_, ?_, ?_, ?_, ?_, ?_, ?_, ?_⟩
  · rw [Request.setHeaders, h.known]
  · rw [Request.setHeaders, h.known]
    exact List.getElem?_set_self (List.getElem?_eq_some_iff.mp hnew).1
  · rw [Request.setHeaders, h.known, hreplace]
  · rw [hreplace]
    exact Headers.mutationCheckpoint_logged
  · rw [hreplace]
  · intro name hbaseline _
    rw [hchanged]
    rw [hreplace] at hbaseline
    exact Or.inl (Or.inr hbaseline)
  · intro name hname
    rw [List.mem_append, List.mem_append, mem_headerNames, mem_headerNames]
    rcases (hchanged name).mp hname with (hreplacement | hbaseline) | hpresent
    · exact Or.inl (h.touched name (List.mem_append_left _ hreplacement))
    · by_cases hpresent : name ∈ headers.lowerNames
      · exact Or.inr (Or.inl hpresent)
      · exact Or.inl (h.touched name (h.removed name hbaseline hpresent))
    · exact Or.inr (Or.inr hpresent)
  · intro name hpresent _
    rw [hnames] at hpresent
    exact (hchanged name).mpr (Or.inr hpresent)
  · intro _ name hpresent
    rw [hnames] at hpresent
    rw [List.mem_append, List.mem_append, mem_headerNames, mem_headerNames]
    exact Or.inr (Or.inr hpresent)
  · intro name hname
    rw [List.mem_append, List.mem_append, mem_headerNames, mem_headerNames] at hname
    rcases hname with hname | hname | hname
    · exact h.lower name hname
    · exact Headers.normalizeHeaderName_of_mem hname
    · exact Headers.normalizeHeaderName_of_mem hname

end Invariant

end FogHttp
