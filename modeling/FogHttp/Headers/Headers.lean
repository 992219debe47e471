import FogHttp.Policy.Redirect

/-!
# The `Headers` of a request

`Headers` is the multi-map of the Python package: an ordered list of items whose names are
compared in lower case, and a log of its mutations.  The log starts with the first
checkpoint.  It maps the lower-case name of a mutated header to the serial number of its
last mutation, so the mutations after a checkpoint are the names with a greater number.

Names are ASCII, where `str.lower` is `toAsciiLowercase`.  The lower-case name that the
source stores in an item is computed here, and sensitive names are left out.
-/

namespace FogHttp

open Lib

/-- The lower-case name of a header. -/
def normalizeHeaderName (name : Text) : Text := toAsciiLowercase name

/-- An item of `Headers`. -/
structure HeaderItem where
  name : Text
  value : Text
deriving DecidableEq, Repr

def HeaderItem.lowerName (item : HeaderItem) : Text := normalizeHeaderName item.name

structure Headers where
  items : List HeaderItem
  mutationSerial : Nat
  mutationVersions : Option (List (Text × Nat))
  /-- No version is ahead of the serial number. -/
  bounded : ∀ versions ∈ mutationVersions, ∀ entry ∈ versions, entry.2 ≤ mutationSerial

namespace Headers

/-- `Headers()`. -/
def empty : Headers := ⟨[], 0, none, by simp⟩

/-- `_record_mutation`. -/
def recordMutation (headers : Headers) (lowerName : Text) : Headers :=
  match h : headers.mutationVersions with
  | none => headers
  | some versions =>
      { headers with
        mutationSerial := headers.mutationSerial + 1
        mutationVersions := some ((lowerName, headers.mutationSerial + 1) ::
          versions.filter fun entry => entry.1 != lowerName)
        bounded := by
          intro kept hkept entry hentry
          obtain rfl := Option.mem_some.mp hkept
          rcases List.mem_cons.mp hentry with rfl | hentry
          · exact Nat.le_refl _
          · have hold := headers.bounded versions h entry (List.mem_filter.mp hentry).1
            exact Nat.le_succ_of_le hold }

/-- `__getitem__`, with `none` for the `KeyError`. -/
def get (headers : Headers) (name : Text) : Option Text :=
  (headers.items.reverse.find? fun item =>
    item.lowerName == normalizeHeaderName name).map HeaderItem.value

def add (headers : Headers) (name value : Text) : Headers :=
  { headers with items := headers.items ++ [HeaderItem.mk name value] }.recordMutation
    (normalizeHeaderName name)

def set (headers : Headers) (name value : Text) : Headers :=
  let kept := headers.items.filter fun item => item.lowerName != normalizeHeaderName name
  { headers with items := kept ++ [HeaderItem.mk name value] }.recordMutation
    (normalizeHeaderName name)

/-- `__delitem__`, with `none` for the `KeyError`. -/
def delete (headers : Headers) (name : Text) : Option Headers :=
  let kept := headers.items.filter fun item => item.lowerName != normalizeHeaderName name
  if kept.length = headers.items.length then none
  else some ({ headers with items := kept }.recordMutation (normalizeHeaderName name))

/-- `multi_items`. -/
def multiItems (headers : Headers) : HeaderPairs :=
  headers.items.map fun item => (item.name, item.value)

/-- `Headers(source)` of the pairs of the source. -/
def ofPairs (pairs : HeaderPairs) : Headers :=
  pairs.foldl (fun headers pair => headers.add pair.1 pair.2) empty

/-- The loop of `__iter__`. -/
def iterFrom (seen : List Text) : List HeaderItem → List Text
  | [] => []
  | item :: items =>
      if seen.contains item.lowerName then iterFrom seen items
      else item.name :: iterFrom (item.lowerName :: seen) items

/-- `__iter__`: the names, without repetitions. -/
def iter (headers : Headers) : List Text := iterFrom [] headers.items

/-- `_mutation_checkpoint`. -/
def mutationCheckpoint (headers : Headers) : Nat × Headers :=
  match headers.mutationVersions with
  | some _ => (headers.mutationSerial, headers)
  | none =>
      (headers.mutationSerial, { headers with
        mutationVersions := some []
        bounded := by simp })

/-- `_mutations_after`. -/
def mutationsAfter (headers : Headers) (checkpoint : Nat) : List Text :=
  match headers.mutationVersions with
  | none => []
  | some versions => (versions.filter fun entry => checkpoint < entry.2).map Prod.fst

/-! ## Names and items -/

/-- The lower-case names of the headers. -/
def lowerNames (headers : Headers) : List Text := headers.items.map HeaderItem.lowerName

section Names

variable {headers : Headers} {name value lower : Text}

theorem mem_iterFrom {seen : List Text} {items : List HeaderItem} :
    (∃ original ∈ iterFrom seen items, normalizeHeaderName original = lower) ↔
      lower ∉ seen ∧ lower ∈ items.map HeaderItem.lowerName := by
  induction items generalizing seen with
  | nil => simp [iterFrom]
  | cons item items ih =>
      rw [iterFrom, List.map_cons, List.mem_cons]
      split
      · rename_i hseen
        rw [ih]
        constructor
        · exact fun ⟨hnew, hmem⟩ => ⟨hnew, Or.inr hmem⟩
        · rintro ⟨hnew, rfl | hmem⟩
          · exact absurd (List.contains_iff_mem.mp hseen) hnew
          · exact ⟨hnew, hmem⟩
      · rename_i hseen
        rw [List.contains_iff_mem] at hseen
        constructor
        · rintro ⟨original, hmem, rfl⟩
          rcases List.mem_cons.mp hmem with rfl | hmem
          · exact ⟨hseen, Or.inl rfl⟩
          · obtain ⟨hnew, hlater⟩ := ih.mp ⟨original, hmem, rfl⟩
            exact ⟨fun hold => hnew (List.mem_cons_of_mem _ hold), Or.inr hlater⟩
        · rintro ⟨hnew, rfl | hmem⟩
          · exact ⟨item.name, by simp, rfl⟩
          · by_cases hfirst : lower = item.lowerName
            · exact ⟨item.name, by simp, hfirst.symm⟩
            · have hstill : lower ∉ item.lowerName :: seen := by simp [hfirst, hnew]
              obtain ⟨original, horiginal, hname⟩ := ih.mpr ⟨hstill, hmem⟩
              exact ⟨original, List.mem_cons_of_mem _ horiginal, hname⟩

/-- Iteration reaches every name. -/
theorem mem_map_iter :
    lower ∈ headers.iter.map normalizeHeaderName ↔ lower ∈ headers.lowerNames := by
  rw [List.mem_map, iter, mem_iterFrom]
  simp [lowerNames]

@[simp] theorem recordMutation_items : (headers.recordMutation lower).items = headers.items := by
  unfold recordMutation
  split <;> rfl

@[simp] theorem mutationCheckpoint_items :
    headers.mutationCheckpoint.2.items = headers.items := by
  unfold mutationCheckpoint
  split <;> rfl

theorem items_add : (headers.add name value).items = headers.items ++ [⟨name, value⟩] := by
  simp [add]

theorem mem_lowerNames_add : lower ∈ (headers.add name value).lowerNames ↔
    lower ∈ headers.lowerNames ∨ lower = normalizeHeaderName name := by
  simp [lowerNames, items_add, HeaderItem.lowerName]

theorem mem_lowerNames_set : lower ∈ (headers.set name value).lowerNames ↔
    lower ∈ headers.lowerNames ∨ lower = normalizeHeaderName name := by
  by_cases hname : lower = normalizeHeaderName name
  · subst hname
    simp [lowerNames, set, HeaderItem.lowerName]
  · have hkept : lower ∈ (headers.items.filter fun item =>
        item.lowerName != normalizeHeaderName name).map HeaderItem.lowerName ↔
          lower ∈ headers.lowerNames := by
      simp only [lowerNames, List.mem_map, List.mem_filter, bne_iff_ne]
      constructor
      · rintro ⟨item, ⟨hmem, -⟩, rfl⟩
        exact ⟨item, hmem, rfl⟩
      · rintro ⟨item, hmem, rfl⟩
        exact ⟨item, ⟨hmem, hname⟩, rfl⟩
    rw [lowerNames, set, recordMutation_items, List.map_append, List.mem_append, hkept]
    simp [HeaderItem.lowerName, hname]

/-- A deletion that succeeds removes exactly its name. -/
theorem mem_lowerNames_delete {after : Headers} (h : headers.delete name = some after) :
    lower ∈ after.lowerNames ↔
      lower ∈ headers.lowerNames ∧ lower ≠ normalizeHeaderName name := by
  unfold delete at h
  dsimp only at h
  split at h
  · cases h
  · rw [← Option.some.inj h]
    simp only [lowerNames, recordMutation_items, List.mem_map, List.mem_filter, bne_iff_ne]
    constructor
    · rintro ⟨item, ⟨hmem, hne⟩, rfl⟩
      exact ⟨⟨item, hmem, rfl⟩, hne⟩
    · rintro ⟨⟨item, hmem, rfl⟩, hne⟩
      exact ⟨item, ⟨hmem, hne⟩, rfl⟩

/-- The names are in lower case. -/
theorem normalizeHeaderName_of_mem (h : lower ∈ headers.lowerNames) :
    normalizeHeaderName lower = lower := by
  obtain ⟨item, -, rfl⟩ := List.mem_map.mp h
  exact toAsciiLowercase_idem item.name

end Names

/-! ## The log -/

section Log

variable {headers : Headers} {lower : Text} {checkpoint : Nat}

/-- The log is being written. -/
def logged (headers : Headers) : Bool := headers.mutationVersions.isSome

@[simp] theorem mutationCheckpoint_logged : headers.mutationCheckpoint.2.logged = true := by
  unfold mutationCheckpoint
  split
  · rename_i hsome
    simp [logged, hsome]
  · rfl

@[simp] theorem mutationCheckpoint_fst :
    headers.mutationCheckpoint.1 = headers.mutationCheckpoint.2.mutationSerial := by
  unfold mutationCheckpoint
  split <;> rfl

/-- No mutation comes after the present. -/
theorem mutationsAfter_serial : headers.mutationsAfter headers.mutationSerial = [] := by
  unfold mutationsAfter
  split
  · rfl
  · rename_i versions hversions
    rw [List.map_eq_nil_iff, List.filter_eq_nil_iff]
    intro entry hentry
    have hbound := headers.bounded versions hversions entry hentry
    simpa using hbound

@[simp] theorem recordMutation_logged :
    (headers.recordMutation lower).logged = headers.logged := by
  unfold recordMutation logged
  split
  · rfl
  · rename_i hsome
    simp [hsome]

theorem recordMutation_serial (h : headers.logged = true) :
    (headers.recordMutation lower).mutationSerial = headers.mutationSerial + 1 := by
  unfold recordMutation
  split
  · rename_i hnone
    rw [logged, hnone] at h
    cases h
  · rfl

/-- A mutation adds its name to the mutations after an earlier checkpoint. -/
theorem mem_mutationsAfter_recordMutation {name : Text} (h : headers.logged = true)
    (hcheckpoint : checkpoint ≤ headers.mutationSerial) :
    name ∈ (headers.recordMutation lower).mutationsAfter checkpoint ↔
      name = lower ∨ name ∈ headers.mutationsAfter checkpoint := by
  obtain ⟨versions, hversions⟩ := Option.isSome_iff_exists.mp h
  have hafter : (headers.recordMutation lower).mutationsAfter checkpoint =
      lower :: ((versions.filter fun entry => entry.1 != lower).filter fun entry =>
        checkpoint < entry.2).map Prod.fst := by
    unfold recordMutation
    split
    · rename_i hnone
      rw [hversions] at hnone
      cases hnone
    · rename_i same hsame
      obtain rfl : versions = same := Option.some.inj (hversions.symm.trans hsame)
      simp [mutationsAfter, Nat.lt_succ_of_le hcheckpoint]
  have hbefore : headers.mutationsAfter checkpoint =
      (versions.filter fun entry => checkpoint < entry.2).map Prod.fst := by
    simp [mutationsAfter, hversions]
  rw [hafter, hbefore, List.mem_cons]
  by_cases hname : name = lower
  · simp [hname]
  · simp only [hname, false_or, List.mem_map, List.mem_filter, bne_iff_ne]
    constructor
    · rintro ⟨entry, ⟨⟨hmem, -⟩, hlater⟩, rfl⟩
      exact ⟨entry, ⟨hmem, hlater⟩, rfl⟩
    · rintro ⟨entry, ⟨hmem, hlater⟩, rfl⟩
      exact ⟨entry, ⟨⟨hmem, hname⟩, hlater⟩, rfl⟩

end Log

end Headers

end FogHttp
