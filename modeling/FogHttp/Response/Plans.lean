import FogHttp.Lib.Delimiter
import FogHttp.Response.Decompression
import FogHttp.Streaming.Ledger

/-!
# The buffered and the streaming plan

`contentCodingPlan` and `StreamingDecodePlan.fromHeaders` read the same header
values with code of their own.  The buffered reader trims Unicode whitespace and
folds the case of an item before it compares, the streaming reader trims blanks
and tabs, compares without case, rejects items that are no tokens, and stops at
the fifth coding.

`Agree` relates the two results while the values are read.  One item keeps it
(`agree_pushItem`): what `to_str` lets through has no whitespace but blanks and
tabs, and the name of a coding is a token.  Both folds keep it as well
(`agree_foldlM`).  After the fifth coding the streaming reader has stopped and
the buffered one goes on, but its list only grows.

`Decodes` says which decoder has made which body, `decodeSupportedBody_eq_ok` and
`decodeSupportedBody_eq_error` read the loop of the buffered decoder that way.

`HeaderValue::to_str` is not in the repository.  It is a parameter, and `ToStr`
is what its documentation says.
-/

namespace FogHttp.Response

open Lib Streaming

/-- The coding of a streaming layer as the buffered decoder names it. -/
def contentCoding : Coding → ContentCoding
  | .gzip => .gzip
  | .deflate => .deflate
  | .brotli => .brotli

/-! ## Characters -/

/-- The characters that `to_str` lets through: visible ASCII, blanks and tabs. -/
def Visible (c : Char) : Prop := c = '\t' ∨ ' ' ≤ c ∧ c ≤ '~'

/-- `to_str` gives a value back as it is, and only when all its characters are visible. -/
structure ToStr (toStr : Text → Option Text) : Prop where
  same : ∀ value text, toStr value = some text → text = value
  visible : ∀ value text, toStr value = some text → ∀ c ∈ value, Visible c

variable {toStr : Text → Option Text}

theorem isWhitespace_of_visible {c : Char} (h : Visible c) :
    isWhitespace c = (c == ' ' || c == '\t') := by
  have hcode : ∀ d : Char, (c == d) = (c.toNat == d.toNat) := fun d => by
    rw [Bool.eq_iff_iff, beq_iff_eq, beq_iff_eq]
    exact Char.toNat_inj.symm
  have hrange : c.toNat = 9 ∨ 32 ≤ c.toNat ∧ c.toNat ≤ 126 := by
    rcases h with rfl | ⟨hlow, hhigh⟩
    · exact Or.inl rfl
    · exact Or.inr ⟨hlow, hhigh⟩
  rw [hcode, hcode, Bool.eq_iff_iff]
  show isWhitespace c = true ↔ (c.toNat == 32 || c.toNat == 9) = true
  simp only [isWhitespace, Bool.or_eq_true, Bool.and_eq_true, decide_eq_true_eq, beq_iff_eq]
  omega

/-- Among visible characters the two ways to trim are the same. -/
theorem trim_eq_of_visible {item : Text} (h : ∀ c ∈ item, Visible c) :
    trim item = trimMatches (fun c => c == ' ' || c == '\t') item := by
  have hback : ∀ c ∈ (item.dropWhile isWhitespace).reverse, Visible c := fun c hc =>
    h c ((List.dropWhile_suffix _).subset (List.mem_reverse.mp hc))
  have hsame : ∀ {text : Text}, (∀ c ∈ text, Visible c) →
      text.dropWhile isWhitespace = text.dropWhile fun c => c == ' ' || c == '\t' := by
    intro text htext
    induction text with
    | nil => rfl
    | cons c rest ih =>
        rw [List.dropWhile_cons, List.dropWhile_cons,
          isWhitespace_of_visible (htext c List.mem_cons_self),
          ih fun d hd => htext d (List.mem_cons_of_mem c hd)]
  rw [trim, trimMatches, trimMatches, hsame hback, hsame h]

theorem isTokenChar_of_toLower {c : Char} (h : isTokenChar c.toLower = true) :
    isTokenChar c = true := by
  by_cases hupper : 65 ≤ c.val ∧ c.val ≤ 90
  · have hrange : 65 ≤ c.toNat ∧ c.toNat ≤ 90 := hupper
    have halnum : isAsciiAlphanumeric c = true := by
      simp only [isAsciiAlphanumeric, Bool.or_eq_true, Bool.and_eq_true, decide_eq_true_eq]
      omega
    rw [isTokenChar, halnum, Bool.true_or]
  · have hsame : c.toLower = c := Char.ext (by rw [toLower_val, if_neg hupper])
    rw [hsame] at h
    exact h

/-! ## Items -/

/-- The buffered reader knows the same names. -/
theorem supportedContentCoding_eq (item : Text) :
    supportedContentCoding (toAsciiLowercase item) = (codingOf item).map contentCoding := by
  have hlower : ∀ name : Text, toAsciiLowercase name = name →
      (eqIgnoreAsciiCase item name = true ↔ toAsciiLowercase item = name) := by
    intro name hname
    rw [eqIgnoreAsciiCase_iff, hname]
  have hgzip := hlower "gzip" (by decide)
  have hxgzip := hlower "x-gzip" (by decide)
  have hdeflate := hlower "deflate" (by decide)
  have hbr := hlower "br" (by decide)
  unfold supportedContentCoding codingOf
  simp only [Bool.or_eq_true, hgzip, hxgzip, hdeflate, hbr]
  split
  · rfl
  · split
    · rfl
    · split <;> rfl

/-- The names of the codings are tokens. -/
theorem all_isTokenChar_of_codingOf {item : Text} {coding : Coding}
    (h : codingOf item = some coding) : item.all isTokenChar = true := by
  have hname : toAsciiLowercase item ∈
      [("gzip" : Text), ("x-gzip" : Text), ("deflate" : Text), ("br" : Text)] := by
    have hsupported := supportedContentCoding_eq item
    rw [h, Option.map_some] at hsupported
    unfold supportedContentCoding at hsupported
    simp only [List.mem_cons, List.not_mem_nil, or_false]
    split at hsupported
    · rename_i hgzip
      exact hgzip.elim Or.inl fun hx => Or.inr (Or.inl hx)
    · split at hsupported
      · rename_i hdeflate
        exact Or.inr (Or.inr (Or.inl hdeflate))
      · split at hsupported
        · rename_i hbr
          exact Or.inr (Or.inr (Or.inr hbr))
        · simp at hsupported
  have htokens : (toAsciiLowercase item).all isTokenChar = true := by
    have hall : ∀ name ∈ [("gzip" : Text), ("x-gzip" : Text), ("deflate" : Text), ("br" : Text)],
        name.all isTokenChar = true := by decide
    exact hall _ hname
  rw [toAsciiLowercase, List.all_map] at htokens
  rw [List.all_eq_true] at htokens ⊢
  intro c hc
  exact isTokenChar_of_toLower (htokens c hc)

/-! ## Agreement -/

/-- The results of the two readers after the same values. -/
def Agree (streaming : Except StreamDecodeError ListedCodings)
    (buffered : Option (List ContentCoding)) : Prop :=
  match streaming with
  | .ok listed => buffered = some (listed.1.map contentCoding)
  | .error .tooManyLayers => ∀ codings, buffered = some codings → maxLayers < codings.length
  | .error .invalidContentEncoding => buffered = none
  | .error .unsupportedCoding => buffered = none
  | .error _ => False

/-- The buffered reader never takes a coding back. -/
def Grows (read : List ContentCoding → Option (List ContentCoding)) : Prop :=
  ∀ codings longer, read codings = some longer → codings.length ≤ longer.length

theorem grows_foldlM {α : Type} {read : List ContentCoding → α → Option (List ContentCoding)}
    (hgrows : ∀ item, Grows fun codings => read codings item) (items : List α) :
    Grows fun codings => items.foldlM read codings := by
  induction items with
  | nil =>
      intro codings longer h
      simp only [List.foldlM_nil, Option.pure_def, Option.some.injEq] at h
      rw [h]
  | cons item items ih =>
      intro codings longer h
      simp only [List.foldlM_cons, Option.bind_eq_bind, Option.bind_eq_some_iff] at h
      obtain ⟨next, hnext, hrest⟩ := h
      have hfirst := hgrows item codings next hnext
      have hmore := ih next longer hrest
      omega

/-- A streaming reader that has stopped agrees with a buffered one that goes on. -/
theorem Agree.bind {error : StreamDecodeError} {buffered : Option (List ContentCoding)}
    {next : List ContentCoding → Option (List ContentCoding)}
    (h : Agree (.error error) buffered) (hgrows : Grows next) :
    Agree (.error error) (buffered.bind next) := by
  cases error with
  | invalidContentEncoding | unsupportedCoding =>
      have hnone : buffered = none := h
      rw [hnone]
      exact rfl
  | tooManyLayers =>
      intro codings hcodings
      obtain ⟨first, hfirst, hnext⟩ := Option.bind_eq_some_iff.mp hcodings
      have hmany : maxLayers < first.length := h first hfirst
      exact Nat.lt_of_lt_of_le hmany (hgrows first codings hnext)
  | tooLarge | counterOverflow | decode => exact h.elim

theorem agree_foldlM {α : Type} {push : ListedCodings → α → Except StreamDecodeError ListedCodings}
    {read : List ContentCoding → α → Option (List ContentCoding)}
    (hgrows : ∀ item, Grows fun codings => read codings item) {items : List α}
    (hstep : ∀ item ∈ items, ∀ listed,
      Agree (push listed item) (read (listed.1.map contentCoding) item))
    (listed : ListedCodings) :
    Agree (items.foldlM push listed) (items.foldlM read (listed.1.map contentCoding)) := by
  induction items generalizing listed with
  | nil => exact rfl
  | cons item items ih =>
      have hitem := hstep item List.mem_cons_self listed
      rw [List.foldlM_cons, List.foldlM_cons]
      cases hpush : push listed item with
      | ok next =>
          rw [hpush] at hitem
          have hread : read (listed.1.map contentCoding) item =
            some (next.1.map contentCoding) := hitem
          rw [hread]
          exact ih (fun other hother => hstep other (List.mem_cons_of_mem item hother)) next
      | error error =>
          rw [hpush] at hitem
          exact hitem.bind (grows_foldlM hgrows items)

/-! ## The two readers -/

theorem grows_planItem (item : Text) : Grows fun codings => planItem codings item := by
  intro codings longer h
  simp only [planItem] at h
  split at h
  · rw [Option.some.inj h]
  · obtain ⟨supported, -, hlonger⟩ := Option.map_eq_some_iff.mp h
    rw [← hlonger, List.length_append]
    omega

theorem grows_planValue (value : Text) : Grows fun codings => planValue toStr codings value := by
  intro codings longer h
  obtain ⟨text, -, hitems⟩ := Option.bind_eq_some_iff.mp h
  exact grows_foldlM grows_planItem _ codings longer hitems

/-- One item. -/
theorem agree_pushItem {item : Text} (hvisible : ∀ c ∈ item, Visible c) (listed : ListedCodings) :
    Agree (pushItem listed item) (planItem (listed.1.map contentCoding) item) := by
  have hempty : ∀ text : Text, (toAsciiLowercase text).isEmpty = text.isEmpty := fun text => by
    cases text <;> rfl
  have hidentity : ∀ text : Text, (toAsciiLowercase text == ("identity" : Text)) =
      eqIgnoreAsciiCase text "identity" := fun text => rfl
  unfold pushItem planItem
  rw [trim_eq_of_visible hvisible]
  generalize trimMatches (fun c => c == ' ' || c == '\t') item = name
  simp only [hempty, hidentity, supportedContentCoding_eq]
  split
  · exact rfl
  · cases hcoding : codingOf name with
    | none =>
        split
        · exact rfl
        · exact rfl
    | some coding =>
        rw [all_isTokenChar_of_codingOf hcoding]
        simp only [Bool.not_true, Bool.false_eq_true, if_false, Option.map_some]
        split
        · rename_i hfull
          intro codings hcodings
          rw [← Option.some.inj hcodings, List.length_append, List.length_map, hfull]
          exact Nat.lt_succ_self _
        · show some _ = some _
          rw [List.map_append]
          rfl

/-- One header value. -/
theorem agree_pushValue (h : ToStr toStr) (value : Text) (listed : ListedCodings) :
    Agree (pushValue toStr listed value) (planValue toStr (listed.1.map contentCoding) value) := by
  unfold pushValue planValue
  cases htext : toStr value with
  | none => exact rfl
  | some text =>
      obtain rfl := h.same value text htext
      have hvisible := h.visible text text htext
      apply agree_foldlM grows_planItem
      intro item hitem listed
      exact agree_pushItem (fun c hc => hvisible c (mem_of_mem_splitOn hitem hc)) listed

/-- The folds over all header values. -/
theorem agree_values (h : ToStr toStr) (values : List Text) :
    Agree (values.foldlM (pushValue toStr) ⟨[], by decide⟩) (values.foldlM (planValue toStr) []) :=
  agree_foldlM grows_planValue (fun value _ listed => agree_pushValue h value listed) _

/-- What the two functions return. -/
theorem fromHeaders_cases (htoStr : ToStr toStr) (values : List Text) :
    (∃ plan, StreamingDecodePlan.fromHeaders toStr values = .ok plan ∧
      contentCodingPlan toStr values =
        if plan.codings = [] then .leaveEncoded
        else .decode (plan.codings.reverse.map contentCoding)) ∨
    (StreamingDecodePlan.fromHeaders toStr values = .error .tooManyLayers ∧
      ∀ codings, contentCodingPlan toStr values = .decode codings → maxLayers < codings.length) ∨
    ((StreamingDecodePlan.fromHeaders toStr values = .error .invalidContentEncoding ∨
        StreamingDecodePlan.fromHeaders toStr values = .error .unsupportedCoding) ∧
      contentCodingPlan toStr values = .leaveEncoded) := by
  have hagree := agree_values htoStr values
  unfold StreamingDecodePlan.fromHeaders contentCodingPlan
  cases hlisted : values.foldlM (pushValue toStr) ⟨[], by decide⟩ with
  | ok listed =>
      rw [hlisted] at hagree
      have hcodings : values.foldlM (planValue toStr) [] =
        some (listed.1.map contentCoding) := hagree
      refine Or.inl ⟨_, rfl, ?_⟩
      rw [hcodings]
      simp [List.isEmpty_iff]
  | error error =>
      rw [hlisted] at hagree
      cases error with
      | tooManyLayers =>
          refine Or.inr (Or.inl ⟨rfl, ?_⟩)
          intro codings hplan
          cases hcodings : values.foldlM (planValue toStr) [] with
          | none => simp [hcodings] at hplan
          | some many =>
              have hmany : maxLayers < many.length := hagree many hcodings
              rw [hcodings] at hplan
              dsimp only at hplan
              split at hplan
              · simp at hplan
              · rw [ContentCodingPlan.decode.injEq] at hplan
                rw [← hplan]
                exact hmany
      | invalidContentEncoding =>
          have hnone : values.foldlM (planValue toStr) [] = none := hagree
          rw [hnone]
          exact Or.inr (Or.inr ⟨Or.inl rfl, rfl⟩)
      | unsupportedCoding =>
          have hnone : values.foldlM (planValue toStr) [] = none := hagree
          rw [hnone]
          exact Or.inr (Or.inr ⟨Or.inr rfl, rfl⟩)
      | tooLarge | counterOverflow | decode => exact hagree.elim

theorem contentCoding_injective : Function.Injective contentCoding := by
  intro left right h
  cases left <;> cases right <;> simp_all [contentCoding]

/-- Both plans decode the same codings. -/
theorem decodes_iff (htoStr : ToStr toStr) (values : List Text) {codings : List Coding}
    (hne : codings ≠ []) :
    (∃ plan, StreamingDecodePlan.fromHeaders toStr values = .ok plan ∧ plan.codings = codings) ↔
      contentCodingPlan toStr values = .decode (codings.reverse.map contentCoding) ∧
        codings.length ≤ maxLayers := by
  rcases fromHeaders_cases htoStr values with ⟨plan, hstreaming, hbuffered⟩ | ⟨hstreaming, hmany⟩ |
    ⟨hstreaming, hbuffered⟩
  · constructor
    · rintro ⟨plan', hplan', rfl⟩
      rw [hstreaming, Except.ok.injEq] at hplan'
      subst hplan'
      rw [if_neg hne] at hbuffered
      exact ⟨hbuffered, plan.bounded⟩
    · rintro ⟨hdecode, -⟩
      rw [hbuffered] at hdecode
      split at hdecode
      · simp at hdecode
      · rw [ContentCodingPlan.decode.injEq] at hdecode
        have hreverse := contentCoding_injective.list_map hdecode
        exact ⟨plan, hstreaming, List.reverse_injective hreverse⟩
  · constructor
    · rintro ⟨plan, hplan, -⟩
      simp [hstreaming] at hplan
    · rintro ⟨hdecode, hfew⟩
      have hlength := hmany _ hdecode
      rw [List.length_map, List.length_reverse] at hlength
      omega
  · constructor
    · rintro ⟨plan, hplan, -⟩
      rcases hstreaming with herror | herror <;> simp [herror] at hplan
    · rintro ⟨hdecode, -⟩
      simp [hbuffered] at hdecode

/-- Where the streaming plan does nothing, or its header is refused for its items, the buffered
body is left encoded. -/
theorem leaveEncoded_of_streaming (htoStr : ToStr toStr) {values : List Text}
    (h : (∃ plan, StreamingDecodePlan.fromHeaders toStr values = .ok plan ∧ plan.codings = []) ∨
      StreamingDecodePlan.fromHeaders toStr values = .error .invalidContentEncoding ∨
      StreamingDecodePlan.fromHeaders toStr values = .error .unsupportedCoding) :
    contentCodingPlan toStr values = .leaveEncoded := by
  rcases fromHeaders_cases htoStr values with ⟨plan, hstreaming, hbuffered⟩ | ⟨hstreaming, -⟩ |
    ⟨-, hbuffered⟩
  · rcases h with ⟨plan', hplan', hempty⟩ | herror | herror
    · rw [hstreaming, Except.ok.injEq] at hplan'
      subst hplan'
      rw [hbuffered, if_pos hempty]
    · simp [hstreaming] at herror
    · simp [hstreaming] at herror
  · rcases h with ⟨plan, hplan, -⟩ | herror | herror
    · simp [hstreaming] at hplan
    · simp [hstreaming] at herror
    · simp [hstreaming] at herror
  · exact hbuffered

theorem streaming_of_leaveEncoded (htoStr : ToStr toStr) {values : List Text}
    (h : contentCodingPlan toStr values = .leaveEncoded) :
    (∃ plan, StreamingDecodePlan.fromHeaders toStr values = .ok plan ∧ plan.codings = []) ∨
      ∃ error, StreamingDecodePlan.fromHeaders toStr values = .error error := by
  rcases fromHeaders_cases htoStr values with ⟨plan, hstreaming, hbuffered⟩ | ⟨hstreaming, -⟩ |
    ⟨hstreaming, -⟩
  · rw [hbuffered] at h
    split at h
    · rename_i hempty
      exact Or.inl ⟨plan, hstreaming, hempty⟩
    · simp at h
  · exact Or.inr ⟨_, hstreaming⟩
  · exact Or.inr (hstreaming.elim (fun h => ⟨_, h⟩) fun h => ⟨_, h⟩)

/-- The codings of the layers, in the order in which a body goes through them. -/
def layerCodings {σ : Type} (decoder : StreamingDecoder σ) : List ContentCoding :=
  decoder.layers.map fun layer => contentCoding layer.coding

theorem layerCodings_new {σ : Type} (library : CodecLibrary σ) (plan : StreamingDecodePlan)
    (limit : Option Nat) :
    layerCodings (.new library plan limit) = plan.codings.map contentCoding := by
  rw [layerCodings, StreamingDecoder.new, List.map_map]
  rfl

/-- Where both plans decode, the layers stand in the order of the buffered decoder. -/
theorem layerCodings_eq_decodeOrder (htoStr : ToStr toStr) {values : List Text}
    {plan : StreamingDecodePlan} {codings : List ContentCoding}
    (hplan : StreamingDecodePlan.fromHeaders toStr values = .ok plan)
    (hdecode : contentCodingPlan toStr values = .decode codings) {σ : Type}
    (library : CodecLibrary σ) (limit : Option Nat) :
    layerCodings (.new library plan limit) = decodeOrder codings := by
  rcases fromHeaders_cases htoStr values with ⟨plan', hstreaming, hbuffered⟩ | ⟨hstreaming, -⟩ |
    ⟨-, hbuffered⟩
  · rw [hstreaming, Except.ok.injEq] at hplan
    subst hplan
    rw [hbuffered] at hdecode
    split at hdecode
    · simp at hdecode
    · rw [ContentCodingPlan.decode.injEq] at hdecode
      rw [layerCodings_new, ← hdecode, decodeOrder, ← List.map_reverse, List.reverse_reverse]
  · simp [hstreaming] at hplan
  · simp [hbuffered] at hdecode

/-! ## The decoders -/

/-- The decoder of a coding makes `next` of a body, and the encoded copy is released. -/
def Decodes (limits : BodyLimits) (coding : ContentCoding) (answers : LayerAnswers)
    (body next : CollectedBody) : Prop :=
  ∃ reservation,
    decodeContentCoding limits coding answers body.content body.reservation =
        (some (.ok next.content), reservation) ∧
      reservation.releaseChunk answers.others body.content.length = (.ok (), next.reservation)

/-- The decoder of a coding fails, or the release of the encoded copy does. -/
def FailsWith (limits : BodyLimits) (coding : ContentCoding) (answers : LayerAnswers)
    (body : CollectedBody) (failure : Failure) : Prop :=
  decodeContentCoding limits coding answers body.content body.reservation =
      (some (.error failure.error), failure.reservation) ∨
    ∃ content reservation,
      decodeContentCoding limits coding answers body.content body.reservation =
          (some (.ok content), reservation) ∧
        reservation.releaseChunk answers.others body.content.length =
          (.error failure.error, failure.reservation)

/-- The first `n` decoders of `codings` make `bodies` of `body`, one after the other. -/
structure Decoded (limits : BodyLimits) (codings : List ContentCoding)
    (answers : Nat → LayerAnswers) (body : CollectedBody) (bodies : Nat → CollectedBody)
    (n : Nat) : Prop where
  first : bodies 0 = body
  step : ∀ k coding, k < n → codings[k]? = some coding →
    Decodes limits coding (answers k) (bodies k) (bodies (k + 1))

/-- `body`, and then `bodies`. -/
def prepend (body : CollectedBody) (bodies : Nat → CollectedBody) (k : Nat) : CollectedBody :=
  if k = 0 then body else bodies (k - 1)

section Decoders

variable {limits : BodyLimits} {coding : ContentCoding} {codings : List ContentCoding}
  {answers : Nat → LayerAnswers} {body next : CollectedBody}

/-- One more decoder in front. -/
theorem Decoded.cons {bodies : Nat → CollectedBody} {n : Nat}
    (hfirst : Decodes limits coding (answers 0) body next)
    (hrest : Decoded limits codings (fun k => answers (k + 1)) next bodies n) :
    Decoded limits (coding :: codings) answers body (prepend body bodies) (n + 1) where
  first := rfl
  step := by
    intro k other hk hother
    cases k with
    | zero =>
        obtain rfl := Option.some.inj hother
        show Decodes limits coding (answers 0) body (bodies 0)
        rw [hrest.first]
        exact hfirst
    | succ k => exact hrest.step k other (Nat.lt_of_succ_lt_succ hk) hother

/-- The decoders behind the first one. -/
theorem Decoded.tail {bodies : Nat → CollectedBody} {n : Nat}
    (h : Decoded limits (coding :: codings) answers body bodies (n + 1)) :
    Decodes limits coding (answers 0) body (bodies 1) ∧
      Decoded limits codings (fun k => answers (k + 1)) (bodies 1) (fun k => bodies (k + 1)) n := by
  refine ⟨?_, rfl, fun k other hk hother => ?_⟩
  · have hfirst := h.step 0 coding (Nat.succ_pos n) rfl
    rw [h.first] at hfirst
    exact hfirst
  · exact h.step (k + 1) other (Nat.succ_lt_succ hk) hother

/-- One turn of the loop of `decode_supported_body`. -/
theorem decodeLayers_cons_of_decodes (h : Decodes limits coding (answers 0) body next) :
    decodeLayers limits (coding :: codings) answers body =
      decodeLayers limits codings (fun k => answers (k + 1)) next := by
  obtain ⟨reservation, hdecode, hrelease⟩ := h
  rw [decodeLayers, hdecode]
  simp only [hrelease]

theorem decodeLayers_cons_of_failsWith {failure : Failure}
    (h : FailsWith limits coding (answers 0) body failure) :
    decodeLayers limits (coding :: codings) answers body = some (.error failure) := by
  rcases h with hdecode | ⟨content, reservation, hdecode, hrelease⟩
  · rw [decodeLayers, hdecode]
  · rw [decodeLayers, hdecode]
    simp only [hrelease]

/-- What the first turn does when the loop has a result. -/
theorem decodes_or_failsWith {outcome : Except Failure ResponseBody}
    (h : decodeLayers limits (coding :: codings) answers body = some outcome) :
    (∃ next, Decodes limits coding (answers 0) body next) ∨
      ∃ failure, FailsWith limits coding (answers 0) body failure ∧ outcome = .error failure := by
  cases hdecode : decodeContentCoding limits coding (answers 0) body.content body.reservation with
  | mk result reservation =>
      cases result with
      | none =>
          rw [decodeLayers, hdecode] at h
          cases h
      | some result =>
          cases result with
          | error error =>
              rw [decodeLayers, hdecode] at h
              exact Or.inr ⟨_, Or.inl hdecode, (Option.some.inj h).symm⟩
          | ok content =>
              cases hrelease : reservation.releaseChunk (answers 0).others body.content.length with
              | mk result released =>
                  cases result with
                  | ok => exact Or.inl ⟨⟨content, released⟩, reservation, hdecode, hrelease⟩
                  | error error =>
                      rw [decodeLayers, hdecode] at h
                      simp only [hrelease] at h
                      exact Or.inr ⟨⟨error, released⟩,
                        Or.inr ⟨content, reservation, hdecode, hrelease⟩, (Option.some.inj h).symm⟩

/-- The loop succeeds with what the last decoder has made. -/
theorem decodeLayers_eq_ok {response : ResponseBody} :
    decodeLayers limits codings answers body = some (.ok response) ↔
      response.decoded = true ∧ ∃ bodies,
        Decoded limits codings answers body bodies codings.length ∧
          bodies codings.length = ⟨response.content, response.reservation⟩ := by
  induction codings generalizing answers body with
  | nil =>
      constructor
      · intro h
        obtain rfl := Except.ok.inj (Option.some.inj h)
        exact ⟨rfl, fun _ => body, ⟨rfl, fun k _ hk => absurd hk (Nat.not_lt_zero k)⟩, rfl⟩
      · rintro ⟨hdecoded, bodies, hbodies, hlast⟩
        obtain ⟨content, reservation, decoded⟩ := response
        obtain rfl : decoded = true := hdecoded
        obtain rfl : body = ⟨content, reservation⟩ := hbodies.first.symm.trans hlast
        rfl
  | cons coding codings ih =>
      constructor
      · intro h
        rcases decodes_or_failsWith h with ⟨next, hnext⟩ | ⟨failure, -, hfailed⟩
        · rw [decodeLayers_cons_of_decodes hnext] at h
          obtain ⟨hdecoded, bodies, hbodies, hlast⟩ := ih.mp h
          exact ⟨hdecoded, _, hbodies.cons hnext, hlast⟩
        · cases hfailed
      · rintro ⟨hdecoded, bodies, hbodies, hlast⟩
        obtain ⟨hfirst, hrest⟩ := hbodies.tail
        rw [decodeLayers_cons_of_decodes hfirst]
        exact ih.mpr ⟨hdecoded, _, hrest, hlast⟩

/-- The loop ends at the first decoder that fails. -/
theorem decodeLayers_eq_error {failure : Failure} :
    decodeLayers limits codings answers body = some (.error failure) ↔
      ∃ bodies n coding, codings[n]? = some coding ∧
        Decoded limits codings answers body bodies n ∧
          FailsWith limits coding (answers n) (bodies n) failure := by
  induction codings generalizing answers body with
  | nil =>
      constructor
      · intro h
        cases Option.some.inj h
      · rintro ⟨bodies, n, coding, hcoding, -⟩
        exact absurd hcoding.symm (Option.some_ne_none coding)
  | cons coding codings ih =>
      constructor
      · intro h
        rcases decodes_or_failsWith h with ⟨next, hnext⟩ | ⟨first, hfails, hfailed⟩
        · rw [decodeLayers_cons_of_decodes hnext] at h
          obtain ⟨bodies, n, last, hlast, hbodies, hfails⟩ := ih.mp h
          exact ⟨_, n + 1, last, hlast, hbodies.cons hnext, hfails⟩
        · obtain rfl := Except.error.inj hfailed
          exact ⟨fun _ => body, 0, coding, rfl,
            ⟨rfl, fun k _ hk => absurd hk (Nat.not_lt_zero k)⟩, hfails⟩
      · rintro ⟨bodies, n, last, hlast, hbodies, hfails⟩
        cases n with
        | zero =>
            obtain rfl := Option.some.inj hlast
            rw [hbodies.first] at hfails
            exact decodeLayers_cons_of_failsWith hfails
        | succ n =>
            obtain ⟨hfirst, hrest⟩ := hbodies.tail
            rw [decodeLayers_cons_of_decodes hfirst]
            exact ih.mpr ⟨_, n, last, hlast, hrest, hfails⟩

/-- Decoders that decode as `decode` says give the composition of the decodings. -/
theorem Decoded.content_eq {decode : Coding → Bytes → Bytes} {plan : List Coding}
    {bodies : Nat → CollectedBody}
    (h : Decoded limits (plan.map contentCoding) answers body bodies plan.length)
    (hdecode : ∀ k coding before after, Decodes limits (contentCoding coding) (answers k)
      before after → after.content = decode coding before.content) :
    (bodies plan.length).content = composeDecodings decode plan body.content := by
  induction plan generalizing answers body bodies with
  | nil =>
      show (bodies 0).content = body.content
      rw [h.first]
  | cons coding plan ih =>
      obtain ⟨hfirst, hrest⟩ := h.tail
      have hcontent : (bodies 1).content = decode coding body.content :=
        hdecode 0 coding body (bodies 1) hfirst
      have hlast := ih hrest fun k => hdecode (k + 1)
      rw [hcontent] at hlast
      exact hlast

end Decoders

/-- The streaming plan has layers exactly when the buffered plan decodes the
same codings, at most four of them.  Where the streaming plan is empty, invalid
or unsupported the body is left encoded, and where the body is left encoded the
streaming plan is empty or an error.

When both decode, the buffered body goes through the decoders of the streaming
layers, in their order: it succeeds with what the last of them makes, and fails
at the first one that fails.  If each of them decodes as `decode` says, the body
is the one that a pipeline of these layers gives. -/
theorem plans_agree (htoStr : ToStr toStr) (values : List Text) :
    (∀ codings, codings ≠ [] →
      ((∃ plan, StreamingDecodePlan.fromHeaders toStr values = .ok plan ∧
          plan.codings = codings) ↔
        contentCodingPlan toStr values = .decode (codings.reverse.map contentCoding) ∧
          codings.length ≤ maxLayers)) ∧
    ((∃ plan, StreamingDecodePlan.fromHeaders toStr values = .ok plan ∧ plan.codings = []) ∨
        StreamingDecodePlan.fromHeaders toStr values = .error .invalidContentEncoding ∨
        StreamingDecodePlan.fromHeaders toStr values = .error .unsupportedCoding →
      contentCodingPlan toStr values = .leaveEncoded) ∧
    (contentCodingPlan toStr values = .leaveEncoded →
      (∃ plan, StreamingDecodePlan.fromHeaders toStr values = .ok plan ∧ plan.codings = []) ∨
        ∃ error, StreamingDecodePlan.fromHeaders toStr values = .error error) ∧
    ∀ plan codings, StreamingDecodePlan.fromHeaders toStr values = .ok plan →
      contentCodingPlan toStr values = .decode codings →
      ∀ (σ : Type) (library : CodecLibrary σ) (limit : Option Nat) (limits : BodyLimits)
        (answers : Nat → LayerAnswers) (body : CollectedBody),
        let layers := layerCodings (.new library plan limit)
        (∀ response, decodeSupportedBody limits codings answers body = some (.ok response) ↔
          response.decoded = true ∧ ∃ bodies,
            Decoded limits layers answers body bodies layers.length ∧
              bodies layers.length = ⟨response.content, response.reservation⟩) ∧
        (∀ failure, decodeSupportedBody limits codings answers body = some (.error failure) ↔
          ∃ bodies n coding, layers[n]? = some coding ∧
            Decoded limits layers answers body bodies n ∧
              FailsWith limits coding (answers n) (bodies n) failure) ∧
        ∀ (decode : Coding → Bytes → Bytes) (response : ResponseBody),
          (∀ k coding before after, Decodes limits (contentCoding coding) (answers k)
            before after → after.content = decode coding before.content) →
          decodeSupportedBody limits codings answers body = some (.ok response) →
            response.content = composeDecodings decode plan.codings body.content := by
  refine ⟨fun codings hne => decodes_iff htoStr values hne, leaveEncoded_of_streaming htoStr,
    streaming_of_leaveEncoded htoStr, ?_⟩
  intro plan codings hplan hdecode σ library limit limits answers body layers
  have hlayers : decodeOrder codings = layers :=
    (layerCodings_eq_decodeOrder htoStr hplan hdecode library limit).symm
  have hbody : decodeSupportedBody limits codings answers body =
      decodeLayers limits layers answers body := by
    rw [decodeSupportedBody, hlayers]
  rw [hbody]
  refine ⟨fun response => decodeLayers_eq_ok, fun failure => decodeLayers_eq_error, ?_⟩
  intro decode response hreads hresponse
  obtain ⟨-, bodies, hbodies, hlast⟩ := decodeLayers_eq_ok.mp hresponse
  have hcodings : layers = plan.codings.map contentCoding := layerCodings_new library plan limit
  rw [hcodings, List.length_map] at hbodies hlast
  rw [← hbodies.content_eq hreads, hlast]

namespace PlansExample

/-- `HeaderValue::to_str` on characters. -/
def headerToStr (value : Text) : Option Text :=
  if value.all fun c => c == '\t' || (' ' ≤ c && c ≤ '~') then some value else none

theorem toStr_headerToStr : ToStr headerToStr where
  same value text h := by
    unfold headerToStr at h
    split at h
    · exact (Option.some.inj h).symm
    · cases h
  visible value text h := by
    unfold headerToStr at h
    split at h
    · rename_i hall
      intro c hc
      have hvisible := List.all_eq_true.mp hall c hc
      simpa [Visible] using hvisible
    · cases h

def values : List Text := ["GZip, identity", "\tbr"]

def plan : StreamingDecodePlan := ⟨[.brotli, .gzip], by decide⟩

def reader (bytes : Bytes) (n : Nat) : ReadAnswer := ⟨.ok (if n = 0 then bytes else []), 3, 3⟩

/-- The decoder of brotli makes two bytes, and the one of gzip makes three. -/
def answers (n : Nat) : LayerAnswers :=
  ⟨reader (if n = 0 then [2, 2] else [3, 3, 3]), reader [], 3⟩

def body : CollectedBody := ⟨[1], ⟨1, 1, []⟩⟩

def response : ResponseBody :=
  ⟨[3, 3, 3], ⟨3, 3, [⟨1, 1, 3, true⟩, ⟨2, 2, 5, true⟩]⟩, true⟩

theorem plans_agree_example :
    decodeSupportedBody ⟨none, none⟩ [.gzip, .brotli] answers body = some (.ok response) ∧
      ∃ bodies, Decoded ⟨none, none⟩ [.brotli, .gzip] answers body bodies 2 ∧
        bodies 2 = ⟨[3, 3, 3], response.reservation⟩ := by
  have hplan : StreamingDecodePlan.fromHeaders headerToStr values = .ok plan := by decide
  have hdecode : contentCodingPlan headerToStr values = .decode [.gzip, .brotli] := by decide
  have hresponse : decodeSupportedBody ⟨none, none⟩ [.gzip, .brotli] answers body =
      some (.ok response) := rfl
  have h := (plans_agree toStr_headerToStr values).2.2.2 plan [.gzip, .brotli] hplan hdecode Unit
    ⟨fun _ => (), fun _ _ _ _ => .error ""⟩ none ⟨none, none⟩ answers body
  exact ⟨hresponse, ((h.1 response).mp hresponse).2⟩

end PlansExample

end FogHttp.Response
