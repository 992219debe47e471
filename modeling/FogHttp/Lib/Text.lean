import Mathlib.Algebra.Ring.Int.Defs
import Mathlib.Algebra.Ring.Nat
import Mathlib.Data.List.Basic
import Mathlib.Data.List.DropRight

/-!
# Text as Rust's `str` sees it

A Rust `String` or `&str` is modelled by the list of its scalar values.  The
model needs no index arithmetic, and each operation below is one structural
recursion.  A string literal becomes a `Text` through the coercion from
`String`, so the names of headers, schemes and error messages stay readable.

There are three groups.

* ASCII case folding.  `toAsciiLowercase` is `str::to_ascii_lowercase`, and
  `eqIgnoreAsciiCase` is `str::eq_ignore_ascii_case`.  `eqIgnoreAsciiCase_iff`
  reduces the second to the first.
* Cutting.  `splitOnce`, `rsplitOnce`, `splitPattern`, `trimMatches`, `trim`
  and the `strip` functions are the `str` methods of the same names.  The split
  at a character is `List.splitOn`.
* Measuring.  `utf8Len` is `str::len`, `isAscii` is `str::is_ascii`.

Nothing here names a function of a particular program.
-/

namespace FogHttp.Lib

/-- The scalar values of a Rust string, in order. -/
abbrev Text := List Char

instance : Coe String Text := ⟨String.toList⟩

/-! ## ASCII case folding -/

/-- `str::to_ascii_lowercase`.  `Char.toLower` changes `A` to `Z` only. -/
def toAsciiLowercase (text : Text) : Text := text.map Char.toLower

/-- `str::to_ascii_uppercase`.  `Char.toUpper` changes `a` to `z` only. -/
def toAsciiUppercase (text : Text) : Text := text.map Char.toUpper

/-- `str::eq_ignore_ascii_case`. -/
def eqIgnoreAsciiCase (left right : Text) : Bool :=
  toAsciiLowercase left == toAsciiLowercase right

/-- Two texts agree up to ASCII case exactly when their lower-case forms are
the same text. -/
theorem eqIgnoreAsciiCase_iff {left right : Text} :
    eqIgnoreAsciiCase left right = true ↔
      toAsciiLowercase left = toAsciiLowercase right := by
  simp [eqIgnoreAsciiCase]

/-- The scalar value of a character in lower case. -/
theorem toLower_val (c : Char) :
    c.toLower.val = if 65 ≤ c.val ∧ c.val ≤ 90 then c.val + 32 else c.val := by
  by_cases h : 65 ≤ c.val ∧ c.val ≤ 90
  · rw [if_pos h]
    exact congrArg Char.val (dif_pos h)
  · rw [if_neg h]
    exact congrArg Char.val (dif_neg h)

theorem toLower_idem (c : Char) : c.toLower.toLower = c.toLower := by
  refine Char.ext ?_
  rw [toLower_val c.toLower, toLower_val c]
  split
  case isTrue h => grind
  case isFalse => rfl

theorem toAsciiLowercase_idem (text : Text) :
    toAsciiLowercase (toAsciiLowercase text) = toAsciiLowercase text := by
  rw [toAsciiLowercase, toAsciiLowercase, List.map_map]
  exact List.map_congr_left fun c _ => toLower_idem c

/-! ## Cutting -/

/-- `str::split_once` at a character: the text before the first `sep` and the
text after it. -/
def splitOnce (sep : Char) : Text → Option (Text × Text)
  | [] => none
  | c :: rest =>
      if c = sep then some ([], rest)
      else (splitOnce sep rest).map fun pieces => (c :: pieces.1, pieces.2)

/-- What a successful `splitOnce` returns: the two pieces around the first
separator. -/
theorem splitOnce_eq_some {sep : Char} {text before after : Text}
    (h : splitOnce sep text = some (before, after)) :
    text = before ++ sep :: after ∧ sep ∉ before := by
  induction text generalizing before with
  | nil => simp [splitOnce] at h
  | cons c rest ih =>
      rw [splitOnce] at h
      split at h
      · rename_i hc
        simp only [Option.some.injEq, Prod.mk.injEq] at h
        obtain ⟨rfl, rfl⟩ := h
        simp [hc]
      · rename_i hc
        obtain ⟨⟨before', after'⟩, hrest, hpair⟩ := Option.map_eq_some_iff.mp h
        simp only [Prod.mk.injEq] at hpair
        obtain ⟨rfl, rfl⟩ := hpair
        obtain ⟨htext, hnot⟩ := ih hrest
        refine ⟨by rw [htext]; rfl, ?_⟩
        simp [hnot, Ne.symm hc]

/-- `splitOnce` fails only on a text without the separator. -/
theorem splitOnce_eq_none {sep : Char} {text : Text}
    (h : splitOnce sep text = none) : sep ∉ text := by
  induction text with
  | nil => simp
  | cons c rest ih =>
      rw [splitOnce] at h
      split at h
      · simp at h
      · rename_i hc
        simp only [Option.map_eq_none_iff] at h
        simp [ih h, Ne.symm hc]

/-- `splitOnce` cuts at the first separator. -/
theorem splitOnce_append_cons {sep : Char} {before : Text} (h : sep ∉ before) (after : Text) :
    splitOnce sep (before ++ sep :: after) = some (before, after) := by
  induction before with
  | nil => simp [splitOnce]
  | cons c rest ih =>
      simp only [List.mem_cons, not_or] at h
      rw [List.cons_append, splitOnce, if_neg (Ne.symm h.1), ih h.2]
      rfl

/-- A text without the separator is not cut. -/
theorem splitOnce_of_not_mem {sep : Char} {text : Text} (h : sep ∉ text) :
    splitOnce sep text = none := by
  cases hsplit : splitOnce sep text with
  | none => rfl
  | some pieces =>
      obtain ⟨htext, -⟩ := splitOnce_eq_some hsplit
      exact absurd (htext ▸ List.mem_append_right _ List.mem_cons_self) h

/-- A separator that a text does not contain bounds its place in a longer text. -/
theorem prefix_of_prefix_append_cons {before after pre : Text} {sep : Char}
    (h : pre <+: before ++ sep :: after) (hsep : sep ∉ pre) : pre <+: before := by
  by_cases hlength : pre.length ≤ before.length
  · exact List.prefix_of_prefix_length_le h (List.prefix_append _ _) hlength
  · have hlong : before ++ [sep] <+: pre := by
      refine List.prefix_of_prefix_length_le ⟨after, by simp⟩ h ?_
      simp only [List.length_append, List.length_singleton]
      omega
    exact absurd (hlong.subset (by simp)) hsep

/-- `str::split_once` at a string pattern. -/
def splitOnceStr (pat : Text) : Text → Option (Text × Text)
  | [] => if pat = [] then some ([], []) else none
  | c :: rest =>
      if pat.isPrefixOf (c :: rest) then some ([], (c :: rest).drop pat.length)
      else (splitOnceStr pat rest).map fun pieces => (c :: pieces.1, pieces.2)

/-- `str::rsplit_once` at a character: the text before the last `sep` and the
text after it. -/
def rsplitOnce (sep : Char) (text : Text) : Option (Text × Text) :=
  (splitOnce sep text.reverse).map fun pieces => (pieces.2.reverse, pieces.1.reverse)

/-- `rsplitOnce` cuts at the last separator. -/
theorem rsplitOnce_append_cons {sep : Char} {after : Text} (before : Text) (h : sep ∉ after) :
    rsplitOnce sep (before ++ sep :: after) = some (before, after) := by
  have hreverse : (before ++ sep :: after).reverse = after.reverse ++ sep :: before.reverse := by
    simp
  rw [rsplitOnce, hreverse, splitOnce_append_cons (List.mem_reverse.not.mpr h)]
  simp

/-- A text without the separator is not cut from behind. -/
theorem rsplitOnce_of_not_mem {sep : Char} {text : Text} (h : sep ∉ text) :
    rsplitOnce sep text = none := by
  rw [rsplitOnce, splitOnce_of_not_mem (List.mem_reverse.not.mpr h)]
  rfl

theorem rsplitOnce_eq_some {sep : Char} {text before after : Text}
    (h : rsplitOnce sep text = some (before, after)) :
    text = before ++ sep :: after ∧ sep ∉ after := by
  unfold rsplitOnce at h
  rw [Option.map_eq_some_iff] at h
  obtain ⟨⟨back, front⟩, hsplit, hpieces⟩ := h
  obtain ⟨rfl, rfl⟩ := Prod.mk.inj hpieces
  obtain ⟨hreverse, hsep⟩ := splitOnce_eq_some hsplit
  refine ⟨?_, fun hmem => hsep (List.mem_reverse.mp hmem)⟩
  rw [← List.reverse_reverse text, hreverse]
  simp

theorem rsplitOnce_eq_none {sep : Char} {text : Text} (h : rsplitOnce sep text = none) :
    sep ∉ text := by
  unfold rsplitOnce at h
  rw [Option.map_eq_none_iff] at h
  exact fun hmem => splitOnce_eq_none h (List.mem_reverse.mpr hmem)

/-- The scan behind `splitPattern`.  `skip` counts the characters of a
separator that was already recognised, and `acc` is the current piece in
reverse order. -/
def splitPatternAux (pat : Text) : Nat → Text → Text → List Text
  | _, acc, [] => [acc.reverse]
  | skip + 1, acc, _ :: rest => splitPatternAux pat skip acc rest
  | 0, acc, c :: rest =>
      if pat.isPrefixOf (c :: rest) then
        acc.reverse :: splitPatternAux pat (pat.length - 1) [] rest
      else splitPatternAux pat 0 (c :: acc) rest

/-- `str::split` at a non-empty string pattern: leftmost matches that do not
overlap. -/
def splitPattern (pat text : Text) : List Text := splitPatternAux pat 0 [] text

/-- Recognised separator characters are skipped one by one. -/
theorem splitPatternAux_skip (pat acc tail : Text) (skipped : Text) :
    splitPatternAux pat skipped.length acc (skipped ++ tail) =
      splitPatternAux pat 0 acc tail := by
  induction skipped with
  | nil => rfl
  | cons c rest ih => exact ih

/-- A piece without the first separator character is collected whole. -/
theorem splitPatternAux_piece (first : Char) (more acc piece tail : Text)
    (hpiece : first ∉ piece) :
    splitPatternAux (first :: more) 0 acc (piece ++ tail) =
      splitPatternAux (first :: more) 0 (piece.reverse ++ acc) tail := by
  induction piece generalizing acc with
  | nil => rfl
  | cons c rest ih =>
      simp only [List.mem_cons, not_or] at hpiece
      have hne : (first :: more).isPrefixOf (c :: (rest ++ tail)) = false := by
        simp [List.isPrefixOf, hpiece.1]
      rw [List.cons_append, splitPatternAux, hne]
      simp only [Bool.false_eq_true, if_false]
      rw [ih _ hpiece.2]
      simp

/-- Splitting undoes joining: when no piece contains the first character of
the separator, the pieces come back unchanged. -/
theorem splitPattern_intercalate (first : Char) (more : Text) (pieces : List Text)
    (hne : pieces ≠ []) (hpieces : ∀ piece ∈ pieces, first ∉ piece) :
    splitPattern (first :: more) (List.intercalate (first :: more) pieces) = pieces := by
  rw [splitPattern]
  induction pieces with
  | nil => exact absurd rfl hne
  | cons piece rest ih =>
      have hpiece : first ∉ piece := hpieces piece (by simp)
      cases rest with
      | nil =>
          have hsingle : List.intercalate (first :: more) [piece] = piece ++ [] := by simp
          rw [hsingle, splitPatternAux_piece first more [] piece [] hpiece]
          simp [splitPatternAux]
      | cons next rest =>
          have hrest := ih (by simp) fun p hp => hpieces p (by simp [hp])
          have hjoin : List.intercalate (first :: more) (piece :: next :: rest) =
              piece ++ (first :: (more ++
                List.intercalate (first :: more) (next :: rest))) := by
            simp [List.intercalate]
          rw [hjoin, splitPatternAux_piece first more [] piece _ hpiece, splitPatternAux]
          have hprefix : (first :: more).isPrefixOf
              (first :: (more ++ List.intercalate (first :: more) (next :: rest))) = true := by
            simp [List.isPrefixOf_iff_prefix]
          rw [if_pos hprefix]
          simp only [List.append_nil, List.reverse_reverse, List.length_cons,
            Nat.add_sub_cancel, List.cons.injEq, true_and]
          rw [splitPatternAux_skip]
          exact hrest

/-- `str::trim_matches` with a character predicate. -/
def trimMatches (drop : Char → Bool) (text : Text) : Text :=
  ((text.dropWhile drop).reverse.dropWhile drop).reverse

/-- The trimmed text is a contiguous part of the original. -/
theorem trimMatches_contiguous (drop : Char → Bool) (text : Text) :
    trimMatches drop text <:+: text := by
  have hback : (text.dropWhile drop).reverse.dropWhile drop <:+
      (text.dropWhile drop).reverse := List.dropWhile_suffix drop
  have hprefix : trimMatches drop text <+: text.dropWhile drop := by
    rw [trimMatches, ← List.reverse_suffix, List.reverse_reverse]
    exact hback
  exact hprefix.isInfix.trans (List.dropWhile_suffix drop).isInfix

/-- Every character of the trimmed text comes from the original. -/
theorem mem_of_mem_trimMatches {drop : Char → Bool} {text : Text} {c : Char}
    (h : c ∈ trimMatches drop text) : c ∈ text :=
  (trimMatches_contiguous drop text).subset h

/-- Trimming takes the padding off a text that has no such character of its own. -/
theorem trimMatches_padded {drop : Char → Bool} {front text back : Text}
    (hfront : ∀ c ∈ front, drop c = true) (htext : ∀ c ∈ text, drop c = false)
    (hback : ∀ c ∈ back, drop c = true) : trimMatches drop (front ++ text ++ back) = text := by
  have hreverse : ∀ c ∈ back.reverse, drop c = true := fun c hc =>
    hback c (List.mem_reverse.mp hc)
  cases text with
  | nil =>
      rw [trimMatches, List.append_nil, List.dropWhile_append_of_pos hfront, ← List.append_nil back,
        List.dropWhile_append_of_pos hback]
      rfl
  | cons c rest =>
      have hlast : ∀ d ∈ (c :: rest).reverse, ¬ drop d = true := fun d hd => by
        simp [htext d (List.mem_reverse.mp hd)]
      rw [trimMatches, List.append_assoc, List.dropWhile_append_of_pos hfront,
        List.cons_append, List.dropWhile_cons_of_neg (by simp [htext c]), ← List.cons_append,
        List.reverse_append, List.dropWhile_append_of_pos hreverse]
      cases hfirst : (c :: rest).reverse with
      | nil => simp at hfirst
      | cons d more =>
          rw [List.dropWhile_cons_of_neg (hlast d (by rw [hfirst]; exact List.mem_cons_self)),
            ← hfirst, List.reverse_reverse]

/-- A dropped character in front does not change the trimmed text. -/
theorem trimMatches_cons {drop : Char → Bool} {c : Char} (hc : drop c = true) (text : Text) :
    trimMatches drop (c :: text) = trimMatches drop text := by
  rw [trimMatches, List.dropWhile_cons_of_pos hc]
  rfl

theorem trimMatches_idem (drop : Char → Bool) (text : Text) :
    trimMatches drop (trimMatches drop text) = trimMatches drop text := by
  have hfront : (trimMatches drop text).dropWhile drop = trimMatches drop text := by
    have hprefix : trimMatches drop text <+: text.dropWhile drop := by
      rw [trimMatches, ← List.reverse_suffix, List.reverse_reverse]
      exact List.dropWhile_suffix drop
    cases htrimmed : trimMatches drop text with
    | nil => rfl
    | cons c rest =>
        obtain ⟨tail, htail⟩ := hprefix
        rw [htrimmed, List.cons_append] at htail
        have hc : drop c = false := by
          have hhead := List.head?_dropWhile_not drop text
          rw [← htail] at hhead
          exact hhead
        rw [List.dropWhile_cons_of_neg (by simp [hc])]
  rw [trimMatches, hfront]
  unfold trimMatches
  rw [List.reverse_reverse, List.dropWhile_idempotent drop]

/-- `char::is_whitespace`: the Unicode `White_Space` property. -/
def isWhitespace (c : Char) : Bool :=
  let n := c.toNat
  (0x09 ≤ n && n ≤ 0x0d) || n == 0x20 || n == 0x85 || n == 0xa0 || n == 0x1680 ||
    (0x2000 ≤ n && n ≤ 0x200a) || n == 0x2028 || n == 0x2029 || n == 0x202f ||
    n == 0x205f || n == 0x3000

/-- `str::trim`. -/
def trim (text : Text) : Text := trimMatches isWhitespace text

/-- `str::strip_prefix` with a character. -/
def stripPrefixChar (c : Char) : Text → Option Text
  | [] => none
  | d :: rest => if d = c then some rest else none

/-- `str::strip_suffix` with a character. -/
def stripSuffixChar (c : Char) (text : Text) : Option Text :=
  (stripPrefixChar c text.reverse).map List.reverse

/-- `str::strip_suffix` with a string. -/
def stripSuffix (suffix text : Text) : Option Text :=
  if suffix.isSuffixOf text then some (text.take (text.length - suffix.length)) else none

/-- What remains after a stripped suffix. -/
theorem stripSuffix_eq_some {suffix text rest : Text}
    (h : stripSuffix suffix text = some rest) : text = rest ++ suffix := by
  rw [stripSuffix] at h
  split at h
  · rename_i hsuffix
    obtain ⟨front, rfl⟩ := List.isSuffixOf_iff_suffix.mp hsuffix
    simp only [List.length_append, Nat.add_sub_cancel, List.take_left', Option.some.injEq] at h
    rw [← h]
  · simp at h

/-! ## Measuring -/

/-- `str::len`: the number of UTF-8 bytes. -/
def utf8Len (text : Text) : Nat := (text.map Char.utf8Size).sum

/-- `char::is_ascii_control`. -/
def isAsciiControl (c : Char) : Bool := c.toNat < 0x20 || c.toNat == 0x7f

/-- `u8::is_ascii_alphanumeric`. -/
def isAsciiAlphanumeric (c : Char) : Bool :=
  let n := c.toNat
  (48 ≤ n && n ≤ 57) || (65 ≤ n && n ≤ 90) || (97 ≤ n && n ≤ 122)

/-- `str::is_ascii`. -/
def isAscii (text : Text) : Bool := text.all fun c => c.toNat < 0x80

/-- The decimal digits of a number, as `Display` writes them. -/
def decimal (n : Nat) : Text := Nat.toDigits 10 n

end FogHttp.Lib
