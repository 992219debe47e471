import FogHttp.Lib.Generator
import FogHttp.Lib.Lines
import FogHttp.Lib.Text

/-!
# Lines of a streamed text

`_LineSplitter` gets the text of a response chunk by chunk and yields its lines.
It keeps the segments of the line that has not ended.  A CR at the end of a
chunk is kept back, because the next chunk may start with its LF.

A Python string is a list of code points, lone surrogates included.

The chunks come from an iterator that does not fail.  Closing it is left out.
-/

namespace FogHttp.TextStream

open Lib

/-- A character of a Python string. -/
abbrev CodePoint := Fin 0x110000

abbrev PyStr := List CodePoint

def CR : CodePoint := 0x0D
def LF : CodePoint := 0x0A

theorem CR_ne_LF : CR ≠ LF := by decide

/-- `ResponseError`. -/
structure ResponseError where
  message : Text
deriving DecidableEq, Repr

/-! ## The length of a line -/

/-- `_line_too_long`. -/
def lineTooLong (maxLineChars : Nat) : ResponseError :=
  ⟨"stream line exceeded max_line_chars=".toList ++ (toString maxLineChars).toList⟩

/-- `_ensure_max_line_chars`. -/
def ensureMaxLineChars (lineChars : Nat) (maxLineChars : Option Nat) :
    Except ResponseError Unit :=
  match maxLineChars with
  | none => .ok ()
  | some maxLineChars =>
      if lineChars > maxLineChars then .error (lineTooLong maxLineChars) else .ok ()

/-! ## The line breaks of a chunk -/

/-- `text[start:end]`. -/
def slice (text : PyStr) (start stop : Nat) : PyStr := (text.take stop).drop start

/-- The spans of the matches of `\r\n|\r|\n` in `window`, which starts at `pos`. -/
def lineBreaks (pos : Nat) : PyStr → List (Nat × Nat)
  | [] => []
  | c :: rest =>
      if c = CR then
        -- `\r\n` is the first alternative, and the scan goes on behind the match.
        match rest with
        | [] => [(pos, pos + 1)]
        | d :: tail =>
            if d = LF then (pos, pos + 2) :: lineBreaks (pos + 2) tail
            else (pos, pos + 1) :: lineBreaks (pos + 1) (d :: tail)
      else if c = LF then (pos, pos + 1) :: lineBreaks (pos + 1) rest
      else lineBreaks (pos + 1) rest

/-- `_LINE_BREAK_PATTERN.finditer(text, pos, endpos)`. -/
def finditer (text : PyStr) (pos endpos : Nat) : List (Nat × Nat) :=
  lineBreaks pos (slice text pos endpos)

/-! ## The splitter -/

/-- `_LineSplitter`. -/
structure LineSplitter where
  maxLineChars : Option Nat
  pendingParts : List PyStr
  pendingChars : Nat
  deferredCr : Bool
deriving DecidableEq

namespace LineSplitter

/-- `_LineSplitter(max_line_chars=max_line_chars)`. -/
def new (maxLineChars : Option Nat) : LineSplitter := ⟨maxLineChars, [], 0, false⟩

/-- `_append_segment`. -/
def appendSegment (self : LineSplitter) (segment : PyStr) : Except ResponseError LineSplitter :=
  if segment.isEmpty then .ok self
  else
    match ensureMaxLineChars (self.pendingChars + segment.length) self.maxLineChars with
    | .error error => .error error
    | .ok () =>
        .ok { self with
          pendingParts := self.pendingParts ++ [segment]
          pendingChars := self.pendingChars + segment.length }

/-- `_take_line`, as a statement that yields the line. -/
def yieldLine (self : LineSplitter) : Generated ResponseError PyStr LineSplitter :=
  .one self.pendingParts.flatten { self with pendingParts := [], pendingChars := 0 }

/-- The loop of `feed` over the line breaks, and the segment after the last one. -/
def feedBreaks (text : PyStr) (scanEnd : Nat) (self : LineSplitter) (segmentStart : Nat) :
    List (Nat × Nat) → Generated ResponseError PyStr LineSplitter
  | [] => ⟨[], self.appendSegment (slice text segmentStart scanEnd)⟩
  | (start, stop) :: breaks =>
      match self.appendSegment (slice text segmentStart start) with
      | .error error => ⟨[], .error error⟩
      | .ok self => self.yieldLine.andThen fun self => feedBreaks text scanEnd self stop breaks

/-- `feed` from the scan on. -/
def scan (self : LineSplitter) (text : PyStr) (textStart : Nat) :
    Generated ResponseError PyStr LineSplitter :=
  let scanEnd := if text.getLast? = some CR then text.length - 1 else text.length
  (feedBreaks text scanEnd self textStart (finditer text textStart scanEnd)).andThen fun self =>
    .pure { self with deferredCr := self.deferredCr || decide (scanEnd < text.length) }

/-- `feed`. -/
def feed (self : LineSplitter) (text : PyStr) : Generated ResponseError PyStr LineSplitter :=
  if text.isEmpty then .pure self
  else if self.deferredCr then
    ({ self with deferredCr := false }).yieldLine.andThen fun self =>
      self.scan text (if text.head? = some LF then 1 else 0)
  else self.scan text 0

/-- `flush`. -/
def flush (self : LineSplitter) : Generated ResponseError PyStr LineSplitter :=
  let afterCr : Generated ResponseError PyStr LineSplitter :=
    if self.deferredCr then ({ self with deferredCr := false }).yieldLine else .pure self
  afterCr.andThen fun self =>
    if self.pendingParts.isEmpty then .pure self else self.yieldLine

end LineSplitter

/-! ## The iterators -/

/-- The loop of `iter_lines`. -/
def iterChunks (splitter : LineSplitter) : List PyStr → Generated ResponseError PyStr LineSplitter
  | [] => splitter.flush
  | chunk :: chunks => (splitter.feed chunk).andThen fun splitter => iterChunks splitter chunks

/-- `iter_lines`. -/
def iterLines (chunks : List PyStr) (maxLineChars : Option Nat) :
    Generated ResponseError PyStr LineSplitter :=
  iterChunks (.new maxLineChars) chunks

/-- The loop of `aiter_lines`. -/
def aiterChunks (splitter : LineSplitter) : List PyStr → Generated ResponseError PyStr LineSplitter
  | [] => splitter.flush.reyield
  | chunk :: chunks =>
      (splitter.feed chunk).reyield.andThen fun splitter => aiterChunks splitter chunks

/-- `aiter_lines`. -/
def aiterLines (chunks : List PyStr) (maxLineChars : Option Nat) :
    Generated ResponseError PyStr LineSplitter :=
  aiterChunks (.new maxLineChars) chunks

example :
    (iterLines [[0x61, CR], [], [LF, LF, 0x62], [CR]] (some 1)).yields = [[0x61], [], [0x62]] := by
  decide

end FogHttp.TextStream
