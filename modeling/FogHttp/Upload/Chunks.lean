import FogHttp.Lib.Generator
import FogHttp.Upload.Body

/-!
# The chunks of a source

A feeder takes the chunks of its source through `sync_body_chunks` or
`async_body_chunks`.  With a content length, they count down and mark the chunk that
reaches it as final, and they ask the source for no chunk after that one.

`bodyChunks_of_length` is about a source that yields exactly its content length and ends
with a chunk that is not empty.
-/

namespace FogHttp.RequestBody

open Lib

/-- `_chunk_progress`. -/
def chunkProgress (chunk : Chunk) : Option Int → Bool × Option Int
  | none => (false, none)
  | some remaining => (remaining - chunk.length ≤ 0, some (remaining - chunk.length))

variable {ε : Type}

/-- `_sync_iterator_chunks`, over what the iterator yields and how it ends. -/
def iteratorChunks (result : Except ε Unit) :
    Option Int → List Chunk → Generated ε (Chunk × Bool) Unit
  | _, [] => ⟨[], result⟩
  | remaining, chunk :: rest =>
      let (final, remaining) := chunkProgress chunk remaining
      (Generated.one (chunk, final) ()).andThen fun () =>
        if final then .pure () else iteratorChunks result remaining rest

/-- `sync_body_chunks`. -/
def syncBodyChunks (source : Generated ε Chunk Unit) (contentLength : Option Nat) :
    Generated ε (Chunk × Bool) Unit :=
  if contentLength = some 0 then .pure ()
  else iteratorChunks source.result (contentLength.map Int.ofNat) source.yields

/-- `async_body_chunks`.  `_async_iterator_chunks` is the same loop. -/
def asyncBodyChunks (source : Generated ε Chunk Unit) (contentLength : Option Nat) :
    Generated ε (Chunk × Bool) Unit :=
  syncBodyChunks source contentLength

theorem length_flatten_pos (chunks : List Chunk) {last : Chunk} (hlast : last ≠ []) :
    0 < (chunks ++ [last]).flatten.length := by
  have hlength := List.length_pos_iff.mpr hlast
  simp only [List.flatten_append, List.flatten_singleton, List.length_append]
  omega

/-- The countdown over chunks that add up to it marks the last one, if that is not empty. -/
theorem iteratorChunks_of_length (result : Except ε Unit) {chunks : List Chunk} {last : Chunk}
    (hlast : last ≠ []) :
    iteratorChunks result (some ((chunks ++ [last]).flatten.length : Int)) (chunks ++ [last]) =
      ⟨chunks.map (·, false) ++ [(last, true)], .ok ()⟩ := by
  induction chunks with
  | nil =>
      have hprogress : chunkProgress last (some (([] ++ [last]).flatten.length : Int)) =
          (true, some 0) := by
        simp [chunkProgress]
      rw [List.nil_append, iteratorChunks, ← List.nil_append [last], hprogress]
      rfl
  | cons chunk chunks ih =>
      have hpositive := length_flatten_pos chunks hlast
      have hprogress : chunkProgress chunk
          (some ((chunk :: (chunks ++ [last])).flatten.length : Int)) =
            (false, some ((chunks ++ [last]).flatten.length : Int)) := by
        simp only [chunkProgress, List.flatten_cons, List.length_append, Prod.mk.injEq,
          decide_eq_false_iff_not, Option.some.injEq]
        omega
      rw [List.cons_append, iteratorChunks, hprogress]
      simp only [Bool.false_eq_true, if_false]
      rw [ih]
      rfl

/-- A source of exactly this length hands every chunk on, and only its last one is final. -/
theorem bodyChunks_of_length {chunks : List Chunk} {last : Chunk} (hlast : last ≠ [])
    (result : Except ε Unit) :
    syncBodyChunks ⟨chunks ++ [last], result⟩ (some (chunks ++ [last]).flatten.length) =
      ⟨chunks.map (·, false) ++ [(last, true)], .ok ()⟩ := by
  have hpositive := length_flatten_pos chunks hlast
  unfold syncBodyChunks
  rw [if_neg (by simpa using hpositive.ne')]
  exact iteratorChunks_of_length result hlast

end FogHttp.RequestBody
