import Mathlib.Data.List.Basic

/-!
# ZagrosNode — frames of a stream

A stream arrives in chunks that end anywhere: a socket promises the order of its
bytes and nothing about where a `recv` stops. Its reader keeps what follows the
last separator, puts the next chunk behind it and takes the complete frames.
Frames are over any type with decidable equality, and what is done with a frame is
a fold over any state, so a reader of lines is one instance.

The argument goes by the stream so far: what a reader holds is the frames of all
that has arrived, folded, and the rest behind the last separator. `frames_append`
says that this is kept when a chunk is put behind the rest.

Main results:

* `frames_flatMap` — frames that are sent are the frames that arrive.
* `frames_append` — frames of a stream that arrives in two parts.
* `readAll_eq` — a reader ends as if the stream had arrived in one chunk.
-/

namespace ZagrosNode.Lib

variable {α σ : Type*} [DecidableEq α] (sep : α)

/-- Put an element before the first frame. -/
def consFrame (c : α) : List (List α) × List α → List (List α) × List α
  | ([], rest)              => ([], c :: rest)
  | (frame :: frames, rest) => ((c :: frame) :: frames, rest)

/-- `*frames, rest = stream.split(sep)` -/
def frames : List α → List (List α) × List α
  | []      => ([], [])
  | c :: cs => if c = sep then ([] :: (frames cs).1, (frames cs).2) else consFrame c (frames cs)

theorem frames_append (a b : List α) :
    frames sep (a ++ b) =
      ((frames sep a).1 ++ (frames sep ((frames sep a).2 ++ b)).1,
        (frames sep ((frames sep a).2 ++ b)).2) := by
  induction a with
  | nil => rfl
  | cons c cs ih =>
    rw [List.cons_append, frames, frames]
    by_cases hSep : c = sep
    · rw [if_pos hSep, if_pos hSep, ih]
      rfl
    · rw [if_neg hSep, if_neg hSep, ih]
      cases hFrames : frames sep cs with
      | mk front rest =>
        cases front with
        | nil =>
          -- no separator yet: the element belongs to what is kept
          show consFrame c (frames sep (rest ++ b)) = frames sep (c :: (rest ++ b))
          rw [frames, if_neg hSep]
        | cons f fs => rfl

/-- An element that is no separator goes to the frame that is on its way. -/
theorem frames_of_not_mem {front : List α} (h : sep ∉ front) (cs : List α) :
    frames sep (front ++ sep :: cs) = (front :: (frames sep cs).1, (frames sep cs).2) := by
  induction front with
  | nil => rw [List.nil_append, frames, if_pos rfl]
  | cons c front ih =>
    have hHead : c ≠ sep := fun hEq => h (hEq ▸ List.mem_cons_self)
    have hTail : sep ∉ front := fun hMem => h (List.mem_cons_of_mem c hMem)
    rw [List.cons_append, frames, if_neg hHead, ih hTail]
    rfl

/-- Frames that are sent, each with a separator behind it, arrive as they are. -/
theorem frames_flatMap {sent : List (List α)} (h : ∀ frame ∈ sent, sep ∉ frame) :
    frames sep (sent.flatMap fun frame => frame ++ [sep]) = (sent, []) := by
  induction sent with
  | nil => rfl
  | cons frame rest ih =>
    have hRest := ih fun other hOther => h other (List.mem_cons_of_mem frame hOther)
    rw [List.flatMap_cons, List.append_assoc, List.singleton_append,
      frames_of_not_mem sep (h frame List.mem_cons_self), hRest]

-- ---------------------------------------------------------------------------
-- Readers
-- ---------------------------------------------------------------------------

variable (feed : σ → List α → σ)

/-- One chunk: the state after its complete frames, and what is kept. -/
def readChunk (s : σ × List α) (chunk : List α) : σ × List α :=
  ((frames sep (s.2 ++ chunk)).1.foldl feed s.1, (frames sep (s.2 ++ chunk)).2)

/-- However the stream is cut, its reader ends in the same state: that of the frames of
the whole stream. The induction is on the chunks, and what has arrived so far is in
`kept`. -/
theorem readAll_eq (s : σ) (kept : List α) (chunks : List (List α)) :
    chunks.foldl (readChunk sep feed) ((frames sep kept).1.foldl feed s, (frames sep kept).2) =
      ((frames sep (kept ++ chunks.flatten)).1.foldl feed s,
        (frames sep (kept ++ chunks.flatten)).2) := by
  induction chunks generalizing kept with
  | nil => simp
  | cons chunk chunks ih =>
    have hChunk : readChunk sep feed ((frames sep kept).1.foldl feed s, (frames sep kept).2) chunk =
        ((frames sep (kept ++ chunk)).1.foldl feed s, (frames sep (kept ++ chunk)).2) := by
      rw [readChunk, frames_append sep kept chunk, List.foldl_append]
    rw [List.foldl_cons, hChunk, ih (kept ++ chunk), List.flatten_cons, List.append_assoc]

end ZagrosNode.Lib
