import Dlads.ByteText
import Dlads.LineSplitting

/-!
# Line assembly in the tailer

`LogTailer::drain` reads chunks until there is nothing more, passes each
completed line to the callback and keeps the rest in `partial_`. The inner
loop is generic in what a byte of the stream carries besides its value, so
that a byte can remember where it was read. Lines do not depend on how the
stream is cut into chunks and calls.
-/

namespace Dlads.LineAssembly

open ByteText LineSplitting

section assembly

variable {α : Type*}

/-- The inner loop of `drain` from position `p` on: the lines passed to the
callback and what is left in `partial_`. -/
def assembleLines (newline : α → Bool) (pending rest : List α) : List (List α) × List α :=
  if rest.isEmpty then ([], pending)
  else
    match rest.findIdx? newline with
    | some nl =>
      let further := assembleLines newline [] (rest.drop (nl + 1))
      ((pending ++ rest.take nl) :: further.1, further.2)
    | none => ([], pending ++ rest)
  termination_by rest.length
  decreasing_by
    rw [List.length_drop]
    have hne : rest ≠ [] := by simpa using ‹¬rest.isEmpty = true›
    have := List.length_pos_of_ne_nil hne
    omega

/-- The inner loop delivers the terminated segments of what was kept and read,
and keeps the remainder. -/
theorem assembleLines_eq (newline : α → Bool) (pending rest : List α)
    (hp : ∀ x ∈ pending, newline x = false) :
    assembleLines newline pending rest =
      (terminated newline (pending ++ rest), remainder newline (pending ++ rest)) := by
  induction pending, rest using assembleLines.induct newline with
  | case1 pending rest hempty =>
    have hnil : rest = [] := List.isEmpty_iff.mp hempty
    obtain ⟨hnone, hrest⟩ := terminated_plain hp
    rw [assembleLines, if_pos hempty, hnil, List.append_nil, hnone, hrest]
  | case2 pending rest hempty nl hfind ih =>
    obtain ⟨hlt, hat, hbefore⟩ := List.findIdx?_eq_some_iff_getElem.mp hfind
    have hline : ∀ x ∈ pending ++ rest.take nl, newline x = false := by
      intro x hx
      rcases List.mem_append.mp hx with hx | hx
      · exact hp x hx
      · obtain ⟨i, hi, rfl⟩ := List.getElem_of_mem hx
        have hi' : i < nl := by
          rw [List.length_take] at hi
          omega
        rw [List.getElem_take]
        simpa using hbefore i hi'
    have hsplit : pending ++ rest =
        (pending ++ rest.take nl) ++ rest[nl] :: rest.drop (nl + 1) := by
      rw [List.append_assoc, ← List.drop_eq_getElem_cons hlt, List.take_append_drop]
    have hrec := ih (List.forall_mem_nil _)
    rw [List.nil_append] at hrec
    rw [assembleLines, if_neg hempty]
    simp only [hfind, hrec]
    rw [hsplit, (terminated_line hline hat _).1, (terminated_line hline hat _).2]
  | case3 pending rest hempty hfind =>
    have hplain : ∀ x ∈ pending ++ rest, newline x = false := by
      intro x hx
      rcases List.mem_append.mp hx with hx | hx
      · exact hp x hx
      · exact List.findIdx?_eq_none_iff.mp hfind x hx
    obtain ⟨hnone, hrest⟩ := terminated_plain hplain
    rw [assembleLines, if_neg hempty, hnone, hrest]
    simp only [hfind]

end assembly

/-- The newline byte. -/
def isNewline (c : UInt8) : Bool := c == 10

/-- `READ_BUF`. -/
def readBuf : ℕ := 65536

/-- What one `read` returns when there is something to read. -/
structure Chunk where
  /-- The bytes. -/
  bytes : Bytes
  /-- There are some. -/
  nonempty : bytes ≠ []
  /-- They fit the buffer. -/
  fits : bytes.length ≤ readBuf

/-- The line assembly of a `LogTailer`, and what its callback was given. -/
structure LogTailer where
  /-- `partial_`. -/
  pending : Bytes
  /-- The lines passed to the callback. -/
  delivered : List Bytes

/-- The assembly before anything was read. -/
def LogTailer.init : LogTailer := ⟨[], []⟩

/-- One pass of the outer loop of `drain`. -/
def LogTailer.readChunk (t : LogTailer) (chunk : Chunk) : LogTailer :=
  let assembled := assembleLines isNewline t.pending chunk.bytes
  ⟨assembled.2, t.delivered ++ assembled.1⟩

/-- `drain`: the chunks up to the first `read` that returns nothing. -/
def LogTailer.drain (t : LogTailer) (chunks : List Chunk) : LogTailer :=
  chunks.foldl LogTailer.readChunk t

/-- The bytes that some calls of `drain` read. -/
def bytesRead (calls : List (List Chunk)) : Bytes := calls.flatten.flatMap Chunk.bytes

/-- A chunk continues what was delivered and kept of the stream before it. -/
theorem readChunk_eq {t : LogTailer} {stream : Bytes}
    (hd : t.delivered = terminated isNewline stream) (hp : t.pending = remainder isNewline stream)
    (chunk : Chunk) :
    (t.readChunk chunk).delivered = terminated isNewline (stream ++ chunk.bytes) ∧
      (t.readChunk chunk).pending = remainder isNewline (stream ++ chunk.bytes) := by
  have hplain : ∀ x ∈ t.pending, isNewline x = false := by
    rw [hp]
    exact (terminated_no_sep isNewline stream).2
  obtain ⟨hlines, hrest⟩ := terminated_append isNewline stream chunk.bytes
  rw [LogTailer.readChunk, assembleLines_eq isNewline _ _ hplain, hlines, hrest, hd, hp]
  exact ⟨rfl, rfl⟩

/-- Any chunks continue the stream before them. -/
theorem foldl_readChunk_eq (chunks : List Chunk) {t : LogTailer} {stream : Bytes}
    (hd : t.delivered = terminated isNewline stream)
    (hp : t.pending = remainder isNewline stream) :
    (chunks.foldl LogTailer.readChunk t).delivered =
        terminated isNewline (stream ++ chunks.flatMap Chunk.bytes) ∧
      (chunks.foldl LogTailer.readChunk t).pending =
        remainder isNewline (stream ++ chunks.flatMap Chunk.bytes) := by
  induction chunks generalizing t stream with
  | nil => simpa using ⟨hd, hp⟩
  | cons chunk rest ih =>
    obtain ⟨hdelivered, hpending⟩ := readChunk_eq hd hp chunk
    rw [List.foldl_cons, List.flatMap_cons, ← List.append_assoc]
    exact ih hdelivered hpending

/-- However the stream is cut into chunks and calls of `drain`, the lines
delivered and then what is kept are the stream split at its newlines. -/
theorem drain_splitOn (calls : List (List Chunk)) :
    (calls.foldl LogTailer.drain .init).delivered ++
        [(calls.foldl LogTailer.drain .init).pending] =
      (bytesRead calls).splitOn 10 := by
  have hflat : calls.foldl LogTailer.drain .init =
      calls.flatten.foldl LogTailer.readChunk .init := List.foldl_flatten.symm
  obtain ⟨hdelivered, hpending⟩ := @foldl_readChunk_eq calls.flatten .init [] rfl rfl
  rw [List.nil_append] at hdelivered hpending
  rw [hflat, hdelivered, hpending]
  exact terminated_append_remainder isNewline (bytesRead calls)

end Dlads.LineAssembly
