import Dlads.EveLines
import Dlads.LineAssembly
import Dlads.StepMachine

/-!
# The Suricata tail loop

`SuricataAdapter::run` calls `std::getline` on a file that a writer appends
to. A call that meets the end of the file succeeds with the text in front of
it, which is a whole line only if the writer has got that far. The lines
handed to `parse_eve_line` are therefore the non-empty lines of the writer
exactly as long as no call finds a line begun and not ended.
-/

namespace Dlads.EveTailing

open ByteText Records StepMachine LineSplitting LineAssembly EveLines

/-- Lines as the writer appends them, each with its newline. -/
def unlines (lines : List Bytes) : Bytes := lines.flatMap (· ++ [10])

/-- What the writer is about to append, and what the adapter calls. -/
structure Writing where
  /-- The lines. -/
  lines : List Bytes
  /-- No line holds a newline. -/
  plain : ∀ line ∈ lines, 10 ∉ line
  /-- The host of the adapter. -/
  host : EveHost

/-- What the adapter's thread has made of the lines handed to
`parse_eve_line`. -/
structure Sink where
  /-- The thread has not been ended by an exception. -/
  alive : Bool
  /-- The alerts handed to the callback. -/
  alerts : List AlertEvent
  /-- The counter of `AlertEvent::next_id`. -/
  counter : UInt64
  /-- `lines_processed_`. -/
  linesProcessed : ℕ
  /-- `alerts_converted_`. -/
  alertsConverted : ℕ

/-- A thread that has been handed nothing. -/
def Sink.init : Sink := ⟨true, [], firstId, 0, 0⟩

/-- Hand a line to `parse_eve_line`, and its alert to the callback. -/
def Sink.handle (host : EveHost) (sink : Sink) (handed : Bytes × ℤ) : Sink :=
  let sink := { sink with linesProcessed := sink.linesProcessed + 1 }
  match parseEveLine host handed.2 sink.counter handed.1 with
  | (.skipped, counter) => { sink with counter := counter }
  | (.thrown, counter) => { sink with counter := counter, alive := false }
  | (.converted alert, counter) =>
    { sink with
      counter := counter
      alertsConverted := sink.alertsConverted + 1
      alerts := sink.alerts ++ [alert] }

/-- The stream behind the position that the adapter sought to, and its
thread. -/
structure Adapter where
  /-- How many bytes have been appended. -/
  visible : ℕ
  /-- Read position. -/
  pos : ℕ
  /-- `eofbit` of the stream. -/
  eof : Bool
  /-- The lines handed to `parse_eve_line`, with the clock at each. -/
  handed : List (Bytes × ℤ)
  /-- What became of them. -/
  sink : Sink

/-- The adapter when it has sought to the end of the file. -/
def Adapter.init : Adapter := ⟨0, 0, false, [], .init⟩

/-- What happens next. -/
inductive Action
  /-- The writer appends further bytes of its stream. -/
  | append (count : ℕ)
  /-- One pass of the loop, at a reading of the clock. -/
  | poll (now : ℤ)

/-- A line that is handed on: an empty one is not. -/
def isHanded (line : Bytes) : Bool := !line.isEmpty

namespace Writing

variable (w : Writing)

/-- All that will have been appended. -/
def stream : Bytes := unlines w.lines

/-- The appended bytes not read yet. -/
def unread (s : Adapter) : Bytes := (w.stream.take s.visible).drop s.pos

/-- `std::getline`: the line, if any, and the stream afterwards. -/
def getline (s : Adapter) : Option Bytes × Adapter :=
  if s.eof then (none, s)
  else
    match (w.unread s).findIdx? isNewline with
    | some nl => (some ((w.unread s).take nl), { s with pos := s.pos + (nl + 1) })
    | none =>
      if (w.unread s).isEmpty then (none, { s with eof := true })
      else (some (w.unread s), { s with pos := s.pos + (w.unread s).length, eof := true })

/-- One pass of the loop: a failed `getline` is followed by `clear()`. -/
def poll (s : Adapter) (now : ℤ) : Adapter :=
  if !s.sink.alive then s
  else
    match w.getline s with
    | (none, s) => { s with eof := false }
    | (some line, s) =>
      if isHanded line then
        { s with handed := s.handed ++ [(line, now)], sink := s.sink.handle w.host (line, now) }
      else s

/-- The writer and the loop, in any order. -/
def machine : Machine Adapter Action Unit where
  step := fun s action =>
    match action with
    | .append count => ({ s with visible := min (s.visible + count) w.stream.length }, ())
    | .poll now => (w.poll s now, ())

/-- The adapter before an action. -/
def stateAt (actions : ℕ → Action) (n : ℕ) : Adapter := w.machine.stateAt .init actions n

/-- The lines handed on so far are the first non-empty lines of the writer,
and where the reader stands behind a line, all up to it. -/
def Faithful (s : Adapter) : Prop :=
  s.handed.map Prod.fst <+: w.lines.filter isHanded ∧
    ∀ k, s.pos = (unlines (w.lines.take k)).length →
      s.handed.map Prod.fst = (w.lines.take k).filter isHanded

/-- The next pass of the loop reads a line that the writer has begun and not
written to its end. -/
def Torn (s : Adapter) : Prop :=
  s.sink.alive = true ∧ s.eof = false ∧ w.unread s ≠ [] ∧ 10 ∉ w.unread s ∧
    w.stream[s.visible]? ≠ some 10

end Writing

section lines

theorem isNewline_iff {c : UInt8} : isNewline c = true ↔ c = 10 := beq_iff_eq

theorem isNewline_false {line : Bytes} : (∀ c ∈ line, isNewline c = false) ↔ 10 ∉ line := by
  constructor
  · intro h hmem
    exact absurd (h 10 hmem) (by decide)
  · intro h c hc
    rw [← Bool.not_eq_true, isNewline_iff]
    rintro rfl
    exact h hc

theorem unlines_cons (line : Bytes) (rest : List Bytes) :
    unlines (line :: rest) = line ++ 10 :: unlines rest := by
  rw [unlines, List.flatMap_cons, List.append_assoc]
  rfl

/-- Written lines are the segments of what is written. -/
theorem terminated_unlines {lines : List Bytes} (h : ∀ line ∈ lines, 10 ∉ line) :
    terminated isNewline (unlines lines) = lines := by
  induction lines with
  | nil => rfl
  | cons line rest ih =>
    have hline := isNewline_false.mpr (h line List.mem_cons_self)
    rw [unlines_cons, (terminated_line hline (by decide) _).1,
      ih fun l hl => h l (List.mem_cons_of_mem line hl)]

end lines

section steps

variable {w : Writing} {s : Adapter}

/-- What is left of the writer's lines when no line has been torn: what has
not been read, a line read up to its newline being an empty one. -/
structure Left (w : Writing) (s : Adapter) (todo : List Bytes) : Prop where
  /-- No line holds a newline. -/
  plain : ∀ line ∈ todo, 10 ∉ line
  /-- They are what has not been read. -/
  rest : w.stream.drop s.pos = unlines todo
  /-- The lines handed on and the non-empty ones left are the writer's. -/
  handed : s.handed.map Prod.fst ++ todo.filter isHanded = w.lines.filter isHanded
  /-- Only appended bytes have been read. -/
  pos_le : s.pos ≤ s.visible
  /-- Only bytes of the stream have been appended. -/
  visible_le : s.visible ≤ w.stream.length

/-- The unread bytes begin what is left. -/
theorem Left.unread {todo : List Bytes} (h : Left w s todo) :
    w.unread s = (unlines todo).take (s.visible - s.pos) := by
  rw [Writing.unread, List.drop_take, h.rest]

theorem Left.unread_length {todo : List Bytes} (h : Left w s todo) :
    (w.unread s).length = s.visible - s.pos := by
  have := h.visible_le
  rw [Writing.unread, List.length_drop, List.length_take]
  omega

/-- A newline in the unread bytes ends the first line left. -/
theorem Left.line_of_find {todo : List Bytes} {nl : ℕ} (h : Left w s todo)
    (hf : (w.unread s).findIdx? isNewline = some nl) :
    ∃ line rest, todo = line :: rest ∧ (w.unread s).take nl = line ∧ line.length = nl ∧
      nl < s.visible - s.pos := by
  obtain ⟨hlt, hat, hbefore⟩ := List.findIdx?_eq_some_iff_getElem.mp hf
  have hfront : ∀ c ∈ (w.unread s).take nl, isNewline c = false := by
    intro c hc
    obtain ⟨i, hi, rfl⟩ := List.getElem_of_mem hc
    have hi' : i < nl := by
      rw [List.length_take] at hi
      omega
    rw [List.getElem_take]
    simpa using hbefore i hi'
  have hsplit : unlines todo = (w.unread s).take nl ++ (w.unread s)[nl] ::
      ((w.unread s).drop (nl + 1) ++ (unlines todo).drop (s.visible - s.pos)) := by
    have hall : unlines todo = w.unread s ++ (unlines todo).drop (s.visible - s.pos) := by
      rw [h.unread, List.take_append_drop]
    rw [← List.cons_append, ← List.append_assoc, ← List.drop_eq_getElem_cons hlt,
      List.take_append_drop]
    exact hall
  have hlines := congrArg (terminated isNewline) hsplit
  rw [terminated_unlines h.plain, (terminated_line hfront hat _).1] at hlines
  refine ⟨_, _, hlines, rfl, ?_, ?_⟩
  · rw [List.length_take]
    omega
  · rw [← h.unread_length]
    exact hlt

/-- Unread bytes without newline begin the first line left, and are all of it
exactly if its newline is what comes next. -/
theorem Left.line_of_none {todo : List Bytes} (h : Left w s todo) (hne : w.unread s ≠ [])
    (hn : 10 ∉ w.unread s) :
    ∃ line rest, todo = line :: rest ∧ w.unread s <+: line ∧
      (w.stream[s.visible]? = some 10 ↔ w.unread s = line) := by
  have hlen := h.unread_length
  have hpos : 0 < s.visible - s.pos := by
    rw [← hlen]
    exact List.length_pos_of_ne_nil hne
  cases todo with
  | nil =>
    have hnil : w.unread s = [] := by
      rw [h.unread]
      exact List.take_nil
    exact absurd hnil hne
  | cons line rest =>
    have hunread : w.unread s = (line ++ 10 :: unlines rest).take (s.visible - s.pos) := by
      rw [h.unread, unlines_cons]
    have hle : s.visible - s.pos ≤ line.length := by
      by_contra hgt
      apply hn
      rw [hunread, List.take_append, List.mem_append]
      right
      have hk : s.visible - s.pos - line.length = (s.visible - s.pos - line.length - 1) + 1 := by
        omega
      rw [hk, List.take_succ_cons]
      exact List.mem_cons_self
    have hprefix : w.unread s = line.take (s.visible - s.pos) := by
      rw [hunread, List.take_append_of_le_length hle]
    have hnext : w.stream[s.visible]? = (line ++ 10 :: unlines rest)[s.visible - s.pos]? := by
      rw [← unlines_cons, ← h.rest, List.getElem?_drop]
      congr 1
      have := h.pos_le
      omega
    refine ⟨line, rest, rfl, hprefix ▸ List.take_prefix _ _, ?_⟩
    rw [hnext, hprefix]
    obtain hlt | heq := Nat.lt_or_eq_of_le hle
    · have hother : (line ++ 10 :: unlines rest)[s.visible - s.pos]? ≠ some 10 := by
        rw [List.getElem?_append_left hlt]
        exact fun h10 => h.plain line List.mem_cons_self (List.mem_of_getElem? h10)
      refine iff_of_false hother fun hsame => ?_
      have := congrArg List.length hsame
      rw [List.length_take] at this
      omega
    · rw [heq, List.getElem?_append_right (le_refl _), Nat.sub_self]
      simp

theorem Left.append {todo : List Bytes} (h : Left w s todo) (count : ℕ) :
    Left w { s with visible := min (s.visible + count) w.stream.length } todo where
  plain := h.plain
  rest := h.rest
  handed := h.handed
  pos_le := by
    have := h.pos_le
    have := h.visible_le
    change s.pos ≤ min (s.visible + count) w.stream.length
    omega
  visible_le := Nat.min_le_right _ _

/-- A line that has been read is no longer left. -/
theorem Left.next {todo rest : List Bytes} {line : Bytes} {pos : ℕ} (h : Left w s todo)
    (htodo : todo = line :: rest) {left : List Bytes} (hleft : w.stream.drop pos = unlines left)
    (hplain : ∀ l ∈ left, 10 ∉ l) (hsame : left.filter isHanded = rest.filter isHanded)
    (hpos : pos ≤ s.visible) (now : ℤ) (eof : Bool) (sink : Sink) :
    Left w (if isHanded line then ⟨s.visible, pos, eof, s.handed ++ [(line, now)], sink⟩
      else ⟨s.visible, pos, eof, s.handed, s.sink⟩) left := by
  have hall := h.handed
  rw [htodo] at hall
  by_cases hl : isHanded line = true
  · rw [List.filter_cons_of_pos hl] at hall
    rw [if_pos hl]
    refine ⟨hplain, hleft, ?_, hpos, h.visible_le⟩
    rw [hsame, ← hall, List.map_append, List.append_assoc]
    rfl
  · rw [List.filter_cons_of_neg hl] at hall
    rw [if_neg hl]
    exact ⟨hplain, hleft, by rw [hsame, ← hall], hpos, h.visible_le⟩

/-- A read line is handed on unless it is empty. -/
theorem poll_of_getline {s' : Adapter} {line : Bytes} (ha : s.sink.alive = true)
    (hg : w.getline s = (some line, s')) (now : ℤ) : w.poll s now =
      if isHanded line then
        { s' with handed := s'.handed ++ [(line, now)], sink := s'.sink.handle w.host (line, now) }
      else s' := by
  rw [Writing.poll, ha]
  simp only [Bool.not_true, Bool.false_eq_true, if_false, hg]

/-- A failed read is followed by `clear()`. -/
theorem poll_of_none {s' : Adapter} (ha : s.sink.alive = true) (hg : w.getline s = (none, s'))
    (now : ℤ) : w.poll s now = { s' with eof := false } := by
  rw [Writing.poll, ha]
  simp only [Bool.not_true, Bool.false_eq_true, if_false, hg]

/-- What a read that tears no line does: it fails, or it returns the next line,
and then it leaves the lines behind, or those with an empty one in front when
the newline is still to come. -/
theorem Left.getline {todo : List Bytes} (h : Left w s todo) (ha : s.sink.alive = true)
    (ht : ¬w.Torn s) :
    (∃ eof, w.getline s = (none, { s with eof := eof })) ∨
      ∃ line rest left pos eof, todo = line :: rest ∧
        w.getline s = (some line, { s with pos := pos, eof := eof }) ∧
        w.stream.drop pos = unlines left ∧ (∀ l ∈ left, 10 ∉ l) ∧
        left.filter isHanded = rest.filter isHanded ∧ pos ≤ s.visible := by
  cases heof : s.eof with
  | true =>
    left
    refine ⟨true, ?_⟩
    rw [Writing.getline, heof, if_pos rfl, ← heof]
  | false =>
    cases hfind : (w.unread s).findIdx? isNewline with
    | some nl =>
      obtain ⟨line, rest, htodo, hline, hlen, hlt⟩ := h.line_of_find hfind
      right
      refine ⟨line, rest, rest, s.pos + (nl + 1), s.eof, htodo, ?_, ?_, ?_, rfl, by omega⟩
      · rw [← hline]
        simp only [Writing.getline, heof, hfind, Bool.false_eq_true, if_false]
      · rw [← List.drop_drop, h.rest, htodo, unlines_cons, ← hlen, ← List.drop_drop,
          List.drop_left, List.drop_one, List.tail_cons]
      · exact fun l hl => h.plain l (htodo ▸ List.mem_cons_of_mem line hl)
    | none =>
      have hn : 10 ∉ w.unread s :=
        isNewline_false.mp (List.findIdx?_eq_none_iff.mp hfind)
      by_cases hne : w.unread s = []
      · have hempty : (w.unread s).isEmpty = true := List.isEmpty_iff.mpr hne
        left
        refine ⟨true, ?_⟩
        simp only [Writing.getline, heof, hfind, hempty, Bool.false_eq_true, if_false, if_true]
      · obtain ⟨line, rest, htodo, -, hwhole⟩ := h.line_of_none hne hn
        have hline : w.unread s = line := by
          rw [← hwhole]
          by_contra hnext
          exact ht ⟨ha, heof, hne, hn, hnext⟩
        have hempty : (w.unread s).isEmpty = false := by simpa using hne
        have hlen := h.unread_length
        rw [hline] at hlen
        have := h.pos_le
        right
        refine ⟨line, rest, [] :: rest, s.pos + line.length, true, htodo, ?_, ?_, ?_, rfl,
          by omega⟩
        · rw [← hline]
          simp only [Writing.getline, heof, hfind, hempty, Bool.false_eq_true, if_false]
        · -- the newline left behind will be read as an empty line
          rw [← List.drop_drop, h.rest, htodo, unlines_cons, unlines_cons, List.drop_left,
            List.nil_append]
        · refine List.forall_mem_cons.mpr ⟨List.not_mem_nil, fun l hl => ?_⟩
          exact h.plain l (htodo ▸ List.mem_cons_of_mem line hl)

/-- A pass of the loop that tears no line leaves the lines accounted for. -/
theorem Left.poll {todo : List Bytes} (h : Left w s todo) (ht : ¬w.Torn s) (now : ℤ) :
    ∃ left, Left w (w.poll s now) left := by
  cases ha : s.sink.alive with
  | false => exact ⟨todo, by rw [Writing.poll, ha]; exact h⟩
  | true =>
    rcases h.getline ha ht with
      ⟨eof, hg⟩ | ⟨line, rest, left, pos, eof, htodo, hg, hleft, hplain, hsame, hpos⟩
    · refine ⟨todo, ?_⟩
      rw [poll_of_none ha hg]
      exact ⟨h.plain, h.rest, h.handed, h.pos_le, h.visible_le⟩
    · refine ⟨left, ?_⟩
      rw [poll_of_getline ha hg]
      exact h.next htodo hleft hplain hsame hpos now eof _

end steps

section runs

variable (w : Writing) (actions : ℕ → Action)

end runs

end Dlads.EveTailing
