import Dlads.EveExceptions

/-!
# Which event lines are delivered

Three things have to hold of a run that delivers the writer's lines: the lines
handed on are the non-empty ones in order, each line that has been appended is
handed on some time later, and the alerts are those of the lines handed on. A
torn line breaks the order. A mistyped one ends the thread, so that whatever is
appended behind it is never handed on.
-/

namespace Dlads.EveDelivery

open ByteText Records JsonValue StepMachine LineAssembly EveLines EveTailing EveExceptions

/-- The texts handed to `parse_eve_line`. -/
def handedLines (s : Adapter) : List Bytes := s.handed.map Prod.fst

section lists

variable {α : Type*} {xs ys : List α} {x : α}

end lists

section lines

end lines

section passes

variable {w : Writing} {s : Adapter} {count : ℕ}

/-- A call of `getline` fails on a stream at its end, or it reads on. -/
theorem getline_cases (w : Writing) (s : Adapter) :
    (∃ eof, w.getline s = (none, { s with eof := eof }) ∧ (s.eof = true ∨ w.unread s = [])) ∨
      ∃ line pos eof, w.getline s = (some line, { s with pos := pos, eof := eof }) ∧
        s.eof = false ∧ s.pos < pos := by
  unfold Writing.getline
  cases heof : s.eof with
  | true => exact .inl ⟨s.eof, by rw [if_pos rfl], .inl rfl⟩
  | false =>
    rw [if_neg Bool.false_ne_true]
    cases hfind : (w.unread s).findIdx? isNewline with
    | some nl => exact .inr ⟨_, s.pos + (nl + 1), false, rfl, rfl, by omega⟩
    | none =>
      dsimp only
      split
      · next hempty => exact .inl ⟨true, rfl, .inr (List.isEmpty_iff.mp hempty)⟩
      · next hsome =>
        have hpos := List.length_pos_iff.mpr fun hnil => hsome (List.isEmpty_iff.mpr hnil)
        exact .inr ⟨_, _, true, rfl, rfl, by omega⟩

/-- A pass of a live thread clears the stream at its end, or it reads on and
hands on one line at most. -/
theorem poll_cases (ha : s.sink.alive = true) (now : ℤ) :
    (w.poll s now = { s with eof := false } ∧ (s.eof = true ∨ w.unread s = [])) ∨
      (s.eof = false ∧ s.pos < (w.poll s now).pos ∧ (w.poll s now).visible = s.visible ∧
        (handedLines (w.poll s now) = handedLines s ∨
          ∃ line, handedLines (w.poll s now) = handedLines s ++ [line])) := by
  rcases getline_cases w s with ⟨eof, hg, hend⟩ | ⟨line, pos, eof, hg, heof, hpos⟩
  · exact .inl ⟨poll_of_none ha hg now, hend⟩
  · rw [poll_of_getline ha hg]
    split
    · exact .inr ⟨heof, hpos, rfl, .inr ⟨line, List.map_append⟩⟩
    · exact .inr ⟨heof, hpos, rfl, .inl rfl⟩

/-- Only the writer appends. -/
theorem visible_poll (now : ℤ) : (w.poll s now).visible = s.visible := by
  cases ha : s.sink.alive with
  | false => rw [Writing.poll, ha]; rfl
  | true =>
    rcases poll_cases (w := w) ha now with ⟨hpoll, -⟩ | ⟨-, -, hvisible, -⟩
    · rw [hpoll]
    · exact hvisible

/-- Nothing appended is taken back, and nothing but the lines is appended. -/
theorem visible_step (hvisible : s.visible ≤ w.stream.length) (action : Action) :
    s.visible ≤ (w.machine.step s action).1.visible ∧
      (w.machine.step s action).1.visible ≤ w.stream.length := by
  cases action with
  | append more =>
    refine ⟨?_, Nat.min_le_right _ _⟩
    change s.visible ≤ min (s.visible + more) w.stream.length
    omega
  | poll now =>
    have hsame : (w.machine.step s (.poll now)).1.visible = s.visible := visible_poll now
    exact ⟨hsame.ge, hsame.trans_le hvisible⟩

end passes

section runs

variable {w : Writing} {actions : ℕ → Action} {count : ℕ}

theorem visible_le (w : Writing) (actions : ℕ → Action) (n : ℕ) :
    (w.stateAt actions n).visible ≤ w.stream.length :=
  Machine.invariant_of_step (I := fun s : Adapter => s.visible ≤ w.stream.length) (Nat.zero_le _)
    (fun _ action hs => (visible_step hs action).2) n

end runs

end Dlads.EveDelivery
