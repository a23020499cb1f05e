import Dlads.LogRotation
import Mathlib.Data.List.Nodup

/-!
# Delivery across rotation

No byte is delivered twice and none that was there before the attach, and a
file that is closed has been delivered to its last complete line, in every run
in which the thread opens no file again that it has read a line of, and no
line is completed in the open file between the last drain and the close.
Renaming a file away and back breaks the first condition, a writer that is
late the second.
-/

namespace Dlads.RotationDelivery

open ByteText StepMachine LineSplitting LineAssembly LogRotation

/-- No drain lies between the thread and the close of the open file. -/
def drainedOut : Phase → Bool
  | .handling events rotated => rotated && events.all (!·.drains)
  | .removing | .closing => true
  | _ => false

/-- Where in a file the bytes begin that were appended since the attach. -/
def appendedFrom (start : Start) (inode : ℕ) : ℕ :=
  if inode = start.first then start.offset else 0

/-- The bytes appended to a file since the attach. -/
def appended (start : Start) (s : World) (inode : ℕ) : List ReadByte :=
  (numbered inode (s.contents inode)).drop (appendedFrom start inode)

/-- The thread's next step closes a file. -/
def Closes (s : World) (f : Session) : Prop :=
  s.file = some f ∧ (s.phase = .closing ∨ s.phase = .opened ∧ s.path = none)

/-- The file at the path was empty at the attach if it is the first one, and no
line has been read of it. -/
def Fresh (start : Start) (s : World) : Prop :=
  ∀ inode ∈ s.path, appendedFrom start inode = 0 ∧
    ∀ f ∈ s.closed, f.inode = inode → 10 ∉ ((s.contents inode).take f.upTo).drop f.start

instance (start : Start) (s : World) : Decidable (Fresh start s) :=
  inferInstanceAs (Decidable (∀ inode ∈ s.path, _))

/-- A step that opens only a fresh file, that does not find the path gone
between the open of a file with complete lines and its watch, and that
completes no line in the open file when no drain is to come. -/
def Orderly (start : Start) (s : World) : Action → Prop
  | .append inode bytes =>
    drainedOut s.phase = true → s.file.map Session.inode = some inode → 10 ∉ bytes
  | .tail =>
    (s.phase = .attaching → Fresh start s) ∧
      (s.phase = .opened → s.path = none → ∀ f ∈ s.file, 10 ∉ s.contents f.inode)
  | _ => True

instance (start : Start) (s : World) (action : Action) : Decidable (Orderly start s action) :=
  match action with
  | .append _ _ => inferInstanceAs (Decidable (_ → _ → _))
  | .tail => inferInstanceAs (Decidable ((_ → _) ∧ (_ → _ → _)))
  | .moveAway | .moveBack _ | .create | .delete _ => inferInstanceAs (Decidable True)

/-- What has been read, beyond being accounted for, is read once and to the
end. -/
structure Once (start : Start) (s : World) : Prop where
  /-- What was delivered is accounted for. -/
  accounted : Accounted s
  /-- A file is read from the byte on that was first appended to it. -/
  begun : ∀ f ∈ s.sessions, f.start = appendedFrom start f.inode
  /-- A file read again had given no line. -/
  apart : s.sessions.Pairwise fun f g => f.inode = g.inode → f.lines s.contents = []
  /-- No complete line is left when no drain is to come. -/
  drained : drainedOut s.phase = true →
    ∀ f ∈ s.file, 10 ∉ (s.contents f.inode).drop f.upTo

section steps

variable {start : Start} {s t : World}

/-- A stretch without newline gives no line. -/
theorem lines_nil {contents : ℕ → Bytes} {f : Session}
    (h : 10 ∉ ((contents f.inode).take f.upTo).drop f.start) : f.lines contents = [] := by
  refine (terminated_plain fun b hb => ?_).1
  have hmem := (mem_span hb).2.2
  rw [← Bool.not_eq_true, ReadByte.isNewline, LineAssembly.isNewline, beq_iff_eq]
  intro hnewline
  exact h (hnewline ▸ hmem)

/-- A step that opens and reads nothing keeps what has been read in order. -/
theorem Once.moved (h : Once start s) (ha : Accounted t)
    (hgrown : ∀ i, s.contents i <+: t.contents i) (hsessions : t.sessions = s.sessions)
    (hd : drainedOut t.phase = true → ∀ f ∈ t.file, 10 ∉ (t.contents f.inode).drop f.upTo) :
    Once start t where
  accounted := ha
  begun := by
    rw [hsessions]
    exact h.begun
  apart := by
    rw [hsessions]
    refine h.apart.imp_of_mem fun {f g} hf _ hsame heq => ?_
    rw [Session.lines, span_of_prefix hgrown (h.accounted.within f hf).2]
    exact hsame heq
  drained := hd

/-- What happens elsewhere completes no line after the last drain. -/
theorem Once.elsewhere (h : Once start s) {action : Action} (ha : action ≠ .tail)
    (ho : Orderly start s action) : Once start (s.step action) := by
  have he := elsewhere_step (s := s) ha
  have hsessions : (s.step action).sessions = s.sessions := by
    rw [World.sessions, World.sessions, he.closed, he.file]
  refine h.moved (h.accounted.elsewhere he) he.grown hsessions ?_
  rw [he.phase, he.file]
  intro hd f hf
  have hbefore := h.drained hd f hf
  cases action with
  | append inode bytes =>
    simp only [World.step]
    split
    · rw [World.notify_contents]
      by_cases hi : f.inode = inode
      · have hbytes : 10 ∉ bytes := ho hd (by
          rw [Option.mem_def.mp hf, Option.map_some, hi])
        simp only [← hi, Function.update_self, List.drop_append, List.mem_append, not_or]
        exact ⟨hbefore, fun hmem => hbytes (List.mem_of_mem_drop hmem)⟩
      · simpa [hi] using hbefore
    · exact hbefore
  | moveAway =>
    simp only [World.step]
    split
    · simpa using hbefore
    · exact hbefore
  | moveBack inode =>
    simp only [World.step]
    split
    · simpa using hbefore
    · exact hbefore
  | create =>
    simp only [World.step]
    split <;> exact hbefore
  | delete inode =>
    simp only [World.step]
    split
    · split
      · simpa using hbefore
      · exact hbefore
    · exact hbefore
  | tail => exact absurd rfl ha

/-- A drain goes on in the same file, and ends at its end. -/
theorem Once.drainChunk (h : Once start s) {events : List Event} {rotated : Bool}
    (hp : s.phase = .draining events rotated) (ha : Accounted (s.drainChunk events rotated)) :
    Once start (s.drainChunk events rotated) := by
  unfold World.drainChunk at ha ⊢
  split
  · next hread =>
    rw [if_pos hread] at ha
    refine h.moved ha (fun i => List.prefix_rfl) rfl fun _ f hf => ?_
    have hend : (numbered f.inode (s.contents f.inode)).drop f.upTo = [] := by
      rw [World.read, Option.mem_def.mp hf] at hread
      simpa [readBuf] using hread
    have hnil : (s.contents f.inode).drop f.upTo = [] := by
      rw [List.drop_eq_nil_iff] at hend ⊢
      rwa [numbered_length] at hend
    change 10 ∉ (s.contents f.inode).drop f.upTo
    rw [hnil]
    exact List.not_mem_nil
  · next hread =>
    rw [if_neg hread] at ha
    refine ⟨ha, ?_, ?_, fun hd => ?_⟩
    · cases hfile : s.file with
      | none => simp [World.read, hfile] at hread
      | some f =>
        intro g hg
        rcases List.mem_append.mp hg with hg | hg
        · exact h.begun g (List.mem_append_left _ hg)
        · have hg : g = { f with upTo := f.upTo + s.read.length } := by
            simpa [hfile] using hg
          rw [hg]
          exact h.begun f (by simp [World.sessions, hfile])
    · obtain ⟨hclosed, -, hlast⟩ := List.pairwise_append.mp h.apart
      refine List.pairwise_append.mpr ⟨hclosed, ?_, fun f hf g hg heq => ?_⟩
      · cases s.file with
        | none => exact List.Pairwise.nil
        | some f => exact List.pairwise_singleton _ _
      · obtain ⟨g', hg', rfl⟩ : ∃ g' ∈ s.file,
            ({ g' with upTo := g'.upTo + s.read.length } : Session) = g := by
          simpa using hg
        exact hlast f hf g' (by simpa using hg') heq
    · rw [hp] at hd
      cases hd

/-- The thread opens a file of which no line was read yet. -/
theorem Once.attach (h : Once start s) (hfile : s.file = none) {inode : ℕ}
    (hpath : s.path = some inode) (hfresh : Fresh start s)
    (ha : Accounted { s with file := some ⟨inode, 0, 0⟩, phase := .opened }) :
    Once start { s with file := some ⟨inode, 0, 0⟩, phase := .opened } := by
  obtain ⟨hzero, hnone⟩ := hfresh inode hpath
  have hsessions : s.sessions = s.closed := by rw [World.sessions, hfile]; simp
  refine ⟨ha, fun f hf => ?_, ?_, fun hd => by cases hd⟩
  · rcases List.mem_append.mp hf with hf | hf
    · exact h.begun f (hsessions ▸ hf)
    · have hf : f = ⟨inode, 0, 0⟩ := by simpa using hf
      rw [hf]
      exact hzero.symm
  · refine List.pairwise_append.mpr ⟨hsessions ▸ h.apart, List.pairwise_singleton _ _, ?_⟩
    intro f hf g hg heq
    have hg : g = ⟨inode, 0, 0⟩ := by simpa using hg
    rw [hg] at heq
    exact lines_nil (heq ▸ hnone f hf heq)

/-- The thread opens fresh files only, and drains the open one before it closes
it. -/
theorem Once.tail (h : Once start s) (ho : Orderly start s .tail) : Once start s.tail := by
  have hacc := h.accounted.tail
  have hgrown : ∀ i, s.contents i <+: s.contents i := fun i => List.prefix_rfl
  cases hp : s.phase with
  | attaching =>
    cases hpath : s.path with
    | none =>
      simp only [World.tail, hp, hpath]
      exact h
    | some inode =>
      have hopen : s.tail = { s with file := some ⟨inode, 0, 0⟩, phase := .opened } := by
        rw [World.tail, hp]
        simp only [hpath]
      rw [hopen] at hacc ⊢
      exact h.attach (h.accounted.detached hp) hpath (ho.1 hp) hacc
  | opened =>
    cases hpath : s.path with
    | none =>
      simp only [World.tail, hp, hpath] at hacc ⊢
      exact h.moved hacc hgrown (List.append_nil _) fun hd => by cases hd
    | some inode =>
      simp only [World.tail, hp, hpath] at hacc ⊢
      exact h.moved hacc hgrown rfl fun hd => by cases hd
  | polling =>
    simp only [World.tail, hp] at hacc ⊢
    split
    · exact h
    · next hqueue =>
      rw [if_neg hqueue] at hacc
      exact h.moved hacc hgrown rfl fun hd => by cases hd
  | handling events rotated =>
    cases events with
    | nil =>
      simp only [World.tail, hp] at hacc ⊢
      refine h.moved hacc hgrown rfl fun hd => h.drained ?_
      cases rotated with
      | true => rw [hp]; rfl
      | false => cases hd
    | cons event events =>
      simp only [World.tail, hp] at hacc ⊢
      split
      · next hdrains =>
        rw [if_pos hdrains] at hacc
        exact h.moved hacc hgrown rfl fun hd => by cases hd
      · next hdrains =>
        rw [if_neg hdrains] at hacc
        refine h.moved hacc hgrown rfl fun hd => h.drained ?_
        rw [hp]
        simpa [drainedOut, hdrains] using hd
  | draining events rotated =>
    simp only [World.tail, hp] at hacc ⊢
    exact h.drainChunk hp hacc
  | removing =>
    simp only [World.tail, hp] at hacc ⊢
    have he : Elsewhere s s.unwatch :=
      Elsewhere.unwatch ⟨fun i => List.prefix_rfl, rfl, rfl, rfl, rfl, rfl⟩
    have hsessions : s.unwatch.sessions = s.sessions := by
      rw [World.sessions, World.sessions, he.closed, he.file]
    refine h.moved hacc he.grown hsessions fun _ => ?_
    change ∀ f ∈ s.unwatch.file, 10 ∉ (s.unwatch.contents f.inode).drop f.upTo
    rw [he.file, World.unwatch_contents]
    exact h.drained (by rw [hp]; rfl)
  | closing =>
    simp only [World.tail, hp] at hacc ⊢
    exact h.moved hacc hgrown (List.append_nil _) fun hd => by cases hd

/-- The first file is open, and nothing was read of it. -/
theorem once_world (start : Start) : Once start start.world where
  accounted := accounted_stateAt start (fun _ => .tail) 0
  begun := by
    intro f hf
    have hf : f = ⟨start.first, start.offset, start.offset⟩ := by
      simpa [World.sessions, Start.world] using hf
    rw [hf, appendedFrom, if_pos rfl]
  apart := List.pairwise_singleton _ _
  drained := fun hd => by cases hd

/-- Orderly steps read once and to the end. -/
theorem once_stateAt {actions : ℕ → Action} {n : ℕ}
    (h : machine.Along start.world actions (Orderly start) n) :
    Once start (stateAt start actions n) := by
  refine Machine.invariant (once_world start) (fun s action hs ho => ?_) h
  change Once start (s.step action)
  by_cases ha : action = .tail
  · rw [ha] at ho ⊢
    exact hs.tail ho
  · exact hs.elsewhere ha ho

end steps

section deliveries

variable {start : Start} {s : World}

/-- The lines of a stretch hold each place once, and places of the stretch only. -/
theorem lines_sublist (contents : ℕ → Bytes) (f : Session) :
    (f.lines contents).flatten.Sublist (f.span contents) :=
  terminated_flatten_sublist ReadByte.isNewline _

theorem lines_places_nodup (contents : ℕ → Bytes) (f : Session) :
    ((f.lines contents).flatten.map ReadByte.place).Nodup := by
  have hall : ((numbered f.inode (contents f.inode)).map ReadByte.place).Nodup := by
    rw [numbered_places]
    exact (List.nodup_range' 1).map fun _ _ h => (Prod.mk.inj h).2
  have hspan : (f.span contents).Sublist (numbered f.inode (contents f.inode)) :=
    (List.drop_sublist _ _).trans (List.take_sublist _ _)
  exact hall.sublist (((lines_sublist contents f).trans hspan).map _)

/-- A place is read in one stretch that gives lines, and once there. -/
theorem Once.nodup (h : Once start s) : (s.delivered.flatten.map ReadByte.place).Nodup := by
  have hflat : s.delivered.flatten.map ReadByte.place = s.sessions.flatMap fun f =>
      (f.lines s.contents).flatten.map ReadByte.place := by
    rw [h.accounted.delivered, List.flatMap_def, List.flatten_flatten, List.map_flatten,
      List.map_map, List.map_map, List.flatMap_def]
    rfl
  rw [hflat, List.nodup_flatMap]
  refine ⟨fun f _ => lines_places_nodup s.contents f, h.apart.imp fun {f g} hsame => ?_⟩
  intro place hf hg
  obtain ⟨b, hb, rfl⟩ := List.mem_map.mp hf
  obtain ⟨c, hc, hplace⟩ := List.mem_map.mp hg
  have hinode : f.inode = g.inode := by
    rw [← (mem_span ((lines_sublist s.contents f).subset hb)).1,
      ← (mem_span ((lines_sublist s.contents g).subset hc)).1]
    exact (congrArg Prod.fst hplace).symm
  rw [hsame hinode] at hb
  cases hb

/-- Only appended bytes are delivered. -/
theorem Once.offset_le (h : Once start s) : ∀ line ∈ s.delivered, ∀ b ∈ line,
    appendedFrom start b.inode ≤ b.offset := by
  intro line hline b hb
  rw [h.accounted.delivered] at hline
  obtain ⟨f, hf, hline⟩ := List.mem_flatMap.mp hline
  have hspan := (lines_sublist s.contents f).subset (List.mem_flatten_of_mem hline hb)
  obtain ⟨hinode, hle, -⟩ := mem_span hspan
  rw [hinode, ← h.begun f hf]
  exact hle

/-- A file without a complete line behind the reader has been delivered. -/
theorem Once.complete (h : Once start s) {f : Session} (hf : s.file = some f)
    (hn : 10 ∉ (s.contents f.inode).drop f.upTo) :
    terminated ReadByte.isNewline (appended start s f.inode) <:+ s.delivered := by
  have hmem : f ∈ s.sessions := by simp [World.sessions, hf]
  obtain ⟨hstart, hle⟩ := h.accounted.within f hmem
  have hsplit : appended start s f.inode =
      f.span s.contents ++ (numbered f.inode (s.contents f.inode)).drop f.upTo := by
    have htake : f.start ≤ ((numbered f.inode (s.contents f.inode)).take f.upTo).length := by
      rw [List.length_take, numbered_length]
      omega
    rw [appended, ← h.begun f hmem, Session.span, ← List.drop_append_of_le_length htake,
      List.take_append_drop]
  have hplain : ∀ b ∈ remainder ReadByte.isNewline (f.span s.contents) ++
      (numbered f.inode (s.contents f.inode)).drop f.upTo, ReadByte.isNewline b = false := by
    intro b hb
    rcases List.mem_append.mp hb with hb | hb
    · exact (terminated_no_sep ReadByte.isNewline _).2 b hb
    · have hvalue := List.mem_map_of_mem (f := ReadByte.value) hb
      rw [List.map_drop, numbered_values] at hvalue
      rw [← Bool.not_eq_true, ReadByte.isNewline, LineAssembly.isNewline, beq_iff_eq]
      intro hnewline
      exact hn (hnewline ▸ hvalue)
  rw [hsplit, (terminated_append ReadByte.isNewline _ _).1, (terminated_plain hplain).1,
    List.append_nil, h.accounted.delivered, World.sessions, hf, Option.toList_some,
    List.flatMap_append, List.flatMap_singleton]
  exact List.suffix_append _ _

end deliveries

/-- In a run of orderly steps no byte is delivered twice, none of those before
the attach is, and a file is closed when all its complete lines have been
delivered. -/
theorem delivered_once (start : Start) (actions : ℕ → Action) (n : ℕ)
    (h : machine.Along start.world actions (Orderly start) n) :
    ((stateAt start actions n).delivered.flatten.map ReadByte.place).Nodup ∧
    (∀ line ∈ (stateAt start actions n).delivered, ∀ b ∈ line,
      b.inode = start.first → start.offset ≤ b.offset) ∧
    ∀ m < n, actions m = .tail → ∀ f, Closes (stateAt start actions m) f →
      terminated ReadByte.isNewline (appended start (stateAt start actions m) f.inode) <:+
        (stateAt start actions m).delivered := by
  have honce := once_stateAt h
  refine ⟨honce.nodup, fun line hline b hb hfirst => ?_, fun m hm ha f hclose => ?_⟩
  · have hle := honce.offset_le line hline b hb
    rwa [appendedFrom, if_pos hfirst] at hle
  · have hm' := once_stateAt (h.mono machine start.world actions (Nat.le_of_lt hm))
    obtain ⟨hfile, hphase⟩ := hclose
    refine hm'.complete hfile ?_
    rcases hphase with hphase | ⟨hphase, hpath⟩
    · exact hm'.drained (by rw [hphase]; rfl) f hfile
    · have horderly := h m hm
      rw [ha] at horderly
      intro hmem
      exact horderly.2 hphase hpath f hfile (List.mem_of_mem_drop hmem)

/-- A file with one line, found at the attach. -/
def oneLine : Start where
  contents := fun inode => if inode = 0 then text "old\n" else []
  next := 1
  unused := fun i hi => if_neg (Nat.ne_of_gt hi)
  first := 0
  offset := 4
  offset_le := by decide
  watched := 0

/-- A schedule, with the thread running on behind it. -/
def schedule (actions : List Action) (n : ℕ) : Action := actions.getD n .tail

/-- A line, a rotation that the thread sees through, and a line in the fresh
file. -/
def rotation : ℕ → Action :=
  schedule ([.append 0 (text "new\n")] ++ List.replicate 5 .tail ++ [.moveAway, .create] ++
    List.replicate 8 .tail ++ [.append 1 (text "next\n")] ++ List.replicate 8 .tail)

theorem delivered_once_rotation :
    machine.Along oneLine.world rotation (Orderly oneLine) 24 ∧
    (stateAt oneLine rotation 24).closed = [⟨0, 4, 8⟩] ∧
    (stateAt oneLine rotation 24).file = some ⟨1, 0, 5⟩ ∧
    ((stateAt oneLine rotation 24).delivered.flatten.map ReadByte.place).Nodup := by
  have h : machine.Along oneLine.world rotation (Orderly oneLine) 24 := by
    unfold Machine.Along
    decide
  exact ⟨h, by decide, by decide, (delivered_once oneLine rotation 24 h).1⟩

/-- The file is renamed away and back before the thread sees it. -/
def renameBack : ℕ → Action :=
  schedule ([.append 0 (text "new\n")] ++ List.replicate 5 .tail ++ [.moveAway, .moveBack 0] ++
    List.replicate 10 .tail ++ [.append 0 (text "next\n")])

/-- A writer that has the file open appends a line after the last drain. -/
def lateWriter : ℕ → Action :=
  schedule ([.append 0 (text "new\n")] ++ List.replicate 5 .tail ++ [.moveAway] ++
    List.replicate 5 .tail ++ [.append 0 (text "late\n")])

/-- A file renamed away and back is delivered again from its first byte on,
and a line written between the last drain and the close is lost. -/
theorem renameBack_lateWriter :
    (¬∀ (start : Start) (actions : ℕ → Action) (n : ℕ),
      ((stateAt start actions n).delivered.flatten.map ReadByte.place).Nodup) ∧
    (¬∀ (start : Start) (actions : ℕ → Action) (n : ℕ),
      ∀ line ∈ (stateAt start actions n).delivered, ∀ b ∈ line,
        b.inode = start.first → start.offset ≤ b.offset) ∧
    ¬∀ (start : Start) (actions : ℕ → Action) (n : ℕ) (f : Session), actions n = .tail →
      Closes (stateAt start actions n) f →
        terminated ReadByte.isNewline (appended start (stateAt start actions n) f.inode) <:+
          (stateAt start actions n).delivered := by
  refine ⟨fun h => ?_, fun h => ?_, fun h => ?_⟩
  · have htwice := h oneLine renameBack 25
    rw [(accounted_stateAt oneLine renameBack 25).delivered] at htwice
    revert htwice
    decide
  · have hold := h oneLine renameBack 25
    rw [(accounted_stateAt oneLine renameBack 25).delivered] at hold
    revert hold
    decide
  · have hlost := h oneLine lateWriter 13 ⟨0, 4, 8⟩ rfl ⟨rfl, .inl rfl⟩
    rw [(accounted_stateAt oneLine lateWriter 13).delivered] at hlost
    revert hlost
    decide

end Dlads.RotationDelivery
