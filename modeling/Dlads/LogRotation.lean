import Dlads.LineAssembly
import Dlads.StepMachine

/-!
# The tailer across rotation

Files are numbered and only grow; a path names at most one of them. The thread
of `LogTailer::run` opens, watches, reads and closes in single steps, between
which the file system may change, and learns of a rotation from a queue of
events that does not say which open file an event is about. Every byte that is
read remembers the file and offset it was read at. What has been delivered is,
in every state of every run, the lines of the stretches that were read between
an open and a close.
-/

namespace Dlads.LogRotation

open ByteText StepMachine LineSplitting LineAssembly

/-- A byte with the place it was read at. -/
structure ReadByte where
  /-- The file. -/
  inode : ℕ
  /-- The offset in it. -/
  offset : ℕ
  /-- The byte. -/
  value : UInt8
  deriving DecidableEq

/-- The byte is a newline. -/
def ReadByte.isNewline (b : ReadByte) : Bool := LineAssembly.isNewline b.value

/-- Where a byte was read. -/
def ReadByte.place (b : ReadByte) : ℕ × ℕ := (b.inode, b.offset)

/-- The bytes of a file with their places. -/
def numbered (inode : ℕ) (contents : Bytes) : List ReadByte :=
  contents.zipIdx.map fun p => ⟨inode, p.2, p.1⟩

/-- An open file: what was read of it since it was opened. -/
structure Session where
  /-- The file behind the descriptor. -/
  inode : ℕ
  /-- The offset after the open. -/
  start : ℕ
  /-- The offset now. -/
  upTo : ℕ
  deriving DecidableEq

/-- The bytes read since the file was opened. -/
def Session.span (contents : ℕ → Bytes) (f : Session) : List ReadByte :=
  ((numbered f.inode (contents f.inode)).take f.upTo).drop f.start

/-- The lines among them. -/
def Session.lines (contents : ℕ → Bytes) (f : Session) : List (List ReadByte) :=
  terminated ReadByte.isNewline (f.span contents)

/-- The masks that are watched for, and that of a watch taken away. -/
inductive Event
  /-- `IN_MODIFY`. -/
  | modify
  /-- `IN_MOVE_SELF`. -/
  | moveSelf
  /-- `IN_DELETE_SELF`. -/
  | deleteSelf
  /-- `IN_IGNORED`. -/
  | ignored
  deriving DecidableEq

/-- The event makes the loop drain the file. -/
def Event.drains : Event → Bool
  | .ignored => false
  | _ => true

/-- The event makes the loop treat the file as rotated. -/
def Event.rotates : Event → Bool
  | .moveSelf | .deleteSelf => true
  | _ => false

/-- Where the thread is. -/
inductive Phase
  /-- `file_fd == -1`, before `open`. -/
  | attaching
  /-- Before `inotify_add_watch`. -/
  | opened
  /-- Before `poll`. -/
  | polling
  /-- Before the next event of a batch, with `rotated`. -/
  | handling (events : List Event) (rotated : Bool)
  /-- In `drain`, with the events behind and `rotated` after it. -/
  | draining (events : List Event) (rotated : Bool)
  /-- Before `inotify_rm_watch`. -/
  | removing
  /-- Before `close`. -/
  | closing
  deriving DecidableEq

/-- File system, event queue and thread. -/
structure World where
  /-- The bytes of each file. -/
  contents : ℕ → Bytes
  /-- The file that the path names. -/
  path : Option ℕ
  /-- The number of the next file to be created. -/
  next : ℕ
  /-- The watch and the file it is on. -/
  watch : Option (ℕ × ℕ)
  /-- The number of the next watch. -/
  nextWatch : ℕ
  /-- Events not read yet, with their watches. -/
  queue : List (ℕ × Event)
  /-- Where the thread is. -/
  phase : Phase
  /-- The file behind `file_fd`. -/
  file : Option Session
  /-- `partial_`. -/
  pending : List ReadByte
  /-- The lines passed to the callback. -/
  delivered : List (List ReadByte)
  /-- The files closed so far, with what was read of them. -/
  closed : List Session

/-- The file system after the first attach. -/
structure Start where
  /-- The bytes of each file. -/
  contents : ℕ → Bytes
  /-- The number of the next file to be created. -/
  next : ℕ
  /-- Files not created yet are empty. -/
  unused : ∀ i, next ≤ i → contents i = []
  /-- The file that was opened. -/
  first : ℕ
  /-- Its size when the thread sought to its end. -/
  offset : ℕ
  /-- It has not shrunk since. -/
  offset_le : offset ≤ (contents first).length
  /-- The file that the path named when the watch was added. -/
  watched : ℕ

/-- The thread before its first pass of the loop. -/
def Start.world (start : Start) : World where
  contents := start.contents
  path := some start.watched
  next := start.next
  watch := some (1, start.watched)
  nextWatch := 2
  queue := []
  phase := .polling
  file := some ⟨start.first, start.offset, start.offset⟩
  pending := []
  delivered := []
  closed := []

/-- What happens next. -/
inductive Action
  /-- A writer appends to a file. -/
  | append (inode : ℕ) (bytes : Bytes)
  /-- The file at the path is renamed away. -/
  | moveAway
  /-- A file is renamed to the path. -/
  | moveBack (inode : ℕ)
  /-- A fresh file is created at the path. -/
  | create
  /-- The last reference to a file is gone. -/
  | delete (inode : ℕ)
  /-- The thread takes a step. -/
  | tail

/-- How many events one `read` into a buffer of `INOTIFY_BUF` bytes returns. -/
def eventsPerRead : ℕ := 256

namespace World

variable (s : World)

/-- The files opened so far: those closed, and the open one. -/
def sessions : List Session := s.closed ++ s.file.toList

/-- Queue an event of a file if it is watched. -/
def notify (inode : ℕ) (event : Event) : World :=
  match s.watch with
  | some (wd, watched) =>
    if watched = inode then { s with queue := s.queue ++ [(wd, event)] } else s
  | none => s

/-- Take the watch away, as its file or `inotify_rm_watch` does. -/
def unwatch : World :=
  match s.watch with
  | some (wd, _) => { s with watch := none, queue := s.queue ++ [(wd, .ignored)] }
  | none => s

/-- `close(file_fd)`. -/
def close : World := { s with closed := s.sessions, file := none, phase := .attaching }

/-- `read(file_fd, buf, sizeof(buf))`: nothing at the end of the file. -/
def read : List ReadByte :=
  match s.file with
  | some f => ((numbered f.inode (s.contents f.inode)).drop f.upTo).take readBuf
  | none => []

/-- One pass of the loop in `drain`. -/
def drainChunk (events : List Event) (rotated : Bool) : World :=
  if s.read.isEmpty then { s with phase := .handling events rotated }
  else
    let assembled := assembleLines ReadByte.isNewline s.pending s.read
    { s with
      file := s.file.map fun f => { f with upTo := f.upTo + s.read.length }
      pending := assembled.2
      delivered := s.delivered ++ assembled.1 }

/-- A step of the thread. -/
def tail : World :=
  match s.phase with
  | .attaching =>
    match s.path with
    | none => s
    | some inode => { s with file := some ⟨inode, 0, 0⟩, phase := .opened }
  | .opened =>
    match s.path with
    | none => s.close
    | some inode =>
      { s with
        watch := some (s.nextWatch, inode)
        nextWatch := s.nextWatch + 1
        phase := .polling }
  | .polling =>
    if s.queue.isEmpty then s
    else
      { s with
        phase := .handling ((s.queue.take eventsPerRead).map Prod.snd) false
        queue := s.queue.drop eventsPerRead }
  | .handling [] rotated => { s with phase := if rotated then .removing else .polling }
  | .handling (event :: events) rotated =>
    if event.drains then { s with phase := .draining events (rotated || event.rotates) }
    else { s with phase := .handling events rotated }
  | .draining events rotated => s.drainChunk events rotated
  | .removing => { s.unwatch with phase := .closing }
  | .closing => { s.close with pending := [] }

/-- A step of anyone. An action that cannot be taken changes nothing. -/
def step : Action → World
  | .append inode bytes =>
    if inode < s.next ∧ bytes ≠ [] then
      { s with contents := Function.update s.contents inode (s.contents inode ++ bytes) }.notify
        inode .modify
    else s
  | .moveAway =>
    match s.path with
    | some inode => { s with path := none }.notify inode .moveSelf
    | none => s
  | .moveBack inode =>
    if inode < s.next ∧ s.path ≠ some inode then
      { s with path := some inode }.notify inode .moveSelf
    else s
  | .create =>
    if s.path = none then { s with path := some s.next, next := s.next + 1 } else s
  | .delete inode =>
    if s.path ≠ some inode ∧ (∀ f ∈ s.file, f.inode ≠ inode) then
      if s.watch.map Prod.snd = some inode then (s.notify inode .deleteSelf).unwatch else s
    else s
  | .tail => s.tail

@[simp] theorem notify_contents (inode : ℕ) (event : Event) :
    (s.notify inode event).contents = s.contents := by
  unfold notify
  split
  · split <;> rfl
  · rfl

@[simp] theorem unwatch_contents : s.unwatch.contents = s.contents := by
  unfold unwatch
  split <;> rfl

end World

/-- Writers, renames and the thread, in any order. -/
def machine : Machine World Action Unit where
  step := fun s action => (s.step action, ())

/-- The world before an action. -/
def stateAt (start : Start) (actions : ℕ → Action) (n : ℕ) : World :=
  machine.stateAt start.world actions n

section numbering

variable (inode : ℕ) (contents : Bytes)

theorem numbered_length : (numbered inode contents).length = contents.length := by
  rw [numbered, List.length_map, List.length_zipIdx]

theorem numbered_append (more : Bytes) :
    ∃ further, numbered inode (contents ++ more) = numbered inode contents ++ further := by
  simp only [numbered, List.zipIdx_append, List.map_append]
  exact ⟨_, rfl⟩

theorem numbered_values : (numbered inode contents).map ReadByte.value = contents := by
  rw [numbered, List.map_map]
  exact List.zipIdx_map_fst 0 contents

theorem numbered_places : (numbered inode contents).map ReadByte.place =
    (List.range' 0 contents.length).map (Prod.mk inode) := by
  rw [← List.zipIdx_map_snd 0 contents, numbered, List.map_map, List.map_map]
  rfl

/-- A byte stands where it says. -/
theorem numbered_getElem? (k : ℕ) : (numbered inode contents)[k]? =
    contents[k]?.map fun c => ⟨inode, k, c⟩ := by
  rw [numbered, List.getElem?_map, List.getElem?_zipIdx, Option.map_map, Nat.zero_add]
  rfl

end numbering

section spans

variable {contents : ℕ → Bytes} {f : Session}

/-- A stretch holds the bytes between its ends. -/
theorem mem_span {b : ReadByte} (h : b ∈ f.span contents) :
    b.inode = f.inode ∧ f.start ≤ b.offset ∧
      b.value ∈ ((contents f.inode).take f.upTo).drop f.start := by
  obtain ⟨k, hk⟩ := List.getElem?_of_mem h
  rw [Session.span, List.getElem?_drop, List.getElem?_take] at hk
  split_ifs at hk with hlt
  rw [numbered_getElem?, Option.map_eq_some_iff] at hk
  obtain ⟨c, hc, rfl⟩ := hk
  refine ⟨rfl, Nat.le_add_right _ _, List.mem_of_getElem? (i := k) ?_⟩
  rw [List.getElem?_drop, List.getElem?_take, if_pos hlt]
  exact hc

/-- What a file gains later is not in the stretch. -/
theorem span_of_prefix {grown : ℕ → Bytes} (hgrown : ∀ i, contents i <+: grown i)
    (hwithin : f.upTo ≤ (contents f.inode).length) : f.span grown = f.span contents := by
  obtain ⟨more, hmore⟩ := hgrown f.inode
  obtain ⟨further, hfurther⟩ := numbered_append f.inode (contents f.inode) more
  have hle : f.upTo ≤ (numbered f.inode (contents f.inode)).length := by
    rw [numbered_length]
    exact hwithin
  rw [Session.span, ← hmore, hfurther, List.take_append_of_le_length hle]
  rfl

/-- A chunk continues the stretch. -/
theorem span_read {n : ℕ} (hstart : f.start ≤ f.upTo)
    (hwithin : f.upTo ≤ (contents f.inode).length) :
    { f with upTo := f.upTo + n }.span contents =
      f.span contents ++ ((numbered f.inode (contents f.inode)).drop f.upTo).take n := by
  have hle : f.start ≤ ((numbered f.inode (contents f.inode)).take f.upTo).length := by
    rw [List.length_take, numbered_length]
    omega
  rw [Session.span, Session.span, List.take_add, List.drop_append_of_le_length hle]

end spans

section accounts

variable {s : World}

/-- What has been delivered and kept is what the stretches read so far make. -/
structure Accounted (s : World) : Prop where
  /-- The lines are those of the stretches. -/
  delivered : s.delivered = s.sessions.flatMap (Session.lines s.contents)
  /-- The kept bytes are the rest of the stretch that is being read. -/
  pending : s.pending =
    (s.file.map fun f => remainder ReadByte.isNewline (f.span s.contents)).getD []
  /-- The stretches lie in their files. -/
  within : ∀ f ∈ s.sessions, f.start ≤ f.upTo ∧ f.upTo ≤ (s.contents f.inode).length
  /-- No file is open while the thread is about to open one. -/
  detached : s.phase = .attaching → s.file = none
  /-- Nothing is read before the watch is added. -/
  unread : s.phase = .opened → ∀ f ∈ s.file, f.upTo = f.start

/-- Everything but the thread has changed: files have grown, and it has another
path, watch and queue. -/
structure Elsewhere (s t : World) : Prop where
  grown : ∀ i, s.contents i <+: t.contents i
  phase : t.phase = s.phase
  file : t.file = s.file
  pending : t.pending = s.pending
  delivered : t.delivered = s.delivered
  closed : t.closed = s.closed

theorem Elsewhere.notify {t : World} (h : Elsewhere s t) (inode : ℕ) (event : Event) :
    Elsewhere s (t.notify inode event) := by
  unfold World.notify
  split
  · split <;> exact ⟨h.grown, h.phase, h.file, h.pending, h.delivered, h.closed⟩
  · exact h

theorem Elsewhere.unwatch {t : World} (h : Elsewhere s t) : Elsewhere s t.unwatch := by
  unfold World.unwatch
  split <;> exact ⟨h.grown, h.phase, h.file, h.pending, h.delivered, h.closed⟩

/-- Only the thread changes what it holds. -/
theorem elsewhere_step {action : Action} (ha : action ≠ .tail) : Elsewhere s (s.step action) := by
  have hsame : Elsewhere s s := ⟨fun i => List.prefix_rfl, rfl, rfl, rfl, rfl, rfl⟩
  cases action with
  | append inode bytes =>
    simp only [World.step]
    split
    · apply Elsewhere.notify
      refine ⟨fun i => ?_, rfl, rfl, rfl, rfl, rfl⟩
      by_cases hi : i = inode
      · subst hi
        simp
      · simp [hi]
    · exact hsame
  | moveAway =>
    simp only [World.step]
    split
    · apply Elsewhere.notify
      exact ⟨hsame.grown, rfl, rfl, rfl, rfl, rfl⟩
    · exact hsame
  | moveBack inode =>
    simp only [World.step]
    split
    · apply Elsewhere.notify
      exact ⟨hsame.grown, rfl, rfl, rfl, rfl, rfl⟩
    · exact hsame
  | create =>
    simp only [World.step]
    split
    · exact ⟨hsame.grown, rfl, rfl, rfl, rfl, rfl⟩
    · exact hsame
  | delete inode =>
    simp only [World.step]
    split
    · split
      · exact (hsame.notify inode .deleteSelf).unwatch
      · exact hsame
    · exact hsame
  | tail => exact absurd rfl ha

/-- The thread's account is not touched by what happens elsewhere. -/
theorem Accounted.elsewhere {t : World} (h : Accounted s) (he : Elsewhere s t) : Accounted t := by
  have hsessions : t.sessions = s.sessions := by
    rw [World.sessions, World.sessions, he.closed, he.file]
  have hspan : ∀ f ∈ s.sessions, f.span t.contents = f.span s.contents :=
    fun f hf => span_of_prefix he.grown (h.within f hf).2
  refine ⟨?_, ?_, fun f hf => ?_, fun hp => ?_, fun hp => ?_⟩
  · rw [he.delivered, h.delivered, hsessions]
    refine List.flatMap_congr fun f hf => ?_
    rw [Session.lines, Session.lines, hspan f hf]
  · rw [he.pending, h.pending, he.file]
    cases hfile : s.file with
    | none => rfl
    | some f =>
      have hmem : f ∈ s.sessions := by simp [World.sessions, hfile]
      simp only [Option.map_some, Option.getD_some]
      rw [hspan f hmem]
  · rw [hsessions] at hf
    obtain ⟨hstart, hle⟩ := h.within f hf
    exact ⟨hstart, hle.trans (he.grown f.inode).length_le⟩
  · rw [he.file]
    exact h.detached (he.phase ▸ hp)
  · rw [he.file]
    exact h.unread (he.phase ▸ hp)

/-- A step that reads nothing keeps the account if it keeps the list of files
opened. -/
theorem Accounted.moved {t : World} (h : Accounted s) (hcontents : t.contents = s.contents)
    (hdelivered : t.delivered = s.delivered) (hsessions : t.sessions = s.sessions)
    (hpending : t.pending = s.pending) (hfile : t.file = s.file) (ha : t.phase ≠ .attaching)
    (ho : t.phase ≠ .opened) : Accounted t where
  delivered := by rw [hdelivered, hsessions, hcontents, h.delivered]
  pending := by rw [hpending, hfile, hcontents, h.pending]
  within := by
    rw [hsessions, hcontents]
    exact h.within
  detached := fun hp => absurd hp ha
  unread := fun hp => absurd hp ho

/-- A chunk continues the lines and what is kept of the open file. -/
theorem Accounted.drainChunk (h : Accounted s) {events : List Event} {rotated : Bool}
    (hp : s.phase = .draining events rotated) : Accounted (s.drainChunk events rotated) := by
  unfold World.drainChunk
  split
  · exact h.moved rfl rfl rfl rfl rfl (by simp) (by simp)
  · next hread =>
    cases hfile : s.file with
    | none => simp [World.read, hfile] at hread
    | some f =>
      have hmem : f ∈ s.sessions := by simp [World.sessions, hfile]
      obtain ⟨hstart, hle⟩ := h.within f hmem
      have hchunk : s.read =
          ((numbered f.inode (s.contents f.inode)).drop f.upTo).take s.read.length := by
        rw [World.read, hfile]
        simp only [List.length_take]
        exact List.take_eq_take_min
      have hspan : { f with upTo := f.upTo + s.read.length }.span s.contents =
          f.span s.contents ++ s.read := by
        rw [span_read hstart hle, ← hchunk]
      have hpending : s.pending = remainder ReadByte.isNewline (f.span s.contents) := by
        rw [h.pending, hfile]
        rfl
      have hplain : ∀ b ∈ s.pending, ReadByte.isNewline b = false := by
        rw [hpending]
        exact (terminated_no_sep ReadByte.isNewline _).2
      obtain ⟨hlines, hrest⟩ := terminated_append ReadByte.isNewline (f.span s.contents) s.read
      have hfits : f.upTo + s.read.length ≤ (s.contents f.inode).length := by
        have hlen := congrArg List.length hchunk
        rw [List.length_take, List.length_drop, numbered_length] at hlen
        omega
      rw [assembleLines_eq ReadByte.isNewline _ _ hplain, hpending]
      constructor
      · have hold := h.delivered
        rw [World.sessions, hfile, Option.toList_some, List.flatMap_append,
          List.flatMap_singleton] at hold
        change s.delivered ++ _ = (s.closed ++ [{ f with upTo := f.upTo + s.read.length }]).flatMap
          (Session.lines s.contents)
        rw [List.flatMap_append, List.flatMap_singleton, hold, Session.lines, Session.lines, hspan,
          hlines, List.append_assoc]
      · simp only [Option.map_some, Option.getD_some]
        rw [hspan, hrest]
      · intro g hg
        rcases List.mem_append.mp hg with hg | hg
        · exact h.within g (List.mem_append_left _ hg)
        · simp only [Option.map_some, Option.toList_some, List.mem_singleton] at hg
          rw [hg]
          exact ⟨by simp only; omega, hfits⟩
      · exact fun ha => by simp [hp] at ha
      · exact fun ho => by simp [hp] at ho

/-- A stretch of no bytes. -/
theorem span_nil {contents : ℕ → Bytes} {f : Session} (h : f.upTo ≤ f.start) :
    f.span contents = [] := by
  refine List.drop_eq_nil_of_le ?_
  rw [List.length_take]
  omega

/-- An open starts a stretch of its own. -/
theorem Accounted.attach (h : Accounted s) (hp : s.phase = .attaching) (inode : ℕ) :
    Accounted { s with file := some ⟨inode, 0, 0⟩, phase := .opened } := by
  have hfile := h.detached hp
  have hempty : Session.span s.contents ⟨inode, 0, 0⟩ = [] := span_nil (Nat.le_refl 0)
  obtain ⟨hnone, hrest⟩ := terminated_plain (List.forall_mem_nil (ReadByte.isNewline · = false))
  have hsessions : s.sessions = s.closed := by rw [World.sessions, hfile]; simp
  constructor
  · change s.delivered = (s.closed ++ [Session.mk inode 0 0]).flatMap (Session.lines s.contents)
    rw [List.flatMap_append, List.flatMap_singleton, Session.lines, hempty, hnone,
      List.append_nil, ← hsessions]
    exact h.delivered
  · change s.pending = remainder ReadByte.isNewline (Session.span s.contents ⟨inode, 0, 0⟩)
    rw [hempty, hrest, h.pending, hfile]
    rfl
  · intro g hg
    rcases List.mem_append.mp hg with hg | hg
    · exact h.within g (hsessions ▸ hg)
    · have hg : g = ⟨inode, 0, 0⟩ := by simpa using hg
      rw [hg]
      exact ⟨Nat.le_refl 0, Nat.zero_le _⟩
  · exact fun ha => by cases ha
  · intro _ f hf
    have hf : f = ⟨inode, 0, 0⟩ := by simpa using hf.symm
    rw [hf]

/-- A close ends the stretch; what was kept of it is dropped. -/
theorem Accounted.close (h : Accounted s) : Accounted { s.close with pending := [] } where
  delivered := by
    have hsessions : { s.close with pending := [] }.sessions = s.sessions := List.append_nil _
    rw [hsessions]
    exact h.delivered
  pending := rfl
  within := by
    intro f hf
    exact h.within f (by simpa [World.sessions, World.close] using hf)
  detached := fun _ => rfl
  unread := fun hp => by cases hp

/-- Every step of the thread keeps the account. -/
theorem Accounted.tail (h : Accounted s) : Accounted s.tail := by
  cases hp : s.phase with
  | attaching =>
    cases hpath : s.path with
    | none =>
      simp only [World.tail, hp, hpath]
      exact h
    | some inode =>
      simpa only [World.tail, hp, hpath] using h.attach hp inode
  | opened =>
    cases hpath : s.path with
    | none =>
      have hnone : s.pending = [] := by
        rw [h.pending]
        cases hfile : s.file with
        | none => rfl
        | some f =>
          have hsame := h.unread hp f hfile
          simp only [Option.map_some, Option.getD_some]
          rw [span_nil (Nat.le_of_eq hsame)]
          exact (terminated_plain (List.forall_mem_nil _)).2
      simp only [World.tail, hp, hpath]
      have hclose := h.close
      rw [← hnone] at hclose
      exact hclose
    | some inode =>
      simp only [World.tail, hp, hpath]
      exact h.moved rfl rfl rfl rfl rfl (by simp) (by simp)
  | polling =>
    simp only [World.tail, hp]
    split
    · exact h
    · exact h.moved rfl rfl rfl rfl rfl (by simp) (by simp)
  | handling events rotated =>
    cases events with
    | nil =>
      simp only [World.tail, hp]
      refine h.moved rfl rfl rfl rfl rfl ?_ ?_ <;> split <;> simp
    | cons event events =>
      simp only [World.tail, hp]
      split <;> exact h.moved rfl rfl rfl rfl rfl (by simp) (by simp)
  | draining events rotated =>
    simp only [World.tail, hp]
    exact h.drainChunk hp
  | removing =>
    have he : Elsewhere s s.unwatch :=
      Elsewhere.unwatch ⟨fun i => List.prefix_rfl, rfl, rfl, rfl, rfl, rfl⟩
    simp only [World.tail, hp]
    exact (h.elsewhere he).moved rfl rfl rfl rfl rfl (by simp) (by simp)
  | closing =>
    simp only [World.tail, hp]
    exact h.close

/-- What has been delivered is accounted for in every state of every run. -/
theorem accounted_stateAt (start : Start) (actions : ℕ → Action) (n : ℕ) :
    Accounted (stateAt start actions n) := by
  refine Machine.invariant_of_step ?_ (fun s action h => ?_) n
  · have hempty : Session.span start.contents ⟨start.first, start.offset, start.offset⟩ = [] :=
      span_nil (Nat.le_refl _)
    obtain ⟨hnone, hrest⟩ := terminated_plain (List.forall_mem_nil (ReadByte.isNewline · = false))
    constructor
    · change [] = [Session.mk start.first start.offset start.offset].flatMap _
      rw [List.flatMap_singleton, Session.lines, Start.world, hempty, hnone]
    · change [] = remainder ReadByte.isNewline (Session.span start.contents _)
      rw [hempty, hrest]
    · intro f hf
      have hf : f = ⟨start.first, start.offset, start.offset⟩ := by
        simpa [World.sessions, Start.world] using hf
      rw [hf]
      exact ⟨Nat.le_refl _, start.offset_le⟩
    · exact fun hp => by cases hp
    · exact fun hp => by cases hp
  · change Accounted (s.step action)
    by_cases ha : action = .tail
    · rw [ha]
      exact h.tail
    · exact h.elsewhere (elsewhere_step ha)

end accounts

end Dlads.LogRotation
