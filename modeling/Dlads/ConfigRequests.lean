import Dlads.JsonReading
import Dlads.SwapRollback
import Dlads.TextSearch

/-!
# Requests that arrive in segments

The agent's HTTP loop answers whatever its one call of `recv` returns, which
is the first segment of the request. It finds the mode in the segment exactly
as in the whole request if the segment reaches the closing quote of the mode;
otherwise it finds none.
-/

namespace Dlads.ConfigRequests

open ByteText TextSearch JsonValue JsonReading IdsSwap SwapRollback

/-- What one `recv` into the buffer returns: the first segment, up to the size
of the buffer. -/
def recv (segments : List Bytes) : Bytes := (segments.headD []).take 4095

/-- The answers of the loop; the text of `/status` is left out. -/
inductive Answer
  /-- To a CORS preflight. -/
  | preflight
  /-- To `POST /config`. -/
  | config (statusCode : ℕ) (body : Bytes)
  /-- To anything else. -/
  | status
  deriving DecidableEq

/-- One turn of `status_server_loop` on what `recv` returned. -/
def serve (s : IdsState) (request : Bytes) (env : SwapEnv) : IdsState × Answer :=
  if (text "OPTIONS").isPrefixOf request then (s, .preflight)
  else if (text "POST /config").isPrefixOf request then
    let posted := postConfig s request env
    (posted.1, .config posted.2.1 posted.2.2)
  else (s, .status)

/-- The mode that a turn extracts; empty if there is none. -/
def extracted (request : Bytes) : Bytes :=
  if (text "OPTIONS").isPrefixOf request then []
  else if (text "POST /config").isPrefixOf request then newMode request
  else []

/-- The turn on the first segment extracts the mode, and makes the swap, of the
turn on the whole request. -/
structure Understood (segments : List Bytes) : Prop where
  /-- The same mode. -/
  mode : extracted (recv segments) = extracted (recv [segments.flatten])
  /-- The same swap. -/
  swap : ∀ s env, (serve s (recv segments) env).1 = (serve s (recv [segments.flatten]) env).1

/-- What stands before a mode: a blank line, the field, a colon, a quote. -/
def marks : List Bytes := [text "\x0d\n\x0d\n", text "\"ids_mode\"", text ":", text "\""]

/-- A text begins as `POST /config` and reaches the closing quote of a mode. -/
def Closed (s : Bytes) : Prop :=
  text "POST /config" <+: s ∧ ∃ value, behind marks s = some value ∧ 34 ∈ value

/-- A text begins as `POST /config` and holds a mode that is not empty. -/
def Names (s : Bytes) : Prop :=
  text "POST /config" <+: s ∧
    ∃ value, behind marks s = some value ∧ 34 ∈ value ∧ value.head? ≠ some 34

section extraction

variable {s t : Bytes}

/-- The mode in what follows the opening quote. -/
def quoted (value : Bytes) : Bytes := if 34 ∈ value then value.takeWhile (· != 34) else []

/-- A search for the closing quote cuts the mode off. -/
theorem take_quote (value : Bytes) : ((find (text "\"") value).map (value.take ·)).getD [] =
    quoted value := by
  have hquote : text "\"" = [34] := by decide
  rw [hquote, quoted]
  cases hfind : find [34] value with
  | none =>
    have hno : 34 ∉ value := by
      intro hmem
      obtain ⟨u, v, rfl⟩ := List.append_of_mem hmem
      exact (find_eq_none_iff [34] _).mp hfind ⟨u, v, by simp⟩
    rw [if_neg hno]
    rfl
  | some p =>
    have hmem : 34 ∈ value := by
      rw [eq_of_find hfind]
      simp
    rw [if_pos hmem, takeWhile_of_find hfind]
    rfl

/-- A colon is searched for behind the field, which holds none. -/
theorem after_colon_field {p : ℕ} {body : Bytes} (h : find (text "\"ids_mode\"") body = some p) :
    after (text ":") (body.drop p) =
      after (text ":") (body.drop (p + (text "\"ids_mode\"").length)) := by
  have hle : p ≤ body.length := by
    have hlen := length_of_find h
    omega
  have hfield : body.drop p =
      text "\"ids_mode\"" ++ body.drop (p + (text "\"ids_mode\"").length) := by
    have hsplit := congrArg (List.drop p) (eq_of_find h)
    rwa [List.drop_left' (List.length_take_of_le hle)] at hsplit
  rw [hfield, after_append_of_apart (by decide)]

/-- The handler's chain of searches. -/
theorem newMode_eq (s : Bytes) : newMode s = ((behind marks s).map quoted).getD [] := by
  unfold newMode
  dsimp only [marks, behind]
  cases hbody : after (text "\x0d\n\x0d\n") s with
  | none => rfl
  | some body =>
    rw [Option.getD_some, Option.bind_some]
    cases hfind : find (text "\"ids_mode\"") body with
    | none =>
      have hnone : after (text "\"ids_mode\"") body = none := by rw [after, hfind, Option.map_none]
      rw [hnone]
      rfl
    | some p =>
      have hsome : after (text "\"ids_mode\"") body =
          some (body.drop (p + (text "\"ids_mode\"").length)) := by
        rw [after, hfind, Option.map_some]
      rw [hsome, Option.map_some, Option.bind_some]
      dsimp only
      rw [after_colon_field hfind]
      cases hcolon : after (text ":") (body.drop (p + (text "\"ids_mode\"").length)) with
      | none => rfl
      | some gap =>
        rw [Option.bind_some, Option.bind_some]
        cases hopen : after (text "\"") gap with
        | none => rfl
        | some value => exact take_quote value

/-- What begins as a `POST` does not begin as a preflight. -/
theorem extracted_of_post (h : text "POST /config" <+: s) :
    extracted s = ((behind marks s).map quoted).getD [] := by
  have hoptions : (text "OPTIONS").isPrefixOf s = false := by
    obtain ⟨t, rfl⟩ := h
    rfl
  rw [extracted, hoptions, List.isPrefixOf_iff_prefix.mpr h, newMode_eq]
  rfl

theorem extracted_of_no_post (h : ¬text "POST /config" <+: s) : extracted s = [] := by
  rw [extracted, if_neg (mt List.isPrefixOf_iff_prefix.mp h)]
  split <;> rfl

theorem quoted_ne_nil_iff (value : Bytes) :
    quoted value ≠ [] ↔ 34 ∈ value ∧ value.head? ≠ some 34 := by
  unfold quoted
  by_cases hmem : 34 ∈ value
  · rw [if_pos hmem]
    cases value with
    | nil => cases hmem
    | cons c rest => by_cases hc : c = 34 <;> simp [hmem, hc]
  · rw [if_neg hmem]
    simp [hmem]

/-- A mode is extracted exactly from a text that names one. -/
theorem extracted_ne_nil_iff (s : Bytes) : extracted s ≠ [] ↔ Names s := by
  by_cases hpost : text "POST /config" <+: s
  · rw [extracted_of_post hpost, Names, and_iff_right hpost]
    cases behind marks s with
    | none => simp
    | some value => simp [quoted_ne_nil_iff]
  · rw [extracted_of_no_post hpost, Names]
    simp [hpost]

/-- A mode that is closed stays the mode when more text follows. -/
theorem extracted_append (h : Closed s) (t : Bytes) : extracted (s ++ t) = extracted s := by
  obtain ⟨hpost, value, hvalue, hquote⟩ := h
  have hmore : behind marks (s ++ t) = some (value ++ t) :=
    behind_append_of_some (by decide) hvalue t
  have hsame : quoted (value ++ t) = quoted value := by
    obtain ⟨u, v, rfl⟩ := List.append_of_mem hquote
    rw [quoted, quoted, if_pos (by simp), if_pos (by simp), List.append_assoc, List.cons_append,
      takeWhile_append_sep (by decide), takeWhile_append_sep (by decide)]
  rw [extracted_of_post hpost, extracted_of_post (hpost.trans (List.prefix_append s t)), hvalue,
    hmore, Option.map_some, Option.map_some, hsame]

/-- A named mode is closed. -/
theorem Names.closed (h : Names s) : Closed s := by
  obtain ⟨hpost, value, hvalue, hquote, -⟩ := h
  exact ⟨hpost, value, hvalue, hquote⟩

/-- A turn makes the swap to the mode it extracts; without one it makes none. -/
theorem serve_fst (s : IdsState) (request : Bytes) (env : SwapEnv) :
    (serve s request env).1 = (doIdsSwap s (extracted request) env).1 := by
  have hnone : (doIdsSwap s [] env).1 = s := by
    rw [doIdsSwap, if_pos (by decide)]
  unfold serve extracted
  split
  · exact hnone.symm
  · split
    · exact postConfig_fst request
    · exact hnone.symm

end extraction

/-- The loop understands a request in segments exactly if the first segment
reaches the closing quote of the mode, whenever the request names one. -/
theorem understood_iff {segments : List Bytes} (hfits : segments.flatten.length ≤ 4095) :
    Understood segments ↔ (Names segments.flatten → Closed (recv segments)) := by
  have hwhole : recv [segments.flatten] = segments.flatten := List.take_of_length_le hfits
  obtain ⟨rest, hrest⟩ : ∃ rest, segments.flatten = recv segments ++ rest := by
    cases segments with
    | nil => exact ⟨[], rfl⟩
    | cons first others =>
      refine ⟨first.drop 4095 ++ others.flatten, ?_⟩
      rw [List.flatten_cons, recv, List.headD_cons, ← List.append_assoc, List.take_append_drop]
  have hmode : extracted (recv segments) = extracted segments.flatten ↔
      (Names segments.flatten → Closed (recv segments)) := by
    constructor
    · intro h hnames
      rw [← extracted_ne_nil_iff, ← h, extracted_ne_nil_iff] at hnames
      exact hnames.closed
    · intro h
      by_cases hnames : Names segments.flatten
      · rw [hrest, extracted_append (h hnames)]
      · have hempty : extracted segments.flatten = [] :=
          not_not.mp (mt (extracted_ne_nil_iff _).mp hnames)
        -- a mode in the segment would be a mode in the request
        have hfirst : extracted (recv segments) = [] := by
          by_contra hne
          have hclosed := ((extracted_ne_nil_iff _).mp hne).closed
          rw [← extracted_append hclosed rest, ← hrest] at hne
          exact hne hempty
        rw [hfirst, hempty]
  constructor
  · intro h
    exact hmode.mp (h.mode.trans (congrArg extracted hwhole))
  · intro h
    have hsame := (hmode.mpr h).trans (congrArg extracted hwhole).symm
    exact ⟨hsame, fun s env => by rw [serve_fst, serve_fst, hsame]⟩

/-- Request line and headers of a swap to the adapter. -/
def swapHead : Bytes :=
  text "POST /config HTTP/1.1\x0d\nHost: agent-1:8081\x0d\nContent-Length: 23\x0d\n\x0d\n"

/-- Its body. -/
def swapBody : Bytes := text "\x7b\"ids_mode\":\"suricata\"\x7d"

/-- A segment that lacks the closing brace only is enough. -/
theorem understood_early : Understood [swapHead ++ swapBody.dropLast, [125]] :=
  (understood_iff (by decide)).mpr fun _ => ⟨by decide, swapBody.dropLast.drop 13, by decide⟩

/-- A request whose body comes in a segment of its own is refused. -/
theorem split_refused :
    readJson swapBody = some (.obj [(text "ids_mode", .str suricata)]) ∧
    extracted (recv [swapHead ++ swapBody]) = suricata ∧
    extracted (recv [swapHead, swapBody]) = [] ∧
    ¬Understood [swapHead, swapBody] := by
  have hwhole : extracted (recv [swapHead ++ swapBody]) = suricata := by decide +kernel
  have hfirst : extracted (recv [swapHead, swapBody]) = [] := by decide +kernel
  refine ⟨rfl, hwhole, hfirst, fun h => ?_⟩
  have hsame : extracted (recv [swapHead, swapBody]) = extracted (recv [swapHead ++ swapBody]) :=
    h.mode
  rw [hfirst, hwhole] at hsame
  exact absurd hsame (by decide)

end Dlads.ConfigRequests
