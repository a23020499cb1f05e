import Dlads.EveTailing
import Dlads.JsonReading

/-!
# Exceptions out of an event line

`SuricataAdapter::parse_eve_line` has a try block around the parse only. Each
later `get` throws when the value is of another type, and each but one stands
behind a test of this type: the event type is taken out of whatever member has
its name. A line whose event type is no string therefore ends the adapter's
thread, and every other line is converted or skipped.
-/

namespace Dlads.EveExceptions

open ByteText StringMaps FloatFormat Records JsonValue AlertWire EveLines EveTailing

/-- What the JSON library throws. -/
inductive Thrown
  /-- `type_error`. -/
  | typeError

/-- A result, or an exception in its place. -/
abbrev Throwing (α : Type) := Except Thrown α

/-- `get<std::string>()`. -/
def getString : Json → Throwing Bytes
  | .str value => pure value
  | _ => .error .typeError

/-- `get<int>()`. The library also converts truth values and floating-point
numbers; here it throws on them. -/
def getInt : Json → Throwing ℤ
  | .int n => pure (wrapInt32 n)
  | _ => .error .typeError

/-- `is_string()`. -/
def isString : Json → Bool
  | .str _ => true
  | _ => false

/-- `is_number_integer()`. -/
def isNumberInteger : Json → Bool
  | .int _ => true
  | _ => false

section lookups

variable {α : Type} (test : Json → Bool) (get : Json → Throwing α)

/-- A member that is looked up, tested for its type and then taken out. -/
def guardedMember (j : Json) (key : Bytes) : Throwing (Option α) :=
  match j.find key with
  | none => pure none
  | some member => if test member then some <$> get member else pure none

variable {test get}

/-- A look-up throws nothing if `get` throws nothing behind the test. -/
theorem guardedMember_eq {value : Json → Option α}
    (hget : ∀ member, (if test member then some <$> get member else pure none) =
      pure (value member)) (j : Json) (key : Bytes) :
    guardedMember test get j key = pure ((j.find key).bind value) := by
  unfold guardedMember
  cases j.find key with
  | none => rfl
  | some member => exact hget member

end lookups

/-- A member that `is_string()`. -/
def stringMember : Json → Bytes → Throwing (Option Bytes) := guardedMember isString getString

/-- A member that `is_number_integer()`, as an `int`. -/
def intMember : Json → Bytes → Throwing (Option ℤ) := guardedMember isNumberInteger getInt

/-- The time of the event, or of the conversion when it cannot be read. -/
def eveTimestamp (host : EveHost) (now : ℤ) (j : Json) : Throwing ℤ := do
  match ← stringMember j (text "timestamp") with
  | none => return now
  | some ts =>
    match host.utcSeconds (cStr ts) with
    | some t => return timePoint t
    | none => return now

/-- `get_str_field(key)`. -/
def strField (j : Json) (key : Bytes) : Throwing Bytes := do
  return (← stringMember j key).getD []

/-- `get_int_field(key)`. -/
def intField (j : Json) (key : Bytes) : Throwing Bytes := do
  match ← intMember j key with
  | some n => return dec n
  | none => return []

/-- The metadata of the alert. -/
def eveMetadata (j signature : Json) : Throwing (StringMap Bytes) := do
  let m := match ← stringMember signature (text "category") with
    | some category => assign ∅ (text "category") category
    | none => ∅
  let m := putField m (text "src_ip") (← strField j (text "src_ip"))
  let m := putField m (text "dest_ip") (← strField j (text "dest_ip"))
  let m := putField m (text "src_port") (← intField j (text "src_port"))
  let m := putField m (text "dest_port") (← intField j (text "dest_port"))
  let m := putField m (text "proto") (← strField j (text "proto"))
  return assign m (text "ids_source") (text "suricata")

/-- The alert of an event and its `alert` object. -/
def eveAlert (host : EveHost) (now : ℤ) (j signature : Json) (id : Bytes) :
    Throwing AlertEvent := do
  let timestamp ← eveTimestamp host now j
  let severity := (← intMember signature (text "severity")).getD 3
  let ruleId := match ← intMember signature (text "signature_id") with
    | some sid => text "suricata-" ++ dec sid
    | none => text "suricata-unknown"
  let description := (← stringMember signature (text "signature")).getD []
  let metadata ← eveMetadata j signature
  return {
    alertId := id
    timestamp := timestamp
    sourceHost := host.sourceHost
    ruleId := ruleId
    severity := mapSeverity severity
    anomalyScore := eveScore severity
    description := description
    metadata := metadata }

/-- `parse_eve_line`: the alert where it returns true, and the id counter. The
parse is inside the try block, nothing else is. -/
def parseEveLine (host : EveHost) (now : ℤ) (counter : UInt64) (line : Bytes) :
    Throwing (Option AlertEvent × UInt64) :=
  match host.parse line with
  | none => pure (none, counter)
  | some j =>
    match j.find (text "event_type") with
    | none => pure (none, counter)
    | some eventType => do
      if (← getString eventType) ≠ text "alert" then return (none, counter)
      match j.find (text "alert") with
      | none => return (none, counter)
      | some signature =>
        if !signature.isObject then return (none, counter)
        let alert ← eveAlert host now j signature (nextId counter).1
        return (some alert, (nextId counter).2)

/-- A line is an event that is an alert: a JSON object with the event type
`alert` and an object under `alert`. -/
def IsAlertLine (host : EveHost) (line : Bytes) : Prop :=
  ∃ members signature, host.parse line = some (.obj members) ∧
    (Json.obj members).find (text "event_type") = some (.str (text "alert")) ∧
    (Json.obj members).find (text "alert") = some (.obj signature)

/-- Nothing is thrown on a line, and true is returned exactly for an alert. -/
def Handled (host : EveHost) (now : ℤ) (counter : UInt64) (line : Bytes) : Prop :=
  ∃ alert next, parseEveLine host now counter line = .ok (alert, next) ∧
    (alert.isSome ↔ IsAlertLine host line)

/-- A line is JSON whose event type is there and no string. -/
def MistypedEvent (host : EveHost) (line : Bytes) : Prop :=
  ∃ j eventType, host.parse line = some j ∧
    j.find (text "event_type") = some eventType ∧ ¬isString eventType

theorem stringMember_eq (j : Json) (key : Bytes) : stringMember j key = pure (getStr j key) := by
  refine guardedMember_eq (fun member => ?_) j key
  cases member with
  | str value => rfl
  | _ => rfl

theorem intMember_eq (j : Json) (key : Bytes) : intMember j key = pure (intOf (j.find key)) := by
  have hmember : intMember j key = pure ((j.find key).bind fun member => intOf (some member)) := by
    refine guardedMember_eq (fun member => ?_) j key
    cases member with
    | int n => rfl
    | _ => rfl
  rw [hmember]
  cases j.find key with
  | none => rfl
  | some member => rfl

theorem strField_eq (j : Json) (key : Bytes) : strField j key = pure (EveLines.strField j key) := by
  rw [strField, stringMember_eq, pure_bind]
  rfl

theorem intField_eq (j : Json) (key : Bytes) : intField j key = pure (EveLines.intField j key) := by
  rw [intField, intMember_eq, pure_bind, EveLines.intField]
  cases intOf (j.find key) with
  | none => rfl
  | some n => rfl

theorem eveTimestamp_eq (host : EveHost) (now : ℤ) (j : Json) :
    eveTimestamp host now j = pure (EveLines.eveTimestamp host now j) := by
  rw [eveTimestamp, stringMember_eq, pure_bind, EveLines.eveTimestamp]
  cases getStr j (text "timestamp") with
  | none => rfl
  | some ts =>
    dsimp only
    cases host.utcSeconds (cStr ts) with
    | none => rfl
    | some t => rfl

theorem eveMetadata_eq (j signature : Json) :
    eveMetadata j signature = pure (EveLines.eveMetadata j signature) := by
  simp only [eveMetadata, stringMember_eq, strField_eq, intField_eq, pure_bind]
  rfl

/-- Every look-up behind the two objects is tested. -/
theorem eveAlert_eq (host : EveHost) (now : ℤ) (j signature : Json) (id : Bytes) :
    eveAlert host now j signature id = pure (EveLines.eveAlert host now j signature id) := by
  simp only [eveAlert, eveTimestamp_eq, intMember_eq, stringMember_eq, eveMetadata_eq, pure_bind]
  rfl

/-- What a line throws or returns is what becomes of it. -/
theorem parseEveLine_eq (host : EveHost) (now : ℤ) (counter : UInt64) (line : Bytes) :
    parseEveLine host now counter line =
      match EveLines.parseEveLine host now counter line with
      | (.skipped, next) => .ok (none, next)
      | (.thrown, _) => .error .typeError
      | (.converted alert, next) => .ok (some alert, next) := by
  unfold parseEveLine EveLines.parseEveLine
  cases host.parse line with
  | none => rfl
  | some j =>
    dsimp only
    cases j.find (text "event_type") with
    | none => rfl
    | some eventType =>
      cases eventType with
      | str kind =>
        simp only [getString, Json.str?, pure_bind]
        split
        · rfl
        · cases j.find (text "alert") with
          | none => rfl
          | some signature =>
            dsimp only
            split
            · rfl
            · rw [eveAlert_eq]
              rfl
      | _ => rfl

section lines

variable {host : EveHost} {line : Bytes} {j : Json}

theorem isString_of_str? {eventType : Json} (h : eventType.str? = none) : ¬isString eventType := by
  cases eventType with
  | str value => cases h
  | _ => exact Bool.false_ne_true

/-- The members that make a line an alert. -/
theorem isAlertLine_iff (hparse : host.parse line = some j) : IsAlertLine host line ↔
    j.find (text "event_type") = some (.str (text "alert")) ∧
      ∃ signature, j.find (text "alert") = some signature ∧ signature.isObject = true := by
  constructor
  · rintro ⟨members, signature, hline, htype, halert⟩
    obtain rfl : j = .obj members := Option.some.inj (hparse.symm.trans hline)
    exact ⟨htype, _, halert, rfl⟩
  · rintro ⟨htype, signature, halert, hobject⟩
    cases j with
    | obj members =>
      cases signature with
      | obj inner => exact ⟨members, inner, hparse, htype, halert⟩
      | _ => cases hobject
    | _ => cases htype

/-- A line that is JSON is mistyped when no string stands under its event type. -/
theorem mistyped_iff (hparse : host.parse line = some j) : MistypedEvent host line ↔
    ∃ eventType, j.find (text "event_type") = some eventType ∧ eventType.str? = none := by
  constructor
  · rintro ⟨j', eventType, hparse', htype, hstring⟩
    obtain rfl : j = j' := Option.some.inj (hparse.symm.trans hparse')
    refine ⟨eventType, htype, ?_⟩
    cases eventType with
    | str value => exact absurd rfl hstring
    | _ => rfl
  · rintro ⟨eventType, htype, hnone⟩
    exact ⟨j, eventType, hparse, htype, isString_of_str? hnone⟩

/-- A line that is no JSON is neither mistyped nor an alert. -/
theorem not_event (hparse : host.parse line = none) :
    ¬MistypedEvent host line ∧ ¬IsAlertLine host line := by
  constructor
  · rintro ⟨j, eventType, hline, -⟩
    cases hparse.symm.trans hline
  · rintro ⟨members, signature, hline, -⟩
    cases hparse.symm.trans hline

/-- The three things that become of a line. -/
theorem parseEveLine_cases (host : EveHost) (now : ℤ) (counter : UInt64) (line : Bytes) :
    (EveLines.parseEveLine host now counter line = (.skipped, counter) ∧
      ¬MistypedEvent host line ∧ ¬IsAlertLine host line) ∨
    (EveLines.parseEveLine host now counter line = (.thrown, counter) ∧
      MistypedEvent host line) ∨
    (∃ alert, EveLines.parseEveLine host now counter line =
        (.converted alert, (nextId counter).2) ∧
      ¬MistypedEvent host line ∧ IsAlertLine host line) := by
  unfold EveLines.parseEveLine
  cases hparse : host.parse line with
  | none => exact .inl ⟨rfl, not_event hparse⟩
  | some j =>
    rw [mistyped_iff hparse, isAlertLine_iff hparse]
    dsimp only
    cases j.find (text "event_type") with
    | none => exact .inl ⟨rfl, by simp, by simp⟩
    | some eventType =>
      dsimp only
      cases hkind : eventType.str? with
      | none => exact .inr (.inl ⟨rfl, eventType, rfl, hkind⟩)
      | some kind =>
        have hfine : ¬∃ found, some eventType = some found ∧ found.str? = none := by simp [hkind]
        obtain rfl := str?_eq_some hkind
        dsimp only
        by_cases hother : kind ≠ text "alert"
        · exact .inl ⟨if_pos hother, hfine, by simp [hother]⟩
        · obtain rfl := not_not.mp hother
          rw [if_neg hother]
          cases j.find (text "alert") with
          | none => exact .inl ⟨rfl, hfine, by simp⟩
          | some signature =>
            dsimp only
            cases hobject : signature.isObject with
            | false => exact .inl ⟨rfl, hfine, by simp [hobject]⟩
            | true => exact .inr (.inr ⟨_, rfl, hfine, rfl, signature, rfl, hobject⟩)

end lines

/-- A line is handled exactly when it is not mistyped. -/
theorem handled_iff (host : EveHost) (now : ℤ) (counter : UInt64) (line : Bytes) :
    Handled host now counter line ↔ ¬MistypedEvent host line := by
  have hline := parseEveLine_eq host now counter line
  unfold Handled
  rcases parseEveLine_cases host now counter line with
    ⟨heve, hfine, hother⟩ | ⟨heve, hmistyped⟩ | ⟨alert, heve, hfine, halert⟩
  · rw [heve] at hline
    exact iff_of_true ⟨none, counter, hline, iff_of_false Bool.false_ne_true hother⟩ hfine
  · rw [heve] at hline
    refine iff_of_false ?_ (not_not_intro hmistyped)
    rintro ⟨alert, next, hok, -⟩
    cases hline.symm.trans hok
  · rw [heve] at hline
    exact iff_of_true ⟨some alert, _, hline, iff_of_true rfl halert⟩ hfine

/-- A host that parses JSON. -/
def readingHost : EveHost := ⟨JsonReading.readJson, fun _ => none, text "node-1"⟩

/-- An event whose type is a number. -/
def numericEvent : Bytes := text "\x7b\"event_type\":1\x7d"

/-- The event is no alert and is thrown on all the same. -/
theorem numericEvent_throws :
    (parseEveLine readingHost 0 firstId numericEvent).isOk = false ∧
      ¬Handled readingHost 0 firstId numericEvent := by
  have hthrow : (parseEveLine readingHost 0 firstId numericEvent).isOk = false := by
    decide +kernel
  refine ⟨hthrow, ?_⟩
  rintro ⟨alert, next, hok, -⟩
  rw [hok] at hthrow
  cases hthrow

end Dlads.EveExceptions
