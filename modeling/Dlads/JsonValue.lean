import Mathlib.Data.Rat.Defs
import Dlads.Utf8Text

/-!
# JSON values

What a JSON library holds between parsing and printing. An object is the list
of its members in the order of an ordered map's keys; both integer kinds of
the library are one integer, and a floating-point number is the rational it
denotes. A printer that checks its texts looks at every string of a value,
member names included.
-/

namespace Dlads.JsonValue

open ByteText Utf8Text

/-- A JSON value. -/
inductive Json
  /-- The literal `null`. -/
  | null
  /-- A truth value. -/
  | bool (value : Bool)
  /-- An integer, signed or unsigned. -/
  | int (value : ℤ)
  /-- A floating-point number. -/
  | real (value : ℚ)
  /-- A string. -/
  | str (value : Bytes)
  /-- An array. -/
  | arr (items : List Json)
  /-- An object. -/
  | obj (members : List (Bytes × Json))

mutual

/-- The strings of a value, member names included. -/
def Json.strings : Json → List Bytes
  | .str value => [value]
  | .arr items => itemStrings items
  | .obj members => memberStrings members
  | _ => []

/-- The strings of the items of an array. -/
def itemStrings : List Json → List Bytes
  | [] => []
  | item :: rest => item.strings ++ itemStrings rest

/-- The strings of the members of an object. -/
def memberStrings : List (Bytes × Json) → List Bytes
  | [] => []
  | (name, value) :: rest => name :: (value.strings ++ memberStrings rest)

end

/-- Every string of a value is valid UTF-8. -/
def Json.AllUtf8 (j : Json) : Prop := ∀ s ∈ j.strings, IsUtf8 s

instance (j : Json) : Decidable j.AllUtf8 := List.decidableBAll _ _

mutual

/-- A value that an ordered map of a library holds: names in strict order, and
numbers of the kinds asked for. -/
def Formed (int : ℤ → Prop) (real : ℚ → Prop) : Json → Prop
  | .int n => int n
  | .real q => real q
  | .arr items => FormedItems int real items
  | .obj members => (members.map Prod.fst).Pairwise (· < ·) ∧ FormedMembers int real members
  | _ => True

/-- Each item of an array is formed. -/
def FormedItems (int : ℤ → Prop) (real : ℚ → Prop) : List Json → Prop
  | [] => True
  | item :: rest => Formed int real item ∧ FormedItems int real rest

/-- The value of each member of an object is formed. -/
def FormedMembers (int : ℤ → Prop) (real : ℚ → Prop) : List (Bytes × Json) → Prop
  | [] => True
  | member :: rest => Formed int real member.2 ∧ FormedMembers int real rest

end

/-- `find(name)` on a value: the member of an object, nothing elsewhere. -/
def Json.find (j : Json) (name : Bytes) : Option Json :=
  match j with
  | .obj members => (members.find? fun m => m.1 == name).map Prod.snd
  | _ => none

/-- The string a value holds. -/
def Json.str? : Json → Option Bytes
  | .str value => some value
  | _ => none

/-- A value is an object. -/
def Json.isObject : Json → Bool
  | .obj _ => true
  | _ => false

theorem itemStrings_map_str (texts : List Bytes) : itemStrings (texts.map .str) = texts := by
  induction texts with
  | nil => rw [List.map_nil, itemStrings]
  | cons t rest ih => rw [List.map_cons, itemStrings, Json.strings, ih, List.singleton_append]

/-- The strings of an object of strings are its names and texts. -/
theorem mem_memberStrings_map_str {keys : List Bytes} {value : Bytes → Bytes} {s : Bytes} :
    s ∈ memberStrings (keys.map fun k => (k, .str (value k))) ↔
      ∃ k ∈ keys, s = k ∨ s = value k := by
  induction keys with
  | nil => simp [memberStrings]
  | cons k rest ih =>
    simp only [List.map_cons, memberStrings, Json.strings, List.mem_cons, List.mem_append,
      List.not_mem_nil, or_false, ih]
    constructor
    · rintro (h | h | ⟨k', hk, h⟩)
      · exact ⟨k, .inl rfl, .inl h⟩
      · exact ⟨k, .inl rfl, .inr h⟩
      · exact ⟨k', .inr hk, h⟩
    · rintro ⟨k', rfl | hk, h⟩
      · rcases h with h | h
        · exact .inl h
        · exact .inr (.inl h)
      · exact .inr (.inr ⟨k', hk, h⟩)

section formed

variable {int int' : ℤ → Prop} {real real' : ℚ → Prop}

theorem formedItems_iff {items : List Json} :
    FormedItems int real items ↔ ∀ item ∈ items, Formed int real item := by
  induction items with
  | nil => simp [FormedItems]
  | cons item rest ih => rw [FormedItems, ih, List.forall_mem_cons]

theorem formedMembers_iff {members : List (Bytes × Json)} :
    FormedMembers int real members ↔ ∀ m ∈ members, Formed int real m.2 := by
  induction members with
  | nil => simp [FormedMembers]
  | cons m rest ih => rw [FormedMembers, ih, List.forall_mem_cons]

mutual

/-- More kinds of numbers form more values. -/
theorem Formed.mono (hint : ∀ n, int n → int' n) (hreal : ∀ q, real q → real' q) :
    ∀ j : Json, Formed int real j → Formed int' real' j
  | .int n, h => hint n h
  | .real q, h => hreal q h
  | .arr items, h => FormedItems.mono hint hreal items h
  | .obj members, h => ⟨h.1, FormedMembers.mono hint hreal members h.2⟩
  | .null, _ => trivial
  | .bool _, _ => trivial
  | .str _, _ => trivial

theorem FormedItems.mono (hint : ∀ n, int n → int' n) (hreal : ∀ q, real q → real' q) :
    ∀ items : List Json, FormedItems int real items → FormedItems int' real' items
  | [], _ => trivial
  | item :: rest, h => ⟨Formed.mono hint hreal item h.1, FormedItems.mono hint hreal rest h.2⟩

theorem FormedMembers.mono (hint : ∀ n, int n → int' n) (hreal : ∀ q, real q → real' q) :
    ∀ members : List (Bytes × Json),
      FormedMembers int real members → FormedMembers int' real' members
  | [], _ => trivial
  | member :: rest, h =>
    ⟨Formed.mono hint hreal member.2 h.1, FormedMembers.mono hint hreal rest h.2⟩

end

end formed

/-- An array of strings holds them. -/
theorem filterMap_str_map (texts : List Bytes) :
    (texts.map Json.str).filterMap Json.str? = texts := by
  rw [List.filterMap_map]
  exact List.filterMap_some

theorem str?_eq_some {j : Json} {s : Bytes} (h : j.str? = some s) : j = .str s := by
  cases j with
  | str value =>
    cases h
    rfl
  | _ => cases h

/-- The strings of an item are strings of the array. -/
theorem strings_subset_itemStrings {items : List Json} {item : Json} (h : item ∈ items) :
    ∀ s ∈ item.strings, s ∈ itemStrings items := by
  induction items with
  | nil => cases h
  | cons head rest ih =>
    intro s hs
    rw [itemStrings, List.mem_append]
    rcases List.mem_cons.mp h with rfl | h
    · exact .inl hs
    · exact .inr (ih h s hs)

/-- The name and the strings of a member are strings of the object. -/
theorem strings_subset_memberStrings {members : List (Bytes × Json)} {member : Bytes × Json}
    (h : member ∈ members) : member.1 ∈ memberStrings members ∧
      ∀ s ∈ member.2.strings, s ∈ memberStrings members := by
  induction members with
  | nil => cases h
  | cons head rest ih =>
    rw [memberStrings]
    rcases List.mem_cons.mp h with rfl | h
    · exact ⟨List.mem_cons_self, fun s hs =>
        List.mem_cons_of_mem _ (List.mem_append_left _ hs)⟩
    · obtain ⟨hname, hstrings⟩ := ih h
      exact ⟨List.mem_cons_of_mem _ (List.mem_append_right _ hname), fun s hs =>
        List.mem_cons_of_mem _ (List.mem_append_right _ (hstrings s hs))⟩

/-- The strings of a member that is found are strings of the value. -/
theorem strings_find {j member : Json} {name : Bytes} (h : j.find name = some member) :
    ∀ s ∈ member.strings, s ∈ j.strings := by
  cases j with
  | obj members =>
    obtain ⟨found, hfound, rfl⟩ := Option.map_eq_some_iff.mp h
    rw [Json.strings]
    exact (strings_subset_memberStrings (List.mem_of_find?_eq_some hfound)).2
  | _ => cases h

end Dlads.JsonValue
