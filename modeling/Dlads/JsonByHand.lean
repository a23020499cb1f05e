import Mathlib.Algebra.Order.BigOperators.Group.List
import Mathlib.Algebra.Order.Group.Nat
import Mathlib.Data.List.Forall2
import Mathlib.Data.List.Nodup
import Dlads.JsonReading

/-!
# JSON text put together by hand

Objects whose members are written one after the other, each string between
two quotes as it stands. Read as JSON such a text gives the strings back
exactly if none of them holds a byte that needs an escape: the names and the
other strings of the text cannot make up for the missing backslashes, however
the text is read.
-/

namespace Dlads.JsonByHand

open ByteText Utf8Text JsonValue JsonPrinting JsonReading

/-- Texts separated by commas. -/
def commaJoin : List Bytes → Bytes
  | [] => []
  | [t] => t
  | t :: rest => t ++ 44 :: commaJoin rest

/-- A member written by hand. -/
structure Field where
  /-- Its name. -/
  name : Bytes
  /-- Its value. -/
  value : Json
  /-- A reader wants to have it back. -/
  wanted : Bool

/-- A value written as it stands. -/
def rawText : Json → Bytes
  | .str s => 34 :: (s ++ [34])
  | .int n => dec n
  | .bool true => text "true"
  | .bool false => text "false"
  | _ => text "null"

/-- A value that reads as it is written. -/
def Flat : Json → Prop
  | .str s => Plain s
  | .int _ => True
  | .bool _ => True
  | _ => False

/-- A value of a kind that is written by hand. -/
def Simple : Json → Prop
  | .str _ => True
  | .int _ => True
  | .bool _ => True
  | _ => False

/-- A member written by hand. -/
def Field.text (f : Field) : Bytes := 34 :: (f.name ++ 34 :: 58 :: rawText f.value)

/-- An object written by hand. -/
def rawObject (fields : List Field) : Bytes :=
  123 :: (commaJoin (fields.map Field.text) ++ [125])

/-- An array of texts. -/
def rawArray (texts : List Bytes) : Bytes := 91 :: (commaJoin texts ++ [93])

/-- The members of an object that a reader wants. -/
def wantedOf (fields : List Field) : List (Bytes × Json) :=
  (fields.filter Field.wanted).map fun f => (f.name, f.value)

/-- A value has these members. -/
def HasMembers (item : Json) (members : List (Bytes × Json)) : Prop :=
  ∀ m ∈ members, item.find m.1 = some m.2

/-- A text is that of an array whose items have these members, item by item. -/
def Decodes (body : Bytes) (elements : List (List (Bytes × Json))) : Prop :=
  ∃ items, readJson body = some (.arr items) ∧ List.Forall₂ HasMembers items elements

/-- What the fields of an object written by hand have to be like: what is not
wanted reads as it is written and weighs nothing. -/
structure WellShaped (mark : UInt8) (fields : List Field) : Prop where
  /-- There is a field. -/
  nonempty : fields ≠ []
  /-- Names differ. -/
  nodup : (fields.map Field.name).Nodup
  /-- Names are plain. -/
  plain : ∀ f ∈ fields, Plain f.name
  /-- Values are simple. -/
  simple : ∀ f ∈ fields, Simple f.value
  /-- What is not wanted reads as it is written. -/
  flat : ∀ f ∈ fields, f.wanted = false → Flat f.value
  /-- A name that is not wanted weighs nothing. -/
  lightName : ∀ f ∈ fields, f.wanted = false → weight mark f.name = 0
  /-- Nor does a value that is not wanted or holds no string. -/
  lightValue : ∀ f ∈ fields, f.wanted = false ∨ f.value.strings = [] →
    weight mark (rawText f.value) = 0

section reading

variable (stack : List Frame)

/-- The object that fields are read as. -/
def fieldsObject (fields : List Field) (before : List (Bytes × Json)) : List (Bytes × Json) :=
  fields.foldl (fun members f => setMember f.name f.value members) before

/-- A stack on which a string is a value. -/
def AtValue : Prop := ∀ before rest, stack ≠ .members before :: rest

variable {stack}

/-- A value that reads as it is written is read up to the next byte that is in
no number. -/
theorem run_rawText (hstack : AtValue stack) {v : Json} (hv : Flat v) {c : UInt8}
    (hc : isNumeric c = false) (s : Bytes) :
    (⟨stack, .value⟩ : Reader).run (rawText v ++ c :: s) =
      (closeValue stack v c).bind fun r => r.run s := by
  have hword : ∀ (w : Bytes) (j : Json), (⟨stack, .word w j⟩ : Reader).run (w ++ c :: s) =
      (closeValue stack j c).bind fun r => r.run s := by
    intro w j
    induction w with
    | nil => rfl
    | cons d w ih =>
      have hstep : (⟨stack, .word (d :: w) j⟩ : Reader).step d = some ⟨stack, .word w j⟩ := by
        simp [Reader.step]
      rw [List.cons_append, Reader.run, hstep, Option.bind_some, ih]
  cases v with
  | str t =>
    have hclose : closeString stack t = ⟨stack, .after (.str t)⟩ := by
      unfold closeString
      split
      · next before rest => exact absurd rfl (hstack before rest)
      · rfl
    have hopen : (⟨stack, .value⟩ : Reader).step 34 = some ⟨stack, .string []⟩ := rfl
    have hend : (⟨stack, .string t⟩ : Reader).step 34 = some (closeString stack t) := rfl
    rw [rawText, List.cons_append, List.append_assoc, List.singleton_append, Reader.run, hopen,
      Option.bind_some, run_plain stack hv, List.nil_append, Reader.run, hend, hclose,
      Option.bind_some]
    rfl
  | int n => exact run_dec stack n hc s
  | bool b =>
    cases b with
    | true => exact hword (text "rue") (.bool true)
    | false => exact hword (text "alse") (.bool false)
  | _ => cases hv

/-- A member is read behind an opening brace or a comma. -/
theorem run_field {before : List (Bytes × Json)} {mode : Mode}
    (hmode : mode = .name ∨ mode = .firstMember) {f : Field} (hname : Plain f.name)
    (hv : Flat f.value) {c : UInt8} (hc : isNumeric c = false) (s : Bytes) :
    (⟨.members before :: stack, mode⟩ : Reader).run (f.text ++ c :: s) =
      (closeValue (.member before f.name :: stack) f.value c).bind fun r => r.run s := by
  have hopen : (⟨.members before :: stack, mode⟩ : Reader).step 34 =
      some ⟨.members before :: stack, .string []⟩ := by
    rcases hmode with rfl | rfl <;> rfl
  have hend : (⟨.members before :: stack, .string f.name⟩ : Reader).step 34 =
      some ⟨.member before f.name :: stack, .colon⟩ := rfl
  have hcolon : (⟨.member before f.name :: stack, .colon⟩ : Reader).step 58 =
      some ⟨.member before f.name :: stack, .value⟩ := rfl
  have hat : AtValue (.member before f.name :: stack) := by
    intro before rest h
    cases h
  rw [Field.text, List.cons_append, List.append_assoc, List.cons_append, List.cons_append,
    Reader.run, hopen, Option.bind_some, run_plain _ hname, List.nil_append, Reader.run, hend,
    Option.bind_some, Reader.run, hcolon, Option.bind_some, run_rawText hat hv hc]

/-- The members of an object are read up to its end. -/
theorem run_fields {fields : List Field} (hne : fields ≠ [])
    (hplain : ∀ f ∈ fields, Plain f.name) (hflat : ∀ f ∈ fields, Flat f.value)
    (before : List (Bytes × Json)) {mode : Mode} (hmode : mode = .name ∨ mode = .firstMember)
    (s : Bytes) :
    (⟨.members before :: stack, mode⟩ : Reader).run
        (commaJoin (fields.map Field.text) ++ 125 :: s) =
      (⟨stack, .after (.obj (fieldsObject fields before))⟩ : Reader).run s := by
  induction fields generalizing before mode with
  | nil => exact absurd rfl hne
  | cons f fields ih =>
    have hf := hplain f List.mem_cons_self
    have hv := hflat f List.mem_cons_self
    cases fields with
    | nil => exact run_field hmode hf hv rfl s
    | cons g rest =>
      rw [List.map_cons, List.map_cons, commaJoin, List.append_assoc, List.cons_append,
        run_field hmode hf hv rfl]
      · exact ih (List.cons_ne_nil g rest) (fun x hx => hplain x (List.mem_cons_of_mem f hx))
          (fun x hx => hflat x (List.mem_cons_of_mem f hx)) (setMember f.name f.value before)
          (.inl rfl)
      · exact List.cons_ne_nil _ _

/-- An object is read where a value may stand. -/
theorem run_rawObject {fields : List Field} (hne : fields ≠ [])
    (hplain : ∀ f ∈ fields, Plain f.name) (hflat : ∀ f ∈ fields, Flat f.value) {mode : Mode}
    (hmode : mode = .value ∨ mode = .firstItem) (s : Bytes) :
    (⟨stack, mode⟩ : Reader).run (rawObject fields ++ s) =
      (⟨stack, .after (.obj (fieldsObject fields []))⟩ : Reader).run s := by
  have hopen : (⟨stack, mode⟩ : Reader).step 123 = some ⟨.members [] :: stack, .firstMember⟩ := by
    rcases hmode with rfl | rfl <;> rfl
  rw [rawObject, List.cons_append, List.append_assoc, List.singleton_append, Reader.run, hopen,
    Option.bind_some, run_fields hne hplain hflat [] (.inr rfl)]

/-- The items of an array are read up to its end. -/
theorem run_rawObjects {elements : List (List Field)} (hne : elements ≠ [])
    (hshape : ∀ fields ∈ elements, fields ≠ [] ∧ (∀ f ∈ fields, Plain f.name) ∧
      ∀ f ∈ fields, Flat f.value) (before : List Json) {mode : Mode}
    (hmode : mode = .value ∨ mode = .firstItem) (s : Bytes) :
    (⟨.items before :: stack, mode⟩ : Reader).run
        (commaJoin (elements.map rawObject) ++ 93 :: s) =
      (⟨stack, .after (.arr (before ++ elements.map fun fields =>
        .obj (fieldsObject fields [])))⟩ : Reader).run s := by
  induction elements generalizing before mode with
  | nil => exact absurd rfl hne
  | cons fields elements ih =>
    obtain ⟨hfields, hplain, hflat⟩ := hshape fields List.mem_cons_self
    cases elements with
    | nil =>
      exact run_rawObject hfields hplain hflat hmode (93 :: s)
    | cons next rest =>
      rw [List.map_cons, List.map_cons, commaJoin, List.append_assoc, List.cons_append,
        run_rawObject hfields hplain hflat hmode]
      · have hrest := ih (List.cons_ne_nil next rest)
          (fun x hx => hshape x (List.mem_cons_of_mem fields hx))
          (before ++ [.obj (fieldsObject fields [])]) (.inl rfl)
        rw [List.append_assoc, List.singleton_append] at hrest
        exact hrest
      · exact List.cons_ne_nil _ _

/-- An array of objects is read item by item. -/
theorem readJson_rawArray {elements : List (List Field)}
    (hshape : ∀ fields ∈ elements, fields ≠ [] ∧ (∀ f ∈ fields, Plain f.name) ∧
      ∀ f ∈ fields, Flat f.value) (hvalid : IsUtf8 (rawArray (elements.map rawObject))) :
    readJson (rawArray (elements.map rawObject)) =
      some (.arr (elements.map fun fields => .obj (fieldsObject fields []))) := by
  have hopen : (⟨[], .value⟩ : Reader).step 91 = some ⟨[.items []], .firstItem⟩ := rfl
  rw [readJson, if_pos hvalid, rawArray, Reader.run, hopen, Option.bind_some]
  cases elements with
  | nil => rfl
  | cons fields rest =>
    rw [run_rawObjects (List.cons_ne_nil fields rest) hshape [] (.inr rfl)]
    rfl

theorem readJson_rawObject {fields : List Field} (hne : fields ≠ [])
    (hplain : ∀ f ∈ fields, Plain f.name) (hflat : ∀ f ∈ fields, Flat f.value)
    (hvalid : IsUtf8 (rawObject fields)) :
    readJson (rawObject fields) = some (.obj (fieldsObject fields [])) := by
  have hrun := @run_rawObject [] fields hne hplain hflat .value (.inl rfl) []
  rw [List.append_nil] at hrun
  rw [readJson, if_pos hvalid, hrun]
  rfl

end reading

section finding

/-- A member that is set is found; the others are as before. -/
theorem find_setMember (name other : Bytes) (value : Json) (members : List (Bytes × Json)) :
    (Json.obj (setMember name value members)).find other =
      if name = other then some value else (Json.obj members).find other := by
  have hcons : ∀ (m : Bytes × Json) (rest : List (Bytes × Json)),
      (Json.obj (m :: rest)).find other =
        if m.1 = other then some m.2 else (Json.obj rest).find other := by
    intro m rest
    by_cases hm : m.1 = other
    · simp [Json.find, hm]
    · simp [Json.find, hm]
  induction members with
  | nil => exact hcons _ _
  | cons m rest ih =>
    unfold setMember
    split
    · exact hcons _ _
    · split
      · next hm =>
        rw [hcons, hcons, hm]
        by_cases hn : name = other
        · simp [hn]
        · simp [hn]
      · next hm =>
        rw [hcons, hcons, ih]
        by_cases hn : name = other
        · have hne : m.1 ≠ other := fun he => hm (he.trans hn.symm)
          simp [hn, hne]
        · simp [hn]

/-- Every field is found in the object that fields are read as. -/
theorem find_fieldsObject {fields : List Field} (hnodup : (fields.map Field.name).Nodup)
    (before : List (Bytes × Json)) {f : Field} (hf : f ∈ fields) :
    (Json.obj (fieldsObject fields before)).find f.name = some f.value := by
  have hother : ∀ (rest : List Field) (before : List (Bytes × Json)) (name : Bytes),
      name ∉ rest.map Field.name → (Json.obj (fieldsObject rest before)).find name =
        (Json.obj before).find name := by
    intro rest
    induction rest with
    | nil => exact fun before name h => rfl
    | cons g rest ih =>
      intro before name h
      rw [List.map_cons, List.mem_cons, not_or] at h
      refine (ih _ name h.2).trans ?_
      rw [find_setMember, if_neg (Ne.symm h.1)]
  induction fields generalizing before with
  | nil => cases hf
  | cons g rest ih =>
    rw [List.map_cons, List.nodup_cons] at hnodup
    rcases List.mem_cons.mp hf with rfl | hf
    · refine (hother rest _ f.name hnodup.1).trans ?_
      rw [find_setMember, if_pos rfl]
    · exact ih hnodup.2 _ hf

end finding

section forming

variable {int : ℤ → Prop} {real : ℚ → Prop}

theorem mem_of_mem_setMember {name : Bytes} {value : Json} {members : List (Bytes × Json)}
    {m : Bytes × Json} (h : m ∈ setMember name value members) : m = (name, value) ∨ m ∈ members := by
  induction members with
  | nil => exact .inl (List.mem_singleton.mp h)
  | cons first rest ih =>
    unfold setMember at h
    split at h
    · exact List.mem_cons.mp h
    · split at h
      · exact (List.mem_cons.mp h).imp_right (List.mem_cons_of_mem first)
      · rcases List.mem_cons.mp h with rfl | h
        · exact .inr List.mem_cons_self
        · exact (ih h).imp_right (List.mem_cons_of_mem first)

/-- Setting a member keeps names in strict order. -/
theorem pairwise_setMember (name : Bytes) (value : Json) {members : List (Bytes × Json)}
    (h : (members.map Prod.fst).Pairwise (· < ·)) :
    ((setMember name value members).map Prod.fst).Pairwise (· < ·) := by
  induction members with
  | nil => exact List.pairwise_singleton _ _
  | cons first rest ih =>
    rw [List.map_cons, List.pairwise_cons] at h
    have hbehind : ∀ m ∈ rest, first.1 < m.1 := fun m hm => h.1 m.1 (List.mem_map_of_mem hm)
    unfold setMember
    split
    · next hbefore =>
      rw [List.map_cons, List.map_cons, List.pairwise_cons, List.pairwise_cons, List.forall_mem_cons]
      exact ⟨⟨hbefore, fun n hn => List.lt_trans hbefore (h.1 n hn)⟩, h⟩
    · next hnot =>
      split
      · next hsame =>
        rw [List.map_cons, List.pairwise_cons, ← hsame]
        exact h
      · next hne =>
        rw [List.map_cons, List.pairwise_cons]
        refine ⟨fun n hn => ?_, ih h.2⟩
        obtain ⟨m, hm, rfl⟩ := List.mem_map.mp hn
        rcases mem_of_mem_setMember hm with rfl | hm
        · exact Std.lt_of_le_of_ne (List.not_lt.mp hnot) hne
        · exact hbehind m hm

/-- Fields are read as an object that is formed if their values are. -/
theorem formed_fieldsObject {fields : List Field} (h : ∀ f ∈ fields, Formed int real f.value)
    {before : List (Bytes × Json)} (hbefore : Formed int real (.obj before)) :
    Formed int real (.obj (fieldsObject fields before)) := by
  induction fields generalizing before with
  | nil => exact hbefore
  | cons f rest ih =>
    obtain ⟨hf, hrest⟩ := List.forall_mem_cons.mp h
    refine ih hrest ⟨pairwise_setMember f.name f.value hbefore.1, formedMembers_iff.mpr ?_⟩
    intro m hm
    rcases mem_of_mem_setMember hm with rfl | hm
    · exact hf
    · exact formedMembers_iff.mp hbefore.2 m hm

end forming

section weighing

variable {mark : UInt8}

/-- What a member costs. -/
def memberCost (mark : UInt8) (m : Bytes × Json) : ℕ := cost mark m.1 + costs mark m.2.strings

theorem costs_memberStrings (members : List (Bytes × Json)) :
    costs mark (memberStrings members) = (members.map (memberCost mark)).sum := by
  induction members with
  | nil => rfl
  | cons m rest ih =>
    rw [memberStrings, costs_cons, costs_append, ih, List.map_cons, List.sum_cons, memberCost,
      Nat.add_assoc]

theorem costs_itemStrings (items : List Json) :
    costs mark (itemStrings items) = (items.map fun item => costs mark item.strings).sum := by
  induction items with
  | nil => rfl
  | cons item rest ih => rw [itemStrings, costs_append, ih, List.map_cons, List.sum_cons]

/-- A value costs no less than members of different names that it has. -/
theorem costs_of_hasMembers {item : Json} {members : List (Bytes × Json)}
    (hnodup : (members.map Prod.fst).Nodup) (h : HasMembers item members) :
    (members.map (memberCost mark)).sum ≤ costs mark item.strings := by
  cases members with
  | nil => exact Nat.zero_le _
  | cons first rest =>
    have hfirst := h first List.mem_cons_self
    cases item with
    | obj all =>
      have hsub : first :: rest ⊆ all := by
        intro m hm
        obtain ⟨found, hfound, hvalue⟩ := Option.map_eq_some_iff.mp (h m hm)
        have hname : found.1 = m.1 := by simpa using List.find?_some hfound
        have hsame : found = m := Prod.ext hname hvalue
        exact hsame ▸ List.mem_of_find?_eq_some hfound
      obtain ⟨chosen, hperm, hsublist⟩ :=
        List.subperm_of_subset (List.Nodup.of_map _ hnodup) hsub
      rw [Json.strings, costs_memberStrings, ← (hperm.map (memberCost mark)).sum_eq]
      exact (hsublist.map (memberCost mark)).sum_le_sum fun _ _ => Nat.zero_le _
    | _ => cases hfirst

theorem weight_commaJoin (hcomma : weight mark [44] = 0) (texts : List Bytes) :
    weight mark (commaJoin texts) = (texts.map (weight mark)).sum := by
  induction texts with
  | nil => rfl
  | cons t rest ih =>
    cases rest with
    | nil => simp [commaJoin]
    | cons u rest =>
      have hsplit : commaJoin (t :: u :: rest) = t ++ ([44] ++ commaJoin (u :: rest)) := rfl
      rw [hsplit, weight_append, weight_append, hcomma, ih, Nat.zero_add, List.map_cons,
        List.sum_cons]
      rfl

/-- Only names and values weigh. -/
theorem weight_rawObject (h : IsMark mark) (fields : List Field) :
    weight mark (rawObject fields) =
      (fields.map fun f => weight mark f.name + weight mark (rawText f.value)).sum := by
  have hzero : weight mark [44] = 0 ∧ weight mark [123] = 0 ∧ weight mark [125] = 0 ∧
      weight mark [34] = 0 ∧ weight mark [34, 58] = 0 := by
    rcases h with rfl | rfl <;> decide
  obtain ⟨hcomma, hopen, hclose, hquote, hcolon⟩ := hzero
  have hfield : ∀ f : Field, weight mark f.text =
      weight mark f.name + weight mark (rawText f.value) := by
    intro f
    have hsplit : f.text = [34] ++ (f.name ++ ([34, 58] ++ rawText f.value)) := rfl
    rw [hsplit, weight_append, weight_append, weight_append, hquote, hcolon, Nat.zero_add,
      Nat.zero_add]
  have hsplit : rawObject fields = [123] ++ (commaJoin (fields.map Field.text) ++ [125]) := rfl
  rw [hsplit, weight_append, weight_append, hopen, hclose, Nat.zero_add, Nat.add_zero,
    weight_commaJoin hcomma, List.map_map]
  exact congrArg List.sum (List.map_congr_left fun f _ => hfield f)

/-- The bytes of the strings of a member that need an escape. -/
def specials (m : Bytes × Json) : ℕ := (m.2.strings.map fun s => s.countP isSpecial).sum

/-- A wanted field costs what it weighs and its bytes that need an escape; any
other weighs nothing. -/
theorem WellShaped.weigh {fields : List Field} (hs : WellShaped mark fields) (h : IsMark mark)
    {f : Field} (hf : f ∈ fields) : weight mark f.name + weight mark (rawText f.value) +
      (if f.wanted then specials (f.name, f.value) else 0) ≤
        if f.wanted then memberCost mark (f.name, f.value) else 0 := by
  have hquote : weight mark [34] = 0 := by
    rcases h with rfl | rfl <;> decide
  have hplain : f.name.countP isSpecial = 0 :=
    List.countP_eq_zero.mpr fun c hc => by simp [hs.plain f hf c hc]
  cases hw : f.wanted with
  | false => simp [hs.lightName f hf hw, hs.lightValue f hf (.inl hw)]
  | true =>
    have hsimple := hs.simple f hf
    have hlight := hs.lightValue f hf
    cases hv : f.value with
    | str s =>
      have hsplit : rawText (.str s) = [34] ++ (s ++ [34]) := rfl
      rw [hsplit, weight_append, weight_append, hquote]
      simp only [specials, memberCost, Json.strings, List.map_cons, List.map_nil, List.sum_cons,
        List.sum_nil, costs_singleton, cost, hplain, if_true]
      omega
    | int n =>
      rw [hv] at hlight
      simp [specials, memberCost, Json.strings, costs, cost, hplain, hlight (.inr rfl)]
    | bool b =>
      rw [hv] at hlight
      simp [specials, memberCost, Json.strings, costs, cost, hplain, hlight (.inr rfl)]
    | _ =>
      rw [hv] at hsimple
      cases hsimple

/-- An object written by hand weighs no more than its wanted members cost
without their bytes that need an escape. -/
theorem WellShaped.weight_le {fields : List Field} (hs : WellShaped mark fields) (h : IsMark mark) :
    weight mark (rawObject fields) + ((wantedOf fields).map specials).sum ≤
      ((wantedOf fields).map (memberCost mark)).sum := by
  rw [weight_rawObject h]
  have hall : ∀ rest : List Field, rest ⊆ fields →
      (rest.map fun f => weight mark f.name + weight mark (rawText f.value)).sum +
        ((wantedOf rest).map specials).sum ≤ ((wantedOf rest).map (memberCost mark)).sum := by
    intro rest hrest
    induction rest with
    | nil => exact Nat.le_refl 0
    | cons f rest ih =>
      have hf := hs.weigh h (hrest List.mem_cons_self)
      have htail := ih fun x hx => hrest (List.mem_cons_of_mem f hx)
      unfold wantedOf at htail ⊢
      cases hw : f.wanted with
      | false =>
        rw [hw] at hf
        simp only [List.filter_cons, hw, Bool.false_eq_true, if_false, List.map_cons,
          List.sum_cons] at hf ⊢
        omega
      | true =>
        rw [hw] at hf
        simp only [List.filter_cons, hw, if_true, List.map_cons, List.sum_cons] at hf ⊢
        omega
  exact hall fields (List.Subset.refl fields)

/-- Where no byte of a wanted member needs an escape, its value reads as it is
written. -/
theorem WellShaped.flat_of_specials {fields : List Field} (hs : WellShaped mark fields)
    (h : ((wantedOf fields).map specials).sum = 0) : ∀ f ∈ fields, Flat f.value := by
  intro f hf
  cases hw : f.wanted with
  | false => exact hs.flat f hf hw
  | true =>
    have hmem : (f.name, f.value) ∈ wantedOf fields :=
      List.mem_map_of_mem (List.mem_filter.mpr ⟨hf, hw⟩)
    have hzero : specials (f.name, f.value) = 0 :=
      List.sum_eq_zero_iff.mp h _ (List.mem_map_of_mem hmem)
    have hsimple := hs.simple f hf
    cases hv : f.value with
    | str s =>
      rw [hv] at hzero
      have hcount : s.countP isSpecial = 0 := by simpa [specials, Json.strings] using hzero
      intro c hc
      simpa using List.countP_eq_zero.mp hcount c hc
    | int n => trivial
    | bool b => trivial
    | _ =>
      rw [hv] at hsimple
      cases hsimple

theorem specials_of_flat {m : Bytes × Json} (h : Flat m.2) : specials m = 0 := by
  obtain ⟨name, value⟩ := m
  cases value with
  | str s =>
    have hcount : s.countP isSpecial = 0 :=
      List.countP_eq_zero.mpr fun c hc => by simp [h c hc]
    simp [specials, Json.strings, hcount]
  | int n => rfl
  | bool b => rfl
  | _ => cases h

/-- The wanted members of an object have different names. -/
theorem WellShaped.wanted_nodup {fields : List Field} (hs : WellShaped mark fields) :
    ((wantedOf fields).map Prod.fst).Nodup := by
  have hnames : (wantedOf fields).map Prod.fst = (fields.filter Field.wanted).map Field.name := by
    rw [wantedOf, List.map_map]
    rfl
  rw [hnames]
  exact hs.nodup.sublist (List.filter_sublist.map Field.name)

/-- The fields of an object are read back as they are. -/
theorem WellShaped.hasMembers {fields : List Field} (hs : WellShaped mark fields) :
    HasMembers (.obj (fieldsObject fields [])) (wantedOf fields) := by
  intro m hm
  obtain ⟨f, hf, rfl⟩ := List.mem_map.mp hm
  exact find_fieldsObject hs.nodup [] (List.mem_of_mem_filter hf)

/-- A value with the wanted members of an object written by hand costs more
than the object weighs, by the bytes that need an escape. -/
theorem WellShaped.specials_le {fields : List Field} (hs : WellShaped mark fields) (h : IsMark mark)
    {item : Json} (hitem : HasMembers item (wantedOf fields)) :
    weight mark (rawObject fields) + ((wantedOf fields).map specials).sum ≤
      costs mark item.strings :=
  (hs.weight_le h).trans (costs_of_hasMembers hs.wanted_nodup hitem)

/-- The wanted members read as they are written exactly if none of their bytes
needs an escape. -/
theorem WellShaped.flat_iff {fields : List Field} (hs : WellShaped mark fields) :
    (∀ m ∈ wantedOf fields, Flat m.2) ↔ ((wantedOf fields).map specials).sum = 0 := by
  constructor
  · intro hflat
    refine List.sum_eq_zero_iff.mpr fun n hn => ?_
    obtain ⟨m, hm, rfl⟩ := List.mem_map.mp hn
    exact specials_of_flat (hflat m hm)
  · intro hzero m hm
    obtain ⟨f, hf, rfl⟩ := List.mem_map.mp hm
    exact hs.flat_of_specials hzero f (List.mem_of_mem_filter hf)

end weighing

section results

variable {mark : UInt8}

/-- An object written by hand gives its wanted members back exactly if all of
them read as they are written. -/
theorem hasMembers_iff (h : IsMark mark) {fields : List Field} (hs : WellShaped mark fields)
    (hvalid : IsUtf8 (rawObject fields)) :
    (∃ item, readJson (rawObject fields) = some item ∧ HasMembers item (wantedOf fields)) ↔
      ∀ m ∈ wantedOf fields, Flat m.2 := by
  rw [hs.flat_iff]
  constructor
  · rintro ⟨item, hread, hitem⟩
    have hcosts := costs_readJson h hread
    have hle := hs.specials_le h hitem
    omega
  · intro hzero
    exact ⟨_, readJson_rawObject hs.nonempty hs.plain (hs.flat_of_specials hzero) hvalid,
      hs.hasMembers⟩

/-- An array weighs as much as its objects. -/
theorem weight_rawArray (h : IsMark mark) (elements : List (List Field)) :
    weight mark (rawArray (elements.map rawObject)) =
      (elements.map fun fields => weight mark (rawObject fields)).sum := by
  have hzero : weight mark [91] = 0 ∧ weight mark [44] = 0 ∧ weight mark [93] = 0 := by
    rcases h with rfl | rfl <;> decide
  have hsplit : rawArray (elements.map rawObject) =
      [91] ++ (commaJoin (elements.map rawObject) ++ [93]) := rfl
  rw [hsplit, weight_append, weight_append, hzero.1, hzero.2.2, weight_commaJoin hzero.2.1,
    List.map_map, Nat.zero_add, Nat.add_zero]
  rfl

/-- Items with the wanted members of objects written by hand cost more than the
objects weigh, by the bytes that need an escape. -/
theorem sum_specials_le (h : IsMark mark) {elements : List (List Field)} {items : List Json}
    (hs : ∀ fields ∈ elements, WellShaped mark fields)
    (hitems : List.Forall₂ HasMembers items (elements.map wantedOf)) :
    (elements.map fun fields => weight mark (rawObject fields)).sum +
        (elements.map fun fields => ((wantedOf fields).map specials).sum).sum ≤
      (items.map fun item => costs mark item.strings).sum := by
  induction elements generalizing items with
  | nil => exact Nat.zero_le _
  | cons fields rest ih =>
    obtain ⟨item, others, hitem, hothers, rfl⟩ := List.forall₂_cons_right_iff.mp hitems
    have hfirst := (hs fields List.mem_cons_self).specials_le h hitem
    have htail := ih (fun x hx => hs x (List.mem_cons_of_mem fields hx)) hothers
    simp only [List.map_cons, List.sum_cons]
    omega

/-- An array of objects written by hand gives their wanted members back item by
item exactly if all of them read as they are written. -/
theorem decodes_iff (h : IsMark mark) {elements : List (List Field)}
    (hs : ∀ fields ∈ elements, WellShaped mark fields)
    (hvalid : IsUtf8 (rawArray (elements.map rawObject))) :
    Decodes (rawArray (elements.map rawObject)) (elements.map wantedOf) ↔
      ∀ fields ∈ elements, ∀ m ∈ wantedOf fields, Flat m.2 := by
  constructor
  · rintro ⟨items, hread, hitems⟩
    have hcosts := costs_readJson h hread
    have hle := sum_specials_le h hs hitems
    rw [Json.strings, costs_itemStrings, weight_rawArray h] at hcosts
    have hzero : (elements.map fun fields => ((wantedOf fields).map specials).sum).sum = 0 := by
      omega
    intro fields hfields
    exact (hs fields hfields).flat_iff.mpr
      (List.sum_eq_zero_iff.mp hzero _ (List.mem_map_of_mem hfields))
  · intro hflat
    have hshape : ∀ fields ∈ elements, fields ≠ [] ∧ (∀ f ∈ fields, Plain f.name) ∧
        ∀ f ∈ fields, Flat f.value := by
      intro fields hfields
      have hw := hs fields hfields
      exact ⟨hw.nonempty, hw.plain, hw.flat_of_specials (hw.flat_iff.mp (hflat fields hfields))⟩
    refine ⟨_, readJson_rawArray hshape hvalid, ?_⟩
    rw [List.forall₂_map_left_iff, List.forall₂_map_right_iff, List.forall₂_same]
    exact fun fields hfields => (hs fields hfields).hasMembers

/-- Valid parts make a valid text. -/
theorem isUtf8_commaJoin {texts : List Bytes} (h : ∀ t ∈ texts, IsUtf8 t) :
    IsUtf8 (commaJoin texts) := by
  induction texts with
  | nil => exact isUtf8_nil
  | cons t rest ih =>
    have ht := h t List.mem_cons_self
    have hrest := ih fun u hu => h u (List.mem_cons_of_mem t hu)
    cases rest with
    | nil => exact ht
    | cons u rest => exact ht.append ((isUtf8_cons (by decide) _).mpr hrest)

theorem isUtf8_rawArray {texts : List Bytes} (h : ∀ t ∈ texts, IsUtf8 t) :
    IsUtf8 (rawArray texts) :=
  (isUtf8_cons (by decide) _).mpr
    ((isUtf8_commaJoin h).append ((isUtf8_cons (by decide) _).mpr isUtf8_nil))

/-- An array with an object for every row of a table gives the wanted members
back row by row exactly if all of them read as they are written. -/
theorem decodes_rows_iff (h : IsMark mark) {α : Type*} {rows : List α} {rowText : α → Bytes}
    {fields : α → List Field} (values : α → List (Bytes × Json))
    (htext : ∀ x, rowText x = rawObject (fields x)) (hvalues : ∀ x, wantedOf (fields x) = values x)
    (hs : ∀ x, WellShaped mark (fields x)) (hvalid : ∀ x ∈ rows, IsUtf8 (rawObject (fields x))) :
    Decodes (text "[" ++ commaJoin (rows.map rowText) ++ text "]") (rows.map values) ↔
      ∀ x ∈ rows, ∀ m ∈ values x, Flat m.2 := by
  have hbody : text "[" ++ commaJoin (rows.map rowText) ++ text "]" =
      rawArray ((rows.map fields).map rawObject) := by
    rw [List.map_map, List.map_congr_left fun x _ => htext x]
    rfl
  have hwanted : rows.map values = (rows.map fields).map wantedOf := by
    rw [List.map_map]
    exact List.map_congr_left fun x _ => (hvalues x).symm
  have harray : IsUtf8 (rawArray ((rows.map fields).map rawObject)) := by
    refine isUtf8_rawArray fun text htext => ?_
    rw [List.map_map] at htext
    obtain ⟨x, hx, rfl⟩ := List.mem_map.mp htext
    exact hvalid x hx
  have hshaped : ∀ f ∈ rows.map fields, WellShaped mark f := by
    intro f hf
    obtain ⟨x, -, rfl⟩ := List.mem_map.mp hf
    exact hs x
  rw [hbody, hwanted, decodes_iff h hshaped harray, List.forall_mem_map]
  exact forall₂_congr fun x _ => by rw [hvalues x]

end results

end Dlads.JsonByHand
