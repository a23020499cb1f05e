import Mathlib.Algebra.GroupWithZero.Nat
import Mathlib.Algebra.Order.BigOperators.Group.List
import Dlads.JsonPrinting

/-!
# Reading JSON text

A reader of JSON text takes one byte at a time and keeps what is open around
its place on a stack. It accepts the standard grammar and nothing else, so that
a byte order mark and a zero byte make a text none, and its numbers are exact;
of several members of one name the last one counts. A plain string in quotes is
read as it stands. A byte that a string holds only under an escape costs the
text a backslash, so that the bytes of a text bound what its strings may hold.
-/

namespace Dlads.JsonReading

open ByteText Utf8Text JsonValue JsonPrinting

/-- What is open around the place of the reader. -/
inductive Frame
  /-- An array, with the items before. -/
  | items (before : List Json)
  /-- An object whose next member has to be named, with the members before. -/
  | members (before : List (Bytes × Json))
  /-- An object whose next member has a name, with the members before. -/
  | member (before : List (Bytes × Json)) (name : Bytes)

/-- What the reader is about to see. -/
inductive Mode
  /-- A value. -/
  | value
  /-- A value, or the end of an array without items. -/
  | firstItem
  /-- A name, or the end of an object without members. -/
  | firstMember
  /-- A name. -/
  | name
  /-- The colon behind a name. -/
  | colon
  /-- What follows a value. -/
  | after (value : Json)
  /-- More of a string. -/
  | string (chars : Bytes)
  /-- What follows a backslash. -/
  | escape (chars : Bytes)
  /-- More of the four digits behind `\u`, with the first half of a pair, if any. -/
  | hex (chars : Bytes) (high : Option ℕ) (digits : Bytes)
  /-- The backslash of the second half of a pair. -/
  | low (chars : Bytes) (high : ℕ)
  /-- The `u` of the second half of a pair. -/
  | lowEscape (chars : Bytes) (high : ℕ)
  /-- The rest of a literal. -/
  | word (rest : Bytes) (value : Json)
  /-- More of a number. -/
  | number (token : Bytes)

/-- The place of a reader. -/
structure Reader where
  /-- What is open, innermost first. -/
  stack : List Frame
  /-- What has to follow. -/
  mode : Mode

/-- White space between tokens. -/
def isBlank (c : UInt8) : Bool := c == 32 || c == 9 || c == 10 || c == 13

/-- Bytes that occur in numbers. -/
def isNumeric (c : UInt8) : Bool :=
  isDigit c || c == 45 || c == 43 || c == 46 || c == 69 || c == 101

/-- Set a member of an object; the members are in the order of their names. -/
def setMember (name : Bytes) (value : Json) : List (Bytes × Json) → List (Bytes × Json)
  | [] => [(name, value)]
  | m :: rest =>
    if name < m.1 then (name, value) :: m :: rest
    else if m.1 = name then (name, value) :: rest
    else m :: setMember name value rest

/-- The exponent of a number, 0 when there is none. -/
def exponent (s : Bytes) : Option ℤ :=
  match s with
  | [] => some 0
  | c :: rest =>
    if c = 101 ∨ c = 69 then
      let negative := rest.head? == some 45
      let digits := if negative || rest.head? == some 43 then rest.drop 1 else rest
      if digits.isEmpty || !digits.all isDigit then none
      else some (if negative then -(digitsValue digits : ℤ) else digitsValue digits)
    else none

/-- The digits behind the point of a number, if it has one, and what follows. -/
def fraction (s : Bytes) : Option (Bytes × Bytes) :=
  match s with
  | 46 :: rest =>
    if (rest.takeWhile isDigit).isEmpty then none
    else some (rest.takeWhile isDigit, rest.dropWhile isDigit)
  | _ => some ([], s)

/-- A number times a power of ten. -/
def scale (n e : ℤ) : ℚ := if 0 ≤ e then n * 10 ^ e.toNat else n / 10 ^ (-e).toNat

/-- The value of a number's text; an integer if it has neither a fraction nor
an exponent. -/
def numberValue (token : Bytes) : Option Json :=
  let negative := token.head? == some 45
  let body := if negative then token.drop 1 else token
  let whole := body.takeWhile isDigit
  let rest := body.dropWhile isDigit
  if whole.isEmpty || (whole.head? == some 48 && 1 < whole.length) then none
  else if rest.isEmpty then
    some (.int (if negative then -(digitsValue whole : ℤ) else digitsValue whole))
  else
    match fraction rest with
    | none => none
    | some (digits, rest) =>
      (exponent rest).map fun e =>
        let n : ℤ := digitsValue (whole ++ digits)
        .real (scale (if negative then -n else n) (e - digits.length))

/-- The byte that an escape stands for. -/
def unescape (c : UInt8) : Option UInt8 :=
  if c = 34 then some 34
  else if c = 92 then some 92
  else if c = 47 then some 47
  else if c = 98 then some 8
  else if c = 102 then some 12
  else if c = 110 then some 10
  else if c = 114 then some 13
  else if c = 116 then some 9
  else none

/-- The value of a hexadecimal digit. -/
def hexValue (c : UInt8) : Option ℕ :=
  if isDigit c then some (c.toNat - 48)
  else if 97 ≤ c && c ≤ 102 then some (c.toNat - 87)
  else if 65 ≤ c && c ≤ 70 then some (c.toNat - 55)
  else none

/-- The number that hexadecimal digits denote. -/
def hexNumber (digits : Bytes) : ℕ :=
  digits.foldl (fun n c => n * 16 + (hexValue c).getD 0) 0

/-- The UTF-8 encoding of a code point. -/
def encodePoint (n : ℕ) : Bytes :=
  if n < 128 then [UInt8.ofNat n]
  else if n < 2048 then [UInt8.ofNat (192 + n / 64), UInt8.ofNat (128 + n % 64)]
  else if n < 65536 then
    [UInt8.ofNat (224 + n / 4096), UInt8.ofNat (128 + n / 64 % 64), UInt8.ofNat (128 + n % 64)]
  else
    [UInt8.ofNat (240 + n / 262144 % 8), UInt8.ofNat (128 + n / 4096 % 64),
      UInt8.ofNat (128 + n / 64 % 64), UInt8.ofNat (128 + n % 64)]

/-- A string with one more code unit; a pair of surrogates is one character. -/
def pushUnit (chars : Bytes) (high : Option ℕ) (unit : ℕ) : Option Mode :=
  match high with
  | none =>
    if 0xd800 ≤ unit ∧ unit < 0xdc00 then some (.low chars unit)
    else if 0xdc00 ≤ unit ∧ unit < 0xe000 then none
    else some (.string (chars ++ encodePoint unit))
  | some high =>
    if 0xdc00 ≤ unit ∧ unit < 0xe000 then
      some (.string (chars ++
        encodePoint (0x10000 + (high - 0xd800) * 1024 + (unit - 0xdc00))))
    else none

/-- The end of a string, which names a member or is a value. -/
def closeString (stack : List Frame) (chars : Bytes) : Reader :=
  match stack with
  | .members before :: rest => ⟨.member before chars :: rest, .colon⟩
  | _ => ⟨stack, .after (.str chars)⟩

/-- The first byte of a value. -/
def openValue (stack : List Frame) (c : UInt8) : Option Reader :=
  if c = 34 then some ⟨stack, .string []⟩
  else if c = 91 then some ⟨.items [] :: stack, .firstItem⟩
  else if c = 123 then some ⟨.members [] :: stack, .firstMember⟩
  else if c = 116 then some ⟨stack, .word (text "rue") (.bool true)⟩
  else if c = 102 then some ⟨stack, .word (text "alse") (.bool false)⟩
  else if c = 110 then some ⟨stack, .word (text "ull") .null⟩
  else if c = 45 || isDigit c then some ⟨stack, .number [c]⟩
  else none

/-- The byte that follows a value. -/
def closeValue (stack : List Frame) (value : Json) (c : UInt8) : Option Reader :=
  if isBlank c then some ⟨stack, .after value⟩
  else
    match stack with
    | .items before :: rest =>
      if c = 44 then some ⟨.items (before ++ [value]) :: rest, .value⟩
      else if c = 93 then some ⟨rest, .after (.arr (before ++ [value]))⟩
      else none
    | .member before name :: rest =>
      if c = 44 then some ⟨.members (setMember name value before) :: rest, .name⟩
      else if c = 125 then some ⟨rest, .after (.obj (setMember name value before))⟩
      else none
    | _ => none

/-- The end of an array or an object that has nothing in it. -/
def closeEmpty (stack : List Frame) : Option Reader :=
  match stack with
  | .items _ :: rest => some ⟨rest, .after (.arr [])⟩
  | .members _ :: rest => some ⟨rest, .after (.obj [])⟩
  | _ => none

/-- The reader takes a byte. -/
def Reader.step (r : Reader) (c : UInt8) : Option Reader :=
  match r.mode with
  | .value => if isBlank c then some r else openValue r.stack c
  | .firstItem =>
    if isBlank c then some r else if c = 93 then closeEmpty r.stack else openValue r.stack c
  | .firstMember =>
    if isBlank c then some r
    else if c = 125 then closeEmpty r.stack
    else if c = 34 then some ⟨r.stack, .string []⟩
    else none
  | .name =>
    if isBlank c then some r else if c = 34 then some ⟨r.stack, .string []⟩ else none
  | .colon =>
    if isBlank c then some r else if c = 58 then some ⟨r.stack, .value⟩ else none
  | .after value => closeValue r.stack value c
  | .string chars =>
    if c = 34 then some (closeString r.stack chars)
    else if c = 92 then some ⟨r.stack, .escape chars⟩
    else if c < 32 then none
    else some ⟨r.stack, .string (chars ++ [c])⟩
  | .escape chars =>
    if c = 117 then some ⟨r.stack, .hex chars none []⟩
    else (unescape c).map fun d => ⟨r.stack, .string (chars ++ [d])⟩
  | .hex chars high digits =>
    if (hexValue c).isNone then none
    else if digits.length < 3 then some ⟨r.stack, .hex chars high (digits ++ [c])⟩
    else (pushUnit chars high (hexNumber (digits ++ [c]))).map fun mode => ⟨r.stack, mode⟩
  | .low chars high => if c = 92 then some ⟨r.stack, .lowEscape chars high⟩ else none
  | .lowEscape chars high =>
    if c = 117 then some ⟨r.stack, .hex chars (some high) []⟩ else none
  | .word rest value =>
    match rest with
    | [] => closeValue r.stack value c
    | d :: rest => if c = d then some ⟨r.stack, .word rest value⟩ else none
  | .number token =>
    if isNumeric c then some ⟨r.stack, .number (token ++ [c])⟩
    else (numberValue token).bind fun value => closeValue r.stack value c

/-- The reader takes a text. -/
def Reader.run (r : Reader) : Bytes → Option Reader
  | [] => some r
  | c :: s => (r.step c).bind fun r => r.run s

/-- The value read, if nothing is missing. -/
def Reader.finish (r : Reader) : Option Json :=
  match r.stack, r.mode with
  | [], .after value => some value
  | [], .word [] value => some value
  | [], .number token => numberValue token
  | _, _ => none

/-- The value of a text of the standard grammar; none if the text is none. A
library of 64-bit integers gives the same value where the numbers fit. -/
def readJson (s : Bytes) : Option Json :=
  if IsUtf8 s then ((⟨[], .value⟩ : Reader).run s).bind Reader.finish else none

section plain

variable (stack : List Frame)

/-- A plain string is read as it stands. -/
theorem run_plain {t : Bytes} (ht : Plain t) (chars s : Bytes) :
    (⟨stack, .string chars⟩ : Reader).run (t ++ s) =
      (⟨stack, .string (chars ++ t)⟩ : Reader).run s := by
  induction t generalizing chars with
  | nil => rw [List.nil_append, List.append_nil]
  | cons c t ih =>
    have hc := ht c List.mem_cons_self
    simp only [isSpecial, Bool.or_eq_false_iff, beq_eq_false_iff_ne, decide_eq_false_iff_not] at hc
    obtain ⟨⟨hquote, hslash⟩, hcontrol⟩ := hc
    have hstep : (⟨stack, .string chars⟩ : Reader).step c = some ⟨stack, .string (chars ++ [c])⟩ := by
      simp only [Reader.step, hquote, hslash, hcontrol, if_false]
    rw [List.cons_append, Reader.run, hstep, Option.bind_some,
      ih (fun d hd => ht d (List.mem_cons_of_mem c hd)), List.append_assoc, List.singleton_append]

/-- Bytes of numbers are collected. -/
theorem run_numeric {t : Bytes} (ht : ∀ c ∈ t, isNumeric c = true) (token s : Bytes) :
    (⟨stack, .number token⟩ : Reader).run (t ++ s) =
      (⟨stack, .number (token ++ t)⟩ : Reader).run s := by
  induction t generalizing token with
  | nil => rw [List.nil_append, List.append_nil]
  | cons c t ih =>
    have hstep : (⟨stack, .number token⟩ : Reader).step c = some ⟨stack, .number (token ++ [c])⟩ := by
      simp only [Reader.step, ht c List.mem_cons_self, if_true]
    rw [List.cons_append, Reader.run, hstep, Option.bind_some,
      ih (fun d hd => ht d (List.mem_cons_of_mem c hd)), List.append_assoc, List.singleton_append]

theorem decNat_no_zero {n : ℕ} (hn : n ≠ 0) : (decNat n).head? ≠ some 48 := by
  induction n using Nat.strong_induction_on with
  | _ n ih =>
    rw [decNat_eq]
    split
    · next hlt =>
      have hall : ∀ d < 10, d ≠ 0 → (Nat.digitChar d).toUInt8 ≠ 48 := by decide
      simpa using hall n hlt hn
    · next hge =>
      rw [List.head?_append_of_ne_nil _ (decNat_ne_nil _)]
      exact ih (n / 10) (by omega) (by omega)

/-- A decimal rendering is a number's text. -/
theorem numberValue_dec (n : ℤ) : numberValue (dec n) = some (.int n) := by
  have hdigits : ∀ m : ℕ, (decNat m).takeWhile isDigit = decNat m ∧
      (decNat m).dropWhile isDigit = [] := by
    intro m
    have hall : ∀ c ∈ decNat m, isDigit c = true := fun c hc => isDigit_of_mem_decNat hc
    exact ⟨List.takeWhile_eq_self_iff.mpr hall, List.dropWhile_eq_nil_iff.mpr hall⟩
  have hzero : ∀ m : ℕ, ((decNat m).isEmpty ||
      ((decNat m).head? == some 48 && decide (1 < (decNat m).length))) = false := by
    intro m
    have hne : (decNat m).isEmpty = false := by simpa using decNat_ne_nil m
    rw [hne, Bool.false_or, Bool.and_eq_false_iff]
    by_cases hm : m = 0
    · rw [hm]
      exact .inr rfl
    · exact .inl (by simpa using decNat_no_zero hm)
  by_cases hn : n < 0
  · have hdec : dec n = 45 :: decNat n.natAbs := by
      rw [dec, if_pos hn]
      rfl
    have hvalue : -(n.natAbs : ℤ) = n := by omega
    simp only [numberValue, hdec, List.head?_cons, beq_self_eq_true, if_true, List.drop_succ_cons,
      List.drop_zero, (hdigits _).1, (hdigits _).2, hzero, Bool.false_eq_true, if_false,
      List.isEmpty_nil, digitsValue_decNat, hvalue]
  · have hminus : ((decNat n.natAbs).head? == some 45) = false := by
      cases hd : decNat n.natAbs with
      | nil => rfl
      | cons c rest =>
        have hc : isDigit c = true := isDigit_of_mem_decNat (hd ▸ List.mem_cons_self)
        have hne : c ≠ 45 := by
          rintro rfl
          exact absurd hc (by decide)
        simpa using hne
    have hvalue : (n.natAbs : ℤ) = n := by omega
    simp only [numberValue, dec, hn, if_false, hminus, Bool.false_eq_true, (hdigits _).1,
      (hdigits _).2, hzero, List.isEmpty_nil, if_true, digitsValue_decNat, hvalue]

/-- A decimal rendering is read up to the next byte that is in no number. -/
theorem run_dec (n : ℤ) {c : UInt8} (hc : isNumeric c = false) (s : Bytes) :
    (⟨stack, .value⟩ : Reader).run (dec n ++ c :: s) =
      (closeValue stack (.int n) c).bind fun r => r.run s := by
  have hnumeric : ∀ m : ℕ, ∀ d ∈ decNat m, isNumeric d = true := by
    intro m d hd
    simp [isNumeric, isDigit_of_mem_decNat hd]
  have hall : ∀ d ∈ dec n, isNumeric d = true := by
    unfold dec
    split
    · intro d hd
      rcases List.mem_append.mp hd with hd | hd
      · rw [List.mem_singleton.mp hd]
        decide
      · exact hnumeric _ d hd
    · exact hnumeric _
  have hopen : ∀ d, d = 45 ∨ isDigit d = true →
      (⟨stack, .value⟩ : Reader).step d = some ⟨stack, .number [d]⟩ := by
    intro d hd
    have hkind : ∀ d : Fin 256, UInt8.ofNat d = 45 ∨ isDigit (UInt8.ofNat d) = true →
        isBlank (UInt8.ofNat d) = false ∧ UInt8.ofNat d ≠ 34 ∧ UInt8.ofNat d ≠ 91 ∧
          UInt8.ofNat d ≠ 123 ∧ UInt8.ofNat d ≠ 116 ∧ UInt8.ofNat d ≠ 102 ∧
          UInt8.ofNat d ≠ 110 := by decide +kernel
    obtain ⟨h0, h1, h2, h3, h4, h5, h6⟩ := hkind ⟨d.toNat, d.toNat_lt⟩ (by simpa using hd)
    simp only [UInt8.ofNat_toNat] at h0 h1 h2 h3 h4 h5 h6
    have hlast : (decide (d = 45) || isDigit d) = true := by simpa using hd
    simp only [Reader.step, openValue, h0, h1, h2, h3, h4, h5, h6, Bool.false_eq_true, if_false,
      hlast, if_true]
  obtain ⟨d, rest, hdec, hd⟩ : ∃ d rest, dec n = d :: rest ∧ (d = 45 ∨ isDigit d = true) := by
    unfold dec
    split
    · exact ⟨45, decNat n.natAbs, rfl, .inl rfl⟩
    · cases hm : decNat n.natAbs with
      | nil => exact absurd hm (decNat_ne_nil _)
      | cons d rest => exact ⟨d, rest, rfl, .inr (isDigit_of_mem_decNat (hm ▸ List.mem_cons_self))⟩
  have hrest : ∀ x ∈ rest, isNumeric x = true := fun x hx =>
    hall x (hdec ▸ List.mem_cons_of_mem d hx)
  have hvalue := numberValue_dec n
  rw [hdec] at hvalue ⊢
  rw [List.cons_append, Reader.run, hopen d hd, Option.bind_some, run_numeric stack hrest,
    List.singleton_append, Reader.run]
  simp only [Reader.step, hc, Bool.false_eq_true, if_false, hvalue, Option.bind_some]

end plain

section cost

/-- How often a text holds a backslash or the marked byte. -/
def weight (mark : UInt8) (s : Bytes) : ℕ := s.countP fun c => c == 92 || c == mark

/-- What a string costs the text it is read from: its weight, and one more for
each byte it holds only under an escape. -/
def cost (mark : UInt8) (s : Bytes) : ℕ := weight mark s + s.countP isSpecial

/-- What strings cost together. -/
def costs (mark : UInt8) (texts : List Bytes) : ℕ := (texts.map (cost mark)).sum

/-- The strings read so far in what is open. -/
def Frame.strings : Frame → List Bytes
  | .items before => itemStrings before
  | .members before => memberStrings before
  | .member before name => memberStrings before ++ [name]

/-- What the string or value being read has cost. -/
def Mode.cost (mark : UInt8) : Mode → ℕ
  | .after j => costs mark j.strings
  | .string chars => JsonReading.cost mark chars
  | .escape chars => JsonReading.cost mark chars + 1
  | .hex chars _ digits =>
    JsonReading.cost mark chars + 1 + weight mark [117] + weight mark digits
  | .low chars _ => JsonReading.cost mark chars
  | .lowEscape chars _ => JsonReading.cost mark chars + 1
  | .word _ j => costs mark j.strings
  | _ => 0

/-- What a stack has cost. -/
def stackCost (mark : UInt8) (stack : List Frame) : ℕ :=
  (stack.map fun frame => costs mark frame.strings).sum

/-- What has been read so far has cost. -/
def Reader.cost (mark : UInt8) (r : Reader) : ℕ := stackCost mark r.stack + r.mode.cost mark

variable {mark : UInt8}

theorem weight_append (s t : Bytes) : weight mark (s ++ t) = weight mark s + weight mark t :=
  List.countP_append

theorem cost_append (s t : Bytes) : cost mark (s ++ t) = cost mark s + cost mark t := by
  unfold cost
  rw [weight_append, List.countP_append]
  omega

theorem costs_append (s t : List Bytes) : costs mark (s ++ t) = costs mark s + costs mark t := by
  unfold costs
  rw [List.map_append, List.sum_append]

theorem costs_singleton (s : Bytes) : costs mark [s] = cost mark s := by
  simp [costs]

theorem costs_cons (s : Bytes) (t : List Bytes) :
    costs mark (s :: t) = cost mark s + costs mark t := by
  simp [costs]

theorem itemStrings_append (items : List Json) (item : Json) :
    itemStrings (items ++ [item]) = itemStrings items ++ item.strings := by
  induction items with
  | nil => simp [itemStrings]
  | cons head rest ih => rw [List.cons_append, itemStrings, itemStrings, ih, List.append_assoc]

/-- A member that is set costs no more than its name and its value. -/
theorem costs_setMember (name : Bytes) (value : Json) (members : List (Bytes × Json)) :
    costs mark (memberStrings (setMember name value members)) ≤
      costs mark (memberStrings members) + cost mark name + costs mark value.strings := by
  induction members with
  | nil =>
    simp only [setMember, memberStrings, costs_cons, costs_append]
    omega
  | cons m rest ih =>
    unfold setMember
    split
    · simp only [memberStrings, costs_cons, costs_append]
      omega
    · split
      · simp only [memberStrings, costs_cons, costs_append]
        omega
      · simp only [memberStrings, costs_cons, costs_append]
        omega

/-- A number holds no string. -/
theorem strings_numberValue {token : Bytes} {value : Json} (h : numberValue token = some value) :
    value.strings = [] := by
  unfold numberValue at h
  extract_lets negative body whole rest at h
  split at h
  · cases h
  · split at h
    · cases h
      rfl
    · split at h
      · cases h
      · obtain ⟨e, -, rfl⟩ := Option.map_eq_some_iff.mp h
        rfl

theorem stackCost_cons (frame : Frame) (stack : List Frame) :
    stackCost mark (frame :: stack) = costs mark frame.strings + stackCost mark stack := by
  simp [stackCost]

theorem cost_closeString (stack : List Frame) (chars : Bytes) :
    (closeString stack chars).cost mark ≤ stackCost mark stack + cost mark chars := by
  unfold closeString
  split
  · simp only [Reader.cost, Mode.cost, stackCost_cons, Frame.strings, costs_append, costs_singleton]
    omega
  · simp only [Reader.cost, Mode.cost, Json.strings, costs_singleton]
    exact le_refl _

theorem cost_openValue {stack : List Frame} {c : UInt8} {r : Reader}
    (h : openValue stack c = some r) : r.cost mark ≤ stackCost mark stack := by
  unfold openValue at h
  split_ifs at h <;> cases h <;>
    simp [Reader.cost, Mode.cost, stackCost_cons, Frame.strings, itemStrings, memberStrings, costs,
      Json.strings, cost, weight]

theorem cost_closeEmpty {stack : List Frame} {r : Reader} (h : closeEmpty stack = some r) :
    r.cost mark ≤ stackCost mark stack := by
  unfold closeEmpty at h
  split at h
  · cases h
    simp [Reader.cost, Mode.cost, stackCost_cons, Json.strings, itemStrings, costs]
  · cases h
    simp [Reader.cost, Mode.cost, stackCost_cons, Json.strings, memberStrings, costs]
  · cases h

theorem cost_closeValue {stack : List Frame} {value : Json} {c : UInt8} {r : Reader}
    (h : closeValue stack value c = some r) :
    r.cost mark ≤ stackCost mark stack + costs mark value.strings := by
  unfold closeValue at h
  split at h
  · cases h
    exact le_refl _
  · split at h
    · next before rest =>
      split_ifs at h
      · cases h
        simp only [Reader.cost, Mode.cost, stackCost_cons, Frame.strings, itemStrings_append,
          costs_append]
        omega
      · cases h
        simp only [Reader.cost, Mode.cost, stackCost_cons, Frame.strings, Json.strings,
          itemStrings_append, costs_append]
        omega
    · next before name rest =>
      have hset := @costs_setMember mark name value before
      split_ifs at h
      · cases h
        simp only [Reader.cost, Mode.cost, stackCost_cons, Frame.strings, costs_append,
          costs_singleton]
        omega
      · cases h
        simp only [Reader.cost, Mode.cost, stackCost_cons, Frame.strings, Json.strings,
          costs_append, costs_singleton]
        omega
    · cases h

/-- Only one hexadecimal digit denotes 5. -/
theorem hexValue_getD (c : UInt8) :
    (hexValue c).getD 0 < 16 ∧ ((hexValue c).getD 0 = 5 → c = 53) := by
  have hall : ∀ c : Fin 256, (hexValue (UInt8.ofNat c)).getD 0 < 16 ∧
      ((hexValue (UInt8.ofNat c)).getD 0 = 5 → UInt8.ofNat c = 53) := by decide +kernel
  simpa using hall ⟨c.toNat, c.toNat_lt⟩

theorem hexNumber_append (s : Bytes) (c : UInt8) :
    hexNumber (s ++ [c]) = hexNumber s * 16 + (hexValue c).getD 0 := by
  simp [hexNumber]

/-- The escape of a backslash by its number holds the digit 5. -/
theorem five_mem_of_hexNumber {s : Bytes} (h : hexNumber s = 92) : 53 ∈ s := by
  rcases List.eq_nil_or_concat s with rfl | ⟨t, c, rfl⟩
  · cases h
  · rw [List.concat_eq_append, hexNumber_append] at h
    have hc := (hexValue_getD c).1
    have ht : hexNumber t = 5 := by omega
    rcases List.eq_nil_or_concat t with rfl | ⟨u, d, rfl⟩
    · cases ht
    · rw [List.concat_eq_append, hexNumber_append] at ht
      have hd := (hexValue_getD d).2 (by omega)
      simp [hd]

theorem cost_singleton_le (c : UInt8) (hne : c ≠ 92) (hmark : isSpecial mark = false) :
    cost mark [c] ≤ 1 := by
  unfold cost weight
  by_cases hm : c = mark
  · rw [hm]
    simp [hmark]
  · cases hs : isSpecial c <;> simp [hne, hm, hs]

/-- Bytes of longer encodings cost nothing. -/
theorem cost_of_high (hmark : mark < 128) {s : Bytes} (h : ∀ c ∈ s, 128 ≤ c.toNat) :
    cost mark s = 0 := by
  unfold cost weight
  rw [Nat.add_eq_zero_iff, List.countP_eq_zero, List.countP_eq_zero]
  have hm : mark.toNat < 128 := UInt8.lt_iff_toNat_lt.mp hmark
  constructor
  · intro c hc
    have hle := h c hc
    have h92 : c ≠ 92 := by
      rintro rfl
      exact absurd hle (by decide)
    have hcm : c ≠ mark := by
      rintro rfl
      omega
    simp [h92, hcm]
  · intro c hc
    have hle := h c hc
    have hnot : isSpecial c = false := by
      have h34 : c ≠ 34 := by
        rintro rfl
        exact absurd hle (by decide)
      have h92 : c ≠ 92 := by
        rintro rfl
        exact absurd hle (by decide)
      have h32 : ¬c < 32 := by
        rw [UInt8.lt_iff_toNat_lt]
        change ¬c.toNat < 32
        omega
      simp [isSpecial, h34, h92, h32]
    simp [hnot]

/-- A long encoding costs nothing. -/
theorem cost_encodePoint_of_le (hmark : mark < 128) {n : ℕ} (hn : 128 ≤ n) :
    cost mark (encodePoint n) = 0 := by
  refine cost_of_high hmark ?_
  intro c hc
  unfold encodePoint at hc
  rw [if_neg (by omega)] at hc
  split_ifs at hc
  · simp only [List.mem_cons, List.not_mem_nil, or_false] at hc
    rcases hc with rfl | rfl <;> rw [UInt8.toNat_ofNat'] <;> omega
  · simp only [List.mem_cons, List.not_mem_nil, or_false] at hc
    rcases hc with rfl | rfl | rfl <;> rw [UInt8.toNat_ofNat'] <;> omega
  · simp only [List.mem_cons, List.not_mem_nil, or_false] at hc
    rcases hc with rfl | rfl | rfl | rfl <;> rw [UInt8.toNat_ofNat'] <;> omega

/-- The marked byte occurs in every numbered escape of a backslash. -/
def IsMark (mark : UInt8) : Prop := mark = 117 ∨ mark = 53

theorem IsMark.lt (h : IsMark mark) : mark < 128 := by
  rcases h with rfl | rfl <;> decide

theorem IsMark.plain (h : IsMark mark) : isSpecial mark = false := by
  rcases h with rfl | rfl <;> decide

/-- A character costs no more than its numbered escape. -/
theorem cost_encodePoint (h : IsMark mark) (digits : Bytes) :
    cost mark (encodePoint (hexNumber digits)) ≤ 1 + weight mark [117] + weight mark digits := by
  by_cases hlt : hexNumber digits < 128
  · have hone : encodePoint (hexNumber digits) = [UInt8.ofNat (hexNumber digits)] := if_pos hlt
    rw [hone]
    by_cases h92 : hexNumber digits = 92
    · have hcost : cost mark [UInt8.ofNat (hexNumber digits)] = 2 := by
        rw [h92]
        rcases h with rfl | rfl <;> decide
      have hmarked : 1 ≤ weight mark [117] + weight mark digits := by
        rcases h with rfl | rfl
        · exact Nat.le_add_right _ _
        · have hpos : 0 < weight 53 digits :=
            List.countP_pos_iff.mpr ⟨53, five_mem_of_hexNumber h92, by decide⟩
          omega
      omega
    · have hne : UInt8.ofNat (hexNumber digits) ≠ 92 := by
        intro he
        have hnat := congrArg UInt8.toNat he
        rw [UInt8.toNat_ofNat', Nat.mod_eq_of_lt (by omega)] at hnat
        exact h92 hnat
      have hle := cost_singleton_le _ hne h.plain
      omega
  · rw [cost_encodePoint_of_le h.lt (by omega)]
    exact Nat.zero_le _

/-- A code unit costs no more than its numbered escape. -/
theorem cost_pushUnit (h : IsMark mark) {chars digits : Bytes} {high : Option ℕ} {mode : Mode}
    (hpush : pushUnit chars high (hexNumber digits) = some mode) :
    mode.cost mark ≤ cost mark chars + 1 + weight mark [117] + weight mark digits := by
  unfold pushUnit at hpush
  cases high with
  | none =>
    dsimp only at hpush
    split_ifs at hpush
    · cases hpush
      simp only [Mode.cost]
      omega
    · cases hpush
      have hle := cost_encodePoint h digits
      simp only [Mode.cost, cost_append]
      omega
  | some high =>
    dsimp only at hpush
    split_ifs at hpush
    cases hpush
    rw [Mode.cost, cost_append, cost_encodePoint_of_le h.lt (by omega)]
    omega

theorem cost_unescape (h : IsMark mark) {c d : UInt8} (hc : unescape c = some d) :
    cost mark [d] ≤ 1 + weight mark [c] := by
  have hall : ∀ c : Fin 256, ∀ d ∈ unescape (UInt8.ofNat c),
      cost 117 [d] ≤ 1 + weight 117 [UInt8.ofNat c] ∧
        cost 53 [d] ≤ 1 + weight 53 [UInt8.ofNat c] := by decide +kernel
  have hd := hall ⟨c.toNat, c.toNat_lt⟩ d (by simpa using hc)
  simp only [UInt8.ofNat_toNat] at hd
  rcases h with rfl | rfl
  · exact hd.1
  · exact hd.2

/-- A backslash weighs one. -/
theorem weight_backslash (h : IsMark mark) : weight mark [92] = 1 := by
  rcases h with rfl | rfl <;> decide

/-- A byte of a string costs no more than it weighs. -/
theorem cost_step_string (h : IsMark mark) {stack : List Frame} {chars : Bytes} {r' : Reader}
    {c : UInt8} (hstep : (⟨stack, .string chars⟩ : Reader).step c = some r') :
    r'.cost mark ≤ stackCost mark stack + cost mark chars + weight mark [c] := by
  unfold Reader.step at hstep
  dsimp only at hstep
  split_ifs at hstep with hquote hback hcontrol
  · cases hstep
    exact (cost_closeString stack chars).trans (Nat.le_add_right _ _)
  · cases hstep
    simp only [Reader.cost, Mode.cost, hback, weight_backslash h]
    omega
  · cases hstep
    have hnot : isSpecial c = false := by simp [isSpecial, hquote, hback, hcontrol]
    have hone : cost mark [c] = weight mark [c] := by simp [cost, hnot]
    simp only [Reader.cost, Mode.cost, cost_append, hone]
    omega

/-- The byte of an escape costs no more than the escape. -/
theorem cost_step_escape (h : IsMark mark) {stack : List Frame} {chars : Bytes} {r' : Reader}
    {c : UInt8} (hstep : (⟨stack, .escape chars⟩ : Reader).step c = some r') :
    r'.cost mark ≤ stackCost mark stack + (cost mark chars + 1) + weight mark [c] := by
  unfold Reader.step at hstep
  dsimp only at hstep
  split_ifs at hstep with hu
  · cases hstep
    have hnone : weight mark [] = 0 := rfl
    simp only [Reader.cost, Mode.cost, hu, hnone]
    omega
  · obtain ⟨d, hd, rfl⟩ := Option.map_eq_some_iff.mp hstep
    have hle := cost_unescape h hd
    simp only [Reader.cost, Mode.cost, cost_append]
    omega

/-- A character costs no more than the digits of its escape. -/
theorem cost_step_hex (h : IsMark mark) {stack : List Frame} {chars digits : Bytes}
    {high : Option ℕ} {r' : Reader} {c : UInt8}
    (hstep : (⟨stack, .hex chars high digits⟩ : Reader).step c = some r') :
    r'.cost mark ≤ stackCost mark stack +
      (cost mark chars + 1 + weight mark [117] + weight mark digits) + weight mark [c] := by
  unfold Reader.step at hstep
  dsimp only at hstep
  split_ifs at hstep
  · cases hstep
    simp only [Reader.cost, Mode.cost, weight_append]
    omega
  · obtain ⟨mode, hmode, rfl⟩ := Option.map_eq_some_iff.mp hstep
    have hle := cost_pushUnit h hmode
    rw [weight_append] at hle
    change stackCost mark stack + mode.cost mark ≤ stackCost mark stack +
      (cost mark chars + 1 + weight mark [117] + weight mark digits) + weight mark [c]
    omega

/-- A byte behind a number closes a value without strings. -/
theorem cost_step_number {stack : List Frame} {token : Bytes} {r' : Reader} {c : UInt8}
    (hstep : (⟨stack, .number token⟩ : Reader).step c = some r') :
    r'.cost mark ≤ stackCost mark stack := by
  unfold Reader.step at hstep
  dsimp only at hstep
  split_ifs at hstep
  · cases hstep
    exact le_refl _
  · obtain ⟨value, hvalue, hclose⟩ := Option.bind_eq_some_iff.mp hstep
    have hle := @cost_closeValue mark stack value c r' hclose
    rwa [strings_numberValue hvalue] at hle

/-- A byte adds no more to what has been read than its weight. -/
theorem cost_step (h : IsMark mark) {r r' : Reader} {c : UInt8} (hstep : r.step c = some r') :
    r'.cost mark ≤ r.cost mark + weight mark [c] := by
  obtain ⟨stack, mode⟩ := r
  have hopen : ∀ {r'}, openValue stack c = some r' → r'.cost mark ≤ stackCost mark stack :=
    cost_openValue
  have hempty : ∀ {r'}, closeEmpty stack = some r' → r'.cost mark ≤ stackCost mark stack :=
    cost_closeEmpty
  cases mode with
  | value =>
    unfold Reader.step at hstep
    dsimp only at hstep
    split_ifs at hstep
    · cases hstep
      exact Nat.le_add_right _ _
    · exact (hopen hstep).trans (by simp [Reader.cost, Mode.cost])
  | firstItem =>
    unfold Reader.step at hstep
    dsimp only at hstep
    split_ifs at hstep
    · cases hstep
      exact Nat.le_add_right _ _
    · exact (hempty hstep).trans (by simp [Reader.cost, Mode.cost])
    · exact (hopen hstep).trans (by simp [Reader.cost, Mode.cost])
  | firstMember =>
    unfold Reader.step at hstep
    dsimp only at hstep
    split_ifs at hstep
    · cases hstep
      exact Nat.le_add_right _ _
    · exact (hempty hstep).trans (by simp [Reader.cost, Mode.cost])
    · cases hstep
      simp [Reader.cost, Mode.cost, cost, weight]
  | name =>
    unfold Reader.step at hstep
    dsimp only at hstep
    split_ifs at hstep
    · cases hstep
      exact Nat.le_add_right _ _
    · cases hstep
      simp [Reader.cost, Mode.cost, cost, weight]
  | colon =>
    unfold Reader.step at hstep
    dsimp only at hstep
    split_ifs at hstep
    · cases hstep
      exact Nat.le_add_right _ _
    · cases hstep
      simp [Reader.cost, Mode.cost]
  | after value =>
    exact (cost_closeValue hstep).trans (Nat.le_add_right _ _)
  | string chars => exact cost_step_string h hstep
  | escape chars => exact cost_step_escape h hstep
  | hex chars high digits => exact cost_step_hex h hstep
  | low chars high =>
    unfold Reader.step at hstep
    dsimp only at hstep
    split_ifs at hstep with hback
    cases hstep
    simp only [Reader.cost, Mode.cost, hback, weight_backslash h]
    omega
  | lowEscape chars high =>
    unfold Reader.step at hstep
    dsimp only at hstep
    split_ifs at hstep with hu
    cases hstep
    have hnone : weight mark [] = 0 := rfl
    simp only [Reader.cost, Mode.cost, hu, hnone]
    omega
  | word rest value =>
    cases rest with
    | nil => exact (cost_closeValue hstep).trans (Nat.le_add_right _ _)
    | cons d rest =>
      unfold Reader.step at hstep
      dsimp only at hstep
      split_ifs at hstep
      cases hstep
      exact Nat.le_add_right _ _
  | number token => exact (cost_step_number hstep).trans (Nat.le_add_right _ _)

theorem cost_run (h : IsMark mark) {r r' : Reader} {s : Bytes} (hrun : r.run s = some r') :
    r'.cost mark ≤ r.cost mark + weight mark s := by
  induction s generalizing r with
  | nil =>
    cases hrun
    exact Nat.le_add_right _ _
  | cons c s ih =>
    obtain ⟨next, hstep, hrest⟩ := Option.bind_eq_some_iff.mp hrun
    have hfirst := cost_step h hstep
    have hsplit : weight mark (c :: s) = weight mark [c] + weight mark s := weight_append [c] s
    have hle := ih hrest
    omega

/-- The strings of a JSON text cost no more than the text weighs. -/
theorem costs_readJson (h : IsMark mark) {s : Bytes} {j : Json} (hread : readJson s = some j) :
    costs mark j.strings ≤ weight mark s := by
  unfold readJson at hread
  split at hread
  · obtain ⟨r, hrun, hfinish⟩ := Option.bind_eq_some_iff.mp hread
    have hle := cost_run h hrun
    have hzero : (⟨[], .value⟩ : Reader).cost mark = 0 := rfl
    rw [hzero, Nat.zero_add] at hle
    unfold Reader.finish at hfinish
    split at hfinish
    · next value hstack hmode =>
      cases hfinish
      simpa [Reader.cost, hstack, hmode, Mode.cost, stackCost] using hle
    · next value hstack hmode =>
      cases hfinish
      simpa [Reader.cost, hstack, hmode, Mode.cost, stackCost] using hle
    · rw [strings_numberValue hfinish]
      exact Nat.zero_le _
    · cases hfinish
  · cases hread

end cost

end Dlads.JsonReading
