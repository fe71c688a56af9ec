import Mathlib.Data.List.TakeWhile
import Mathlib.Data.Nat.Digits.Lemmas

/-!
# Reading JSON texts

A reader for the strings, the whole numbers, the arrays and the objects of JSON, byte by byte, in
the grammar of the standard with one exception: the bytes of a string from 0x80 on are passed
through, and nothing checks that they are UTF-8, as the standard wants them to be. Fractions,
exponents, the three literal names and escapes beyond ASCII are left out. The rules below say
what the reader makes of a text that is put together from parts, whatever text follows it, so a
program that writes a document piece by piece is compared with the value it means to write.
-/

namespace NixieVfdCentral.JsonText

/-- A value. -/
inductive Json
  /-- A string, as the bytes it stands for. -/
  | string (bytes : List UInt8)
  /-- A whole number. -/
  | number (n : ℤ)
  /-- An array. -/
  | array (items : List Json)
  /-- An object. -/
  | object (members : List (List UInt8 × Json))

/-- The characters of a text. -/
def text (s : String) : List UInt8 := s.toList.map Char.toUInt8

/-- The quotation mark. -/
def quotationMark : UInt8 := 0x22

/-- The character that begins an escape. -/
def reverseSolidus : UInt8 := 0x5c

/-- The character between the name and the value of a member. -/
def nameSeparator : UInt8 := 0x3a

/-- The character between two items or members. -/
def valueSeparator : UInt8 := 0x2c

/-- The character that begins an array. -/
def beginArray : UInt8 := 0x5b

/-- The character that ends an array. -/
def endArray : UInt8 := 0x5d

/-- The character that begins an object. -/
def beginObject : UInt8 := 0x7b

/-- The character that ends an object. -/
def endObject : UInt8 := 0x7d

/-- The sign of a negative number. -/
def minus : UInt8 := 0x2d

/-- The characters that may stand between the parts of a text. -/
def isBlank (c : UInt8) : Bool := c = 0x20 || c = 0x09 || c = 0x0a || c = 0x0d

/-- The digits. -/
def isDigit (c : UInt8) : Bool := 0x30 ≤ c && c ≤ 0x39

/-- What follows the blanks. -/
def skipBlanks (input : List UInt8) : List UInt8 := input.dropWhile isBlank

/-- The value of a hexadecimal digit. -/
def hexValue (c : UInt8) : Option ℕ :=
  if 0x30 ≤ c ∧ c ≤ 0x39 then some (c.toNat - 0x30)
  else if 0x61 ≤ c ∧ c ≤ 0x66 then some (c.toNat - 0x61 + 10)
  else if 0x41 ≤ c ∧ c ≤ 0x46 then some (c.toNat - 0x41 + 10)
  else none

/-- The character that four hexadecimal digits stand for, if it is an ASCII character. -/
def unicodeEscape (a b c d : UInt8) : Option UInt8 :=
  match hexValue a, hexValue b, hexValue c, hexValue d with
  | some a, some b, some c, some d =>
    if 4096 * a + 256 * b + 16 * c + d < 128 then some (4096 * a + 256 * b + 16 * c + d).toUInt8
    else none
  | _, _, _, _ => none

/-- The character that an escape of one character stands for. -/
def characterEscape (c : UInt8) : Option UInt8 :=
  if c = quotationMark then some quotationMark
  else if c = reverseSolidus then some reverseSolidus
  else if c = 0x2f then some 0x2f
  else if c = 0x62 then some 0x08
  else if c = 0x66 then some 0x0c
  else if c = 0x6e then some 0x0a
  else if c = 0x72 then some 0x0d
  else if c = 0x74 then some 0x09
  else none

/-- Read a string behind its first quotation mark. Bytes from 0x80 on stand for themselves, be
they UTF-8 or not. -/
def readString : List UInt8 → Option (List UInt8 × List UInt8)
  | [] => none
  | c :: rest =>
    if c = quotationMark then some ([], rest)
    else if c = reverseSolidus then
      match rest with
      | [] => none
      | e :: rest =>
        if e = 0x75 then
          match rest with
          | h₁ :: h₂ :: h₃ :: h₄ :: rest =>
            (unicodeEscape h₁ h₂ h₃ h₄).bind fun x =>
              (readString rest).map fun r => (x :: r.1, r.2)
          | _ => none
        else (characterEscape e).bind fun x => (readString rest).map fun r => (x :: r.1, r.2)
    else if c < 0x20 then none
    else (readString rest).map fun r => (c :: r.1, r.2)

/-- Read a number without a sign. A zero is not followed by further digits. -/
def readDigits (input : List UInt8) : Option (ℕ × List UInt8) :=
  match input.takeWhile isDigit with
  | [] => none
  | c :: digits =>
    if c = 0x30 ∧ digits ≠ [] then none
    else
      some ((c :: digits).foldl (fun n c => 10 * n + (c.toNat - 0x30)) 0, input.dropWhile isDigit)

/-- Read a number. -/
def readNumber : List UInt8 → Option (ℤ × List UInt8)
  | [] => none
  | c :: rest =>
    if c = minus then (readDigits rest).map fun r => (-(r.1 : ℤ), r.2)
    else (readDigits (c :: rest)).map fun r => ((r.1 : ℤ), r.2)

mutual

/-- Read a value. -/
def readValue : ℕ → List UInt8 → Option (Json × List UInt8)
  | 0, _ => none
  | fuel + 1, input =>
    match skipBlanks input with
    | [] => none
    | c :: rest =>
      if c = quotationMark then (readString rest).map fun r => (.string r.1, r.2)
      else if c = beginArray then
        if (skipBlanks rest).head? = some endArray then some (.array [], (skipBlanks rest).tail)
        else (readItems fuel rest).map fun r => (.array r.1, r.2)
      else if c = beginObject then
        if (skipBlanks rest).head? = some endObject then some (.object [], (skipBlanks rest).tail)
        else (readMembers fuel rest).map fun r => (.object r.1, r.2)
      else (readNumber (c :: rest)).map fun r => (.number r.1, r.2)

/-- Read the items of an array, and its end. -/
def readItems : ℕ → List UInt8 → Option (List Json × List UInt8)
  | 0, _ => none
  | fuel + 1, input =>
    (readValue fuel input).bind fun r =>
      match skipBlanks r.2 with
      | [] => none
      | c :: rest =>
        if c = valueSeparator then (readItems fuel rest).map fun t => (r.1 :: t.1, t.2)
        else if c = endArray then some ([r.1], rest)
        else none

/-- Read the members of an object, and its end. -/
def readMembers : ℕ → List UInt8 → Option (List (List UInt8 × Json) × List UInt8)
  | 0, _ => none
  | fuel + 1, input =>
    match skipBlanks input with
    | [] => none
    | c :: rest =>
      if c = quotationMark then
        (readString rest).bind fun name =>
          match skipBlanks name.2 with
          | [] => none
          | d :: rest =>
            if d = nameSeparator then
              (readValue fuel rest).bind fun r =>
                match skipBlanks r.2 with
                | [] => none
                | e :: rest =>
                  if e = valueSeparator then
                    (readMembers fuel rest).map fun t => ((name.1, r.1) :: t.1, t.2)
                  else if e = endObject then some ([(name.1, r.1)], rest)
                  else none
            else none
      else none

end

/-- Read a whole text. -/
def readText (input : List UInt8) : Option Json :=
  (readValue input.length input).bind fun r => if skipBlanks r.2 = [] then some r.1 else none

/-! ### Numbers -/

/-- The character of a digit. -/
def digit (d : ℕ) : UInt8 := (0x30 + d).toUInt8

/-- A number without a sign, in decimal notation. -/
def decimal (n : ℕ) : List UInt8 :=
  if n = 0 then [0x30] else (Nat.digits 10 n).reverse.map digit

/-- A number in decimal notation. -/
def signedDecimal (n : ℤ) : List UInt8 :=
  if n < 0 then minus :: decimal n.natAbs else decimal n.natAbs

/-- The text does not go on with a digit. -/
def EndsNumber (rest : List UInt8) : Prop := ∀ c ∈ rest.head?, isDigit c = false

variable {rest t : List UInt8}

/-- The character of a digit is one, and gives the digit back. -/
theorem isDigit_digit : ∀ d < 10, isDigit (digit d) = true ∧ (digit d).toNat - 0x30 = d := by
  decide

/-- In front of a text that ends a number, the digits are all read and nothing else is. -/
theorem takeWhile_append_of_endsNumber {digits : List UInt8}
    (hdigits : ∀ c ∈ digits, isDigit c = true) (hrest : EndsNumber rest) :
    (digits ++ rest).takeWhile isDigit = digits ∧
      (digits ++ rest).dropWhile isDigit = rest := by
  have hhead : rest.takeWhile isDigit = [] ∧ rest.dropWhile isDigit = rest := by
    cases rest with
    | nil => exact ⟨rfl, rfl⟩
    | cons c rest =>
      have hc := hrest c rfl
      simp [hc]
  rw [List.takeWhile_append_of_pos hdigits, List.dropWhile_append_of_pos hdigits, hhead.1, hhead.2]
  simp

/-- The digits of a number that is not zero, the last one first. -/
theorem foldl_digits {digits : List ℕ} (hdigits : ∀ d ∈ digits, d < 10) :
    (digits.reverse.map digit).foldl (fun n c => 10 * n + (c.toNat - 0x30)) 0 =
      Nat.ofDigits 10 digits := by
  rw [List.map_reverse, List.foldl_reverse]
  induction digits with
  | nil => rfl
  | cons d digits ih =>
    have hd := (isDigit_digit d (hdigits d List.mem_cons_self)).2
    rw [List.map_cons, List.foldr_cons, ih fun x hx => hdigits x (List.mem_cons_of_mem d hx), hd,
      Nat.ofDigits_cons]
    simp [Nat.add_comm]

/-- A number below a power of ten has no more digits than the exponent says. -/
theorem length_decimal_le {n k : ℕ} (hk : 0 < k) (hn : n < 10 ^ k) : (decimal n).length ≤ k := by
  unfold decimal
  split
  · exact hk
  · rw [List.length_map, List.length_reverse]
    exact (Nat.digits_length_le_iff (by decide) n).mpr hn

/-- A number without a sign is written with digits only. -/
theorem isDigit_of_mem_decimal {n : ℕ} {c : UInt8} (hc : c ∈ decimal n) : isDigit c = true := by
  unfold decimal at hc
  split at hc
  · rw [List.mem_singleton.mp hc]
    decide
  · obtain ⟨d, hd, rfl⟩ := List.mem_map.mp hc
    exact (isDigit_digit d (Nat.digits_lt_base (by decide) (List.mem_reverse.mp hd))).1

/-- **A number is read back** from its decimal notation, up to a character that cannot go on with
it. -/
theorem readDigits_decimal (n : ℕ) (hrest : EndsNumber rest) :
    readDigits (decimal n ++ rest) = some (n, rest) := by
  by_cases hn : n = 0
  · subst hn
    have hzero : ∀ c ∈ [(0x30 : UInt8)], isDigit c = true := List.forall_mem_singleton.mpr rfl
    obtain ⟨htake, hdrop⟩ := takeWhile_append_of_endsNumber hzero hrest
    rw [readDigits, decimal, if_pos rfl, htake, hdrop]
    simp
  · have hlt : ∀ d ∈ Nat.digits 10 n, d < 10 := fun d hd => Nat.digits_lt_base (by decide) hd
    have hdigits : ∀ c ∈ (Nat.digits 10 n).reverse.map digit, isDigit c = true := by
      intro c hc
      apply @isDigit_of_mem_decimal n c
      rwa [decimal, if_neg hn]
    obtain ⟨htake, hdrop⟩ := takeWhile_append_of_endsNumber hdigits hrest
    have hvalue := foldl_digits hlt
    have hne : Nat.digits 10 n ≠ [] := Nat.digits_ne_nil_iff_ne_zero.mpr hn
    rw [readDigits, decimal, if_neg hn, htake, hdrop]
    cases hlist : (Nat.digits 10 n).reverse.map digit with
    | nil => exact absurd (by simpa using hlist) hne
    | cons c digits =>
      have hc : c ≠ 0x30 := by
        have hlast : (Nat.digits 10 n).reverse.head? = some ((Nat.digits 10 n).getLast hne) := by
          rw [List.head?_reverse, List.getLast?_eq_some_getLast hne]
        have hhead : ((Nat.digits 10 n).reverse.map digit).head? = some c := by rw [hlist]; rfl
        rw [List.head?_map, hlast, Option.map_some] at hhead
        have hnonzero := Nat.getLast_digit_ne_zero 10 hn
        have hlastLt := hlt _ (List.getLast_mem hne)
        intro hzero
        have hback := (isDigit_digit _ hlastLt).2
        rw [Option.some.inj hhead, hzero] at hback
        exact hnonzero hback.symm
      rw [hlist, Nat.ofDigits_digits] at hvalue
      simp only [hc, false_and, if_false]
      rw [hvalue]

/-- **A signed number is read back** from its decimal notation. -/
theorem readNumber_signedDecimal (n : ℤ) (hrest : EndsNumber rest) :
    readNumber (signedDecimal n ++ rest) = some (n, rest) := by
  by_cases hn : n < 0
  · rw [signedDecimal, if_pos hn, List.cons_append, readNumber, if_pos rfl,
      readDigits_decimal _ hrest, Option.map_some]
    congr 2
    omega
  · have hread := readDigits_decimal n.natAbs hrest
    rw [signedDecimal, if_neg hn]
    cases htext : decimal n.natAbs ++ rest with
    | nil =>
      rw [htext] at hread
      simp [readDigits] at hread
    | cons c more =>
      have hc : c ≠ minus := by
        rintro rfl
        rw [htext] at hread
        simp [readDigits, show isDigit minus = false by decide] at hread
      rw [readNumber, if_neg hc, ← htext, hread, Option.map_some]
      congr 2
      omega

/-! ### Strings -/

/-- Inside a string the text `t` stands for the character `c`. -/
def Spells (t : List UInt8) (c : UInt8) : Prop :=
  ∀ rest, readString (t ++ rest) = (readString rest).map fun r => (c :: r.1, r.2)

/-- The character that begins an escape is not the one that ends a string. -/
theorem reverseSolidus_ne : (reverseSolidus = quotationMark) = False := by decide

/-- A quotation mark ends the string, and what follows it is left over. -/
theorem readString_quotationMark (rest : List UInt8) :
    readString (quotationMark :: rest) = some ([], rest) := by
  rw [readString.eq_def]
  simp only [if_true]

/-- A character that needs no escape spells itself inside a string. -/
theorem spells_self {c : UInt8} (hquote : c ≠ quotationMark) (hescape : c ≠ reverseSolidus)
    (hcontrol : ¬c < 0x20) : Spells [c] c := by
  intro rest
  rw [List.singleton_append, readString.eq_def]
  simp only [hquote, hescape, hcontrol, if_false]

/-- An escape of one character spells what it stands for. -/
theorem spells_characterEscape {e c : UInt8} (hc : characterEscape e = some c) :
    Spells [reverseSolidus, e] c := by
  intro rest
  have he : e ≠ 0x75 := by
    rintro rfl
    simp [characterEscape, quotationMark, reverseSolidus] at hc
  rw [List.cons_append, List.singleton_append, readString.eq_def]
  simp only [reverseSolidus_ne, if_true, he, if_false, hc, Option.bind_some]

/-- An escape of four hexadecimal digits spells what they stand for. -/
theorem spells_unicodeEscape {h₁ h₂ h₃ h₄ c : UInt8} (hc : unicodeEscape h₁ h₂ h₃ h₄ = some c) :
    Spells [reverseSolidus, 0x75, h₁, h₂, h₃, h₄] c := by
  intro rest
  simp only [List.cons_append, List.nil_append]
  rw [readString.eq_def]
  simp only [reverseSolidus_ne, if_false, if_true, hc, Option.bind_some]

/-- **A string is read back** when each of its characters is spelled out. -/
theorem readString_flatMap {spelling : UInt8 → List UInt8} {s : List UInt8}
    (hspells : ∀ c ∈ s, Spells (spelling c) c) (rest : List UInt8) :
    readString (s.flatMap spelling ++ quotationMark :: rest) = some (s, rest) := by
  induction s with
  | nil => exact readString_quotationMark rest
  | cons c s ih =>
    rw [List.flatMap_cons, List.append_assoc, hspells c List.mem_cons_self,
      ih fun x hx => hspells x (List.mem_cons_of_mem c hx)]
    rfl

/-! ### Values -/

/-- The text `t` is a value, whatever follows it. -/
def Reads (need : ℕ) (t : List UInt8) (v : Json) : Prop :=
  ∀ fuel, need ≤ fuel → ∀ rest, EndsNumber rest → readValue fuel (t ++ rest) = some (v, rest)

/-- The text `t` is a list of items, up to the end of their array. -/
def ReadsItems (need : ℕ) (t : List UInt8) (items : List Json) : Prop :=
  ∀ fuel, need ≤ fuel → ∀ rest, readItems fuel (t ++ endArray :: rest) = some (items, rest)

/-- The text `t` is a list of members, up to the end of their object. -/
def ReadsMembers (need : ℕ) (t : List UInt8) (members : List (List UInt8 × Json)) : Prop :=
  ∀ fuel, need ≤ fuel → ∀ rest, readMembers fuel (t ++ endObject :: rest) = some (members, rest)

/-- The text `t` is a string. -/
def ReadsString (t s : List UInt8) : Prop :=
  ∀ rest, readString (t ++ quotationMark :: rest) = some (s, rest)

/-- A character that needs no escape. -/
def isPlain (c : UInt8) : Bool := c ≠ quotationMark && c ≠ reverseSolidus && !(c < 0x20)

/-- A string without a character that needs an escape stands for itself. -/
theorem readsString_self (h : t.all isPlain = true) : ReadsString t t := by
  have hspells : ∀ c ∈ t, Spells [c] c := by
    intro c hc
    have hplain := List.all_eq_true.mp h c hc
    simp only [isPlain, Bool.and_eq_true, decide_eq_true_eq, Bool.not_eq_true',
      decide_eq_false_iff_not] at hplain
    exact spells_self hplain.1.1 hplain.1.2 hplain.2
  intro rest
  have hread := readString_flatMap hspells rest
  rwa [List.flatMap_singleton'] at hread

/-- A text in quotation marks. -/
def quoted (t : List UInt8) : List UInt8 := quotationMark :: (t ++ [quotationMark])

/-- A name and a value. -/
def memberText (name t : List UInt8) : List UInt8 := quoted name ++ nameSeparator :: t

variable {need need' : ℕ} {s name t' : List UInt8} {v : Json} {items : List Json}
  {members : List (List UInt8 × Json)}

/-- Nothing is skipped in front of a character that is no blank. -/
theorem skipBlanks_cons {c : UInt8} (hc : isBlank c = false) :
    skipBlanks (c :: rest) = c :: rest := by
  simp [skipBlanks, hc]

/-- A text that begins with a character other than a digit ends a number in front of it. -/
theorem endsNumber_cons {c : UInt8} (hc : isDigit c = false) : EndsNumber (c :: rest) := by
  intro x hx
  obtain rfl := Option.some.inj hx
  exact hc

/-- The characters with which a number begins. -/
def isNumeral (c : UInt8) : Bool := c = minus || isDigit c

/-- A character of a number is no blank and begins no string, array or object. -/
theorem not_begins_of_numeral {c : UInt8} (hc : isNumeral c = true) : isBlank c = false ∧
    c ≠ quotationMark ∧ c ≠ beginArray ∧ c ≠ beginObject := by
  refine ⟨Bool.eq_false_iff.mpr fun hblank => ?_, ?_, ?_, ?_⟩
  · simp only [isBlank, Bool.or_eq_true, decide_eq_true_eq] at hblank
    rcases hblank with ((rfl | rfl) | rfl) | rfl <;> revert hc <;> decide
  all_goals
    rintro rfl
    revert hc
    decide

/-- A digit needs no escape inside a string. -/
theorem isPlain_of_isDigit {c : UInt8} (hc : isDigit c = true) : isPlain c = true := by
  simp only [isDigit, Bool.and_eq_true, decide_eq_true_eq] at hc
  simp only [isPlain, Bool.and_eq_true, decide_eq_true_eq, Bool.not_eq_true',
    decide_eq_false_iff_not]
  refine ⟨⟨?_, ?_⟩, ?_⟩
  · rintro rfl
    exact absurd hc (by decide)
  · rintro rfl
    exact absurd hc (by decide)
  · exact UInt8.not_lt.mpr (UInt8.le_trans (by decide) hc.1)

/-- The notation of a number without a sign begins with a digit. -/
theorem decimal_eq_cons (n : ℕ) : ∃ c more, decimal n = c :: more ∧ isDigit c = true := by
  by_cases hn : n = 0
  · exact ⟨0x30, [], by rw [decimal, if_pos hn], by decide⟩
  · obtain ⟨d, digits, hdigits⟩ : ∃ d digits, (Nat.digits 10 n).reverse = d :: digits :=
      List.exists_cons_of_ne_nil (by simpa [Nat.digits_eq_nil_iff_eq_zero] using hn)
    have hdecimal : decimal n = digit d :: digits.map digit := by
      rw [decimal, if_neg hn, hdigits, List.map_cons]
    have hd : digit d ∈ decimal n := by
      rw [hdecimal]
      exact List.mem_cons_self
    exact ⟨digit d, digits.map digit, hdecimal, isDigit_of_mem_decimal hd⟩

/-- The notation of a number begins with its sign or with a digit. -/
theorem signedDecimal_eq_cons (n : ℤ) :
    ∃ c more, signedDecimal n = c :: more ∧ isNumeral c = true := by
  by_cases hn : n < 0
  · exact ⟨minus, decimal n.natAbs, if_pos hn, by decide⟩
  · obtain ⟨c, more, hdecimal, hc⟩ := decimal_eq_cons n.natAbs
    exact ⟨c, more, by rw [signedDecimal, if_neg hn, hdecimal], by simp [isNumeral, hc]⟩

/-- A string between quotation marks is read as a value. -/
theorem reads_string (h : ReadsString t s) : Reads 1 (quoted t) (.string s) := by
  intro fuel hfuel rest _
  obtain ⟨fuel, rfl⟩ := Nat.exists_eq_add_of_le' hfuel
  rw [quoted, List.cons_append, List.append_assoc, List.singleton_append, readValue,
    skipBlanks_cons (by decide)]
  simp only [if_true]
  rw [h rest, Option.map_some]

/-- A number in decimal notation is read as a value. -/
theorem reads_number (n : ℤ) : Reads 1 (signedDecimal n) (.number n) := by
  intro fuel hfuel rest hrest
  obtain ⟨fuel, rfl⟩ := Nat.exists_eq_add_of_le' hfuel
  have hread := readNumber_signedDecimal n hrest
  obtain ⟨c, more, htext, hc⟩ := signedDecimal_eq_cons n
  obtain ⟨hblank, hquote, harray, hobject⟩ := not_begins_of_numeral hc
  rw [htext, List.cons_append] at hread ⊢
  rw [readValue, skipBlanks_cons hblank]
  simp only [hquote, harray, hobject, if_false]
  rw [hread, Option.map_some]

/-- The text of a value is read as the only item up to the end of an array. -/
theorem readsItems_singleton (h : Reads need t v) : ReadsItems (need + 1) t [v] := by
  intro fuel hfuel rest
  obtain ⟨fuel, rfl⟩ := Nat.exists_eq_add_of_le' (Nat.le_of_add_left_le hfuel)
  rw [readItems, h fuel (by omega) _ (endsNumber_cons (by decide)), Option.bind_some]
  simp only [skipBlanks_cons (show isBlank endArray = false by decide)]
  rfl

/-- The text of a value and a comma in front of items are read as one more item. -/
theorem readsItems_cons (h : Reads need t v) (hitems : ReadsItems need' t' items) :
    ReadsItems (max need need' + 1) (t ++ valueSeparator :: t') (v :: items) := by
  intro fuel hfuel rest
  obtain ⟨fuel, rfl⟩ := Nat.exists_eq_add_of_le' (Nat.le_of_add_left_le hfuel)
  rw [List.append_assoc, List.cons_append, readItems,
    h fuel (by omega) _ (endsNumber_cons (by decide)), Option.bind_some]
  simp only [skipBlanks_cons (show isBlank valueSeparator = false by decide), if_true]
  rw [hitems fuel (by omega) rest, Option.map_some]

/-- A single member up to the end of an object is read as the only one. -/
theorem readsMembers_singleton (hname : ReadsString name s) (h : Reads need t v) :
    ReadsMembers (need + 1) (memberText name t) [(s, v)] := by
  intro fuel hfuel rest
  obtain ⟨fuel, rfl⟩ := Nat.exists_eq_add_of_le' (Nat.le_of_add_left_le hfuel)
  simp only [memberText, quoted, List.cons_append, List.append_assoc, List.nil_append]
  rw [readMembers, skipBlanks_cons (by decide)]
  simp only [if_true]
  rw [hname, Option.bind_some]
  simp only [skipBlanks_cons (show isBlank nameSeparator = false by decide), if_true]
  rw [h fuel (by omega) _ (endsNumber_cons (by decide)), Option.bind_some]
  simp only [skipBlanks_cons (show isBlank endObject = false by decide)]
  rfl

/-- The text of a member and a comma in front of members are read as one more member. -/
theorem readsMembers_cons (hname : ReadsString name s) (h : Reads need t v)
    (hmembers : ReadsMembers need' t' members) :
    ReadsMembers (max need need' + 1) (memberText name t ++ valueSeparator :: t')
      ((s, v) :: members) := by
  intro fuel hfuel rest
  obtain ⟨fuel, rfl⟩ := Nat.exists_eq_add_of_le' (Nat.le_of_add_left_le hfuel)
  simp only [memberText, quoted, List.cons_append, List.append_assoc, List.nil_append]
  rw [readMembers, skipBlanks_cons (by decide)]
  simp only [if_true]
  rw [hname, Option.bind_some]
  simp only [skipBlanks_cons (show isBlank nameSeparator = false by decide), if_true]
  rw [h fuel (by omega) _ (endsNumber_cons (by decide)), Option.bind_some]
  simp only [skipBlanks_cons (show isBlank valueSeparator = false by decide), if_true]
  rw [hmembers fuel (by omega) rest, Option.map_some]

/-- A blank in front of the items of an array does not change what is read. -/
theorem readsItems_blank {b : UInt8} (hb : isBlank b = true) (h : ReadsItems need t items) :
    ReadsItems need (b :: t) items := by
  intro fuel hfuel rest
  rw [← h fuel hfuel rest, List.cons_append]
  cases fuel with
  | zero => rfl
  | succ fuel =>
    have hvalue : readValue fuel (b :: (t ++ endArray :: rest)) =
        readValue fuel (t ++ endArray :: rest) := by
      cases fuel with
      | zero => rfl
      | succ fuel =>
        rw [readValue, readValue, skipBlanks, List.dropWhile_cons_of_pos hb, skipBlanks]
    rw [readItems, readItems, hvalue]

/-- Items between the brackets of an array are read as the array of them. -/
theorem reads_array {c : UInt8} (hblank : isBlank c = false) (hc : c ≠ endArray)
    (h : ReadsItems need (c :: t) items) :
    Reads (need + 1) (beginArray :: (c :: t ++ [endArray])) (.array items) := by
  intro fuel hfuel rest _
  obtain ⟨fuel, rfl⟩ := Nat.exists_eq_add_of_le' (Nat.le_of_add_left_le hfuel)
  simp only [List.cons_append, List.append_assoc, List.nil_append]
  rw [readValue, skipBlanks_cons (by decide)]
  simp only [skipBlanks_cons hblank, List.head?_cons, Option.some.injEq, hc, if_false]
  have hread := h fuel (by omega) rest
  rw [List.cons_append] at hread
  rw [hread]
  rfl

/-- Members between the braces of an object are read as the object of them. -/
theorem reads_object (h : ReadsMembers need (quotationMark :: t) members) :
    Reads (need + 1) (beginObject :: (quotationMark :: t ++ [endObject])) (.object members) := by
  intro fuel hfuel rest _
  obtain ⟨fuel, rfl⟩ := Nat.exists_eq_add_of_le' (Nat.le_of_add_left_le hfuel)
  simp only [List.cons_append, List.append_assoc, List.nil_append]
  rw [readValue, skipBlanks_cons (by decide)]
  simp only [skipBlanks_cons (show isBlank quotationMark = false by decide), List.head?_cons,
    Option.some.injEq]
  have hread := h fuel (by omega) rest
  rw [List.cons_append] at hread
  rw [hread]
  rfl

/-- **A value with nothing but blanks behind it is a text**, and the text has this value. -/
theorem readText_of_reads (h : Reads need t v) (hneed : need ≤ (t ++ rest).length)
    (hblank : rest.all isBlank = true) : readText (t ++ rest) = some v := by
  have hends : EndsNumber rest := by
    intro c hc
    have hcblank := List.all_eq_true.mp hblank c (List.mem_of_mem_head? hc)
    simp only [isBlank, Bool.or_eq_true, decide_eq_true_eq] at hcblank
    rcases hcblank with ((rfl | rfl) | rfl) | rfl <;> decide
  have hskip : skipBlanks rest = [] := List.dropWhile_eq_nil_iff.mpr (List.all_eq_true.mp hblank)
  rw [readText, h _ hneed rest hends, Option.bind_some, if_pos hskip]

end NixieVfdCentral.JsonText
