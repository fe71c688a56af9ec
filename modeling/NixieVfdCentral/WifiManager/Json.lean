import NixieVfdCentral.Foundations.JsonText
import NixieVfdCentral.Foundations.Memory

/-!
# Printing a string as JSON

`json_print_string` goes over its input twice. The first pass counts the characters that escapes
will need, the second one writes. The closing quotation mark is put where the first pass says it
belongs, not where the second one has stopped, so the two have to agree.
-/

namespace NixieVfdCentral

open JsonText Memory

/-- The characters that have an escape of one character, as `strchr` looks for them. -/
def oneCharacterEscapes : List UInt8 := [0x22, 0x5c, 0x08, 0x0c, 0x0a, 0x0d, 0x09]

/-- The additional characters for one character. -/
def additionalCharacters (c : UInt8) : ℕ :=
  if c ∈ oneCharacterEscapes then 1 else if c < 32 then 5 else 0

/-- `escape_characters` after the first pass. -/
def escapeCharacters (input : List UInt8) : ℕ :=
  input.foldl (fun n c => n + additionalCharacters c) 0

/-- `output_length`. -/
def outputLength (input : List UInt8) : ℕ := input.length + escapeCharacters input

/-- A hexadecimal digit as `%x` prints it. -/
def hexDigit (d : ℕ) : UInt8 := if d < 10 then (0x30 + d).toUInt8 else (0x61 + (d - 10)).toUInt8

/-- What `u%04x` prints. -/
def unicodeCodepoint (c : UInt8) : List UInt8 :=
  [0x75, 0x30, 0x30, hexDigit (c.toNat / 16), hexDigit (c.toNat % 16)]

/-- The escape of one character, if it is one of the cases of the `switch`. -/
def switchCase (c : UInt8) : Option UInt8 :=
  if c = 0x5c then some 0x5c
  else if c = 0x22 then some 0x22
  else if c = 0x08 then some 0x62
  else if c = 0x0c then some 0x66
  else if c = 0x0a then some 0x6e
  else if c = 0x0d then some 0x72
  else if c = 0x09 then some 0x74
  else none

/-- A character that the second pass copies. -/
def isNormal (c : UInt8) : Bool := 31 < c && c ≠ 0x22 && c ≠ 0x5c

/-- The characters by which the second pass moves `output_pointer`. -/
def escaped (c : UInt8) : List UInt8 :=
  if isNormal c then [c]
  else
    match switchCase c with
    | some e => [reverseSolidus, e]
    | none => reverseSolidus :: unicodeCodepoint c

/-- What the second pass writes at `output_pointer`: `sprintf` puts a zero behind its output. -/
def written (c : UInt8) : List UInt8 :=
  if isNormal c = false ∧ switchCase c = none then escaped c ++ [0] else escaped c

/-- The second pass. -/
def copyString : (ℕ → UInt8) → ℕ → List UInt8 → ℕ → UInt8
  | memory, _, [] => memory
  | memory, outputPointer, c :: input =>
    copyString (store memory outputPointer (written c)) (outputPointer + (escaped c).length) input

/-- The quotation mark and the zero at the end. -/
def closeString (memory : ℕ → UInt8) (output outputLength : ℕ) : ℕ → UInt8 :=
  store (store memory (output + (outputLength + 1)) [quotationMark])
    (output + (outputLength + 2)) [0]

/-- `json_print_string`, for an input and an output that are not null. -/
def jsonPrintString (memory : ℕ → UInt8) (input : List UInt8) (output : ℕ) : ℕ → UInt8 :=
  if escapeCharacters input = 0 then
    closeString (store (store memory output [quotationMark]) (output + 1) input) output
      (outputLength input)
  else
    closeString (copyString (store memory output [quotationMark]) (output + 1) input) output
      (outputLength input)

variable {c : UInt8} {input : List UInt8}

/-! ### The two passes agree -/

/-- **What the two passes make of one character**: it is copied, it has an escape of one character,
or its code is printed. -/
theorem escaped_cases (c : UInt8) :
    (escaped c = [c] ∧ additionalCharacters c = 0 ∧ c ≠ quotationMark ∧ c ≠ reverseSolidus ∧
        ¬c < 0x20) ∨
      (escaped c = [reverseSolidus, (switchCase c).getD 0] ∧ additionalCharacters c = 1 ∧
        characterEscape ((switchCase c).getD 0) = some c) ∨
      (escaped c = reverseSolidus :: unicodeCodepoint c ∧ additionalCharacters c = 5 ∧
        unicodeEscape 0x30 0x30 (hexDigit (c.toNat / 16)) (hexDigit (c.toNat % 16)) = some c) := by
  have hall : ∀ n : Fin 256, (fun c : UInt8 =>
      (escaped c = [c] ∧ additionalCharacters c = 0 ∧ c ≠ quotationMark ∧ c ≠ reverseSolidus ∧
        ¬c < 0x20) ∨
      (escaped c = [reverseSolidus, (switchCase c).getD 0] ∧ additionalCharacters c = 1 ∧
        characterEscape ((switchCase c).getD 0) = some c) ∨
      (escaped c = reverseSolidus :: unicodeCodepoint c ∧ additionalCharacters c = 5 ∧
        unicodeEscape 0x30 0x30 (hexDigit (c.toNat / 16)) (hexDigit (c.toNat % 16)) = some c))
      (UInt8.ofFin n) := by decide +kernel
  exact hall c.toFin

/-- A character takes one place and as many more as the first pass counts for it. -/
theorem length_escaped (c : UInt8) : (escaped c).length = 1 + additionalCharacters c := by
  rcases escaped_cases c with ⟨heq, hcount, _⟩ | ⟨heq, hcount, _⟩ | ⟨heq, hcount, _⟩
  all_goals
    rw [heq, hcount]
    rfl

/-- What is printed for a character, escaped or not, spells it. -/
theorem spells_escaped (c : UInt8) : Spells (escaped c) c := by
  rcases escaped_cases c with ⟨heq, _, hquote, hsolidus, hcontrol⟩ | ⟨heq, _, hc⟩ | ⟨heq, _, hc⟩
  · rw [heq]
    exact spells_self hquote hsolidus hcontrol
  · rw [heq]
    exact spells_characterEscape hc
  · rw [heq]
    exact spells_unicodeEscape hc

/-- Behind what it keeps, a round of the second pass writes at most one character. -/
theorem exists_written (c : UInt8) :
    ∃ extra, written c = escaped c ++ extra ∧ extra.length ≤ 1 := by
  unfold written
  split
  · exact ⟨[0], rfl, Nat.le_refl 1⟩
  · exact ⟨[], (List.append_nil _).symm, Nat.zero_le 1⟩

/-- The first pass counts character by character, and the counts add up. -/
theorem escapeCharacters_cons (c : UInt8) (input : List UInt8) :
    escapeCharacters (c :: input) = additionalCharacters c + escapeCharacters input := by
  have hcount : ∀ n, input.foldl (fun n c => n + additionalCharacters c) n =
      n + escapeCharacters input := by
    intro n
    unfold escapeCharacters
    induction input generalizing n with
    | nil => rfl
    | cons d input ih => rw [List.foldl_cons, List.foldl_cons, ih, ih (0 + _)]; omega
  rw [escapeCharacters, List.foldl_cons, hcount, Nat.zero_add]

/-- **The first pass counts what the second one writes**: the length of the input with its escapes.
-/
theorem length_flatMap_escaped (input : List UInt8) :
    (input.flatMap escaped).length = outputLength input := by
  induction input with
  | nil => rfl
  | cons c input ih =>
    rw [List.flatMap_cons, List.length_append, ih, length_escaped, outputLength, outputLength,
      escapeCharacters_cons, List.length_cons]
    omega

/-- Where the first pass counts no escapes, the second pass would copy the input. -/
theorem flatMap_escaped_of_escapeCharacters (h : escapeCharacters input = 0) :
    input.flatMap escaped = input := by
  induction input with
  | nil => rfl
  | cons c input ih =>
    rw [escapeCharacters_cons, Nat.add_eq_zero_iff] at h
    rw [List.flatMap_cons, ih h.2]
    rcases escaped_cases c with ⟨heq, _⟩ | ⟨_, hcount, _⟩ | ⟨_, hcount, _⟩
    · rw [heq, List.singleton_append]
    · rw [hcount] at h
      cases h.1
    · rw [hcount] at h
      cases h.1

/-- The second pass, after it has written `done` and perhaps one character more. -/
theorem copyString_store (memory : ℕ → UInt8) (output : ℕ) (done extra input : List UInt8)
    (hextra : extra.length ≤ 1) : ∃ extra', extra'.length ≤ 1 ∧
      copyString (store memory output (done ++ extra)) (output + done.length) input =
        store memory output ((done ++ input.flatMap escaped) ++ extra') := by
  induction input generalizing done extra with
  | nil => exact ⟨extra, hextra, by simp [copyString]⟩
  | cons c input ih =>
    obtain ⟨more, hwritten, hmore⟩ := exists_written c
    have hlength : extra.length ≤ (written c).length := by
      rw [hwritten, List.length_append, length_escaped]
      omega
    obtain ⟨extra', hextra', hcopy⟩ := ih (done ++ escaped c) more hmore
    refine ⟨extra', hextra', ?_⟩
    rw [copyString, store_store hlength, hwritten, ← List.append_assoc, Nat.add_assoc,
      ← List.length_append, hcopy, List.flatMap_cons, ← List.append_assoc done]

/-- The quotation mark and the zero are written behind the string. -/
theorem closeString_store (memory : ℕ → UInt8) (output : ℕ) {body extra : List UInt8}
    (hextra : extra.length ≤ 1) :
    closeString (store memory output (quotationMark :: body ++ extra)) output body.length =
      store memory output (quoted body ++ [0]) := by
  have hmark : store (store memory output (quotationMark :: body ++ extra))
      (output + (body.length + 1)) [quotationMark] = store memory output (quoted body) :=
    store_store (a := quotationMark :: body) hextra
  have hzero := @store_append _ memory output (quoted body) [0]
  rw [closeString, hmark, ← hzero]
  simp [quoted]

/-- The escaped text is read back as the input, whatever bytes this has. -/
theorem readsString_flatMap_escaped (input : List UInt8) :
    ReadsString (input.flatMap escaped) input :=
  readString_flatMap fun c _ => spells_escaped c

/-- Both branches write the same: the quoted text with its escapes and a zero, at the output. -/
theorem jsonPrintString_eq_store (memory : ℕ → UInt8) (input : List UInt8) (output : ℕ) :
    jsonPrintString memory input output =
      store memory output (quoted (input.flatMap escaped) ++ [0]) := by
  unfold jsonPrintString
  split
  · rename_i hnone
    have hcopied := @store_append _ memory output [quotationMark] input
    have hclose := @closeString_store memory output input [] (Nat.zero_le 1)
    rw [List.length_singleton] at hcopied
    rw [List.append_nil] at hclose
    rw [hcopied, outputLength, hnone, flatMap_escaped_of_escapeCharacters hnone]
    exact hclose
  · obtain ⟨extra, hextra, hcopy⟩ := copyString_store memory output [quotationMark] [] input
      (Nat.zero_le 1)
    rw [List.append_nil, List.length_singleton] at hcopy
    rw [hcopy, ← length_flatMap_escaped]
    exact closeString_store memory output hextra

/-- **`json_print_string` writes one string.** Whatever characters the input has, the output is a
quotation mark, a text of the length counted in the first pass that a reader of JSON turns back
into the input, a quotation mark and a zero. No other byte of the memory changes. -/
theorem jsonPrintString_writes (memory : ℕ → UInt8) (input : List UInt8) (output : ℕ) :
    ∃ t, t.length = outputLength input ∧ ReadsString t input ∧
      jsonPrintString memory input output = store memory output (quoted t ++ [0]) ∧
      ∀ i, i < output ∨ output + (outputLength input + 3) ≤ i →
        jsonPrintString memory input output i = memory i := by
  refine ⟨input.flatMap escaped, length_flatMap_escaped input, readsString_flatMap_escaped input,
    jsonPrintString_eq_store memory input output, fun i hi => ?_⟩
  have hlength : (quoted (input.flatMap escaped) ++ [0]).length = outputLength input + 3 := by
    rw [← length_flatMap_escaped, quoted]
    simp only [List.length_append, List.length_cons, List.length_nil]
  rw [jsonPrintString_eq_store]
  exact store_eq_self (by rwa [hlength])

end NixieVfdCentral
