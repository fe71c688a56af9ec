import Mathlib.Data.List.Basic

/-!
# Reading messages of the domain name system

A reader for whole messages, as the standard describes them: a header of twelve bytes, the
questions, and the resource records of the three other sections, each with a name that may end in
a pointer to another name. A pointer into the header is refused. The reader takes a message to its
last byte or not at all.

A message that goes on where another one ends, with any header, has the questions and the records
of that one as its first questions and records. This is what a server relies on that writes its
answer behind a copy of the query.
-/

namespace NixieVfdCentral.DnsMessages

variable {m q r : List UInt8} {p p' k l n : ℕ}

/-- The bytes of the header. -/
def headerLength : ℕ := 12

/-- The two bits in front of a pointer. -/
def pointerMark : ℕ := 0xC000

/-- A name, label by label. -/
abbrev Name := List (List UInt8)

/-- The header. -/
structure Header where
  id : ℕ
  /-- Whether the message is a response. -/
  qr : Bool
  opcode : ℕ
  /-- Whether the answer is authoritative. -/
  aa : Bool
  /-- Whether the message is truncated. -/
  tc : Bool
  /-- Whether recursion is desired. -/
  rd : Bool
  /-- Whether recursion is available. -/
  ra : Bool
  /-- Reserved. -/
  z : ℕ
  rcode : ℕ
  qdcount : ℕ
  ancount : ℕ
  nscount : ℕ
  arcount : ℕ
  deriving DecidableEq

/-- A question. -/
structure Question where
  name : Name
  qtype : ℕ
  qclass : ℕ
  deriving DecidableEq

/-- A resource record. -/
structure ResourceRecord where
  name : Name
  rtype : ℕ
  rclass : ℕ
  ttl : ℕ
  rdata : List UInt8
  deriving DecidableEq

/-- A message. The header says how the records are divided into sections. -/
structure Message where
  header : Header
  questions : List Question
  records : List ResourceRecord
  deriving DecidableEq

/-! ### The reader -/

/-- The number in some bytes, the most significant one first. -/
def number (bytes : List UInt8) : ℕ := bytes.foldl (fun n b => 256 * n + b.toNat) 0

/-- The bytes `[p, p + n)`. -/
def bytesAt (m : List UInt8) (p n : ℕ) : Option (List UInt8) :=
  if p + n ≤ m.length then some ((m.drop p).take n) else none

/-- The number in the bytes `[p, p + n)`. -/
def numberAt (m : List UInt8) (p n : ℕ) : Option ℕ := (bytesAt m p n).map number

/-- The name at `p`, and where it ends. The first argument bounds the number of labels and
pointers. -/
def readName (m : List UInt8) : ℕ → ℕ → Option (Name × ℕ)
  | 0, _ => none
  | k + 1, p => do
    let c ← numberAt m p 1
    if c = 0 then return ([], p + 1)
    else if c < 64 then
      let label ← bytesAt m (p + 1) c
      let (name, p') ← readName m k (p + 1 + c)
      return (label :: name, p')
    else
      let pointer ← numberAt m p 2
      if pointerMark + headerLength ≤ pointer then
        let (name, _) ← readName m k (pointer - pointerMark)
        return (name, p + 2)
      else none

/-- The question at `p`, and where it ends. -/
def readQuestion (m : List UInt8) (p : ℕ) : Option (Question × ℕ) := do
  let (name, p) ← readName m m.length p
  let qtype ← numberAt m p 2
  let qclass ← numberAt m (p + 2) 2
  return (⟨name, qtype, qclass⟩, p + 4)

/-- The resource record at `p`, and where it ends. -/
def readRecord (m : List UInt8) (p : ℕ) : Option (ResourceRecord × ℕ) := do
  let (name, p) ← readName m m.length p
  let rtype ← numberAt m p 2
  let rclass ← numberAt m (p + 2) 2
  let ttl ← numberAt m (p + 4) 4
  let rdlength ← numberAt m (p + 8) 2
  let rdata ← bytesAt m (p + 10) rdlength
  return (⟨name, rtype, rclass, ttl, rdata⟩, p + 10 + rdlength)

/-- As many items, one behind the other. -/
def readMany {α : Type} (read : ℕ → Option (α × ℕ)) : ℕ → ℕ → Option (List α × ℕ)
  | 0, p => some ([], p)
  | n + 1, p => do
    let (x, p) ← read p
    let (xs, p) ← readMany read n p
    return (x :: xs, p)

/-- The header. -/
def readHeader : List UInt8 → Option Header
  | i :: i' :: f :: f' :: q :: q' :: a :: a' :: n :: n' :: r :: r' :: _ => some {
      id := number [i, i']
      qr := decide (f.toNat / 128 = 1)
      opcode := f.toNat / 8 % 16
      aa := decide (f.toNat / 4 % 2 = 1)
      tc := decide (f.toNat / 2 % 2 = 1)
      rd := decide (f.toNat % 2 = 1)
      ra := decide (f'.toNat / 128 = 1)
      z := f'.toNat / 16 % 8
      rcode := f'.toNat % 16
      qdcount := number [q, q']
      ancount := number [a, a']
      nscount := number [n, n']
      arcount := number [r, r'] }
  | _ => none

/-- How many records a message has according to its header. -/
def Header.records (h : Header) : ℕ := h.ancount + h.nscount + h.arcount

/-- A whole message. -/
def readMessage (m : List UInt8) : Option Message := do
  let header ← readHeader m
  let (questions, p) ← readMany (readQuestion m) header.qdcount headerLength
  let (records, p) ← readMany (readRecord m) header.records p
  if p = m.length then return ⟨header, questions, records⟩ else none

/-! ### What the reader has found -/

/-- The bytes at a position are read exactly when the message has that many there. -/
theorem bytesAt_eq_some {bytes : List UInt8} :
    bytesAt m p n = some bytes ↔ p + n ≤ m.length ∧ (m.drop p).take n = bytes := by
  unfold bytesAt
  split
  · simp [*]
  · simp [*]

/-- Behind the first part of a message the second part is read. -/
theorem bytesAt_append (i : ℕ) : bytesAt (q ++ r) (q.length + i) n = bytesAt r i n := by
  unfold bytesAt
  rw [List.length_append, List.drop_append, List.drop_of_length_le (by omega), List.nil_append,
    Nat.add_sub_cancel_left, Nat.add_assoc]
  simp only [Nat.add_le_add_iff_left]

/-- A number that is read at a position lies inside the message. -/
theorem le_length_of_numberAt {x : ℕ} (h : numberAt m p n = some x) : p + n ≤ m.length := by
  obtain ⟨bytes, hbytes, _⟩ := Option.map_eq_some_iff.mp h
  exact (bytesAt_eq_some.mp hbytes).1

/-- The name at `p`, and where it ends. The first number bounds the labels and pointers. -/
inductive NameAt (m : List UInt8) : ℕ → ℕ → Name → ℕ → Prop
  /-- The end of a name. -/
  | root {k p : ℕ} (h : numberAt m p 1 = some 0) : NameAt m (k + 1) p [] (p + 1)
  /-- One more label. -/
  | label {k p p' c : ℕ} {label : List UInt8} {rest : Name} (h : numberAt m p 1 = some c)
      (hpos : 0 < c) (hlabel : c < 64) (hbytes : bytesAt m (p + 1) c = some label)
      (hrest : NameAt m k (p + 1 + c) rest p') : NameAt m (k + 1) p (label :: rest) p'
  /-- The rest is at another place. -/
  | pointer {k p p' c target : ℕ} {rest : Name} (h : numberAt m p 1 = some c) (hpointer : 64 ≤ c)
      (htarget : numberAt m p 2 = some (pointerMark + target)) (hheader : headerLength ≤ target)
      (hrest : NameAt m k target rest p') : NameAt m (k + 1) p rest (p + 2)

/-- A name that the reader finds is there, by labels and pointers that lead to it. -/
theorem nameAt_of_readName {name : Name} (h : readName m k p = some (name, p')) :
    NameAt m k p name p' := by
  induction k generalizing p name p' with
  | zero => cases h
  | succ k ih =>
    obtain ⟨c, hc, h⟩ := Option.bind_eq_some_iff.mp h
    rcases Nat.eq_zero_or_pos c with rfl | hpos
    · cases h
      exact .root hc
    · rw [if_neg (Nat.ne_of_gt hpos)] at h
      split at h
      · rename_i hlabel
        obtain ⟨label, hbytes, h⟩ := Option.bind_eq_some_iff.mp h
        obtain ⟨⟨rest, e⟩, hrest, h⟩ := Option.bind_eq_some_iff.mp h
        cases h
        exact .label hc hpos hlabel hbytes (ih hrest)
      · rename_i hhigh
        obtain ⟨pointer, htarget, h⟩ := Option.bind_eq_some_iff.mp h
        split at h
        · rename_i hheader
          obtain ⟨⟨rest, e⟩, hrest, h⟩ := Option.bind_eq_some_iff.mp h
          cases h
          have hsub : pointerMark + (pointer - pointerMark) = pointer := by omega
          rw [← hsub] at htarget
          exact .pointer hc (Nat.not_lt.mp hhigh) htarget (by omega) (ih hrest)
        · cases h

/-- A name that is there, by labels and pointers, is found by the reader. -/
theorem NameAt.readName {name : Name} (h : NameAt m k p name p') :
    DnsMessages.readName m k p = some (name, p') := by
  induction h with
  | root h => simp [DnsMessages.readName, h]
  | label h hpos hlabel hbytes hrest ih =>
    simp [DnsMessages.readName, h, hbytes, ih, hlabel, Nat.ne_of_gt hpos]
  | pointer h hpointer htarget hheader hrest ih =>
    have hne : ¬_ = 0 := Nat.ne_of_gt (Nat.lt_of_lt_of_le (by decide) hpointer)
    simp [DnsMessages.readName, h, hne, htarget, ih, Nat.not_lt.mpr hpointer, hheader]

/-- A name ends behind the position it begins at, and inside the message. -/
theorem NameAt.le_length {name : Name} (h : NameAt m k p name p') : p < p' ∧ p' ≤ m.length := by
  induction h with
  | root h => exact ⟨Nat.lt_succ_self _, le_length_of_numberAt h⟩
  | label h hpos hlabel hbytes hrest ih => exact ⟨by omega, ih.2⟩
  | pointer h hpointer htarget hheader hrest ih =>
    exact ⟨by omega, le_length_of_numberAt htarget⟩

/-- A question that can be read ends behind its beginning, inside the message. -/
theorem le_length_of_readQuestion {question : Question}
    (h : readQuestion m p = some (question, p')) : p ≤ p' ∧ p' ≤ m.length := by
  obtain ⟨⟨name, e⟩, hname, h⟩ := Option.bind_eq_some_iff.mp h
  obtain ⟨qtype, _, h⟩ := Option.bind_eq_some_iff.mp h
  obtain ⟨qclass, hqclass, h⟩ := Option.bind_eq_some_iff.mp h
  have hstart := (nameAt_of_readName hname).le_length
  have hend := le_length_of_numberAt hqclass
  cases h
  omega

/-- A record that is read lies inside the message, and reading moves forward. -/
theorem le_length_of_readRecord {record : ResourceRecord}
    (h : readRecord m p = some (record, p')) : p ≤ p' ∧ p' ≤ m.length := by
  obtain ⟨⟨name, e⟩, hname, h⟩ := Option.bind_eq_some_iff.mp h
  obtain ⟨rtype, _, h⟩ := Option.bind_eq_some_iff.mp h
  obtain ⟨rclass, _, h⟩ := Option.bind_eq_some_iff.mp h
  obtain ⟨ttl, _, h⟩ := Option.bind_eq_some_iff.mp h
  obtain ⟨rdlength, _, h⟩ := Option.bind_eq_some_iff.mp h
  obtain ⟨rdata, hrdata, h⟩ := Option.bind_eq_some_iff.mp h
  have hstart := (nameAt_of_readName hname).le_length
  have hend := (bytesAt_eq_some.mp hrdata).1
  cases h
  omega

/-- There is no record behind the end of the message. -/
theorem readRecord_length : readRecord m m.length = none := by
  cases h : readRecord m m.length with
  | none => rfl
  | some found =>
    obtain ⟨⟨name, e⟩, hname, _⟩ := Option.bind_eq_some_iff.mp h
    have := (nameAt_of_readName hname).le_length
    omega

section readMany

variable {α : Type} {read read' : ℕ → Option (α × ℕ)} {xs : List α}

/-- Reading one item more is reading one item first and the others from where it ends. -/
theorem readMany_succ_eq_some : readMany read (n + 1) p = some (xs, p') ↔
    ∃ x e rest, read p = some (x, e) ∧ readMany read n e = some (rest, p') ∧ xs = x :: rest := by
  simp only [readMany, Option.bind_eq_bind, Option.bind_eq_some_iff, Prod.exists,
    Option.pure_def, Option.some.injEq, Prod.mk.injEq]
  constructor
  · rintro ⟨x, e, hread, rest, p', hrest, rfl, rfl⟩
    exact ⟨x, e, rest, hread, hrest, rfl⟩
  · rintro ⟨x, e, rest, hread, hrest, rfl⟩
    exact ⟨x, e, hread, rest, p', hrest, rfl, rfl⟩

/-- What reading `n` items one behind the other gives is a list of `n` items. -/
theorem length_of_readMany (h : readMany read n p = some (xs, p')) : xs.length = n := by
  induction n generalizing p xs with
  | zero =>
    cases h
    rfl
  | succ n ih =>
    obtain ⟨x, e, rest, _, hrest, rfl⟩ := readMany_succ_eq_some.mp h
    rw [List.length_cons, ih hrest]

/-- Where each item ends inside some bounds, so do many. -/
theorem le_of_readMany (hread : ∀ p x p', read p = some (x, p') → p ≤ p' ∧ p' ≤ l)
    (hp : p ≤ l) (h : readMany read n p = some (xs, p')) : p ≤ p' ∧ p' ≤ l := by
  induction n generalizing p xs with
  | zero =>
    cases h
    exact ⟨Nat.le_refl _, hp⟩
  | succ n ih =>
    obtain ⟨x, e, rest, hx, hrest, rfl⟩ := readMany_succ_eq_some.mp h
    have hstart := hread p x e hx
    have hend := ih hstart.2 hrest
    omega

/-- Reading `k + n` items is reading `k` items and then `n` more from where these end. -/
theorem readMany_add_eq_some (k n : ℕ) : readMany read (k + n) p = some (xs, p') ↔
    ∃ ys e zs, readMany read k p = some (ys, e) ∧ readMany read n e = some (zs, p') ∧
      xs = ys ++ zs := by
  induction k generalizing p xs with
  | zero =>
    rw [Nat.zero_add]
    constructor
    · intro h
      exact ⟨[], p, xs, rfl, h, rfl⟩
    · rintro ⟨ys, e, zs, hnone, h, rfl⟩
      cases hnone
      exact h
  | succ k ih =>
    rw [Nat.succ_add, readMany_succ_eq_some]
    constructor
    · rintro ⟨x, e, rest, hx, hrest, rfl⟩
      obtain ⟨ys, e', zs, hys, hzs, rfl⟩ := ih.mp hrest
      exact ⟨x :: ys, e', zs, readMany_succ_eq_some.mpr ⟨x, e, ys, hx, hys, rfl⟩, hzs, rfl⟩
    · rintro ⟨ys, e', zs, hys, hzs, rfl⟩
      obtain ⟨x, e, rest, hx, hrest, rfl⟩ := readMany_succ_eq_some.mp hys
      exact ⟨x, e, rest ++ zs, hx, ih.mpr ⟨rest, e', zs, hrest, hzs, rfl⟩, rfl⟩

/-- A reader that reads from some position on what another reads there also reads as many items in a
row. -/
theorem readMany_mono {start : ℕ} (hread : ∀ p x p', start ≤ p → read p = some (x, p') →
      p ≤ p' ∧ read' p = some (x, p')) (hp : start ≤ p)
    (h : readMany read n p = some (xs, p')) : readMany read' n p = some (xs, p') := by
  induction n generalizing p xs with
  | zero => exact h
  | succ n ih =>
    obtain ⟨x, e, rest, hx, hrest, rfl⟩ := readMany_succ_eq_some.mp h
    obtain ⟨hle, hx'⟩ := hread p x e hp hx
    exact readMany_succ_eq_some.mpr ⟨x, e, rest, hx', ih (Nat.le_trans hp hle) hrest, rfl⟩

end readMany

/-- A message whose header is read is at least as long as a header. -/
theorem headerLength_le_of_readHeader {header : Header} (h : readHeader m = some header) :
    headerLength ≤ m.length := by
  unfold readHeader at h
  split at h
  · simp only [headerLength, List.length_cons]
    omega
  · cases h

/-- A whole message is its header, its questions and its records. -/
theorem readMessage_eq_some {message : Message} : readMessage m = some message ↔
    ∃ p, readHeader m = some message.header ∧
      readMany (readQuestion m) message.header.qdcount headerLength =
        some (message.questions, p) ∧
      readMany (readRecord m) message.header.records p = some (message.records, m.length) := by
  constructor
  · intro h
    obtain ⟨header, hheader, h⟩ := Option.bind_eq_some_iff.mp h
    obtain ⟨⟨questions, p⟩, hquestions, h⟩ := Option.bind_eq_some_iff.mp h
    obtain ⟨⟨records, e⟩, hrecords, h⟩ := Option.bind_eq_some_iff.mp h
    have h : (if e = m.length then some ⟨header, questions, records⟩ else none) = some message := h
    split at h
    · rename_i hend
      cases h
      exact ⟨p, hheader, hquestions, hend ▸ hrecords⟩
    · cases h
  · rintro ⟨p, hheader, hquestions, hrecords⟩
    simp [readMessage, hheader, hquestions, hrecords]

/-- A message whose header counts nothing cannot be read when more bytes follow the header. -/
theorem readMessage_eq_none {header : Header} (hheader : readHeader m = some header)
    (hqdcount : header.qdcount = 0) (hrecords : header.records = 0)
    (hmore : headerLength < m.length) : readMessage m = none := by
  cases hfound : readMessage m with
  | none => rfl
  | some found =>
    obtain ⟨p, hheader', hquestions, hnone⟩ := readMessage_eq_some.mp hfound
    obtain rfl := Option.some.inj (hheader.symm.trans hheader')
    rw [hqdcount] at hquestions
    rw [hrecords] at hnone
    have hstart := Prod.mk.inj (Option.some.inj hquestions)
    have hend := Prod.mk.inj (Option.some.inj hnone)
    omega

/-! ### A message that goes on -/

/-- From the header on `r` begins like `q`. -/
structure Continues (q r : List UInt8) : Prop where
  length_le : q.length ≤ r.length
  drop_eq : (r.take q.length).drop headerLength = q.drop headerLength

namespace Continues

/-- Bytes behind the header are read alike in a message that continues the first one. -/
theorem bytesAt (h : Continues q r) (hp : headerLength ≤ p) {bytes : List UInt8}
    (hread : DnsMessages.bytesAt q p n = some bytes) :
    DnsMessages.bytesAt r p n = some bytes := by
  obtain ⟨hle, rfl⟩ := bytesAt_eq_some.mp hread
  refine bytesAt_eq_some.mpr ⟨Nat.le_trans hle h.length_le, ?_⟩
  have hq : q.drop p = (q.drop headerLength).drop (p - headerLength) := by
    rw [List.drop_drop, Nat.add_sub_cancel' hp]
  have hr : (r.take q.length).drop p =
      ((r.take q.length).drop headerLength).drop (p - headerLength) := by
    rw [List.drop_drop, Nat.add_sub_cancel' hp]
  rw [hq, ← h.drop_eq, ← hr, List.drop_take, List.take_take, Nat.min_eq_left (by omega)]

/-- A number behind the header is read alike in a message that continues the first one. -/
theorem numberAt (h : Continues q r) (hp : headerLength ≤ p) {x : ℕ}
    (hread : DnsMessages.numberAt q p n = some x) : DnsMessages.numberAt r p n = some x := by
  obtain ⟨bytes, hbytes, rfl⟩ := Option.map_eq_some_iff.mp hread
  exact Option.map_eq_some_iff.mpr ⟨bytes, h.bytesAt hp hbytes, rfl⟩

/-- The names stay. Their pointers are to names behind the header. -/
theorem nameAt (h : Continues q r) (hp : headerLength ≤ p) {name : Name}
    (hname : NameAt q k p name p') (hkl : k ≤ l) : NameAt r l p name p' := by
  induction hname generalizing l with
  | root hc =>
    obtain ⟨l, rfl⟩ := Nat.exists_eq_succ_of_ne_zero (by omega : l ≠ 0)
    exact .root (h.numberAt hp hc)
  | label hc hpos hlabel hbytes _ ih =>
    obtain ⟨l, rfl⟩ := Nat.exists_eq_succ_of_ne_zero (by omega : l ≠ 0)
    exact .label (h.numberAt hp hc) hpos hlabel (h.bytesAt (by omega) hbytes)
      (ih (by omega) (by omega))
  | pointer hc hpointer htarget hheader _ ih =>
    obtain ⟨l, rfl⟩ := Nat.exists_eq_succ_of_ne_zero (by omega : l ≠ 0)
    exact .pointer (h.numberAt hp hc) hpointer (h.numberAt hp htarget) hheader
      (ih hheader (by omega))

/-- A question is read alike in a message that continues the first one, its name included. -/
theorem readQuestion (h : Continues q r) (hp : headerLength ≤ p) {question : Question}
    (hread : DnsMessages.readQuestion q p = some (question, p')) :
    DnsMessages.readQuestion r p = some (question, p') := by
  obtain ⟨⟨name, e⟩, hname, hread⟩ := Option.bind_eq_some_iff.mp hread
  obtain ⟨qtype, hqtype, hread⟩ := Option.bind_eq_some_iff.mp hread
  obtain ⟨qclass, hqclass, hread⟩ := Option.bind_eq_some_iff.mp hread
  have hname' := nameAt_of_readName hname
  have he : headerLength ≤ e := Nat.le_trans hp (Nat.le_of_lt hname'.le_length.1)
  have hkept := (h.nameAt hp hname' h.length_le).readName
  cases hread
  simp [DnsMessages.readQuestion, hkept, h.numberAt he hqtype, h.numberAt (by omega) hqclass]

/-- A record is read alike in a message that continues the first one, its name included. -/
theorem readRecord (h : Continues q r) (hp : headerLength ≤ p) {record : ResourceRecord}
    (hread : DnsMessages.readRecord q p = some (record, p')) :
    DnsMessages.readRecord r p = some (record, p') := by
  obtain ⟨⟨name, e⟩, hname, hread⟩ := Option.bind_eq_some_iff.mp hread
  obtain ⟨rtype, hrtype, hread⟩ := Option.bind_eq_some_iff.mp hread
  obtain ⟨rclass, hrclass, hread⟩ := Option.bind_eq_some_iff.mp hread
  obtain ⟨ttl, httl, hread⟩ := Option.bind_eq_some_iff.mp hread
  obtain ⟨rdlength, hrdlength, hread⟩ := Option.bind_eq_some_iff.mp hread
  obtain ⟨rdata, hrdata, hread⟩ := Option.bind_eq_some_iff.mp hread
  have hname' := nameAt_of_readName hname
  have he : headerLength ≤ e := Nat.le_trans hp (Nat.le_of_lt hname'.le_length.1)
  have hkept := (h.nameAt hp hname' h.length_le).readName
  cases hread
  simp [DnsMessages.readRecord, hkept, h.numberAt he hrtype, h.numberAt (by omega) hrclass,
    h.numberAt (by omega) httl, h.numberAt (by omega) hrdlength, h.bytesAt (by omega) hrdata]

end Continues

/-- **One record more.** A message that goes on with one record, and asks as many questions, is
read exactly when its header counts that record. -/
theorem readMessage_of_continues (h : Continues q r) {message : Message} {header : Header}
    {record : ResourceRecord} (hread : readMessage q = some message)
    (hheader : readHeader r = some header) (hqdcount : header.qdcount = message.header.qdcount)
    (hrecord : readRecord r q.length = some (record, r.length)) (hmore : q.length < r.length) :
    readMessage r = if header.records = message.header.records + 1 then
      some ⟨header, message.questions, message.records ++ [record]⟩ else none := by
  obtain ⟨p, hqheader, hquestions, hrecords⟩ := readMessage_eq_some.mp hread
  have hp := le_of_readMany (fun _ _ _ => le_length_of_readQuestion)
    (headerLength_le_of_readHeader hqheader) hquestions
  have hquestions' : readMany (readQuestion r) header.qdcount headerLength =
      some (message.questions, p) :=
    hqdcount ▸ readMany_mono (fun _ _ _ hstart hx =>
      ⟨(le_length_of_readQuestion hx).1, h.readQuestion hstart hx⟩) (Nat.le_refl _) hquestions
  have hkeep : ∀ n xs e, readMany (readRecord q) n p = some (xs, e) →
      readMany (readRecord r) n p = some (xs, e) := fun _ _ _ =>
    readMany_mono (fun _ _ _ hstart hx =>
      ⟨(le_length_of_readRecord hx).1, h.readRecord hstart hx⟩) hp.1
  have hall : readMany (readRecord r) (message.header.records + 1) p =
      some (message.records ++ [record], r.length) :=
    (readMany_add_eq_some _ 1).mpr ⟨message.records, q.length, [record], hkeep _ _ _ hrecords,
      readMany_succ_eq_some.mpr ⟨record, r.length, [], hrecord, rfl, rfl⟩, rfl⟩
  split
  · rename_i hcount
    exact readMessage_eq_some.mpr ⟨p, hheader, hquestions', hcount ▸ hall⟩
  · rename_i hcount
    cases hfound : readMessage r with
    | none => rfl
    | some found =>
      obtain ⟨p₂, hheader₂, hquestions₂, hrecords₂⟩ := readMessage_eq_some.mp hfound
      obtain rfl := Option.some.inj (hheader.symm.trans hheader₂)
      obtain ⟨_, rfl⟩ := Prod.mk.inj (Option.some.inj (hquestions'.symm.trans hquestions₂))
      rcases Nat.lt_or_gt_of_ne hcount with hfew | hmany
      · -- The records end inside `q`.
        obtain ⟨n, hn⟩ := Nat.exists_eq_add_of_le (Nat.le_of_lt_succ hfew)
        rw [hn] at hrecords
        obtain ⟨ys, e, zs, hys, hzs, _⟩ := (readMany_add_eq_some _ n).mp hrecords
        have he := le_of_readMany (fun _ _ _ => le_length_of_readRecord) hp.2 hys
        have hend := Prod.mk.inj (Option.some.inj ((hkeep _ _ _ hys).symm.trans hrecords₂))
        omega
      · -- There is no record behind the end of `r`.
        obtain ⟨n, hn⟩ := Nat.exists_eq_add_of_lt hmany
        rw [hn, Nat.add_assoc _ n] at hrecords₂
        obtain ⟨ys, e, zs, hys, hzs, _⟩ := (readMany_add_eq_some _ (n + 1)).mp hrecords₂
        obtain ⟨_, rfl⟩ := Prod.mk.inj (Option.some.inj (hall.symm.trans hys))
        obtain ⟨x, e, rest, hx, _⟩ := readMany_succ_eq_some.mp hzs
        rw [readRecord_length] at hx
        cases hx

end NixieVfdCentral.DnsMessages
