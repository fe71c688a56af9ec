import Mathlib.Data.List.Nodup

/-!
# Tables rewritten in place

A table is a list of cells of which some are free. Two passes over such a table are described
here. The first merges every cell into the first one with the same key and leaves a blank cell in
its place. The second moves the cells in use to the front, one after another, each to the first
free cell. Both go through the table by index, as a program does that has no second table.
Together they leave at the front one cell for each key.
-/

namespace NixieVfdCentral.InPlace

variable {α κ : Type*}

/-! ### Moving the cells in use to the front -/

/-- A table while its cells are moved. -/
structure Compaction (α : Type*) where
  /-- The cells. -/
  cells : List α
  /-- The first free cell, as far as one has been seen. -/
  firstFree : Option ℕ
  /-- How many cells are in use, without those that have turned out to be free. -/
  used : ℕ

/-- A free cell is remembered, and a cell in use moves to the first free one. -/
def Compaction.step (isFree : α → Bool) (blank : α) (s : Compaction α) (i : ℕ) :
    Compaction α :=
  match s.cells[i]? with
  | none => s
  | some x =>
    if isFree x then { s with firstFree := s.firstFree.or (some i), used := s.used - 1 }
    else
      match s.firstFree with
      | none => s
      | some free =>
        ⟨(s.cells.set free x).set i blank,
          (((s.cells.set free x).set i blank).findIdx? isFree).or (some free), s.used⟩

/-- The pass over the whole table. -/
def compact (isFree : α → Bool) (blank : α) (cells : List α) : Compaction α :=
  (List.range cells.length).foldl (Compaction.step isFree blank) ⟨cells, none, cells.length⟩

/-- The cells in use. -/
def inUse (isFree : α → Bool) (cells : List α) : List α := cells.filter fun x => !isFree x

variable {isFree : α → Bool} {blank x : α} {cells before after done rest : List α}
  {s : Compaction α}

/-- A free cell at the end adds nothing to the cells in use. -/
theorem inUse_concat_of_free (hx : isFree x = true) :
    inUse isFree (done ++ [x]) = inUse isFree done := by
  simp [inUse, hx]

/-- A used cell at the end becomes the last one of the cells in use. -/
theorem inUse_concat_of_used (hx : isFree x = false) :
    inUse isFree (done ++ [x]) = inUse isFree done ++ [x] := by
  simp [inUse, hx]

/-- A free cell in front adds nothing to the cells in use. -/
theorem inUse_cons_of_free (hx : isFree x = true) :
    inUse isFree (x :: rest) = inUse isFree rest := by
  simp [inUse, hx]

/-- A used cell in front is the first one of the cells in use. -/
theorem inUse_cons_of_used (hx : isFree x = false) :
    inUse isFree (x :: rest) = x :: inUse isFree rest := by
  simp [inUse, hx]

/-- The cells in use are those that the test does not call free. -/
theorem isFree_of_mem_inUse (hx : x ∈ inUse isFree cells) : isFree x = false := by
  simpa using (List.mem_filter.mp hx).2

/-- The cell behind those in front of it is found at their number. -/
theorem getElem?_append_cons {i : ℕ} (hi : i = before.length) :
    (before ++ x :: after)[i]? = some x := by
  simp [hi]

/-- Writing the cell behind those in front of it replaces just this cell. -/
theorem set_append_cons {i : ℕ} {y : α} (hi : i = before.length) :
    (before ++ x :: after).set i y = before ++ y :: after := by
  simp [hi]

/-- The first free cell behind cells in use is found at their number. -/
theorem findIdx?_append_cons (hbefore : ∀ y ∈ before, isFree y = false) (hx : isFree x = true) :
    (before ++ x :: after).findIdx? isFree = some before.length := by
  rw [List.findIdx?_append, List.findIdx?_eq_none_iff.mpr hbefore, List.findIdx?_cons]
  simp [hx]

/-- The cells seen so far are those in use, followed by free ones. -/
def Compacting (isFree : α → Bool) (done rest : List α) (s : Compaction α) : Prop :=
  ∃ gap, (∀ x ∈ gap, isFree x = true) ∧
    (inUse isFree done).length + gap.length = done.length ∧
    s.cells = inUse isFree done ++ (gap ++ rest) ∧
    s.firstFree = (if gap = [] then none else some (inUse isFree done).length) ∧
    s.used + gap.length = done.length + rest.length

/-- A free cell joins the gap behind the cells in use. -/
theorem Compacting.step_free (h : Compacting isFree done (x :: rest) s) (hx : isFree x = true)
    (hcell : s.cells[done.length]? = some x) :
    Compacting isFree (done ++ [x]) rest (s.step isFree blank done.length) := by
  obtain ⟨gap, hgap, hlength, hcells, hfirst, hused⟩ := h
  have hstep : s.step isFree blank done.length =
      ⟨s.cells, s.firstFree.or (some done.length), s.used - 1⟩ := by
    simp [Compaction.step, hcell, hx]
  rw [List.length_cons] at hused
  rw [hstep]
  refine ⟨gap ++ [x], ?_, ?_, ?_, ?_, ?_⟩
  · intro y hy
    rcases List.mem_append.mp hy with hy | hy
    · exact hgap y hy
    · rw [List.mem_singleton.mp hy, hx]
  · rw [inUse_concat_of_free hx, List.length_append, List.length_append, ← hlength, Nat.add_assoc]
  · rw [inUse_concat_of_free hx, hcells]
    simp
  · rw [inUse_concat_of_free hx, hfirst]
    cases gap with
    | nil => simp [← hlength]
    | cons g gap => simp
  · simp only [List.length_append, List.length_singleton]
    omega

/-- A cell in use stays where it is, or moves to the first cell of the gap. -/
theorem Compacting.step_used (hblank : isFree blank = true)
    (h : Compacting isFree done (x :: rest) s) (hx : isFree x = false)
    (hcell : s.cells[done.length]? = some x) :
    Compacting isFree (done ++ [x]) rest (s.step isFree blank done.length) := by
  obtain ⟨gap, hgap, hlength, hcells, hfirst, hused⟩ := h
  rw [List.length_cons] at hused
  cases gap with
  | nil =>
    have hstep : s.step isFree blank done.length = s := by
      simp [Compaction.step, hcell, hx, hfirst]
    rw [hstep]
    refine ⟨[], hgap, ?_, ?_, hfirst, ?_⟩
    · rw [inUse_concat_of_used hx, List.length_append, List.length_append, ← hlength]
      rfl
    · rw [inUse_concat_of_used hx, hcells]
      simp
    · simp only [List.length_append, List.length_singleton]
      omega
  | cons g gap =>
    -- the cell goes to the front of the gap, and a blank one joins its end
    have hmoved : (s.cells.set (inUse isFree done).length x).set done.length blank =
        (inUse isFree done ++ [x]) ++ ((gap ++ [blank]) ++ rest) := by
      rw [hcells, List.cons_append, set_append_cons rfl]
      have hfront : inUse isFree done ++ x :: (gap ++ x :: rest) =
          (inUse isFree done ++ x :: gap) ++ x :: rest := by simp
      rw [hfront, set_append_cons (by simp [← hlength])]
      simp
    have hfree : ∀ y ∈ gap ++ [blank], isFree y = true := by
      intro y hy
      rcases List.mem_append.mp hy with hy | hy
      · exact hgap y (List.mem_cons_of_mem g hy)
      · rw [List.mem_singleton.mp hy, hblank]
    have hfound : ((inUse isFree done ++ [x]) ++ ((gap ++ [blank]) ++ rest)).findIdx? isFree =
        some (inUse isFree done ++ [x]).length := by
      obtain ⟨y, ys, hys⟩ : ∃ y ys, gap ++ [blank] = y :: ys := by cases gap <;> simp
      rw [hys, List.cons_append]
      apply findIdx?_append_cons
      · intro z hz
        rcases List.mem_append.mp hz with hz | hz
        · exact isFree_of_mem_inUse hz
        · rw [List.mem_singleton.mp hz, hx]
      · exact hfree y (by simp [hys])
    have hstep : s.step isFree blank done.length =
        ⟨(inUse isFree done ++ [x]) ++ ((gap ++ [blank]) ++ rest),
          some (inUse isFree done ++ [x]).length, s.used⟩ := by
      have hfirst' : s.firstFree = some (inUse isFree done).length := by simpa using hfirst
      simp only [Compaction.step, hcell, hx, hfirst', hmoved, hfound, Option.some_or]
      rfl
    rw [hstep]
    refine ⟨gap ++ [blank], hfree, ?_, ?_, ?_, ?_⟩
    · simp [inUse_concat_of_used hx, ← hlength]
      omega
    · rw [inUse_concat_of_used hx]
    · simp [inUse_concat_of_used hx]
    · simp only [List.length_append, List.length_cons, List.length_nil] at hused ⊢
      omega

/-- **One cell further**, the cells seen are still those in use, followed by free ones. -/
theorem Compacting.step (hblank : isFree blank = true)
    (h : Compacting isFree done (x :: rest) s) :
    Compacting isFree (done ++ [x]) rest (s.step isFree blank done.length) := by
  have hcell : s.cells[done.length]? = some x := by
    obtain ⟨gap, _, hlength, hcells, _⟩ := h
    rw [hcells, ← List.append_assoc]
    exact getElem?_append_cons (by simp [← hlength])
  cases hx : isFree x with
  | true => exact h.step_free hx hcell
  | false => exact h.step_used hblank hx hcell

/-- After the pass has come to index `k`, the first `k` cells are compacted and the others
untouched. -/
theorem compacting_range (hblank : isFree blank = true) {k : ℕ} (hk : k ≤ cells.length) :
    Compacting isFree (cells.take k) (cells.drop k)
      ((List.range k).foldl (Compaction.step isFree blank) ⟨cells, none, cells.length⟩) := by
  induction k with
  | zero => exact ⟨[], by simp, by simp [inUse], by simp [inUse], by simp, by simp⟩
  | succ k ih =>
    have hlt : k < cells.length := hk
    have hrest := List.drop_eq_getElem_cons hlt
    have hstep := (hrest ▸ ih (Nat.le_of_lt hlt)).step hblank
    rw [List.range_succ, List.foldl_append, List.take_succ_eq_append_getElem hlt]
    rwa [List.length_take_of_le (Nat.le_of_lt hlt)] at hstep

/-- **The pass leaves the cells in use at the front**, in their order, and counts them. -/
theorem compact_eq (hblank : isFree blank = true) (cells : List α) :
    ∃ free, (∀ x ∈ free, isFree x = true) ∧
      (compact isFree blank cells).cells = inUse isFree cells ++ free ∧
      (compact isFree blank cells).used = (inUse isFree cells).length ∧
      (inUse isFree cells).length + free.length = cells.length := by
  obtain ⟨gap, hgap, hlength, hcells, _, hused⟩ :=
    compacting_range hblank (Nat.le_refl cells.length)
  rw [List.take_length, List.drop_length, List.append_nil] at hcells
  rw [List.take_length] at hlength hused
  refine ⟨gap, hgap, hcells, ?_, hlength⟩
  rw [List.drop_length, List.length_nil] at hused
  unfold compact
  omega

/-! ### Merging the cells with one key -/

section Merging

variable [DecidableEq κ] (isFree blank) (key : α → κ) (join : α → α → α)

/-- A cell with the key of the cell at `i` is merged into that cell, and a blank one takes its
place. -/
def mergeInto (i : ℕ) (cells : List α) (j : ℕ) : List α :=
  match cells[i]?, cells[j]? with
  | some x, some y => if key x = key y then (cells.set i (join x y)).set j blank else cells
  | _, _ => cells

/-- All later cells with the key of the cell at `i` are merged into it, unless it is free. -/
def mergeAt (cells : List α) (i : ℕ) : List α :=
  match cells[i]? with
  | none => cells
  | some x =>
    if isFree x then cells
    else (List.range' (i + 1) (cells.length - (i + 1))).foldl (mergeInto blank key join i) cells

/-- The pass over the whole table. -/
def mergeDuplicates (cells : List α) : List α :=
  (List.range (cells.length - 1)).foldl (mergeAt isFree blank key join) cells

/-- The cells merged into the first one. -/
def joined : List α → Option α
  | [] => none
  | x :: rest => some (rest.foldl join x)

/-- For each key, in the order in which the keys occur first, all cells with this key, merged. -/
def grouped (cells : List α) : List α :=
  (cells.map key).eraseDups.filterMap fun k => joined join (cells.filter fun x => key x = k)

/-- What the merging relies on. -/
structure MergeLaws : Prop where
  /-- A blank cell is free. -/
  blank_free : isFree blank = true
  /-- A cell keeps its key when another one is merged into it. -/
  key_join : ∀ x y, key (join x y) = key x
  /-- The key says whether a cell is free. -/
  isFree_congr : ∀ x y, key x = key y → isFree x = isFree y

end Merging

variable {key : α → κ} {join : α → α → α}

/-- Merging cells into one does not change the key of this one. -/
theorem key_foldl_join (hkey : ∀ x y, key (join x y) = key x) (x : α) (rest : List α) :
    key (rest.foldl join x) = key x := by
  induction rest generalizing x with
  | nil => rfl
  | cons y rest ih => rw [List.foldl_cons, ih, hkey]

variable [DecidableEq κ]

/-- **The cells behind one cell**: those with its key are merged into it and blanked. -/
theorem foldl_mergeInto (blank : α) (hkey : ∀ x y, key (join x y) = key x)
    (before done rest : List α) (x : α) :
    (List.range' (before.length + 1 + done.length) rest.length).foldl
        (mergeInto blank key join before.length) (before ++ x :: (done ++ rest)) =
      before ++ (rest.filter fun y => key y = key x).foldl join x ::
        (done ++ rest.map fun y => if key y = key x then blank else y) := by
  induction rest generalizing done x with
  | nil => simp
  | cons y rest ih =>
    have hx : (before ++ x :: (done ++ y :: rest))[before.length]? = some x :=
      getElem?_append_cons rfl
    have hsplit : before ++ x :: (done ++ y :: rest) = (before ++ x :: done) ++ y :: rest := by simp
    have hy : (before ++ x :: (done ++ y :: rest))[before.length + 1 + done.length]? = some y := by
      rw [hsplit]
      exact getElem?_append_cons (by simp; omega)
    rw [List.length_cons, List.range'_succ, List.foldl_cons]
    by_cases hsame : key x = key y
    · have hmerge : mergeInto blank key join before.length (before ++ x :: (done ++ y :: rest))
          (before.length + 1 + done.length) =
            before ++ join x y :: ((done ++ [blank]) ++ rest) := by
        rw [mergeInto, hx, hy]
        simp only [hsame, if_true]
        rw [set_append_cons rfl,
          show before ++ join x y :: (done ++ y :: rest) =
            (before ++ join x y :: done) ++ y :: rest by simp,
          set_append_cons (by simp; omega)]
        simp
      have hrest := ih (done ++ [blank]) (join x y)
      rw [List.length_append, List.length_singleton, ← Nat.add_assoc, hkey] at hrest
      rw [hmerge, hrest]
      simp [hsame.symm]
    · have hmerge : mergeInto blank key join before.length (before ++ x :: (done ++ y :: rest))
          (before.length + 1 + done.length) = before ++ x :: ((done ++ [y]) ++ rest) := by
        rw [mergeInto, hx, hy]
        simp [hsame]
      have hrest := ih (done ++ [y]) x
      rw [List.length_append, List.length_singleton, ← Nat.add_assoc] at hrest
      rw [hmerge, hrest]
      simp [Ne.symm hsame]

/-- The cells of the first key are merged, and the others are grouped. -/
theorem grouped_cons (x : α) (rest : List α) : grouped key join (x :: rest) =
    (rest.filter fun y => key y = key x).foldl join x ::
      grouped key join (rest.filter fun y => key y ≠ key x) := by
  have hkeys : ((rest.map key).filter fun k => !k == key x) =
      (rest.filter fun y => key y ≠ key x).map key := by
    rw [List.filter_map]
    congr 1
    apply List.filter_congr
    intro y _
    by_cases hy : key y = key x <;> simp [hy]
  have hfirst : joined join ((x :: rest).filter fun y => key y = key x) =
      some ((rest.filter fun y => key y = key x).foldl join x) := by simp [joined]
  rw [grouped, List.map_cons, List.eraseDups_cons, hkeys, List.filterMap_cons_some
    (f := fun k => joined join ((x :: rest).filter fun y => key y = k)) hfirst]
  congr 1
  apply List.filterMap_congr
  intro k hk
  have hne : k ≠ key x := by
    obtain ⟨y, hy, rfl⟩ := List.mem_map.mp (List.mem_eraseDups.mp hk)
    simpa using (List.mem_filter.mp hy).2
  rw [List.filter_cons_of_neg (by simpa using hne.symm), List.filter_filter]
  congr 1
  apply List.filter_congr
  intro y _
  by_cases hy : key y = k <;> simp [hy, hne]

/-- Without cells there are no groups. -/
@[simp] theorem grouped_nil : grouped key join ([] : List α) = [] := rfl

/-- A single cell is the only one of its group. -/
theorem grouped_singleton (x : α) : grouped key join [x] = [x] := by
  simp [grouped_cons]

/-- Behind a cell in use, blanking the cells with its key leaves those with another key. -/
theorem MergeLaws.inUse_map (laws : MergeLaws isFree blank key join) (x : α) (rest : List α) :
    inUse isFree (rest.map fun y => if key y = key x then blank else y) =
      (inUse isFree rest).filter fun y => key y ≠ key x := by
  induction rest with
  | nil => rfl
  | cons y rest ih =>
    rw [List.map_cons]
    by_cases hsame : key y = key x
    · rw [if_pos hsame, inUse_cons_of_free laws.blank_free, ih]
      cases hy : isFree y with
      | true => rw [inUse_cons_of_free hy]
      | false => simp [inUse_cons_of_used hy, hsame]
    · rw [if_neg hsame]
      cases hy : isFree y with
      | true => rw [inUse_cons_of_free hy, inUse_cons_of_free hy, ih]
      | false => simp [inUse_cons_of_used hy, hsame, ih]

/-- The cells with the key of a cell in use are in use. -/
theorem MergeLaws.filter_inUse (laws : MergeLaws isFree blank key join)
    (hx : isFree x = false) (rest : List α) :
    (inUse isFree rest).filter (fun y => key y = key x) = rest.filter fun y => key y = key x := by
  rw [inUse, List.filter_filter]
  apply List.filter_congr
  intro y _
  by_cases hsame : key y = key x
  · simp [hsame, laws.isFree_congr y x hsame, hx]
  · simp [hsame]

/-- **One cell further**, the cells in front have their keys for themselves. -/
theorem MergeLaws.mergeAt_append_cons (laws : MergeLaws isFree blank key join)
    (done rest : List α) (x : α) :
    ∃ x' rest', mergeAt isFree blank key join (done ++ x :: rest) done.length =
        (done ++ [x']) ++ rest' ∧ rest'.length = rest.length ∧
      inUse isFree (done ++ [x']) ++ grouped key join (inUse isFree rest') =
        inUse isFree done ++ grouped key join (inUse isFree (x :: rest)) := by
  have hcell : (done ++ x :: rest)[done.length]? = some x := getElem?_append_cons rfl
  cases hx : isFree x with
  | true =>
    refine ⟨x, rest, ?_, rfl, ?_⟩
    · simp only [mergeAt, hcell, hx, if_true]
      simp
    · rw [inUse_concat_of_free hx, inUse_cons_of_free hx]
  | false =>
    have hpass := foldl_mergeInto blank laws.key_join done [] rest x
    have hlength : (done ++ x :: rest).length - (done.length + 1) = rest.length := by
      simp
      omega
    have hx' : isFree ((rest.filter fun y => key y = key x).foldl join x) = false := by
      rw [laws.isFree_congr _ x (key_foldl_join laws.key_join x _), hx]
    refine ⟨(rest.filter fun y => key y = key x).foldl join x,
      rest.map fun y => if key y = key x then blank else y, ?_, List.length_map .., ?_⟩
    · simp only [List.length_nil, Nat.add_zero, List.nil_append] at hpass
      simp only [mergeAt, hcell, hx, Bool.false_eq_true, if_false, hlength, hpass]
      simp
    · rw [inUse_concat_of_used hx', inUse_cons_of_used hx, grouped_cons, laws.filter_inUse hx,
        laws.inUse_map]
      simp

/-- After the pass has come to index `k`, the cells in use before it, and the groups of those behind
it, are the groups of all cells in use. -/
theorem MergeLaws.mergeAt_range (laws : MergeLaws isFree blank key join)
    (cells : List α) {k : ℕ} (hk : k ≤ cells.length) :
    ∃ done rest, (List.range k).foldl (mergeAt isFree blank key join) cells = done ++ rest ∧
      done.length = k ∧ k + rest.length = cells.length ∧
      inUse isFree done ++ grouped key join (inUse isFree rest) =
        grouped key join (inUse isFree cells) := by
  induction k with
  | zero => exact ⟨[], cells, rfl, rfl, Nat.zero_add _, rfl⟩
  | succ k ih =>
    obtain ⟨done, rest, hcells, hdone, hrest, hgrouped⟩ := ih (Nat.le_of_succ_le hk)
    rw [List.range_succ, List.foldl_append, hcells]
    cases rest with
    | nil => simp at hrest; omega
    | cons x rest =>
      obtain ⟨x', rest', hpass, hlength, hsame⟩ := laws.mergeAt_append_cons done rest x
      rw [hdone] at hpass
      refine ⟨done ++ [x'], rest', hpass, by simp [hdone], ?_, hsame.trans hgrouped⟩
      rw [List.length_cons] at hrest
      omega

/-- **The pass leaves one cell in use for each key**, in the order in which the keys occur first,
with all cells of this key merged into it. -/
theorem MergeLaws.mergeDuplicates_eq (laws : MergeLaws isFree blank key join)
    (cells : List α) :
    inUse isFree (mergeDuplicates isFree blank key join cells) =
        grouped key join (inUse isFree cells) ∧
      (mergeDuplicates isFree blank key join cells).length = cells.length := by
  obtain ⟨done, rest, hcells, hdone, hrest, hgrouped⟩ :=
    laws.mergeAt_range cells (Nat.sub_le cells.length 1)
  rw [mergeDuplicates, hcells, ← hgrouped]
  constructor
  · -- the last cell has no cells behind it to be compared with
    have hlast : grouped key join (inUse isFree rest) = inUse isFree rest := by
      cases rest with
      | nil => rfl
      | cons x rest =>
        have hnil : rest = [] := by
          rw [List.length_cons] at hrest
          exact List.eq_nil_of_length_eq_zero (by omega)
        subst hnil
        cases hx : isFree x with
        | true => simp [inUse, hx]
        | false => simp [inUse, hx, grouped_singleton]
    rw [hlast, inUse, List.filter_append]
    rfl
  · rw [List.length_append]
    omega

/-! ### What remains -/

/-- A list of keys from which the duplicates are erased has no key twice. -/
theorem nodup_eraseDups : ∀ keys : List κ, keys.eraseDups.Nodup
  | [] => List.nodup_nil
  | k :: keys => by
    rw [List.eraseDups_cons, List.nodup_cons]
    refine ⟨fun hk => ?_, nodup_eraseDups _⟩
    have hne := (List.mem_filter.mp (List.mem_eraseDups.mp hk)).2
    simp at hne
  termination_by keys => keys.length
  decreasing_by exact Nat.lt_succ_of_le (List.length_filter_le _ _)

/-- The merged cell has the key for which the cells were selected. -/
theorem key_of_joined (hkey : ∀ x y, key (join x y) = key x) {k : κ} {y : α}
    (hy : joined join (cells.filter fun x => key x = k) = some y) : key y = k := by
  cases hsame : cells.filter fun x => key x = k with
  | nil => simp [hsame, joined] at hy
  | cons first others =>
    rw [hsame, joined] at hy
    rw [← Option.some.inj hy, key_foldl_join hkey]
    have hfirst : first ∈ cells.filter fun x => key x = k := by simp [hsame]
    simpa using (List.mem_filter.mp hfirst).2

/-- A cell remains exactly when it is the merger of all cells with its key. -/
theorem mem_grouped (hkey : ∀ x y, key (join x y) = key x) {y : α} :
    y ∈ grouped key join cells ↔
      joined join (cells.filter fun x => key x = key y) = some y := by
  rw [grouped, List.mem_filterMap]
  constructor
  · rintro ⟨k, _, hy⟩
    rw [key_of_joined hkey hy]
    exact hy
  · intro hy
    refine ⟨key y, ?_, hy⟩
    obtain ⟨x, hx⟩ : ∃ x, x ∈ cells.filter fun x => key x = key y := by
      cases hsame : cells.filter fun x => key x = key y with
      | nil => simp [hsame, joined] at hy
      | cons first others => exact ⟨first, List.mem_cons_self⟩
    obtain ⟨hx, hkeys⟩ := List.mem_filter.mp hx
    exact List.mem_eraseDups.mpr (List.mem_map.mpr ⟨x, hx, by simpa using hkeys⟩)

/-- **Each key remains once**, in the order in which the keys occur first. -/
theorem map_key_grouped (hkey : ∀ x y, key (join x y) = key x) (cells : List α) :
    (grouped key join cells).map key = (cells.map key).eraseDups := by
  rw [grouped, List.map_filterMap]
  refine (List.filterMap_congr fun k hk => ?_).trans List.filterMap_some
  obtain ⟨x, hx, rfl⟩ := List.mem_map.mp (List.mem_eraseDups.mp hk)
  cases hsame : cells.filter fun y => key y = key x with
  | nil =>
    have hmem : x ∈ cells.filter fun y => key y = key x := by simp [hx]
    simp [hsame] at hmem
  | cons first others =>
    have hjoined : joined join (cells.filter fun y => key y = key x) =
        some (others.foldl join first) := by rw [hsame, joined]
    rw [joined, Option.map_some, key_of_joined hkey hjoined]

end NixieVfdCentral.InPlace
