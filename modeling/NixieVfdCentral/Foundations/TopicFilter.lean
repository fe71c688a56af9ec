import Mathlib.Data.List.Basic

/-!
# Topic filters

In a publish-subscribe protocol a topic is a sequence of levels, and a subscription names
a filter: a sequence of levels in which one wildcard stands for any single level and
another one, at the end, for any number of levels, none included. The matching rules are
those of MQTT 3.1.1. The main fact says which topics a filter that ends in the second
wildcard lets through.
-/

namespace NixieVfdCentral.TopicFilter

variable {α : Type*}

/-- The characters that have a meaning in topics and filters. -/
structure Alphabet (α : Type*) where
  /-- Separates the levels. -/
  separator : α
  /-- Alone in a level of a filter, it stands for any one level. -/
  singleLevel : α
  /-- Alone in the last level of a filter, it stands for all further levels. -/
  multiLevel : α
  /-- A topic that begins with it is not matched by a wildcard in the first level. -/
  reserved : α
  /-- The wildcards are not separators. -/
  multiLevel_ne : multiLevel ≠ separator

/-- A level of a filter. -/
inductive Level (α : Type*)
  /-- The level itself. -/
  | name (level : List α)
  /-- Any one level. -/
  | anyLevel
  /-- All further levels. -/
  | anyRest
  deriving DecidableEq

/-- Joining two sequences of levels puts a separator between them. -/
theorem intercalate_append (a : α) {front rest : List (List α)} (hfront : front ≠ [])
    (hrest : rest ≠ []) : [a].intercalate (front ++ rest) =
      [a].intercalate front ++ a :: [a].intercalate rest := by
  induction front with
  | nil => exact absurd rfl hfront
  | cons level front ih =>
    by_cases hnil : front = []
    · rw [hnil, List.singleton_append, List.intercalate_cons_of_ne_nil hrest,
        List.intercalate_singleton, List.append_assoc, List.singleton_append]
    · have hne : front ++ rest ≠ [] := fun h => hnil (List.append_eq_nil_iff.mp h).1
      rw [List.cons_append, List.intercalate_cons_of_ne_nil hne, ih hnil,
        List.intercalate_cons_of_ne_nil hnil]
      simp only [List.append_assoc]

variable [DecidableEq α]

/-- The levels of a filter cover the levels of a topic. -/
def covers : List (Level α) → List (List α) → Bool
  | [], [] => true
  | .anyRest :: _, _ => true
  | .anyLevel :: filter, _ :: topic => covers filter topic
  | .name level :: filter, level' :: topic => level = level' && covers filter topic
  | [], _ :: _ | .anyLevel :: _, [] | .name _ :: _, [] => false

namespace Alphabet

variable (A : Alphabet α)

/-- How a level of a filter is read. -/
def level (l : List α) : Level α :=
  if l = [A.multiLevel] then .anyRest else if l = [A.singleLevel] then .anyLevel else .name l

/-- The levels of a filter. -/
def levels (filter : List α) : List (Level α) := (filter.splitOn A.separator).map A.level

/-- The first level of a filter is a wildcard. -/
def StartsWithWildcard (filter : List α) : Prop :=
  (A.levels filter).head? = some .anyLevel ∨ (A.levels filter).head? = some .anyRest

instance (filter : List α) : Decidable (A.StartsWithWildcard filter) :=
  inferInstanceAs (Decidable (_ ∨ _))

/-- The filter matches the topic. -/
def Matches (filter topic : List α) : Prop :=
  covers (A.levels filter) (topic.splitOn A.separator) = true ∧
    ¬(A.StartsWithWildcard filter ∧ topic.head? = some A.reserved)

instance (filter topic : List α) : Decidable (A.Matches filter topic) :=
  inferInstanceAs (Decidable (_ ∧ _))

/-- No level of the filter is a wildcard. -/
def Plain (filter : List α) : Prop :=
  ∀ l ∈ filter.splitOn A.separator, l ≠ [A.multiLevel] ∧ l ≠ [A.singleLevel]

instance (filter : List α) : Decidable (A.Plain filter) :=
  inferInstanceAs (Decidable (∀ l ∈ filter.splitOn A.separator, _ ∧ _))

end Alphabet

variable {A : Alphabet α} {name topic : List α}

/-- Plain levels followed by the wildcard for all further levels cover the topics that begin
with these levels. -/
theorem covers_names_anyRest (names topic : List (List α)) :
    covers (names.map Level.name ++ [.anyRest]) topic = true ↔ names <+: topic := by
  induction names generalizing topic with
  | nil => simp [covers]
  | cons level names ih =>
    cases topic with
    | nil => simp [covers]
    | cons level' topic => simp [covers, ih, List.cons_prefix_cons]

/-- A filter without wildcard characters has only levels that stand for themselves. -/
theorem levels_of_plain (h : A.Plain name) :
    A.levels name = (name.splitOn A.separator).map Level.name := by
  refine List.map_congr_left fun l hl => ?_
  obtain ⟨hmulti, hsingle⟩ := h l hl
  rw [Alphabet.level, if_neg hmulti, if_neg hsingle]

/-- The levels of a filter that ends in the wildcard for all further levels. -/
theorem levels_append_anyRest (h : A.Plain name) :
    A.levels (name ++ [A.separator, A.multiLevel]) =
      (name.splitOn A.separator).map Level.name ++ [.anyRest] := by
  have htail : [A.multiLevel].splitOn A.separator = [[A.multiLevel]] :=
    List.splitOn_eq_singleton (by simpa using A.multiLevel_ne.symm)
  have hplain := levels_of_plain h
  rw [Alphabet.levels] at hplain ⊢
  rw [List.splitOn_append_cons_self, htail, List.map_append, hplain, List.map_singleton,
    Alphabet.level, if_pos rfl]

/-- A filter that begins with a plain name does not begin with a wildcard. -/
theorem not_startsWithWildcard (h : A.Plain name) :
    ¬A.StartsWithWildcard (name ++ [A.separator, A.multiLevel]) := by
  rw [Alphabet.StartsWithWildcard, levels_append_anyRest h]
  cases hsplit : name.splitOn A.separator with
  | nil => exact absurd hsplit (List.splitOn_ne_nil _ _)
  | cons level levels => simp

/-- The levels of a topic begin with those of a name when the topic is the name, or has the
name and a separator in front. -/
theorem splitOn_prefix_splitOn_iff (a : α) :
    name.splitOn a <+: topic.splitOn a ↔ topic = name ∨ name ++ [a] <+: topic := by
  constructor
  · rintro ⟨rest, hrest⟩
    have hname : [a].intercalate (name.splitOn a) = name := List.intercalate_splitOn a
    have htopic : [a].intercalate (topic.splitOn a) = topic := List.intercalate_splitOn a
    rw [← hrest] at htopic
    by_cases hnil : rest = []
    · left
      rw [← htopic, hnil, List.append_nil, hname]
    · right
      refine ⟨[a].intercalate rest, ?_⟩
      rw [← htopic, intercalate_append a (List.splitOn_ne_nil a name) hnil, hname,
        List.append_assoc, List.singleton_append]
  · rintro (rfl | ⟨rest, rfl⟩)
    · exact List.prefix_refl _
    · rw [List.append_assoc, List.singleton_append, List.splitOn_append_cons_self]
      exact List.prefix_append _ _

/-- **The topics below a name.** A filter that consists of a plain name and the wildcard for
all further levels matches the name itself, which is the parent level, and every topic that
has the name and a separator in front. -/
theorem matches_anyRest_iff (h : A.Plain name) :
    A.Matches (name ++ [A.separator, A.multiLevel]) topic ↔
      topic = name ∨ name ++ [A.separator] <+: topic := by
  rw [Alphabet.Matches, levels_append_anyRest h, covers_names_anyRest, splitOn_prefix_splitOn_iff]
  exact and_iff_left fun hwild => not_startsWithWildcard h hwild.1

end NixieVfdCentral.TopicFilter
