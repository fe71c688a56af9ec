import Mathlib.Data.Fintype.Defs
import Mathlib.Logic.Function.Basic

/-!
# Event groups

An event group holds bits that tasks set, clear and wait for. A wait names the bits it
waits for, whether it needs all of them, and whether it clears them when it succeeds.
Every operation is atomic. Setting bits releases all tasks whose wait is now satisfied and
only then clears what the released waits clear, so one bit may release several tasks.
-/

namespace NixieVfdCentral

variable {ι β : Type*}

/-- What a task waits for. -/
structure EventWait (β : Type*) where
  /-- The bits the wait is for. -/
  mask : List β
  /-- Whether it takes all of the bits or any one of them to end the wait. -/
  waitForAll : Bool
  /-- Whether the bits are cleared when the wait succeeds. -/
  clearOnExit : Bool

/-- The bits satisfy the wait. -/
def EventWait.satisfied (w : EventWait β) (bits : β → Bool) : Bool :=
  if w.waitForAll then w.mask.all bits else w.mask.any bits

/-- The bits that are set and the tasks that are blocked. -/
structure EventGroup (ι β : Type*) where
  /-- Whether a bit is set. -/
  bits : β → Bool
  /-- What a blocked task waits for, `none` for a task that is not blocked here. -/
  blocked : ι → Option (EventWait β)

namespace EventGroup

/-- No bit is set and no task is blocked. -/
def empty : EventGroup ι β := ⟨fun _ => false, fun _ => none⟩

/-- A task whose wait is not satisfied blocks. -/
def block [DecidableEq ι] (g : EventGroup ι β) (i : ι) (w : EventWait β) : EventGroup ι β :=
  { g with blocked := Function.update g.blocked i (some w) }

/-- A blocked task gives up waiting. -/
def giveUp [DecidableEq ι] (g : EventGroup ι β) (i : ι) : EventGroup ι β :=
  { g with blocked := Function.update g.blocked i none }

/-- No task is blocked in a wait that is satisfied. -/
def Settled (g : EventGroup ι β) : Prop :=
  ∀ i, ∀ w ∈ g.blocked i, w.satisfied g.bits = false

/-- No task but `i` is blocked in a wait that clears bits. -/
def OnlyConsumer (g : EventGroup ι β) (i : ι) : Prop :=
  ∀ j, j ≠ i → ∀ w ∈ g.blocked j, w.clearOnExit = false

variable {g : EventGroup ι β} {mask : List β} {i j : ι} {w : EventWait β} {b : β}

/-- With fewer bits set, a wait that was not satisfied before is not satisfied either. -/
theorem satisfied_eq_false {bits bits' : β → Bool} (hle : ∀ b, bits b = true → bits' b = true)
    (h : w.satisfied bits' = false) : w.satisfied bits = false := by
  unfold EventWait.satisfied at h ⊢
  split_ifs at h ⊢
  · rw [List.all_eq_false] at h ⊢
    obtain ⟨b, hb, hunset⟩ := h
    exact ⟨b, hb, fun hset => hunset (hle b hset)⟩
  · rw [List.any_eq_false] at h ⊢
    exact fun b hb hset => h b hb (hle b hset)

/-- A group without bits is settled, since nobody is blocked in it. -/
theorem settled_empty : (empty : EventGroup ι β).Settled := by
  intro i w hw
  cases hw

/-- A task that gives up waiting leaves the others blocked, and no one else becomes blocked. -/
theorem blocked_of_mem_giveUp [DecidableEq ι] (h : w ∈ (g.giveUp j).blocked i) :
    w ∈ g.blocked i := by
  by_cases hi : i = j
  · subst hi
    simp [EventGroup.giveUp] at h
  · have hblocked : (g.giveUp j).blocked i = g.blocked i := Function.update_of_ne hi _ _
    rwa [hblocked] at h

/-- A settled group stays settled when a task gives up its wait. -/
theorem Settled.giveUp [DecidableEq ι] (h : g.Settled) (i : ι) : (g.giveUp i).Settled :=
  fun j w hw => h j w (blocked_of_mem_giveUp hw)

/-- A task that gives up its wait makes nobody else a consumer. -/
theorem OnlyConsumer.giveUp [DecidableEq ι] (h : g.OnlyConsumer i) (j : ι) :
    (g.giveUp j).OnlyConsumer i :=
  fun l hl w hw => h l hl w (blocked_of_mem_giveUp hw)

variable [DecidableEq β]

/-- Clear bits. -/
def clearBits (g : EventGroup ι β) (mask : List β) : EventGroup ι β :=
  { g with bits := fun b => g.bits b && !mask.contains b }

/-- The bits with those of the mask set. -/
def raised (g : EventGroup ι β) (mask : List β) (b : β) : Bool := g.bits b || mask.contains b

/-- Setting the bits of the mask releases the task. -/
def releases (g : EventGroup ι β) (mask : List β) (i : ι) : Bool :=
  (g.blocked i).any fun w => w.satisfied (g.raised mask)

/-- A wait that ends when the bits of the mask are set clears the bit. -/
def Consumes (g : EventGroup ι β) (mask : List β) (b : β) : Prop :=
  ∃ i, ∃ w ∈ g.blocked i, w.satisfied (g.raised mask) = true ∧ w.clearOnExit = true ∧ b ∈ w.mask

instance [Fintype ι] (g : EventGroup ι β) (mask : List β) (b : β) : Decidable (g.Consumes mask b) :=
  inferInstanceAs (Decidable (∃ i, ∃ w ∈ g.blocked i, _ ∧ _ ∧ b ∈ w.mask))

/-- Set bits. -/
def setBits [Fintype ι] (g : EventGroup ι β) (mask : List β) : EventGroup ι β where
  bits b := g.raised mask b && !decide (g.Consumes mask b)
  blocked i := if g.releases mask i then none else g.blocked i

/-- The bits after a wait has succeeded. -/
def afterWait (g : EventGroup ι β) (w : EventWait β) : EventGroup ι β :=
  if w.clearOnExit then g.clearBits w.mask else g

/-- A task that waits for bits goes on at once, or it blocks. -/
def waitBits [DecidableEq ι] (g : EventGroup ι β) (i : ι) (w : EventWait β) : EventGroup ι β :=
  if w.satisfied g.bits then g.afterWait w else g.block i w

/-! ### What the operations change -/

/-- A bit is set after clearing exactly when it was set and is not in the mask. -/
@[simp] theorem bits_clearBits : (g.clearBits mask).bits b = (g.bits b && !mask.contains b) := rfl

/-- Clearing bits lets nobody go on who is blocked. -/
@[simp] theorem blocked_clearBits : (g.clearBits mask).blocked = g.blocked := rfl

/-- A bit that no released wait clears is set, or keeps its value. -/
theorem bits_setBits_of_not_consumes [Fintype ι] (h : ¬g.Consumes mask b) :
    (g.setBits mask).bits b = (g.bits b || mask.contains b) := by
  simp [setBits, h, raised]

/-- A bit that one of the released waits clears on exit is clear after the bits are set. -/
theorem bits_setBits_of_consumes [Fintype ι] (h : g.Consumes mask b) :
    (g.setBits mask).bits b = false := by
  simp [setBits, h]

/-- Setting bits lets exactly those go on whose wait they satisfy. -/
theorem blocked_setBits [Fintype ι] :
    (g.setBits mask).blocked i = if g.releases mask i then none else g.blocked i := rfl

/-- Setting bits blocks no one. -/
theorem blocked_of_mem_setBits [Fintype ι] (h : w ∈ (g.setBits mask).blocked i) :
    w ∈ g.blocked i := by
  rw [blocked_setBits] at h
  split_ifs at h
  · cases h
  · exact h

/-- After a wait that does not succeed at once, its task is blocked in it. -/
theorem waitBits_of_not_satisfied [DecidableEq ι] (h : w.satisfied g.bits = false) :
    (g.waitBits i w).bits = g.bits ∧
      (g.waitBits i w).blocked = Function.update g.blocked i (some w) := by
  simp [waitBits, h, block]

/-- After a wait that succeeds at once, no one else is affected. -/
theorem waitBits_of_satisfied [DecidableEq ι] (h : w.satisfied g.bits = true) :
    (g.waitBits i w).blocked = g.blocked ∧ ∀ b, (g.waitBits i w).bits b =
      (g.bits b && !(w.clearOnExit && w.mask.contains b)) := by
  cases hclear : w.clearOnExit <;> simp [waitBits, h, afterWait, hclear]

/-- A wait does not change whether another task is blocked. -/
theorem blocked_waitBits_of_ne [DecidableEq ι] (h : j ≠ i) (w : EventWait β) :
    (g.waitBits i w).blocked j = g.blocked j := by
  cases hsatisfied : w.satisfied g.bits with
  | true => rw [(waitBits_of_satisfied hsatisfied).1]
  | false => rw [(waitBits_of_not_satisfied hsatisfied).2, Function.update_of_ne h]

/-- The bits that a wait finds decide whether it blocks. -/
theorem blocked_waitBits_self [DecidableEq ι] (i : ι) (w : EventWait β) :
    (g.waitBits i w).blocked i = if w.satisfied g.bits then g.blocked i else some w := by
  cases hsatisfied : w.satisfied g.bits with
  | true => rw [(waitBits_of_satisfied hsatisfied).1, if_pos rfl]
  | false =>
    rw [(waitBits_of_not_satisfied hsatisfied).2, Function.update_self, if_neg Bool.false_ne_true]

/-- No task stays blocked in a wait that the raised bits satisfy. -/
theorem blocked_setBits_ne [Fintype ι] (h : w.satisfied (g.raised mask) = true) (i : ι) :
    (g.setBits mask).blocked i ≠ some w := by
  intro hblocked
  have hbefore : g.blocked i = some w := blocked_of_mem_setBits hblocked
  rw [blocked_setBits, releases, hbefore, Option.any_some, h, if_pos rfl] at hblocked
  cases hblocked

/-! ### No one is blocked in vain -/

/-- Clearing bits satisfies no wait, so a settled group stays settled. -/
theorem Settled.clearBits (h : g.Settled) (mask : List β) : (g.clearBits mask).Settled := by
  intro i w hw
  refine satisfied_eq_false (fun b hb => ?_) (h i w hw)
  exact (Bool.and_eq_true_iff.mp hb).1

/-- **Setting bits releases everyone it can**: afterwards nobody is blocked in a wait that is
satisfied. -/
theorem settled_setBits [Fintype ι] (g : EventGroup ι β) (mask : List β) :
    (g.setBits mask).Settled := by
  intro i w hw
  rw [blocked_setBits] at hw
  split_ifs at hw with hreleases
  · cases hw
  · have hunsatisfied : w.satisfied (g.raised mask) = false := by
      rw [releases, Option.mem_def.mp hw] at hreleases
      simpa using hreleases
    exact satisfied_eq_false (fun b hb => (Bool.and_eq_true_iff.mp hb).1) hunsatisfied

/-- A wait that blocks is not satisfied, and one that succeeds only clears bits. -/
theorem Settled.waitBits [DecidableEq ι] (h : g.Settled) (i : ι) (w : EventWait β) :
    (g.waitBits i w).Settled := by
  intro j v hv
  cases hsatisfied : w.satisfied g.bits with
  | true =>
    obtain ⟨hblocked, hbits⟩ := waitBits_of_satisfied (i := i) hsatisfied
    rw [hblocked] at hv
    refine satisfied_eq_false (fun b hb => ?_) (h j v hv)
    rw [hbits] at hb
    exact (Bool.and_eq_true_iff.mp hb).1
  | false =>
    obtain ⟨hbits, hblocked⟩ := waitBits_of_not_satisfied (i := i) hsatisfied
    rw [hbits]
    rw [hblocked] at hv
    by_cases hj : j = i
    · subst hj
      rw [Function.update_self] at hv
      obtain rfl := Option.some.inj hv
      exact hsatisfied
    · rw [Function.update_of_ne hj] at hv
      exact h j v hv

/-! ### One consumer -/

/-- What is consumed is what the only consumer waits for. -/
theorem OnlyConsumer.consumes_iff (h : g.OnlyConsumer i) :
    g.Consumes mask b ↔ ∃ w ∈ g.blocked i,
      w.satisfied (g.raised mask) = true ∧ w.clearOnExit = true ∧ b ∈ w.mask := by
  refine ⟨?_, fun hconsumes => ⟨i, hconsumes⟩⟩
  rintro ⟨j, w, hw, hsatisfied, hclear, hb⟩
  by_cases hj : j = i
  · subst hj
    exact ⟨w, hw, hsatisfied, hclear, hb⟩
  · rw [h j hj w hw] at hclear
    cases hclear

/-- Setting bits only ends waits, so it makes nobody else a consumer. -/
theorem OnlyConsumer.setBits [Fintype ι] (h : g.OnlyConsumer i) (mask : List β) :
    (g.setBits mask).OnlyConsumer i :=
  fun j hj w hw => h j hj w (blocked_of_mem_setBits hw)

/-- A wait that does not clear bits, or that is the consumer's own, adds no consumer. -/
theorem OnlyConsumer.waitBits [DecidableEq ι] (h : g.OnlyConsumer i)
    (hw : j = i ∨ w.clearOnExit = false) : (g.waitBits j w).OnlyConsumer i := by
  intro l hl v hv
  cases hsatisfied : w.satisfied g.bits with
  | true =>
    rw [(waitBits_of_satisfied (i := j) hsatisfied).1] at hv
    exact h l hl v hv
  | false =>
    rw [(waitBits_of_not_satisfied (i := j) hsatisfied).2] at hv
    by_cases hlj : l = j
    · subst hlj
      rw [Function.update_self] at hv
      obtain rfl := Option.some.inj hv
      exact hw.resolve_left hl
    · rw [Function.update_of_ne hlj] at hv
      exact h l hl v hv

end EventGroup

end NixieVfdCentral
