import Mathlib.Algebra.Ring.Nat
import NixieVfdCentral.Uart.UartEvents

/-!
# The events account for the buffered bytes

As long as the buffer holds the bytes that the outstanding events announce, each data event
is handled with its own bytes. Emptying the buffer leaves the events behind that announce
the bytes thrown away: from then on the task reads the bytes of later events instead.
-/

namespace NixieVfdCentral.UartEvent

open Runs

/-- The outstanding data events ask for no more bytes than the buffer holds, so that none of
them waits for the bytes of a later one, and each forwards its own bytes. -/
structure Accounted (s : UartEvent) : Prop where
  sizes_le : (s.outstanding.map DriverEvent.size).sum ≤ s.rxBuffer.length
  reads : ∀ own, s.position = .handling (.UART_DATA own) → (s.step .readBytes).isSome = true
  readsOwn : ∀ own read, s.position = .forwarding own read → read = own
  forwardsOwn : ∀ entry ∈ s.forwarded, entry.2 = entry.1

/-- When the buffer is emptied, no data event is in the queue. -/
def FlushesUnannounced (s : UartEvent) (a : Action) : Prop :=
  s.Flushes a → ∀ event ∈ s.eventQueue, event.isData = false

instance (s : UartEvent) (a : Action) : Decidable (FlushesUnannounced s a) :=
  inferInstanceAs (Decidable (_ → _))

/-- The buffer holds the last of the announced bytes, and every data event announces some. -/
structure Behind (s : UartEvent) : Prop where
  suffix : s.rxBuffer <:+ s.announced
  nonempty : ∀ event ∈ s.eventQueue, event.isData = true → event.own ≠ []

/-- The buffer holds all of the announced bytes, and each event gets its own. -/
structure InStep (s : UartEvent) : Prop where
  buffer_eq : s.rxBuffer = s.announced
  readsOwn : ∀ own read, s.position = .forwarding own read → read = own
  forwardsOwn : ∀ entry ∈ s.forwarded, entry.2 = entry.1

variable {s s' : UartEvent} {a : Action}

/-- The sizes of the outstanding events add up to the announced bytes. -/
theorem sum_size_outstanding (s : UartEvent) :
    (s.outstanding.map DriverEvent.size).sum = s.announced.length := by
  rw [announced, List.length_flatMap]
  rfl

/-- The accounts balance exactly when the buffer holds all of the announced bytes. -/
theorem Behind.accounted_iff (h : Behind s) : Accounted s ↔ InStep s := by
  constructor
  · intro haccounted
    have hle := haccounted.sizes_le
    rw [sum_size_outstanding] at hle
    exact ⟨h.suffix.eq_of_length_le hle, haccounted.readsOwn, haccounted.forwardsOwn⟩
  · intro hinStep
    refine ⟨?_, fun own hposition => ?_, hinStep.readsOwn, hinStep.forwardsOwn⟩
    · exact Nat.le_of_eq (by rw [sum_size_outstanding, hinStep.buffer_eq])
    · have hle : own.length ≤ s.rxBuffer.length := by
        rw [hinStep.buffer_eq, announced_of_handling hposition, List.length_append]
        exact Nat.le_add_right _ _
      simp [step, hposition, hle]

/-- What is left of the end of a list when as many elements are dropped from it as the list
has in front. -/
theorem drop_suffix_of_suffix_append {α : Type*} {l front rest : List α} (h : l <:+ front ++ rest) :
    l.drop front.length <:+ rest := by
  obtain ⟨t, ht⟩ := h
  have hdrop : l.drop front.length = rest.drop t.length := by
    calc l.drop front.length = (t ++ l).drop (t.length + front.length) :=
          (List.drop_length_add_append front.length).symm
      _ = rest.drop t.length := by rw [ht, Nat.add_comm, List.drop_length_add_append]
  rw [hdrop]
  exact List.drop_suffix _ _

/-- Every step leaves the buffer with the last of the announced bytes. -/
theorem Behind.step (h : Behind s) (hstep : s.step a = some s') : Behind s' := by
  cases stepped_of_step hstep with
  | arrive bytes hne =>
    constructor
    · rw [announced_enqueue]
      obtain ⟨t, ht⟩ := h.suffix
      exact ⟨t, by rw [← ht, List.append_assoc]; rfl⟩
    · intro event hevent hdata
      rcases List.mem_append.mp hevent with hevent | hevent
      · exact h.nonempty event hevent hdata
      · rw [List.mem_singleton.mp hevent]
        exact hne
  | report event hdata =>
    constructor
    · rw [announced_enqueue]
      rw [DriverEvent.own_eq_nil hdata, List.append_nil]
      exact h.suffix
    · intro queued hqueued hdata'
      rcases List.mem_append.mp hqueued with hqueued | hqueued
      · exact h.nonempty queued hqueued hdata'
      · rw [List.mem_singleton.mp hqueued, hdata] at hdata'
        cases hdata'
  | flush _ _ _ => exact ⟨List.nil_suffix, h.nonempty⟩
  | receiveEvent event events hposition hqueue =>
    refine ⟨?_, fun queued hqueued => h.nonempty queued (by simp [hqueue, hqueued])⟩
    have hsuffix := h.suffix
    rw [announced_of_not_handling (by simp [hposition]), hqueue] at hsuffix
    exact hsuffix
  | readBytes own hposition hfits =>
    refine ⟨?_, h.nonempty⟩
    have hsuffix := h.suffix
    rw [announced_of_handling hposition] at hsuffix
    exact drop_suffix_of_suffix_append hsuffix
  | send own read hposition =>
    refine ⟨?_, h.nonempty⟩
    have hsuffix := h.suffix
    rwa [announced_of_not_handling (by simp [hposition])] at hsuffix
  | dismiss event hposition hown hflushes =>
    refine ⟨?_, h.nonempty⟩
    have hsuffix := h.suffix
    rwa [announced_of_handling hposition, hown] at hsuffix

/-- **A step keeps the buffer in step exactly if it does not throw announced bytes away.** -/
theorem InStep.step_iff (hbehind : Behind s) (h : InStep s) (hstep : s.step a = some s') :
    InStep s' ↔ FlushesUnannounced s a := by
  cases stepped_of_step hstep with
  | flush _ hflushes hannounced =>
    have hempty : InStep { s.flush with position := .waiting } ↔
        ∀ event ∈ s.eventQueue, event.own = [] := by
      rw [← List.flatMap_eq_nil_iff]
      exact ⟨fun h' => h'.buffer_eq.symm, fun hnil => ⟨hnil.symm, by simp, h.forwardsOwn⟩⟩
    rw [hempty]
    constructor
    · intro hown _ event hevent
      by_contra hdata
      exact hbehind.nonempty event hevent (by simpa using hdata) (hown event hevent)
    · intro hguard event hevent
      exact DriverEvent.own_eq_nil (hguard hflushes event hevent)
  | arrive bytes hne =>
    refine iff_of_true ⟨?_, h.readsOwn, h.forwardsOwn⟩ fun hflushes => hflushes.elim
    rw [announced_enqueue, ← h.buffer_eq]
    rfl
  | report event hdata =>
    refine iff_of_true ⟨?_, h.readsOwn, h.forwardsOwn⟩ fun hflushes => hflushes.elim
    rw [announced_enqueue, DriverEvent.own_eq_nil hdata, List.append_nil]
    exact h.buffer_eq
  | receiveEvent event events hposition hqueue =>
    have hbuffer := h.buffer_eq
    rw [announced_of_not_handling (by simp [hposition]), hqueue] at hbuffer
    exact iff_of_true ⟨hbuffer, by simp, h.forwardsOwn⟩ fun hflushes => hflushes.elim
  | readBytes own hposition hfits =>
    have hbuffer : s.rxBuffer = own ++ s.eventQueue.flatMap DriverEvent.own := by
      rw [h.buffer_eq, announced_of_handling hposition]
      rfl
    refine iff_of_true ⟨?_, ?_, h.forwardsOwn⟩ fun hflushes => hflushes.elim
    · rw [hbuffer, List.drop_left]
      rfl
    · rintro own' read hread
      rw [hbuffer, List.take_left] at hread
      obtain ⟨rfl, rfl⟩ := UartEventPosition.forwarding.inj hread
      rfl
  | send own read hposition =>
    have hbuffer := h.buffer_eq
    rw [announced_of_not_handling (by simp [hposition])] at hbuffer
    refine iff_of_true ⟨hbuffer, by simp, fun entry hentry => ?_⟩ fun hflushes => hflushes.elim
    rcases List.mem_append.mp hentry with hentry | hentry
    · exact h.forwardsOwn entry hentry
    · rw [List.mem_singleton.mp hentry]
      exact h.readsOwn own read hposition
  | dismiss event hposition hown hflushes =>
    have hbuffer := h.buffer_eq
    rw [announced_of_handling hposition, hown] at hbuffer
    exact iff_of_true ⟨hbuffer, by simp, h.forwardsOwn⟩ fun h => absurd h hflushes

/-- At the start the buffer is empty, and no event announces anything. -/
theorem initial_behind : Behind initial := ⟨List.nil_suffix, by simp [initial]⟩

/-- At the start the buffer and the events are in step, since both are empty. -/
theorem initial_inStep : InStep initial := ⟨rfl, by simp [initial], by simp [initial]⟩

/-- **The events account for the buffered bytes** in every state of a run exactly when the
buffer is never emptied while a data event is in the queue. -/
theorem accounted_iff_flushesUnannounced (actions : List Action) {t : UartEvent}
    (hrun : run step initial actions = some t) :
    Visited step Accounted initial actions ↔ Along step FlushesUnannounced initial actions := by
  refine visited_iff_along Behind (fun _ _ _ h hstep => h.step hstep) ?_ initial_behind
    (initial_behind.accounted_iff.mpr initial_inStep) hrun
  intro s a s' hbehind haccounted hstep
  rw [(hbehind.step hstep).accounted_iff]
  exact (hbehind.accounted_iff.mp haccounted).step_iff hbehind hstep

/-- Three bytes arrive between an overflow and its handling. -/
def arrivalBehindOverflow : List Action :=
  [.flushInput, .report .UART_FIFO_OVF, .arrive [1, 2, 3], .receiveEvent, .handleEvent]

/-- Their event stays in the queue, but the buffer is empty. -/
theorem arrivalBehindOverflow_unaccounted :
    ¬Visited step Accounted initial arrivalBehindOverflow := by
  intro hvisited
  have hrun : ∃ s, run step initial arrivalBehindOverflow = some s ∧ s.rxBuffer.length = 0 ∧
      (s.outstanding.map DriverEvent.size).sum = 3 := ⟨_, rfl, rfl, rfl⟩
  obtain ⟨s, hs, hempty, hsum⟩ := hrun
  have := (hvisited.last hs).sizes_le
  omega

/-- When the overflow is handled before more bytes arrive, the events account for the buffer
throughout. -/
theorem accounted_arrivalAfterOverflow :
    Visited step Accounted initial [.flushInput, .report .UART_FIFO_OVF, .receiveEvent,
      .handleEvent, .arrive [1, 2, 3], .receiveEvent, .readBytes, .send] :=
  (accounted_iff_flushesUnannounced _ (t := _) rfl).mpr (by decide)

end NixieVfdCentral.UartEvent
