import NixieVfdCentral.Foundations.Runs
import NixieVfdCentral.Uart.Protocol

/-!
# The UART driver and its event task

The driver collects arriving bytes in a buffer and queues an event for each arrival; the
event says how many bytes arrived, not which. `UartEvent::taskMain` takes the events in
order, reads as many bytes from the buffer as the event says, and forwards them to
`rxStream`. When the driver reports an overflow, the task empties the buffer.

The driver is modelled as its documentation describes it: the buffer and the event queue
are separate, and `uart_flush_input` leaves the event queue as it is.
-/

namespace NixieVfdCentral

open Runs

/-- An event of the driver, `uart_event_t`. A data event carries the bytes that arrived;
the task uses only their number, the field `size`. -/
inductive DriverEvent
  /-- Bytes have arrived. -/
  | UART_DATA (own : Bytes)
  /-- The hardware buffer overflowed. -/
  | UART_FIFO_OVF
  /-- The buffer of the driver is full. -/
  | UART_BUFFER_FULL
  /-- A parity error. -/
  | UART_PARITY_ERR
  /-- A frame error. -/
  | UART_FRAME_ERR
  /-- Any other event. -/
  | other
  deriving DecidableEq

namespace DriverEvent

/-- The bytes whose arrival the event announces. -/
def own : DriverEvent → Bytes
  | .UART_DATA own => own
  | _ => []

/-- `uart_event_t::size`, zero for an event without data. -/
def size (event : DriverEvent) : ℕ := event.own.length

/-- The type of the event is `UART_DATA`. -/
def isData : DriverEvent → Bool
  | .UART_DATA _ => true
  | _ => false

/-- An event announces bytes only if it is a data event. -/
theorem own_eq_nil {event : DriverEvent} (h : event.isData = false) : event.own = [] := by
  cases event with
  | UART_DATA own => cases h
  | _ => rfl

end DriverEvent

/-- Where the event task stands. -/
inductive UartEventPosition
  /-- Behind `init`, before the first `uart_flush_input`. -/
  | starting
  /-- In `xQueueReceive`. -/
  | waiting
  /-- With an event, before it acts on it. -/
  | handling (event : DriverEvent)
  /-- Behind `uart_read_bytes` for an event with the bytes `own`, before `rxStream.send`. -/
  | forwarding (own read : Bytes)
  deriving DecidableEq

/-- The driver, the event task, and what it has forwarded so far. -/
structure UartEvent where
  /-- The receive buffer of the driver. -/
  rxBuffer : Bytes
  /-- The event queue. -/
  eventQueue : List DriverEvent
  /-- Where the event task stands. -/
  position : UartEventPosition
  /-- For every data event handled so far, its own bytes and those sent to `rxStream`. -/
  forwarded : List (Bytes × Bytes)

namespace UartEvent

/-- The driver has just been installed by `UartEvent::init`. -/
def initial : UartEvent where
  rxBuffer := []
  eventQueue := []
  position := .starting
  forwarded := []

/-- The steps of the driver and of the task. -/
inductive Action
  /-- Bytes arrive. -/
  | arrive (bytes : Bytes)
  /-- The driver reports something else, for example an overflow. -/
  | report (event : DriverEvent)
  /-- The first `uart_flush_input`. -/
  | flushInput
  /-- The task takes the next event from the queue. -/
  | receiveEvent
  /-- It reads as many bytes as its data event says. -/
  | readBytes
  /-- It sends them to `rxStream`. -/
  | send
  /-- It handles an event without data. -/
  | handleEvent

/-- `uart_flush_input`. -/
def flush (s : UartEvent) : UartEvent := { s with rxBuffer := [] }

/-- One step. -/
def step (s : UartEvent) : Action → Option UartEvent
  | .arrive bytes =>
    if bytes ≠ [] then
      some { s with
        rxBuffer := s.rxBuffer ++ bytes
        eventQueue := s.eventQueue ++ [.UART_DATA bytes] }
    else none
  | .report event =>
    if event.isData = false then some { s with eventQueue := s.eventQueue ++ [event] } else none
  | .flushInput =>
    if s.position = .starting then some { s.flush with position := .waiting } else none
  | .receiveEvent =>
    match s.position, s.eventQueue with
    | .waiting, event :: events =>
      some { s with eventQueue := events, position := .handling event }
    | _, _ => none
  | .readBytes =>
    match s.position with
    | .handling (.UART_DATA own) =>
      if own.length ≤ s.rxBuffer.length then
        some { s with
          rxBuffer := s.rxBuffer.drop own.length
          position := .forwarding own (s.rxBuffer.take own.length) }
      else none
    | _ => none
  | .send =>
    match s.position with
    | .forwarding own read =>
      some { s with position := .waiting, forwarded := s.forwarded ++ [(own, read)] }
    | _ => none
  | .handleEvent =>
    match s.position with
    | .handling .UART_FIFO_OVF | .handling .UART_BUFFER_FULL =>
      some { s.flush with position := .waiting }
    | .handling .UART_PARITY_ERR | .handling .UART_FRAME_ERR | .handling .other =>
      some { s with position := .waiting }
    | _ => none

/-- The events that the task has not finished reading the bytes of, in order. -/
def outstanding (s : UartEvent) : List DriverEvent :=
  match s.position with
  | .handling event => event :: s.eventQueue
  | _ => s.eventQueue

/-- The bytes that these events announce. -/
def announced (s : UartEvent) : Bytes := s.outstanding.flatMap DriverEvent.own

/-- The action empties the buffer of the driver. -/
def Flushes (s : UartEvent) : Action → Prop
  | .flushInput => True
  | .handleEvent =>
    s.position = .handling .UART_FIFO_OVF ∨ s.position = .handling .UART_BUFFER_FULL
  | _ => False

instance (s : UartEvent) : (a : Action) → Decidable (s.Flushes a)
  | .flushInput => .isTrue trivial
  | .handleEvent => inferInstanceAs (Decidable (_ ∨ _))
  | .arrive _ | .report _ | .receiveEvent | .readBytes | .send => .isFalse id

/-- What a step does to the state in which it is taken. -/
inductive Stepped (s : UartEvent) : Action → UartEvent → Prop
  | arrive (bytes : Bytes) (hne : bytes ≠ []) : Stepped s (.arrive bytes)
      { s with
        rxBuffer := s.rxBuffer ++ bytes
        eventQueue := s.eventQueue ++ [.UART_DATA bytes] }
  | report (event : DriverEvent) (hdata : event.isData = false) : Stepped s (.report event)
      { s with eventQueue := s.eventQueue ++ [event] }
  | flush (a : Action) (hflushes : s.Flushes a)
      (hannounced : s.announced = s.eventQueue.flatMap DriverEvent.own) :
      Stepped s a { s.flush with position := .waiting }
  | receiveEvent (event : DriverEvent) (events : List DriverEvent)
      (hposition : s.position = .waiting) (hqueue : s.eventQueue = event :: events) :
      Stepped s .receiveEvent { s with eventQueue := events, position := .handling event }
  | readBytes (own : Bytes) (hposition : s.position = .handling (.UART_DATA own))
      (hfits : own.length ≤ s.rxBuffer.length) : Stepped s .readBytes
      { s with
        rxBuffer := s.rxBuffer.drop own.length
        position := .forwarding own (s.rxBuffer.take own.length) }
  | send (own read : Bytes) (hposition : s.position = .forwarding own read) : Stepped s .send
      { s with position := .waiting, forwarded := s.forwarded ++ [(own, read)] }
  | dismiss (event : DriverEvent) (hposition : s.position = .handling event)
      (hown : event.own = []) (hflushes : ¬s.Flushes .handleEvent) :
      Stepped s .handleEvent { s with position := .waiting }

variable {s s' : UartEvent} {a : Action}

/-- The bytes of the event that is being handled come first among the announced ones. -/
theorem announced_of_handling {event : DriverEvent} (h : s.position = .handling event) :
    s.announced = event.own ++ s.eventQueue.flatMap DriverEvent.own := by
  simp [announced, outstanding, h]

/-- While no event is being handled, the announced bytes are those of the queue. -/
theorem announced_of_not_handling (h : ∀ event, s.position ≠ .handling event) :
    s.announced = s.eventQueue.flatMap DriverEvent.own := by
  rw [announced, outstanding]
  split
  · rename_i event hposition
    exact absurd hposition (h event)
  · rfl

/-- An event at the end of the queue announces its bytes behind the others. -/
theorem announced_enqueue (s : UartEvent) (rxBuffer : Bytes) (event : DriverEvent) :
    ({ s with rxBuffer := rxBuffer, eventQueue := s.eventQueue ++ [event] } : UartEvent).announced =
      s.announced ++ event.own := by
  rcases s with ⟨_, _, position, _⟩
  cases position <;> simp [announced, outstanding]

/-- **What one step does**, case by case: every enabled action has the guard and the effect that
`Stepped` states for it. -/
theorem stepped_of_step (hstep : s.step a = some s') : Stepped s a s' := by
  cases a with
  | arrive bytes =>
    simp only [step, Option.ite_none_right_eq_some] at hstep
    obtain ⟨hne, hstep⟩ := hstep
    obtain rfl := Option.some.inj hstep
    exact .arrive bytes hne
  | report event =>
    simp only [step, Option.ite_none_right_eq_some] at hstep
    obtain ⟨hdata, hstep⟩ := hstep
    obtain rfl := Option.some.inj hstep
    exact .report event hdata
  | flushInput =>
    simp only [step, Option.ite_none_right_eq_some] at hstep
    obtain ⟨hposition, hstep⟩ := hstep
    obtain rfl := Option.some.inj hstep
    exact .flush _ trivial (announced_of_not_handling (by simp [hposition]))
  | receiveEvent =>
    simp only [step] at hstep
    split at hstep
    · rename_i event events hposition hqueue
      obtain rfl := Option.some.inj hstep
      exact .receiveEvent event events hposition hqueue
    · cases hstep
  | readBytes =>
    simp only [step] at hstep
    split at hstep
    · rename_i own hposition
      rw [Option.ite_none_right_eq_some] at hstep
      obtain ⟨hfits, hstep⟩ := hstep
      obtain rfl := Option.some.inj hstep
      exact .readBytes own hposition hfits
    · cases hstep
  | send =>
    simp only [step] at hstep
    split at hstep
    · rename_i own read hposition
      obtain rfl := Option.some.inj hstep
      exact .send own read hposition
    · cases hstep
  | handleEvent =>
    simp only [step] at hstep
    split at hstep
    · rename_i hposition
      obtain rfl := Option.some.inj hstep
      exact .flush _ (Or.inl hposition) (announced_of_handling hposition)
    · rename_i hposition
      obtain rfl := Option.some.inj hstep
      exact .flush _ (Or.inr hposition) (announced_of_handling hposition)
    · rename_i hposition
      obtain rfl := Option.some.inj hstep
      exact .dismiss _ hposition rfl (by simp [Flushes, hposition])
    · rename_i hposition
      obtain rfl := Option.some.inj hstep
      exact .dismiss _ hposition rfl (by simp [Flushes, hposition])
    · rename_i hposition
      obtain rfl := Option.some.inj hstep
      exact .dismiss _ hposition rfl (by simp [Flushes, hposition])
    · cases hstep

end UartEvent

end NixieVfdCentral
