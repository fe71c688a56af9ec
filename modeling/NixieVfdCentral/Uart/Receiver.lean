import NixieVfdCentral.Foundations.Runs
import NixieVfdCentral.Uart.ExtractSemantics

/-!
# Runs of the packet processor

`PacketProcessor::taskMain` calls `extractPacketFromReceiveStream` again and again. A
run is the list of what `rxStream.receive` returned to these calls, so it contains
both the byte stream and the way it was cut into chunks. The state keeps, besides the
data members, the history that statements about runs speak of.
-/

namespace NixieVfdCentral

open Runs PacketProcessor

/-- The packet processor between two calls, with the history of the calls so far. -/
structure Receiver where
  /-- The data members. -/
  processor : PacketProcessor
  /-- All bytes `rxStream.receive` returned so far. -/
  received : Bytes
  /-- For every call so far what it exposed, `none` where it returned false. -/
  results : List (Option Exposed)

namespace Receiver

/-- Before the first call. -/
def initial (rxBuffer : Vector UInt8 RxBufferSize) : Receiver :=
  ⟨PacketProcessor.initial rxBuffer, [], []⟩

/-- One call in which `receive` returns `chunk`, at most the requested capacity. -/
def step (r : Receiver) (chunk : Bytes) : Option Receiver :=
  if chunk.length ≤ r.processor.requestedCapacity then
    (r.processor.extractPacketFromReceiveStream chunk).map fun (returned, p) =>
      { processor := p
        received := r.received ++ chunk
        results := r.results ++ [if returned = true then some p.exposed else none] }
  else none

/-- `receive` waits without a time limit: asked for at least one byte, it returns one. -/
def ReceiveWaits (r : Receiver) (chunk : Bytes) : Prop :=
  0 < r.processor.requestedCapacity → chunk ≠ []

variable {r r' : Receiver} {chunk : Bytes}

/-- What one call does, case by case: it received nothing, or it extracted from what it received. -/
theorem step_cases (hwf : r.processor.WellFormed) (hstep : r.step chunk = some r') :
    chunk.length ≤ r.processor.requestedCapacity ∧ r'.received = r.received ++ chunk ∧
      ((chunk = [] ∧ r'.processor = r.processor.beginExtract ∧ r'.results = r.results ++ [none]) ∨
        (chunk ≠ [] ∧ ∃ returned, Extracted r.processor chunk returned r'.processor ∧
          r'.results = r.results ++
            [if returned = true then some r'.processor.exposed else none])) := by
  unfold step at hstep
  split_ifs at hstep with hfits
  refine ⟨hfits, ?_⟩
  by_cases hne : chunk = []
  · subst hne
    rw [extractPacketFromReceiveStream_nil] at hstep
    obtain rfl := Option.some.inj hstep
    exact ⟨rfl, Or.inl ⟨rfl, rfl, rfl⟩⟩
  · obtain ⟨returned, p', hcall, hextracted⟩ := hwf.extract hfits hne
    rw [hcall] at hstep
    obtain rfl := Option.some.inj hstep
    exact ⟨rfl, Or.inr ⟨hne, returned, hextracted, rfl⟩⟩

/-- What a call does that received something: it extracts, and its result is added to the others. -/
theorem step_of_ne (hwf : r.processor.WellFormed) (hne : chunk ≠ [])
    (hstep : r.step chunk = some r') :
    r'.received = r.received ++ chunk ∧
      ∃ returned, Extracted r.processor chunk returned r'.processor ∧
        r'.results = r.results ++
          [if returned = true then some r'.processor.exposed else none] := by
  obtain ⟨_, hreceived, ⟨hnil, _⟩ | ⟨_, hcall⟩⟩ := step_cases hwf hstep
  · exact absurd hnil hne
  · exact ⟨hreceived, hcall⟩

/-- **Every call ends.** A call whose `receive` returns at most the requested capacity
always reaches a next state. -/
theorem step_enabled (hwf : r.processor.WellFormed)
    (hfits : chunk.length ≤ r.processor.requestedCapacity) : ∃ r', r.step chunk = some r' := by
  unfold step
  rw [if_pos hfits]
  by_cases hne : chunk = []
  · subst hne
    exact ⟨_, rfl⟩
  · obtain ⟨returned, p', hcall, _⟩ := hwf.extract hfits hne
    rw [hcall]
    exact ⟨_, rfl⟩

/-- Every call keeps the positions in order and inside the buffer. -/
theorem step_wellFormed (hwf : r.processor.WellFormed) (hstep : r.step chunk = some r') :
    r'.processor.WellFormed := by
  obtain ⟨_, _, ⟨_, hp, _⟩ | ⟨_, _, hextracted, _⟩⟩ := step_cases hwf hstep
  · rw [hp]
    exact hwf.beginExtract
  · exact hextracted.wellFormed

/-- The positions are in order and inside the buffer in every reachable state. -/
theorem run_wellFormed {chunks : List Bytes} (hwf : r.processor.WellFormed)
    (hrun : run step r chunks = some r') : r'.processor.WellFormed :=
  invariant_of_run (fun r => r.processor.WellFormed)
    (fun _ _ _ hwf hstep => step_wellFormed hwf hstep) hwf hrun

/-- At the start both positions are zero, whatever is in the buffer. -/
theorem initial_wellFormed (rxBuffer : Vector UInt8 RxBufferSize) :
    (initial rxBuffer).processor.WellFormed :=
  PacketProcessor.initial_wellFormed rxBuffer

/-- The requested capacity is zero exactly when the buffer is full and not used up. -/
theorem requestedCapacity_eq_zero_iff {p : PacketProcessor} (hwf : p.WellFormed) :
    p.requestedCapacity = 0 ↔
      p.bufferLastPosition = RxBufferSize ∧ p.bufferStartPosition ≠ RxBufferSize := by
  have hlast := hwf.last_le_size
  have hpos : 0 < RxBufferSize := by decide
  rw [hwf.requestedCapacity_eq]
  rcases p.beginExtract_cases with ⟨heq, _, hl⟩ | ⟨hne, _, hl⟩
  · omega
  · omega

end Receiver

end NixieVfdCentral
