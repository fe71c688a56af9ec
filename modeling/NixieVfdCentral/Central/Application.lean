import NixieVfdCentral.Central.Delivery
import NixieVfdCentral.Central.ReceiveChain
import NixieVfdCentral.Central.TimeRequests

/-!
# From line to line

Behind each UART stands a chain of stages that hands packets to `processPacket`. Both chains ask
the same time source, which tells the time to both lines, between the messages of the MQTT task.
Here all of these tasks run together, and what arrives on the lines is compared with what leaves
on them.
-/

namespace NixieVfdCentral

open Runs SharedLogs Framing

/-- The UARTs. -/
inductive UartNumber
  /-- `Application::Uart1Number`. -/
  | uart1
  /-- `Application::Uart2Number`. -/
  | uart2
  deriving DecidableEq

/-- The packet tells the time. -/
def isTime (packet : Bytes × Bytes) : Bool := packet.1 = ascii ['c', 'l', 'o', 'c', 'k']

/-- How many of the messages are of the time task and tell the time. -/
def timesIn (messages : List (Writer × Bytes × Bytes)) : ℕ :=
  (select .timeTask messages).countP isTime

/-- The tasks between the lines, and the history of the requests. -/
structure Application where
  /-- The tasks that send and the `UartTx` tasks. -/
  outgoing : Outgoing
  /-- The stages behind each UART. -/
  chain : UartNumber → ReceiveChain
  /-- `processPacket` has found a request and is about to call `queueTimeSend`. -/
  asking : UartNumber → Bool
  /-- How often `onTimeSync` was called. -/
  timeSyncs : ℕ
  /-- For every call of `queueTimeSend` so far, how often the time had been told before. -/
  asked : List ℕ

namespace Application

/-- Nothing has arrived, and nothing is sent yet. -/
def initial (rxBuffer : UartNumber → Vector UInt8 RxBufferSize) : Application where
  outgoing := .initial
  chain uart := .initial (rxBuffer uart)
  asking _ := false
  timeSyncs := 0
  asked := []

/-- The steps of the tasks. -/
inductive Action
  /-- A step of the driver of a UART or of its event task. -/
  | uart (uart : UartNumber) (a : UartEvent.Action)
  /-- A packet processor receives `n` bytes and looks for a packet. -/
  | extract (uart : UartNumber) (n : ℕ)
  /-- It calls `queueTimeSend`. -/
  | queueTimeSend (uart : UartNumber)
  /-- `onTimeSync` calls `queueTimeSend`. -/
  | onTimeSync
  /-- A step of a task that sends or of a `UartTx` task. -/
  | outgoing (a : Outgoing.Action)

/-- `queueTimeSend`. -/
def queueTimeSend (s : Application) : Option Application :=
  (s.outgoing.step (.central .queueTimeSend)).map fun outgoing =>
    { s with outgoing := outgoing, asked := s.asked ++ [timesIn s.outgoing.said] }

/-- The action is a call of `queueTimeSend`. -/
def isCall : Outgoing.Action → Bool
  | .central .queueTimeSend => true
  | _ => false

/-- One step. A packet processor calls `queueTimeSend` before it looks for the next packet. -/
def step (s : Application) : Action → Option Application
  | .uart uart a =>
    ((s.chain uart).step (.uart a)).map fun chain =>
      { s with chain := Function.update s.chain uart chain }
  | .extract uart n =>
    if s.asking uart = false then
      ((s.chain uart).step (.extract n)).map fun chain =>
        { s with
          chain := Function.update s.chain uart chain
          asking := Function.update s.asking uart
            (decide (chain.queueTimeSends ≠ (s.chain uart).queueTimeSends)) }
    else none
  | .queueTimeSend uart =>
    if s.asking uart = true then
      s.queueTimeSend.map fun t => { t with asking := Function.update s.asking uart false }
    else none
  | .onTimeSync => s.queueTimeSend.map fun t => { t with timeSyncs := s.timeSyncs + 1 }
  | .outgoing a =>
    if isCall a = false then
      (s.outgoing.step a).map fun outgoing => { s with outgoing := outgoing }
    else none

/-- What a step does to the state in which it is taken. -/
inductive Stepped (s : Application) : Action → Application → Prop
  | uart (uart : UartNumber) (a : UartEvent.Action) (chain : ReceiveChain)
      (hchain : (s.chain uart).step (.uart a) = some chain) :
      Stepped s (.uart uart a) { s with chain := Function.update s.chain uart chain }
  | extract (uart : UartNumber) (n : ℕ) (chain : ReceiveChain) (hidle : s.asking uart = false)
      (hchain : (s.chain uart).step (.extract n) = some chain) :
      Stepped s (.extract uart n)
        { s with
          chain := Function.update s.chain uart chain
          asking := Function.update s.asking uart
            (decide (chain.queueTimeSends ≠ (s.chain uart).queueTimeSends)) }
  | queueTimeSend (uart : UartNumber) (outgoing : Outgoing) (hasking : s.asking uart = true)
      (houtgoing : s.outgoing.step (.central .queueTimeSend) = some outgoing) :
      Stepped s (.queueTimeSend uart)
        { s with
          outgoing := outgoing
          asking := Function.update s.asking uart false
          asked := s.asked ++ [timesIn s.outgoing.said] }
  | onTimeSync (outgoing : Outgoing)
      (houtgoing : s.outgoing.step (.central .queueTimeSend) = some outgoing) :
      Stepped s .onTimeSync
        { s with
          outgoing := outgoing
          timeSyncs := s.timeSyncs + 1
          asked := s.asked ++ [timesIn s.outgoing.said] }
  | outgoing (a : Outgoing.Action) (outgoing : Outgoing) (hother : isCall a = false)
      (houtgoing : s.outgoing.step a = some outgoing) :
      Stepped s (.outgoing a) { s with outgoing := outgoing }

variable {s s' : Application} {a : Action}

/-- **What one step does**, case by case: every enabled action has the guard and the effect that
`Stepped` states for it. -/
theorem stepped_of_step (hstep : s.step a = some s') : Stepped s a s' := by
  cases a with
  | uart uart a =>
    obtain ⟨chain, hchain, rfl⟩ := Option.map_eq_some_iff.mp hstep
    exact .uart uart a chain hchain
  | extract uart n =>
    rw [step, Option.ite_none_right_eq_some] at hstep
    obtain ⟨hidle, hstep⟩ := hstep
    obtain ⟨chain, hchain, rfl⟩ := Option.map_eq_some_iff.mp hstep
    exact .extract uart n chain hidle hchain
  | queueTimeSend uart =>
    rw [step, Option.ite_none_right_eq_some] at hstep
    obtain ⟨hasking, hstep⟩ := hstep
    obtain ⟨t, ht, rfl⟩ := Option.map_eq_some_iff.mp hstep
    obtain ⟨outgoing, houtgoing, rfl⟩ := Option.map_eq_some_iff.mp ht
    exact .queueTimeSend uart outgoing hasking houtgoing
  | onTimeSync =>
    rw [step] at hstep
    obtain ⟨t, ht, rfl⟩ := Option.map_eq_some_iff.mp hstep
    obtain ⟨outgoing, houtgoing, rfl⟩ := Option.map_eq_some_iff.mp ht
    exact .onTimeSync outgoing houtgoing
  | outgoing a =>
    rw [step, Option.ite_none_right_eq_some] at hstep
    obtain ⟨hother, hstep⟩ := hstep
    obtain ⟨outgoing, houtgoing, rfl⟩ := Option.map_eq_some_iff.mp hstep
    exact .outgoing a outgoing hother houtgoing

/-! ### Requests and times -/

end Application

/-- The times that two series of messages tell add up to those of both. -/
theorem timesIn_append (first second : List (Writer × Bytes × Bytes)) :
    timesIn (first ++ second) = timesIn first + timesIn second := by
  rw [timesIn, select_append, List.countP_append, ← timesIn, ← timesIn]

/-- If the time task has said more in the second series, this tells the time no less often. -/
theorem timesIn_le {first second : List (Writer × Bytes × Bytes)}
    (h : select .timeTask first <+: select .timeTask second) : timesIn first ≤ timesIn second :=
  h.sublist.countP_le

namespace Outgoing

/-- What a step of the tasks that send has to do with the requests for the time. -/
inductive TimeStepped (s : Outgoing) (a : Central.Action) (s' : Outgoing) : Prop
  | asks (ha : a = .queueTimeSend) (hflag : s'.central.shouldSendTime = true)
      (htime : s'.central.time = s.central.time)
      (hrequests : s'.central.requests = s.central.requests ++ [false])
      (htimes : timesIn s'.said = timesIn s.said)
  | tells (htime : s.central.time = .sampling) (htime' : s'.central.time = .sendingTime)
      (ha : a ≠ .queueTimeSend)
      (hrequests : s'.central.requests = s.central.requests.map fun _ => true)
      (htimes : timesIn s'.said = timesIn s.said + 1)
  | clears (ha : a = .clearShouldSendTime) (htime : s'.central.time = .waiting)
      (hflag : s'.central.shouldSendTime = false)
      (hrequests : s'.central.requests = s.central.requests)
      (htimes : timesIn s'.said = timesIn s.said)
  | keeps (ha : a ≠ .queueTimeSend) (hflag : s'.central.shouldSendTime = s.central.shouldSendTime)
      (hsending : s'.central.time = .sendingTime ↔ s.central.time = .sendingTime)
      (hsampling : s'.central.time = .sampling →
        s.central.time = .sampling ∨ s.central.shouldSendTime = true)
      (hrequests : s'.central.requests = s.central.requests)
      (htimes : timesIn s'.said = timesIn s.said)

variable {s s' : Outgoing}

/-- **Every step asks for the time, begins to tell it, clears the flag, or does none of this.** -/
theorem timeStepped_of_step {a : Central.Action} (hstep : s.step (.central a) = some s') :
    TimeStepped s a s' := by
  obtain ⟨central, hcentral, rfl⟩ := Option.map_eq_some_iff.mp hstep
  have htimes : timesIn (s.said ++ (s.central.saying a).toList) =
      timesIn s.said + timesIn (s.central.saying a).toList := timesIn_append _ _
  cases a with
  | queueTimeSend =>
    obtain rfl := Option.some.inj hcentral
    exact .asks rfl rfl rfl rfl htimes
  | getLocaltime localTime =>
    simp only [Central.step, Option.ite_none_right_eq_some] at hcentral
    obtain ⟨htime, hcentral⟩ := hcentral
    obtain rfl := Option.some.inj hcentral
    exact .tells htime rfl (by simp) rfl htimes
  | clearShouldSendTime =>
    simp only [Central.step, Option.ite_none_right_eq_some] at hcentral
    obtain rfl := Option.some.inj hcentral.2
    exact .clears rfl rfl rfl rfl htimes
  | dataCallback event =>
    have hsaying : timesIn (s.central.saying (.dataCallback event)).toList = 0 := by
      rw [Central.saying]
      split <;> rfl
    rw [hsaying] at htimes
    obtain ⟨_, rfl | ⟨_, _, _, rfl⟩⟩ := Central.step_dataCallback hcentral
    · exact .keeps (by simp) rfl Iff.rfl Or.inl rfl htimes
    · exact .keeps (by simp) rfl Iff.rfl Or.inl rfl htimes
  | send writer =>
    obtain ⟨tx, _, rfl⟩ := Option.map_eq_some_iff.mp hcentral
    exact .keeps (by simp) rfl Iff.rfl Or.inl rfl htimes
  | testShouldSendTime =>
    have hsaying : timesIn (s.central.saying .testShouldSendTime).toList = 0 := by
      rw [Central.saying]
      split <;> rfl
    rw [hsaying] at htimes
    simp only [Central.step, Option.ite_none_right_eq_some] at hcentral
    obtain ⟨htime, hcentral⟩ := hcentral
    split_ifs at hcentral with hflag
    · obtain rfl := Option.some.inj hcentral
      exact .keeps (by simp) rfl (by simp [htime]) (fun _ => Or.inr hflag) rfl htimes
    · obtain rfl := Option.some.inj hcentral
      exact .keeps (by simp) rfl (by simp [htime]) (by simp) rfl htimes
  | testPrepareForCountdown =>
    simp only [Central.step, Option.ite_none_right_eq_some] at hcentral
    obtain ⟨htime, hcentral⟩ := hcentral
    obtain rfl := Option.some.inj hcentral
    cases s.central.prepareForCountdown <;>
      exact .keeps (by simp) rfl (by simp [htime]) (by simp) rfl htimes
  | delayReturns | clearPrepareForCountdown =>
    simp only [Central.step, Option.ite_none_right_eq_some] at hcentral
    obtain ⟨htime, hcentral⟩ := hcentral
    obtain rfl := Option.some.inj hcentral
    exact .keeps (by simp) rfl (by simp [htime]) (by simp) rfl htimes
  | returnFromTimeSync =>
    simp only [Central.step, Option.ite_none_right_eq_some] at hcentral
    obtain ⟨⟨htime, _⟩, hcentral⟩ := hcentral
    obtain rfl := Option.some.inj hcentral
    exact .keeps (by simp) rfl (by simp [htime]) (by simp) rfl htimes
  | returnFromCallback | setPrepareForCountdown | notify =>
    simp only [Central.step, Option.ite_none_right_eq_some] at hcentral
    obtain rfl := Option.some.inj hcentral.2
    exact .keeps (by simp) rfl Iff.rfl Or.inl rfl htimes

/-- For every request it is known whether the time was told since, and no time was told without a
request of its own. -/
structure Answered (s : Outgoing) (asked : List ℕ) : Prop where
  requests_eq : s.central.requests = asked.map fun before => decide (before < timesIn s.said)
  before_le : ∀ before ∈ asked, before ≤ timesIn s.said
  owed : timesIn s.said + (if s.central.shouldSendTime = true ∧ s.central.time ≠ .sendingTime
    then 1 else 0) ≤ asked.length
  sampling : s.central.time = .sampling → s.central.shouldSendTime = true

/-- At the start no time was told and none was asked for, and the flag is down. -/
theorem initial_answered : Answered initial [] where
  requests_eq := rfl
  before_le := by simp
  owed := by decide
  sampling := by simp [initial, Central.initial]

variable {asked : List ℕ}

/-- A call of `queueTimeSend` is one more request, for which the time is still to be told. -/
theorem Answered.ask (h : s.Answered asked) (hstep : s.step (.central .queueTimeSend) = some s') :
    s'.Answered (asked ++ [timesIn s.said]) := by
  have howed := h.owed
  cases timeStepped_of_step hstep with
  | asks _ hflag htime hrequests htimes =>
    constructor
    · rw [hrequests, htimes, h.requests_eq, List.map_append]
      simp
    · intro before hbefore
      rw [htimes]
      rcases List.mem_append.mp hbefore with hbefore | hbefore
      · exact h.before_le before hbefore
      · exact Nat.le_of_eq (List.mem_singleton.mp hbefore)
    · rw [htimes, List.length_append, List.length_singleton]
      split_ifs <;> omega
    · exact fun _ => hflag
  | tells _ _ ha => exact absurd rfl ha
  | clears ha => cases ha
  | keeps ha => exact absurd rfl ha

/-- The other steps keep what is known of the requests. -/
theorem Answered.step (h : s.Answered asked) {a : Action}
    (ha : a ≠ .central .queueTimeSend) (hstep : s.step a = some s') : s'.Answered asked := by
  have howed := h.owed
  by_cases hcentral : ∃ b, a = .central b
  · obtain ⟨b, rfl⟩ := hcentral
    cases timeStepped_of_step hstep with
    | asks hb => exact absurd (congrArg Action.central hb) ha
    | tells htime htime' _ hrequests htimes =>
      have hflag := h.sampling htime
      rw [if_pos ⟨hflag, by simp [htime]⟩] at howed
      constructor
      · rw [hrequests, htimes, h.requests_eq, List.map_map]
        apply List.map_congr_left
        intro before hbefore
        have hle := h.before_le before hbefore
        exact (decide_eq_true (Nat.lt_succ_of_le hle)).symm
      · exact fun before hbefore => htimes ▸ Nat.le_succ_of_le (h.before_le before hbefore)
      · rw [htimes, if_neg (by simp [htime'])]
        omega
      · simp [htime']
    | clears _ htime hflag hrequests htimes =>
      constructor
      · rw [hrequests, htimes, h.requests_eq]
      · exact fun before hbefore => htimes ▸ h.before_le before hbefore
      · rw [htimes, if_neg (by simp [hflag])]
        split_ifs at howed <;> omega
      · simp [htime]
    | keeps _ hflag hsending hsampling hrequests htimes =>
      constructor
      · rw [hrequests, htimes, h.requests_eq]
      · exact fun before hbefore => htimes ▸ h.before_le before hbefore
      · simpa only [htimes, hflag, ne_eq, hsending] using howed
      · intro htime
        rw [hflag]
        exact (hsampling htime).elim h.sampling id
  · obtain ⟨hcentral, hsaid, _⟩ := step_uartTx (fun b heq => hcentral ⟨b, heq⟩) hstep
    constructor
    · rw [hcentral, hsaid, h.requests_eq]
    · rw [hsaid]
      exact h.before_le
    · rw [hcentral, hsaid]
      exact howed
    · rw [hcentral]
      exact h.sampling

end Outgoing

namespace ReceiveChain

variable {s s' : ReceiveChain}

/-- A step of the driver or of the event task asks for nothing. -/
theorem queueTimeSends_uart {a : UartEvent.Action} (hstep : s.step (.uart a) = some s') :
    s'.queueTimeSends = s.queueTimeSends := by
  obtain ⟨_, _, rfl⟩ := Option.map_eq_some_iff.mp hstep
  rfl

/-- A round of the packet processor asks for the time at most once. -/
theorem queueTimeSends_extract {n : ℕ} (hstep : s.step (.extract n) = some s') :
    s'.queueTimeSends = s.queueTimeSends +
      (decide (s'.queueTimeSends ≠ s.queueTimeSends)).toNat := by
  obtain ⟨_, _, heq⟩ := step_extract hstep
  have hsends := congrArg ReceiveChain.queueTimeSends heq
  split_ifs at hsends <;> simp [hsends]

end ReceiveChain

instance (s : Central) : (a : Central.Action) → Decidable (s.ClearsOnlySampled a)
  | .clearShouldSendTime =>
    decidable_of_iff (∀ sampled ∈ s.requests, sampled = true) (by simp [Central.ClearsOnlySampled])
  | .dataCallback _ | .send _ | .returnFromCallback | .setPrepareForCountdown | .notify
  | .queueTimeSend | .delayReturns | .testPrepareForCountdown | .clearPrepareForCountdown
  | .testShouldSendTime | .getLocaltime _ | .returnFromTimeSync =>
    .isTrue (by simp [Central.ClearsOnlySampled])

namespace Application

open ReceiveChain

/-! ### Every request is answered -/

/-- How often the time was asked for: by the packets that have arrived on the two lines, and by
the time synchronisation. -/
def requested (s : Application) : ℕ :=
  (packetsIn (s.chain .uart1).arrived).count timeRequest +
    (packetsIn (s.chain .uart2).arrived).count timeRequest + s.timeSyncs

/-- No request is on its way, and nothing is left to tell on the line. -/
structure AtRest (s : Application) (stream : TxStream) : Prop where
  onTheWay : ∀ uart, (s.chain uart).onTheWay = []
  nextFrame : ∀ uart,
    packetFormat.nextFrame (s.chain uart).receiver.processor.window = none
  asking : ∀ uart, s.asking uart = false
  shouldSendTime : s.outgoing.central.shouldSendTime = false
  quiet : s.outgoing.central.tx.Quiet
  drained : (s.outgoing.uartTx stream).Drained

/-- What the times on a line have to do with the requests. -/
structure Answers (s : Application) (stream : TxStream) : Prop where
  /-- The time is told no more often than it was asked for. -/
  onlyAsked : ∃ messages, s.outgoing.delivered stream = messages.map Prod.snd ∧
    (∀ writer, select writer messages <+: select writer s.outgoing.said) ∧
      timesIn messages ≤ s.requested
  /-- At rest, every request has led to a call, and after every call the time was told. -/
  answered : s.AtRest stream → s.asked.length = s.requested ∧
    ∃ messages, s.outgoing.delivered stream = messages.map Prod.snd ∧
      (∀ writer, select writer messages = select writer s.outgoing.said) ∧
        ∀ before ∈ s.asked, before < timesIn messages

/-- No data event waits when the input of a driver is flushed, also when its event task starts, and
no other stage loses bytes; the messages do not interleave, find room in the streams and have
lengths that a header can announce; and the flag of the time source is cleared only when the local
time was read after every request. -/
def Unhindered (s : Application) : Action → Prop
  | .uart uart a => (s.chain uart).Unhindered (.uart a)
  | .extract uart n => (s.chain uart).Unhindered (.extract n)
  | .outgoing (.central a) =>
    s.outgoing.Reliable (.central a) ∧ s.outgoing.central.ClearsOnlySampled a
  | .queueTimeSend _ | .onTimeSync | .outgoing (.receive _ _) | .outgoing (.write _) => True

instance (s : Application) : (a : Action) → Decidable (s.Unhindered a)
  | .uart uart a => inferInstanceAs (Decidable ((s.chain uart).Unhindered (.uart a)))
  | .extract uart n => inferInstanceAs (Decidable ((s.chain uart).Unhindered (.extract n)))
  | .outgoing (.central _) => inferInstanceAs (Decidable (_ ∧ _))
  | .queueTimeSend _ | .onTimeSync | .outgoing (.receive _ _) | .outgoing (.write _) =>
    .isTrue trivial

/-- The parts are in order, and the requests add up. -/
structure Sound (s : Application) : Prop where
  intact : s.outgoing.Intact
  answered : s.outgoing.Answered s.asked
  noRequestLost : s.outgoing.central.NoRequestLost
  inOrder : ∀ uart, (s.chain uart).InOrder
  counted : ∀ uart, (s.chain uart).Asked
  asked_eq : s.asked.length + (s.asking .uart1).toNat + (s.asking .uart2).toNat =
    (s.chain .uart1).queueTimeSends + (s.chain .uart2).queueTimeSends + s.timeSyncs

/-- At the start every part is in order: nothing has arrived, was asked for or was sent. -/
theorem initial_sound (rxBuffer : UartNumber → Vector UInt8 RxBufferSize) :
    Sound (initial rxBuffer) where
  intact := Outgoing.initial_intact
  answered := Outgoing.initial_answered
  noRequestLost := by simp [initial, Outgoing.initial, Central.initial, Central.NoRequestLost]
  inOrder uart := initial_inOrder (rxBuffer uart)
  counted uart := ⟨Receiver.initial_wellFormed (rxBuffer uart), rfl⟩
  asked_eq := rfl

variable {s s' : Application} {a : Action}

/-- A call of `queueTimeSend` keeps the tasks that send in order. -/
theorem Sound.ask (h : s.Sound) {outgoing : Outgoing}
    (houtgoing : s.outgoing.step (.central .queueTimeSend) = some outgoing) :
    outgoing.Intact ∧ outgoing.Answered (s.asked ++ [timesIn s.outgoing.said]) ∧
      outgoing.central.NoRequestLost := by
  have hreliable : s.outgoing.Reliable (.central .queueTimeSend) :=
    ⟨trivial, by simp [Central.piece], by simp [Central.saying]⟩
  obtain ⟨hcentral, _⟩ := Outgoing.step_central h.intact.framed.1 houtgoing
  have hclears : s.outgoing.central.ClearsOnlySampled .queueTimeSend := fun ha => by cases ha
  exact ⟨h.intact.step hreliable houtgoing, h.answered.ask houtgoing,
    (Central.noRequestLost_step_iff h.noRequestLost hcentral).mpr hclears⟩

/-- Every unhindered step keeps the parts in order and the numbers of requests and calls in step. -/
theorem Sound.step (h : s.Sound) (hguard : s.Unhindered a) (hstep : s.step a = some s') :
    s'.Sound := by
  have hasked := h.asked_eq
  cases stepped_of_step hstep with
  | uart uart a chain hchain =>
    have hsends := queueTimeSends_uart hchain
    refine ⟨h.intact, h.answered, h.noRequestLost, fun other => ?_, fun other => ?_, ?_⟩
    · by_cases hother : other = uart
      · subst hother
        simpa using (h.inOrder other).uart hguard hchain
      · simpa [Function.update_of_ne hother] using h.inOrder other
    · by_cases hother : other = uart
      · subst hother
        simpa using (h.counted other).step hchain
      · simpa [Function.update_of_ne hother] using h.counted other
    · cases uart <;> simpa [hsends] using hasked
  | extract uart n chain hidle hchain =>
    have hsends := queueTimeSends_extract hchain
    refine ⟨h.intact, h.answered, h.noRequestLost, fun other => ?_, fun other => ?_, ?_⟩
    · by_cases hother : other = uart
      · subst hother
        simpa using (h.inOrder other).extract hguard hchain
      · simpa [Function.update_of_ne hother] using h.inOrder other
    · by_cases hother : other = uart
      · subst hother
        simpa using (h.counted other).step hchain
      · simpa [Function.update_of_ne hother] using h.counted other
    · generalize decide (chain.queueTimeSends ≠ (s.chain uart).queueTimeSends) = found at hsends ⊢
      cases uart <;> simp [hidle] at hasked ⊢ <;> omega
  | queueTimeSend uart outgoing hasking houtgoing =>
    obtain ⟨hintact, hanswered, hlost⟩ := h.ask houtgoing
    refine ⟨hintact, hanswered, hlost, h.inOrder, h.counted, ?_⟩
    cases uart <;> simp [hasking] at hasked ⊢ <;> omega
  | onTimeSync outgoing houtgoing =>
    obtain ⟨hintact, hanswered, hlost⟩ := h.ask houtgoing
    refine ⟨hintact, hanswered, hlost, h.inOrder, h.counted, ?_⟩
    simp
    omega
  | outgoing a outgoing hother houtgoing =>
    have hcall : a ≠ .central .queueTimeSend := by
      rintro rfl
      cases hother
    have hanswered := h.answered.step hcall houtgoing
    cases a with
    | central b =>
      obtain ⟨hcentral, _⟩ := Outgoing.step_central h.intact.framed.1 houtgoing
      exact ⟨h.intact.step hguard.1 houtgoing, hanswered,
        (Central.noRequestLost_step_iff h.noRequestLost hcentral).mpr hguard.2, h.inOrder,
        h.counted, hasked⟩
    | receive stream n =>
      have hreliable : s.outgoing.Reliable (.receive stream n) := trivial
      obtain ⟨hcentral, _⟩ := Outgoing.step_uartTx (by simp) houtgoing
      exact ⟨h.intact.step hreliable houtgoing, hanswered, hcentral ▸ h.noRequestLost, h.inOrder,
        h.counted, hasked⟩
    | write stream =>
      have hreliable : s.outgoing.Reliable (.write stream) := trivial
      obtain ⟨hcentral, _⟩ := Outgoing.step_uartTx (by simp) houtgoing
      exact ⟨h.intact.step hreliable houtgoing, hanswered, hcentral ▸ h.noRequestLost, h.inOrder,
        h.counted, hasked⟩

/-- The calls of `queueTimeSend` stem from requests that have arrived, so there are no more of them.
-/
theorem Sound.asked_le (h : s.Sound) : s.asked.length ≤ s.requested := by
  have hasked := h.asked_eq
  have hchain (uart : UartNumber) : (s.chain uart).queueTimeSends ≤
      (packetsIn (s.chain uart).arrived).count timeRequest := by
    rw [(h.counted uart).2]
    exact (h.inOrder uart).faithful.inOrder.sublist.count_le _
  have hfirst := hchain .uart1
  have hsecond := hchain .uart2
  rw [requested]
  omega

/-- Once nothing is on its way on either line, every request that arrived has led to a call of
`queueTimeSend`. -/
theorem Sound.asked_eq_of_atRest (h : s.Sound) {stream : TxStream} (hrest : s.AtRest stream) :
    s.asked.length = s.requested := by
  have hasked := h.asked_eq
  have hchain (uart : UartNumber) : (s.chain uart).queueTimeSends =
      (packetsIn (s.chain uart).arrived).count timeRequest := by
    rw [(h.counted uart).2, (h.inOrder uart).faithful.complete (hrest.onTheWay uart)
      (hrest.nextFrame uart)]
  rw [hrest.asking, hrest.asking, hchain, hchain] at hasked
  exact hasked

/-- Parts that are in order answer the requests on every stream, those that arrived as well as those
of the time synchronisation. -/
theorem Sound.answers (h : s.Sound) (stream : TxStream) : s.Answers stream := by
  have hdelivers := h.intact.delivers stream
  constructor
  · obtain ⟨messages, hmessages, hbegins⟩ := hdelivers.inOrder
    refine ⟨messages, hmessages, hbegins, ?_⟩
    calc timesIn messages
        ≤ timesIn s.outgoing.said := timesIn_le (hbegins .timeTask)
      _ ≤ s.asked.length := Nat.le_trans (Nat.le_add_right _ _) h.answered.owed
      _ ≤ s.requested := h.asked_le
  · intro hrest
    obtain ⟨_, messages, hmessages, hall⟩ := hdelivers.complete hrest.quiet hrest.drained
    refine ⟨h.asked_eq_of_atRest hrest, messages, hmessages, hall, fun before hbefore => ?_⟩
    have htimes : timesIn messages = timesIn s.outgoing.said := by rw [timesIn, hall, timesIn]
    have hsampled : decide (before < timesIn s.outgoing.said) ∈ s.outgoing.central.requests := by
      rw [h.answered.requests_eq]
      exact List.mem_map_of_mem hbefore
    rw [htimes]
    rcases h.noRequestLost _ hsampled with hflag | hread
    · simp [hrest.shouldSendTime] at hflag
    · exact of_decide_eq_true hread

/-- **The clocks are told the time when they ask for it.** In every unhindered run, in which in
particular no request waits in a driver whose input is flushed, the time is told on a line no more
often than it was asked for on both lines and by the time synchronisation, however the bytes that
arrive are cut and the tasks interleave; and once nothing is on its way, each of these requests
was followed by the time on the line. -/
theorem answers_of_unhindered (rxBuffer : UartNumber → Vector UInt8 RxBufferSize)
    (actions : List Action) (hguard : Along step Unhindered (initial rxBuffer) actions) :
    Visited step (fun s => ∀ stream, s.Answers stream) (initial rxBuffer) actions :=
  (hguard.visited (fun _ _ _ h hunhindered hstep => h.step hunhindered hstep)
    (initial_sound rxBuffer)).mono fun _ h stream => h.answers stream

/-- Noon. -/
def noon : LocalTime := ⟨⟨12, by decide⟩, ⟨0, by decide⟩, ⟨0, by decide⟩⟩

/-- The time is synchronised, a clock asks for it on the second line, and it is told once. -/
def requestAnswered : List Action :=
  [.onTimeSync, .uart .uart2 .flushInput, .uart .uart2 (.arrive (noisyRequest.take 4)),
    .uart .uart2 .receiveEvent, .uart .uart2 (.arrive (noisyRequest.drop 4)),
    .uart .uart2 .readBytes, .uart .uart2 .send, .extract .uart2 3, .uart .uart2 .receiveEvent,
    .uart .uart2 .readBytes, .uart .uart2 .send, .extract .uart2 18,
    .outgoing (.central .delayReturns), .outgoing (.central .testPrepareForCountdown),
    .outgoing (.central .testShouldSendTime), .queueTimeSend .uart2,
    .outgoing (.central (.getLocaltime noon)), .outgoing (.central (.send .timeTask)),
    .outgoing (.receive .txStream0 7), .outgoing (.central (.send .timeTask)),
    .outgoing (.central (.send .timeTask)), .outgoing (.write .txStream0),
    .outgoing (.central (.send .timeTask)), .outgoing (.central (.send .timeTask)),
    .outgoing (.central (.send .timeTask)), .outgoing (.central .clearShouldSendTime),
    .outgoing (.receive .txStream0 13), .outgoing (.write .txStream0)]

/-- The call for the time synchronisation and the one for the request of the clock are both answered
by one message with the time. -/
theorem answers_requestAnswered :
    (run step (initial fun _ => Vector.replicate RxBufferSize 0) requestAnswered).map
        (fun s => (s.asked, s.outgoing.delivered .txStream0)) =
      some ([0, 0], [(ascii ['c', 'l', 'o', 'c', 'k'],
        ascii ['1', '2', ':', '0', '0', ':', '0', '0'])]) ∧
    Visited step (fun s => ∀ stream, s.Answers stream)
      (initial fun _ => Vector.replicate RxBufferSize 0) requestAnswered :=
  ⟨by decide +kernel, answers_of_unhindered _ _ (by decide +kernel)⟩

end Application

end NixieVfdCentral
