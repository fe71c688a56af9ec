import NixieVfdCentral.Central.PartialWrites
import NixieVfdCentral.Central.Tasks

/-!
# From the tasks to the wires

Behind each of the two transmit streams stands a `UartTx` task. Its loop receives up to 256
bytes from the stream and writes them to the UART. It knows nothing of messages: what goes
over the wire is cut wherever `receive` happened to return. The steps of the two `UartTx`
tasks interleave with those of the tasks that send.
-/

namespace NixieVfdCentral

open Runs SharedLogs

/-- `UartTx::BufferSize`, the size of `rawDataBuffer`. -/
def UartTx.BufferSize : ℕ := 256

/-- Where a `UartTx` task stands. -/
inductive UartTxPosition
  /-- In `txStream.receive`. -/
  | receiving
  /-- Before `uart_write_bytes`, with what was received into `rawDataBuffer`. -/
  | writing (rawData : Bytes)
  deriving DecidableEq

/-- A transmit stream and the `UartTx` task behind it, with the history of both. -/
structure UartTx where
  /-- The stream. -/
  txStream : StreamBuffer UInt8 Application.BufferSize
  /-- Where the task stands. -/
  position : UartTxPosition
  /-- For every `send` to the stream so far, what it took. -/
  taken : List Bytes
  /-- For every `uart_write_bytes` so far, what it wrote. -/
  written : List Bytes

namespace UartTx

/-- The stream is empty, and the task waits for bytes. -/
def initial : UartTx where
  txStream := ⟨[], Nat.zero_le _⟩
  position := .receiving
  taken := []
  written := []

/-- A task sends a piece to the stream. -/
def offer (tx : UartTx) (piece : Bytes) : UartTx where
  txStream := tx.txStream.send piece
  position := tx.position
  taken := tx.taken ++ [tx.txStream.taken piece]
  written := tx.written

/-- `txStream.receive` waits until there is a byte, and returns `n` of those that are there,
at most as many as fit `rawDataBuffer`. -/
def receive (tx : UartTx) (n : ℕ) : Option UartTx :=
  if tx.position = .receiving ∧ 0 < n ∧ n ≤ BufferSize ∧ n ≤ tx.txStream.content.length then
    some { tx with
      txStream := tx.txStream.drain n
      position := .writing (tx.txStream.content.take n) }
  else none

/-- `uart_write_bytes` writes all that was received. -/
def write (tx : UartTx) : Option UartTx :=
  match tx.position with
  | .receiving => none
  | .writing rawData => some { tx with
      position := .receiving
      written := tx.written ++ [rawData] }

/-- The bytes on the wire. -/
def wire (tx : UartTx) : Bytes := tx.written.flatten

/-- The bytes that were received but not written yet. -/
def inHand (tx : UartTx) : Bytes :=
  match tx.position with
  | .receiving => []
  | .writing rawData => rawData

/-- No byte is on its way. -/
def Drained (tx : UartTx) : Prop := tx.inHand = [] ∧ tx.txStream.content = []

instance (tx : UartTx) : Decidable tx.Drained := inferInstanceAs (Decidable (_ ∧ _))

/-- Every byte that the stream took is on the wire, in the hands of the task or still in the
stream, in the order in which they were sent, and no write is empty or longer than the buffer. -/
structure Accounted (tx : UartTx) : Prop where
  taken_eq : tx.taken.flatten = tx.wire ++ tx.inHand ++ tx.txStream.content
  inHand_length : tx.inHand.length ≤ BufferSize
  inHand_ne : ∀ rawData, tx.position = .writing rawData → rawData ≠ []
  written_length : ∀ rawData ∈ tx.written, rawData ≠ [] ∧ rawData.length ≤ BufferSize

/-- At the start no stream has taken a byte, and nothing is on a wire. -/
theorem initial_accounted : initial.Accounted :=
  ⟨rfl, Nat.zero_le _, by simp [initial], by simp [initial]⟩

variable {tx tx' : UartTx}

/-- A send adds what it takes at the end. -/
theorem Accounted.offer (h : tx.Accounted) (piece : Bytes) : (tx.offer piece).Accounted := by
  refine ⟨?_, h.inHand_length, h.inHand_ne, h.written_length⟩
  change (tx.taken ++ [_]).flatten = tx.wire ++ tx.inHand ++ (tx.txStream.content ++ _)
  rw [List.flatten_concat, h.taken_eq, List.append_assoc _ tx.txStream.content]

/-- When the loop of `UartTx` can receive `n` bytes, and that these are then in its hands. -/
theorem receive_eq_some {n : ℕ} (h : tx.receive n = some tx') :
    tx.position = .receiving ∧ 0 < n ∧ n ≤ BufferSize ∧ n ≤ tx.txStream.content.length ∧
      tx' = { tx with
        txStream := tx.txStream.drain n
        position := .writing (tx.txStream.content.take n) } := by
  simp only [receive, Option.ite_none_right_eq_some] at h
  obtain ⟨⟨hposition, hpos, hsize, hcontent⟩, hsome⟩ := h
  exact ⟨hposition, hpos, hsize, hcontent, (Option.some.inj hsome).symm⟩

/-- When the loop of `UartTx` can write, and that it writes what it has in its hands. -/
theorem write_eq_some (h : tx.write = some tx') :
    ∃ rawData, tx.position = .writing rawData ∧
      tx' = { tx with position := .receiving, written := tx.written ++ [rawData] } := by
  simp only [write] at h
  split at h
  · cases h
  · rename_i rawData hposition
    exact ⟨rawData, hposition, (Option.some.inj h).symm⟩

/-- Receiving moves bytes from the front of the stream into the hands of the task. -/
theorem Accounted.receive (h : tx.Accounted) {n : ℕ} (hreceive : tx.receive n = some tx') :
    tx'.Accounted := by
  obtain ⟨hposition, hpos, hsize, hcontent, rfl⟩ := receive_eq_some hreceive
  have htaken := h.taken_eq
  have hnone : tx.inHand = [] := by simp [inHand, hposition]
  rw [hnone, List.append_nil, ← List.take_append_drop n tx.txStream.content] at htaken
  refine ⟨?_, ?_, ?_, h.written_length⟩
  · rw [htaken, ← List.append_assoc]
    rfl
  · exact Nat.le_trans (List.length_take_le _ _) hsize
  · rintro rawData hrawData rfl
    have hnil := UartTxPosition.writing.inj hrawData
    rw [List.take_eq_nil_iff] at hnil
    rcases hnil with rfl | hnil
    · omega
    · rw [hnil, List.length_nil] at hcontent
      omega

/-- Writing moves the bytes in the hands of the task on to the wire, behind those that are there. -/
theorem Accounted.write (h : tx.Accounted) (hwrite : tx.write = some tx') : tx'.Accounted := by
  obtain ⟨rawData, hposition, rfl⟩ := write_eq_some hwrite
  have hhand : tx.inHand = rawData := by simp [inHand, hposition]
  refine ⟨?_, Nat.zero_le _, by simp, ?_⟩
  · change tx.taken.flatten = (tx.written ++ [rawData]).flatten ++ [] ++ tx.txStream.content
    rw [h.taken_eq, hhand, List.flatten_concat, List.append_nil]
    rfl
  · intro written hwritten
    rcases List.mem_append.mp hwritten with hwritten | hwritten
    · exact h.written_length written hwritten
    · obtain rfl := List.mem_singleton.mp hwritten
      exact ⟨h.inHand_ne written hposition, hhand ▸ h.inHand_length⟩

/-- How much is left to do for the task: every byte in the stream may take a receive and a
write of its own. -/
def backlog (tx : UartTx) : ℕ :=
  2 * tx.txStream.content.length + if tx.position = .receiving then 0 else 1

/-- As long as bytes are on their way, the task has a step to take, and it gets closer to the
end. -/
theorem exists_progress (tx : UartTx) (h : ¬tx.Drained) :
    ∃ tx', (tx.write = some tx' ∨ ∃ n, tx.receive n = some tx') ∧ tx'.backlog < tx.backlog := by
  by_cases hposition : tx.position = .receiving
  · have hne : tx.txStream.content ≠ [] := fun hempty =>
      h ⟨by simp [inHand, hposition], hempty⟩
    have hlength := List.length_pos_iff.mpr hne
    have hguard : tx.position = .receiving ∧ 0 < 1 ∧ 1 ≤ BufferSize ∧
        1 ≤ tx.txStream.content.length := ⟨hposition, by omega, by decide, hlength⟩
    refine ⟨_, Or.inr ⟨1, if_pos hguard⟩, ?_⟩
    simp only [backlog, StreamBuffer.drain, List.length_drop, hposition, if_true, reduceCtorEq,
      if_false]
    omega
  · obtain ⟨rawData, hrawData⟩ : ∃ rawData, tx.position = .writing rawData := by
      cases hcase : tx.position with
      | receiving => exact absurd hcase hposition
      | writing rawData => exact ⟨rawData, rfl⟩
    refine ⟨{ tx with position := .receiving, written := tx.written ++ [rawData] },
      Or.inl (by simp [write, hrawData]), ?_⟩
    simp only [backlog, hposition, if_true, if_false]
    omega

end UartTx

/-! ### What the tasks send -/

/-- The bytes of a message are those of the packet with this topic and this payload, on both
streams. -/
def Tells (sends : Sends) (packet : Bytes × Bytes) : Prop :=
  ∀ stream, whole stream sends = (forwardedHeader packet.1 packet.2).toBytes ++ packet.1 ++
    packet.2.take (UInt16.ofNat packet.2.length).toNat

/-- The pieces of the time make a packet with the topic of the clocks and the printed time. -/
theorem tells_sendTimePerUart (localTime : LocalTime) :
    Tells (sendTimePerUart localTime) (ascii ['c', 'l', 'o', 'c', 'k'], localTime.print) := by
  intro stream
  simp [sendTimePerUart, whole, forwardedHeader]

/-- The pieces of a synchronisation make a packet with its topic and no payload. -/
theorem tells_sendTimeSync : Tells sendTimeSync (ascii ['s', 'y', 'n', 'c'], []) := by
  intro stream
  simp [sendTimeSync, whole, forwardedHeader]

/-- Only an event without a topic or without data is ignored. -/
theorem empty_of_dataCallback_eq_ignored {event : MqttEvent} (h : dataCallback event = .ignored) :
    event.topic.length = 0 ∨ event.data.length = 0 := by
  unfold dataCallback at h
  split_ifs at h with hempty
  exact hempty

/-- An event that is forwarded has a topic and data, and its message tells what stands behind
the main topic, and the data. -/
theorem tells_of_dataCallback {event : MqttEvent} {sends : Sends} {aligns : Bool}
    (h : dataCallback event = .forwards sends aligns) :
    ¬(event.topic.length = 0 ∨ event.data.length = 0) ∧
      Tells sends (event.topic.drop TopicMainString.length, event.data) := by
  unfold dataCallback at h
  split_ifs at h with hempty
  obtain ⟨rfl, _⟩ := DataCallback.forwards.inj h
  refine ⟨hempty, fun stream => ?_⟩
  rw [whole, select_sendToBoth]
  simp [forwardedHeader]

namespace Central

/-- The piece that a step of the tasks sends, with its stream. -/
def piece (s : Central) : Action → Option (TxStream × Bytes)
  | .send writer => (s.tx.pending writer).head?
  | _ => none

/-- The topic and the payload that a task sets out to tell the clocks with a step. -/
def saying (s : Central) : Action → Option (Writer × Bytes × Bytes)
  | .dataCallback event =>
    if event.topic.length = 0 ∨ event.data.length = 0 then none
    else some (.mqttTask, event.topic.drop TopicMainString.length, event.data)
  | .testShouldSendTime =>
    if s.shouldSendTime then none else some (.timeTask, ascii ['s', 'y', 'n', 'c'], [])
  | .getLocaltime localTime =>
    some (.timeTask, ascii ['c', 'l', 'o', 'c', 'k'], localTime.print)
  | _ => none

/-- What a step does to the streams and to the messages. -/
inductive TxStepped (s : Central) (a : Action) (s' : Central) : Prop
  | unchanged (hpiece : s.piece a = none) (hsaying : s.saying a = none) (htx : s'.tx = s.tx)
  | begins (writer : Writer) (packet : Bytes × Bytes) (sends : Sends) (hpiece : s.piece a = none)
      (hsaying : s.saying a = some (writer, packet)) (hidle : s.tx.pending writer = [])
      (htells : Tells sends packet) (htx : s'.tx = s.tx.start writer sends)
  | sends (writer : Writer) (stream : TxStream) (piece : Bytes)
      (hpiece : s.piece a = some (stream, piece)) (hsaying : s.saying a = none)
      (ha : a = .send writer) (hsend : s.tx.send writer = some s'.tx)
      (hlog : s'.tx.log = Function.update s.tx.log stream (s.tx.log stream ++ [(writer, piece)]))

variable {s s' : Central} {a : Action}

/-- **Every step leaves the streams alone, begins a message, or sends the next piece of one.** -/
theorem txStepped_of_step (hplaced : s.WellPlaced) (hstep : s.step a = some s') :
    TxStepped s a s' := by
  cases a with
  | dataCallback event =>
    simp only [step, Option.ite_none_right_eq_some] at hstep
    obtain ⟨hidle, hstep⟩ := hstep
    cases hevent : NixieVfdCentral.dataCallback event with
    | ignored =>
      rw [hevent] at hstep
      obtain rfl := Option.some.inj hstep
      exact .unchanged rfl (if_pos (empty_of_dataCallback_eq_ignored hevent)) rfl
    | aborted =>
      rw [hevent] at hstep
      cases hstep
    | forwards sends aligns =>
      rw [hevent] at hstep
      obtain rfl := Option.some.inj hstep
      obtain ⟨hne, htells⟩ := tells_of_dataCallback hevent
      exact .begins _ _ sends rfl (if_neg hne) (hplaced.mqtt (by simp [hidle])) htells rfl
  | send writer =>
    obtain ⟨tx, hsend, rfl⟩ := Option.map_eq_some_iff.mp hstep
    obtain ⟨stream, piece, rest, hpending, rfl⟩ := State.send_eq_some hsend
    exact .sends writer stream piece (by simp [Central.piece, hpending]) rfl rfl hsend rfl
  | testShouldSendTime =>
    simp only [step, Option.ite_none_right_eq_some] at hstep
    obtain ⟨htime, hstep⟩ := hstep
    split_ifs at hstep with hshould
    · obtain rfl := Option.some.inj hstep
      exact .unchanged rfl (if_pos hshould) rfl
    · obtain rfl := Option.some.inj hstep
      exact .begins _ _ _ rfl (if_neg hshould) (hplaced.time (by simp [htime]) (by simp [htime]))
        tells_sendTimeSync rfl
  | getLocaltime localTime =>
    simp only [step, Option.ite_none_right_eq_some] at hstep
    obtain ⟨htime, hstep⟩ := hstep
    obtain rfl := Option.some.inj hstep
    exact .begins _ _ _ rfl rfl (hplaced.time (by simp [htime]) (by simp [htime]))
      (tells_sendTimePerUart localTime) rfl
  | queueTimeSend =>
    obtain rfl := Option.some.inj hstep
    exact .unchanged rfl rfl rfl
  | returnFromCallback | setPrepareForCountdown | notify | delayReturns | testPrepareForCountdown
  | clearPrepareForCountdown | clearShouldSendTime | returnFromTimeSync =>
    simp only [step, Option.ite_none_right_eq_some] at hstep
    obtain rfl := Option.some.inj hstep.2
    exact .unchanged rfl rfl rfl

end Central

/-! ### Both streams -/

/-- The tasks that send and, behind each transmit stream, the task that empties it. -/
structure Outgoing where
  /-- The MQTT task and the time task, with all the pieces they have sent. -/
  central : Central
  /-- The streams and the `UartTx` tasks. -/
  uartTx : TxStream → UartTx
  /-- What the tasks have set out to tell the clocks. -/
  said : List (Writer × Bytes × Bytes)

namespace Outgoing

/-- Nothing is sent yet. -/
def initial : Outgoing := ⟨Central.initial, fun _ => UartTx.initial, []⟩

/-- The steps of all the tasks. -/
inductive Action
  /-- A step of the MQTT task or the time task. -/
  | central (a : Central.Action)
  /-- `txStream.receive` returns `n` bytes to a `UartTx` task. -/
  | receive (stream : TxStream) (n : ℕ)
  /-- A `UartTx` task calls `uart_write_bytes`. -/
  | write (stream : TxStream)

/-- The streams after a step of the tasks that send. -/
def offered (s : Outgoing) (a : Central.Action) : TxStream → UartTx :=
  match s.central.piece a with
  | none => s.uartTx
  | some (stream, piece) => Function.update s.uartTx stream ((s.uartTx stream).offer piece)

/-- One step. A piece that is sent goes into its stream as far as there is room. -/
def step (s : Outgoing) : Action → Option Outgoing
  | .central a =>
    (s.central.step a).map fun central =>
      { central := central
        uartTx := s.offered a
        said := s.said ++ (s.central.saying a).toList }
  | .receive stream n =>
    ((s.uartTx stream).receive n).map fun tx =>
      { s with uartTx := Function.update s.uartTx stream tx }
  | .write stream =>
    (s.uartTx stream).write.map fun tx =>
      { s with uartTx := Function.update s.uartTx stream tx }

/-- What each send took is a beginning of what was to be sent, and the `UartTx` tasks account
for all of it. -/
structure Accounted (s : Outgoing) (stream : TxStream) : Prop where
  taken : List.Forall₂ (· <+: ·) (s.uartTx stream).taken ((s.central.tx.log stream).map Prod.snd)
  accounted : (s.uartTx stream).Accounted

variable {s s' : Outgoing} {stream : TxStream}

/-- Offering a piece to a stream keeps to what was sent: the log has the piece, and the stream took
a beginning of it. -/
theorem Accounted.offer {s' : Outgoing} (h : s.Accounted stream) {writer : Writer} {piece : Bytes}
    (htx : s'.uartTx stream = (s.uartTx stream).offer piece)
    (hlog : s'.central.tx.log stream = s.central.tx.log stream ++ [(writer, piece)]) :
    s'.Accounted stream := by
  refine ⟨?_, htx ▸ h.accounted.offer piece⟩
  rw [htx, hlog, List.map_append]
  exact List.rel_append h.taken (.cons (List.take_prefix _ _) .nil)

/-- What leaves the stream and the log alone keeps them accounted for. -/
theorem Accounted.congr {s' : Outgoing} (h : s.Accounted stream)
    (htx : s'.uartTx stream = s.uartTx stream)
    (hlog : s'.central.tx.log stream = s.central.tx.log stream) : s'.Accounted stream :=
  ⟨by rw [htx, hlog]; exact h.taken, by rw [htx]; exact h.accounted⟩

/-- A step of the tasks that send, and what it does to each stream. -/
theorem step_central {a : Central.Action} (hplaced : s.central.WellPlaced)
    (hstep : s.step (.central a) = some s') :
    s.central.step a = some s'.central ∧ s'.said = s.said ++ (s.central.saying a).toList ∧
      ∀ stream,
        (s'.uartTx stream = s.uartTx stream ∧
          s'.central.tx.log stream = s.central.tx.log stream) ∨
        ∃ writer piece, s.central.piece a = some (stream, piece) ∧
          s'.uartTx stream = (s.uartTx stream).offer piece ∧
          s'.central.tx.log stream = s.central.tx.log stream ++ [(writer, piece)] := by
  obtain ⟨central, hcentral, rfl⟩ := Option.map_eq_some_iff.mp hstep
  refine ⟨hcentral, rfl, fun stream => ?_⟩
  cases Central.txStepped_of_step hplaced hcentral with
  | unchanged hpiece _ htx => exact Or.inl ⟨by simp [offered, hpiece], by rw [htx]⟩
  | begins _ _ _ hpiece _ _ _ htx => exact Or.inl ⟨by simp [offered, hpiece], by rw [htx]; rfl⟩
  | sends writer other piece hpiece _ _ _ hlog =>
    by_cases hstream : stream = other
    · subst hstream
      exact Or.inr ⟨writer, piece, hpiece, by simp [offered, hpiece], by simp [hlog]⟩
    · exact Or.inl ⟨by simp [offered, hpiece, Function.update_of_ne hstream],
        by simp [hlog, Function.update_of_ne hstream]⟩

/-- A step of a `UartTx` task concerns its own stream only. -/
theorem step_uartTx {a : Action} (ha : ∀ central, a ≠ .central central)
    (hstep : s.step a = some s') :
    s'.central = s.central ∧ s'.said = s.said ∧ ∃ stream tx,
      ((∃ n, a = .receive stream n ∧ (s.uartTx stream).receive n = some tx) ∨
        (a = .write stream ∧ (s.uartTx stream).write = some tx)) ∧
      s'.uartTx = Function.update s.uartTx stream tx := by
  cases a with
  | central central => exact absurd rfl (ha central)
  | receive stream n =>
    obtain ⟨tx, htx, rfl⟩ := Option.map_eq_some_iff.mp hstep
    exact ⟨rfl, rfl, stream, tx, Or.inl ⟨n, rfl, htx⟩, rfl⟩
  | write stream =>
    obtain ⟨tx, htx, rfl⟩ := Option.map_eq_some_iff.mp hstep
    exact ⟨rfl, rfl, stream, tx, Or.inr ⟨rfl, htx⟩, rfl⟩

/-- Every step of the tasks that send and of the `UartTx` tasks keeps every byte accounted for on
both streams. -/
theorem step_accounted {a : Action} (hplaced : s.central.WellPlaced)
    (h : ∀ stream, s.Accounted stream) (hstep : s.step a = some s') :
    s'.central.WellPlaced ∧ ∀ stream, s'.Accounted stream := by
  by_cases ha : ∃ central, a = .central central
  · obtain ⟨central, rfl⟩ := ha
    obtain ⟨hcentral, _, hstreams⟩ := step_central hplaced hstep
    refine ⟨Central.step_wellPlaced hplaced hcentral, fun stream => ?_⟩
    rcases hstreams stream with ⟨htx, hlog⟩ | ⟨_, _, _, htx, hlog⟩
    · exact (h stream).congr htx hlog
    · exact (h stream).offer htx hlog
  · obtain ⟨hcentral, _, other, tx, htx, hupdate⟩ :=
      step_uartTx (fun central heq => ha ⟨central, heq⟩) hstep
    refine ⟨hcentral ▸ hplaced, fun stream => ?_⟩
    by_cases hstream : stream = other
    · subst hstream
      have hself : s'.uartTx stream = tx := by rw [hupdate, Function.update_self]
      have hlog := (h stream).taken
      rcases htx with ⟨n, _, hreceive⟩ | ⟨_, hwrite⟩
      · have htaken : tx.taken = (s.uartTx stream).taken := by
          obtain ⟨_, _, _, _, rfl⟩ := UartTx.receive_eq_some hreceive
          rfl
        exact ⟨by rw [hself, htaken, hcentral]; exact hlog,
          hself ▸ (h stream).accounted.receive hreceive⟩
      · have htaken : tx.taken = (s.uartTx stream).taken := by
          obtain ⟨_, _, rfl⟩ := UartTx.write_eq_some hwrite
          rfl
        exact ⟨by rw [hself, htaken, hcentral]; exact hlog,
          hself ▸ (h stream).accounted.write hwrite⟩
    · exact (h stream).congr (by rw [hupdate, Function.update_of_ne hstream]) (by rw [hcentral])

/-- **No byte is lost, repeated or reordered between a `send` and the wire.** In every run each
`send` takes a beginning of its piece, and what the sends took is what is on the wire, in the
hands of the `UartTx` task and in the stream, in this order. -/
theorem sends_accounted (actions : List Action) :
    Visited step (fun s => ∀ stream, s.Accounted stream) initial actions :=
  Visited.mono (fun _ h => h.2)
    (visited_of_invariant (fun _ _ _ h hstep => step_accounted h.1 h.2 hstep)
      ⟨Central.initial_wellPlaced, fun _ => ⟨.nil, UartTx.initial_accounted⟩⟩ actions)

/-- A step of the `UartTx` task of the stream. -/
def Empties (stream : TxStream) : Action → Prop
  | .central _ => False
  | .receive other _ | .write other => other = stream

/-- **Nothing gets stuck on its way to a wire.** From any state the `UartTx` task of a stream can
put on the wire all that the stream has taken, without a step of any other task. -/
theorem exists_drained (s : Outgoing) (stream : TxStream) :
    ∃ actions t, run step s actions = some t ∧ (∀ a ∈ actions, Empties stream a) ∧
      t.central = s.central ∧ t.said = s.said ∧ (t.uartTx stream).Drained := by
  induction hbacklog : (s.uartTx stream).backlog using Nat.strongRecOn generalizing s with
  | ind n ih =>
    by_cases hdrained : (s.uartTx stream).Drained
    · exact ⟨[], s, rfl, by simp, rfl, rfl, hdrained⟩
    · obtain ⟨tx, hprogress, hless⟩ := (s.uartTx stream).exists_progress hdrained
      obtain ⟨a, hempties, hstep⟩ : ∃ a, Empties stream a ∧
          s.step a = some { s with uartTx := Function.update s.uartTx stream tx } := by
        rcases hprogress with hwrite | ⟨n, hreceive⟩
        · exact ⟨.write stream, rfl, by simp [step, hwrite]⟩
        · exact ⟨.receive stream n, rfl, by simp [step, hreceive]⟩
      obtain ⟨actions, t, hrun, hactions, hcentral, hsaid, ht⟩ :=
        ih tx.backlog (hbacklog ▸ hless)
          { s with uartTx := Function.update s.uartTx stream tx } (by simp)
      exact ⟨a :: actions, t, run_cons_eq_some.mpr ⟨_, hstep, hrun⟩,
        List.forall_mem_cons.mpr ⟨hempties, hactions⟩, hcentral, hsaid, ht⟩

end Outgoing

end NixieVfdCentral
