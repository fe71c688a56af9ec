import NixieVfdCentral.Central.Tasks

/-!
# Whole frames on the wire

Both tasks write to both transmit streams, and a frame is two or three sends. Nothing
keeps one task from sending while the other is between two sends of a frame. As long as
that does not happen, each stream carries whole frames.
-/

namespace NixieVfdCentral.Central

open Runs SharedLogs

/-- When no task is in the middle of a message, each stream carries a concatenation of
whole frames, each of them a message of one of the tasks. -/
def CarriesWholeFrames (s : Central) : Prop :=
  s.tx.Quiet → ∀ stream, ∃ messages : List (Writer × Sends),
    (∀ message ∈ messages, message.2 ∈ s.tx.begun message.1) ∧
      s.tx.content stream = messages.flatMap fun message => whole stream message.2

/-- No task sends to a stream while the other one has sent only a part of a frame to it. -/
def SendsExclusively (s : Central) : Action → Prop
  | .send writer => s.tx.Exclusive writer
  | _ => True

instance (s : Central) : (a : Action) → Decidable (SendsExclusively s a)
  | .send writer => inferInstanceAs (Decidable (s.tx.Exclusive writer))
  | .dataCallback _ | .returnFromCallback | .setPrepareForCountdown | .notify | .queueTimeSend
  | .delayReturns | .testPrepareForCountdown | .clearPrepareForCountdown | .testShouldSendTime
  | .getLocaltime _ | .clearShouldSendTime | .returnFromTimeSync => .isTrue trivial

variable {s s' : Central} {a : Action}

/-- Each stream consists of whole messages and the beginning of at most one more. -/
def Framed (s : Central) : Prop :=
  s.WellPlaced ∧ ∀ stream, ∃ done tail, WholeMessages stream s.tx done tail

/-- At the start no task has begun a message, so each stream consists of none. -/
theorem initial_framed : Framed initial :=
  ⟨initial_wellPlaced, fun _ => ⟨[], [], WholeMessages.empty⟩⟩

/-- A step of a task that sends exclusively keeps the frames whole. -/
theorem Framed.step (h : Framed s) (hguard : SendsExclusively s a) (hstep : s.step a = some s') :
    Framed s' := by
  refine ⟨step_wellPlaced h.1 hstep, fun stream => ?_⟩
  obtain ⟨done, tail, hwhole⟩ := h.2 stream
  rcases step_tx h.1 hstep with htx | ⟨writer, sends, hidle, _, htx⟩ | ⟨writer, rfl, hsend⟩
  · exact ⟨done, tail, htx ▸ hwhole⟩
  · obtain ⟨done', hwhole'⟩ := hwhole.start hidle sends
    exact ⟨done', tail, htx ▸ hwhole'⟩
  · exact hwhole.send hguard hsend

/-- When nothing is left to send, the streams carry whole frames. -/
theorem Framed.carriesWholeFrames (h : Framed s) : CarriesWholeFrames s := by
  intro hquiet stream
  obtain ⟨done, tail, hwhole⟩ := h.2 stream
  obtain ⟨hdone, hcontent⟩ := hwhole.of_quiet hquiet
  refine ⟨done, fun message hmessage => ?_, hcontent⟩
  rw [← hdone]
  exact mem_select hmessage

/-- **Frames stay whole on the wire** in every run in which no task sends into a frame of
the other one. -/
theorem carriesWholeFrames_of_sendsExclusively (actions : List Action)
    (hguard : Along step SendsExclusively initial actions) :
    Visited step CarriesWholeFrames initial actions :=
  (hguard.visited (fun _ _ _ h hg hs => h.step hg hs) initial_framed).mono
    fun _ h => h.carriesWholeFrames

/-- An event whose topic behind the main topic is `text`. -/
def textEvent : MqttEvent where
  topic := TopicMainString ++ ascii ['t', 'e', 'x', 't']
  data := ascii ['h', 'i']

/-- The time task runs after the first send of the MQTT task. -/
def syncInsideMessage : List Action :=
  [.dataCallback textEvent, .send .mqttTask, .delayReturns, .testPrepareForCountdown,
    .testShouldSendTime, .send .timeTask, .send .timeTask, .send .timeTask, .send .timeTask,
    .returnFromTimeSync, .send .mqttTask, .send .mqttTask, .send .mqttTask, .send .mqttTask,
    .send .mqttTask, .returnFromCallback]

/-- A sync frame ends up between the header and the topic of another frame. -/
theorem syncInsideMessage_breaks_frame :
    ¬Visited step CarriesWholeFrames initial syncInsideMessage := by
  intro hvisited
  have hrun : (run step initial syncInsideMessage).map (fun s =>
      decide ((∀ writer, s.tx.pending writer = []) ∧ s.tx.content .txStream0 ≠ [] ∧
        ∀ writer, ∀ sends ∈ s.tx.begun writer,
          ¬whole .txStream0 sends <+: s.tx.content .txStream0)) = some true := by
    decide +kernel
  obtain ⟨s, hs, hdecide⟩ := Option.map_eq_some_iff.mp hrun
  obtain ⟨hquiet, hne, hbroken⟩ := of_decide_eq_true hdecide
  obtain ⟨messages, hmem, hcontent⟩ := hvisited.last hs hquiet .txStream0
  cases messages with
  | nil => exact hne hcontent
  | cons message messages =>
    refine hbroken message.1 message.2 (hmem message (by simp)) ?_
    rw [hcontent, List.flatMap_cons]
    exact List.prefix_append _ _

/-- The forwarded text and the synchronisation, sent one after the other, leave whole frames on both
wires. -/
theorem carriesWholeFrames_messageThenSync :
    Visited step CarriesWholeFrames initial
      [.dataCallback textEvent, .send .mqttTask, .send .mqttTask, .send .mqttTask,
        .send .mqttTask, .send .mqttTask, .send .mqttTask, .returnFromCallback, .delayReturns,
        .testPrepareForCountdown, .testShouldSendTime, .send .timeTask, .send .timeTask,
        .send .timeTask, .send .timeTask, .returnFromTimeSync] :=
  carriesWholeFrames_of_sendsExclusively _ (by decide +kernel)

end NixieVfdCentral.Central
