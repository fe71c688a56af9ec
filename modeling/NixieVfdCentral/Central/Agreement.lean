import NixieVfdCentral.Central.Tasks

/-!
# Both clocks are told the same

Every message goes to both streams, first whole to the one and then whole to the other.
The streams agree whenever nothing is left to send, provided the sends to the second
stream are made by the tasks in the order of the sends to the first one.
-/

namespace NixieVfdCentral.Central

open Runs SharedLogs

/-- When neither task is inside a function that sends, both streams carry the same bytes. -/
def ClocksAgree (s : Central) : Prop :=
  s.Outside → s.tx.content .txStream0 = s.tx.content .txStream1

/-- A send to `txStream1` is made by the task that made the send at the same place in the
sequence of sends to `txStream0`. -/
def SendsInTurn (s : Central) : Action → Prop
  | .send writer => State.InTurn .txStream0 .txStream1 s.tx writer
  | _ => True

instance (s : Central) : (a : Action) → Decidable (SendsInTurn s a)
  | .send writer => inferInstanceAs (Decidable (State.InTurn .txStream0 .txStream1 s.tx writer))
  | .dataCallback _ | .returnFromCallback | .setPrepareForCountdown | .notify | .queueTimeSend
  | .delayReturns | .testPrepareForCountdown | .clearPrepareForCountdown | .testShouldSendTime
  | .getLocaltime _ | .clearShouldSendTime | .returnFromTimeSync => .isTrue trivial

variable {s s' : Central} {a : Action}

/-- The second stream repeats the first one, and what it lacks is still to be sent. -/
def Repeating (s : Central) : Prop :=
  s.WellPlaced ∧ ∃ ahead, Mirrored .txStream0 .txStream1 s.tx ahead

/-- At the start nothing is sent, and the second stream repeats the first one. -/
theorem initial_repeating : Repeating initial := ⟨initial_wellPlaced, [], Mirrored.empty⟩

/-- A send in its turn keeps the second stream repeating the first one. -/
theorem Repeating.step (h : Repeating s) (hguard : SendsInTurn s a) (hstep : s.step a = some s') :
    Repeating s' := by
  refine ⟨step_wellPlaced h.1 hstep, ?_⟩
  obtain ⟨ahead, hmirrored⟩ := h.2
  rcases step_tx h.1 hstep with htx | ⟨writer, sends, hidle, halike, htx⟩ | ⟨writer, rfl, hsend⟩
  · exact ⟨ahead, htx ▸ hmirrored⟩
  · exact ⟨ahead, htx ▸ hmirrored.start hidle halike⟩
  · exact hmirrored.send (by decide) hguard hsend

/-- Once every task has sent what it began, both streams have taken the same bytes. -/
theorem Repeating.clocksAgree (h : Repeating s) : ClocksAgree s := by
  intro houtside
  obtain ⟨ahead, hmirrored⟩ := h.2
  rw [State.content, State.content, hmirrored.of_quiet (h.1.quiet_of_outside houtside)]

/-- **Both clocks are told the same in the same order** in every run in which the tasks
send to the second stream in the order in which they sent to the first one. -/
theorem clocksAgree_of_sendsInTurn (actions : List Action)
    (hguard : Along step SendsInTurn initial actions) :
    Visited step ClocksAgree initial actions :=
  (hguard.visited (fun _ _ _ h hg hs => h.step hg hs) initial_repeating).mono
    fun _ h => h.clocksAgree

/-- An event with a topic and data of one byte each. -/
def shortEvent : MqttEvent where
  topic := TopicMainString ++ ascii ['a']
  data := ascii ['b']

/-- The time task sends a whole frame to both streams after the MQTT task has sent its frame
to the first stream only. -/
def syncBetweenStreams : List Action :=
  [.dataCallback shortEvent, .send .mqttTask, .send .mqttTask, .send .mqttTask, .delayReturns,
    .testPrepareForCountdown, .testShouldSendTime, .send .timeTask, .send .timeTask,
    .send .timeTask, .send .timeTask, .returnFromTimeSync, .send .mqttTask, .send .mqttTask,
    .send .mqttTask, .returnFromCallback]

/-- The two clocks get the two frames in different orders. -/
theorem syncBetweenStreams_disagrees : ¬Visited step ClocksAgree initial syncBetweenStreams := by
  intro hvisited
  have hrun : (run step initial syncBetweenStreams).map (fun s =>
      decide ((s.mqtt = .idle ∧ s.time = .waiting) ∧
        s.tx.content .txStream0 ≠ s.tx.content .txStream1)) = some true := by
    decide +kernel
  obtain ⟨s, hs, hdecide⟩ := Option.map_eq_some_iff.mp hrun
  obtain ⟨⟨hmqtt, htime⟩, hne⟩ := of_decide_eq_true hdecide
  exact hne (hvisited.last hs ⟨hmqtt, by simp [htime], by simp [htime], by simp [htime]⟩)

/-- The time task sends its frame to each stream after the MQTT task has sent its own there. -/
theorem clocksAgree_syncBehindMessage :
    Visited step ClocksAgree initial
      [.dataCallback shortEvent, .send .mqttTask, .send .mqttTask, .send .mqttTask, .delayReturns,
        .testPrepareForCountdown, .testShouldSendTime, .send .timeTask, .send .timeTask,
        .send .mqttTask, .send .mqttTask, .send .mqttTask, .returnFromCallback,
        .send .timeTask, .send .timeTask, .returnFromTimeSync] :=
  clocksAgree_of_sendsInTurn _ (by decide +kernel)

end NixieVfdCentral.Central
