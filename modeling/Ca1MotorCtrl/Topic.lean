import Ca1MotorCtrl.BoundedLog

/-! Topics between a publisher and a subscriber as a parameter: what the middleware does is
not fixed, only that it keeps the order of the messages and never loses the newest one.
What follows from that is stated for the messages published since the subscription. -/

/-- A topic with one subscription. -/
structure Topic (Message : Type) where
  /-- What the middleware holds for the subscription. -/
  Flow : Type
  /-- The flow of a new subscription. -/
  subscribed : Flow
  publish : Flow → Message → Flow
  /-- The middleware goes on by itself; the number stands for what it picks to do. -/
  transport : Flow → ℕ → Flow
  /-- The message that a callback gets, if there is one for it. -/
  take : Flow → Option (Message × Flow)
  /-- The messages that are neither taken nor lost. -/
  onWay : Flow → List Message

namespace Topic
variable {Message : Type} (topic : Topic Message)

/-- A reliable topic that keeps the newest messages: it may lose old messages, but neither
repeats nor reorders any, and keeps the newest until it is taken. -/
structure KeepsLast : Prop where
  subscribed : topic.onWay topic.subscribed = []
  publish (flow : topic.Flow) (message : Message) :
    (topic.onWay (topic.publish flow message)).Sublist (topic.onWay flow ++ [message])
  publish_last (flow : topic.Flow) (message : Message) :
    (topic.onWay (topic.publish flow message)).getLast? = some message
  transport (flow : topic.Flow) (choice : ℕ) :
    (topic.onWay (topic.transport flow choice)).Sublist (topic.onWay flow)
  transport_last (flow : topic.Flow) (choice : ℕ) :
    (topic.onWay (topic.transport flow choice)).getLast? = (topic.onWay flow).getLast?
  take {flow next : topic.Flow} {message : Message}
    (h : topic.take flow = some (message, next)) :
    (message :: topic.onWay next).Sublist (topic.onWay flow)
  take_last {flow next : topic.Flow} {message : Message}
    (h : topic.take flow = some (message, next)) :
    (message :: topic.onWay next).getLast? = (topic.onWay flow).getLast?

/-- Nothing is lost while there are no more messages than the topic keeps. -/
structure Holds (depth : ℕ) : Prop where
  publish {flow : topic.Flow} (message : Message) (h : (topic.onWay flow).length < depth) :
    topic.onWay (topic.publish flow message) = topic.onWay flow ++ [message]
  transport {flow : topic.Flow} (choice : ℕ) (h : (topic.onWay flow).length ≤ depth) :
    topic.onWay (topic.transport flow choice) = topic.onWay flow
  take {flow next : topic.Flow} {message : Message} (h : (topic.onWay flow).length ≤ depth)
    (hTake : topic.take flow = some (message, next)) :
    topic.onWay flow = message :: topic.onWay next

/-- What has been published since the subscription, what has been taken, and the flow. -/
inductive Carries : List Message → List Message → topic.Flow → Prop where
  | subscribed : Carries [] [] topic.subscribed
  | publish {published delivered : List Message} {flow : topic.Flow}
      (h : Carries published delivered flow) (message : Message) :
      Carries (published ++ [message]) delivered (topic.publish flow message)
  | transport {published delivered : List Message} {flow : topic.Flow}
      (h : Carries published delivered flow) (choice : ℕ) :
      Carries published delivered (topic.transport flow choice)
  | take {published delivered : List Message} {flow next : topic.Flow} {message : Message}
      (h : Carries published delivered flow) (hTake : topic.take flow = some (message, next)) :
      Carries published (delivered ++ [message]) next

variable {topic} {published delivered : List Message} {flow : topic.Flow}

theorem Carries.publishAll (h : topic.Carries published delivered flow) (messages : List Message) :
    topic.Carries (published ++ messages) delivered (messages.foldl topic.publish flow) := by
  induction messages generalizing published flow with
  | nil =>
      rw [List.append_nil]
      exact h
  | cons message messages ih =>
      rw [List.append_cons]
      exact ih (h.publish message)

/-- Nothing is repeated, made up or overtaken. -/
theorem Carries.sublist (h : topic.Carries published delivered flow) (hTopic : topic.KeepsLast) :
    (delivered ++ topic.onWay flow).Sublist published := by
  induction h with
  | subscribed => rw [hTopic.subscribed, List.append_nil]
  | @publish published delivered flow _ message ih =>
      have hNew := (List.Sublist.refl delivered).append (hTopic.publish flow message)
      rw [← List.append_assoc] at hNew
      exact hNew.trans (ih.append (List.Sublist.refl [message]))
  | transport _ choice ih =>
      exact ((List.Sublist.refl _).append (hTopic.transport _ choice)).trans ih
  | take _ hTake ih =>
      rw [List.append_assoc]
      exact ((List.Sublist.refl _).append (hTopic.take hTake)).trans ih

/-- The last message is taken or still on the way. -/
theorem Carries.getLast?_eq (h : topic.Carries published delivered flow)
    (hTopic : topic.KeepsLast) :
    (delivered ++ topic.onWay flow).getLast? = published.getLast? := by
  induction h with
  | subscribed => rw [hTopic.subscribed, List.append_nil]
  | publish _ message _ =>
      rw [List.getLast?_append, hTopic.publish_last, List.getLast?_concat]
      rfl
  | transport _ choice ih =>
      rw [← ih, List.getLast?_append, hTopic.transport_last, ← List.getLast?_append]
  | take _ hTake ih =>
      rw [← ih, List.append_assoc, List.singleton_append, List.getLast?_append,
        hTopic.take_last hTake, ← List.getLast?_append]

/-- Messages for which there is room are all kept. -/
theorem Holds.onWay_publishAll {depth : ℕ} (h : topic.Holds depth) {messages : List Message}
    (hRoom : (topic.onWay flow).length + messages.length ≤ depth) :
    topic.onWay (messages.foldl topic.publish flow) = topic.onWay flow ++ messages := by
  induction messages generalizing flow with
  | nil => exact (List.append_nil _).symm
  | cons message messages ih =>
      rw [List.length_cons] at hRoom
      have hFirst : topic.onWay (topic.publish flow message) = topic.onWay flow ++ [message] :=
        h.publish message (by omega)
      have hRest : (topic.onWay (topic.publish flow message)).length + messages.length ≤ depth := by
        rw [hFirst, List.length_append, List.length_singleton]
        omega
      rw [List.foldl_cons, ih hRest, hFirst, ← List.append_cons]

/-- The queue of a publisher and the one of its subscriber, both of the same depth. -/
def keepLast (Message : Type) (depth : ℕ) : Topic Message where
  Flow := List Message × List Message
  subscribed := ([], [])
  publish flow message := (BoundedLog.newest depth (flow.1 ++ [message]), flow.2)
  transport
    | ([], subscriber), _ => ([], subscriber)
    | (message :: publisher, subscriber), _ =>
        (publisher, BoundedLog.newest depth (subscriber ++ [message]))
  take
    | (_, []) => none
    | (publisher, message :: subscriber) => some (message, (publisher, subscriber))
  onWay flow := flow.2 ++ flow.1

section KeepLast
variable {depth : ℕ}

open BoundedLog

theorem getLast?_newest_concat (hDepth : 0 < depth) (messages : List Message) (message : Message) :
    (newest depth (messages ++ [message])).getLast? = some message := by
  have hSingle : [message].length ≤ depth := hDepth
  rw [newest_append depth messages hSingle, List.getLast?_concat]

/-- It is a topic of the assumed kind. -/
theorem keepsLast_keepLast (hDepth : 0 < depth) : (keepLast Message depth).KeepsLast where
  subscribed := rfl
  publish flow message := by
    simp only [keepLast, List.append_assoc]
    exact (List.Sublist.refl _).append (newest_suffix depth _).sublist
  publish_last flow message := by
    simp only [keepLast, List.getLast?_append, getLast?_newest_concat hDepth, Option.some_or]
  transport flow choice := by
    obtain ⟨_ | ⟨message, publisher⟩, subscriber⟩ := flow
    · exact List.Sublist.refl _
    · have hNewest := (newest_suffix depth (subscriber ++ [message])).sublist
      simpa [keepLast] using hNewest.append (List.Sublist.refl publisher)
  transport_last flow choice := by
    obtain ⟨_ | ⟨message, publisher⟩, subscriber⟩ := flow
    · rfl
    · simp only [keepLast, List.getLast?_append, getLast?_newest_concat hDepth, List.getLast?_cons]
      cases publisher.getLast? <;> rfl
  take {flow next message} hTake := by
    obtain ⟨publisher, _ | ⟨first, subscriber⟩⟩ := flow
    · cases hTake
    · obtain ⟨rfl, rfl⟩ := Prod.mk.inj (Option.some.inj hTake)
      exact List.Sublist.refl _
  take_last {flow next message} hTake := by
    obtain ⟨publisher, _ | ⟨first, subscriber⟩⟩ := flow
    · cases hTake
    · obtain ⟨rfl, rfl⟩ := Prod.mk.inj (Option.some.inj hTake)
      rfl

theorem holds_keepLast : (keepLast Message depth).Holds depth where
  publish {flow} message h := by
    have hRoom : (flow.1 ++ [message]).length ≤ depth := by
      have hLength : (flow.2 ++ flow.1).length < depth := h
      simp only [List.length_append, List.length_singleton] at hLength ⊢
      omega
    simp only [keepLast, newest_of_length_le depth hRoom, List.append_assoc]
  transport {flow} choice h := by
    obtain ⟨_ | ⟨message, publisher⟩, subscriber⟩ := flow
    · rfl
    · have hRoom : (subscriber ++ [message]).length ≤ depth := by
        have hLength : (subscriber ++ message :: publisher).length ≤ depth := h
        simp only [List.length_append, List.length_cons, List.length_nil] at hLength ⊢
        omega
      simp [keepLast, newest_of_length_le depth hRoom]
  take {flow next message} _ hTake := by
    obtain ⟨publisher, _ | ⟨first, subscriber⟩⟩ := flow
    · cases hTake
    · obtain ⟨rfl, rfl⟩ := Prod.mk.inj (Option.some.inj hTake)
      rfl

end KeepLast

end Topic
