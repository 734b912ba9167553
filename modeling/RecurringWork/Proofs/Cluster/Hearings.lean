import RecurringWork.Proofs.Cluster.Asking
import RecurringWork.Proofs.Cluster.Subscriptions

/-!
# RecurringWork.Proofs.Cluster.Hearings

**What it is to dispatch an event.** A task has the listeners hear the event one after the other
(`Heard`). Who they are is settled before the first of them is called, so what they do to the
subscriptions is for the next event; and one that breaks off does not keep the others from hearing
it (`Heard.reaches`).

A listener may do whatever it likes, and need not come to its end. If it does nothing but subscribe
and unsubscribe, it does come to its end, whether or not it breaks off (`reaches_hear_first`), and
what is left of it is a note of the event and some more calls to the dispatcher
(`World.Attended`).

With what `Subscriptions` says of the dispatcher, this is all there is to an event
(`Dispatcher.hears_each_once`).
-/

namespace RecurringWork

namespace Simulation

open World

variable {u v w : World} {stack : List Frame} {node : Option Nat} {event : Event}

/-! ### Listeners that come to their end -/

/-- Listeners hear an event one after the other, and each comes to its end, with a value or broken
off. -/
inductive Heard (node : Option Nat) (event : Event) (stack : List Frame) :
    List EventHook → World → World → Prop
  | nil (w : World) : Heard node event stack [] w w
  | cons {hook : EventHook} {rest : List EventHook} {w w₁ w₂ : World} {c : Control}
      (ended : (∃ v, c = .give v) ∨ c = .fault)
      (one : Reaches ((hear node event (hook :: rest)).run ⟨w, stack⟩)
        (c, ⟨w₁, .hearing node event rest :: stack⟩))
      (others : Heard node event stack rest w₁ w₂) : Heard node event stack (hook :: rest) w w₂

/-- **However each listener comes to its end, the next one hears the event.** What they do to the
subscriptions makes no difference to who they are. -/
theorem Heard.reaches {hooks : List EventHook} (heard : Heard node event stack hooks w v) :
    Reaches ((hear node event hooks).run ⟨w, stack⟩) (.give .nothing, ⟨v, stack⟩) := by
  induction heard with
  | nil w => exact .refl
  | cons ended one others ih =>
      refine Relation.ReflTransGen.trans one (Relation.ReflTransGen.head ?_ ih)
      rcases ended with ⟨v, rfl⟩ | rfl
      · rfl
      · rfl

/-- **A dispatch answers how many listeners there were.** -/
theorem Heard.dispatched
    (heard : Heard none event
      (.reply (.constant (.number (w.dispatcher.audience event).length)) :: stack)
      (w.dispatcher.audience event) w v) :
    Reaches ((takeClusterStep (.dispatch (some event))).run ⟨w, stack⟩)
      (.give (.answer (.number (w.dispatcher.audience event).length)), ⟨v, stack⟩) :=
  heard.reaches.tail rfl

/-! ### Listeners that subscribe -/

/-- A step has a listener subscribed that belongs to no node, or a subscription removed. -/
def Step.Subscribes : Step → Prop
  | .cluster (.subscribe none _ _ _) => True
  | .cluster (.unsubscribe none _) => True
  | _ => False

/-- An event was heard. -/
def Notice.isHeard : Notice → Bool
  | .heard _ _ _ => true
  | _ => false

namespace World

/-- Listeners have noted what they heard, and may have told the dispatcher something. There may be
more callbacks than before, and those that there were differ in how often they were called. -/
structure Attended (w v : World) (noted : List Notice) : Prop where
  calls : ∃ more : List (Dispatcher.Call EventHook),
    v.dispatcher = more.foldl Dispatcher.perform w.dispatcher
  callbacks : ∀ (n : Nat) c, w.callbacks[n]? = some c →
    ∃ d, v.callbacks[n]? = some d ∧ d.uncalled = c.uncalled
  noted : v.notices.filter Notice.isHeard = w.notices.filter Notice.isHeard ++ noted

/-- What a listener notes of an event, if it is a callback. -/
def noteOf? (w : World) (event : Event) : EventHook → Option Notice
  | .callback n => (w.callbacks[n]?).map (Callback.remark event)
  | .requests _ | .news _ _ _ => none

/-- A listener does nothing but subscribe and unsubscribe, if it is a callback. It may break off. -/
def Brief (w : World) : EventHook → Prop
  | .callback n => ∃ c, w.callbacks[n]? = some c ∧ ∀ s ∈ c.reaction.steps, s.Subscribes
  | .requests _ | .news _ _ _ => True

namespace Attended

variable {first second : List Notice}

theorem refl (w : World) : w.Attended w [] :=
  ⟨⟨[], rfl⟩, fun _ c found => ⟨c, found, rfl⟩, (List.append_nil _).symm⟩

/-- Nobody noted anything, and nobody subscribed. -/
theorem quiet (dispatcher : v.dispatcher = w.dispatcher) (callbacks : v.callbacks = w.callbacks)
    (notices : v.notices = w.notices) : w.Attended v [] :=
  ⟨⟨[], dispatcher⟩, fun _ c found => ⟨c, callbacks ▸ found, rfl⟩, by rw [notices]; simp⟩

theorem trans (h : u.Attended v first) (h' : v.Attended w second) :
    u.Attended w (first ++ second) where
  calls := by
    obtain ⟨before, same⟩ := h.calls
    obtain ⟨later, same'⟩ := h'.calls
    exact ⟨before ++ later, by rw [same', same, List.foldl_append]⟩
  callbacks := by
    intro n c found
    obtain ⟨d, found, alike⟩ := h.callbacks n c found
    obtain ⟨d', found, alike'⟩ := h'.callbacks n d found
    exact ⟨d', found, alike'.trans alike⟩
  noted := by rw [h'.noted, h.noted, List.append_assoc]

theorem noteOf? (h : w.Attended v first) {hook : EventHook} (brief : w.Brief hook) :
    v.noteOf? event hook = w.noteOf? event hook := by
  cases hook with
  | callback n =>
      obtain ⟨c, found, -⟩ := brief
      obtain ⟨d, there, alike⟩ := h.callbacks n c found
      have kind : d.kind = c.kind := (congrArg Callback.kind alike :)
      have name : d.name = c.name := (congrArg Callback.name alike :)
      simp only [World.noteOf?, found, there, Option.map_some, Callback.remark, kind, name]
  | _ => rfl

theorem brief (h : w.Attended v first) {hook : EventHook} (brief : w.Brief hook) :
    v.Brief hook := by
  cases hook with
  | callback n =>
      obtain ⟨c, found, subscribes⟩ := brief
      obtain ⟨d, there, alike⟩ := h.callbacks n c found
      have reaction : d.reaction = c.reaction := (congrArg Callback.reaction alike :)
      exact ⟨d, there, reaction ▸ subscribes⟩
  | _ => trivial

end Attended

end World

/-- Such a step is answered at once. -/
theorem run_subscribing {s : Step} (subscribes : s.Subscribes) (w : World) (stack : List Frame) :
    ∃ a v, (takeStep s).run ⟨w, stack⟩ = (.give (.answer a), ⟨v, stack⟩) ∧ w.Attended v [] := by
  unfold Step.Subscribes at subscribes
  split at subscribes
  · next name category reaction =>
      cases category with
      | none => exact ⟨_, _, rfl, .refl w⟩
      | some c =>
          refine ⟨_, _, rfl, ⟨[.subscribe c _], rfl⟩, fun n d found => ⟨d, ?_, rfl⟩,
            (List.append_nil _).symm⟩
          exact (List.getElem?_append_left (List.getElem?_eq_some_iff.mp found).1).trans found
  · next name =>
      cases found : w.names.subscriptions.find? name with
      | none =>
          refine ⟨.flag false, w, ?_, .refl w⟩
          rw [takeStep, takeClusterStep, Act.run_look, found]
          rfl
      | some n =>
          refine ⟨.flag (w.dispatcher.unsubscribe n).1,
            { w with dispatcher := (w.dispatcher.unsubscribe n).2 }, ?_,
            ⟨[.unsubscribe n], rfl⟩, fun _ c found => ⟨c, found, rfl⟩, (List.append_nil _).symm⟩
          rw [takeStep, takeClusterStep, Act.run_look, found]
          rfl
  · exact subscribes.elim

/-- So are several of them. -/
theorem reaches_subscribing {steps : List Step} (subscribe : ∀ s ∈ steps, s.Subscribes)
    (w : World) (stack : List Frame) :
    ∃ v, Reaches ((Act.sequence .reaction steps).run ⟨w, stack⟩) (.give .nothing, ⟨v, stack⟩) ∧
      w.Attended v [] := by
  induction steps generalizing w with
  | nil => exact ⟨w, .refl, .refl w⟩
  | cons s rest ih =>
      obtain ⟨a, u, taken, attended⟩ :=
        run_subscribing (subscribe s List.mem_cons_self) w (.sequence .reaction rest :: stack)
      obtain ⟨v, reached, others⟩ := ih (fun t mem => subscribe t (List.mem_cons_of_mem s mem))
        { u with notices := u.notices ++ [.reaction a] }
      have noted : u.Attended { u with notices := u.notices ++ [.reaction a] } [] :=
        ⟨⟨[], rfl⟩, fun _ c found => ⟨c, found, rfl⟩, by simp [Notice.isHeard]⟩
      refine ⟨v, .head taken (.head rfl reached), (attended.trans noted).trans others⟩

theorem isHeard_remark (c : Callback) : (c.remark event).isHeard = true := by
  unfold Callback.remark
  split <;> rfl

theorem World.attended_observed {n : Nat} {b : Callback} (found : w.callbacks[n]? = some b) :
    w.Attended (w.observed event n) [b.remark event] := by
  refine ⟨⟨[], rfl⟩, fun i c there => ?_, ?_⟩
  · have same := (unaltered_observed event w n).callbacks i
    rw [there] at same
    exact Option.map_eq_some_iff.mp same
  · simp [World.observed, found, isHeard_remark]

/-- A callback that is called notes what it hears, takes its steps, and may break off. -/
theorem reaches_callBack {n : Nat} {b : Callback} (found : w.callbacks[n]? = some b)
    (subscribe : ∀ s ∈ b.reaction.steps, s.Subscribes) (stack : List Frame) :
    ∃ c v, ((∃ a, c = .give a) ∨ c = .fault) ∧
      Reaches ((callBack n (Callback.remark event)).run ⟨w, stack⟩) (c, ⟨v, stack⟩) ∧
      w.Attended v [b.remark event] := by
  obtain ⟨v, reached, took⟩ : ∃ v,
      Reaches ((callBack n (Callback.remark event)).run ⟨w, stack⟩)
        (.give .nothing, ⟨v, .callbackEnd b.reaction.breaksOff :: stack⟩) ∧
      (w.observed event n).Attended v [] := by
    rw [run_callBack found, ← observed_of_found found]
    split
    · exact reaches_subscribing subscribe _ _
    · exact ⟨_, .refl, .refl _⟩
  have noted := (attended_observed found).trans took
  rw [List.append_nil] at noted
  cases breaks : b.reaction.breaksOff with
  | true =>
      rw [breaks] at reached
      exact ⟨.fault, v, .inr rfl, reached.tail rfl, noted⟩
  | false =>
      rw [breaks] at reached
      exact ⟨.give .nothing, v, .inl ⟨_, rfl⟩, reached.tail rfl, noted⟩

/-- **A listener that only subscribes and unsubscribes comes to its end.** -/
theorem reaches_hear_first {hook : EventHook} (brief : w.Brief hook) (rest : List EventHook)
    (stack : List Frame) :
    ∃ c v, ((∃ a, c = .give a) ∨ c = .fault) ∧
      Reaches ((hear node event (hook :: rest)).run ⟨w, stack⟩)
        (c, ⟨v, .hearing node event rest :: stack⟩) ∧
      w.Attended v (w.noteOf? event hook).toList := by
  cases hook with
  | callback n =>
      obtain ⟨b, found, subscribe⟩ := brief
      have note : (w.noteOf? event (.callback n)).toList = [b.remark event] := by
        simp only [World.noteOf?, found, Option.map_some, Option.toList_some]
      rw [note]
      exact reaches_callBack found subscribe _
  | requests m =>
      refine ⟨.give .nothing, ?_⟩
      rw [hear, Act.run_push, Act.run_look]
      cases event.kind with
      | rescheduleActor name delay =>
          dsimp only
          rw [Act.run_isAlive]
          split
          · exact ⟨_, .inl ⟨_, rfl⟩, .refl, .quiet rfl rfl rfl⟩
          · exact ⟨_, .inl ⟨_, rfl⟩, .refl, .refl w⟩
      | _ => exact ⟨w, .inl ⟨_, rfl⟩, .refl, .refl w⟩
  | news worker m name =>
      refine ⟨.give .nothing, ?_⟩
      rw [hear, Act.run_push, Act.run_look]
      cases event.kind with
      | backlogChanged route due =>
          cases w.worker? worker with
          | none => exact ⟨w, .inl ⟨_, rfl⟩, .refl, .refl w⟩
          | some c =>
              dsimp only
              split
              · rcases c.target.request due with ⟨needed, target⟩
                dsimp only
                rw [Act.run_modifyWorld, Act.run_isAlive]
                split
                · cases w.system.wake w.elapsed m name (delayUntil due w.now).toMillis with
                  | ok s => exact ⟨_, .inl ⟨_, rfl⟩, .refl, .quiet rfl rfl rfl⟩
                  | error f => exact ⟨_, .inl ⟨_, rfl⟩, .refl, .quiet rfl rfl rfl⟩
                · exact ⟨_, .inl ⟨_, rfl⟩, .refl, .quiet rfl rfl rfl⟩
              · exact ⟨w, .inl ⟨_, rfl⟩, .refl, .refl w⟩
      | _ => exact ⟨w, .inl ⟨_, rfl⟩, .refl, .refl w⟩

/-- Several of them do so one after the other, and note the event in their order. -/
theorem heard_of_brief {hooks : List EventHook} (brief : ∀ hook ∈ hooks, w.Brief hook)
    (stack : List Frame) : ∃ v, Heard node event stack hooks w v ∧
      w.Attended v (hooks.filterMap (w.noteOf? event)) := by
  induction hooks generalizing w with
  | nil => exact ⟨w, .nil w, .refl w⟩
  | cons hook rest ih =>
      obtain ⟨c, u, ended, one, first⟩ :=
        @reaches_hear_first w node event hook (brief hook List.mem_cons_self) rest stack
      have others : ∀ other ∈ rest, w.Brief other := fun other mem =>
        brief other (List.mem_cons_of_mem hook mem)
      obtain ⟨v, heard, later⟩ := @ih u fun other mem => first.brief (others other mem)
      refine ⟨v, .cons ended one heard, ?_⟩
      have same : rest.filterMap (u.noteOf? event) = rest.filterMap (w.noteOf? event) :=
        List.filterMap_congr fun other mem => first.noteOf? (others other mem)
      rw [same] at later
      have noted := first.trans later
      rw [List.filterMap_cons]
      cases note : w.noteOf? event hook with
      | none => rwa [note] at noted
      | some n => rwa [note] at noted

end Simulation

open Simulation

namespace Dispatcher

/-- **Every live subscription to a tag of an event hears it once, and nobody else does.** After any
calls:

* no subscription is given the number of another one;
* a number is removed if and only if it is that of a live subscription, and the others stay in
  their order, which is that in which they were made;
* those who hear an event are the live subscriptions to its tags, each once, in the order of the
  tags and then in their own, and a dispatch answers how many there were, however each of them
  comes to its end;
* if they do nothing but subscribe and unsubscribe, all of them do come to their end, and note the
  event in this order, and the subscriptions are then those of the calls that they have added. -/
theorem hears_each_once (calls : List (Call EventHook)) :
    (∀ earlier later c c' listener listener', calls = earlier ++ .subscribe c listener :: later →
      ((after earlier).subscribe c listener).1 ≠ ((after calls).subscribe c' listener').1) ∧
    (∀ number, (((after calls).unsubscribe number).1 = true ↔
        ∃ s, Live calls s ∧ s.number = number) ∧
      ((after calls).unsubscribe number).2.subscriptions.Sublist (after calls).subscriptions ∧
      ∀ s, s ∈ ((after calls).unsubscribe number).2.subscriptions ↔
        Live calls s ∧ s.number ≠ number) ∧
    (after calls).subscriptions.Pairwise (fun s t => s.number < t.number) ∧
    ∀ e : Event, e.Built →
      let subs := (after calls).hearers e
      subs.Nodup ∧ (∀ s, s ∈ subs ↔ Live calls s ∧ s.category ∈ e.categories) ∧
      subs.Pairwise e.Sooner ∧
      ∀ (w : World) (stack : List Frame), w.dispatcher = after calls →
        let below := .reply (.constant (.number subs.length)) :: stack
        (∀ w', Heard none e below (subs.map Subscription.listener) w w' →
          Reaches ((takeClusterStep (.dispatch (some e))).run ⟨w, stack⟩)
            (.give (.answer (.number subs.length)), ⟨w', stack⟩)) ∧
        ((∀ s ∈ subs, w.Brief s.listener) →
          ∃ w' more, Heard none e below (subs.map Subscription.listener) w w' ∧
            w'.dispatcher = after (calls ++ more) ∧
            w'.notices.filter Notice.isHeard = w.notices.filter Notice.isHeard ++
              subs.filterMap fun s => w.noteOf? e s.listener) := by
  obtain ⟨ordered, -⟩ := pairwise_subscriptions_after calls
  refine ⟨?_, fun number => ⟨unsubscribe_eq_true_iff, List.filter_sublist, fun s => ?_⟩, ordered,
    fun e built => ⟨nodup_hearers ordered built, fun s => ?_, pairwise_hearers ordered built,
      fun w stack same => ⟨fun w' heard => ?_, fun brief => ?_⟩⟩⟩
  · rintro earlier later c c' listener listener' rfl
    exact Nat.ne_of_lt (number_lt_of_later c c' listener listener')
  · rw [← mem_subscriptions_after]
    simp [unsubscribe]
  · rw [mem_hearers, mem_subscriptions_after]
  · have audience : w.dispatcher.audience e =
        ((after calls).hearers e).map Subscription.listener := by
      rw [same, audience_eq]
    have length := congrArg List.length audience
    rw [List.length_map] at length
    rw [← audience, ← length] at heard
    rw [← length]
    exact heard.dispatched
  · obtain ⟨w', heard, attended⟩ := @heard_of_brief w none e
      (((after calls).hearers e).map Subscription.listener)
      (fun hook mem => by
        obtain ⟨s, here, rfl⟩ := List.mem_map.mp mem
        exact brief s here) _
    obtain ⟨more, later⟩ := attended.calls
    refine ⟨w', more, heard, ?_, ?_⟩
    · rw [later, same, after_append]
    · rw [attended.noted, List.filterMap_map]
      rfl

/-- Three listeners to all events of the application's own, the second of them to any event. The
first one removes the third, and breaks off. -/
def trio : List (Call EventHook) :=
  [.subscribe .custom (.callback 0), .subscribe .any (.callback 1),
    .subscribe .custom (.callback 2)]

/-- The world in which they are. -/
def stage : World :=
  { (Script.mk (.manual 0) 0 []).world with
    dispatcher := after trio
    callbacks :=
      [⟨"first", .event "", ⟨[.cluster (.unsubscribe none "third")], 1, true⟩, 0⟩,
        ⟨"second", .event "", ⟨[], 0, false⟩, 0⟩, ⟨"third", .event "", ⟨[], 0, false⟩, 0⟩]
    names := ⟨[], [], [("third", 2)], [], [], [], [], [], [], none⟩ }

/-- All three of them hear the event, the second one last. -/
theorem hears_each_once_of_trio :
    ∃ w', Reaches ((takeClusterStep (.dispatch (some (.ofKind (.custom "news" .null))))).run
        ⟨stage, []⟩) (.give (.answer (.number 3)), ⟨w', []⟩) ∧
      w'.notices.filter Notice.isHeard =
        [.heard "first" "" (.ofKind (.custom "news" .null)),
          .heard "third" "" (.ofKind (.custom "news" .null)),
          .heard "second" "" (.ofKind (.custom "news" .null))] := by
  obtain ⟨-, -, -, events⟩ := hears_each_once trio
  obtain ⟨-, -, -, dispatches⟩ := events _ (.ofKind (.custom "news" .null))
  obtain ⟨answered, ends⟩ := dispatches stage [] rfl
  have hearers : (after trio).hearers (.ofKind (.custom "news" .null)) =
      [⟨0, .custom, .callback 0⟩, ⟨2, .custom, .callback 2⟩, ⟨1, .any, .callback 1⟩] := rfl
  have brief : ∀ s ∈ (after trio).hearers (.ofKind (.custom "news" .null)),
      stage.Brief s.listener := by
    rw [hearers]
    simp only [List.forall_mem_cons, List.not_mem_nil, false_implies, implies_true, and_true]
    refine ⟨⟨_, rfl, fun s mem => ?_⟩, ⟨_, rfl, fun s mem => ?_⟩, ⟨_, rfl, fun s mem => ?_⟩⟩
    · rw [List.mem_singleton.mp mem]
      trivial
    · cases mem
    · cases mem
  obtain ⟨w', -, heard, -, noted⟩ := ends brief
  exact ⟨w', answered w' heard, noted⟩

end Dispatcher

end RecurringWork
