import Mathlib.Data.List.Flatten
import Mathlib.Data.List.Nodup
import RecurringWork.Proofs.Cluster.Posts

/-!
# RecurringWork.Proofs.Cluster.Requests

**A request is heeded once by everybody whom it concerns, and does not come back.** Whoever is
asked for a run at `here` schedules it, and has the event sent to the other members of the group.
Each sink of a member that can be reached takes it (`Staffed.reaches_served`), and what comes of
that is what comes of asking the managers at these nodes one after the other
(`system_foldl_served`). The node that the event comes from does not take it, and no node takes
it twice, so nobody is asked twice (`Staffed.nodup_asked`).

That one event is sent is seen by those who take notes of what arrives at the members: each of
them notes it once (`Requested.sent`). A manager that hears of a request does not send it on.
-/

namespace RecurringWork.Simulation

open World

variable {u v w : World} {stack : List Frame} {posts : List Post} {event : Event}
  {name : String} {delay : Int}

namespace World

namespace Staffed

/-- **What one sink makes of a request.** -/
theorem reaches_served (staffed : w.Staffed stack posts) {m : Member ChangeHook EventSink}
    (mem : m ∈ w.group.members) {sink : EventSink} (takes : sink ∈ m.sinks) (name : String)
    (delay : Int) (origin : Address) (rest : List EventSink) :
    let event := (Event.rescheduleActor name delay).withOrigin origin
    Reaches ((deliver event (sink :: rest)).run ⟨w, stack⟩)
      (.give .nothing, ⟨w.served event name delay posts sink, .delivery event rest :: stack⟩) := by
  intro event
  cases sink with
  | callback c => exact reaches_observed (staffed.observers m mem c takes) rest
  | listeners n =>
      obtain ⟨k, there, -⟩ := staffed.members m mem n takes
      have deeper : stack ⊆ .delivery event rest :: stack := List.subset_cons_self _ _
      cases lives : w.isAlive (.delivery event rest :: stack ++ w.waitingFrames) (.node n) with
      | true =>
          refine reaches_listeners there lives ?_
          rw [staffed.audience there]
          refine reaches_hear_requests rfl (fun p mem => ?_) (some n)
          exact (Unaltered.refl w).isAlive (List.Subset.trans deeper (List.subset_cons_self _ _))
            (staffed.lives p (mem_postsAt.mp mem).1)
      | false =>
          -- Nobody has a post at a node that does not live.
          have nobody : postsAt posts n = [] := by
            refine List.eq_nil_iff_forall_not_mem.mpr fun p mem => ?_
            obtain ⟨among, rfl⟩ := mem_postsAt.mp mem
            rw [(staffed.weaken deeper).node_lives among] at lives
            cases lives
          rw [deliver, Act.run_push, Act.run_look, there]
          dsimp only
          rw [Act.ifAlive, Act.run_isAlive, lives, if_neg Bool.false_ne_true, served, nobody]
          exact .refl

/-- **What the sinks of members make of a request**, one after the other. -/
theorem reaches_send (staffed : w.Staffed stack posts) {sinks : List EventSink}
    (known : ∀ sink ∈ sinks, ∃ m ∈ w.group.members, sink ∈ m.sinks) (name : String) (delay : Int)
    (origin : Address) :
    let event := (Event.rescheduleActor name delay).withOrigin origin
    Reaches ((deliver event sinks).run ⟨w, stack⟩)
      (.give .nothing, ⟨sinks.foldl (served event name delay posts) w, stack⟩) := by
  intro event
  have all : Reaches ((deliver event (sinks.map id)).run ⟨w, stack⟩)
      (.give .nothing, ⟨sinks.foldl (served event name delay posts) w, stack⟩) := by
    refine reaches_each (deliver event) (.delivery event) id _ w.Unaltered
      (fun _ => rfl) (fun _ => rfl) (fun v same sink mem rest => ?_)
      (fun v same sink _ => same.trans (unaltered_served event name delay posts v sink)) (.refl w)
    obtain ⟨m, member, takes⟩ := known sink mem
    have group : v.group = w.group := by
      obtain ⟨_, _, _, world⟩ := same.world
      rw [world]
    exact (staffed.lasts same).reaches_served (group ▸ member) takes name delay origin rest
  rwa [List.map_id] at all

end Staffed

/-! ### Who is asked -/

/-- What one node sends arrives at the listeners of another: at a member that can be reached and
has another address. -/
def Takes (w : World) (source n : Nat) : Prop :=
  ∃ m ∈ w.group.members, EventSink.listeners n ∈ m.sinks ∧ m.reachable = true ∧
    ∀ k, w.nodes[source]? = some k → m.address ≠ k.coordinator.node

/-- Whom a request concerns that is made at `here`: the manager itself, and those at nodes that
take it. -/
def Concerns (w : World) (posts : List Post) (here p : Post) : Prop :=
  p = here ∨ p ∈ posts ∧ w.Takes here.node p.node

/-- What a sink notes of an event. -/
def remark? (w : World) (event : Event) : EventSink → Option Notice
  | .listeners _ => none
  | .callback c => (w.callbacks[c]?).map (Callback.remark event)

theorem Unaltered.remark? (h : w.Unaltered v) : v.remark? event = w.remark? event := by
  funext sink
  cases sink with
  | listeners n => rfl
  | callback c =>
      -- What is noted does not depend on how often it has been.
      have same := congrArg (Option.map (Callback.remark event)) (h.callbacks c)
      rwa [Option.map_map, Option.map_map] at same

/-- The managers at the nodes that some sinks are for. -/
def audienceOf (posts : List Post) (sinks : List EventSink) : List Post :=
  (sinks.filterMap EventSink.node?).flatMap (postsAt posts)

theorem audienceOf_listeners (posts : List Post) (n : Nat) (rest : List EventSink) :
    audienceOf posts (.listeners n :: rest) = postsAt posts n ++ audienceOf posts rest := rfl

theorem system_foldl_asked (name : String) (delay : Int) (w : World) (ps : List Post) :
    (ps.foldl (asked name delay) w).system =
      w.system.heedRequests w.elapsed name delay (ps.map Post.manager) := by
  induction ps generalizing w with
  | nil => rfl
  | cons p rest ih => exact ih (asked name delay w p)

theorem system_foldl_served (event : Event) (name : String) (delay : Int) (posts : List Post)
    (w : World) (sinks : List EventSink) :
    (sinks.foldl (served event name delay posts) w).system =
      w.system.heedRequests w.elapsed name delay ((audienceOf posts sinks).map Post.manager) := by
  induction sinks generalizing w with
  | nil => rfl
  | cons sink rest ih =>
      have same := unaltered_served event name delay posts w sink
      rw [List.foldl_cons, ih, same.elapsed]
      cases sink with
      | callback c => rfl
      | listeners n =>
          show ((postsAt posts n).foldl _ w).system.heedRequests _ _ _ _ = _
          rw [system_foldl_asked, audienceOf_listeners, List.map_append,
            ActorSystem.heedRequests_append]

theorem notices_foldl_asked (name : String) (delay : Int) (w : World) (ps : List Post) :
    (ps.foldl (asked name delay) w).notices = w.notices := by
  induction ps generalizing w with
  | nil => rfl
  | cons p rest ih => exact ih (asked name delay w p)

theorem notices_foldl_served (event : Event) (name : String) (delay : Int) (posts : List Post)
    (w : World) (sinks : List EventSink) :
    (sinks.foldl (served event name delay posts) w).notices =
      w.notices ++ sinks.filterMap (w.remark? event) := by
  induction sinks generalizing w with
  | nil => exact (List.append_nil _).symm
  | cons sink rest ih =>
      have same := unaltered_served event name delay posts w sink
      rw [List.foldl_cons, ih, same.remark?, List.filterMap_cons]
      cases sink with
      | listeners n =>
          show ((postsAt posts n).foldl _ w).notices ++ _ = _
          rw [notices_foldl_asked]
          rfl
      | callback c =>
          cases noted : w.callbacks[c]? <;> simp [served, observed, World.remark?, noted]

theorem mem_sinks_send {k : Node} {source : Nat} (there : w.nodes[source]? = some k)
    {sink : EventSink} : sink ∈ (w.group.send [k.coordinator.node]).sinks ↔
      ∃ m ∈ w.group.members, sink ∈ m.sinks ∧ m.reachable = true ∧
        ∀ k, w.nodes[source]? = some k → m.address ≠ k.coordinator.node := by
  have elsewhere : ∀ m : Member ChangeHook EventSink,
      (∀ k, w.nodes[source]? = some k → m.address ≠ k.coordinator.node) ↔
        m.address ≠ k.coordinator.node := fun m =>
    ⟨fun all => all k there, fun other l found => by cases there.symm.trans found; exact other⟩
  simp only [Group.send, List.mem_flatMap, List.mem_filter, elsewhere]
  simp [and_assoc, and_comm, and_left_comm]

theorem mem_audienceOf {sinks : List EventSink} {p : Post} :
    p ∈ audienceOf posts sinks ↔ p ∈ posts ∧ EventSink.listeners p.node ∈ sinks := by
  simp only [audienceOf, List.mem_flatMap, List.mem_filterMap, mem_postsAt]
  constructor
  · rintro ⟨n, ⟨sink, mem, at_⟩, among, rfl⟩
    cases sink with
    | callback c => cases at_
    | listeners n =>
        cases at_
        exact ⟨among, mem⟩
  · rintro ⟨among, mem⟩
    exact ⟨p.node, ⟨_, mem, rfl⟩, among, rfl⟩

theorem nodup_audienceOf {sinks : List EventSink} (distinct : posts.Nodup)
    (once : (sinks.filterMap EventSink.node?).Nodup) : (audienceOf posts sinks).Nodup := by
  refine List.nodup_flatMap.mpr ⟨fun n _ => distinct.filter _, once.imp fun {a b} other => ?_⟩
  refine List.disjoint_left.mpr fun p at_a at_b => other ?_
  rw [← (mem_postsAt.mp at_a).2, (mem_postsAt.mp at_b).2]

/-! ### What comes of a request -/

/-- A run of `name` after `delay` has been asked for at `here`. -/
structure Requested (w v : World) (posts : List Post) (here : Post) (name : String) (delay : Int) :
    Prop where
  /-- Whomever it concerns that has the name gets one firing more, after the delay, but no timer
  is longer than the longest, and a scheduler that has been stopped accepts none. -/
  fires : ∀ p, w.Concerns posts here p → ∀ n c, w.system.registered? p.manager name = some n →
    w.system.manager? p.manager = some c → w.system.Live c.scheduler →
    w.system.OneMore v.system c.scheduler p.manager n
      (w.elapsed + min delay.toNat Duration.longestTimer)
  /-- Nothing else is going to fire. -/
  keeps : ∀ m n, (∀ p, w.Concerns posts here p → p.manager = m → ¬ w.system.Serves m name n) →
    ∀ j, v.system.firingsOn j m n = w.system.firingsOn j m n
  /-- One event is sent: who takes notes of what arrives at the other members does so once. -/
  sent : ∀ k, w.nodes[here.node]? = some k →
    v.notices = w.notices ++ (w.group.send [k.coordinator.node]).sinks.filterMap
      (w.remark? ((Event.rescheduleActor name delay).withOrigin k.coordinator.node))
  rest : w.Unaltered v

namespace Staffed

variable {here : Post}

/-- A node does not take its own events. -/
theorem not_takes_self (staffed : w.Staffed stack posts) (source : Nat) :
    ¬ w.Takes source source := by
  rintro ⟨m, mem, sink, -, other⟩
  obtain ⟨k, there, address⟩ := staffed.members m mem source sink
  exact other k there address.symm

/-- **Nobody is asked twice.** -/
theorem nodup_asked (staffed : w.Staffed stack posts) (mem : here ∈ posts) {k : Node}
    (there : w.nodes[here.node]? = some k) :
    ((here :: audienceOf posts (w.group.send [k.coordinator.node]).sinks).map
      Post.manager).Nodup := by
  have once : ((w.group.send [k.coordinator.node]).sinks.filterMap EventSink.node?).Nodup := by
    have fewer := (List.filter_sublist (p := Member.reachable)).trans
      (List.filter_sublist (p := fun m : Member ChangeHook EventSink =>
        !List.contains [k.coordinator.node] m.address) (l := w.group.members))
    exact staffed.once.sublist ((fewer.flatMap Member.sinks).filterMap EventSink.node?)
  have away : here ∉ audienceOf posts (w.group.send [k.coordinator.node]).sinks := fun again =>
    staffed.not_takes_self here.node ((mem_sinks_send there).mp (mem_audienceOf.mp again).2)
  have among : ∀ p ∈ here :: audienceOf posts (w.group.send [k.coordinator.node]).sinks,
      p ∈ posts := by
    intro p asked
    rcases List.mem_cons.mp asked with rfl | asked
    · exact mem
    · exact (mem_audienceOf.mp asked).1
  refine List.Nodup.map_on (fun p one q other same => ?_)
    (List.nodup_cons.mpr ⟨away, nodup_audienceOf (staffed.apart.of_map _) once⟩)
  exact List.inj_on_of_nodup_map staffed.apart (among p one) (among q other) same

/-- **What comes of a request that is heeded here and then sent to the others.** -/
theorem requested (staffed : w.Staffed stack posts) (mem : here ∈ posts) {k : Node}
    (there : w.nodes[here.node]? = some k) (name : String) (delay : Int) :
    w.Requested ((w.group.send [k.coordinator.node]).sinks.foldl
      (served ((Event.rescheduleActor name delay).withOrigin k.coordinator.node) name delay posts)
      (asked name delay w here)) posts here name delay := by
  generalize sinks_eq : (w.group.send [k.coordinator.node]).sinks = sinks
  have distinct := staffed.nodup_asked mem there
  rw [sinks_eq] at distinct
  have concerns : ∀ p, p ∈ here :: audienceOf posts sinks ↔ w.Concerns posts here p := by
    intro p
    rw [List.mem_cons, mem_audienceOf, ← sinks_eq, mem_sinks_send there]
    rfl
  have system := system_foldl_served
    ((Event.rescheduleActor name delay).withOrigin k.coordinator.node) name delay posts
    (asked name delay w here) sinks
  change _ = w.system.heedRequests w.elapsed name delay
    ((here :: audienceOf posts sinks).map Post.manager) at system
  have same := unaltered_asked name delay w here
  refine ⟨fun p concerned n c led manages live => ?_, fun m n others j => ?_,
    fun l found => ?_, ?_⟩
  · rw [system]
    have serves : w.system.Serves p.manager name n := ⟨led, staffed.leads led, c, manages, live⟩
    exact serves.oneMore_heedRequests manages
      (List.mem_map_of_mem ((concerns p).mpr concerned)) distinct _ _
  · rw [system]
    refine ActorSystem.firingsOn_heedRequests (fun asked => ?_) _ _ j
    obtain ⟨p, one, rfl⟩ := List.mem_map.mp asked
    exact others p ((concerns p).mp one) rfl
  · cases there.symm.trans found
    rw [notices_foldl_served, same.remark?, sinks_eq]
    rfl
  · exact same.trans (.foldl (unaltered_served _ name delay posts) _ sinks)

/-! ### A run is asked for -/

theorem run_reschedule_of_error {manager name : String} {m : Nat} {c : Manager} {delay : Int}
    {e : Error} (known : w.names.managers.find? manager = some m)
    (manages : w.system.manager? m = some c)
    (refused : w.system.wake w.elapsed m name delay = .error e) :
    (takeActorStep (.reschedule manager name delay)).run ⟨w, stack⟩ =
      (.give (.answer (.failure e)), ⟨w, .holding (.manager m) :: stack⟩) := by
  rw [takeActorStep, withManager, Act.run_look, known, Option.bind_some, manages]
  dsimp only [Option.map_some]
  rw [Act.run_holding, Act.run_look, refused]
  rfl

/-- A request that is not refused is heeded, and then sent to the others. -/
theorem run_reschedule {manager name : String} {here : Post} {delay : Int} {c : Manager} {k : Node}
    {n : Nat} (known : w.names.managers.find? manager = some here.manager)
    (manages : w.system.manager? here.manager = some c) (at_ : c.coordinator = some here.node)
    (there : w.nodes[here.node]? = some k) (grouped : k.facility = .group) (positive : 0 ≤ delay)
    (led : w.system.registered? here.manager name = some n) :
    (takeActorStep (.reschedule manager name delay)).run ⟨w, stack⟩ =
      (deliver ((Event.rescheduleActor name delay).withOrigin k.coordinator.node)
        (w.group.send [k.coordinator.node]).sinks).run ⟨asked name delay w here,
          .reply (.constant (.text "ok")) :: .holding (.manager here.manager) :: stack⟩ := by
  have heeds : w.system.wake w.elapsed here.manager name delay =
      .ok (w.system.heedRequest w.elapsed here.manager name delay) := by
    rw [ActorSystem.wake_of_registered led _ positive, ActorSystem.heedRequest, led]
  rw [takeActorStep, withManager, Act.run_look, known, Option.bind_some, manages]
  dsimp only [Option.map_some]
  rw [Act.run_holding, Act.run_look, heeds]
  dsimp only
  rw [Act.run_setSystem, Act.run_push, at_]
  exact run_fireOthers (w := asked name delay w here) there grouped _

/-- **A request that is not refused comes to its end, and by then whomever it concerns has been
asked.** -/
theorem reaches_reschedule (staffed : w.Staffed stack posts) (mem : here ∈ posts)
    {manager name : String} {delay : Int} {n : Nat}
    (known : w.names.managers.find? manager = some here.manager) (positive : 0 ≤ delay)
    (led : w.system.registered? here.manager name = some n) :
    ∃ v, Reaches ((takeActorStep (.reschedule manager name delay)).run ⟨w, stack⟩)
        (.give (.answer (.text "ok")), ⟨v, stack⟩) ∧
      w.Requested v posts here name delay := by
  obtain ⟨c, manages, at_⟩ := staffed.managed here mem
  obtain ⟨k, there, grouped⟩ := staffed.grouped here mem
  have members : ∀ sink ∈ (w.group.send [k.coordinator.node]).sinks,
      ∃ m ∈ (asked name delay w here).group.members, sink ∈ m.sinks := by
    intro sink mem
    obtain ⟨m, member, takes, -⟩ := (mem_sinks_send there).mp mem
    exact ⟨m, member, takes⟩
  have asked := staffed.lasts (unaltered_asked name delay w here)
  have deeper : stack ⊆
      .reply (.constant (.text "ok")) :: .holding (.manager here.manager) :: stack :=
    List.Subset.trans (List.subset_cons_self _ _) (List.subset_cons_self _ _)
  refine ⟨_, ?_, staffed.requested mem there name delay⟩
  rw [run_reschedule known manages at_ there grouped positive led]
  exact (((asked.weaken deeper).reaches_send members name delay k.coordinator.node).tail rfl).tail
    rfl

/-- **A request is heeded once by everybody whom it concerns, and does not come back.** In a group
of nodes with any managers and any names, whoever can be reached:

* whoever makes a manager at a node gives it a post there, next to those that there are;
* a request with a negative delay, or for a name that the manager does not know, is refused, and
  nothing else happens;
* any other request is answered with success. By then the manager and those at the nodes that
  take the event have each scheduled one firing if they know the name, one event has been sent,
  nothing else is going to fire, and the group is as before, ready for the next request. -/
theorem asks_each_once (staffed : w.Staffed stack posts) :
    (∀ (name node : String) (scheduler : Option String) (retry : Option (Option RetryPolicy))
        (n : Nat), retry ≠ some none → w.node? node = some n →
        (∃ k, w.nodes[n]? = some k ∧ k.facility = .group) →
        w.names.managers.find? name = none →
      ∃ v m, Reaches ((takeActorStep (.manager name (some node) scheduler retry)).run ⟨w, stack⟩)
          (.give (.answer .nothing), ⟨v, stack⟩) ∧
        v.names.managers.find? name = some m ∧ v.Staffed stack (posts ++ [⟨n, m⟩])) ∧
    ∀ here ∈ posts, ∀ (manager name : String) (delay : Int),
        w.names.managers.find? manager = some here.manager →
      let request := (takeActorStep (.reschedule manager name delay)).run ⟨w, stack⟩
      (delay < 0 →
        Reaches request (.give (.answer (.failure (.error (.invalidDelay delay)))), ⟨w, stack⟩)) ∧
      (0 ≤ delay → w.system.registered? here.manager name = none →
        Reaches request (.give (.answer (.failure (.error (.notRegistered name)))), ⟨w, stack⟩)) ∧
      ∀ n, 0 ≤ delay → w.system.registered? here.manager name = some n →
        ∃ v, Reaches request (.give (.answer (.text "ok")), ⟨v, stack⟩) ∧
          w.Requested v posts here name delay ∧ v.Staffed stack posts := by
  constructor
  · intro name node scheduler retry n decodes at_ ⟨k, there, grouped⟩ free
    obtain ⟨c, further, named, runs, blank, coordinator⟩ :=
      run_manager name scheduler decodes at_ there stack
    refine ⟨_, _, ?_, Bindings.find?_bind w.names.managers name _,
      staffed.takes_post free there grouped blank coordinator further named⟩
    rw [runs]
    exact .refl
  · intro here mem manager name delay known request
    obtain ⟨c, manages, -⟩ := staffed.managed here mem
    refine ⟨fun negative => ?_, fun positive unknown => ?_, fun n positive led => ?_⟩
    · refine .single ?_
      rw [show request = _ from
        run_reschedule_of_error known manages (ActorSystem.wake_of_negative negative _)]
      rfl
    · refine .single ?_
      rw [show request = _ from
        run_reschedule_of_error known manages (ActorSystem.wake_of_unknown positive unknown _)]
      rfl
    · obtain ⟨v, reaches, requested⟩ := staffed.reaches_reschedule mem known positive led
      exact ⟨v, reaches, requested, staffed.lasts requested.rest⟩

end Staffed

/-! ### Four nodes that are watched -/

theorem getElem?_map_range {α : Type} {n m : Nat} (below : m < n) (f : Nat → α) :
    ((List.range n).map f)[m]? = some (f m) := by
  rw [List.getElem?_map, List.getElem?_range below]
  rfl

theorem of_getElem?_map_range {α : Type} {n m : Nat} {f : Nat → α} {a : α}
    (found : ((List.range n).map f)[m]? = some a) : m < n ∧ a = f m := by
  have below : m < n := by simpa using (List.getElem?_eq_some_iff.mp found).1
  rw [getElem?_map_range below] at found
  exact ⟨below, (Option.some.inj found).symm⟩

/-- What observes a member of `watched`. -/
def earOf (n : Nat) : Callback :=
  ⟨"ear", .event (["a", "b", "c", "d"].getD n ""), ⟨[], 0, false⟩, 0⟩

/-- The nodes of `quartet`, each with somebody who takes notes of what arrives there. -/
def watched : World :=
  { quartet with
    group := ⟨(List.range 4).map fun n =>
      ⟨addressOf n, n != 3, [.refresh n], [.listeners n, .callback n]⟩⟩
    callbacks := (List.range 4).map earOf }

def postsOfQuartet : List Post := [⟨0, 0⟩, ⟨1, 1⟩, ⟨2, 2⟩, ⟨3, 3⟩]

theorem mem_postsOfQuartet {p : Post} :
    p ∈ postsOfQuartet ↔ p = ⟨0, 0⟩ ∨ p = ⟨1, 1⟩ ∨ p = ⟨2, 2⟩ ∨ p = ⟨3, 3⟩ := by
  simp [postsOfQuartet]

theorem staffed_watched : watched.Staffed [] postsOfQuartet where
  apart := by decide
  managed := by
    intro p mem
    rcases mem_postsOfQuartet.mp mem with rfl | rfl | rfl | rfl <;> exact ⟨_, rfl, rfl⟩
  lives := by
    intro p mem
    rcases mem_postsOfQuartet.mp mem with rfl | rfl | rfl | rfl <;> rfl
  grouped := by
    intro p mem
    rcases mem_postsOfQuartet.mp mem with rfl | rfl | rfl | rfl <;> exact ⟨_, rfl, rfl⟩
  leads := by
    intro m n name led
    obtain ⟨c, manages, leads⟩ := Option.bind_eq_some_iff.mp led
    obtain ⟨below, rfl⟩ := of_getElem?_map_range manages
    obtain ⟨b, found, rfl⟩ := Option.map_eq_some_iff.mp leads
    obtain rfl := List.mem_singleton.mp (List.mem_of_find?_eq_some found)
    exact ⟨Entry.ofActor "worker" m, getElem?_map_range below _, rfl⟩
  listens := by
    intro n k found
    obtain ⟨rfl | rfl | rfl | rfl, rfl⟩ := node_quartet found <;> rfl
  narrow := by
    intro n k found s mem
    obtain ⟨-, rfl⟩ := node_quartet found
    rcases List.mem_cons.mp mem with rfl | mem
    · exact ⟨nofun, nofun⟩
    · rw [List.mem_singleton.mp mem]
      exact ⟨nofun, nofun⟩
  members := by
    intro m mem n sink
    obtain ⟨i, below, rfl⟩ := List.mem_map.mp mem
    obtain rfl : n = i := by simpa using sink
    exact ⟨nodeOf n, getElem?_map_range (List.mem_range.mp below) _, rfl⟩
  once := by decide
  observers := by
    intro m mem c sink
    obtain ⟨i, below, rfl⟩ := List.mem_map.mp mem
    obtain rfl : c = i := by simpa using sink
    exact ⟨earOf c, getElem?_map_range (List.mem_range.mp below) _, rfl, rfl⟩

theorem takes_watched {n : Nat} : watched.Takes 0 n ↔ n = 1 ∨ n = 2 := by
  constructor
  · rintro ⟨m, mem, sink, reachable, other⟩
    obtain ⟨i, below, rfl⟩ := List.mem_map.mp mem
    obtain rfl : n = i := by simpa using sink
    have := List.mem_range.mp below
    have : n ≠ 3 := by simpa using reachable
    have : n ≠ 0 := by
      rintro rfl
      exact other _ rfl rfl
    omega
  · rintro (rfl | rfl)
    · refine ⟨_, List.mem_map_of_mem (List.mem_range.mpr (by decide : 1 < 4)),
        List.mem_cons_self, rfl, ?_⟩
      rintro k ⟨⟩
      decide
    · refine ⟨_, List.mem_map_of_mem (List.mem_range.mpr (by decide : 2 < 4)),
        List.mem_cons_self, rfl, ?_⟩
      rintro k ⟨⟩
      decide

theorem concerns_watched {n : Nat} :
    watched.Concerns postsOfQuartet ⟨0, 0⟩ ⟨n, n⟩ ↔ n = 0 ∨ n = 1 ∨ n = 2 := by
  rw [Concerns, takes_watched, mem_postsOfQuartet]
  simp only [Post.mk.injEq, and_self]
  omega

/-- What comes of a request at the first node: the first two managers schedule a firing, for which
the timer may not be too long, the third and the last none. -/
theorem firings_watched {v : World} {delay : Int}
    (requested : watched.Requested v postsOfQuartet ⟨0, 0⟩ "worker" delay) :
    (∀ n, n = 0 ∨ n = 1 → watched.system.OneMore v.system n n n
        (0 + min delay.toNat Duration.longestTimer)) ∧
      ∀ n, n = 2 ∨ n = 3 → ∀ j, v.system.firingsOn j n n = watched.system.firingsOn j n n := by
  refine ⟨fun n one => ?_, fun n none j => requested.keeps n n (fun p concerned manager => ?_) j⟩
  · have concerned : watched.Concerns postsOfQuartet ⟨0, 0⟩ ⟨n, n⟩ :=
      concerns_watched.mpr (by omega)
    rcases one with rfl | rfl <;>
      exact requested.fires _ concerned _ _ rfl rfl ⟨by decide, rfl⟩
  · rintro ⟨-, -, c, manages, live⟩
    obtain ⟨-, rfl⟩ := of_getElem?_map_range manages
    rcases none with rfl | rfl
    · cases live.open_
    · -- The last cannot be reached.
      have among : p ∈ postsOfQuartet := by
        rcases concerned with rfl | ⟨among, -⟩
        · decide
        · exact among
      rcases mem_postsOfQuartet.mp among with rfl | rfl | rfl | rfl <;> cases manager
      simpa using concerns_watched.mp concerned

/-- A run is asked for after a second. The first two managers get a timer for it. The third is
asked as well, but its scheduler accepts no timers. The last cannot be reached. Those who take
notes hear of it where it arrives, once. -/
theorem watched_asks_each_once :
    ∃ v, Reaches ((takeActorStep (.reschedule "a" "worker" 1000)).run ⟨watched, []⟩)
        (.give (.answer (.text "ok")), ⟨v, []⟩) ∧
      watched.system.OneMore v.system 0 0 0 1000 ∧ watched.system.OneMore v.system 1 1 1 1000 ∧
      (∀ j, v.system.firingsOn j 2 2 = watched.system.firingsOn j 2 2) ∧
      (∀ j, v.system.firingsOn j 3 3 = watched.system.firingsOn j 3 3) ∧
      v.notices =
        [.heard "ear" "b" ((Event.rescheduleActor "worker" 1000).withOrigin (addressOf 0)),
          .heard "ear" "c" ((Event.rescheduleActor "worker" 1000).withOrigin (addressOf 0))] := by
  obtain ⟨-, requests⟩ := staffed_watched.asks_each_once
  obtain ⟨-, -, heeded⟩ := requests ⟨0, 0⟩ (by decide) "a" "worker" 1000 rfl
  obtain ⟨v, reaches, requested, -⟩ := heeded 0 (by decide) rfl
  obtain ⟨timers, none⟩ := firings_watched requested
  exact ⟨v, reaches, timers 0 (.inl rfl), timers 1 (.inr rfl), none 2 (.inl rfl),
    none 3 (.inr rfl), requested.sent _ rfl⟩

/-- A run is asked for after forty years of 365 days. The second manager has its new firing after
thirty years, and the third, whose scheduler has been stopped, has none, although both know the
name and are asked. -/
theorem watched_asks_early_or_never :
    let forty : Nat := 40 * 365 * 86400000
    let thirty : Nat := 30 * 365 * 86400000
    (watched.Concerns postsOfQuartet ⟨0, 0⟩ ⟨1, 1⟩ ∧
        watched.system.registered? 1 "worker" = some 1) ∧
      (watched.Concerns postsOfQuartet ⟨0, 0⟩ ⟨2, 2⟩ ∧
        watched.system.registered? 2 "worker" = some 2) ∧
      ∃ v, Reaches ((takeActorStep (.reschedule "a" "worker" forty)).run ⟨watched, []⟩)
          (.give (.answer (.text "ok")), ⟨v, []⟩) ∧
        watched.system.OneMore v.system 1 1 1 thirty ∧
        ¬ watched.system.OneMore v.system 1 1 1 forty ∧
        ∀ due, ¬ watched.system.OneMore v.system 2 2 2 due := by
  intro forty thirty
  have known : watched.names.managers.find? "a" = some 0 := rfl
  have led : watched.system.registered? 0 "worker" = some 0 := rfl
  have first : (⟨0, 0⟩ : Post) ∈ postsOfQuartet := by decide
  obtain ⟨v, reaches, requested⟩ :=
    staffed_watched.reaches_reschedule first known (Int.natCast_nonneg forty) led
  obtain ⟨timers, none⟩ := firings_watched requested
  have capped : 0 + min (forty : Int).toNat Duration.longestTimer = thirty := by
    simp only [forty, thirty, Duration.longestTimer]
    omega
  have second := timers 1 (.inr rfl)
  rw [capped] at second
  refine ⟨⟨concerns_watched.mpr (by omega), rfl⟩, ⟨concerns_watched.mpr (by omega), rfl⟩, v,
    reaches, second, ?_, ?_⟩
  · rintro ⟨_, other, -⟩
    obtain ⟨_, one, -⟩ := second
    obtain ⟨same, -⟩ := List.cons.inj (one.symm.trans other)
    have early : thirty ≠ forty := by
      simp only [forty, thirty]
      omega
    exact early (congrArg Job.due same)
  · rintro due ⟨_, one, -⟩
    rw [none 2 (.inl rfl) 2] at one
    cases one

end World

end RecurringWork.Simulation
