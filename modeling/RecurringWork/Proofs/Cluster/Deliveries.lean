import Mathlib.Data.List.Range
import Mathlib.Logic.Relation
import RecurringWork.Cluster.Coordinator

/-!
# RecurringWork.Proofs.Cluster.Deliveries

**In which order a listener sees the views of a node.** Handing a view out means calling one
listener after the other, and a listener may do anything while it is called: bring about a
change, upon which the next view is published and handed out in the middle of the first, or
have another listener added. A `Relay` is a node in the middle of this, with the views that
are being handed out one inside of the other.

What a listener has seen and what is still in store for it make up its *course* of views
(`Relay.course`). Calling listeners only moves views from the one part to the other; a change
puts its view in between (`Relay.course_changes`). So a listener sees the views in order unless
a change comes while one is in store for it, and then it does not: the older view is handed to
it after the newer one (`Relay.Reachable.seen_in_order_iff`). This can happen only to listeners
that come after one that brings changes about.
-/

namespace RecurringWork

namespace Coordinator

variable {α β : Type}

/-- The published view is the last that was handed to the listeners. -/
def UpToDate (c : Coordinator α β) : Prop := c.delivered = c.view.version

theorem upToDate_start (node : Address) (members : List Address) (isCoordinator : Bool) :
    (start node members isCoordinator : Coordinator α β).UpToDate := rfl

/-- The node once it has published its next view and begun to hand it out. -/
def republished (c : Coordinator α β) (members : List Address) (isCoordinator : Bool) :
    Coordinator α β :=
  { c with
    view := .compute c.node members isCoordinator (c.view.version + 1)
    delivered := c.view.version + 1 }

/-- The published view goes to all listeners if it is newer than the last that did. -/
theorem deliver?_of_newer {c : Coordinator α β} {v : View} (unseen : c.delivered < v.version)
    (current : c.view.version ≤ v.version) :
    c.deliver? v = some (c.viewListeners, { c with delivered := v.version }) := by
  unfold deliver?
  rw [if_neg]
  rw [Bool.or_eq_true, decide_eq_true_eq, decide_eq_true_eq]
  omega

theorem UpToDate.republish? {c : Coordinator α β} (h : c.UpToDate) (members : List Address)
    (isCoordinator : Bool) : c.republish? c.view.version members isCoordinator =
      some (c.viewListeners, c.republished members isCoordinator) := by
  unfold UpToDate at h
  unfold Coordinator.republish? publish?
  rw [if_pos rfl, Option.map_some, deliver?_of_newer]
  · rfl
  · simp only [View.compute]
    omega
  · exact Nat.le_refl _

/-- **Whatever is published is the next view, and goes to all listeners.** -/
theorem UpToDate.republish?_inv {c d : Coordinator α β} (h : c.UpToDate) {previous : Nat}
    {members : List Address} {isCoordinator : Bool} {listeners : List α}
    (published : c.republish? previous members isCoordinator = some (listeners, d)) :
    listeners = c.viewListeners ∧ d.viewListeners = c.viewListeners ∧
      d.view.version = c.view.version + 1 ∧ d.UpToDate := by
  have current : c.view.version = previous := by
    by_contra other
    simp [Coordinator.republish?, publish?, other] at published
  subst current
  rw [h.republish?] at published
  cases published
  exact ⟨rfl, rfl, rfl, rfl⟩

end Coordinator

/-- A view that is being handed out. -/
structure Handout where
  view : View
  /-- The listener that has been called and has not returned. -/
  called : Option Nat
  /-- The listeners that will be called with it. -/
  rest : List Nat

/-- A node in the middle of handing out views. Its listeners are numbered in the order in which
they were added. -/
structure Relay (β : Type) where
  coordinator : Coordinator Nat β
  /-- What is being handed out, each while a listener of the next is called. -/
  handouts : List Handout
  /-- Who was called with which view, the last call first. -/
  calls : List (Nat × View)
  /-- The listeners for which a view was in store when a newer one was published. -/
  overtaken : List Nat
  /-- The listeners during whose calls views were published. -/
  restless : List Nat

namespace Relay

variable {β : Type}

/-- A node that has just been started. -/
def start (node : Address) (members : List Address) (isCoordinator : Bool) : Relay β :=
  ⟨.start node members isCoordinator, [], [], [], []⟩

/-- The listeners for which a view is in store. -/
def waiting (hs : List Handout) : List Nat := hs.flatMap Handout.rest

/-- The listeners that have been called and have not returned. -/
def busy (hs : List Handout) : List Nat := hs.filterMap Handout.called

/-- Nothing is being handed out, or a listener has been called and may do what it likes. -/
def Free (hs : List Handout) : Prop := ∀ h ∈ hs.head?, h.called.isSome

/-- One thing that happens. -/
inductive Step : Relay β → Relay β → Prop
  /-- The membership changes. Changes that come while the members are asked for have come
  before. -/
  | changes {c d : Coordinator Nat β} {hs : List Handout} {calls : List (Nat × View)}
      {overtaken restless : List Nat} {previous : Nat} {members : List Address}
      {isCoordinator : Bool} {listeners : List Nat} : Free hs →
      c.republish? previous members isCoordinator = some (listeners, d) →
      Step ⟨c, hs, calls, overtaken, restless⟩
        ⟨d, ⟨d.view, none, listeners⟩ :: hs, calls, waiting hs ++ overtaken, busy hs ++ restless⟩
  /-- A listener is added, which is to see the published view at once. -/
  | adds {c : Coordinator Nat β} {hs : List Handout} {calls : List (Nat × View)}
      {overtaken restless : List Nat} : Free hs →
      Step ⟨c, hs, calls, overtaken, restless⟩
        ⟨c.listen c.viewListeners.length, ⟨c.view, none, [c.viewListeners.length]⟩ :: hs, calls,
          overtaken, restless⟩
  /-- A listener is called. -/
  | calls {c : Coordinator Nat β} {v : View} {n : Nat} {rest : List Nat} {hs : List Handout}
      {calls : List (Nat × View)} {overtaken restless : List Nat} :
      Step ⟨c, ⟨v, none, n :: rest⟩ :: hs, calls, overtaken, restless⟩
        ⟨c, ⟨v, some n, rest⟩ :: hs, (n, v) :: calls, overtaken, restless⟩
  /-- A listener returns. -/
  | returns {c : Coordinator Nat β} {v : View} {n : Nat} {rest : List Nat} {hs : List Handout}
      {calls : List (Nat × View)} {overtaken restless : List Nat} :
      Step ⟨c, ⟨v, some n, rest⟩ :: hs, calls, overtaken, restless⟩
        ⟨c, ⟨v, none, rest⟩ :: hs, calls, overtaken, restless⟩
  /-- A view has been handed out. -/
  | ends {c : Coordinator Nat β} {v : View} {hs : List Handout} {calls : List (Nat × View)}
      {overtaken restless : List Nat} :
      Step ⟨c, ⟨v, none, []⟩ :: hs, calls, overtaken, restless⟩
        ⟨c, hs, calls, overtaken, restless⟩

/-- Any number of things that happen one after the other. -/
abbrev Steps : Relay β → Relay β → Prop := Relation.ReflTransGen Step

/-- What can come of a node that has just been started. -/
def Reachable (r : Relay β) : Prop :=
  ∃ node members isCoordinator, Steps (start node members isCoordinator) r

/-! ### The course of a listener -/

/-- The views that a listener has been called with, the last one first. -/
def seen (r : Relay β) (n : Nat) : List View :=
  (r.calls.filter fun p => p.1 = n).map Prod.snd

/-- The views that are in store for a listener, the next one first. -/
def inStore (hs : List Handout) (n : Nat) : List View :=
  (hs.filter fun h => n ∈ h.rest).map Handout.view

/-- What a listener sees in the end if nothing else changes, the last view first. -/
def course (r : Relay β) (n : Nat) : List View := (inStore r.handouts n).reverse ++ r.seen n

/-- Each view is newer than those before it. -/
def NewestFirst (vs : List View) : Prop := vs.Pairwise fun v w => w.version < v.version

/-- A view that is newer than all others belongs before them all. -/
theorem newestFirst_insert {before after : List View} {v : View}
    (newer : ∀ w ∈ before ++ after, w.version < v.version) :
    NewestFirst (before ++ v :: after) ↔ before = [] ∧ NewestFirst after := by
  constructor
  · intro ordered
    obtain ⟨-, rest, across⟩ := List.pairwise_append.mp ordered
    refine ⟨List.eq_nil_iff_forall_not_mem.mpr fun w mem => ?_, (List.pairwise_cons.mp rest).2⟩
    have older := newer w (List.mem_append_left _ mem)
    have newer := across w mem v List.mem_cons_self
    omega
  · rintro ⟨rfl, ordered⟩
    exact List.pairwise_cons.mpr ⟨newer, ordered⟩

theorem inStore_cons (h : Handout) (hs : List Handout) (n : Nat) :
    inStore (h :: hs) n = (if n ∈ h.rest then [h.view] else []) ++ inStore hs n := by
  unfold inStore
  by_cases mem : n ∈ h.rest <;> simp [mem]

theorem inStore_eq_nil_iff {hs : List Handout} {n : Nat} :
    inStore hs n = [] ↔ n ∉ waiting hs := by
  simp [inStore, waiting]

theorem seen_sublist_course (r : Relay β) (n : Nat) : (r.seen n).Sublist (r.course n) :=
  List.sublist_append_right _ _

/-- Once nothing is in store any more, the course is what was seen. -/
theorem course_of_rest {r : Relay β} (rest : r.handouts = []) (n : Nat) :
    r.course n = r.seen n := by
  simp [course, inStore, rest]

variable {c d : Coordinator Nat β} {hs : List Handout} {calls : List (Nat × View)}
  {overtaken overtaken' restless restless' : List Nat}

/-- **To call a listener is to show it what was in store for it.** -/
theorem course_calls {v : View} {n : Nat} {rest : List Nat} (once : n ∉ rest) (m : Nat) :
    (⟨c, ⟨v, some n, rest⟩ :: hs, (n, v) :: calls, overtaken, restless⟩ : Relay β).course m =
      (⟨c, ⟨v, none, n :: rest⟩ :: hs, calls, overtaken, restless⟩ : Relay β).course m := by
  simp only [course, seen, inStore_cons, List.mem_cons, List.filter_cons]
  by_cases same : m = n
  · subst same
    simp [once]
  · simp [same, Ne.symm same]

/-- **A change puts the new view before all that is in store.** -/
theorem course_changes {listeners : List Nat} {n : Nat} (mem : n ∈ listeners) :
    (⟨d, ⟨d.view, none, listeners⟩ :: hs, calls, overtaken', restless'⟩ : Relay β).course n =
      (inStore hs n).reverse ++ d.view ::
        (⟨c, hs, calls, overtaken, restless⟩ : Relay β).seen n := by
  simp [course, inStore_cons, mem, seen]

/-- Whoever is not told of it has the course that it had. -/
theorem course_cons_of_not_mem {o : Handout} {n : Nat} (other : n ∉ o.rest) :
    (⟨d, o :: hs, calls, overtaken', restless'⟩ : Relay β).course n =
      (⟨c, hs, calls, overtaken, restless⟩ : Relay β).course n := by
  simp [course, inStore_cons, other, seen]

/-! ### Every relay -/

/-- Handouts are nested in calls, and the course of a listener is in order unless the listener
was overtaken. -/
structure Sound (r : Relay β) : Prop where
  upToDate : r.coordinator.UpToDate
  numbered : r.coordinator.viewListeners = List.range r.coordinator.viewListeners.length
  ascending : ∀ h ∈ r.handouts, (h.called.toList ++ h.rest).Pairwise (· < ·)
  nested : ∀ h ∈ r.handouts.tail, h.called.isSome
  unknown : ∀ n, r.coordinator.viewListeners.length ≤ n → r.course n = [] ∧ n ∉ r.overtaken
  published : ∀ n, ∀ v ∈ r.course n, v.version ≤ r.coordinator.view.version
  in_order : ∀ n < r.coordinator.viewListeners.length, n ∉ r.overtaken →
    NewestFirst (r.course n) ∧ (r.course n).head? = some r.coordinator.view
  out_of_order : ∀ n ∈ r.overtaken, ¬NewestFirst (r.course n)
  restless : ∀ n ∈ r.overtaken, ∃ m ∈ r.restless, m < n

theorem sound_start (node : Address) (members : List Address) (isCoordinator : Bool) :
    (start node members isCoordinator : Relay β).Sound where
  upToDate := Coordinator.upToDate_start node members isCoordinator
  numbered := rfl
  ascending := fun h mem => by cases mem
  nested := fun h mem => by cases mem
  unknown := fun n _ => ⟨rfl, List.not_mem_nil⟩
  published := fun n v mem => by cases mem
  in_order := fun n asked => absurd asked (Nat.not_lt_zero n)
  out_of_order := fun n mem => by cases mem
  restless := fun n mem => by cases mem

/-- When something changes, all that is being handed out waits for a call. -/
theorem Sound.called {r : Relay β} (h : r.Sound) (free : Free r.handouts) :
    ∀ o ∈ r.handouts, o.called.isSome := by
  intro o mem
  cases shape : r.handouts with
  | nil =>
      rw [shape] at mem
      cases mem
  | cons first others =>
      rw [shape] at mem
      rcases List.mem_cons.mp mem with rfl | mem
      · exact free o (by simp [shape])
      · exact h.nested o (by rwa [shape])

/-- Whoever is overtaken comes after a listener that is being called. -/
theorem Sound.exists_busy {r : Relay β} (h : r.Sound) (free : Free r.handouts) {n : Nat}
    (mem : n ∈ waiting r.handouts) : ∃ m ∈ busy r.handouts, m < n := by
  obtain ⟨o, here, later⟩ := List.mem_flatMap.mp mem
  obtain ⟨m, called⟩ := Option.isSome_iff_exists.mp (h.called free o here)
  refine ⟨m, List.mem_filterMap.mpr ⟨o, here, called⟩, ?_⟩
  have ascending := h.ascending o here
  rw [called] at ascending
  exact (List.pairwise_cons.mp ascending).1 n later

theorem Sound.changes {previous : Nat} {members : List Address} {isCoordinator : Bool}
    {listeners : List Nat} (h : (⟨c, hs, calls, overtaken, restless⟩ : Relay β).Sound)
    (free : Free hs)
    (published : c.republish? previous members isCoordinator = some (listeners, d)) :
    (⟨d, ⟨d.view, none, listeners⟩ :: hs, calls, waiting hs ++ overtaken,
      busy hs ++ restless⟩ : Relay β).Sound := by
  let r : Relay β := ⟨c, hs, calls, overtaken, restless⟩
  have current : c.UpToDate := h.upToDate
  obtain ⟨rfl, same, next, upToDate⟩ := current.republish?_inv published
  have length : d.viewListeners.length = c.viewListeners.length := by rw [same]
  have asked : ∀ n, n ∈ c.viewListeners ↔ n < c.viewListeners.length := by
    intro n
    rw [h.numbered, List.mem_range, ← h.numbered]
  have newer : ∀ n, ∀ w ∈ r.course n, w.version < d.view.version := by
    intro n w mem
    have bound : w.version ≤ c.view.version := h.published n w mem
    omega
  have known : ∀ n, n ∉ c.viewListeners → n ∉ waiting hs ++ overtaken := by
    intro n other mem
    obtain ⟨nothing, kept⟩ := h.unknown n (Nat.not_lt.mp fun lt => other ((asked n).mpr lt))
    rcases List.mem_append.mp mem with waits | before
    · refine absurd waits (inStore_eq_nil_iff.mp ?_)
      exact List.reverse_eq_nil_iff.mp (List.append_eq_nil_iff.mp nothing).1
    · exact kept before
  constructor
  · exact upToDate
  · rw [same]
    exact h.numbered
  · intro o mem
    rcases List.mem_cons.mp mem with rfl | mem
    · show (c.viewListeners).Pairwise (· < ·)
      rw [h.numbered]
      exact List.pairwise_lt_range
    · exact h.ascending o mem
  · exact h.called free
  · intro n beyond
    have other : n ∉ c.viewListeners := by
      rw [asked, ← length]
      exact Nat.not_lt.mpr beyond
    rw [course_cons_of_not_mem other]
    exact ⟨(h.unknown n (length ▸ beyond)).1, known n other⟩
  · intro n v mem
    by_cases told : n ∈ c.viewListeners
    · rw [course_changes told, List.mem_append, List.mem_cons] at mem
      rcases mem with old | rfl | old
      · exact (newer n v (List.mem_append_left _ old)).le
      · exact le_rfl
      · exact (newer n v (List.mem_append_right _ old)).le
    · rw [course_cons_of_not_mem told] at mem
      exact (newer n v mem).le
  · intro n lt kept
    have told : n ∈ c.viewListeners := (asked n).mpr (length ▸ lt)
    obtain ⟨idle, before⟩ := not_or.mp fun mem => kept (List.mem_append.mpr mem)
    have nothing : inStore hs n = [] := inStore_eq_nil_iff.mpr idle
    obtain ⟨ordered, -⟩ := h.in_order n ((asked n).mp told) before
    have seen : r.course n = r.seen n := by
      show (inStore hs n).reverse ++ _ = _
      rw [nothing, List.reverse_nil, List.nil_append]
    rw [course_changes told, nothing]
    exact ⟨(newestFirst_insert (by simpa [seen] using newer n)).mpr ⟨rfl, seen ▸ ordered⟩, rfl⟩
  · intro n mem ordered
    have told : n ∈ c.viewListeners := by
      by_contra other
      exact known n other mem
    -- Only a view for which nothing else is in store comes in order.
    rw [course_changes told, newestFirst_insert (newer n), List.reverse_eq_nil_iff] at ordered
    obtain ⟨nothing, ordered⟩ := ordered
    rcases List.mem_append.mp mem with waits | before
    · exact absurd waits (inStore_eq_nil_iff.mp nothing)
    · refine h.out_of_order n before ?_
      show NewestFirst ((inStore hs n).reverse ++ _)
      rw [nothing]
      exact ordered
  · intro n mem
    rcases List.mem_append.mp mem with waits | before
    · obtain ⟨m, mem, lt⟩ := h.exists_busy free waits
      exact ⟨m, List.mem_append_left _ mem, lt⟩
    · obtain ⟨m, mem, lt⟩ := h.restless n before
      exact ⟨m, List.mem_append_right _ mem, lt⟩

/-- The course of a new listener begins with the published view. -/
theorem Sound.adds (h : (⟨c, hs, calls, overtaken, restless⟩ : Relay β).Sound) (free : Free hs) :
    (⟨c.listen c.viewListeners.length, ⟨c.view, none, [c.viewListeners.length]⟩ :: hs, calls,
      overtaken, restless⟩ : Relay β).Sound := by
  let r : Relay β := ⟨c, hs, calls, overtaken, restless⟩
  let k := c.viewListeners.length
  let r' : Relay β := ⟨c.listen k, ⟨c.view, none, [k]⟩ :: hs, calls, overtaken, restless⟩
  have length : r'.coordinator.viewListeners.length = k + 1 := by
    simp [r', Coordinator.listen, k]
  obtain ⟨nothing, unasked⟩ := h.unknown k le_rfl
  have others : ∀ n, n ≠ k → r'.course n = r.course n := fun n other =>
    course_cons_of_not_mem (by simpa using other)
  have first : r'.course k = [c.view] := by
    obtain ⟨store, seen⟩ := List.append_eq_nil_iff.mp nothing
    show (inStore _ k).reverse ++ r.seen k = _
    rw [inStore_cons, if_pos List.mem_cons_self, List.reverse_append, store, seen]
    rfl
  constructor
  · exact h.upToDate
  · show c.viewListeners ++ [k] = List.range r'.coordinator.viewListeners.length
    rw [length, List.range_succ, ← h.numbered]
  · intro o mem
    rcases List.mem_cons.mp mem with rfl | mem
    · exact List.pairwise_singleton _ _
    · exact h.ascending o mem
  · exact h.called free
  · intro n beyond
    have beyond : k + 1 ≤ n := length ▸ beyond
    rw [others n (by omega)]
    exact h.unknown n (show k ≤ n by omega)
  · intro n v mem
    by_cases new : n = k
    · subst new
      rw [first, List.mem_singleton] at mem
      exact (congrArg View.version mem).le
    · rw [others n new] at mem
      exact h.published n v mem
  · intro n lt kept
    by_cases new : n = k
    · subst new
      rw [first]
      exact ⟨List.pairwise_singleton _ _, rfl⟩
    · have lt : n < k + 1 := length ▸ lt
      rw [others n new]
      exact h.in_order n (show n < k by omega) kept
  · intro n mem
    have old : n ≠ k := fun same => unasked (same ▸ mem)
    rw [others n old]
    exact h.out_of_order n mem
  · exact h.restless

/-- Nothing is lost of what is known as long as nothing changes but who is being called. -/
theorem Sound.of_course {hs' : List Handout} {calls' : List (Nat × View)}
    (h : (⟨c, hs, calls, overtaken, restless⟩ : Relay β).Sound)
    (ascending : ∀ o ∈ hs', (o.called.toList ++ o.rest).Pairwise (· < ·))
    (nested : ∀ o ∈ hs'.tail, o.called.isSome)
    (course : ∀ n, (⟨c, hs', calls', overtaken, restless⟩ : Relay β).course n =
      (⟨c, hs, calls, overtaken, restless⟩ : Relay β).course n) :
    (⟨c, hs', calls', overtaken, restless⟩ : Relay β).Sound where
  upToDate := h.upToDate
  numbered := h.numbered
  ascending := ascending
  nested := nested
  unknown := fun n beyond => course n ▸ h.unknown n beyond
  published := fun n v mem => h.published n v (course n ▸ mem)
  in_order := fun n lt kept => course n ▸ h.in_order n lt kept
  out_of_order := fun n mem => course n ▸ h.out_of_order n mem
  restless := h.restless

/-- **Every step keeps the courses of the listeners in order**, but for those that are
overtaken. -/
theorem Sound.step {r s : Relay β} (h : r.Sound) (st : Step r s) : s.Sound := by
  cases st with
  | changes free published => exact h.changes free published
  | adds free => exact h.adds free
  | @calls c v n rest hs calls overtaken restless =>
      have here := h.ascending _ List.mem_cons_self
      have once : n ∉ rest := fun mem => Nat.lt_irrefl n ((List.pairwise_cons.mp here).1 n mem)
      refine h.of_course ?_ h.nested (course_calls once)
      intro o mem
      rcases List.mem_cons.mp mem with rfl | mem
      · exact here
      · exact h.ascending o (List.mem_cons_of_mem _ mem)
  | @returns c v n rest hs calls overtaken restless =>
      have here := h.ascending _ List.mem_cons_self
      refine h.of_course ?_ h.nested fun n => by simp only [course, seen, inStore_cons]
      intro o mem
      rcases List.mem_cons.mp mem with rfl | mem
      · exact (List.pairwise_cons.mp here).2
      · exact h.ascending o (List.mem_cons_of_mem _ mem)
  | @ends c v hs calls overtaken restless =>
      refine h.of_course (fun o mem => h.ascending o (List.mem_cons_of_mem _ mem))
        (fun o mem => h.nested o (List.mem_of_mem_tail mem)) fun n => ?_
      exact (course_cons_of_not_mem List.not_mem_nil).symm

theorem Reachable.sound {r : Relay β} (h : r.Reachable) : r.Sound := by
  obtain ⟨node, members, isCoordinator, run⟩ := h
  induction run with
  | refl => exact sound_start node members isCoordinator
  | tail _ st ih => exact ih.step st

/-- **A listener sees the views in order exactly if none was in store for it when a newer one was
published**, and then the last that it sees is the published one. Whoever is overtaken comes
after a listener during whose call a view was published; so the first listener never is, nor is
anybody as long as listeners leave the membership alone. -/
theorem Reachable.seen_in_order_iff {r : Relay β} (h : r.Reachable) {n : Nat}
    (added : n < r.coordinator.viewListeners.length) :
    (n ∉ r.overtaken → NewestFirst (r.seen n)) ∧
      (r.handouts = [] →
        (NewestFirst (r.seen n) ↔ n ∉ r.overtaken) ∧
          (n ∉ r.overtaken → (r.seen n).head? = some r.coordinator.view)) ∧
      (n ∈ r.overtaken → ∃ m ∈ r.restless, m < n) := by
  have sound := h.sound
  have ordered : n ∉ r.overtaken → NewestFirst (r.seen n) := fun kept =>
    (sound.in_order n added kept).1.sublist (r.seen_sublist_course n)
  refine ⟨ordered, fun rest => ?_, sound.restless n⟩
  rw [← course_of_rest rest n] at ordered ⊢
  exact ⟨⟨fun inOrder mem => sound.out_of_order n mem inOrder, ordered⟩,
    fun kept => (sound.in_order n added kept).2⟩

/-- Listeners that leave the membership alone are called one after the other. -/
theorem steps_handOut (c : Coordinator Nat β) (v : View) (listeners : List Nat)
    (hs : List Handout) (calls : List (Nat × View)) (overtaken restless : List Nat) :
    Steps ⟨c, ⟨v, none, listeners⟩ :: hs, calls, overtaken, restless⟩
      ⟨c, hs, (listeners.map fun n => (n, v)).reverse ++ calls, overtaken, restless⟩ := by
  induction listeners generalizing calls with
  | nil => exact .single .ends
  | cons n rest ih =>
      rw [List.map_cons, List.reverse_cons, List.append_assoc]
      exact ((ih ((n, v) :: calls)).head .returns).head .calls

/-- A listener is added that does no more than look at the published view. -/
theorem steps_add (c : Coordinator Nat β) (calls : List (Nat × View))
    (overtaken restless : List Nat) :
    Steps ⟨c, [], calls, overtaken, restless⟩
      ⟨c.listen c.viewListeners.length, [], (c.viewListeners.length, c.view) :: calls, overtaken,
        restless⟩ :=
  (steps_handOut _ c.view [c.viewListeners.length] [] calls overtaken restless).head
    (.adds fun _ none => by cases none)

def member : Address := ⟨.localhost, 7000⟩

/-- Two listeners have been added, and both have seen the first view. -/
def twoListeners : Relay Unit :=
  let c : Coordinator Nat Unit := .start member [member] true
  ⟨(c.listen 0).listen 1, [], [(1, c.view), (0, c.view)], [], []⟩

/-- The next view is to be handed to both of them. -/
def oneChange : Relay Unit :=
  let d := twoListeners.coordinator.republished [member] true
  ⟨d, [⟨d.view, none, [0, 1]⟩], twoListeners.calls, [], []⟩

theorem steps_oneChange : Steps (start member [member] true) oneChange := by
  let c : Coordinator Nat Unit := .start member [member] true
  have first : Steps (start member [member] true) ⟨c.listen 0, [], [(0, c.view)], [], []⟩ :=
    steps_add c [] [] []
  have second : Steps ⟨c.listen 0, [], [(0, c.view)], [], []⟩ twoListeners :=
    steps_add (c.listen 0) [(0, c.view)] [] []
  have current : twoListeners.coordinator.UpToDate := rfl
  have change : Step twoListeners oneChange :=
    .changes (fun _ none => by cases none) (current.republish? [member] true)
  exact (first.trans second).tail change

/-- Both listeners do no more than look at the views. -/
theorem seen_in_order_of_oneChange :
    let v := oneChange.coordinator.view
    let last : Relay Unit :=
      ⟨oneChange.coordinator, [], (1, v) :: (0, v) :: twoListeners.calls, [], []⟩
    last.Reachable ∧ 1 < last.coordinator.viewListeners.length ∧
      (last.seen 1).map View.version = [2, 1] ∧ NewestFirst (last.seen 1) ∧
      (last.seen 1).head? = some v := by
  intro v last
  have reachable : last.Reachable := ⟨_, _, _, steps_oneChange.trans (steps_handOut _ _ _ _ _ _ _)⟩
  obtain ⟨ordered, atRest, -⟩ := reachable.seen_in_order_iff (n := 1) (by decide)
  exact ⟨reachable, by decide, rfl, ordered List.not_mem_nil, (atRest rfl).2 List.not_mem_nil⟩

/-- The first of two listeners brings about another change when it sees the second view. The
other one sees the third view before the second. -/
theorem seen_out_of_order :
    ∃ r : Relay Unit, r.Reachable ∧ r.handouts = [] ∧ r.coordinator.view.version = 3 ∧
      (r.seen 0).map View.version = [3, 2, 1] ∧ (r.seen 1).map View.version = [2, 3, 1] := by
  have called := steps_oneChange.tail .calls
  have current : oneChange.coordinator.UpToDate := rfl
  have again := called.tail (.changes (fun o mem => by cases mem; rfl)
    (current.republish? [member] true))
  have inner := again.trans (steps_handOut _ _ _ _ _ _ _)
  have outer := (inner.tail .returns).trans (steps_handOut _ _ _ _ _ _ _)
  exact ⟨_, ⟨_, _, _, outer⟩, rfl, rfl, rfl, rfl⟩

end Relay

end RecurringWork
