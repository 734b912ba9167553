import RecurringWork.Proofs.Dispatch.Seats
import RecurringWork.Proofs.Transaction.Telling

/-!
# RecurringWork.Proofs.Dispatch.Circulation

**How news get round.** News of a slice are told to the workers of a node one after the other
(`reaches_hear`), and to the nodes of a group one after the other (`reaches_deliver`). What
comes of it is what comes of telling all of these workers in that order, which `Seats` is
about. A nudge tells the writer's own worker, and has the news sent to the other nodes of the
group (`run_fireOthers`).

A task does all of this without waiting. None of it keeps it from going on: whoever hears news
lives, and to wake a worker that is registered does not fail.
-/

namespace RecurringWork.Simulation

open World

variable {w : World} {p : Seat} {t : Int} {route : String} {stack : List Frame} {event : Event}

/-! ### Parts of what a task does -/

namespace Act

theorem run_push {α : Type} (f : Frame) (act : Act α) (w : World) (stack : List Frame) :
    (do push f; act : Act α).run ⟨w, stack⟩ = act.run ⟨w, f :: stack⟩ := rfl

theorem run_look {α : Type} (f : World → Act α) (w : World) (stack : List Frame) :
    (do f (← world) : Act α).run ⟨w, stack⟩ = (f w).run ⟨w, stack⟩ := rfl

theorem run_modifyWorld {α : Type} (f : World → World) (act : Act α) (w : World)
    (stack : List Frame) :
    (do modifyWorld f; act : Act α).run ⟨w, stack⟩ = act.run ⟨f w, stack⟩ := rfl

theorem run_setSystem {α : Type} (s : ActorSystem) (act : Act α) (w : World)
    (stack : List Frame) :
    (do setSystem s; act : Act α).run ⟨w, stack⟩ = act.run ⟨{ w with system := s }, stack⟩ := rfl

theorem run_isAlive {α : Type} (x : Thing) (f : Bool → Act α) (w : World) (stack : List Frame) :
    (do f (← isAlive x) : Act α).run ⟨w, stack⟩ =
      (f (w.isAlive (stack ++ w.waitingFrames) x)).run ⟨w, stack⟩ := rfl

end Act

/-! ### One after the other -/

/-- **Whoever is told of something is told one after the other.** What one of them does, which is
`f`, may not keep the next one from being told (`P`). -/
theorem reaches_each {α β : Type} (tells : List β → Act Control) (frame : List β → Frame)
    (item : α → β) (f : World → α → World) (P : World → Prop) {xs : List α}
    (done : ∀ w, (tells []).run ⟨w, stack⟩ = (.give .nothing, ⟨w, stack⟩))
    (resumes : ∀ rest, resume .nothing (frame rest) = tells rest)
    (one : ∀ v, P v → ∀ x ∈ xs, ∀ rest, Reaches ((tells (item x :: rest)).run ⟨v, stack⟩)
      (.give .nothing, ⟨f v x, frame rest :: stack⟩))
    (keeps : ∀ v, P v → ∀ x ∈ xs, P (f v x)) (ready : P w) :
    Reaches ((tells (xs.map item)).run ⟨w, stack⟩) (.give .nothing, ⟨xs.foldl f w, stack⟩) := by
  induction xs generalizing w with
  | nil =>
      rw [List.map_nil, done]
      exact .refl
  | cons x rest ih =>
      have next := ih (fun v ready y mem => one v ready y (List.mem_cons_of_mem _ mem))
        (fun v ready y mem => keeps v ready y (List.mem_cons_of_mem _ mem))
        (keeps w ready x List.mem_cons_self)
      refine (one w ready x List.mem_cons_self _).trans (.head ?_ next)
      rw [← resumes]
      rfl

/-! ### Those who hear news -/

/-- News of a slice concerns the worker that hears them if the slice is its own. -/
theorem run_hear_news (seat : w.Seated p) (news : event.kind = .backlogChanged route t)
    (lives : w.isAlive (stack ++ w.waitingFrames) (.manager p.manager) = true)
    (node : Option Nat) (rest : List EventHook) :
    (hear node event (p.news :: rest)).run ⟨w, stack⟩ =
      (.give .nothing, ⟨notified route t w p, .hearing node event rest :: stack⟩) := by
  obtain ⟨c, works, -⟩ := seat.works
  have told := w.undisturbed_setTarget p.worker (c.target.request t).2
  have living := told.isAlive (List.subset_cons_self (.hearing node event rest) stack) lives
  have woke := ActorSystem.wake_of_registered seat.leads w.elapsed
    (delayUntil t w.now).toMillis_nonneg
  have after := woken_of_worker works t
  rw [notified_of_worker works]
  rcases request : c.target.request t with ⟨needed, target⟩
  rw [request] at living after
  rw [Seat.news, hear, Act.run_push, Act.run_look]
  extract_lets goes_on
  rw [news, works]
  -- Matching is undone case by case, so that no term below it has to be evaluated.
  split
  · next found worker =>
      cases found
      cases worker
      by_cases same : c.key.name = route
      · rw [if_pos same, if_pos same, request, after]
        split
        next pair =>
          cases pair
          rw [Act.run_modifyWorld, Act.run_isAlive, living, woke]
          cases needed
          · rfl
          · rfl
      · rw [if_neg same, if_neg same]
        rfl
  · next other => exact absurd rfl (other _ _ _ rfl)

theorem reaches_hear {seats : List Seat} (news : event.kind = .backlogChanged route t)
    (seated : ∀ p ∈ seats, w.Seated p)
    (lives : ∀ p ∈ seats, w.isAlive (stack ++ w.waitingFrames) (.manager p.manager) = true)
    (node : Option Nat) :
    Reaches ((hear node event (seats.map Seat.news)).run ⟨w, stack⟩)
      (.give .nothing, ⟨seats.foldl (notified route t) w, stack⟩) := by
  refine reaches_each (hear node event) (.hearing node event) Seat.news _ w.Undisturbed
    (fun _ => rfl) (fun _ => rfl) (fun v told p mem rest => ?_) (fun v told p _ => ?_) (.refl w)
  · rw [run_hear_news (told.seated (seated p mem)) news
      (told.isAlive (List.Subset.refl _) (lives p mem))]
    exact .refl
  · exact told.trans (undisturbed_notified route t v p)

/-- The listeners of a node take what arrives there, while the node lives. -/
theorem reaches_listeners {n : Nat} {k : Node} {v : World} (here : w.nodes[n]? = some k)
    {rest : List EventSink}
    (lives : w.isAlive (.delivery event rest :: stack ++ w.waitingFrames) (.node n) = true)
    (hears : Reaches
      ((hear (some n) event (k.coordinator.dispatcher.audience event)).run
        ⟨w, .holding (.node n) :: .delivery event rest :: stack⟩)
      (.give .nothing, ⟨v, .holding (.node n) :: .delivery event rest :: stack⟩)) :
    Reaches ((deliver event (.listeners n :: rest)).run ⟨w, stack⟩)
      (.give .nothing, ⟨v, .delivery event rest :: stack⟩) := by
  rw [deliver, Act.run_push, Act.run_look, here]
  dsimp only
  rw [Act.ifAlive, Act.run_isAlive, lives, if_pos rfl, Act.run_holding]
  exact hears.trans (.single rfl)

/-- The sinks of nodes take an event one after the other, and at each node its listeners hear
it. -/
theorem reaches_deliver {homes : List Nat} {at_ : Nat → List Seat}
    (news : event.kind = .backlogChanged route t)
    (listens : ∀ n ∈ homes, ∃ k, w.nodes[n]? = some k ∧
      k.coordinator.dispatcher.audience event = (at_ n).map Seat.news)
    (homes_live : ∀ n ∈ homes, w.isAlive (stack ++ w.waitingFrames) (.node n) = true)
    (seated : ∀ n ∈ homes, ∀ p ∈ at_ n, w.Seated p)
    (lives : ∀ n ∈ homes, ∀ p ∈ at_ n,
      w.isAlive (stack ++ w.waitingFrames) (.manager p.manager) = true) :
    Reaches ((deliver event (homes.map .listeners)).run ⟨w, stack⟩)
      (.give .nothing, ⟨(homes.flatMap at_).foldl (notified route t) w, stack⟩) := by
  rw [List.foldl_flatMap]
  refine reaches_each (deliver event) (.delivery event) .listeners _ w.Undisturbed
    (fun _ => rfl) (fun _ => rfl) (fun v told n home rest => ?_) (fun v told n _ => ?_) (.refl w)
  · obtain ⟨k, here, audience⟩ := listens n home
    have there : v.nodes[n]? = some k := by
      obtain ⟨_, _, same⟩ := told.world
      rw [same]
      exact here
    have deeper : stack ⊆ .holding (.node n) :: .delivery event rest :: stack :=
      List.Subset.trans (List.subset_cons_self _ _) (List.subset_cons_self _ _)
    refine reaches_listeners there
      (told.isAlive (List.subset_cons_self _ _) (homes_live n home)) ?_
    rw [audience]
    exact reaches_hear news (fun p mem => told.seated (seated n home p mem))
      (fun p mem => told.isAlive deeper (lives n home p mem)) (some n)
  · exact told.trans (undisturbed_foldl route t v (at_ n))

/-! ### Those who bring them about -/

/-- To fire an event at the others of a group is to deliver it there. -/
theorem run_fireOthers {n : Nat} {k : Node} (there : w.nodes[n]? = some k)
    (grouped : k.facility = .group) (event : Event) :
    (fireOthers n event).run ⟨w, stack⟩ =
      (deliver (event.withOrigin k.coordinator.node)
        (w.group.send [k.coordinator.node]).sinks).run ⟨w, stack⟩ := by
  rw [fireOthers, Act.run_look, there]
  dsimp only
  rw [sendFrom, Act.run_look, there]
  dsimp only
  rw [grouped]
  rfl

end RecurringWork.Simulation
