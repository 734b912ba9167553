import RecurringWork.Cluster.Coordinator
import RecurringWork.Proofs.Actor.Registry

/-!
# RecurringWork.Proofs.Cluster.Charges

**What a view does to the actors that are registered.** A manager that takes charge of an actor
listens to the views of its node (`Charge`). When one says that the node coordinates the group, the
actor is registered, unless its name is taken; when one says that it does not, the name is removed.
The listener knows the actor by its name only, so it may be another actor that has to go: one that
somebody else has registered under that name.

This module says which registrations survive the delivery of a view to all listeners of a node,
and what else ends them (`Fleet.Reachable.registered_iff_not_death`). A view that says that the
node coordinates concerns nobody who is registered. Any other view ends the registrations of all
names of which somebody has taken charge, whoever has them, and leaves every other entry as it is,
with its firings. So an actor is safe from views as long as its name is its own
(`Fleet.relieved_in_place_of_another`).
-/

namespace RecurringWork

/-- An actor that is to be registered under a name as long as its node coordinates the group. -/
structure Charge where
  manager : Nat
  name : String
  actor : Nat
  delay : Int
  deriving DecidableEq, Repr

/-- Its manager heeds a view. -/
def Charge.heed (c : Charge) (view : View) : Call :=
  .heed c.manager c.name c.actor c.delay view

/-- What a charge does about a view concerns its own name only. -/
theorem Charge.registered?_heed {c : Charge} {m : Nat} {name : String}
    (other : ¬(c.manager = m ∧ c.name = name)) (view : View) (now : Nat) (s : ActorSystem) :
    ((c.heed view).perform now s).registered? m name = s.registered? m name := by
  have spared : ¬(c.heed view).Disposes m name := other
  exact Call.registered?_perform spared now s

namespace ActorSystem

/-- An entry has its name as before, and is as it was, with all its firings. -/
structure Spared (m : Nat) (name : String) (n : Nat) (s t : ActorSystem) : Prop where
  leads : t.registered? m name = some n
  entry : t.entry? n = s.entry? n
  firings : ∀ {r : JobRef} {j : Job Duty} {k : Nat}, s.job? r = some j → j.duty = .firing k n →
    t.job? r = some j

variable {s t u : ActorSystem} {m n : Nat} {name : String}

theorem Spared.refl (leads : s.registered? m name = some n) : Spared m name n s s :=
  ⟨leads, rfl, fun found _ => found⟩

theorem Spared.trans (first : Spared m name n s t) (second : Spared m name n t u) :
    Spared m name n s u :=
  ⟨second.leads, second.entry.trans first.entry,
    fun found fires => second.firings (first.firings found fires) fires⟩

/-- An entry that changes neither in itself nor in its name loses no firing. -/
theorem Registry.spared (h : s.Registry) (c : Changes s t) (leads : s.registered? m name = some n)
    (kept : t.registered? m name = some n) (same : t.entry? n = s.entry? n) :
    Spared m name n s t where
  leads := kept
  entry := same
  firings := by
    intro r j k found fires
    obtain ⟨e, there, -, alive⟩ := h.entry leads
    exact c.job?_of_alive h.sound h.filed found fires (same.trans there) alive

/-- A firing of another entry does not show in an entry. -/
theorem entry?_scheduleEntry_of_ne {i : Nat} (apart : i ≠ n) (s : ActorSystem) (now k : Nat)
    (delay : Duration) : ActorSystem.entry? (s.scheduleEntry now k i delay) n = s.entry? n := by
  rcases s.scheduleEntry_cases now k i delay with same | ⟨e, c, -, -, -, same⟩
  · rw [same]
  · rw [same, entry?_modifyEntry, if_neg apart]
    rfl

/-- **A view that says that the node coordinates concerns nobody who is registered.** -/
theorem Registry.spared_of_coordinator (h : s.Registry) (leads : s.registered? m name = some n)
    (now : Nat) (c : Charge) {view : View} (coordinates : view.isCoordinator = true) :
    Spared m name n s ((c.heed view).perform now s) := by
  have changes : Changes s ((c.heed view).perform now s) := changes_perform h.sound now _
  cases taken : s.registered? c.manager c.name with
  | some i =>
      have same : (c.heed view).perform now s = s := heedView_of_registered taken coordinates
      rw [same]
      exact .refl leads
  | none =>
      by_cases positive : 0 ≤ c.delay
      · have registers : (c.heed view).perform now s =
            (s.enrol c.manager c.name c.actor).scheduleEntry now c.manager s.entries.length
              (.ofMillis c.delay.toNat) :=
          heedView_of_free taken coordinates positive
        obtain ⟨e, found, -⟩ := h.entry leads
        have lower : n < s.entries.length := (List.getElem?_eq_some_iff.mp found).1
        refine h.spared changes leads ?_ ?_
        · rw [registers, registered?, manager?_scheduleEntry, ← registered?, registered?_enrol,
            leads]
          rfl
        · rw [registers, entry?_scheduleEntry_of_ne (by omega), entry?_enrol, if_neg (by omega)]
      · have refused : (c.heed view).perform now s = s := heedView_of_negative positive taken
        rw [refused]
        exact .refl leads

/-- **Any other view concerns a name only if it is that of the charge.** -/
theorem Registry.spared_of_elsewhere (h : s.Registry) (leads : s.registered? m name = some n)
    (now : Nat) {c : Charge} {view : View} (elsewhere : view.isCoordinator = false)
    (other : ¬(c.manager = m ∧ c.name = name)) :
    Spared m name n s ((c.heed view).perform now s) := by
  have removes : (c.heed view).perform now s = (s.remove c.manager c.name).2 :=
    heedView_of_elsewhere elsewhere
  have kept : ((c.heed view).perform now s).registered? m name = s.registered? m name :=
    Charge.registered?_heed other view now s
  refine h.spared (changes_perform h.sound now _) leads (kept.trans leads) ?_
  rw [removes]
  unfold ActorSystem.remove
  split
  · rfl
  · next i taken =>
      have apart : i ≠ n := by
        rintro rfl
        exact other (h.name_eq taken leads)
      rw [entry?_cancelEntry, if_neg apart]
      rfl

end ActorSystem

namespace Fleet

open ActorSystem

/-- A view is handed to those who have taken charge of actors, one after the other. -/
def hand (f : Fleet) (view : View) (charges : List Charge) : Fleet :=
  charges.foldl (fun f c => f.call (c.heed view)) f

variable {f g : Fleet} {m n : Nat} {name : String}

theorem steps_hand (f : Fleet) (view : View) (charges : List Charge) :
    Steps f (f.hand view charges) := by
  induction charges generalizing f with
  | nil => exact .refl
  | cons c rest ih => exact (ih _).head (f.step_call (c.heed view))

theorem Reachable.hand (h : f.Reachable) (view : View) (charges : List Charge) :
    (f.hand view charges).Reachable :=
  h.steps (steps_hand f view charges)

/-- Whoever is not concerned by what one listener does with a view is not concerned by what they
all do with it. -/
theorem Reachable.spared_hand (h : f.Reachable) (leads : f.system.registered? m name = some n)
    {view : View} {charges : List Charge}
    (each : ∀ c ∈ charges, ∀ {g : Fleet}, g.Reachable → g.system.registered? m name = some n →
      Spared m name n g.system (g.call (c.heed view)).system) :
    Spared m name n f.system (f.hand view charges).system := by
  induction charges generalizing f with
  | nil => exact .refl leads
  | cons c rest ih =>
      have first := each c List.mem_cons_self h leads
      have next := h.steps (.single (f.step_call (c.heed view)))
      exact first.trans (ih next first.leads fun d mem => each d (List.mem_cons_of_mem _ mem))

/-- A name that is free stays free whoever hears that the node does not coordinate. -/
theorem registered?_hand_of_free (free : f.system.registered? m name = none) {view : View}
    (elsewhere : view.isCoordinator = false) (charges : List Charge) :
    (f.hand view charges).system.registered? m name = none := by
  induction charges generalizing f with
  | nil => exact free
  | cons c rest ih =>
      refine ih (f := f.call (c.heed view)) ?_
      by_cases here : c.manager = m ∧ c.name = name
      · obtain ⟨rfl, rfl⟩ := here
        have removes : (f.call (c.heed view)).system = (f.system.remove c.manager c.name).2 :=
          heedView_of_elsewhere elsewhere
        rw [removes]
        exact f.system.registered?_remove_self _ _
      · exact (Charge.registered?_heed here view f.elapsed f.system).trans free

/-- **Whoever has the name of a charge is removed when the node does not coordinate.** -/
theorem Reachable.relieved_hand (h : f.Reachable) (leads : f.system.registered? m name = some n)
    {view : View} (elsewhere : view.isCoordinator = false) {charges : List Charge}
    (charged : ∃ c ∈ charges, c.manager = m ∧ c.name = name) :
    (f.hand view charges).system.registered? m name = none ∧
      (f.hand view charges).system.Dead n := by
  induction charges generalizing f with
  | nil => simp at charged
  | cons c rest ih =>
      have next := h.steps (.single (f.step_call (c.heed view)))
      by_cases here : c.manager = m ∧ c.name = name
      · obtain ⟨rfl, rfl⟩ := here
        have death : Death n f (f.call (c.heed view)) := .relieved c.actor c.delay leads elsewhere
        have free := death.frees h.sound h.registry leads
        exact ⟨registered?_hand_of_free free elsewhere rest,
          (steps_hand _ view rest).retires next.sound (death.dead h.sound)⟩
      · have kept := (h.registry.spared_of_elsewhere leads f.elapsed elsewhere here).leads
        refine ih next kept ?_
        obtain ⟨d, mem, same⟩ := charged
        rcases List.mem_cons.mp mem with rfl | mem
        · exact absurd same here
        · exact ⟨d, mem, same⟩

/-- **A registration lasts until its entry dies**, and the delivery of a view brings that about
exactly if the view says that the node does not coordinate and somebody has taken charge of the
name, be it of this actor or of another one. Otherwise the delivery leaves the entry as it is, with
all its firings. -/
theorem Reachable.registered_iff_not_death (h : f.Reachable)
    (leads : f.system.registered? m name = some n) :
    (∀ g, Step f g → (g.system.registered? m name = some n ↔ ¬Death n f g)) ∧
    ∀ (view : View) (charges : List Charge),
      (view.isCoordinator = false → (∃ c ∈ charges, c.manager = m ∧ c.name = name) →
        (f.hand view charges).system.registered? m name = none ∧
          (f.hand view charges).system.Dead n) ∧
      (view.isCoordinator = true ∨ (∀ c ∈ charges, ¬(c.manager = m ∧ c.name = name)) →
        Spared m name n f.system (f.hand view charges).system) := by
  refine ⟨fun g st => st.registered_iff h.sound h.registry leads, fun view charges => ⟨?_, ?_⟩⟩
  · exact fun elsewhere charged => h.relieved_hand leads elsewhere charged
  · intro safe
    refine h.spared_hand leads fun c mem g reached led => ?_
    cases coordinates : view.isCoordinator with
    | true => exact reached.registry.spared_of_coordinator led g.elapsed c coordinates
    | false =>
        have other : ¬(c.manager = m ∧ c.name = name) := by
          rcases safe with held | others
          · rw [coordinates] at held
            cases held
          · exact others c mem
        exact reached.registry.spared_of_elsewhere led g.elapsed coordinates other

/-! ### Two actors of one name -/

/-- The first of two members and the second one. -/
def pair : List Address := [⟨.localhost, 7000⟩, ⟨.localhost, 7001⟩]

/-- The manager of the second one has taken charge of an actor. -/
def charged : Charge := ⟨0, "x", 9, 0⟩

/-- The second one knows both, and does not coordinate. -/
def second : Coordinator Charge Unit :=
  (Coordinator.start ⟨.localhost, 7001⟩ pair false).listen charged

/-- Then somebody registers another actor under that name. -/
def namesakes : Fleet :=
  let engaged : Fleet :=
    hand ⟨⟨[], [⟨[], 0, none, none, none⟩], [.empty], []⟩, 0, [], []⟩ second.view [charged]
  engaged.call (.registerSuspended 0 "x" 7)

theorem reachable_namesakes : namesakes.Reachable := by
  let unused : ActorSystem := ⟨[], [⟨[], 0, none, none, none⟩], [.empty], []⟩
  have blank : Blank unused := ⟨rfl, by simp [unused], by simp [unused, Scheduler.empty]⟩
  have engaged : Reachable (hand ⟨unused, 0, [], []⟩ second.view [charged]) :=
    Reachable.hand ⟨unused, blank, .refl⟩ second.view [charged]
  exact engaged.steps (.single (step_call _ (.registerSuspended 0 "x" 7)))

/-- The actor that is registered is safe as long as the node coordinates, or from views that are
handed to nobody. -/
theorem registered_of_namesakes :
    namesakes.Reachable ∧ namesakes.system.registered? 0 "x" = some 0 ∧
      Spared 0 "x" 0 namesakes.system
        (namesakes.hand { second.view with isCoordinator := true } [charged]).system ∧
      Spared 0 "x" 0 namesakes.system (namesakes.hand second.view []).system ∧
      (namesakes.hand second.view [charged]).system.registered? 0 "x" = none := by
  have leads : namesakes.system.registered? 0 "x" = some 0 := by decide
  obtain ⟨-, delivery⟩ := reachable_namesakes.registered_iff_not_death leads
  refine ⟨reachable_namesakes, leads, (delivery _ _).2 (.inl rfl), (delivery _ _).2 ?_, ?_⟩
  · exact .inr fun c mem => by cases mem
  · exact ((delivery second.view [charged]).1 rfl ⟨charged, List.mem_singleton_self _, rfl, rfl⟩).1

/-- **An actor is removed in place of another one.** The next view of the node goes to the listener
of its manager, and says that the node still does not coordinate. -/
theorem relieved_in_place_of_another :
    namesakes.Reachable ∧ namesakes.system.registered? 0 "x" = some 0 ∧
      (namesakes.system.entry? 0).map Entry.actor = some 7 ∧ charged.actor = 9 ∧
      ∃ third k, second.republish? 1 (pair ++ [third]) false = some ([charged], k) ∧
        (namesakes.hand k.view [charged]).system.registered? 0 "x" = none ∧
        (namesakes.hand k.view [charged]).system.Dead 0 := by
  refine ⟨reachable_namesakes, by decide, rfl, rfl, ⟨.localhost, 7002⟩, _, rfl, by decide, ?_⟩
  exact ⟨_, rfl, rfl⟩

end Fleet

end RecurringWork
