import RecurringWork.Proofs.Actor.Registry

/-!
# RecurringWork.Proofs.Cluster.Incumbency

**What becomes of an actor while its node coordinates.** An `Incumbency` is a fleet with an actor
that is registered by views only: when one says that the node coordinates the group, the actor is
registered, unless it is, and when one says otherwise it is removed. Beside the fleet stands what
the last view has said, and the entries under which the actor has been registered since the node
began to coordinate.

A listener looks at the registry and not at what the node was before. So an actor that is done for
good is registered again by the next view that says that the node still coordinates. Of the entries
of one period all but the present one are finished (`Incumbency.Sound`); a view concerns nobody who
is registered and brings back whoever is finished, and between two such views nobody who is finished
runs (`Incumbency.Reachable.heed_restores_finished`).
-/

namespace RecurringWork

/-- A fleet with an actor that is registered as long as its node coordinates the group. -/
structure Incumbency where
  fleet : Fleet
  /-- What the last view said that was heeded. -/
  holds : Bool
  /-- The entries that the actor has had since the node began to coordinate, the latest first. -/
  entries : List Nat
  /-- Those of them that are done for good, the latest first. -/
  finished : List Nat

namespace Incumbency

open ActorSystem Fleet

/-- The entry to which a name leads that was free before. -/
def enlisted (before after : Option Nat) : List Nat := if before.isNone then after.toList else []

/-- A view is heeded. -/
def heed (m : Nat) (name : String) (actor : Nat) (delay : Int) (view : View) (i : Incumbency) :
    Incumbency :=
  let fleet := i.fleet.call (.heed m name actor delay view)
  if view.isCoordinator then
    ⟨fleet, true, enlisted (i.fleet.system.registered? m name)
      (fleet.system.registered? m name) ++ i.entries, i.finished⟩
  else ⟨fleet, false, [], []⟩

/-- One thing that happens, and the view that is heeded then, if one is. -/
inductive Step (m : Nat) (name : String) : Option View → Incumbency → Incumbency → Prop
  /-- A view is heeded, for this actor or for another one under the same name. -/
  | heeds {i : Incumbency} (actor : Nat) {delay : Int} (view : View) : 0 ≤ delay →
      Step m name (some view) i (i.heed m name actor delay view)
  /-- A manager is called that neither registers nor removes anybody under the name. -/
  | calls {f : Fleet} {holds : Bool} {entries finished : List Nat} (c : Call) :
      ¬c.Disposes m name →
      Step m name none ⟨f, holds, entries, finished⟩
        ⟨f.call c, holds, entries, finished⟩
  | ends {f g : Fleet} {x : Flight} {at_ : Int} {result : Option RunResult} {holds : Bool}
      {entries finished : List Nat} : Ends x at_ result f g →
      Step m name none ⟨f, holds, entries, finished⟩
        ⟨g, holds, entries,
          if result = some .done ∧ f.system.registered? m name = some x.entry then
            x.entry :: finished
          else finished⟩
  /-- Firings go on by themselves. -/
  | moves {f g : Fleet} {holds : Bool} {entries finished : List Nat} : Moves f g →
      Step m name none ⟨f, holds, entries, finished⟩ ⟨g, holds, entries, finished⟩

/-- Any number of things, with views of some kind only. -/
abbrev Steps (m : Nat) (name : String) (news : View → Prop) : Incumbency → Incumbency → Prop :=
  Relation.ReflTransGen fun i j => ∃ view, (∀ v, view = some v → news v) ∧ Step m name view i j

/-- What can come of managers that nobody has used. -/
def Reachable (m : Nat) (name : String) (i : Incumbency) : Prop :=
  ∃ s, Blank s ∧ (s.manager? m).isSome ∧
    Steps m name (fun _ => True) ⟨⟨s, 0, [], []⟩, false, [], []⟩ i

variable {m : Nat} {name : String} {i j : Incumbency} {view : Option View}

theorem fleet_heed (actor : Nat) (delay : Int) (view : View) (i : Incumbency) :
    (i.heed m name actor delay view).fleet = i.fleet.call (.heed m name actor delay view) := by
  unfold heed
  dsimp only
  split <;> rfl

theorem Step.fleet (st : Step m name view i j) : Fleet.Step i.fleet j.fleet := by
  cases st with
  | heeds actor view positive =>
      rw [fleet_heed]
      exact i.fleet.step_call _
  | calls c spares => exact .calls c
  | ends ends => exact .ends ends
  | moves mv => exact .moves mv

/-- A node that does not coordinate has nobody registered. While it coordinates, the entries that
the actor has had are the present one and those that are finished. -/
structure Sound (m : Nat) (name : String) (i : Incumbency) : Prop where
  fleet : i.fleet.Sound
  registry : i.fleet.system.Registry
  manages : (i.fleet.system.manager? m).isSome
  vacant : i.holds = false →
    i.fleet.system.registered? m name = none ∧ i.entries = [] ∧ i.finished = []
  office : i.holds = true →
    i.entries = (i.fleet.system.registered? m name).toList ++ i.finished ∧ i.entries ≠ []
  known : ∀ n ∈ i.entries, (i.fleet.system.entry? n).isSome
  nodup : i.entries.Nodup

theorem sound_of_blank {s : ActorSystem} (blank : Blank s) (manages : (s.manager? m).isSome) :
    Sound m name ⟨⟨s, 0, [], []⟩, false, [], []⟩ where
  fleet := blank.sound
  registry := blank.registry
  manages := manages
  vacant := by
    refine fun _ => ⟨?_, rfl, rfl⟩
    cases leads : s.registered? m name with
    | none => rfl
    | some n =>
        obtain ⟨e, found, -⟩ := blank.registry.entry leads
        rw [ActorSystem.entry?, blank.entries] at found
        cases found
  office := fun holds => by cases holds
  known := fun n mem => by cases mem
  nodup := List.nodup_nil

/-- A view that says that the node coordinates changes nothing where the actor is registered. -/
theorem heed_of_registered {n : Nat} (holds : i.holds = true)
    (leads : i.fleet.system.registered? m name = some n) (actor : Nat) (delay : Int) {view : View}
    (coordinates : view.isCoordinator = true) : i.heed m name actor delay view = i := by
  have same : i.fleet.call (.heed m name actor delay view) = i.fleet := by
    unfold Fleet.call
    rw [show (Call.heed m name actor delay view).perform i.fleet.elapsed i.fleet.system =
      i.fleet.system from heedView_of_registered leads coordinates]
  obtain ⟨fleet, holds', entries, finished⟩ := i
  cases holds
  simp only [heed, same, coordinates, if_true, enlisted, leads]
  rfl

/-- The next entry is none of those that the actor has had. -/
theorem Sound.not_mem_entries (h : i.Sound m name) :
    i.fleet.system.entries.length ∉ i.entries := by
  intro mem
  have there := h.known _ mem
  rw [ActorSystem.entry?, List.getElem?_eq_none (Nat.le_refl _)] at there
  cases there

/-- Where nobody is registered, it registers the actor under a new entry. -/
theorem Sound.heed_of_free (h : i.Sound m name) (free : i.fleet.system.registered? m name = none)
    (actor : Nat) {delay : Int} (positive : 0 ≤ delay) {view : View}
    (coordinates : view.isCoordinator = true) :
    let k := i.heed m name actor delay view
    let n := i.fleet.system.entries.length
    k.holds = true ∧ k.entries = n :: i.entries ∧ k.finished = i.finished ∧
      k.fleet.system.registered? m name = some n ∧
      ∃ e, k.fleet.system.entry? n = some e ∧ e.name = name ∧ e.actor = actor := by
  intro k n
  have registers : (i.fleet.call (.heed m name actor delay view)).system =
      (i.fleet.system.enrol m name actor).scheduleEntry i.fleet.elapsed m n
        (.ofMillis delay.toNat) :=
    heedView_of_free free coordinates positive
  have leads : (i.fleet.call (.heed m name actor delay view)).system.registered? m name =
      some n := by
    rw [registers, registered?, manager?_scheduleEntry, ← registered?, registered?_enrol, free,
      if_pos ⟨rfl, rfl, h.manages⟩]
    rfl
  have fleet : k.fleet = i.fleet.call (.heed m name actor delay view) := fleet_heed ..
  refine ⟨?_, ?_, ?_, ?_, ?_⟩
  · simp [k, heed, coordinates]
  · simp [k, n, heed, coordinates, leads, free, enlisted]
  · simp [k, heed, coordinates]
  · rw [fleet, leads]
  · have new : ActorSystem.entry? (i.fleet.system.enrol m name actor) n =
        some (.ofActor name actor) := by
      rw [entry?_enrol, if_pos rfl]
    rw [fleet, registers]
    rcases ActorSystem.entry?_scheduleEntry (i.fleet.system.enrol m name actor) i.fleet.elapsed m n
      (.ofMillis delay.toNat) n with same | ⟨e, r, found, changed⟩
    · exact ⟨_, same.trans new, rfl, rfl⟩
    · rw [new] at found
      cases found
      exact ⟨_, changed, rfl, rfl⟩

/-- What follows a step is sound if what it says about the actor is: the fleet sees to the rest. -/
theorem Sound.goes_on (h : i.Sound m name) (st : Step m name view i j)
    (vacant : j.holds = false →
      j.fleet.system.registered? m name = none ∧ j.entries = [] ∧ j.finished = [])
    (office : j.holds = true →
      j.entries = (j.fleet.system.registered? m name).toList ++ j.finished ∧ j.entries ≠ [])
    (known : ∀ n ∈ j.entries, n ∈ i.entries ∨ (j.fleet.system.entry? n).isSome)
    (nodup : j.entries.Nodup) : j.Sound m name := by
  obtain ⟨managers, lasts⟩ := st.fleet.lasts h.fleet
  refine ⟨h.fleet.step st.fleet, st.fleet.registry h.fleet h.registry, ?_, vacant, office,
    fun n mem => ?_, nodup⟩
  · rw [← Option.isSome_map (f := Manager.scheduler), managers, Option.isSome_map]
    exact h.manages
  · rcases known n mem with old | new
    · obtain ⟨e, found⟩ := Option.isSome_iff_exists.mp (h.known n old)
      obtain ⟨d, there, -⟩ := lasts n e found
      rw [there]
      rfl
    · exact new

/-- A step that leaves the name and the entries alone leaves all as it is. -/
theorem Sound.unchanged (h : i.Sound m name) (st : Step m name view i j) (holds : j.holds = i.holds)
    (entries : j.entries = i.entries) (finished : j.finished = i.finished)
    (leads : j.fleet.system.registered? m name = i.fleet.system.registered? m name) :
    j.Sound m name := by
  refine h.goes_on st ?_ ?_ (fun n mem => .inl (entries ▸ mem)) (entries ▸ h.nodup)
  · rw [holds, leads, entries, finished]
    exact h.vacant
  · rw [holds, leads, entries, finished]
    exact h.office

/-- A view that says that the node does not coordinate ends the term. -/
theorem Sound.relieved (h : i.Sound m name) (actor : Nat) {delay : Int} (positive : 0 ≤ delay)
    {view : View} (elsewhere : view.isCoordinator = false) :
    (i.heed m name actor delay view).Sound m name := by
  have removes : (i.heed m name actor delay view).fleet.system =
      (i.fleet.system.remove m name).2 := by
    rw [fleet_heed]
    exact heedView_of_elsewhere elsewhere
  obtain ⟨holds, entries, finished⟩ : (i.heed m name actor delay view).holds = false ∧
      (i.heed m name actor delay view).entries = [] ∧
      (i.heed m name actor delay view).finished = [] := by
    simp [heed, elsewhere]
  refine h.goes_on (.heeds actor view positive) (fun _ => ⟨?_, entries, finished⟩) ?_ ?_ ?_
  · rw [removes]
    exact i.fleet.system.registered?_remove_self m name
  · rw [holds]
    exact fun held => by cases held
  · rw [entries]
    exact fun n mem => by cases mem
  · rw [entries]
    exact List.nodup_nil

/-- Whoever is registered is so during a term. -/
theorem Sound.holds_of_registered (h : i.Sound m name) {n : Nat}
    (leads : i.fleet.system.registered? m name = some n) : i.holds = true := by
  by_contra vacant
  rw [(h.vacant (by simpa using vacant)).1] at leads
  cases leads

/-- Where nobody is registered, whoever has been so during the term is finished. -/
theorem Sound.eq_finished (h : i.Sound m name)
    (free : i.fleet.system.registered? m name = none) : i.entries = i.finished := by
  cases before : i.holds with
  | false =>
      obtain ⟨-, none, nobody⟩ := h.vacant before
      rw [none, nobody]
  | true =>
      rw [(h.office before).1, free]
      rfl

/-- A view that says that the node coordinates begins a term, or goes on with it under a new
entry. -/
theorem Sound.appointed (h : i.Sound m name) (free : i.fleet.system.registered? m name = none)
    (actor : Nat) {delay : Int} (positive : 0 ≤ delay) {view : View}
    (coordinates : view.isCoordinator = true) :
    (i.heed m name actor delay view).Sound m name := by
  obtain ⟨holds, grown, finished, led, e, found, -⟩ :=
    h.heed_of_free free actor positive coordinates
  refine h.goes_on (.heeds actor view positive) ?_ (fun _ => ⟨?_, ?_⟩) ?_ ?_
  · rw [holds]
    exact fun vacant => by cases vacant
  · rw [grown, led, finished, h.eq_finished free]
    rfl
  · rw [grown]
    exact List.cons_ne_nil _ _
  · rw [grown]
    intro n mem
    rcases List.mem_cons.mp mem with rfl | old
    · exact .inr (Option.isSome_iff_exists.mpr ⟨e, found⟩)
    · exact .inl old
  · rw [grown]
    exact List.nodup_cons.mpr ⟨h.not_mem_entries, h.nodup⟩

/-- **Every step keeps an incumbency sound.** -/
theorem Sound.step (h : i.Sound m name) (st : Step m name view i j) : j.Sound m name := by
  cases st with
  | @heeds _ actor delay view positive =>
      cases coordinates : view.isCoordinator with
      | false => exact h.relieved actor positive coordinates
      | true =>
          cases leads : i.fleet.system.registered? m name with
          | some n =>
              rw [heed_of_registered (h.holds_of_registered leads) leads actor delay coordinates]
              exact h
          | none => exact h.appointed leads actor positive coordinates
  | @calls f holds entries finished c disposes =>
      exact h.unchanged (.calls c disposes) rfl rfl rfl
        (Call.registered?_perform disposes f.elapsed f.system)
  | @ends f _ x at_ result holds entries finished ends =>
      have owns := h.fleet.owns ends.mem_running
      have ended := registered?_endRun h.registry owns x.job f.elapsed at_ result m name
      rw [← ends.system] at ended
      by_cases final : result = some .done ∧ f.system.registered? m name = some x.entry
      · rw [if_pos final] at ended
        refine h.goes_on (.ends ends) (fun vacant => ?_) (fun held => ⟨?_, ?_⟩)
          (fun n mem => .inl mem) h.nodup
        · have free : f.system.registered? m name = none := (h.vacant vacant).1
          rw [final.2] at free
          cases free
        · have whole : entries = (f.system.registered? m name).toList ++ finished :=
            (h.office held).1
          dsimp only
          rw [ended, if_pos final, whole, final.2]
          rfl
        · exact (h.office held).2
      · rw [if_neg final] at ended
        exact h.unchanged (.ends ends) rfl rfl (if_neg final) ended
  | moves mv => exact h.unchanged (.moves mv) rfl rfl rfl (mv.alike.registered m name)

theorem Sound.steps {news : View → Prop} (h : i.Sound m name) (run : Steps m name news i j) :
    j.Sound m name := by
  induction run with
  | refl => exact h
  | tail _ st ih =>
      obtain ⟨view, -, st⟩ := st
      exact ih.step st

theorem Reachable.sound (h : i.Reachable m name) : i.Sound m name := by
  obtain ⟨s, blank, manages, run⟩ := h
  exact (sound_of_blank blank manages).steps run

/-- Only a view that says that the node coordinates has the actor registered. -/
theorem Sound.free_step (h : i.Sound m name) (st : Step m name view i j)
    (quiet : ∀ v, view = some v → v.isCoordinator = false)
    (free : i.fleet.system.registered? m name = none) :
    j.fleet.system.registered? m name = none := by
  cases st with
  | @heeds _ actor delay view positive =>
      rw [fleet_heed]
      have removes : (i.fleet.call (.heed m name actor delay view)).system =
          (i.fleet.system.remove m name).2 := heedView_of_elsewhere (quiet view rfl)
      rw [removes]
      exact i.fleet.system.registered?_remove_self m name
  | @calls f holds entries finished c disposes =>
      exact (Call.registered?_perform disposes f.elapsed f.system).trans free
  | @ends f _ x at_ result holds entries finished ends =>
      have free : f.system.registered? m name = none := free
      rw [ends.system, registered?_endRun h.registry (h.fleet.owns ends.mem_running), free]
      exact ite_self _
  | moves mv => exact (mv.alike.registered m name).trans free

/-- **No run starts as long as nobody is registered**: until the next view that says that the node
coordinates, the runs of the actor are those that have started before. -/
theorem Sound.rests {name : String} (h : i.Sound m name)
    (run : Steps m name (fun v => v.isCoordinator = false) i j)
    (free : i.fleet.system.registered? m name = none) :
    j.fleet.system.registered? m name = none ∧ ∀ x ∈ j.fleet.running, x.manager = m →
      (∃ e, j.fleet.system.entry? x.entry = some e ∧ e.name = name) → x ∈ i.fleet.running := by
  induction run with
  | refl => exact ⟨free, fun x mem _ _ => mem⟩
  | @tail k j before st ih =>
      obtain ⟨view, quiet, st⟩ := st
      obtain ⟨free, old⟩ := ih
      have sound : k.Sound m name := h.steps before
      refine ⟨sound.free_step st quiet free, fun x mem manager named => ?_⟩
      obtain ⟨e, found, named⟩ := named
      have before : ∀ {d : Entry}, k.fleet.system.entry? x.entry = some d → d.name = name := by
        intro d there
        obtain ⟨e', found', same⟩ := (st.fleet.lasts sound.fleet).2 x.entry d there
        rw [found] at found'
        cases found'
        exact same.symm.trans named
      by_cases running : x ∈ k.fleet.running
      · obtain ⟨d, there, -⟩ := sound.fleet.owns running
        exact old x running manager ⟨d, there, before there⟩
      · -- A run starts for an entry that is registered, and nobody is.
        obtain ⟨d, there, -, leads⟩ := st.fleet.started sound.fleet mem running
        rw [manager, before there, free] at leads
        cases leads

/-- **An actor that is done comes back with the next view.** While its node does not coordinate,
the name is free. While it does, the actor has had one entry for each time that it was done for
good, and the present one, if it is registered. A view that says that the node still coordinates
changes nothing if it is, and registers it anew if it is done. In between, from the time when it is
done, no run of it starts. -/
theorem Reachable.heed_restores_finished (h : i.Reachable m name) :
    (i.holds = false → i.fleet.system.registered? m name = none) ∧
    (i.holds = true → i.entries ≠ [] ∧ i.entries.Nodup ∧
      i.entries = (i.fleet.system.registered? m name).toList ++ i.finished) ∧
    (∀ actor delay view, 0 ≤ delay → view.isCoordinator = true → i.holds = true →
      ((i.fleet.system.registered? m name).isSome → i.heed m name actor delay view = i) ∧
      (i.fleet.system.registered? m name = none →
        ∃ n, n ∉ i.entries ∧ (i.heed m name actor delay view).entries = n :: i.entries ∧
          (i.heed m name actor delay view).fleet.system.registered? m name = some n)) ∧
    ∀ j, Steps m name (fun v => v.isCoordinator = false) i j →
      i.fleet.system.registered? m name = none → ∀ x ∈ j.fleet.running, x.manager = m →
        (∃ e, j.fleet.system.entry? x.entry = some e ∧ e.name = name) → x ∈ i.fleet.running := by
  have sound := h.sound
  refine ⟨fun vacant => (sound.vacant vacant).1, fun holds => ?_, ?_, fun j run free =>
    (sound.rests run free).2⟩
  · obtain ⟨whole, some⟩ := sound.office holds
    exact ⟨some, sound.nodup, whole⟩
  · intro actor delay view positive coordinates holds
    refine ⟨fun taken => ?_, fun free => ?_⟩
    · obtain ⟨n, leads⟩ := Option.isSome_iff_exists.mp taken
      exact heed_of_registered holds leads actor delay coordinates
    · obtain ⟨-, grown, -, leads, -⟩ := sound.heed_of_free free actor positive coordinates
      exact ⟨_, sound.not_mem_entries, grown, leads⟩

/-! ### An actor that is done at once -/

/-- The first run of an actor since its node has begun to coordinate. -/
def inFirstRun : Incumbency := ⟨Fleet.inFirstRun, true, [0], []⟩

theorem reachable_inFirstRun : inFirstRun.Reachable 0 "x" := by
  let unused : ActorSystem := ⟨[], [⟨[], 0, none, none, none⟩], [.empty], []⟩
  have blank : Blank unused := ⟨rfl, by simp [unused], by simp [unused, Scheduler.empty]⟩
  have first : Step 0 "x" (some (.solo 1)) ⟨⟨unused, 0, [], []⟩, false, [], []⟩ _ :=
    .heeds 0 (.solo 1) (Int.le_refl 0)
  let registered := (⟨⟨unused, 0, [], []⟩, false, [], []⟩ : Incumbency).heed 0 "x" 0 0 (.solo 1)
  have begins : registered.fleet.system.attend registered.fleet.elapsed ⟨0, 1⟩ =
      (.begin (.firing 0 0), _) := rfl
  have second : Step 0 "x" none registered inFirstRun :=
    .moves (.begins (.intro (x := ⟨⟨0, 1⟩, 0, 0⟩) begins))
  exact ⟨unused, blank, rfl, .head ⟨_, fun _ _ => trivial, first⟩
    (.single ⟨_, fun _ _ => trivial, second⟩)⟩

/-- It is done for good. -/
def done : Incumbency :=
  ⟨⟨(inFirstRun.fleet.system.endRun 0 0 0 0 (some .done)).finishJob ⟨0, 1⟩, 0, [], []⟩, true, [0],
    [0]⟩

theorem reachable_done : done.Reachable 0 "x" := by
  obtain ⟨s, blank, manages, run⟩ := reachable_inFirstRun
  have ends : Step 0 "x" none inFirstRun done :=
    .ends (ends_alone ⟨⟨0, 1⟩, 0, 0⟩ 0 (some .done) inFirstRun.fleet.system 0 [])
  exact ⟨s, blank, manages, run.tail ⟨_, fun _ _ => trivial, ends⟩⟩

/-- The next view has the actor registered anew, and until then it does not run. -/
theorem heed_restores_of_done :
    done.Reachable 0 "x" ∧ done.holds = true ∧ done.entries = [0] ∧ done.finished = [0] ∧
      (∃ n, n ∉ done.entries ∧
        (done.heed 0 "x" 0 0 (.solo 2)).entries = n :: done.entries) ∧
      ∀ j, Steps 0 "x" (fun v => v.isCoordinator = false) done j →
        ∀ x ∈ j.fleet.running, x.manager = 0 →
          (∃ e, j.fleet.system.entry? x.entry = some e ∧ e.name = "x") →
          x ∈ done.fleet.running := by
  obtain ⟨-, -, views, rests⟩ := reachable_done.heed_restores_finished
  have free : done.fleet.system.registered? 0 "x" = none := by decide
  obtain ⟨n, new, grown, -⟩ := (views 0 0 (.solo 2) (Int.le_refl 0) rfl rfl).2 free
  exact ⟨reachable_done, rfl, rfl, rfl, ⟨n, new, grown⟩, fun j run => rests j run free⟩

/-- **An actor that is done for good runs again**, while its node coordinates all the time. -/
theorem runs_again_when_done :
    ∃ i, Steps 0 "x" (fun v => v.isCoordinator = true) done i ∧ i.holds = true ∧
      i.entries = [1, 0] ∧ i.finished = [0] ∧ ⟨⟨0, 2⟩, 0, 1⟩ ∈ i.fleet.running ∧
      (i.fleet.system.entry? 1).map Entry.actor = some 0 := by
  let told := done.heed 0 "x" 0 0 (.solo 2)
  have heeds : Step 0 "x" (some (.solo 2)) done told := .heeds 0 _ (Int.le_refl 0)
  have begins : told.fleet.system.attend told.fleet.elapsed ⟨0, 2⟩ =
      (.begin (.firing 0 1), _) := rfl
  have moves := @Step.moves 0 "x" told.fleet _ true [1, 0] [0]
    (.begins (.intro (x := ⟨⟨0, 2⟩, 0, 1⟩) begins))
  refine ⟨_, .tail (.single ⟨_, ?_, heeds⟩) ⟨none, fun _ none => (by cases none), moves⟩, rfl, rfl,
    rfl, List.mem_cons_self, rfl⟩
  rintro v ⟨⟩
  rfl

end Incumbency

end RecurringWork
