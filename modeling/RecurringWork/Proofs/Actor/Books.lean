import RecurringWork.Proofs.Actor.Registration
import RecurringWork.Proofs.Actor.Tenancy
import RecurringWork.Proofs.Actor.Window

/-!
# RecurringWork.Proofs.Actor.Books

**What calls and runs make of the failures that are counted for a name.** A call counts nothing.
If it gives the name up, what was counted is forgotten, and otherwise it stays
(`ActorSystem.settles_perform`). The end of a run counts for the name of its entry and for no other
(`Books.conclude_of_ne`): nothing counts after a success (`Books.conclude_success`), and a failure
is added to those that still count, which decides about the next run
(`Books.conclude_failure`). In all this the entry is no matter, only its name.
-/

namespace RecurringWork.ActorSystem

variable {p : RetryPolicy} {m n : Nat} {name : String} {s t u : ActorSystem} {recent : List Int}

/-! ### The books of a manager -/

theorem Books.of_manager? (h : Books p m name recent s) (same : t.manager? m = s.manager? m) :
    Books p m name recent t := by
  obtain ⟨k, r, manages, rest⟩ := h
  exact ⟨k, r, same.trans manages, rest⟩

theorem Books.acts {on : Nat → String → Prop} (h : Books p m name recent s) (a : Acts on s t)
    (apart : ¬on m name) : Books p m name recent t := by
  induction a with
  | refl => exact h
  | tail _ last ih => exact ih.act last apart

/-- What the manager makes of its account is what becomes of the books. -/
theorem Books.modifyManager (h : Books p m name recent s) {f : Manager → Manager}
    {recent' : List Int}
    (keeps : ∀ k r, k.retry = some r → (r.tracker.log name).recent = recent →
      ∃ r', (f k).retry = some r' ∧ r'.maxFailures = r.maxFailures ∧
        r'.tracker.backoff = r.tracker.backoff ∧ (r'.tracker.log name).recent = recent') :
    Books p m name recent' (s.modifyManager m f) := by
  obtain ⟨k, r, manages, policy, most, backoff, counted⟩ := h
  obtain ⟨r', policy', most', backoff', counted'⟩ := keeps k r policy counted
  refine ⟨f k, r', ?_, policy', most'.trans most, backoff'.trans backoff, counted'⟩
  rw [manager?_modifyManager, if_pos rfl, manages]
  rfl

/-- A name that is forgotten has nothing counted for it. -/
theorem Books.forget (h : Books p m name recent s) :
    Books p m name [] (s.modifyManager m fun k => k.forget name) := by
  refine h.modifyManager fun k r policy _ => ?_
  refine ⟨_, congrArg (Option.map _) policy, rfl, rfl, ?_⟩
  rw [r.tracker.log_forget_self name]
  rfl

/-- Nothing counts after a success. -/
theorem Books.succeeded (h : Books p m name recent s) :
    Books p m name [] (s.modifyManager m fun k => k.succeeded name) := by
  refine h.modifyManager fun k r policy _ => ?_
  refine ⟨_, congrArg (Option.map _) policy, rfl, rfl, ?_⟩
  rw [r.tracker.log_clear_self name]

/-- A new entry starts with what is counted for its name. -/
theorem Books.enrol (h : Books p m name recent s) (k : Nat) (key : String) (actor : Nat) :
    Books p m name recent (s.enrol k key actor) := by
  obtain ⟨c, r, manages, policy, rest⟩ := h
  unfold Books ActorSystem.enrol
  rw [manager?_modifyManager]
  split
  · exact ⟨_, r, congrArg (Option.map _) manages, policy, rest⟩
  · exact ⟨c, r, manages, policy, rest⟩

/-! ### What is counted after a call -/

/-- The name was taken, and is free. -/
def vacated (m : Nat) (name : String) (s t : ActorSystem) : Bool :=
  (s.registered? m name).isSome && (t.registered? m name).isNone

/-- What is counted for a name stays, unless the name is given up, and then nothing counts. -/
def Settles (p : RetryPolicy) (m : Nat) (name : String) (s t : ActorSystem) : Prop :=
  ∀ recent, Books p m name recent s →
    Books p m name (if vacated m name s t then [] else recent) t

theorem settles_of_registered (leads : ∀ n, s.registered? m name = some n →
      t.registered? m name = some n)
    (books : ∀ recent, Books p m name recent s → Books p m name recent t) :
    Settles p m name s t := by
  intro recent h
  have kept : vacated m name s t = false := by
    unfold vacated
    cases taken : s.registered? m name with
    | none => rfl
    | some n => rw [leads n taken]; rfl
  rw [kept]
  exact books recent h

theorem settles_of_manager? (same : t.manager? m = s.manager? m) : Settles p m name s t := by
  refine settles_of_registered (fun n leads => ?_) fun recent h => h.of_manager? same
  rw [registered?, same]
  exact leads

/-- What registers nothing settles the name step by step. -/
theorem Settles.trans (first : Settles p m name s t) (second : Settles p m name t u)
    (fewer : t.registered? m name = s.registered? m name ∨ t.registered? m name = none)
    (fewer' : u.registered? m name = t.registered? m name ∨ u.registered? m name = none) :
    Settles p m name s u := by
  intro recent h
  have books := second _ (first recent h)
  unfold vacated at books ⊢
  generalize s.registered? m name = before at *
  generalize t.registered? m name = between at *
  generalize u.registered? m name = after at *
  cases before <;> cases between <;> cases after <;> simp_all

theorem settles_scheduleEntry (now k n : Nat) (delay : Duration) :
    Settles p m name s (s.scheduleEntry now k n delay) :=
  settles_of_manager? (manager?_scheduleEntry s now k n delay m)

theorem settles_insert {k actor : Nat} {key : String}
    (result : s.insert k key actor = .ok (n, t)) : Settles p m name s t := by
  rcases insert_inv result with ⟨rfl, -⟩ | ⟨rfl, -, -⟩
  · exact settles_of_manager? rfl
  · refine settles_of_registered (fun n leads => ?_) fun recent h => h.enrol k key actor
    rw [registered?_enrol, leads]
    rfl

theorem registered?_remove_cases (s : ActorSystem) (k : Nat) (key : String) (m : Nat)
    (name : String) : (s.remove k key).2.registered? m name = s.registered? m name ∨
      (s.remove k key).2.registered? m name = none := by
  by_cases here : k = m ∧ key = name
  · obtain ⟨rfl, rfl⟩ := here
    exact .inr (s.registered?_remove_self k key)
  · left
    have spares : Spares (fun c n => c = m ∧ n = name) s (s.remove k key).2 := spares_remove here
    exact spares.registered ⟨rfl, rfl⟩

theorem settles_remove (sound : s.Sound) (k : Nat) (key : String) :
    Settles p m name s (s.remove k key).2 := by
  by_cases here : k = m ∧ key = name
  · obtain ⟨rfl, rfl⟩ := here
    have free := s.registered?_remove_self k key
    unfold remove at free ⊢
    split
    · exact settles_of_manager? rfl
    · next n leads =>
        rw [leads] at free
        intro recent h
        have gone : vacated k key s
            ((s.modifyManager k fun c => c.forget key).cancelEntry n) = true := by
          rw [vacated, leads, free]
          rfl
        rw [gone]
        exact h.forget.of_manager? (manager?_cancelEntry _ n k)
  · have acts : Acts (fun c n => c = k ∧ n = key) s (s.remove k key).2 :=
      acts_remove sound ⟨rfl, rfl⟩
    refine settles_of_registered (fun n leads => ?_) fun recent h => h.acts acts ?_
    · have spares : Spares (fun c n => c = m ∧ n = name) s (s.remove k key).2 :=
        spares_remove here
      exact (spares.registered ⟨rfl, rfl⟩).trans leads
    · rintro ⟨rfl, rfl⟩
      exact here ⟨rfl, rfl⟩

theorem settles_stop (sound : s.Sound) (k : Nat) : Settles p m name s (s.stop k) := by
  have removals : ∀ (names : List (String × Nat)) (t : ActorSystem), t.Sound →
      let u := names.foldl (fun t c => (t.remove k c.1).2) t
      Settles p m name t u ∧
        (u.registered? m name = t.registered? m name ∨ u.registered? m name = none) := by
    intro names
    induction names with
    | nil => exact fun t _ => ⟨settles_of_manager? rfl, .inl rfl⟩
    | cons c rest ih =>
        intro t sound
        obtain ⟨later, fewer'⟩ := ih _ (sound.changes (changes_remove sound k c.1))
        have fewer := t.registered?_remove_cases k c.1 m name
        refine ⟨(settles_remove sound k c.1).trans later fewer fewer', ?_⟩
        rcases fewer' with same | none
        · rw [List.foldl_cons, same]
          exact fewer
        · exact .inr none
  unfold stop
  split
  · exact settles_of_manager? rfl
  · next c _ =>
      obtain ⟨settles, fewer⟩ := removals c.names s sound
      exact settles.trans (settles_of_manager? rfl) fewer (.inl rfl)

/-- **A call forgets what was counted for a name if it gives the name up, and counts nothing.** -/
theorem settles_perform (sound : s.Sound) (now : Nat) (c : Call) :
    Settles p m name s (c.perform now s) := by
  have kept : Settles p m name s s := settles_of_manager? rfl
  have registers : ∀ {k : Nat} {key : String} {actor : Nat} {delay : Int} {t : ActorSystem},
      s.register now k key actor delay = .ok t → Settles p m name s t := by
    intro k key actor delay t result
    obtain ⟨n, u, wait, -, inserted, rfl⟩ := register_inv result
    intro recent h
    have same := manager?_scheduleEntry u now k n wait m
    have leads : (u.scheduleEntry now k n wait).registered? m name = u.registered? m name := by
      rw [registered?, same, ← registered?]
    have vacates : vacated m name s (u.scheduleEntry now k n wait) = vacated m name s u := by
      rw [vacated, vacated, leads]
    rw [vacates]
    exact (settles_insert inserted recent h).of_manager? same
  cases c with
  | register k key actor delay =>
      show Settles p m name s (s.after (s.register now k key actor delay))
      cases result : s.register now k key actor delay with
      | error e => exact kept
      | ok t => exact registers result
  | registerSuspended k key actor =>
      show Settles p m name s (s.after ((s.insert k key actor).map Prod.snd))
      cases result : s.insert k key actor with
      | error e => exact kept
      | ok r => exact settles_insert result
  | wake k key delay =>
      show Settles p m name s (s.after (s.wake now k key delay))
      cases result : s.wake now k key delay with
      | error e => exact kept
      | ok t =>
          obtain ⟨n, wait, -, -, rfl⟩ := wake_inv result
          exact settles_scheduleEntry now k n wait
  | remove k key => exact settles_remove sound k key
  | request k key delay =>
      show Settles p m name s (s.heedRequest now k key delay)
      unfold heedRequest
      split
      · exact settles_scheduleEntry now k _ _
      · exact kept
  | heed k key actor delay view =>
      show Settles p m name s (s.heedView now k key actor delay view)
      unfold heedView
      dsimp only
      split
      · split
        · next result => exact registers result
        · exact kept
      · split
        · exact settles_remove sound k key
        · exact kept
  | stop k => exact settles_stop sound k

/-! ### What is counted after a run -/

/-- The end of a run is counted for no other name. -/
theorem Books.conclude_of_ne (h : Books p m name recent s) {k : Nat} {e : Entry}
    (found : s.entry? n = some e) (leads : e.cancelled = false → s.registered? k e.name = some n)
    (other : ¬(k = m ∧ e.name = name)) (now : Nat) (at_ : Int) (result : RunResult) :
    Books p m name recent (s.conclude now k n at_ result) := by
  have acts : Acts (fun c key => c = k ∧ key = e.name) s (s.conclude now k n at_ result) :=
    acts_conclude found leads ⟨rfl, rfl⟩ now at_ result
  refine h.acts acts fun here => other ⟨here.1.symm, here.2.symm⟩

/-- **Nothing counts for a name after a run of one of its entries that did not fail.** -/
theorem Books.conclude_success {e : Entry} (h : Books p m e.name recent s)
    (found : s.entry? n = some e) (now : Nat) (at_ : Int) {result : RunResult}
    (success : result ≠ .failed) : Books p m e.name [] (s.conclude now m n at_ result) := by
  have forgiven := h.succeeded
  unfold conclude
  rw [found]
  cases result with
  | reschedule delay => exact forgiven.of_manager? (manager?_scheduleEntry _ now m n delay m)
  | suspended => exact forgiven
  | done =>
      have freed := forgiven.of_manager? (manager?_cancelEntry _ n m)
      dsimp only
      split
      · exact freed.forget
      · exact freed
  | failed => exact absurd rfl success

/-- Only what becomes of the manager itself matters. -/
theorem modifyManager_congr {f g : Manager → Manager}
    (same : ∀ k, s.manager? m = some k → f k = g k) :
    s.modifyManager m f = s.modifyManager m g := by
  have managers : s.managers.modify m f = s.managers.modify m g := by
    refine List.ext_getElem? fun k => ?_
    rw [List.getElem?_modify, List.getElem?_modify]
    by_cases here : m = k
    · subst here
      simp only [if_true]
      exact Option.map_congr fun c mem => same c mem
    · simp only [here, if_false]
  rw [modifyManager, modifyManager, managers]

/-- How a manager decides on a failed run. -/
theorem Books.answer (h : Books p m name recent s) (at_ : Int) :
    ∃ k, s.manager? m = some k ∧ (k.failed name at_).1 =
      let counted := (recent.filter (FailureLog.counts p.window at_)).length
      if counted + 1 < p.maxFailures then some ((Backoff.ofPolicy p).delay (counted + 1))
      else none := by
  obtain ⟨k, r, manages, policy, most, backoff, rfl⟩ := h
  have win : r.tracker.backoff.window = p.window := congrArg Backoff.window backoff
  refine ⟨k, manages, ?_⟩
  rw [Manager.failed, policy]
  dsimp only [FailureTracker.record, FailureLog.record]
  rw [win, most, backoff, List.length_append, List.length_singleton]

/-- **A failed run is counted for the name of its entry**, and the entry is scheduled again if that
makes fewer failures than the policy allows. -/
theorem Books.conclude_failure {e : Entry} (h : Books p m e.name recent s)
    (found : s.entry? n = some e) (now : Nat) (at_ : Int) :
    let counted := (recent.filter (FailureLog.counts p.window at_)).length
    let recorded := s.modifyManager m fun k => (k.failed e.name at_).2
    s.conclude now m n at_ .failed =
        (if counted + 1 < p.maxFailures then
          recorded.scheduleEntry now m n ((Backoff.ofPolicy p).delay (counted + 1))
        else recorded) ∧
      Books p m e.name (recent.filter (FailureLog.counts p.window at_) ++ [at_])
        (s.conclude now m n at_ .failed) := by
  intro counted recorded
  obtain ⟨k, manages, books, -⟩ := h.failed at_
  obtain ⟨k', manages', answer⟩ := h.answer at_
  rw [manages] at manages'
  obtain rfl := Option.some.inj manages'
  have same : (s.modifyManager m fun _ => (k.failed e.name at_).2) = recorded :=
    modifyManager_congr fun k' manages' => by rw [Option.some.inj (manages.symm.trans manages')]
  have concluded : s.conclude now m n at_ .failed =
      if counted + 1 < p.maxFailures then
        recorded.scheduleEntry now m n ((Backoff.ofPolicy p).delay (counted + 1))
      else recorded := by
    simp only [conclude, found, manages, same]
    rw [answer]
    dsimp only
    by_cases few : counted + 1 < p.maxFailures
    · rw [if_pos few, if_pos few]
    · rw [if_neg few, if_neg few]
  refine ⟨concluded, ?_⟩
  rw [concluded]
  rw [same] at books
  split
  · exact books.of_manager? (manager?_scheduleEntry recorded now m n _ m)
  · exact books

end RecurringWork.ActorSystem
