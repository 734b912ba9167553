import Mathlib.Data.List.TakeWhile
import RecurringWork.Proofs.Actor.Books
import RecurringWork.Proofs.Actor.Registry
import RecurringWork.Proofs.Actor.Retries

/-!
# RecurringWork.Proofs.Actor.Accounting

**Whose failures count.** A manager keeps account of failures by name, and a name may have had
several entries one after the other. An `Account` is a fleet with what there is to note of a name
of a manager: which entry's run failed or succeeded under it, and when it was given up. What the
manager has counted for the name at any time are the failures noted since a run under the name
succeeded or the name was given up, whichever entry they are of (`Account.Kept.books`).

A run may end after its entry has been removed, and the name may have another entry by then. So
what counts for a failing run of the entry at hand is what it has done itself, provided that no
run of another entry has ended since the name was given up last; and whoever made a difference has
been removed (`Account.Reachable.accounted`). If there was such a run, the manager may give up too
early or go on for too long (`Account.counted_for_another`).
-/

namespace RecurringWork

namespace ActorSystem

variable {m n : Nat} {name : String} {s t : ActorSystem}

/-! ### Entries that have borne a name -/

/-- The entry has the name, which leads to it unless it has been cancelled. -/
structure Bears (s : ActorSystem) (m : Nat) (name : String) (n : Nat) : Prop where
  named : (s.entry? n).map Entry.name = some name
  owns : s.Owns m n

theorem Bears.known (h : s.Bears m name n) : (s.entry? n).isSome := by
  obtain ⟨e, found, -⟩ := h.owns
  rw [found]
  rfl

theorem Bears.changes (h : s.Bears m name n) (c : Changes s t) : t.Bears m name n := by
  induction c with
  | refl => exact h
  | tail _ last ih =>
      obtain ⟨e, found, named⟩ := Option.map_eq_some_iff.mp ih.named
      obtain ⟨d, there, touched⟩ := last.entry found
      exact ⟨by rw [there, Option.map_some, touched.name, named], ih.owns.change last⟩

theorem Bears.alike (h : s.Bears m name n) (a : s.Alike t) : t.Bears m name n := by
  obtain ⟨e, found, named⟩ := Option.map_eq_some_iff.mp h.named
  obtain ⟨d, there, core⟩ := a.entry found
  exact ⟨by rw [there, Option.map_some, Entry.name_eq_of_core core, named], h.owns.alike a⟩

/-- Whoever has borne a name and lives is the one to whom it leads. -/
theorem Bears.cancelled (h : s.Bears m name n) {k : Nat} (leads : s.registered? m name = some k)
    (other : n ≠ k) : (s.entry? n).map Entry.cancelled = some true := by
  obtain ⟨e, found, led⟩ := h.owns
  have named : e.name = name := by simpa [found] using h.named
  rw [found]
  cases alive : e.cancelled with
  | true => exact congrArg some alive
  | false =>
      have led := led alive
      rw [named, leads] at led
      exact absurd (Option.some.inj led).symm other

/-- Where a name leads, it led before, unless the entry there is new. -/
theorem Changes.led (c : Changes s t) (leads : t.registered? m name = some n) :
    s.registered? m name = some n ∨ s.entry? n = none := by
  induction c with
  | refl => exact .inl leads
  | tail before last ih =>
      rcases last.led leads with led | new
      · exact ih led
      · right
        cases known : s.entry? n with
        | none => rfl
        | some e =>
            obtain ⟨d, there, -⟩ := Changes.name_eq before known
            rw [new] at there
            cases there

end ActorSystem

/-- What is to be noted of a name of a manager. -/
inductive Note
  /-- A run of an entry of that name failed. -/
  | failed (entry : Nat)
  /-- A run of an entry of that name succeeded. -/
  | succeeded (entry : Nat)
  /-- The name was given up. -/
  | vacated
  deriving DecidableEq

namespace Note

/-- The note is of a failure. -/
def isFailure : Note → Bool
  | failed _ => true
  | succeeded _ | vacated => false

/-- The entry whose run the note is of. -/
def whose? : Note → Option Nat
  | failed n | succeeded n => some n
  | vacated => none

end Note

/-- A fleet with what has been noted of a name of a manager, the latest first. Times are in
nanoseconds. -/
structure Account where
  fleet : Fleet
  notes : List (Int × Note)

namespace Account

open ActorSystem Fleet

/-! ### Notes -/

/-- When runs failed since one succeeded or the name was given up, whosoever runs they were. -/
def streak (notes : List (Int × Note)) : List Int :=
  (notes.takeWhile fun note => note.2.isFailure).map Prod.fst

/-- What has been noted since the name was given up last. -/
def sinceVacated (notes : List (Int × Note)) : List (Int × Note) :=
  notes.takeWhile fun note => note.2 ≠ .vacated

/-- What has been noted of the runs of an entry. -/
def ofEntry (n : Nat) (notes : List (Int × Note)) : List (Int × Note) :=
  notes.filter fun note => note.2.whose? = some n

/-- The times that are younger than the window of a policy. -/
def within (p : RetryPolicy) (now : Int) (times : List Int) : List Int :=
  times.filter (FailureLog.counts p.window now)

/-- What there is to note of the end of a run. -/
def report (m : Nat) (name : String) (s : ActorSystem) (x : Flight) (result : RunResult) :
    List Note :=
  if x.manager = m ∧ (s.entry? x.entry).map Entry.name = some name then
    [if result = .failed then .failed x.entry else .succeeded x.entry]
  else []

/-- What there is to note of a name when one system has come of another. -/
def vacancy (m : Nat) (name : String) (s t : ActorSystem) : List Note :=
  if vacated m name s t then [.vacated] else []

/-- The notes with some more that are taken at one time, the last of them first. -/
def noting (at_ : Int) (new : List Note) (notes : List (Int × Note)) : List (Int × Note) :=
  new.map (fun note => (at_, note)) ++ notes

/-- One thing that happens. Time does not go back. -/
inductive Step (m : Nat) (name : String) : Account → Account → Prop
  /-- A manager is called. -/
  | calls {f : Fleet} {notes : List (Int × Note)} (at_ : Int) (c : Call) :
      (∀ note ∈ notes, note.1 ≤ at_) →
      Step m name ⟨f, notes⟩ ⟨{ f with system := c.perform f.elapsed f.system },
        noting at_ (vacancy m name f.system (c.perform f.elapsed f.system)) notes⟩
  /-- A run ends with some result. -/
  | reports {f g : Fleet} {x : Flight} {at_ : Int} {result : RunResult}
      {notes : List (Int × Note)} : Ends x at_ (some result) f g →
      (∀ note ∈ notes, note.1 ≤ at_) →
      Step m name ⟨f, notes⟩
        ⟨g, noting at_ (vacancy m name f.system g.system ++ report m name f.system x result) notes⟩
  /-- A run breaks off without a result. -/
  | breaksOff {f g : Fleet} {x : Flight} {at_ : Int} {notes : List (Int × Note)} :
      Ends x at_ none f g → Step m name ⟨f, notes⟩ ⟨g, notes⟩
  /-- Time passes, or a firing goes on by itself. -/
  | moves {f g : Fleet} {notes : List (Int × Note)} : Moves f g →
      Step m name ⟨f, notes⟩ ⟨g, notes⟩

/-- What can come of managers and schedulers that nobody has used, one of which has a retry
policy. -/
def Reachable (p : RetryPolicy) (m : Nat) (name : String) (t : Account) : Prop :=
  ∃ s k, Blank s ∧ s.manager? m = some k ∧ k.retry = some (.ofPolicy p) ∧
    Relation.ReflTransGen (Step m name) ⟨⟨s, 0, [], []⟩, []⟩ t

/-! ### What every account keeps -/

section Notes

variable {at_ : Int} {new : List Note} {notes : List (Int × Note)}

theorem mem_noting {note : Int × Note} (mem : note ∈ noting at_ new notes) :
    note.2 ∈ new ∨ note ∈ notes := by
  rcases List.mem_append.mp mem with mem | mem
  · obtain ⟨n, here, rfl⟩ := List.mem_map.mp mem
    exact .inl here
  · exact .inr mem

theorem ofEntry_noting (n : Nat) (notes : List (Int × Note)) :
    ofEntry n (noting at_ new notes) = ofEntry n (noting at_ new []) ++ ofEntry n notes := by
  simp [ofEntry, noting]

/-- Unless the name is given up, what is noted has been noted since it was given up last. -/
theorem sinceVacated_noting (kept : Note.vacated ∉ new) :
    sinceVacated (noting at_ new notes) = noting at_ new (sinceVacated notes) := by
  unfold sinceVacated noting
  induction new with
  | nil => rfl
  | cons note rest ih =>
      obtain ⟨here, later⟩ := not_or.mp (List.mem_cons.not.mp kept)
      rw [List.map_cons, List.cons_append, List.takeWhile_cons_of_pos, ih later, List.cons_append]
      exact decide_eq_true (Ne.symm here)

theorem le_of_mem_streak (later : ∀ note ∈ notes, note.1 ≤ at_) : ∀ u ∈ streak notes, u ≤ at_ := by
  intro u mem
  obtain ⟨note, here, rfl⟩ := List.mem_map.mp mem
  exact later note ((List.takeWhile_sublist _).subset here)

/-- Failures in a row have been noted since the name was given up last. -/
theorem streak_sinceVacated (notes : List (Int × Note)) :
    streak (sinceVacated notes) = streak notes := by
  unfold streak sinceVacated
  rw [List.takeWhile_takeWhile]
  congr 2
  funext note
  cases note.2 <;> simp [Note.isFailure]

end Notes

variable {p : RetryPolicy} {m : Nat} {name : String} {t u : Account}

/-- What the manager has counted agrees with the notes, and these are of entries that have borne
the name; the one to whom it leads has not ended a run before the name was given up last. -/
structure Kept (p : RetryPolicy) (m : Nat) (name : String) (t : Account) : Prop where
  reached : t.fleet.Reachable
  books : Books p m name (p.lately (streak t.notes)).reverse t.fleet.system
  bears : ∀ note ∈ t.notes, ∀ n, note.2.whose? = some n → t.fleet.system.Bears m name n
  fresh : ∀ n, t.fleet.system.registered? m name = some n →
    ofEntry n t.notes = ofEntry n (sinceVacated t.notes)

/-- An entry that is not there has no notes. -/
theorem Kept.ofEntry_of_none (h : Kept p m name t) {n : Nat}
    (none : t.fleet.system.entry? n = none) : ofEntry n t.notes = [] := by
  refine List.filter_eq_nil_iff.mpr fun note mem by_ => ?_
  have known := (h.bears note mem n (of_decide_eq_true by_)).known
  rw [none] at known
  cases known

/-- **A step keeps what it has to keep of the notes, if what is noted agrees with the books.** -/
theorem Kept.noted {f g : Fleet} {notes : List (Int × Note)} (h : Kept p m name ⟨f, notes⟩)
    (st : Fleet.Step f g) (at_ : Int) (new : List Note)
    (books : Books p m name (p.lately (streak (noting at_ new notes))).reverse g.system)
    (bears : ∀ note ∈ new, ∀ n, note.whose? = some n → g.system.Bears m name n)
    (kept : ∀ n, g.system.registered? m name = some n → Note.vacated ∉ new) :
    Kept p m name ⟨g, noting at_ new notes⟩ := by
  have sound := h.reached.sound
  obtain ⟨s, changes, alike⟩ := st.changes sound.manned.system fun x mem =>
    sound.manned.owns (List.mem_append_right _ mem)
  refine ⟨h.reached.steps (.single st), books, fun note mem n by_ => ?_, fun n leads => ?_⟩
  · rcases mem_noting mem with here | before
    · exact bears note.2 here n by_
    · exact ((h.bears note before n by_).changes changes).alike alike
  · dsimp only
    rw [sinceVacated_noting (kept n leads), ofEntry_noting,
      ofEntry_noting _ (sinceVacated notes)]
    congr 1
    have leads : s.registered? m name = some n := (alike.registered m name).symm.trans leads
    rcases changes.led leads with led | new_
    · exact h.fresh n led
    · -- An entry that is new has no notes at all.
      have none := h.ofEntry_of_none new_
      have sub : (ofEntry n (sinceVacated notes)).Sublist (ofEntry n notes) :=
        (List.takeWhile_sublist _).filter _
      rw [none] at sub ⊢
      exact (List.sublist_nil.mp sub).symm

/-- Where nothing is noted, nothing may be counted. -/
theorem Kept.unnoted {f g : Fleet} {notes : List (Int × Note)} (h : Kept p m name ⟨f, notes⟩)
    (st : Fleet.Step f g) (same : g.system.manager? m = f.system.manager? m) :
    Kept p m name ⟨g, notes⟩ :=
  h.noted st 0 [] (h.books.of_manager? same) (by simp) (by simp)

theorem Kept.call {f : Fleet} {notes : List (Int × Note)} (h : Kept p m name ⟨f, notes⟩)
    (at_ : Int) (c : Call) : Kept p m name ⟨{ f with system := c.perform f.elapsed f.system },
      noting at_ (vacancy m name f.system (c.perform f.elapsed f.system)) notes⟩ := by
  have settled := settles_perform h.reached.sound.manned.system f.elapsed c _ h.books
  unfold vacancy
  cases gone : vacated m name f.system (c.perform f.elapsed f.system) with
  | false =>
      rw [gone] at settled
      exact h.noted (.calls c) at_ [] settled (by simp) (by simp)
  | true =>
      rw [gone] at settled
      refine h.noted (.calls c) at_ [.vacated] settled (by simp [Note.whose?]) ?_
      intro n leads
      unfold vacated at gone
      rw [leads] at gone
      simp at gone

/-! ### The end of a run -/

section Report

variable {f g : Fleet} {x : Flight} {notes : List (Int × Note)} {at_ : Int} {result : RunResult}

/-- A name is given up when a run of the entry to whom it leads is done for good. -/
theorem vacancy_ends (sound : f.Sound) (registry : f.system.Registry)
    (ends : Ends x at_ (some result) f g) (m : Nat) (name : String) :
    vacancy m name f.system g.system =
      if result = .done ∧ f.system.registered? m name = some x.entry then [.vacated] else [] := by
  unfold vacancy vacated
  rw [ends.system, registered?_endRun registry (sound.owns ends.mem_running)]
  by_cases final : result = .done ∧ f.system.registered? m name = some x.entry
  · obtain ⟨rfl, leads⟩ := final
    simp [leads]
  · have other : ¬(some result = some .done ∧ f.system.registered? m name = some x.entry) := by
      simpa using final
    rw [if_neg other, if_neg final]
    cases f.system.registered? m name <;> rfl

/-- What is left to do when the result of a run has been acted on concerns no registration. -/
theorem alike_of_ends (ends : Ends x at_ (some result) f g) :
    (f.system.conclude f.elapsed x.manager x.entry at_ result).Alike g.system := by
  rw [ends.system]
  exact alike_over _ x.entry x.job

/-- **A failure of an entry of the name is noted, and counted.** -/
theorem Kept.failure {e : Entry} (h : Kept p x.manager e.name ⟨f, notes⟩)
    (ends : Ends x at_ (some .failed) f g) (found : f.system.entry? x.entry = some e)
    (later : ∀ note ∈ notes, note.1 ≤ at_) :
    Kept p x.manager e.name ⟨g, noting at_ [.failed x.entry] notes⟩ := by
  have alike := alike_of_ends ends
  have owns := h.reached.sound.owns ends.mem_running
  have bears : f.system.Bears x.manager e.name x.entry := ⟨by rw [found]; rfl, owns⟩
  refine h.noted (.ends ends) at_ _ ?_ ?_ (by simp)
  · obtain ⟨-, books⟩ := h.books.conclude_failure found f.elapsed at_
    rw [RetryPolicy.lately_cons (le_of_mem_streak later)] at books
    exact books.of_manager? (alike.manager _)
  · rintro note mem n by_
    obtain rfl := List.mem_singleton.mp mem
    obtain rfl : x.entry = n := Option.some.inj by_
    exact (bears.changes (changes_conclude owns f.elapsed at_ .failed)).alike alike

/-- **A success of an entry of the name is noted, and nothing counts after it**, whether the name
is given up or not. -/
theorem Kept.success {e : Entry} (h : Kept p x.manager e.name ⟨f, notes⟩)
    (ends : Ends x at_ (some result) f g) (found : f.system.entry? x.entry = some e)
    (success : result ≠ .failed) :
    let gone := vacancy x.manager e.name f.system g.system
    Kept p x.manager e.name ⟨g, noting at_ (gone ++ [.succeeded x.entry]) notes⟩ := by
  intro gone
  have alike := alike_of_ends ends
  have owns := h.reached.sound.owns ends.mem_running
  have bears : f.system.Bears x.manager e.name x.entry := ⟨by rw [found]; rfl, owns⟩
  have books : Books p x.manager e.name [] g.system :=
    (h.books.conclude_success found f.elapsed at_ success).of_manager? (alike.manager _)
  have free : ∀ n, g.system.registered? x.manager e.name = some n → gone = [] := by
    intro n leads
    simp [gone, vacancy, vacated, leads]
  refine h.noted (.ends ends) at_ _ ?_ ?_ fun n leads => by simp [free n leads]
  · have none : streak (noting at_ (gone ++ [.succeeded x.entry]) notes) = [] := by
      unfold gone vacancy
      split <;> rfl
    rw [none]
    exact books
  · intro note mem n by_
    have mem : note = .succeeded x.entry := by
      rcases List.mem_append.mp mem with left | here
      · unfold gone vacancy at left
        split at left
        · rw [List.mem_singleton.mp left] at by_
          cases by_
        · cases left
      · exact List.mem_singleton.mp here
    obtain rfl : x.entry = n := by
      rw [mem] at by_
      exact Option.some.inj by_
    exact (bears.changes (changes_conclude owns f.elapsed at_ result)).alike alike

/-- **The end of any other run is neither noted nor counted.** -/
theorem Kept.other {e : Entry} (h : Kept p m name ⟨f, notes⟩)
    (ends : Ends x at_ (some result) f g) (found : f.system.entry? x.entry = some e)
    (other : ¬(x.manager = m ∧ e.name = name)) :
    Kept p m name ⟨g, noting at_ (vacancy m name f.system g.system) notes⟩ := by
  have owns := h.reached.sound.owns ends.mem_running
  have ⟨e', found', leads⟩ := owns
  obtain rfl : e' = e := Option.some.inj (found'.symm.trans found)
  have kept : vacancy m name f.system g.system = [] := by
    rw [vacancy_ends h.reached.sound h.reached.registry ends, if_neg]
    rintro ⟨-, led⟩
    -- The name that leads to the entry is that of the entry, and no other manager owns it.
    obtain ⟨d, there, named⟩ := h.reached.registry.sound.named led
    obtain rfl : d = e' := Option.some.inj (there.symm.trans found)
    exact other ⟨h.reached.registry.registered_of_owns led owns, named⟩
  rw [kept]
  have books := h.books.conclude_of_ne found leads other f.elapsed at_ result
  exact h.noted (.ends ends) at_ [] (books.of_manager? ((alike_of_ends ends).manager m))
    (by simp) (by simp)

end Report

/-- **Every step keeps the account.** -/
theorem Kept.step (h : Kept p m name t) (st : Step m name t u) : Kept p m name u := by
  cases st with
  | calls at_ c later => exact h.call at_ c
  | @reports f g x at_ result notes ends later =>
      obtain ⟨e, found, -⟩ := h.reached.sound.owns ends.mem_running
      have named : (f.system.entry? x.entry).map Entry.name = some name ↔ e.name = name := by
        rw [found, Option.map_some, Option.some.injEq]
      by_cases own : x.manager = m ∧ e.name = name
      · rw [report, if_pos ⟨own.1, named.mpr own.2⟩]
        obtain ⟨rfl, rfl⟩ := own
        by_cases failed : result = .failed
        · subst failed
          rw [vacancy_ends h.reached.sound h.reached.registry ends, if_neg (by simp), if_pos rfl]
          exact h.failure ends found later
        · rw [if_neg failed]
          exact h.success ends found failed
      · rw [report, if_neg fun both => own ⟨both.1, named.mp both.2⟩, List.append_nil]
        exact h.other ends found own
  | breaksOff ends =>
      refine h.unnoted (.ends ends) ?_
      rw [ends.system]
      exact (alike_over _ _ _).manager m
  | moves mv => exact h.unnoted (.moves mv) (mv.alike.manager m)

theorem Reachable.kept (h : Reachable p m name t) : Kept p m name t := by
  obtain ⟨s, k, blank, manages, policy, run⟩ := h
  induction run with
  | refl =>
      exact ⟨⟨s, blank, .refl⟩, ⟨k, _, manages, policy, rfl, rfl, rfl⟩, by simp, fun _ _ => rfl⟩
  | tail _ last ih => exact ih.step last

/-! ### Namesakes -/

/-- The account after a manager has been called. -/
def called (t : Account) (at_ : Int) (c : Call) : Account :=
  let s := c.perform t.fleet.elapsed t.fleet.system
  ⟨{ t.fleet with system := s }, noting at_ (vacancy 0 "x" t.fleet.system s) t.notes⟩

theorem Reachable.called (h : Reachable p 0 "x" t) (at_ : Int) (c : Call)
    (later : ∀ note ∈ t.notes, note.1 ≤ at_) : Reachable p 0 "x" (t.called at_ c) := by
  obtain ⟨s, k, blank, manages, policy, run⟩ := h
  exact ⟨s, k, blank, manages, policy, run.tail (.calls at_ c later)⟩

/-- The account after an entry has been fired by a job. -/
def begun (t : Account) (job : JobRef) (n : Nat) : Account :=
  let s := (t.fleet.system.attend t.fleet.elapsed job).2
  ⟨t.fleet.accept ⟨job, 0, n⟩ (s.fire n job).1 (s.fire n job).2, t.notes⟩

theorem Reachable.begun (h : Reachable p 0 "x" t) (job : JobRef) {n : Nat}
    (begins : (t.fleet.system.attend t.fleet.elapsed job).1 = .begin (.firing 0 n)) :
    Reachable p 0 "x" (t.begun job n) := by
  obtain ⟨s, k, blank, manages, policy, run⟩ := h
  exact ⟨s, k, blank, manages, policy, run.tail
    (.moves (.begins (.intro (x := ⟨job, 0, n⟩) (Prod.ext begins rfl))))⟩

/-- The account after the run that began first has ended. -/
def ended (t : Account) (at_ : Int) (x : Flight) (rest : List Flight) (result : RunResult) :
    Account :=
  let s := (t.fleet.system.endRun t.fleet.elapsed x.manager x.entry at_ (some result)).finishJob
    x.job
  ⟨⟨s, t.fleet.elapsed, t.fleet.waiting, rest⟩,
    noting at_ (vacancy 0 "x" t.fleet.system s ++ report 0 "x" t.fleet.system x result) t.notes⟩

theorem Reachable.ended (h : Reachable p 0 "x" t) {x : Flight} (before after : List Flight)
    (flying : t.fleet.running = before ++ x :: after) (at_ : Int) (result : RunResult)
    (later : ∀ note ∈ t.notes, note.1 ≤ at_) :
    Reachable p 0 "x" (t.ended at_ x (before ++ after) result) := by
  obtain ⟨s, k, blank, manages, policy, run⟩ := h
  obtain ⟨⟨system, elapsed, waiting, _⟩, notes⟩ := t
  subst flying
  exact ⟨s, k, blank, manages, policy, run.tail (.reports .intro later)⟩

/-- The account after some milliseconds. -/
def wait (t : Account) (ms : Nat) : Account :=
  { t with fleet := { t.fleet with elapsed := t.fleet.elapsed + ms } }

theorem Reachable.wait (h : Reachable p 0 "x" t) (ms : Nat) : Reachable p 0 "x" (t.wait ms) := by
  obtain ⟨s, k, blank, manages, policy, run⟩ := h
  exact ⟨s, k, blank, manages, policy, run.tail (.moves (.continues (.passes ms)))⟩

/-- A manager with a policy that allows two failures, and nothing registered. -/
def idle : Account :=
  ⟨⟨⟨[], [⟨[], 0, none, some (.ofPolicy (Trial.twoWithin 600000)), none⟩], [.empty], []⟩, 0, [],
    []⟩, []⟩

/-- The first firing of an actor, in flight, and that of another one under the same name. -/
def firstRun : Flight := ⟨⟨0, 1⟩, 0, 0⟩

@[inherit_doc firstRun]
def secondRun : Flight := ⟨⟨0, 2⟩, 0, 1⟩

/-- The second firing of the other actor. -/
def thirdRun : Flight := ⟨⟨0, 3⟩, 0, 1⟩

/-- An actor has been removed during its first run, and the first run of another one has begun
under the same name. -/
def namesakes : Account :=
  ((((idle.called 0 (.register 0 "x" 0 0)).begun ⟨0, 1⟩ 0).called 0 (.remove 0 "x")).called 0
    (.register 0 "x" 1 0)).begun ⟨0, 2⟩ 1

theorem reachable_idle : Reachable (Trial.twoWithin 600000) 0 "x" idle :=
  ⟨_, _, ⟨rfl, by simp, by simp [Scheduler.empty]⟩, rfl, rfl, .refl⟩

theorem reachable_namesakes : Reachable (Trial.twoWithin 600000) 0 "x" namesakes := by
  have first := (reachable_idle.called 0 (.register 0 "x" 0 0) (by simp [idle])).begun ⟨0, 1⟩
    (n := 0) rfl
  have removed := first.called 0 (.remove 0 "x") (by decide)
  exact (removed.called 0 (.register 0 "x" 1 0) (by decide)).begun _ rfl

/-- The first one has failed in the end. -/
def lateFailure : Account := namesakes.ended 0 firstRun [secondRun] .failed

theorem reachable_lateFailure : Reachable (Trial.twoWithin 600000) 0 "x" lateFailure :=
  reachable_namesakes.ended [secondRun] [] rfl 0 .failed (by decide)

/-- The second one has failed, the first one has succeeded after that, and the second one runs
again. -/
def lateSuccess : Account :=
  (((namesakes.ended 0 secondRun [firstRun] .failed).ended 0 firstRun [] .suspended).wait 10).begun
    ⟨0, 3⟩ 1

theorem reachable_lateSuccess : Reachable (Trial.twoWithin 600000) 0 "x" lateSuccess := by
  have failed := reachable_namesakes.ended [] [firstRun] rfl 0 .failed (by decide)
  have succeeded := failed.ended [] [] rfl 0 .suspended (by decide)
  exact (succeeded.wait 10).begun _ rfl

/-- The only actor has failed once, and runs again. -/
def secondTry : Account :=
  ((((idle.called 0 (.register 0 "x" 0 0)).begun ⟨0, 1⟩ 0).ended 0 firstRun [] .failed).wait
    10).begun ⟨0, 2⟩ 0

theorem reachable_secondTry : Reachable (Trial.twoWithin 600000) 0 "x" secondTry := by
  have first := (reachable_idle.called 0 (.register 0 "x" 0 0) (by simp [idle])).begun ⟨0, 1⟩
    (n := 0) rfl
  have failed := first.ended [] [] rfl 0 .failed (by decide)
  exact (failed.wait 10).begun _ rfl

/-! ### What counts for a failing run -/

/-- **An entry counts for itself** if nobody else has ended a run under its name since the name was
given up last. -/
theorem Kept.streak_ofEntry (h : Kept p m name t) {n : Nat}
    (leads : t.fleet.system.registered? m name = some n)
    (alone : ∀ note ∈ sinceVacated t.notes, note.2.whose? = some n) :
    streak (ofEntry n t.notes) = streak t.notes := by
  have all : ofEntry n (sinceVacated t.notes) = sinceVacated t.notes :=
    List.filter_eq_self.mpr fun note mem => decide_eq_true (alone note mem)
  rw [h.fresh n leads, all, streak_sinceVacated]

/-- **What counts for a failing run.** Let so many failures *count* as have been noted under the
name of an entry since a run under that name succeeded or the name was given up, and are younger
than the window. When a run of the entry fails, the entry is scheduled again if one more than count
is fewer than the policy allows, with the wait for that many, and otherwise it is not.

If the entry is the one to whom the name leads, then the failures that count are its own, since its
own last success, provided that the runs that have ended under the name since the name was given up
last are all its own. Any other entry of which a run has ended since has been removed. -/
theorem Reachable.accounted (h : Reachable p m name t) {n : Nat} {e : Entry}
    (found : t.fleet.system.entry? n = some e) (named : e.name = name) {at_ : Int}
    (later : ∀ note ∈ t.notes, note.1 ≤ at_) :
    let s := t.fleet.system
    let counted := (within p at_ (streak t.notes)).length
    let recorded := s.modifyManager m fun k => (k.failed name at_).2
    s.conclude t.fleet.elapsed m n at_ .failed =
        (if counted + 1 < p.maxFailures then
          recorded.scheduleEntry t.fleet.elapsed m n ((Backoff.ofPolicy p).delay (counted + 1))
        else recorded) ∧
      (s.registered? m name = some n →
        ((∀ note ∈ sinceVacated t.notes, note.2.whose? = some n) →
          counted = (within p at_ (streak (ofEntry n t.notes))).length) ∧
        ∀ note ∈ sinceVacated t.notes, ∀ k, note.2.whose? = some k → k ≠ n →
          (s.entry? k).map Entry.cancelled = some true) := by
  intro s counted recorded
  have kept := h.kept
  subst named
  -- What the manager has kept of the failures counts as they all do.
  have same : ((p.lately (streak t.notes)).reverse.filter (FailureLog.counts p.window at_)).length =
      counted := by
    have lengths := congrArg List.length (RetryPolicy.lately_cons (p := p) (le_of_mem_streak later))
    simp only [List.length_append, List.length_reverse, RetryPolicy.lately, List.length_cons,
      List.length_nil, Nat.add_right_cancel_iff] at lengths
    exact lengths
  obtain ⟨concluded, -⟩ := kept.books.conclude_failure found t.fleet.elapsed at_
  rw [same] at concluded
  refine ⟨concluded, fun leads => ⟨fun alone => ?_, fun note mem k by_ other => ?_⟩⟩
  · rw [kept.streak_ofEntry leads alone]
  · have among := (List.takeWhile_sublist _).subset mem
    exact (kept.bears note among k by_).cancelled leads other

/-- An actor by itself fails twice and is not scheduled again. -/
theorem accounted_of_secondTry :
    (within (Trial.twoWithin 600000) 10000000 (streak (ofEntry 0 secondTry.notes))).length = 1 ∧
      secondTry.fleet.system.conclude 10 0 0 10000000 .failed =
        secondTry.fleet.system.modifyManager 0 fun k => (k.failed "x" 10000000).2 := by
  have later : ∀ note ∈ secondTry.notes, note.1 ≤ 10000000 := by decide
  obtain ⟨concluded, own⟩ := reachable_secondTry.accounted (n := 0)
    (e := ⟨"x", 0, false, some ⟨0, 2⟩, [], false, some ⟨0, 2⟩⟩) rfl rfl later
  obtain ⟨counted, -⟩ := own rfl
  exact ⟨(counted (by decide)).symm.trans (by decide), concluded.trans (if_neg (by decide))⟩

/-- **A run is counted for another registration of its name.** A policy allows two failures. The
entry to whom the name leads fails, and it has not failed before: it is not scheduled again, because
a run of the entry that had the name before has failed in the meantime. Or it has failed once
before: it is scheduled again, because a run of that entry has succeeded in the meantime. -/
theorem counted_for_another :
    (∃ t, Reachable (Trial.twoWithin 600000) 0 "x" t ∧ t.fleet.running = [secondRun] ∧
      t.fleet.system.registered? 0 "x" = some secondRun.entry ∧
      within (Trial.twoWithin 600000) 0 (streak (ofEntry 1 t.notes)) = [] ∧
      (t.fleet.system.conclude t.fleet.elapsed 0 1 0 .failed).firings = t.fleet.system.firings) ∧
    ∃ t, Reachable (Trial.twoWithin 600000) 0 "x" t ∧ t.fleet.running = [thirdRun] ∧
      t.fleet.system.registered? 0 "x" = some thirdRun.entry ∧
      within (Trial.twoWithin 600000) 10000000 (streak (ofEntry 1 t.notes)) = [0] ∧
      (t.fleet.system.conclude t.fleet.elapsed 0 1 10000000 .failed).firings =
        (0, 1) :: t.fleet.system.firings :=
  ⟨⟨lateFailure, reachable_lateFailure, rfl, by decide, by decide, by decide⟩,
    lateSuccess, reachable_lateSuccess, rfl, by decide, by decide, by decide⟩

end Account

end RecurringWork
