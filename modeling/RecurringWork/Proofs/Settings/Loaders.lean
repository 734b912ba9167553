import RecurringWork.Proofs.Json.Fields
import RecurringWork.Proofs.Json.Order
import RecurringWork.Settings.Variables

/-!
# RecurringWork.Proofs.Settings.Loaders

**A text and variables load the same settings** (`Settings.loaders_agree`). The text of some
settings is read back as those settings, and so are the variables that stand for them
(`Settings.toVariables`); either way they are judged only then. Numbers are bounded by the types
of their fields (`Settings.Fits`), and texts are not restricted. There is no variable for the
failure window of a retry policy, so the loaders agree where it is the standard one.

The two loaders are taken apart in different ways. A text is decoded field by field, which does
not depend on the order of the fields. Of the variables, each setting reads its own by its name
(`reading_congr`), so nothing else can make a difference, and a number is written in digits only,
which nothing is trimmed from (`reading_numeral`).
-/

namespace RecurringWork

open Json (Nat32 Nat64)

/-! ### Plain text -/

namespace Text

variable {cs : List Char}

/-- Nothing is trimmed from a text without blanks. -/
theorem trim_of_forall (h : ∀ c ∈ cs, isBlank c = false) : trim cs = cs := by
  have front : ∀ ds : List Char, (∀ c ∈ ds, isBlank c = false) → ds.dropWhile isBlank = ds := by
    intro ds plain
    exact dropWhile_of_stops fun c mem => plain c (List.mem_of_mem_head? mem)
  have back : ∀ c ∈ cs.reverse, isBlank c = false := fun c mem => h c (List.mem_reverse.mp mem)
  rw [trim, trimStart, front cs h, trimEnd, front cs.reverse back, List.reverse_reverse]

theorem isBlank_of_isDigit {c : Char} (h : c.isDigit) : isBlank c = false := by
  have digit : 48 ≤ c.toNat ∧ c.toNat ≤ 57 := by
    simpa [Char.isDigit, UInt32.le_iff_toNat_le] using h
  simp only [isBlank, blankRanges, List.any_cons, List.any_nil]
  grind

/-- Digits that are read count what they are worth behind those read before. -/
theorem naturalFrom_of_lt (limit high : Nat) (digits : ∀ c ∈ cs, c.isDigit)
    (h : cs.foldl (fun n c => n * 10 + (c.toNat - '0'.toNat)) high < limit) :
    naturalFrom limit high cs =
      .ok (cs.foldl (fun n c => n * 10 + (c.toNat - '0'.toNat)) high) := by
  -- What has been read is never more than the whole.
  have grows : ∀ (ds : List Char) (n : Nat),
      n ≤ ds.foldl (fun n c => n * 10 + (c.toNat - '0'.toNat)) n := by
    intro ds
    induction ds with
    | nil => exact fun n => Nat.le_refl n
    | cons d ds ih =>
      intro n
      calc n ≤ n * 10 + (d.toNat - '0'.toNat) := by omega
        _ ≤ _ := ih _
  induction cs generalizing high with
  | nil => rfl
  | cons c cs ih =>
      have here := Nat.lt_of_le_of_lt (grows cs (high * 10 + (c.toNat - '0'.toNat))) h
      rw [naturalFrom, if_pos (digits c List.mem_cons_self)]
      dsimp only
      rw [if_pos here]
      exact ih _ (fun d mem => digits d (List.mem_cons_of_mem c mem)) h

/-- A number is read back from its digits. -/
theorem natural_decimalDigits {limit n : Nat} (h : n < limit) :
    natural limit (decimalDigits n) = .ok n := by
  have worth := digitsValue_decimalDigits n
  have read : naturalFrom limit 0 (decimalDigits n) = .ok n := by
    have digits := naturalFrom_of_lt limit 0
      (fun c mem => isDigit_of_mem_decimalDigits (n := n) mem)
      (Nat.lt_of_le_of_lt (Nat.le_of_eq worth) h)
    exact digits.trans (congrArg Except.ok worth)
  have plus : '+' ∉ decimalDigits n := fun mem => by
    have := isDigit_of_mem_decimalDigits mem
    cases this
  unfold natural
  split
  · next none => exact absurd none decimalDigits_ne_nil
  · next same => exact absurd (same ▸ List.mem_cons_self) plus
  · next same => exact absurd (same ▸ List.mem_cons_self) plus
  · exact read

end Text

/-! ### Texts -/

namespace RetryPolicy

/-- The numbers fit their fields. -/
structure Fits (p : RetryPolicy) : Prop where
  maxFailures : Nat64 p.maxFailures
  baseBackoff : Nat64 p.baseBackoff
  maxBackoff : Nat64 p.maxBackoff
  failureWindow : Nat64 p.failureWindow

theorem isExact_toJson {p : RetryPolicy} (fits : p.Fits) : p.toJson.isExact := by
  simp [toJson, Json.isExact, Json.isExactMembers, Json.isExact_ofNat fits.maxFailures,
    Json.isExact_ofNat fits.baseBackoff, Json.isExact_ofNat fits.maxBackoff,
    Json.isExact_ofNat fits.failureWindow]

theorem ofJson?_toJson {p : RetryPolicy} (fits : p.Fits) : ofJson? p.toJson = some p := by
  unfold ofJson?
  refine Json.bind_of_some rfl ?_
  refine Json.bind_of_some (Json.nat64?_ofNat fits.maxFailures) ?_
  refine Json.bind_of_some (Json.nat64?_ofNat fits.baseBackoff) ?_
  refine Json.bind_of_some (Json.nat64?_ofNat fits.maxBackoff) ?_
  exact Json.bind_of_some (Json.nat64?_ofNat fits.failureWindow) rfl

theorem blind_ofJson? : Json.Blind ofJson? := by
  refine Json.blind_partialRecord? fun ⦃ms ns⦄ h => ?_
  simp only [h.defaulted? Json.blind_nat64?]

/-- The members in the order in which the fields are declared. -/
def declared (p : RetryPolicy) : Json :=
  .obj [("max_failures", .ofNat p.maxFailures), ("base_backoff_ms", .ofNat p.baseBackoff),
    ("max_backoff_ms", .ofNat p.maxBackoff), ("failure_window_ms", .ofNat p.failureWindow)]

end RetryPolicy

namespace LogSettings

theorem isExact_toJson (l : LogSettings) : l.toJson.isExact := by
  simp [toJson, Json.isExact, Json.isExactMembers]

theorem ofJson?_toJson (l : LogSettings) : ofJson? l.toJson = some l := by
  unfold ofJson?
  refine Json.bind_of_some rfl ?_
  refine Json.bind_of_some (a := l.filter) rfl ?_
  refine Json.bind_of_some (a := l.json) rfl ?_
  exact Json.bind_of_some (Json.optional?_of_member (e := .str) (o := l.directory) rfl
    (fun _ => Json.noConfusion) fun _ _ => rfl) rfl

theorem blind_ofJson? : Json.Blind ofJson? := by
  have truth : Json.Blind Json.bool? := fun ⦃j⦄ _ => by cases j <;> rfl
  refine Json.blind_partialRecord? fun ⦃ms ns⦄ h => ?_
  simp only [h.defaulted? Json.blind_text?, h.defaulted? truth, h.optional? Json.blind_text?]

/-- The members in the order in which the fields are declared. -/
def declared (l : LogSettings) : Json :=
  .obj [("filter", .str l.filter), ("json", .bool l.json), ("dir", .ofOption .str l.directory)]

end LogSettings

namespace Settings

/-- The numbers fit their fields. -/
structure Fits (s : Settings) : Prop where
  shutdownTimeout : Nat64 s.shutdownTimeout
  batchLimit : Nat64 s.batchLimit
  idlePollInterval : Nat64 s.idlePollInterval
  deferDelay : Nat64 s.deferDelay
  maxDeferCount : Nat32 s.maxDeferCount
  transactionTimeout : Nat64 s.transactionTimeout
  retry : ∀ p ∈ s.retry, p.Fits

theorem isExact_toJson {s : Settings} (fits : s.Fits) : s.toJson.isExact := by
  have count : Nat64 s.maxDeferCount := Nat.lt_trans fits.maxDeferCount (by decide)
  simp [toJson, Json.isExact, Json.isExactMembers, Json.isExact_ofNat fits.shutdownTimeout,
    Json.isExact_ofNat fits.batchLimit, Json.isExact_ofNat fits.idlePollInterval,
    Json.isExact_ofNat fits.deferDelay, Json.isExact_ofNat count,
    Json.isExact_ofNat fits.transactionTimeout, LogSettings.isExact_toJson,
    Json.isExact_ofOption fun p mem => RetryPolicy.isExact_toJson (fits.retry p mem)]

theorem ofJson?_toJson {s : Settings} (fits : s.Fits) : ofJson? s.toJson = some s := by
  unfold ofJson?
  refine Json.bind_of_some rfl ?_
  refine Json.bind_of_some (Json.nat64?_ofNat fits.shutdownTimeout) ?_
  refine Json.bind_of_some (Json.nat64?_ofNat fits.batchLimit) ?_
  refine Json.bind_of_some (Json.nat64?_ofNat fits.idlePollInterval) ?_
  refine Json.bind_of_some (Json.nat64?_ofNat fits.deferDelay) ?_
  refine Json.bind_of_some (Json.nat32?_ofNat fits.maxDeferCount) ?_
  refine Json.bind_of_some (Json.nat64?_ofNat fits.transactionTimeout) ?_
  refine Json.bind_of_some (Json.optional?_of_member rfl (fun _ => Json.noConfusion)
    fun p mem => RetryPolicy.ofJson?_toJson (fits.retry p mem)) ?_
  exact Json.bind_of_some s.logging.ofJson?_toJson rfl

theorem blind_ofJson? : Json.Blind ofJson? := by
  refine Json.blind_partialRecord? fun ⦃ms ns⦄ h => ?_
  simp only [h.defaulted? Json.blind_nat64?, h.defaulted? Json.blind_nat32?,
    h.optional? RetryPolicy.blind_ofJson?, h.defaulted? LogSettings.blind_ofJson?]

/-- Settings are read back from their text before they are judged. -/
theorem decode_toJson {s : Settings} (fits : s.Fits) : decode s.toJson.render = s.validate := by
  rw [decode, Json.read?_render (isExact_toJson fits), Option.bind_some, ofJson?_toJson fits]

/-- The order in which the members stand makes no difference. -/
theorem decode_of_reorders {s : Settings} (fits : s.Fits) {j : Json} (h : j.Reorders s.toJson) :
    decode j.render = s.validate := by
  have same := h.decoded (isExact_toJson fits) blind_ofJson?
  rw [← decode_toJson fits, decode, decode, same]

/-- The members in the order in which the fields are declared. -/
def declared (s : Settings) : Json :=
  .obj [("shutdown_timeout_ms", .ofNat s.shutdownTimeout), ("batch_limit", .ofNat s.batchLimit),
    ("idle_poll_interval_ms", .ofNat s.idlePollInterval), ("defer_delay_ms", .ofNat s.deferDelay),
    ("default_max_defer_count", .ofNat s.maxDeferCount),
    ("transaction_timeout_ms", .ofNat s.transactionTimeout),
    ("retry_policy", .ofOption RetryPolicy.declared s.retry), ("logging", s.logging.declared)]

theorem reorders_declared (s : Settings) : s.declared.Reorders s.toJson := by
  -- What may be absent decides the shape; what the fields hold does not.
  match s with
  | ⟨_, _, _, _, _, _, none, ⟨_, _, none⟩⟩ | ⟨_, _, _, _, _, _, some _, ⟨_, _, none⟩⟩
  | ⟨_, _, _, _, _, _, none, ⟨_, _, some _⟩⟩ | ⟨_, _, _, _, _, _, some _, ⟨_, _, some _⟩⟩ =>
    exact ⟨rfl, rfl⟩

/-! ### Variables -/

/-- The text of a number. -/
def numeral (n : Nat) : String := .ofList (decimalDigits n)

/-- The text of a truth value. -/
def truthText (b : Bool) : String := if b then "true" else "false"

/-- The variables that stand for settings. There is none for the failure window. -/
def toVariables (s : Settings) : Variables
  | "HERALD_SHUTDOWN_TIMEOUT_MS" => some (numeral s.shutdownTimeout)
  | "HERALD_BATCH_LIMIT" => some (numeral s.batchLimit)
  | "HERALD_IDLE_POLL_MS" => some (numeral s.idlePollInterval)
  | "HERALD_DEFER_DELAY_MS" => some (numeral s.deferDelay)
  | "HERALD_MAX_DEFER_COUNT" => some (numeral s.maxDeferCount)
  | "HERALD_TRANSACTION_TIMEOUT_MS" => some (numeral s.transactionTimeout)
  | "HERALD_RETRY_MAX_FAILURES" => s.retry.map (numeral ·.maxFailures)
  | "HERALD_RETRY_BASE_BACKOFF_MS" => s.retry.map (numeral ·.baseBackoff)
  | "HERALD_RETRY_MAX_BACKOFF_MS" => s.retry.map (numeral ·.maxBackoff)
  | "HERALD_LOG" => some s.logging.filter
  | "HERALD_LOG_JSON" => some (truthText s.logging.json)
  | "HERALD_LOG_DIR" => s.logging.directory
  | _ => none

/-- All variables that are documented. -/
def documented : List String :=
  ["HERALD_SHUTDOWN_TIMEOUT_MS", "HERALD_BATCH_LIMIT", "HERALD_IDLE_POLL_MS",
    "HERALD_DEFER_DELAY_MS", "HERALD_MAX_DEFER_COUNT", "HERALD_TRANSACTION_TIMEOUT_MS",
    "HERALD_RETRY_MAX_FAILURES", "HERALD_RETRY_BASE_BACKOFF_MS", "HERALD_RETRY_MAX_BACKOFF_MS",
    "HERALD_LOG", "HERALD_LOG_JSON", "HERALD_LOG_DIR"]

/-- The variables that say how long to wait before a repetition. -/
def backoffNames : List String :=
  ["HERALD_RETRY_BASE_BACKOFF_MS", "HERALD_RETRY_MAX_BACKOFF_MS"]

/-- The variables that are looked at: those of the backoff only if repetition is asked for. -/
def consulted (vars : Variables) : List String :=
  documented.filter fun name =>
    decide (name ∉ backoffNames) || (vars "HERALD_RETRY_MAX_FAILURES").isSome

section Reading

variable {α β : Type} {read : List Char → Except Text.Flaw α} {vars other : Variables}
  {name : String}

theorem bind_of_ok {e : Type} {x : Except e α} {f : α → Except e β} {a : α} {r : Except e β}
    (first : x = .ok a) (next : f a = r) : (x >>= f) = r := by
  rw [first]
  exact next

/-- What holds of every result of the second half holds of every result. -/
theorem holds_of_bind {e : Type} {P : β → Prop} {x : Except e α} {f : α → Except e β}
    (next : ∀ a b, f a = .ok b → P b) (b : β) (h : (x >>= f) = .ok b) : P b := by
  cases x with
  | error _ => cases h
  | ok a => exact next a b h

theorem bind_congr_of_ok {e : Type} {x : Except e α} {f g : α → Except e β}
    (same : ∀ a, x = .ok a → f a = g a) : (x >>= f) = (x >>= g) := by
  cases x with
  | error _ => rfl
  | ok a => exact same a rfl

/-- A variable is looked at by its name. -/
theorem reading_congr (same : vars name = other name) :
    reading read other name = reading read vars name := by
  rw [reading, reading, same]

theorem reading_numeral {limit n : Nat} (set : vars name = some (numeral n)) (h : n < limit) :
    reading (Text.natural limit) vars name = .ok (some n) := by
  have trimmed : Text.trim (numeral n).toList = decimalDigits n := by
    rw [numeral, String.toList_ofList]
    exact Text.trim_of_forall fun c mem =>
      Text.isBlank_of_isDigit (isDigit_of_mem_decimalDigits mem)
  rw [reading, set]
  dsimp only
  rw [trimmed, Text.natural_decimalDigits h]

theorem reading_truthText {b : Bool} (set : vars name = some (truthText b)) :
    reading Text.truth vars name = .ok (some b) := by
  have trimmed : Text.truth (Text.trim (truthText b).toList) = .ok b := by
    cases b <;> decide
  rw [reading, set]
  dsimp only
  rw [trimmed]

theorem isSome_of_reading {a : α} (h : reading read vars name = .ok (some a)) :
    (vars name).isSome := by
  rw [reading] at h
  cases set : vars name with
  | none => rw [set] at h; cases h
  | some raw => rfl

theorem mem_consulted_of_notMem (known : name ∈ documented) (plain : name ∉ backoffNames) :
    name ∈ consulted vars :=
  List.mem_filter.mpr ⟨known, by simp [plain]⟩

theorem mem_consulted_of_isSome (known : name ∈ documented)
    (asked : (vars "HERALD_RETRY_MAX_FAILURES").isSome) : name ∈ consulted vars :=
  List.mem_filter.mpr ⟨known, by simp [asked]⟩

end Reading

/-- A policy with the standard failure window is read back from its variables. -/
theorem retryOfVariables_toVariables {s : Settings} (fits : s.Fits)
    (standard : ∀ p ∈ s.retry, p.failureWindow = RetryPolicy.standard.failureWindow) :
    retryOfVariables s.toVariables = .ok s.retry := by
  cases asked : s.retry with
  | none =>
    have none : number64 s.toVariables "HERALD_RETRY_MAX_FAILURES" = .ok none := by
      have unset : s.toVariables "HERALD_RETRY_MAX_FAILURES" = none :=
        Option.map_eq_none_iff.mpr asked
      rw [number64, reading, unset]
    exact bind_of_ok none rfl
  | some p =>
    have fits := fits.retry p asked
    have set (f : RetryPolicy → Nat) : s.retry.map (numeral <| f ·) = some (numeral (f p)) :=
      congrArg (Option.map _) asked
    refine bind_of_ok (reading_numeral (set (·.maxFailures)) fits.maxFailures) ?_
    refine bind_of_ok (reading_numeral (set (·.baseBackoff)) fits.baseBackoff) ?_
    refine bind_of_ok (reading_numeral (set (·.maxBackoff)) fits.maxBackoff) ?_
    have window := standard p asked
    cases p
    cases window
    rfl

/-- Settings are read back from their variables before they are judged. -/
theorem ofVariables_toVariables {s : Settings} (fits : s.Fits)
    (standard : ∀ p ∈ s.retry, p.failureWindow = RetryPolicy.standard.failureWindow) :
    ofVariables s.toVariables = s.validate := by
  unfold ofVariables
  refine bind_of_ok (reading_numeral rfl fits.shutdownTimeout) ?_
  refine bind_of_ok (reading_numeral rfl fits.batchLimit) ?_
  refine bind_of_ok (reading_numeral rfl fits.idlePollInterval) ?_
  refine bind_of_ok (reading_numeral rfl fits.deferDelay) ?_
  refine bind_of_ok (reading_numeral rfl fits.maxDeferCount) ?_
  refine bind_of_ok (reading_numeral rfl fits.transactionTimeout) ?_
  refine bind_of_ok (retryOfVariables_toVariables fits standard) ?_
  exact bind_of_ok (reading_truthText rfl) rfl

/-- Whatever is read from a text is judged at the end. -/
theorem validate_of_decode {text : String} {s : Settings} (h : decode text = .ok s) :
    s.validate = .ok s := by
  unfold decode at h
  split at h
  · cases h
  · obtain ⟨sound, rfl⟩ := validate_eq_ok.mp h
    exact h

/-- Whatever is read from variables is judged at the end. -/
theorem validate_of_ofVariables {vars : Variables} :
    ∀ s, ofVariables vars = .ok s → s.validate = .ok s := by
  unfold ofVariables
  -- The settings are those of the last step, whatever the eight readings before it gave.
  refine holds_of_bind fun _ => holds_of_bind fun _ => holds_of_bind fun _ => holds_of_bind fun _ =>
    holds_of_bind fun _ => holds_of_bind fun _ => holds_of_bind fun _ => holds_of_bind fun _ => ?_
  intro s accepted
  obtain ⟨sound, rfl⟩ := validate_eq_ok.mp accepted
  exact accepted

section Congruence

variable {α : Type} {vars other : Variables}

/-- A variable that is always consulted reads the same. -/
theorem reading_consulted (read : List Char → Except Text.Flaw α)
    (same : ∀ name ∈ consulted vars, vars name = other name) (name : String)
    (known : name ∈ documented) (plain : name ∉ backoffNames) :
    reading read other name = reading read vars name :=
  reading_congr (same name (mem_consulted_of_notMem known plain))

theorem retryOfVariables_congr (same : ∀ name ∈ consulted vars, vars name = other name) :
    retryOfVariables other = retryOfVariables vars := by
  unfold retryOfVariables number64
  rw [reading_consulted _ same _ (by decide) (by decide)]
  refine bind_congr_of_ok fun failures read => ?_
  cases failures with
  | none => rfl
  | some maxFailures =>
    have asked := isSome_of_reading read
    have backoff (name : String) (known : name ∈ documented) :
        reading (Text.natural 18446744073709551616) other name =
          reading (Text.natural 18446744073709551616) vars name :=
      reading_congr (same name (mem_consulted_of_isSome known asked))
    dsimp only
    rw [backoff _ (by decide), backoff _ (by decide)]

/-- Variables that are not consulted make no difference. -/
theorem ofVariables_congr (same : ∀ name ∈ consulted vars, vars name = other name) :
    ofVariables other = ofVariables vars := by
  have number64 := reading_consulted (Text.natural 18446744073709551616) same
  have number32 := reading_consulted (Text.natural 4294967296) same
  have truth := reading_consulted Text.truth same
  have raw (name : String) (known : name ∈ documented) (plain : name ∉ backoffNames) :
      vars name = other name :=
    same name (mem_consulted_of_notMem known plain)
  unfold ofVariables Settings.number64 Settings.number32
  rw [number64 _ (by decide) (by decide), number64 _ (by decide) (by decide),
    number64 _ (by decide) (by decide), number64 _ (by decide) (by decide),
    number32 _ (by decide) (by decide), number64 _ (by decide) (by decide),
    retryOfVariables_congr same, truth _ (by decide) (by decide),
    raw "HERALD_LOG" (by decide) (by decide), raw "HERALD_LOG_DIR" (by decide) (by decide)]

end Congruence

/-! ### Both loaders -/

/-- The text of settings, with its members as they are declared or in any other order, loads
these settings if an engine can run with them and reports their first flaw otherwise. The
variables that stand for them load the same, as long as there is no other failure window than
the standard one. Whatever a text or the variables are, only settings without a flaw are loaded
from them. No variables but those consulted make a difference: the documented ones, those of the
backoff only if the variable that asks for repetition is set. -/
theorem loaders_agree :
    (∀ s : Settings, s.Fits →
      decode s.declared.render = s.validate ∧
      (∀ j : Json, j.Reorders s.toJson → decode j.render = s.validate) ∧
      ((∀ p ∈ s.retry, p.failureWindow = RetryPolicy.standard.failureWindow) →
        ofVariables s.toVariables = decode s.declared.render)) ∧
    (∀ text s, decode text = .ok s → s.validate = .ok s) ∧
    ∀ vars : Variables,
      (∀ s, ofVariables vars = .ok s → s.validate = .ok s) ∧
      (∀ name ∈ consulted vars, name ∈ documented ∧
        (name ∈ backoffNames → (vars "HERALD_RETRY_MAX_FAILURES").isSome)) ∧
      ∀ other : Variables, (∀ name ∈ consulted vars, vars name = other name) →
        ofVariables other = ofVariables vars := by
  refine ⟨fun s fits => ?_, fun _ _ => validate_of_decode,
    fun vars => ⟨validate_of_ofVariables, fun name mem => ?_, ?_⟩⟩
  · have text := decode_of_reorders fits s.reorders_declared
    refine ⟨text, fun j h => decode_of_reorders fits h, fun standard => ?_⟩
    rw [text, ofVariables_toVariables fits standard]
  · obtain ⟨known, when⟩ := List.mem_filter.mp mem
    refine ⟨known, fun backoff => ?_⟩
    simpa [backoff] using when
  · exact fun other same => ofVariables_congr same

/-- Settings at the limits of their numbers. -/
def extreme : Settings where
  shutdownTimeout := 18446744073709551615
  batchLimit := 1
  idlePollInterval := 18446744073709551615
  deferDelay := 0
  maxDeferCount := 4294967295
  transactionTimeout := 1
  retry := some ⟨18446744073709551615, 0, 0, 600000⟩
  logging := ⟨" a=\"b\" ", true, some ""⟩

theorem loaders_agree_of_extreme :
    decode extreme.declared.render = .ok extreme ∧ ofVariables extreme.toVariables = .ok extreme ∧
    ofVariables (fun name => if name = "HOME" then some "/" else extreme.toVariables name) =
      .ok extreme := by
  have policy : ∀ p ∈ extreme.retry, p.Fits ∧ p.failureWindow = 600000 := by
    intro p mem
    cases mem
    exact ⟨⟨by decide, by decide, by decide, by decide⟩, rfl⟩
  have fits : extreme.Fits :=
    { shutdownTimeout := by decide
      batchLimit := by decide
      idlePollInterval := by decide
      deferDelay := by decide
      maxDeferCount := by decide
      transactionTimeout := by decide
      retry := fun p mem => (policy p mem).1 }
  obtain ⟨settings, -, lookups⟩ := loaders_agree
  obtain ⟨text, -, agree⟩ := settings extreme fits
  have text : decode extreme.declared.render = .ok extreme := text
  have lookups := lookups extreme.toVariables
  have same := agree fun p mem => (policy p mem).2
  refine ⟨text, same.trans text, ?_⟩
  refine (lookups.2.2 _ fun name mem => ?_).trans (same.trans text)
  have known := (lookups.2.1 name mem).1
  have home : name ≠ "HOME" := by
    rintro rfl
    revert known
    decide
  exact (if_neg home).symm

end Settings

end RecurringWork
