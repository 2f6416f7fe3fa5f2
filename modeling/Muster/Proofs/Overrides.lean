import Muster.Proofs.Completion
import Muster.Proofs.Numerals

/-! What the environment says of a configuration: each part depends on its own variable alone, and there are
three reasons to refuse it, a timeout that is no number, a level without a name and an unknown scheme. -/

namespace Muster.Config

def saidText (env : String → Option String) (k : Key) (old : String) : String :=
  (env k.envName).getD old

/-- What a variable says, or what there was if it is not set: a number. -/
def SaysNumber (env : String → Option String) (k : Key) (old n : Nat) : Prop :=
  match env k.envName with
  | none => n = old
  | some value => Text.Unsigned64 (Text.trimChars value.toList) n

def Garbles (env : String → Option String) (k : Key) (value : String) : Prop :=
  env k.envName = some value ∧ ∀ n, ¬Text.Unsigned64 (Text.trimChars value.toList) n

def saidNumber (env : String → Option String) (k : Key) (old : Nat) : Except ConfigError Nat :=
  (env k.envName).elim (.ok old) k.number

def withTexts (c : Config) (env : String → Option String) : Config where
  location := saidText env .location c.location
  level := saidText env .level c.level
  hostport := saidText env .hostport c.hostport
  callbackPath := saidText env .callbackPath c.callbackPath
  callbackScheme := saidText env .callbackScheme c.callbackScheme
  clientId := saidText env .clientId c.clientId
  authTimeout := c.authTimeout
  refreshTimeout := c.refreshTimeout

variable {env : String → Option String} {c c' : Config} {k : Key} {n old : Nat}

theorem number_eq_ok_iff {value : String} :
    k.number value = .ok n ↔ Text.Unsigned64 (Text.trimChars value.toList) n := by
  rw [← Text.readUInt64_eq_some_iff, Key.number]
  cases Text.readUInt64 (Text.trimChars value.toList) <;> simp

theorem number_eq_error_iff {value : String} {e : ConfigError} : k.number value = .error e ↔
    (∀ n, ¬Text.Unsigned64 (Text.trimChars value.toList) n) ∧ e = .invalidValue k.envName value := by
  simp only [← Text.readUInt64_eq_some_iff, Key.number]
  cases Text.readUInt64 (Text.trimChars value.toList) <;> simp [eq_comm]

theorem saidNumber_eq_ok_iff : saidNumber env k old = .ok n ↔ SaysNumber env k old n := by
  rw [saidNumber, SaysNumber]
  cases env k.envName with
  | none => simp [eq_comm]
  | some value => exact number_eq_ok_iff

theorem saidNumber_eq_error_iff {e : ConfigError} : saidNumber env k old = .error e ↔
    ∃ value, Garbles env k value ∧ e = .invalidValue k.envName value := by
  rw [saidNumber]
  simp only [Garbles]
  cases env k.envName with
  | none => simp
  | some value => simp [number_eq_error_iff]

theorem underKeys_text (put : String → Config → Config) (part : Config → String)
    (hset : ∀ c value, set c k value = .ok (put value c)) (hpart : ∀ c, put (part c) c = c)
    (ks : List Key) (c : Config) :
    underKeys env (k :: ks) c = underKeys env ks (put (saidText env k (part c)) c) := by
  rw [underKeys_cons, saidText]
  cases env k.envName with
  | none => rw [Option.getD_none, hpart]
  | some value => simp only [hset, Option.getD_some]

theorem underKeys_number (put : Nat → Config → Config) (part : Config → Nat)
    (hset : ∀ c value, set c k value = (k.number value).map fun n => put n c)
    (hpart : ∀ c, put (part c) c = c) (ks : List Key) (c : Config) :
    underKeys env (k :: ks) c = match saidNumber env k (part c) with
      | .ok n => underKeys env ks (put n c)
      | .error e => (.error e, c) := by
  rw [underKeys_cons, saidNumber]
  cases env k.envName with
  | none => simp only [Option.elim_none, hpart]
  | some value =>
    simp only [hset, Option.elim_some]
    cases k.number value <;> rfl

/-- The texts are taken over first, then the two numbers, if they can be read. -/
theorem under_eq : c.under env = match saidNumber env .authTimeout c.authTimeout with
    | .error e => (.error e, c.withTexts env)
    | .ok auth =>
      match saidNumber env .refreshTimeout c.refreshTimeout with
      | .error e => (.error e, { c.withTexts env with authTimeout := auth })
      | .ok refresh =>
        let d := { c.withTexts env with authTimeout := auth, refreshTimeout := refresh }
        (d.complete.check, d.complete) := by
  rw [under, override, ← underKeys, Key.all,
    underKeys_text (fun t c => { c with location := t }) (·.location) (fun _ _ => rfl) fun _ => rfl,
    underKeys_text (fun t c => { c with level := t }) (·.level) (fun _ _ => rfl) fun _ => rfl,
    underKeys_text (fun t c => { c with hostport := t }) (·.hostport) (fun _ _ => rfl) fun _ => rfl,
    underKeys_text (fun t c => { c with callbackPath := t }) (·.callbackPath) (fun _ _ => rfl) fun _ => rfl,
    underKeys_text (fun t c => { c with callbackScheme := t }) (·.callbackScheme) (fun _ _ => rfl) fun _ => rfl,
    underKeys_text (fun t c => { c with clientId := t }) (·.clientId) (fun _ _ => rfl) fun _ => rfl,
    underKeys_number (fun n c => { c with authTimeout := n }) (·.authTimeout) (fun _ _ => rfl) fun _ => rfl]
  dsimp only
  cases saidNumber env .authTimeout c.authTimeout with
  | error e => rfl
  | ok auth =>
    dsimp only
    rw [underKeys_number (k := .refreshTimeout) (fun n c => { c with refreshTimeout := n })
      (·.refreshTimeout) (fun _ _ => rfl) fun _ => rfl]
    dsimp only
    cases saidNumber env .refreshTimeout c.refreshTimeout <;> rfl

/-- What stands in place of a text: the default if it is blank, and else the text itself. -/
def Fills (default text part : String) : Prop :=
  ((∀ d ∈ text.toList, Text.isBlank d = true) → part = default) ∧
    ((∃ d ∈ text.toList, Text.isBlank d = false) → part = text)

theorem fills_iff {default text part : String} :
    Fills default text part ↔ part = filled default text := by
  rw [Fills, filled, Text.isBlankText]
  by_cases h : ∀ d ∈ text.toList, Text.isBlank d = true
  · have hnone : ¬∃ d ∈ text.toList, Text.isBlank d = false := by
      rintro ⟨d, hd, hblank⟩
      exact Bool.false_ne_true (hblank.symm.trans (h d hd))
    rw [if_pos (List.all_eq_true.2 h)]
    exact ⟨fun hpart => hpart.1 h, fun hpart => ⟨fun _ => hpart, fun hsome => absurd hsome hnone⟩⟩
  · have hsome : ∃ d ∈ text.toList, Text.isBlank d = false := by simpa using h
    rw [if_neg (mt List.all_eq_true.1 h)]
    exact ⟨fun hpart => hpart.2 hsome, fun hpart => ⟨fun hall => absurd hall h, fun _ => hpart⟩⟩

/-- What is wrong with a configuration in its environment, and the error that says so. -/
inductive Fault (env : String → Option String) (c : Config) : ConfigError → Prop
  | authTimeout {value : String} : Garbles env .authTimeout value →
    Fault env c (.invalidValue "EVE_ALTS_ESI_AUTH_TIMEOUT_SECS" value)
  | refreshTimeout {value : String} : Garbles env .refreshTimeout value →
    Fault env c (.invalidValue "EVE_ALTS_ESI_REFRESH_TIMEOUT_SECS" value)
  | level {level : String} : Fills "info" (saidText env .level c.level) level →
    (Text.trim level).toLower ∉ Level.names → Fault env c (.invalidValue "logging.level" level)
  | scheme {scheme : String} : Fills "http" (saidText env .callbackScheme c.callbackScheme) scheme →
    scheme ≠ "http" ∧ scheme ≠ "https" → Fault env c (.invalidValue "serving.callback_scheme" scheme)

structure Overridden (env : String → Option String) (c c' : Config) : Prop where
  location : c'.location = saidText env .location c.location
  level : Fills "info" (saidText env .level c.level) c'.level
  hostport : Fills "localhost:8619" (saidText env .hostport c.hostport) c'.hostport
  callbackPath : ∃ path, Fills "/callback" (saidText env .callbackPath c.callbackPath) path ∧
    c'.callbackPath = if path.front? = some '/' then path else "/" ++ path
  callbackScheme : Fills "http" (saidText env .callbackScheme c.callbackScheme) c'.callbackScheme
  clientId : Fills "5a58af6b66a34b45a8b827e34b81527f" (saidText env .clientId c.clientId) c'.clientId
  authTimeout : ∃ n, SaysNumber env .authTimeout c.authTimeout n ∧
    c'.authTimeout = if n = 0 then 30 else n
  refreshTimeout : ∃ n, SaysNumber env .refreshTimeout c.refreshTimeout n ∧
    c'.refreshTimeout = if n = 0 then 30 else n

theorem check_eq_error {e : ConfigError} (h : c.check = .error e) :
    (Text.trim c.level).toLower ∉ Level.names ∧ e = .invalidValue "logging.level" c.level ∨
      (c.callbackScheme ≠ "http" ∧ c.callbackScheme ≠ "https") ∧
        e = .invalidValue "serving.callback_scheme" c.callbackScheme := by
  simp only [check, Option.isNone_iff_eq_none, Level.read?_eq_none_iff] at h
  split at h
  · cases h
    exact .inl ⟨‹_›, rfl⟩
  · split at h
    · cases h
    · cases h
      exact .inr ⟨not_or.1 ‹_›, rfl⟩

theorem fault_of_error {e : ConfigError} (h : c.under env = (.error e, c')) : Fault env c e := by
  rw [under_eq] at h
  split at h
  · cases h
    obtain ⟨value, hgarbled, rfl⟩ := saidNumber_eq_error_iff.1 ‹_›
    exact .authTimeout hgarbled
  · split at h
    · cases h
      obtain ⟨value, hgarbled, rfl⟩ := saidNumber_eq_error_iff.1 ‹_›
      exact .refreshTimeout hgarbled
    · obtain ⟨hlevel, rfl⟩ | ⟨hscheme, rfl⟩ := check_eq_error (Prod.mk.inj h).1
      · exact .level (fills_iff.2 rfl) hlevel
      · exact .scheme (fills_iff.2 rfl) hscheme

theorem under_eq_ok (h : c.under env = (.ok (), c')) : Overridden env c c' ∧ c'.check = .ok () := by
  rw [under_eq] at h
  split at h
  · cases h
  · split at h
    · cases h
    · obtain ⟨hcheck, rfl⟩ := Prod.mk.inj h
      exact ⟨⟨rfl, fills_iff.2 rfl, fills_iff.2 rfl, ⟨_, fills_iff.2 rfl, rfl⟩, fills_iff.2 rfl,
        fills_iff.2 rfl, ⟨_, saidNumber_eq_ok_iff.1 ‹_›, rfl⟩, ⟨_, saidNumber_eq_ok_iff.1 ‹_›, rfl⟩⟩, hcheck⟩

theorem SaysNumber.not_garbles (h : SaysNumber env k old n) (value : String) : ¬Garbles env k value := by
  rintro ⟨hset, hnone⟩
  rw [SaysNumber, hset] at h
  exact hnone n h

theorem not_ok_of_fault {e : ConfigError} (h : Fault env c e) : c.under env ≠ (.ok (), c') := by
  intro hok
  obtain ⟨hoverridden, hcheck⟩ := under_eq_ok hok
  obtain ⟨hlevel, hscheme⟩ := check_eq_ok_iff.1 hcheck
  cases h with
  | authTimeout hgarbled =>
    obtain ⟨n, hn, -⟩ := hoverridden.authTimeout
    exact hn.not_garbles _ hgarbled
  | refreshTimeout hgarbled =>
    obtain ⟨n, hn, -⟩ := hoverridden.refreshTimeout
    exact hn.not_garbles _ hgarbled
  | level hfills hunknown =>
    rw [fills_iff.1 hoverridden.level, ← fills_iff.1 hfills] at hlevel
    exact hunknown hlevel
  | scheme hfills hunknown =>
    rw [fills_iff.1 hoverridden.callbackScheme, ← fills_iff.1 hfills] at hscheme
    exact hscheme.elim hunknown.1 hunknown.2

theorem under_congr {env' : String → Option String} (h : ∀ k : Key, env' k.envName = env k.envName) :
    c.under env' = c.under env := by
  have hnumber (k : Key) (old : Nat) : saidNumber env' k old = saidNumber env k old := by
    rw [saidNumber, saidNumber, h]
  have htexts : c.withTexts env' = c.withTexts env := by
    simp only [withTexts, saidText, h]
  rw [under_eq, under_eq, hnumber, hnumber, htexts]

/-- Overrides fail just when something is wrong, and say what. If they pass, each part of the configuration
is what its own variable says, or what it was before if that is not set; blank texts but for the location,
and timeouts of zero, give way to their defaults, and a path gets a slash in front if it has none. Other
variables do not count. -/
theorem variables_override_their_own_parts (env : String → Option String) (c : Config) :
    ((∃ e c', c.under env = (.error e, c')) ↔ ∃ e, Fault env c e) ∧
    (∀ e c', c.under env = (.error e, c') → Fault env c e) ∧
    (∀ c', c.under env = (.ok (), c') → Overridden env c c') ∧
    ∀ env' : String → Option String, (∀ k : Key, env' k.envName = env k.envName) →
      c.under env' = c.under env := by
  refine ⟨⟨fun ⟨e, _, h⟩ => ⟨e, fault_of_error h⟩, fun ⟨e, h⟩ => ?_⟩, fun _ _ => fault_of_error,
    fun _ h => (under_eq_ok h).1, fun _ => under_congr⟩
  rcases hunder : c.under env with ⟨e' | _, c'⟩
  · exact ⟨e', c', rfl⟩
  · exact absurd hunder (not_ok_of_fault h)

def chatty : String → Option String := fun name =>
  if name = Key.level.envName then some "debug"
  else if name = Key.callbackPath.envName then some "cb"
  else if name = Key.refreshTimeout.envName then some " +45 "
  else none

def impatient : String → Option String := fun name =>
  if name = Key.refreshTimeout.envName then some "soon" else none

theorem chatty_is_heard_and_impatient_refused :
    ∃ c e d, initial.under chatty = (.ok (), c) ∧ Overridden chatty initial c ∧
      c = { initial with level := "debug", callbackPath := "/cb", refreshTimeout := 45 } ∧
      initial.under (fun name => if name = "HOME" then some "/root" else chatty name) = (.ok (), c) ∧
      initial.under impatient = (.error e, d) ∧ Fault impatient initial e ∧
      e.message = "invalid value 'soon' for EVE_ALTS_ESI_REFRESH_TIMEOUT_SECS" := by
  have hchatty : initial.under chatty =
      (.ok (), { initial with level := "debug", callbackPath := "/cb", refreshTimeout := 45 }) := by
    decide +kernel
  have himpatient : initial.under impatient =
      (.error (.invalidValue Key.refreshTimeout.envName "soon"), initial) := by
    decide +kernel
  obtain ⟨-, -, hoverridden, hothers⟩ := variables_override_their_own_parts chatty initial
  obtain ⟨-, hfault, -⟩ := variables_override_their_own_parts impatient initial
  refine ⟨_, _, _, hchatty, hoverridden _ hchatty, rfl, ?_, himpatient, hfault _ _ himpatient, rfl⟩
  refine (hothers _ fun k => if_neg ?_).trans hchatty
  cases k <;> decide

/-- A location of blanks is neither empty nor replaced by the default, which is empty. -/
theorem blank_location_is_kept :
    let env : String → Option String := fun name => if name = Key.location.envName then some "  " else none
    ∃ c, initial.under env = (.ok (), c) ∧ Text.isBlankText (saidText env .location initial.location) = true ∧
      c.location ≠ initial.location := by
  intro env
  have hunder : initial.under env = (.ok (), { initial with location := "  " }) := by decide +kernel
  exact ⟨_, hunder, by decide +kernel, by decide +kernel⟩

end Muster.Config
