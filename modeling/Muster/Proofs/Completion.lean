import Mathlib.Data.List.Basic
import Muster.Config.Override

/-! A configuration that is accepted, from a text or after overrides, is complete: no default is missing
from it, and none of it can be refused. So it stays as it is when it is completed and checked again. -/

namespace Muster

namespace Level

def names : List String := ["off", "error", "warn", "warning", "info", "debug", "trace"]

theorem ofName?_eq_none_iff {name : String} : ofName? name = none ↔ name ∉ names := by
  unfold ofName?
  split <;> simp_all [names]

theorem read?_eq_none_iff {raw : String} : read? raw = none ↔ (Text.trim raw).toLower ∉ names :=
  ofName?_eq_none_iff

end Level

namespace Config

/-! Defaults -/

theorem isBlankText_filled {default : String} (h : Text.isBlankText default = false) (text : String) :
    Text.isBlankText (filled default text) = false := by
  rw [filled]
  split
  · exact h
  · exact eq_false_of_ne_true ‹_›

theorem filled_of_not_blank {default text : String} (h : Text.isBlankText text = false) :
    filled default text = text := by
  rw [filled, h, if_neg Bool.false_ne_true]

theorem one_le_positive {default : Nat} (h : 1 ≤ default) (n : Nat) : 1 ≤ positive default n := by
  rw [positive]
  split <;> omega

theorem positive_of_one_le {default n : Nat} (h : 1 ≤ n) : positive default n = n :=
  if_neg (by omega)

theorem front?_rooted (path : String) : (rooted path).front? = some '/' := by
  rw [rooted]
  split
  · exact ‹_›
  · rw [String.front?_eq, String.toList_append]
    rfl

theorem rooted_of_front? {path : String} (h : path.front? = some '/') : rooted path = path := if_pos h

theorem isBlankText_of_front? {path : String} (h : path.front? = some '/') :
    Text.isBlankText path = false := by
  rw [String.front?_eq] at h
  exact List.all_eq_false.2 ⟨'/', List.mem_of_head? h, by decide⟩

/-- A configuration with which the program can run: no text is blank but perhaps the location, the level
and the scheme are known, the path begins with a slash, and there is some time to wait. -/
structure Accepted (c : Config) : Prop where
  level : Text.isBlankText c.level = false
  hostport : Text.isBlankText c.hostport = false
  callbackPath : Text.isBlankText c.callbackPath = false
  callbackScheme : Text.isBlankText c.callbackScheme = false
  clientId : Text.isBlankText c.clientId = false
  known : (Text.trim c.level).toLower ∈ Level.names
  scheme : c.callbackScheme = "http" ∨ c.callbackScheme = "https"
  rooted : c.callbackPath.front? = some '/'
  authTimeout : 1 ≤ c.authTimeout
  refreshTimeout : 1 ≤ c.refreshTimeout

variable {c c' : Config} {env : String → Option String}

theorem check_eq_ok_iff : c.check = .ok () ↔ (Text.trim c.level).toLower ∈ Level.names ∧
    (c.callbackScheme = "http" ∨ c.callbackScheme = "https") := by
  simp only [check, Option.isNone_iff_eq_none, Level.read?_eq_none_iff]
  by_cases hlevel : (Text.trim c.level).toLower ∈ Level.names
  · by_cases hscheme : c.callbackScheme = "http" ∨ c.callbackScheme = "https" <;> simp [hlevel, hscheme]
  · simp [hlevel]

theorem accepted_complete (h : c.complete.check = .ok ()) : c.complete.Accepted where
  level := isBlankText_filled (by decide +kernel) _
  hostport := isBlankText_filled (by decide +kernel) _
  callbackPath := isBlankText_of_front? (front?_rooted _)
  callbackScheme := isBlankText_filled (by decide +kernel) _
  clientId := isBlankText_filled (by decide +kernel) _
  known := (check_eq_ok_iff.1 h).1
  scheme := (check_eq_ok_iff.1 h).2
  rooted := front?_rooted _
  authTimeout := one_le_positive (by decide) _
  refreshTimeout := one_le_positive (by decide) _

theorem Accepted.complete_eq (h : c.Accepted) : c.complete = c := by
  rw [complete, filled_of_not_blank h.level, filled_of_not_blank h.hostport,
    filled_of_not_blank h.callbackPath, rooted_of_front? h.rooted, filled_of_not_blank h.callbackScheme,
    filled_of_not_blank h.clientId, positive_of_one_le h.authTimeout, positive_of_one_le h.refreshTimeout]

theorem read_eq_ok {text : String} (h : read text = .ok c) :
    ∃ d : Config, c = d.complete ∧ d.complete.check = .ok () := by
  rw [read] at h
  split at h
  · cases h
  · rename_i d _
    cases hcheck : d.complete.check with
    | error e =>
      rw [hcheck] at h
      cases h
    | ok =>
      rw [hcheck] at h
      cases h
      exact ⟨d, rfl, hcheck⟩

def under (c : Config) (env : String → Option String) : Except ConfigError Unit × Config :=
  override (m := Id) env c

def underKeys (env : String → Option String) (ks : List Key) (c : Config) :
    Except ConfigError Unit × Config :=
  overrideKeys (m := Id) env ks c

theorem underKeys_cons (k : Key) (ks : List Key) : underKeys env (k :: ks) c =
    match env k.envName with
    | none => underKeys env ks c
    | some value =>
      match c.set k value with
      | .ok c => underKeys env ks c
      | .error e => (.error e, c) := by
  rfl

/-- If no variable is refused and the check is passed, what there is in the end is complete. -/
theorem underKeys_eq_ok {ks : List Key} (h : underKeys env ks c = (.ok (), c')) :
    ∃ d : Config, c' = d.complete ∧ d.complete.check = .ok () := by
  induction ks generalizing c with
  | nil =>
    obtain ⟨hcheck, rfl⟩ := Prod.mk.inj h
    exact ⟨c, rfl, hcheck⟩
  | cons k ks ih =>
    rw [underKeys_cons] at h
    split at h
    · exact ih h
    · split at h
      · exact ih h
      · cases h

theorem underKeys_of_unset (h : ∀ k : Key, env k.envName = none) (ks : List Key) :
    underKeys env ks c = (c.complete.check, c.complete) := by
  induction ks with
  | nil => rfl
  | cons k ks ih => rw [underKeys_cons, h, ih]

/-- A configuration that is read from a text or comes of overrides is complete and known in all its parts.
Overrides by an environment in which none of the variables is set then pass and change nothing. -/
theorem accepted_configuration_is_complete_and_stable :
    (∀ text c, read text = .ok c → c.Accepted) ∧
    (∀ (env : String → Option String) (c c' : Config), c.under env = (.ok (), c') → c'.Accepted) ∧
    ∀ (env : String → Option String) (c : Config), c.Accepted → (∀ k : Key, env k.envName = none) →
      c.under env = (.ok (), c) := by
  refine ⟨fun text c h => ?_, fun env c c' h => ?_, fun env c h hunset => ?_⟩
  · obtain ⟨d, rfl, hcheck⟩ := read_eq_ok h
    exact accepted_complete hcheck
  · obtain ⟨d, rfl, hcheck⟩ := underKeys_eq_ok h
    exact accepted_complete hcheck
  · rw [under, override, ← underKeys, underKeys_of_unset hunset, h.complete_eq,
      check_eq_ok_iff.2 ⟨h.known, h.scheme⟩]

theorem sparse_text_is_accepted :
    let text := "[serving]\nhostport = \"127.0.0.1:9000\"\ncallback_path = \"cb\"\n\n[logging]\nlevel = \"\"\n"
    let env := fun name => if name = Key.level.envName then some "WARNING" else none
    ∃ c c', read text = .ok c ∧ c.Accepted ∧ c.callbackPath = "/cb" ∧ c.under (fun _ => none) = (.ok (), c) ∧
      c.under env = (.ok (), c') ∧ c'.Accepted ∧ c'.level = "WARNING" := by
  intro text env
  have hread : read text = .ok { initial with hostport := "127.0.0.1:9000", callbackPath := "/cb" } := by
    decide +kernel
  have hunder : under { initial with hostport := "127.0.0.1:9000", callbackPath := "/cb" } env =
      (.ok (), { initial with hostport := "127.0.0.1:9000", callbackPath := "/cb", level := "WARNING" }) := by
    decide +kernel
  obtain ⟨hsaid, hset, hstable⟩ := accepted_configuration_is_complete_and_stable
  exact ⟨_, _, hread, hsaid _ _ hread, rfl, hstable _ _ (hsaid _ _ hread) fun _ => rfl, hunder,
    hset _ _ _ hunder, rfl⟩

end Config

end Muster
