import Muster.App.Commands
import Muster.Proofs.StoredText
import Muster.Sync.Snapshot

/-! What the program does to its store is made of single reads and writes. -/

namespace Muster

/-- Reads and writes of the store, one after another. -/
inductive Store.Operation : {α : Type} → Store.Action α → Prop
  | done {α : Type} (a : α) : Operation (pure a)
  | refuse {α : Type} (e : StoreError) : Operation (throw e : Action α)
  | next {α β : Type} {a : Action α} {f : α → Action β} :
    Operation a → (∀ x, Operation (f x)) → Operation (a >>= f)
  | read : Operation get
  | putAlliance (a : Alliance) : Operation (putAlliance a)
  | putCorporation (c : Corporation) : Operation (putCorporation c)
  | putCharacter (now : Instant) (c : Character) : Operation (putCharacter now c)
  | putSkill (k : CharacterSkill) : Operation (putSkill k)
  | dropSkills (id : Int) (skills : List Int) : Operation (dropSkills id skills)
  | dropCharacter (id : Int) : Operation (dropCharacter id)
  | putToken (t : TokenRow) : Operation (putToken t)
  | addTag (name : String) (color : Color) : Operation (addTag name color)
  | updateTag (t : Tag) : Operation (updateTag t)
  | dropTag (id : Int) : Operation (dropTag id)
  | putTagSkill (k : TagSkill) : Operation (putTagSkill k)
  | dropTagSkills (id : Int) (skills : List Int) : Operation (dropTagSkills id skills)
  | addRole (r : NewRole) : Operation (addRole r)
  | updateRole (r : Role) : Operation (updateRole r)
  | dropRole (id : Int) : Operation (dropRole id)
  | putRoleTag (l : RoleTag) : Operation (putRoleTag l)
  | dropRoleTags (id : Int) (tags : List Int) : Operation (dropRoleTags id tags)
  | putSkillNames (names : List SkillName) : Operation (putSkillNames names)
  | putSettings {v : Settings} (h : v.Fits) : Operation (putSettings v)

namespace Store.Operation

theorem look {α : Type} (f : Store → Except StoreError α) : Operation (Store.look f) := by
  refine .next .read fun s => ?_
  cases f s with
  | ok a => exact .done a
  | error e => exact .refuse e

/-- What comes after a look need be an operation only for what can be seen. -/
theorem lookThen {α β : Type} {f : Store → Except StoreError α} {g : α → Action β}
    (h : ∀ s a, f s = .ok a → Operation (g a)) : Operation (Store.look f >>= g) := by
  rw [Store.look, bind_assoc]
  refine .next .read fun s => ?_
  cases hs : f s with
  | ok a =>
    rw [pure_bind]
    exact h s a hs
  | error e => exact .refuse e

theorem ite {α : Type} {c : Prop} [Decidable c] {a b : Action α} (ha : Operation a)
    (hb : Operation b) : Operation (if c then a else b) := by
  split
  · exact ha
  · exact hb

theorem forM {α : Type} {f : α → Action PUnit} (h : ∀ x, Operation (f x)) (xs : List α) :
    Operation (xs.forM f) := by
  induction xs with
  | nil => exact .done ()
  | cons x xs ih => exact .next (h x) fun _ => ih

theorem replaceTagSkills (id : Int) (rs : List SkillRequirement) :
    Operation (Store.replaceTagSkills id rs) :=
  .next .read fun _ => .next (forM .putTagSkill _) fun _ => .next (.dropTagSkills ..) fun _ => .done _

theorem makeTag (name : String) (color : Color) (rs : List SkillRequirement) :
    Operation (Store.makeTag name color rs) :=
  .next (.addTag ..) fun t => .next (replaceTagSkills t.id rs) fun _ => .done _

theorem remakeTag (t : Tag) (rs : List SkillRequirement) : Operation (Store.remakeTag t rs) :=
  .next (.updateTag t) fun _ => ite (.next (replaceTagSkills t.id rs) fun _ => .done _) (.done none)

theorem linkFrom (id p : Int) (tags : List Int) : Operation (Store.linkFrom id p tags) := by
  induction tags generalizing p with
  | nil => exact .done ()
  | cons tag tags ih =>
    have hrest := next (.putRoleTag ⟨id, tag, p⟩) fun _ => ih (p + 1)
    exact .next .read fun s => ite (.next (.refuse _) fun _ => hrest) hrest

theorem replaceRoleTags (id : Int) (tags : List Int) : Operation (Store.replaceRoleTags id tags) :=
  .next .read fun _ => .next (linkFrom id 0 tags) fun _ => .next (.dropRoleTags ..) fun _ => .done _

theorem loadRole (r : Role) : Operation (Store.loadRole r) :=
  .next (look _) fun _ => .done _

theorem makeRole (r : NewRole) (tags : List Int) : Operation (Store.makeRole r tags) :=
  .next (.addRole r) fun r => .next (replaceRoleTags r.id tags) fun _ => loadRole r

theorem remakeRole (r : Role) (tags : List Int) : Operation (Store.remakeRole r tags) :=
  .next (.updateRole r) fun _ =>
    ite (.next (replaceRoleTags r.id tags) fun _ => .next (loadRole r) fun _ => .done _) (.done none)

theorem putSnapshot (s : Snapshot) (now : Instant) (id : Int) (token : TokenRow) :
    Operation (s.put now id token) := by
  have halliance : Operation (s.allianceRow.forM Store.putAlliance) := by
    cases s.allianceRow with
    | none => exact .done ()
    | some a => exact .putAlliance a
  refine .next halliance fun _ => .next (.putCorporation _) fun _ => .next (.putCharacter ..) fun _ =>
    .next (.putToken token) fun _ => .next .read fun _ => .next (forM .putSkill _) fun _ =>
    .next (.dropSkills ..) fun _ => .next .read fun t => ?_
  split
  · exact .done _
  · exact .refuse _

theorem dropSelectedTag (id : Int) : Operation (App.dropSelectedTag id) := by
  refine .next (.dropTag id) fun deleted => lookThen fun s v hv => ?_
  have hfits := (Settings.fits_of_settings? hv).withoutTag id
  exact ite (.next (.putSettings hfits) fun _ => .done deleted) (.done deleted)

theorem dropSelectedRole (id : Int) : Operation (App.dropSelectedRole id) := by
  refine .next (.dropRole id) fun deleted => lookThen fun s v hv => ?_
  have hfits := (Settings.fits_of_settings? hv).withoutRole id
  exact ite (.next (.putSettings hfits) fun _ => .done deleted) (.done deleted)

theorem storeLevel (l : Level) : Operation (App.storeLevel l) := by
  refine lookThen fun s v hv => ?_
  have hfits : ({ v with logLevel := l.name } : Settings).Fits :=
    (Settings.fits_of_settings? hv).of_subset (List.Subset.refl _) (List.Subset.refl _)
  exact .putSettings hfits

end Store.Operation

end Muster
