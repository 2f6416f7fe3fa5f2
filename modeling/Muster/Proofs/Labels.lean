import Muster.Proofs.Soundness

/-! Tags, roles and settings are left alone by all that is done for characters. -/

namespace Muster

variable {α : Type}

namespace Store

/-- A store without its characters and without all that is known of the outer world. -/
def labels (s : Store) : Store :=
  { s with alliances := .empty, corporations := .empty, characters := .empty, skillNames := .empty }

theorem eq_of_labels {s t : Store} (h : s.labels = t.labels) :
    s.tags = t.tags ∧ s.roles = t.roles ∧ s.settings = t.settings ∧ s.lastTag = t.lastTag ∧
      s.lastRole = t.lastRole :=
  ⟨congrArg (·.tags) h, congrArg (·.roles) h, congrArg (·.settings) h, congrArg (·.lastTag) h,
    congrArg (·.lastRole) h⟩

def LeavesLabels (a : Action α) : Prop := ∀ l, Keeps (fun s => s.labels = l) a

theorem leavesLabels_putAlliance (a : Alliance) : LeavesLabels (putAlliance a) := fun _ =>
  .modify fun _ h => h

theorem leavesLabels_putCorporation (c : Corporation) : LeavesLabels (putCorporation c) := fun _ =>
  keeps_guarded fun _ h _ => h

theorem leavesLabels_putCharacter (now : Instant) (c : Character) :
    LeavesLabels (putCharacter now c) := fun _ => keeps_guarded fun _ h _ => h

theorem leavesLabels_putSkill (k : CharacterSkill) : LeavesLabels (putSkill k) := fun _ =>
  keeps_guarded fun _ h _ => h

theorem leavesLabels_dropSkills (id : Int) (skills : List Int) : LeavesLabels (dropSkills id skills) :=
  fun _ => keeps_dropKeys (.modify fun _ h => h)

theorem leavesLabels_dropCharacter (id : Int) : LeavesLabels (dropCharacter id) := fun _ =>
  .bind .get fun _ => .bind (.modify fun _ h => h) fun _ => .pure _

theorem leavesLabels_putToken (t : TokenRow) : LeavesLabels (putToken t) := fun _ =>
  keeps_guarded fun _ h _ => h

theorem leavesLabels_putSkillNames (names : List SkillName) : LeavesLabels (putSkillNames names) :=
  fun _ => .modify fun _ h => h

/-- A snapshot is put by writes of single rows. -/
theorem keeps_putSnapshot {P : Store → Prop} (halliance : ∀ a, Keeps P (putAlliance a))
    (hcorporation : ∀ c, Keeps P (putCorporation c))
    (hcharacter : ∀ now c, Keeps P (putCharacter now c)) (htoken : ∀ t, Keeps P (putToken t))
    (hskill : ∀ k, Keeps P (putSkill k)) (hdrop : ∀ id skills, Keeps P (dropSkills id skills))
    (s : Snapshot) (now : Instant) (id : Int) (token : TokenRow) : Keeps P (s.put now id token) := by
  have hrow : Keeps P (s.allianceRow.forM putAlliance) := by
    cases s.allianceRow with
    | none => exact .pure _
    | some a => exact halliance a
  refine .bind hrow fun _ => .bind (hcorporation _) fun _ => .bind (hcharacter now _) fun _ =>
    .bind (htoken token) fun _ => .bind .get fun _ => .bind (.forM hskill _) fun _ =>
    .bind (hdrop _ _) fun _ => .bind .get fun _ => ?_
  split
  · exact .pure _
  · exact .throw _

theorem leavesLabels_putSnapshot (s : Snapshot) (now : Instant) (id : Int) (token : TokenRow) :
    LeavesLabels (s.put now id token) := fun l =>
  keeps_putSnapshot (fun a => leavesLabels_putAlliance a l) (fun c => leavesLabels_putCorporation c l)
    (fun now c => leavesLabels_putCharacter now c l) (fun t => leavesLabels_putToken t l)
    (fun k => leavesLabels_putSkill k l) (fun id skills => leavesLabels_dropSkills id skills l) s now id
    token

def OfLabels (Q : Store → Prop) : Prop := ∀ s t : Store, s.labels = t.labels → Q s → Q t

theorem LeavesLabels.keeps {Q : Store → Prop} {a : Action α} (ha : LeavesLabels a)
    (hQ : OfLabels Q) : Keeps Q a := fun s hs => hQ s _ (ha s.labels s rfl).symm hs

end Store

theorem Database.syncInvariant_labels {Q : Store → Prop} (hQ : Store.OfLabels Q) :
    SyncInvariant (Kept Q) where
  look f := keeps_look f
  putSkillNames names := keeps_run ((Store.leavesLabels_putSkillNames names).keeps hQ)
  putSnapshot s now id token := keeps_atomically fun _ _ _ hs hr =>
    ((Store.leavesLabels_putSnapshot s now id token).keeps hQ).of_run hr hs

/-- Syncs keep the store sound, and with that all that can be told from tags, roles and settings. -/
theorem Database.syncInvariant_of_labels {Q : Store → Prop} (hQ : Store.OfLabels Q) :
    SyncInvariant (Kept fun s => s.Sound ∧ Q s) where
  look f := keeps_look f
  putSkillNames names := keeps_run (.and (Store.Operation.putSkillNames names).keeps_sound
    ((Store.leavesLabels_putSkillNames names).keeps hQ))
  putSnapshot s now id token := keeps_atomically fun _ _ _ hs hr =>
    (Keeps.and (Store.Operation.putSnapshot s now id token).keeps_sound
      ((Store.leavesLabels_putSnapshot s now id token).keeps hQ)).of_run hr hs

end Muster
