import Muster.Proofs.Selection
import Muster.Proofs.Trimming

/-! Names of tags and roles are stored without the blanks around them, but for a name that is given to a
tag that is there already. -/

namespace Muster

variable {ω : Type}

namespace Store

def Titled (row : RoleRow) : Prop :=
  Text.isBlankText row.name = false ∧ Text.Trimmed row.name ∧ Text.Trimmed row.label

theorem titled_roleRow {r : NewRole} (hname : Text.isBlankText r.name = false) (tags : List Int) :
    Titled (roleRow { r with name := Text.trim r.name, label := Text.trim r.label } tags) :=
  ⟨Text.isBlankText_trim hname, Text.trimmed_trim r.name, Text.trimmed_trim r.label⟩

/-- No name is blank, and there are no blanks around a name or a label, unless it is the name of a tag
that was saved again with it. -/
structure Named (gs : List Tag) (s : Store) : Prop where
  tags : s.tags.All fun id row => Text.isBlankText row.name = false ∧
    (Text.Trimmed row.name ∨ ∃ g ∈ gs, g.id = id ∧ g.name = row.name)
  roles : s.roles.All fun _ row => Titled row

variable {s t : Store} {gs gs' : List Tag} {id : Int} {tags : List Int}

theorem named_empty (gs : List Tag) : Named gs empty := by
  constructor <;> intro k <;> simp [empty]

theorem ofLabels_named (gs : List Tag) : OfLabels (Named gs) := fun s t hst h => by
  obtain ⟨htags, hroles, -⟩ := eq_of_labels hst
  exact ⟨htags ▸ h.tags, hroles ▸ h.roles⟩

namespace Named

theorem mono (h : s.Named gs) (hgs : gs ⊆ gs') : s.Named gs' :=
  { h with
    tags := h.tags.imp fun _ _ ⟨hblank, hname⟩ =>
      ⟨hblank, hname.imp_right fun ⟨g, hg, heq⟩ => ⟨g, hgs hg, heq⟩⟩ }

theorem makeTag (h : s.Named gs) {name : String} (hname : Text.isBlankText name = false)
    {color : Color} {rs : List SkillRequirement} {data : TagData}
    (hmake : Store.makeTag (Text.trim name) color rs s = (.ok data, t)) : t.Named gs := by
  rw [makeTag_eq] at hmake
  cases hmake
  exact { h with tags := h.tags.insert ⟨Text.isBlankText_trim hname, .inl (Text.trimmed_trim name)⟩ }

theorem remakeTag (h : s.Named gs) {g : Tag} (hg : g ∈ gs) (hname : Text.isBlankText g.name = false)
    {rs : List SkillRequirement} {data : Option TagData}
    (hsave : Store.remakeTag g rs s = (.ok data, t)) : t.Named gs := by
  obtain ⟨-, -, rfl⟩ | ⟨-, -, rfl⟩ := remakeTag_eq_ok hsave
  · exact h
  · exact { h with tags := h.tags.adjust g.id fun _ _ => ⟨hname, .inr ⟨g, hg, rfl, rfl⟩⟩ }

theorem withoutTag (h : s.Named gs) (id : Int) : (s.withoutTag id).Named gs where
  tags := h.tags.erase id
  roles := h.roles.map fun _ _ hrow => hrow

theorem makeRole (h : s.Named gs) {r : NewRole} (hname : Text.isBlankText r.name = false)
    {data : RoleData}
    (hmake : Store.makeRole { r with name := Text.trim r.name, label := Text.trim r.label } tags s =
      (.ok data, t)) : t.Named gs := by
  obtain ⟨-, -, rfl⟩ := makeRole_eq_ok hmake
  exact { h with roles := h.roles.insert (titled_roleRow hname tags) }

theorem remakeRole (h : s.Named gs) {r : Role} (hname : Text.isBlankText r.name = false)
    {data : Option RoleData}
    (hmake : Store.remakeRole { r with name := Text.trim r.name, label := Text.trim r.label } tags s =
      (.ok data, t)) : t.Named gs := by
  obtain ⟨-, -, rfl⟩ | ⟨-, -, -, rfl⟩ := remakeRole_eq_ok hmake
  · exact h
  · exact { h with roles := h.roles.adjust r.id fun _ _ => titled_roleRow hname tags }

end Named

theorem keeps_look {α : Type} {P : Store → Prop} (f : Store → Except StoreError α) :
    Keeps P (look f) := by
  intro s hs
  rw [look_apply]
  exact hs

section

variable {P : Store → Prop} (hput : ∀ v, Keeps P (putSettings v))
include hput

/-! What else is done to the selection is done to the settings. -/

theorem keeps_dropTag_selected (hdrop : Keeps P (dropTag id)) : Keeps P (App.dropSelectedTag id) :=
  .bind hdrop fun _ => .bind (keeps_look _) fun _ => .ite (.bind (hput _) fun _ => .pure _) (.pure _)

theorem keeps_dropRole_selected (hdrop : Keeps P (dropRole id)) : Keeps P (App.dropSelectedRole id) :=
  .bind hdrop fun _ => .bind (keeps_look _) fun _ => .ite (.bind (hput _) fun _ => .pure _) (.pure _)

theorem keeps_level (l : Level) : Keeps P (App.storeLevel l) := .bind (keeps_look _) fun _ => hput _

end

theorem named_putSettings (v : Settings) : Keeps (Named gs) (putSettings v) :=
  .modify fun _ h => { h with }

end Store

theorem Command.keeps_required_bind {α : Type} {P : Session ω → Prop} {field text : String}
    {f : String → Command ω α} (h : Text.isBlankText text = false → Keeps P (f (Text.trim text))) :
    Keeps P (required field text >>= f) := by
  rw [required]
  cases hblank : Text.isBlankText text with
  | true => exact fun _ hs => hs
  | false => exact h hblank

namespace App

def Request.resaved : Request → List Tag
  | .updateTag g _ => [g]
  | _ => []

variable {gs : List Tag}

theorem keeps_named (a : App ω) (q : Request) (hq : q.resaved ⊆ gs) :
    Keeps (fun s : Session ω => s.database.Kept (Store.Named gs)) (a.serve q) := by
  have hP := Database.syncInvariant_labels (Store.ofLabels_named gs)
  -- The four requests that write a name are followed step by step: that they spare a property is asked
  -- for all names, and not for those that are left of what is required.
  have inside {α : Type} (message : String) {c : Store.Action α}
      (h : ∀ s v t, s.Named gs → c s = (.ok v, t) → t.Named gs) :
      Keeps (fun s : Session ω => s.database.Kept (Store.Named gs))
        (Command.inside message (Database.atomically c)) :=
    Command.keeps_inside message (Database.keeps_atomically h)
  cases q with
  | createTag name color text =>
    exact Command.keeps_required_bind fun hname => .bind (keeps_resolveSkills hP a text) fun _ =>
      .bind (keeps_chooseColor a color) fun _ => inside _ fun _ _ _ hs hmake => hs.makeTag hname hmake
  | updateTag g text =>
    have hg : g ∈ gs := hq (List.mem_singleton_self g)
    exact Command.keeps_required_bind fun hname => .bind (keeps_resolveSkills hP a text) fun _ =>
      .bind (inside _ fun _ _ _ hs hsave => hs.remakeTag hg hname hsave) fun _ => Command.keeps_found _ _
  | createRole name label operator color tags =>
    exact Command.keeps_required_bind fun hname => .bind (keeps_chooseColor a color) fun color =>
      inside _ fun _ _ _ hs hmake => hs.makeRole (r := ⟨name, label, operator, color⟩) hname hmake
  | updateRole r tags =>
    exact Command.keeps_required_bind fun hname =>
      .bind (inside _ fun _ _ _ hs hmake => hs.remakeRole hname hmake) fun _ =>
        Command.keeps_found _ _
  | deleteCharacter id =>
    exact keeps_serve hP a _ (Database.keeps_run
      ((Store.leavesLabels_dropCharacter id).keeps (Store.ofLabels_named gs)))
  | deleteTag id =>
    exact keeps_serve hP a _ (Database.keeps_run
      (Store.keeps_dropTag_selected Store.named_putSettings fun _ h => h.withoutTag id))
  | deleteRole id =>
    exact keeps_serve hP a _ (Database.keeps_run (Store.keeps_dropRole_selected Store.named_putSettings
      fun _ h => { h with roles := h.roles.erase id }))
  | saveSettings v => exact keeps_serve hP a _ (Database.keeps_run (Store.named_putSettings _))
  | chooseLevel raw =>
    exact keeps_serve hP a _ (Database.keeps_run (Store.keeps_level Store.named_putSettings _))
  | listCharacters | addCharacter | refreshCharacter | refreshAll | listTags | resolveSkills
  | skillNames | listRoles | characterMatches | overview | settings => exact keeps_serve hP a _ trivial

theorem name_of_updateTag {a : App ω} {s s' : Session ω} {g : Tag} {text : String} {data : TagData}
    (hs : s.database.Kept (Store.Named gs)) (h : a.updateTag g text s = (.ok data, s')) :
    data.tag = g ∧ ∃ row, s'.database.store.tags.get? g.id = some row ∧ row.name = g.name := by
  have hP := Database.syncInvariant_labels (Store.ofLabels_named gs)
  obtain ⟨_, s₁, hrequired, hrest⟩ := bind_eq_ok.1 h
  obtain ⟨-, rfl⟩ := required_eq_ok hrequired
  obtain ⟨rs, s₂, hresolve, hrest⟩ := bind_eq_ok.1 hrest
  obtain ⟨found, s₃, hsave, hfound⟩ := bind_eq_ok.1 hrest
  obtain ⟨rfl, rfl⟩ := found_eq_ok hfound
  have hkept := (keeps_resolveSkills hP a text).of_run hresolve hs
  have hsaved := inside_eq_ok hkept hsave
  obtain ⟨⟨⟩, -, -⟩ | ⟨⟨⟩, hthere, hstore⟩ := Store.remakeTag_eq_ok hsaved
  obtain ⟨row, hrow⟩ := Option.isSome_iff_exists.1 hthere
  refine ⟨rfl, ⟨g.name, g.color.toHex, Store.tabled rs⟩, ?_, rfl⟩
  simp [hstore, Store.withTag, hrow]

end App

/-- What requests and syncs make of a fresh database, with the tags that were saved over others. -/
inductive Database.Resaved : List Tag → Database → Prop
  | fresh : Resaved [] .fresh
  | request {ω : Type} {gs : List Tag} {a : App ω} {s : Session ω} (q : App.Request)
    (h : Resaved gs s.database) : Resaved (gs ++ q.resaved) (a.serve q s).2.database
  | sync {ω α : Type} {gs : List Tag} {y : Syncer ω} {w : Sync ω α} {c : Scene ω}
    (h : Resaved gs c.database) (hw : y.Offers w) : Resaved gs (w c).2.database

theorem Database.Resaved.named {gs : List Tag} {d : Database} (h : Resaved gs d) :
    d.Kept (Store.Named gs) := by
  induction h with
  | fresh => exact ⟨rfl, rfl, rfl, Store.named_empty []⟩
  | @request _ gs a s q _ ih =>
    have hmore := ih.of_store (ih.store.mono (List.subset_append_left gs q.resaved))
    exact App.keeps_named a q (List.subset_append_right gs q.resaved) s hmore
  | sync _ hw ih =>
    exact Syncer.Offers.keeps (syncInvariant_labels (Store.ofLabels_named _)) _ hw _ ih

/-- Names of roles and their labels are stored without the blanks around them, and so are names of tags,
but for those that tags were saved again with: these are stored as they were given. No name is blank. -/
theorem Database.Resaved.names_are_trimmed_unless_saved_again {gs : List Tag} {d : Database}
    (h : Resaved gs d) :
    (∀ id row, d.store.roles.get? id = some row →
      row.name ≠ "" ∧ Text.Trimmed row.name ∧ Text.trim row.name = row.name ∧
        Text.Trimmed row.label ∧ Text.trim row.label = row.label) ∧
    (∀ id row, d.store.tags.get? id = some row →
      row.name ≠ "" ∧ Text.isBlankText row.name = false ∧
        (Text.Trimmed row.name ∧ Text.trim row.name = row.name ∨
          ∃ g ∈ gs, g.id = id ∧ g.name = row.name)) ∧
    ∀ {ω : Type} (a : App ω) (s s' : Session ω) (g : Tag) (text : String) (data : TagData),
      s.database = d → a.updateTag g text s = (.ok data, s') →
      data.tag = g ∧ ∃ row, s'.database.store.tags.get? g.id = some row ∧ row.name = g.name := by
  obtain ⟨htags, hroles⟩ := h.named.store
  refine ⟨fun id row hrow => ?_, fun id row hrow => ?_, fun a s s' g text data hs hupdate => ?_⟩
  · obtain ⟨hblank, hname, hlabel⟩ := hroles id row hrow
    exact ⟨Text.ne_empty_of_not_blank hblank, hname, Text.trimmed_iff.1 hname, hlabel,
      Text.trimmed_iff.1 hlabel⟩
  · obtain ⟨hblank, hname⟩ := htags id row hrow
    exact ⟨Text.ne_empty_of_not_blank hblank, hblank,
      hname.imp_left fun htrimmed => ⟨htrimmed, Text.trimmed_iff.1 htrimmed⟩⟩
  · exact App.name_of_updateTag (hs ▸ h.named) hupdate

theorem Database.Resaved.requests {a : App ω} {gs : List Tag} {s : Session ω}
    (h : Resaved gs s.database) (qs : List App.Request) :
    Resaved (gs ++ qs.flatMap (·.resaved)) (qs.foldl (fun s q => (a.serve q s).2) s).database := by
  induction qs generalizing gs s with
  | nil => simpa using h
  | cons q qs ih =>
    rw [List.flatMap_cons, ← List.append_assoc]
    exact ih (.request q h)

def App.spacious : List App.Request :=
  [.createTag " Guns " (some (.rgb 255 0 0)) "", .createRole " Gunner " " G " .all (some (.rgb 0 0 0)) [1],
    .updateTag ⟨1, " Guns ", .rgb 255 0 0⟩ ""]

theorem Database.resaved_spacious :
    Resaved [⟨1, " Guns ", .rgb 255 0 0⟩] (App.offlineAfter App.spacious).database := by
  have hnone : Resaved [] (App.offlineAfter []).database := .fresh
  exact hnone.requests (a := App.offline) App.spacious

theorem Database.spacious_role_is_trimmed :
    let d := (App.offlineAfter App.spacious).database
    Resaved [⟨1, " Guns ", .rgb 255 0 0⟩] d ∧
      (∃ row, d.store.roles.get? 1 = some row ∧ row.name = "Gunner" ∧ row.label = "G" ∧
        Text.Trimmed row.name ∧ Text.Trimmed row.label) ∧
      ∃ row, d.store.tags.get? 1 = some row ∧ row.name ≠ "" ∧ row.name = " Guns " := by
  intro d
  obtain ⟨hroles, htags, -⟩ := resaved_spacious.names_are_trimmed_unless_saved_again
  have hrole : d.store.roles.get? 1 = some (Store.roleRow ⟨"Gunner", "G", .all, .rgb 0 0 0⟩ [1]) := by
    decide +kernel
  have htag : d.store.tags.get? 1 = some ⟨" Guns ", Color.toHex (.rgb 255 0 0), .empty⟩ := by
    decide +kernel
  obtain ⟨-, hname, -, hlabel, -⟩ := hroles 1 _ hrole
  exact ⟨resaved_spacious, ⟨_, hrole, rfl, rfl, hname, hlabel⟩, _, htag, (htags 1 _ htag).1, rfl⟩

/-- The name of a tag that is saved again is stored with the blanks around it. -/
theorem Database.resaved_tag_keeps_its_blanks :
    let d := (App.offlineAfter App.spacious).database
    Resaved [⟨1, " Guns ", .rgb 255 0 0⟩] d ∧
      ∃ row, d.store.tags.get? 1 = some row ∧ Text.trim row.name ≠ row.name := by
  intro d
  have htag : d.store.tags.get? 1 = some ⟨" Guns ", Color.toHex (.rgb 255 0 0), .empty⟩ := by
    decide +kernel
  exact ⟨resaved_spacious, _, htag, by decide +kernel⟩

end Muster
