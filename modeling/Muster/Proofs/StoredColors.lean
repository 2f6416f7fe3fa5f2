import Muster.Proofs.ColorSpelling
import Muster.Proofs.Integrity
import Muster.Proofs.Names
import Muster.Proofs.TagSaving

/-! Every colour has one canonical text, whatever it was spelt like, and the colours that are listed of tags
and roles are those that were last written for them. -/

namespace Muster

variable {α β κ ω : Type}

theorem lastOf_concat {key : α → κ} (l : List α) (a : α) : LastOf key (l ++ [a]) a :=
  ⟨l, [], rfl, nofun⟩

theorem LastOf.concat {key : α → κ} {l : List α} {a b : α} (h : LastOf key l a) (hb : key b ≠ key a) :
    LastOf key (l ++ [b]) a := by
  obtain ⟨before, after, rfl, hafter⟩ := h
  refine ⟨before, after ++ [b], by simp, fun c hc => ?_⟩
  obtain hc | hc := List.mem_append.1 hc
  · exact hafter c hc
  · rwa [List.mem_singleton.1 hc]

namespace Table

/-- Each row has the canonical text of the colour that was last written under its key. -/
def Colored (color : β → String) (ws : List (Int × Color)) (t : Table Int β) : Prop :=
  t.All fun id row => ∃ c : Color, color row = c.toHex ∧ LastOf Prod.fst ws (id, c)

variable {color : β → String} {ws : List (Int × Color)} {t u : Table Int β} {id : Int} {c : Color}

theorem Colored.write (h : t.Colored color ws) (hrow : ∀ row, u.get? id = some row → color row = c.toHex)
    (hothers : ∀ i, i ≠ id → u.get? i = t.get? i) : u.Colored color (ws ++ [(id, c)]) := by
  intro i row hi
  by_cases hid : i = id
  · subst hid
    exact ⟨c, hrow row hi, lastOf_concat ws _⟩
  · obtain ⟨c', hc', hlast⟩ := h i row (hothers i hid ▸ hi)
    exact ⟨c', hc', hlast.concat (Ne.symm hid)⟩

theorem Colored.insert (h : t.Colored color ws) {row : β} (hrow : color row = c.toHex) :
    (t.insert id row).Colored color (ws ++ [(id, c)]) :=
  h.write (fun row' hrow' => by simp_all) fun i hi => by simp [hi]

theorem Colored.adjust (h : t.Colored color ws) {f : β → β} (hf : ∀ row, color (f row) = c.toHex) :
    (t.adjust id f).Colored color (ws ++ [(id, c)]) := by
  refine h.write (fun row hrow => ?_) fun i hi => by simp [hi]
  rw [get?_adjust, if_pos rfl] at hrow
  obtain ⟨old, -, rfl⟩ := Option.map_eq_some_iff.1 hrow
  exact hf old

end Table

namespace Store

structure Colored (ts rs : List (Int × Color)) (s : Store) : Prop where
  tags : s.tags.Colored TagRow.color ts
  roles : s.roles.Colored RoleRow.color rs

variable {s t : Store} {ts rs : List (Int × Color)}

theorem ofLabels_colored (ts rs : List (Int × Color)) : OfLabels (Colored ts rs) := fun s t hst h => by
  obtain ⟨htags, hroles, -⟩ := eq_of_labels hst
  exact ⟨htags ▸ h.tags, hroles ▸ h.roles⟩

namespace Colored

theorem withoutTag (h : s.Colored ts rs) (id : Int) : (s.withoutTag id).Colored ts rs where
  tags := h.tags.erase id
  roles := h.roles.map fun _ _ hrow => hrow

theorem addTag (h : s.Colored ts rs) {name : String} {color : Color} {g : Tag}
    (hadd : Store.addTag name color s = (.ok g, t)) : t.Colored (ts ++ [(g.id, color)]) rs := by
  rw [addTag_eq] at hadd
  cases hadd
  exact { h with tags := h.tags.insert rfl }

theorem updateTag (h : s.Colored ts rs) {g : Tag} {found : Bool}
    (hsave : Store.updateTag g s = (.ok found, t)) : t.Colored (ts ++ [(g.id, g.color)]) rs := by
  rw [updateTag_eq] at hsave
  cases hsave
  exact { h with tags := h.tags.adjust fun _ => rfl }

theorem makeTag (h : s.Colored ts rs) {name : String} {color : Color} {asked : List SkillRequirement}
    {data : TagData} (hmake : Store.makeTag name color asked s = (.ok data, t)) :
    data.tag.color = color ∧ t.Colored (ts ++ [(data.tag.id, color)]) rs := by
  rw [makeTag_eq] at hmake
  cases hmake
  exact ⟨rfl, { h with tags := h.tags.insert rfl }⟩

theorem remakeTag (h : s.Colored ts rs) {g : Tag} {asked : List SkillRequirement} {data : Option TagData}
    (hsave : Store.remakeTag g asked s = (.ok data, t)) :
    data = none ∧ t.Colored ts rs ∨ data.isSome ∧ t.Colored (ts ++ [(g.id, g.color)]) rs := by
  obtain ⟨rfl, -, rfl⟩ | ⟨rfl, -, rfl⟩ := remakeTag_eq_ok hsave
  · exact .inl ⟨rfl, h⟩
  · exact .inr ⟨rfl, { h with tags := h.tags.adjust fun _ => rfl }⟩

theorem addRole (h : s.Colored ts rs) {new : NewRole} {r : Role}
    (hadd : Store.addRole new s = (.ok r, t)) : t.Colored ts (rs ++ [(r.id, new.color)]) := by
  rw [addRole_eq] at hadd
  cases hadd
  exact { h with roles := h.roles.insert rfl }

theorem updateRole (h : s.Colored ts rs) {r : Role} {found : Bool}
    (hsave : Store.updateRole r s = (.ok found, t)) : t.Colored ts (rs ++ [(r.id, r.color)]) := by
  rw [updateRole_eq] at hsave
  cases hsave
  exact { h with roles := h.roles.adjust fun _ => rfl }

theorem makeRole (h : s.Colored ts rs) {r : NewRole} {tags : List Int} {data : RoleData}
    (hmake : Store.makeRole r tags s = (.ok data, t)) :
    data.role.color = r.color ∧ t.Colored ts (rs ++ [(data.role.id, r.color)]) := by
  obtain ⟨hdata, -, rfl⟩ := makeRole_eq_ok hmake
  rw [hdata]
  exact ⟨rfl, { h with roles := h.roles.insert rfl }⟩

theorem remakeRole (h : s.Colored ts rs) {r : Role} {tags : List Int} {data : Option RoleData}
    (hsave : Store.remakeRole r tags s = (.ok data, t)) :
    data = none ∧ t.Colored ts rs ∨ data.isSome ∧ t.Colored ts (rs ++ [(r.id, r.color)]) := by
  obtain ⟨rfl, -, rfl⟩ | ⟨⟨linked, rfl⟩, -, -, rfl⟩ := remakeRole_eq_ok hsave
  · exact .inl ⟨rfl, h⟩
  · exact .inr ⟨rfl, { h with roles := h.roles.adjust fun _ => rfl }⟩

end Colored

theorem colored_putSettings (v : Settings) : Keeps (Colored ts rs) (putSettings v) :=
  .modify fun _ h => { h with }

/-! What is listed -/

theorem Sound.of_mem_allRoles (h : s.Sound) {roles : List RoleData} (hroles : s.allRoles = .ok roles)
    {e : RoleData} (he : e ∈ roles) :
    ∃ row, s.roles.get? e.role.id = some row ∧ readRole e.role.id row = .ok e.role ∧
      ∀ g ∈ e.tags, s.tag? g.id = .ok (some g) := by
  have hkey : e.role.id ∈ s.roles.keys := (map_id_allRoles hroles).mem_iff.1 (List.mem_map_of_mem he)
  obtain ⟨row, hrow⟩ := Option.isSome_iff_exists.1 (Table.mem_keys.1 hkey)
  obtain ⟨roles', e', hroles', hone, hread, -, htags⟩ := h.filter_allRoles hrow
  cases hroles.symm.trans hroles'
  have hmem : e ∈ roles.filter fun data => data.role.id = e.role.id := List.mem_filter.2 ⟨he, by simp⟩
  rw [hone, List.mem_singleton] at hmem
  subst hmem
  exact ⟨row, hrow, hread, htags⟩

theorem readRole_color {id : Int} {row : RoleRow} {r : Role} {c : Color} (h : readRole id row = .ok r)
    (hc : row.color = c.toHex) : r.color = c := by
  obtain ⟨op, -, h⟩ := exceptBind_eq_ok.1 h
  obtain ⟨c', hc', h⟩ := exceptBind_eq_ok.1 h
  rw [hc, readColor_toHex] at hc'
  cases hc'
  cases h
  rfl

theorem Colored.of_readTag (h : s.Colored ts rs) {id : Int} {row : TagRow} {g : Tag}
    (hrow : s.tags.get? id = some row) (hread : readTag id row = .ok g) :
    LastOf Prod.fst ts (g.id, g.color) := by
  obtain ⟨c, hc, hlast⟩ := h.tags _ _ hrow
  rw [readTag_of_color hc] at hread
  rwa [← Except.ok.inj hread]

def tagColors (tags : List TagData) : List (Int × Color) := tags.map fun e => (e.tag.id, e.tag.color)

def roleColors (roles : List RoleData) : List (Int × Color) := roles.map fun e => (e.role.id, e.role.color)

/-- All tags and roles are listed, each with the colour that was last written for it. -/
structure ListsColors (ts rs : List (Int × Color)) (s : Store) (tags : List TagData) (roles : List RoleData) :
    Prop where
  allTags : s.allTags = .ok tags
  allRoles : s.allRoles = .ok roles
  tagIds : (tags.map (·.tag.id)).Perm s.tags.keys
  roleIds : (roles.map (·.role.id)).Perm s.roles.keys
  tagColors : ∀ e ∈ tags, LastOf Prod.fst ts (e.tag.id, e.tag.color)
  roleColors : ∀ e ∈ roles, LastOf Prod.fst rs (e.role.id, e.role.color)
  linkedColors : ∀ e ∈ roles, ∀ g ∈ e.tags, LastOf Prod.fst ts (g.id, g.color)

theorem Colored.lists (h : s.Colored ts rs) (hs : s.Sound) : ∃ tags roles, s.ListsColors ts rs tags roles := by
  obtain ⟨tags, htags⟩ := hs.allTags_ok
  obtain ⟨roles, hroles⟩ := hs.allRoles_ok
  refine ⟨tags, roles, htags, hroles, map_id_allTags htags, map_id_allRoles hroles, fun e he => ?_,
    fun e he => ?_, fun e he g hg => ?_⟩
  · obtain ⟨row, hrow, hread, -⟩ := (mem_allTags htags).1 he
    exact h.of_readTag hrow hread
  · obtain ⟨row, hrow, hread, -⟩ := hs.of_mem_allRoles hroles he
    obtain ⟨c, hc, hlast⟩ := h.roles _ _ hrow
    rwa [readRole_color hread hc]
  · obtain ⟨-, -, -, hlinked⟩ := hs.of_mem_allRoles hroles he
    have hg := hlinked g hg
    cases hrow : s.tags.get? g.id with
    | none =>
      rw [tag?, hrow] at hg
      cases hg
    | some row =>
      rw [tag?, hrow] at hg
      obtain ⟨g', hread, hg⟩ := exceptBind_eq_ok.1 hg
      cases hg
      exact h.of_readTag hrow hread

theorem Sound.colored (h : s.Sound) {tags : List TagData} {roles : List RoleData}
    (htags : s.allTags = .ok tags) (hroles : s.allRoles = .ok roles) :
    s.Colored (tagColors tags) (roleColors roles) where
  tags id row hrow := by
    obtain ⟨c, hc⟩ := h.tags id row hrow
    have hids : ((tagColors tags).map Prod.fst).Nodup := by
      rw [tagColors, List.map_map]
      exact (map_id_allTags htags).nodup_iff.2 (Table.nodup_keys _)
    have hlisted : ⟨⟨id, row.name, c⟩, requirementsOf id row⟩ ∈ tags :=
      (mem_allTags htags).2 ⟨row, hrow, readTag_of_color hc, rfl⟩
    exact ⟨c, hc, (lastOf_of_nodup hids).2 (List.mem_map.2 ⟨_, hlisted, rfl⟩)⟩
  roles id row hrow := by
    obtain ⟨-, ⟨c, hc⟩, -⟩ := h.roles id row hrow
    have hids : ((roleColors roles).map Prod.fst).Nodup := by
      rw [roleColors, List.map_map]
      exact (map_id_allRoles hroles).nodup_iff.2 (Table.nodup_keys _)
    obtain ⟨roles', e, hroles', hone, hread, -⟩ := h.filter_allRoles hrow
    cases hroles.symm.trans hroles'
    have he : e ∈ roles := List.mem_of_mem_filter (hone ▸ List.mem_singleton_self e)
    refine ⟨c, hc, (lastOf_of_nodup hids).2 (List.mem_map.2 ⟨e, he, ?_⟩)⟩
    rw [readRole_id hread, readRole_color hread hc]

end Store

namespace App

variable {ts rs : List (Int × Color)}

/-- The colour that a request has written for a tag: the one that was given, or the one that was chosen. -/
def Request.tagColors : (q : Request) → Except (Halt PublicError) q.Answer → List (Int × Color)
  | .createTag _ color _, .ok (data : TagData) => [(data.tag.id, color.getD data.tag.color)]
  | .updateTag g _, .ok _ => [(g.id, g.color)]
  | _, _ => []

def Request.roleColors : (q : Request) → Except (Halt PublicError) q.Answer → List (Int × Color)
  | .createRole _ _ _ color _, .ok (data : RoleData) => [(data.role.id, color.getD data.role.color)]
  | .updateRole r _, .ok _ => [(r.id, r.color)]
  | _, _ => []

theorem Request.tagColors_error (q : Request) (e : Halt PublicError) : q.tagColors (.error e) = [] := by
  cases q <;> rfl

theorem Request.roleColors_error (q : Request) (e : Halt PublicError) : q.roleColors (.error e) = [] := by
  cases q <;> rfl

def Colors (q : Request) (ts rs : List (Int × Color)) (r : Except (Halt PublicError) q.Answer) : Store → Prop :=
  Store.Colored (ts ++ q.tagColors r) (rs ++ q.roleColors r)

theorem colors_of_tag {q : Request} {r : Except (Halt PublicError) q.Answer} {t : Store} {e : Int × Color}
    (htag : q.tagColors r = [e]) (hrole : q.roleColors r = []) (h : t.Colored (ts ++ [e]) rs) :
    Colors q ts rs r t := by
  rwa [Colors, htag, hrole, List.append_nil]

theorem colors_of_role {q : Request} {r : Except (Halt PublicError) q.Answer} {t : Store} {e : Int × Color}
    (htag : q.tagColors r = []) (hrole : q.roleColors r = [e]) (h : t.Colored ts (rs ++ [e])) :
    Colors q ts rs r t := by
  rwa [Colors, htag, hrole, List.append_nil]

theorem colors_of_none {q : Request} {r : Except (Halt PublicError) q.Answer} {t : Store}
    (htag : q.tagColors r = []) (hrole : q.roleColors r = []) (h : t.Colored ts rs) : Colors q ts rs r t := by
  rwa [Colors, htag, hrole, List.append_nil, List.append_nil]

theorem colors_of_error (ts rs : List (Int × Color)) (q : Request) (e : Halt PublicError) (t : Store)
    (h : t.Colored ts rs) : Colors q ts rs (.error e) t :=
  colors_of_none (q.tagColors_error e) (q.roleColors_error e) h

variable (a : App ω)

theorem colored_createTag (name : String) (color : Option Color) (text : String) :
    Brings (fun s : Session ω => s.database.Kept (Store.Colored ts rs))
      (fun r s => s.database.Kept (Colors (.createTag name color text) ts rs r))
      (a.createTag name color text) := by
  have hP := Database.syncInvariant_labels (Store.ofLabels_colored ts rs)
  have herror := colors_of_error ts rs (.createTag name color text)
  have hfails (e : Halt PublicError) (s : Session ω) (hs : s.database.Kept _) := hs.imp (herror e)
  refine (Command.keeps_required _ _).brings_bind hfails fun title =>
    (keeps_resolveSkills hP a text).brings_bind hfails fun asked =>
    brings_chooseColor a color fun chosen hchosen => brings_inside herror fun s data t hs hmake => ?_
  obtain ⟨hcolor, hcolored⟩ := hs.makeTag hmake
  refine colors_of_tag (e := (data.tag.id, color.getD data.tag.color)) rfl rfl ?_
  rwa [hcolor, hchosen]

theorem colored_createRole (name label : String) (operator : Operator) (color : Option Color)
    (tags : List Int) :
    Brings (fun s : Session ω => s.database.Kept (Store.Colored ts rs))
      (fun r s => s.database.Kept (Colors (.createRole name label operator color tags) ts rs r))
      (a.createRole name label operator color tags) := by
  have herror := colors_of_error ts rs (.createRole name label operator color tags)
  have hfails (e : Halt PublicError) (s : Session ω) (hs : s.database.Kept _) := hs.imp (herror e)
  refine (Command.keeps_required _ _).brings_bind hfails fun title =>
    brings_chooseColor a color fun chosen hchosen => brings_inside herror fun s data t hs hmake => ?_
  obtain ⟨hcolor, hcolored⟩ := hs.makeRole hmake
  refine colors_of_role (e := (data.role.id, color.getD data.role.color)) rfl rfl ?_
  rwa [hcolor, hchosen]

theorem colored_updateTag (g : Tag) (text : String) :
    Brings (fun s : Session ω => s.database.Kept (Store.Colored ts rs))
      (fun r s => s.database.Kept (Colors (.updateTag g text) ts rs r)) (a.updateTag g text) := by
  have hP := Database.syncInvariant_labels (Store.ofLabels_colored ts rs)
  have hfails (e : Halt PublicError) (s : Session ω) (hs : s.database.Kept _) :=
    hs.imp (colors_of_error ts rs (.updateTag g text) e)
  refine (Command.keeps_required _ _).brings_bind hfails fun _ =>
    (keeps_resolveSkills hP a text).brings_bind hfails fun asked s hs => ?_
  rcases inside_cases hs "Could not save tag" (Store.remakeTag g asked) with
    ⟨e, hsave⟩ | ⟨data, t, hsaved, hsave⟩
  · rw [bind_of_error hsave]
    exact hfails e s hs
  rw [bind_of_ok hsave]
  obtain ⟨rfl, hcolored⟩ | ⟨hdata, hcolored⟩ := hs.store.remakeTag hsaved
  · exact hfails _ _ (hs.of_store hcolored)
  · obtain ⟨data, rfl⟩ := Option.isSome_iff_exists.1 hdata
    exact hs.of_store (colors_of_tag rfl rfl hcolored)

theorem colored_updateRole (r : Role) (tags : List Int) :
    Brings (fun s : Session ω => s.database.Kept (Store.Colored ts rs))
      (fun x s => s.database.Kept (Colors (.updateRole r tags) ts rs x)) (updateRole r tags) := by
  have hfails (e : Halt PublicError) (s : Session ω) (hs : s.database.Kept _) :=
    hs.imp (colors_of_error ts rs (.updateRole r tags) e)
  refine (Command.keeps_required _ _).brings_bind hfails fun title s hs => ?_
  let saved : Role := { r with name := title, label := Text.trim r.label }
  rcases inside_cases hs "Could not save role" (Store.remakeRole saved tags) with
    ⟨e, hsave⟩ | ⟨data, t, hsaved, hsave⟩
  · rw [bind_of_error hsave]
    exact hfails e s hs
  rw [bind_of_ok hsave]
  obtain ⟨rfl, hcolored⟩ | ⟨hdata, hcolored⟩ := hs.store.remakeRole hsaved
  · exact hfails _ _ (hs.of_store hcolored)
  · obtain ⟨data, rfl⟩ := Option.isSome_iff_exists.1 hdata
    exact hs.of_store (colors_of_role rfl rfl hcolored)

/-- Whatever comes of a request, the colours that it has written are the last ones. -/
theorem colored_serve (q : Request) :
    Brings (fun s : Session ω => s.database.Kept (Store.Colored ts rs))
      (fun r s => s.database.Kept (Colors q ts rs r)) (a.serve q) := by
  have hP := Database.syncInvariant_labels (Store.ofLabels_colored ts rs)
  have hput (v : Settings) : Keeps (Store.Colored ts rs) (Store.putSettings v) := Store.colored_putSettings v
  have spared (q : Request) (hspares : q.Spares (Database.Kept (Store.Colored ts rs)))
      (htags : ∀ r, q.tagColors r = []) (hroles : ∀ r, q.roleColors r = []) :
      Brings (fun s : Session ω => s.database.Kept (Store.Colored ts rs))
        (fun r s => s.database.Kept (Colors q ts rs r)) (a.serve q) := fun s hs =>
    (keeps_serve hP a q hspares s hs).imp fun _ => colors_of_none (htags _) (hroles _)
  cases q with
  | createTag name color text => exact colored_createTag a name color text
  | updateTag g text => exact colored_updateTag a g text
  | createRole name label operator color tags => exact colored_createRole a name label operator color tags
  | updateRole r tags => exact colored_updateRole r tags
  | deleteCharacter id =>
    exact spared _ (Database.keeps_run ((Store.leavesLabels_dropCharacter id).keeps
      (Store.ofLabels_colored ts rs))) (fun _ => rfl) fun _ => rfl
  | deleteTag id =>
    exact spared _ (Database.keeps_run (Store.keeps_dropTag_selected hput fun _ h => h.withoutTag id))
      (fun _ => rfl) fun _ => rfl
  | deleteRole id =>
    exact spared _ (Database.keeps_run (Store.keeps_dropRole_selected hput
      fun _ h => { h with roles := h.roles.erase id })) (fun _ => rfl) fun _ => rfl
  | saveSettings v => exact spared _ (Database.keeps_run (hput _)) (fun _ => rfl) fun _ => rfl
  | chooseLevel raw =>
    exact spared _ (Database.keeps_run (Store.keeps_level hput _)) (fun _ => rfl) fun _ => rfl
  | listCharacters | addCharacter | refreshCharacter | refreshAll | listTags | resolveSkills
  | skillNames | listRoles | characterMatches | overview | settings =>
    exact spared _ trivial (fun _ => rfl) fun _ => rfl

def Request.Fits : Request → Prop
  | .saveSettings v => v.Fits
  | _ => True

theorem offers_serve {q : Request} (hq : q.Fits) : a.Offers (a.serve q) := by
  cases q with
  | listCharacters => exact .listCharacters
  | addCharacter secret state => exact .addCharacter secret state
  | refreshCharacter id => exact .refreshCharacter id
  | refreshAll => exact .refreshAll
  | deleteCharacter id => exact .deleteCharacter id
  | listTags => exact .listTags
  | resolveSkills text => exact .resolveSkills text
  | createTag name color text => exact .createTag name color text
  | updateTag g text => exact .updateTag g text
  | deleteTag id => exact .deleteTag id
  | skillNames skills => exact .skillNames skills
  | listRoles => exact .listRoles
  | createRole name label operator color tags => exact .createRole name label operator color tags
  | updateRole r tags => exact .updateRole r tags
  | deleteRole id => exact .deleteRole id
  | characterMatches id => exact .characterMatches id
  | overview => exact .overview
  | settings => exact .settings
  | saveSettings v => exact .saveSettings hq
  | chooseLevel raw => exact .chooseLevel raw

end App

namespace Database

open Store (Colored)

variable {ts rs : List (Int × Color)} {d d' d'' : Database}

/-- What requests, syncs and single writes make of a database, with the colours that they have written for
tags and for roles, one after another. -/
inductive Recolored (d : Database) : List (Int × Color) → List (Int × Color) → Database → Prop
  | refl : Recolored d [] [] d
  | request {ω : Type} {ts rs : List (Int × Color)} {a : App ω} {s : Session ω} {q : App.Request}
    (h : Recolored d ts rs s.database) (hq : q.Fits) :
    Recolored d (ts ++ q.tagColors (a.serve q s).1) (rs ++ q.roleColors (a.serve q s).1)
      (a.serve q s).2.database
  | sync {ω α : Type} {ts rs : List (Int × Color)} {y : Syncer ω} {w : Sync ω α} {c : Scene ω}
    (h : Recolored d ts rs c.database) (hw : y.Offers w) : Recolored d ts rs (w c).2.database
  | addTag {ts rs : List (Int × Color)} {name : String} {color : Color} {g : Tag} {d' d'' : Database}
    (h : Recolored d ts rs d') (hrun : run (Store.addTag name color) d' = (.ok g, d'')) :
    Recolored d (ts ++ [(g.id, color)]) rs d''
  | updateTag {ts rs : List (Int × Color)} {g : Tag} {d' d'' : Database}
    (h : Recolored d ts rs d') (hrun : run (Store.updateTag g) d' = (.ok true, d'')) :
    Recolored d (ts ++ [(g.id, g.color)]) rs d''
  | addRole {ts rs : List (Int × Color)} {new : NewRole} {r : Role} {d' d'' : Database}
    (h : Recolored d ts rs d') (hrun : run (Store.addRole new) d' = (.ok r, d'')) :
    Recolored d ts (rs ++ [(r.id, new.color)]) d''
  | updateRole {ts rs : List (Int × Color)} {r : Role} {d' d'' : Database}
    (h : Recolored d ts rs d') (hrun : run (Store.updateRole r) d' = (.ok true, d'')) :
    Recolored d ts (rs ++ [(r.id, r.color)]) d''

theorem Reachable.of_run {α : Type} {a : Store.Action α} {x : Except StoreError α} (h : Reachable d)
    (ha : Store.Operation a) (hrun : Database.run a d = (x, d')) : Reachable d' := by
  have hd := h.run ha
  rwa [hrun] at hd

theorem Recolored.reachable (h : Recolored d ts rs d') (hd : Reachable d) : Reachable d' := by
  induction h with
  | refl => exact hd
  | request _ hq ih => exact ih.command (App.offers_serve _ hq)
  | sync _ hw ih => exact ih.sync hw
  | addTag _ hrun ih => exact ih.of_run (.addTag _ _) hrun
  | updateTag _ hrun ih => exact ih.of_run (.updateTag _) hrun
  | addRole _ hrun ih => exact ih.of_run (.addRole _) hrun
  | updateRole _ hrun ih => exact ih.of_run (.updateRole _) hrun

theorem Kept.of_run {α : Type} {P Q : Store → Prop} {a : Store.Action α} {x : Except StoreError α}
    (h : d.Kept P) (hrun : run a d = (x, d')) (ha : ∀ t, a d.store = (x, t) → Q t) : d'.Kept Q := by
  obtain ⟨hx, rfl⟩ := Prod.mk.inj hrun
  exact h.of_store (ha _ (Prod.ext hx rfl))

theorem Recolored.colored {before before' : List (Int × Color)} (h : Recolored d ts rs d')
    (hd : d.Kept (Colored before before')) : d'.Kept (Colored (before ++ ts) (before' ++ rs)) := by
  induction h with
  | refl => simpa using hd
  | request _ _ ih =>
    rw [← List.append_assoc, ← List.append_assoc]
    exact App.colored_serve _ _ _ ih
  | sync _ hw ih =>
    exact Syncer.Offers.keeps (syncInvariant_labels (Store.ofLabels_colored _ _)) _ hw _ ih
  | addTag _ hrun ih =>
    rw [← List.append_assoc]
    exact ih.of_run hrun fun _ => ih.store.addTag
  | updateTag _ hrun ih =>
    rw [← List.append_assoc]
    exact ih.of_run hrun fun _ => ih.store.updateTag
  | addRole _ hrun ih =>
    rw [← List.append_assoc]
    exact ih.of_run hrun fun _ => ih.store.addRole
  | updateRole _ hrun ih =>
    rw [← List.append_assoc]
    exact ih.of_run hrun fun _ => ih.store.updateRole

/-- Every colour has one canonical text, which is read as that colour. Texts that are read as colours have the
same canonical text just when they are read as the same colour, and all spellings of a colour are. What is then
listed of tags and roles is the colour that was last written for each, or the one that was listed before. -/
theorem colors_are_read_back_from_their_canonical_text :
    (∀ c : Color, Color.ofHex c.toHex = .ok c) ∧
    (∀ raw c, Color.ofHex raw = .ok c → Color.ofHex c.toHex = .ok c ∧
      ∀ raw' c', Color.ofHex raw' = .ok c' → (c'.toHex = c.toHex ↔ c' = c)) ∧
    (∀ raw (c : Color), c.Respells raw → Color.ofHex raw = .ok c) ∧
    ∀ (d d' : Database) ts rs, d.Reachable → d.Recolored ts rs d' →
      ∃ tags roles tags' roles', d.store.allTags = .ok tags ∧ d.store.allRoles = .ok roles ∧
        d'.store.ListsColors (Store.tagColors tags ++ ts) (Store.roleColors roles ++ rs) tags' roles' := by
  have hread (c : Color) : Color.ofHex c.toHex = .ok c := Color.ofHex_toHex c
  refine ⟨hread, fun raw c _ => ⟨hread c, fun raw' c' _ => ⟨fun h => ?_, fun h => h ▸ rfl⟩⟩,
    fun raw c h => h.ofHex, fun d d' ts rs hd h => ?_⟩
  · exact Except.ok.inj ((hread c').symm.trans (h ▸ hread c))
  · have hsound := hd.sound
    obtain ⟨tags, htags⟩ := hsound.store.allTags_ok
    obtain ⟨roles, hroles⟩ := hsound.store.allRoles_ok
    have hcolored := h.colored (hsound.of_store (hsound.store.colored htags hroles))
    obtain ⟨tags', roles', hlists⟩ := hcolored.store.lists (h.reachable hd).sound.store
    exact ⟨tags, roles, tags', roles', htags, hroles, hlists⟩

theorem Recolored.next {ts' rs' : List (Int × Color)} {qs : List App.Request}
    (h : Recolored d ts rs (App.offlineAfter qs).database) (q : App.Request) (hq : q.Fits)
    (htags : ts ++ q.tagColors (App.offline.serve q (App.offlineAfter qs)).1 = ts')
    (hroles : rs ++ q.roleColors (App.offline.serve q (App.offlineAfter qs)).1 = rs') :
    Recolored d ts' rs' (App.offlineAfter (qs ++ [q])).database := by
  rw [App.offlineAfter, List.foldl_append, ← htags, ← hroles]
  exact .request h hq

def repainted : List App.Request :=
  [.createTag "Guns" (some (.rgb 255 128 0)) "", .createRole "Gunner" "" .all (some (.rgb 0 0 0)) [1],
    .updateTag ⟨1, "Guns", ⟨0, 0, 255, 127⟩⟩ ""]

/-- The colour of the tag can be spelt in capitals, between blanks and with its opacity; the other one that the
tag is given is what is then listed of it, also with the role. -/
theorem orange_tag_turns_blue :
    Color.ofHex " FF8000ff " = .ok (.rgb 255 128 0) ∧ (Color.rgb 255 128 0).toHex = "#ff8000" ∧
      Color.ofHex "#ff8000" = .ok (.rgb 255 128 0) ∧
      ∃ tags roles, (App.offlineAfter repainted).database.store.allTags = .ok tags ∧
        (App.offlineAfter repainted).database.store.allRoles = .ok roles ∧ tags.map (·.tag.id) = [1] ∧
        (∀ e ∈ tags, e.tag.color = ⟨0, 0, 255, 127⟩) ∧
        ∀ e ∈ roles, e.role.color = .rgb 0 0 0 ∧ ∀ g ∈ e.tags, g.color = ⟨0, 0, 255, 127⟩ := by
  obtain ⟨-, hsame, hspelt, hkept⟩ := colors_are_read_back_from_their_canonical_text
  have hrespells : (Color.rgb 255 128 0).Respells " FF8000ff " :=
    ⟨[' '], [], "FF8000".toList, "ff".toList, [' '], by decide, by decide, .inl rfl, .inr (by decide),
      by simp [Text.isBlank]⟩
  have horange := hspelt _ _ hrespells
  have h₀ : Recolored fresh [] [] (App.offlineAfter []).database := .refl
  have h₁ : Recolored fresh [(1, .rgb 255 128 0)] [] (App.offlineAfter (repainted.take 1)).database :=
    h₀.next repainted[0] trivial (by decide +kernel) (by decide +kernel)
  have h₂ : Recolored fresh [(1, .rgb 255 128 0)] [(1, .rgb 0 0 0)]
      (App.offlineAfter (repainted.take 2)).database :=
    h₁.next repainted[1] trivial (by decide +kernel) (by decide +kernel)
  have h₃ : Recolored fresh [(1, .rgb 255 128 0), (1, ⟨0, 0, 255, 127⟩)] [(1, .rgb 0 0 0)]
      (App.offlineAfter repainted).database :=
    h₂.next repainted[2] trivial (by decide +kernel) (by decide +kernel)
  obtain ⟨tags, roles, tags', roles', htags, hroles, hlists⟩ := hkept _ _ _ _ .fresh h₃
  have hnoTags : tags = [] := List.map_eq_nil_iff.1 (List.perm_nil.1 (Store.map_id_allTags htags))
  have hnoRoles : roles = [] := List.map_eq_nil_iff.1 (List.perm_nil.1 (Store.map_id_allRoles hroles))
  subst hnoTags hnoRoles
  have hids : tags'.map (·.tag.id) = [1] :=
    List.perm_singleton.1 (hlists.tagIds.trans (.of_eq (by decide +kernel)))
  have hblue (id : Int) (c : Color)
      (h : LastOf Prod.fst [(1, Color.rgb 255 128 0), (1, ⟨0, 0, 255, 127⟩)] (id, c)) :
      c = ⟨0, 0, 255, 127⟩ := by
    rw [lastOf_iff_getLast?] at h
    by_cases hid : 1 = id <;> simp_all
  have hblack (id : Int) (c : Color) (h : LastOf Prod.fst [(1, Color.rgb 0 0 0)] (id, c)) :
      c = .rgb 0 0 0 := by
    rw [lastOf_iff_getLast?] at h
    by_cases hid : 1 = id <;> simp_all
  exact ⟨horange, by decide, (hsame _ _ horange).1, tags', roles', hlists.allTags, hlists.allRoles, hids,
    fun e he => hblue _ _ (hlists.tagColors e he), fun e he => ⟨hblack _ _ (hlists.roleColors e he),
      fun g hg => hblue _ _ (hlists.linkedColors e he g hg)⟩⟩

end Database

end Muster
