import Muster.Character
import Muster.Proofs.StoredText
import Muster.Role

/-! Colours, tags, roles, corporations, requirements and settings are read back from what is written for them,
in whatever layout it is given. -/

namespace Muster

/-- Each value that fits is read back, from what is written for it and from every text of another layout. -/
structure Json.Restores {α : Type} (Fits : α → Prop) (write : α → Json) (read? : Json → Option α) : Prop where
  written : ∀ a, Fits a → (Json.read? (write a).write).bind read? = some a
  laidOut : ∀ a j text, Fits a → (write a).Layout j → j.Spelt text → (Json.read? text).bind read? = some a

theorem Json.restores {α : Type} {Fits : α → Prop} {write : α → Json} {read? : Json → Option α}
    (h : ∀ {a}, Fits a → Json.ReadsBack read? (write a) a) : Json.Restores Fits write read? where
  written _ ha := (h ha).written
  laidOut _ _ _ ha := (h ha).laidOut

theorem Color.readsBack (c : Color) : Json.ReadsBack ofJson? c.toJson c := by
  have hchannel (x : UInt8) :
      Json.ReadsBack (fun j => (j.asBelow? 256).map UInt8.ofNat) (.int x.toNat) x := by
    have hx : x.toNat < 256 := x.toNat_lt
    refine ⟨Json.plain_int (by simp [Text.fits64]; omega), fun hj => ?_⟩
    cases hj with
    | number => simp [Json.asBelow?, Json.asInt?, hx]
  refine ⟨Json.plain_record ?_, fun hj => ?_⟩
  · simp [(hchannel _).plain]
  · obtain ⟨_, ⟨⟩ | ⟨hr, ⟨⟩ | ⟨hg, ⟨⟩ | ⟨hb, ⟨⟩ | ⟨ha, ⟨⟩⟩⟩⟩⟩, hfields⟩ := hj.required? (by simp)
    refine Option.bind_eq_some_iff.2 ⟨_, hfields, ?_⟩
    simp [(hchannel c.r).reads hr, (hchannel c.g).reads hg, (hchannel c.b).reads hb, (hchannel c.a).reads ha]

def SkillRequirement.Fits (r : SkillRequirement) : Prop :=
  Text.fits64 r.skillId = true ∧ Text.fits64 r.level = true

def Tag.Fits (t : Tag) : Prop := Text.fits64 t.id = true

def Role.Fits (r : Role) : Prop := Text.fits64 r.id = true

def RoleData.Fits (d : RoleData) : Prop := d.role.Fits ∧ ∀ t ∈ d.tags, t.Fits

def Corporation.Fits (c : Corporation) : Prop :=
  Text.fits64 c.id = true ∧ ∀ i ∈ c.allianceId, Text.fits64 i = true

theorem SkillRequirement.readsBack {r : SkillRequirement} (h : r.Fits) :
    Json.ReadsBack ofJson? r.toJson r := by
  have hskill := Json.ReadsBack.int64 h.1
  have hlevel := Json.ReadsBack.int64 h.2
  refine ⟨Json.plain_record ?_, fun hj => ?_⟩
  · simp [hskill.plain, hlevel.plain]
  · obtain ⟨_, ⟨⟩ | ⟨hs, ⟨⟩ | ⟨hl, ⟨⟩⟩⟩, hfields⟩ := hj.required? (by simp)
    refine Option.bind_eq_some_iff.2 ⟨_, hfields, ?_⟩
    simp [hskill.reads hs, hlevel.reads hl]

theorem Tag.readsBack {t : Tag} (h : t.Fits) : Json.ReadsBack ofJson? t.toJson t := by
  have hid := Json.ReadsBack.int64 h
  have hname := Json.ReadsBack.str t.name
  have hcolor := t.color.readsBack
  refine ⟨Json.plain_record ?_, fun hj => ?_⟩
  · simp [hid.plain, hname.plain, hcolor.plain]
  · obtain ⟨_, ⟨⟩ | ⟨hi, ⟨⟩ | ⟨hn, ⟨⟩ | ⟨hc, ⟨⟩⟩⟩⟩, hfields⟩ := hj.required? (by simp)
    refine Option.bind_eq_some_iff.2 ⟨_, hfields, ?_⟩
    simp [hid.reads hi, hname.reads hn, hcolor.reads hc]

theorem Operator.readsBack (op : Operator) : Json.ReadsBack ofJson? op.toJson op where
  plain := Json.plain_str op.name
  reads hj := by
    cases hj with
    | text => exact ofName?_name op

theorem Role.readsBack {r : Role} (h : r.Fits) : Json.ReadsBack ofJson? r.toJson r := by
  have hid := Json.ReadsBack.int64 h
  have hname := Json.ReadsBack.str r.name
  have hlabel := Json.ReadsBack.str r.label
  have hoperator := r.operator.readsBack
  have hcolor := r.color.readsBack
  refine ⟨Json.plain_record ?_, fun hj => ?_⟩
  · simp [NewRole.members, hid.plain, hname.plain, hlabel.plain, hoperator.plain, hcolor.plain]
  · obtain ⟨_, ⟨⟩ | ⟨hi, ⟨⟩ | ⟨hn, ⟨⟩ | ⟨hl, ⟨⟩ | ⟨ho, ⟨⟩ | ⟨hc, ⟨⟩⟩⟩⟩⟩⟩, hfields⟩ :=
      hj.required? (by simp [NewRole.members])
    refine Option.bind_eq_some_iff.2 ⟨_, hfields, ?_⟩
    simp [NewRole.ofFields?, hid.reads hi, hname.reads hn, hlabel.reads hl, hoperator.reads ho, hcolor.reads hc]

theorem RoleData.readsBack {d : RoleData} (h : d.Fits) : Json.ReadsBack ofJson? d.toJson d := by
  have hrole := Role.readsBack h.1
  have htags := Json.ReadsBack.list fun t ht => Tag.readsBack (h.2 t ht)
  refine ⟨Json.plain_record ?_, fun hj => ?_⟩
  · simp [hrole.plain, htags.plain]
  · obtain ⟨_, ⟨⟩ | ⟨hr, ⟨⟩ | ⟨ht, ⟨⟩⟩⟩, hfields⟩ := hj.required? (by simp)
    refine Option.bind_eq_some_iff.2 ⟨_, hfields, ?_⟩
    simp [hrole.reads hr, htags.reads ht]

theorem Corporation.readsBack {c : Corporation} (h : c.Fits) : Json.ReadsBack ofJson? c.toJson c := by
  have hid := Json.ReadsBack.int64 h.1
  have halliance := Json.ReadsBack.option (fun i hi => .int64 (h.2 i hi)) fun _ _ => nofun
  have hname := Json.ReadsBack.str c.name
  have hticker := Json.ReadsBack.str c.ticker
  have hpicture := Json.ReadsBack.str c.picture
  refine ⟨Json.plain_record ?_, fun hj => ?_⟩
  · simp [hid.plain, halliance.plain, hname.plain, hticker.plain, hpicture.plain]
  · obtain ⟨_, ⟨⟩ | ⟨hi, ⟨⟩ | ⟨ha, ⟨⟩ | ⟨hn, ⟨⟩ | ⟨ht, ⟨⟩ | ⟨hp, ⟨⟩⟩⟩⟩⟩⟩, hfields⟩ := hj.fields? (by simp)
    refine Option.bind_eq_some_iff.2 ⟨_, hfields _ rfl, ?_⟩
    simp [hid.reads hi, halliance.reads ha, hname.reads hn, hticker.reads ht, hpicture.reads hp]

/-- What is written for a value is read back as it, with the members of its objects in any order, with members
of other names and any values among them, or with the fields alone in their order. -/
theorem records_are_read_back_from_each_layout :
    Json.Restores (fun _ => True) Color.toJson Color.ofJson? ∧
      Json.Restores Tag.Fits Tag.toJson Tag.ofJson? ∧
      Json.Restores Role.Fits Role.toJson Role.ofJson? ∧
      Json.Restores RoleData.Fits RoleData.toJson RoleData.ofJson? ∧
      Json.Restores Corporation.Fits Corporation.toJson Corporation.ofJson? ∧
      Json.Restores SkillRequirement.Fits SkillRequirement.toJson SkillRequirement.ofJson? ∧
      Json.Restores Settings.Fits Settings.toJson Settings.ofJson? :=
  ⟨Json.restores fun {c} _ => c.readsBack, Json.restores Tag.readsBack, Json.restores Role.readsBack,
    Json.restores RoleData.readsBack, Json.restores Corporation.readsBack,
    Json.restores SkillRequirement.readsBack, Json.restores Settings.readsBack⟩

def logistics : Tag := ⟨7, "logistics", .rgb 0 128 128⟩

def shuffled : Json :=
  .record [("icon", .list .str ["a", "\n"]), ("color", .list .int [0, 128, 128, 255]),
    ("name", .str "logistics"), ("id", .int 7)]

def shuffledText : String :=
  "\x7b\"icon\":[\"a\",\"\\n\"],\"color\":[0,128,128,255],\"name\":\"logistics\",\"id\":7\x7d"

theorem shuffled_logistics_is_read_back :
    logistics.Fits ∧ logistics.toJson.Layout shuffled ∧ shuffled.Spelt shuffledText ∧
      (Json.read? shuffledText).bind Tag.ofJson? = some logistics := by
  have hfits : logistics.Fits := rfl
  have hcolor : (logistics.color.toJson).Layout (.list .int [0, 128, 128, 255]) := .fields (Json.layout_items _)
  have hlayout : logistics.toJson.Layout shuffled := by
    let icon : Json.Literal × Json := (some "icon", .list .str ["a", "\n"])
    let fields : List Json := [.int 7, .str "logistics", .list .int [0, 128, 128, 255]]
    have hfields := List.Forall₂.cons (Json.layout_refl (.int 7))
      (.cons (Json.layout_refl (.str "logistics")) (.cons hcolor .nil))
    have hperm := List.reverse_perm ([some "id", some "name", some "color"].zip fields ++ [icon])
    exact .object hfields (by simp [icon]) hperm
  have hplain : shuffled.Plain := by
    refine Json.plain_record ?_
    simp [Json.plain_list, Json.plain_str, Json.plain_int, Text.fits64]
  have hspelt : shuffled.Spelt shuffledText := by
    have hwrite : shuffled.write = shuffledText := by decide +kernel
    exact hwrite ▸ Json.spelt_write hplain
  exact ⟨hfits, hlayout, hspelt, records_are_read_back_from_each_layout.2.1.laidOut _ _ _ hfits hlayout hspelt⟩

end Muster
