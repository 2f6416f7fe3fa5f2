import Muster.App
import Muster.Matching
import Muster.SkillList

/-! The commands: settings, characters and their matches, tags and roles. -/

namespace Muster.App

variable {ω : Type}

/-! Commands on the settings and the level of the log. -/

def settings : Command ω Settings := Command.look "Could not load settings" Store.settings?

def setLevel (l : Level) : Command ω Unit := fun s => (.ok (), { s with level := l })

def saveSettings (v : Settings) : Command ω Unit := do
  let v := v.normalize
  Command.inside "Could not save settings" (Database.run (Store.putSettings v))
  setLevel (Level.read v.logLevel)

def storeLevel (l : Level) : Store.Action Unit := do
  let v ← Store.look Store.settings?
  Store.putSettings { v with logLevel := l.name }

/-- Takes up a level at once, then stores it. -/
def chooseLevel (raw : String) : Command ω Unit := do
  setLevel (Level.read raw)
  Command.inside "Could not save log level" (Database.run (storeLevel (Level.read raw)))

/-! Commands on characters. -/

def listCharacters : Command ω (List CharacterData) :=
  Command.look "Could not load characters" fun s => .ok s.roster

def addCharacter (a : App ω) (secret : Text.Bytes) (state : String) : Command ω CharacterData := do
  let token ← Command.login "Could not log in with EVE Online"
    (a.signOn.authenticate a.services.gateway secret state a.config.authLimit)
  let who ← Command.login "EVE Online returned an invalid login"
    (a.signOn.validate a.services.gateway token.accessToken)
  Command.sync (fun _ => .new s!"Could not load data for {who.name}")
    (a.syncer.refreshWith token who.characterId)

def refreshCharacter (a : App ω) (id : Int) : Command ω CharacterData :=
  Command.sync (fun _ => .new "Could not refresh character") (a.syncer.refresh id)

def tellRefresh : SyncError → PublicError
  | .multiple failures => .new s!"{failures.length} character(s) could not be refreshed"
  | _ => .new "Could not refresh characters"

def refreshAll (a : App ω) : Command ω (List CharacterData) :=
  Command.sync tellRefresh a.syncer.refreshAll

/-- Whether there was such a character; its secret is forgotten then. -/
def deleteCharacter (a : App ω) (id : Int) : Command ω Bool := do
  let deleted ← Command.inside "Could not delete character" (Database.run (Store.dropCharacter id))
  if deleted then Command.change fun w => ((), a.services.forget id w)
  return deleted

/-! Commands that match characters, with the stored selection as the filter. -/

def savedFilter (s : Store) : Except StoreError Filter :=
  s.settings?.map fun v => ⟨v.tagIds, v.roleIds⟩

def matchesOf (id : Int) (s : Store) : Except StoreError (Option CharacterMatches) :=
  match s.character? id with
  | none => .ok none
  | some c => do
    let f ← savedFilter s
    let tags ← s.allTags
    return some (Matching.character c tags (← s.allRoles) f)

def matchesOfAll (s : Store) : Except StoreError (List CharacterMatches) := do
  let f ← savedFilter s
  let tags ← s.allTags
  return Matching.overview s.roster tags (← s.allRoles) f

def characterMatches (id : Int) : Command ω CharacterMatches := do
  Command.found s!"Character {id} not found" (← Command.look "Could not match character" (matchesOf id))

def overview : Command ω (List CharacterMatches) :=
  Command.look "Could not match characters" matchesOfAll

/-! Commands on tags and skill lists. -/

def lookupFailure : String := "Could not look up skill names"

def listTags : Command ω (List TagData) := Command.look "Could not load tags" Store.allTags

def readSkills (text : String) (s : Store) :
    Except (List LineError) (List SkillRequirement) :=
  SkillList.read (m := Id) (fun name => s.skillByName? name) text

def unresolvedNames (text : String) (s : Store) : List String :=
  SkillList.unresolved (m := Id) (fun name => s.skillByName? name) text

def readKnown (text : String) : Command ω (List SkillRequirement) := do
  match ← Command.look lookupFailure fun s => .ok (readSkills text s) with
  | .ok rs => return rs
  | .error lines =>
    let texts := String.intercalate "\n" (lines.map LineError.message)
    Command.refuse s!"Invalid skill list:\n{texts}"

/-- Reads a skill list, after asking ESI for the names that are not known. If that fails they stay
unknown. -/
def resolveSkills (a : App ω) (text : String) : Command ω (List SkillRequirement) := do
  let unknown ← Command.look lookupFailure fun s => .ok (unresolvedNames text s)
  if !unknown.isEmpty then
    let _ ← Command.sync (fun _ => .new lookupFailure) (a.syncer.resolveIds unknown).tried
  readKnown text

def chooseColor (a : App ω) : Option Color → Command ω Color
  | some c => pure c
  | none => Command.change a.services.color

def createTag (a : App ω) (name : String) (color : Option Color) (text : String) :
    Command ω TagData := do
  let name ← Command.required "Tag name" name
  let rs ← a.resolveSkills text
  let color ← a.chooseColor color
  Command.inside "Could not create tag" (Database.atomically (Store.makeTag name color rs))

/-- The name is stored as it is given. -/
def updateTag (a : App ω) (t : Tag) (text : String) : Command ω TagData := do
  let _ ← Command.required (ω := ω) "Tag name" t.name
  let rs ← a.resolveSkills text
  Command.found s!"Tag {t.id} no longer exists"
    (← Command.inside "Could not save tag" (Database.atomically (Store.remakeTag t rs)))

def dropSelectedTag (id : Int) : Store.Action Bool := do
  let deleted ← Store.dropTag id
  let v ← Store.look Store.settings?
  if v.tagIds.contains id then Store.putSettings { v with tagIds := v.tagIds.filter (· != id) }
  return deleted

def deleteTag (id : Int) : Command ω Bool :=
  Command.inside "Could not delete tag" (Database.run (dropSelectedTag id))

def skillNames (skills : List Int) : Command ω (Table Int String) :=
  Command.look "Could not load skill names" fun s => s.namesOf skills

/-! Commands on roles. -/

def listRoles : Command ω (List RoleData) := Command.look "Could not load roles" Store.allRoles

def createRole (a : App ω) (name label : String) (operator : Operator) (color : Option Color)
    (tags : List Int) : Command ω RoleData := do
  let name ← Command.required "Role name" name
  let color ← a.chooseColor color
  Command.inside "Could not create role"
    (Database.atomically (Store.makeRole ⟨name, Text.trim label, operator, color⟩ tags))

def updateRole (r : Role) (tags : List Int) : Command ω RoleData := do
  let name ← Command.required "Role name" r.name
  let r : Role := { r with name := name, label := Text.trim r.label }
  Command.found s!"Role {r.id} no longer exists"
    (← Command.inside "Could not save role" (Database.atomically (Store.remakeRole r tags)))

def dropSelectedRole (id : Int) : Store.Action Bool := do
  let deleted ← Store.dropRole id
  let v ← Store.look Store.settings?
  if v.roleIds.contains id then Store.putSettings { v with roleIds := v.roleIds.filter (· != id) }
  return deleted

def deleteRole (id : Int) : Command ω Bool :=
  Command.inside "Could not delete role" (Database.run (dropSelectedRole id))

end Muster.App
