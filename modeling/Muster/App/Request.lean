import Muster.App.Commands

/-! What the user can ask of the program, and the command that answers it. -/

namespace Muster.App

/-- All that can be asked. A login comes with the bytes of its secret and with its state. -/
inductive Request where
  | listCharacters
  | addCharacter (secret : Text.Bytes) (state : String)
  | refreshCharacter (id : Int)
  | refreshAll
  | deleteCharacter (id : Int)
  | listTags
  | resolveSkills (text : String)
  | createTag (name : String) (color : Option Color) (text : String)
  | updateTag (t : Tag) (text : String)
  | deleteTag (id : Int)
  | skillNames (skills : List Int)
  | listRoles
  | createRole (name label : String) (operator : Operator) (color : Option Color) (tags : List Int)
  | updateRole (r : Role) (tags : List Int)
  | deleteRole (id : Int)
  | characterMatches (id : Int)
  | overview
  | settings
  | saveSettings (v : Settings)
  | chooseLevel (raw : String)

def Request.Answer : Request → Type
  | listCharacters | refreshAll => List CharacterData
  | addCharacter .. | refreshCharacter _ => CharacterData
  | deleteCharacter _ | deleteTag _ | deleteRole _ => Bool
  | listTags => List TagData
  | resolveSkills _ => List SkillRequirement
  | createTag .. | updateTag .. => TagData
  | skillNames _ => Table Int String
  | listRoles => List RoleData
  | createRole .. | updateRole .. => RoleData
  | characterMatches _ => CharacterMatches
  | overview => List CharacterMatches
  | settings => Settings
  | saveSettings _ | chooseLevel _ => Unit

variable {ω : Type}

def serve (a : App ω) : (q : Request) → Command ω q.Answer
  | .listCharacters => listCharacters
  | .addCharacter secret state => a.addCharacter secret state
  | .refreshCharacter id => a.refreshCharacter id
  | .refreshAll => a.refreshAll
  | .deleteCharacter id => a.deleteCharacter id
  | .listTags => listTags
  | .resolveSkills text => a.resolveSkills text
  | .createTag name color text => a.createTag name color text
  | .updateTag t text => a.updateTag t text
  | .deleteTag id => deleteTag id
  | .skillNames skills => skillNames skills
  | .listRoles => listRoles
  | .createRole name label operator color tags => a.createRole name label operator color tags
  | .updateRole r tags => updateRole r tags
  | .deleteRole id => deleteRole id
  | .characterMatches id => characterMatches id
  | .overview => overview
  | .settings => settings
  | .saveSettings v => saveSettings v
  | .chooseLevel raw => chooseLevel raw

end Muster.App
