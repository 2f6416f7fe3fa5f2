import Muster.Config.Override

/-! The configuration file and its directory. -/

namespace Muster

inductive ConfigPlace where
  | missing
  | blocked
  | directory
  | file (text : String)
deriving Repr, DecidableEq

namespace ConfigPlace

def path : String := "eve-alts/config.toml"

def dataPath : String := "eve-alts"

def text? : ConfigPlace → Option String
  | file text => some text
  | _ => none

/-- Writes the file, unless something else stands in its place or its parent's. -/
def write (text : String) : ConfigPlace → ConfigPlace
  | missing => file text
  | file _ => file text
  | p => p

abbrev Loading := ExceptT ConfigError (StateM ConfigPlace)

/-- Something stands there. What stands in the parent's place hides that nothing does. -/
def isThere : ConfigPlace → Bool
  | file _ => true
  | directory => true
  | missing => false
  | blocked => false

def makeParent : Loading Unit := do
  if (← get) = .blocked then throw .io

def writeFile (text : String) : Loading Unit := do
  match ← get with
  | missing => set (file text)
  | file _ => set (file text)
  | _ => throw .io

def readFile : Loading String := do
  match (← get).text? with
  | some text => pure text
  | none => throw .io

def prepare : Loading Unit := do
  unless (← get).isThere do
    makeParent
    writeFile Config.initial.text

/-- Reads the file; one that is not there is written first. -/
def loading : Loading Config := do
  prepare
  MonadExcept.ofExcept (Config.read (← readFile))

def load (p : ConfigPlace) : Except ConfigError Config × ConfigPlace := loading p

def loadingWith (env : String → Option String) : Loading Config := do
  let c ← loading
  let (r, c) := Config.override (m := Id) (fun n => env n) c
  MonadExcept.ofExcept (r.map fun _ => c)

def loadWith (env : String → Option String) (p : ConfigPlace) :
    Except ConfigError Config × ConfigPlace := loadingWith env p

end ConfigPlace

end Muster
