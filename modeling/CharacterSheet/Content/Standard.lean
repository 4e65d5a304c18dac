import CharacterSheet.Content.Check
import CharacterSheet.Content.Loader
import CharacterSheet.Yaml.Document

/-!
# The loader of the program

The program reads texts as YAML and checks documents field by field.
-/

namespace CharacterSheet

def Loader.standard : Loader where
  read s := Yaml.read (.ofStream s)
  item v := (Item.check v).result
  injury v := (Injury.check v).result
  module v := (Module.check v).result
  template v := (CharacterTemplate.check v).result
  levels := 960

end CharacterSheet
