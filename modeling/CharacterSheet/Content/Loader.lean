import CharacterSheet.Content.Template
import CharacterSheet.Document.Issue
import CharacterSheet.Yaml.Fault

/-!
# What loading rests on

Files are read and documents are checked by others.  A loader brings a reader of texts, a check for
each kind of document, and the number of levels up to which a value can be written into a message.
What can be relied on in a loader is said here, and nothing else about it is assumed anywhere.
-/

namespace CharacterSheet

structure Loader where
  /-- Reads the document of a file, as far as its bytes are text. -/
  read : Text.Utf8.Stream → Except Yaml.Fault Value
  item : Value → Except (List Issue) Item
  injury : Value → Except (List Issue) Injury
  module : Value → Except (List Issue) Module
  template : Value → Except (List Issue) CharacterTemplate
  levels : Nat

namespace Loader

/-- What the checks let pass has fields of the declared types. -/
structure Typed (l : Loader) : Prop where
  item : ∀ v item, l.item v = .ok item → item.Checked
  module : ∀ v m, l.module v = .ok m → m.Checked

/-- The reader keeps to its documentation: of a text, it says at most that the text is no document.
Where the bytes are no text, it may come upon the error of the decoder, and passes that on. -/
structure ReadsAsDocumented (l : Loader) : Prop where
  whole : ∀ s fault, s.error = none → l.read s = .error fault → fault = .notADocument
  torn : ∀ s e fault, s.error = some e → l.read s = .error fault →
    fault = .notADocument ∨ fault = .crash (.notText e)

end Loader

end CharacterSheet
