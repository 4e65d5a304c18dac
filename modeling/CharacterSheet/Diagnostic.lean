/-!
# Diagnostics

Problems in authored content are never raised.  They are collected as diagnostics, so that a broken
source costs its own contribution and no other.
-/

namespace CharacterSheet

/-- Kinds of content problem. -/
inductive DiagnosticKind where
  /-- A piece of a data code that no rule reads. -/
  | unrecognizedToken
  /-- A contribution to an entry that the character does not have. -/
  | danglingReference
  /-- A source that could not be processed at all. -/
  | sourceFailure
  deriving DecidableEq, Repr

namespace DiagnosticKind

def name : DiagnosticKind → String
  | unrecognizedToken => "unrecognized_token"
  | danglingReference => "dangling_reference"
  | sourceFailure => "source_failure"

def all : List DiagnosticKind := [unrecognizedToken, danglingReference, sourceFailure]

def ofName? (s : String) : Option DiagnosticKind := all.find? fun k ↦ k.name == s

end DiagnosticKind

/-- One content problem: what it is, the piece of text it is about and the source it is in. -/
structure Diagnostic where
  kind : DiagnosticKind
  message : String
  token : Option String := none
  source : Option String := none
  deriving DecidableEq, Repr

namespace Diagnostic

def ofKind (kind : DiagnosticKind) (ds : List Diagnostic) : List Diagnostic :=
  ds.filter fun d ↦ d.kind == kind

def forSource (source : Option String) (ds : List Diagnostic) : List Diagnostic :=
  ds.filter fun d ↦ d.source == source

end Diagnostic

end CharacterSheet
