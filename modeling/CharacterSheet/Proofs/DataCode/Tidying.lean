import CharacterSheet.Proofs.DataCode.Joining
import CharacterSheet.Proofs.Pieces

/-!
# Tidy codes

What is read from a code depends on its tokens only.  Blank characters around a token and colons
with nothing between them leave no trace in the tokens, so the tokens of a code with single colons
between them are a normal form of the code: cut again, it has the same tokens, and it is read with
the same result and the same complaints.
-/

namespace CharacterSheet.DataCode

/-- The tokens of a code with a single colon between any two. -/
def tidy (code : String) : String := ":".intercalate ((tokens code.toList).map String.ofList)

theorem isPiece_of_mem_tokens {code t : List Char} (h : t ∈ tokens code) : Text.IsPiece ':' t :=
  Text.isPiece_of_mem_pieces h

/-- A code that is joined from tokens has these tokens; blank characters inside them stay. -/
theorem tokens_intercalate {ts : List (List Char)} (h : ∀ t ∈ ts, Text.IsPiece ':' t) :
    tokens (":".intercalate (ts.map String.ofList)).toList = ts := by
  have hchars : (":".intercalate (ts.map String.ofList)).toList = [':'].intercalate ts := by
    simp [String.toList_intercalate, Function.comp_def]
  rw [hchars]
  exact Text.pieces_intercalate h

theorem tokens_tidy (code : String) : tokens (tidy code).toList = tokens code.toList := by
  apply tokens_intercalate
  intro t ht
  exact isPiece_of_mem_tokens ht

theorem read_tidy (code : String) : read (tidy code) = read code := by
  rw [read, tokens_tidy, read]

/-- The tokens of joined codes are those of the first and then those of the second.  A token is not
empty, has no colon in it and no blank character at either end.  The tidy form of a code has the
tokens of the code, it is the same for all codes with these tokens and for no others, and it is read
with the same result and the same diagnostics. -/
theorem tokens_normalForm :
    (∀ a b : String, tokens (a ++ ":" ++ b).toList = tokens a.toList ++ tokens b.toList) ∧
    (∀ (a : String), ∀ t ∈ tokens a.toList, t ≠ [] ∧ ':' ∉ t ∧
      (∀ c ∈ t.head?, Text.isBlank c = false) ∧ ∀ c ∈ t.getLast?, Text.isBlank c = false) ∧
    (∀ a : String, tokens (tidy a).toList = tokens a.toList) ∧
    (∀ a b : String, tidy a = tidy b ↔ tokens a.toList = tokens b.toList) ∧
    ∀ (a : String) (source : Option String), (read (tidy a)).result = (read a).result ∧
      (read (tidy a)).diagnostics source = (read a).diagnostics source := by
  refine ⟨tokens_join, ?_, tokens_tidy, ?_, ?_⟩
  · intro a t ht
    have hpiece := isPiece_of_mem_tokens ht
    exact ⟨hpiece.ne_nil, hpiece.not_mem, hpiece.head, hpiece.last⟩
  · intro a b
    constructor
    · intro h
      rw [← tokens_tidy a, h, tokens_tidy]
    · intro h
      rw [tidy, h, tidy]
  · intro a source
    rw [read_tidy]
    exact ⟨rfl, rfl⟩

/-- A code with doubled colons and several kinds of blank characters.  The last token is a space of
no width, which is not blank. -/
def spaced : String := " SSA=1\u2003::\u001c: FA\u3000:TG=x y:\u200b"

theorem tokens_normalForm_spaced :
    "TG=x y".toList ∈ tokens spaced.toList ∧ Text.isBlank 'T' = false ∧ Text.isBlank 'y' = false ∧
      tidy spaced = "SSA=1:FA:TG=x y:\u200b" ∧
      tokens (tidy spaced).toList = tokens spaced.toList ∧
      (read (tidy spaced)).result = (read spaced).result ∧
      (read (tidy spaced)).diagnostics none = (read spaced).diagnostics none := by
  have hmem : "TG=x y".toList ∈ tokens spaced.toList := by decide
  obtain ⟨-, hends, htidy, -, hread⟩ := tokens_normalForm
  obtain ⟨-, -, hhead, hlast⟩ := hends spaced _ hmem
  exact ⟨hmem, hhead 'T' rfl, hlast 'y' rfl, by decide, htidy spaced, hread spaced none⟩

end CharacterSheet.DataCode
