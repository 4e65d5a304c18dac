import CharacterSheet.Text.Blank
import Mathlib.Data.List.DropRight

/-!
# Pieces of a text

Trimming stops at the first and at the last character that is not blank, so a text with such
characters at both ends is left as it is.  The pieces of a text are trimmed in this sense, not empty
and free of the separator.  Conversely, texts of this kind that are joined are cut into the same
texts again: what stands inside a piece, blank or not, makes no difference.
-/

namespace CharacterSheet.Text

/-- A text that neither starts nor ends with a blank character. -/
structure Trimmed (cs : List Char) : Prop where
  head : ∀ c ∈ cs.head?, isBlank c = false
  last : ∀ c ∈ cs.getLast?, isBlank c = false

/-- A text that can come out of cutting at a separator. -/
structure IsPiece (sep : Char) (t : List Char) : Prop extends Trimmed t where
  ne_nil : t ≠ []
  not_mem : sep ∉ t

variable {sep : Char} {cs t : List Char} {ts : List (List Char)}

/-! ## Trimming -/

theorem trim_eq (cs : List Char) : trim cs = (cs.dropWhile isBlank).rdropWhile isBlank := rfl

theorem trimmed_trim (cs : List Char) : Trimmed (trim cs) := by
  rw [trim_eq]
  constructor
  · intro c hc
    -- what is dropped at the end leaves the first character where it is
    obtain ⟨dropped, hdropped⟩ := List.rdropWhile_prefix isBlank (cs.dropWhile isBlank)
    have hfirst := List.head?_dropWhile_not isBlank cs
    rw [← hdropped, List.head?_append, hc] at hfirst
    simpa using hfirst
  · intro c hc
    have hne : (cs.dropWhile isBlank).rdropWhile isBlank ≠ [] := by
      intro hnil
      rw [hnil] at hc
      cases hc
    have hlast := List.rdropWhile_last_not isBlank _ hne
    rw [List.getLast?_eq_some_getLast hne, Option.mem_some_iff] at hc
    rw [hc] at hlast
    exact Bool.eq_false_iff.2 hlast

theorem Trimmed.trim_eq_self (h : Trimmed cs) : trim cs = cs := by
  have hdrop : cs.dropWhile isBlank = cs := by
    cases cs with
    | nil => rfl
    | cons c cs => rw [List.dropWhile_cons_of_neg (by simp [h.head c rfl])]
  rw [trim_eq, hdrop, List.rdropWhile_eq_self_iff]
  intro hne
  exact Bool.eq_false_iff.1 (h.last _ (List.getLast?_eq_some_getLast hne))

/-! ## Cutting and joining -/

theorem splitAt_intercalate (hts : ts ≠ []) (hsep : ∀ t ∈ ts, sep ∉ t) :
    splitAt sep ([sep].intercalate ts) = ts := by
  induction ts with
  | nil => exact absurd rfl hts
  | cons t ts ih =>
    obtain ⟨ht, hrest⟩ := List.forall_mem_cons.1 hsep
    cases ts with
    | nil => rw [List.intercalate_singleton, splitAt_of_not_mem ht]
    | cons u us =>
      rw [List.intercalate_cons_cons, List.append_assoc, List.singleton_append, splitAt_append,
        splitAt_of_not_mem ht, ih (List.cons_ne_nil u us) hrest, List.singleton_append]

theorem isPiece_of_mem_pieces (h : t ∈ pieces sep cs) : IsPiece sep t := by
  obtain ⟨hmem, hne⟩ := List.mem_filter.1 h
  obtain ⟨p, -, rfl⟩ := List.mem_map.1 hmem
  exact ⟨trimmed_trim p, of_decide_eq_true hne, not_mem_of_mem_pieces h⟩

theorem isPiece_of_not_blank (hne : t ≠ []) (hsep : sep ∉ t) (hblank : ∀ c ∈ t, isBlank c = false) :
    IsPiece sep t where
  head c hc := hblank c (List.mem_of_mem_head? hc)
  last c hc := hblank c (List.mem_of_mem_getLast? hc)
  ne_nil := hne
  not_mem := hsep

/-- Pieces that are joined are cut into the same pieces again. -/
theorem pieces_intercalate (h : ∀ t ∈ ts, IsPiece sep t) :
    pieces sep ([sep].intercalate ts) = ts := by
  cases ts with
  | nil => rfl
  | cons t ts =>
    have hsplit : splitAt sep ([sep].intercalate (t :: ts)) = t :: ts := by
      apply splitAt_intercalate (List.cons_ne_nil t ts)
      intro u hu
      exact (h u hu).not_mem
    have htrim : (t :: ts).map trim = (t :: ts).map id := by
      apply List.map_congr_left
      intro u hu
      exact (h u hu).trim_eq_self
    rw [pieces, hsplit, htrim, List.map_id, List.filter_eq_self]
    intro u hu
    exact decide_eq_true (h u hu).ne_nil

theorem IsPiece.pieces_eq (h : IsPiece sep t) : pieces sep t = [t] := by
  have hjoined : pieces sep ([sep].intercalate [t]) = [t] := by
    apply pieces_intercalate
    intro u hu
    rwa [List.mem_singleton.1 hu]
  rwa [List.intercalate_singleton] at hjoined

end CharacterSheet.Text
