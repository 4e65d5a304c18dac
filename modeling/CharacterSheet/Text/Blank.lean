import CharacterSheet.Text.Printable

/-!
# Blank characters, trimming and splitting

Tokens and comma pieces are cut out of a text at a separator and trimmed at both ends.  Everything
here works on lists of characters.
-/

namespace CharacterSheet.Text

/-- Ranges of the characters that count as white space in a written number. -/
def spaceRanges : List (Nat × Nat) :=
  [(0x9, 0xd), (0x20, 0x20), (0x85, 0x85), (0xa0, 0xa0), (0x1680, 0x1680), (0x2000, 0x200a),
    (0x2028, 0x2029), (0x202f, 0x202f), (0x205f, 0x205f), (0x3000, 0x3000)]

def isSpace (c : Char) : Bool := inRanges spaceRanges c.toNat

/-- Blank characters around a token: white space and the four information separators. -/
def isBlank (c : Char) : Bool := isSpace c || inRanges [(0x1c, 0x1f)] c.toNat

def trimBy (p : Char → Bool) (cs : List Char) : List Char :=
  ((cs.dropWhile p).reverse.dropWhile p).reverse

def trim (cs : List Char) : List Char := trimBy isBlank cs

/-- Cuts a text at every separator; there is one piece more than there are separators. -/
def splitAt (sep : Char) : List Char → List (List Char)
  | [] => [[]]
  | c :: cs =>
    if c = sep then [] :: splitAt sep cs
    else match splitAt sep cs with
      | [] => [[c]]
      | p :: ps => (c :: p) :: ps

/-- The trimmed pieces of a text, without the empty ones. -/
def pieces (sep : Char) (cs : List Char) : List (List Char) :=
  ((splitAt sep cs).map trim).filter (· ≠ [])

theorem splitAt_ne_nil (sep : Char) (cs : List Char) : splitAt sep cs ≠ [] := by
  cases cs with
  | nil => simp [splitAt]
  | cons c cs =>
    simp only [splitAt]
    split
    · simp
    · split <;> simp

theorem not_mem_of_mem_splitAt {sep : Char} {cs p : List Char} (h : p ∈ splitAt sep cs) :
    sep ∉ p := by
  induction cs generalizing p with
  | nil =>
    rw [splitAt, List.mem_singleton] at h
    simp [h]
  | cons c cs ih =>
    by_cases hc : c = sep
    · simp only [splitAt, hc, if_true, List.mem_cons] at h
      rcases h with rfl | h
      · simp
      · exact ih h
    · simp only [splitAt, hc, if_false] at h
      cases hs : splitAt sep cs with
      | nil => exact absurd hs (splitAt_ne_nil sep cs)
      | cons q qs =>
        simp only [hs, List.mem_cons] at h ih
        rcases h with rfl | h
        · intro hm
          rcases List.mem_cons.1 hm with rfl | hm
          · exact hc rfl
          · exact ih (.inl rfl) hm
        · exact ih (.inr h)

theorem trimBy_sublist (p : Char → Bool) (cs : List Char) : (trimBy p cs).Sublist cs := by
  have h := List.dropWhile_sublist p (l := (cs.dropWhile p).reverse)
  rw [← List.reverse_sublist, List.reverse_reverse] at h
  exact h.trans (List.dropWhile_sublist p)

theorem sublist_of_mem_splitAt {sep : Char} {cs p : List Char} (h : p ∈ splitAt sep cs) :
    p.Sublist cs := by
  induction cs generalizing p with
  | nil =>
    rw [splitAt, List.mem_singleton] at h
    simp [h]
  | cons c cs ih =>
    by_cases hc : c = sep
    · simp only [splitAt, hc, if_true, List.mem_cons] at h
      rcases h with rfl | h
      · exact List.nil_sublist _
      · exact (ih h).cons c
    · simp only [splitAt, hc, if_false] at h
      cases hs : splitAt sep cs with
      | nil => exact absurd hs (splitAt_ne_nil sep cs)
      | cons q qs =>
        simp only [hs, List.mem_cons] at h ih
        rcases h with rfl | h
        · exact (ih (.inl rfl)).cons_cons c
        · exact (ih (.inr h)).cons c

theorem not_mem_of_mem_pieces {sep : Char} {cs p : List Char} (h : p ∈ pieces sep cs) :
    sep ∉ p := by
  obtain ⟨q, hq, rfl⟩ := List.mem_map.1 (List.mem_filter.1 h).1
  exact fun hsep ↦ not_mem_of_mem_splitAt hq ((trimBy_sublist isBlank q).subset hsep)

theorem sublist_of_mem_pieces {sep : Char} {cs p : List Char} (h : p ∈ pieces sep cs) :
    p.Sublist cs := by
  obtain ⟨q, hq, rfl⟩ := List.mem_map.1 (List.mem_filter.1 h).1
  exact (trimBy_sublist isBlank q).trans (sublist_of_mem_splitAt hq)

/-- Splitting two texts joined by the separator splits each of them. -/
theorem splitAt_append (sep : Char) (as bs : List Char) :
    splitAt sep (as ++ sep :: bs) = splitAt sep as ++ splitAt sep bs := by
  induction as with
  | nil => simp [splitAt]
  | cons a as ih =>
    by_cases h : a = sep
    · simp [splitAt, h, ih]
    · simp only [List.cons_append, splitAt, h, if_false, ih]
      cases hs : splitAt sep as with
      | nil => exact absurd hs (splitAt_ne_nil sep as)
      | cons p ps => simp

theorem pieces_append (sep : Char) (as bs : List Char) :
    pieces sep (as ++ sep :: bs) = pieces sep as ++ pieces sep bs := by
  simp [pieces, splitAt_append]

theorem splitAt_of_not_mem {sep : Char} {cs : List Char} (h : sep ∉ cs) :
    splitAt sep cs = [cs] := by
  induction cs with
  | nil => rfl
  | cons c cs ih =>
    obtain ⟨hc, hcs⟩ := not_or.1 (mt List.mem_cons.2 h)
    rw [splitAt, if_neg (Ne.symm hc), ih hcs]

theorem mem_intercalate {sep c : Char} {ts : List (List Char)} (h : c ∈ [sep].intercalate ts) :
    c = sep ∨ ∃ t ∈ ts, c ∈ t := by
  induction ts with
  | nil => cases h
  | cons t ts ih =>
    cases ts with
    | nil =>
      rw [List.intercalate_singleton] at h
      exact .inr ⟨t, List.mem_cons_self, h⟩
    | cons u us =>
      rw [List.intercalate_cons_cons, List.append_assoc, List.mem_append,
        List.singleton_append, List.mem_cons] at h
      rcases h with h | rfl | h
      · exact .inr ⟨t, List.mem_cons_self, h⟩
      · exact .inl rfl
      · rcases ih h with hsep | ⟨v, hv, hc⟩
        · exact .inl hsep
        · exact .inr ⟨v, List.mem_cons_of_mem t hv, hc⟩

theorem isBlank_of_glyph {c : Char} (h : 0x20 < c.toNat) (h' : c.toNat < 0x7f) :
    isBlank c = false := by
  simp only [isBlank, isSpace, spaceRanges, inRanges, Bool.or_eq_false_iff, List.any_eq_false,
    List.mem_cons, List.not_mem_nil, or_false, Bool.and_eq_true, decide_eq_true_eq]
  constructor <;> rintro r (rfl | rfl | rfl | rfl | rfl | rfl | rfl | rfl | rfl | rfl) <;> omega

end CharacterSheet.Text
