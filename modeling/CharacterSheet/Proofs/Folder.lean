import CharacterSheet.Folder
import CharacterSheet.Proofs.Pieces
import CharacterSheet.Proofs.Table

/-!
# Files of a folder

The path of a file in a folder leads to the folder and from there to the file, so what is found
there depends on the entries of the folder only, and not on their order.
-/

namespace CharacterSheet

namespace Path

/-! ## Names on a path -/

/-- A name that leads from a folder to one of its entries. -/
structure IsName (name : String) : Prop where
  noSlash : '/' ∉ name.toList
  notEmpty : name ≠ ""
  notHere : name ≠ "."

/-- The names on a path after its anchor. -/
def segments (path : List Char) : List String :=
  ((Text.splitAt '/' path).map String.ofList).filter fun n ↦ n != "" && n != "."

theorem names_eq (path : String) :
    names path = (anchor? path.toList).toList ++ segments path.toList :=
  rfl

theorem segments_slash (path : List Char) : segments ('/' :: path) = segments path := rfl

theorem isName_of_mem_segments {path : List Char} {name : String} (h : name ∈ segments path) :
    IsName name := by
  obtain ⟨hmem, hkept⟩ := List.mem_filter.1 h
  obtain ⟨cs, hcs, rfl⟩ := List.mem_map.1 hmem
  rw [Bool.and_eq_true, bne_iff_ne, bne_iff_ne] at hkept
  exact ⟨by simpa using Text.not_mem_of_mem_splitAt hcs, hkept.1, hkept.2⟩

theorem segments_intercalate {ns : List String} (hne : ns ≠ []) (h : ∀ n ∈ ns, IsName n) :
    segments ("/".intercalate ns).toList = ns := by
  have hsplit : Text.splitAt '/' ("/".intercalate ns).toList = ns.map String.toList := by
    rw [String.toList_intercalate]
    exact Text.splitAt_intercalate (by simpa using hne) (by simpa using fun n hn ↦ (h n hn).noSlash)
  have hkept : ns.filter (fun n ↦ n != "" && n != ".") = ns :=
    List.filter_eq_self.2 fun n hn ↦ by simp [(h n hn).notEmpty, (h n hn).notHere]
  rw [segments, hsplit, List.map_map]
  simpa [Function.comp_def] using hkept

theorem exists_intercalate_eq_cons {n : String} (h : IsName n) (ns : List String) :
    ∃ c cs, ("/".intercalate (n :: ns)).toList = c :: cs ∧ c ≠ '/' := by
  obtain ⟨c, cs, hn⟩ : ∃ c cs, n.toList = c :: cs :=
    List.exists_cons_of_ne_nil (by simpa using h.notEmpty)
  have hc : c ≠ '/' := by
    rintro rfl
    exact h.noSlash (hn ▸ List.mem_cons_self)
  cases ns with
  | nil => exact ⟨c, cs, by simp [hn], hc⟩
  | cons m ns =>
    exact ⟨c, cs ++ '/' :: ("/".intercalate (m :: ns)).toList,
      by simp [String.toList_intercalate, hn], hc⟩

/-- A path that is written from names, below the folder or at an anchor, has these names. -/
theorem names_ofNames {anchor : Option String} {ns : List String}
    (hanchor : ∀ a ∈ anchor, a = "/" ∨ a = "//") (hne : ns ≠ []) (h : ∀ n ∈ ns, IsName n) :
    names (ofNames (anchor.toList ++ ns)) = anchor.toList ++ ns := by
  obtain ⟨n, ns, rfl⟩ := List.exists_cons_of_ne_nil hne
  have hn := h n List.mem_cons_self
  obtain ⟨c, cs, hcs, hc⟩ := exists_intercalate_eq_cons hn ns
  have hsegments := segments_intercalate hne h
  rw [names_eq]
  cases anchor with
  | none =>
    have hplain : ofNames (n :: ns) = "/".intercalate (n :: ns) := by
      unfold ofNames
      split
      · next heq => cases heq
      · next heq => exact absurd (by decide) ((List.cons.inj heq).1 ▸ hn.noSlash)
      · next heq => exact absurd (by decide) ((List.cons.inj heq).1 ▸ hn.noSlash)
      · rfl
    rw [Option.toList_none, List.nil_append, hplain, hsegments, hcs]
    simp [anchor?, hc]
  | some a =>
    rcases hanchor a rfl with rfl | rfl
    · have hpath : (ofNames ("/" :: n :: ns)).toList = '/' :: c :: cs := by
        rw [← hcs]
        exact String.toList_append
      rw [Option.toList_some, List.singleton_append, hpath, segments_slash, ← hcs, hsegments, hcs]
      simp [anchor?, hc]
    · have hpath : (ofNames ("//" :: n :: ns)).toList = '/' :: '/' :: c :: cs := by
        rw [← hcs]
        exact String.toList_append
      rw [Option.toList_some, List.singleton_append, hpath, segments_slash, segments_slash, ← hcs,
        hsegments, hcs]
      simp [anchor?, hc]

/-- The names on the path of a file in a folder are those on the path of the folder and then the
name of the file. -/
theorem names_join {folder name : String} (h : IsName name) :
    names (join folder name) = names folder ++ [name] := by
  unfold join
  rw [names_eq folder, List.append_assoc]
  refine names_ofNames ?_ (List.append_ne_nil_of_right_ne_nil _ (List.cons_ne_nil name [])) ?_
  · unfold anchor?
    split <;> simp
  · intro n hn
    rcases List.mem_append.1 hn with hn | hn
    · exact isName_of_mem_segments hn
    · rwa [List.mem_singleton.1 hn]

theorem mem_ofNames {c : Char} {ns : List String} (hne : ns ≠ []) (h : c ∈ (ofNames ns).toList) :
    c = '/' ∨ ∃ n ∈ ns, c ∈ n.toList := by
  have hjoined {ms : List String} (hms : c ∈ ("/".intercalate ms).toList) :
      c = '/' ∨ ∃ m ∈ ms, c ∈ m.toList := by
    rw [String.toList_intercalate] at hms
    rcases Text.mem_intercalate hms with hc | ⟨t, ht, hc⟩
    · exact .inl hc
    · obtain ⟨m, hm, rfl⟩ := List.mem_map.1 ht
      exact .inr ⟨m, hm, hc⟩
  have hanchored {anchor : String} {ms : List String} (hanchor : ∀ d ∈ anchor.toList, d = '/')
      (hms : c ∈ (anchor ++ "/".intercalate ms).toList) :
      c = '/' ∨ ∃ m ∈ anchor :: ms, c ∈ m.toList := by
    rw [String.toList_append, List.mem_append] at hms
    rcases hms with hc | hc
    · exact .inl (hanchor c hc)
    · exact (hjoined hc).imp_right fun ⟨m, hm, hc⟩ ↦ ⟨m, List.mem_cons_of_mem anchor hm, hc⟩
  unfold ofNames at h
  split at h
  · exact absurd rfl hne
  · exact hanchored (by simp) h
  · exact hanchored (by simp) h
  · exact hjoined h

/-- A path of a file has only characters of the path of its folder and of its name. -/
theorem mem_join {c : Char} {folder name : String} (h : c ∈ (join folder name).toList) :
    c = '/' ∨ c ∈ folder.toList ∨ c ∈ name.toList := by
  rcases mem_ofNames (List.append_ne_nil_of_right_ne_nil _ (List.cons_ne_nil name [])) h with
    hc | ⟨n, hn, hc⟩
  · exact .inl hc
  rcases List.mem_append.1 hn with hn | hn
  · rw [names_eq] at hn
    rcases List.mem_append.1 hn with hn | hn
    · have hslash : ∀ n ∈ anchor? folder.toList, ∀ d ∈ n.toList, d = '/' := by
        unfold anchor?
        split <;> simp
      exact .inl (hslash n (Option.mem_toList.1 hn) c hc)
    · obtain ⟨cs, hcs, rfl⟩ := List.mem_map.1 (List.mem_filter.1 hn).1
      rw [String.toList_ofList] at hc
      exact .inr (.inl ((Text.sublist_of_mem_splitAt hcs).subset hc))
  · exact .inr (.inr (List.mem_singleton.1 hn ▸ hc))

end Path

/-! ## Entries of a folder -/

namespace Entry

/-- Looks for a file in what should be a folder. -/
def child (name : String) : Entry → Except Absence Entry
  | file _ => .error .throughFile
  | folder entries =>
    if Path.nameLimit < name.utf8ByteSize then .error .tooLong
    else match lookup name entries with
      | some inner => .ok inner
      | none => .error .missing

theorem follow_singleton {name : String} (h : Path.leadsOut name = false) (above : List Entry)
    (e : Entry) : follow above e [name] = child name e := by
  have hup : name ≠ ".." := by
    rintro rfl
    exact absurd h (by decide)
  cases e with
  | file c => simp [follow, child]
  | folder entries =>
    rw [follow.eq_def, child]
    dsimp only
    rw [if_neg hup, follow.followInto, h]
    cases lookup name entries <;> simp [follow]

theorem follow_concat {name : String} (h : Path.leadsOut name = false) (names : List String)
    (above : List Entry) (e : Entry) :
    follow above e (names ++ [name]) = follow above e names >>= child name := by
  induction names generalizing above e with
  | nil =>
    have hhere : follow above e [] = .ok e := by simp [follow]
    rw [hhere]
    exact follow_singleton h above e
  | cons n names ih =>
    have hinto (above : List Entry) (entries : List (String × Entry)) :
        follow.followInto above n (names ++ [name]) entries =
          follow.followInto above n names entries >>= child name := by
      unfold follow.followInto
      cases lookup n entries with
      | some inner => exact ih above inner
      | none =>
        dsimp only
        split
        · exact ih [] (folder [])
        · rfl
    cases e with
    | file c => simp [follow]; rfl
    | folder entries =>
      rw [List.cons_append, follow.eq_def, follow.eq_def]
      dsimp only
      split
      · rfl
      · split
        · cases above with
          | nil => exact hinto [] entries
          | cons outer above => exact ih above outer
        · exact hinto (folder entries :: above) entries

/-- What is found in a folder under a name is what the folder has under that name, unless the path
or the name is too long or cannot be a path. -/
theorem find_join {root e : Entry} {folder name : String} (h : Path.IsName name)
    (hout : Path.leadsOut name = false) (hfind : root.find folder = .ok e) :
    root.find (Path.join folder name) =
      if (Path.join folder name).toList.contains '\x00' then .error .noPath
      else if Path.pathLimit < (Path.join folder name).utf8ByteSize then .error .tooLong
      else child name e := by
  have hfollow : root.follow [] (Path.names folder) = .ok e := by
    unfold find at hfind
    split at hfind
    · cases hfind
    · split at hfind
      · cases hfind
      · exact hfind
  unfold find
  rw [Path.names_join h, follow_concat hout, hfollow]
  rfl

/-- The order in which a folder lists its entries does not matter. -/
theorem lookup_perm {es es' : List (String × Entry)} (h : es'.Perm es)
    (hes : (es.map Prod.fst).Nodup) (name : String) : lookup name es' = lookup name es := by
  have hnames := h.map Prod.fst
  by_cases hname : name ∈ es.map Prod.fst
  · obtain ⟨e, he, rfl⟩ := List.mem_map.1 hname
    exact (Table.lookup_of_mem (hnames.nodup_iff.2 hes) (h.mem_iff.2 he)).trans
      (Table.lookup_of_mem hes he).symm
  · exact ((Table.lookup_eq_none_iff name es').2 (mt hnames.mem_iff.1 hname)).trans
      ((Table.lookup_eq_none_iff name es).2 hname).symm

end Entry

end CharacterSheet
