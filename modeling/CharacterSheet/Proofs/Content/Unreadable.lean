import CharacterSheet.Proofs.Content.Directory

/-!
# Files that cannot be read

A file that is no document is recorded and skipped, and the other files define what they would
define without it.  Whatever else stops the reader is another matter, and so is an entry that is not
valid and has an id that cannot be written into the message about it: such a file stops the loading
of the whole directory.  A reader that keeps to its documentation is stopped by bytes that are no
text only.
-/

namespace CharacterSheet

open ContentError

/-! ## Loading one file -/

/-- The reader of a file is stopped, not because its text is no document, and the file is refused
with that. -/
def Undecodable (l : Loader) (root : Entry) (path : String) (e : ContentError) : Prop :=
  ∃ bs c, root.find path = .ok (.file (.bytes bs)) ∧
    l.read (Text.Utf8.read bs) = .error (.crash c) ∧ e = readerCrash c

/-- The bytes of a file are no text, and the file is refused with that. -/
def NotText (root : Entry) (path : String) (e : ContentError) : Prop :=
  ∃ bs f, root.find path = .ok (.file (.bytes bs)) ∧ (Text.Utf8.read bs).error = some f ∧
    e = readerCrash (.notText f)

theorem Undecodable.severity {l : Loader} {root : Entry} {path : String} {e : ContentError}
    (h : Undecodable l root path e) : e.severity = .fatal := by
  obtain ⟨_, _, -, -, rfl⟩ := h
  rfl

theorem Undecodable.notText {l : Loader} {root : Entry} {path : String} {e : ContentError}
    (h : Undecodable l root path e) (hl : l.ReadsAsDocumented) : NotText root path e := by
  obtain ⟨bs, c, hfind, hread, rfl⟩ := h
  cases herror : (Text.Utf8.read bs).error with
  | none => cases hl.whole _ _ herror hread
  | some f =>
    rcases hl.torn _ f _ herror hread with hfault | hfault
    · cases hfault
    · cases hfault
      exact ⟨bs, f, hfind, herror, rfl⟩

theorem ne_nil_of_loadDocument {l : Loader} {root : Entry} {path : String}
    {fields : List (Value × Value)} (h : loadDocument l root path = .ok fields) : fields ≠ [] := by
  rintro rfl
  unfold loadDocument at h
  split at h
  · cases h
  · cases h
  · cases h
  · cases h
  · cases h
  · obtain ⟨v, -, h⟩ := exists_of_bind_eq_ok h
    dsimp only at h
    split at h
    · cases h
    · next htruthy =>
      split at h
      · obtain rfl := Except.ok.inj h
        exact htruthy rfl
      · cases h

theorem loadDocument_eq_error {l : Loader} {root : Entry} {path : String} {e : ContentError}
    (hpath : root.find path ≠ .error .noPath) (h : loadDocument l root path = .error e) :
    e.severity = .load ∨ Undecodable l root path e := by
  unfold loadDocument at h
  split at h
  · exact .inl (Except.error.inj h ▸ rfl)
  · exact .inl (Except.error.inj h ▸ rfl)
  · exact .inl (Except.error.inj h ▸ rfl)
  · next hfind => exact absurd hfind hpath
  · exact .inl (Except.error.inj h ▸ rfl)
  · next contents hfind =>
    obtain hread | ⟨v, -, h⟩ := error_of_bind_eq_error h
    · cases contents with
      | document v => cases hread
      | bytes bs =>
        have hread : readBytes l path bs = .error e := hread
        unfold readBytes at hread
        cases hresult : l.read (Text.Utf8.read bs) with
        | ok v =>
          rw [hresult] at hread
          cases hread
        | error fault =>
          rw [hresult] at hread
          have he := Except.error.inj hread
          cases fault with
          | notADocument => exact .inl (he ▸ rfl)
          | crash c => exact .inr ⟨bs, c, hfind, hresult, he.symm⟩
    · dsimp only at h
      split at h
      · exact .inl (Except.error.inj h ▸ rfl)
      · split at h
        · cases h
        · exact .inl (Except.error.inj h ▸ rfl)

theorem loadDocument_of_undecodable {l : Loader} {root : Entry} {path : String} {e : ContentError}
    (h : Undecodable l root path e) : loadDocument l root path = .error e := by
  obtain ⟨bs, c, hfind, hread, rfl⟩ := h
  unfold loadDocument
  rw [hfind]
  dsimp only
  rw [Contents.read, readBytes, hread]
  rfl

/-! ## Sections -/

theorem exists_of_mapM_eq_error {ε α β : Type} {f : α → Except ε β} {as : List α} {e : ε}
    (h : as.mapM f = .error e) : ∃ a ∈ as, f a = .error e := by
  induction as with
  | nil => cases h
  | cons a as ih =>
    rw [List.mapM_cons] at h
    obtain ha | ⟨b, -, h⟩ := error_of_bind_eq_error h
    · exact ⟨a, List.mem_cons_self, ha⟩
    obtain has | ⟨bs, -, h⟩ := error_of_bind_eq_error h
    · obtain ⟨a', ha', hfound⟩ := ih has
      exact ⟨a', List.mem_cons_of_mem a ha', hfound⟩
    · cases h

/-- The check for a section finds issues in an entry. -/
inductive Loader.Refuses (l : Loader) (v : Value) : String → Prop
  | item {issues : List Issue} : l.item v = .error issues → l.Refuses v "items"
  | injury {issues : List Issue} : l.injury v = .error issues → l.Refuses v "injuries"
  | module {issues : List Issue} : l.module v = .error issues → l.Refuses v "modules"

/-- A file has an entry that is not valid, what it is called cannot be written, and the file is
refused with that. -/
def Unnamable (l : Loader) (root : Entry) (path : String) (e : ContentError) : Prop :=
  ∃ document category vs v fields u, loadDocument l root path = .ok document ∧
    (Value.field? document category).map Value.alone = some (.list vs) ∧ v ∈ vs ∧
    v.alone = .map fields ∧ l.Refuses v category ∧
    (Catalog.entryName fields).written l.levels = .error u ∧ e = unwritableId u

namespace Catalog

/-- A section is refused for content that is not valid, or because an entry in it is not valid and
cannot be called by its name. -/
theorem readSection_eq_error {α : Type} {l : Loader} {root : Entry} {path category : String}
    {check : Value → Except (List Issue) α} {document : List (Value × Value)} {e : ContentError}
    (hcheck : ∀ v issues, check v = .error issues → l.Refuses v category)
    (hload : loadDocument l root path = .ok document)
    (h : readSection l.levels category path check document = .error e) :
    e.severity = .validation ∨ Unnamable l root path e := by
  unfold readSection at h
  split at h
  · cases h
  · cases h
  · next vs hvs =>
    obtain ⟨v, hv, hentry⟩ := exists_of_mapM_eq_error h
    unfold readEntry at hentry
    split at hentry
    · next fields hfields =>
      split at hentry
      · cases hentry
      · next issues hchecked =>
        split at hentry
        · exact .inl (Except.error.inj hentry ▸ rfl)
        · next u hwritten =>
          exact .inr ⟨document, category, vs, v, fields, u, hload, hvs, hv, hfields,
            hcheck v issues hchecked, hwritten, (Except.error.inj hentry).symm⟩
    · exact .inl (Except.error.inj hentry ▸ rfl)
  · exact .inl (Except.error.inj h ▸ rfl)

theorem readDefinitions_eq_error {l : Loader} {root : Entry} {path : String}
    {document : List (Value × Value)} {e : ContentError}
    (hload : loadDocument l root path = .ok document)
    (h : readDefinitions l path document = .error e) :
    e.severity = .validation ∨ Unnamable l root path e := by
  obtain hitems | ⟨items, -, h⟩ := error_of_bind_eq_error h
  · exact readSection_eq_error (fun _ _ ↦ .item) hload hitems
  obtain hinjuries | ⟨injuries, -, h⟩ := error_of_bind_eq_error h
  · exact readSection_eq_error (fun _ _ ↦ .injury) hload hinjuries
  obtain hmodules | ⟨modules, -, h⟩ := error_of_bind_eq_error h
  · exact readSection_eq_error (fun _ _ ↦ .module) hload hmodules
  · cases h

/-- A file is refused for content that is not valid, or because it cannot be decoded, or because
what is not valid in it cannot be named. -/
theorem definitions_eq_error {l : Loader} {root : Entry} {path : String} {e : ContentError}
    (hpath : root.find path ≠ .error .noPath) (h : definitions l root path = .error e) :
    e.severity = .validation ∨ Undecodable l root path e ∨ Unnamable l root path e := by
  unfold definitions at h
  cases hload : loadDocument l root path with
  | ok document =>
    rw [hload] at h
    exact (readDefinitions_eq_error hload h).imp_right .inr
  | error e' =>
    rw [hload] at h
    dsimp only at h
    split at h
    · cases h
    · next hfatal =>
      obtain rfl : e' = e := Except.error.inj h
      exact .inr (.inl ((loadDocument_eq_error hpath hload).resolve_left hfatal))

/-! ## Files one after the other -/

variable {l : Loader} {root : Entry} {path : String} {pre post paths : List String}
  {e : ContentError}

/-- The first file that is refused stops the loading, whatever comes after it. -/
theorem addFiles_of_refused (hpre : ∀ p ∈ pre, ∃ d, definitions l root p = .ok d)
    (he : definitions l root path = .error e) (post : List String) (c : Catalog) :
    (addFiles l root (pre ++ path :: post) c).2 = .error e := by
  induction pre generalizing c with
  | nil =>
    have hrefused := addFiles_refused he c
    rw [List.nil_append, addFiles_cons]
    rcases hadd : addFiles l root [path] c with ⟨events, e' | c'⟩
    · rw [hadd] at hrefused
      exact hrefused
    · rw [hadd] at hrefused
      cases hrefused
  | cons p pre ih =>
    obtain ⟨⟨d, hd⟩, hpre⟩ := List.forall_mem_cons.1 hpre
    rw [List.cons_append, addFiles_cons, addFiles_singleton hd]
    exact ih hpre _

theorem addFiles_eq_error_iff {c : Catalog} : (addFiles l root paths c).2 = .error e ↔
    ∃ pre path post, paths = pre ++ path :: post ∧
      (∀ p ∈ pre, ∃ d, definitions l root p = .ok d) ∧ definitions l root path = .error e := by
  refine ⟨fun h ↦ ?_, ?_⟩
  · induction paths generalizing c with
    | nil => cases h
    | cons path paths ih =>
      cases hpath : definitions l root path with
      | error e' =>
        have hrefused := addFiles_of_refused (List.forall_mem_nil _) hpath paths c
        obtain rfl := Except.error.inj (h.symm.trans hrefused)
        exact ⟨[], path, paths, rfl, List.forall_mem_nil _, hpath⟩
      | ok d =>
        rw [addFiles_cons, addFiles_singleton hpath] at h
        obtain ⟨pre, path', post, rfl, hpre, he⟩ := ih h
        exact ⟨path :: pre, path', post, rfl, List.forall_mem_cons.2 ⟨⟨d, hpath⟩, hpre⟩, he⟩
  · rintro ⟨pre, path, post, rfl, hpre, he⟩
    exact addFiles_of_refused hpre he post c

/-- A file that cannot be loaded makes no difference to what the other files come to. -/
theorem addFiles_skip (hskip : definitions l root path = .ok {}) (c : Catalog) :
    (addFiles l root (pre ++ path :: post) c).2 = (addFiles l root (pre ++ post) c).2 := by
  induction pre generalizing c with
  | nil =>
    rw [List.nil_append, addFiles_cons, addFiles_singleton hskip]
    rfl
  | cons p pre ih =>
    rw [List.cons_append, List.cons_append, addFiles_cons, addFiles_cons l root p (pre ++ post)]
    rcases addFiles l root [p] c with ⟨events, e | c'⟩
    · rfl
    · exact ih c'

theorem definitions_of_addFiles_eq_ok {c c' : Catalog} (h : (addFiles l root paths c).2 = .ok c') :
    ∀ p ∈ paths, ∃ d, definitions l root p = .ok d := by
  induction paths generalizing c with
  | nil => exact List.forall_mem_nil _
  | cons path paths ih =>
    cases hpath : definitions l root path with
    | error e =>
      have hrefused := addFiles_of_refused (List.forall_mem_nil _) hpath paths c
      cases h.symm.trans hrefused
    | ok d =>
      rw [addFiles_cons, addFiles_singleton hpath] at h
      exact List.forall_mem_cons.2 ⟨⟨d, hpath⟩, ih h⟩

/-- If all files have been gone through, each one that cannot be loaded has been recorded. -/
theorem fileSkipped_mem_addFiles (hpath : path ∈ paths)
    (hload : loadDocument l root path = .error e) {c : Catalog}
    (h : (addFiles l root paths {}).2 = .ok c) :
    .fileSkipped path e.message ∈ (addFiles l root paths {}).1 := by
  obtain ⟨c', events, hadd, hloaded⟩ :=
    (loaded_empty l root).addFiles (definitions_of_addFiles_eq_ok h)
  have hfailure : (path, e.message) ∈ paths.filterMap (loadFailure? l root) :=
    List.mem_filterMap.2 ⟨path, hpath, by rw [loadFailure?, hload]⟩
  rw [List.nil_append, List.nil_append] at hloaded
  rw [← hloaded.skipped] at hfailure
  obtain ⟨event, hevent, hskipped⟩ := List.mem_filterMap.1 hfailure
  rw [hadd]
  cases event with
  | fileSkipped file error =>
    cases hskipped
    exact hevent
  | _ => cases hskipped

end Catalog

/-! ## Directories -/

section Directory

variable {l : Loader} {root root' : Entry} {directory : String} {es es' : List (String × Entry)}

/-- One more file stands somewhere among the others. -/
theorem exists_contentFiles_cons {name : String} {file : Entry} (hnew : name ∉ es.map Prod.fst)
    (hname : isContentName name = true) :
    ∃ pre post, contentFiles (.folder ((name, file) :: es)) = pre ++ name :: post ∧
      contentFiles (.folder es) = pre ++ post := by
  have hsorted : (contentFiles (.folder ((name, file) :: es))).Pairwise (· < ·) :=
    (NameSet.ofList _).sorted
  have hmem : name ∈ contentFiles (.folder ((name, file) :: es)) :=
    mem_contentFiles.2 ⟨List.mem_cons_self, hname⟩
  obtain ⟨pre, post, hlisted⟩ := List.append_of_mem hmem
  refine ⟨pre, post, hlisted, NameSet.eq_of_sorted (NameSet.ofList _).sorted ?_ fun n ↦ ?_⟩
  · exact (hlisted ▸ hsorted).sublist ((List.sublist_cons_self name post).append_left pre)
  · have hne : n ∈ pre ++ post → n ≠ name := by
      obtain ⟨-, hafter, hbefore⟩ := List.pairwise_append.1 (hlisted ▸ hsorted)
      rintro hn rfl
      rcases List.mem_append.1 hn with hn | hn
      · exact String.lt_irrefl n (hbefore n hn n List.mem_cons_self)
      · exact String.lt_irrefl n (List.rel_of_pairwise_cons hafter hn)
    have hwith : n ∈ pre ++ name :: post ↔
        (n = name ∨ n ∈ es.map Prod.fst) ∧ isContentName n = true := by
      rw [← hlisted, mem_contentFiles]
      exact and_congr_left' List.mem_cons
    have hother : n ∈ pre ++ name :: post ↔ n = name ∨ n ∈ pre ++ post := by
      simp only [List.mem_append, List.mem_cons]
      exact or_left_comm
    refine mem_contentFiles.trans ?_
    by_cases hn : n = name
    · exact iff_of_false (fun h ↦ hnew (hn ▸ h.1)) fun h ↦ hne h hn
    · rw [hother] at hwith
      simpa [hn, Entry.entryNames] using hwith.symm

theorem find_join_ne_noPath {name : String} (hfind : root.find directory = .ok (.folder es))
    (hname : name ∈ contentFiles (.folder es)) (hslash : '/' ∉ name.toList)
    (hnul : '\x00' ∉ name.toList) : root.find (Path.join directory name) ≠ .error .noPath := by
  obtain ⟨hisName, hout⟩ := isName_of_content hslash (mem_contentFiles.1 hname).2
  have hdirectory : '\x00' ∉ directory.toList := by
    intro hmem
    rw [Entry.find, if_pos (List.contains_iff_mem.2 hmem)] at hfind
    cases hfind
  have hpath : ¬ (Path.join directory name).toList.contains '\x00' = true := by
    intro hmem
    rcases Path.mem_join (List.contains_iff_mem.1 hmem) with hc | hc | hc
    · exact absurd hc (by decide)
    · exact hdirectory hc
    · exact hnul hc
  rw [Entry.find_join hisName hout hfind, if_neg hpath]
  unfold Entry.child
  dsimp only
  split
  · exact fun h ↦ by cases h
  · split
    · exact fun h ↦ by cases h
    · cases Entry.lookup name es with
      | some inner => exact fun h ↦ by cases h
      | none => exact fun h ↦ by cases h

/-- The loading of a directory stops at the first file that is refused, and only there. -/
theorem loadContent_eq_error_iff (hfind : root.find directory = .ok (.folder es))
    {e : ContentError} : (loadContent l root directory).2 = .error e ↔
      ∃ pre path post, (contentFiles (.folder es)).map (Path.join directory) = pre ++ path :: post ∧
        (∀ p ∈ pre, ∃ d, Catalog.definitions l root p = .ok d) ∧
        Catalog.definitions l root path = .error e := by
  obtain ⟨_, -, hload⟩ := exists_loadContent_eq hfind
  rw [hload, Catalog.addFiles_eq_error_iff]

/-- A directory in which nothing but invalid content is refused comes to a catalog or to content
that is not valid. -/
theorem loadContent_of_refused_invalid (hfind : root.find directory = .ok (.folder es))
    (hrefused : ∀ name ∈ contentFiles (.folder es), ∀ e,
      Catalog.definitions l root (Path.join directory name) = .error e → e.severity = .validation) :
    (∃ c, (loadContent l root directory).2 = .ok c) ∨
      ∃ e, e.severity = .validation ∧ (loadContent l root directory).2 = .error e := by
  cases hresult : (loadContent l root directory).2 with
  | ok c => exact .inl ⟨c, rfl⟩
  | error e =>
    obtain ⟨pre, path, post, hlisted, -, he⟩ := (loadContent_eq_error_iff hfind).1 hresult
    have hmem : path ∈ (contentFiles (.folder es)).map (Path.join directory) := by
      rw [hlisted]
      exact List.mem_append_right pre List.mem_cons_self
    obtain ⟨name, hname, rfl⟩ := List.mem_map.1 hmem
    exact .inr ⟨e, hrefused name hname e he, rfl⟩

/-- A directory with one more file, which cannot be loaded, comes to what it comes to without that
file, and the file is recorded. -/
theorem loadContent_of_perm_cons (hfind : root.find directory = .ok (.folder es))
    (hnames : (es.map Prod.fst).Nodup) (hslash : ∀ n ∈ es.map Prod.fst, '/' ∉ n.toList)
    {name : String} {file : Entry} {e : ContentError}
    (hfind' : root'.find directory = .ok (.folder es')) (hperm : es'.Perm ((name, file) :: es))
    (hnew : name ∉ es.map Prod.fst) (hname : isContentName name = true)
    (hunloaded : loadDocument l root' (Path.join directory name) = .error e)
    (he : e.severity = .load) :
    (loadContent l root' directory).2 = (loadContent l root directory).2 ∧
      ∀ c, (loadContent l root' directory).2 = .ok c →
        .fileSkipped (Path.join directory name) e.message ∈ (loadContent l root' directory).1 := by
  have hsame := find_join_of_perm_cons hfind hfind' hperm hnames hslash hnew
  obtain ⟨pre, post, hlonger, hlisted⟩ := exists_contentFiles_cons hnew hname
  rw [← contentFiles_perm hperm] at hlonger
  obtain ⟨_, -, hload⟩ := exists_loadContent_eq hfind
  obtain ⟨closing, -, hload'⟩ := exists_loadContent_eq hfind'
  have hskip : Catalog.definitions l root' (Path.join directory name) = .ok {} := by
    rw [Catalog.definitions, hunloaded]
    exact if_pos he
  rw [hload', hload]
  constructor
  · rw [hlonger, List.map_append, List.map_cons, Catalog.addFiles_skip hskip, ← List.map_append,
      ← hlisted, addFiles_congr (List.forall_mem_map.2 hsame)]
  · intro c hc
    have hmem : name ∈ contentFiles (.folder es') := by simp [hlonger]
    exact List.mem_append_left closing
      (Catalog.fileSkipped_mem_addFiles (List.mem_map_of_mem hmem) hunloaded hc)

/-- Every content file either has a map that is not empty, or cannot be loaded, or cannot be
decoded.  The loading of a directory stops at the first file that is refused, for content that is
not valid, because it cannot be decoded, or because what is not valid in it cannot be named.  If the
reader keeps to its documentation, only bytes that are no text cannot be decoded; so if all files
are texts and all ids can be written, the loading comes to a catalog or to content that is not
valid.  A file that cannot be loaded is recorded and skipped, and the directory comes to what it
would come to without it. -/
theorem loadContent_of_unreadable (hfind : root.find directory = .ok (.folder es))
    (hnames : (es.map Prod.fst).Nodup)
    (hplain : ∀ name ∈ es.map Prod.fst, '/' ∉ name.toList ∧ '\x00' ∉ name.toList) :
    (∀ name ∈ contentFiles (.folder es),
      (∃ fields, fields ≠ [] ∧ loadDocument l root (Path.join directory name) = .ok fields) ∨
      (∃ e, e.severity = .load ∧ loadDocument l root (Path.join directory name) = .error e) ∨
      ∃ e, Undecodable l root (Path.join directory name) e ∧
        loadDocument l root (Path.join directory name) = .error e) ∧
    (∀ e, (loadContent l root directory).2 = .error e ↔
      ∃ pre path post, (contentFiles (.folder es)).map (Path.join directory) = pre ++ path :: post ∧
        (∀ p ∈ pre, ∃ d, Catalog.definitions l root p = .ok d) ∧
        Catalog.definitions l root path = .error e) ∧
    (∀ name ∈ contentFiles (.folder es), ∀ e,
      Catalog.definitions l root (Path.join directory name) = .error e →
        e.severity = .validation ∨ Undecodable l root (Path.join directory name) e ∨
          Unnamable l root (Path.join directory name) e) ∧
    (l.ReadsAsDocumented →
      (∀ path e, Undecodable l root path e → NotText root path e) ∧
      ((∀ name ∈ contentFiles (.folder es), ∀ e,
          ¬ NotText root (Path.join directory name) e ∧
          ¬ Unnamable l root (Path.join directory name) e) →
        (∃ c, (loadContent l root directory).2 = .ok c) ∨
        ∃ e, e.severity = .validation ∧ (loadContent l root directory).2 = .error e)) ∧
    ∀ root' es' name file e, root'.find directory = .ok (.folder es') →
      es'.Perm ((name, file) :: es) → name ∉ es.map Prod.fst →
      isContentName name = true →
      loadDocument l root' (Path.join directory name) = .error e → e.severity = .load →
      (loadContent l root' directory).2 = (loadContent l root directory).2 ∧
        ∀ c, (loadContent l root' directory).2 = .ok c →
          .fileSkipped (Path.join directory name) e.message ∈
            (loadContent l root' directory).1 := by
  have hpath : ∀ name ∈ contentFiles (.folder es),
      root.find (Path.join directory name) ≠ .error .noPath := by
    intro name hname
    obtain ⟨hslash, hnul⟩ := hplain name (mem_contentFiles.1 hname).1
    exact find_join_ne_noPath hfind hname hslash hnul
  have hrefused : ∀ name ∈ contentFiles (.folder es), ∀ e,
      Catalog.definitions l root (Path.join directory name) = .error e →
        e.severity = .validation ∨ Undecodable l root (Path.join directory name) e ∨
          Unnamable l root (Path.join directory name) e :=
    fun name hname e he ↦ Catalog.definitions_eq_error (hpath name hname) he
  refine ⟨fun name hname ↦ ?_, fun e ↦ loadContent_eq_error_iff hfind, hrefused,
    fun hl ↦ ⟨fun path e he ↦ he.notText hl, fun hgood ↦ ?_⟩, ?_⟩
  · cases hload : loadDocument l root (Path.join directory name) with
    | ok fields => exact .inl ⟨fields, ne_nil_of_loadDocument hload, rfl⟩
    | error e =>
      rcases loadDocument_eq_error (hpath name hname) hload with he | he
      · exact .inr (.inl ⟨e, he, rfl⟩)
      · exact .inr (.inr ⟨e, he, rfl⟩)
  · refine loadContent_of_refused_invalid hfind fun name hname e he ↦ ?_
    obtain ⟨htext, hnamable⟩ := hgood name hname e
    rcases hrefused name hname e he with he | he | he
    · exact he
    · exact absurd (he.notText hl) htext
    · exact absurd he hnamable
  · intro root' es' name file e hfind' hperm hnew hname hunloaded he
    exact loadContent_of_perm_cons hfind hnames (fun n hn ↦ (hplain n hn).1) hfind' hperm hnew hname
      hunloaded he

end Directory

/-! ## A byte that is in no text -/

theorem exists_of_mapError_eq_error {ε ε' α : Type} {x : Except ε α} {f : ε → ε'} {e : ε'}
    (h : x.mapError f = .error e) : ∃ e', x = .error e' ∧ f e' = e := by
  cases x with
  | error e' => exact ⟨e', rfl, Except.error.inj h⟩
  | ok a => cases h

/-- What a reader may say by its documentation in place of a fault, of a text with such an error. -/
def Yaml.Fault.guarded (error : Option Text.Utf8.Error) : Yaml.Fault → Yaml.Fault
  | .notADocument => .notADocument
  | .crash _ => error.elim .notADocument fun e ↦ .crash (.notText e)

/-- The loader of the program, with a reader that is kept to its documentation. -/
def Loader.guarded : Loader :=
  { Loader.standard with read := fun s ↦ (Loader.standard.read s).mapError (.guarded s.error) }

theorem Loader.readsAsDocumented_guarded : Loader.guarded.ReadsAsDocumented := by
  constructor
  · intro s fault hs h
    obtain ⟨found, -, rfl⟩ := exists_of_mapError_eq_error h
    rw [hs]
    cases found <;> rfl
  · intro s e fault hs h
    obtain ⟨found, -, rfl⟩ := exists_of_mapError_eq_error h
    rw [hs]
    cases found with
    | notADocument => exact .inl rfl
    | crash c => exact .inr rfl

/-- The bytes of a text of ASCII. -/
def asciiFile (s : String) : Entry := .file (.bytes (s.toList.map Char.toNat))

/-- A vest, and after it a file with a byte that no text has. -/
def torn : List (String × Entry) :=
  [("a.yaml", asciiFile "items:\n  - id: vest\n    name: Silk vest\n"),
    ("b.yaml", .file (.bytes [0xff]))]

def tornError : ContentError :=
  readerCrash (.notText { byte := 0xff, position := 0, length := 1, fault := .invalidStart })

theorem undecodable_torn :
    Undecodable .guarded (shelf torn) (Path.join "content" "b.yaml") tornError := by
  refine ⟨[0xff], _, ?_, rfl, rfl⟩
  rw [find_join_shelf torn "b.yaml" (by decide)]
  rfl

theorem contentFiles_torn : (contentFiles (.folder torn)).map (Path.join "content") =
    [Path.join "content" "a.yaml"] ++ [Path.join "content" "b.yaml"] := by
  decide +kernel

theorem definitions_torn : (∀ p ∈ [Path.join "content" "a.yaml"],
      ∃ d, Catalog.definitions .guarded (shelf torn) p = .ok d) ∧
    Catalog.definitions .guarded (shelf torn) (Path.join "content" "b.yaml") =
      .error tornError := by
  constructor
  · rw [List.forall_mem_singleton]
    unfold Catalog.definitions loadDocument
    rw [find_join_shelf torn "a.yaml" (by decide)]
    exact ⟨_, eq_ok_getD_of_isOk (by decide +kernel) {}⟩
  · unfold Catalog.definitions
    rw [loadDocument_of_undecodable undecodable_torn]
    rfl

theorem loadContent_torn : Loader.guarded.ReadsAsDocumented ∧
    (loadContent .guarded (shelf torn) "content").2 = .error tornError ∧
    NotText (shelf torn) (Path.join "content" "b.yaml") tornError ∧
    (tornError.severity = .validation ∨
      Undecodable .guarded (shelf torn) (Path.join "content" "b.yaml") tornError ∨
      Unnamable .guarded (shelf torn) (Path.join "content" "b.yaml") tornError) ∧
    (loadContent .guarded (shelf (("c.yml", .file (.document .null)) :: torn)) "content").2 =
      (loadContent .guarded (shelf torn) "content").2 := by
  obtain ⟨-, hstops, hrefused, hdocumented, hskips⟩ :=
    loadContent_of_unreadable (l := .guarded) (find_shelf torn) (by decide) (by decide)
  obtain ⟨hfirst, hlast⟩ := definitions_torn
  refine ⟨Loader.readsAsDocumented_guarded,
    (hstops _).2 ⟨_, _, [], contentFiles_torn, hfirst, hlast⟩,
    (hdocumented Loader.readsAsDocumented_guarded).1 _ _ undecodable_torn,
    hrefused "b.yaml" (by decide +kernel) _ hlast, ?_⟩
  have hload : loadDocument .guarded (shelf (("c.yml", .file (.document .null)) :: torn))
      (Path.join "content" "c.yml") = .error (emptyFile "content/c.yml") := by
    unfold loadDocument
    rw [find_join_shelf _ "c.yml" (by decide)]
    rfl
  exact (hskips _ _ "c.yml" _ _ (find_shelf _) (.refl _) (by decide) (by decide +kernel) hload
    rfl).1

/-- Even with a reader that keeps to its documentation, it is not so that each file either has a
map, or cannot be loaded and is skipped. -/
theorem torn_not_skipped : Loader.guarded.ReadsAsDocumented ∧
    ¬ ((∃ fields, loadDocument .guarded (shelf torn) (Path.join "content" "b.yaml") =
        .ok fields) ∨
      ∃ e, loadDocument .guarded (shelf torn) (Path.join "content" "b.yaml") = .error e ∧
        e.severity = .load) ∧
    ¬ ((∃ c, (loadContent .guarded (shelf torn) "content").2 = .ok c) ∨
      ∃ e, (loadContent .guarded (shelf torn) "content").2 = .error e ∧
        e.severity = .validation) := by
  obtain ⟨hfirst, hlast⟩ := definitions_torn
  have hload := loadDocument_of_undecodable undecodable_torn
  have hcontent : (loadContent .guarded (shelf torn) "content").2 = .error tornError := by
    obtain ⟨_, -, hcontent⟩ := exists_loadContent_eq (l := .guarded) (find_shelf torn)
    rw [hcontent, contentFiles_torn]
    exact Catalog.addFiles_of_refused hfirst hlast [] {}
  rw [hload, hcontent]
  refine ⟨Loader.readsAsDocumented_guarded, ?_, ?_⟩
  · rintro (⟨fields, h⟩ | ⟨e, h, he⟩)
    · cases h
    · obtain rfl := Except.error.inj h
      cases undecodable_torn.severity.symm.trans he
  · rintro (⟨c, h⟩ | ⟨e, h, he⟩)
    · cases h
    · obtain rfl := Except.error.inj h
      cases undecodable_torn.severity.symm.trans he

end CharacterSheet
