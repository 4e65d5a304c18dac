import CharacterSheet.Content.Standard
import CharacterSheet.Proofs.Content.FirstWins
import CharacterSheet.Proofs.Folder
import Mathlib.Data.List.Basic

/-!
# Directories of content

The files of a directory are read in the order of their names.  Neither the order in which the
directory lists them nor a file that comes after all others changes what the others define.
-/

namespace CharacterSheet

/-! ## The files of a directory -/

def isContentName (name : String) : Bool := contentEndings.any fun s ↦ name.endsWith s

theorem mem_contentFiles {e : Entry} {name : String} : name ∈ contentFiles e ↔
    name ∈ e.entryNames ∧ isContentName name = true := by
  unfold contentFiles isContentName
  rw [NameSet.mem_names, NameSet.mem_ofList, List.mem_filter]

theorem contentFiles_perm {es es' : List (String × Entry)} (h : es'.Perm es) :
    contentFiles (.folder es') = contentFiles (.folder es) := by
  refine NameSet.eq_of_sorted (NameSet.ofList _).sorted (NameSet.ofList _).sorted fun name ↦ ?_
  rw [mem_contentFiles, mem_contentFiles]
  exact and_congr_left' (h.map Prod.fst).mem_iff

theorem contentFiles_cons_last {es : List (String × Entry)} {name : String} {file : Entry}
    (hname : isContentName name = true)
    (hlast : ∀ n ∈ contentFiles (.folder es), n < name) :
    contentFiles (.folder ((name, file) :: es)) = contentFiles (.folder es) ++ [name] := by
  refine NameSet.eq_of_sorted (NameSet.ofList _).sorted ?_ fun n ↦ ?_
  · refine List.pairwise_append.2 ⟨(NameSet.ofList _).sorted, List.pairwise_singleton .., ?_⟩
    simpa using hlast
  · have hentries : n ∈ (Entry.folder ((name, file) :: es)).entryNames ↔
        n = name ∨ n ∈ (Entry.folder es).entryNames := List.mem_cons
    rw [List.mem_append, List.mem_singleton, mem_contentFiles, mem_contentFiles, hentries]
    by_cases h : n = name <;> simp [h, hname]

theorem isName_of_content {name : String} (hslash : '/' ∉ name.toList)
    (hname : isContentName name = true) :
    Path.IsName name ∧ Path.leadsOut name = false := by
  have hne (other : String) (hother : isContentName other = false) : name ≠ other := by
    rintro rfl
    simp [hother] at hname
  refine ⟨⟨hslash, hne "" (by decide), hne "." (by decide)⟩, ?_⟩
  simp [Path.leadsOut, hne ".." (by decide), hne "/" (by decide), hne "//" (by decide)]

theorem definitions_congr {l : Loader} {root root' : Entry} {path : String}
    (h : root'.find path = root.find path) :
    Catalog.definitions l root' path = Catalog.definitions l root path := by
  unfold Catalog.definitions loadDocument
  rw [h]

theorem addFiles_congr {l : Loader} {root root' : Entry} {paths : List String}
    (h : ∀ path ∈ paths, root'.find path = root.find path) (c : Catalog) :
    addFiles l root' paths c = addFiles l root paths c := by
  induction paths generalizing c with
  | nil => rfl
  | cons path paths ih =>
    obtain ⟨hpath, hpaths⟩ := List.forall_mem_cons.1 h
    have hload : loadDocument l root' path = loadDocument l root path := by
      unfold loadDocument
      rw [hpath]
    rw [addFiles, addFiles, hload]
    simp only [ih hpaths]

section Directory

variable {l : Loader} {root root' : Entry} {directory : String} {es es' : List (String × Entry)}

/-- Where two folders have the same entry under the name of a content file, the same is found. -/
theorem find_join_congr {name : String} (hfind : root.find directory = .ok (.folder es))
    (hfind' : root'.find directory = .ok (.folder es'))
    (hname : name ∈ contentFiles (.folder es)) (hslash : '/' ∉ name.toList)
    (hlookup : Entry.lookup name es' = Entry.lookup name es) :
    root'.find (Path.join directory name) = root.find (Path.join directory name) := by
  obtain ⟨hisName, hout⟩ := isName_of_content hslash (mem_contentFiles.1 hname).2
  rw [Entry.find_join hisName hout hfind, Entry.find_join hisName hout hfind', Entry.child,
    Entry.child, hlookup]

/-- A file more or less in a folder does not matter to what is found under other names. -/
theorem find_join_of_perm_cons {name : String} {file : Entry}
    (hfind : root.find directory = .ok (.folder es))
    (hfind' : root'.find directory = .ok (.folder es')) (hperm : es'.Perm ((name, file) :: es))
    (hnames : (es.map Prod.fst).Nodup) (hslash : ∀ n ∈ es.map Prod.fst, '/' ∉ n.toList)
    (hnew : name ∉ es.map Prod.fst) :
    ∀ n ∈ contentFiles (.folder es),
      root'.find (Path.join directory n) = root.find (Path.join directory n) := by
  intro n hn
  have hentry : n ∈ es.map Prod.fst := (mem_contentFiles.1 hn).1
  have hne : n ≠ name := fun heq ↦ hnew (heq ▸ hentry)
  refine find_join_congr hfind hfind' hn (hslash n hentry) ?_
  rw [Entry.lookup_perm hperm (List.nodup_cons.2 ⟨hnew, hnames⟩), Entry.lookup,
    List.lookup_cons, beq_eq_false_iff_ne.2 hne]
  rfl

/-- A directory comes to what its files come to, one after the other; what else is recorded is not
about single files. -/
theorem exists_loadContent_eq (hfind : root.find directory = .ok (.folder es)) :
    ∃ closing : List Event,
      (∀ e ∈ closing, e.skipped? = none ∧ ∀ category, e.duplicate? category = none) ∧
      loadContent l root directory =
        ((addFiles l root ((contentFiles (.folder es)).map (Path.join directory)) {}).1 ++ closing,
          (addFiles l root ((contentFiles (.folder es)).map (Path.join directory)) {}).2) := by
  have hone {e : Event} (hskipped : e.skipped? = none)
      (hduplicate : ∀ category, e.duplicate? category = none) :
      ∀ e' ∈ [e], e'.skipped? = none ∧ ∀ category, e'.duplicate? category = none :=
    List.forall_mem_singleton.2 ⟨hskipped, hduplicate⟩
  unfold loadContent
  rw [hfind]
  dsimp only
  cases hempty : (contentFiles (.folder es)).isEmpty with
  | true =>
    rw [List.isEmpty_iff.1 hempty]
    exact ⟨[.noContentFiles directory], hone rfl fun _ ↦ rfl, rfl⟩
  | false =>
    rcases addFiles l root ((contentFiles (.folder es)).map (Path.join directory)) {} with
      ⟨events, e | c⟩
    · exact ⟨[], List.forall_mem_nil _, by rw [List.append_nil]; rfl⟩
    · exact ⟨[.contentLoaded directory c.items.size c.injuries.size c.modules.size],
        hone rfl fun _ ↦ rfl, rfl⟩

theorem loaded_loadContent (hfind : root.find directory = .ok (.folder es))
    (hfiles : ∀ name ∈ contentFiles (.folder es),
      ∃ d, Catalog.definitions l root (Path.join directory name) = .ok d) :
    ∃ c events, loadContent l root directory = (events, .ok c) ∧
      Catalog.Loaded l root ((contentFiles (.folder es)).map (Path.join directory)) c events := by
  obtain ⟨c, events, hadd, hloaded⟩ :=
    (Catalog.loaded_empty l root).addFiles (List.forall_mem_map.2 hfiles)
  obtain ⟨closing, hclosing, hload⟩ := exists_loadContent_eq hfind
  rw [hadd] at hload
  exact ⟨c, events ++ closing, hload, hloaded.after hclosing⟩

theorem loadContent_perm (hfind : root.find directory = .ok (.folder es))
    (hfind' : root'.find directory = .ok (.folder es')) (h : es'.Perm es)
    (hnames : (es.map Prod.fst).Nodup) (hslash : ∀ name ∈ es.map Prod.fst, '/' ∉ name.toList) :
    loadContent l root' directory = loadContent l root directory := by
  unfold loadContent
  rw [hfind, hfind']
  dsimp only
  rw [contentFiles_perm h, addFiles_congr (List.forall_mem_map.2 fun name hname ↦
    find_join_congr hfind hfind' hname (hslash name (mem_contentFiles.1 hname).1)
      (Entry.lookup_perm h hnames name))]

/-- Everything that one catalog has, another one has under the same id. -/
structure Catalog.KeptBy (c c' : Catalog) : Prop where
  items : ∀ id item, c.items.get? id = some item → c'.items.get? id = some item
  injuries : ∀ id injury, c.injuries.get? id = some injury → c'.injuries.get? id = some injury
  modules : ∀ id m, c.modules.get? id = some m → c'.modules.get? id = some m

theorem Catalog.FirstWins.kept {α : Type} {category : String} {id : α → String}
    {ds new : List (String × α)} {t t' : Table α} {events events' : List Event}
    (h : FirstWins category id ds t events) (h' : FirstWins category id (ds ++ new) t' events')
    (k : String) (x : α) (hk : t.get? k = some x) : t'.get? k = some x := by
  rw [h.first, Option.map_eq_some_iff] at hk
  obtain ⟨d, hd, rfl⟩ := hk
  rw [h'.first, List.find?_append, hd]
  rfl

theorem Catalog.defined_append {α : Type} {paths paths' : List String}
    (h : ∀ path ∈ paths, root'.find path = root.find path) (part : Definitions → List α) :
    defined l root' (paths ++ paths') part =
      defined l root paths part ++ defined l root' paths' part := by
  unfold defined
  rw [List.flatMap_append]
  congr 1
  refine List.flatMap_congr fun path hpath ↦ ?_
  rw [definitions_congr (h path hpath)]

/-- What has been loaded stays when files are added that come after all others. -/
theorem Catalog.Loaded.kept {paths paths' : List String} {c c' : Catalog}
    {events events' : List Event} (hc : Loaded l root paths c events)
    (h : ∀ path ∈ paths, root'.find path = root.find path)
    (hc' : Loaded l root' (paths ++ paths') c' events') :
    c.KeptBy c' where
  items := hc.items.kept (by simpa only [defined_append h] using hc'.items)
  injuries := hc.injuries.kept (by simpa only [defined_append h] using hc'.injuries)
  modules := hc.modules.kept (by simpa only [defined_append h] using hc'.modules)

/-- If every content file of a directory either cannot be loaded or is valid, the catalog has the
first definition of each id, in the order of the files and within their sections, and each other
definition is warned of.  The order in which the directory lists its files does not matter, and a
file that comes after all others takes nothing away. -/
theorem loadContent_first_wins (hfind : root.find directory = .ok (.folder es))
    (hnames : (es.map Prod.fst).Nodup) (hslash : ∀ name ∈ es.map Prod.fst, '/' ∉ name.toList)
    (hfiles : ∀ name ∈ contentFiles (.folder es),
      ∃ d, Catalog.definitions l root (Path.join directory name) = .ok d) :
    ∃ c events, loadContent l root directory = (events, .ok c) ∧
      Catalog.Loaded l root ((contentFiles (.folder es)).map (Path.join directory)) c events ∧
      (∀ root' es', root'.find directory = .ok (.folder es') → es'.Perm es →
        loadContent l root' directory = (events, .ok c)) ∧
      ∀ root' es' name file, root'.find directory = .ok (.folder es') →
        es'.Perm ((name, file) :: es) →
        isContentName name = true →
        (∀ n ∈ contentFiles (.folder es), n < name) →
        (∃ d, Catalog.definitions l root' (Path.join directory name) = .ok d) →
        ∃ c' events', loadContent l root' directory = (events', .ok c') ∧ c.KeptBy c' := by
  obtain ⟨c, events, hload, hloaded⟩ := loaded_loadContent hfind hfiles
  refine ⟨c, events, hload, hloaded, fun root' es' hfind' hperm ↦ ?_, ?_⟩
  · rw [loadContent_perm hfind hfind' hperm hnames hslash, hload]
  · intro root' es' name file hfind' hperm hname hlast hnew
    have hfresh : name ∉ es.map Prod.fst := fun hold ↦
      String.lt_irrefl name (hlast name (mem_contentFiles.2 ⟨hold, hname⟩))
    have hsame := find_join_of_perm_cons hfind hfind' hperm hnames hslash hfresh
    have hlisted : contentFiles (.folder es') = contentFiles (.folder es) ++ [name] := by
      rw [contentFiles_perm hperm, contentFiles_cons_last hname hlast]
    have hfiles' : ∀ n ∈ contentFiles (.folder es'),
        ∃ d, Catalog.definitions l root' (Path.join directory n) = .ok d := by
      rw [hlisted]
      refine List.forall_mem_append.2 ⟨fun n hn ↦ ?_, by simpa using hnew⟩
      rw [definitions_congr (hsame n hn)]
      exact hfiles n hn
    obtain ⟨c', events', hload', hloaded'⟩ := loaded_loadContent hfind' hfiles'
    rw [hlisted, List.map_append] at hloaded'
    exact ⟨c', events', hload', hloaded.kept (List.forall_mem_map.2 hsame) hloaded'⟩

/-- A folder of content. -/
def shelf (files : List (String × Entry)) : Entry := .folder [("content", .folder files)]

def vest (name : String) : Item := .ofChecked "vest" name "" .misc none none 0 .empty [] []

def vestFile (name : String) : Entry :=
  .file (.document (.map [(.text "items",
    .list [.ofFields [("id", .text "vest"), ("name", .text name)]])]))

/-- Two files that define the same item and one that is empty, not listed in order. -/
def vests : List (String × Entry) :=
  [("b.yaml", vestFile "Leather vest"), ("c.yml", .file (.document .null)),
    ("a.yaml", vestFile "Silk vest")]

theorem find_shelf (files : List (String × Entry)) :
    (shelf files).find "content" = .ok (.folder files) := by
  have hnames : Path.names "content" = ["content"] := by decide
  rw [Entry.find, if_neg (by decide), if_neg (by decide), hnames,
    Entry.follow_singleton (by decide)]
  rfl

theorem find_join_shelf (files : List (String × Entry)) :
    ∀ name ∈ ["a.yaml", "b.yaml", "c.yml", "d.yaml"],
      (shelf files).find (Path.join "content" name) = Entry.child name (.folder files) := by
  intro name hname
  simp only [List.mem_cons, List.not_mem_nil, or_false] at hname
  rcases hname with rfl | rfl | rfl | rfl <;>
    rw [Entry.find_join ⟨by decide, by decide, by decide⟩ (by decide) (find_shelf files),
      if_neg (by decide), if_neg (by decide)]

theorem loadContent_vests :
    ∃ c events, loadContent .standard (shelf vests) "content" = (events, .ok c) ∧
      c.items.get? "vest" = some (vest "Silk vest") ∧
      events.filterMap (Event.duplicate? "items") = [("content/b.yaml", "vest")] ∧
      loadContent .standard (shelf vests.reverse) "content" = (events, .ok c) ∧
      ∃ c' events', loadContent .standard (shelf (("d.yaml", vestFile "Mail vest") :: vests))
        "content" = (events', .ok c') ∧ c.KeptBy c' := by
  have hlisted : contentFiles (.folder vests) = ["a.yaml", "b.yaml", "c.yml"] := by decide +kernel
  have ha : Catalog.definitions .standard (shelf vests) (Path.join "content" "a.yaml") =
      .ok { items := [vest "Silk vest"] } := by
    unfold Catalog.definitions loadDocument
    rw [find_join_shelf vests "a.yaml" (by decide)]
    rfl
  have hb : Catalog.definitions .standard (shelf vests) (Path.join "content" "b.yaml") =
      .ok { items := [vest "Leather vest"] } := by
    unfold Catalog.definitions loadDocument
    rw [find_join_shelf vests "b.yaml" (by decide)]
    rfl
  have hc : Catalog.definitions .standard (shelf vests) (Path.join "content" "c.yml") = .ok {} := by
    unfold Catalog.definitions loadDocument
    rw [find_join_shelf vests "c.yml" (by decide)]
    rfl
  have hdefined : Catalog.defined .standard (shelf vests)
      ((contentFiles (.folder vests)).map (Path.join "content")) Catalog.Definitions.items =
        [("content/a.yaml", vest "Silk vest"), ("content/b.yaml", vest "Leather vest")] := by
    rw [hlisted]
    unfold Catalog.defined
    simp only [List.map_cons, List.map_nil, List.flatMap_cons, List.flatMap_nil, ha, hb, hc]
    rfl
  obtain ⟨c, events, hload, hloaded, hrelisted, hadded⟩ :=
    loadContent_first_wins (l := .standard) (find_shelf vests) (by decide) (by decide)
      (by simp [hlisted, ha, hb, hc])
  refine ⟨c, events, hload, ?_, ?_, ?_, ?_⟩
  · rw [hloaded.items.first, hdefined]
    rfl
  · rw [hloaded.items.warned, hdefined]
    rfl
  · exact hrelisted _ _ (find_shelf vests.reverse) vests.reverse_perm
  · refine hadded _ _ "d.yaml" _ (find_shelf _) (.refl _) (by decide +kernel)
      (by rw [hlisted]; decide) ?_
    unfold Catalog.definitions loadDocument
    rw [find_join_shelf _ "d.yaml" (by decide)]
    exact ⟨_, rfl⟩

end Directory

end CharacterSheet
