import CharacterSheet.Content.Load
import CharacterSheet.Proofs.Overlay.Completion

/-!
# First definitions

Files are read one after the other, and the first definition of an id counts.  So a catalog has the
first of all definitions of each id, in the order of the files and of the positions in a section,
and a warning is recorded for every other one.
-/

namespace CharacterSheet

theorem error_of_bind_eq_error {ε α β : Type} {x : Except ε α} {f : α → Except ε β} {e : ε}
    (h : x >>= f = .error e) : x = .error e ∨ ∃ a, x = .ok a ∧ f a = .error e := by
  cases x with
  | error e' =>
    obtain rfl : e' = e := Except.error.inj h
    exact .inl rfl
  | ok a => exact .inr ⟨a, rfl, h⟩

/-! ## What is recorded -/

/-- The file and the id of a later definition that an event warns of. -/
def Event.duplicate? (category : String) : Event → Option (String × String)
  | .duplicateId c id file => if c = category then some (file, id) else none
  | _ => none

/-- The file that an event says has been skipped, and why. -/
def Event.skipped? : Event → Option (String × String)
  | .fileSkipped file error => some (file, error)
  | _ => none

namespace Catalog

/-! ## Definitions in order -/

/-- Of ids with their files, those that come after an equal id. -/
def later (before : List String) : List (String × String) → List (String × String)
  | [] => []
  | d :: ds => (if d.2 ∈ before then [d] else []) ++ later (before ++ [d.2]) ds

theorem later_concat (before : List String) (ds : List (String × String)) (d : String × String) :
    later before (ds ++ [d]) =
      later before ds ++ if d.2 ∈ before ++ ds.map Prod.snd then [d] else [] := by
  induction ds generalizing before with
  | nil => simp [later]
  | cons e ds ih =>
    rw [List.cons_append, later, ih, later, List.append_assoc, List.append_assoc]
    rfl

/-- A table holds the first of some definitions of each id, and a warning has been recorded for
each of the others. -/
structure FirstWins {α : Type} (category : String) (id : α → String) (ds : List (String × α))
    (t : Table α) (events : List Event) : Prop where
  first : ∀ k, t.get? k = (ds.find? fun d ↦ id d.2 == k).map Prod.snd
  warned : events.filterMap (Event.duplicate? category) = later [] (ds.map fun d ↦ (d.1, id d.2))

namespace FirstWins

variable {α : Type} {category : String} {id : α → String} {ds : List (String × α)} {t : Table α}
  {events : List Event}

theorem contains_iff (h : FirstWins category id ds t events) (k : String) :
    t.contains k = true ↔ k ∈ ds.map fun d ↦ id d.2 := by
  rw [Table.contains, h.first]
  simp

theorem after (h : FirstWins category id ds t events) (events' : List Event)
    (hevents : events'.filterMap (Event.duplicate? category) = []) :
    FirstWins category id ds t (events ++ events') where
  first := h.first
  warned := by rw [List.filterMap_append, hevents, List.append_nil, h.warned]

/-- One more definition: it counts if its id is new, and else there is a warning. -/
theorem add (h : FirstWins category id ds t events) (file : String) (x : α) :
    if t.contains (id x) then
      FirstWins category id (ds ++ [(file, x)]) t (events ++ [.duplicateId category (id x) file])
    else FirstWins category id (ds ++ [(file, x)]) (t.set (id x) x) events := by
  have hcontains := h.contains_iff (id x)
  have hids : [] ++ (ds.map fun d ↦ (d.1, id d.2)).map Prod.snd = ds.map fun d ↦ id d.2 := by
    simp [Function.comp_def]
  have hlater := later_concat [] (ds.map fun d ↦ (d.1, id d.2)) (file, id x)
  rw [hids] at hlater
  split
  · next hold =>
    have hmem := hcontains.1 hold
    refine ⟨fun k ↦ ?_, ?_⟩
    · rw [h.first, List.find?_append]
      cases hfind : ds.find? fun d ↦ id d.2 == k with
      | some d => rfl
      | none =>
        have hne : id x ≠ k := by
          rintro rfl
          obtain ⟨d, hd, hid⟩ := List.mem_map.1 hmem
          exact absurd (beq_iff_eq.2 hid) (List.find?_eq_none.1 hfind d hd)
        simp [hne]
    · rw [if_pos hmem] at hlater
      simp [h.warned, hlater, Event.duplicate?]
  · next hnew =>
    have hmem := mt hcontains.2 hnew
    refine ⟨fun k ↦ ?_, ?_⟩
    · rw [Table.get?_set, h.first, List.find?_append]
      by_cases hk : k = id x
      · have hfind : (ds.find? fun d ↦ id d.2 == k) = none :=
          List.find?_eq_none.2 fun d hd hid ↦
            hmem (List.mem_map.2 ⟨d, hd, (beq_iff_eq.1 hid).trans hk⟩)
        rw [hfind]
        simp [hk]
      · simp [hk, Ne.symm hk]
    · rw [if_neg hmem, List.append_nil] at hlater
      simp [h.warned, hlater]

theorem define (h : FirstWins category id ds t events) (file : String) (xs : List α) :
    FirstWins category id (ds ++ xs.map (file, ·)) (define category file id t xs).1
      (events ++ (define category file id t xs).2) := by
  induction xs generalizing ds t events with
  | nil => simpa [Catalog.define] using h
  | cons x xs ih =>
    have hadd := h.add file x
    unfold Catalog.define
    split
    · next hold =>
      rw [if_pos hold] at hadd
      simpa using ih hadd
    · next hnew =>
      rw [if_neg hnew] at hadd
      simpa using ih hadd

end FirstWins

theorem filterMap_define {α β : Type} {f : Event → Option β} {category file : String}
    {id : α → String} (hf : ∀ k, f (.duplicateId category k file) = none) (t : Table α)
    (xs : List α) : (define category file id t xs).2.filterMap f = [] := by
  induction xs generalizing t with
  | nil => rfl
  | cons x xs ih =>
    unfold define
    split
    · simp [hf, ih]
    · exact ih _

/-! ## Files and what they define -/

/-- What the sections of a file define. -/
structure Definitions where
  items : List Item := []
  injuries : List Injury := []
  modules : List Module := []

/-- What the sections of a document define, if their content is valid. -/
def readDefinitions (l : Loader) (file : String) (document : List (Value × Value)) :
    Except ContentError Definitions := do
  let items ← readSection l.levels "items" file l.item document
  let injuries ← readSection l.levels "injuries" file l.injury document
  let modules ← readSection l.levels "modules" file l.module document
  return { items, injuries, modules }

/-- What a file defines.  A file that cannot be loaded defines nothing. -/
def definitions (l : Loader) (root : Entry) (path : String) : Except ContentError Definitions :=
  match loadDocument l root path with
  | .error e => if e.severity = .load then .ok {} else .error e
  | .ok document => readDefinitions l path document

/-- The definitions of a section in all files, in order, each with its file. -/
def defined {α : Type} (l : Loader) (root : Entry) (paths : List String)
    (part : Definitions → List α) : List (String × α) :=
  paths.flatMap fun path ↦
    (definitions l root path).toOption.elim [] fun d ↦ (part d).map (path, ·)

/-- Why a file cannot be loaded. -/
def loadFailure? (l : Loader) (root : Entry) (path : String) : Option (String × String) :=
  match loadDocument l root path with
  | .error e => some (path, e.message)
  | .ok _ => none

/-- A catalog holds the first definitions of some files in each section, and what is recorded about
them are the others, and the files that could not be loaded. -/
structure Loaded (l : Loader) (root : Entry) (paths : List String) (c : Catalog)
    (events : List Event) : Prop where
  items : FirstWins "items" Item.id (defined l root paths Definitions.items) c.items events
  injuries : FirstWins "injuries" Injury.id (defined l root paths Definitions.injuries) c.injuries
    events
  modules : FirstWins "modules" Module.id (defined l root paths Definitions.modules) c.modules
    events
  skipped : events.filterMap Event.skipped? = paths.filterMap (loadFailure? l root)

variable {l : Loader} {root : Entry} {path : String} {paths : List String} {c : Catalog}
  {events : List Event} {d : Definitions}

theorem defined_concat {α : Type} (part : Definitions → List α)
    (hd : definitions l root path = .ok d) :
    defined l root (paths ++ [path]) part =
      defined l root paths part ++ (part d).map (path, ·) := by
  unfold defined
  rw [List.flatMap_append, List.flatMap_singleton, hd]
  rfl

theorem loaded_empty (l : Loader) (root : Entry) : Loaded l root [] {} [] where
  items := ⟨fun _ ↦ rfl, rfl⟩
  injuries := ⟨fun _ ↦ rfl, rfl⟩
  modules := ⟨fun _ ↦ rfl, rfl⟩
  skipped := rfl

/-- What is recorded about a directory as a whole tells nothing about its files. -/
theorem Loaded.after (h : Loaded l root paths c events) {closing : List Event}
    (hclosing : ∀ e ∈ closing, e.skipped? = none ∧ ∀ category, e.duplicate? category = none) :
    Loaded l root paths c (events ++ closing) := by
  have hduplicate (category : String) :
      closing.filterMap (Event.duplicate? category) = [] :=
    List.filterMap_eq_nil_iff.2 fun e he ↦ (hclosing e he).2 category
  have hskipped : closing.filterMap Event.skipped? = [] :=
    List.filterMap_eq_nil_iff.2 fun e he ↦ (hclosing e he).1
  exact
    { items := h.items.after closing (hduplicate _)
      injuries := h.injuries.after closing (hduplicate _)
      modules := h.modules.after closing (hduplicate _)
      skipped := by rw [List.filterMap_append, hskipped, List.append_nil, h.skipped] }

/-! ## One file -/

/-- Adds what a file defines; the events are about definitions that do not count. -/
def addDefinitions (file : String) (d : Definitions) (c : Catalog) : Catalog × List Event :=
  let items := define "items" file Item.id c.items d.items
  let injuries := define "injuries" file Injury.id c.injuries d.injuries
  let modules := define "modules" file Module.id c.modules d.modules
  ({ items := items.1, injuries := injuries.1, modules := modules.1 },
    items.2 ++ injuries.2 ++ modules.2)

/-- What is recorded about a file that cannot be loaded. -/
def skips (l : Loader) (root : Entry) (path : String) : List Event :=
  match loadDocument l root path with
  | .error e => [.fileSkipped path e.message]
  | .ok _ => []

theorem addDocument_of_read {file : String} {document : List (Value × Value)}
    (hd : readDefinitions l file document = .ok d) (c : Catalog) :
    c.addDocument l file document =
      ((c.addDefinitions file d).2, .ok (c.addDefinitions file d).1) := by
  obtain ⟨items, hitems, hd⟩ := exists_of_bind_eq_ok hd
  obtain ⟨injuries, hinjuries, hd⟩ := exists_of_bind_eq_ok hd
  obtain ⟨modules, hmodules, hd⟩ := exists_of_bind_eq_ok hd
  obtain rfl := Except.ok.inj hd
  unfold addDocument
  rw [hitems, hinjuries, hmodules]
  rfl

theorem addDocument_of_refused {file : String} {document : List (Value × Value)} {e : ContentError}
    (he : readDefinitions l file document = .error e) (c : Catalog) :
    (c.addDocument l file document).2 = .error e := by
  unfold addDocument
  obtain hitems | ⟨items, hitems, he⟩ := error_of_bind_eq_error he
  · rw [hitems]
  obtain hinjuries | ⟨injuries, hinjuries, he⟩ := error_of_bind_eq_error he
  · rw [hitems, hinjuries]
  obtain hmodules | ⟨modules, hmodules, he⟩ := error_of_bind_eq_error he
  · rw [hitems, hinjuries, hmodules]
  · cases he

theorem addFiles_singleton (hd : definitions l root path = .ok d) (c : Catalog) :
    addFiles l root [path] c =
      (skips l root path ++ (c.addDefinitions path d).2, .ok (c.addDefinitions path d).1) := by
  unfold definitions at hd
  rw [addFiles, skips]
  cases hload : loadDocument l root path with
  | error e =>
    rw [hload] at hd
    dsimp only at hd ⊢
    split at hd
    · next hskipped =>
      obtain rfl := Except.ok.inj hd
      rw [if_pos hskipped]
      rfl
    · cases hd
  | ok document =>
    rw [hload] at hd
    dsimp only
    rw [addDocument_of_read hd]
    simp [addFiles]

theorem addFiles_refused {e : ContentError} (he : definitions l root path = .error e)
    (c : Catalog) : (addFiles l root [path] c).2 = .error e := by
  unfold definitions at he
  rw [addFiles]
  cases hload : loadDocument l root path with
  | error e' =>
    rw [hload] at he
    dsimp only at he ⊢
    split at he
    · cases he
    · next hfatal =>
      obtain rfl : e' = e := Except.error.inj he
      rw [if_neg hfatal]
  | ok document =>
    rw [hload] at he
    have hadd := addDocument_of_refused he c
    dsimp only
    rcases hadded : c.addDocument l path document with ⟨events, e' | c'⟩
    · rw [hadded] at hadd
      exact hadd
    · rw [hadded] at hadd
      cases hadd

/-- The definitions of one more file come after those of the files before it. -/
theorem Loaded.addDefinitions (h : Loaded l root paths c events)
    (hd : definitions l root path = .ok d) :
    Loaded l root (paths ++ [path]) (c.addDefinitions path d).1
      (events ++ (skips l root path ++ (c.addDefinitions path d).2)) := by
  have hskips (category : String) :
      (skips l root path).filterMap (Event.duplicate? category) = [] := by
    unfold skips
    cases loadDocument l root path <;> rfl
  have hskipped : (skips l root path).filterMap Event.skipped? =
      (loadFailure? l root path).toList := by
    unfold skips loadFailure?
    cases loadDocument l root path <;> rfl
  unfold Catalog.addDefinitions
  rw [← List.append_assoc, ← List.append_assoc, ← List.append_assoc]
  constructor
  · rw [defined_concat _ hd]
    exact (((h.items.after _ (hskips _)).define path d.items).after _
      (filterMap_define (fun _ ↦ rfl) ..)).after _ (filterMap_define (fun _ ↦ rfl) ..)
  · rw [defined_concat _ hd]
    exact (((h.injuries.after _ (hskips _)).after _ (filterMap_define (fun _ ↦ rfl) ..)).define
      path d.injuries).after _ (filterMap_define (fun _ ↦ rfl) ..)
  · rw [defined_concat _ hd]
    exact (((h.modules.after _ (hskips _)).after _ (filterMap_define (fun _ ↦ rfl) ..)).after _
      (filterMap_define (fun _ ↦ rfl) ..)).define path d.modules
  · have hone : [path].filterMap (loadFailure? l root) = (loadFailure? l root path).toList := by
      cases hfailure : loadFailure? l root path <;> simp [hfailure]
    simp [h.skipped, hskipped, hone, filterMap_define (f := Event.skipped?) fun _ ↦ rfl]

/-! ## All files -/

theorem addFiles_cons (l : Loader) (root : Entry) (path : String) (paths : List String)
    (c : Catalog) : addFiles l root (path :: paths) c =
      match addFiles l root [path] c with
      | (events, .error e) => (events, .error e)
      | (events, .ok c') =>
        (events ++ (addFiles l root paths c').1, (addFiles l root paths c').2) := by
  have hnone (c : Catalog) : addFiles l root [] c = ([], .ok c) := rfl
  rw [addFiles, addFiles]
  cases loadDocument l root path with
  | error e =>
    dsimp only
    split <;> rfl
  | ok document =>
    dsimp only
    rcases c.addDocument l path document with ⟨events, e | c'⟩
    · rfl
    · simp [hnone]

/-- All files: what they define is held, and what is not is recorded. -/
theorem Loaded.addFiles (h : Loaded l root paths c events) {rest : List String}
    (hrest : ∀ path ∈ rest, ∃ d, definitions l root path = .ok d) :
    ∃ c' events', CharacterSheet.addFiles l root rest c = (events', .ok c') ∧
      Loaded l root (paths ++ rest) c' (events ++ events') := by
  induction rest generalizing paths c events with
  | nil => exact ⟨c, [], rfl, by simpa using h⟩
  | cons path rest ih =>
    obtain ⟨⟨d, hd⟩, hrest⟩ := List.forall_mem_cons.1 hrest
    obtain ⟨c', events', hfiles, hloaded⟩ := ih (h.addDefinitions hd) hrest
    rw [addFiles_cons, addFiles_singleton hd]
    dsimp only
    rw [hfiles]
    exact ⟨c', _, rfl, by simpa using hloaded⟩

end Catalog

end CharacterSheet
