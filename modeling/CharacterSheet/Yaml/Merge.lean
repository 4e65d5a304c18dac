import CharacterSheet.Yaml.Node

/-!
# Merge keys

A merge key brings the entries of other mappings into a mapping, in front of its own ones.  The key
is taken out of the mapping first, so a mapping that is merged into itself brings in what else it
has.
-/

namespace CharacterSheet.Yaml.Graph

def isMergeKey (g : Graph) (entry : Nat × Nat) : Bool := g.tag entry.1 = .merge

/-- Takes the first merge key out of a mapping: what it refers to, and the graph without it. -/
def takeMerge? (g : Graph) (n : Nat) : Option (Nat × Graph) :=
  let es := g.entries n
  match es.span fun e ↦ !g.isMergeKey e with
  | (before, (_, source) :: after) => some (source, g.setContent n (.mapping (before ++ after)))
  | (_, []) => none

/-- A key that marks a main value is a mere text. -/
def plainKeys (g : Graph) (entries : List (Nat × Nat)) : Graph :=
  entries.foldl (fun g e ↦ if g.tag e.1 = .main then g.setTag e.1 .text else g) g

/-- Puts entries in front of those of a mapping. -/
def bringIn (g : Graph) (n : Nat) (entries : List (Nat × Nat)) : Graph :=
  (g.plainKeys (g.entries n)).setContent n (.mapping (entries ++ g.entries n))

/-- Resolves the merge keys of a mapping one after the other; `brought` are the entries that have
been brought in so far.  Of the mappings of a sequence the last one comes first. -/
def mergeFrom : Nat → Nat → List (Nat × Nat) → Graph → Except Fault Graph
  | 0, _, _, _ => .error .notADocument
  | fuel + 1, n, brought, g =>
    match g.takeMerge? n with
    | none => .ok (g.bringIn n brought)
    | some (source, g) =>
      match g.content source with
      | .scalar _ => .error .notADocument
      | .mapping _ => do
        let g ← mergeFrom fuel source [] g
        mergeFrom fuel n (brought ++ g.entries source) g
      | .sequence items => do
        let (lists, g) ← items.foldlM (fun (lists, g) item ↦
          match Graph.content g item with
          | .mapping _ => do
            let g ← mergeFrom fuel item [] g
            return (g.entries item :: lists, g)
          | _ => .error .notADocument) (([], g) : List (List (Nat × Nat)) × Graph)
        mergeFrom fuel n (brought ++ lists.flatten) g

/-- How many merge keys there are. -/
def mergeKeys (g : Graph) : Nat :=
  g.toList.foldl (fun count node ↦ match node.content with
    | .mapping es => count + (es.filter g.isMergeKey).length
    | _ => count) 0

/-- Resolves the merge keys of a mapping.  Each step takes a key out, so there are no more steps on
the way to any mapping than there are keys. -/
def merge (g : Graph) (n : Nat) : Except Fault Graph := mergeFrom (g.mergeKeys + 1) n [] g

end CharacterSheet.Yaml.Graph
