import CharacterSheet.DataCode.Shape

/-!
# The texts of shapes

A token has a shape exactly when it is one of the texts that are written with that shape.  Only the
number behind talent points is lost on the way, so every shape but that one has a single text.
-/

namespace CharacterSheet.DataCode

open Integer (isDigit)

/-! ## Numbers -/

/-- One ASCII digit or more. -/
def Digits (ds : List Char) : Prop := ds ≠ [] ∧ ∀ c ∈ ds, isDigit c = true

theorem digits?_eq_some_iff {cs ds : List Char} : digits? cs = some ds ↔ cs = ds ∧ Digits ds := by
  simp only [digits?, Digits]
  constructor
  · intro h
    split at h
    · next hcs =>
      obtain rfl := Option.some.inj h
      simpa using hcs
    · cases h
  · rintro ⟨rfl, hne, hall⟩
    simp [hne, List.all_eq_true.2 hall]

instance (ds : List Char) : Decidable (Digits ds) :=
  decidable_of_iff ((digits? ds).isSome = true) <| by
    simp [Option.isSome_iff_exists, digits?_eq_some_iff]

def Numeral.text (n : Numeral) : List Char := if n.negative then '-' :: n.digits else n.digits

theorem numeral?_eq_some_iff {cs : List Char} {n : Numeral} :
    numeral? cs = some n ↔ cs = n.text ∧ Digits n.digits := by
  obtain ⟨negative, digits⟩ := n
  constructor
  · intro h
    unfold numeral? at h
    split at h
    · obtain ⟨ds, hds, h⟩ := Option.map_eq_some_iff.1 h
      obtain ⟨rfl, hdigits⟩ := digits?_eq_some_iff.1 hds
      cases h
      exact ⟨rfl, hdigits⟩
    · obtain ⟨ds, hds, h⟩ := Option.map_eq_some_iff.1 h
      obtain ⟨rfl, hdigits⟩ := digits?_eq_some_iff.1 hds
      cases h
      exact ⟨rfl, hdigits⟩
  · rintro ⟨rfl, hdigits⟩
    have hds : digits? digits = some digits := digits?_eq_some_iff.2 ⟨rfl, hdigits⟩
    cases negative with
    | true => simp [Numeral.text, numeral?, hds]
    | false =>
      -- No number starts with the sign, so the text is read as digits.
      have hsign (ds : List Char) : digits = '-' :: ds → False := by
        rintro rfl
        have hminus := hdigits.2 '-' List.mem_cons_self
        exact absurd hminus (by decide)
      unfold numeral? Numeral.text
      split
      · next heq => exact (hsign _ heq).elim
      · simp [hds]

theorem amount?_number_iff {cs : List Char} {n : Numeral} :
    amount? cs = some (.number n) ↔ numeral? cs = some n := by
  have hstep {c : Char} (hc : isDigit c = false) (hm : c ≠ '-') : numeral? [c] = none := by
    cases hn : numeral? [c] with
    | none => rfl
    | some n =>
      obtain ⟨htext, hne, hall⟩ := numeral?_eq_some_iff.1 hn
      unfold Numeral.text at htext
      split at htext
      · obtain ⟨rfl, -⟩ := List.cons.inj htext
        exact absurd rfl hm
      · rw [← htext] at hall
        rw [hall c List.mem_cons_self] at hc
        cases hc
  unfold amount?
  split
  · simp [hstep (c := 'X') (by decide) (by decide)]
  · simp [hstep (c := 'Y') (by decide) (by decide)]
  · simp [Option.map_eq_some_iff]

theorem amount?_stepUp_iff {cs : List Char} : amount? cs = some .stepUp ↔ cs = ['X'] := by
  unfold amount?
  split <;> simp_all [Option.map_eq_some_iff]

theorem amount?_stepDown_iff {cs : List Char} : amount? cs = some .stepDown ↔ cs = ['Y'] := by
  unfold amount?
  split <;> simp_all [Option.map_eq_some_iff]

/-! ## Tokens -/

theorem skillToken?_eq_some_iff {head letter : Char} {cs : List Char} {talent : Bool}
    {amount : Amount} : skillToken? head cs = some (talent, letter, amount) ↔
      ∃ mark text, cs = head :: mark :: letter :: '=' :: text ∧ isCodeLetter letter = true ∧
        talentMark? mark = some talent ∧ amount? text = some amount := by
  constructor
  · intro h
    unfold skillToken? at h
    split at h
    · next first mark letter' text =>
      split at h
      · next hhead =>
        simp only [Bool.and_eq_true, decide_eq_true_eq] at hhead
        obtain ⟨rfl, hletter⟩ := hhead
        simp only [Option.bind_eq_bind, Option.bind_eq_some_iff, Option.some.injEq,
          Prod.mk.injEq] at h
        obtain ⟨talent', htalent, amount', hamount, rfl, rfl, rfl⟩ := h
        exact ⟨mark, text, rfl, hletter, htalent, hamount⟩
      · cases h
    · cases h
  · rintro ⟨mark, text, rfl, hletter, htalent, hamount⟩
    simp [skillToken?, hletter, htalent, hamount]

theorem numberToken?_eq_some_iff {head letter : Char} {cs : List Char} {n : Numeral} :
    numberToken? head cs = some (letter, n) ↔
      ∃ text, cs = head :: letter :: '=' :: text ∧ isCodeLetter letter = true ∧
        numeral? text = some n := by
  constructor
  · intro h
    unfold numberToken? at h
    split at h
    · next first letter' text =>
      split at h
      · next hhead =>
        simp only [Bool.and_eq_true, decide_eq_true_eq] at hhead
        obtain ⟨rfl, hletter⟩ := hhead
        simp only [Option.map_eq_some_iff, Prod.mk.injEq] at h
        obtain ⟨n', hn, rfl, rfl⟩ := h
        exact ⟨text, rfl, hletter, hn⟩
      · cases h
    · cases h
  · rintro ⟨text, rfl, hletter, hn⟩
    simp [numberToken?, hletter, hn]

/-- The texts with which a shape is written. -/
inductive Written : Shape → List Char → Prop
  | basic {mark letter : Char} {talent : Bool} {amount : Amount} {text : List Char} :
    talentMark? mark = some talent → isCodeLetter letter = true → amount? text = some amount →
      Written (.basic talent letter amount) ('S' :: mark :: letter :: '=' :: text)
  | special {branch : Branch} {mark letter : Char} {talent : Bool} {amount : Amount}
    {text : List Char} :
    talentMark? mark = some talent → isCodeLetter letter = true → amount? text = some amount →
      Written (.special branch talent letter amount)
        (branchHead branch :: mark :: letter :: '=' :: text)
  | mitigation {letter : Char} {n : Numeral} {text : List Char} :
    isCodeLetter letter = true → numeral? text = some n →
      Written (.mitigation letter n) ('M' :: letter :: '=' :: text)
  | auto {letter : Char} {n : Numeral} {text : List Char} :
    isCodeLetter letter = true → numeral? text = some n →
      Written (.auto letter n) ('A' :: letter :: '=' :: text)
  | movement {letter : Char} {n : Numeral} {text : List Char} :
    isCodeLetter letter = true → numeral? text = some n →
      Written (.movement letter n) ('K' :: letter :: '=' :: text)
  | immunity {letter : Char} :
    isUpper letter = true → Written (.immunity letter) ['I', letter, '=', '1']
  | flag {letter : Char} : isUpper letter = true → Written (.flag letter) ['F', letter]
  | talentPoints : Written .talentPoints ['T', 'P']
  | talentPointsNumber {text : List Char} :
    Digits text → Written .talentPoints ('T' :: 'P' :: '=' :: text)
  | trait {letter : Char} :
    isUpper letter = true → letter ≠ 'P' → Written (.trait letter none) ['T', letter]
  | traitPayload {letter : Char} {payload : List Char} :
    isUpper letter = true → payload ≠ [] → '\n' ∉ payload → (letter = 'P' → ¬ Digits payload) →
      Written (.trait letter (some payload)) ('T' :: letter :: '=' :: payload)
  | ability {k d m : Char} {kind : AbilityKind} {daily magical : Bool} {ds : List Char} :
    abilityKind? k = some kind → dailyMark? d = some daily → magicalMark? m = some magical →
      Digits ds → Written (.ability kind daily magical ⟨false, ds⟩)
        (k :: d :: m :: 'E' :: '=' :: ds)

theorem findSome?_rules (rule : List Char → Option Shape) (rest : List (List Char → Option Shape))
    (cs : List Char) :
    (rule :: rest).findSome? (fun r ↦ r cs) = (rule cs).or (rest.findSome? fun r ↦ r cs) := by
  rw [List.findSome?_cons]
  cases rule cs <;> rfl

theorem Shape.ofToken?_eq (cs : List Char) : Shape.ofToken? cs =
    (basicRule cs).or ((specialRule .weapon cs).or ((specialRule .magic cs).or
      ((specialRule .crafting cs).or ((mitigationRule cs).or ((autoRule cs).or
        ((movementRule cs).or ((immunityRule cs).or ((flagRule cs).or
          ((talentPointsRule cs).or ((traitRule cs).or (abilityRule cs))))))))))) := by
  simp only [Shape.ofToken?, rules, findSome?_rules, List.findSome?_nil, Option.or_none]

theorem skillToken?_of_ne {head h : Char} (hne : h ≠ head) (cs : List Char) :
    skillToken? head (h :: cs) = none := by
  unfold skillToken?
  split
  · next heq =>
    obtain ⟨rfl, -⟩ := List.cons.inj heq
    simp [hne]
  · rfl

theorem numberToken?_of_ne {head h : Char} (hne : h ≠ head) (cs : List Char) :
    numberToken? head (h :: cs) = none := by
  unfold numberToken?
  split
  · next heq =>
    obtain ⟨rfl, -⟩ := List.cons.inj heq
    simp [hne]
  · rfl

theorem abilityRule_of_ne {k : Char} (hX : k ≠ 'X') (hZ : k ≠ 'Z') (cs : List Char) :
    abilityRule (k :: cs) = none := by
  have hkind : abilityKind? k = none := by
    unfold abilityKind?
    split
    · exact absurd rfl hX
    · exact absurd rfl hZ
    · rfl
  unfold abilityRule
  split
  · next heq =>
    obtain ⟨rfl, -⟩ := List.cons.inj heq
    simp [hkind]
  · rfl

/-- The rules by the first letter of their tokens; two rules share the letter `T`. -/
def headRules : List (Char × (List Char → Option Shape)) :=
  [('S', basicRule), ('W', specialRule .weapon), ('Y', specialRule .magic),
    ('C', specialRule .crafting), ('M', mitigationRule), ('A', autoRule), ('K', movementRule),
    ('I', immunityRule), ('F', flagRule),
    ('T', fun cs ↦ (talentPointsRule cs).or (traitRule cs)), ('X', abilityRule),
    ('Z', abilityRule)]

/-- The first letter of a token decides which rule can take it. -/
theorem ofToken?_of_head {head : Char} (rule : List Char → Option Shape)
    (h : (head, rule) ∈ headRules) (cs : List Char) :
    Shape.ofToken? (head :: cs) = rule (head :: cs) := by
  simp only [headRules, List.mem_cons, Prod.mk.injEq, List.not_mem_nil, or_false] at h
  rcases h with ⟨rfl, rfl⟩ | ⟨rfl, rfl⟩ | ⟨rfl, rfl⟩ | ⟨rfl, rfl⟩ | ⟨rfl, rfl⟩ | ⟨rfl, rfl⟩ |
    ⟨rfl, rfl⟩ | ⟨rfl, rfl⟩ | ⟨rfl, rfl⟩ | ⟨rfl, rfl⟩ | ⟨rfl, rfl⟩ | ⟨rfl, rfl⟩ <;>
  simp [Shape.ofToken?_eq, basicRule, specialRule, branchHead, skillToken?_of_ne, mitigationRule,
    numberToken?_of_ne, autoRule, movementRule, immunityRule, flagRule, talentPointsRule,
    traitRule, abilityRule_of_ne]

theorem ofToken?_trait (cs : List Char) :
    Shape.ofToken? ('T' :: cs) = (talentPointsRule ('T' :: cs)).or (traitRule ('T' :: cs)) :=
  ofToken?_of_head (fun cs ↦ (talentPointsRule cs).or (traitRule cs)) (by simp [headRules]) cs

theorem Written.ofToken?_eq {shape : Shape} {cs : List Char} (h : Written shape cs) :
    Shape.ofToken? cs = some shape := by
  cases h with
  | basic hmark hletter hamount =>
    rw [ofToken?_of_head basicRule (by simp [headRules]), basicRule,
      skillToken?_eq_some_iff.2 ⟨_, _, rfl, hletter, hmark, hamount⟩]
    rfl
  | @special branch _ _ _ _ _ hmark hletter hamount =>
    have hhead : (branchHead branch, specialRule branch) ∈ headRules := by
      cases branch <;> simp [headRules, branchHead]
    rw [ofToken?_of_head _ hhead, specialRule,
      skillToken?_eq_some_iff.2 ⟨_, _, rfl, hletter, hmark, hamount⟩]
    rfl
  | mitigation hletter hn =>
    rw [ofToken?_of_head mitigationRule (by simp [headRules]), mitigationRule,
      numberToken?_eq_some_iff.2 ⟨_, rfl, hletter, hn⟩]
    rfl
  | auto hletter hn =>
    rw [ofToken?_of_head autoRule (by simp [headRules]), autoRule,
      numberToken?_eq_some_iff.2 ⟨_, rfl, hletter, hn⟩]
    rfl
  | movement hletter hn =>
    rw [ofToken?_of_head movementRule (by simp [headRules]), movementRule,
      numberToken?_eq_some_iff.2 ⟨_, rfl, hletter, hn⟩]
    rfl
  | immunity hletter =>
    rw [ofToken?_of_head immunityRule (by simp [headRules]), immunityRule, if_pos hletter]
  | flag hletter =>
    rw [ofToken?_of_head flagRule (by simp [headRules]), flagRule, if_pos hletter]
  | talentPoints => rfl
  | talentPointsNumber hdigits =>
    rw [ofToken?_trait, talentPointsRule, digits?_eq_some_iff.2 ⟨rfl, hdigits⟩]
    rfl
  | trait hletter hne =>
    rw [ofToken?_trait]
    simp [talentPointsRule, traitRule, hletter, hne]
  | @traitPayload letter payload hletter hpayload hline hnumber =>
    have hnone : talentPointsRule ('T' :: letter :: '=' :: payload) = none := by
      unfold talentPointsRule
      split
      · next heq => simp at heq
      · next rest heq =>
        simp only [List.cons.injEq, true_and] at heq
        obtain ⟨rfl, rfl⟩ := heq
        cases hds : digits? payload with
        | none => rfl
        | some ds =>
          obtain ⟨rfl, hdigits⟩ := digits?_eq_some_iff.1 hds
          exact absurd hdigits (hnumber rfl)
      · rfl
    rw [ofToken?_trait, hnone]
    simp [traitRule, hletter, hpayload, hline]
  | @ability k _ _ _ _ _ _ hkind hdaily hmagical hdigits =>
    have hhead : (k, abilityRule) ∈ headRules := by
      unfold abilityKind? at hkind
      split at hkind
      · simp [headRules]
      · simp [headRules]
      · cases hkind
    rw [ofToken?_of_head _ hhead]
    simp [abilityRule, hkind, hdaily, hmagical, digits?_eq_some_iff.2 ⟨rfl, hdigits⟩]

/-! ## What the rules take -/

theorem written_of_basicRule {shape : Shape} {cs : List Char} (h : basicRule cs = some shape) :
    Written shape cs := by
  obtain ⟨⟨talent, letter, amount⟩, htoken, rfl⟩ := Option.map_eq_some_iff.1 h
  obtain ⟨mark, text, rfl, hletter, hmark, hamount⟩ := skillToken?_eq_some_iff.1 htoken
  exact .basic hmark hletter hamount

theorem written_of_specialRule {branch : Branch} {shape : Shape} {cs : List Char}
    (h : specialRule branch cs = some shape) : Written shape cs := by
  obtain ⟨⟨talent, letter, amount⟩, htoken, rfl⟩ := Option.map_eq_some_iff.1 h
  obtain ⟨mark, text, rfl, hletter, hmark, hamount⟩ := skillToken?_eq_some_iff.1 htoken
  exact .special hmark hletter hamount

theorem written_of_mitigationRule {shape : Shape} {cs : List Char}
    (h : mitigationRule cs = some shape) : Written shape cs := by
  obtain ⟨⟨letter, n⟩, htoken, rfl⟩ := Option.map_eq_some_iff.1 h
  obtain ⟨text, rfl, hletter, hn⟩ := numberToken?_eq_some_iff.1 htoken
  exact .mitigation hletter hn

theorem written_of_autoRule {shape : Shape} {cs : List Char} (h : autoRule cs = some shape) :
    Written shape cs := by
  obtain ⟨⟨letter, n⟩, htoken, rfl⟩ := Option.map_eq_some_iff.1 h
  obtain ⟨text, rfl, hletter, hn⟩ := numberToken?_eq_some_iff.1 htoken
  exact .auto hletter hn

theorem written_of_movementRule {shape : Shape} {cs : List Char}
    (h : movementRule cs = some shape) : Written shape cs := by
  obtain ⟨⟨letter, n⟩, htoken, rfl⟩ := Option.map_eq_some_iff.1 h
  obtain ⟨text, rfl, hletter, hn⟩ := numberToken?_eq_some_iff.1 htoken
  exact .movement hletter hn

theorem written_of_immunityRule {shape : Shape} {cs : List Char}
    (h : immunityRule cs = some shape) : Written shape cs := by
  unfold immunityRule at h
  split at h
  · split at h
    · next hletter =>
      obtain rfl := Option.some.inj h
      exact .immunity hletter
    · cases h
  · cases h

theorem written_of_flagRule {shape : Shape} {cs : List Char} (h : flagRule cs = some shape) :
    Written shape cs := by
  unfold flagRule at h
  split at h
  · split at h
    · next hletter =>
      obtain rfl := Option.some.inj h
      exact .flag hletter
    · cases h
  · cases h

theorem written_of_talentPointsRule {shape : Shape} {cs : List Char}
    (h : talentPointsRule cs = some shape) : Written shape cs := by
  unfold talentPointsRule at h
  split at h
  · obtain rfl := Option.some.inj h
    exact .talentPoints
  · obtain ⟨ds, hds, rfl⟩ := Option.map_eq_some_iff.1 h
    obtain ⟨rfl, hdigits⟩ := digits?_eq_some_iff.1 hds
    exact .talentPointsNumber hdigits
  · cases h

/-- Talent points are looked for before traits. -/
theorem written_of_traitRule {shape : Shape} {cs : List Char}
    (hnone : talentPointsRule cs = none) (h : traitRule cs = some shape) : Written shape cs := by
  unfold traitRule at h
  split at h
  · next letter =>
    split at h
    · next hletter =>
      obtain rfl := Option.some.inj h
      refine .trait hletter ?_
      rintro rfl
      cases hnone
    · cases h
  · next letter payload =>
    split at h
    · next hpayload =>
      obtain rfl := Option.some.inj h
      simp only [Bool.and_eq_true, Bool.not_eq_true', List.isEmpty_eq_false_iff,
        List.contains_eq_mem, decide_eq_false_iff_not] at hpayload
      obtain ⟨⟨hletter, hne⟩, hline⟩ := hpayload
      refine .traitPayload hletter hne hline ?_
      rintro rfl hdigits
      rw [talentPointsRule, digits?_eq_some_iff.2 ⟨rfl, hdigits⟩] at hnone
      cases hnone
    · cases h
  · cases h

theorem written_of_abilityRule {shape : Shape} {cs : List Char}
    (h : abilityRule cs = some shape) : Written shape cs := by
  unfold abilityRule at h
  split at h
  · simp only [Option.bind_eq_bind, Option.bind_eq_some_iff, Option.some.injEq] at h
    obtain ⟨kind, hkind, daily, hdaily, magical, hmagical, energy, henergy, rfl⟩ := h
    obtain ⟨rfl, hdigits⟩ := digits?_eq_some_iff.1 henergy
    exact .ability hkind hdaily hmagical hdigits
  · cases h

theorem Shape.ofToken?_eq_some_iff {shape : Shape} {cs : List Char} :
    Shape.ofToken? cs = some shape ↔ Written shape cs := by
  refine ⟨fun h ↦ ?_, Written.ofToken?_eq⟩
  simp only [Shape.ofToken?_eq, Option.or_eq_some_iff] at h
  rcases h with h | ⟨-, h | ⟨-, h | ⟨-, h | ⟨-, h | ⟨-, h | ⟨-, h | ⟨-, h | ⟨-, h |
    ⟨-, h | ⟨hnone, h | ⟨-, h⟩⟩⟩⟩⟩⟩⟩⟩⟩⟩⟩
  · exact written_of_basicRule h
  · exact written_of_specialRule h
  · exact written_of_specialRule h
  · exact written_of_specialRule h
  · exact written_of_mitigationRule h
  · exact written_of_autoRule h
  · exact written_of_movementRule h
  · exact written_of_immunityRule h
  · exact written_of_flagRule h
  · exact written_of_talentPointsRule h
  · exact written_of_traitRule hnone h
  · exact written_of_abilityRule h

theorem GateShape.ofToken?_eq_some_iff {shape : GateShape} {cs : List Char} :
    GateShape.ofToken? cs = some shape ↔
      cs = 'C' :: shape.letter :: '[' :: (shape.body ++ [']']) ∧ isUpper shape.letter = true ∧
        shape.body ≠ [] ∧ ']' ∉ shape.body := by
  constructor
  · intro h
    unfold GateShape.ofToken? at h
    split at h
    · next letter rest =>
      split at h
      · next body hrest =>
        split at h
        · next hbody =>
          obtain rfl := Option.some.inj h
          simp only [Bool.and_eq_true, Bool.not_eq_true', List.isEmpty_eq_false_iff,
            List.contains_eq_mem, decide_eq_false_iff_not] at hbody
          obtain ⟨⟨hletter, hne⟩, hclosing⟩ := hbody
          have hrest : rest = body.reverse ++ [']'] := by
            rw [← List.reverse_reverse rest, hrest, List.reverse_cons]
          refine ⟨by rw [hrest], hletter, ?_, ?_⟩
          · exact mt List.reverse_eq_nil_iff.1 hne
          · exact mt List.mem_reverse.1 hclosing
        · cases h
      · cases h
    · cases h
  · obtain ⟨letter, body⟩ := shape
    rintro ⟨rfl, hletter, hne, hclosing⟩
    have hreverse : (body ++ [']']).reverse = ']' :: body.reverse := by simp
    simp_all [GateShape.ofToken?]

end CharacterSheet.DataCode
