import CharacterSheet.DataCode
import CharacterSheet.Proofs.DataCode.Shape

/-!
# The grammar of data codes

The grammar says which tokens there are and what each of them contributes, row by row from the
letter tables of the schema and without the rules that recognise shapes.  Reading a token accepts
the tokens of the grammar with their contributions, reports every other token, and stops only at a
number that is converted and too long.
-/

namespace CharacterSheet

theorem Letters.forall_of_find? {α : Type} {letters : Letters α} (p : Char → Prop)
    (hall : ∀ e ∈ letters, p e.1) {letter : Char} {a : α} (h : letters.find? letter = some a) :
    p letter := by
  obtain ⟨before, after, rfl, -⟩ := List.lookup_eq_some_iff.1 h
  exact hall (letter, a) (by simp)

theorem Letters.mem_names_of_find? {α : Type} {letters : Letters α} {letter : Char} {a : α}
    (h : letters.find? letter = some a) : a ∈ letters.names := by
  obtain ⟨before, after, rfl, -⟩ := List.lookup_eq_some_iff.1 h
  simp [names]

namespace DataCode

/-! ## Tokens and what they contribute -/

def Numeral.toInt (n : Numeral) : Int := Integer.withSign n.negative (Integer.ofDigits n.digits)

def tierSteps : Letters Int := [('X', 1), ('Y', -1)]

/-- What stands before a number, and what the number contributes there. -/
inductive Head : List Char → (Int → Contribution) → Prop
  | attributeValue {letter : Char} {name : String} :
    Schema.attributeLetters.find? letter = some name →
      Head ['S', 'S', letter, '='] (.attribute name)
  | skillValue {letter : Char} {name : String} :
    Schema.skillLetters.find? letter = some name →
      Head ['S', 'S', letter, '='] (.skill name)
  | specialValue {branch : Branch} {letter : Char} {name : String} :
    branch.letters.find? letter = some name →
      Head [branchHead branch, 'S', letter, '='] fun n ↦ .special branch name { skill := n }
  | specialTalent {branch : Branch} {letter : Char} {name : String} :
    branch.letters.find? letter = some name →
      Head [branchHead branch, 'T', letter, '='] fun n ↦ .special branch name { talent := n }
  | mitigation {letter : Char} {name : String} :
    Schema.mitigationLetters.find? letter = some name → Head ['M', letter, '='] (.mitigation name)
  | resource {letter : Char} {name : String} :
    Schema.resourceLetters.find? letter = some name → Head ['A', letter, '='] (.resource name)
  | weaponRange {letter : Char} {name : String} :
    Schema.weaponRangeLetters.find? letter = some name →
      Head ['A', letter, '='] (.weaponRange name)
  | movement {letter : Char} {name : String} :
    Schema.movementLetters.find? letter = some name → Head ['K', letter, '='] (.movement name)

/-- The tokens and comma pieces that are no gate tokens, with what they contribute. -/
inductive Plain : List Char → Contribution → Prop
  | numbered {head : List Char} {f : Int → Contribution} {n : Numeral} :
    Head head f → Digits n.digits → Plain (head ++ n.text) (f n.toInt)
  | step {letter symbol : Char} {name : String} {steps : Int} :
    Schema.skillLetters.find? letter = some name → tierSteps.find? symbol = some steps →
      Plain ['S', 'S', letter, '=', symbol] (.tier name steps)
  | specialStep {branch : Branch} {letter symbol : Char} {name : String} {steps : Int} :
    branch.letters.find? letter = some name → tierSteps.find? symbol = some steps →
      Plain [branchHead branch, 'S', letter, '=', symbol] (.special branch name { tier := steps })
  | dualWield {n : Numeral} :
    Digits n.digits → n.toInt ∈ Schema.dualWieldTiers →
      Plain ('A' :: 'Z' :: '=' :: n.text) (.dualWield n.toInt)
  | immunity {letter : Char} {name : String} :
    Schema.immunityLetters.find? letter = some name →
      Plain ['I', letter, '=', '1'] (.immunity name)
  | flag {letter : Char} {name : String} :
    Schema.flagLetters.find? letter = some name → Plain ['F', letter] (.flag name)
  | talentPoints : Plain ['T', 'P'] .nothing
  | talentPointsNumber {ds : List Char} : Digits ds → Plain ('T' :: 'P' :: '=' :: ds) .nothing
  | trait {letter : Char} {kind : TraitKind} :
    TraitKind.letters.find? letter = some kind →
      Plain ['T', letter] (.trait ⟨kind, String.ofList ['T', letter], none⟩)
  | traitPayload {letter : Char} {kind : TraitKind} {payload : List Char} :
    TraitKind.letters.find? letter = some kind → payload ≠ [] → '\n' ∉ payload →
      Plain ('T' :: letter :: '=' :: payload)
        (.trait ⟨kind, String.ofList ['T', letter], some (String.ofList payload)⟩)
  | ability {k d m : Char} {kind : AbilityKind} {daily magical : Bool} {ds : List Char} :
    abilityKind? k = some kind → dailyMark? d = some daily → magicalMark? m = some magical →
      Digits ds → Plain (k :: d :: m :: 'E' :: '=' :: ds)
        (.ability { kind, daily, magical, energy := Integer.ofDigits ds })

/-- The gate tokens, each with its gate and the text between the brackets. -/
inductive Gated : List Char → Gate → List Char → Prop
  | mk {letter : Char} {gate : Gate} {body : List Char} :
    Gate.letters.find? letter = some gate → body ≠ [] → ']' ∉ body →
      Gated ('C' :: letter :: '[' :: (body ++ [']'])) gate body

def Accepted (token : List Char) : Prop :=
  (∃ c, Plain token c) ∨ ∃ gate body, Gated token gate body

/-- The digits that are converted when a token is read.  Behind `A` they are converted before the
letter is looked up; those of talent points never are. -/
inductive Converts : List Char → List Char → Prop
  | numbered {head : List Char} {f : Int → Contribution} {n : Numeral} :
    Head head f → Digits n.digits → Converts (head ++ n.text) n.digits
  | auto {letter : Char} {n : Numeral} :
    isCodeLetter letter = true → Digits n.digits →
      Converts ('A' :: letter :: '=' :: n.text) n.digits
  | ability {k d m : Char} {kind : AbilityKind} {daily magical : Bool} {ds : List Char} :
    abilityKind? k = some kind → dailyMark? d = some daily → magicalMark? m = some magical →
      Digits ds → Converts (k :: d :: m :: 'E' :: '=' :: ds) ds

/-! ## Letters -/

theorem isCodeLetter_of_branch {branch : Branch} {letter : Char} {name : String}
    (h : branch.letters.find? letter = some name) : isCodeLetter letter = true := by
  have hall : ∀ e ∈ branch.letters, isCodeLetter e.1 = true := by cases branch <;> decide
  exact Letters.forall_of_find? (isCodeLetter · = true) hall h

/-! ## Shapes and what they mean -/

theorem Numeral.value_eq (n : Numeral) : n.value =
    if SourceError.digitLimit < n.digits.length then
      .error (.error (.overlong n.digits.length)) else .ok n.toInt := by
  unfold value Integer.convert toInt
  split <;> rfl

theorem numeral?_text {n : Numeral} (h : Digits n.digits) : numeral? n.text = some n :=
  numeral?_eq_some_iff.2 ⟨rfl, h⟩

theorem lookUp_bind {α : Type} {letters : Letters α} {letter : Char} {a : α}
    (h : letters.find? letter = some a) (category : String)
    (f : α → Except Refusal Contribution) : lookUp letters category letter >>= f = f a := by
  rw [lookUp, h]
  rfl

/-- A letter of a basic skill is no letter of an attribute. -/
theorem basicMeaning_of_skill {letter : Char} {name : String}
    (h : Schema.skillLetters.find? letter = some name) (amount : Amount) :
    basicMeaning false letter amount = match amount with
      | .stepUp => .ok (.tier name 1)
      | .stepDown => .ok (.tier name (-1))
      | .number n => n.value.map (.skill name) := by
  have hattribute := Letters.forall_of_find? (Schema.attributeLetters.find? · = none)
    (by decide) h
  simp only [basicMeaning, hattribute]
  refine (lookUp_bind h _ _).trans ?_
  cases amount <;> rfl

theorem Head.exists_written {head : List Char} {f : Int → Contribution} (h : Head head f)
    {n : Numeral} (hn : Digits n.digits) :
    ∃ shape, Written shape (head ++ n.text) ∧ shape.meaning = n.value.map f := by
  have hamount : amount? n.text = some (.number n) := amount?_number_iff.2 (numeral?_text hn)
  cases h with
  | @attributeValue letter name hname =>
    have hletter := Letters.forall_of_find? (isCodeLetter · = true) (by decide) hname
    refine ⟨.basic false letter (.number n), .basic rfl hletter hamount, ?_⟩
    simp only [Shape.meaning, basicMeaning, hname]
    rfl
  | @skillValue letter name hname =>
    have hletter := Letters.forall_of_find? (isCodeLetter · = true) (by decide) hname
    exact ⟨.basic false letter (.number n), .basic rfl hletter hamount,
      basicMeaning_of_skill hname _⟩
  | @specialValue branch letter name hname =>
    refine ⟨.special branch false letter (.number n),
      .special rfl (isCodeLetter_of_branch hname) hamount, ?_⟩
    exact lookUp_bind hname _ _
  | @specialTalent branch letter name hname =>
    refine ⟨.special branch true letter (.number n),
      .special rfl (isCodeLetter_of_branch hname) hamount, ?_⟩
    exact lookUp_bind hname _ _
  | @mitigation letter name hname =>
    have hletter := Letters.forall_of_find? (isCodeLetter · = true) (by decide) hname
    refine ⟨.mitigation letter n, .mitigation hletter (numeral?_text hn), ?_⟩
    exact lookUp_bind hname _ _
  | @resource letter name hname =>
    have hletter := Letters.forall_of_find? (isCodeLetter · = true) (by decide) hname
    refine ⟨.auto letter n, .auto hletter (numeral?_text hn), ?_⟩
    simp only [Shape.meaning, autoMeaning, hname]
    rfl
  | @weaponRange letter name hname =>
    have hletter := Letters.forall_of_find? (isCodeLetter · = true) (by decide) hname
    have hresource := Letters.forall_of_find? (Schema.resourceLetters.find? · = none)
      (by decide) hname
    refine ⟨.auto letter n, .auto hletter (numeral?_text hn), ?_⟩
    simp only [Shape.meaning, autoMeaning, hresource, hname]
    rfl
  | @movement letter name hname =>
    have hletter := Letters.forall_of_find? (isCodeLetter · = true) (by decide) hname
    refine ⟨.movement letter n, .movement hletter (numeral?_text hn), ?_⟩
    exact lookUp_bind hname _ _

/-- What a shape means for a token that is written with it. -/
inductive Settles (token : List Char) : Except Refusal Contribution → Prop
  | accepted {c : Contribution} : Plain token c → Settles token (.ok c)
  | fault (f : Fault) : Settles token (.error (.fault f))
  | stopped {ds : List Char} :
    Converts token ds → SourceError.digitLimit < ds.length →
      Settles token (.error (.error (.overlong ds.length)))

theorem Head.settles {head : List Char} {f : Int → Contribution} (h : Head head f) {n : Numeral}
    (hn : Digits n.digits) : Settles (head ++ n.text) (n.value.map f) := by
  rw [n.value_eq]
  split
  · next hlong => exact .stopped (.numbered h hn) hlong
  · exact .accepted (.numbered h hn)

theorem tierSteps_eq {symbol : Char} {steps : Int} (h : tierSteps.find? symbol = some steps) :
    symbol = 'X' ∧ steps = 1 ∨ symbol = 'Y' ∧ steps = -1 := by
  simp only [tierSteps, Letters.find?, List.lookup_cons, List.lookup_nil] at h
  split at h
  · next hX => exact .inl ⟨by simpa using hX, (Option.some.inj h).symm⟩
  · split at h
    · next hY => exact .inr ⟨by simpa using hY, (Option.some.inj h).symm⟩
    · cases h

theorem talentMark_eq {mark : Char} {talent : Bool} (h : talentMark? mark = some talent) :
    mark = if talent then 'T' else 'S' := by
  unfold talentMark? at h
  split at h
  · obtain rfl := Option.some.inj h
    rfl
  · obtain rfl := Option.some.inj h
    rfl
  · cases h

theorem settles_lookUp {α : Type} {token : List Char} {letters : Letters α} {category : String}
    {letter : Char} {f : α → Except Refusal Contribution}
    (h : ∀ a, letters.find? letter = some a → Settles token (f a)) :
    Settles token (lookUp letters category letter >>= f) := by
  unfold lookUp
  cases hfind : letters.find? letter with
  | none => exact .fault _
  | some a => exact h a hfind

theorem settles_basic {mark letter : Char} {talent : Bool} {amount : Amount} {text : List Char}
    (hmark : talentMark? mark = some talent) (hamount : amount? text = some amount) :
    Settles ('S' :: mark :: letter :: '=' :: text) (basicMeaning talent letter amount) := by
  obtain rfl := talentMark_eq hmark
  cases talent with
  | true => exact .fault .basicTalent
  | false =>
    unfold basicMeaning
    cases hattribute : Schema.attributeLetters.find? letter with
    | some name =>
      cases amount with
      | number n =>
        obtain ⟨rfl, hdigits⟩ := numeral?_eq_some_iff.1 (amount?_number_iff.1 hamount)
        exact (Head.attributeValue hattribute).settles hdigits
      | stepUp => exact .fault .attributeTier
      | stepDown => exact .fault .attributeTier
    | none =>
      refine settles_lookUp fun name hskill ↦ ?_
      cases amount with
      | number n =>
        obtain ⟨rfl, hdigits⟩ := numeral?_eq_some_iff.1 (amount?_number_iff.1 hamount)
        exact (Head.skillValue hskill).settles hdigits
      | stepUp =>
        obtain rfl := amount?_stepUp_iff.1 hamount
        exact .accepted (.step hskill rfl)
      | stepDown =>
        obtain rfl := amount?_stepDown_iff.1 hamount
        exact .accepted (.step hskill rfl)

theorem settles_special {branch : Branch} {mark letter : Char} {talent : Bool} {amount : Amount}
    {text : List Char} (hmark : talentMark? mark = some talent)
    (hamount : amount? text = some amount) :
    Settles (branchHead branch :: mark :: letter :: '=' :: text)
      (specialMeaning branch talent letter amount) := by
  obtain rfl := talentMark_eq hmark
  refine settles_lookUp fun name hname ↦ ?_
  cases amount with
  | number n =>
    obtain ⟨rfl, hdigits⟩ := numeral?_eq_some_iff.1 (amount?_number_iff.1 hamount)
    cases talent with
    | true => exact (Head.specialTalent hname).settles hdigits
    | false => exact (Head.specialValue hname).settles hdigits
  | stepUp =>
    obtain rfl := amount?_stepUp_iff.1 hamount
    cases talent with
    | true => exact .fault .talentTier
    | false => exact .accepted (.specialStep hname rfl)
  | stepDown =>
    obtain rfl := amount?_stepDown_iff.1 hamount
    cases talent with
    | true => exact .fault .talentTier
    | false => exact .accepted (.specialStep hname rfl)

theorem settles_auto {letter : Char} {n : Numeral} (hletter : isCodeLetter letter = true)
    (hdigits : Digits n.digits) :
    Settles ('A' :: letter :: '=' :: n.text) (autoMeaning letter n) := by
  rw [autoMeaning, n.value_eq]
  split
  · next hlong => exact .stopped (.auto hletter hdigits) hlong
  · cases hresource : Schema.resourceLetters.find? letter with
    | some name => exact .accepted (.numbered (.resource hresource) hdigits)
    | none =>
      cases hrange : Schema.weaponRangeLetters.find? letter with
      | some name => exact .accepted (.numbered (.weaponRange hrange) hdigits)
      | none =>
        simp only [bind, Except.bind]
        split
        · next hZ =>
          subst hZ
          split
          · next htier => exact .accepted (.dualWield hdigits htier)
          · exact .fault _
        · exact .fault _

theorem Written.settles {shape : Shape} {token : List Char} (h : Written shape token) :
    Settles token shape.meaning := by
  cases h with
  | basic hmark hletter hamount => exact settles_basic hmark hamount
  | special hmark hletter hamount => exact settles_special hmark hamount
  | mitigation hletter hn =>
    obtain ⟨rfl, hdigits⟩ := numeral?_eq_some_iff.1 hn
    exact settles_lookUp fun name hname ↦ (Head.mitigation hname).settles hdigits
  | auto hletter hn =>
    obtain ⟨rfl, hdigits⟩ := numeral?_eq_some_iff.1 hn
    exact settles_auto hletter hdigits
  | movement hletter hn =>
    obtain ⟨rfl, hdigits⟩ := numeral?_eq_some_iff.1 hn
    exact settles_lookUp fun name hname ↦ (Head.movement hname).settles hdigits
  | immunity hletter => exact settles_lookUp fun name hname ↦ .accepted (.immunity hname)
  | flag hletter => exact settles_lookUp fun name hname ↦ .accepted (.flag hname)
  | talentPoints => exact .accepted .talentPoints
  | talentPointsNumber hdigits => exact .accepted (.talentPointsNumber hdigits)
  | trait hletter hne => exact settles_lookUp fun kind hkind ↦ .accepted (.trait hkind)
  | traitPayload hletter hpayload hline hnumber =>
    exact settles_lookUp fun kind hkind ↦ .accepted (.traitPayload hkind hpayload hline)
  | ability hkind hdaily hmagical hdigits =>
    simp only [Shape.meaning, Numeral.value_eq]
    split
    · next hlong => exact .stopped (.ability hkind hdaily hmagical hdigits) hlong
    · exact .accepted (.ability hkind hdaily hmagical hdigits)

/-- A token of the grammar is written with a shape, and only a number that is too long can keep the
shape from meaning what the grammar says. -/
theorem Plain.exists_written {token : List Char} {c : Contribution} (h : Plain token c) :
    ∃ shape, Written shape token ∧ (shape.meaning = .ok c ∨
      ∃ ds, Converts token ds ∧ SourceError.digitLimit < ds.length ∧
        shape.meaning = .error (.error (.overlong ds.length))) := by
  cases h with
  | @numbered head f n hhead hdigits =>
    obtain ⟨shape, hwritten, hmeaning⟩ := hhead.exists_written hdigits
    refine ⟨shape, hwritten, ?_⟩
    rw [hmeaning, n.value_eq]
    split
    · next hlong => exact .inr ⟨n.digits, .numbered hhead hdigits, hlong, rfl⟩
    · exact .inl rfl
  | @step letter symbol name steps hname hsteps =>
    have hletter := Letters.forall_of_find? (isCodeLetter · = true) (by decide) hname
    rcases tierSteps_eq hsteps with ⟨rfl, rfl⟩ | ⟨rfl, rfl⟩
    · exact ⟨.basic false letter .stepUp, .basic rfl hletter rfl,
        .inl (basicMeaning_of_skill hname _)⟩
    · exact ⟨.basic false letter .stepDown, .basic rfl hletter rfl,
        .inl (basicMeaning_of_skill hname _)⟩
  | @specialStep branch letter symbol name steps hname hsteps =>
    have hletter := isCodeLetter_of_branch hname
    rcases tierSteps_eq hsteps with ⟨rfl, rfl⟩ | ⟨rfl, rfl⟩
    · refine ⟨.special branch false letter .stepUp, .special rfl hletter rfl, .inl ?_⟩
      exact lookUp_bind hname _ _
    · refine ⟨.special branch false letter .stepDown, .special rfl hletter rfl, .inl ?_⟩
      exact lookUp_bind hname _ _
  | @dualWield n hdigits htier =>
    refine ⟨.auto 'Z' n, .auto rfl (numeral?_text hdigits), ?_⟩
    rw [Shape.meaning, autoMeaning, n.value_eq]
    split
    · next hlong => exact .inr ⟨n.digits, .auto rfl hdigits, hlong, rfl⟩
    · refine .inl ?_
      -- The letter is in neither table, so the value alone decides.
      have hresource : Schema.resourceLetters.find? 'Z' = none := by decide
      have hrange : Schema.weaponRangeLetters.find? 'Z' = none := by decide
      simp only [hresource, hrange, bind, Except.bind, if_true, if_pos htier]
      rfl
  | @immunity letter name hname =>
    have hletter := Letters.forall_of_find? (isUpper · = true) (by decide) hname
    refine ⟨.immunity letter, .immunity hletter, .inl ?_⟩
    exact lookUp_bind hname _ _
  | @flag letter name hname =>
    have hletter := Letters.forall_of_find? (isUpper · = true) (by decide) hname
    refine ⟨.flag letter, .flag hletter, .inl ?_⟩
    exact lookUp_bind hname _ _
  | talentPoints => exact ⟨.talentPoints, .talentPoints, .inl rfl⟩
  | talentPointsNumber hdigits =>
    exact ⟨.talentPoints, .talentPointsNumber hdigits, .inl rfl⟩
  | @trait letter kind hkind =>
    have hletter := Letters.forall_of_find? (isUpper · = true) (by decide) hkind
    have hP := Letters.forall_of_find? (· ≠ 'P') (by decide) hkind
    refine ⟨.trait letter none, .trait hletter hP, .inl ?_⟩
    exact lookUp_bind hkind _ _
  | @traitPayload letter kind payload hkind hpayload hline =>
    have hletter := Letters.forall_of_find? (isUpper · = true) (by decide) hkind
    have hP := Letters.forall_of_find? (· ≠ 'P') (by decide) hkind
    refine ⟨.trait letter (some payload),
      .traitPayload hletter hpayload hline fun h ↦ absurd h hP, .inl ?_⟩
    exact lookUp_bind hkind _ _
  | @ability k d m kind daily magical ds hkind hdaily hmagical hdigits =>
    refine ⟨.ability kind daily magical ⟨false, ds⟩, .ability hkind hdaily hmagical hdigits, ?_⟩
    rw [Shape.meaning, Numeral.value_eq]
    split
    · next hlong => exact .inr ⟨ds, .ability hkind hdaily hmagical hdigits, hlong, rfl⟩
    · exact .inl rfl

/-! ## Reading tokens and pieces -/

theorem readSimple_of_written {shape : Shape} {token : List Char} (h : Written shape token) :
    readSimple token = match shape.meaning with
      | .ok c => .done c
      | .error (.fault f) => complain token f
      | .error (.error e) => ⟨[], .error e⟩ := by
  have hshape := Shape.ofToken?_eq_some_iff.2 h
  cases hmeaning : shape.meaning with
  | ok c => simp only [readSimple, hshape, hmeaning]
  | error refusal => cases refusal <;> simp only [readSimple, hshape, hmeaning]

theorem Plain.readSimple_eq {token : List Char} {c : Contribution} (h : Plain token c) :
    readSimple token = .done c ∨ ∃ ds, Converts token ds ∧ SourceError.digitLimit < ds.length ∧
      readSimple token = ⟨[], .error (.overlong ds.length)⟩ := by
  obtain ⟨shape, hwritten, hmeaning | ⟨ds, hconverts, hlong, hmeaning⟩⟩ := h.exists_written
  · rw [readSimple_of_written hwritten, hmeaning]
    exact .inl rfl
  · rw [readSimple_of_written hwritten, hmeaning]
    exact .inr ⟨ds, hconverts, hlong, rfl⟩

/-- The three ways in which reading a token can end. -/
inductive Ending (token : List Char) : Reading Contribution → Prop
  | accepted {c : Contribution} : Plain token c → Ending token (.done c)
  | reported (f : Fault) : (∀ c, ¬ Plain token c) → Ending token (complain token f)
  | stopped {ds : List Char} :
    Converts token ds → SourceError.digitLimit < ds.length →
      Ending token ⟨[], .error (.overlong ds.length)⟩

/-- Exactly the tokens outside the grammar are reported. -/
theorem ending_readSimple (token : List Char) : Ending token (readSimple token) := by
  have houtside {f : Fault} (h : readSimple token = complain token f) (c : Contribution) :
      ¬ Plain token c := by
    intro hplain
    rcases hplain.readSimple_eq with hdone | ⟨ds, -, -, hstopped⟩
    · cases h.symm.trans hdone
    · cases h.symm.trans hstopped
  cases hshape : Shape.ofToken? token with
  | none =>
    have hread : readSimple token = complain token .noRule := by rw [readSimple, hshape]
    rw [hread]
    exact .reported .noRule (houtside hread)
  | some shape =>
    have hwritten := Shape.ofToken?_eq_some_iff.1 hshape
    have hread := readSimple_of_written hwritten
    have hsettles := hwritten.settles
    generalize shape.meaning = meaning at hread hsettles
    cases hsettles with
    | accepted hplain =>
      rw [hread]
      exact .accepted hplain
    | fault f =>
      rw [hread]
      exact .reported f (houtside hread)
    | stopped hconverts hlong =>
      rw [hread]
      exact .stopped hconverts hlong

end DataCode

end CharacterSheet
