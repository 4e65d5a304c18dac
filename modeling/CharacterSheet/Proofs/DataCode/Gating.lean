import CharacterSheet.Proofs.DataCode.FailSoft
import CharacterSheet.Proofs.Pieces
import CharacterSheet.Proofs.State.Soundness

/-!
# Bonuses under a gate

A list of bonuses to basic skills and mitigations can be written as a plain code, one token for each
bonus, or as a single gate token with the bonuses between its brackets.  A plain code adds the
bonuses to the numbers of a delta, a gate token files them under its gate, and both give the same
sums.
-/

namespace CharacterSheet

/-! ## Bonuses -/

namespace EffectKind

def letters : EffectKind → Letters String
  | skill => Schema.skillLetters
  | mitigation => Schema.mitigationLetters

def head (letter : Char) : EffectKind → List Char
  | skill => ['S', 'S', letter, '=']
  | mitigation => ['M', letter, '=']

def contribution (name : String) (n : Int) : EffectKind → DataCode.Contribution
  | skill => .skill name n
  | mitigation => .mitigation name n

end EffectKind

namespace Delta

/-- The numbers that a delta adds to the targets of a kind at once. -/
def table (d : Delta) : EffectKind → Table Int
  | .skill => d.skills
  | .mitigation => d.mitigation

def direct (d : Delta) (kind : EffectKind) (name : String) : Int := (d.table kind).getD name 0

theorem direct_empty (kind : EffectKind) (name : String) : empty.direct kind name = 0 := by
  cases kind with
  | skill => exact Table.getD_ofNames _ 0 Schema.nodup_skills name
  | mitigation => exact Table.getD_ofNames _ 0 Schema.nodup_mitigations name

end Delta

namespace Gate

def letter : Gate → Char
  | noArmor => 'A'
  | lightArmor => 'B'
  | heavyArmor => 'C'
  | anyArmor => 'D'
  | anyShield => 'E'
  | lightShield => 'F'
  | heavyShield => 'G'

theorem find?_letter (gate : Gate) : letters.find? gate.letter = some gate := by
  cases gate <;> rfl

end Gate

namespace DataCode

/-- A written bonus to a target of the schema, with a number that can be converted. -/
structure Bonus where
  kind : EffectKind
  letter : Char
  name : String
  numeral : Numeral
  named : kind.letters.find? letter = some name
  written : Digits numeral.digits
  short : numeral.digits.length ≤ SourceError.digitLimit

namespace Bonus

def token (b : Bonus) : List Char := b.kind.head b.letter ++ b.numeral.text

def value (b : Bonus) : Int := b.numeral.toInt

def contribution (b : Bonus) : Contribution := b.kind.contribution b.name b.value

def effects (b : Bonus) : List GatedEffect :=
  if b.value = 0 then [] else [⟨b.kind, b.name, b.value⟩]

variable (b : Bonus)

theorem name_mem : b.name ∈ b.kind.targets := by
  have hnamed := Letters.mem_names_of_find? b.named
  obtain ⟨kind, _, _, _, _, _, _⟩ := b
  cases kind <;> exact hnamed

theorem head : Head (b.kind.head b.letter) fun n ↦ b.kind.contribution b.name n := by
  obtain ⟨kind, letter, name, _, named, _, _⟩ := b
  cases kind with
  | skill => exact .skillValue named
  | mitigation => exact .mitigation named

theorem plain : Plain b.token b.contribution := .numbered b.head b.written

theorem effectSum_effects (kind : EffectKind) (name : String) :
    effectSum kind name b.effects = if b.kind = kind ∧ b.name = name then b.value else 0 := by
  unfold effects
  split
  · next hzero => simp [effectSum, hzero]
  · simp [effectSum]

theorem readSimple_token : readSimple b.token = .done b.contribution := by
  obtain ⟨shape, hwritten, hmeaning⟩ := b.head.exists_written b.written
  rw [Numeral.value_eq, if_neg (Nat.not_lt.2 b.short)] at hmeaning
  rw [token, readSimple_of_written hwritten, hmeaning]
  rfl

theorem readToken_token : readToken b.token = .done b.contribution := by
  unfold readToken
  split
  · next hshape => exact absurd b.plain (not_plain_of_gateShape hshape b.contribution)
  · exact b.readSimple_token

theorem readPiece_token (gate : Gate) : readPiece gate b.token = .done b.effects := by
  rw [readPiece, readSimple_token, Reading.done_andThen, contribution, effects]
  cases b.kind <;> rfl

/-! ## The characters of tokens -/

/-- The characters that tokens of bonuses consist of. -/
def IsMark (c : Char) : Prop := isCodeLetter c = true ∨ c = '=' ∨ c = '-'

instance (c : Char) : Decidable (IsMark c) := inferInstanceAs (Decidable (_ ∨ _))

theorem isCodeLetter_letter : isCodeLetter b.letter = true := by
  have hall : ∀ e ∈ b.kind.letters, isCodeLetter e.1 = true := by cases b.kind <;> decide
  exact Letters.forall_of_find? (isCodeLetter · = true) hall b.named

theorem isMark_of_digits {ds : List Char} (h : Digits ds) : ∀ c ∈ ds, IsMark c := by
  intro c hc
  have hletter : isCodeLetter c = true := by simp [isCodeLetter, h.2 c hc]
  exact .inl hletter

theorem isMark_of_mem_text {n : Numeral} (h : Digits n.digits) : ∀ c ∈ n.text, IsMark c := by
  intro c hc
  unfold Numeral.text at hc
  split at hc
  · rcases List.mem_cons.1 hc with rfl | hc
    · exact .inr (.inr rfl)
    · exact isMark_of_digits h c hc
  · exact isMark_of_digits h c hc

theorem isMark_of_mem_token {c : Char} (h : c ∈ b.token) : IsMark c := by
  have hhead : ∀ c ∈ b.kind.head b.letter, IsMark c := by
    have hmarks : IsMark 'S' ∧ IsMark 'M' ∧ IsMark '=' := by decide
    have hletter : IsMark b.letter := .inl b.isCodeLetter_letter
    cases b.kind <;> simp [EffectKind.head, hmarks, hletter]
  rcases List.mem_append.1 h with hc | hc
  · exact hhead c hc
  · exact isMark_of_mem_text b.written c hc

theorem IsMark.isBlank_eq {c : Char} (h : IsMark c) : Text.isBlank c = false := by
  have hbounds : 0x20 < c.toNat ∧ c.toNat < 0x7f := by
    rcases h with h | rfl | rfl
    · simp only [isCodeLetter, isUpper, Integer.isDigit, Bool.or_eq_true, Bool.and_eq_true,
        decide_eq_true_eq, Char.le_def, UInt32.le_iff_toNat_le] at h
      have hn : c.val.toNat = c.toNat := rfl
      simp only [hn] at h
      have hA : 'A'.val.toNat = 65 := rfl
      have hZ : 'Z'.val.toNat = 90 := rfl
      have h0 : '0'.val.toNat = 48 := rfl
      have h9 : '9'.val.toNat = 57 := rfl
      omega
    · decide
    · decide
  exact Text.isBlank_of_glyph hbounds.1 hbounds.2

theorem token_ne_nil : b.token ≠ [] := by
  unfold token
  cases b.kind <;> simp [EffectKind.head]

theorem not_mem_token {sep : Char} (h : ¬ IsMark sep) : sep ∉ b.token :=
  fun hmem ↦ h (b.isMark_of_mem_token hmem)

theorem isPiece_token {sep : Char} (h : ¬ IsMark sep) : Text.IsPiece sep b.token :=
  Text.isPiece_of_not_blank b.token_ne_nil (b.not_mem_token h)
    fun _ hc ↦ (b.isMark_of_mem_token hc).isBlank_eq

end Bonus

/-! ## Two ways to write bonuses -/

def plainCode (bs : List Bonus) : String :=
  String.ofList ([':'].intercalate (bs.map Bonus.token))

/-- What stands between the brackets of the gate token. -/
def gateBody (bs : List Bonus) : List Char := [','].intercalate (bs.map Bonus.token)

def gateToken (gate : Gate) (bs : List Bonus) : List Char :=
  'C' :: gate.letter :: '[' :: (gateBody bs ++ [']'])

def gatedCode (gate : Gate) (bs : List Bonus) : String := String.ofList (gateToken gate bs)

def gatedBonuses (bs : List Bonus) : List GatedEffect := bs.flatMap Bonus.effects

end DataCode

open DataCode in
def Delta.addBonuses (d : Delta) (bs : List Bonus) : Delta :=
  bs.foldl (fun d b ↦ d.add b.contribution) d

namespace DataCode

open Bonus (IsMark)

variable {bs : List Bonus}

theorem pieces_intercalate_tokens (bs : List Bonus) {sep : Char} (hsep : ¬ IsMark sep) :
    Text.pieces sep ([sep].intercalate (bs.map Bonus.token)) = bs.map Bonus.token := by
  apply Text.pieces_intercalate
  intro t ht
  obtain ⟨b, -, rfl⟩ := List.mem_map.1 ht
  exact b.isPiece_token hsep

theorem readTokens_tokens (d : Delta) (bs : List Bonus) :
    readTokens d (bs.map Bonus.token) = .done (d.addBonuses bs) := by
  induction bs generalizing d with
  | nil => rfl
  | cons b bs ih =>
    rw [List.map_cons, readTokens, b.readToken_token, Reading.done_andThen, ih]
    rfl

theorem read_plainCode (bs : List Bonus) :
    read (plainCode bs) = .done (Delta.empty.addBonuses bs) := by
  have htokens : tokens (plainCode bs).toList = bs.map Bonus.token := by
    rw [plainCode, String.toList_ofList]
    exact pieces_intercalate_tokens bs (by decide)
  rw [read, htokens, readTokens_tokens]

theorem readPieces_tokens (gate : Gate) (bs : List Bonus) :
    readPieces gate (bs.map Bonus.token) = .done (gatedBonuses bs) := by
  induction bs with
  | nil => rfl
  | cons b bs ih =>
    rw [List.map_cons, readPieces, b.readPiece_token, Reading.done_andThen, ih]
    rfl

theorem mem_gateToken {gate : Gate} {c : Char} (h : c ∈ gateToken gate bs) :
    IsMark c ∨ c = '[' ∨ c = ',' ∨ c = ']' := by
  have hC : IsMark 'C' := by decide
  have hletter : IsMark gate.letter := by cases gate <;> decide
  simp only [gateToken, List.mem_cons, List.mem_append, List.not_mem_nil, or_false] at h
  rcases h with rfl | rfl | rfl | h | rfl
  · exact .inl hC
  · exact .inl hletter
  · simp
  · rcases Text.mem_intercalate h with rfl | ⟨t, ht, hc⟩
    · simp
    · obtain ⟨b, -, rfl⟩ := List.mem_map.1 ht
      exact .inl (b.isMark_of_mem_token hc)
  · simp

theorem tokens_gatedCode (gate : Gate) (bs : List Bonus) :
    tokens (gatedCode gate bs).toList = [gateToken gate bs] := by
  rw [gatedCode, String.toList_ofList]
  refine (Text.isPiece_of_not_blank (List.cons_ne_nil _ _) ?_ ?_).pieces_eq
  · intro h
    rcases mem_gateToken h with h | h | h | h
    · exact absurd h (by decide)
    all_goals cases h
  · intro c hc
    rcases mem_gateToken hc with h | rfl | rfl | rfl
    · exact h.isBlank_eq
    all_goals decide

theorem gated_gateToken (gate : Gate) (hne : bs ≠ []) :
    Gated (gateToken gate bs) gate (gateBody bs) := by
  refine .mk gate.find?_letter ?_ ?_
  · intro hnil
    have hpieces : Text.pieces ',' (gateBody bs) = bs.map Bonus.token :=
      pieces_intercalate_tokens bs (by decide)
    rw [hnil] at hpieces
    exact hne (List.map_eq_nil_iff.1 hpieces.symm)
  · intro hclosing
    rcases Text.mem_intercalate hclosing with h | ⟨t, ht, h⟩
    · cases h
    · obtain ⟨b, -, rfl⟩ := List.mem_map.1 ht
      exact b.not_mem_token (by decide) h

theorem read_gatedCode (gate : Gate) (hne : bs ≠ []) :
    read (gatedCode gate bs) = .done (Delta.empty.add (.gated gate (gatedBonuses bs))) := by
  obtain ⟨letter, hshape, hgate⟩ := (gated_gateToken gate hne).gateShape
  have hpieces : Text.pieces ',' (gateBody bs) = bs.map Bonus.token :=
    pieces_intercalate_tokens bs (by decide)
  have htoken : readToken (gateToken gate bs) = .done (.gated gate (gatedBonuses bs)) := by
    simp only [readToken, hshape, readGate, hgate, hpieces, readPieces_tokens]
    rfl
  rw [read, tokens_gatedCode, readTokens, htoken, Reading.done_andThen, readTokens]

end DataCode

/-! ## What the bonuses come to -/

theorem Gate.name_injective : Function.Injective Gate.name := by
  intro g g' h
  cases g <;> cases g' <;> first | rfl | exact absurd h (by decide)

namespace Delta

/-- The sum of the effects on a target that a delta files under some gates. -/
def gatedSum (d : Delta) (kind : EffectKind) (name : String) : List Gate → Int
  | [] => 0
  | g :: gates => effectSum kind name (d.gated.getD g.name []) + d.gatedSum kind name gates

theorem gatedSum_of_not_files {d : Delta} (h : d.files = false) (kind : EffectKind) (name : String)
    (gates : List Gate) : d.gatedSum kind name gates = 0 := by
  induction gates with
  | nil => rfl
  | cons g gates ih =>
    rw [gatedSum, ih, gated_of_not_files h]
    rfl

/-- What a delta that files under one gate only adds to a target while some gates are satisfied. -/
theorem gatedSum_add_gated (gate : Gate) (es : List GatedEffect) (kind : EffectKind)
    (name : String) {gates : List Gate} (hgates : gates.Nodup) :
    (empty.add (.gated gate es)).gatedSum kind name gates =
      if gate ∈ gates then effectSum kind name es else 0 := by
  have hgate (g : Gate) : (empty.add (.gated gate es)).gated.getD g.name [] =
      if g = gate then es else [] := by
    show (empty.gated.update gate.name [] (· ++ es)).getD g.name [] = _
    rw [Table.getD, Table.get?_update, gated_empty]
    by_cases h : g = gate
    · simp [h]
    · rw [if_neg (fun hname ↦ h (Gate.name_injective hname)), if_neg h]
      exact gated_empty g.name
  induction gates with
  | nil => rfl
  | cons g gates ih =>
    obtain ⟨hg, hgates⟩ := List.nodup_cons.1 hgates
    rw [gatedSum, hgate, ih hgates]
    by_cases h : g = gate
    · subst h
      simp [hg]
    · have h' : ¬ gate = g := fun hg ↦ h hg.symm
      simp [h, h', effectSum]

/-- A delta without what it gives to basic skills and mitigations and without its gated effects. -/
def withoutTargets (d : Delta) : Delta :=
  { d with skills := .empty, mitigation := .empty, gated := .empty }

/-- Two deltas that come to the same while the given gates are satisfied, at once or under a gate.
The second one files nothing unless the first one does. -/
structure Exchangeable (gates : List Gate) (d d' : Delta) : Prop where
  rest : d.withoutTargets = d'.withoutTargets
  sum : ∀ kind name, d.direct kind name + d.gatedSum kind name gates =
    d'.direct kind name + d'.gatedSum kind name gates
  direct : ∀ kind name, name ∉ kind.targets → d.direct kind name = d'.direct kind name
  files : d'.files = true → d.files = true

theorem Exchangeable.refl (gates : List Gate) (d : Delta) : Exchangeable gates d d :=
  ⟨rfl, fun _ _ ↦ rfl, fun _ _ _ ↦ rfl, id⟩

open DataCode (Bonus gatedBonuses)

variable (d : Delta) (b : Bonus)

theorem direct_add_bonus (kind : EffectKind) (name : String) :
    (d.add b.contribution).direct kind name =
      d.direct kind name + effectSum kind name b.effects := by
  rw [b.effectSum_effects]
  obtain ⟨kind', _, name', _, _, _, _⟩ := b
  by_cases hname : name = name'
  · subst hname
    cases kind <;> cases kind' <;>
      simp [Bonus.contribution, EffectKind.contribution, add, direct, table, Table.getD]
  · have hname' : ¬ name' = name := fun h ↦ hname h.symm
    cases kind <;> cases kind' <;>
      simp [Bonus.contribution, EffectKind.contribution, add, direct, table, Table.getD, hname,
        hname']

theorem withoutTargets_add_bonus :
    (d.add b.contribution).withoutTargets = d.withoutTargets := by
  rw [Bonus.contribution]
  cases b.kind <;> rfl

theorem gated_add_bonus : (d.add b.contribution).gated = d.gated := by
  rw [Bonus.contribution]
  cases b.kind <;> rfl

variable (bs : List Bonus)

theorem direct_addBonuses (kind : EffectKind) (name : String) :
    (d.addBonuses bs).direct kind name =
      d.direct kind name + effectSum kind name (gatedBonuses bs) := by
  induction bs generalizing d with
  | nil => exact (Int.add_zero _).symm
  | cons b bs ih =>
    have hcons : gatedBonuses (b :: bs) = b.effects ++ gatedBonuses bs := List.flatMap_cons
    rw [addBonuses, List.foldl_cons, ← addBonuses, ih, direct_add_bonus, hcons, effectSum_append,
      Int.add_assoc]

theorem withoutTargets_addBonuses :
    (d.addBonuses bs).withoutTargets = d.withoutTargets := by
  induction bs generalizing d with
  | nil => rfl
  | cons b bs ih => exact (ih (d.add b.contribution)).trans (withoutTargets_add_bonus d b)

theorem gated_addBonuses : (d.addBonuses bs).gated = d.gated := by
  induction bs generalizing d with
  | nil => rfl
  | cons b bs ih => exact (ih (d.add b.contribution)).trans (gated_add_bonus d b)

/-- Filed under a gate, bonuses come to the same as added at once if the gate is among the given
ones, and to nothing if it is not. -/
theorem exchangeable_gated (gate : Gate) {gates : List Gate} (hgates : gates.Nodup) :
    Exchangeable gates (empty.add (.gated gate (gatedBonuses bs)))
      (if gate ∈ gates then empty.addBonuses bs else .empty) := by
  have hgated (kind : EffectKind) (name : String) :
      (empty.add (.gated gate (gatedBonuses bs))).direct kind name = 0 := by
    rw [← direct_empty kind name]
    cases kind <;> rfl
  have hregular : ∀ e ∈ gatedBonuses bs, e.subtype ∈ e.kind.targets := by
    intro e he
    obtain ⟨b, -, he⟩ := List.mem_flatMap.1 he
    unfold Bonus.effects at he
    split at he
    · cases he
    · rw [List.mem_singleton.1 he]
      exact b.name_mem
  by_cases h : gate ∈ gates
  · have hfiles : (empty.addBonuses bs).files = false := by
      rw [files, gated_addBonuses]
      rfl
    rw [if_pos h]
    refine ⟨(withoutTargets_addBonuses empty bs).symm, fun kind name ↦ ?_, fun kind name hname ↦ ?_,
      fun hfiled ↦ ?_⟩
    · rw [hgated, gatedSum_add_gated gate _ kind name hgates, if_pos h, direct_addBonuses,
        direct_empty, gatedSum_of_not_files hfiles]
      omega
    · rw [hgated, direct_addBonuses, direct_empty, effectSum_eq_zero hregular hname]
      rfl
    · rw [hfiles] at hfiled
      cases hfiled
  · rw [if_neg h]
    refine ⟨rfl, fun kind name ↦ ?_, fun kind name _ ↦ ?_, fun hfiled ↦ by cases hfiled⟩
    · rw [hgated, gatedSum_add_gated gate _ kind name hgates, if_neg h, direct_empty,
        gatedSum_of_not_files rfl]
    · rw [hgated, direct_empty]

end Delta

namespace DataCode

/-- What a gate token is read into can be exchanged for what the bonuses between its brackets are
read into, or for nothing, as the gate is satisfied or not. -/
theorem exists_exchangeable (gate : Gate) {bs : List Bonus} (hne : bs ≠ []) {gates : List Gate}
    (hgates : gates.Nodup) :
    ∃ d d', (read (gatedCode gate bs)).result = .ok d ∧
      (read (if gate ∈ gates then plainCode bs else "")).result = .ok d' ∧
        Delta.Exchangeable gates d d' := by
  refine ⟨_, _, by rw [read_gatedCode gate hne]; rfl, ?_,
    Delta.exchangeable_gated bs gate hgates⟩
  by_cases h : gate ∈ gates
  · rw [if_pos h, if_pos h, read_plainCode]
    rfl
  · rw [if_neg h, if_neg h]
    rfl

end DataCode

end CharacterSheet
