import CharacterSheet.Proofs.DataCode.Gating

/-!
# Gate tokens do not nest

The comma pieces of a gate token are read as tokens are, so reading might call itself over and over.
It does not: the body of a gate token has no closing bracket, and a gate token ends with one.  A
piece with a bracket in it is therefore outside the grammar or a trait, and neither can be gated.
-/

namespace CharacterSheet.DataCode

open Bonus (IsMark)

variable {token body p : List Char} {ps ts : List (List Char)} {gate : Gate} {c : Contribution}

/-! ## Calls inside calls -/

/-- Reads comma pieces with a reader for tokens that may give up. -/
def piecesWithin (reader : List Char → Option (Reading Contribution)) (gate : Gate) :
    List (List Char) → Option (Reading (List GatedEffect))
  | [] => some (.done [])
  | p :: ps => do
    let r ← reader p
    let rest ← piecesWithin reader gate ps
    return (r.andThen (gatedEffects gate p)).andThen fun es ↦ rest.map (es ++ ·)

/-- Reads a token with so many calls, one inside the other, and gives up when they are used up.
Each piece of a gate token takes a call of its own. -/
def readWithin : Nat → List Char → Option (Reading Contribution)
  | 0, _ => none
  | calls + 1, token =>
    match GateShape.ofToken? token with
    | none => some (readSimple token)
    | some shape =>
      match Gate.letters.find? shape.letter with
      | none => some (complain token (.unknownGate shape.letter))
      | some gate =>
        (piecesWithin (readWithin calls) gate (Text.pieces ',' shape.body)).map
          (Reading.map (.gated gate))

theorem gateShape_of_not_mem (h : ']' ∉ token) : GateShape.ofToken? token = none := by
  cases hshape : GateShape.ofToken? token with
  | none => rfl
  | some shape =>
    obtain ⟨rfl, -⟩ := GateShape.ofToken?_eq_some_iff.1 hshape
    exact absurd (by simp) h

/-- Nothing that is cut out of the body of a gate token is a gate token. -/
theorem gateShape_of_sublist {shape : GateShape} (h : GateShape.ofToken? token = some shape)
    (hp : p.Sublist shape.body) : GateShape.ofToken? p = none := by
  obtain ⟨-, -, -, hclosing⟩ := GateShape.ofToken?_eq_some_iff.1 h
  apply gateShape_of_not_mem
  intro hmem
  exact hclosing (hp.subset hmem)

theorem readWithin_of_gateShape (h : GateShape.ofToken? token = none) (calls : Nat) :
    readWithin (calls + 1) token = some (readSimple token) := by
  rw [readWithin, h]

theorem piecesWithin_eq {reader : List Char → Option (Reading Contribution)} (gate : Gate)
    (h : ∀ p ∈ ps, reader p = some (readSimple p)) :
    piecesWithin reader gate ps = some (readPieces gate ps) := by
  induction ps with
  | nil => rfl
  | cons p ps ih =>
    have hrest := ih fun q hq ↦ h q (List.mem_cons_of_mem p hq)
    rw [piecesWithin, h p List.mem_cons_self, hrest]
    rfl

/-- One call for the token and one inside it are enough. -/
theorem readWithin_eq (calls : Nat) (token : List Char) :
    readWithin (calls + 2) token = some (readToken token) := by
  rw [readWithin, readToken]
  cases hshape : GateShape.ofToken? token with
  | none => rfl
  | some shape =>
    have hpieces (gate : Gate) : piecesWithin (readWithin (calls + 1)) gate
        (Text.pieces ',' shape.body) = some (readPieces gate (Text.pieces ',' shape.body)) := by
      apply piecesWithin_eq
      intro p hp
      apply readWithin_of_gateShape
      exact gateShape_of_sublist hshape (Text.sublist_of_mem_pieces hp)
    simp only [readGate, hpieces]
    cases Gate.letters.find? shape.letter <;> rfl

/-! ## Brackets -/

def Bracketed (cs : List Char) : Prop := '[' ∈ cs ∨ ']' ∈ cs

instance (cs : List Char) : Decidable (Bracketed cs) := inferInstanceAs (Decidable (_ ∨ _))

theorem Bracketed.exists_not_isMark (h : Bracketed p) : ∃ x ∈ p, ¬ IsMark x := by
  rcases h with h | h
  · exact ⟨'[', h, by decide⟩
  · exact ⟨']', h, by decide⟩

/-- Heads of numbers consist of marks. -/
theorem Head.isMark {head : List Char} {f : Int → Contribution} (h : Head head f) :
    ∀ x ∈ head, IsMark x := by
  have hmarks : IsMark 'S' ∧ IsMark 'T' ∧ IsMark 'M' ∧ IsMark 'A' ∧ IsMark 'K' ∧ IsMark '=' := by
    decide
  have hbranch (branch : Branch) : IsMark (branchHead branch) := by cases branch <;> decide
  cases h with
  | attributeValue hname =>
    have hletter := Letters.forall_of_find? IsMark (by decide) hname
    simp [hmarks, hletter]
  | skillValue hname =>
    have hletter := Letters.forall_of_find? IsMark (by decide) hname
    simp [hmarks, hletter]
  | specialValue hname =>
    have hletter : IsMark _ := .inl (isCodeLetter_of_branch hname)
    simp [hmarks, hbranch, hletter]
  | specialTalent hname =>
    have hletter : IsMark _ := .inl (isCodeLetter_of_branch hname)
    simp [hmarks, hbranch, hletter]
  | mitigation hname =>
    have hletter := Letters.forall_of_find? IsMark (by decide) hname
    simp [hmarks, hletter]
  | resource hname =>
    have hletter := Letters.forall_of_find? IsMark (by decide) hname
    simp [hmarks, hletter]
  | weaponRange hname =>
    have hletter := Letters.forall_of_find? IsMark (by decide) hname
    simp [hmarks, hletter]
  | movement hname =>
    have hletter := Letters.forall_of_find? IsMark (by decide) hname
    simp [hmarks, hletter]

theorem isMark_append_text {head : List Char} {n : Numeral} (hhead : ∀ x ∈ head, IsMark x)
    (h : Digits n.digits) : ∀ x ∈ head ++ n.text, IsMark x := by
  intro x hx
  rcases List.mem_append.1 hx with hx | hx
  · exact hhead x hx
  · exact Bonus.isMark_of_mem_text h x hx

theorem isMark_ability {k d m : Char} {kind : AbilityKind} {daily magical : Bool} {ds : List Char}
    (hkind : abilityKind? k = some kind) (hdaily : dailyMark? d = some daily)
    (hmagical : magicalMark? m = some magical) (h : Digits ds) :
    ∀ x ∈ k :: d :: m :: 'E' :: '=' :: ds, IsMark x := by
  have hmarks : IsMark 'E' ∧ IsMark '=' := by decide
  have hk : IsMark k := by
    unfold abilityKind? at hkind
    split at hkind <;> first | decide | cases hkind
  have hd : IsMark d := by
    unfold dailyMark? at hdaily
    split at hdaily <;> first | decide | cases hdaily
  have hm : IsMark m := by
    unfold magicalMark? at hmagical
    split at hmagical <;> first | decide | cases hmagical
  have hdigits := Bonus.isMark_of_digits h
  simpa [hmarks, hk, hd, hm] using hdigits

theorem Converts.isMark {ds : List Char} (h : Converts token ds) : ∀ x ∈ token, IsMark x := by
  cases h with
  | numbered hhead hdigits => exact isMark_append_text hhead.isMark hdigits
  | @auto letter n hletter hdigits =>
    have hmarks : IsMark 'A' ∧ IsMark '=' := by decide
    have hhead : ∀ x ∈ ['A', letter, '='], IsMark x := by
      have hletter : IsMark letter := .inl hletter
      simp [hmarks, hletter]
    exact isMark_append_text hhead hdigits
  | ability hkind hdaily hmagical hdigits => exact isMark_ability hkind hdaily hmagical hdigits

/-- A token of the grammar with anything but marks in it is a trait with a payload. -/
theorem Plain.isMark_or_trait (h : Plain token c) : (∀ x ∈ token, IsMark x) ∨
    ∃ letter payload t, token = 'T' :: letter :: '=' :: payload ∧ c = .trait t := by
  have hmarks : IsMark 'S' ∧ IsMark 'A' ∧ IsMark 'Z' ∧ IsMark 'I' ∧ IsMark 'F' ∧ IsMark 'T' ∧
      IsMark 'P' ∧ IsMark 'X' ∧ IsMark 'Y' ∧ IsMark '1' ∧ IsMark '=' := by
    decide
  have hsymbol {symbol : Char} {steps : Int} (h : tierSteps.find? symbol = some steps) :
      IsMark symbol := by
    rcases tierSteps_eq h with ⟨rfl, -⟩ | ⟨rfl, -⟩ <;> decide
  have hbranch (branch : Branch) : IsMark (branchHead branch) := by cases branch <;> decide
  cases h with
  | numbered hhead hdigits => exact .inl (isMark_append_text hhead.isMark hdigits)
  | step hname hsteps =>
    have hletter := Letters.forall_of_find? IsMark (by decide) hname
    exact .inl (by simp [hmarks, hletter, hsymbol hsteps])
  | specialStep hname hsteps =>
    have hletter : IsMark _ := .inl (isCodeLetter_of_branch hname)
    exact .inl (by simp [hmarks, hbranch, hletter, hsymbol hsteps])
  | dualWield hdigits htier =>
    have hhead : ∀ x ∈ ['A', 'Z', '='], IsMark x := by simp [hmarks]
    exact .inl (isMark_append_text hhead hdigits)
  | immunity hname =>
    have hletter := Letters.forall_of_find? IsMark (by decide) hname
    exact .inl (by simp [hmarks, hletter])
  | flag hname =>
    have hletter := Letters.forall_of_find? IsMark (by decide) hname
    exact .inl (by simp [hmarks, hletter])
  | talentPoints => exact .inl (by simp [hmarks])
  | talentPointsNumber hdigits =>
    exact .inl (by simpa [hmarks] using Bonus.isMark_of_digits hdigits)
  | trait hkind =>
    have hletter := Letters.forall_of_find? IsMark (by decide) hkind
    exact .inl (by simp [hmarks, hletter])
  | traitPayload hkind hpayload hline => exact .inr ⟨_, _, _, rfl, rfl⟩
  | ability hkind hdaily hmagical hdigits =>
    exact .inl (isMark_ability hkind hdaily hmagical hdigits)

/-- A token with a bracket in it is reported or is a trait; it never stops the reading. -/
theorem readSimple_of_bracketed (h : Bracketed token) :
    (∃ f, readSimple token = complain token f) ∨
      ∃ letter payload t, token = 'T' :: letter :: '=' :: payload ∧
        readSimple token = .done (.trait t) := by
  obtain ⟨x, hx, hmark⟩ := h.exists_not_isMark
  have hending := ending_readSimple token
  generalize readSimple token = r at hending ⊢
  cases hending with
  | accepted hplain =>
    rcases hplain.isMark_or_trait with hmarks | ⟨letter, payload, t, htoken, rfl⟩
    · exact absurd (hmarks x hx) hmark
    · exact .inr ⟨letter, payload, t, htoken, rfl⟩
  | reported f hnone => exact .inl ⟨f, rfl⟩
  | stopped hconverts hlong => exact absurd (hconverts.isMark x hx) hmark

theorem isEmpty_of_traits {d : Delta} (h : d.traits ≠ []) : d.isEmpty = false := by
  refine Bool.eq_false_iff.2 fun hempty ↦ h ?_
  simp only [Delta.isEmpty, Delta.same, Bool.and_eq_true, beq_iff_eq] at hempty
  exact hempty.1.1.2

/-- Of what is no bonus, only nothing at all can be gated. -/
theorem gatedEffects_eq (gate : Gate) (p : List Char) (hskill : ∀ name n, c ≠ .skill name n)
    (hmitigation : ∀ name n, c ≠ .mitigation name n) : gatedEffects gate p c =
      if (Delta.empty.add c).isEmpty then .done []
      else ⟨[⟨String.ofList p, .notGatable gate⟩], .ok []⟩ := by
  unfold gatedEffects
  split
  · exact absurd rfl (hskill _ _)
  · exact absurd rfl (hmitigation _ _)
  · rfl

theorem complain_andThen {α : Type} (token : List Char) (f : Fault)
    (g : Contribution → Reading α) : (complain token f).andThen g =
      ⟨⟨String.ofList token, f⟩ :: (g .nothing).complaints, (g .nothing).result⟩ := rfl

/-- A comma piece with a bracket in it files nothing and is reported. -/
theorem readPiece_of_bracketed (gate : Gate) (h : Bracketed p) :
    ∃ f, readPiece gate p = ⟨[⟨String.ofList p, f⟩], .ok []⟩ := by
  rcases readSimple_of_bracketed h with ⟨f, hread⟩ | ⟨-, -, t, -, hread⟩
  · have hempty : (Delta.empty.add .nothing).isEmpty = true :=
      Delta.normal_empty.isEmpty_iff.2 rfl
    have hnothing : gatedEffects gate p .nothing = .done [] := by
      rw [gatedEffects_eq gate p (by simp) (by simp), if_pos hempty]
    refine ⟨f, ?_⟩
    rw [readPiece, hread, complain_andThen, hnothing]
    rfl
  · have htraits : (Delta.empty.add (.trait t)).traits = [t] := rfl
    have hkept : (Delta.empty.add (.trait t)).isEmpty = false :=
      isEmpty_of_traits (htraits ▸ List.cons_ne_nil t [])
    refine ⟨.notGatable gate, ?_⟩
    rw [readPiece, hread, Reading.done_andThen, gatedEffects_eq gate p (by simp) (by simp), hkept]
    rfl

theorem Gated.readToken_eq (h : Gated token gate body) :
    readToken token = (readPieces gate (Text.pieces ',' body)).map (.gated gate) := by
  obtain ⟨letter, hshape, hgate⟩ := h.gateShape
  simp only [readToken, hshape, readGate, hgate]

/-- A token with a bracket in it is reported, or is a trait, or is a gate token whose pieces with a
bracket are reported and file nothing. -/
theorem readToken_of_bracketed (h : Bracketed token) :
    (∃ f, readToken token = complain token f) ∨
      (∃ letter payload t, token = 'T' :: letter :: '=' :: payload ∧
        readToken token = .done (.trait t)) ∨
      ∃ gate body, Gated token gate body ∧ ∀ p ∈ Text.pieces ',' body, Bracketed p →
        ∃ f, readPiece gate p = ⟨[⟨String.ofList p, f⟩], .ok []⟩ := by
  cases hshape : GateShape.ofToken? token with
  | none =>
    have hsimple : readToken token = readSimple token := by rw [readToken, hshape]
    rw [hsimple]
    rcases readSimple_of_bracketed h with hreported | htrait
    · exact .inl hreported
    · exact .inr (.inl htrait)
  | some shape =>
    cases hgate : Gate.letters.find? shape.letter with
    | none =>
      refine .inl ⟨.unknownGate shape.letter, ?_⟩
      simp only [readToken, hshape, readGate, hgate]
    | some gate =>
      obtain ⟨rfl, -, hbody, hclosing⟩ := GateShape.ofToken?_eq_some_iff.1 hshape
      refine .inr (.inr ⟨gate, shape.body, .mk hgate hbody hclosing, ?_⟩)
      intro p _ hp
      exact readPiece_of_bracketed gate hp

/-! ## Reports -/

/-- A text is among those that a reading reports. -/
def Reading.Reports {α : Type} (r : Reading α) (source : Option String) (cs : List Char) : Prop :=
  ∃ message, ⟨.unrecognizedToken, message, some (String.ofList cs), source⟩ ∈ r.diagnostics source

namespace Reading

variable {α β : Type} {r : Reading α} {source : Option String} {cs : List Char}

theorem reports_of_mem {f : Fault} (h : ⟨String.ofList cs, f⟩ ∈ r.complaints) :
    r.Reports source cs :=
  ⟨f.message, List.mem_map.2 ⟨_, h, rfl⟩⟩

theorem Reports.map (h : r.Reports source cs) (f : α → β) : (r.map f).Reports source cs := h

theorem reports_andThen {f : α → Reading β} {a : α} (h : r.result = .ok a) :
    (r.andThen f).Reports source cs ↔ r.Reports source cs ∨ (f a).Reports source cs := by
  have hdiagnostics : (r.andThen f).diagnostics source =
      r.diagnostics source ++ (f a).diagnostics source := by
    simp only [diagnostics, andThen, h, List.map_append]
  simp only [Reports, hdiagnostics, List.mem_append, exists_or]

end Reading

/-- What is reported of one piece is reported of the gate token if its pieces can be read. -/
theorem reports_readPieces {es : List GatedEffect} {source : Option String} {cs : List Char}
    (h : (readPieces gate ps).result = .ok es) (hp : p ∈ ps)
    (hreports : (readPiece gate p).Reports source cs) :
    (readPieces gate ps).Reports source cs := by
  induction ps generalizing es with
  | nil => cases hp
  | cons q ps ih =>
    obtain ⟨fs, hfs, h⟩ := Reading.andThen_result_eq_ok_iff.1 h
    obtain ⟨gs, hgs, -⟩ := Reading.map_result_eq_ok_iff.1 h
    rw [readPieces, Reading.reports_andThen hfs]
    rcases List.mem_cons.1 hp with rfl | hp
    · exact .inl hreports
    · exact .inr ((ih hgs hp).map _)

/-- If tokens can be read, then so can each of them, and what is reported of it is reported. -/
theorem exists_readToken_of_mem {d e : Delta} (h : (readTokens d ts).result = .ok e)
    (ht : token ∈ ts) : ∃ c, (readToken token).result = .ok c ∧ ∀ source cs,
      (readToken token).Reports source cs → (readTokens d ts).Reports source cs := by
  induction ts generalizing d with
  | nil => cases ht
  | cons t ts ih =>
    obtain ⟨c, hc, h⟩ := Reading.andThen_result_eq_ok_iff.1 h
    have hreports (source : Option String) (cs : List Char) :
        (readTokens d (t :: ts)).Reports source cs ↔
          (readToken t).Reports source cs ∨ (readTokens (d.add c) ts).Reports source cs := by
      rw [readTokens, Reading.reports_andThen hc]
    rcases List.mem_cons.1 ht with rfl | ht
    · refine ⟨c, hc, ?_⟩
      intro source cs hreported
      exact (hreports source cs).2 (.inl hreported)
    · obtain ⟨c', hc', hrest⟩ := ih h ht
      refine ⟨c', hc', ?_⟩
      intro source cs hreported
      exact (hreports source cs).2 (.inr (hrest source cs hreported))

/-- Of a code that can be read, each token with a bracket in it is reported, or is a trait, or is a
gate token of which each piece with a bracket is reported. -/
theorem reports_read {code : String} {d : Delta} (hread : (read code).result = .ok d)
    (source : Option String) (htoken : token ∈ tokens code.toList) (h : Bracketed token) :
    (read code).Reports source token ∨
      (∃ letter payload, token = 'T' :: letter :: '=' :: payload) ∨
      ∃ gate body, Gated token gate body ∧ ∀ p ∈ Text.pieces ',' body, Bracketed p →
        (read code).Reports source p := by
  obtain ⟨c, hc, hreports⟩ := exists_readToken_of_mem hread htoken
  rcases readToken_of_bracketed h with ⟨f, hreported⟩ | ⟨letter, payload, -, rfl, -⟩ |
    ⟨gate, body, hgated, hpieces⟩
  · refine .inl (hreports source token ?_)
    rw [hreported]
    exact Reading.reports_of_mem List.mem_cons_self
  · exact .inr (.inl ⟨letter, payload, rfl⟩)
  · refine .inr (.inr ⟨gate, body, hgated, ?_⟩)
    intro p hp hbracket
    obtain ⟨f, hpiece⟩ := hpieces p hp hbracket
    rw [hgated.readToken_eq] at hc hreports
    obtain ⟨es, hes, -⟩ := Reading.map_result_eq_ok_iff.1 hc
    have hpieceReports : (readPiece gate p).Reports source p := by
      rw [hpiece]
      exact Reading.reports_of_mem List.mem_cons_self
    apply hreports
    exact (reports_readPieces hes hp hpieceReports).map _

/-- No comma piece of a gate token is a gate token, trimmed or not, so two calls, one inside the
other, read every token.  A piece with a bracket in it files nothing, and if the code can be read,
the piece or its token is reported. -/
theorem gates_never_nest :
    (∀ (token : List Char) (shape : GateShape), GateShape.ofToken? token = some shape →
      ∀ p : List Char, p ∈ Text.splitAt ',' shape.body ∨ p ∈ Text.pieces ',' shape.body →
        GateShape.ofToken? p = none) ∧
    (∀ (calls : Nat) (token : List Char), readWithin (calls + 2) token = some (readToken token)) ∧
    (∀ token : List Char, Bracketed token →
      (∃ f, readToken token = complain token f) ∨
        (∃ letter payload t, token = 'T' :: letter :: '=' :: payload ∧
          readToken token = .done (.trait t)) ∨
        ∃ gate body, Gated token gate body ∧ ∀ p ∈ Text.pieces ',' body, Bracketed p →
          ∃ f, readPiece gate p = ⟨[⟨String.ofList p, f⟩], .ok []⟩) ∧
    ∀ (code : String) (d : Delta) (source : Option String), (read code).result = .ok d →
      ∀ token ∈ tokens code.toList, Bracketed token →
        (read code).Reports source token ∨
          (∃ letter payload, token = 'T' :: letter :: '=' :: payload) ∨
          ∃ gate body, Gated token gate body ∧ ∀ p ∈ Text.pieces ',' body, Bracketed p →
            (read code).Reports source p := by
  refine ⟨?_, ?_, ?_, ?_⟩
  · intro token shape hshape p hp
    apply gateShape_of_sublist hshape
    rcases hp with hp | hp
    · exact Text.sublist_of_mem_splitAt hp
    · exact Text.sublist_of_mem_pieces hp
  · exact readWithin_eq
  · intro token h
    exact readToken_of_bracketed h
  · intro code d source hread token htoken h
    exact reports_read hread source htoken h

/-- Gate tokens with a gate token inside, one of them closed twice, and with half a trait. -/
def knots : String := "CA[SSA=1,CB[SSB=2]:CB[CA[SSA=1]]:CA[TG=[x]"

theorem gates_never_nest_knots :
    GateShape.ofToken? "CB[SSB=2".toList = none ∧
      (∃ f, readToken "CB[CA[SSA=1]]".toList = complain "CB[CA[SSA=1]]".toList f) ∧
      ((read knots).Reports none "CA[SSA=1,CB[SSB=2]".toList ∨
        (read knots).Reports none "CB[SSB=2".toList) := by
  have hshape : GateShape.ofToken? "CA[SSA=1,CB[SSB=2]".toList =
      some ⟨'A', "SSA=1,CB[SSB=2".toList⟩ := by decide
  have hpiece : "CB[SSB=2".toList ∈ Text.pieces ',' "SSA=1,CB[SSB=2".toList := by decide
  obtain ⟨hnever, -, htokens, hcodes⟩ := gates_never_nest
  refine ⟨hnever _ _ hshape _ (.inr hpiece), ?_, ?_⟩
  · rcases htokens "CB[CA[SSA=1]]".toList (by decide) with hreported | ⟨_, _, _, htrait, -⟩ |
      ⟨gate, body, hgated, -⟩
    · exact hreported
    · cases htrait
    · obtain ⟨letter, hgate, -⟩ := hgated.gateShape
      have hnone : GateShape.ofToken? "CB[CA[SSA=1]]".toList = none := by decide
      cases hnone.symm.trans hgate
  · have hread : (read knots).result.isOk = true := by decide
    cases hd : (read knots).result with
    | error err =>
      rw [hd] at hread
      cases hread
    | ok d =>
      have hmem : "CA[SSA=1,CB[SSB=2]".toList ∈ tokens knots.toList := by decide
      rcases hcodes knots d none hd _ hmem (by decide) with hreported | ⟨_, _, htrait⟩ |
        ⟨gate, body, hgated, hpieces⟩
      · exact .inl hreported
      · cases htrait
      · obtain ⟨letter, hgate, -⟩ := hgated.gateShape
        obtain ⟨-, rfl⟩ := GateShape.mk.inj (Option.some.inj (hshape.symm.trans hgate))
        exact .inr (hpieces _ hpiece (by decide))

end CharacterSheet.DataCode
