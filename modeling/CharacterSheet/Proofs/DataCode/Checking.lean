import CharacterSheet.Proofs.DataCode.FailSoft
import CharacterSheet.Proofs.Pieces

/-!
# Checking codes

A check gives a verdict on every value but a code with a number that is converted and too long, and
there it stops at such a number.  A verdict is favourable exactly when the value is read with
nothing to report; the errors of an unfavourable one are the reports in order, or the one reason
why the value is no code.
-/

namespace CharacterSheet

/-- What a check says about a piece of a code that was reported. -/
def Diagnostic.asError (g : Diagnostic) : String :=
  "Invalid effect: " ++ g.token.getD "" ++ " (" ++ g.message ++ ")"

namespace DataCode

/-- The digits that are converted when a token is read, those of its comma pieces among them. -/
inductive Converted (token ds : List Char) : Prop
  | own : Converts token ds → Converted token ds
  | inner {gate : Gate} {body p : List Char} :
    Gated token gate body → p ∈ Text.pieces ',' body → Converts p ds → Converted token ds

/-! ## Where reading stops -/

/-- A reading stops at nothing but digits of some kind that are too many. -/
def Reading.StopsIn {α : Type} (r : Reading α) (p : List Char → Prop) : Prop :=
  ∀ e, r.result = .error e →
    ∃ ds, p ds ∧ SourceError.digitLimit < ds.length ∧ e = .overlong ds.length

namespace Reading.StopsIn

variable {α β : Type} {r : Reading α} {p q : List Char → Prop}

theorem of_ok {a : α} (h : r.result = .ok a) : r.StopsIn p := by
  intro e he
  cases h.symm.trans he

theorem mono (h : r.StopsIn p) (hpq : ∀ ds, p ds → q ds) : r.StopsIn q := by
  intro e he
  obtain ⟨ds, hds, hlong, rfl⟩ := h e he
  exact ⟨ds, hpq ds hds, hlong, rfl⟩

theorem andThen {f : α → Reading β} (hr : r.StopsIn p) (hf : ∀ a, (f a).StopsIn p) :
    (r.andThen f).StopsIn p := by
  intro e he
  unfold Reading.andThen at he
  cases hresult : r.result with
  | error e' =>
    rw [hresult] at he
    obtain rfl := Except.error.inj he
    exact hr e' hresult
  | ok a =>
    rw [hresult] at he
    exact hf a e he

theorem map (h : r.StopsIn p) (f : α → β) : (r.map f).StopsIn p := by
  intro e he
  unfold Reading.map at he
  cases hresult : r.result with
  | error e' =>
    rw [hresult] at he
    obtain rfl := Except.error.inj he
    exact h e' hresult
  | ok a =>
    rw [hresult] at he
    cases he

end Reading.StopsIn

theorem stopsIn_readSimple (token : List Char) : (readSimple token).StopsIn (Converts token) := by
  have hending := ending_readSimple token
  generalize readSimple token = r at hending ⊢
  cases hending with
  | accepted hplain => exact .of_ok rfl
  | reported f hnone => exact .of_ok rfl
  | stopped hconverts hlong =>
    intro e he
    obtain rfl := Except.error.inj he
    exact ⟨_, hconverts, hlong, rfl⟩

theorem stopsIn_gatedEffects (gate : Gate) (piece : List Char) (c : Contribution)
    (p : List Char → Prop) : (gatedEffects gate piece c).StopsIn p := by
  unfold gatedEffects
  split
  · exact .of_ok rfl
  · exact .of_ok rfl
  · split
    · exact .of_ok rfl
    · exact .of_ok rfl

theorem stopsIn_readPieces (gate : Gate) (ps : List (List Char)) :
    (readPieces gate ps).StopsIn fun ds ↦ ∃ p ∈ ps, Converts p ds := by
  induction ps with
  | nil => exact .of_ok rfl
  | cons p ps ih =>
    have hpiece : (readPiece gate p).StopsIn (Converts p) :=
      (stopsIn_readSimple p).andThen fun c ↦ stopsIn_gatedEffects gate p c _
    refine (hpiece.mono fun ds hds ↦ ⟨p, List.mem_cons_self, hds⟩).andThen fun es ↦ ?_
    refine (ih.mono ?_).map (es ++ ·)
    rintro ds ⟨q, hq, hds⟩
    exact ⟨q, List.mem_cons_of_mem p hq, hds⟩

theorem stopsIn_readToken (token : List Char) : (readToken token).StopsIn (Converted token) := by
  unfold readToken
  split
  · next shape hshape =>
    obtain ⟨rfl, hletter, hbody, hclosing⟩ := GateShape.ofToken?_eq_some_iff.1 hshape
    unfold readGate
    split
    · exact .of_ok rfl
    · next gate hgate =>
      refine ((stopsIn_readPieces gate _).mono ?_).map (Contribution.gated gate)
      rintro ds ⟨p, hp, hds⟩
      exact .inner (.mk hgate hbody hclosing) hp hds
  · exact (stopsIn_readSimple token).mono fun ds ↦ .own

theorem stopsIn_readTokens (d : Delta) (ts : List (List Char)) :
    (readTokens d ts).StopsIn fun ds ↦ ∃ t ∈ ts, Converted t ds := by
  induction ts generalizing d with
  | nil => exact .of_ok rfl
  | cons t ts ih =>
    refine ((stopsIn_readToken t).mono fun ds hds ↦ ⟨t, List.mem_cons_self, hds⟩).andThen
      fun c ↦ (ih (d.add c)).mono ?_
    rintro ds ⟨u, hu, hds⟩
    exact ⟨u, List.mem_cons_of_mem t hu, hds⟩

theorem stopsIn_read (code : String) :
    (read code).StopsIn fun ds ↦ ∃ t ∈ tokens code.toList, Converted t ds :=
  stopsIn_readTokens .empty _

/-! ## Verdicts -/

theorem check_of_ok {v : Value} {d : Delta} (h : (readValue v).result = .ok d) :
    check v = .ok ⟨(readValue v).complaints.isEmpty, (readValue v).complaints.map (·.error)⟩ := by
  simp only [check, h]

theorem readValue_of_noCode {v : Value} (hnull : v ≠ .null) (htext : ∀ code, v ≠ .text code) :
    readValue v = ⟨[], .error (.codeNotText v.kind)⟩ := by
  unfold readValue
  split
  · exact absurd rfl hnull
  · exact absurd rfl (htext _)
  · rfl

theorem check_of_noCode {v : Value} (hnull : v ≠ .null) (htext : ∀ code, v ≠ .text code) :
    check v = .ok ⟨false, [(SourceError.codeNotText v.kind).message]⟩ := by
  simp only [check, readValue_of_noCode hnull htext]

theorem check_of_error {code : String} {e : SourceError} (h : (read code).result = .error e) :
    check (.text code) = .error e := by
  obtain ⟨ds, -, -, rfl⟩ := stopsIn_read code e h
  simp only [check, readValue, h]

/-- The errors of a favourable or unfavourable verdict are what reading the value reported. -/
theorem errors_of_ok {v : Value} {verdict : Verdict} (h : check v = .ok verdict) {d : Delta}
    (hd : (readValue v).result = .ok d) :
    verdict.isValid = ((readValue v).diagnostics none).isEmpty ∧
      verdict.errors = ((readValue v).diagnostics none).map (·.asError) := by
  obtain rfl := Except.ok.inj ((check_of_ok hd).symm.trans h)
  refine ⟨by simp [Reading.diagnostics], ?_⟩
  rw [Reading.diagnostics, List.map_map]
  rfl

/-- What is read as no code is found invalid for that reason alone. -/
theorem errors_of_error {v : Value} {verdict : Verdict} (h : check v = .ok verdict)
    {e : SourceError} (he : (readValue v).result = .error e) :
    verdict = ⟨false, [e.message]⟩ := by
  have htext (code : String) : v ≠ .text code := by
    rintro rfl
    cases (check_of_error he).symm.trans h
  have hnull : v ≠ .null := by
    rintro rfl
    cases he
  have hverdict := Except.ok.inj ((check_of_noCode hnull htext).symm.trans h)
  rw [readValue_of_noCode hnull htext] at he
  rw [← hverdict, ← Except.error.inj he]

/-- A check comes back exactly when every number of the code can be converted. -/
theorem isOk_check_iff (v : Value) :
    (check v).isOk = true ↔
      ∀ code, v = .text code → ∀ t ∈ tokens code.toList, Convertible t := by
  by_cases htext : ∃ code, v = .text code
  · obtain ⟨code, rfl⟩ := htext
    have hcode : (check (.text code)).isOk = true ↔ (read code).result.isOk = true := by
      cases hresult : (read code).result with
      | ok d => simp [check_of_ok (v := .text code) hresult, Except.isOk, Except.toBool]
      | error e => simp [check_of_error hresult, Except.isOk, Except.toBool]
    rw [hcode, isOk_read_iff]
    exact ⟨fun h _ hcode' ↦ by cases hcode'; exact h, fun h ↦ h code rfl⟩
  · have htext (code : String) : v ≠ .text code := fun h ↦ htext ⟨code, h⟩
    refine ⟨fun _ code hcode ↦ absurd hcode (htext code), fun _ ↦ ?_⟩
    by_cases hnull : v = .null
    · subst hnull
      rfl
    · rw [check_of_noCode hnull htext]
      rfl

/-- A check that does not come back stops at a number of the code that is too long. -/
theorem exists_of_check_eq_error {v : Value} {e : SourceError} (h : check v = .error e) :
    ∃ code t ds, v = .text code ∧ t ∈ tokens code.toList ∧ Converted t ds ∧
      SourceError.digitLimit < ds.length ∧ e = .overlong ds.length := by
  cases hresult : (readValue v).result with
  | ok d => cases (check_of_ok hresult).symm.trans h
  | error e' =>
    have hnull : v ≠ .null := by
      rintro rfl
      cases hresult
    by_cases htext : ∃ code, v = .text code
    · obtain ⟨code, rfl⟩ := htext
      obtain rfl := Except.error.inj ((check_of_error hresult).symm.trans h)
      obtain ⟨ds, ⟨t, ht, hds⟩, hlong, rfl⟩ := stopsIn_read code e' hresult
      exact ⟨code, t, ds, rfl, ht, hds, hlong, rfl⟩
    · cases (check_of_noCode hnull fun code hcode ↦ htext ⟨code, hcode⟩).symm.trans h

/-- A check comes back unless a number of the code is converted and too long.  Its verdict is
favourable exactly when the value is read with nothing to report, and it lists the reports in order,
or the one reason why the value is no code. -/
theorem check_correct (v : Value) :
    ((check v).isOk = true ↔
      ∀ code, v = .text code → ∀ t ∈ tokens code.toList, Convertible t) ∧
    (∀ e, check v = .error e → ∃ code t ds, v = .text code ∧ t ∈ tokens code.toList ∧
      Converted t ds ∧ SourceError.digitLimit < ds.length ∧ e = .overlong ds.length) ∧
    ∀ verdict, check v = .ok verdict →
      (verdict.isValid = true ↔
        (readValue v).result.isOk = true ∧ (readValue v).diagnostics none = []) ∧
      (verdict.isValid = false → verdict.errors ≠ []) ∧
      ((readValue v).result.isOk = true →
        verdict.errors = ((readValue v).diagnostics none).map (·.asError)) ∧
      ∀ e, (readValue v).result = .error e → verdict.errors = [e.message] := by
  refine ⟨isOk_check_iff v, fun e he ↦ exists_of_check_eq_error he, fun verdict hverdict ↦ ?_⟩
  cases hresult : (readValue v).result with
  | ok d =>
    obtain ⟨hvalid, herrors⟩ := errors_of_ok hverdict hresult
    refine ⟨?_, fun hinvalid ↦ ?_, fun _ ↦ herrors, fun e he ↦ by cases he⟩
    · simp [hvalid, Except.isOk, Except.toBool]
    · rw [herrors, ne_eq, List.map_eq_nil_iff, ← List.isEmpty_iff, ← hvalid, hinvalid]
      exact Bool.false_ne_true
  | error e =>
    obtain rfl := errors_of_error hverdict hresult
    have hnone : (Except.error e : Except SourceError Delta).isOk = false := rfl
    refine ⟨by simp [hnone], by simp, by simp [hnone], fun e' he' ↦ ?_⟩
    rw [Except.error.inj he']

/-- A code that raises a skill by a number of `n` ones. -/
def onesCode (n : Nat) : String := String.ofList (['S', 'S', 'A', '='] ++ List.replicate n '1')

theorem tokens_onesCode (n : Nat) :
    tokens (onesCode n).toList = [['S', 'S', 'A', '='] ++ List.replicate n '1'] := by
  have hchars : ∀ c ∈ ['S', 'S', 'A', '='] ++ List.replicate n '1', c ∈ ['S', 'A', '=', '1'] := by
    intro c hc
    rcases List.mem_append.1 hc with hc | hc
    · have hsub : ['S', 'S', 'A', '='] ⊆ ['S', 'A', '=', '1'] := by simp
      exact hsub hc
    · simp [List.eq_of_mem_replicate hc]
  rw [onesCode, String.toList_ofList]
  refine (Text.isPiece_of_not_blank (by simp) (fun h ↦ ?_) fun c hc ↦ ?_).pieces_eq
  · exact absurd (hchars _ h) (by decide)
  · have hclear : ['S', 'A', '=', '1'].any Text.isBlank = false := by decide
    exact Bool.eq_false_iff.2 (List.any_eq_false.1 hclear c (hchars c hc))

theorem le_digitLimit_of_check_onesCode {n : Nat} (hn : n ≠ 0)
    (h : (check (.text (onesCode n))).isOk = true) : n ≤ SourceError.digitLimit := by
  have hall := (isOk_check_iff _).1 h (onesCode n) rfl
  rw [tokens_onesCode] at hall
  have hdigits : Digits (Numeral.mk false (List.replicate n '1')).digits := by
    refine ⟨by simpa using hn, fun c hc ↦ ?_⟩
    rw [List.eq_of_mem_replicate hc]
    rfl
  have hhead : Head ['S', 'S', 'A', '='] (.skill "fitness") := .skillValue (by decide)
  simpa using (hall _ List.mem_cons_self).own _ (.numbered hhead hdigits)

/-- A check can stop without a verdict. -/
theorem not_forall_isOk_check : ¬ ∀ v, (check v).isOk = true := by
  intro h
  have hle := le_digitLimit_of_check_onesCode (by decide) (h (.text (onesCode 4301)))
  exact absurd hle (by decide)

end DataCode

end CharacterSheet
