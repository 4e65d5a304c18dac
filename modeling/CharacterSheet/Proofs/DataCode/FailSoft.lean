import CharacterSheet.Proofs.DataCode.Joining
import CharacterSheet.Proofs.Delta.Entry

/-!
# Reading is fail-soft

As long as every number can be converted, reading a code ends with a delta and reports exactly the
tokens outside the grammar and the comma pieces that cannot be gated.  What is reported changes
nothing, a gate token files its effects under its own gate, and any other token changes the one
entry that it names.
-/

namespace CharacterSheet.DataCode

/-! ## What reading should do -/

/-- Every number that is converted when a token is read has few enough digits. -/
def Short (token : List Char) : Prop :=
  ∀ ds, Converts token ds → ds.length ≤ SourceError.digitLimit

/-- A token is short, and so is each piece of a gate token. -/
structure Convertible (token : List Char) : Prop where
  own : Short token
  inner : ∀ gate body, Gated token gate body → ∀ p ∈ Text.pieces ',' body, Short p

/-- What comma pieces file under their gate, and which of them are reported. -/
inductive Files : List (List Char) → List GatedEffect → List (List Char) → Prop
  | nil : Files [] [] []
  | skill {p : List Char} {name : String} {n : Int} {ps rs : List (List Char)}
    {es : List GatedEffect} :
    Plain p (.skill name n) → n ≠ 0 → Files ps es rs →
      Files (p :: ps) (⟨.skill, name, n⟩ :: es) rs
  | mitigation {p : List Char} {name : String} {n : Int} {ps rs : List (List Char)}
    {es : List GatedEffect} :
    Plain p (.mitigation name n) → n ≠ 0 → Files ps es rs →
      Files (p :: ps) (⟨.mitigation, name, n⟩ :: es) rs
  | idle {p : List Char} {c : Contribution} {ps rs : List (List Char)} {es : List GatedEffect} :
    Plain p c → Delta.empty.add c = .empty → Files ps es rs → Files (p :: ps) es rs
  | ungatable {p : List Char} {c : Contribution} {ps rs : List (List Char)}
    {es : List GatedEffect} :
    Plain p c → (∀ name n, c ≠ .skill name n) → (∀ name n, c ≠ .mitigation name n) →
      Delta.empty.add c ≠ .empty → Files ps es rs → Files (p :: ps) es (p :: rs)
  | outside {p : List Char} {ps rs : List (List Char)} {es : List GatedEffect} :
    ¬ Accepted p → Files ps es rs → Files (p :: ps) es (p :: rs)

/-- Tokens change one delta into another, and some tokens and pieces are reported. -/
inductive Reads : Delta → List (List Char) → List (List Char) → Delta → Prop
  | nil (d : Delta) : Reads d [] [] d
  | outside {d e : Delta} {t : List Char} {ts rs : List (List Char)} :
    ¬ Accepted t → Reads d ts rs e → Reads d (t :: ts) (t :: rs) e
  | plain {d d' e : Delta} {t : List Char} {c : Contribution} {ts rs : List (List Char)} :
    Plain t c → c.Changes d d' → Reads d' ts rs e → Reads d (t :: ts) rs e
  | gated {d d' e : Delta} {t body : List Char} {gate : Gate} {es : List GatedEffect}
    {ts ps rs : List (List Char)} :
    Gated t gate body → Files (Text.pieces ',' body) es ps →
      (Contribution.gated gate es).Changes d d' → Reads d' ts rs e → Reads d (t :: ts) (ps ++ rs) e

/-! ## Tokens and gates -/

theorem Gated.gateShape {token body : List Char} {gate : Gate} (h : Gated token gate body) :
    ∃ letter, GateShape.ofToken? token = some ⟨letter, body⟩ ∧
      Gate.letters.find? letter = some gate := by
  cases h with
  | @mk letter gate body hgate hbody hclosing =>
    have hletter := Letters.forall_of_find? (isUpper · = true) (by decide) hgate
    exact ⟨letter, GateShape.ofToken?_eq_some_iff.2 ⟨rfl, hletter, hbody, hclosing⟩, hgate⟩

theorem ofToken?_of_gateShape {token : List Char} {shape : GateShape}
    (h : GateShape.ofToken? token = some shape) : Shape.ofToken? token = none := by
  obtain ⟨rfl, -⟩ := GateShape.ofToken?_eq_some_iff.1 h
  rw [ofToken?_of_head (specialRule .crafting) (by simp [headRules])]
  unfold specialRule skillToken?
  split
  · next heq =>
    simp only [List.cons.injEq] at heq
    obtain ⟨-, -, rfl, -⟩ := heq
    have hletter : isCodeLetter '[' = false := by decide
    simp [hletter]
  · rfl

theorem not_plain_of_gateShape {token : List Char} {shape : GateShape}
    (h : GateShape.ofToken? token = some shape) (c : Contribution) : ¬ Plain token c := by
  intro hplain
  obtain ⟨shape', hwritten, -⟩ := hplain.exists_written
  cases hwritten.ofToken?_eq.symm.trans (ofToken?_of_gateShape h)

theorem not_gated_of_not_mem {piece : List Char} (h : ']' ∉ piece) (gate : Gate)
    (body : List Char) : ¬ Gated piece gate body := by
  rintro ⟨-, -, -⟩
  exact h (by simp)

theorem Short.ending {token : List Char} (h : Short token) :
    (∃ c, Plain token c ∧ readSimple token = .done c) ∨
      ∃ f, (∀ c, ¬ Plain token c) ∧ readSimple token = complain token f := by
  have hending := ending_readSimple token
  generalize readSimple token = r at hending ⊢
  cases hending with
  | accepted hplain => exact .inl ⟨_, hplain, rfl⟩
  | reported f hnone => exact .inr ⟨f, hnone, rfl⟩
  | stopped hconverts hlong => exact absurd (h _ hconverts) (Nat.not_le.2 hlong)

/-! ## Pieces -/

/-- A reading ends with a result and complains about some tokens. -/
def Reading.Gives {α : Type} (r : Reading α) (a : α) (reported : List (List Char)) : Prop :=
  r.result = .ok a ∧ r.complaints.map Complaint.token = reported.map String.ofList

theorem Reading.Gives.andThen {α β : Type} {r : Reading α} {a : α} {f : α → Reading β} {b : β}
    {ps rs : List (List Char)} (hr : r.Gives a ps) (hf : (f a).Gives b rs) :
    (r.andThen f).Gives b (ps ++ rs) := by
  obtain ⟨hresult, hcomplaints⟩ := hr
  simp only [Gives, Reading.andThen, hresult, List.map_append, hcomplaints, hf.2, and_true]
  exact hf.1

theorem Reading.Gives.map {α β : Type} {r : Reading α} {a : α} {rs : List (List Char)}
    (h : r.Gives a rs) (f : α → β) : (r.map f).Gives (f a) rs := by
  obtain ⟨hresult, hcomplaints⟩ := h
  exact ⟨by simp [Reading.map, hresult, Except.map], hcomplaints⟩

theorem empty_add_skill {name : String} (h : name ∈ Schema.skills) :
    Delta.empty.add (.skill name 0) = .empty := by
  have hzero : Delta.empty.skills.get? name = some 0 := by
    show (Table.ofNames Schema.skills 0 Schema.nodup_skills).get? name = some 0
    rw [Table.get?_ofNames, if_pos h]
  simp only [Delta.add, Table.update, Table.getD_of_get? hzero, Int.add_zero,
    Table.set_eq_self hzero]

theorem empty_add_mitigation {name : String} (h : name ∈ Schema.mitigations) :
    Delta.empty.add (.mitigation name 0) = .empty := by
  have hzero : Delta.empty.mitigation.get? name = some 0 := by
    show (Table.ofNames Schema.mitigations 0 Schema.nodup_mitigations).get? name = some 0
    rw [Table.get?_ofNames, if_pos h]
  simp only [Delta.add, Table.update, Table.getD_of_get? hzero, Int.add_zero,
    Table.set_eq_self hzero]

theorem exists_gives_gatedEffects (gate : Gate) {p : List Char} {c : Contribution}
    (hplain : Plain p c) (hfits : c.Fits) :
    ∃ fs qs, (gatedEffects gate p c).Gives fs qs ∧
      ∀ ps es rs, Files ps es rs → Files (p :: ps) (fs ++ es) (qs ++ rs) := by
  unfold gatedEffects
  split
  · next name n =>
    by_cases hn : n = 0
    · subst hn
      exact ⟨[], [], ⟨rfl, rfl⟩, fun _ _ _ ↦ .idle hplain (empty_add_skill hfits)⟩
    · rw [if_neg hn]
      exact ⟨[⟨.skill, name, n⟩], [], ⟨rfl, rfl⟩, fun _ _ _ ↦ .skill hplain hn⟩
  · next name n =>
    by_cases hn : n = 0
    · subst hn
      exact ⟨[], [], ⟨rfl, rfl⟩, fun _ _ _ ↦ .idle hplain (empty_add_mitigation hfits)⟩
    · rw [if_neg hn]
      exact ⟨[⟨.mitigation, name, n⟩], [], ⟨rfl, rfl⟩, fun _ _ _ ↦ .mitigation hplain hn⟩
  · next hskill hmitigation =>
    have hempty := (Delta.normal_empty.add hfits).isEmpty_iff
    split
    · next h => exact ⟨[], [], ⟨rfl, rfl⟩, fun _ _ _ ↦ .idle hplain (hempty.1 h)⟩
    · next h =>
      exact ⟨[], [p], ⟨rfl, rfl⟩, fun _ _ _ ↦ .ungatable hplain hskill hmitigation (mt hempty.2 h)⟩

theorem exists_files (gate : Gate) {ps : List (List Char)} (hclosing : ∀ p ∈ ps, ']' ∉ p)
    (hcolon : ∀ p ∈ ps, ':' ∉ p) (hshort : ∀ p ∈ ps, Short p) :
    ∃ es rs, Files ps es rs ∧ (readPieces gate ps).Gives es rs := by
  induction ps with
  | nil => exact ⟨[], [], .nil, rfl, rfl⟩
  | cons p ps ih =>
    obtain ⟨es, rs, hfiles, hgives⟩ := ih (fun q hq ↦ hclosing q (List.mem_cons_of_mem p hq))
      (fun q hq ↦ hcolon q (List.mem_cons_of_mem p hq))
      fun q hq ↦ hshort q (List.mem_cons_of_mem p hq)
    have hrest (fs : List GatedEffect) (qs : List (List Char))
        (hpiece : (readPiece gate p).Gives fs qs) :
        (readPieces gate (p :: ps)).Gives (fs ++ es) (qs ++ rs) :=
      hpiece.andThen (hgives.map (fs ++ ·))
    rcases (hshort p List.mem_cons_self).ending with ⟨c, hplain, hread⟩ | ⟨f, hnone, hread⟩
    · have hfits := hplain.fits (hcolon p List.mem_cons_self)
      obtain ⟨fs, qs, hpiece, hcons⟩ := exists_gives_gatedEffects gate hplain hfits
      refine ⟨fs ++ es, qs ++ rs, hcons ps es rs hfiles, hrest fs qs ?_⟩
      rw [readPiece, hread, Reading.done_andThen]
      exact hpiece
    · have houtside : ¬ Accepted p := by
        rintro (⟨c, hplain⟩ | ⟨gate', body, hgated⟩)
        · exact hnone c hplain
        · exact not_gated_of_not_mem (hclosing p List.mem_cons_self) gate' body hgated
      refine ⟨es, p :: rs, .outside houtside hfiles, hrest [] [p] ?_⟩
      rw [readPiece, hread]
      exact ⟨rfl, rfl⟩

/-! ## Tokens -/

/-- What comes of one token: what it changes, and what of it is reported. -/
theorem exists_gives_readToken {t : List Char} (hcolon : ':' ∉ t) (h : Convertible t) :
    ∃ c qs, (readToken t).Gives c qs ∧
      ∀ d ts rs e, Reads (d.add c) ts rs e → Reads d (t :: ts) (qs ++ rs) e := by
  unfold readToken
  split
  · next shape hshape =>
    have hnone := not_plain_of_gateShape hshape
    unfold readGate
    split
    · next hgate =>
      -- The token has the shape of a gate token and no other, and its letter is no gate.
      have houtside : ¬ Accepted t := by
        rintro (⟨c, hplain⟩ | ⟨gate, body, hgated⟩)
        · exact hnone c hplain
        · obtain ⟨letter, hshape', hgate'⟩ := hgated.gateShape
          obtain rfl := Option.some.inj (hshape.symm.trans hshape')
          cases hgate.symm.trans hgate'
      exact ⟨.nothing, [t], ⟨rfl, rfl⟩, fun d ts rs e ↦ .outside houtside⟩
    · next gate hgate =>
      obtain ⟨rfl, hletter, hbody, hclosing⟩ := GateShape.ofToken?_eq_some_iff.1 hshape
      have hgated := Gated.mk hgate hbody hclosing
      have hmem {c : Char} {p : List Char} (hp : p ∈ Text.pieces ',' shape.body) (hc : c ∈ p) :
          c ∈ shape.body := (Text.sublist_of_mem_pieces hp).subset hc
      obtain ⟨es, ps, hfiles, hgives⟩ := exists_files gate (fun p hp hp' ↦ hclosing (hmem hp hp'))
        (fun p hp hp' ↦ hcolon (by simp [hmem hp hp'])) (h.inner gate shape.body hgated)
      exact ⟨.gated gate es, ps, hgives.map _, fun d ts rs e ↦
        .gated hgated hfiles (d.changes_add _)⟩
  · next hshape =>
    rcases h.own.ending with ⟨c, hplain, hread⟩ | ⟨f, hnone, hread⟩
    · rw [hread]
      exact ⟨c, [], ⟨rfl, rfl⟩, fun d ts rs e ↦ .plain hplain (d.changes_add c)⟩
    · have houtside : ¬ Accepted t := by
        rintro (⟨c, hplain⟩ | ⟨gate, body, hgated⟩)
        · exact hnone c hplain
        · obtain ⟨letter, hshape', -⟩ := hgated.gateShape
          cases hshape.symm.trans hshape'
      rw [hread]
      exact ⟨.nothing, [t], ⟨rfl, rfl⟩, fun d ts rs e ↦ .outside houtside⟩

theorem exists_reads {ts : List (List Char)} (hcolon : ∀ t ∈ ts, ':' ∉ t)
    (h : ∀ t ∈ ts, Convertible t) (d : Delta) :
    ∃ e rs, Reads d ts rs e ∧ (readTokens d ts).Gives e rs := by
  induction ts generalizing d with
  | nil => exact ⟨d, [], .nil d, rfl, rfl⟩
  | cons t ts ih =>
    obtain ⟨c, qs, hgives, hcons⟩ :=
      exists_gives_readToken (hcolon t List.mem_cons_self) (h t List.mem_cons_self)
    obtain ⟨e, rs, hreads, hrest⟩ := ih (fun u hu ↦ hcolon u (List.mem_cons_of_mem t hu))
      (fun u hu ↦ h u (List.mem_cons_of_mem t hu)) (d.add c)
    exact ⟨e, qs ++ rs, hcons d ts rs e hreads, hgives.andThen hrest⟩

/-! ## Numbers that are too long -/

theorem Converts.exists_written {token ds : List Char} (h : Converts token ds) :
    ∃ shape, Written shape token ∧ (SourceError.digitLimit < ds.length →
      shape.meaning = .error (.error (.overlong ds.length))) := by
  cases h with
  | @numbered head f n hhead hdigits =>
    obtain ⟨shape, hwritten, hmeaning⟩ := hhead.exists_written hdigits
    refine ⟨shape, hwritten, fun hlong ↦ ?_⟩
    rw [hmeaning, n.value_eq, if_pos hlong]
    rfl
  | @auto letter n hletter hdigits =>
    refine ⟨.auto letter n, .auto hletter (numeral?_text hdigits), fun hlong ↦ ?_⟩
    rw [Shape.meaning, autoMeaning, n.value_eq, if_pos hlong]
    rfl
  | @ability k d m kind daily magical ds hkind hdaily hmagical hdigits =>
    refine ⟨.ability kind daily magical ⟨false, ds⟩, .ability hkind hdaily hmagical hdigits,
      fun hlong ↦ ?_⟩
    rw [Shape.meaning, Numeral.value_eq, if_pos hlong]
    rfl

theorem short_of_readSimple {token : List Char} {c : Contribution}
    (h : (readSimple token).result = .ok c) : Short token := by
  intro ds hconverts
  obtain ⟨shape, hwritten, hmeaning⟩ := hconverts.exists_written
  refine Nat.not_lt.1 fun hlong ↦ ?_
  rw [readSimple_of_written hwritten, hmeaning hlong] at h
  cases h

theorem short_of_readPieces {gate : Gate} {ps : List (List Char)} {es : List GatedEffect}
    (h : (readPieces gate ps).result = .ok es) : ∀ p ∈ ps, Short p := by
  induction ps generalizing es with
  | nil => exact fun p hp ↦ absurd hp List.not_mem_nil
  | cons p ps ih =>
    obtain ⟨fs, hfs, h⟩ := Reading.andThen_result_eq_ok_iff.1 h
    obtain ⟨c, hc, -⟩ := Reading.andThen_result_eq_ok_iff.1 hfs
    obtain ⟨gs, hgs, -⟩ := Reading.map_result_eq_ok_iff.1 h
    intro q hq
    rcases List.mem_cons.1 hq with rfl | hq
    · exact short_of_readSimple hc
    · exact ih hgs q hq

theorem convertible_of_readToken {token : List Char} {c : Contribution}
    (h : (readToken token).result = .ok c) : Convertible token := by
  unfold readToken at h
  split at h
  · next shape hshape =>
    refine ⟨fun ds hconverts ↦ ?_, fun gate body hgated ↦ ?_⟩
    · obtain ⟨shape', hwritten, -⟩ := hconverts.exists_written
      exact absurd hwritten.ofToken?_eq (by simp [ofToken?_of_gateShape hshape])
    · obtain ⟨letter, hshape', hgate⟩ := hgated.gateShape
      obtain rfl := Option.some.inj (hshape.symm.trans hshape')
      simp only [readGate, hgate] at h
      obtain ⟨es, hes, -⟩ := Reading.map_result_eq_ok_iff.1 h
      exact short_of_readPieces hes
  · next hshape =>
    refine ⟨short_of_readSimple h, fun gate body hgated ↦ ?_⟩
    obtain ⟨letter, hshape', -⟩ := hgated.gateShape
    cases hshape.symm.trans hshape'

/-- Reading a code fails only at a number that is converted and too long. -/
theorem isOk_read_iff (code : String) :
    (read code).result.isOk = true ↔ ∀ t ∈ tokens code.toList, Convertible t := by
  constructor
  · intro h
    have hall (ts : List (List Char)) (d e : Delta) (he : (readTokens d ts).result = .ok e) :
        ∀ t ∈ ts, Convertible t := by
      induction ts generalizing d with
      | nil => exact fun t ht ↦ absurd ht List.not_mem_nil
      | cons t ts ih =>
        obtain ⟨c, hc, he⟩ := Reading.andThen_result_eq_ok_iff.1 he
        intro u hu
        rcases List.mem_cons.1 hu with rfl | hu
        · exact convertible_of_readToken hc
        · exact ih _ he u hu
    cases hd : (read code).result with
    | error err => simp [hd, Except.isOk, Except.toBool] at h
    | ok d => exact hall _ _ d hd
  · intro h
    obtain ⟨e, rs, -, hresult, -⟩ := exists_reads (fun _ ↦ colon_not_mem_of_mem_tokens) h .empty
    have hresult : (read code).result = .ok e := hresult
    simp [hresult, Except.isOk, Except.toBool]

/-- A code in which every number can be converted is read to its end, token by token. -/
theorem read_failSoft {code : String} (h : ∀ t ∈ tokens code.toList, Convertible t)
    (source : Option String) :
    ∃ d reported, (read code).result = .ok d ∧
      Reads .empty (tokens code.toList) reported d ∧
      ((read code).diagnostics source).map (fun g ↦ (g.kind, g.token, g.source)) =
        reported.map fun t ↦ (.unrecognizedToken, some (String.ofList t), source) := by
  obtain ⟨d, rs, hreads, hresult, hcomplaints⟩ :=
    exists_reads (fun _ ↦ colon_not_mem_of_mem_tokens) h .empty
  refine ⟨d, rs, hresult, hreads, ?_⟩
  have hlisted := congrArg (List.map fun token ↦
    (DiagnosticKind.unrecognizedToken, some token, source)) hcomplaints
  rw [List.map_map, List.map_map] at hlisted
  rw [Reading.diagnostics, List.map_map]
  exact hlisted

/-- Of a code with good and bad tokens the bad ones are reported, and pieces among them. -/
theorem read_scribbled_failSoft :
    (∀ t ∈ tokens "SSA=2: ZZ :CF[SSB=1, TG,M1=0]:AZ=3:TP=12:SSA=-2".toList, Convertible t) ∧
    ∃ d reported, (read "SSA=2: ZZ :CF[SSB=1, TG,M1=0]:AZ=3:TP=12:SSA=-2").result = .ok d ∧
      Reads .empty (tokens "SSA=2: ZZ :CF[SSB=1, TG,M1=0]:AZ=3:TP=12:SSA=-2".toList) reported d ∧
      ((read "SSA=2: ZZ :CF[SSB=1, TG,M1=0]:AZ=3:TP=12:SSA=-2").diagnostics (some "boots")).map
        (fun g ↦ (g.kind, g.token, g.source)) =
          reported.map fun t ↦ (.unrecognizedToken, some (String.ofList t), some "boots") := by
  have h := (isOk_read_iff "SSA=2: ZZ :CF[SSB=1, TG,M1=0]:AZ=3:TP=12:SSA=-2").1 (by decide)
  exact ⟨h, read_failSoft h (some "boots")⟩

end CharacterSheet.DataCode
