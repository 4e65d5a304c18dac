import CharacterSheet.Proofs.DataCode.Grammar
import CharacterSheet.Proofs.Delta.Merge

/-!
# Reading joined codes

What the tokens of a code contribute fits the schema, so a code is read into a delta of the normal
form.  Reading starts from any such delta as well as from the empty one, and the difference is a
merge.  Hence two codes with a colon between them are read into the merge of what they are read
into, the first error ends the reading, and the complaints come one after the other.
-/

namespace CharacterSheet.DataCode

/-! ## What is read fits the schema -/

theorem Head.fits {head : List Char} {f : Int → Contribution} (h : Head head f) (n : Int) :
    (f n).Fits := by
  cases h <;> exact Letters.mem_names_of_find? ‹_›

theorem Plain.fits {token : List Char} {c : Contribution} (h : Plain token c)
    (hcolon : ':' ∉ token) : c.Fits := by
  cases h with
  | numbered hhead hdigits => exact hhead.fits _
  | step hname hsteps => exact Letters.mem_names_of_find? hname
  | specialStep hname hsteps => exact Letters.mem_names_of_find? hname
  | dualWield hdigits htier => exact htier
  | immunity hname => exact Letters.mem_names_of_find? hname
  | flag hname => exact Letters.mem_names_of_find? hname
  | talentPoints => trivial
  | talentPointsNumber hdigits => trivial
  | trait hkind => exact ⟨⟨_, hkind, rfl⟩, fun p hp ↦ by cases hp⟩
  | @traitPayload letter kind payload hkind hpayload hline =>
    refine ⟨⟨letter, hkind, rfl⟩, fun p hp ↦ ?_⟩
    obtain rfl : String.ofList payload = p := Option.some.inj hp
    simp only [List.mem_cons, not_or] at hcolon
    simp [hpayload, hline, hcolon]
  | ability hkind hdaily hmagical hdigits => exact ⟨Int.natCast_nonneg _, rfl⟩

namespace Reading

variable {α β γ : Type}

theorem andThen_result_eq_ok_iff {r : Reading α} {f : α → Reading β} {b : β} :
    (r.andThen f).result = .ok b ↔ ∃ a, r.result = .ok a ∧ (f a).result = .ok b := by
  unfold andThen
  cases r.result with
  | error e => simp
  | ok a => simp

theorem map_result_eq_ok_iff {r : Reading α} {f : α → β} {b : β} :
    (r.map f).result = .ok b ↔ ∃ a, r.result = .ok a ∧ f a = b := by
  unfold map
  cases r.result with
  | error e => simp [Except.map]
  | ok a => simp [Except.map]

theorem map_andThen (r : Reading α) (f : α → Reading β) (g : β → γ) :
    (r.andThen f).map g = r.andThen fun a ↦ (f a).map g := by
  unfold andThen map
  cases r.result <;> rfl

end Reading

theorem fits_of_readSimple {token : List Char} {c : Contribution} (hcolon : ':' ∉ token)
    (h : (readSimple token).result = .ok c) : c.Fits := by
  have hending := ending_readSimple token
  generalize readSimple token = r at h hending
  cases hending with
  | accepted hplain =>
    obtain rfl := Except.ok.inj h
    exact hplain.fits hcolon
  | reported f hnone =>
    obtain rfl := Except.ok.inj h
    trivial
  | stopped hconverts hlong => cases h

/-- What a piece files is the bonus that it contributes, unless that is zero. -/
theorem eq_of_mem_gatedEffects {gate : Gate} {piece : List Char} {c : Contribution}
    {es : List GatedEffect} (h : (gatedEffects gate piece c).result = .ok es) {e : GatedEffect}
    (he : e ∈ es) : e.value ≠ 0 ∧ (e.kind = .skill ∧ c = .skill e.subtype e.value ∨
      e.kind = .mitigation ∧ c = .mitigation e.subtype e.value) := by
  unfold gatedEffects at h
  split at h
  · next name n =>
    obtain rfl := Except.ok.inj h
    split at he
    · cases he
    · next hn =>
      rw [List.mem_singleton.1 he]
      exact ⟨hn, .inl ⟨rfl, rfl⟩⟩
  · next name n =>
    obtain rfl := Except.ok.inj h
    split at he
    · cases he
    · next hn =>
      rw [List.mem_singleton.1 he]
      exact ⟨hn, .inr ⟨rfl, rfl⟩⟩
  · split at h <;> obtain rfl := Except.ok.inj h <;> cases he

/-- Every effect that is filed comes from one of the pieces. -/
theorem exists_piece_of_mem {gate : Gate} {pieces : List (List Char)} {es : List GatedEffect}
    (h : (readPieces gate pieces).result = .ok es) {e : GatedEffect} (he : e ∈ es) :
    ∃ p ∈ pieces, ∃ c, (readSimple p).result = .ok c ∧ e.value ≠ 0 ∧
      (e.kind = .skill ∧ c = .skill e.subtype e.value ∨
        e.kind = .mitigation ∧ c = .mitigation e.subtype e.value) := by
  induction pieces generalizing es with
  | nil =>
    obtain rfl := Except.ok.inj h
    cases he
  | cons p ps ih =>
    obtain ⟨fs, hfs, h⟩ := Reading.andThen_result_eq_ok_iff.1 h
    obtain ⟨c, hc, hfs⟩ := Reading.andThen_result_eq_ok_iff.1 hfs
    obtain ⟨gs, hgs, rfl⟩ := Reading.map_result_eq_ok_iff.1 h
    rcases List.mem_append.1 he with he | he
    · exact ⟨p, List.mem_cons_self, c, hc, eq_of_mem_gatedEffects hfs he⟩
    · obtain ⟨q, hq, hcontributed⟩ := ih hgs he
      exact ⟨q, List.mem_cons_of_mem p hq, hcontributed⟩

theorem regular_of_readPieces {gate : Gate} {pieces : List (List Char)}
    (hcolon : ∀ p ∈ pieces, ':' ∉ p) {es : List GatedEffect}
    (h : (readPieces gate pieces).result = .ok es) : ∀ e ∈ es, e.Regular := by
  intro e he
  obtain ⟨p, hp, c, hc, hne, hbonus⟩ := exists_piece_of_mem h he
  have hfits := fits_of_readSimple (hcolon p hp) hc
  refine ⟨hne, ?_⟩
  rcases hbonus with ⟨hkind, rfl⟩ | ⟨hkind, rfl⟩
  · rw [hkind]
    exact hfits
  · rw [hkind]
    exact hfits

theorem fits_of_readToken {token : List Char} {c : Contribution} (hcolon : ':' ∉ token)
    (h : (readToken token).result = .ok c) : c.Fits := by
  unfold readToken at h
  split at h
  · next shape hshape =>
    obtain ⟨rfl, -⟩ := GateShape.ofToken?_eq_some_iff.1 hshape
    unfold readGate at h
    split at h
    · obtain rfl := Except.ok.inj h
      trivial
    · next gate hgate =>
      obtain ⟨es, hes, rfl⟩ := Reading.map_result_eq_ok_iff.1 h
      refine regular_of_readPieces (fun p hp hmem ↦ hcolon ?_) hes
      have hbody := (Text.sublist_of_mem_pieces hp).subset hmem
      simp [hbody]
  · exact fits_of_readSimple hcolon h

theorem normal_of_readTokens {d e : Delta} (hd : d.Normal) {ts : List (List Char)}
    (hcolon : ∀ t ∈ ts, ':' ∉ t) (h : (readTokens d ts).result = .ok e) : e.Normal := by
  induction ts generalizing d with
  | nil =>
    obtain rfl := Except.ok.inj h
    exact hd
  | cons t ts ih =>
    obtain ⟨c, hc, h⟩ := Reading.andThen_result_eq_ok_iff.1 h
    have hfits := fits_of_readToken (hcolon t List.mem_cons_self) hc
    exact ih (hd.add hfits) (fun u hu ↦ hcolon u (List.mem_cons_of_mem t hu)) h

theorem colon_not_mem_of_mem_tokens {code t : List Char} (h : t ∈ tokens code) : ':' ∉ t :=
  Text.not_mem_of_mem_pieces h

theorem normal_of_read {code : String} {d : Delta} (h : (read code).result = .ok d) : d.Normal :=
  normal_of_readTokens Delta.normal_empty (fun _ ↦ colon_not_mem_of_mem_tokens) h

end CharacterSheet.DataCode

namespace CharacterSheet.Delta

/-- The deltas that come from reading codes and merging. -/
inductive Produced : Delta → Prop
  | read {code : String} {d : Delta} : (DataCode.read code).result = .ok d → Produced d
  | merge {a b : Delta} : Produced a → Produced b → Produced (a.merge b)

theorem Produced.empty : Produced .empty := @Produced.read "" .empty rfl

theorem Produced.normal {d : Delta} (h : d.Produced) : d.Normal := by
  induction h with
  | read h => exact DataCode.normal_of_read h
  | merge _ _ iha ihb => exact iha.merge ihb

theorem Produced.mergeAll {ds : List Delta} (h : ∀ d ∈ ds, d.Produced) :
    (mergeAll ds).Produced := by
  have hfold {d : Delta} (hd : d.Produced) {ds : List Delta} (hds : ∀ e ∈ ds, e.Produced) :
      (ds.foldl Delta.merge d).Produced := by
    induction ds generalizing d with
    | nil => exact hd
    | cons e ds ih =>
      apply ih (hd.merge (hds e List.mem_cons_self))
      intro e' he'
      exact hds e' (List.mem_cons_of_mem e he')
  exact hfold .empty h

/-- Whatever is read leads to the normal form, and whatever is merged of deltas in the normal form
is in it, two at a time or all at once. -/
theorem normal_of_read_and_merge :
    (∀ (code : String) (d : Delta), (DataCode.read code).result = .ok d → d.Normal) ∧
    (∀ a b : Delta, a.Normal → b.Normal → (a.merge b).Normal) ∧
    ∀ ds : List Delta, (∀ d ∈ ds, d.Normal) → (Delta.mergeAll ds).Normal := by
  refine ⟨?_, ?_, ?_⟩
  · intro code d h
    exact DataCode.normal_of_read h
  · intro a b ha hb
    exact ha.merge hb
  · intro ds h
    exact Normal.mergeAll h

/-- Two codes with a tier, a trait and an effect of zero, merged and folded. -/
theorem normal_of_read_and_merge_guild : ∃ d e : Delta,
    (DataCode.read "AZ=1:IA=1:TG=wild:XIME=2").result = .ok d ∧
      (DataCode.read "AZ=2:FB:CA[SSA=1,M1=0]:TG").result = .ok e ∧
        d.Normal ∧ (d.merge e).Normal ∧ (Delta.mergeAll [e, d, e]).Normal := by
  have hfirst : (DataCode.read "AZ=1:IA=1:TG=wild:XIME=2").result.isOk = true := by decide
  have hsecond : (DataCode.read "AZ=2:FB:CA[SSA=1,M1=0]:TG").result.isOk = true := by decide
  cases hd : (DataCode.read "AZ=1:IA=1:TG=wild:XIME=2").result with
  | error err =>
    rw [hd] at hfirst
    cases hfirst
  | ok d =>
    cases he : (DataCode.read "AZ=2:FB:CA[SSA=1,M1=0]:TG").result with
    | error err =>
      rw [he] at hsecond
      cases hsecond
    | ok e =>
      obtain ⟨hread, hmerge, hmergeAll⟩ := normal_of_read_and_merge
      have hnormal := hread _ d hd
      have hnormal' := hread _ e he
      refine ⟨d, e, rfl, rfl, hnormal, hmerge d e hnormal hnormal', hmergeAll _ ?_⟩
      simp [hnormal, hnormal']

end CharacterSheet.Delta

namespace CharacterSheet.DataCode

/-- What is read from a field is produced, whatever the field holds. -/
theorem produced_of_readValue {v : Value} {d : Delta} (h : (readValue v).result = .ok d) :
    d.Produced := by
  cases v with
  | null =>
    obtain rfl := Except.ok.inj h
    exact .empty
  | text code => exact .read h
  | _ => cases h

/-! ## Reading on from a delta -/

/-- Reading on from two deltas together is reading on from the second, folded into the first. -/
theorem readTokens_absorb (d : Delta) {e : Delta} (he : e.Normal) {ts : List (List Char)}
    (hcolon : ∀ t ∈ ts, ':' ∉ t) :
    readTokens (d.absorb e) ts = (readTokens e ts).map d.absorb := by
  induction ts generalizing e with
  | nil => rfl
  | cons t ts ih =>
    rw [readTokens, readTokens, Reading.map_andThen]
    unfold Reading.andThen
    cases hc : (readToken t).result with
    | error err => rfl
    | ok c =>
      have hfits := fits_of_readToken (hcolon t List.mem_cons_self) hc
      have hrest := ih (he.add hfits) fun u hu ↦ hcolon u (List.mem_cons_of_mem t hu)
      simp only [← Delta.absorb_add d he hfits, hrest]

theorem tokens_join (a b : String) :
    tokens (a ++ ":" ++ b).toList = tokens a.toList ++ tokens b.toList := by
  rw [← tokens_append]
  simp

/-- Joined codes are read one after the other, and what they are read into is merged. -/
theorem read_join_eq (a b : String) :
    read (a ++ ":" ++ b) = (read a).andThen fun d ↦ (read b).map d.merge := by
  rw [read, tokens_join, readTokens_append]
  show (read a).andThen _ = (read a).andThen _
  unfold Reading.andThen
  cases hd : (read a).result with
  | error err => rfl
  | ok d =>
    have hnormal := normal_of_read hd
    have hmerge : d.merge = d.absorb := funext fun e ↦ Delta.merge_eq_absorb hnormal e
    have hcolon : ∀ t ∈ tokens b.toList, ':' ∉ t := by
      intro t ht
      exact colon_not_mem_of_mem_tokens ht
    have hrest := readTokens_absorb d Delta.normal_empty hcolon
    rw [Delta.absorb_empty hnormal.rooted] at hrest
    simp only [hrest, hmerge]
    rfl

/-- Reading is a homomorphism: of two joined codes each is read on its own, the deltas are merged
and the diagnostics listed one after the other; the first error is the one of both. -/
theorem read_join (a b : String) (source : Option String) :
    ((read (a ++ ":" ++ b)).result.isOk = true ↔
      (read a).result.isOk = true ∧ (read b).result.isOk = true) ∧
    (read (a ++ ":" ++ b)).result = (match (read a).result, (read b).result with
      | .ok d, .ok e => .ok (d.merge e)
      | .error err, _ => .error err
      | .ok _, .error err => .error err) ∧
    (read (a ++ ":" ++ b)).diagnostics source = (read a).diagnostics source ++
      if (read a).result.isOk then (read b).diagnostics source else [] := by
  simp only [read_join_eq, Reading.andThen, Reading.map, Reading.diagnostics]
  cases (read a).result with
  | error err =>
    refine ⟨?_, rfl, ?_⟩
    · simp [Except.isOk, Except.toBool]
    · simp [Except.isOk, Except.toBool]
  | ok d =>
    cases (read b).result with
    | error err =>
      refine ⟨?_, rfl, ?_⟩
      · simp [Except.isOk, Except.toBool, Except.map]
      · simp [Except.isOk, Except.toBool]
    | ok e =>
      refine ⟨?_, rfl, ?_⟩
      · simp [Except.isOk, Except.toBool, Except.map]
      · simp [Except.isOk, Except.toBool]

end CharacterSheet.DataCode

namespace CharacterSheet.Delta

/-- Deltas form a monoid.  Associativity asks nothing of them; the empty delta is neutral for those
that come from reading or from merging. -/
theorem merge_monoid :
    (∀ a b c : Delta, (a.merge b).merge c = a.merge (b.merge c)) ∧
    (∀ d : Delta, ((∃ v : Value, (DataCode.readValue v).result = .ok d) ∨
        (∃ a b : Delta, d = a.merge b) ∨ ∃ ds : List Delta, d = mergeAll ds) →
      d.merge empty = d ∧ empty.merge d = d) ∧
    ∀ xs ys : List Delta, mergeAll (xs ++ ys) = (mergeAll xs).merge (mergeAll ys) := by
  refine ⟨merge_assoc, fun d hd ↦ ?_, mergeAll_append⟩
  have hrooted : d.Rooted := by
    rcases hd with ⟨v, hread⟩ | ⟨a, b, rfl⟩ | ⟨ds, rfl⟩
    · exact (DataCode.produced_of_readValue hread).normal.rooted
    · exact rooted_merge a b
    · exact rooted_mergeAll ds
  exact ⟨hrooted.merge_empty, hrooted.empty_merge⟩

theorem merge_read_empty : ∃ d : Delta,
    (DataCode.readValue (.text "SSA=2:TG=wild:TG")).result = .ok d ∧
      d.merge empty = d ∧ empty.merge d = d := by
  have hread : (DataCode.readValue (.text "SSA=2:TG=wild:TG")).result.isOk = true := by decide
  cases h : (DataCode.readValue (.text "SSA=2:TG=wild:TG")).result with
  | error err =>
    rw [h] at hread
    cases hread
  | ok d => exact ⟨d, rfl, merge_monoid.2.1 d (.inl ⟨_, h⟩)⟩

end CharacterSheet.Delta
